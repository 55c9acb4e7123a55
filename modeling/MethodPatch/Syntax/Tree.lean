/-
**Syntax trees.**

Statements and expressions of a fragment, each with the place it begins at or, for a binary
operator, the place of its left operand.

* `Expr.qualifiedName?`: the dotted name that a chain of names spells;
* `Stmt.declared`: the declarators of a statement and of the statements in it, in source order.
-/

import MethodPatch.Code.Instr
import MethodPatch.Source.Position
import MethodPatch.Text.Utf16
import MethodPatch.Types.SourceName

namespace MethodPatch

/-! ### Operators of expressions

A binary operator computes a value from its operands or compares them; only the former can be part
of an assignment. `&&` and `||` are apart, for their right operand is not always evaluated. -/

/-- Operators that compute a value from two operands. -/
inductive ComputeOp where
  | arithmetic (op : Arithmetic)
  | shift (op : Shift)
  | bitwise (op : Bitwise)
  deriving DecidableEq

/-- Operators on two values. -/
inductive BinaryOp where
  | compute (op : ComputeOp)
  | compare (comparison : Comparison)
  deriving DecidableEq

/-- Operators whose right operand is evaluated only if the left one does not decide. -/
inductive LogicalOp where
  | and | or
  deriving DecidableEq

/-- Operators on one value. -/
inductive UnaryOp where
  | minus | plus | not | complement
  deriving DecidableEq

/-- Operators that change a variable by one. -/
inductive UpdateOp where
  | increment | decrement
  deriving DecidableEq

/-- The spelling of an operator. -/
def ComputeOp.symbol : ComputeOp → String
  | .arithmetic .add => "+"
  | .arithmetic .sub => "-"
  | .arithmetic .mul => "*"
  | .arithmetic .div => "/"
  | .arithmetic .rem => "%"
  | .shift .left => "<<"
  | .shift .right => ">>"
  | .shift .unsignedRight => ">>>"
  | .bitwise .and => "&"
  | .bitwise .or => "|"
  | .bitwise .xor => "^"

/-- The spelling of a relation. -/
def Comparison.symbol : Comparison → String
  | .eq => "=="
  | .ne => "!="
  | .lt => "<"
  | .le => "<="
  | .gt => ">"
  | .ge => ">="

/-- The spelling of an operator. -/
def BinaryOp.symbol : BinaryOp → String
  | .compute op => op.symbol
  | .compare comparison => comparison.symbol

/-- The spelling of an operator. -/
def LogicalOp.symbol : LogicalOp → String
  | .and => "&&"
  | .or => "||"

/-- The spelling of an operator. -/
def UnaryOp.symbol : UnaryOp → String
  | .minus => "-"
  | .plus => "+"
  | .not => "!"
  | .complement => "~"

/-- The spelling of an operator. -/
def UpdateOp.symbol : UpdateOp → String
  | .increment => "++"
  | .decrement => "--"

/-- How tightly an operator binds: a larger number binds its operands first. -/
def ComputeOp.precedence : ComputeOp → Nat
  | .bitwise .or => 3
  | .bitwise .xor => 4
  | .bitwise .and => 5
  | .shift _ => 8
  | .arithmetic .add | .arithmetic .sub => 9
  | .arithmetic .mul | .arithmetic .div | .arithmetic .rem => 10

/-- How tightly a relation binds. -/
def Comparison.precedence : Comparison → Nat
  | .eq | .ne => 6
  | .lt | .le | .gt | .ge => 7

/-- How tightly `instanceof` binds: as the order relations do. -/
def instanceOfPrecedence : Nat := Comparison.precedence .lt

/-- How tightly an operator binds. -/
def BinaryOp.precedence : BinaryOp → Nat
  | .compute op => op.precedence
  | .compare comparison => comparison.precedence

/-- How tightly an operator binds: less than every other one. -/
def LogicalOp.precedence : LogicalOp → Nat
  | .or => 1
  | .and => 2

/-! ### Syntax trees

Statements and expressions of a fragment, each with the place it begins at or, for a binary
operator, the place of its left operand. -/

/-- The element type that a written type begins with. -/
inductive BaseType where
  | primitive (type : FieldType)
  | named (name : String)
  deriving DecidableEq

/-- A type as written: an element type and the number of bracket pairs behind it, in 8 bits. -/
structure TypeRef where
  base : BaseType
  dimensions : UInt8
  position : Option Position
  deriving DecidableEq

/-- Literal values. Numbers with a fraction are kept as their bits, characters as UTF-16 units. -/
inductive Literal where
  | int (value : Int32)
  | long (value : Int64)
  | float (bits : UInt32)
  | double (bits : UInt64)
  | char (unit : Text.Unit16)
  | string (text : String)
  | boolean (value : Bool)
  | null
  deriving DecidableEq

/-- Expressions. -/
inductive Expr where
  | literal (value : Literal) (position : Position)
  | name (identifier : String) (position : Position)
  | this (position : Position)
  | member (object : Expr) (identifier : String) (position : Position)
  | call (callee : Option Expr) (method : String) (arguments : List Expr) (position : Position)
  | new (type : TypeRef) (arguments : List Expr) (position : Position)
  | newArray (element : TypeRef) (length : Expr) (position : Position)
  | index (array index : Expr) (position : Position)
  | assign (target : Expr) (op : Option ComputeOp) (value : Expr) (position : Position)
  | update (op : UpdateOp) (before : Bool) (target : Expr) (position : Position)
  | unary (op : UnaryOp) (operand : Expr) (position : Position)
  | binary (op : BinaryOp) (left right : Expr) (position : Position)
  | logical (op : LogicalOp) (left right : Expr) (position : Position)
  | conditional (test first second : Expr) (position : Position)
  | cast (type : TypeRef) (operand : Expr) (position : Position)
  | instanceOf (operand : Expr) (type : TypeRef) (position : Position)

/-- One variable of a declaration. Its slot and its type may be settled before code is generated. -/
structure Declarator where
  name : String
  type : TypeRef
  initial : Option Expr
  slot : Option Slot
  typeName : Option String
  position : Position

/-- A variable that a text declares, with its type as written. -/
structure Declaration where
  name : String
  type : TypeRef
  deriving DecidableEq

/-- Statements. -/
inductive Stmt where
  | declare (final : Bool) (declarators : List Declarator) (position : Position)
  | expression (expression : Expr) (position : Position)
  | branch (test : Expr) (first : Stmt) (second : Option Stmt) (position : Position)
  | whileLoop (test : Expr) (body : Stmt) (position : Position)
  | doLoop (body : Stmt) (test : Expr) (position : Position)
  | forLoop (start : List Stmt) (test : Option Expr) (updates : List Expr) (body : Stmt)
      (position : Position)
  | block (body : List Stmt) (position : Position)
  | ret (result : Option Expr) (position : Position)
  | breakLoop (position : Position)
  | continueLoop (position : Position)
  | throwing (thrown : Expr) (position : Position)
  | empty (position : Position)

namespace TypeRef

/-- The type with one pair of brackets more. Their count starts over behind 255. -/
def arrayOf (type : TypeRef) : TypeRef := { type with dimensions := type.dimensions + 1 }

/-- An array type of a number of dimensions. -/
def arrayType (element : FieldType) : Nat → FieldType
  | 0 => element
  | dimensions + 1 => .array (arrayType element dimensions)

/-- The type that is meant, if no class has to be looked up for it. -/
def primitive? (type : TypeRef) : Option FieldType :=
  match type.base with
  | .primitive element => some (arrayType element type.dimensions.toNat)
  | .named _ => none

/-- The type as it is written. -/
def text (type : TypeRef) : String :=
  (match type.base with
    | .primitive element => element.sourceName
    | .named name => name) ++
    String.join (List.replicate type.dimensions.toNat "[]")

end TypeRef

namespace Expr

/-- The place of an expression. -/
def position : Expr → Position
  | .literal _ position | .name _ position | .this position | .member _ _ position
  | .call _ _ _ position | .new _ _ position | .newArray _ _ position | .index _ _ position
  | .assign _ _ _ position | .update _ _ _ position | .unary _ _ position
  | .binary _ _ _ position | .logical _ _ _ position | .conditional _ _ _ position
  | .cast _ _ position | .instanceOf _ _ position => position

/-- The dotted name that a chain of names spells. -/
def qualifiedName? : Expr → Option String
  | .name identifier _ => some identifier
  | .member object identifier _ => (qualifiedName? object).map (· ++ "." ++ identifier)
  | _ => none

/-- Expressions that name a place to store a value in. -/
def isAssignable : Expr → Bool
  | .name _ _ | .member _ _ _ | .index _ _ _ => true
  | _ => false

/-- Expressions that may stand alone as a statement. -/
def isStatement : Expr → Bool
  | .assign _ _ _ _ | .update _ _ _ _ | .call _ _ _ _ | .new _ _ _ => true
  | _ => false

end Expr

namespace Stmt

/-- The place of a statement. -/
def position : Stmt → Position
  | .declare _ _ position | .expression _ position | .branch _ _ _ position
  | .whileLoop _ _ position | .doLoop _ _ position | .forLoop _ _ _ _ position | .block _ position
  | .ret _ position | .breakLoop position | .continueLoop position | .throwing _ position
  | .empty position => position

/-- Declarations as opposed to every other statement. -/
def isDeclaration : Stmt → Bool
  | .declare _ _ _ => true
  | _ => false

mutual

/-- The declarators of a statement and of the statements in it, in source order. -/
def declared : Stmt → List Declarator
  | .declare _ declarators _ => declarators
  | .branch _ first none _ => declared first
  | .branch _ first (some second) _ => declared first ++ declared second
  | .whileLoop _ body _ | .doLoop body _ _ => declared body
  | .forLoop start _ _ body _ => declaredAll start ++ declared body
  | .block body _ => declaredAll body
  | _ => []

/-- The declarators of a list of statements. -/
def declaredAll : List Stmt → List Declarator
  | [] => []
  | first :: rest => declared first ++ declaredAll rest

end

mutual

/-- The statement with every declarator in it changed, in source order. -/
def mapDeclared {m : Type → Type} [Monad m] (change : Declarator → m Declarator) : Stmt → m Stmt
  | .declare final declarators position => do
    return .declare final (← declarators.mapM change) position
  | .branch test first none position => do return .branch test (← first.mapDeclared change) none position
  | .branch test first (some second) position => do
    return .branch test (← first.mapDeclared change) (some (← second.mapDeclared change)) position
  | .whileLoop test body position => do return .whileLoop test (← body.mapDeclared change) position
  | .doLoop body test position => do return .doLoop (← body.mapDeclared change) test position
  | .forLoop start test updates body position => do
    return .forLoop (← mapDeclaredAll change start) test updates (← body.mapDeclared change) position
  | .block body position => do return .block (← mapDeclaredAll change body) position
  | statement => return statement

/-- Statements with every declarator in them changed, in source order. -/
def mapDeclaredAll {m : Type → Type} [Monad m] (change : Declarator → m Declarator) :
    List Stmt → m (List Stmt)
  | [] => return []
  | first :: rest => do return (← first.mapDeclared change) :: (← mapDeclaredAll change rest)

end

end Stmt

end MethodPatch
