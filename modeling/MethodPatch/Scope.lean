/-
**Names of local variables.**

A table records variables by name: the type as written where the variable is declared in source
text, and the type and the slot that it is bound to once they are settled. A scope is a table and
the tables around it. A look-up goes from the inside out.

* `Scope.bound?`: the innermost variable of a name that is bound; a declaration that is not settled
  yet does not hide a variable further out;
* `Table.find?_insert`: a table holds one variable for a name, the one recorded last.
-/

import MethodPatch.Syntax.Tree

namespace MethodPatch

/-- A local variable and what is known about it. -/
structure Symbol where
  name : String
  type : Option TypeRef
  descriptor : Option FieldType
  slot : Option Slot
  deriving DecidableEq

namespace Symbol

/-- A variable that has a slot and a type. -/
def bound (name : String) (slot : Slot) (type : FieldType) : Symbol :=
  ⟨name, none, some type, some slot⟩

/-- A variable declared in source text. Its type is known if no class has to be looked up for it. -/
def declared (name : String) (type : TypeRef) : Symbol := ⟨name, some type, type.primitive?, none⟩

/-- The slot and the type of a variable that has both. -/
def binding? (symbol : Symbol) : Option (Slot × FieldType) :=
  match symbol.slot, symbol.descriptor with
  | some slot, some type => some (slot, type)
  | _, _ => none

end Symbol

/-- Variables by name, in the order in which the names came up. -/
abbrev Table := List Symbol

namespace Table

/-- The variable of a name. -/
def find? (table : Table) (name : String) : Option Symbol :=
  List.find? (fun symbol => symbol.name = name) table

/-- The table with a variable, which replaces one of the same name. -/
def insert (symbol : Symbol) : Table → Table
  | [] => [symbol]
  | first :: rest => if first.name = symbol.name then symbol :: rest else first :: insert symbol rest

/-- The table with a name bound to a slot and a type. A type as written stays. -/
def bind (table : Table) (name : String) (slot : Slot) (type : FieldType) : Table :=
  table.insert { name, type := (table.find? name).bind Symbol.type, descriptor := some type,
                 slot := some slot }

/-- The variables in the order of their names. -/
def sorted (table : Table) : List Symbol := table.mergeSort fun first second => first.name ≤ second.name

theorem find?_insert (table : Table) (symbol : Symbol) (name : String) :
    (table.insert symbol).find? name =
      if symbol.name = name then some symbol else table.find? name := by
  induction table with
  | nil => by_cases same : symbol.name = name <;> simp [insert, find?, same]
  | cons first rest ih =>
    unfold insert
    unfold find? at ih ⊢
    by_cases replaced : first.name = symbol.name
    · by_cases same : symbol.name = name <;> simp [replaced, same]
    · by_cases same : symbol.name = name
      · have other : first.name ≠ name := fun equal => replaced (equal.trans same.symm)
        simp [same, other] at ih ⊢
        exact ih
      · simp only [replaced, if_false, List.find?_cons, ih, same]

end Table

/-- A table and the tables around it, the nearest first. -/
structure Scope where
  own : Table
  outer : List Table
  deriving DecidableEq

namespace Scope

/-- A table with nothing around it. -/
def root (table : Table) : Scope := ⟨table, []⟩

/-- An empty table inside a scope. -/
def inside (scope : Scope) : Scope := ⟨[], scope.own :: scope.outer⟩

/-- All tables, from the inside out. -/
def tables (scope : Scope) : List Table := scope.own :: scope.outer

/-- The innermost variable of a name. -/
def find? (scope : Scope) (name : String) : Option Symbol :=
  scope.tables.findSome? fun table => table.find? name

/-- The innermost variable of a name that is bound. -/
def bound? (scope : Scope) (name : String) : Option Symbol :=
  scope.tables.findSome? fun table =>
    (table.find? name).filter fun symbol => symbol.binding?.isSome

/-- The slot and the type that a name stands for. -/
def binding? (scope : Scope) (name : String) : Option (Slot × FieldType) :=
  (scope.bound? name).bind Symbol.binding?

/-- The scope with a variable in its own table. -/
def declare (scope : Scope) (symbol : Symbol) : Scope :=
  { scope with own := scope.own.insert symbol }

/-- The scope with declarations in its own table, in order. -/
def declareAll (scope : Scope) (declared : Array Declaration) : Scope :=
  declared.foldl (fun scope entry => scope.declare (.declared entry.name entry.type)) scope

/-- The scope with a name of its own table bound to a slot and a type. -/
def bind (scope : Scope) (name : String) (slot : Slot) (type : FieldType) : Scope :=
  { scope with own := scope.own.bind name slot type }

end Scope

end MethodPatch
