/-
**Operators bind by precedence, and to the left.**

Names joined by operators are read as the one tree that has them in their order and in which no
operator stands below one that binds more tightly: what is to the left of an operator binds at least
as tightly as it does, and what is to its right binds more tightly. While a chain is climbed, the left
operand binds at least as tightly as the operator that comes next, or that operator is left to a
reader further out.

* `Punct.levels`: the operators from the loosest to the tightest;
* `Expr.inOrder`, `Expr.isGrouped`: the tokens of a tree of names and operators, and the trees in which
  operators bind by their levels and to the left;
* `Parse.climbFrom_chain`: what a climb makes of a chain, and where it stops;
* `Expr.unplaced_of_isGrouped`: such a tree is known from its tokens;
* `Expr.parse_chain`: **a chain is read as the one tree that it spells.**
-/

import MethodPatch.Proofs.Syntax.Parsing

namespace MethodPatch

/-! ### Levels -/

/-- The operators between two operands, from those that bind loosest to those that bind tightest. -/
def Punct.levels : List (List Punct) :=
  [[.orOr], [.andAnd], [.or], [.xor], [.and], [.eqEq, .notEq], [.lt, .ltEq, .gt, .gtEq],
    [.ltLt, .gtGt, .gtGtGt], [.plus, .minus], [.star, .slash, .percent]]

/-- How tightly a punctuator binds: as many levels are looser. -/
def Punct.level (mark : Punct) : Nat := Punct.levels.findIdx (mark ∈ ·)

namespace Parse

/-- Operators are climbed by their levels. -/
theorem JoinOp.precedence_eq (op : JoinOp) : op.precedence = op.mark.level + 1 := by
  rcases op with ((op | op | op) | comparison) | op
  all_goals first | cases op <;> rfl | cases comparison <;> rfl

theorem JoinOp.mark_injective {one other : JoinOp} (same : one.mark = other.mark) : one = other := by
  have isOne := joinOp?_mark one
  rw [same, joinOp?_mark] at isOne
  exact (Option.some.inj isOne).symm

/-- Two operands joined, at some place. -/
def JoinOp.node (op : JoinOp) (left right : Expr) (position : Position) : Expr :=
  match op with
  | .binary op => .binary op left right position
  | .logical op => .logical op left right position

theorem JoinOp.join_eq_node (op : JoinOp) (left right : Expr) :
    op.join left right = op.node left right left.position := by
  cases op <;> rfl

end Parse

open Parse (JoinOp)

/-! ### Chains and their trees -/

/-- The tokens of operators and the names behind them. -/
def joined (others : List (JoinOp × String)) : List Token :=
  others.flatMap fun other => [.punct other.1.mark, .name other.2]

@[simp] theorem joined_nil : joined [] = [] := rfl

@[simp] theorem joined_cons (op : JoinOp) (name : String) (others : List (JoinOp × String)) :
    joined ((op, name) :: others) = .punct op.mark :: .name name :: joined others :=
  rfl

@[simp] theorem joined_append (first last : List (JoinOp × String)) :
    joined (first ++ last) = joined first ++ joined last :=
  List.flatMap_append

/-- The tokens of names joined by operators. -/
def chain (first : String) (others : List (JoinOp × String)) : List Token :=
  .name first :: joined others

namespace Expr

/-- An expression is a tree of names and operators, and these are its tokens from left to right. -/
inductive InOrder : Expr → List Token → Prop
  | name (identifier : String) (position : Position) :
    InOrder (.name identifier position) [.name identifier]
  | node (op : JoinOp) {left right : Expr} (position : Position) {ls rs : List Token}
    (isLeft : InOrder left ls) (isRight : InOrder right rs) :
    InOrder (op.node left right position) (ls ++ .punct op.mark :: rs)

/-- The operator at the root of an expression. -/
def root? : Expr → Option JoinOp
  | .binary op _ _ _ => some (.binary op)
  | .logical op _ _ _ => some (.logical op)
  | _ => none

/-- Whether an operator may stand over two operands: that of the left one binds at least as tightly,
that of the right one more tightly. -/
def groups (op : JoinOp) (left right : Expr) : Bool :=
  left.root?.all (op.mark.level ≤ ·.mark.level) && right.root?.all (op.mark.level < ·.mark.level)

/-- The trees in which every operator may stand where it does. -/
def isGrouped : Expr → Bool
  | .binary op left right _ => groups (.binary op) left right && isGrouped left && isGrouped right
  | .logical op left right _ => groups (.logical op) left right && isGrouped left && isGrouped right
  | _ => true

/-- The one tree that has these tokens and in which operators bind by their levels and to the left. -/
structure IsTreeOf (tree : Expr) (tokens : List Token) : Prop where
  inOrder : tree.InOrder tokens
  isGrouped : tree.isGrouped = true
  only : ∀ other : Expr, other.InOrder tokens → other.isGrouped = true →
    other.unplaced = tree.unplaced

variable {op : JoinOp} {left right : Expr} {position : Position} {ls rs : List Token}

@[simp] theorem root?_node : (op.node left right position).root? = some op := by cases op <;> rfl

theorem unplaced_node : (op.node left right position).unplaced =
    op.node left.unplaced right.unplaced .start := by
  cases op <;> rfl

theorem isGrouped_node_iff : (op.node left right position).isGrouped = true ↔
    ((∀ inner ∈ left.root?, op.mark.level ≤ inner.mark.level) ∧
      ∀ inner ∈ right.root?, op.mark.level < inner.mark.level) ∧
      left.isGrouped = true ∧ right.isGrouped = true := by
  have isNode : (op.node left right position).isGrouped =
      (groups op left right && left.isGrouped && right.isGrouped) := by
    cases op <;> rfl
  simp only [isNode, groups, Bool.and_eq_true, Option.all_eq_true, decide_eq_true_eq, and_assoc,
    Option.mem_def]

/-! ### One tree at most -/

/-- The root of a grouped tree binds no more tightly than any operator in it. -/
theorem root?_of_mem {tree : Expr} {tokens : List Token} (isTree : tree.InOrder tokens)
    (grouped : tree.isGrouped = true) {mark : Punct} (isIn : .punct mark ∈ tokens) :
    ∃ inner ∈ tree.root?, inner.mark.level ≤ mark.level := by
  induction isTree with
  | name identifier position => cases List.mem_singleton.mp isIn
  | node op position _ _ leftward rightward =>
    obtain ⟨⟨before, behind⟩, leftGrouped, rightGrouped⟩ := isGrouped_node_iff.mp grouped
    refine ⟨op, root?_node, ?_⟩
    rcases List.mem_append.mp isIn with isIn | isIn
    · obtain ⟨inner, isRoot, least⟩ := leftward leftGrouped isIn
      exact Nat.le_trans (before inner isRoot) least
    · rcases List.mem_cons.mp isIn with same | isIn
      · exact Nat.le_of_eq (congrArg Punct.level (Token.punct.inj same).symm)
      · obtain ⟨inner, isRoot, least⟩ := rightward rightGrouped isIn
        exact Nat.le_trans (Nat.le_of_lt (behind inner isRoot)) least

/-- Under an operator of a grouped tree, those to its left bind at least as tightly and those to its
right more tightly. -/
theorem levels_of_isGrouped (grouped : (op.node left right position).isGrouped = true)
    (isLeft : left.InOrder ls) (isRight : right.InOrder rs) :
    (∀ mark, .punct mark ∈ ls → op.mark.level ≤ mark.level) ∧
      ∀ mark, .punct mark ∈ rs → op.mark.level < mark.level := by
  obtain ⟨⟨before, behind⟩, leftGrouped, rightGrouped⟩ := isGrouped_node_iff.mp grouped
  constructor
  · intro mark isIn
    obtain ⟨inner, isRoot, least⟩ := root?_of_mem isLeft leftGrouped isIn
    exact Nat.le_trans (before inner isRoot) least
  · intro mark isIn
    obtain ⟨inner, isRoot, least⟩ := root?_of_mem isRight rightGrouped isIn
    exact Nat.lt_of_lt_of_le (behind inner isRoot) least

/-- An operator in front of another one is not the root where what is behind it binds more tightly
and what is in front of the other one does not bind less tightly than that one. -/
theorem nil_of_levels {one other : Punct} {between rs last : List Token}
    (same : .punct one :: rs = between ++ .punct other :: last)
    (front : ∀ mark, .punct mark ∈ between → other.level ≤ mark.level)
    (behind : ∀ mark, .punct mark ∈ rs → one.level < mark.level) : between = [] := by
  cases between with
  | nil => rfl
  | cons token inner =>
    obtain ⟨rfl, rfl⟩ := List.cons_eq_cons.mp same
    have loose := front one List.mem_cons_self
    have tight := behind other (List.mem_append_right _ List.mem_cons_self)
    exact absurd loose (Nat.not_le_of_lt tight)

/-- The root is the last one of the loosest operators, so the tokens tell where it is. -/
theorem append_inj_of_levels {one other : Punct} {first last : List Token}
    (same : ls ++ .punct one :: rs = first ++ .punct other :: last)
    (levels : (∀ mark, .punct mark ∈ ls → one.level ≤ mark.level) ∧
      ∀ mark, .punct mark ∈ rs → one.level < mark.level)
    (levels' : (∀ mark, .punct mark ∈ first → other.level ≤ mark.level) ∧
      ∀ mark, .punct mark ∈ last → other.level < mark.level) :
    ls = first ∧ one = other ∧ rs = last := by
  rcases List.append_eq_append_iff.mp same with ⟨between, rfl, isRest⟩ | ⟨between, rfl, isRest⟩
  · obtain rfl := nil_of_levels isRest
      (fun mark isIn => levels'.1 mark (List.mem_append_right _ isIn)) levels.2
    obtain ⟨isMark, rfl⟩ := List.cons_eq_cons.mp isRest
    exact ⟨(List.append_nil _).symm, Token.punct.inj isMark, rfl⟩
  · obtain rfl := nil_of_levels isRest
      (fun mark isIn => levels.1 mark (List.mem_append_right _ isIn)) levels'.2
    obtain ⟨isMark, rfl⟩ := List.cons_eq_cons.mp isRest
    exact ⟨List.append_nil _, (Token.punct.inj isMark).symm, rfl⟩

/-- A name alone has no operator in it. -/
theorem name_ne_node {identifier : String} {mark : Punct} : [.name identifier] ≠ ls ++ .punct mark :: rs := by
  intro same
  have isIn : .punct mark ∈ [Token.name identifier] := same ▸ by simp
  cases List.mem_singleton.mp isIn

/-- **A grouped tree is known from its tokens**, but for the places in it. -/
theorem unplaced_of_isGrouped {tree other : Expr} {tokens : List Token} (isTree : tree.InOrder tokens)
    (grouped : tree.isGrouped = true) (isOther : other.InOrder tokens)
    (otherGrouped : other.isGrouped = true) : other.unplaced = tree.unplaced := by
  induction isTree generalizing other with
  | name identifier position =>
    generalize isTokens : [Token.name identifier] = tokens at isOther
    cases isOther with
    | name => cases isTokens; rfl
    | node => exact absurd isTokens name_ne_node
  | @node op left right position ls rs isLeft isRight leftward rightward =>
    generalize isTokens : ls ++ .punct op.mark :: rs = tokens at isOther
    cases isOther with
    | name => exact absurd isTokens.symm name_ne_node
    | node op' _ isLeft' isRight' =>
      obtain ⟨rfl, isMark, rfl⟩ := append_inj_of_levels isTokens
        (levels_of_isGrouped grouped isLeft isRight)
        (levels_of_isGrouped otherGrouped isLeft' isRight')
      obtain rfl := Parse.JoinOp.mark_injective isMark
      obtain ⟨_, leftGrouped, rightGrouped⟩ := isGrouped_node_iff.mp grouped
      obtain ⟨_, leftGrouped', rightGrouped'⟩ := isGrouped_node_iff.mp otherGrouped
      rw [unplaced_node, unplaced_node, leftward leftGrouped isLeft' leftGrouped',
        rightward rightGrouped isRight' rightGrouped']

end Expr

/-! ### Climbing a chain -/

namespace Parse

variable {behind : List Token} {least : Nat}

/-- What a climb has read: a grouped tree whose root binds as tightly as was asked for. -/
structure Climbed (least : Nat) (tokens : List Token) (tree : Expr) : Prop where
  inOrder : tree.InOrder tokens
  isGrouped : tree.isGrouped = true
  tight : ∀ inner ∈ tree.root?, least ≤ inner.precedence

/-- The next operator, if there is one, binds less tightly than was asked for. -/
def Loosens (least : Nat) (others : List (JoinOp × String)) : Prop :=
  ∀ other ∈ others.head?, other.1.precedence < least

theorem climbed_name {identifier : String} {read : Expr}
    (same : read.unplaced = (Expr.name identifier .start).unplaced) :
    read.root? = none ∧ Climbed least [.name identifier] read := by
  cases read with
  | name found position =>
    cases same
    exact ⟨rfl, .name .., rfl, nofun⟩
  | call callee => cases callee <;> cases same
  | _ => cases same

/-- Two operands are joined by an operator that binds at most as tightly as the left one and less
tightly than the right one. -/
theorem Climbed.join {op : JoinOp} {left right : Expr} {ls rs : List Token} (fits : least ≤ op.precedence)
    (isLeft : Climbed least ls left) (next : ∀ inner ∈ left.root?, op.precedence ≤ inner.precedence)
    (isRight : Climbed (op.precedence + 1) rs right) :
    Climbed least (ls ++ .punct op.mark :: rs) (op.join left right) := by
  rw [JoinOp.join_eq_node]
  refine ⟨.node op _ isLeft.inOrder isRight.inOrder, ?_, fun inner isRoot => ?_⟩
  · refine Expr.isGrouped_node_iff.mpr ⟨⟨fun inner isRoot => ?_, fun inner isRoot => ?_⟩,
      isLeft.isGrouped, isRight.isGrouped⟩
    · have loose := next inner isRoot
      rw [JoinOp.precedence_eq, JoinOp.precedence_eq] at loose
      exact Nat.le_of_add_le_add_right loose
    · have tight := isRight.tight inner isRoot
      rw [JoinOp.precedence_eq, JoinOp.precedence_eq] at tight
      exact Nat.le_of_add_le_add_right tight
  · cases Expr.root?_node.symm.trans isRoot
    exact fits

/-- A reader takes some of the operators of a chain, up to one that binds less tightly than was
asked for. -/
def ClimbsTo {bound : Nat} (least : Nat) (front : List Token) (others : List (JoinOp × String))
    (behind : List Token) (reading : Reading (Parsed bound Expr)) : Prop :=
  ∃ taken remaining, others = taken ++ remaining ∧ Loosens least remaining ∧
    ReadsTo (joined remaining ++ behind) (Climbed least (front ++ joined taken)) reading

mutual

/-- **A climb takes the operators that bind tightly enough**, up to the first one that does not. The
next operator never binds more tightly than the root of what has been read. -/
theorem climbFrom_chain {least bound : Nat} {ending : Position} {behind : List Token}
    {tokens : List Lexeme} {left : Expr} {ls : List Token} {fewer : tokens.length < bound}
    (others : List (JoinOp × String)) (ends : joinEnds (front behind) = true)
    (isTokens : tokens.map Lexeme.token = joined others ++ behind) (isLeft : Climbed least ls left)
    (next : ∀ inner ∈ left.root?, Loosens (inner.precedence + 1) others) :
    ClimbsTo least ls others behind (climbFrom (.ok ending) least bound left tokens fewer) := by
  match others with
  | [] =>
    refine ⟨[], [], rfl, nofun, climbFrom_ends isTokens ends ?_⟩
    rwa [joined_nil, List.append_nil]
  | (op, name) :: rest =>
    obtain ⟨_, inside, rfl, isInside⟩ := exists_lexeme isTokens
    rw [climbFrom]
    simp only [look_ok, List.map_cons, front_cons, nextPunct?, joinOp?_mark, bind, Except.bind]
    by_cases loose : op.precedence < least
    · rw [if_pos loose]
      refine ⟨[], (op, name) :: rest, rfl, by rintro _ ⟨⟩; exact loose, .ok isTokens ?_⟩
      rwa [joined_nil, List.append_nil]
    · rw [if_neg loose]
      obtain ⟨inner, further, rfl, stops, right, ⟨last, _⟩, isRight, isLast, isOperand⟩ :=
        climb_chain (op.precedence + 1) ending name rest ends isInside
      have isJoin := isLeft.join (Nat.le_of_not_lt loose)
        (fun inner isRoot => Nat.le_of_lt_succ (next inner isRoot _ rfl)) isOperand
      have goesOn : ∀ root ∈ (op.join left right).root?, Loosens (root.precedence + 1) further := by
        rw [JoinOp.join_eq_node, Expr.root?_node]
        rintro _ ⟨⟩
        exact stops
      obtain ⟨taken, remaining, rfl, stops, reads⟩ := climbFrom_chain further ends isLast isJoin goesOn
      refine ⟨(op, name) :: (inner ++ taken), remaining, by simp, stops, ?_⟩
      simp only [isRight]
      simpa using reads
termination_by (others.length, 0)

/-- A climb begins with a name. -/
theorem climb_chain (least : Nat) (ending : Position) {behind : List Token} {tokens : List Lexeme}
    (first : String) (others : List (JoinOp × String)) (ends : joinEnds (front behind) = true)
    (isTokens : tokens.map Lexeme.token = .name first :: (joined others ++ behind)) :
    ClimbsTo least [.name first] others behind (climb (.ok ending) least tokens) := by
  have stops : operandEnds (front (joined others ++ behind)) = true := by
    cases others with
    | nil => exact operandEnds_of_joinEnds ends
    | cons other => exact operandEnds_mark (joinOp?_mark other.1)
  have isPart : IsPart (.name first .start) := isPart_name
  obtain ⟨read, ⟨rest, _⟩, isRead, isRest, same⟩ : ReadsTo (joined others ++ behind)
      (·.unplaced = (Expr.name first .start).unplaced) (unary (.ok ending) tokens) :=
    unary_part isPart isTokens stops
  obtain ⟨noRoot, isName⟩ := climbed_name same
  rw [climb, isRead]
  exact climbFrom_chain others ends isRest isName (by rw [noRoot]; nofun)
termination_by (others.length, 1)

end

/-- A chain is an expression. -/
theorem expression_chain (ending : Position) {tokens : List Lexeme} (first : String)
    (others : List (JoinOp × String)) (isTokens : tokens.map Lexeme.token = chain first others) :
    ReadsTo [] (Expr.IsTreeOf · (chain first others)) (expression (.ok ending) tokens) := by
  have isWhole : tokens.map Lexeme.token = .name first :: (joined others ++ []) := by
    rwa [List.append_nil]
  obtain ⟨taken, remaining, rfl, stops, reads⟩ := climb_chain 0 ending first others rfl isWhole
  -- No operator binds less tightly than nothing does.
  obtain rfl : remaining = [] := by
    cases remaining with
    | nil => rfl
    | cons other => exact absurd (stops other rfl) (Nat.not_lt_zero _)
  rw [List.append_nil] at reads ⊢
  refine expression_of_conditional (conditional_of_climb (reads.mono fun read climbed => ?_) rfl) rfl
  exact ⟨climbed.inOrder, climbed.isGrouped,
    fun _ => Expr.unplaced_of_isGrouped climbed.inOrder climbed.isGrouped⟩

end Parse

/-- A text with the tokens of a chain is read as the one tree that has them. -/
theorem Expr.parse_of_chain {text first : String} {others : List (JoinOp × String)} {items : List Lexeme}
    {ending : Position} (isLexed : lexemes text = ⟨items, .ok ending⟩)
    (isTokens : items.map Lexeme.token = chain first others) :
    ∃ read, Expr.parse text = .ok read ∧ read.IsTreeOf (chain first others) := by
  obtain ⟨read, ⟨rest, _⟩, isRead, isRest, isTree⟩ :=
    Parse.expression_chain ending first others isTokens
  refine ⟨read, ?_, isTree⟩
  rw [Expr.parse, isLexed]
  simp only [isRead, Parse.look_ok, isRest, bind, Except.bind]
  rfl

/-- **A chain of names and operators is read as the one tree that it spells**: the tree has the names
and operators in their order, and every operator stands over a left operand that binds at least as
tightly and a right operand that binds more tightly. So it is where the tokens have a space between every
two of them, and in every other text that has these tokens, whatever is between them. -/
theorem Expr.parse_chain {first : String} {others : List (JoinOp × String)}
    (isName : isIdentifier first = true) (areNames : ∀ other ∈ others, isIdentifier other.2 = true) :
    (∃ read, Expr.parse (String.ofList (spaced (chain first others))) = .ok read ∧
      read.IsTreeOf (chain first others)) ∧
    ∀ (text : String) (ending : Position), (lexemes text).finish = .ok ending →
      (lexemes text).items.map Lexeme.token = chain first others →
      ∃ read, Expr.parse text = .ok read ∧ read.IsTreeOf (chain first others) := by
  constructor
  · have spelled : ∀ token ∈ chain first others, token.isSpelled = true := by
      simp only [chain, joined, List.mem_cons, List.mem_flatMap]
      rintro token (rfl | ⟨other, isIn, rfl | rfl | isNone⟩)
      · exact isName
      · rfl
      · exact areNames other isIn
      · cases isNone
    have spells := spells_spaced spelled
    rw [← String.toList_ofList (l := spaced _)] at spells
    obtain ⟨items, ending, isLexed, isTokens⟩ := lexemes_of_spells spells
    exact Expr.parse_of_chain isLexed isTokens
  · intro text ending isFinish isTokens
    exact Expr.parse_of_chain (congrArg (Lexemes.mk _) isFinish) isTokens

/-- Differences to the left, a product below them, a comparison over them, and both logical operators
over that. -/
theorem Expr.parse_chain_mixed :
    let others : List (JoinOp × String) :=
      [(.logical .or, "b"), (.binary (.compute (.arithmetic .sub)), "c"),
        (.binary (.compute (.arithmetic .sub)), "d"), (.binary (.compute (.arithmetic .mul)), "e"),
        (.binary (.compare .lt), "f"), (.logical .and, "g")]
    let name (identifier : String) : Expr := .name identifier .start
    let differences : Expr := .binary (.compute (.arithmetic .sub))
      (.binary (.compute (.arithmetic .sub)) (name "b") (name "c") .start)
      (.binary (.compute (.arithmetic .mul)) (name "d") (name "e") .start) .start
    let tree : Expr := .logical .or (name "a")
      (.logical .and (.binary (.compare .lt) differences (name "f") .start) (name "g") .start) .start
    isIdentifier "a" = true ∧ (∀ other ∈ others, isIdentifier other.2 = true) ∧
      String.ofList (spaced (chain "a" others)) = "a || b - c - d * e < f && g" ∧
      ∃ read, Expr.parse (String.ofList (spaced (chain "a" others))) = .ok read ∧
        read.unplaced = tree.unplaced := by
  intro others name differences tree
  have isName : isIdentifier "a" = true := by decide
  have areNames : ∀ other ∈ others, isIdentifier other.2 = true := by decide
  obtain ⟨read, isRead, isTree⟩ := (Expr.parse_chain isName areNames).1
  refine ⟨isName, areNames, by decide, read, isRead, (isTree.only tree ?_ (by decide)).symm⟩
  exact .node (.logical .or) _ (.name ..) (.node (.logical .and) _ (.node (.binary (.compare .lt)) _
    (.node (.binary (.compute (.arithmetic .sub))) _
      (.node (.binary (.compute (.arithmetic .sub))) _ (.name ..) (.name ..))
      (.node (.binary (.compute (.arithmetic .mul))) _ (.name ..) (.name ..)))
    (.name ..)) (.name ..))

end MethodPatch
