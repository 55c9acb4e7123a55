/-
**The simple names in code.**

An expression depends on the scope only through the simple names in it. A name that is declared in
the middle of a text stands for something else in front of its declaration than behind it; such names
are pending until then. Code that has no pending name in it is the same in all scopes that agree on
the other names.

* `Expr.names`: the simple names in an expression;
* `Scope.AgreeBut`: scopes that agree on all names but the pending ones;
* `Expr.lower_congr`: **code without pending names is the same in both scopes**.
-/

import MethodPatch.Generator.Expr

namespace MethodPatch

mutual

/-- The simple names in an expression, in source order. A name in front of a point is one of them,
a name behind a point is not. -/
def Expr.names : Expr → List String
  | .literal _ _ | .this _ => []
  | .name name _ => [name]
  | .member object _ _ => object.names
  | .call none _ arguments _ => namesAll arguments
  | .call (some callee) _ arguments _ => callee.names ++ namesAll arguments
  | .new _ arguments _ => namesAll arguments
  | .newArray _ length _ => length.names
  | .index array index _ => array.names ++ index.names
  | .assign target _ value _ => target.names ++ value.names
  | .update _ _ target _ => target.names
  | .unary _ operand _ => operand.names
  | .binary _ left right _ | .logical _ left right _ => left.names ++ right.names
  | .conditional test first second _ => test.names ++ first.names ++ second.names
  | .cast _ operand _ | .instanceOf operand _ _ => operand.names

/-- The simple names in a list of expressions. -/
def namesAll : List Expr → List String
  | [] => []
  | first :: rest => first.names ++ namesAll rest

end

/-- None of the names is pending. -/
def Avoid (pending : String → Prop) (names : List String) : Prop := ∀ name ∈ names, ¬ pending name

/-- Scopes bind all names alike, except for the pending ones. -/
def Scope.AgreeBut (pending : String → Prop) (first second : Scope) : Prop :=
  ∀ name, ¬ pending name → first.binding? name = second.binding? name

variable {pending : String → Prop} {site : Site} {scope other : Scope} {names more : List String}

theorem avoid_append :
    Avoid pending (names ++ more) ↔ Avoid pending names ∧ Avoid pending more :=
  List.forall_mem_append

theorem Avoid.mono {fewer : String → Prop} (avoid : Avoid pending names)
    (less : ∀ name, fewer name → pending name) : Avoid fewer names :=
  fun name isIn isPending => avoid name isIn (less name isPending)

/-! ### Simple names -/

theorem Site.nameUse?_congr {name : String} (agree : scope.AgreeBut pending other)
    (avoid : Avoid pending [name]) : site.nameUse? scope name = site.nameUse? other name := by
  unfold Site.nameUse?
  rw [agree name (avoid name List.mem_cons_self)]

theorem Site.intVariable?_congr {target : Expr} (agree : scope.AgreeBut pending other)
    (avoid : Avoid pending target.names) :
    site.intVariable? scope target = site.intVariable? other target := by
  cases target with
  | name name position => rw [Site.intVariable?, Site.intVariable?, Site.nameUse?_congr agree avoid]
  | _ => rfl

theorem Typed.name_congr {name : String} {position : Position} (agree : scope.AgreeBut pending other)
    (avoid : Avoid pending [name]) :
    Typed.name site scope name position = Typed.name site other name position := by
  unfold Typed.name Site.nameQualifier Site.namePlace
  rw [Site.nameUse?_congr agree avoid]

/-! ### Expressions -/

mutual

/-- What is known of an expression without pending names is the same in both scopes. -/
theorem Expr.typed_congr (agree : scope.AgreeBut pending other) : (expression : Expr) →
    Avoid pending expression.names → expression.typed site scope = expression.typed site other
  | .literal value position, _ | .this position, _ => by rw [Expr.typed, Expr.typed]
  | .name name position, avoid => by
    rw [Expr.typed, Expr.typed, Typed.name_congr agree avoid]
  | .member object name position, avoid => by
    rw [Expr.typed, Expr.typed, object.typed_congr agree avoid]
  | .call none name arguments position, avoid => by
    rw [Expr.typed, Expr.typed, argumentTypes_congr agree arguments avoid]
  | .call (some callee) name arguments position, avoid => by
    obtain ⟨front, passed⟩ := avoid_append.mp avoid
    rw [Expr.typed, Expr.typed, callee.typed_congr agree front,
      argumentTypes_congr agree arguments passed]
  | .new type arguments position, avoid => by
    rw [Expr.typed, Expr.typed, argumentTypes_congr agree arguments avoid]
  | .newArray element length position, avoid => by
    rw [Expr.typed, Expr.typed, length.typed_congr agree avoid]
  | .index array index position, avoid => by
    obtain ⟨first, second⟩ := avoid_append.mp avoid
    rw [Expr.typed, Expr.typed, array.typed_congr agree first, index.typed_congr agree second]
  | .assign target op value position, avoid => by
    obtain ⟨first, second⟩ := avoid_append.mp avoid
    rw [Expr.typed, Expr.typed, target.typed_congr agree first, value.typed_congr agree second,
      Site.intVariable?_congr agree first]
  | .update op before target position, avoid => by
    rw [Expr.typed, Expr.typed, target.typed_congr agree avoid,
      Site.intVariable?_congr agree (show Avoid pending target.names from avoid)]
  | .unary .not operand position, avoid | .unary .minus operand position, avoid
  | .unary .plus operand position, avoid | .unary .complement operand position, avoid => by
    simp only [Expr.typed, operand.typed_congr agree avoid]
  | .binary (.compare comparison) left right position, avoid
  | .binary (.compute op) left right position, avoid
  | .logical op left right position, avoid => by
    obtain ⟨first, second⟩ := avoid_append.mp avoid
    rw [Expr.typed, Expr.typed, left.typed_congr agree first, right.typed_congr agree second]
  | .conditional test first second position, avoid => by
    obtain ⟨both, isSecond⟩ := avoid_append.mp avoid
    obtain ⟨isTest, isFirst⟩ := avoid_append.mp both
    rw [Expr.typed, Expr.typed, test.typed_congr agree isTest, first.typed_congr agree isFirst,
      second.typed_congr agree isSecond]
  | .cast type operand position, avoid | .instanceOf operand type position, avoid => by
    rw [Expr.typed, Expr.typed, operand.typed_congr agree avoid]

/-- The types of arguments without pending names are the same in both scopes. -/
theorem argumentTypes_congr (agree : scope.AgreeBut pending other) : (arguments : List Expr) →
    Avoid pending (namesAll arguments) →
      argumentTypes site scope arguments = argumentTypes site other arguments
  | [], _ => by rw [argumentTypes, argumentTypes]
  | first :: rest, avoid => by
    obtain ⟨isFirst, isRest⟩ := avoid_append.mp avoid
    rw [argumentTypes, argumentTypes, first.typed_congr agree isFirst,
      argumentTypes_congr agree rest isRest]

end

mutual

/-- **Code without pending names is the same in both scopes.** -/
theorem Expr.lower_congr (agree : scope.AgreeBut pending other) : (expression : Expr) →
    Avoid pending expression.names → expression.lower site scope = expression.lower site other
  | .literal (.boolean value) position, _ | .literal (.int value) position, _
  | .literal (.long value) position, _ | .literal (.float value) position, _
  | .literal (.double value) position, _ | .literal (.char value) position, _
  | .literal (.string value) position, _ | .literal .null position, _ | .this position, _ => by
    simp only [Expr.lower]
  | .name name position, avoid => by
    rw [Expr.lower, Expr.lower, Emit.name, Emit.namePlace, Site.namePlace,
      Site.nameUse?_congr agree avoid]
    rfl
  | .member object name position, avoid => by
    rw [Expr.lower, Expr.lower, object.lower_congr agree avoid]
  | .call none name arguments position, avoid => by
    rw [Expr.lower, Expr.lower, argumentTypes_congr agree arguments avoid,
      arguments_congr agree arguments avoid]
  | .call (some callee) name arguments position, avoid => by
    obtain ⟨front, passed⟩ := avoid_append.mp avoid
    rw [Expr.lower, Expr.lower, callee.lower_congr agree front,
      argumentTypes_congr agree arguments passed, arguments_congr agree arguments passed]
  | .new type arguments position, avoid => by
    rw [Expr.lower, Expr.lower, argumentTypes_congr agree arguments avoid,
      arguments_congr agree arguments avoid]
  | .newArray element length position, avoid => by
    rw [Expr.lower, Expr.lower, length.lower_congr agree avoid]
  | .index array index position, avoid => by
    obtain ⟨first, second⟩ := avoid_append.mp avoid
    rw [Expr.lower, Expr.lower, array.lower_congr agree first, index.lower_congr agree second]
  | .assign target op value position, avoid => by
    obtain ⟨first, second⟩ := avoid_append.mp avoid
    rw [Expr.lower, Expr.lower, target.lower_congr agree first, value.lower_congr agree second,
      Expr.staticType, Expr.staticType, value.typed_congr agree second,
      Site.intVariable?_congr agree first]
  | .update op before target position, avoid => by
    rw [Expr.lower, Expr.lower, target.lower_congr agree avoid,
      Site.intVariable?_congr agree (show Avoid pending target.names from avoid)]
  | .unary .not operand position, avoid | .unary .minus operand position, avoid
  | .unary .plus operand position, avoid | .unary .complement operand position, avoid => by
    simp only [Expr.lower, operand.lower_congr agree avoid]
  | .binary (.compare comparison) left right position, avoid
  | .binary (.compute op) left right position, avoid => by
    obtain ⟨first, second⟩ := avoid_append.mp avoid
    rw [Expr.lower, Expr.lower, left.lower_congr agree first, right.lower_congr agree second]
    simp only [Expr.staticType, left.typed_congr agree first, right.typed_congr agree second]
  | .logical op left right position, avoid => by
    obtain ⟨first, second⟩ := avoid_append.mp avoid
    rw [Expr.lower, Expr.lower, left.lower_congr agree first, right.lower_congr agree second]
  | .conditional test first second position, avoid => by
    obtain ⟨both, isSecond⟩ := avoid_append.mp avoid
    obtain ⟨isTest, isFirst⟩ := avoid_append.mp both
    rw [Expr.lower, Expr.lower, test.lower_congr agree isTest, first.lower_congr agree isFirst,
      second.lower_congr agree isSecond]
    simp only [Expr.staticType, first.typed_congr agree isFirst, second.typed_congr agree isSecond]
  | .cast type operand position, avoid | .instanceOf operand type position, avoid => by
    rw [Expr.lower, Expr.lower, operand.lower_congr agree avoid]

/-- The code of arguments without pending names is the same in both scopes. -/
theorem arguments_congr (agree : scope.AgreeBut pending other) : (arguments : List Expr) →
    Avoid pending (namesAll arguments) →
      lowerArguments site scope arguments = lowerArguments site other arguments
  | [], _ => by
    funext parameters
    rw [lowerArguments, lowerArguments]
    all_goals nofun
  | first :: rest, avoid => by
    obtain ⟨isFirst, isRest⟩ := avoid_append.mp avoid
    funext parameters
    cases parameters with
    | nil =>
      rw [lowerArguments, lowerArguments]
      all_goals nofun
    | cons parameter parameters =>
      rw [lowerArguments, lowerArguments, first.lower_congr agree isFirst,
        arguments_congr agree rest isRest]

end

end MethodPatch
