/-
**The rules by which values are passed.**

A value is passed as its own type, as a wider number, or as a class or an array type that it belongs
to. `Host.Passes` lists the rules one by one; `Host.accepts` decides by them. The strict and the
lenient rules differ at one point only, at two classes that the host cannot relate.

* `Host.accepts_iff`: what is accepted is what the rules pass;
* `Host.Passes.lenient`: what the strict rules pass, the lenient ones pass as well;
* `Host.coercion_of_passes`: an assignment takes everything that is passed.
-/

import MethodPatch.Proofs.Typing.Converts

namespace MethodPatch

namespace Host

/-- A class counts as one that another extends: it is known to be one or, by the lenient rule, it is
not known not to be one. -/
def Relates (host : Host) (strict : Bool) (className ancestor : String) : Prop :=
  host.isSubclass? className ancestor = some true ∨
    strict = false ∧ host.isSubclass? className ancestor = none

/-- The rules by which a value is passed as a type. -/
inductive Passes (host : Host) (strict : Bool) : StaticType → FieldType → Prop
  | same (type : FieldType) : Passes host strict (.value type) type
  | null {target : FieldType} (isReference : target.isReference = true) :
    Passes host strict .null target
  | number {source target : FieldType} (wider : widens source target = true) :
    Passes host strict (.value source) target
  | root {source : FieldType} (isReference : source.isReference = true) :
    Passes host strict (.value source) (.object objectClass)
  | subclass {className ancestor : String} (relates : host.Relates strict className ancestor) :
    Passes host strict (.value (.object className)) (.object ancestor)
  | arrayInterface {element : FieldType} {name : String} (isInterface : name ∈ arrayInterfaces) :
    Passes host strict (.value (.array element)) (.object name)
  | elements {source target : FieldType} (isReference : source.isReference = true)
    (toReference : target.isReference = true) (passes : Passes host strict (.value source) target) :
    Passes host strict (.value (.array source)) (.array target)

variable {host : Host} {strict : Bool} {source target : FieldType} {type : StaticType}

theorem relates_iff {className ancestor : String} :
    (host.isSubclass? className ancestor).getD (!strict) = true ↔
      host.Relates strict className ancestor := by
  unfold Relates
  cases host.isSubclass? className ancestor with
  | none => simp
  | some known => simp

/-- Numbers are widened to numbers, and no reference is one. -/
theorem primitive_of_widens (wider : widens source target = true) :
    source.isReference = false ∧ target.isReference = false := by
  cases source <;> cases target <;> first | exact ⟨rfl, rfl⟩ | cases wider

/-- References widen by the rules for classes and arrays. -/
theorem widensReference_iff (isReference : source.isReference = true)
    (toReference : target.isReference = true) :
    source = target ∨ host.widensReference (!strict) source target = true ↔
      host.Passes strict (.value source) target := by
  induction target generalizing source with
  | object name =>
    cases source with
    | object className =>
      simp only [widensReference, Bool.or_eq_true, decide_eq_true_eq, relates_iff]
      constructor
      · rintro (same | rfl | relates)
        · exact same ▸ .same _
        · exact .root rfl
        · exact .subclass relates
      · rintro (_ | _ | wider | _ | relates)
        · exact .inl rfl
        · cases wider
        · exact .inr (.inl rfl)
        · exact .inr (.inr relates)
    | array element =>
      simp only [widensReference, Bool.or_eq_true, decide_eq_true_eq]
      constructor
      · rintro (same | rfl | isInterface)
        · cases same
        · exact .root rfl
        · exact .arrayInterface isInterface
      · rintro (_ | _ | wider | _ | _ | isInterface)
        · cases wider
        · exact .inr (.inl rfl)
        · exact .inr (.inr isInterface)
    | _ => cases isReference
  | array element ih =>
    cases source with
    | object className =>
      constructor
      · rintro (same | widened)
        · cases same
        · cases widened
      · rintro (_ | _ | wider)
        cases wider
    | array component =>
      rw [widensReference]
      constructor
      · rintro (same | widened)
        · exact same ▸ .same _
        · split at widened
          · next references =>
            obtain ⟨fromReference, toReference⟩ := Bool.and_eq_true_iff.mp references
            exact .elements fromReference toReference
              ((ih fromReference toReference).mp (.inr widened))
          · exact of_decide_eq_true widened ▸ .same _
      · intro passes
        cases passes with
        | same => exact .inl rfl
        | number wider => cases wider
        | elements fromReference toReference passes =>
          rw [if_pos (Bool.and_eq_true_iff.mpr ⟨fromReference, toReference⟩), FieldType.array.injEq]
          exact (ih fromReference toReference).mpr passes
    | _ => cases isReference
  | _ => cases toReference

/-- **What is accepted is what the rules pass.** -/
theorem accepts_iff : host.accepts strict type target = true ↔ host.Passes strict type target := by
  cases type with
  | void =>
    constructor
    · intro accepted
      cases accepted
    · intro passes
      cases passes
  | null =>
    constructor
    · exact .null
    · rintro (_ | isReference)
      exact isReference
  | value source =>
    simp only [accepts, Bool.or_eq_true, decide_eq_true_eq, FieldType.isPrimitive,
      Bool.not_eq_true']
    by_cases isReference : source.isReference = true
    · simp only [isReference, Bool.true_eq_false, if_false, Bool.and_eq_true]
      constructor
      · rintro (same | ⟨toReference, widened⟩)
        · exact same ▸ .same _
        · exact (widensReference_iff isReference toReference).mp (.inr widened)
      · intro passes
        have toReference : target.isReference = true := by
          cases passes with
          | same => exact isReference
          | number wider => exact absurd isReference (by simp [(primitive_of_widens wider).1])
          | _ => rfl
        exact ((widensReference_iff isReference toReference).mpr passes).imp_right
          fun widened => ⟨toReference, widened⟩
    · simp only [Bool.not_eq_true] at isReference
      simp only [isReference, if_true, Bool.and_eq_true, Bool.not_eq_true']
      constructor
      · rintro (same | ⟨-, wider⟩)
        · exact same ▸ .same _
        · exact .number wider
      · intro passes
        cases passes with
        | same => exact .inl rfl
        | number wider => exact .inr ⟨(primitive_of_widens wider).2, wider⟩
        | root fromReference => exact absurd fromReference (by simp [isReference])
        | _ => cases isReference

/-- What is passed strictly is passed leniently. -/
theorem Passes.lenient (passes : host.Passes strict type target) : host.Passes false type target := by
  induction passes with
  | same type => exact .same type
  | null isReference => exact .null isReference
  | number wider => exact .number wider
  | root isReference => exact .root isReference
  | subclass relates =>
    refine .subclass (relates.imp_right fun unknown => ⟨rfl, unknown.2⟩)
  | arrayInterface isInterface => exact .arrayInterface isInterface
  | elements isReference toReference _ ih => exact .elements isReference toReference ih

/-- An assignment takes everything that is passed, and converts it. -/
theorem coercion_of_passes (passes : host.Passes strict type target) (value : Expr) :
    host.coercion type target value = .ok (type.conversion target) := by
  have taken : host.coercion? type target value.intConstant? = some (type.conversion target) :=
    if_pos (accepts_iff.mpr passes.lenient)
  rw [coercion, taken]

end Host

end MethodPatch
