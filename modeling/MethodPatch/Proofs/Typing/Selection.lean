/-
**Which candidate is selected.**

A candidate is applicable if it has one parameter for each argument, which the argument is passed as.
Selection has two phases: the lenient rules count only if no candidate is applicable by the strict
ones. Among the candidates of the phase one that is more specific than every other one is selected,
as far as there is one.

* `MethodRef.Applicable`, `MethodRef.IsAsSpecific`: how methods take arguments, and each other's;
* `Host.IsMostSpecific`: the candidates that are to be selected;
* `Host.select_correct`: **selection is correct, and the order of the candidates does not matter to
  it**.
-/

import MethodPatch.Proofs.Typing.Passes
import MethodPatch.Typing.Call
import Mathlib.Data.List.Forall2

namespace MethodPatch

/-! ### Applicable methods -/

section Methods

variable {host : Host} {strict : Bool} {arguments : List StaticType} {method other : MethodRef}

/-- A method has one parameter for each argument, which the argument is passed as. -/
def MethodRef.Applicable (host : Host) (strict : Bool) (arguments : List StaticType)
    (method : MethodRef) : Prop :=
  List.Forall₂ (host.Passes strict) arguments method.signature.parameters

/-- A method is as specific as another one: its parameters are passed, strictly, as those of the
other one. -/
def MethodRef.IsAsSpecific (host : Host) (method other : MethodRef) : Prop :=
  List.Forall₂ (fun mine theirs => host.Passes true (.value mine) theirs)
    method.signature.parameters other.signature.parameters

theorem Host.takes_iff :
    host.takes strict arguments method = true ↔ method.Applicable host strict arguments := by
  unfold takes MethodRef.Applicable
  rw [List.forall₂_iff_zip]
  simp only [Bool.and_eq_true, decide_eq_true_eq, List.all_eq_true, Prod.forall, accepts_iff]
  exact and_congr_left fun _ => eq_comm

/-- What is applicable strictly is applicable leniently. -/
theorem MethodRef.Applicable.lenient (applicable : method.Applicable host strict arguments) :
    method.Applicable host false arguments :=
  List.Forall₂.imp (fun _ _ passes => passes.lenient) applicable

theorem MethodRef.IsAsSpecific.refl (host : Host) (method : MethodRef) :
    method.IsAsSpecific host method :=
  List.forall₂_same.mpr fun type _ => .same type

/-- Methods that are applicable to the same arguments have their parameters compared one by one. -/
theorem Host.isAsSpecific_iff (applicable : method.Applicable host strict arguments)
    (otherApplicable : other.Applicable host strict arguments) :
    host.isAsSpecific method other = true ↔ method.IsAsSpecific host other := by
  have sameLength := (List.Forall₂.length_eq applicable).symm.trans
    (List.Forall₂.length_eq otherApplicable)
  unfold isAsSpecific MethodRef.IsAsSpecific
  rw [List.forall₂_iff_zip, and_iff_right sameLength]
  simp only [List.all_eq_true, Prod.forall, accepts_iff]

end Methods

namespace Host

variable {host : Host} {strict : Bool} {candidates methods : List MethodRef} {name : String}
  {arguments : List StaticType} {position : Position} {method other : MethodRef}

/-! ### Phases -/

/-- The rules of the phase are the strict ones exactly if a candidate is applicable by them. -/
def Phase (host : Host) (candidates : List MethodRef) (arguments : List StaticType)
    (strict : Bool) : Prop :=
  strict = true ↔ ∃ candidate ∈ candidates, candidate.Applicable host true arguments

theorem exists_phase (host : Host) (candidates : List MethodRef) (arguments : List StaticType) :
    ∃ strict, host.Phase candidates arguments strict := by
  by_cases some : ∃ candidate ∈ candidates, candidate.Applicable host true arguments
  · exact ⟨true, iff_of_true rfl some⟩
  · exact ⟨false, iff_of_false Bool.false_ne_true some⟩

theorem Phase.perm {permuted : List MethodRef} (phase : host.Phase candidates arguments strict)
    (perm : candidates.Perm permuted) : host.Phase permuted arguments strict := by
  unfold Phase at phase ⊢
  simpa only [perm.mem_iff] using phase

/-- The candidates that are considered are those that are applicable in the phase. -/
theorem Phase.applicable_eq (phase : host.Phase candidates arguments strict) :
    host.applicable candidates arguments = candidates.filter (host.takes strict arguments) := by
  unfold applicable
  split
  · next none =>
    cases strict with
    | false => rfl
    | true =>
      obtain ⟨candidate, isCandidate, applicable⟩ := phase.mp rfl
      exact absurd (takes_iff.mpr applicable) (List.filter_eq_nil_iff.mp none candidate isCandidate)
  · next some =>
    obtain ⟨candidate, isIn⟩ := List.exists_mem_of_ne_nil _ some
    obtain ⟨isCandidate, takes⟩ := List.mem_filter.mp isIn
    rw [phase.mpr ⟨candidate, isCandidate, takes_iff.mp takes⟩]

theorem Phase.mem_applicable (phase : host.Phase candidates arguments strict) :
    method ∈ host.applicable candidates arguments ↔
      method ∈ candidates ∧ method.Applicable host strict arguments := by
  rw [phase.applicable_eq, List.mem_filter, takes_iff]

/-- If a candidate is applicable by any rules, one is applicable by those of the phase. -/
theorem Phase.exists_applicable {rules : Bool} (phase : host.Phase candidates arguments strict)
    (isCandidate : method ∈ candidates) (applicable : method.Applicable host rules arguments) :
    ∃ candidate ∈ candidates, candidate.Applicable host strict arguments := by
  cases strict with
  | true => exact phase.mp rfl
  | false => exact ⟨method, isCandidate, applicable.lenient⟩

/-! ### The most specific candidate -/

/-- A candidate that is applicable in a phase, and more specific than every other one that is. -/
structure IsMostSpecific (host : Host) (candidates : List MethodRef) (arguments : List StaticType)
    (strict : Bool) (method : MethodRef) : Prop where
  isCandidate : method ∈ candidates
  applicable : method.Applicable host strict arguments
  specific : ∀ other ∈ candidates, other.Applicable host strict arguments → other ≠ method →
    method.IsAsSpecific host other

theorem IsMostSpecific.perm {permuted : List MethodRef}
    (isBest : host.IsMostSpecific candidates arguments strict method)
    (perm : candidates.Perm permuted) : host.IsMostSpecific permuted arguments strict method where
  isCandidate := perm.mem_iff.mp isBest.isCandidate
  applicable := isBest.applicable
  specific := fun other isOther => isBest.specific other (perm.mem_iff.mpr isOther)

/-- The most specific candidates are those that are as specific as all that are considered. -/
theorem Phase.isMostSpecific_iff (phase : host.Phase candidates arguments strict) :
    host.IsMostSpecific candidates arguments strict method ↔
      method ∈ host.applicable candidates arguments ∧
        (host.applicable candidates arguments).all (host.isAsSpecific method) = true := by
  rw [List.all_eq_true]
  constructor
  · rintro ⟨isCandidate, applicable, specific⟩
    refine ⟨phase.mem_applicable.mpr ⟨isCandidate, applicable⟩, fun other isOther => ?_⟩
    obtain ⟨isOther, otherApplicable⟩ := phase.mem_applicable.mp isOther
    rw [isAsSpecific_iff applicable otherApplicable]
    by_cases same : other = method
    · exact same ▸ .refl host other
    · exact specific other isOther otherApplicable same
  · rintro ⟨isIn, specific⟩
    obtain ⟨isCandidate, applicable⟩ := phase.mem_applicable.mp isIn
    refine ⟨isCandidate, applicable, fun other isOther otherApplicable _ => ?_⟩
    rw [← isAsSpecific_iff applicable otherApplicable]
    exact specific other (phase.mem_applicable.mpr ⟨isOther, otherApplicable⟩)

theorem mostSpecific?_mem (selected : host.mostSpecific? methods = some method) :
    method ∈ methods := by
  unfold mostSpecific? at selected
  cases found : methods.find? fun method => methods.all (host.isAsSpecific method) with
  | some first =>
    rw [found] at selected
    cases selected
    exact List.mem_of_find?_eq_some found
  | none =>
    rw [found] at selected
    exact List.mem_of_mem_head? selected

/-- A method that is as specific as all of them is found if there is one. -/
theorem mostSpecific?_all (selected : host.mostSpecific? methods = some method)
    (isIn : other ∈ methods) (specific : methods.all (host.isAsSpecific other) = true) :
    methods.all (host.isAsSpecific method) = true := by
  unfold mostSpecific? at selected
  cases found : methods.find? fun method => methods.all (host.isAsSpecific method) with
  | some first =>
    rw [found] at selected
    cases selected
    exact List.find?_some (p := fun method => methods.all (host.isAsSpecific method)) found
  | none => exact absurd specific (List.find?_eq_none.mp found other isIn)

theorem exists_mostSpecific? (host : Host) (isIn : method ∈ methods) :
    ∃ best, host.mostSpecific? methods = some best := by
  unfold mostSpecific?
  cases methods.find? fun method => methods.all (host.isAsSpecific method) with
  | some best => exact ⟨best, rfl⟩
  | none =>
    obtain ⟨first, rest, rfl⟩ := List.exists_cons_of_ne_nil (List.ne_nil_of_mem isIn)
    exact ⟨first, rfl⟩

/-! ### Selection -/

theorem select_eq_ok : host.select candidates name arguments position = .ok method ↔
    host.mostSpecific? (host.applicable candidates arguments) = some method := by
  unfold select
  split
  · next isEmpty =>
    rw [List.isEmpty_iff] at isEmpty
    subst isEmpty
    exact iff_of_false (by nofun) (by nofun)
  · cases host.mostSpecific? (host.applicable candidates arguments) with
    | none => exact iff_of_false (by nofun) (by nofun)
    | some found => simp

/-- A selected method is a candidate that is applicable in the phase. -/
theorem Phase.of_select (phase : host.Phase candidates arguments strict)
    (selected : host.select candidates name arguments position = .ok method) :
    method ∈ candidates ∧ method.Applicable host strict arguments :=
  phase.mem_applicable.mp (mostSpecific?_mem (select_eq_ok.mp selected))

/-- A selected method is most specific if any candidate is. -/
theorem Phase.isMostSpecific_of_select (phase : host.Phase candidates arguments strict)
    (selected : host.select candidates name arguments position = .ok method)
    (isBest : host.IsMostSpecific candidates arguments strict other) :
    host.IsMostSpecific candidates arguments strict method := by
  rw [phase.isMostSpecific_iff] at isBest ⊢
  exact ⟨mostSpecific?_mem (select_eq_ok.mp selected),
    mostSpecific?_all (select_eq_ok.mp selected) isBest.1 isBest.2⟩

theorem Phase.exists_select (phase : host.Phase candidates arguments strict)
    (isCandidate : other ∈ candidates) (applicable : other.Applicable host strict arguments)
    (name : String) (position : Position) :
    ∃ method, host.select candidates name arguments position = .ok method := by
  obtain ⟨method, found⟩ :=
    exists_mostSpecific? host (phase.mem_applicable.mpr ⟨isCandidate, applicable⟩)
  exact ⟨method, select_eq_ok.mpr found⟩

/-- **Selection is correct, and the order of the candidates does not matter to it.** It succeeds if
and only if a candidate is applicable by any rules. What it selects is a candidate that is applicable
in the phase, and a most specific one if there is any. If there is only one, it is selected from every
permutation of the candidates. -/
theorem select_correct (host : Host) (candidates : List MethodRef) (name : String)
    (arguments : List StaticType) (position : Position) :
    ∃ strict, host.Phase candidates arguments strict ∧
      ((∃ method, host.select candidates name arguments position = .ok method) ↔
        ∃ candidate ∈ candidates, ∃ rules, candidate.Applicable host rules arguments) ∧
      (∀ method, host.select candidates name arguments position = .ok method →
        method ∈ candidates ∧ method.Applicable host strict arguments ∧
          ((∃ best, host.IsMostSpecific candidates arguments strict best) →
            host.IsMostSpecific candidates arguments strict method)) ∧
      ∀ best, host.IsMostSpecific candidates arguments strict best →
        (∀ other, host.IsMostSpecific candidates arguments strict other → other = best) →
          ∀ permuted, candidates.Perm permuted →
            host.select permuted name arguments position = .ok best := by
  obtain ⟨strict, phase⟩ := exists_phase host candidates arguments
  refine ⟨strict, phase, ⟨?_, ?_⟩, ?_, ?_⟩
  · rintro ⟨method, selected⟩
    obtain ⟨isCandidate, applicable⟩ := phase.of_select selected
    exact ⟨method, isCandidate, strict, applicable⟩
  · rintro ⟨candidate, isCandidate, rules, applicable⟩
    obtain ⟨considered, isConsidered, applicable⟩ := phase.exists_applicable isCandidate applicable
    exact phase.exists_select isConsidered applicable name position
  · intro method selected
    obtain ⟨isCandidate, applicable⟩ := phase.of_select selected
    exact ⟨isCandidate, applicable, fun ⟨_, isBest⟩ => phase.isMostSpecific_of_select selected isBest⟩
  · intro best isBest only permuted perm
    have later := phase.perm perm
    have stillBest := isBest.perm perm
    obtain ⟨method, selected⟩ :=
      later.exists_select stillBest.isCandidate stillBest.applicable name position
    have methodBest := later.isMostSpecific_of_select selected stillBest
    rw [selected, only method (methodBest.perm perm.symm)]

/-- Of two methods that both take `'c', null` the one is called that the other one could stand for, in
whichever order they come. -/
example :
    let wide : MethodRef := ⟨"Counter", "put", ⟨[.long, .object objectClass], none⟩, true, false⟩
    let narrow : MethodRef :=
      ⟨"Counter", "put", ⟨[.int, .object "java/lang/String"], none⟩, true, false⟩
    ∀ candidates ∈ [[wide, narrow], [narrow, wide]],
      (Host.detached.select candidates "put" [.value .char, .null] ⟨1, 1, 0⟩).toOption =
        some narrow := by
  decide

end Host

end MethodPatch
