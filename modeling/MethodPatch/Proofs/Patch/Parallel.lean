/-
**Passes over two pools.**

Two passes over the same statements go in parallel if they know the same locals and begin over pools
of their own: both succeed with the same locals, or both fail for the same reason, unless a class
file cannot hold what one of them makes.

* `PatchError.IsLimit`: a class file cannot hold what a pass makes;
* `Allocator.Same`: allocators that know the same and go on alike;
* `Pass.Alike`, `Pass.Alike.run`: **statements in order go in parallel**;
* `Pass.Alike.fragment`: so do the fragments that are made of them.
-/

import MethodPatch.Proofs.Composition.Parallel
import MethodPatch.Proofs.Patch.Generated

namespace MethodPatch

/-- A class file cannot hold code: it is too long, or a branch is too far. -/
def EncodeError.IsLimit : EncodeError → Prop
  | .missingTarget _ _ => False
  | .branchTooFar _ _ | .codeTooLarge _ => True

/-- A class file cannot hold what a pass makes: its constants do not fit into the pool, or its code
cannot be encoded. -/
def PatchError.IsLimit : PatchError → Prop
  | .notCompiled error => error.IsFull
  | .notExtracted (.unencodable error) => error.IsLimit
  | _ => False

/-! ### Locals -/

/-- Allocators that know the same locals in the same order and have the same first free slot. They may
have allocated different ones of them. -/
structure Allocator.Same (one other : Allocator) : Prop where
  known : one.known = other.known
  next : one.next = other.next

namespace Allocator.Same

variable {one other : Allocator}

theorem refl (allocator : Allocator) : allocator.Same allocator := ⟨rfl, rfl⟩

theorem find? (same : one.Same other) (name : String) : one.find? name = other.find? name := by
  rw [Allocator.find?, Allocator.find?, same.known]

theorem count (same : one.Same other) : one.count = other.count := congrArg UInt16.ofNat same.next

theorem settle (same : one.Same other) : one.settle = other.settle := by
  funext declarator
  rw [Allocator.settle, Allocator.settle, same.find?]

/-- A new local gets the same slot, or there is none for it. -/
theorem allocate (same : one.Same other) (name : String) (type : FieldType) :
    (∃ error, one.allocate name type = .error error ∧ other.allocate name type = .error error) ∨
      ∃ entry after otherAfter, one.allocate name type = .ok (entry, after) ∧
        other.allocate name type = .ok (entry, otherAfter) ∧ after.Same otherAfter := by
  unfold Allocator.allocate
  rw [same.find?, same.next, same.known]
  split
  · exact .inl ⟨_, rfl, rfl⟩
  · dsimp only
    split
    · exact .inl ⟨_, rfl, rfl⟩
    · exact .inr ⟨_, _, _, rfl, rfl, rfl, rfl⟩

end Allocator.Same

/-- Allocators that go on alike, with the same new locals. -/
def SameLocals (one other : Allocator × List Local) : Prop := one.1.Same other.1 ∧ one.2 = other.2

theorem parallel_placeLocal (strict : Bool) (declarator : Declarator) (declared : FieldType)
    {one other : Allocator × List Local} (same : SameLocals one other) :
    Parallel (fun _ => False) SameLocals ((placeLocal strict declarator declared).run.run one)
      ((placeLocal strict declarator declared).run.run other) := by
  obtain ⟨one, fresh⟩ := one
  obtain ⟨other, _⟩ := other
  obtain ⟨same, rfl⟩ := same
  have got : ∀ state, (get : Placing (Allocator × List Local)).run.run state = (.ok state, state) :=
    fun _ => rfl
  unfold placeLocal
  rw [run_bind, run_bind, got, got]
  dsimp only
  rw [same.find?]
  cases other.find? declarator.name with
  | some existing =>
    dsimp only
    by_cases refused : strict = true ∧ existing.type.storage ≠ declared.storage
    · rw [if_pos refused]
      exact .error ..
    · rw [if_neg refused]
      exact .ok existing ⟨same, rfl⟩
  | none =>
    rcases same.allocate declarator.name declared with
      ⟨error, failed, failedThere⟩ | ⟨entry, after, otherAfter, given, givenThere, sameAfter⟩
    · rw [failed, failedThere]
      exact .error ..
    · rw [given, givenThere]
      exact .ok entry ⟨sameAfter, rfl⟩

theorem parallel_placeDeclarators (strict : Bool) (host : Host) (declared : List Declarator)
    {one other : Allocator × List Local} (same : SameLocals one other) :
    Parallel (fun _ => False) SameLocals
      ((declared.mapM (placeDeclarator strict host)).run.run one)
      ((declared.mapM (placeDeclarator strict host)).run.run other) := by
  induction declared generalizing one other with
  | nil => exact .ok [] same
  | cons first rest ih =>
    have here : Parallel (fun _ => False) SameLocals
        ((placeDeclarator strict host first).run.run one)
        ((placeDeclarator strict host first).run.run other) := by
      unfold placeDeclarator
      split
      · exact .error ..
      · exact (parallel_placeLocal strict first _ same).bind fun _ sameAfter => .ok _ sameAfter
    rw [List.mapM_cons]
    exact here.bind fun _ sameFirst => (ih sameFirst).bind fun _ sameAll => .ok _ sameAll

/-! ### Statements in order -/

namespace Pass

/-- Passes that go on alike: they differ in their constants, and in what their allocators have
allocated. -/
structure Alike (one other : Pass) : Prop where
  allocator : one.allocator.Same other.allocator
  fresh : one.fresh = other.fresh
  site : one.generation.site = other.generation.site
  emitting : one.generation.progress = .emitting
  otherEmitting : other.generation.progress = .emitting
  generator : one.generation.generator.Twins other.generation.generator
  scope : one.scope.AgreeBut (fun _ => False) other.scope

variable {strict : Bool} {one other : Pass} {statement : Stmt} {statements : List Stmt}

/-- The variables of a statement get the same locals. -/
theorem Alike.place (alike : one.Alike other) (strict : Bool) (statement : Stmt) :
    Parallel (fun _ => False) Alike (one.place strict statement) (other.place strict statement) := by
  rcases placing : one.place strict statement with ⟨result, later⟩
  rcases placingThere : other.place strict statement with ⟨resultThere, laterThere⟩
  obtain ⟨ran, isLater⟩ := place_declared placing
  obtain ⟨ranThere, isLaterThere⟩ := place_declared placingThere
  have start : SameLocals (one.allocator, one.fresh) (other.allocator, other.fresh) :=
    ⟨alike.allocator, alike.fresh⟩
  have parallel := parallel_placeDeclarators strict one.generation.site.host statement.declared start
  rw [ran, alike.site, ranThere] at parallel
  obtain ⟨outcome, same⟩ := parallel.same
  cases result with
  | error error =>
    cases resultThere with
    | error reason =>
      cases outcome
      exact .error ..
    | ok placed => cases outcome
  | ok placed =>
    cases resultThere with
    | error reason => cases outcome
    | ok placedThere =>
      have sameLocals := same _ rfl
      rw [place_settles placing (.refl _), place_settles placingThere (.refl _), sameLocals.1.settle]
      refine .ok _ ?_
      rw [isLater, isLaterThere]
      exact { alike with allocator := sameLocals.1, fresh := sameLocals.2 }

/-- The code of a placed statement is composed. -/
theorem place_composed {later : Pass} {placed : Stmt} (site : Site)
    (placing : one.place strict statement = (.ok placed, later)) : ∃ pending,
    (∀ name, ¬ pending name) ∧ EmitScoped.Composed (fun _ => True) (fun _ _ => True) site
      (fun _ => False) (placed.lower site false) pending := by
  obtain ⟨fresh, _, _, placedAll⟩ := place_run placing
  obtain ⟨entries, gives, _⟩ := placedAll placed rfl
  have knows : ∀ declarator ∈ statement.declared,
      ∃ entry, later.allocator.find? declarator.name = some entry := fun declarator isDeclared =>
    (gives.settled_of_mem declarator isDeclared).imp fun _ => And.left
  rw [place_settles placing (.refl _)]
  exact ⟨_, fun _ => pending_of_behind, Stmt.composed_settled site knows (clear_none _)⟩

/-- A statement goes in parallel. -/
theorem Alike.attempt (alike : one.Alike other) (strict : Bool) (statement : Stmt) :
    Parallel PatchError.IsLimit Alike (one.attempt strict statement)
      (other.attempt strict statement) := by
  have parallel := alike.place strict statement
  rcases placing : one.place strict statement with ⟨result, middle⟩
  rcases placingThere : other.place strict statement with ⟨resultThere, middleThere⟩
  rw [placing, placingThere] at parallel
  cases parallel with
  | first excuse => exact excuse.elim
  | second excuse => exact excuse.elim
  | error error =>
    unfold Pass.attempt
    rw [placing, placingThere]
    exact .error ..
  | ok placed same =>
    obtain ⟨pending, nonePending, composed⟩ := place_composed middle.generation.site placing
    have start : TwinsBut (fun _ => False)
        (middle.generation.generator.reserveLocals middle.allocator.count, middle.scope)
        (middleThere.generation.generator.reserveLocals middleThere.allocator.count,
          middleThere.scope) :=
      ⟨same.allocator.count ▸ same.generator.reserveLocals _, same.scope⟩
    have ran := composed.parallel start
    rw [attempt_of_placed same.emitting placing, attempt_of_placed same.otherEmitting placingThere,
      ← same.site]
    generalize (placed.lower middle.generation.site false).run.run
      (middle.generation.generator.reserveLocals middle.allocator.count, middle.scope) = here at ran ⊢
    generalize (placed.lower middle.generation.site false).run.run
      (middleThere.generation.generator.reserveLocals middleThere.allocator.count,
        middleThere.scope) = there at ran ⊢
    cases ran with
    | ok exits twins =>
      exact .ok () ⟨same.allocator, same.fresh, rfl, rfl, rfl, twins.1,
        fun name _ => twins.2 name (nonePending name)⟩
    | error => exact .error ..
    | @first error full =>
      have limit : PatchError.IsLimit (.notCompiled (error.orAt (some placed.position))) := full
      exact .first limit ..
    | @second error full =>
      have limit : PatchError.IsLimit (.notCompiled (error.orAt (some placed.position))) := full
      exact .second limit ..

/-- A statement that fails in both passes gives back what it took, and nothing goes on behind it. -/
theorem Alike.step (alike : one.Alike other) (strict : Bool) (statement : Stmt) :
    Parallel PatchError.IsLimit Alike (one.step strict statement) (other.step strict statement) := by
  have parallel := alike.attempt strict statement
  unfold Pass.step
  generalize one.attempt strict statement = ran at parallel ⊢
  generalize other.attempt strict statement = ranThere at parallel ⊢
  cases parallel with
  | ok answer same => exact .ok answer same
  | error => exact .error ..
  | first limit => exact .first limit ..
  | second limit => exact .second limit ..

/-- **Statements in order go in parallel.** -/
theorem Alike.run (alike : one.Alike other) (strict : Bool) (statements : List Stmt) :
    Parallel PatchError.IsLimit Alike (one.run strict statements) (other.run strict statements) := by
  induction statements generalizing one other with
  | nil => exact .ok () alike
  | cons first rest ih =>
    have parallel := alike.step strict first
    rw [Pass.run, Pass.run]
    generalize one.step strict first = ran at parallel ⊢
    generalize other.step strict first = ranThere at parallel ⊢
    cases parallel with
    | ok _ same => exact ih same
    | error => exact .error ..
    | first limit => exact .first limit ..
    | second limit => exact .second limit ..

end Pass

/-! ### Fragments -/

/-- Two results are alike, or they are the same error. A result that is an excused error may differ
from the other one in any way. -/
inductive Outcomes {ε α : Type} (excused : ε → Prop) (alike : α → α → Prop) :
    Except ε α → Except ε α → Prop
  | ok {one other : α} (same : alike one other) : Outcomes excused alike (.ok one) (.ok other)
  | error (error : ε) : Outcomes excused alike (.error error) (.error error)
  | first {error : ε} (excuse : excused error) (other : Except ε α) :
    Outcomes excused alike (.error error) other
  | second {error : ε} (excuse : excused error) (one : Except ε α) :
    Outcomes excused alike one (.error error)

section

variable {ε ε' α β : Type} {excused : ε → Prop} {alike : α → α → Prop} {one other : Except ε α}

theorem Outcomes.map {alikeThen : β → β → Prop} {change changeThere : α → β}
    (outcomes : Outcomes excused alike one other)
    (keeps : ∀ {answer counterpart}, alike answer counterpart →
      alikeThen (change answer) (changeThere counterpart)) :
    Outcomes excused alikeThen (one.map change) (other.map changeThere) := by
  cases outcomes with
  | ok same => exact .ok (keeps same)
  | error error => exact .error error
  | first excuse => exact .first excuse _
  | second excuse => exact .second excuse _

theorem Outcomes.mapError {excusedThen : ε' → Prop} {rename : ε → ε'}
    (outcomes : Outcomes excused alike one other)
    (excuses : ∀ error, excused error → excusedThen (rename error)) :
    Outcomes excusedThen alike (one.mapError rename) (other.mapError rename) := by
  cases outcomes with
  | ok same => exact .ok same
  | error error => exact .error _
  | first excuse => exact .first (excuses _ excuse) _
  | second excuse => exact .second (excuses _ excuse) _

end

/-- Fragments with the same new locals and the same number of slots. -/
structure Fragment.Alike (one other : Fragment) : Prop where
  introduced : one.introduced = other.introduced
  maxLocals : one.maxLocals = other.maxLocals

theorem Instr.encode_outcomes {instr counterpart : Instr}
    (same : instr.unindexed = counterpart.unindexed) {offsets others : Array Nat}
    (sizes : offsets.size = others.size) (index : Nat) :
    Outcomes EncodeError.IsLimit (fun _ _ => True) (instr.encode offsets index)
      (counterpart.encode others index) := by
  have target : instr.target? = counterpart.target? := by
    rw [← instr.target?_unindexed, same, counterpart.target?_unindexed]
  unfold Instr.encode
  rw [target]
  cases counterpart.target? with
  | none => exact .ok trivial
  | some target =>
    have missing : offsets[target]? = none ↔ others[target]? = none := by
      rw [Array.getElem?_eq_none_iff, Array.getElem?_eq_none_iff, sizes]
    dsimp only
    cases found : offsets[target]? with
    | none =>
      rw [missing.mp found]
      exact .error _
    | some destination =>
      cases foundThere : others[target]? with
      | none =>
        rw [missing.mpr foundThere] at found
        cases found
      | some otherDestination =>
        dsimp only
        split
        · split
          · exact .ok trivial
          · exact .second trivial _
        · exact .first trivial _

theorem Body.encodeFrom_outcomes {offsets others : Array Nat} (sizes : offsets.size = others.size)
    {steps counterparts : List Step}
    (same : steps.map Step.unindexed = counterparts.map Step.unindexed) (index : Nat) :
    Outcomes EncodeError.IsLimit (fun _ _ => True) (encodeFrom offsets index steps)
      (encodeFrom others index counterparts) := by
  induction steps generalizing counterparts index with
  | nil =>
    obtain rfl := List.map_eq_nil_iff.mp same.symm
    exact .ok trivial
  | cons step rest ih =>
    obtain ⟨counterpart, behind, rfl, isFirst, isRest⟩ := List.map_eq_cons_iff.mp same.symm
    have here := Instr.encode_outcomes (congrArg Step.instr isFirst.symm :) sizes index
    have outcomes := ih isRest.symm (index + 1)
    unfold encodeFrom
    generalize step.instr.encode offsets index = bytes at here ⊢
    generalize counterpart.instr.encode others index = bytesThere at here ⊢
    cases here with
    | error => exact .error _
    | first limit => exact .first limit _
    | second limit => exact .second limit _
    | ok =>
      dsimp only
      generalize encodeFrom offsets (index + 1) rest = bytes at outcomes ⊢
      generalize encodeFrom others (index + 1) behind = bytesThere at outcomes ⊢
      cases outcomes with
      | ok => exact .ok trivial
      | error => exact .error _
      | first limit => exact .first limit _
      | second limit => exact .second limit _

/-- Bodies that differ in the indices of constants alone have the same branches, so they are encoded
alike. -/
theorem Body.encode_outcomes {one other : Body} (same : one.unindexed = other.unindexed) :
    Outcomes EncodeError.IsLimit (fun _ _ => True) one.encode other.encode := by
  have codes : one.code.toList.map Step.unindexed = other.code.toList.map Step.unindexed := by
    have sameCode := congrArg (fun body : Body => body.code.toList) same
    simpa only [Body.unindexed, Array.toList_map] using sameCode
  have sizes : one.offsets.toArray.size = other.offsets.toArray.size := by
    have sameLength := congrArg List.length codes
    rw [List.length_map, List.length_map] at sameLength
    rw [List.size_toArray, List.size_toArray, offsets_length, offsets_length]
    exact congrArg (· + 1) sameLength
  unfold Body.encode
  split
  · exact .first trivial _
  · split
    · exact .second trivial _
    · exact (encodeFrom_outcomes sizes codes 0).map fun _ => trivial

theorem Generation.extract_finish {generation : Generation}
    (emitting : generation.progress = .emitting) :
    generation.finish.extract =
      generation.generator.body.encode.mapError fun error => .notExtracted (.unencodable error) := by
  rw [extract, complete_finish emitting, generator_finish]

/-- The fragments of passes that have come to their end are alike. -/
theorem Pass.Alike.fragment {one other : Pass} (alike : one.Alike other) :
    Outcomes PatchError.IsLimit Fragment.Alike
      { one with generation := one.generation.finish }.fragment
      { other with generation := other.generation.finish }.fragment := by
  have encoded := Body.encode_outcomes (congrArg Generator.body alike.generator.same :)
  have extracted : Outcomes PatchError.IsLimit (fun _ _ => True) one.generation.finish.extract
      other.generation.finish.extract := by
    rw [Generation.extract_finish alike.emitting, Generation.extract_finish alike.otherEmitting]
    exact encoded.mapError fun _ limit => limit
  refine extracted.map fun _ => ⟨congrArg Local.snapshot alike.fresh, ?_⟩
  dsimp only
  rw [Generation.generator_finish, Generation.generator_finish, alike.allocator.count,
    alike.generator.maxLocals]

end MethodPatch
