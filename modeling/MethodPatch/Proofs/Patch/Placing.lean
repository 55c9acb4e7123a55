/-
**Which slots declared variables get.**

A declared variable gets the local that the allocator knows by its name, or a new one of its type.
`Gives` and `GivesAll` say this without the state in which placing runs, and `Refuses` says why a
variable gets none. Placing that fails has still only added locals.

* `Stmt.declared_mapDeclared`: placing the variables of a statement places them in source order;
* `Pass.place_run`, `Pass.place_error`: what placing the variables of a statement does to a pass;
* `GivesAll.names`, `GivesAll.types`: the new locals are the names that come up first;
* `GivesAll.settled`: every declared variable gets the local of its name.
-/

import Mathlib.Data.List.Forall2
import MethodPatch.Patch.Pass
import MethodPatch.Proofs.Locals.Extends

namespace MethodPatch

/-! ### Statements with other declarators -/

namespace Stmt

variable {m : Type → Type} [Monad m] [LawfulMonad m]

mutual

/-- The declarators of a changed statement are changed in source order. -/
theorem declared_mapDeclared (change : Declarator → m Declarator) : (statement : Stmt) →
    declared <$> statement.mapDeclared change = statement.declared.mapM change
  | .declare final declarators position => by simp [mapDeclared, declared]
  | .branch test first none position => by
    have inner := declared_mapDeclared change first
    simpa [mapDeclared, declared] using inner
  | .branch test first (some second) position => by
    simp only [mapDeclared, declared, List.mapM_append, ← declared_mapDeclared change first,
      ← declared_mapDeclared change second]
    simp [declared]
  | .whileLoop test body position => by
    have inner := declared_mapDeclared change body
    simpa [mapDeclared, declared] using inner
  | .doLoop body test position => by
    have inner := declared_mapDeclared change body
    simpa [mapDeclared, declared] using inner
  | .forLoop start test updates body position => by
    simp only [mapDeclared, declared, List.mapM_append, ← declared_mapDeclaredAll change start,
      ← declared_mapDeclared change body]
    simp [declared]
  | .block body position => by
    have inner := declared_mapDeclaredAll change body
    simpa [mapDeclared, declared] using inner
  | .expression _ _ | .ret _ _ | .breakLoop _ | .continueLoop _ | .throwing _ _ | .empty _ => by
    simp [mapDeclared, declared]

theorem declared_mapDeclaredAll (change : Declarator → m Declarator) : (statements : List Stmt) →
    declaredAll <$> mapDeclaredAll change statements = (declaredAll statements).mapM change
  | [] => by simp [mapDeclaredAll, declaredAll]
  | first :: rest => by
    simp only [mapDeclaredAll, declaredAll, List.mapM_append, ← declared_mapDeclared change first,
      ← declared_mapDeclaredAll change rest]
    simp [declaredAll]

end

end Stmt

/-! ### One variable -/

/-- The declarator with the slot of a local and the name of its type. -/
def Declarator.settle (declarator : Declarator) (entry : Local) : Declarator :=
  { declarator with slot := some entry.slot, typeName := some entry.type.sourceName }

/-- An allocator gives a local to a declared variable: the one that it knows, or a new one. -/
inductive Gives (strict : Bool) (host : Host) (declarator : Declarator) :
    Allocator → Local → List Local → Allocator → Prop
  | known {allocator : Allocator} {entry : Local} {declared : FieldType}
    (resolved : host.typeOf declarator.type = .ok declared)
    (found : allocator.find? declarator.name = some entry)
    (accepted : strict = true → entry.type.storage = declared.storage) :
    Gives strict host declarator allocator entry [] allocator
  | new {allocator after : Allocator} {entry : Local} {declared : FieldType}
    (resolved : host.typeOf declarator.type = .ok declared)
    (allocated : allocator.allocate declarator.name declared = .ok (entry, after)) :
    Gives strict host declarator allocator entry [entry] after

/-- An allocator has no local for a declared variable: it has no type, a strict pass finds its name
stored in another way, or no slot is left. -/
inductive Refuses (strict : Bool) (host : Host) (declarator : Declarator) (allocator : Allocator) :
    PatchError → Prop
  | untyped {cause : SourceError} (unresolved : host.typeOf declarator.type = .error cause) :
    Refuses strict host declarator allocator
      (.notCompiled (cause.orAt (some declarator.position)))
  | stored {existing : Local} {declared : FieldType}
    (resolved : host.typeOf declarator.type = .ok declared)
    (found : allocator.find? declarator.name = some existing)
    (different : strict = true ∧ existing.type.storage ≠ declared.storage) :
    Refuses strict host declarator allocator
      (.storageChanged declarator.name existing.slot existing.type declared
        (some declarator.position))
  | full {declared : FieldType} (resolved : host.typeOf declarator.type = .ok declared)
    (unknown : allocator.find? declarator.name = none)
    (behind : slotLimit < allocator.next + declared.width) :
    Refuses strict host declarator allocator (noSlot declarator.name)

/-- A second step runs from the state that the first leaves, unless that fails. -/
theorem Placing.run_bind {α β : Type} (step : Placing α) (next : α → Placing β)
    (state : Allocator × List Local) :
    (step >>= next).run.run state =
      match step.run.run state with
      | (.ok value, later) => (next value).run.run later
      | (.error error, later) => (.error error, later) := by
  rw [ExceptT.run_bind, StateT.run_bind]
  rcases step.run.run state with ⟨_ | _, later⟩ <;> rfl

/-- A name that is not known gets a local unless no slot is left. -/
theorem Allocator.allocate_error {allocator : Allocator} {name : String} {type : FieldType}
    {error : PatchError} (unknown : allocator.find? name = none)
    (refused : allocator.allocate name type = .error error) :
    error = noSlot name ∧ slotLimit < allocator.next + type.width := by
  unfold allocate at refused
  rw [unknown] at refused
  dsimp only at refused
  split at refused
  · next full =>
    cases refused
    exact ⟨rfl, full⟩
  · cases refused

/-- A variable of a type is either refused a local, which changes nothing, or gets one. -/
theorem placeLocal_run {strict : Bool} {host : Host} {declarator : Declarator} {declared : FieldType}
    {allocator : Allocator} {fresh : List Local} {result : Except PatchError Local}
    {state : Allocator × List Local} (resolved : host.typeOf declarator.type = .ok declared)
    (ran : (placeLocal strict declarator declared).run.run (allocator, fresh) = (result, state)) :
    (∃ error, result = .error error ∧ state = (allocator, fresh) ∧
        Refuses strict host declarator allocator error) ∨
      ∃ entry more after, result = .ok entry ∧ state = (after, fresh ++ more) ∧
        Gives strict host declarator allocator entry more after := by
  have got : (get : Placing (Allocator × List Local)).run.run (allocator, fresh) =
      (.ok (allocator, fresh), (allocator, fresh)) := rfl
  unfold placeLocal at ran
  rw [Placing.run_bind, got] at ran
  dsimp only at ran
  split at ran
  · next existing found =>
    by_cases refused : strict = true ∧ existing.type.storage ≠ declared.storage
    · rw [if_pos refused] at ran
      cases ran
      exact .inl ⟨_, rfl, rfl, .stored resolved found refused⟩
    · rw [if_neg refused] at ran
      cases ran
      have accepted : strict = true → existing.type.storage = declared.storage := fun isStrict =>
        Classical.not_not.mp fun different => refused ⟨isStrict, different⟩
      exact .inr ⟨existing, [], allocator, rfl, by rw [List.append_nil],
        .known resolved found accepted⟩
  · next unknown =>
    split at ran
    · next error refused =>
      cases ran
      obtain ⟨rfl, behind⟩ := Allocator.allocate_error unknown refused
      exact .inl ⟨_, rfl, rfl, .full resolved unknown behind⟩
    · next entry after allocated =>
      cases ran
      exact .inr ⟨entry, [entry], after, rfl, rfl, .new resolved allocated⟩

/-- A variable is either refused a local, which changes nothing, or gets one. -/
theorem placeDeclarator_run {strict : Bool} {host : Host} {declarator : Declarator}
    {allocator : Allocator} {fresh : List Local} {result : Except PatchError Declarator}
    {state : Allocator × List Local}
    (ran : (placeDeclarator strict host declarator).run.run (allocator, fresh) = (result, state)) :
    (∃ error, result = .error error ∧ state = (allocator, fresh) ∧
        Refuses strict host declarator allocator error) ∨
      ∃ entry more after, result = .ok (declarator.settle entry) ∧ state = (after, fresh ++ more) ∧
        Gives strict host declarator allocator entry more after := by
  unfold placeDeclarator at ran
  split at ran
  · next cause unresolved =>
    cases ran
    exact .inl ⟨_, rfl, rfl, .untyped unresolved⟩
  · next declared resolved =>
    rcases found : (placeLocal strict declarator declared).run.run (allocator, fresh) with
      ⟨outcome, middle⟩
    simp only [bind_pure_comp, ExceptT.run_map, StateT.run_map, found] at ran
    cases ran
    rcases placeLocal_run resolved found with ⟨error, rfl, rfl, refuses⟩ |
      ⟨entry, more, after, rfl, rfl, gives⟩
    · exact .inl ⟨error, rfl, rfl, refuses⟩
    · exact .inr ⟨entry, more, after, rfl, rfl, gives⟩

/-! ### Variables in order -/

/-- An allocator gives locals to declared variables in order. -/
inductive GivesAll (strict : Bool) (host : Host) :
    Allocator → List Declarator → List Local → List Local → Allocator → Prop
  | nil (allocator : Allocator) : GivesAll strict host allocator [] [] [] allocator
  | cons {before middle after : Allocator} {first : Declarator} {rest : List Declarator}
    {entry : Local} {entries fresh more : List Local}
    (gives : Gives strict host first before entry fresh middle)
    (goesOn : GivesAll strict host middle rest entries more after) :
    GivesAll strict host before (first :: rest) (entry :: entries) (fresh ++ more) after

variable {strict : Bool} {host : Host} {before middle after : Allocator}
  {declared others : List Declarator} {entries fresh more : List Local}

theorem Gives.adds {declarator : Declarator} {entry : Local}
    (gives : Gives strict host declarator before entry fresh after) :
    before.Extends fresh after := by
  cases gives with
  | known resolved found accepted => exact .refl before
  | new resolved allocated => exact (Allocator.Extends.allocate allocated).2.2.2

/-- Behind it the allocator knows the local under the name of the variable. -/
theorem Gives.knows {declarator : Declarator} {entry : Local}
    (gives : Gives strict host declarator before entry fresh after) :
    after.find? declarator.name = some entry := by
  cases gives with
  | known resolved found accepted => exact found
  | new resolved allocated => rw [Allocator.find?_allocate allocated, if_pos rfl]

/-- A variable has a type, and a strict pass gives it a local that is stored like it. -/
theorem Gives.suits {declarator : Declarator} {entry : Local}
    (gives : Gives strict host declarator before entry fresh after) :
    ∃ type, host.typeOf declarator.type = .ok type ∧
      (strict = true → entry.type.storage = type.storage) := by
  cases gives with
  | known resolved found accepted => exact ⟨_, resolved, accepted⟩
  | new resolved allocated =>
    refine ⟨_, resolved, fun _ => ?_⟩
    rw [(Allocator.Extends.allocate allocated).2.1]

/-- Placing variables only adds locals, and gives each of them a local unless it refuses one. -/
theorem placeDeclarators_run {allocator : Allocator} {result : Except PatchError (List Declarator)}
    {state : Allocator × List Local}
    (ran : (declared.mapM (placeDeclarator strict host)).run.run (allocator, fresh) =
      (result, state)) :
    ∃ more, allocator.Extends more state.1 ∧ state.2 = fresh ++ more ∧
      match result with
      | .error error => ∃ declarator ∈ declared, ∃ middle,
        Refuses strict host declarator middle error
      | .ok placed => ∃ entries, GivesAll strict host allocator declared entries more state.1 ∧
          placed = List.zipWith Declarator.settle declared entries := by
  induction declared generalizing allocator fresh result state with
  | nil =>
    cases ran
    exact ⟨[], .refl allocator, (List.append_nil _).symm, [], .nil allocator, rfl⟩
  | cons first rest ih =>
    rcases one : (placeDeclarator strict host first).run.run (allocator, fresh) with
      ⟨outcome, middle⟩
    rw [List.mapM_cons, Placing.run_bind, one] at ran
    rcases placeDeclarator_run one with ⟨error, rfl, rfl, refuses⟩ |
      ⟨entry, more, after, rfl, rfl, gives⟩
    · cases ran
      exact ⟨[], .refl allocator, (List.append_nil _).symm, first, List.mem_cons_self, _, refuses⟩
    · rcases others : (rest.mapM (placeDeclarator strict host)).run.run (after, fresh ++ more) with
        ⟨outcome, last⟩
      obtain ⟨later, extended, added, placedAll⟩ := ih others
      dsimp only at ran
      rw [Placing.run_bind, others] at ran
      have appended : last.2 = fresh ++ (more ++ later) := by rw [added, List.append_assoc]
      cases outcome with
      | error error =>
        cases ran
        obtain ⟨declarator, isRest, refuses⟩ := placedAll
        exact ⟨more ++ later, gives.adds.trans extended, appended, declarator,
          List.mem_cons_of_mem _ isRest, refuses⟩
      | ok placedRest =>
        cases ran
        obtain ⟨entries, givesAll, rfl⟩ := placedAll
        exact ⟨more ++ later, gives.adds.trans extended, appended, entry :: entries,
          .cons gives givesAll, rfl⟩

/-- Placing the variables of a statement places them one after the other. -/
theorem Pass.place_declared {pass later : Pass} {statement : Stmt} {result : Except PatchError Stmt}
    (ran : pass.place strict statement = (result, later)) :
    (statement.declared.mapM (placeDeclarator strict pass.generation.site.host)).run.run
        (pass.allocator, pass.fresh) =
      (result.map Stmt.declared, later.allocator, later.fresh) ∧
    later = { pass with allocator := later.allocator, fresh := later.fresh } := by
  obtain ⟨allocator, generation, scope, fresh⟩ := pass
  unfold Pass.place at ran
  dsimp only at ran ⊢
  rcases placing : (statement.mapDeclared (placeDeclarator strict generation.site.host)).run.run
    (allocator, fresh) with ⟨outcome, after, known⟩
  rw [placing] at ran
  cases ran
  rw [← Stmt.declared_mapDeclared, ExceptT.run_map, StateT.run_map, placing]
  exact ⟨rfl, rfl⟩

/-- Placing the variables of a statement only adds locals, and gives each variable one unless it
fails. -/
theorem Pass.place_run {pass later : Pass} {statement : Stmt} {result : Except PatchError Stmt}
    (ran : pass.place strict statement = (result, later)) :
    ∃ more, pass.allocator.Extends more later.allocator ∧
      later = { pass with allocator := later.allocator, fresh := pass.fresh ++ more } ∧
      ∀ placed, result = .ok placed → ∃ entries,
        GivesAll strict pass.generation.site.host pass.allocator statement.declared entries more
            later.allocator ∧
          placed.declared = List.zipWith Declarator.settle statement.declared entries := by
  obtain ⟨declared, same⟩ := place_declared ran
  obtain ⟨more, extended, added, outcome⟩ := placeDeclarators_run declared
  refine ⟨more, extended, added ▸ same, ?_⟩
  rintro placed rfl
  exact outcome

/-- Placing the variables of a statement fails at one that is refused a local. -/
theorem Pass.place_error {pass later : Pass} {statement : Stmt} {error : PatchError}
    (ran : pass.place strict statement = (.error error, later)) :
    ∃ declarator ∈ statement.declared, ∃ middle,
      Refuses strict pass.generation.site.host declarator middle error := by
  obtain ⟨_, _, _, refused⟩ := placeDeclarators_run (place_declared ran).1
  exact refused

namespace GivesAll

theorem adds (gives : GivesAll strict host before declared entries fresh after) :
    before.Extends fresh after := by
  induction gives with
  | nil allocator => exact .refl allocator
  | cons gives goesOn ih => exact gives.adds.trans ih

theorem append {furtherEntries : List Local}
    (first : GivesAll strict host before declared entries fresh middle)
    (second : GivesAll strict host middle others furtherEntries more after) :
    GivesAll strict host before (declared ++ others) (entries ++ furtherEntries) (fresh ++ more)
      after := by
  induction first with
  | nil allocator => exact second
  | cons gives goesOn ih =>
    rw [List.append_assoc]
    exact .cons gives (ih second)

/-- **The new locals have the names that were not known**, each once and in source order. -/
theorem names (gives : GivesAll strict host before declared entries fresh after) :
    fresh.map Local.name =
      ((declared.map Declarator.name).filter fun name => (before.find? name).isNone).eraseDups := by
  induction gives with
  | nil allocator => simp
  | cons gives goesOn ih =>
    rw [List.map_append, ih, List.map_cons]
    cases gives with
    | known resolved found accepted =>
      rw [List.filter_cons_of_neg (by simp [found])]
      rfl
    | new resolved allocated =>
      obtain ⟨named, _, unknown, _⟩ := Allocator.Extends.allocate allocated
      rw [List.filter_cons_of_pos (by simp [unknown]), List.eraseDups_cons, List.filter_filter]
      simp only [List.map_cons, List.map_nil, named, List.singleton_append]
      refine congrArg (_ :: List.eraseDups ·) (List.filter_congr fun name _ => ?_)
      rw [Allocator.find?_allocate allocated]
      split
      · next same => simp [same]
      · next other => simp [Ne.symm other]

/-- **A new local has the type of the first declaration** of its name. -/
theorem types (gives : GivesAll strict host before declared entries fresh after) :
    ∀ entry ∈ fresh, ∃ declarator,
      declared.find? (fun other => other.name = entry.name) = some declarator ∧
        host.typeOf declarator.type = .ok entry.type := by
  induction gives with
  | nil allocator => simp
  | @cons before middle after first rest entry entries fresh more gives goesOn ih =>
    intro added isIn
    rcases List.mem_append.mp isIn with isHere | isBehind
    · cases gives with
      | known resolved found accepted => cases isHere
      | new resolved allocated =>
        obtain ⟨named, typed, _⟩ := Allocator.Extends.allocate allocated
        obtain rfl := List.mem_singleton.mp isHere
        exact ⟨first, List.find?_cons_of_pos (by simp [named]), typed ▸ resolved⟩
    · obtain ⟨declarator, found, resolved⟩ := ih added isBehind
      refine ⟨declarator, ?_, resolved⟩
      have different : first.name ≠ added.name := by
        intro same
        have unknown := goesOn.adds.unknown added isBehind
        rw [← same, gives.knows] at unknown
        cases unknown
      rw [List.find?_cons_of_neg (by simpa using different)]
      exact found

/-- **Every declared variable has the local of its name**, and in a strict pass one that is stored
like it. -/
theorem settled (gives : GivesAll strict host before declared entries fresh after) :
    List.Forall₂ (fun declarator entry => after.find? declarator.name = some entry ∧
      ∃ type, host.typeOf declarator.type = .ok type ∧
        (strict = true → entry.type.storage = type.storage)) declared entries := by
  induction gives with
  | nil allocator => exact .nil
  | cons gives goesOn ih => exact .cons ⟨goesOn.adds.find?_of_known gives.knows, gives.suits⟩ ih

theorem settled_of_mem (gives : GivesAll strict host before declared entries fresh after) :
    ∀ declarator ∈ declared, ∃ entry, after.find? declarator.name = some entry ∧
      ∃ type, host.typeOf declarator.type = .ok type ∧
        (strict = true → entry.type.storage = type.storage) := by
  induction gives with
  | nil allocator => simp
  | cons gives goesOn ih =>
    intro declarator isDeclared
    rcases List.mem_cons.mp isDeclared with rfl | isBehind
    · exact ⟨_, goesOn.adds.find?_of_known gives.knows, gives.suits⟩
    · exact ih declarator isBehind

end GivesAll

end MethodPatch
