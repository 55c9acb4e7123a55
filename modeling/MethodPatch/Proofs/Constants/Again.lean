/-
**Adding the same constants again.**

Two actions that add constants in the same steps, each to a pool of its own, both succeed or fail for
the same reason, unless one of the pools is full. An action that has succeeded finds what it has
added, and gives the same index, however its pool has grown.

* `Pool.Alike`: actions that add constants in the same steps;
* `Pool.Alike.again`: **what was added is not added again**;
* `Pool.Legal`, `Pool.Alike.agree`: over pools without texts that are too long, two actions agree.
-/

import MethodPatch.Proofs.Constants.Growth

namespace MethodPatch

/-- A second action runs from the state that the first leaves, unless that fails. -/
theorem run_bind {ε σ α β : Type} (action : ExceptT ε (StateM σ) α)
    (next : α → ExceptT ε (StateM σ) β) (state : σ) :
    (action >>= next).run.run state =
      match action.run.run state with
      | (.ok answer, middle) => (next answer).run.run middle
      | (.error error, middle) => (.error error, middle) := by
  rw [ExceptT.run_bind, StateT.run_bind]
  rcases action.run.run state with ⟨_ | _, middle⟩ <;> rfl

theorem run_bind_ok {ε σ α β : Type} {action : ExceptT ε (StateM σ) α}
    {next : α → ExceptT ε (StateM σ) β} {state after : σ} {answer : β} :
    (action >>= next).run.run state = (.ok answer, after) ↔ ∃ first middle,
      action.run.run state = (.ok first, middle) ∧
        (next first).run.run middle = (.ok answer, after) := by
  rw [run_bind]
  rcases action.run.run state with ⟨_ | _, middle⟩
  · exact ⟨nofun, nofun⟩
  · refine ⟨fun ran => ⟨_, _, rfl, ran⟩, ?_⟩
    rintro ⟨_, _, ⟨⟩, ran⟩
    exact ran

namespace Pool

/-- Actions that add constants in the same steps. The constants may differ, but not in whether a
class file can hold them. -/
inductive Alike : Adding PoolIndex → Adding PoolIndex → Prop
  | insert {first second : Constant} (same : excessLength? first = excessLength? second) :
    Alike (insert first) (insert second)
  | bind {first second : Adding PoolIndex} {next following : PoolIndex → Adding PoolIndex}
    (here : Alike first second) (behind : ∀ index other, Alike (next index) (following other)) :
    Alike (first >>= next) (second >>= following)

theorem Alike.addText (text : String) : Alike (addText text) (addText text) := .insert rfl

theorem Alike.addClass (name : String) : Alike (addClass name) (addClass name) :=
  (Alike.addText name).bind fun _ _ => .insert rfl

theorem Alike.addString (text : String) : Alike (addString text) (addString text) :=
  (Alike.addText text).bind fun _ _ => .insert rfl

theorem Alike.addNameAndType (name descriptor : String) :
    Alike (addNameAndType name descriptor) (addNameAndType name descriptor) :=
  (Alike.addText name).bind fun _ _ => (Alike.addText descriptor).bind fun _ _ => .insert rfl

theorem Alike.addMember {member : PoolIndex → PoolIndex → Constant}
    (short : ∀ owner nameAndType, excessLength? (member owner nameAndType) = none)
    (owner name descriptor : String) :
    Alike (addMember member owner name descriptor) (addMember member owner name descriptor) :=
  (Alike.addClass owner).bind fun _ _ => (Alike.addNameAndType name descriptor).bind fun _ _ =>
    .insert (by rw [short, short])

variable {first second : Adding PoolIndex} {before after later : Pool} {index : PoolIndex}

theorem Alike.growing (alike : Alike first second) : Growing first := by
  induction alike with
  | insert same => exact growing_insert _
  | bind here behind ihHere ihBehind => exact ihHere.bind fun index => ihBehind index index

theorem Growing.grows {α : Type} {add : Adding α} {result : Except PoolError α} (growing : Growing add)
    (added : add.run.run before = (result, after)) : before.Grows after := by
  have grown := growing before
  rwa [added] at grown

/-! ### Again -/

theorem indexOf?_of_grows {constant : Constant} {found : Nat}
    (known : before.indexOf? constant = some found) (grows : before.Grows later) :
    later.indexOf? constant = some found := by
  obtain ⟨more, constants⟩ := grows.constants
  unfold indexOf? at known ⊢
  rw [entries, grows.reserved, ← constants, layout_append, List.find?_append, ← entries]
  obtain ⟨entry, isFirst, rfl⟩ := Option.map_eq_some_iff.mp known
  rw [isFirst]
  rfl

/-- An appended constant has the index that was free, and all others have those they had. -/
theorem indexOf?_push {constant : Constant} (unknown : before.indexOf? constant = none)
    (other : Constant) :
    (before.push constant).indexOf? other =
      if other = constant then some before.next else before.indexOf? other := by
  unfold indexOf? at unknown ⊢
  rw [entries_push, List.find?_append]
  by_cases same : other = constant
  · subst same
    rw [Option.map_eq_none_iff.mp unknown, if_pos rfl]
    simp
  · have last : [(before.next, constant)].find? (fun entry => entry.2 = other) = none := by
      simpa using Ne.symm same
    rw [last, Option.or_none, if_neg same]

theorem insert_again {constant : Constant} (inserted : insert constant before = (.ok index, after))
    (grows : after.Grows later) : insert constant later = (.ok index, later) := by
  unfold insert at inserted
  split at inserted
  · next found known =>
    cases inserted
    exact insert_of_indexOf (indexOf?_of_grows known grows)
  · next unknown =>
    split at inserted
    · cases inserted
    · split at inserted
      · cases inserted
      · cases inserted
        have pushed := (indexOf?_push unknown constant).trans (if_pos rfl)
        exact insert_of_indexOf (indexOf?_of_grows pushed grows)

/-- **What was added is not added again**: in a pool that has grown since, an action finds the same
index. -/
theorem Alike.again (alike : Alike first second) (added : first.run.run before = (.ok index, after))
    (grows : after.Grows later) : first.run.run later = (.ok index, later) := by
  induction alike generalizing before after index with
  | insert same => exact insert_again added grows
  | bind here behind ihHere ihBehind =>
    obtain ⟨one, middle, addedOne, addedRest⟩ := run_bind_ok.mp added
    have grown := (behind one one).growing.grows addedRest
    exact run_bind_ok.mpr
      ⟨one, later, ihHere addedOne (grown.trans grows), ihBehind one one addedRest grows⟩

/-! ### Two pools -/

/-- A class file can hold every text of the pool. -/
def Legal (pool : Pool) : Prop := ∀ constant ∈ pool.constants.toList, excessLength? constant = none

theorem legal_ofReserved (count : UInt16) : (ofReserved count).Legal := by
  rintro constant ⟨⟩

/-- An index or an error says that a pool is full. -/
def Overflows {α : Type} (result : Except PoolError α) : Prop :=
  ∃ constant, result = .error (.overflow constant)

/-- Two results are both an index, or they are the same error. -/
inductive SameKind : Except PoolError PoolIndex → Except PoolError PoolIndex → Prop
  | ok (index other : PoolIndex) : SameKind (.ok index) (.ok other)
  | error (error : PoolError) : SameKind (.error error) (.error error)

/-- Two runs agree: one of the pools is full, or the results are of the same kind and a class file
can hold what the pools have become. -/
def Agree (one other : Except PoolError PoolIndex × Pool) : Prop :=
  Overflows one.1 ∨ Overflows other.1 ∨ SameKind one.1 other.1 ∧ one.2.Legal ∧ other.2.Legal

/-- How inserting ends: at an index, with a text that is too long, or because the pool is full. -/
theorem insert_cases (constant : Constant) (legal : before.Legal) :
    (excessLength? constant = none ∧ ∃ index after, insert constant before = (.ok index, after) ∧
        after.Legal) ∨
      (∃ length, excessLength? constant = some length ∧
        insert constant before = (.error (.textTooLong length), before)) ∨
      Overflows (insert constant before).1 := by
  unfold insert
  split
  · next index known =>
    have isEntry := mem_of_indexOf? known
    have isConstant : constant ∈ before.constants.toList := by
      unfold entries at isEntry
      generalize before.reserved = base at isEntry
      generalize before.constants.toList = constants at isEntry
      induction constants generalizing base with
      | nil => cases isEntry
      | cons head rest ih =>
        rcases List.mem_cons.mp isEntry with same | isRest
        · cases same
          exact List.mem_cons_self
        · exact List.mem_cons_of_mem _ (ih _ isRest)
    exact .inl ⟨legal constant isConstant, _, _, rfl, legal⟩
  · split
    · next length long => exact .inr (.inl ⟨length, long, rfl⟩)
    · next short =>
      split
      · exact .inr (.inr ⟨constant, rfl⟩)
      · refine .inl ⟨short, _, _, rfl, fun other isIn => ?_⟩
        rw [push, Array.toList_push] at isIn
        rcases List.mem_append.mp isIn with isOld | isNew
        · exact legal other isOld
        · rwa [List.mem_singleton.mp isNew]

/-- **Two actions that add constants in the same steps agree**, each over a pool of its own. -/
theorem Alike.agree (alike : Alike first second) {other : Pool} (legal : before.Legal)
    (otherLegal : other.Legal) : Agree (first.run.run before) (second.run.run other) := by
  induction alike generalizing before other with
  | @insert constant counterpart same =>
    show Agree (MethodPatch.Pool.insert constant before) (MethodPatch.Pool.insert counterpart other)
    rcases insert_cases constant legal with
      ⟨short, index, after, inserted, legalAfter⟩ | ⟨length, long, refused⟩ | full
    · rcases insert_cases counterpart otherLegal with
        ⟨_, found, behind, insertedThere, legalThere⟩ | ⟨length, long, _⟩ | full
      · rw [inserted, insertedThere]
        exact .inr (.inr ⟨.ok index found, legalAfter, legalThere⟩)
      · rw [same, long] at short
        cases short
      · exact .inr (.inl full)
    · rcases insert_cases counterpart otherLegal with
        ⟨short, _⟩ | ⟨_, longThere, refusedThere⟩ | full
      · rw [same, short] at long
        cases long
      · rw [same, longThere] at long
        cases long
        rw [refused, refusedThere]
        exact .inr (.inr ⟨.error _, legal, otherLegal⟩)
      · exact .inr (.inl full)
    · exact .inl full
  | @bind first second next following here behind ihHere ihBehind =>
    have agree := ihHere legal otherLegal
    rw [run_bind, run_bind]
    generalize first.run.run before = ran at agree ⊢
    generalize second.run.run other = ranThere at agree ⊢
    obtain ⟨result, middle⟩ := ran
    obtain ⟨resultThere, middleThere⟩ := ranThere
    rcases agree with ⟨constant, rfl⟩ | ⟨constant, rfl⟩ | ⟨kind, legalMiddle, legalThere⟩
    · exact .inl ⟨constant, rfl⟩
    · exact .inr (.inl ⟨constant, rfl⟩)
    · cases kind with
      | ok index found => exact ihBehind index found legalMiddle legalThere
      | error error => exact .inr (.inr ⟨.error error, legalMiddle, legalThere⟩)

end Pool

end MethodPatch
