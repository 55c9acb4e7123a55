/-
**Names, members and places move the stack by what they stand for.**

What stands in front of a point is on the stack if it is a value. A member drops it or consumes it,
or leaves the operands of a place. That code is generated for a name or a member at all says that
its type is known, and is the same.
-/

import MethodPatch.Proofs.Stack.Emit

namespace MethodPatch

open Generator

/-- The slots of what stands in front of a point. -/
def Qualifier.width : Qualifier → Nat
  | .value type => type.width
  | _ => 0

variable {base before after : Generator} {slots : Nat} {position : Position} {site : Site}
  {scope : Scope} {name : String}

theorem raises_name {qualifier : Qualifier} (raises : base.Raises slots before)
    (yields : Yields (Emit.name site scope name position) before qualifier after) :
    site.nameQualifier scope name position = .ok qualifier ∧
      base.Raises (slots + qualifier.width) after := by
  unfold Emit.name at yields
  unfold Site.nameQualifier
  cases found : site.nameUse? scope name with
  | none =>
    simp only [found, yields_pure] at yields
    obtain ⟨rfl, rfl⟩ := yields
    exact ⟨rfl, raises⟩
  | some use =>
    cases use with
    | «variable» slot type =>
      simp only [found, yields_bind, Emit.yields_instr, yields_pure] at yields
      obtain ⟨_, _, rfl, rfl, rfl⟩ := yields
      exact ⟨rfl, raises_load slot raises⟩
    | classRef className =>
      simp only [found, yields_pure] at yields
      obtain ⟨rfl, rfl⟩ := yields
      exact ⟨rfl, raises⟩
    | field field =>
      simp only [found, yields_bind, yields_liftExcept, yields_ite, yields_pure] at yields
      obtain ⟨_, _, ⟨allowed, rfl⟩, ⟨isInstance, _, _, loaded, _, _, read, rfl, rfl⟩ |
        ⟨isStatic, _, _, read, rfl, rfl⟩⟩ := yields
      · refine ⟨by simp only [allowed]; rfl, raises_readField ?_ read⟩
        simp only [Bool.not_eq_true'] at isInstance
        simpa [isInstance] using raises_this raises loaded
      · refine ⟨by simp only [allowed]; rfl, raises_readField ?_ read⟩
        simp only [Bool.not_eq_true', Bool.not_eq_false] at isStatic
        simpa [isStatic] using raises

/-- How many slots stand in front of a member: none, or those of a value that the member takes. -/
def Member.Behind (slots : Nat) : Member → Prop
  | .package _ | .classRef _ => slots = 0
  | .length => slots = 1
  | .field found dropsValue =>
    (slots = 0 ∧ found.isStatic = true ∧ dropsValue = false) ∨
      (slots = 1 ∧ dropsValue = found.isStatic)

theorem Site.staticField_eq {owner : String} {missing : ReferenceFault} {field : FieldRef}
    (found : site.staticField owner name missing position = .ok field) : field.isStatic = true := by
  unfold staticField at found
  split at found
  · split at found
    · next isStatic =>
      cases found
      exact isStatic
    · cases found
  · cases found

theorem Site.member_behind {qualifier : Qualifier} {member : Member}
    (found : site.member qualifier name position = .ok member) :
    member.Behind qualifier.width := by
  unfold Site.member at found
  split at found
  · dsimp only at found
    split at found <;> cases found <;> rfl
  · next owner =>
    cases isField : site.staticField owner name (.unknownField name owner) position with
    | error error =>
      rw [isField] at found
      cases found
    | ok field =>
      rw [isField] at found
      cases found
      exact .inl ⟨rfl, staticField_eq isField, rfl⟩
  · split at found <;> cases found
    rfl
  · split at found <;> cases found
    exact .inr ⟨rfl, rfl⟩
  · cases found

theorem raises_pop (raises : base.Raises (slots + 1) before) :
    base.Raises slots (before.push (.stack .pop)) :=
  raises.push rfl (by simp [Instr.pops, StackOp.slots])
    (by simp [Instr.pops, Instr.pushes, StackOp.slots])

theorem raises_member {qualifier answer : Qualifier}
    (raises : base.Raises (slots + qualifier.width) before)
    (yields : Yields (Emit.member site qualifier name position) before answer after) :
    (∃ member, site.member qualifier name position = .ok member ∧ answer = member.qualifier) ∧
      base.Raises (slots + answer.width) after := by
  simp only [Emit.member, yields_bind, yields_liftExcept] at yields
  obtain ⟨member, _, ⟨found, rfl⟩, yields⟩ := yields
  have front := Site.member_behind found
  cases member <;> simp only [Member.Behind] at front
  case package whole =>
    simp only [yields_pure] at yields
    obtain ⟨rfl, rfl⟩ := yields
    exact ⟨⟨_, found, rfl⟩, by rwa [front] at raises⟩
  case classRef className =>
    simp only [yields_pure] at yields
    obtain ⟨rfl, rfl⟩ := yields
    exact ⟨⟨_, found, rfl⟩, by rwa [front] at raises⟩
  case length =>
    simp only [yields_bind, Emit.yields_instr, yields_pure] at yields
    obtain ⟨_, _, rfl, rfl, rfl⟩ := yields
    rw [front] at raises
    exact ⟨⟨_, found, rfl⟩, raises.push rfl (by simp [Instr.pops])
      (by simp [Instr.pops, Instr.pushes, Member.qualifier, Qualifier.width, StaticType.width,
        FieldType.width, FieldType.storage, Storage.width])⟩
  case field field dropsValue =>
    simp only [yields_ite, yields_bind, Emit.yields_instr, yields_pure] at yields
    obtain ⟨drops, _, _, rfl, _, _, read, rfl, rfl⟩ | ⟨keeps, _, _, read, rfl, rfl⟩ := yields
    · refine ⟨⟨_, found, rfl⟩, raises_readField ?_ read⟩
      rcases front with ⟨_, _, keeps⟩ | ⟨width, isStatic⟩
      · rw [drops] at keeps
        cases keeps
      · rw [width] at raises
        simpa [← isStatic, drops] using raises_pop raises
    · refine ⟨⟨_, found, rfl⟩, raises_readField ?_ read⟩
      rcases front with ⟨width, isStatic, _⟩ | ⟨width, same⟩
      · simpa [isStatic, width] using raises
      · rw [same] at keeps
        simpa [keeps, width] using raises

theorem raises_namePlace {place : Place} (raises : base.Raises slots before)
    (yields : Yields (Emit.namePlace site scope name position) before place after) :
    site.namePlace scope name position = .ok place ∧
      base.Raises (slots + place.operands) after := by
  simp only [Emit.namePlace, yields_bind, yields_liftExcept, yields_ite, yields_pure] at yields
  obtain ⟨_, _, ⟨found, rfl⟩, ⟨one, _, _, loaded, rfl, rfl⟩ | ⟨notOne, rfl, rfl⟩⟩ := yields
  · exact ⟨found, one ▸ raises_this raises loaded⟩
  · refine ⟨found, ?_⟩
    have none : place.operands = 0 := by
      unfold Site.namePlace at found
      split at found
      · cases found
        rfl
      · next field _ =>
        unfold Site.checkImplicit at found
        split at found
        · next isStatic =>
          cases found
          simp [Place.operands, isStatic]
        · next isInstance =>
          cases allowed : site.thisType ("variable " ++ name) position with
          | error error =>
            rw [allowed] at found
            cases found
          | ok type =>
            rw [allowed] at found
            cases found
            simp [Place.operands, isInstance] at notOne
      · cases found
    rwa [none]

/-- What stands in front of a field that is stored in. -/
theorem Site.memberPlace_eq {qualifier : Qualifier} {field : FieldRef} {dropsValue : Bool}
    (found : site.memberPlace qualifier name position = .ok (field, dropsValue)) :
    (qualifier.width = 0 ∧ field.isStatic = true ∧ dropsValue = false) ∨
      (qualifier.width = 1 ∧ dropsValue = field.isStatic) := by
  unfold Site.memberPlace at found
  split at found
  · cases found
  · next owner =>
    cases isField : site.staticField owner name (.unknownVariable name) position with
    | error error =>
      rw [isField] at found
      cases found
    | ok field =>
      rw [isField] at found
      cases found
      exact .inl ⟨rfl, staticField_eq isField, rfl⟩
  · split at found <;> cases found
    exact .inr ⟨rfl, rfl⟩
  · cases found

theorem raises_memberPlace {qualifier : Qualifier} {place : Place}
    (raises : base.Raises (slots + qualifier.width) before)
    (yields : Yields (Emit.memberPlace site qualifier name position) before place after) :
    (∃ found, site.memberPlace qualifier name position = .ok found ∧ place = .field found.1) ∧
      base.Raises (slots + place.operands) after := by
  simp only [Emit.memberPlace, yields_bind, yields_liftExcept] at yields
  obtain ⟨⟨field, dropsValue⟩, _, ⟨found, rfl⟩, yields⟩ := yields
  simp only [yields_ite, yields_bind, Emit.yields_instr, yields_pure] at yields
  obtain ⟨drops, _, _, rfl, rfl, rfl⟩ | ⟨keeps, rfl, rfl⟩ := yields
  · refine ⟨⟨_, found, rfl⟩, ?_⟩
    rcases Site.memberPlace_eq found with ⟨_, _, keeps⟩ | ⟨width, isStatic⟩
    · rw [drops] at keeps
      cases keeps
    · rw [width] at raises
      simpa [Place.operands, ← isStatic, drops] using raises_pop raises
  · refine ⟨⟨_, found, rfl⟩, ?_⟩
    rcases Site.memberPlace_eq found with ⟨width, isStatic, _⟩ | ⟨width, same⟩
    · simpa [Place.operands, isStatic, width] using raises
    · rw [same] at keeps
      simpa [Place.operands, keeps, width] using raises

end MethodPatch
