/-
**Reading descriptors back.**

A descriptor ends the name of a class with a semicolon, and it cannot hold an empty name. Types whose
innermost class has another kind of name are read back from their descriptors, and only such types
are read from descriptors at all. The names of such types in source text stand for such types again.

* `FieldType.IsDescribable`: the types that descriptors can hold;
* `FieldType.ofDescriptor?_descriptor_iff`: **exactly these are read back**;
* `Signature.ofDescriptor?_descriptor`: a signature of such types is read back;
* `FieldType.ofSourceName?_sourceName_describable`: the names of such types are read as such types.
-/

import MethodPatch.Proofs.Types.SourceName
import MethodPatch.Proofs.Composition.Types

namespace MethodPatch

/-- A name that a descriptor can hold. -/
structure DescribableName (name : List Char) : Prop where
  named : name ≠ []
  unended : ';' ∉ name

namespace FieldType

/-- The types whose innermost class, if they have one, has a name that a descriptor can hold. -/
def IsDescribable : FieldType → Prop
  | .object className => DescribableName className.toList
  | .array component => component.IsDescribable
  | _ => True

theorem isDescribable_of_isPrimitive {type : FieldType} (primitive : type.isPrimitive = true) :
    type.IsDescribable := by
  cases type <;> trivial

/-! ### Types -/

/-- A name without semicolons is read up to the semicolon behind it. -/
theorem takeDescriptor_object {name : List Char} (unended : ';' ∉ name) (rest : List Char) :
    takeDescriptor ('L' :: (name ++ ';' :: rest)) =
      if name = [] then .error .emptyClassName else .ok (.object (String.ofList name), rest) := by
  have inside : ∀ c ∈ name, (c != ';') = true := fun c isIn =>
    bne_iff_ne.mpr fun same => unended (same ▸ isIn)
  rw [takeDescriptor, if_neg (by decide), if_pos rfl]
  rw [List.takeWhile_append_of_pos inside, List.dropWhile_append_of_pos inside]
  simp

/-- A describable type is read back, whatever is behind its descriptor. -/
theorem takeDescriptor_descriptor {type : FieldType} (describable : type.IsDescribable)
    (rest : List Char) : takeDescriptor (type.descriptor.toList ++ rest) = .ok (type, rest) := by
  induction type with
  | object className =>
    have spelled : (object className).descriptor.toList ++ rest =
        'L' :: (className.toList ++ ';' :: rest) := by
      simp [descriptor]
    rw [spelled, takeDescriptor_object describable.unended, if_neg describable.named,
      String.ofList_toList]
  | array component ih =>
    have spelled : (array component).descriptor.toList ++ rest =
        '[' :: (component.descriptor.toList ++ rest) := by
      simp [descriptor]
    rw [spelled, takeDescriptor, if_pos rfl, ih describable]
  | _ => rfl

/-- What is read from the front of a text is describable. -/
theorem isDescribable_of_takeDescriptor {text rest : List Char} {type : FieldType}
    (taken : takeDescriptor text = .ok (type, rest)) : type.IsDescribable := by
  induction text generalizing type rest with
  | nil => cases taken
  | cons tag behind ih =>
    rw [takeDescriptor] at taken
    split at taken
    · split at taken <;> cases taken
      next inner =>
        have component := ih inner
        exact component
    · split at taken
      · dsimp only at taken
        split at taken
        · cases taken
        · split at taken <;> cases taken
          next named =>
          refine ⟨by rwa [String.toList_ofList], fun isIn => ?_⟩
          rw [String.toList_ofList] at isIn
          have inside := List.all_eq_true.mp (List.all_takeWhile (p := (· != ';'))) _ isIn
          cases inside
      · split at taken <;> cases taken
        next found =>
        unfold ofTag? at found
        split at found <;> cases found <;> trivial

theorem isDescribable_of_ofDescriptor? {text : String} {type : FieldType}
    (read : ofDescriptor? text = .ok type) : type.IsDescribable := by
  unfold ofDescriptor? at read
  split at read <;> cases read
  next taken => exact isDescribable_of_takeDescriptor taken

/-- **Exactly the describable types are read back** from their descriptors. -/
theorem ofDescriptor?_descriptor_iff (type : FieldType) :
    ofDescriptor? type.descriptor = .ok type ↔ type.IsDescribable := by
  refine ⟨isDescribable_of_ofDescriptor?, fun describable => ?_⟩
  have taken := takeDescriptor_descriptor describable []
  rw [List.append_nil] at taken
  rw [ofDescriptor?, taken]

/-- The descriptor of a type begins neither like that of `void` nor with a parenthesis. -/
theorem descriptor_head (type : FieldType) :
    ∃ tag behind, type.descriptor.toList = tag :: behind ∧ tag ≠ ')' ∧ tag ≠ 'V' := by
  cases type with
  | object className => exact ⟨'L', className.toList ++ [';'], by simp [descriptor], by decide⟩
  | array component => exact ⟨'[', component.descriptor.toList, by simp [descriptor], by decide⟩
  | _ => exact ⟨_, [], rfl, by decide⟩

end FieldType

/-! ### Signatures -/

namespace Signature

open FieldType (takeDescriptor_descriptor isDescribable_of_takeDescriptor)

/-- Describable parameters are read back up to the parenthesis behind them. -/
theorem takeParameters_descriptors {parameters : List FieldType}
    (describable : ∀ type ∈ parameters, type.IsDescribable) (rest : List Char) :
    takeParameters ((parameters.flatMap fun type => type.descriptor.toList) ++ ')' :: rest) =
      .ok (parameters, rest) := by
  induction parameters with
  | nil =>
    rw [takeParameters]
    simp
  | cons first others ih =>
    obtain ⟨here, behind⟩ := List.forall_mem_cons.mp describable
    obtain ⟨tag, letters, spelled, isOpen, _⟩ := first.descriptor_head
    have taken := takeDescriptor_descriptor here
      ((others.flatMap fun type => type.descriptor.toList) ++ ')' :: rest)
    rw [List.flatMap_cons, List.append_assoc, takeParameters]
    rw [if_neg (by simp [spelled]), if_neg (by simp [spelled, isOpen])]
    split
    · next failed =>
      rw [taken] at failed
      cases failed
    · next found =>
      rw [taken] at found
      cases found
      rw [ih behind]

theorem takeResult_descriptor {type : FieldType} (describable : type.IsDescribable) :
    takeResult type.descriptor.toList = .ok (some type) := by
  obtain ⟨tag, letters, spelled, _, isVoid⟩ := type.descriptor_head
  have taken := takeDescriptor_descriptor describable []
  rw [List.append_nil] at taken
  rw [takeResult, if_neg (by simp [spelled, isVoid]), taken]

/-- A signature of describable types is read back from its descriptor. -/
theorem ofDescriptor?_descriptor {signature : Signature}
    (isOver : signature.Over FieldType.IsDescribable) :
    ofDescriptor? signature.descriptor = .ok signature := by
  obtain ⟨parameters, result⟩ := signature
  have taken := takeParameters_descriptors isOver.parameters
  cases result with
  | none =>
    have spelled : (descriptor ⟨parameters, none⟩).toList = '(' ::
        ((parameters.flatMap fun type => type.descriptor.toList) ++ ')' :: ['V']) := by
      simp [descriptor, String.toList_join, List.flatMap_map]
    rw [ofDescriptor?, spelled, ofCharacters?, taken]
    rfl
  | some type =>
    have spelled : (descriptor ⟨parameters, some type⟩).toList = '(' ::
        ((parameters.flatMap fun type => type.descriptor.toList) ++ ')' :: type.descriptor.toList) := by
      simp [descriptor, String.toList_join, List.flatMap_map]
    rw [ofDescriptor?, spelled, ofCharacters?, taken]
    dsimp only
    rw [takeResult_descriptor (isOver.result type rfl)]
    rfl

theorem over_replicate (type : FieldType) (describable : type.IsDescribable) (count : Nat) :
    (⟨List.replicate count type, none⟩ : Signature).Over FieldType.IsDescribable := by
  refine ⟨fun parameter isIn => ?_, nofun⟩
  rwa [List.eq_of_mem_replicate isIn]

theorem describable_of_takeParameters {text rest : List Char} {parameters : List FieldType}
    (taken : takeParameters text = .ok (parameters, rest)) :
    ∀ type ∈ parameters, type.IsDescribable := by
  induction hasLength : text.length using Nat.strongRecOn generalizing text parameters rest with
  | ind length ih =>
    rw [takeParameters] at taken
    split at taken
    · cases taken
    · split at taken
      · cases taken
        nofun
      · split at taken
        · cases taken
        · next first behind takenFirst =>
          split at taken <;> cases taken
          next takenRest =>
          have shorter := FieldType.takeDescriptor_length takenFirst
          exact List.forall_mem_cons.mpr ⟨isDescribable_of_takeDescriptor takenFirst,
            ih _ (hasLength ▸ shorter) takenRest rfl⟩

theorem describable_of_takeResult {text : List Char} {result : Option FieldType}
    (taken : takeResult text = .ok result) : ∀ type ∈ result, type.IsDescribable := by
  unfold takeResult at taken
  split at taken
  · cases taken
    nofun
  · split at taken <;> cases taken
    next type takenType =>
    rintro _ ⟨⟩
    exact isDescribable_of_takeDescriptor takenType

/-- The types of a signature that is read are describable. -/
theorem over_of_ofDescriptor? {text : String} {signature : Signature}
    (read : ofDescriptor? text = .ok signature) : signature.Over FieldType.IsDescribable := by
  unfold ofDescriptor? at read
  cases characters : ofCharacters? text.toList with
  | error fault =>
    rw [characters] at read
    cases read
  | ok found =>
    rw [characters] at read
    cases read
    unfold ofCharacters? at characters
    split at characters
    · split at characters
      · cases characters
      · next takenParameters =>
        split at characters <;> cases characters
        next takenResult =>
        exact ⟨describable_of_takeParameters takenParameters, describable_of_takeResult takenResult⟩
    · cases characters

end Signature

/-! ### Names in source text -/

namespace FieldType

theorem unended_dotted {name : List Char} (unended : ';' ∉ name) : ';' ∉ slashesToDots name := by
  intro isIn
  obtain ⟨c, isChar, same⟩ := List.mem_map.mp isIn
  exact unended (eq_of_dotted (by decide) same ▸ isChar)

theorem unended_slashed {name : List Char} (unended : ';' ∉ name) : ';' ∉ dotsToSlashes name := by
  intro isIn
  obtain ⟨c, isChar, same⟩ := List.mem_map.mp isIn
  split at same
  · cases same
  · exact unended (same ▸ isChar)

/-- The name of a describable type has no semicolon. -/
theorem unended_sourceName {type : FieldType} (describable : type.IsDescribable) :
    ';' ∉ type.sourceName.toList := by
  induction type with
  | object className =>
    unfold sourceName MethodPatch.dottedName
    rw [String.toList_ofList]
    exact unended_dotted describable.unended
  | array component ih =>
    have inner := ih describable
    unfold sourceName
    rw [String.toList_append, List.mem_append]
    exact fun isIn => isIn.elim inner (by decide)
  | _ => decide

/-- What is read from a name without semicolons is describable. -/
theorem isDescribable_of_ofReversedName? {text : List Char} {type : FieldType} (unended : ';' ∉ text)
    (read : ofReversedName? text = some type) : type.IsDescribable := by
  induction text using ofReversedName?.induct generalizing type with
  | case1 inner ih =>
    unfold ofReversedName? at read
    obtain ⟨component, readInner, rfl⟩ := Option.map_eq_some_iff.mp read
    have component := ih (fun isIn => unended (by simp [isIn])) readInner
    exact component
  | case2 last front unbracketed blank ih =>
    rw [ofReversedName?_other unbracketed, if_pos blank] at read
    exact ih (fun isIn => unended (List.mem_cons_of_mem _ isIn)) read
  | case3 last front unbracketed visible =>
    rw [ofReversedName?_other unbracketed, if_neg visible] at read
    cases type with
    | object className =>
      obtain ⟨named, _, rfl⟩ := ofPlainName?_eq_object.mp read
      have within : ';' ∉ Text.trimStart (last :: front).reverse := fun isIn =>
        unended (List.mem_reverse.mp ((List.dropWhile_sublist _).mem isIn))
      refine ⟨?_, ?_⟩
      · rw [String.toList_ofList]
        exact fun none => named (List.map_eq_nil_iff.mp none)
      · rw [String.toList_ofList]
        exact unended_slashed within
    | array component =>
      unfold ofPlainName? at read
      split at read
      · next found =>
        cases read
        cases isPrimitive_of_ofKeyword? found
      · split at read <;> cases read
    | _ => trivial
  | case4 => cases read

/-- The name of a describable type, if it is read as a type, is read as a describable one. -/
theorem ofSourceName?_sourceName_describable {type found : FieldType}
    (describable : type.IsDescribable) (read : ofSourceName? type.sourceName = some found) :
    found.IsDescribable :=
  isDescribable_of_ofReversedName? (fun isIn => unended_sourceName describable (List.mem_reverse.mp isIn))
    read

end FieldType

end MethodPatch
