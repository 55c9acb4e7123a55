/-
**The grammar of descriptors.**

The text of a field type is the letter of a primitive type, `L` and the name of a class up to a
semicolon, or `[` and the text of a component. The text of a signature holds those of its parameters
in parentheses and, behind them, that of its result or `V`. Reading takes these texts and no others,
and what it reads is written as the text that it was read from, whatever characters stand in the
names of classes.

* `IsFieldText`, `IsSignatureText`: the grammar, with the parameters of a signature piece by piece;
* `FieldType.eq_append_of_takeDescriptor`: what is read from the front of a text is its front;
* `FieldType.ofDescriptor?_eq_ok_iff`, `Signature.ofDescriptor?_eq_ok_iff`: which texts are read as
  which types and signatures;
* `Signature.descriptors_exact`: **reading and writing descriptors are inverse**, and the grammar says
  what is read.
-/

import MethodPatch.Proofs.Types.Descriptor

namespace MethodPatch

/-! ### The grammar -/

/-- The texts that describe a field type. -/
inductive IsFieldText : List Char → Prop
  | primitive {tag : Char} (isTag : tag ∈ ['Z', 'B', 'C', 'S', 'I', 'J', 'F', 'D']) : IsFieldText [tag]
  | object {name : List Char} (describable : DescribableName name) :
    IsFieldText ('L' :: (name ++ [';']))
  | array {component : List Char} (isField : IsFieldText component) : IsFieldText ('[' :: component)

/-- A text describes a signature with these texts of its parameters and of its result. -/
structure IsSignatureText (text : List Char) (parameters : List (List Char)) (result : List Char) :
    Prop where
  areFields : ∀ parameter ∈ parameters, IsFieldText parameter
  isResult : result = ['V'] ∨ IsFieldText result
  spelled : text = '(' :: (parameters.flatten ++ ')' :: result)

/-! ### Types -/

namespace FieldType

/-- The letter that a primitive type is read from is its descriptor. -/
theorem descriptor_of_ofTag? {tag : Char} {type : FieldType} (found : ofTag? tag = some type) :
    type.descriptor.toList = [tag] := by
  unfold ofTag? at found
  split at found <;> cases found <;> rfl

/-- What is read from the front of a text is the type whose descriptor the text begins with. -/
theorem eq_append_of_takeDescriptor {text rest : List Char} {type : FieldType}
    (taken : takeDescriptor text = .ok (type, rest)) : text = type.descriptor.toList ++ rest := by
  induction text generalizing type rest with
  | nil => cases taken
  | cons tag behind ih =>
    by_cases isArray : tag = '['
    · rw [takeDescriptor, if_pos isArray] at taken
      split at taken <;> cases taken
      next component _ inner =>
      rw [isArray, ih inner]
      simp [descriptor]
    by_cases isObject : tag = 'L'
    · rw [takeDescriptor, if_neg isArray, if_pos isObject] at taken
      have whole : behind.takeWhile (· != ';') ++ behind.dropWhile (· != ';') = behind :=
        List.takeWhile_append_dropWhile
      dsimp only at taken
      split at taken
      · cases taken
      · next last remaining parts =>
        split at taken <;> cases taken
        -- The name ends in front of the first character that is a semicolon.
        have isLast : last = ';' := by
          have stops := List.head?_dropWhile_not (· != ';') behind
          rw [parts] at stops
          simpa using stops
        rw [parts, isLast] at whole
        calc tag :: behind = 'L' :: (behind.takeWhile (· != ';') ++ ';' :: rest) := by
              rw [whole, isObject]
          _ = _ := by simp [descriptor]
    · rw [takeDescriptor, if_neg isArray, if_neg isObject] at taken
      split at taken <;> cases taken
      next found =>
      rw [descriptor_of_ofTag? found]
      rfl

/-- **A text is read as a type** if and only if it is the descriptor of it and the type is
describable. -/
theorem ofDescriptor?_eq_ok_iff {text : String} {type : FieldType} :
    ofDescriptor? text = .ok type ↔ text = type.descriptor ∧ type.IsDescribable := by
  constructor
  · intro read
    refine ⟨?_, isDescribable_of_ofDescriptor? read⟩
    unfold ofDescriptor? at read
    split at read <;> cases read
    next taken =>
    have spelled := eq_append_of_takeDescriptor taken
    rw [List.append_nil] at spelled
    exact String.toList_inj.mp spelled
  · rintro ⟨rfl, describable⟩
    exact (ofDescriptor?_descriptor_iff type).mpr describable

/-- The descriptor of a describable type is in the grammar. -/
theorem isFieldText_descriptor {type : FieldType} (describable : type.IsDescribable) :
    IsFieldText type.descriptor.toList := by
  induction type with
  | object className =>
    have spelled : (object className).descriptor.toList = 'L' :: (className.toList ++ [';']) := by
      simp [descriptor]
    rw [spelled]
    exact .object describable
  | array component ih =>
    have spelled : (array component).descriptor.toList = '[' :: component.descriptor.toList := by
      simp [descriptor]
    rw [spelled]
    exact .array (ih describable)
  | _ => exact .primitive (by decide)

/-- A text of the grammar is the descriptor of a describable type. -/
theorem exists_descriptor_of_isFieldText {text : List Char} (isField : IsFieldText text) :
    ∃ type : FieldType, type.IsDescribable ∧ type.descriptor.toList = text := by
  induction isField with
  | @primitive tag isTag =>
    have tagged : (['Z', 'B', 'C', 'S', 'I', 'J', 'F', 'D'].all fun tag => (ofTag? tag).isSome) = true :=
      by decide
    obtain ⟨type, found⟩ := Option.isSome_iff_exists.mp (List.all_eq_true.mp tagged tag isTag)
    refine ⟨type, ?_, descriptor_of_ofTag? found⟩
    unfold ofTag? at found
    split at found <;> cases found <;> trivial
  | @object name describable =>
    refine ⟨.object (String.ofList name), ?_, by simp [descriptor]⟩
    show DescribableName (String.ofList name).toList
    rwa [String.toList_ofList]
  | array isField ih =>
    obtain ⟨component, describable, rfl⟩ := ih
    exact ⟨.array component, describable, by simp [descriptor]⟩

end FieldType

/-! ### Signatures -/

namespace Signature

open FieldType

/-- The text of the result of a signature. -/
def resultText : Option FieldType → List Char
  | some type => type.descriptor.toList
  | none => ['V']

theorem toList_descriptor (signature : Signature) :
    signature.descriptor.toList =
      '(' :: ((signature.parameters.map fun type => type.descriptor.toList).flatten ++
        ')' :: resultText signature.result) := by
  have joined : (String.join (signature.parameters.map FieldType.descriptor)).toList =
      (signature.parameters.map fun type => type.descriptor.toList).flatten := by
    simp [String.toList_join, List.flatMap_def, Function.comp_def]
  unfold descriptor resultText
  rw [String.toList_append, String.toList_append, String.toList_append, joined]
  cases signature.result <;> simp

/-- What is read as parameters are the types whose descriptors the text begins with, one behind the
other up to a closing parenthesis. -/
theorem eq_append_of_takeParameters {text rest : List Char} {parameters : List FieldType}
    (taken : takeParameters text = .ok (parameters, rest)) :
    text = (parameters.map fun type => type.descriptor.toList).flatten ++ ')' :: rest := by
  induction hasLength : text.length using Nat.strongRecOn generalizing text parameters rest with
  | ind length ih =>
    rw [takeParameters] at taken
    split at taken
    · cases taken
    · split at taken
      · next closing =>
        cases taken
        obtain ⟨behind, rfl⟩ := List.head?_eq_some_iff.mp closing
        rfl
      · split at taken
        · cases taken
        · next first behind takenFirst =>
          split at taken <;> cases taken
          next others takenOthers =>
          have shorter := takeDescriptor_length takenFirst
          have inner := ih _ (hasLength ▸ shorter) takenOthers rfl
          rw [eq_append_of_takeDescriptor takenFirst, inner, List.map_cons, List.flatten_cons,
            List.append_assoc]

theorem eq_resultText_of_takeResult {text : List Char} {result : Option FieldType}
    (taken : takeResult text = .ok result) : text = resultText result := by
  unfold takeResult at taken
  split at taken
  · next isVoid =>
    cases taken
    exact isVoid
  · split at taken <;> cases taken
    next takenType =>
    have spelled := eq_append_of_takeDescriptor takenType
    rwa [List.append_nil] at spelled

/-- **A text is read as a signature** if and only if it is the descriptor of it and the types in the
signature are describable. -/
theorem ofDescriptor?_eq_ok_iff {text : String} {signature : Signature} :
    ofDescriptor? text = .ok signature ↔
      text = signature.descriptor ∧ signature.Over IsDescribable := by
  constructor
  · intro read
    refine ⟨?_, over_of_ofDescriptor? read⟩
    unfold ofDescriptor? at read
    cases characters : ofCharacters? text.toList with
    | error fault =>
      rw [characters] at read
      cases read
    | ok found =>
      rw [characters] at read
      cases read
      apply String.toList_inj.mp
      unfold ofCharacters? at characters
      split at characters
      · next inside spelled =>
        split at characters
        · cases characters
        · next takenParameters =>
          split at characters <;> cases characters
          next takenResult =>
          rw [spelled, toList_descriptor, eq_append_of_takeParameters takenParameters,
            eq_resultText_of_takeResult takenResult]
      · cases characters
  · rintro ⟨rfl, isOver⟩
    exact ofDescriptor?_descriptor isOver

/-- The descriptor of a signature of describable types is in the grammar. -/
theorem isSignatureText_descriptor {signature : Signature} (isOver : signature.Over IsDescribable) :
    IsSignatureText signature.descriptor.toList
      (signature.parameters.map fun type => type.descriptor.toList) (resultText signature.result) where
  areFields := by
    intro parameter isIn
    obtain ⟨type, isParameter, rfl⟩ := List.mem_map.mp isIn
    exact isFieldText_descriptor (isOver.parameters type isParameter)
  isResult := by
    cases hasResult : signature.result with
    | none => exact .inl rfl
    | some type => exact .inr (isFieldText_descriptor (isOver.result type hasResult))
  spelled := toList_descriptor signature

/-- Texts of the grammar are the descriptors of describable types, one by one. -/
theorem exists_descriptors_of_isFieldText {pieces : List (List Char)}
    (isField : ∀ piece ∈ pieces, IsFieldText piece) :
    ∃ types : List FieldType, (∀ type ∈ types, type.IsDescribable) ∧
      (types.map fun type => type.descriptor.toList) = pieces := by
  induction pieces with
  | nil => exact ⟨[], nofun, rfl⟩
  | cons first rest ih =>
    obtain ⟨here, behind⟩ := List.forall_mem_cons.mp isField
    obtain ⟨type, describable, rfl⟩ := exists_descriptor_of_isFieldText here
    obtain ⟨types, others, rfl⟩ := ih behind
    exact ⟨type :: types, List.forall_mem_cons.mpr ⟨describable, others⟩, rfl⟩

/-- A text of the grammar is the descriptor of a signature that has these parameters. -/
theorem exists_descriptor_of_isSignatureText {text result : List Char} {pieces : List (List Char)}
    (isSignature : IsSignatureText text pieces result) :
    ∃ signature : Signature, signature.Over IsDescribable ∧ signature.descriptor.toList = text ∧
      (signature.parameters.map fun type => type.descriptor.toList) = pieces := by
  obtain ⟨isField, isResult, rfl⟩ := isSignature
  obtain ⟨parameters, describable, rfl⟩ := exists_descriptors_of_isFieldText isField
  rcases isResult with rfl | isResult
  · exact ⟨⟨parameters, none⟩, ⟨describable, nofun⟩, toList_descriptor _, rfl⟩
  · obtain ⟨type, isDescribable, rfl⟩ := exists_descriptor_of_isFieldText isResult
    refine ⟨⟨parameters, some type⟩, ⟨describable, ?_⟩, toList_descriptor _, rfl⟩
    rintro _ ⟨⟩
    exact isDescribable

/-- **Reading and writing descriptors are inverse.** A text is read as a type or as a signature if and
only if it is the descriptor of it and every class in it has a name that is not empty and holds no
semicolon. So no two texts are read alike, and the texts that are read as signatures are those of the
grammar, with a parameter for each piece between the parentheses. -/
theorem descriptors_exact :
    (∀ text type, FieldType.ofDescriptor? text = .ok type ↔
      text = type.descriptor ∧ type.IsDescribable) ∧
    (∀ text signature, ofDescriptor? text = .ok signature ↔
      text = signature.descriptor ∧ signature.Over IsDescribable) ∧
    (∀ first second type, FieldType.ofDescriptor? first = .ok type →
      FieldType.ofDescriptor? second = .ok type → first = second) ∧
    (∀ first second signature, ofDescriptor? first = .ok signature →
      ofDescriptor? second = .ok signature → first = second) ∧
    (∀ text : String, (∃ type, FieldType.ofDescriptor? text = .ok type) ↔ IsFieldText text.toList) ∧
    ∀ (text : String) pieces, (∃ signature, ofDescriptor? text = .ok signature ∧
        (signature.parameters.map fun type => type.descriptor.toList) = pieces) ↔
      ∃ result, IsSignatureText text.toList pieces result := by
  refine ⟨fun _ _ => FieldType.ofDescriptor?_eq_ok_iff, fun _ _ => ofDescriptor?_eq_ok_iff,
    fun first second type isFirst isSecond => ?_, fun first second signature isFirst isSecond => ?_,
    fun text => ⟨?_, fun isField => ?_⟩, fun text pieces => ⟨?_, ?_⟩⟩
  · rw [(FieldType.ofDescriptor?_eq_ok_iff.mp isFirst).1,
      (FieldType.ofDescriptor?_eq_ok_iff.mp isSecond).1]
  · rw [(ofDescriptor?_eq_ok_iff.mp isFirst).1, (ofDescriptor?_eq_ok_iff.mp isSecond).1]
  · rintro ⟨type, read⟩
    obtain ⟨rfl, describable⟩ := FieldType.ofDescriptor?_eq_ok_iff.mp read
    exact isFieldText_descriptor describable
  · obtain ⟨type, describable, spelled⟩ := exists_descriptor_of_isFieldText isField
    exact ⟨type, FieldType.ofDescriptor?_eq_ok_iff.mpr
      ⟨(String.toList_inj.mp spelled).symm, describable⟩⟩
  · rintro ⟨signature, read, rfl⟩
    obtain ⟨rfl, isOver⟩ := ofDescriptor?_eq_ok_iff.mp read
    exact ⟨_, isSignatureText_descriptor isOver⟩
  · rintro ⟨result, isSignature⟩
    obtain ⟨signature, isOver, spelled, same⟩ := exists_descriptor_of_isSignatureText isSignature
    exact ⟨signature, ofDescriptor?_eq_ok_iff.mpr
      ⟨(String.toList_inj.mp spelled).symm, isOver⟩, same⟩

/-- A class whose name looks like the descriptor of a method, and an array, read as two parameters. -/
theorem descriptors_exact_lookalike : ∃ signature,
    ofDescriptor? "(L()[V;[J)V" = .ok signature ∧
      signature = ⟨[.object "()[V", .array .long], none⟩ ∧
      (∀ other, ofDescriptor? other = .ok signature → other = "(L()[V;[J)V") ∧
      ∃ result, IsSignatureText "(L()[V;[J)V".toList ["L()[V;".toList, "[J".toList] result := by
  obtain ⟨_, exactly, _, injective, _, grammar⟩ := descriptors_exact
  have isOver : Signature.Over IsDescribable ⟨[.object "()[V", .array .long], none⟩ :=
    ⟨by simpa [IsDescribable] using ⟨by decide, by decide⟩, nofun⟩
  have read := (exactly "(L()[V;[J)V" ⟨[.object "()[V", .array .long], none⟩).mpr ⟨by decide, isOver⟩
  exact ⟨_, read, rfl, fun other isOther => injective _ _ _ isOther read,
    (grammar _ _).mp ⟨_, read, by decide⟩⟩

end Signature

end MethodPatch
