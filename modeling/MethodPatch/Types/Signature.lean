/-
**Method signatures.**

A signature has parameter types and a result, which is absent for `void`. Its descriptor puts the
parameters in parentheses and the result, or `V`, behind them.

* `Signature.ofDescriptor?`: the signature that a text describes;
* `Signature.slots`: what the arguments take on the stack and the parameters in the frame;
* `Signature.parameterSlots`: the same as it is counted, in 16 bits.
-/

import MethodPatch.Types.FieldType
import MethodPatch.Total

namespace MethodPatch

/-- The parameters and the result of a method. -/
structure Signature where
  parameters : List FieldType
  result : Option FieldType
  deriving DecidableEq, Inhabited

namespace Signature

/-- The descriptor of a signature. -/
def descriptor (signature : Signature) : String :=
  "(" ++ String.join (signature.parameters.map FieldType.descriptor) ++ ")" ++
    match signature.result with
    | some type => type.descriptor
    | none => "V"

/-- The parameters up to the closing parenthesis, and the text behind it. -/
def takeParameters (text : List Char) : Except DescriptorFault (List FieldType × List Char) :=
  if text = [] then .error .unterminatedParameters
  else if text.head? = some ')' then .ok ([], text.tail)
  else
    match _taken : FieldType.takeDescriptor text with
    | .error fault => .error fault
    | .ok (first, rest) =>
      match takeParameters rest with
      | .error fault => .error fault
      | .ok (others, behind) => .ok (first :: others, behind)
termination_by text.length
decreasing_by exact FieldType.takeDescriptor_length _taken

/-- The result from the whole of a text. -/
def takeResult (text : List Char) : Except DescriptorFault (Option FieldType) :=
  if text = ['V'] then .ok none
  else
    match FieldType.takeDescriptor text with
    | .error fault => .error fault
    | .ok (type, []) => .ok (some type)
    | .ok (_, _ :: _) => .error .trailingCharacters

/-- The signature that a sequence of characters describes. -/
def ofCharacters? : List Char → Except DescriptorFault Signature
  | '(' :: text =>
    match takeParameters text with
    | .error fault => .error fault
    | .ok (parameters, behind) =>
      match takeResult behind with
      | .error fault => .error fault
      | .ok result => .ok ⟨parameters, result⟩
  | _ => .error .missingParenthesis

/-- The signature that a text describes. -/
def ofDescriptor? (text : String) : Except DescriptorError Signature :=
  (ofCharacters? text.toList).mapError fun fault => ⟨text, fault⟩

/-- The slots of all parameters together. -/
def slots (signature : Signature) : Nat := total FieldType.width signature.parameters

/-- The slots of all parameters, counted in 16 bits. The count starts over behind 65535. -/
def parameterSlots (signature : Signature) : UInt16 :=
  signature.parameters.foldl (fun count type => count + UInt16.ofNat type.width) 0

/-- The slots of the result, none for `void`. -/
def resultSlots (signature : Signature) : Nat :=
  match signature.result with
  | some type => type.width
  | none => 0

theorem toNat_parameterSlots (signature : Signature) :
    signature.parameterSlots.toNat = signature.slots % 65536 := by
  have counted : ∀ (parameters : List FieldType) (count : UInt16),
      (parameters.foldl (fun count type => count + UInt16.ofNat type.width) count).toNat =
        (count.toNat + total FieldType.width parameters) % 65536 := by
    intro parameters
    induction parameters with
    | nil => intro count; simp [Nat.mod_eq_of_lt count.toNat_lt]
    | cons first rest ih =>
      intro count
      rw [List.foldl_cons, ih, UInt16.toNat_add, total_cons, UInt16.toNat_ofNat']
      omega
  exact (counted signature.parameters 0).trans (by rw [UInt16.toNat_zero, Nat.zero_add, slots])

/-- The count is right exactly if the parameters fit into 65535 slots. -/
theorem toNat_parameterSlots_eq_iff (signature : Signature) :
    signature.parameterSlots.toNat = signature.slots ↔ signature.slots ≤ 65535 := by
  rw [toNat_parameterSlots]
  omega

end Signature

end MethodPatch
