/-
**Slots of local variables.**

New local variables get slots behind those that are taken. What is known of the locals of a method
beforehand is its record.

* `Allocator.find?_register`, `Allocator.find?_allocate`: which locals are known afterwards;
* `Allocator.rollback_self`: nothing is given back when nothing was allocated since;
* `MethodRecord.ofSignature`: the record of a method without a table;
* `MethodRecord.allocator`, `MethodRecord.roots`: the locals by name, as an allocator and as a table;
* `MethodRecord.merge`: the record with more locals.
-/

import MethodPatch.Patch.Error
import MethodPatch.Types.Signature

namespace MethodPatch

/-! ### Giving slots to local variables

An allocator knows the locals of a method, one for each name, and the slot behind all of them. A new
local goes there; no local is ever moved. What was allocated since a mark can be given back. -/

/-- The known locals of a method, the first slot that is free, and the names of the locals that were
allocated, in order. -/
structure Allocator where
  next : Nat
  known : List Local
  allocated : List String
  deriving DecidableEq, Inhabited

/-- The state of an allocator that can be gone back to. -/
structure Mark where
  next : Nat
  allocated : Nat
  deriving DecidableEq

/-- The number of slots of a method. -/
def slotLimit : Nat := 65535

/-- That a local does not fit into the slots of a method. -/
def noSlot (name : String) : PatchError := .notCompiled (notGenerated (.noSlot name) none)

namespace Allocator

/-- An allocator without locals whose first free slot is given. -/
def startingAt (next : Nat) : Allocator := ⟨next, [], []⟩

/-- The local of a name. -/
def find? (allocator : Allocator) (name : String) : Option Local :=
  allocator.known.find? fun entry => entry.name = name

/-- Locals with one put in the place of another of its name, or at the end. -/
def put (entry : Local) : List Local → List Local
  | [] => [entry]
  | first :: rest => if first.name = entry.name then entry :: rest else first :: put entry rest

/-- A new local in the first free slots. -/
def allocate (allocator : Allocator) (name : String) (type : FieldType) :
    Except PatchError (Local × Allocator) :=
  match allocator.find? name with
  | some existing => .error (.alreadyPlaced name existing.slot)
  | none =>
    let entry : Local := ⟨name, UInt16.ofNat allocator.next, type⟩
    if slotLimit < allocator.next + entry.width then .error (noSlot name)
    else .ok (entry,
      { next := allocator.next + entry.width,
        known := put entry allocator.known,
        allocated := allocator.allocated ++ [name] })

/-- The allocator with a local that the method has already. Of two locals of one name the one with
the higher slot stays; both keep their slots from being given out. -/
def register (allocator : Allocator) (entry : Local) : Except PatchError Allocator :=
  if slotLimit < entry.finish then .error (noSlot entry.name)
  else
    let next := max allocator.next entry.finish
    match allocator.find? entry.name with
    | some existing =>
      if entry.slot < existing.slot then .ok { allocator with next }
      else .ok { allocator with next, known := put entry allocator.known }
    | none => .ok { allocator with next, known := put entry allocator.known }

/-- The allocator with locals that the method has already, in order. -/
def registerAll (allocator : Allocator) (entries : List Local) : Except PatchError Allocator :=
  entries.foldlM register allocator

/-- An allocator for a method with these locals. -/
def seeded (next : Nat) (entries : List Local) : Except PatchError Allocator :=
  (startingAt next).registerAll entries

/-- The state to go back to. -/
def mark (allocator : Allocator) : Mark := ⟨allocator.next, allocator.allocated.length⟩

/-- The allocator without what was allocated since a mark. -/
def rollback (allocator : Allocator) (mark : Mark) : Allocator :=
  if allocator.allocated.length ≤ mark.allocated then allocator
  else
    let dropped := allocator.allocated.drop mark.allocated
    { next := mark.next,
      known := allocator.known.filter fun entry => entry.name ∉ dropped,
      allocated := allocator.allocated.take mark.allocated }

/-- The allocated locals, in order. -/
def fresh (allocator : Allocator) : List Local := allocator.allocated.filterMap allocator.find?

/-- All known locals by slot, and by name within a slot. -/
def bySlot (allocator : Allocator) : List Local :=
  allocator.known.mergeSort fun first second =>
    decide (first.slot < second.slot ∨ first.slot = second.slot ∧ first.name ≤ second.name)

/-- The number of slots in front of the first free one. -/
def count (allocator : Allocator) : UInt16 := UInt16.ofNat allocator.next

theorem find?_put (entry : Local) (known : List Local) (name : String) :
    (put entry known).find? (fun other => other.name = name) =
      if entry.name = name then some entry else known.find? fun other => other.name = name := by
  induction known with
  | nil => by_cases same : entry.name = name <;> simp [put, same]
  | cons first rest ih =>
    unfold put
    by_cases replaced : first.name = entry.name
    · by_cases same : entry.name = name <;> simp [replaced, same]
    · by_cases same : entry.name = name
      · have other : first.name ≠ name := fun equal => replaced (equal.trans same.symm)
        simp only [same, if_true] at ih
        simp [same, other, ih]
      · simp only [replaced, if_false, List.find?_cons, ih, same]

theorem find?_allocate {allocator later : Allocator} {name : String} {type : FieldType}
    {entry : Local} (done : allocator.allocate name type = .ok (entry, later)) (other : String) :
    later.find? other = if name = other then some entry else allocator.find? other := by
  unfold allocate at done
  split at done
  · simp at done
  · dsimp only at done
    split at done
    · simp at done
    · simp only [Except.ok.injEq, Prod.mk.injEq] at done
      rw [← done.1, ← done.2]
      exact find?_put ..

theorem rollback_self (allocator : Allocator) : allocator.rollback allocator.mark = allocator := by
  simp [rollback, mark]

end Allocator

/-! ### What is recorded about the locals of a method

A record is the local variable table of a method, with the types as descriptors, and the number of
slots that the method uses. It may list a name more than once. A method without a table gets one
from its signature: `this` and the parameters, one behind the other. -/

/-- An entry of a local variable table. -/
structure LocalRecord where
  name : String
  slot : Slot
  descriptor : String
  deriving DecidableEq, Inhabited

namespace LocalRecord

/-- The entry for a local. -/
def ofLocal (entry : Local) : LocalRecord := ⟨entry.name, entry.slot, entry.type.descriptor⟩

/-- The local of an entry. -/
def resolve (record : LocalRecord) : Except PatchError Local :=
  match FieldType.ofDescriptor? record.descriptor with
  | .ok type => .ok ⟨record.name, record.slot, type⟩
  | .error error => .error (.badRecord (.localType record.name error))

/-- Entries for names and types, one behind the other from a slot on. -/
def layout (slot : Nat) : List (String × FieldType) → List LocalRecord
  | [] => []
  | (name, type) :: rest =>
    ⟨name, UInt16.ofNat slot, type.descriptor⟩ :: layout (slot + type.width) rest

end LocalRecord

/-- The local variable table of a method and the number of slots it uses. -/
structure MethodRecord where
  maxLocals : UInt16
  locals : List LocalRecord
  deriving DecidableEq, Inhabited

namespace MethodRecord

/-- The names and types of `this`, unless the method is static, and of the parameters. -/
def parameters (owner : String) (isStatic : Bool) (signature : Signature) :
    List (String × FieldType) :=
  (if isStatic then [] else [("this", .object owner)]) ++
    signature.parameters.zipIdx.map fun (type, index) => ("arg" ++ toString index, type)

/-- The record of a method of a class without a local variable table. Its slots are counted in 16
bits. -/
def ofSignature (owner : String) (isStatic : Bool) (signature : Signature) : MethodRecord :=
  let named := parameters owner isStatic signature
  ⟨UInt16.ofNat (total (fun entry => entry.2.width) named), LocalRecord.layout 0 named⟩

/-- The recorded locals, in order. -/
def resolve (record : MethodRecord) : Except PatchError (List Local) :=
  record.locals.mapM LocalRecord.resolve

/-- An allocator that knows the recorded locals. -/
def allocator (record : MethodRecord) : Except PatchError Allocator :=
  record.resolve.bind (Allocator.seeded record.maxLocals.toNat)

/-- The recorded locals by name. Of two entries of one name the one that an allocator keeps counts. -/
def roots (record : MethodRecord) : Except PatchError Table :=
  record.allocator.map fun allocator => allocator.bySlot.map Local.symbol

/-- The entry of a name. -/
def find? (record : MethodRecord) (name : String) : Option LocalRecord :=
  record.locals.find? fun entry => entry.name = name

/-- A table with a local at its end, which takes the place of all entries of its name. -/
def append (records : List LocalRecord) (entry : Local) : List LocalRecord :=
  (records.filter fun record => record.name ≠ entry.name) ++ [.ofLocal entry]

/-- The record with more locals and with at least as many slots as they need. -/
def merge (record : MethodRecord) (introduced : List Local) (maxLocals : UInt16) : MethodRecord :=
  ⟨max record.maxLocals maxLocals, introduced.foldl append record.locals⟩

end MethodRecord

end MethodPatch
