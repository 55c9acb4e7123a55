/-
**The locals of a method without a table.**

A method without a local variable table has the locals that its signature tells: `this`, unless it is
static, and the parameters, numbered, each behind the slots of those in front of it. As a record their
types are descriptors, which are read again where the locals are registered.

* `LaidFrom.covers`: locals in a row fill all slots from the first one on;
* `Local.layout`: locals for names and types, one behind the other;
* `MethodRecord.nodup_parameters`: `this` and the numbered parameters have different names;
* `MethodRecord.ofSignature_lays_out`: **every slot that the signature takes belongs to one parameter, and
  each name is bound to the slot and the type of its own.**
-/

import MethodPatch.Proofs.Locals.Order
import MethodPatch.Proofs.Types.Descriptor

namespace MethodPatch

/-- Locals in a row fill their slots. -/
theorem LaidFrom.covers {start : Nat} {entries : List Local} (laid : LaidFrom start entries) (slot : Nat) :
    (start ≤ slot ∧ slot < start + total Local.width entries) ↔
      ∃ entry ∈ entries, entry.slot.toNat ≤ slot ∧ slot < entry.finish := by
  induction entries generalizing start with
  | nil => simp
  | cons first rest ih =>
    obtain ⟨begins, laid⟩ := laid
    have behind := ih laid
    rw [total_cons, List.exists_mem_cons_iff, ← behind, Local.finish, begins]
    omega

namespace Local

/-- Locals for names and types, one behind the other from a slot on. -/
def layout (slot : Nat) : List (String × FieldType) → List Local
  | [] => []
  | (name, type) :: rest => ⟨name, UInt16.ofNat slot, type⟩ :: layout (slot + type.width) rest

variable (slot : Nat) (named : List (String × FieldType))

theorem map_layout : (layout slot named).map (fun entry => (entry.name, entry.type)) = named := by
  induction named generalizing slot with
  | nil => rfl
  | cons first rest ih => rw [layout, List.map_cons, ih]

/-- The records of a layout are those of its locals. -/
theorem layout_records : LocalRecord.layout slot named = (layout slot named).map .ofLocal := by
  induction named generalizing slot with
  | nil => rfl
  | cons first rest ih =>
    rw [LocalRecord.layout, layout, List.map_cons, ih]
    rfl

theorem total_layout : total Local.width (layout slot named) = total (fun entry => entry.2.width) named := by
  induction named generalizing slot with
  | nil => rfl
  | cons first rest ih =>
    rw [layout, total_cons, total_cons, ih]
    rfl

/-- As long as all slots fit into sixteen bits no local begins at another slot than the first free one. -/
theorem laidFrom_layout (fits : slot + total (fun entry => entry.2.width) named ≤ 65535) :
    LaidFrom slot (layout slot named) := by
  induction named generalizing slot with
  | nil => trivial
  | cons first rest ih =>
    rw [total_cons, ← Nat.add_assoc] at fits
    refine ⟨UInt16.toNat_ofNat_of_lt' ?_, ih _ fits⟩
    rw [UInt16.size]
    omega

end Local

theorem LocalRecord.resolve_ofLocal {entry : Local} (describable : entry.type.IsDescribable) :
    (LocalRecord.ofLocal entry).resolve = .ok entry := by
  rw [resolve, ofLocal, (FieldType.ofDescriptor?_descriptor_iff entry.type).mpr describable]

namespace MethodRecord

/-! ### Names and types -/

/-- The parameters with their names and types. -/
theorem parameters_eq (owner : String) (isStatic : Bool) (signature : Signature) :
    parameters owner isStatic signature = (if isStatic then [] else [("this", .object owner)]) ++
      signature.parameters.mapIdx fun index type => ("arg" ++ toString index, type) := by
  rw [parameters, List.mapIdx_eq_zipIdx_map]

/-- No two parameters have one name, and none is called `this`. -/
theorem nodup_parameters (owner : String) (isStatic : Bool) (signature : Signature) :
    ((parameters owner isStatic signature).map Prod.fst).Nodup := by
  have numbered : (signature.parameters.mapIdx fun index type => ("arg" ++ toString index, type)).map
      Prod.fst = (List.range signature.parameters.length).map fun index => "arg" ++ toString index := by
    apply List.ext_getElem <;> simp
  have isArgument : ((List.range signature.parameters.length).map fun index => "arg" ++ toString index).Nodup := by
    refine List.nodup_range.map fun first second same => ?_
    have sameDigits : Nat.toDigits 10 first = Nat.toDigits 10 second := by
      have sameText := congrArg String.toList ((String.append_right_inj "arg").mp same)
      rwa [Nat.toString_eq_repr, Nat.toString_eq_repr, Nat.toList_repr, Nat.toList_repr] at sameText
    have read : ∀ number, Nat.ofDigitChars 10 (Nat.toDigits 10 number) 0 = number :=
      fun number => Nat.ofDigitChars_toDigits (by decide) (by decide)
    rw [← read first, sameDigits, read]
  rw [parameters_eq, List.map_append, numbered]
  cases isStatic with
  | true => exact isArgument
  | false =>
    refine List.nodup_cons.mpr ⟨fun isIn => ?_, isArgument⟩
    obtain ⟨index, -, same⟩ := List.mem_map.mp isIn
    have begins := congrArg (fun text => text.toList.head?) same
    simp at begins

/-- The types of `this` and of parameters that were read are read back from their descriptors. -/
theorem describable_parameters {owner : String} {signature : Signature} (isStatic : Bool)
    (isOwner : owner ≠ "") (unended : ';' ∉ owner.toList)
    (describable : ∀ type ∈ signature.parameters, type.IsDescribable) :
    ∀ entry ∈ parameters owner isStatic signature, entry.2.IsDescribable := by
  intro entry isIn
  rcases List.mem_append.mp isIn with isThis | isArgument
  · cases isStatic with
    | true => cases isThis
    | false =>
      rw [List.mem_singleton.mp isThis]
      exact ⟨fun empty => isOwner (String.toList_eq_nil_iff.mp empty), unended⟩
  · obtain ⟨⟨type, index⟩, isNumbered, rfl⟩ := List.mem_map.mp isArgument
    exact describable type (List.fst_mem_of_mem_zipIdx isNumbered)

/-! ### The locals of a signature -/

/-- `this`, unless the method is static, and the parameters, as locals one behind the other. -/
def parameterLocals (owner : String) (isStatic : Bool) (signature : Signature) : List Local :=
  Local.layout 0 (parameters owner isStatic signature)

section Parameters

variable {owner : String} (isStatic : Bool) {signature : Signature}

theorem map_parameterLocals :
    ((parameterLocals owner isStatic signature).map fun entry => (entry.name, entry.type)) =
      parameters owner isStatic signature :=
  Local.map_layout 0 _

theorem nodup_parameterLocals : ((parameterLocals owner isStatic signature).map Local.name).Nodup := by
  have distinct := nodup_parameters owner isStatic signature
  rw [← map_parameterLocals, List.map_map] at distinct
  exact distinct

theorem total_parameterLocals (name : String) :
    total Local.width (parameterLocals owner isStatic signature) =
      (MethodContext.mk owner name signature isStatic).slots :=
  (Local.total_layout 0 _).trans (total_parameters ..)

theorem laidFrom_parameterLocals (name : String)
    (fits : (MethodContext.mk owner name signature isStatic).slots ≤ 65535) :
    LaidFrom 0 (parameterLocals owner isStatic signature) :=
  Local.laidFrom_layout 0 _ (by rwa [Nat.zero_add, total_parameters owner name])

/-- The records of a signature are read as its locals. -/
theorem resolve_ofSignature (isOwner : owner ≠ "") (unended : ';' ∉ owner.toList)
    (describable : ∀ type ∈ signature.parameters, type.IsDescribable) :
    (ofSignature owner isStatic signature).resolve = .ok (parameterLocals owner isStatic signature) := by
  have locals : (ofSignature owner isStatic signature).locals = _ :=
    Local.layout_records 0 (parameters owner isStatic signature)
  rw [resolve_eq_ok_iff, locals, List.forall₂_map_left_iff]
  refine List.forall₂_same.mpr fun entry isIn => LocalRecord.resolve_ofLocal ?_
  have isNamed := List.mem_map_of_mem (f := fun entry : Local => (entry.name, entry.type)) isIn
  rw [show (Local.layout 0 (parameters owner isStatic signature)).map _ = _ from map_parameterLocals isStatic] at isNamed
  exact describable_parameters isStatic isOwner unended describable _ isNamed

end Parameters

/-- **What a signature tells of the locals of a method.** They are `this`, unless the method is static,
and the numbered parameters, one behind the other. Every slot below the first free one belongs to one of
them, and to one alone. They can be registered and bound, each name to its own slot and type. -/
theorem ofSignature_lays_out {owner text : String} {signature : Signature} (isStatic : Bool) (name : String)
    (isOwner : owner ≠ "") (unended : ';' ∉ owner.toList)
    (described : Signature.ofDescriptor? text = .ok signature)
    (fits : (MethodContext.mk owner name signature isStatic).slots ≤ 65535) :
    let record := ofSignature owner isStatic signature
    ∃ entries, record.resolve = .ok entries ∧ record.locals = entries.map .ofLocal ∧
      (entries.map fun entry => (entry.name, entry.type)) =
        (if isStatic then [] else [("this", .object owner)]) ++
          (signature.parameters.mapIdx fun index type => ("arg" ++ toString index, type)) ∧
      LaidFrom 0 entries ∧ (entries.Pairwise fun first second => first.overlaps second = false) ∧
      (∀ slot, slot < record.maxLocals.toNat ↔ ∃ entry ∈ entries, entry.slot.toNat ≤ slot ∧ slot < entry.finish) ∧
      record.maxLocals = (MethodContext.mk owner name signature isStatic).firstFreeSlot ∧
      ∃ allocator table, record.allocator = .ok allocator ∧ record.roots = .ok table ∧
        allocator.next = record.maxLocals.toNat ∧
        ∀ entry ∈ entries, allocator.find? entry.name = some entry ∧
          table.find? entry.name = some entry.symbol := by
  intro record
  have maxLocals := maxLocals_ofSignature owner name isStatic signature
  have counted : record.maxLocals.toNat = (MethodContext.mk owner name signature isStatic).slots := by
    rw [maxLocals, MethodContext.toNat_firstFreeSlot]
    omega
  have resolved := resolve_ofSignature isStatic isOwner unended
    (Signature.over_of_ofDescriptor? described).1
  have laid := laidFrom_parameterLocals isStatic name fits
  have ends : ∀ entry ∈ parameterLocals owner isStatic signature,
      entry.finish ≤ record.maxLocals.toNat := by
    intro entry isIn
    have bound := (laid.bounds isIn).2
    rwa [Nat.zero_add, total_parameterLocals isStatic name, ← counted] at bound
  obtain ⟨allocator, isMade, next, known⟩ :=
    Allocator.seeded_of_nodup (nodup_parameterLocals isStatic) (counted ▸ fits) ends
  have isAllocator : record.allocator = .ok allocator := (allocator_of_resolve resolved).trans isMade
  have rooted : record.roots = .ok (allocator.bySlot.map Local.symbol) := by
    rw [roots, isAllocator]
    rfl
  refine ⟨_, resolved, Local.layout_records 0 _, (map_parameterLocals isStatic).trans (parameters_eq ..), laid,
    laid.pairwise.imp Local.overlaps_of_finish_le, fun slot => ?_, maxLocals,
    allocator, _, isAllocator, rooted, next, fun entry isIn => ⟨known entry isIn, ?_⟩⟩
  · rw [← laid.covers, total_parameterLocals isStatic name, Nat.zero_add, counted]
    exact (and_iff_right (Nat.zero_le _)).symm
  · rw [find?_roots rooted isAllocator, known entry isIn]
    rfl

/-- An instance method with parameters of one slot and of two. -/
theorem ofSignature_lays_out_wide :
    ∃ allocator table, (ofSignature "demo/Task" false ⟨[.long, .object "java/lang/String", .double], none⟩).allocator =
        .ok allocator ∧
      (ofSignature "demo/Task" false ⟨[.long, .object "java/lang/String", .double], none⟩).roots = .ok table ∧
      allocator.next = 6 ∧ allocator.find? "arg2" = some ⟨"arg2", 4, .double⟩ ∧
        table.find? "this" = some (.bound "this" 0 (.object "demo/Task")) := by
  have described : Signature.ofDescriptor? "(JLjava/lang/String;D)V" =
      .ok ⟨[.long, .object "java/lang/String", .double], none⟩ := by
    decide +kernel
  obtain ⟨entries, resolved, -, -, -, -, -, maxLocals, allocator, table, made, rooted, next, bound⟩ :=
    ofSignature_lays_out false "run" (by decide : "demo/Task" ≠ "") (by decide) described (by decide)
  have isEntries : (ofSignature "demo/Task" false ⟨[.long, .object "java/lang/String", .double], none⟩).resolve =
      .ok [⟨"this", 0, .object "demo/Task"⟩, ⟨"arg0", 1, .long⟩, ⟨"arg1", 3, .object "java/lang/String"⟩,
        ⟨"arg2", 4, .double⟩] := by
    decide +kernel
  obtain rfl := Except.ok.inj (resolved.symm.trans isEntries)
  exact ⟨allocator, table, made, rooted, next, (bound ⟨"arg2", 4, .double⟩ (by decide)).1,
    (bound ⟨"this", 0, .object "demo/Task"⟩ (by decide)).2⟩

end MethodRecord

end MethodPatch
