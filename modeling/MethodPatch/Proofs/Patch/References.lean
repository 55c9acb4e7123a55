/-
**The constants that fragments refer to.**

Constants are added under the descriptors of types. The types come from descriptors themselves, from
the words of primitive types, and from the names of classes; where classes have names that
descriptors can hold, every descriptor is read back, and it has the width that its type had. The
constants stay where they are as more are added.

* `Target.site_speaks`: the types that a workspace speaks of are describable;
* `Instr.Refers`: an instruction refers to a constant of the right kind;
* `Session.compile_references`: **every reference of a fragment is to such a constant, for good**;
* `Session.miscounted_reference`: a call says how many slots its method takes in 16 bits.
-/

import MethodPatch.Proofs.Emission.Creation
import MethodPatch.Proofs.Patch.Repeats
import MethodPatch.Proofs.Syntax.Written
import MethodPatch.Proofs.Types.Descriptor
import MethodPatch.Proofs.Workspace.Methods

namespace MethodPatch

/-! ### Workspaces -/

namespace Workspace

variable {workspace : Workspace}

/-- The classes of a workspace have names that descriptors can hold. -/
def Describable (workspace : Workspace) : Prop :=
  ∀ entry ∈ workspace.primary.classes ++ workspace.libraries.flatMap Resource.classes,
    DescribableName entry.name.toList

theorem describable_platform : ∀ entry ∈ Platform.all, DescribableName entry.name.toList := by
  have names : ∀ entry ∈ Platform.all, entry.name.toList ≠ [] ∧ ';' ∉ entry.name.toList := by
    decide
  exact fun entry isIn => ⟨(names entry isIn).1, (names entry isIn).2⟩

variable (describable : workspace.Describable)
include describable

theorem Describable.of_mem {entry : ClassEntry} (isIn : entry ∈ workspace.classes) :
    DescribableName entry.name.toList := by
  rcases List.mem_append.mp isIn with isOwn | isPlatform
  · exact describable entry isOwn
  · exact describable_platform entry isPlatform

theorem Describable.of_find? {name : String} {entry : ClassEntry}
    (found : workspace.find? name = some entry) : DescribableName entry.name.toList :=
  describable.of_mem (List.mem_of_find?_eq_some found)

omit describable in
theorem mem_of_only? {α : Type} [DecidableEq α] {members : List α} {member : α}
    (found : only? members = some member) : member ∈ members := by
  unfold only? at found
  split at found
  · cases found
  · split at found <;> cases found
    exact List.mem_cons_self

omit describable in
theorem eq_some_of_orElse {α : Type} {first second : Option α} {answer : α}
    (found : (first <|> second) = some answer) : first = some answer ∨ second = some answer := by
  cases first with
  | none => exact .inr found
  | some _ => exact .inl found

/-- A name stands for a class of the workspace. -/
theorem Describable.of_classNamed? {className name found : String}
    (named : workspace.classNamed? className name = some found) : DescribableName found.toList := by
  have ofEntry : ∀ {entry : Option ClassEntry}, (∀ found ∈ entry, DescribableName found.name.toList) →
      entry.map ClassEntry.name = some found → DescribableName found.toList := by
    intro entry describable isFound
    obtain ⟨entry, rfl, rfl⟩ := Option.map_eq_some_iff.mp isFound
    exact describable entry rfl
  unfold classNamed? at named
  dsimp only at named
  split at named
  · exact ofEntry (fun _ isEntry => describable.of_find? isEntry) named
  · rcases eq_some_of_orElse named with isNear | isOnly
    · refine ofEntry (fun entry isEntry => ?_) isNear
      rcases eq_some_of_orElse isEntry with isNear | isCore
      · exact describable.of_find? isNear
      · exact describable.of_find? isCore
    · obtain ⟨isName, _⟩ := List.mem_filter.mp (mem_of_only? isOnly)
      obtain ⟨entry, isEntry, rfl⟩ := List.mem_map.mp isName
      exact describable.of_mem isEntry

omit describable

theorem describable_of_fieldOf? {owner name : String} {field : FieldRef}
    (found : workspace.fieldOf? owner name = some field) : field.type.IsDescribable := by
  obtain ⟨entry, _, isField⟩ := List.exists_of_findSome?_eq_some found
  obtain ⟨declared, _, isRef⟩ := Option.bind_eq_some_iff.mp isField
  unfold fieldRef? at isRef
  split at isRef <;> cases isRef
  next read => exact FieldType.isDescribable_of_ofDescriptor? read

theorem over_of_mem_methodsOf {className owner name : String} {method : MethodRef}
    (isIn : method ∈ workspace.methodsOf className owner name) :
    method.signature.Over FieldType.IsDescribable := by
  obtain ⟨entry, declared, _, _, isRef⟩ := of_mem_methodsOf isIn
  obtain ⟨signature, read, rfl⟩ := methodRef?_eq_some_iff.mp isRef
  exact Signature.over_of_ofDescriptor? read

end Workspace

/-- A site is at a class of the workspace, and its host is the workspace. -/
theorem Target.site_eq {target : Target} {site : Site} (isSite : target.site = .ok site) :
    ∃ entry, target.workspace.find? target.className = some entry ∧
      site.method.className = target.className ∧
      site.host = target.workspace.host target.className := by
  unfold Target.site Target.context Target.method Target.entry at isSite
  cases found : target.workspace.find? target.className with
  | none =>
    rw [found] at isSite
    cases isSite
  | some entry =>
    rw [found] at isSite
    cases declared : entry.method? target.methodName target.descriptor with
    | none =>
      simp only [Except.bind, declared] at isSite
      cases isSite
    | some method =>
      cases read : method.signature with
      | error error =>
        simp only [Except.bind, bind, declared, read] at isSite
        cases isSite
      | ok signature =>
        simp only [Except.bind, bind, declared, read] at isSite
        cases isSite
        exact ⟨entry, rfl, rfl, rfl⟩

/-- The types that code at a method of a workspace can speak of are describable. -/
theorem Target.site_speaks {target : Target} {site : Site}
    (describable : target.workspace.Describable) (isSite : target.site = .ok site) :
    site.Speaks FieldType.IsDescribable := by
  obtain ⟨entry, found, className, host⟩ := Target.site_eq isSite
  have named : entry.name = target.className := by simpa using List.find?_some found
  refine ⟨⟨FieldType.isDescribable_of_isPrimitive, Iff.rfl, ⟨by decide, by decide⟩,
    ⟨by decide, by decide⟩, ⟨by decide, by decide⟩⟩, ?_, fun _ => ?_, ?_, ?_⟩
  · rw [host]
    exact describable.of_classNamed?
  · rw [className, ← named]
    exact describable.of_find? found
  · rw [host]
    exact Workspace.describable_of_fieldOf?
  · rw [host]
    exact fun method => Workspace.over_of_mem_methodsOf

/-! ### References -/

/-- An index is that of a method with a signature, in the way in which it is called. -/
def Pool.HasMethod (pool : Pool) (dispatch : Dispatch) (index : PoolIndex) (signature : Signature) :
    Prop :=
  ∃ owner nameAndType text,
    pool.get? index.toNat = some (if dispatch = .interface then .interfaceMethod owner nameAndType
        else .method owner nameAndType) ∧
      pool.descriptor? nameAndType = some text ∧ Signature.ofDescriptor? text = .ok signature

/-- An index is that of one method at most. -/
theorem Pool.HasMethod.unique {pool : Pool} {dispatch : Dispatch} {index : PoolIndex}
    {signature other : Signature} (here : pool.HasMethod dispatch index signature)
    (there : pool.HasMethod dispatch index other) : signature = other := by
  obtain ⟨_, nameAndType, text, found, described, read⟩ := here
  obtain ⟨_, otherName, otherText, otherFound, otherDescribed, otherRead⟩ := there
  have same : nameAndType = otherName := by
    have constants := Option.some.inj (found.symm.trans otherFound)
    split at constants <;> cases constants <;> rfl
  subst same
  obtain rfl := Option.some.inj (described.symm.trans otherDescribed)
  exact Except.ok.inj (read.symm.trans otherRead)

/-- An instruction refers to a constant of the right kind. The text that describes a field or a method
is a descriptor, of the width or with the slots that the instruction says. The slots of parameters
are counted in 16 bits. -/
def Instr.Refers (pool : Pool) : Instr → Prop
  | .ldc index => ∃ constant, pool.get? index.toNat = some constant ∧ constant.IsSingle
  | .ldc2 index => ∃ constant, pool.get? index.toNat = some constant ∧ constant.IsDouble
  | .new index | .anewArray index | .checkCast index | .instanceOf index =>
    ∃ name, pool.get? index.toNat = some (.classRef name)
  | .field _ index width => ∃ owner nameAndType text type,
    pool.get? index.toNat = some (.field owner nameAndType) ∧
      pool.descriptor? nameAndType = some text ∧ FieldType.ofDescriptor? text = .ok type ∧
      width.toNat = type.width
  | .invoke dispatch index argumentSlots resultSlots => ∃ signature,
    pool.HasMethod dispatch index signature ∧ argumentSlots.toNat = signature.slots % 65536 ∧
      resultSlots.toNat = signature.resultSlots
  | instr => instr.poolIndex? = none

/-- Over describable types the operands of an instruction refer as they should. -/
theorem Instr.Stands.refers {slots : Storage → Slot → Prop} {site : Site} {pool : Pool} {instr : Instr}
    (stands : instr.Stands FieldType.IsDescribable slots site pool) : instr.Refers pool := by
  cases instr with
  | ldc | ldc2 | new | anewArray | checkCast | instanceOf => exact stands
  | field access index width =>
    obtain ⟨field, isMember, describable, wide⟩ := stands
    obtain ⟨owner, nameAndType, found, described⟩ := isMember.described
    exact ⟨owner, nameAndType, _, field.type, found, described,
      (FieldType.ofDescriptor?_descriptor_iff _).mpr describable, wide⟩
  | invoke dispatch index argumentSlots resultSlots =>
    obtain ⟨method, _, isMember, isOver, same⟩ := stands
    obtain ⟨owner, nameAndType, found, described⟩ := isMember.described
    rw [Dispatch.constant, ite_apply, ite_apply] at found
    rw [Signature.toNat_parameterSlots] at same
    exact ⟨method.signature,
      ⟨owner, nameAndType, _, found, described, Signature.ofDescriptor?_descriptor isOver⟩, same⟩
  | _ => rfl

/-- **Exactly when a call says how many slots its parameters take**: these can be counted in 16 bits. -/
theorem Instr.Refers.argumentSlots_iff {pool : Pool} {dispatch : Dispatch} {index : PoolIndex}
    {argumentSlots resultSlots : UInt8} {signature : Signature}
    (refers : (Instr.invoke dispatch index argumentSlots resultSlots).Refers pool)
    (hasMethod : pool.HasMethod dispatch index signature) :
    argumentSlots.toNat = signature.slots ↔ signature.slots ≤ 65535 := by
  obtain ⟨other, hasOther, counted, _⟩ := refers
  obtain rfl := hasMethod.unique hasOther
  omega

/-- What is referred to has an index behind the reserved ones. -/
theorem Instr.Refers.reserved_le {pool : Pool} {instr : Instr} (refers : instr.Refers pool) :
    ∀ index ∈ instr.poolIndex?, pool.reserved ≤ index.toNat := by
  cases instr with
  | ldc index | ldc2 index =>
    rintro _ ⟨⟩
    obtain ⟨constant, found, _⟩ := refers
    exact Pool.reserved_le_of_get? found
  | new index | anewArray index | checkCast index | instanceOf index =>
    rintro _ ⟨⟩
    obtain ⟨name, found⟩ := refers
    exact Pool.reserved_le_of_get? found
  | field access index width =>
    rintro _ ⟨⟩
    obtain ⟨owner, nameAndType, text, type, found, _⟩ := refers
    exact Pool.reserved_le_of_get? found
  | invoke dispatch index argumentSlots resultSlots =>
    rintro _ ⟨⟩
    obtain ⟨signature, ⟨owner, nameAndType, text, found, _⟩, _⟩ := refers
    exact Pool.reserved_le_of_get? found
  | _ => nofun

/-! ### Sessions -/

/-- The types of recorded locals were read from descriptors. -/
theorem MethodRecord.describable_of_resolve {record : MethodRecord} {entries : List Local}
    (resolved : record.resolve = .ok entries) : ∀ entry ∈ entries, entry.type.IsDescribable := by
  unfold resolve at resolved
  generalize record.locals = records at resolved
  induction records generalizing entries with
  | nil =>
    cases resolved
    nofun
  | cons first rest ih =>
    rw [List.mapM_cons] at resolved
    simp only [bind_eq_ok, pure_eq_ok] at resolved
    obtain ⟨entry, one, others, all, rfl⟩ := resolved
    refine List.forall_mem_cons.mpr ⟨?_, ih all⟩
    unfold LocalRecord.resolve at one
    split at one <;> cases one
    next read => exact FieldType.isDescribable_of_ofDescriptor? read

namespace Session

variable {target : Target} {record : MethodRecord} {strict : Bool} {session opened later : Session}
  {source : String} {fragment : Fragment} {base : Pool}

/-- What holds of a session over a workspace between passes that succeed: its locals have describable
types, and its constants are those of the class and what was added. -/
structure Referring (base : Pool) (session : Session) : Prop extends session.Tidy where
  workspace : session.target.workspace.Describable
  known : ∀ entry ∈ session.allocator.known, entry.type.IsDescribable
  grown : ∃ body, session.body? = some body ∧ base.Grows body.pool

theorem start_referring (opens : start target record strict = .ok opened)
    (describable : target.workspace.Describable) :
    ∃ entry, target.entry = .ok entry ∧ opened.Referring (.ofReserved entry.poolCount) := by
  obtain ⟨_, hasTarget, _, made⟩ := start_sound opens
  obtain ⟨entries, resolved, seeds⟩ := MethodRecord.allocator_seeds made
  obtain ⟨site, pool, installed, _, isPool⟩ := start_installed opens
  obtain ⟨entry, isEntry, rfl⟩ := Target.entry_of_pool isPool
  refine ⟨entry, isEntry, start_tidy opens, hasTarget ▸ describable, fun known isKnown => ?_, ?_⟩
  · rcases seeds.known known isKnown with isOld | isRecorded
    · cases isOld
    · exact MethodRecord.describable_of_resolve resolved known isRecorded
  · rw [body?, installed]
    exact ⟨_, rfl, .refl _⟩

/-- A pass over a text with plain types introduces locals of describable types. -/
theorem Referring.describable_of_compile (referring : session.Referring base)
    (compiled : session.compile source = (.ok fragment, later)) :
    ∀ entry ∈ later.allocator.known, entry.type.IsDescribable := by
  obtain ⟨fresh, added, _, _, site, statements, entries, isSite, parsed, gives⟩ :=
    compile_adds referring.sound compiled
  have speaks := Target.site_speaks referring.workspace isSite
  rw [added.allocator.known]
  refine List.forall_mem_append.mpr ⟨referring.known, fun entry isNew => ?_⟩
  obtain ⟨declarator, found, resolved⟩ := gives.types entry isNew
  have isDeclared := List.mem_of_find?_eq_some found
  rw [Stmt.declaredAll_eq] at isDeclared
  obtain ⟨part, isPart, declares⟩ := List.mem_filterMap.mp isDeclared
  have isDeclaration : part = .declare declarator := by
    cases part <;> cases declares
    rfl
  exact ((Stmt.parse_plain parsed part isPart).declared declarator isDeclaration).means speaks _
    resolved

/-- **A pass that succeeds keeps what holds between passes**, and its code refers as it should. -/
theorem Referring.compile (referring : session.Referring base)
    (compiled : session.compile source = (.ok fragment, later)) :
    later.Referring base ∧ ∃ before body, session.body? = some before ∧ later.body? = some body ∧
      body.Makes fragment ∧ before.pool.Grows body.pool ∧
      ∀ instr ∈ body.instrs, instr.Refers body.pool := by
  obtain ⟨_, generation, statements, pass, generated⟩ := compile_generated referring.sound compiled
  obtain ⟨_, added, _⟩ := compile_adds referring.sound compiled
  have speaks := Target.site_speaks referring.workspace generated.isSite
  have known := referring.describable_of_compile compiled
  have mentions : Pass.Mentions FieldType.IsDescribable (fun _ _ => True) generation.site.host
      later.allocator (Stmt.partsAll statements) := by
    refine ⟨fun part isPart expression isIn type isType => ?_, fun name entry found type read => ?_⟩
    · exact ((Stmt.parse_plain generated.parsed part isPart).expressions expression isIn type
        isType).means speaks
    · have describable := known entry (List.mem_of_find?_eq_some found)
      exact ⟨FieldType.ofSourceName?_sourceName_describable describable read, trivial⟩
  obtain ⟨stands, advances⟩ := generated.stands referring.toTidy speaks mentions
    fun name entry found => referring.known entry (List.mem_of_find?_eq_some found)
  have isBefore : session.body? = some generation.generator.body := by
    rw [Session.body?, generated.installed]
    rfl
  obtain ⟨body, isBody, grown⟩ := referring.grown
  cases isBefore.symm.trans isBody
  exact ⟨⟨referring.toTidy.compile compiled, added.target ▸ referring.workspace, known,
      _, generated.body?, grown.trans advances.pool⟩,
    _, _, isBefore, generated.body?, generated.makes, advances.pool,
    fun instr isIn => (stands.code.instrs instr isIn).refers⟩

/-- The constants of a session stay where they are. -/
theorem Referring.after (referring : session.Referring base) (sources : List String)
    (alive : (session.after sources).failed = false) :
    (session.after sources).Referring base :=
  after_of_step (fun referring compiled => (Referring.compile referring compiled).1) referring sources
    alive

/-- **Every reference of a fragment is to a constant of the right kind.** The constant is behind those
of the class, and in every later fragment of the session it has the same index. A call says how many
slots the parameters of its method take exactly if they are at most 65535. -/
theorem compile_references (opens : start target record strict = .ok opened)
    (describable : target.workspace.Describable) (sources : List String)
    (compiled : (opened.after sources).compile source = (.ok fragment, later)) :
    ∃ entry body, target.entry = .ok entry ∧ later.body? = some body ∧ body.Makes fragment ∧
      (∀ instr ∈ body.instrs, instr.Refers fragment.pool ∧
        ∀ index ∈ instr.poolIndex?, max entry.poolCount.toNat 1 ≤ index.toNat) ∧
      (∀ dispatch index argumentSlots resultSlots signature,
        .invoke dispatch index argumentSlots resultSlots ∈ body.instrs →
          fragment.pool.HasMethod dispatch index signature →
            (argumentSlots.toNat = signature.slots ↔ signature.slots ≤ 65535)) ∧
      ∀ (more : List String) (next : String) (other : Fragment) (last : Session),
        (later.after more).compile next = (.ok other, last) →
          ∀ index constant, fragment.pool.get? index = some constant →
            other.pool.get? index = some constant := by
  obtain ⟨entry, isEntry, begins⟩ := start_referring opens describable
  obtain ⟨_, _, sound⟩ := start_adds opens sources
  have alive := (compile_generated sound compiled).1
  obtain ⟨referring, _, body, _, isBody, makes, _, refers⟩ :=
    (begins.after sources alive).compile compiled
  obtain ⟨_, found, grown⟩ := referring.grown
  cases isBody.symm.trans found
  rw [← makes.pool] at refers
  refine ⟨entry, body, isEntry, isBody, makes, fun instr isIn => ?_,
    fun _ _ _ _ _ isIn => (refers _ isIn).argumentSlots_iff, ?_⟩
  · rw [makes.pool] at refers ⊢
    refine ⟨refers instr isIn, fun index isIndex => ?_⟩
    have behind := (refers instr isIn).reserved_le index isIndex
    rwa [grown.reserved] at behind
  · intro more next other last compiledLater index constant isConstant
    -- Behind the fragment the session goes on from the constants of the fragment.
    have goesOn : later.Referring body.pool := { referring with grown := ⟨body, isBody, .refl _⟩ }
    obtain ⟨_, _, soundLater⟩ := after_adds goesOn.sound more
    have aliveLater := (compile_generated soundLater compiledLater).1
    obtain ⟨behind, _, there, _, isThere, makesThere, _⟩ :=
      (goesOn.after more aliveLater).compile compiledLater
    obtain ⟨_, found, grown⟩ := behind.grown
    cases isThere.symm.trans found
    rw [makes.pool] at isConstant
    rw [makesThere.pool]
    exact grown.get? isConstant

theorem counterTarget_describable : counterTarget.workspace.Describable :=
  List.forall_mem_singleton.mpr ⟨by decide, by decide⟩

/-- Building a string refers to a class, to the string in front and to four methods. -/
theorem compile_references_builder : ∃ opened fragment later body,
    start counterTarget counterRecord true = .ok opened ∧
      (opened.after ["long x = 5000000000L;"]).compile "boolean b = (\"x = \" + x) == null;" =
        (.ok fragment, later) ∧
      later.body? = some body ∧
      body.instrs.filterMap Instr.poolIndex? = [4, 8, 10, 14, 17, 21] ∧
      ∀ instr ∈ body.instrs, instr.Refers fragment.pool := by
  have opening : ∃ opened, start counterTarget counterRecord true = .ok opened ∧
      (opened.after ["long x = 5000000000L;"]).compilesTo "boolean b = (\"x = \" + x) == null;"
        (fun _ body => decide
          (body.instrs.filterMap Instr.poolIndex? = [4, 8, 10, 14, 17, 21])) = true :=
    opens_of_any (by decide +kernel)
  obtain ⟨opened, opens, passes⟩ := opening
  obtain ⟨fragment, later, body, compiled, isBody, indices⟩ := exists_of_compilesTo passes
  obtain ⟨entry, other, _, isOther, _, refers, _⟩ :=
    compile_references opens counterTarget_describable ["long x = 5000000000L;"] compiled
  cases isBody.symm.trans isOther
  exact ⟨opened, fragment, later, body, opens, compiled, isBody, of_decide_eq_true indices,
    fun instr isIn => (refers instr isIn).1⟩

/-- The text of a creation from zeros is compiled to its code, where that is short enough and the pool
has room for what it refers to. -/
theorem compile_creation {generation : Generation} (className owner : String) (count : Nat)
    (sound : session.Sound) (alive : session.failed = false)
    (installed : session.hook.installed = some ⟨session.target, generation⟩)
    (isName : BaseType.isPrintable (.named className) = true)
    (isClass : ∀ typePlace position,
      generation.site.instantiated ⟨.named className, 0, typePlace⟩ position = .ok owner)
    (offered : generation.site.host.methods owner constructorName = [])
    (ownerShort : Pool.excessLength? (.utf8 owner) = none)
    (few : count + 3 ≤ Pool.maxTextLength) (short : count + 8 ≤ maxCodeSize)
    (counted : (ofLongs owner count).signature.parameterSlots ≤ 255)
    (room : generation.generator.body.pool.next + 8 ≤ Pool.maxCount) :
    ∃ fragment later body object index,
      session.compile (creation className count).print = (.ok fragment, later) ∧
        later.body? = some body ∧ body.Makes fragment ∧
        body.instrs = creationCode object index
          (ofLongs owner count).signature.parameterSlots.toUInt8 count ∧
        body.pool.HasMethod .special index (ofLongs owner count).signature := by
  obtain ⟨created, place, parsed, lowers⟩ := Stmt.lower_creation generation.site className owner count
    isName isClass offered ownerShort few counted
  let before : Pass := generation.opening (.root session.roots) session.allocator #[]
  obtain ⟨object, index, after, yields, instrs, isMember⟩ := lowers before.scope
    (before.generation.generator.reserveLocals session.allocator.count) room
  have noInstrs : (before.generation.generator.reserveLocals session.allocator.count).instrs = [] :=
    rfl
  rw [noInstrs, List.nil_append] at instrs
  have isShort : after.body.codeSize ≤ maxCodeSize := by
    have size : after.body.codeSize = total Instr.size after.instrs := (total_map ..).symm
    rw [size, instrs, size_creationCode]
    exact short
  have isPlain : ∀ instr ∈ after.instrs, instr.target? = none := by
    rw [instrs]
    exact fun instr isIn => (goesOn_creationCode instr isIn).2
  obtain ⟨bytes, encoded⟩ := Body.encode_of_plain isShort isPlain
  obtain ⟨fragment, later, compiled, isBody, makes⟩ :=
    compile_of_yields sound alive installed parsed rfl yields encoded
  obtain ⟨_, nameAndType, found, described⟩ := isMember.described
  exact ⟨fragment, later, after.body, object, index, compiled, isBody, makes, instrs,
    _, nameAndType, _, found, described,
    Signature.ofDescriptor?_descriptor (Signature.over_replicate .long trivial count)⟩

/-- **A call that says too few slots.** The parameters of the constructor take 65536 slots, and its call
says that they take none. -/
theorem miscounted_reference : ∃ opened fragment later body index signature,
    start counterTarget counterRecord true = .ok opened ∧ counterTarget.workspace.Describable ∧
      opened.compile (creation "Counter" 32768).print = (.ok fragment, later) ∧
      later.body? = some body ∧ body.Makes fragment ∧
      .invoke .special index 0 0 ∈ body.instrs ∧
      fragment.pool.HasMethod .special index signature ∧ signature.slots = 65536 := by
  have counted : (ofLongs "Counter" 32768).signature.parameterSlots = 0 := by
    rw [← UInt16.toNat_inj, Signature.toNat_parameterSlots, slots_ofLongs]
    rfl
  have opening : ∃ opened, start counterTarget counterRecord true = .ok opened ∧
      opened.failed = false := opens_of_decide (by decide +kernel)
  obtain ⟨opened, opens, alive⟩ := opening
  obtain ⟨sound, hasTarget, _⟩ := start_sound opens
  obtain ⟨site, pool, installed, isSite, isPool⟩ := start_installed opens
  obtain rfl : Pool.ofReserved 1 = pool := Except.ok.inj isPool
  obtain ⟨_, _, _, host⟩ := Target.site_eq isSite
  have isClass : ∀ typePlace position,
      site.instantiated ⟨.named "Counter", 0, typePlace⟩ position = .ok "Counter" := by
    intro typePlace position
    rw [Site.instantiated, host]
    rfl
  have offered : site.host.methods "Counter" constructorName = [] := by
    rw [host]
    decide +kernel
  rw [← hasTarget] at installed
  obtain ⟨fragment, later, body, object, index, compiled, isBody, makes, instrs, hasMethod⟩ :=
    compile_creation "Counter" "Counter" 32768 sound alive installed (by decide) isClass offered
      (by decide) (by decide) (by decide) (by rw [counted]; decide)
      (show (Pool.ofReserved 1).next + 8 ≤ Pool.maxCount by decide)
  rw [counted] at instrs
  have calls : .invoke .special index 0 0 ∈ body.instrs :=
    instrs ▸ constructor_mem_creationCode object index 0 32768
  exact ⟨opened, fragment, later, body, index, _, opens, counterTarget_describable, compiled, isBody,
    makes, calls, makes.pool ▸ hasMethod, slots_ofLongs "Counter" 32768⟩

end Session

end MethodPatch
