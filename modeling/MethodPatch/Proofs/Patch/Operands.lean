/-
**The locals that fragments access.**

The locals of a fragment are recorded ones, `this`, and variables that were placed. A record and the
allocator count the first two kinds, and the code of a declaration reserves the slots of the third;
the fragment asks for as many slots as any of them.

* `Pass.Runs.stands`: what one statement keeps, and from it what all of them keep;
* `Session.after_of_step`: what passes that succeed keep;
* `Session.Generated.maxLocals_eq`: a fragment asks for the slots of the known locals;
* `Session.compile_locals`: **every local of a fragment is among the slots that it asks for**, as
  long as the slots of `this` and of the parameters can be counted in 16 bits;
* `Session.this_beyond_locals`: where they cannot, a fragment loads `this` and asks for no slot.
-/

import MethodPatch.Proofs.Composition.Operands
import MethodPatch.Proofs.Encoding.Body
import MethodPatch.Proofs.Patch.Generated
import MethodPatch.Proofs.Patch.Slots
import MethodPatch.Proofs.Types.Descriptor

namespace MethodPatch

/-- The locals that an instruction accesses are among a number of slots. -/
def Instr.InLocals (limit : Nat) : Instr → Prop
  | .load storage slot | .store storage slot => slot.toNat + storage.width ≤ limit
  | .iinc slot _ => slot.toNat < limit
  | _ => True

/-- The locals of an instruction are in use, unless it loads the object of the method. -/
theorem Instr.Stands.inLocals {types : FieldType → Prop} {limit more : Nat} {site : Site} {pool : Pool}
    {instr : Instr} (stands : instr.Stands types (Below limit) site pool) (wider : limit ≤ more) :
    instr.InLocals more ∨ site.method.isStatic = false ∧ instr = .load .ref 0 := by
  cases instr with
  | load storage slot =>
    rcases stands with within | ⟨isInstance, rfl, rfl⟩
    · exact .inl (Nat.le_trans within wider)
    · exact .inr ⟨isInstance, rfl⟩
  | store storage slot => exact .inl (Nat.le_trans stands wider)
  | iinc slot delta => exact .inl (Nat.le_trans stands wider)
  | _ => exact .inl trivial

/-- Where only a load of the object of the method can be outside of the locals, all instructions are
within them if there are locals or if it is not loaded. -/
theorem Instr.inLocals_iff {instrs : List Instr} {limit : Nat}
    (accesses : ∀ instr ∈ instrs, instr.InLocals limit ∨ instr = .load .ref 0) :
    (∀ instr ∈ instrs, instr.InLocals limit) ↔ (limit = 0 → .load .ref 0 ∉ instrs) := by
  constructor
  · rintro within rfl loads
    exact Nat.not_succ_le_zero 0 (within _ loads)
  · intro unloaded instr isIn
    rcases accesses instr isIn with within | rfl
    · exact within
    · exact Nat.pos_of_ne_zero fun isEmpty => unloaded isEmpty isIn

/-! ### Statements in order -/

variable {types : FieldType → Prop} {declares : Slot → FieldType → Prop} {final : Allocator}

namespace Pass

variable {pass later : Pass} {statements : List Stmt}

/-- What is known between the statements of a pass: the variables of the scope and the operands of
the code so far have slots in use. -/
structure Stands (types : FieldType → Prop) (pass : Pass) : Prop where
  covers : Covers types (Below pass.generation.generator.maxLocals.toNat) pass.generation.site
    pass.scope
  code : pass.generation.generator.Stands types (Below pass.generation.generator.maxLocals.toNat)
    pass.generation.site

/-- What statements in order have done to the generator: constants were added, and more slots may be
in use, but only as many as locals and declared variables need. -/
structure Advances (declares : Slot → FieldType → Prop) (final : Allocator) (pass later : Pass) :
    Prop where
  pool : pass.generation.generator.body.pool.Grows later.generation.generator.body.pool
  atLeast : pass.generation.generator.maxLocals ≤ later.generation.generator.maxLocals
  atMost : ∀ {limit : Nat}, final.next ≤ limit →
    (∀ slot type, declares slot type → slot.toNat + type.width ≤ limit) →
      later.generation.generator.maxLocals.toNat ≤
        max pass.generation.generator.maxLocals.toNat limit

/-- What statements mention is from a vocabulary, as are the variables that they declare. -/
structure Mentions (types : FieldType → Prop) (declares : Slot → FieldType → Prop) (host : Host)
    (final : Allocator) (parts : List Part) : Prop where
  means : ∀ part ∈ parts, ∀ expression ∈ part.expressions, expression.Means types host
  suits : ∀ name entry, final.find? name = some entry →
    ∀ type, FieldType.ofSourceName? entry.type.sourceName = some type →
      types type ∧ declares entry.slot type

/-- A statement that succeeds keeps what is known between statements. -/
theorem Emits.stands {statement : Stmt} (speaks : pass.generation.site.Speaks types)
    (mentions : Mentions types declares pass.generation.site.host final statement.parts)
    (emits : pass.Emits final statement later) (leads : later.allocator.Leads final)
    (fits : final.Fits) (stands : pass.Stands types) :
    later.Stands types ∧ pass.Advances declares final later := by
  obtain ⟨exits, yields⟩ := emits.yields
  have fine := Allocator.fine_settle mentions.means
    (fun declarator isDeclared =>
      (emits.knows declarator isDeclared).imp fun entry => leads.find?) mentions.suits
  have reserved : pass.generation.generator.maxLocals.toNat ≤
      (pass.generation.generator.reserveLocals later.allocator.count).maxLocals.toNat := by
    rw [Generator.reserveLocals, UInt16.toNat_max]
    exact Nat.le_max_left ..
  have wider : ∀ storage slot, Below pass.generation.generator.maxLocals.toNat storage slot →
      Below (pass.generation.generator.reserveLocals later.allocator.count).maxLocals.toNat storage
        slot :=
    fun storage slot below => Nat.le_trans below reserved
  obtain ⟨covers, advances, code⟩ := (Stmt.composed speaks _ fine (clear_none _)).stands yields
    (stands.covers.mono wider)
  have codeBehind := code ⟨stands.code.fits, fun instr isIn =>
    (stands.code.instrs instr isIn).mono wider (.refl _)⟩
  rw [← emits.site] at covers codeBehind
  refine ⟨⟨covers, codeBehind⟩, advances.pool, ?_, ?_⟩
  · exact UInt16.le_trans (UInt16.le_iff_toNat_le.mpr reserved) advances.atLeast
  · intro limit few bounded
    have most := advances.atMost bounded
    have reached := UInt16.le_iff_toNat_le.mp (leads.count_le fits)
    rw [fits.toNat_count] at reached
    simp only [Generator.reserveLocals, UInt16.toNat_max] at most
    omega

theorem Advances.refl (pass : Pass) : pass.Advances declares final pass :=
  ⟨.refl _, UInt16.le_refl _, fun _ _ => Nat.le_max_left ..⟩

theorem Advances.trans {middle : Pass} (here : pass.Advances declares final middle)
    (behind : middle.Advances declares final later) : pass.Advances declares final later where
  pool := here.pool.trans behind.pool
  atLeast := UInt16.le_trans here.atLeast behind.atLeast
  atMost few bounded := by
    have := here.atMost few bounded
    have := behind.atMost few bounded
    omega

/-- **Statements in order keep what is known between them.** -/
theorem Runs.stands (speaks : pass.generation.site.Speaks types)
    (mentions : Mentions types declares pass.generation.site.host final (Stmt.partsAll statements))
    (runs : Runs final pass statements later) (leads : later.allocator.Leads final)
    (fits : final.Fits) (stands : pass.Stands types) :
    later.Stands types ∧ pass.Advances declares final later := by
  induction runs with
  | nil => exact ⟨stands, .refl _⟩
  | cons emits goesOn ih =>
    obtain ⟨here, behind⟩ := List.forall_mem_append.mp mentions.means
    obtain ⟨standsHere, first⟩ :=
      emits.stands speaks ⟨here, mentions.suits⟩ (goesOn.leads.trans leads) fits stands
    rw [← emits.site] at speaks mentions behind
    obtain ⟨standsBehind, rest⟩ := ih speaks ⟨behind, mentions.suits⟩ leads standsHere
    exact ⟨standsBehind, first.trans rest⟩

end Pass

/-! ### Sessions -/

/-- The type can be read back from its descriptor and from its name in source text. -/
structure FieldType.Legible (type : FieldType) : Prop where
  descriptor : FieldType.ofDescriptor? type.descriptor = .ok type
  sourceName : FieldType.ofSourceName? type.sourceName = some type

/-- All slots of `this` and of the parameters of the method are in front of a slot. -/
def Target.Reached (target : Target) (next : Nat) : Prop :=
  ∀ site, target.site = .ok site → site.method.firstFreeSlot.toNat ≤ next

/-- The constants of a class begin behind those that it has already. -/
theorem Target.entry_of_pool {target : Target} {pool : Pool} (isPool : target.pool = .ok pool) :
    ∃ entry, target.entry = .ok entry ∧ pool = .ofReserved entry.poolCount := by
  unfold Target.pool at isPool
  cases found : target.entry with
  | error error =>
    rw [found] at isPool
    cases isPool
  | ok entry =>
    rw [found] at isPool
    cases isPool
    exact ⟨entry, rfl, rfl⟩

namespace Session

variable {target : Target} {record : MethodRecord} {strict : Bool} {session opened later : Session}
  {source : String} {fragment : Fragment} {generation : Generation} {statements : List Stmt}
  {pass : Pass}

/-- What every successful pass keeps holds behind passes of which none has failed. -/
theorem after_of_step {holds : Session → Prop}
    (step : ∀ {session later : Session} {source : String} {fragment : Fragment}, holds session →
      session.compile source = (.ok fragment, later) → holds later)
    (begins : holds opened) (sources : List String) (alive : (opened.after sources).failed = false) :
    holds (opened.after sources) := by
  induction sources generalizing opened with
  | nil => exact begins
  | cons source rest ih =>
    rcases ran : opened.compile source with ⟨_ | fragment, later⟩ <;> rw [after_cons ran] at alive ⊢
    · have failed : later.failed = true := by
        rw [compile_error ran]
      rw [(after_of_failed failed rest).1, failed] at alive
      cases alive
    · exact ih (step begins ran) alive

/-- What holds of a session between passes that succeed: its locals are below the first free slot,
and its constants fit into a class file. -/
structure Tidy (session : Session) : Prop where
  sound : session.Sound
  bounded : session.allocator.Bounded
  fits : ∀ {generation : Generation},
    session.hook.installed = some ⟨session.target, generation⟩ → generation.generator.body.pool.Fits

theorem start_tidy (opens : start target record strict = .ok opened) : opened.Tidy := by
  obtain ⟨sound, hasTarget, _, made⟩ := start_sound opens
  obtain ⟨_, _, seeds⟩ := MethodRecord.allocator_seeds made
  obtain ⟨site, pool, installed, _, isPool⟩ := start_installed opens
  refine ⟨sound, seeds.bounded (by rintro _ ⟨⟩), fun {generation} isInstalled => ?_⟩
  rw [installed] at isInstalled
  cases isInstalled
  obtain ⟨entry, _, rfl⟩ := Target.entry_of_pool isPool
  exact Pool.fits_ofReserved _

/-- In front of the first statement no code is there, and the variables of the session are in use. -/
theorem Tidy.opening (tidy : session.Tidy)
    (installed : session.hook.installed = some ⟨session.target, generation⟩)
    (suits : ∀ name entry, session.allocator.find? name = some entry → types entry.type)
    (declared : Array Declaration) :
    (generation.opening (.root session.roots) session.allocator declared).Stands types where
  covers := by
    refine ⟨fun {name slot type} bound => ?_⟩
    dsimp only [Generation.opening] at bound
    rw [Scope.binding?_declareAll, Scope.binding?_root] at bound
    obtain ⟨symbol, found, binds⟩ := Option.bind_eq_some_iff.mp bound
    obtain ⟨entry, known, same⟩ := tidy.sound.known symbol (List.mem_of_find?_eq_some found)
    rw [binds] at same
    cases same
    have reserved : session.allocator.next ≤ (generation.opening (.root session.roots)
        session.allocator declared).generation.generator.maxLocals.toNat := by
      rw [Generation.maxLocals_opening, UInt16.toNat_max, tidy.sound.fits.toNat_count]
      exact Nat.le_max_right ..
    exact ⟨suits _ entry known,
      Nat.le_trans (tidy.bounded entry (List.mem_of_find?_eq_some known)) reserved⟩
  code := ⟨show generation.generator.body.pool.Fits from tidy.fits installed, nofun⟩

/-- What a pass that succeeds has generated stands for what it should. -/
theorem Generated.stands (tidy : session.Tidy)
    (generated : session.Generated source fragment later generation statements pass)
    (speaks : generation.site.Speaks types)
    (mentions : Pass.Mentions types declares generation.site.host later.allocator
      (Stmt.partsAll statements))
    (suits : ∀ name entry, session.allocator.find? name = some entry → types entry.type) :
    pass.Stands types ∧
      (generation.opening (.root session.roots) session.allocator (Stmt.parse source).2).Advances
        declares later.allocator pass :=
  (generated.runs (.refl _)).stands speaks mentions (generated.allocator ▸ .refl _)
    (generated.fits tidy.sound) (tidy.opening generated.installed suits _)

/-- Of any types a pass stands for what it should. -/
theorem Generated.stands_all (tidy : session.Tidy)
    (generated : session.Generated source fragment later generation statements pass) :
    pass.Stands (fun _ => True) ∧
      (generation.opening (.root session.roots) session.allocator (Stmt.parse source).2).Advances
        (fun _ _ => True) later.allocator pass :=
  generated.stands tidy generation.site.speaks_all
    ⟨fun _ _ _ _ _ _ _ _ => trivial, fun _ _ _ _ _ => ⟨trivial, trivial⟩⟩ fun _ _ _ => trivial

theorem Tidy.compile (tidy : session.Tidy) (compiled : session.compile source = (.ok fragment, later)) :
    later.Tidy := by
  obtain ⟨_, generation, statements, pass, generated⟩ := compile_generated tidy.sound compiled
  obtain ⟨fresh, added, sound, _⟩ := compile_adds tidy.sound compiled
  obtain ⟨stands, _⟩ := generated.stands_all tidy
  refine ⟨sound, added.allocator.bounded tidy.bounded, fun {following} installed => ?_⟩
  rw [generated.hook, added.target] at installed
  cases installed
  rw [Generation.generator_finish]
  exact stands.code.fits

/-- The types of all known locals can be read back. -/
def Legible (session : Session) : Prop := ∀ entry ∈ session.allocator.known, entry.type.Legible

/-- **A fragment asks for the slots of the known locals**, if their types can be read back and the
parameters have their slots in front of those. -/
theorem Generated.maxLocals_eq (tidy : session.Tidy)
    (reached : session.target.Reached session.allocator.next)
    (compiled : session.compile source = (.ok fragment, later))
    (generated : session.Generated source fragment later generation statements pass)
    (legible : later.Legible) : fragment.maxLocals.toNat = later.allocator.next := by
  obtain ⟨_, added, _⟩ := compile_adds tidy.sound compiled
  have bounded := (tidy.compile compiled).bounded
  have mentions : Pass.Mentions (fun _ => True)
      (fun slot type => slot.toNat + type.width ≤ later.allocator.next) generation.site.host
      later.allocator (Stmt.partsAll statements) := by
    refine ⟨fun _ _ _ _ _ _ _ _ => trivial, fun name entry found type isType => ?_⟩
    have isKnown := List.mem_of_find?_eq_some found
    rw [(legible entry isKnown).sourceName] at isType
    cases isType
    exact ⟨trivial, bounded entry isKnown⟩
  obtain ⟨_, advances⟩ :=
    generated.stands tidy generation.site.speaks_all mentions fun _ _ _ => trivial
  have most := advances.atMost (Nat.le_refl _) fun _ _ declared => declared
  have parameters := reached generation.site generated.isSite
  have behind := added.allocator.le_next
  rw [Generation.maxLocals_opening, UInt16.toNat_max, tidy.sound.fits.toNat_count] at most
  rw [generated.maxLocals, UInt16.toNat_max, ← generated.allocator,
    (generated.fits tidy.sound).toNat_count]
  omega

/-- **Which locals of a fragment are among the slots that it asks for.** All of them are, but that a
fragment may load the object of its method and ask for no slot at all, which needs a method whose
own slots are too many for 16 bits. The fragment also asks for the slots that the record counts, for
those of `this` and of the parameters as far as they are counted, and for those of all locals that
the session knows. -/
theorem compile_locals (opens : start target record strict = .ok opened) (sources : List String)
    (compiled : (opened.after sources).compile source = (.ok fragment, later)) :
    ∃ site body, target.site = .ok site ∧ later.body? = some body ∧ body.Makes fragment ∧
      ((∀ instr ∈ body.instrs, instr.InLocals fragment.maxLocals.toNat) ↔
        (fragment.maxLocals = 0 → .load .ref 0 ∉ body.instrs)) ∧
      (∀ instr ∈ body.instrs, instr ≠ .load .ref 0 → instr.InLocals fragment.maxLocals.toNat) ∧
      (site.method.slots ≤ 65535 → ∀ instr ∈ body.instrs, instr.InLocals fragment.maxLocals.toNat) ∧
      record.maxLocals ≤ fragment.maxLocals ∧ site.method.firstFreeSlot ≤ fragment.maxLocals ∧
      (opened.after sources).allocator.next ≤ later.allocator.next ∧
      later.allocator.next ≤ fragment.maxLocals.toNat := by
  obtain ⟨_, hasTarget, _, made⟩ := start_sound opens
  obtain ⟨_, _, seeds⟩ := MethodRecord.allocator_seeds made
  obtain ⟨_, addedBefore, sound⟩ := start_adds opens sources
  have alive := (compile_generated sound compiled).1
  have tidy := after_of_step (fun tidy compiled => Tidy.compile tidy compiled) (start_tidy opens)
    sources alive
  obtain ⟨_, generation, statements, pass, generated⟩ := compile_generated tidy.sound compiled
  obtain ⟨fresh, added, _⟩ := compile_adds tidy.sound compiled
  obtain ⟨stands, advances⟩ := generated.stands_all tidy
  have atSite : pass.generation.site = generation.site := (generated.runs (.refl _)).site
  have isSite := generated.isSite
  rw [addedBefore.target, hasTarget] at isSite
  have limit : fragment.maxLocals.toNat =
      max later.allocator.next pass.generation.generator.maxLocals.toNat := by
    rw [generated.maxLocals, UInt16.toNat_max, ← generated.allocator,
      (generated.fits tidy.sound).toNat_count]
  have reached : record.maxLocals.toNat ≤ later.allocator.next :=
    Nat.le_trans ((seeds.le_next_iff _).mpr (.inl (Nat.le_refl _)))
      (Nat.le_trans addedBefore.allocator.le_next added.allocator.le_next)
  have opening : generation.site.method.firstFreeSlot.toNat ≤
      pass.generation.generator.maxLocals.toNat := by
    refine Nat.le_trans ?_ (UInt16.le_iff_toNat_le.mp advances.atLeast)
    rw [Generation.maxLocals_opening, UInt16.toNat_max]
    exact Nat.le_max_left ..
  have parameters : generation.site.method.firstFreeSlot.toNat ≤ fragment.maxLocals.toNat :=
    Nat.le_trans opening (limit ▸ Nat.le_max_right ..)
  have accesses : ∀ instr ∈ pass.generation.generator.body.instrs,
      instr.InLocals fragment.maxLocals.toNat ∨
        generation.site.method.isStatic = false ∧ instr = .load .ref 0 := fun instr isIn =>
    atSite ▸ (stands.code.instrs instr isIn).inLocals (limit ▸ Nat.le_max_right ..)
  have within_iff := Instr.inLocals_iff fun instr isIn => (accesses instr isIn).imp_right And.right
  have isEmpty_iff : fragment.maxLocals.toNat = 0 ↔ fragment.maxLocals = 0 := by
    rw [← UInt16.toNat_inj]
    rfl
  rw [isEmpty_iff] at within_iff
  refine ⟨generation.site, _, isSite, generated.body?, generated.makes, within_iff,
    fun instr isIn other => (accesses instr isIn).resolve_right fun this => other this.2,
    fun few instr isIn => (accesses instr isIn).elim id fun ⟨isInstance, isThis⟩ => ?_, ?_, ?_,
    added.allocator.le_next, ?_⟩
  · -- The slot of the object is counted when there are few.
    rw [MethodContext.toNat_firstFreeSlot, Nat.mod_eq_of_lt (Nat.lt_succ_of_le few),
      MethodContext.slots, isInstance] at parameters
    exact isThis ▸ Nat.le_trans (Nat.le_add_left ..) parameters
  · exact UInt16.le_iff_toNat_le.mpr (Nat.le_trans reached (limit ▸ Nat.le_max_left ..))
  · exact UInt16.le_iff_toNat_le.mpr parameters
  · exact limit ▸ Nat.le_max_left ..

/-- A `long` behind a parameter and an `int` needs four slots in all. -/
theorem compile_locals_long : ∃ opened fragment later body,
    start counterTarget counterRecord true = .ok opened ∧
      (opened.after ["int x = count;"]).compile "long y = x; x++; y = y * x;" =
        (.ok fragment, later) ∧
      later.body? = some body ∧ .store .long 2 ∈ body.instrs ∧ fragment.maxLocals = 4 ∧
      ∀ instr ∈ body.instrs, instr.InLocals 4 := by
  have opening : ∃ opened, start counterTarget counterRecord true = .ok opened ∧
      (opened.after ["int x = count;"]).compilesTo "long y = x; x++; y = y * x;"
        (fun fragment body =>
          decide (.store .long 2 ∈ body.instrs ∧ fragment.maxLocals = 4)) = true :=
    opens_of_any (by decide +kernel)
  obtain ⟨opened, opens, passes⟩ := opening
  obtain ⟨fragment, later, body, compiled, isBody, holds⟩ := exists_of_compilesTo passes
  obtain ⟨stores, isFour⟩ := of_decide_eq_true holds
  obtain ⟨site, other, _, isOther, _, exactly, _⟩ :=
    compile_locals opens ["int x = count;"] compiled
  cases isBody.symm.trans isOther
  have inLocals := exactly.mpr fun isEmpty => by simp [isFour] at isEmpty
  rw [isFour] at inLocals
  exact ⟨opened, fragment, later, body, opens, compiled, isBody, stores, isFour, inLocals⟩

/-- A class with an instance method that has some parameters, and with one that has none. -/
def crowdClass (signature : Signature) : ClassEntry :=
  ⟨"Crowd", some "java/lang/Object", [], false, [],
    [⟨"run", signature.descriptor, false, false, none, []⟩,
      ⟨"tick", "()V", false, false, none, []⟩], 1⟩

/-- The method with the parameters. -/
def crowdTarget (signature : Signature) : Target :=
  ⟨⟨⟨"app", [crowdClass signature]⟩, []⟩, 0, "Crowd", "run", signature.descriptor⟩

/-- The method and what its code can refer to. -/
def crowdSite (signature : Signature) : Site :=
  ⟨⟨"Crowd", "run", signature, false⟩, (crowdTarget signature).workspace.host "Crowd"⟩

/-- A session for the method, on a record that counts no slot. -/
def crowded (signature : Signature) : Session where
  target := crowdTarget signature
  strict := true
  seed := ⟨0, []⟩
  committed := ⟨0, []⟩
  allocator := .startingAt 0
  roots := []
  hook := .replace (crowdTarget signature) (.ofSite (crowdSite signature) (.ofReserved 1))
  failed := false
  passes := 0

theorem crowdTarget_entry (signature : Signature) :
    (crowdTarget signature).entry = .ok (crowdClass signature) := rfl

theorem crowdTarget_method (signature : Signature) : (crowdTarget signature).method =
    .ok ⟨"run", signature.descriptor, false, false, none, []⟩ := by
  rw [Target.method, crowdTarget_entry]
  simp [Except.bind, ClassEntry.method?, crowdClass, crowdTarget]

theorem crowdTarget_site {signature : Signature} (isOver : signature.Over FieldType.IsDescribable) :
    (crowdTarget signature).site = .ok (crowdSite signature) := by
  have isContext : (crowdTarget signature).context = .ok (crowdSite signature).method := by
    unfold Target.context MethodEntry.signature
    rw [crowdTarget_method]
    show (Except.mapError _ (Signature.ofDescriptor? signature.descriptor)).bind _ = _
    rw [Signature.ofDescriptor?_descriptor isOver]
    rfl
  rw [Target.site, isContext]
  rfl

theorem start_crowded {signature : Signature} (isOver : signature.Over FieldType.IsDescribable) :
    start (crowdTarget signature) ⟨0, []⟩ true = .ok (crowded signature) := by
  have installed : Hook.empty.install (crowdTarget signature) = .ok (crowded signature).hook := by
    show (Hook.generationFor (crowdTarget signature)).map (Hook.replace (crowdTarget signature)) = _
    rw [Hook.generationFor, crowdTarget_site isOver]
    rfl
  have isEmpty : MethodRecord.roots ⟨0, []⟩ = .ok [] := by
    show Except.ok ((Allocator.startingAt 0).bySlot.map Local.symbol) = _
    simp [Allocator.bySlot, Allocator.startingAt]
  rw [start, installed, isEmpty]
  rfl

/-- Parameters that take an odd number of slots: an `int` and some `long` numbers. -/
def oddParameters (count : Nat) : Signature := ⟨.int :: List.replicate count .long, none⟩

theorem oddParameters_over (count : Nat) : (oddParameters count).Over FieldType.IsDescribable :=
  ⟨List.forall_mem_cons.mpr ⟨trivial, (Signature.over_replicate .long trivial count).parameters⟩,
    nofun⟩

theorem crowdSite_slots (count : Nat) :
    (crowdSite (oddParameters count)).method.slots = 1 + count * 2 + 1 := by
  show FieldType.width .int + total FieldType.width (List.replicate count .long) + 1 = _
  rw [total_replicate]
  rfl

/-- A fragment that asks for no slot loads the object of its method. -/
theorem this_beyond_locals : ∃ fragment later body,
    start (crowdTarget (oddParameters 32767)) ⟨0, []⟩ true = .ok (crowded (oddParameters 32767)) ∧
      (crowded (oddParameters 32767)).compile "tick();" = (.ok fragment, later) ∧
      later.body? = some body ∧ .load .ref 0 ∈ body.instrs ∧ fragment.maxLocals = 0 ∧
      ¬(Instr.load .ref 0).InLocals fragment.maxLocals.toNat := by
  have isOver := oddParameters_over 32767
  have opens := start_crowded isOver
  have passes : (crowded (oddParameters 32767)).compilesTo "tick();" (fun fragment body =>
      decide (.load .ref 0 ∈ body.instrs ∧ fragment.introduced = [])) = true := by
    decide +kernel
  obtain ⟨fragment, later, body, compiled, isBody, holds⟩ := exists_of_compilesTo passes
  obtain ⟨loads, nothing⟩ := of_decide_eq_true holds
  have tidy := start_tidy opens
  obtain ⟨_, generation, statements, pass, generated⟩ := compile_generated tidy.sound compiled
  obtain ⟨fresh, added, _, introduced, _⟩ := compile_adds tidy.sound compiled
  rw [← introduced, nothing] at added
  have reached : (crowdTarget (oddParameters 32767)).Reached 0 := by
    intro site isSite
    rw [crowdTarget_site isOver] at isSite
    cases isSite
    have isFirst : (crowdSite (oddParameters 32767)).method.firstFreeSlot.toNat = 0 := by
      rw [MethodContext.toNat_firstFreeSlot, crowdSite_slots]
    exact Nat.le_of_eq isFirst
  have isNone : later.allocator.known = [] := added.allocator.known
  have legible : later.Legible := by
    intro entry isIn
    rw [isNone] at isIn
    cases isIn
  have slots := generated.maxLocals_eq tidy reached compiled legible
  rw [added.allocator.next] at slots
  have isZero : fragment.maxLocals = 0 := UInt16.toNat_inj.mp slots
  refine ⟨fragment, later, body, opens, compiled, isBody, loads, isZero, ?_⟩
  rw [isZero]
  exact Nat.not_succ_le_zero 0

end Session

end MethodPatch
