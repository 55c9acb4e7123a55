/-
**The slots that patches use.**

A pass introduces a local for every name that it declares first, in source order and one behind the
other. Over a session no slot is given to two locals, and no local ever moves.

A session keeps its locals twice: its allocator knows them by name, and its table binds them for the
next pass. The two are made in different ways, from a record that may list a name several times and
from the locals of every pass, and say the same as long as no pass fails.

* `Session.compile_introduces`: the locals that a pass introduces;
* `Session.locals_apart`: the slots of a session over all its passes;
* `Session.introduced_behind_parameters`: when they are no slots of parameters;
* `Session.InStep`: the table binds exactly what the allocator knows;
* `Session.start_inStep`, `Session.compile_inStep`: the start of a session, and one pass;
* `Session.roots_in_step`: **every pass sees exactly the locals that the allocator knows**.
-/

import MethodPatch.Proofs.Patch.Session

namespace MethodPatch

/-- The parameter of the method, and no other local. -/
def counterRecord : MethodRecord := ⟨1, [⟨"count", 0, "I"⟩]⟩

namespace Session

variable {target : Target} {record : MethodRecord} {strict : Bool} {opened later : Session}
  {fragment : Fragment}

/-- The session behind passes has added locals to the one that was opened. -/
theorem start_adds (opens : start target record strict = .ok opened) (sources : List String) :
    ∃ rest, opened.Adds (opened.introduced sources ++ rest) (opened.after sources) ∧
      (opened.after sources).Sound :=
  after_adds (start_sound opens).1 sources

/-- What a session that opens satisfies can be read off from the session. -/
theorem opens_of_any {holds : Session → Bool}
    (any : (start target record strict).toOption.any holds = true) :
    ∃ opened, start target record strict = .ok opened ∧ holds opened = true := by
  cases opens : start target record strict with
  | error error =>
    rw [opens] at any
    cases any
  | ok opened =>
    rw [opens] at any
    exact ⟨opened, rfl, any⟩

/-- What a session that opens satisfies can be decided. -/
theorem opens_of_decide {holds : Session → Prop} [DecidablePred holds]
    (any : (start target record strict).toOption.any (fun opened => decide (holds opened)) = true) :
    ∃ opened, start target record strict = .ok opened ∧ holds opened := by
  obtain ⟨opened, opens, isTrue⟩ := opens_of_any any
  exact ⟨opened, opens, of_decide_eq_true isTrue⟩

/-- A text that declares a known name again inside of a block, between two new names. -/
def nestedSource : String :=
  "{ long y = x; byte x = 2; } double z = y;"

/-- Three passes, of which a strict session refuses the last: there is a `long` where it asks for a
`boolean`. -/
def refusedSources : List String :=
  ["int x = count;", "long y = 2;", "{ int z = 1; } boolean y = true;"]

/-- What passes leave in a session on the counter, whose first free slot is behind its parameter, all
evaluated together. -/
theorem counter_passes : ∃ opened, start counterTarget counterRecord true = .ok opened ∧
    opened.introduced ["int x = count;"] = [⟨"x", 1, .int⟩] ∧
    ((opened.after ["int x = count;"]).allocator =
        ⟨2, [⟨"count", 0, .int⟩, ⟨"x", 1, .int⟩], ["x"]⟩ ∧
      ((opened.after ["int x = count;"]).compile nestedSource).1.isOk = true ∧
      ((Stmt.parse nestedSource).1.toOption.map fun statements =>
        (Stmt.declaredAll statements).map Declarator.name) = some ["y", "x", "z"]) ∧
    (opened.after refusedSources).failed = true ∧
    (opened.after refusedSources).allocator =
      ⟨5, [⟨"count", 0, .int⟩, ⟨"x", 1, .int⟩, ⟨"y", 2, .long⟩, ⟨"z", 4, .int⟩],
        ["x", "y", "z"]⟩ ∧
    (counterTarget.site.toOption.map fun site => site.method.firstFreeSlot) = some 1 :=
  opens_of_decide (by decide +kernel)

/-! ### The locals of one pass -/

/-- **The locals that a pass introduces.** They have the names that are declared anywhere in the
text and were not known, each once and in source order, and each has the type of its first
declaration. They stand one behind the other from the first free slot on, and nothing that was known
moves. In a strict pass every variable is stored like the local of its name. -/
theorem compile_introduces (opens : start target record strict = .ok opened) (sources : List String)
    {source : String}
    (compiled : (opened.after sources).compile source = (.ok fragment, later)) :
    ∃ site statements, target.site = .ok site ∧ (Stmt.parse source).1 = .ok statements ∧
      let before := (opened.after sources).allocator
      let declared := Stmt.declaredAll statements
      fragment.introduced.map Local.name =
          ((declared.map Declarator.name).filter fun name => (before.find? name).isNone).eraseDups ∧
        (∀ entry ∈ fragment.introduced, ∃ declarator,
          declared.find? (fun other => other.name = entry.name) = some declarator ∧
            site.host.typeOf declarator.type = .ok entry.type) ∧
        LaidFrom before.next fragment.introduced ∧
        later.allocator.next = before.next + total Local.width fragment.introduced ∧
        (∀ name entry, before.find? name = some entry → later.allocator.find? name = some entry) ∧
        (∀ declarator ∈ declared, ∃ entry type, later.allocator.find? declarator.name = some entry ∧
          site.host.typeOf declarator.type = .ok type ∧
            (strict = true → entry.type.storage = type.storage)) := by
  obtain ⟨_, hasTarget, isStrict, _⟩ := start_sound opens
  obtain ⟨_, addedBefore, sound⟩ := start_adds opens sources
  obtain ⟨fresh, added, _, rfl, site, statements, entries, isSite, parsed, gives⟩ :=
    compile_adds sound compiled
  rw [addedBefore.target, hasTarget] at isSite
  rw [addedBefore.strict, isStrict] at gives
  refine ⟨site, statements, isSite, parsed, gives.names, gives.types, added.allocator.laid,
    added.allocator.next, fun name entry => added.allocator.find?_of_known, ?_⟩
  intro declarator isDeclared
  obtain ⟨entry, found, type, resolved, accepted⟩ := gives.settled_of_mem declarator isDeclared
  exact ⟨entry, type, found, resolved, accepted⟩

/-- A name that an earlier pass has declared keeps its local also when it is declared again inside of
a block, and only the other two names are new. -/
theorem compile_introduces_nested : ∃ opened fragment later,
    start counterTarget counterRecord true = .ok opened ∧
      (opened.after ["int x = count;"]).compile "{ long y = x; byte x = 2; } double z = y;" =
        (.ok fragment, later) ∧
      fragment.introduced.map Local.name = ["y", "z"] ∧ LaidFrom 2 fragment.introduced ∧
      later.allocator.find? "x" = some ⟨"x", 1, .int⟩ := by
  obtain ⟨opened, opens, _, ⟨isBefore, succeeds, declared⟩, _⟩ := counter_passes
  rcases compiled : (opened.after ["int x = count;"]).compile nestedSource with
    ⟨_ | fragment, later⟩
  · rw [compiled] at succeeds
    cases succeeds
  · obtain ⟨site, statements, _, parsed, names, _, laid, _, stays, _⟩ :=
      compile_introduces opens ["int x = count;"] compiled
    rw [parsed] at declared
    have same : (Stmt.declaredAll statements).map Declarator.name = ["y", "x", "z"] :=
      Option.some.inj declared
    rw [isBefore] at names laid stays
    rw [same] at names
    exact ⟨opened, fragment, later, opens, compiled, names.trans (by decide), laid,
      stays "x" ⟨"x", 1, .int⟩ rfl⟩

/-! ### The slots of all passes -/

/-- **No slot is shared or given out again.** Over any passes, whether they succeed or fail, a local
that the session has allocated shares no slot with a recorded local or with another one that is
known. The locals that successive passes introduce have increasing slots. The first free slot is
behind every local and never goes back, and a name that is known or bound keeps its local. -/
theorem locals_apart (opens : start target record strict = .ok opened) (sources : List String) :
    ∃ recorded, record.resolve = .ok recorded ∧
      let session := opened.after sources
      (∀ name ∈ session.allocator.allocated, ∃ entry, session.allocator.find? name = some entry ∧
        (∀ other ∈ recorded, entry.overlaps other = false) ∧
        ∀ other ∈ session.allocator.known, other.name ≠ name → entry.overlaps other = false) ∧
      (∀ entry ∈ opened.introduced sources, entry.name ∈ session.allocator.allocated ∧
        session.allocator.find? entry.name = some entry) ∧
      ((opened.introduced sources).map Local.slot).Pairwise (· < ·) ∧
      (∀ entry ∈ recorded ++ session.allocator.known, entry.finish ≤ session.allocator.next) ∧
      ∀ more, session.allocator.next ≤ (session.after more).allocator.next ∧
        (∀ name entry, session.allocator.find? name = some entry →
          (session.after more).allocator.find? name = some entry) ∧
        ∀ name slot type, (Scope.root session.roots).binding? name = some (slot, type) →
          (Scope.root (session.after more).roots).binding? name = some (slot, type) ∧
            (session.after more).allocator.find? name = some ⟨name, slot, type⟩ := by
  obtain ⟨_, _, _, made⟩ := start_sound opens
  obtain ⟨recorded, resolved, seeds⟩ := MethodRecord.allocator_seeds made
  obtain ⟨rest, added, sound⟩ := start_adds opens sources
  have bounded : opened.allocator.Bounded := seeds.bounded (by rintro _ ⟨⟩)
  have laid := added.allocator.laid
  have ofAllocated : ∀ name ∈ (opened.after sources).allocator.allocated,
      ∃ entry ∈ opened.introduced sources ++ rest, entry.name = name := by
    intro name isAllocated
    rw [added.allocator.allocated, seeds.allocated] at isAllocated
    exact List.mem_map.mp isAllocated
  refine ⟨recorded, resolved, ?apart, ?allocated, ?increasing, ?behind, ?stays⟩
  case apart =>
    intro name isAllocated
    obtain ⟨entry, isNew, rfl⟩ := ofAllocated name isAllocated
    refine ⟨entry, added.allocator.find?_of_fresh isNew, fun other isRecorded => ?_,
      fun other isKnown different => added.allocator.apart bounded isNew isKnown different⟩
    rw [Local.overlaps_comm]
    exact Local.overlaps_of_finish_le (Nat.le_trans (seeds.finish_le isRecorded)
      (laid.bounds isNew).1)
  case allocated =>
    intro entry isIntroduced
    have isNew := List.mem_append_left rest isIntroduced
    refine ⟨?_, added.allocator.find?_of_fresh isNew⟩
    rw [added.allocator.allocated]
    exact List.mem_append_right _ (List.mem_map_of_mem isNew)
  case increasing =>
    exact (laid.slots_pairwise).sublist ((List.sublist_append_left _ _).map Local.slot)
  case behind =>
    intro entry isIn
    rcases List.mem_append.mp isIn with isRecorded | isKnown
    · exact Nat.le_trans (seeds.finish_le isRecorded) added.allocator.le_next
    · exact added.allocator.bounded bounded entry isKnown
  case stays =>
    intro more
    obtain ⟨_, addedMore, soundMore⟩ := after_adds sound more
    refine ⟨addedMore.allocator.le_next, fun name entry => addedMore.allocator.find?_of_known, ?_⟩
    intro name slot type bound
    rw [Scope.binding?_root] at bound
    obtain ⟨symbol, found, binds⟩ := Option.bind_eq_some_iff.mp bound
    have foundMore := addedMore.roots name symbol found
    obtain ⟨entry, isKnown, same⟩ := soundMore.known symbol (List.mem_of_find?_eq_some foundMore)
    rw [binds] at same
    cases same
    rw [Table.name_of_find? found] at isKnown
    refine ⟨?_, ?_⟩
    · rw [Scope.binding?_root, foundMore, Option.bind_some, binds]
    · rw [isKnown]
      obtain rfl := Allocator.name_of_find? isKnown
      rfl

/-- The local that the refused pass has allocated stays and shares no slot with the `long`. -/
theorem locals_apart_refused : ∃ opened, start counterTarget counterRecord true = .ok opened ∧
    (opened.after refusedSources).failed = true ∧
      ∃ z, (opened.after refusedSources).allocator.find? "z" = some z ∧
        z.overlaps ⟨"y", 2, .long⟩ = false := by
  obtain ⟨opened, opens, _, _, failed, isBehind, _⟩ := counter_passes
  obtain ⟨_, _, apart, _⟩ := locals_apart opens refusedSources
  rw [isBehind] at apart
  obtain ⟨z, found, _, others⟩ := apart "z" (by simp)
  refine ⟨opened, opens, failed, z, ?_, others ⟨"y", 2, .long⟩ (by simp) (by decide)⟩
  rw [isBehind]
  exact found

/-! ### The slots of parameters -/

/-- **Exactly when passes leave the parameters alone.** What a session introduces stays behind the
slots of `this` and of the parameters if and only if the record reaches as far, by its count or by
one of its locals. The record of the workspace does. -/
theorem introduced_behind_parameters (opens : start target record strict = .ok opened)
    (sources : List String) :
    ∃ site recorded, target.site = .ok site ∧ record.resolve = .ok recorded ∧
      (opened.introduced sources ≠ [] →
        ((∀ entry ∈ opened.introduced sources, site.method.firstFreeSlot ≤ entry.slot) ↔
          site.method.firstFreeSlot ≤ record.maxLocals ∨
            ∃ entry ∈ recorded, site.method.firstFreeSlot.toNat ≤ entry.finish)) ∧
      (target.record = .ok record →
        ∀ entry ∈ opened.introduced sources, site.method.firstFreeSlot ≤ entry.slot) := by
  obtain ⟨sound, rfl, _, made⟩ := start_sound opens
  obtain ⟨recorded, resolved, seeds⟩ := MethodRecord.allocator_seeds made
  obtain ⟨generation, _, isSite⟩ := sound.installed
  obtain ⟨rest, added, _⟩ := start_adds opens sources
  have laid := added.allocator.laid
  -- What the record reaches is in front of everything that is introduced.
  have behind (reaches : generation.site.method.firstFreeSlot.toNat ≤ opened.allocator.next) :
      ∀ entry ∈ opened.introduced sources,
        generation.site.method.firstFreeSlot ≤ entry.slot := fun entry isIntroduced =>
    UInt16.le_iff_toNat_le.mpr
      (Nat.le_trans reaches (laid.bounds (List.mem_append_left rest isIntroduced)).1)
  refine ⟨generation.site, recorded, isSite, resolved, fun introduces => ⟨fun leaves => ?_, ?_⟩, ?_⟩
  · -- The first local that is introduced begins where the record ends.
    rw [UInt16.le_iff_toNat_le]
    refine (seeds.le_next_iff _).mp ?_
    cases introduced : opened.introduced sources with
    | nil => exact absurd introduced introduces
    | cons first others =>
      rw [introduced] at laid leaves
      exact laid.1 ▸ UInt16.le_iff_toNat_le.mp (leaves first List.mem_cons_self)
  · rw [UInt16.le_iff_toNat_le]
    exact fun reaches => behind ((seeds.le_next_iff _).mpr reaches)
  · exact fun isRecorded => behind ((seeds.le_next_iff _).mpr
      (.inl (UInt16.le_iff_toNat_le.mp (Target.firstFreeSlot_le isSite isRecorded))))

theorem firstFreeSlot_counter {site : Site} (isSite : counterTarget.site = .ok site) :
    site.method.firstFreeSlot = 1 := by
  obtain ⟨_, _, _, _, _, _, first⟩ := counter_passes
  rw [isSite] at first
  exact Option.some.inj first

/-- With a record that counts the parameter a patch stores behind it. -/
theorem introduced_behind_parameters_counter : ∃ opened site,
    start counterTarget counterRecord true = .ok opened ∧ counterTarget.site = .ok site ∧
      opened.introduced ["int x = count;"] = [⟨"x", 1, .int⟩] ∧
      ∀ entry ∈ opened.introduced ["int x = count;"], site.method.firstFreeSlot ≤ entry.slot := by
  obtain ⟨opened, opens, introduced, _⟩ := counter_passes
  obtain ⟨site, recorded, isSite, _, exactly, _⟩ :=
    introduced_behind_parameters opens ["int x = count;"]
  have reaches : site.method.firstFreeSlot ≤ counterRecord.maxLocals := by
    rw [firstFreeSlot_counter isSite]
    decide
  exact ⟨opened, site, opens, isSite, introduced, (exactly (by simp [introduced])).mpr (.inl reaches)⟩

/-- A record that counts no slot lets a patch store into the slot of the parameter. -/
theorem introduced_in_parameter : ∃ opened site entry,
    start counterTarget ⟨0, []⟩ true = .ok opened ∧ counterTarget.site = .ok site ∧
      entry ∈ opened.introduced ["int x = 5;"] ∧ entry.slot < site.method.firstFreeSlot := by
  have opening : ∃ opened, start counterTarget ⟨0, []⟩ true = .ok opened ∧
      opened.introduced ["int x = 5;"] = [⟨"x", 0, .int⟩] :=
    opens_of_decide (by decide +kernel)
  obtain ⟨opened, opens, introduced⟩ := opening
  obtain ⟨generation, _, isSite⟩ := (start_sound opens).1.installed
  rw [(start_sound opens).2.1] at isSite
  refine ⟨opened, generation.site, ⟨"x", 0, .int⟩, opens, isSite, ?_, ?_⟩
  · rw [introduced]
    exact List.mem_singleton_self _
  · rw [firstFreeSlot_counter isSite]
    decide

end Session

/-! ### The locals that a pass sees -/

namespace MethodRecord

variable {record : MethodRecord} {table : Table} {allocator : Allocator}

/-- The table of a record has the locals that its allocator knows, whatever it lists. -/
theorem find?_roots (rooted : record.roots = .ok table) (made : record.allocator = .ok allocator)
    (name : String) : table.find? name = (allocator.find? name).map Local.symbol := by
  obtain ⟨entries, _, seeds⟩ := allocator_seeds made
  have distinct : allocator.Distinct := seeds.distinct List.nodup_nil
  rw [roots, made] at rooted
  cases rooted
  rw [← Allocator.find?_bySlot distinct]
  exact List.find?_map ..

end MethodRecord

namespace Session

variable {session later opened : Session} {target : Target} {record : MethodRecord} {strict : Bool}
  {source : String} {sources : List String} {fragment : Fragment}

/-- The table of a session binds exactly the locals that its allocator knows. -/
def InStep (session : Session) : Prop :=
  ∀ name, (session.roots.find? name).bind Symbol.binding? =
    (session.allocator.find? name).map Local.binding

/-- Passes over these texts, one after the other, all succeed. -/
def succeeds (session : Session) : List String → Bool
  | [] => true
  | source :: rest => (session.compile source).1.isOk && (session.compile source).2.succeeds rest

theorem start_inStep (opens : start target record strict = .ok opened) : opened.InStep := by
  simp only [start, bind_eq_ok, pure_eq_ok] at opens
  obtain ⟨allocator, made, roots, rooted, _, _, rfl⟩ := opens
  intro name
  dsimp only
  rw [MethodRecord.find?_roots rooted made name]
  cases allocator.find? name <;> rfl

/-- A pass that succeeds binds what it has added. -/
theorem compile_inStep (sound : session.Sound) (inStep : session.InStep)
    (compiled : session.compile source = (.ok fragment, later)) : later.InStep := by
  obtain ⟨_, added, _, rfl, _⟩ := compile_adds sound compiled
  have extended := added.allocator
  have isRoots : later.roots = session.roots.bindAll fragment.introduced :=
    congrArg roots (compile_ok compiled)
  intro name
  rw [isRoots, Table.bind_find?_bindAll extended.distinct, inStep name]
  cases found : session.allocator.find? name with
  | none => rw [extended.find?_of_unknown found, Option.map_none, Option.or_none]
  | some entry =>
    have noneNew : fragment.introduced.find? (fun entry => entry.name = name) = none := by
      refine List.find?_eq_none.mpr fun other isNew isNamed => ?_
      have unknown := extended.unknown other isNew
      rw [of_decide_eq_true isNamed, found] at unknown
      cases unknown
    rw [extended.find?_of_known found, noneNew]
    rfl

/-- Passes that all succeed keep a session in step. -/
theorem after_inStep (sound : session.Sound) (inStep : session.InStep)
    (succeeded : session.succeeds sources = true) : (session.after sources).InStep := by
  induction sources generalizing session with
  | nil => exact inStep
  | cons source rest ih =>
    obtain ⟨isOk, succeededRest⟩ := Bool.and_eq_true_iff.mp succeeded
    obtain ⟨fragment, compiled⟩ := eq_ok_of_isOk isOk
    obtain ⟨_, _, soundLater, _⟩ := compile_adds sound compiled
    rw [after_cons compiled]
    exact ih soundLater (compile_inStep sound inStep compiled) succeededRest

/-- **Every pass sees exactly the locals that the allocator knows.** As long as all passes succeed,
a name is bound in the table of the session if and only if the allocator knows it, to the same slot
and the same type. So the next pass registers nothing for the scope around it, and every known local
can be used in front of its first statement. -/
theorem roots_in_step (opens : start target record strict = .ok opened)
    (succeeded : opened.succeeds sources = true) :
    let session := opened.after sources
    (∀ name, (Scope.root session.roots).binding? name =
      (session.allocator.find? name).map Local.binding) ∧
    adopt (.root session.roots) session.allocator = (.ok (), session.allocator) ∧
    ∀ generation declared name,
      (Generation.opening generation (.root session.roots) session.allocator declared).scope.binding?
        name = (session.allocator.find? name).map Local.binding := by
  obtain ⟨_, _, sound⟩ := start_adds opens sources
  have bindings (name : String) : (Scope.root (opened.after sources).roots).binding? name =
      ((opened.after sources).allocator.find? name).map Local.binding := by
    rw [Scope.binding?_root]
    exact after_inStep (start_sound opens).1 (start_inStep opens) succeeded name
  refine ⟨bindings, adopt_of_known sound.inScope, fun generation declared name => ?_⟩
  rw [← bindings name]
  exact Scope.binding?_declareAll ..

/-- A table that lists a variable twice, as for two loops of a method. -/
def repeatedRecord : MethodRecord := ⟨3, [⟨"i", 1, "I"⟩, ⟨"i", 2, "I"⟩]⟩

/-- Behind two passes the variable is bound to the slot that was kept, and the new ones to theirs. -/
theorem roots_in_step_repeated : ∃ opened, start counterTarget repeatedRecord true = .ok opened ∧
    opened.succeeds ["int next = i + 1;", "long sum = next;"] = true ∧
      let session := opened.after ["int next = i + 1;", "long sum = next;"]
      (Scope.root session.roots).binding? "i" = some (2, .int) ∧
        (Scope.root session.roots).binding? "next" = some (3, .int) ∧
        (Scope.root session.roots).binding? "sum" = some (4, .long) := by
  have opening : ∃ opened, start counterTarget repeatedRecord true = .ok opened ∧
      opened.succeeds ["int next = i + 1;", "long sum = next;"] = true ∧
        (opened.after ["int next = i + 1;", "long sum = next;"]).allocator.known =
          [⟨"i", 2, .int⟩, ⟨"next", 3, .int⟩, ⟨"sum", 4, .long⟩] :=
    opens_of_decide (by decide +kernel)
  obtain ⟨opened, opens, succeeded, isKnown⟩ := opening
  obtain ⟨bindings, _, _⟩ := roots_in_step opens succeeded
  unfold Allocator.find? at bindings
  rw [isKnown] at bindings
  exact ⟨opened, opens, succeeded, bindings "i", bindings "next", bindings "sum"⟩

end Session

end MethodPatch
