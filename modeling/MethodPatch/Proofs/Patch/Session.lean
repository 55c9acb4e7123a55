/-
**The locals of a method under edit.**

Over all passes of a session, locals are only ever added behind the ones that are there. A pass that
succeeds introduces the locals of its new names. A pass that fails may have added some before its
failure, but no pass comes behind it.

* `Session.after`, `Session.introduced`: a session behind several passes, and what they introduce;
* `Session.Sound`, `Session.Adds`: what holds between passes, and what passes change;
* `Session.compile_adds`, `Session.after_adds`: one pass, and passes in order.
-/

import MethodPatch.Patch.Session
import MethodPatch.Proofs.Locals.Scope
import MethodPatch.Proofs.Locals.Seeded
import MethodPatch.Proofs.Patch.Pass
import MethodPatch.Proofs.Typing.Converts

namespace MethodPatch

/-! ### The start of a session -/

/-- A generation that is installed for a target is at the site of the target. -/
theorem Hook.install_empty {target : Target} {hook : Hook} (done : empty.install target = .ok hook) :
    ∃ generation, hook.installed = some ⟨target, generation⟩ ∧
      target.site = .ok generation.site := by
  have begun : empty.install target = (generationFor target).map (replace target) := rfl
  rw [begun] at done
  cases made : generationFor target with
  | error error =>
    rw [made] at done
    cases done
  | ok generation =>
    rw [made] at done
    cases done
    simp only [generationFor, bind_eq_ok, pure_eq_ok] at made
    obtain ⟨site, isSite, pool, _, rfl⟩ := made
    exact ⟨.ofSite site pool, rfl, isSite⟩

/-- A hook compiles with the generation that is installed and stays at its target. -/
theorem Hook.compile_of_installed {hook : Hook} {target : Target} {generation following : Generation}
    {strict : Bool} {roots : Scope} {allocator after : Allocator} {source : String}
    {outcome : Except PatchError Fragment}
    (installed : hook.installed = some ⟨target, generation⟩)
    (passed : generation.compile strict roots allocator source = (outcome, after, following)) :
    hook.compile strict roots allocator source = (outcome, after, ⟨some ⟨target, following⟩⟩) := by
  rw [Hook.compile, Hook.generation, installed]
  dsimp only
  rw [passed, Hook.withGeneration, installed]
  rfl

namespace MethodRecord

variable {record : MethodRecord} {allocator : Allocator} {table : Table}

/-- The variables of a record are bound to the locals that its allocator knows. -/
theorem roots_known (rooted : record.roots = .ok table) (made : record.allocator = .ok allocator) :
    ∀ symbol ∈ table, ∃ entry, allocator.find? symbol.name = some entry ∧
      symbol.binding? = some (entry.slot, entry.type) := by
  rw [roots, made] at rooted
  cases rooted
  intro symbol isIn
  obtain ⟨entry, isSorted, rfl⟩ := List.mem_map.mp isIn
  obtain ⟨entries, _, seeds⟩ := allocator_seeds made
  have distinct : allocator.Distinct := seeds.distinct List.nodup_nil
  exact ⟨entry, Local.find?_of_nodup distinct (List.mem_mergeSort.mp isSorted), rfl⟩

end MethodRecord

namespace Session

/-! ### Several passes -/

/-- The session behind passes over several texts. -/
def after (session : Session) (sources : List String) : Session :=
  sources.foldl (fun session source => (session.compile source).2) session

/-- The locals that passes over several texts introduce, in order. -/
def introduced (session : Session) : List String → List Local
  | [] => []
  | source :: rest =>
    match session.compile source with
    | (.ok fragment, later) => fragment.introduced ++ introduced later rest
    | (.error _, later) => introduced later rest

variable {session middle later opened : Session} {target : Target} {record : MethodRecord}
  {strict : Bool} {source : String} {sources : List String}

/-! ### Between passes -/

/-- The generation of a session is for its target, and every variable that a pass can use is bound
to the local that the allocator knows by its name. -/
structure Sound (session : Session) : Prop where
  installed : ∃ generation, session.hook.installed = some ⟨session.target, generation⟩ ∧
    session.target.site = .ok generation.site
  known : ∀ symbol ∈ session.roots, ∃ entry, session.allocator.find? symbol.name = some entry ∧
    symbol.binding? = some (entry.slot, entry.type)
  fits : session.allocator.Fits

/-- The allocator knows every variable of the scope around a pass. -/
theorem Sound.inScope (sound : session.Sound) :
    ∀ symbol ∈ (Scope.root session.roots).tables.flatten,
      (session.allocator.find? symbol.name).isSome := by
  intro symbol isIn
  rw [Scope.root, Scope.tables, List.flatten_singleton] at isIn
  obtain ⟨entry, found, _⟩ := sound.known symbol isIn
  rw [found]
  rfl

/-- Locals were added to a session, and what was there has stayed. -/
structure Adds (session : Session) (fresh : List Local) (later : Session) : Prop where
  target : later.target = session.target
  strict : later.strict = session.strict
  allocator : session.allocator.Extends fresh later.allocator
  roots : ∀ name symbol, session.roots.find? name = some symbol →
    later.roots.find? name = some symbol

theorem Adds.refl (session : Session) : session.Adds [] session :=
  ⟨rfl, rfl, .refl _, fun _ _ found => found⟩

theorem Adds.trans {fresh more : List Local} (first : session.Adds fresh middle)
    (second : middle.Adds more later) : session.Adds (fresh ++ more) later where
  target := second.target.trans first.target
  strict := second.strict.trans first.strict
  allocator := first.allocator.trans second.allocator
  roots := fun name symbol found => second.roots name symbol (first.roots name symbol found)

/-- A session begins with the locals of its record, and its target can be generated for. -/
theorem start_sound (opens : start target record strict = .ok opened) :
    opened.Sound ∧ opened.target = target ∧ opened.strict = strict ∧
      record.allocator = .ok opened.allocator := by
  simp only [start, bind_eq_ok, pure_eq_ok] at opens
  obtain ⟨allocator, made, roots, rooted, hook, done, rfl⟩ := opens
  obtain ⟨_, _, seeds⟩ := MethodRecord.allocator_seeds made
  exact ⟨⟨Hook.install_empty done, MethodRecord.roots_known rooted made,
    seeds.fits (.startingAt record.maxLocals)⟩, rfl, rfl, made⟩

/-! ### One pass -/

section Steps

variable {allocator : Allocator} {fresh : List Local} {following : Generation}

/-- A session stays sound when its allocator knows more locals and its generation goes on. -/
theorem Sound.grow (sound : session.Sound) (extended : session.allocator.Extends fresh allocator)
    (isSite : session.target.site = .ok following.site) :
    Sound { session with allocator, hook := ⟨some ⟨session.target, following⟩⟩ } where
  installed := ⟨following, rfl, isSite⟩
  known := by
    intro symbol isIn
    obtain ⟨entry, found, bound⟩ := sound.known symbol isIn
    exact ⟨entry, extended.find?_of_known found, bound⟩
  fits := extended.fits sound.fits

/-- A session stays sound when the locals of a fragment that its allocator knows become variables. -/
theorem Sound.accept (sound : session.Sound) {fragment : Fragment}
    (known : ∀ entry ∈ fragment.introduced, session.allocator.find? entry.name = some entry) :
    (session.accept fragment).Sound where
  installed := sound.installed
  known := by
    intro symbol isIn
    rcases Table.mem_bindAll isIn with isOld | ⟨entry, isNew, named, bound⟩
    · exact sound.known symbol isOld
    · exact ⟨entry, named ▸ known entry isNew, bound⟩
  fits := sound.fits

/-- A variable is not hidden by locals whose names were unknown. -/
theorem Sound.find?_bindAll (sound : session.Sound)
    (unknown : ∀ entry ∈ fresh, session.allocator.find? entry.name = none) {name : String}
    {symbol : Symbol} (found : session.roots.find? name = some symbol) :
    (session.roots.bindAll fresh).find? name = some symbol := by
  refine (Table.find?_bindAll fun entry isNew same => ?_).trans found
  obtain ⟨known, isKnown, _⟩ := sound.known symbol (List.mem_of_find?_eq_some found)
  rw [Table.name_of_find? found, ← same, unknown entry isNew] at isKnown
  cases isKnown

end Steps

/-- A pass that succeeds leaves its session behind its fragment. -/
theorem compile_ok {fragment : Fragment} (compiled : session.compile source = (.ok fragment, later)) :
    later = accept { session with allocator := later.allocator, hook := later.hook } fragment := by
  unfold compile at compiled
  split at compiled
  · cases compiled
  · rcases passed : session.hook.compile session.strict (.root session.roots) session.allocator source
      with ⟨_ | _, allocator, hook⟩
    all_goals
      rw [passed] at compiled
      cases compiled
    rfl

/-- A pass that fails changes nothing but the allocator and the hook, and ends its session. -/
theorem compile_error {error : PatchError}
    (compiled : session.compile source = (.error error, later)) :
    later = { session with allocator := later.allocator, hook := later.hook, failed := true } := by
  unfold compile at compiled
  split at compiled
  · next failed =>
    cases compiled
    rw [← failed]
  · rcases passed : session.hook.compile session.strict (.root session.roots) session.allocator source
      with ⟨_ | _, allocator, hook⟩
    all_goals
      rw [passed] at compiled
      cases compiled
    rfl

/-- **What one pass does to a session.** If it succeeds it introduces exactly the locals that it has
added for the variables of its text; if it fails no pass comes behind it. -/
theorem compile_adds {result : Except PatchError Fragment} (sound : session.Sound)
    (ran : session.compile source = (result, later)) :
    ∃ fresh, session.Adds fresh later ∧ later.Sound ∧
      match result with
      | .error _ => later.failed = true
      | .ok fragment => fragment.introduced = fresh ∧ ∃ site statements entries,
          session.target.site = .ok site ∧ (Stmt.parse source).1 = .ok statements ∧
            GivesAll session.strict site.host session.allocator (Stmt.declaredAll statements) entries
              fresh later.allocator := by
  unfold compile at ran
  by_cases failed : session.failed = true
  · rw [if_pos failed] at ran
    cases ran
    exact ⟨[], .refl session, sound, failed⟩
  · rw [if_neg failed] at ran
    obtain ⟨generation, installed, isSite⟩ := sound.installed
    rcases passed : generation.compile session.strict (.root session.roots) session.allocator source
      with ⟨outcome, allocator, following⟩
    obtain ⟨fresh, extended, sameSite, given⟩ := Generation.compile_adds sound.inScope passed
    rw [Hook.compile_of_installed installed passed] at ran
    have grown := sound.grow extended (isSite.trans (congrArg _ sameSite.symm))
    cases outcome with
    | error error =>
      cases ran
      exact ⟨fresh, ⟨rfl, rfl, extended, fun _ _ found => found⟩, ⟨grown.installed, grown.known, grown.fits⟩, rfl⟩
    | ok fragment =>
      obtain ⟨rfl, statements, parsed, entries, gives⟩ := given fragment rfl
      cases ran
      exact ⟨fragment.introduced,
        ⟨rfl, rfl, extended, fun _ _ => sound.find?_bindAll extended.unknown⟩,
        grown.accept fun _ => extended.find?_of_fresh,
        rfl, generation.site, statements, entries, isSite, parsed, gives⟩

/-! ### Passes in order -/

theorem after_cons {result : Except PatchError Fragment} (ran : session.compile source = (result, later))
    (rest : List String) : session.after (source :: rest) = later.after rest := by
  rw [after, List.foldl_cons, ran]
  rfl

theorem after_of_failed (failed : session.failed = true) (sources : List String) :
    session.after sources = session ∧ session.introduced sources = [] := by
  induction sources with
  | nil => exact ⟨rfl, rfl⟩
  | cons source rest ih =>
    have refused := compile_of_failed failed source
    rw [after_cons refused, introduced, refused]
    exact ih

/-- **What passes in order do to a session.** The locals that they introduce come first among those
that they have added; only a failed pass may have added more. -/
theorem after_adds (sound : session.Sound) (sources : List String) :
    ∃ rest, session.Adds (session.introduced sources ++ rest) (session.after sources) ∧
      (session.after sources).Sound := by
  induction sources generalizing session with
  | nil => exact ⟨[], .refl session, sound⟩
  | cons source rest ih =>
    rcases ran : session.compile source with ⟨_ | fragment, later⟩
    all_goals
      obtain ⟨fresh, added, soundLater, outcome⟩ := compile_adds sound ran
      rw [after_cons ran, introduced, ran]
      dsimp only
    · obtain ⟨stays, introducesNone⟩ := after_of_failed outcome rest
      rw [stays, introducesNone]
      exact ⟨fresh, added, soundLater⟩
    · obtain ⟨more, addedMore, soundAfter⟩ := ih soundLater
      rw [outcome.1]
      refine ⟨more, ?_, soundAfter⟩
      rw [List.append_assoc]
      exact added.trans addedMore

end Session

end MethodPatch
