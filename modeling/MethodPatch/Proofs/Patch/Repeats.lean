/-
**Compiling a text again.**

When a text is compiled right behind a pass over the same text, its variables have their locals
already and its constants are there. Where no new name occurs in front of the end of its declaration
the first pass resolves every name as the second one does, and both generate the same code.

* `Pass.place_known`: variables that have locals keep them;
* `Pass.Repeats`: a pass that goes over the statements of another one again;
* `Pass.Runs.again`: statements that have succeeded succeed again, with the same code;
* `Session.compile_of_run`: a session accepts the fragment of a pass that goes through;
* `Session.compile_again`: **a text that was compiled gives the same fragment again, but for the
  locals that it introduces.**
-/

import MethodPatch.Proofs.Composition.Repeats
import MethodPatch.Proofs.Patch.Operands

namespace MethodPatch

/-! ### Variables that have locals -/

/-- A declared variable has a local that suits its type. -/
def Allocator.Accepts (allocator : Allocator) (strict : Bool) (host : Host) (declarator : Declarator) :
    Prop :=
  ∃ entry, allocator.find? declarator.name = some entry ∧
    ∃ type, host.typeOf declarator.type = .ok type ∧
      (strict = true → entry.type.storage = type.storage)

variable {strict : Bool} {host : Host} {final : Allocator}

theorem placeDeclarator_known {declarator : Declarator} (accepts : final.Accepts strict host declarator)
    (fresh : List Local) :
    (placeDeclarator strict host declarator).run.run (final, fresh) =
      (.ok (final.settle declarator), final, fresh) := by
  obtain ⟨entry, known, type, resolved, suits⟩ := accepts
  rcases ran : (placeDeclarator strict host declarator).run.run (final, fresh) with ⟨result, state⟩
  rcases placeDeclarator_run ran with ⟨error, _, _, refuses⟩ | ⟨given, more, after, rfl, rfl, gives⟩
  · cases refuses with
    | untyped unresolved =>
      rw [resolved] at unresolved
      cases unresolved
    | stored isType found different =>
      cases resolved.symm.trans isType
      cases known.symm.trans found
      exact absurd (suits different.1) different.2
    | full _ unknown =>
      rw [known] at unknown
      cases unknown
  · cases gives with
    | known _ found _ =>
      cases known.symm.trans found
      rw [Allocator.settle_of_known known, List.append_nil]
    | new _ allocated =>
      rw [(Allocator.Extends.allocate allocated).2.2.1] at known
      cases known

theorem placeDeclarators_known {declared : List Declarator}
    (accepts : ∀ declarator ∈ declared, final.Accepts strict host declarator) (fresh : List Local) :
    (declared.mapM (placeDeclarator strict host)).run.run (final, fresh) =
      (.ok (declared.map final.settle), final, fresh) := by
  induction declared with
  | nil => rfl
  | cons first rest ih =>
    obtain ⟨isFirst, isRest⟩ := List.forall_mem_cons.mp accepts
    rw [List.mapM_cons, Placing.run_bind, placeDeclarator_known isFirst]
    dsimp only
    rw [Placing.run_bind, ih isRest]
    rfl

namespace Pass

/-- **Variables that have locals keep them**, and nothing is allocated. -/
theorem place_known {pass : Pass} {statement : Stmt}
    (accepts : ∀ declarator ∈ statement.declared,
      pass.allocator.Accepts strict pass.generation.site.host declarator) :
    pass.place strict statement = (.ok (statement.mapParts pass.allocator.settle), pass) := by
  rcases placing : pass.place strict statement with ⟨result, later⟩
  obtain ⟨ran, same⟩ := place_declared placing
  rw [placeDeclarators_known accepts] at ran
  obtain ⟨outcome, stays⟩ := Prod.mk.inj ran
  obtain ⟨allocator, fresh⟩ := Prod.mk.inj stays
  rw [← allocator, ← fresh] at same
  cases result with
  | error error => cases outcome
  | ok placed =>
    cases same
    rw [place_settles placing (.refl _)]

/-! ### Statements again -/

/-- A pass goes over the statements of another one again: its variables have their locals, its code is
the same, over constants that have grown, and its scope differs in pending names alone. -/
structure Repeats (final : Allocator) (constants : Pool) (pending : String → Prop) (pass again : Pass) :
    Prop where
  allocator : again.allocator = final
  fresh : again.fresh = []
  site : again.generation.site = pass.generation.site
  emitting : again.generation.progress = .emitting
  generator : again.generation.generator = pass.generation.generator.raised constants final.count
  scope : pass.scope.AgreeBut pending again.scope
  fits : final.Fits

variable {pass later second : Pass} {statement : Stmt} {statements : List Stmt} {constants : Pool}
  {pending : String → Prop}

/-- A statement that is placed and generated succeeds. -/
theorem step_of_yields {placed : Stmt} {exits : LoopExits} {generator : Generator} {scope : Scope}
    (emitting : pass.generation.progress = .emitting)
    (placing : pass.place strict statement = (.ok placed, pass))
    (yields : Yields (placed.lower pass.generation.site false)
      (pass.generation.generator.reserveLocals pass.allocator.count, pass.scope) exits
      (generator, scope)) :
    pass.step strict statement =
      (.ok (), ⟨pass.allocator, ⟨pass.generation.site, generator, .emitting,
        pass.generation.emitted + 1⟩, scope, pass.fresh⟩) := by
  unfold Yields at yields
  unfold step
  rw [attempt_of_placed emitting placing, yields]

/-- The code of a statement that has succeeded is composed, with its variables settled. -/
theorem Emits.composed (emits : pass.Emits final statement later) (leads : later.allocator.Leads final)
    (clear : Clear pending statement.parts) :
    EmitScoped.Composed (fun _ => True) (fun _ _ => True) pass.generation.site pending
      ((statement.mapParts final.settle).lower pass.generation.site false)
      (pendingBehind pending statement.parts) :=
  Stmt.composed_settled _
    (fun declarator isDeclared => (emits.knows declarator isDeclared).imp fun _ => leads.find?)
    clear

/-- Behind a statement that succeeds there are all constants that were in front of it. -/
theorem Emits.grows (emits : pass.Emits final statement later) (leads : later.allocator.Leads final) :
    pass.generation.generator.body.pool.Grows later.generation.generator.body.pool := by
  obtain ⟨exits, yields⟩ := emits.yields
  exact (emits.composed leads (clear_none _)).grows yields

/-- **A statement that has succeeded succeeds again**, with the same code. -/
theorem Emits.again (emits : pass.Emits final statement later) (leads : later.allocator.Leads final)
    (clear : Clear pending statement.parts)
    (accepts : ∀ declarator ∈ statement.declared,
      final.Accepts strict pass.generation.site.host declarator)
    (grows : later.generation.generator.body.pool.Grows constants)
    (repeats : Repeats final constants pending pass second) :
    ∃ behind, second.step strict statement = (.ok (), behind) ∧
      Repeats final constants (pendingBehind pending statement.parts) later behind := by
  obtain ⟨exits, yields⟩ := emits.yields
  obtain ⟨scope, agree, again⟩ :=
    (emits.composed leads clear).again yields grows final.count repeats.scope
  have placing : second.place strict statement =
      (.ok (statement.mapParts final.settle), second) := by
    have accepted : ∀ declarator ∈ statement.declared,
        second.allocator.Accepts strict second.generation.site.host declarator := by
      rw [repeats.allocator, repeats.site]
      exact accepts
    rw [place_known accepted, repeats.allocator]
  have reserved : second.generation.generator.reserveLocals second.allocator.count =
      (pass.generation.generator.reserveLocals later.allocator.count).raised constants final.count := by
    rw [repeats.generator, repeats.allocator,
      Generator.raised_reserveLocals_of_le (leads.count_le repeats.fits)]
    exact Generator.reserveLocals_of_le (UInt16.le_refl _)
  rw [← reserved, ← repeats.site] at again
  refine ⟨_, step_of_yields repeats.emitting placing again, repeats.allocator, repeats.fresh, ?_, rfl,
    rfl, agree, repeats.fits⟩
  exact repeats.site.trans emits.site.symm

theorem Runs.grows (runs : Runs final pass statements later) (leads : later.allocator.Leads final) :
    pass.generation.generator.body.pool.Grows later.generation.generator.body.pool := by
  induction runs with
  | nil => exact .refl _
  | cons emits goesOn ih => exact (emits.grows (goesOn.leads.trans leads)).trans (ih leads)

/-- **Statements that have succeeded succeed again**, with the same code. -/
theorem Runs.again (runs : Runs final pass statements later) (leads : later.allocator.Leads final)
    (clear : Clear pending (Stmt.partsAll statements))
    (accepts : ∀ declarator ∈ Stmt.declaredAll statements,
      final.Accepts strict pass.generation.site.host declarator)
    (grows : later.generation.generator.body.pool.Grows constants)
    (repeats : Repeats final constants pending pass second) :
    ∃ behind, second.run strict statements = (.ok (), behind) ∧
      Repeats final constants (pendingBehind pending (Stmt.partsAll statements)) later behind := by
  induction runs generalizing pending second with
  | nil => exact ⟨second, rfl, repeats⟩
  | cons emits goesOn ih =>
    obtain ⟨clearHere, clearBehind⟩ := clear_append.mp clear
    obtain ⟨acceptsHere, acceptsBehind⟩ := List.forall_mem_append.mp accepts
    rw [← emits.site] at acceptsBehind
    obtain ⟨middle, stepped, repeatsHere⟩ := emits.again (goesOn.leads.trans leads) clearHere
      acceptsHere ((goesOn.grows leads).trans grows) repeats
    obtain ⟨behind, ran, repeatsBehind⟩ :=
      ih leads clearBehind acceptsBehind grows repeatsHere
    refine ⟨behind, ?_, ?_⟩
    · rw [run, stepped]
      exact ran
    · rwa [Stmt.partsAll, pendingBehind_append]

end Pass

/-! ### A text again -/

/-- A pass whose statements succeed gives the fragment of what was generated. -/
theorem Generation.compile_of_run {generation : Generation} {roots : Scope} {allocator : Allocator}
    {source : String} {statements : List Stmt} {pass : Pass}
    (parsed : (Stmt.parse source).1 = .ok statements)
    (adopted : adopt roots allocator = (.ok (), allocator))
    (ran : (generation.opening roots allocator (Stmt.parse source).2).run strict statements =
      (.ok (), pass)) :
    generation.compile strict roots allocator source =
      ({ pass with generation := pass.generation.finish }.fragment, pass.allocator,
        pass.generation.finish) := by
  rcases isParsed : Stmt.parse source with ⟨outcome, declared⟩
  rw [isParsed] at parsed ran
  cases parsed
  unfold opening at ran
  unfold Generation.compile
  rw [isParsed, adopted]
  dsimp only
  rw [ran]

namespace Session

variable {target : Target} {record : MethodRecord} {session opened later : Session} {source : String}
  {fragment : Fragment} {generation : Generation} {statements : List Stmt} {pass : Pass}

/-- A pass whose statements succeed gives the fragment that its body makes. -/
theorem compile_of_run (sound : session.Sound) (alive : session.failed = false)
    (installed : session.hook.installed = some ⟨session.target, generation⟩)
    (parsed : (Stmt.parse source).1 = .ok statements)
    (ran : (generation.opening (.root session.roots) session.allocator (Stmt.parse source).2).run
      session.strict statements = (.ok (), pass))
    (emitting : pass.generation.progress = .emitting)
    (makes : pass.generation.generator.body.Makes fragment)
    (introduced : fragment.introduced = Local.snapshot pass.fresh)
    (maxLocals : fragment.maxLocals = max pass.allocator.count pass.generation.generator.maxLocals) :
    session.compile source = (.ok fragment,
      accept { session with
        allocator := pass.allocator
        hook := ⟨some ⟨session.target, pass.generation.finish⟩⟩ } fragment) := by
  let finished : Pass := { pass with generation := pass.generation.finish }
  have complete : finished.generation.progress = .complete := Generation.complete_finish emitting
  have extracted : finished.fragment = .ok fragment := by
    refine (Pass.fragment_ok complete).mpr ⟨?_, introduced, ?_⟩
    · rwa [Generation.generator_finish]
    · rwa [Generation.generator_finish]
  have passed := Generation.compile_of_run parsed (adopt_of_known sound.inScope) ran
  rw [extracted] at passed
  unfold compile
  rw [alive, if_neg Bool.false_ne_true, Hook.compile_of_installed installed passed]

/-- A pass over an expression gives the fragment of its code, if that can be made and encoded. -/
theorem compile_of_yields {expression : Expr} {place : Position} {exits : LoopExits}
    {generator : Generator} {scope : Scope} {bytes : List UInt8}
    (sound : session.Sound) (alive : session.failed = false)
    (installed : session.hook.installed = some ⟨session.target, generation⟩)
    (parsed : Stmt.parse source = (.ok [.expression expression place], #[]))
    (begins : generation.opening (.root session.roots) session.allocator #[] = pass)
    (yields : Yields ((Stmt.expression expression place).lower generation.site false)
      (pass.generation.generator.reserveLocals session.allocator.count, pass.scope) exits
      (generator, scope))
    (encoded : generator.body.encode = .ok bytes) : ∃ fragment later,
      session.compile source = (.ok fragment, later) ∧ later.body? = some generator.body ∧
        generator.body.Makes fragment := by
  subst begins
  let behind : Pass := ⟨session.allocator, ⟨generation.site, generator, .emitting, 1⟩, scope, []⟩
  have stepped : (generation.opening (.root session.roots) session.allocator #[]).step session.strict
      (.expression expression place) = (.ok (), behind) := Pass.step_of_yields rfl rfl yields
  have ran : (generation.opening (.root session.roots) session.allocator #[]).run session.strict
      [.expression expression place] = (.ok (), behind) := by
    rw [Pass.run, stepped]
    rfl
  let fragment : Fragment := ⟨bytes, Local.snapshot [], max session.allocator.count
    generator.maxLocals, generator.body.maxStack, generator.body.pool, generator.body.lineTable⟩
  have makes : generator.body.Makes fragment := ⟨encoded, rfl, rfl, rfl⟩
  have parsedAll : (Stmt.parse source).1 = .ok [.expression expression place] :=
    congrArg Prod.fst parsed
  have noted : (Stmt.parse source).2 = #[] := congrArg Prod.snd parsed
  rw [← noted] at ran
  exact ⟨fragment, _, compile_of_run sound alive installed parsedAll ran rfl makes rfl rfl, rfl, makes⟩

/-- A pass over the same text begins as one that goes over the statements again. -/
theorem opening_repeats (site : pass.generation.site = generation.site)
    (leads : session.allocator.Leads later.allocator) (fits : later.allocator.Fits)
    (roots : later.roots = session.roots.bindAll fragment.introduced) (declared : Array Declaration) :
    Pass.Repeats later.allocator pass.generation.generator.body.pool
      (· ∈ fragment.introduced.map Local.name)
      (generation.opening (.root session.roots) session.allocator declared)
      (pass.generation.finish.opening (.root later.roots) later.allocator declared) where
  allocator := rfl
  fresh := rfl
  site := (Generation.site_finish _).trans site
  emitting := rfl
  generator := by
    have reserved : (generation.opening (.root session.roots) session.allocator
        declared).generation.generator.raised pass.generation.generator.body.pool
          later.allocator.count =
        (Generator.ofPool generation.site.method generation.generator.body.pool).raised
          pass.generation.generator.body.pool later.allocator.count :=
      Generator.raised_reserveLocals_of_le (leads.count_le fits)
    rw [reserved]
    unfold Generation.opening Generation.begin Generation.reserveLocals Generator.reset
    dsimp only
    rw [Generation.generator_finish, Generation.site_finish, site]
    rfl
  scope := by
    intro name notNew
    unfold Generation.opening
    dsimp only
    have stays : later.roots.find? name = session.roots.find? name := by
      rw [roots]
      refine Table.find?_bindAll fun entry isNew same => notNew ?_
      exact List.mem_map.mpr ⟨entry, isNew, same⟩
    rw [Scope.binding?_declareAll, Scope.binding?_declareAll, Scope.binding?_root,
      Scope.binding?_root, stays]
  fits := fits

/-- **A text that was compiled can be compiled again.** If no local that the first pass introduces is
named in front of the end of its first declaration, the second pass gives the same fragment, except
that it introduces nothing, and it leaves the allocator as it is. -/
theorem compile_again (opens : start target record strict = .ok opened) (sources : List String)
    (compiled : (opened.after sources).compile source = (.ok fragment, later))
    (parsed : (Stmt.parse source).1 = .ok statements)
    (clear : Clear (· ∈ fragment.introduced.map Local.name)
      (Stmt.partsAll statements)) :
    ∃ last, later.compile source = (.ok { fragment with introduced := [] }, last) ∧
      last.allocator = later.allocator := by
  obtain ⟨_, _, sound⟩ := start_adds opens sources
  generalize opened.after sources = session at compiled sound
  obtain ⟨alive, generation, _, pass, generated⟩ := compile_generated sound compiled
  cases generated.parsed.symm.trans parsed
  obtain ⟨fresh, added, soundLater, _, site, _, entries, isSite, isParsed, gives⟩ :=
    compile_adds sound compiled
  cases isParsed.symm.trans parsed
  cases isSite.symm.trans generated.isSite
  have accepted := compile_ok compiled
  have leads : pass.allocator.Leads later.allocator := generated.allocator ▸ .refl _
  have runs := generated.runs (.refl _)
  have atSite : pass.generation.site = generation.site := runs.site
  have repeats := opening_repeats atSite ⟨_, added.allocator⟩ soundLater.fits
    (congrArg Session.roots accepted) (Stmt.parse source).2
  obtain ⟨behind, ran, again⟩ := runs.again leads clear gives.settled_of_mem (.refl _) repeats
  have same : behind.generation.generator =
      pass.generation.generator.reserveLocals later.allocator.count := again.generator
  have notFailed : later.failed = false := (congrArg Session.failed accepted).trans alive
  have installed : later.hook.installed = some ⟨later.target, pass.generation.finish⟩ := by
    rw [generated.hook, added.target]
  rw [← added.strict] at ran
  refine ⟨_, compile_of_run soundLater notFailed installed parsed ran again.emitting ?_ ?_ ?_, ?_⟩
  · rw [same]
    exact ⟨generated.makes.code, generated.makes.pool, generated.makes.maxStack, generated.makes.lines⟩
  · rw [again.fresh]
    exact List.mergeSort_nil.symm
  · rw [same, again.allocator, generated.maxLocals, generated.allocator, ← UInt16.toNat_inj]
    simp only [Generator.reserveLocals, UInt16.toNat_max]
    omega
  · exact again.allocator

/-- The second time the variables `y` and `z` have their slots. -/
theorem compile_again_declaring : ∃ opened fragment later last,
    start counterTarget counterRecord true = .ok opened ∧
      (opened.after ["int x = count;"]).compile "long y = 3 * x; { y++; int z = x; x = z; }" =
        (.ok fragment, later) ∧
      fragment.introduced.map Local.name = ["y", "z"] ∧
      later.compile "long y = 3 * x; { y++; int z = x; x = z; }" =
        (.ok { fragment with introduced := [] }, last) := by
  have opening : ∃ opened, start counterTarget counterRecord true = .ok opened ∧
      (let passed := (opened.after ["int x = count;"]).compile
        "long y = 3 * x; { y++; int z = x; x = z; }"
       passed.1.isOk && decide (passed.2.allocator.known.map Local.name =
        (opened.after ["int x = count;"]).allocator.known.map Local.name ++ ["y", "z"])) = true :=
    opens_of_any (by decide +kernel)
  have cleared : (Stmt.parse "long y = 3 * x; { y++; int z = x; x = z; }").1.toOption.any
      (fun statements => Clear (· ∈ ["y", "z"]) (Stmt.partsAll statements)) = true := by
    decide +kernel
  obtain ⟨opened, opens, holds⟩ := opening
  obtain ⟨succeeds, known⟩ := Bool.and_eq_true_iff.mp holds
  rcases compiled : (opened.after ["int x = count;"]).compile
    "long y = 3 * x; { y++; int z = x; x = z; }" with ⟨_ | fragment, later⟩
  · rw [compiled] at succeeds
    cases succeeds
  · rcases parsed : (Stmt.parse "long y = 3 * x; { y++; int z = x; x = z; }").1 with _ | statements
    · rw [parsed] at cleared
      cases cleared
    · obtain ⟨_, _, sound⟩ := start_adds opens ["int x = count;"]
      obtain ⟨fresh, added, _, introduces, _⟩ := compile_adds sound compiled
      have names : fragment.introduced.map Local.name = ["y", "z"] := by
        have isKnown := of_decide_eq_true known
        rw [compiled, added.allocator.known, List.map_append] at isKnown
        rw [introduces]
        exact List.append_cancel_left isKnown
      rw [parsed] at cleared
      have clear : Clear (· ∈ ["y", "z"]) (Stmt.partsAll statements) := of_decide_eq_true cleared
      rw [← names] at clear
      obtain ⟨last, again, _⟩ := compile_again opens ["int x = count;"] compiled parsed clear
      exact ⟨opened, fragment, later, last, opens, compiled, names, again⟩

end Session

end MethodPatch
