/-
**What declared variables are bound to.**

The allocator settles the slot and the type of a declared variable, and the code of the declaration
binds its name to them. The type takes the way through its name in source text, so it arrives there
if and only if its name is legible; the slot always does.

* `Declarator.binds_settle`: what a declarator with a local is bound to;
* `Pass.place_agrees`: **allocator and scope agree exactly on legible types**;
* `Pass.attempt_illegible`: a class with the name `int` is taken for the type `int`.
-/

import MethodPatch.Proofs.Emission.Binds
import MethodPatch.Proofs.Patch.Pass
import MethodPatch.Proofs.Types.SourceName

namespace MethodPatch

/-! ### A variable with its local -/

/-- A name is bound to a local but for its type, which is right if and only if it is legible. -/
structure Local.Reaches (entry bound : Local) : Prop where
  name : bound.name = entry.name
  slot : bound.slot = entry.slot
  type : bound.type = entry.type ↔ entry.type.IsLegible

theorem Local.Reaches.eq_iff {entry bound : Local} (reaches : entry.Reaches bound) :
    bound = entry ↔ entry.type.IsLegible := by
  rw [← reaches.type]
  refine ⟨congrArg Local.type, fun same => ?_⟩
  cases bound
  cases entry
  cases reaches.name
  cases reaches.slot
  cases same
  rfl

/-- **A declarator with a local is bound to its slot**, and to its type if that is legible. -/
theorem Declarator.binds_settle {host : Host} {declarator : Declarator} {entry bound : Local}
    (named : entry.name = declarator.name) (binds : (declarator.settle entry).Binds host bound) :
    entry.Reaches bound := by
  obtain ⟨name, ⟨next, slot⟩, isType⟩ := binds
  refine ⟨name.trans named.symm, slot, ?_⟩
  unfold Declarator.fieldType Declarator.settle at isType
  rw [← FieldType.ofSourceName?_sourceName_iff]
  cases read : FieldType.ofSourceName? entry.type.sourceName with
  | none =>
    simp only [read] at isType
    cases isType
  | some type =>
    simp only [read] at isType
    cases isType
    rw [Option.some.injEq]

/-! ### Variables in order -/

variable {after : Allocator} {declared : List Declarator} {entries bound : List Local}

/-- Declarators with their locals go by the names of these. -/
theorem forall₂_settle
    (known : List.Forall₂ (fun declarator entry => after.find? declarator.name = some entry) declared
      entries) :
    List.Forall₂ (fun declarator entry => after.find? declarator.name = some entry ∧
      ∀ host bound, declarator.Binds host bound → entry.Reaches bound)
      (List.zipWith Declarator.settle declared entries) entries := by
  induction known with
  | nil => exact .nil
  | cons found _ ih =>
    refine .cons ⟨found, fun host bound binds => ?_⟩ ih
    exact Declarator.binds_settle (Allocator.name_of_find? found) binds

theorem forall₂_reaches {host : Host} {declarators : List Declarator}
    (reach : List.Forall₂ (fun declarator entry => after.find? declarator.name = some entry ∧
      ∀ host bound, declarator.Binds host bound → entry.Reaches bound) declarators entries)
    (binds : List.Forall₂ (Declarator.Binds host) declarators bound) :
    List.Forall₂ Local.Reaches entries bound := by
  induction reach generalizing bound with
  | nil =>
    cases binds
    exact .nil
  | cons here _ ih =>
    cases binds with
    | cons isBound others => exact .cons (here.2 _ _ isBound) (ih others)

theorem forall₂_reaches_eq_iff (reach : List.Forall₂ Local.Reaches entries bound) :
    bound = entries ↔ ∀ entry ∈ entries, entry.type.IsLegible := by
  induction reach with
  | nil => simp
  | cons here _ ih => rw [List.cons.injEq, ih, here.eq_iff, List.forall_mem_cons]

theorem slots_of_reaches (reach : List.Forall₂ Local.Reaches entries bound) :
    bound.map Local.slot = entries.map Local.slot := by
  induction reach with
  | nil => rfl
  | cons here _ ih => rw [List.map_cons, List.map_cons, here.slot, ih]

/-- Behind a statement of a generation the scope binds the variables that are declared in it. -/
theorem Generation.emit_binds {generation later : Generation} {scope behind : Scope}
    {statement : Stmt} (emitted : generation.emit scope statement = (.ok (), later, behind)) :
    Binds generation.site.host statement.declared scope behind := by
  rw [← Generation.site_inPass generation]
  unfold Generation.emit at emitted
  dsimp only at emitted
  split at emitted
  · next generator bindings isEmitted =>
    cases emitted
    obtain ⟨exits, yields⟩ := emit_eq isEmitted
    exact Stmt.lower_binds statement yields
  · cases emitted

namespace Pass

variable {strict : Bool} {pass middle : Pass} {statement placed : Stmt}

/-- **Allocator and scope agree exactly on legible types.** Each variable that was placed is bound to
the slot of the allocator's local wherever its code is generated, and to the type of this local if
and only if that is legible. Behind a statement that succeeds the scope binds all its variables so. -/
theorem place_agrees (placing : pass.place strict statement = (.ok placed, middle)) :
    ∃ entries,
      List.Forall₂ (fun declarator entry =>
        middle.allocator.find? declarator.name = some entry ∧
          ∀ site start done finish, Yields (declarator.lower site) start done finish →
            ∃ type, finish.2 = start.2.bind declarator.name entry.slot type ∧
              (type = entry.type ↔ entry.type.IsLegible)) placed.declared entries ∧
      ∀ later, pass.attempt strict statement = (.ok (), later) →
        later.allocator = middle.allocator ∧
          ∃ bound, later.scope = pass.scope.bindAll bound ∧
            bound.map Local.slot = entries.map Local.slot ∧
              (bound = entries ↔ ∀ entry ∈ entries, entry.type.IsLegible) := by
  obtain ⟨fresh, _, same, placedAll⟩ := place_run placing
  obtain ⟨entries, gives, declared⟩ := placedAll placed rfl
  have reach := forall₂_settle (gives.settled.imp fun _ _ settled => settled.1)
  rw [← declared] at reach
  refine ⟨entries, reach.imp ?_, ?_⟩
  · rintro declarator entry ⟨found, reaches⟩
    refine ⟨found, fun site start done finish yields => ?_⟩
    obtain ⟨bound, binds, isBound⟩ := Declarator.lower_binds yields
    obtain ⟨_, slot, type⟩ := reaches _ _ binds
    refine ⟨bound.type, ?_, type⟩
    rw [isBound, ← slot, ← binds.name]
    rfl
  · intro later attempted
    unfold attempt at attempted
    rw [placing] at attempted
    obtain ⟨allocator, generation, scope, fresh⟩ := middle
    rcases emitted : (generation.reserveLocals allocator.count).emit scope placed with
      ⟨_ | _, behind, bindings⟩
    · simp only [emitted] at attempted
      cases attempted
    · simp only [emitted] at attempted
      cases attempted
      obtain ⟨bound, binds, isBound⟩ := Generation.emit_binds emitted
      have reached := forall₂_reaches reach binds
      have sameScope : scope = pass.scope := congrArg Pass.scope same
      exact ⟨rfl, bound, sameScope ▸ isBound, slots_of_reaches reached,
        forall₂_reaches_eq_iff reached⟩

end Pass

/-! ### A local that a patch declares again -/

/-- The declaration `Object x;`. -/
def objectDeclaration : Stmt :=
  let origin : Position := ⟨1, 1, 0⟩
  .declare false [⟨"x", ⟨.named "Object", 0, none⟩, none, none, none, origin⟩] origin

/-- A pass over a method with a local `x` of a type in slot 1. -/
def passOver (type : FieldType) : Pass :=
  ⟨⟨2, [⟨"x", 1, type⟩], []⟩, .ofSite .detached .empty, .root [], []⟩

theorem Pass.attempt_eq_of_isOk {strict : Bool} {pass : Pass} {statement : Stmt}
    (succeeds : (pass.attempt strict statement).1.isOk = true) :
    pass.attempt strict statement = (.ok (), (pass.attempt strict statement).2) := by
  rcases attempted : pass.attempt strict statement with ⟨_ | _, later⟩
  · rw [attempted] at succeeds
    cases succeeds
  · rfl

theorem isLegible_shape : (FieldType.object "demo/Shape").IsLegible where
  named := by decide
  undotted := by decide
  begins := by
    rintro first ⟨⟩
    decide
  ends := by
    rintro last ⟨⟩
    decide
  unbracketed := by decide
  unreserved := by decide

/-- A class that is spelled like no word of the language keeps its type. -/
theorem Pass.place_agrees_shape : ∃ placed middle later,
    (passOver (.object "demo/Shape")).place true objectDeclaration = (.ok placed, middle) ∧
      (passOver (.object "demo/Shape")).attempt true objectDeclaration = (.ok (), later) ∧
      later.scope = (passOver (.object "demo/Shape")).scope.bindAll
        [⟨"x", 1, .object "demo/Shape"⟩] := by
  have attempted : (passOver (.object "demo/Shape")).attempt true objectDeclaration = (.ok (), _) :=
    attempt_eq_of_isOk (by decide +kernel)
  have names : ((passOver (.object "demo/Shape")).place true objectDeclaration).1.toOption.map
      (fun placed => placed.declared.map Declarator.name) = some ["x"] := by
    decide +kernel
  have known : ((passOver (.object "demo/Shape")).place true objectDeclaration).2.allocator.find? "x" =
      some ⟨"x", 1, .object "demo/Shape"⟩ := by
    decide +kernel
  rcases placing : (passOver (.object "demo/Shape")).place true objectDeclaration with
    ⟨_ | placed, middle⟩
  · rw [placing] at names
    cases names
  · rw [placing] at names known
    obtain ⟨entries, agrees, behind⟩ := Pass.place_agrees placing
    obtain ⟨declarator, isDeclared, isX⟩ := List.map_eq_singleton_iff.mp (Option.some.inj names)
    rw [isDeclared] at agrees
    cases agrees with
    | cons here others =>
      cases others
      rw [isX, known] at here
      cases here.1
      obtain ⟨_, bound, isBound, _, exactly⟩ := behind _ attempted
      rw [exactly.mpr (by simp [isLegible_shape])] at isBound
      exact ⟨placed, middle, _, rfl, attempted, isBound⟩

/-- **A class with the name of a primitive type is taken for it**: the scope binds the variable to an
`int` where the allocator knows an object. -/
theorem Pass.attempt_illegible : ∃ later,
    (passOver (.object "int")).attempt true objectDeclaration = (.ok (), later) ∧
      later.allocator.find? "x" = some ⟨"x", 1, .object "int"⟩ ∧
      later.scope.binding? "x" = some (1, .int) :=
  ⟨_, attempt_eq_of_isOk (by decide +kernel), by decide +kernel, by decide +kernel⟩

end MethodPatch
