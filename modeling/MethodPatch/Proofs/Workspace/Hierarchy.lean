/-
**What is reached from a class.**

One class is derived from another if a chain of superclasses and interfaces leads from the one to the
other, and only classes that the workspace has lead any further. Both walks take a class out of those
that are left when they get there. Nothing is lost by that: what the class leads to is reached from its
supertypes without coming back to it.

* `Workspace.Inherits`, `Workspace.IsDerived`: chains of superclasses and interfaces;
* `Workspace.reached_cons_some`, `Workspace.reached_cons_none`: what one step of a walk leaves to reach;
* `Workspace.mem_reach`, `Workspace.search_eq_true_iff`, `Workspace.search_eq_false_iff`: both walks;
* `Workspace.derivation_exact`: **both walks find what chains lead to**, in every workspace.
-/

import Mathlib.Data.List.Nodup
import Mathlib.Logic.Relation
import MethodPatch.Workspace.Hierarchy

namespace MethodPatch.Workspace

/-! ### Chains -/

/-- The class of a name, the first one in a list, has another class as its superclass or among its
interfaces. -/
def Derives (left : List ClassEntry) (name next : String) : Prop :=
  ∃ entry, left.find? (fun entry => entry.name = name) = some entry ∧ next ∈ entry.supertypes

/-- A name is one of several, or a chain of classes from a list leads to it from one of them. -/
def Reached (left : List ClassEntry) (starts : List String) (name : String) : Prop :=
  ∃ start ∈ starts, Relation.ReflTransGen (Derives left) start name

/-- A chain of classes of the workspace leads from one name to another. -/
def Inherits (workspace : Workspace) : String → String → Prop :=
  Relation.ReflTransGen (Derives workspace.classes)

/-- A class is derived from another. All classes are derived from `Object`. -/
def IsDerived (workspace : Workspace) (className ancestor : String) : Prop :=
  ancestor = className ∨ ancestor = objectClass ∨ workspace.Inherits className ancestor

variable {workspace : Workspace} {left : List ClassEntry} {entry : ClassEntry}
  {starts more queue stack rest : List String} {name next other start className ancestor : String}
  {complete : Bool}

/-- Taking the classes of a name out changes what that name stands for, and nothing else. -/
theorem find?_without (name other : String) (left : List ClassEntry) :
    (without name left).find? (fun entry => entry.name = other) =
      if other = name then none else left.find? fun entry => entry.name = other := by
  rw [without, List.find?_filter]
  split
  · next same =>
    refine List.find?_eq_none.mpr fun entry _ => ?_
    simp [same]
  · next differs =>
    congr 1
    funext entry
    by_cases named : entry.name = other
    · simp [named, differs]
    · simp [named]

theorem name_of_first (found : left.find? (fun entry => entry.name = name) = some entry) :
    entry.name = name := by
  simpa using List.find?_some found

theorem Derives.of_without (derives : Derives (without name left) start next) :
    Derives left start next := by
  obtain ⟨entry, found, isSuper⟩ := derives
  rw [find?_without] at found
  split at found
  · cases found
  · exact ⟨entry, found, isSuper⟩

theorem Derives.without (derives : Derives left start next) (differs : start ≠ name) :
    Derives (without name left) start next := by
  obtain ⟨entry, found, isSuper⟩ := derives
  refine ⟨entry, ?_, isSuper⟩
  rw [find?_without, if_neg differs]
  exact found

/-- Nothing but itself is reached from a name without a class. -/
theorem eq_of_missing (missing : left.find? (fun entry => entry.name = name) = none)
    (chain : Relation.ReflTransGen (Derives left) name other) : other = name := by
  rcases Relation.ReflTransGen.cases_head chain with same | ⟨next, ⟨entry, found, _⟩, _⟩
  · exact same.symm
  · cases missing.symm.trans found

/-- A chain either avoids a class, or goes on from one of its supertypes without coming back. -/
theorem chain_without (found : left.find? (fun entry => entry.name = name) = some entry)
    (chain : Relation.ReflTransGen (Derives left) start other) :
    Relation.ReflTransGen (Derives (without name left)) start other ∨ other = name ∨
      Reached (without name left) entry.supertypes other := by
  induction chain using Relation.ReflTransGen.head_induction_on with
  | refl => exact .inl .refl
  | @head first second derives _ ih =>
    rcases ih with avoids | same | behind
    · by_cases isHere : first = name
      · obtain ⟨class_, isClass, isSuper⟩ := derives
        rw [isHere] at isClass
        cases found.symm.trans isClass
        exact .inr (.inr ⟨second, isSuper, avoids⟩)
      · exact .inl (avoids.head (derives.without isHere))
    · exact .inr (.inl same)
    · exact .inr (.inr behind)

/-! ### What is reached -/

theorem reached_append :
    Reached left (starts ++ more) name ↔ Reached left starts name ∨ Reached left more name := by
  simp only [Reached, List.mem_append, or_and_right, exists_or]

theorem reached_reverse : Reached left starts.reverse name ↔ Reached left starts name := by
  simp only [Reached, List.mem_reverse]

theorem reached_singleton :
    Reached left [start] name ↔ Relation.ReflTransGen (Derives left) start name := by
  simp only [Reached, List.mem_singleton, exists_eq_left]

theorem Reached.of_without (reached : Reached (without name left) starts other) :
    Reached left starts other := by
  obtain ⟨start, isStart, chain⟩ := reached
  exact ⟨start, isStart, Relation.ReflTransGen.mono (fun _ _ => Derives.of_without) _ _ chain⟩

/-- A name without a class leads nowhere. -/
theorem reached_cons_none (missing : left.find? (fun entry => entry.name = name) = none) :
    Reached left (name :: rest) other ↔ other = name ∨ Reached left rest other := by
  constructor
  · rintro ⟨start, isStart, chain⟩
    rcases List.mem_cons.mp isStart with rfl | isRest
    · exact .inl (eq_of_missing missing chain)
    · exact .inr ⟨start, isRest, chain⟩
  · rintro (rfl | ⟨start, isRest, chain⟩)
    · exact ⟨other, List.mem_cons_self, .refl⟩
    · exact ⟨start, List.mem_cons_of_mem _ isRest, chain⟩

/-- A class that is taken out leaves its supertypes to go on from. -/
theorem reached_cons_some (found : left.find? (fun entry => entry.name = name) = some entry) :
    Reached left (name :: rest) other ↔
      other = name ∨ Reached (without name left) rest other ∨
        Reached (without name left) entry.supertypes other := by
  have gone : (without name left).find? (fun entry => entry.name = name) = none := by
    rw [find?_without, if_pos rfl]
  constructor
  · rintro ⟨start, isStart, chain⟩
    rcases chain_without found chain with avoids | same | behind
    · rcases List.mem_cons.mp isStart with rfl | isRest
      · exact .inl (eq_of_missing gone avoids)
      · exact .inr (.inl ⟨start, isRest, avoids⟩)
    · exact .inl same
    · exact .inr (.inr behind)
  · rintro (rfl | here | behind)
    · exact ⟨other, List.mem_cons_self, .refl⟩
    · obtain ⟨start, isRest, chain⟩ := here.of_without
      exact ⟨start, List.mem_cons_of_mem _ isRest, chain⟩
    · obtain ⟨start, isSuper, chain⟩ := behind.of_without
      exact ⟨name, List.mem_cons_self, chain.head ⟨entry, found, isSuper⟩⟩

/-! ### The walk in breadth -/

/-- **The walk finds the classes that are reached**, and of each name the first one. -/
theorem mem_reach : entry ∈ reach left queue ↔
    left.find? (fun other => other.name = entry.name) = some entry ∧
      Reached left queue entry.name := by
  fun_induction reach left queue with
  | case1 => simp [Reached]
  | case2 left name rest missing ih =>
    rw [ih, reached_cons_none missing]
    constructor
    · rintro ⟨found, reached⟩
      exact ⟨found, .inr reached⟩
    · rintro ⟨found, same | reached⟩
      · rw [same, missing] at found
        cases found
      · exact ⟨found, reached⟩
  | case3 left name rest first found ih =>
    rw [List.mem_cons, ih, find?_without, reached_cons_some found, reached_append]
    by_cases same : entry.name = name
    · rw [if_pos same, same]
      constructor
      · rintro (rfl | ⟨gone, _⟩)
        · exact ⟨found, .inl rfl⟩
        · cases gone
      · rintro ⟨isEntry, _⟩
        cases found.symm.trans isEntry
        exact .inl rfl
    · rw [if_neg same]
      constructor
      · rintro (rfl | ⟨isEntry, reached⟩)
        · exact absurd (name_of_first found) same
        · exact ⟨isEntry, .inr reached⟩
      · rintro ⟨isEntry, isName | reached⟩
        · exact absurd isName same
        · exact .inr ⟨isEntry, reached⟩

/-- The walk finds no name twice. -/
theorem nodup_reach (left : List ClassEntry) (queue : List String) :
    ((reach left queue).map ClassEntry.name).Nodup := by
  fun_induction reach left queue with
  | case1 => exact .nil
  | case2 left name rest missing ih => exact ih
  | case3 left name rest first found ih =>
    refine List.nodup_cons.mpr ⟨fun again => ?_, ih⟩
    obtain ⟨entry, isReached, same⟩ := List.mem_map.mp again
    have isLeft := (mem_reach.mp isReached).1
    rw [same, find?_without, if_pos (name_of_first found)] at isLeft
    cases isLeft

/-- The walk begins with the class of the first name. -/
theorem head?_reach (found : left.find? (fun entry => entry.name = name) = some entry) :
    (reach left (name :: rest)).head? = some entry := by
  rw [reach]
  split
  · next missing => cases missing.symm.trans found
  · next first isFirst =>
    cases isFirst.symm.trans found
    rfl

theorem mem_hierarchy : entry ∈ workspace.hierarchy className ↔
    workspace.find? entry.name = some entry ∧
      (workspace.Inherits className entry.name ∨ entry.name = objectClass) := by
  have isReached : entry ∈ reach workspace.classes [className] ↔
      workspace.find? entry.name = some entry ∧ workspace.Inherits className entry.name := by
    rw [mem_reach, reached_singleton]
    exact Iff.rfl
  unfold hierarchy
  dsimp only
  split
  · next hasObject =>
    obtain ⟨object, isObject, named⟩ := List.any_eq_true.mp hasObject
    have isNamed := of_decide_eq_true named
    rw [isReached]
    refine and_congr_right fun found => ⟨.inl, fun derived => derived.elim id fun same => ?_⟩
    rw [same, ← isNamed]
    exact reached_singleton.mp (mem_reach.mp isObject).2
  · have isLast : entry ∈ (workspace.find? objectClass).toList ↔
        workspace.find? entry.name = some entry ∧ entry.name = objectClass := by
      rw [Option.mem_toList]
      constructor
      · intro found
        have named := name_of_first found
        exact ⟨named.symm ▸ found, named⟩
      · rintro ⟨found, named⟩
        exact named ▸ found
    rw [List.mem_append, isReached, isLast, and_or_left]

theorem nodup_hierarchy (workspace : Workspace) (className : String) :
    ((workspace.hierarchy className).map ClassEntry.name).Nodup := by
  unfold hierarchy
  dsimp only
  split
  · exact nodup_reach ..
  · next noObject =>
    rw [List.map_append, List.nodup_append]
    refine ⟨nodup_reach .., ?_, ?_⟩
    · cases workspace.find? objectClass with
      | none => exact .nil
      | some object => exact List.nodup_singleton _
    · rintro name isReached other isLast rfl
      obtain ⟨object, isObject, rfl⟩ := List.mem_map.mp isLast
      obtain ⟨entry, isEntry, same⟩ := List.mem_map.mp isReached
      have named := name_of_first (Option.mem_toList.mp isObject)
      refine noObject (List.any_eq_true.mpr ⟨entry, isEntry, decide_eq_true ?_⟩)
      rw [same, named]

theorem head?_hierarchy (found : workspace.find? className = some entry) :
    (workspace.hierarchy className).head? = some entry := by
  have first : (reach workspace.classes [className]).head? = some entry := head?_reach found
  unfold hierarchy
  dsimp only
  split
  · exact first
  · rw [List.head?_append, first]
    rfl

/-! ### The search in depth -/

/-- **The search finds what is reached.** -/
theorem search_eq_true_iff :
    workspace.search ancestor left stack complete = some true ↔ Reached left stack ancestor := by
  fun_induction search workspace ancestor left stack complete with
  | case1 | case2 => simp [Reached]
  | case3 left complete rest =>
    exact iff_of_true rfl ⟨ancestor, List.mem_cons_self, .refl⟩
  | case4 left complete name rest differs missing ih =>
    rw [ih, reached_cons_none missing, or_iff_right (Ne.symm differs)]
  | case5 left complete name rest differs entry found ih =>
    rw [ih, reached_cons_some found, or_iff_right (Ne.symm differs), reached_append,
      reached_reverse, or_comm]

/-- **The search excludes what is not reached**, provided that it has met no name without a class. -/
theorem search_eq_false_iff (within : ∀ entry ∈ left, (workspace.find? entry.name).isSome = true) :
    workspace.search ancestor left stack complete = some false ↔
      ¬ Reached left stack ancestor ∧ complete = true ∧
        ∀ name, Reached left stack name → (workspace.find? name).isSome = true := by
  fun_induction search workspace ancestor left stack complete with
  | case1 | case2 => simp_all [Reached]
  | case3 left complete rest =>
    refine iff_of_false nofun fun excluded => excluded.1 ?_
    exact ⟨ancestor, List.mem_cons_self, .refl⟩
  | case4 left complete name rest differs missing ih =>
    rw [ih within]
    simp only [reached_cons_none missing, Bool.and_eq_true, Ne.symm differs, false_or, forall_eq_or_imp,
      and_assoc]
  | case5 left complete name rest differs entry found ih =>
    have isKnown : (workspace.find? name).isSome = true := by
      rw [← name_of_first found]
      exact within entry (List.mem_of_find?_eq_some found)
    have stillWithin : ∀ entry ∈ without name left, (workspace.find? entry.name).isSome = true :=
      fun entry isIn => within entry (List.mem_filter.mp isIn).1
    rw [ih stillWithin]
    simp only [reached_cons_some found, reached_append, reached_reverse, Ne.symm differs, false_or,
      forall_eq_or_imp, isKnown, true_and, or_comm]

theorem isSubclass?_eq_true_iff :
    workspace.isSubclass? className ancestor = some true ↔ workspace.IsDerived className ancestor := by
  unfold isSubclass?
  split
  · next plain => exact iff_of_true rfl (plain.imp Eq.symm .inl)
  · next plain =>
    rw [not_or] at plain
    rw [search_eq_true_iff, reached_singleton, IsDerived, or_iff_right (Ne.symm plain.1),
      or_iff_right plain.2]
    exact Iff.rfl

theorem isSubclass?_eq_false_iff : workspace.isSubclass? className ancestor = some false ↔
    ¬ workspace.IsDerived className ancestor ∧
      ∀ name, workspace.Inherits className name → (workspace.find? name).isSome = true := by
  have within : ∀ entry ∈ workspace.classes, (workspace.find? entry.name).isSome = true :=
    fun entry isIn => List.find?_isSome.mpr ⟨entry, isIn, decide_eq_true rfl⟩
  unfold isSubclass?
  split
  · next plain => exact iff_of_false nofun fun excluded => excluded.1 (plain.imp Eq.symm .inl)
  · next plain =>
    rw [not_or] at plain
    simp only [search_eq_false_iff within, reached_singleton, IsDerived, Ne.symm plain.1, plain.2,
      false_or, true_and]
    exact Iff.rfl

theorem isSubclass?_eq_none_iff : workspace.isSubclass? className ancestor = none ↔
    ¬ workspace.IsDerived className ancestor ∧
      ∃ name, workspace.Inherits className name ∧ workspace.find? name = none := by
  have isUnknown : (∃ name, workspace.Inherits className name ∧ workspace.find? name = none) ↔
      ¬ ∀ name, workspace.Inherits className name → (workspace.find? name).isSome = true := by
    simp only [not_forall, Bool.not_eq_true, Option.isSome_eq_false_iff, Option.isNone_iff_eq_none,
      exists_prop]
  rw [isUnknown]
  constructor
  · intro isNone
    have notDerived : ¬ workspace.IsDerived className ancestor := by
      rw [← isSubclass?_eq_true_iff, isNone]
      exact nofun
    refine ⟨notDerived, fun known => ?_⟩
    have isFalse := isSubclass?_eq_false_iff.mpr ⟨notDerived, known⟩
    rw [isNone] at isFalse
    cases isFalse
  · rintro ⟨notDerived, unknown⟩
    rcases answer : workspace.isSubclass? className ancestor with _ | _ | _
    · rfl
    · exact absurd (isSubclass?_eq_false_iff.mp answer).2 unknown
    · exact absurd (isSubclass?_eq_true_iff.mp answer) notDerived

/-- **Both walks find what chains of superclasses and interfaces lead to**, whatever cycles, repeated
names and missing classes the workspace has. A class is known to be derived from another if it is; it
is known not to be if all names that chains lead to are known; otherwise nothing is known. The
hierarchy of a class has each class that it is derived from once, itself first. So of the classes of
the workspace it has those that the class is known to be derived from. -/
theorem derivation_exact (workspace : Workspace) (className : String) :
    (∀ ancestor,
      (workspace.isSubclass? className ancestor = some true ↔
        workspace.IsDerived className ancestor) ∧
      (workspace.isSubclass? className ancestor = some false ↔
        ¬ workspace.IsDerived className ancestor ∧
          ∀ name, workspace.Inherits className name → (workspace.find? name).isSome = true) ∧
      (workspace.isSubclass? className ancestor = none ↔
        ¬ workspace.IsDerived className ancestor ∧
          ∃ name, workspace.Inherits className name ∧ workspace.find? name = none)) ∧
    ((workspace.hierarchy className).map ClassEntry.name).Nodup ∧
    (∀ entry, entry ∈ workspace.hierarchy className ↔
      workspace.find? entry.name = some entry ∧
        (workspace.Inherits className entry.name ∨ entry.name = objectClass)) ∧
    (∀ entry ∈ workspace.find? className, (workspace.hierarchy className).head? = some entry) ∧
    ∀ ancestor, ∀ entry ∈ workspace.find? ancestor,
      (workspace.isSubclass? className ancestor = some true ↔
        entry ∈ workspace.hierarchy className) := by
  refine ⟨fun ancestor => ⟨isSubclass?_eq_true_iff, isSubclass?_eq_false_iff,
    isSubclass?_eq_none_iff⟩, nodup_hierarchy .., fun entry => mem_hierarchy,
    fun entry => head?_hierarchy, fun ancestor entry found => ?_⟩
  have named := name_of_first found
  rw [isSubclass?_eq_true_iff, mem_hierarchy, named, and_iff_right (Option.mem_def.mp found)]
  constructor
  · rintro (rfl | isObject | inherits)
    · exact .inl .refl
    · exact .inr isObject
    · exact .inl inherits
  · rintro (inherits | isObject)
    · exact .inr (.inr inherits)
    · exact .inr (.inl isObject)

/-- Two classes that extend each other. The first one is declared twice, and the second one implements
an interface that is missing. -/
def circular : Workspace where
  primary :=
    { name := "app"
      classes :=
        [{ Platform.classOf "Left" [] with parent := some "Right" },
          { Platform.classOf "Right" [] with parent := some "Left", interfaces := ["Missing"] },
          Platform.classOf "Left" []] }
  libraries := []

/-- Both walks come to an end on the cycle. Of a class that is not found nothing is known, since it may
be behind the missing interface. -/
theorem derivation_exact_circular :
    circular.isSubclass? "Left" "Right" = some true ∧ circular.IsDerived "Left" "Right" ∧
      circular.isSubclass? "Left" "Other" = none ∧ ¬ circular.IsDerived "Left" "Other" ∧
      (circular.hierarchy "Left").map ClassEntry.name = ["Left", "Right", objectClass] ∧
      ∃ entry ∈ circular.find? "Right", entry ∈ circular.hierarchy "Left" := by
  obtain ⟨known, _, _, _, agree⟩ := derivation_exact circular "Left"
  have derived : circular.isSubclass? "Left" "Right" = some true := by decide +kernel
  have unknown : circular.isSubclass? "Left" "Other" = none := by decide +kernel
  have declared : (circular.find? "Right").isSome = true := by decide +kernel
  obtain ⟨entry, found⟩ := Option.isSome_iff_exists.mp declared
  exact ⟨derived, (known "Right").1.mp derived, unknown, ((known "Other").2.2.mp unknown).1,
    by decide +kernel, entry, found, (agree "Right" entry found).mp derived⟩

end MethodPatch.Workspace
