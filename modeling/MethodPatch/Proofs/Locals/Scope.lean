/-
**Binding locals in a scope.**

Locals are bound one after the other in the table of a scope. What is bound there afterwards was
there before or is one of them. Declarations that are not settled yet bind nothing.

* `Table.bindAll`, `Scope.bindAll`: several locals, bound in order;
* `Table.find?_bindAll`, `Table.bind_find?_bindAll`: what names stand for then;
* `Scope.binding?_declareAll`: in front of declarations names stand for what they stood for;
* `Scope.binding?_bind`: a name that is bound in a scope.
-/

import MethodPatch.Locals.Basic

namespace MethodPatch

/-- The slot and the type that a local is bound to. -/
def Local.binding (entry : Local) : Slot × FieldType := (entry.slot, entry.type)

namespace Table

variable {table : Table} {name : String} {symbol : Symbol}

/-- A table with locals bound in order. -/
def bindAll (table : Table) (entries : List Local) : Table :=
  entries.foldl (fun table entry => table.bind entry.name entry.slot entry.type) table

theorem mem_insert {inserted : Symbol} (isIn : symbol ∈ table.insert inserted) :
    symbol = inserted ∨ symbol ∈ table := by
  induction table with
  | nil => exact .inl (List.mem_singleton.mp isIn)
  | cons first rest ih =>
    rw [insert] at isIn
    split at isIn
    · rcases List.mem_cons.mp isIn with here | isIn
      · exact .inl here
      · exact .inr (List.mem_cons_of_mem _ isIn)
    · rcases List.mem_cons.mp isIn with rfl | isIn
      · exact .inr List.mem_cons_self
      · exact (ih isIn).imp_right (List.mem_cons_of_mem _)

theorem mem_bindAll {entries : List Local} (isIn : symbol ∈ table.bindAll entries) :
    symbol ∈ table ∨
      ∃ entry ∈ entries, symbol.name = entry.name ∧ symbol.binding? = some (entry.slot, entry.type) := by
  induction entries generalizing table with
  | nil => exact .inl isIn
  | cons first rest ih =>
    rcases ih isIn with isBound | ⟨entry, isRest, bound⟩
    · rcases mem_insert isBound with rfl | isOld
      · exact .inr ⟨first, List.mem_cons_self, rfl, rfl⟩
      · exact .inl isOld
    · exact .inr ⟨entry, List.mem_cons_of_mem _ isRest, bound⟩

theorem find?_bindAll {entries : List Local} (others : ∀ entry ∈ entries, entry.name ≠ name) :
    (table.bindAll entries).find? name = table.find? name := by
  induction entries generalizing table with
  | nil => rfl
  | cons first rest ih =>
    refine (ih fun entry isIn => others entry (List.mem_cons_of_mem _ isIn)).trans ?_
    exact (find?_insert ..).trans (if_neg (others first List.mem_cons_self))

/-- Names of new locals stand for these, and other names for what they stood for. -/
theorem bind_find?_bindAll {entries : List Local} (distinct : (entries.map Local.name).Nodup)
    (table : Table) (name : String) :
    ((table.bindAll entries).find? name).bind Symbol.binding? =
      ((entries.find? fun entry => entry.name = name).map Local.binding).or
        ((table.find? name).bind Symbol.binding?) := by
  induction entries generalizing table with
  | nil => rfl
  | cons first rest ih =>
    obtain ⟨different, distinct⟩ := List.nodup_cons.mp distinct
    refine (ih distinct (table.bind first.name first.slot first.type)).trans ?_
    have inserted : (table.bind first.name first.slot first.type).find? name =
        if first.name = name then some _ else table.find? name := find?_insert ..
    by_cases same : first.name = name
    · have noneBehind : rest.find? (fun entry => entry.name = name) = none := by
        refine List.find?_eq_none.mpr fun entry isRest isNamed => different ?_
        rw [same, ← of_decide_eq_true isNamed]
        exact List.mem_map_of_mem isRest
      rw [List.find?_cons_of_pos (by simpa using same), noneBehind, inserted, if_pos same]
      rfl
    · rw [List.find?_cons_of_neg (by simpa using same), inserted, if_neg same]

theorem name_of_find? (found : table.find? name = some symbol) : symbol.name = name := by
  simpa using List.find?_some found

end Table

namespace Scope

/-- A scope with locals bound in order in its own table. -/
def bindAll (scope : Scope) (entries : List Local) : Scope :=
  { scope with own := scope.own.bindAll entries }

theorem bindAll_append (scope : Scope) (first second : List Local) :
    scope.bindAll (first ++ second) = (scope.bindAll first).bindAll second := by
  unfold bindAll Table.bindAll
  rw [List.foldl_append]

/-- A look-up stops at the innermost variable if that is bound. -/
theorem bound?_of_find? {scope : Scope} {name : String} {symbol : Symbol}
    (found : scope.find? name = some symbol) (isBound : symbol.binding?.isSome) :
    scope.bound? name = some symbol := by
  unfold find? at found
  unfold bound?
  generalize scope.tables = tables at found ⊢
  induction tables with
  | nil => cases found
  | cons first rest ih =>
    rw [List.findSome?_cons] at found ⊢
    cases here : first.find? name with
    | none =>
      rw [here] at found
      exact ih found
    | some nearest =>
      rw [here] at found
      cases found
      rw [Option.filter_some, if_pos isBound]

theorem binding?_root (table : Table) (name : String) :
    (root table).binding? name = (table.find? name).bind Symbol.binding? := by
  unfold Scope.binding? bound? root tables
  cases found : table.find? name with
  | none => simp [found]
  | some symbol => cases bound : symbol.binding? <;> simp [found, bound, Option.filter]

/-- Declarations change the innermost table, and add only variables that are not bound. -/
theorem declareAll_tables (scope : Scope) (declared : Array Declaration) :
    (scope.declareAll declared).outer = scope.outer ∧
      ∀ symbol ∈ (scope.declareAll declared).own, symbol ∈ scope.own ∨ symbol.binding? = none := by
  unfold declareAll
  rw [← Array.foldl_toList]
  induction declared.toList generalizing scope with
  | nil => exact ⟨rfl, fun _ isIn => .inl isIn⟩
  | cons first rest ih =>
    obtain ⟨outer, others⟩ := ih (scope.declare (.declared first.name first.type))
    refine ⟨outer, fun symbol isIn => ?_⟩
    rcases others symbol isIn with isOwn | isFree
    · rcases Table.mem_insert isOwn with rfl | isOld
      · exact .inr rfl
      · exact .inl isOld
    · exact .inr isFree

/-- **In front of declarations names stand for what they stood for** in the surrounding scope. -/
theorem binding?_declareAll (scope : Scope) (declared : Array Declaration) (name : String) :
    (scope.inside.declareAll declared).binding? name = scope.binding? name := by
  obtain ⟨outer, others⟩ := declareAll_tables scope.inside declared
  have free : ((scope.inside.declareAll declared).own.find? name).filter
      (fun symbol => symbol.binding?.isSome) = none := by
    rw [Option.filter_eq_none_iff]
    intro symbol found isBound
    rcases others symbol (List.mem_of_find?_eq_some found) with isOld | isFree
    · cases isOld
    · rw [isFree] at isBound
      cases isBound
  unfold binding? bound? tables
  rw [List.findSome?_cons, free, outer]
  rfl

/-- A name that is bound stands for its slot and its type, and other names for what they stood for. -/
theorem binding?_bind (scope : Scope) (bound : String) (slot : Slot) (type : FieldType)
    (name : String) :
    (scope.bind bound slot type).binding? name =
      if bound = name then some (slot, type) else scope.binding? name := by
  unfold binding? bound? tables
  have inserted : (scope.own.bind bound slot type).find? name =
      if bound = name then some _ else scope.own.find? name := Table.find?_insert ..
  rw [List.findSome?_cons, List.findSome?_cons]
  dsimp only [Scope.bind]
  rw [inserted]
  by_cases same : bound = name
  · rw [if_pos same, if_pos same]
    rfl
  · rw [if_neg same, if_neg same]

end Scope

end MethodPatch
