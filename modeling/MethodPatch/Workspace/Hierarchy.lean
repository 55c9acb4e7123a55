/-
**The classes that a class is derived from.**

The edges go from a class to its superclass and its interfaces. They may form cycles, and they may
lead to classes that the workspace does not have. A walk takes a class out of those that are left
when it gets there, and it follows each edge of what is left once at most; this is why it ends, and why
no class comes twice.

* `Workspace.hierarchy`: a class and all that it inherits from, breadth first;
* `Workspace.isSubclass?`: whether a class is derived from another, as far as this is known. The
  search goes depth first and ends where it finds the other class.
-/

import MethodPatch.Total
import MethodPatch.Workspace.Platform

namespace MethodPatch.Workspace

/-- All classes, in the order in which they are looked up. -/
def classes (workspace : Workspace) : List ClassEntry :=
  workspace.primary.classes ++ workspace.libraries.flatMap Resource.classes ++ Platform.all

/-- The class of an internal name. -/
def find? (workspace : Workspace) (name : String) : Option ClassEntry :=
  workspace.classes.find? fun entry => entry.name = name

/-- The classes that are left when those of a name are taken out. -/
def without (name : String) (left : List ClassEntry) : List ClassEntry :=
  left.filter fun entry => entry.name ≠ name

/-- The edges from classes. -/
def edges (left : List ClassEntry) : Nat := total (fun entry => entry.supertypes.length) left

theorem edges_without_le (name : String) (left : List ClassEntry) :
    edges (without name left) ≤ edges left := by
  induction left with
  | nil => exact Nat.le_refl _
  | cons first rest ih =>
    unfold edges without at *
    by_cases same : first.name = name
    · rw [List.filter_cons_of_neg (by simpa using same), total_cons]
      omega
    · rw [List.filter_cons_of_pos (by simpa using same), total_cons, total_cons]
      omega

theorem edges_without {name : String} {left : List ClassEntry} {entry : ClassEntry}
    (found : left.find? (fun entry => entry.name = name) = some entry) :
    entry.supertypes.length + edges (without name left) ≤ edges left := by
  induction left with
  | nil => cases found
  | cons first rest ih =>
    by_cases same : first.name = name
    · rw [List.find?_cons_of_pos (by simpa using same)] at found
      cases found
      have fewer := edges_without_le name rest
      unfold edges without at *
      rw [List.filter_cons_of_neg (by simpa using same), total_cons]
      omega
    · rw [List.find?_cons_of_neg (by simpa using same)] at found
      have fewer := ih found
      unfold edges without at *
      rw [List.filter_cons_of_pos (by simpa using same), total_cons, total_cons]
      omega

/-- The classes reached from names by way of superclasses and interfaces, each at most once. Names
of which no class is left are passed over. -/
def reach (left : List ClassEntry) (queue : List String) : List ClassEntry :=
  match queue with
  | [] => []
  | name :: rest =>
    match _found : left.find? (fun entry => entry.name = name) with
    | none => reach left rest
    | some entry => entry :: reach (without name left) (rest ++ entry.supertypes)
termination_by edges left + queue.length
decreasing_by
  · exact Nat.lt_succ_self _
  · have fewer := edges_without _found
    simp only [List.length_append, List.length_cons]
    omega

/-- A class and the classes it is derived from, each once, and `Object` last if it is not among
them: interfaces have its members too. -/
def hierarchy (workspace : Workspace) (owner : String) : List ClassEntry :=
  let reached := reach workspace.classes [owner]
  if reached.any fun entry => entry.name = objectClass then reached
  else reached ++ (workspace.find? objectClass).toList

/-- Whether a class is reached from names on a stack. Of the supertypes of a class the last one is on
top. `complete` says whether all names so far were known; if not, a class that is not found may be
behind one of the others. -/
def search (workspace : Workspace) (ancestor : String) (left : List ClassEntry)
    (stack : List String) (complete : Bool) : Option Bool :=
  match stack with
  | [] => if complete then some false else none
  | name :: rest =>
    if name = ancestor then some true
    else
      match _found : left.find? (fun entry => entry.name = name) with
      | none => search workspace ancestor left rest (complete && (workspace.find? name).isSome)
      | some entry =>
        search workspace ancestor (without name left) (entry.supertypes.reverse ++ rest) complete
termination_by edges left + stack.length
decreasing_by
  · exact Nat.lt_succ_self _
  · have fewer := edges_without _found
    simp only [List.length_append, List.length_reverse, List.length_cons]
    omega

/-- Whether a class is, extends or implements another. This is not known if a class that may stand
between the two is not. -/
def isSubclass? (workspace : Workspace) (className ancestor : String) : Option Bool :=
  if className = ancestor ∨ ancestor = objectClass then some true
  else workspace.search ancestor workspace.classes [className] true

end MethodPatch.Workspace
