/-
**References between constants.**

A constant refers to others by their indices. The calls that take texts and numbers make the
references themselves, from indices that they were given a moment ago, so every entry of their pools
refers to entries before it, of the kind that a class file asks for. What an index stands for is then
reached through ever earlier entries, and following references without any bound comes to an end.

* `Role`, `Constant.references`: what a constant refers to, and as what;
* `Pool.Settled`, `Pool.Settles.bind`: every entry refers back, and what actions in a row keep of it;
* `Pool.Describes`: what an index stands for, with references followed as far as they go;
* `Pool.Settled.describes`: **in a settled pool an index stands for what its description says**;
* `Pool.references_after`: **references lead back after any calls**, and a member is described by its
  owner, name and descriptor in every pool that grows.
-/

import MethodPatch.Proofs.Constants.Calls

namespace MethodPatch

/-- What a constant is referred to as. -/
inductive Role where
  | text
  | owner
  | nameAndType

/-- The kind of constant that a class file asks for in a role. -/
def Role.admits : Role → Constant → Bool
  | .text, .utf8 _ | .owner, .classRef _ | .nameAndType, .nameAndType _ _ => true
  | _, _ => false

/-- The indices that a constant holds, with their roles. -/
def Constant.references : Constant → List (Role × PoolIndex)
  | .utf8 _ | .integer _ | .float _ | .long _ | .double _ => []
  | .classRef text | .string text => [(.text, text)]
  | .nameAndType name descriptor => [(.text, name), (.text, descriptor)]
  | .field owner member | .method owner member | .interfaceMethod owner member =>
    [(.owner, owner), (.nameAndType, member)]

namespace Pool

/-! ### References that lead back -/

/-- All references of a constant are found among entries, in their roles. -/
def RefersTo (entries : List (Nat × Constant)) (constant : Constant) : Prop :=
  ∀ reference ∈ constant.references,
    ∃ target, (reference.2.toNat, target) ∈ entries ∧ reference.1.admits target = true

/-- Every entry refers to entries before it. -/
def Settled (pool : Pool) : Prop :=
  ∀ before index constant behind, pool.entries = before ++ (index, constant) :: behind →
    RefersTo before constant

theorem settled_ofReserved (count : UInt16) : (ofReserved count).Settled := by
  intro before index constant behind isWhole
  exact absurd isWhole (List.append_ne_nil_of_right_ne_nil _ (List.cons_ne_nil _ _)).symm

theorem Settled.push {pool : Pool} {constant : Constant} (settled : pool.Settled)
    (refers : RefersTo pool.entries constant) : (pool.push constant).Settled := by
  intro before index found behind isWhole
  rw [entries_push] at isWhole
  rcases List.eq_nil_or_concat behind with rfl | ⟨inner, last, rfl⟩
  · obtain ⟨isBefore, isLast⟩ := List.append_inj' isWhole rfl
    obtain ⟨-, rfl⟩ := Prod.mk.inj (List.singleton_inj.mp isLast)
    rwa [← isBefore]
  · rw [List.concat_eq_append, ← List.cons_append, ← List.append_assoc] at isWhole
    exact settled before index found inner (List.append_inj' isWhole rfl).1

/-- An action keeps settled pools settled if something is given of them. -/
def Settles (given : Pool → Prop) (add : Adding PoolIndex) : Prop :=
  ∀ pool : Pool, pool.Fits → given pool → pool.Settled → (add.run.run pool).2.Settled

theorem settles_insert (constant : Constant) :
    Settles (fun pool => RefersTo pool.entries constant) (insert constant) := by
  intro pool _ refers settled
  show (insert constant pool).2.Settled
  unfold insert
  split
  · exact settled
  · split
    · exact settled
    · split
      · exact settled
      · exact settled.push refers

theorem Settles.weaken {given stronger : Pool → Prop} {add : Adding PoolIndex}
    (settles : Settles given add) (implies : ∀ pool, stronger pool → given pool) :
    Settles stronger add :=
  fun pool fits here => settles pool fits (implies pool here)

/-- What an index was left for by an action is given to the action behind it. -/
theorem Settles.bind {given : Pool → Prop} {means : Pool → PoolIndex → Prop}
    {add : Adding PoolIndex} {next : PoolIndex → Adding PoolIndex} (growing : Growing add)
    (leaves : Leaves add means) (kept : ∀ {before after}, before.Grows after → given before → given after)
    (first : Settles given add)
    (second : ∀ part, Settles (fun pool => given pool ∧ means pool part) (next part)) :
    Settles given (add >>= next) := by
  intro pool fits here settled
  have middle := first pool fits here settled
  rw [run_bind]
  rcases ran : add.run.run pool with ⟨_ | part, between⟩
  · rwa [ran] at middle
  · rw [ran] at middle
    have grows := growing.grows ran
    exact second part between (grows.fits fits)
      ⟨kept grows here, leaves _ _ _ _ fits ran (.refl between)⟩ middle

/-! ### The calls -/

theorem IsText.mem {text : String} {pool : Pool} {index : PoolIndex} (isText : IsText text pool index) :
    (index.toNat, .utf8 text) ∈ pool.entries :=
  get?_eq_some_iff.mp isText

theorem settles_addText {given : Pool → Prop} (text : String) : Settles given (addText text) :=
  (settles_insert (.utf8 text)).weaken fun _ _ _ isReference => absurd isReference List.not_mem_nil

theorem refersTo_text {constant : Constant} {text : String} {pool : Pool} {index : PoolIndex}
    (isReference : constant.references = [(.text, index)]) (isText : IsText text pool index) :
    RefersTo pool.entries constant := by
  intro reference isIn
  rw [isReference, List.mem_singleton] at isIn
  exact isIn ▸ ⟨_, isText.mem, rfl⟩

theorem settles_addClass {given : Pool → Prop}
    (kept : ∀ {before after}, before.Grows after → given before → given after) (name : String) :
    Settles given (addClass name) :=
  (settles_addText name).bind (growing_insert _) (leaves_addText name) kept fun _ =>
    (settles_insert _).weaken fun _ here => refersTo_text rfl here.2

theorem settles_addString {given : Pool → Prop}
    (kept : ∀ {before after}, before.Grows after → given before → given after) (text : String) :
    Settles given (addString text) :=
  (settles_addText text).bind (growing_insert _) (leaves_addText text) kept fun _ =>
    (settles_insert _).weaken fun _ here => refersTo_text rfl here.2

theorem settles_addNameAndType {given : Pool → Prop}
    (kept : ∀ {before after}, before.Grows after → given before → given after)
    (name descriptor : String) : Settles given (addNameAndType name descriptor) := by
  refine (settles_addText name).bind (growing_insert _) (leaves_addText name) kept fun first => ?_
  refine (settles_addText descriptor).bind (growing_insert _) (leaves_addText descriptor)
    (fun grows here => ⟨kept grows here.1, here.2.mono grows⟩) fun second => ?_
  refine (settles_insert _).weaken fun pool here => ?_
  obtain ⟨⟨-, isName⟩, isDescriptor⟩ := here
  intro reference isIn
  rcases List.mem_pair.mp isIn with rfl | rfl
  · exact ⟨_, isName.mem, rfl⟩
  · exact ⟨_, isDescriptor.mem, rfl⟩

theorem settles_addMember {given : Pool → Prop}
    (kept : ∀ {before after}, before.Grows after → given before → given after)
    {member : PoolIndex → PoolIndex → Constant} (refers : ∀ owner nameAndType,
      (member owner nameAndType).references = [(.owner, owner), (.nameAndType, nameAndType)])
    (owner name descriptor : String) : Settles given (addMember member owner name descriptor) := by
  refine (settles_addClass kept owner).bind (growing_addClass owner) (leaves_addClass owner) kept
    fun first => ?_
  have keptClass : ∀ {before after : Pool}, before.Grows after →
      given before ∧ IsClass owner before first → given after ∧ IsClass owner after first :=
    fun grows here => ⟨kept grows here.1, here.2.mono grows⟩
  refine (settles_addNameAndType keptClass name descriptor).bind
    (growing_addNameAndType name descriptor) (leaves_addNameAndType name descriptor) keptClass
    fun second => ?_
  refine (settles_insert _).weaken fun pool here => ?_
  obtain ⟨⟨-, _, -, isOwner⟩, _, -, _, -, isBoth⟩ := here
  intro reference isIn
  rw [refers] at isIn
  rcases List.mem_pair.mp isIn with rfl | rfl
  · exact ⟨_, get?_eq_some_iff.mp isOwner, rfl⟩
  · exact ⟨_, get?_eq_some_iff.mp isBoth, rfl⟩

/-- The call leaves references to the pool: a constant that it adds as it is has none. -/
def Call.isTyped : Call → Bool
  | .ofConstant constant => constant.references.isEmpty
  | _ => true

/-- A call that takes texts and numbers alone. -/
abbrev TypedCall := { call : Call // call.isTyped = true }

theorem TypedCall.settles (call : TypedCall) : Settles (fun _ => True) call.1.add := by
  obtain ⟨call, isTyped⟩ := call
  cases call with
  | ofConstant constant =>
    refine (settles_insert constant).weaken fun _ _ reference isReference => ?_
    rw [List.isEmpty_iff.mp isTyped] at isReference
    cases isReference
  | ofText text => exact settles_addText text
  | ofClass name => exact settles_addClass (fun _ _ => trivial) name
  | ofString text => exact settles_addString (fun _ _ => trivial) text
  | ofNameAndType name descriptor =>
    exact settles_addNameAndType (fun _ _ => trivial) name descriptor
  | ofField owner name descriptor | ofMethod owner name descriptor
  | ofInterfaceMethod owner name descriptor =>
    exact settles_addMember (fun _ _ => trivial) (fun _ _ => rfl) owner name descriptor

/-- The pool behind typed calls in order. -/
def afterTyped (pool : Pool) (calls : List TypedCall) : Pool := pool.after (calls.map Subtype.val)

/-- **Typed calls keep a pool settled**, those that fail included. -/
theorem settled_afterTyped {pool : Pool} (fits : pool.Fits) (settled : pool.Settled)
    (calls : List TypedCall) : (pool.afterTyped calls).Settled := by
  induction calls generalizing pool with
  | nil => exact settled
  | cons call rest ih =>
    exact ih ((call.1.alike.growing pool).fits fits) (call.settles pool fits trivial settled)

/-! ### Descriptions -/

/-- What an index stands for, with references followed as far as they go. Where they come back to
themselves, it stands for nothing. -/
inductive Describes (pool : Pool) : PoolIndex → String → Prop
  | unknown {index : PoolIndex} (notFound : pool.get? index.toNat = none) :
    Describes pool index ("#" ++ toString index.toNat)
  | utf8 {index : PoolIndex} {text : String} (found : pool.get? index.toNat = some (.utf8 text)) :
    Describes pool index text
  | integer {index : PoolIndex} {value : Int32}
    (found : pool.get? index.toNat = some (.integer value)) :
    Describes pool index (toString value.toInt)
  | float {index : PoolIndex} {bits : UInt32} (found : pool.get? index.toNat = some (.float bits)) :
    Describes pool index (Decimal.singleText bits ++ "f")
  | long {index : PoolIndex} {value : Int64} (found : pool.get? index.toNat = some (.long value)) :
    Describes pool index (toString value.toInt ++ "l")
  | double {index : PoolIndex} {bits : UInt64} (found : pool.get? index.toNat = some (.double bits)) :
    Describes pool index (Decimal.doubleText bits ++ "d")
  | classRef {index name : PoolIndex} {text : String}
    (found : pool.get? index.toNat = some (.classRef name)) (isName : Describes pool name text) :
    Describes pool index text
  | string {index literal : PoolIndex} {text : String}
    (found : pool.get? index.toNat = some (.string literal))
    (isLiteral : Describes pool literal text) : Describes pool index (Text.quoted text)
  | nameAndType {index name descriptor : PoolIndex} {first second : String}
    (found : pool.get? index.toNat = some (.nameAndType name descriptor))
    (isName : Describes pool name first) (isDescriptor : Describes pool descriptor second) :
    Describes pool index (first ++ ":" ++ second)
  | member {index owner nameAndType : PoolIndex} {constant : Constant} {first second : String}
    (found : pool.get? index.toNat = some constant)
    (refers : constant.references = [(.owner, owner), (.nameAndType, nameAndType)])
    (isOwner : Describes pool owner first) (isBoth : Describes pool nameAndType second) :
    Describes pool index (first ++ "." ++ second)

/-- With enough depth, references are followed as far as they go. -/
theorem Describes.within {pool : Pool} {index : PoolIndex} {text : String}
    (describes : Describes pool index text) :
    ∃ depth, ∀ more, depth ≤ more → pool.describeWithin more index = text := by
  -- Each reference takes one more step than what it leads to.
  have step {depth more : Nat} (enough : depth + 1 ≤ more) : ∃ rest, more = rest + 1 ∧ depth ≤ rest :=
    ⟨more - 1, by omega, by omega⟩
  induction describes with
  | @unknown index notFound =>
    refine ⟨0, fun more _ => ?_⟩
    cases more with
    | zero => rfl
    | succ rest => rw [describeWithin, notFound]
  | utf8 found | integer found | float found | long found | double found =>
    refine ⟨1, fun more enough => ?_⟩
    obtain ⟨rest, rfl, -⟩ := step enough
    rw [describeWithin, found]
  | classRef found _ ih | string found _ ih =>
    obtain ⟨depth, reached⟩ := ih
    refine ⟨depth + 1, fun more enough => ?_⟩
    obtain ⟨rest, rfl, deep⟩ := step enough
    rw [describeWithin, found]
    dsimp only
    rw [reached rest deep]
  | nameAndType found _ _ ihName ihDescriptor =>
    obtain ⟨first, reachedFirst⟩ := ihName
    obtain ⟨second, reachedSecond⟩ := ihDescriptor
    refine ⟨max first second + 1, fun more enough => ?_⟩
    obtain ⟨rest, rfl, deep⟩ := step enough
    rw [describeWithin, found]
    dsimp only
    rw [reachedFirst rest (by omega), reachedSecond rest (by omega)]
  | @member _ _ _ constant _ _ found refers _ _ ihOwner ihBoth =>
    obtain ⟨first, reachedFirst⟩ := ihOwner
    obtain ⟨second, reachedSecond⟩ := ihBoth
    refine ⟨max first second + 1, fun more enough => ?_⟩
    obtain ⟨rest, rfl, deep⟩ := step enough
    rw [describeWithin, found]
    cases constant with
    | field owner both | method owner both | interfaceMethod owner both =>
      cases refers
      dsimp only
      rw [reachedFirst rest (by omega), reachedSecond rest (by omega)]
    | _ => cases refers

/-- An index stands for one text at most. -/
theorem Describes.unique {pool : Pool} {index : PoolIndex} {first second : String}
    (one : Describes pool index first) (other : Describes pool index second) : first = second := by
  obtain ⟨depth, reached⟩ := one.within
  obtain ⟨deeper, reachedAgain⟩ := other.within
  calc first
    _ = pool.describeWithin (max depth deeper) index := (reached _ (Nat.le_max_left ..)).symm
    _ = second := reachedAgain _ (Nat.le_max_right ..)

/-- In a settled pool references are followed as deep as there are entries before the first. -/
theorem Settled.describes_within {pool : Pool} (settled : pool.Settled) {depth : Nat}
    {index : PoolIndex} (early : ∀ constant, pool.get? index.toNat = some constant →
      ∃ before behind, pool.entries = before ++ (index.toNat, constant) :: behind ∧
        before.length < depth) :
    Describes pool index (pool.describeWithin depth index) := by
  induction depth generalizing index with
  | zero =>
    refine .unknown (Option.eq_none_iff_forall_ne_some.mpr fun constant found => ?_)
    obtain ⟨_, _, -, isNone⟩ := early constant found
    exact Nat.not_lt_zero _ isNone
  | succ depth ih =>
    rw [describeWithin]
    cases found : pool.get? index.toNat with
    | none => exact .unknown found
    | some constant =>
      obtain ⟨before, behind, isWhole, few⟩ := early constant found
      have reaches : ∀ reference ∈ constant.references,
          Describes pool reference.2 (pool.describeWithin depth reference.2) := by
        intro reference isReference
        obtain ⟨target, isBefore, -⟩ :=
          settled before index.toNat constant behind isWhole reference isReference
        obtain ⟨front, middle, rfl⟩ := List.append_of_mem isBefore
        rw [List.append_assoc, List.cons_append] at isWhole
        have isEntry : (reference.2.toNat, target) ∈ pool.entries := by
          rw [isWhole]
          exact List.mem_append_right _ List.mem_cons_self
        refine ih fun other isOther => ?_
        obtain rfl : target = other := Option.some_inj.mp ((get?_eq_some_iff.mpr isEntry).symm.trans isOther)
        refine ⟨front, _, isWhole, ?_⟩
        simp only [List.length_append, List.length_cons] at few
        omega
      cases constant with
      | utf8 text => exact .utf8 found
      | integer value => exact .integer found
      | float bits => exact .float found
      | long value => exact .long found
      | double bits => exact .double found
      | classRef name => exact .classRef found (reaches (.text, name) (by simp [Constant.references]))
      | string text => exact .string found (reaches (.text, text) (by simp [Constant.references]))
      | nameAndType name descriptor =>
        exact .nameAndType found (reaches (.text, name) (by simp [Constant.references]))
          (reaches (.text, descriptor) (by simp [Constant.references]))
      | field owner both | method owner both | interfaceMethod owner both =>
        exact .member found rfl (reaches (.owner, owner) (by simp [Constant.references]))
          (reaches (.nameAndType, both) (by simp [Constant.references]))

/-- **In a settled pool an index stands for what its description says.** Following references comes
to an end for every index, and the bound of the description hides nothing of it. -/
theorem Settled.describes {pool : Pool} (settled : pool.Settled) (index : PoolIndex) :
    Describes pool index (pool.describe index) := by
  refine settled.describes_within fun constant found => ?_
  obtain ⟨before, behind, isWhole⟩ := List.append_of_mem (get?_eq_some_iff.mp found)
  refine ⟨before, behind, isWhole, ?_⟩
  have size : pool.entries.length = pool.size := by
    rw [← List.length_map Prod.snd, entries, map_snd_layout, Array.length_toList, Pool.size]
  rw [isWhole, List.length_append, List.length_cons] at size
  omega

/-! ### Members -/

/-- A member of a class is described by its owner, its name and its descriptor. -/
def memberText (owner name descriptor : String) : String :=
  owner ++ "." ++ (name ++ ":" ++ descriptor)

/-- What a call that adds a member asks for. -/
def Call.memberText? : Call → Option String
  | .ofField owner name descriptor | .ofMethod owner name descriptor
  | .ofInterfaceMethod owner name descriptor => some (memberText owner name descriptor)
  | _ => none

section Member

variable {pool : Pool} {index : PoolIndex} {member : PoolIndex → PoolIndex → Constant}
  {owner name descriptor : String} (isMember : IsMember member owner name descriptor pool index)
  (refers : ∀ owner nameAndType,
    (member owner nameAndType).references = [(.owner, owner), (.nameAndType, nameAndType)])

include isMember refers

theorem IsMember.describes : Describes pool index (memberText owner name descriptor) := by
  obtain ⟨first, ⟨_, isOwner, isClass⟩, second, ⟨_, isName, _, isDescriptor, isBoth⟩, found⟩ := isMember
  exact .member found (refers first second) (.classRef isClass (.utf8 isOwner))
    (.nameAndType isBoth (.utf8 isName) (.utf8 isDescriptor))

/-- Whatever else is in a pool, the description of a member is not cut off. -/
theorem IsMember.describe : pool.describe index = memberText owner name descriptor := by
  obtain ⟨first, ⟨_, isOwner, isClass⟩, second, ⟨_, isName, _, isDescriptor, isBoth⟩, found⟩ := isMember
  have deep : 2 ≤ pool.size := by
    have isOne := mem_constants_iff.mpr ⟨_, get?_eq_some_iff.mp isClass⟩
    have isOther := mem_constants_iff.mpr ⟨_, get?_eq_some_iff.mp isOwner⟩
    rw [Pool.size, ← Array.length_toList]
    generalize pool.constants.toList = constants at isOne isOther
    rcases constants with _ | ⟨only, _ | ⟨more, rest⟩⟩
    · cases isOne
    · cases (List.mem_singleton.mp isOne).trans (List.mem_singleton.mp isOther).symm
    · simp
  obtain ⟨depth, isDepth⟩ := Nat.exists_eq_add_of_le deep
  have kind := refers first second
  rw [Pool.describe, isDepth, Nat.add_comm 2, describeWithin, found]
  cases isConstant : member first second with
  | field | method | interfaceMethod =>
    rw [isConstant] at kind
    cases kind
    simp only [describeWithin, isClass, isBoth, memberText]
    rw [isOwner, isName, isDescriptor]
  | _ =>
    rw [isConstant] at kind
    cases kind

end Member

/-- **References lead back after any calls that take texts and numbers.** Whether the calls succeed
or not, every entry refers to entries before it, of the kinds that a class file asks for. So every
index stands for one text, which its description gives. The index of a member that a further call
gives is described by owner, name and descriptor, in its pool and in all that grow from it. -/
theorem references_after (reserved : UInt16) (calls : List TypedCall) :
    let pool := (ofReserved reserved).afterTyped calls
    pool.Settled ∧ (∀ index text, Describes pool index text ↔ pool.describe index = text) ∧
    ∀ (call : TypedCall) text index later, call.1.memberText? = some text →
      call.1.add.run.run pool = (.ok index, later) →
      ∀ grown, later.Grows grown → Describes grown index text ∧ grown.describe index = text := by
  intro pool
  have settled : pool.Settled :=
    settled_afterTyped (fits_ofReserved reserved) (settled_ofReserved reserved) calls
  have fits : pool.Fits := (grows_after _ _).fits (fits_ofReserved reserved)
  refine ⟨settled, fun index text => ⟨(settled.describes index).unique, ?_⟩, ?_⟩
  · rintro rfl
    exact settled.describes index
  · rintro ⟨call, isTyped⟩ text index later isText added grown grows
    have means : call.Means grown index := call.leaves _ _ _ _ fits added grows
    cases call with
    | ofField owner name descriptor | ofMethod owner name descriptor
    | ofInterfaceMethod owner name descriptor =>
      cases isText
      exact ⟨means.describes fun _ _ => rfl, means.describe fun _ _ => rfl⟩
    | _ => cases isText

/-- A method is described in a pool that has grown by a class which refers to itself. -/
theorem references_after_method :
    let pool := (ofReserved 10).afterTyped [⟨.ofString "s", rfl⟩]
    let added := (Call.ofMethod "a/B" "f" "()V").add.run.run pool
    added.1 = .ok 17 ∧
      (added.2.after [.ofConstant (.classRef 18)]).get? 18 = some (.classRef 18) ∧
      (added.2.after [.ofConstant (.classRef 18)]).describe 17 = "a/B.f:()V" :=
  ⟨rfl, get?_eq_some_iff.mpr (by decide),
    ((references_after 10 [⟨.ofString "s", rfl⟩]).2.2 ⟨.ofMethod "a/B" "f" "()V", rfl⟩ _ 17 _ rfl
      rfl _ (grows_after _ _)).2⟩

end Pool

end MethodPatch
