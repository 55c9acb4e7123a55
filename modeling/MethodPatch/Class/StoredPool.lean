/-
**Constant pools as they are kept.**

A pool keeps every appended constant with its index, the index of each constant in a table, and the
first free index. The three are kept apart, and an addition brings all of them up to date.

* `Pool.Call.addBy`: the ways to add to a pool, one constant after the other;
* `StoredPool.add`: the index of a constant, which is appended if it is not in the table;
* `StoredPool.get?`: the constant at an index, by halving;
* `StoredPool.toPool`: the constants alone.
-/

import MethodPatch.Class.Pool

namespace MethodPatch

/-! ### Calls -/

namespace Pool

/-- A way to add to a pool: a constant as it is, which may be a number, or what texts describe. -/
inductive Call where
  | ofConstant (constant : Constant)
  | ofText (text : String)
  | ofClass (name : String)
  | ofString (text : String)
  | ofNameAndType (name descriptor : String)
  | ofField (owner name descriptor : String)
  | ofMethod (owner name descriptor : String)
  | ofInterfaceMethod (owner name descriptor : String)

namespace Call

variable {m : Type → Type} [Monad m] (add : Constant → m PoolIndex)

/-- A class, where a single constant is added as given. -/
def classBy (name : String) : m PoolIndex := do
  let name ← add (.utf8 name)
  add (.classRef name)

/-- The name and the descriptor of a member, where a single constant is added as given. -/
def nameAndTypeBy (name descriptor : String) : m PoolIndex := do
  let name ← add (.utf8 name)
  let descriptor ← add (.utf8 descriptor)
  add (.nameAndType name descriptor)

/-- A member of a class, where a single constant is added as given. -/
def memberBy (member : PoolIndex → PoolIndex → Constant) (owner name descriptor : String) :
    m PoolIndex := do
  let owner ← classBy add owner
  let nameAndType ← nameAndTypeBy add name descriptor
  add (member owner nameAndType)

/-- What a call adds, where a single constant is added as given. -/
def addBy : Call → m PoolIndex
  | .ofConstant constant => add constant
  | .ofText text => add (.utf8 text)
  | .ofClass name => classBy add name
  | .ofString text => do
    let text ← add (.utf8 text)
    add (.string text)
  | .ofNameAndType name descriptor => nameAndTypeBy add name descriptor
  | .ofField owner name descriptor => memberBy add .field owner name descriptor
  | .ofMethod owner name descriptor => memberBy add .method owner name descriptor
  | .ofInterfaceMethod owner name descriptor =>
    memberBy add .interfaceMethod owner name descriptor

end Call

end Pool

/-! ### Pools that are kept -/

/-- The appended constants with their indices, in order, the table of the indices of constants, and
the first free index. The indices in front of `reserved` are those of the class. -/
structure StoredPool where
  reserved : UInt16
  entries : Array (PoolIndex × Constant)
  interned : List (Constant × PoolIndex)
  next : UInt32
  deriving DecidableEq

namespace StoredPool

/-- The pool of a class with `count` indices in use. Index zero always is. -/
def ofReserved (count : UInt16) : StoredPool :=
  let reserved := max count 1
  ⟨reserved, #[], [], reserved.toUInt32⟩

/-- The largest count of indices of a class file. -/
def maxCount : UInt32 := 65535

/-- The count of indices in use, as a class file holds it. -/
def count (pool : StoredPool) : UInt16 := (min pool.next maxCount).toUInt16

/-- The index of a constant, from the table. -/
def indexOf? (pool : StoredPool) (constant : Constant) : Option PoolIndex :=
  pool.interned.lookup constant

/-- The entries, with their indices as numbers. -/
def numbered (pool : StoredPool) : List (Nat × Constant) :=
  pool.entries.toList.map fun entry => (entry.1.toNat, entry.2)

/-- The appended constant at an index. -/
def get? (pool : StoredPool) (index : PoolIndex) : Option Constant :=
  Pool.search index.toNat pool.numbered

/-- Adding constants: the answer is an index or an error, and what was added before an error stays. -/
abbrev Adding := ExceptT PoolError (StateM StoredPool)

/-- The index of a constant, which is appended if it is not in the table. -/
def add (constant : Constant) : Adding PoolIndex := fun pool =>
  match pool.indexOf? constant with
  | some index => (.ok index, pool)
  | none =>
    match Pool.excessLength? constant with
    | some length => (.error (.textTooLong length), pool)
    | none =>
      if maxCount ≤ pool.next + UInt32.ofNat constant.slots - 1 then
        (.error (.overflow constant), pool)
      else
        let index := pool.next.toUInt16
        (.ok index,
          { pool with
            next := pool.next + UInt32.ofNat constant.slots
            interned := (constant, index) :: pool.interned
            entries := pool.entries.push (index, constant) })

/-- The pool behind calls in order. What a call has added before it fails stays. -/
def after (pool : StoredPool) (calls : List Pool.Call) : StoredPool :=
  calls.foldl (fun pool call => ((call.addBy add).run.run pool).2) pool

/-- The constants alone, from which everything else can be told. -/
def toPool (pool : StoredPool) : Pool := ⟨pool.reserved.toNat, pool.entries.map Prod.snd⟩

end StoredPool

end MethodPatch
