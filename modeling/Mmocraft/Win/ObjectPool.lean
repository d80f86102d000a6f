/-
# Mmocraft.Win.ObjectPool -- a pool of objects over reserved memory

`ObjectPool` reserves memory for `max_capacity` objects, commits it as it is needed, and keeps a bitmap
of the storages that are free.  The bitmap has more bits than there are storages, and the search for a
free one does not look at the capacity: it can find the storage just behind the committed ones, and the
pool grows then.  It never finds one further behind, since everything behind the capacity is free.

The object size of every pool is `sizeof(T)`, and the commits of memory succeed or fail as the caller of
the model says.

The list of live objects is kept beside the pool (`PoolRun`), and the invariant says that the bitmap is its
complement. The search for a free object, the growth and the freeing are then facts about sets of numbers
(`Lib.Bitmap`).
-/
import Mathlib.Algebra.Group.Nat.Defs
import Mathlib.Data.List.Nodup
import Mathlib.Data.List.Perm.Subperm
import Mmocraft.Lib.Bitmap
import Mmocraft.Lib.Runs

namespace Mmocraft.Win

open Mmocraft.Lib

/-- `ObjectPool::SIZE_TYPE_BIT_SIZE`. -/
def sizeTypeBitSize : Nat := 64

/-- `ObjectPool::DEFAULT_CAPACITY`. -/
def defaultCapacity : Nat := 512

/-- The conversion to `index_type`. -/
def indexType (n : Nat) : Nat := n % 2 ^ 32

/-- `ObjectPool::INVALID_INDEX`. -/
def invalidIndex : Nat := 2 ^ 32 - 1

/-- `ObjectPool`.  Storages are given by their offsets in `_storage`. -/
structure ObjectPool where
  capacity : Nat
  maxCapacity : Nat
  freeStorageBitmaps : List (BitVec sizeTypeBitSize)
  deriving DecidableEq, Repr

namespace ObjectPool

/-- The constructor, when the memory could be reserved and committed. -/
def new (maxCapacity : Nat) : ObjectPool :=
  { capacity := min defaultCapacity maxCapacity
    maxCapacity := maxCapacity
    freeStorageBitmaps := List.replicate (1 + maxCapacity / sizeTypeBitSize) (BitVec.allOnes _) }

/-- `reserve`; `committed` is the outcome of `VirtualAlloc`. -/
def reserve (pool : ObjectPool) (newCapacity : Nat) (committed : Bool) : ObjectPool × Bool :=
  if newCapacity ≤ pool.capacity then (pool, true)
  else if pool.maxCapacity ≤ pool.capacity then (pool, false)
  else if committed then ({ pool with capacity := min newCapacity pool.maxCapacity }, true)
  else (pool, false)

def extendCapacity (pool : ObjectPool) (minimumCapacity : Nat) (committed : Bool) : ObjectPool × Bool :=
  pool.reserve (max (pool.capacity * 2) minimumCapacity) committed

def getFreeObjectIndex (pool : ObjectPool) : Nat :=
  ((Bitmap.firstSet pool.freeStorageBitmaps).map indexType).getD invalidIndex

def transitionToReady (pool : ObjectPool) (objectIndex : Nat) : ObjectPool :=
  { pool with freeStorageBitmaps := Bitmap.clearBit pool.freeStorageBitmaps objectIndex }

/-- Whether the storage is marked as free. -/
def isFree (pool : ObjectPool) (objectIndex : Nat) : Bool :=
  Bitmap.bit pool.freeStorageBitmaps objectIndex

/-- `transition_to_free`; the result says whether the storage was in use. -/
def transitionToFree (pool : ObjectPool) (objectIndex : Nat) : ObjectPool × Bool :=
  ({ pool with freeStorageBitmaps := Bitmap.setBit pool.freeStorageBitmaps objectIndex },
    !pool.isFree objectIndex)

/-- `new_object_internal`. -/
def newObjectInternal (pool : ObjectPool) (committed : Bool) : ObjectPool × Nat :=
  let objectIndex := pool.getFreeObjectIndex
  if pool.capacity ≤ objectIndex then
    let r := pool.extendCapacity (objectIndex + 1) committed
    if r.2 then (r.1.transitionToReady objectIndex, objectIndex) else (r.1, invalidIndex)
  else (pool.transitionToReady objectIndex, objectIndex)

/-- `get_object_storage`. -/
def getObjectStorage (sizeofT objectIndex : Nat) : Nat := sizeofT * objectIndex

/-- `new_object_raw`. -/
def newObjectRaw (sizeofT : Nat) (pool : ObjectPool) (committed : Bool) : ObjectPool × Option Nat :=
  let r := pool.newObjectInternal committed
  (r.1, if r.2 = invalidIndex then none else some (getObjectStorage sizeofT r.2))

/-- `free_object`. -/
def freeObject (sizeofT : Nat) (pool : ObjectPool) (objectPtr : Nat) : ObjectPool × Bool :=
  pool.transitionToFree (indexType (objectPtr / sizeofT))

/-! ## The invariant -/

/-- The live objects are below the capacity, and the bitmap has all the other numbers. -/
structure Ok (pool : ObjectPool) (live : List Nat) : Prop where
  length_bitmaps : pool.freeStorageBitmaps.length = 1 + pool.maxCapacity / sizeTypeBitSize
  maxCapacity_lt : pool.maxCapacity < 2 ^ 31
  capacity_le : pool.capacity ≤ pool.maxCapacity
  nodup : live.Nodup
  live_lt : ∀ i ∈ live, i < pool.capacity
  isFree_iff : ∀ i, i < pool.freeStorageBitmaps.length * sizeTypeBitSize →
    (pool.isFree i = true ↔ i ∉ live)

theorem new_ok {maxCapacity : Nat} (hmax : maxCapacity < 2 ^ 31) : Ok (new maxCapacity) [] where
  length_bitmaps := List.length_replicate
  maxCapacity_lt := hmax
  capacity_le := Nat.min_le_right _ _
  nodup := List.nodup_nil
  live_lt _ h := nomatch h
  isFree_iff i hi := by
    have hlength : (new maxCapacity).freeStorageBitmaps.length = 1 + maxCapacity / sizeTypeBitSize :=
      List.length_replicate
    rw [hlength] at hi
    exact iff_of_true (Bitmap.bit_replicate_allOnes (by decide) hi) List.not_mem_nil

/-- Distinct numbers below a bound are not more than it. -/
theorem length_le_of_nodup {l : List Nat} {n : Nat} (hnodup : l.Nodup) (hlt : ∀ i ∈ l, i < n) :
    l.length ≤ n := by
  have hsubset : l ⊆ List.range n := fun i hi => List.mem_range.mpr (hlt i hi)
  simpa using (List.subperm_of_subset hnodup hsubset).length_le

section Ok

variable {pool : ObjectPool} {live : List Nat}

/-- There are more bits than storages. -/
theorem Ok.lt_bits (h : Ok pool live) {i : Nat} (hi : i ≤ pool.maxCapacity) :
    i < pool.freeStorageBitmaps.length * sizeTypeBitSize := by
  rw [h.length_bitmaps, sizeTypeBitSize]
  omega

/-- The index of a live object. -/
theorem Ok.lt_of_mem (h : Ok pool live) {i : Nat} (hi : i ∈ live) : i < 2 ^ 31 := by
  have hlt := h.live_lt i hi
  have hcap := h.capacity_le
  have hmax := h.maxCapacity_lt
  omega

theorem Ok.ne_invalidIndex (h : Ok pool live) {i : Nat} (hi : i ∈ live) : i ≠ invalidIndex := by
  have hlt := h.lt_of_mem hi
  unfold invalidIndex
  omega

/-- **The search** finds the least number that is not live, and not past the capacity. -/
theorem Ok.getFreeObjectIndex (h : Ok pool live) :
    pool.getFreeObjectIndex ∉ live ∧ pool.getFreeObjectIndex ≤ pool.capacity ∧
      ∀ i, i < pool.getFreeObjectIndex → i ∈ live := by
  have hmax := h.maxCapacity_lt
  have hcap := h.capacity_le
  have hbits := h.lt_bits hcap
  have hfree : pool.isFree pool.capacity = true :=
    (h.isFree_iff _ hbits).mpr fun hlive => Nat.lt_irrefl _ (h.live_lt _ hlive)
  obtain ⟨i, hfirst, hi, hleast⟩ := Bitmap.firstSet_spec (by decide) hfree
  -- the storage behind the capacity is free: the scan ends there at the latest
  have hle : i ≤ pool.capacity := by
    by_contra hlt
    have hnot := hleast pool.capacity (by omega)
    rw [show Bitmap.bit _ _ = true from hfree] at hnot
    exact nomatch hnot
  have hindex : pool.getFreeObjectIndex = i := by
    rw [ObjectPool.getFreeObjectIndex, hfirst, Option.map_some, Option.getD_some, indexType,
      Nat.mod_eq_of_lt (by omega)]
  rw [hindex]
  refine ⟨(h.isFree_iff i (by omega)).mp hi, hle, fun k hk => ?_⟩
  by_contra hnot
  have hbit := (h.isFree_iff k (by omega)).mpr hnot
  rw [show pool.isFree k = false from hleast k hk] at hbit
  exact nomatch hbit

/-- A larger capacity keeps the invariant. -/
theorem Ok.setCapacity (h : Ok pool live) {capacity : Nat} (hle : pool.capacity ≤ capacity)
    (hmax : capacity ≤ pool.maxCapacity) : Ok { pool with capacity := capacity } live :=
  ⟨h.length_bitmaps, h.maxCapacity_lt, hmax, h.nodup, fun i hi => Nat.lt_of_lt_of_le (h.live_lt i hi) hle,
    h.isFree_iff⟩

/-- **`reserve`** does not lower the capacity and does not raise it past the maximum. -/
theorem Ok.reserve (h : Ok pool live) (newCapacity : Nat) (committed : Bool) :
    Ok (pool.reserve newCapacity committed).1 live ∧
      pool.capacity ≤ (pool.reserve newCapacity committed).1.capacity ∧
      (pool.reserve newCapacity committed).1.maxCapacity = pool.maxCapacity := by
  unfold ObjectPool.reserve
  split_ifs with hlarge hfull hcommitted
  · exact ⟨h, Nat.le_refl _, rfl⟩
  · exact ⟨h, Nat.le_refl _, rfl⟩
  · have hgrown : pool.capacity ≤ min newCapacity pool.maxCapacity := by omega
    exact ⟨h.setCapacity hgrown (Nat.min_le_right _ _), hgrown, rfl⟩
  · exact ⟨h, Nat.le_refl _, rfl⟩

/-- The storage that was found becomes live. -/
theorem Ok.transitionToReady (h : Ok pool live) {i : Nat} (hnot : i ∉ live) (hlt : i < pool.capacity) :
    Ok (pool.transitionToReady i) (i :: live) where
  length_bitmaps := (Bitmap.length_clearBit _ _).trans h.length_bitmaps
  maxCapacity_lt := h.maxCapacity_lt
  capacity_le := h.capacity_le
  nodup := List.nodup_cons.mpr ⟨hnot, h.nodup⟩
  live_lt k hk := by
    rcases List.mem_cons.mp hk with rfl | hk
    · exact hlt
    · exact h.live_lt k hk
  isFree_iff k hk := by
    have hi := h.lt_bits (Nat.le_trans (Nat.le_of_lt hlt) h.capacity_le)
    rw [show (pool.transitionToReady i).freeStorageBitmaps.length = pool.freeStorageBitmaps.length from
      Bitmap.length_clearBit _ _] at hk
    rw [isFree, ObjectPool.transitionToReady, Bitmap.bit_clearBit (by decide) hi, List.mem_cons, not_or]
    split_ifs with heq
    · exact iff_of_false (by simp) fun hne => hne.1 heq
    · exact (h.isFree_iff k hk).trans ⟨fun hk => ⟨heq, hk⟩, And.right⟩

/-- **`transition_to_free`** of a live object gives exactly its storage back. -/
theorem Ok.transitionToFree (h : Ok pool live) {i : Nat} (hlive : i ∈ live) :
    Ok (pool.transitionToFree i).1 (live.erase i) ∧ (pool.transitionToFree i).2 = true ∧
      ∀ k, (pool.transitionToFree i).1.isFree k = true ↔ pool.isFree k = true ∨ k = i := by
  have hlt := h.live_lt i hlive
  have hi := h.lt_bits (Nat.le_trans (Nat.le_of_lt hlt) h.capacity_le)
  have hbit : ∀ k, (pool.transitionToFree i).1.isFree k = true ↔ pool.isFree k = true ∨ k = i := by
    intro k
    rw [isFree, ObjectPool.transitionToFree, Bitmap.bit_setBit (by decide) hi]
    split_ifs with heq
    · exact iff_of_true rfl (Or.inr heq)
    · exact (or_iff_left heq).symm
  have hused : pool.isFree i = false := by
    rw [← Bool.not_eq_true, h.isFree_iff i hi, not_not]
    exact hlive
  refine ⟨⟨(Bitmap.length_setBit _ _).trans h.length_bitmaps, h.maxCapacity_lt, h.capacity_le,
    h.nodup.erase i, fun k hk => h.live_lt k (List.mem_of_mem_erase hk), fun k hk => ?_⟩, ?_, hbit⟩
  · rw [show (pool.transitionToFree i).1.freeStorageBitmaps.length =
      pool.freeStorageBitmaps.length from Bitmap.length_setBit _ _] at hk
    rw [hbit, h.isFree_iff k hk, h.nodup.mem_erase_iff]
    tauto
  · show (!pool.isFree i) = true
    rw [hused]
    rfl

/-- A storage below the capacity is taken as it is. -/
theorem newObjectInternal_hole (hlt : pool.getFreeObjectIndex < pool.capacity) (committed : Bool) :
    pool.newObjectInternal committed =
      (pool.transitionToReady pool.getFreeObjectIndex, pool.getFreeObjectIndex) := by
  unfold ObjectPool.newObjectInternal
  dsimp only
  rw [if_neg (by omega)]

/-- With room behind the capacity the pool grows. -/
theorem newObjectInternal_grown (hindex : pool.getFreeObjectIndex = pool.capacity)
    (hroom : pool.capacity < pool.maxCapacity) :
    pool.newObjectInternal true = (ObjectPool.transitionToReady
      { pool with capacity := min (max (pool.capacity * 2) (pool.capacity + 1)) pool.maxCapacity }
      pool.capacity, pool.capacity) := by
  have hextend : pool.extendCapacity (pool.capacity + 1) true =
      (({ pool with capacity := min (max (pool.capacity * 2) (pool.capacity + 1))
                      pool.maxCapacity } : ObjectPool), true) := by
    unfold extendCapacity ObjectPool.reserve
    rw [if_neg (by omega), if_neg (by omega), if_pos rfl]
  unfold ObjectPool.newObjectInternal
  simp only [hindex, hextend]
  rw [if_pos (Nat.le_refl _), if_pos trivial]

/-- A capacity that is not extended gives no object. -/
theorem newObjectInternal_refused (hge : pool.capacity ≤ pool.getFreeObjectIndex) {committed : Bool}
    (hstop : pool.maxCapacity ≤ pool.capacity ∨ committed = false) :
    pool.newObjectInternal committed = (pool, invalidIndex) := by
  have hextend : pool.extendCapacity (pool.getFreeObjectIndex + 1) committed = (pool, false) := by
    unfold extendCapacity ObjectPool.reserve
    rw [if_neg (by omega)]
    rcases hstop with hfull | rfl
    · rw [if_pos hfull]
    · rw [if_neg Bool.false_ne_true, ite_self]
  unfold ObjectPool.newObjectInternal
  dsimp only
  rw [if_pos hge, hextend, if_neg Bool.false_ne_true]

/-- When everything below the capacity is live, as many objects are live. -/
theorem Ok.length_live_of_full (h : Ok pool live) (hall : ∀ i, i < pool.capacity → i ∈ live) :
    live.length = pool.capacity := by
  have hsubset : List.range pool.capacity ⊆ live := fun i hi => hall i (List.mem_range.mp hi)
  have hle : pool.capacity ≤ live.length := by
    simpa using (List.subperm_of_subset List.nodup_range hsubset).length_le
  exact Nat.le_antisymm (length_le_of_nodup h.nodup h.live_lt) hle

/-- **`new_object_internal`**: if fewer objects than the maximum are live, one more is, at an index
below the capacity; otherwise there is none, and nothing changes. -/
theorem Ok.newObjectInternal (h : Ok pool live) :
    (live.length = pool.maxCapacity ∧ pool.newObjectInternal true = (pool, invalidIndex)) ∨
    (live.length < pool.maxCapacity ∧ (pool.newObjectInternal true).2 ∉ live ∧
      (pool.newObjectInternal true).2 < (pool.newObjectInternal true).1.capacity ∧
      Ok (pool.newObjectInternal true).1 ((pool.newObjectInternal true).2 :: live) ∧
      pool.capacity ≤ (pool.newObjectInternal true).1.capacity ∧
      (pool.newObjectInternal true).1.maxCapacity = pool.maxCapacity) := by
  obtain ⟨hnot, hle, hleast⟩ := h.getFreeObjectIndex
  have hcap := h.capacity_le
  rcases Nat.lt_or_ge pool.getFreeObjectIndex pool.capacity with hlt | hge
  · -- a hole below the capacity
    have hmore := length_le_of_nodup (List.nodup_cons.mpr ⟨hnot, h.nodup⟩) (n := pool.capacity)
      fun k hk => (List.mem_cons.mp hk).elim (fun h => h ▸ hlt) (h.live_lt k)
    rw [List.length_cons] at hmore
    rw [newObjectInternal_hole hlt]
    exact Or.inr ⟨by omega, hnot, hlt, h.transitionToReady hnot hlt, Nat.le_refl _, rfl⟩
  · -- everything below the capacity is live
    have hindex : pool.getFreeObjectIndex = pool.capacity := Nat.le_antisymm hle hge
    have hlength := h.length_live_of_full fun i hi => hleast i (hindex ▸ hi)
    rw [hindex] at hnot
    rcases Nat.lt_or_ge pool.capacity pool.maxCapacity with hroom | hfull
    · have hgrown : pool.capacity <
          min (max (pool.capacity * 2) (pool.capacity + 1)) pool.maxCapacity := by omega
      have hok := h.setCapacity (Nat.le_of_lt hgrown) (Nat.min_le_right _ _)
      rw [newObjectInternal_grown hindex hroom]
      exact Or.inr ⟨by omega, hnot, hgrown, hok.transitionToReady hnot hgrown, Nat.le_of_lt hgrown, rfl⟩
    · exact Or.inl ⟨by omega, newObjectInternal_refused hge (Or.inl hfull)⟩

/-- Without memory to commit, nothing is allocated, unless none was needed. -/
theorem newObjectInternal_false (pool : ObjectPool) :
    pool.newObjectInternal false = (pool, invalidIndex) ∨
      pool.newObjectInternal false = pool.newObjectInternal true := by
  rcases Nat.lt_or_ge pool.getFreeObjectIndex pool.capacity with hlt | hge
  · rw [newObjectInternal_hole hlt, newObjectInternal_hole hlt]
    exact Or.inr rfl
  · exact Or.inl (newObjectInternal_refused hge (Or.inr rfl))

end Ok

end ObjectPool

/-! ## Runs of a pool -/

/-- A pool, with the objects that were returned and not freed since. -/
structure PoolRun where
  pool : ObjectPool
  live : List Nat := []

namespace PoolRun

open ObjectPool

inductive Event where
  | newObjectRaw
  | freeObject (objectPtr : Nat)
  | reserve (newCapacity : Nat)

/-- Only live objects are freed, and the memory can be committed. -/
def step (sizeofT : Nat) (s : PoolRun) : Event → Option PoolRun
  | .newObjectRaw =>
      let r := s.pool.newObjectRaw sizeofT true
      some { pool := r.1, live := r.2.toList ++ s.live }
  | .freeObject objectPtr =>
      if objectPtr ∈ s.live then
        some { pool := (s.pool.freeObject sizeofT objectPtr).1, live := s.live.erase objectPtr }
      else none
  | .reserve newCapacity => some { s with pool := (s.pool.reserve newCapacity true).1 }

/-- The live objects are the storages of live indices. -/
structure Ok (sizeofT maxCapacity : Nat) (s : PoolRun) : Prop where
  maxCapacity_eq : s.pool.maxCapacity = maxCapacity
  pool_ok : ∃ live, s.pool.Ok live ∧ s.live = live.map (getObjectStorage sizeofT)

variable {sizeofT maxCapacity : Nat} {s : PoolRun}

theorem getObjectStorage_injective (hsize : 0 < sizeofT) :
    Function.Injective (getObjectStorage sizeofT) := fun _ _ h => Nat.eq_of_mul_eq_mul_left hsize h

/-- The index of a storage is found again. -/
theorem indexType_getObjectStorage (hsize : 0 < sizeofT) {i : Nat} (hi : i < 2 ^ 32) :
    indexType (getObjectStorage sizeofT i / sizeofT) = i := by
  rw [getObjectStorage, Nat.mul_div_cancel_left i hsize, indexType, Nat.mod_eq_of_lt hi]

/-- What `new_object_raw` does in terms of live objects. -/
theorem Ok.newObjectRaw (h : s.Ok sizeofT maxCapacity) (hsize : 0 < sizeofT) :
    (s.live.length = maxCapacity ∧ s.pool.newObjectRaw sizeofT true = (s.pool, none)) ∨
    (s.live.length < maxCapacity ∧ ∃ i, (s.pool.newObjectRaw sizeofT true).2 =
        some (getObjectStorage sizeofT i) ∧ i < (s.pool.newObjectRaw sizeofT true).1.capacity ∧
      getObjectStorage sizeofT i ∉ s.live ∧
      Ok sizeofT maxCapacity { pool := (s.pool.newObjectRaw sizeofT true).1
                               live := getObjectStorage sizeofT i :: s.live } ∧
      s.pool.capacity ≤ (s.pool.newObjectRaw sizeofT true).1.capacity) := by
  obtain ⟨rfl, live, hok, hlive⟩ := h
  rw [hlive, List.length_map]
  rcases hok.newObjectInternal with ⟨hfull, hnew⟩ | ⟨hroom, hnot, hlt, hok', hmono, hsame⟩
  · refine Or.inl ⟨hfull, ?_⟩
    rw [ObjectPool.newObjectRaw, hnew]
    exact congrArg _ (if_pos rfl)
  · have hvalid := hok'.ne_invalidIndex List.mem_cons_self
    have hraw : s.pool.newObjectRaw sizeofT true = ((s.pool.newObjectInternal true).1,
        some (getObjectStorage sizeofT (s.pool.newObjectInternal true).2)) :=
      congrArg _ (if_neg hvalid)
    rw [hraw]
    refine Or.inr ⟨hroom, _, rfl, hlt, ?_, ⟨hsame, _, hok', rfl⟩, hmono⟩
    rw [List.mem_map_of_injective (getObjectStorage_injective hsize)]
    exact hnot

/-- What `free_object` does to a live object. -/
theorem Ok.freeObject (h : s.Ok sizeofT maxCapacity) (hsize : 0 < sizeofT) {objectPtr : Nat}
    (hlive : objectPtr ∈ s.live) : ∃ i, objectPtr = getObjectStorage sizeofT i ∧
      (s.pool.freeObject sizeofT objectPtr).2 = true ∧
      (∀ k, (s.pool.freeObject sizeofT objectPtr).1.isFree k = true ↔
        s.pool.isFree k = true ∨ k = i) ∧
      Ok sizeofT maxCapacity { pool := (s.pool.freeObject sizeofT objectPtr).1
                               live := s.live.erase objectPtr } := by
  obtain ⟨rfl, live, hok, heq⟩ := h
  rw [heq] at hlive
  obtain ⟨i, hi, rfl⟩ := List.mem_map.mp hlive
  have hlt : i < 2 ^ 32 := Nat.lt_trans (hok.lt_of_mem hi) (by decide)
  obtain ⟨hok', hused, hfree⟩ := hok.transitionToFree hi
  rw [ObjectPool.freeObject, indexType_getObjectStorage hsize hlt]
  refine ⟨i, rfl, hused, hfree, ⟨rfl, live.erase i, hok', ?_⟩⟩
  rw [heq]
  exact (List.map_erase (getObjectStorage_injective hsize) live).symm

theorem Ok.reserve (h : s.Ok sizeofT maxCapacity) (newCapacity : Nat) :
    Ok sizeofT maxCapacity { s with pool := (s.pool.reserve newCapacity true).1 } := by
  obtain ⟨hmax, live, hok, hlive⟩ := h
  obtain ⟨hok', -, hsame⟩ := hok.reserve newCapacity true
  exact ⟨hsame.trans hmax, live, hok', hlive⟩

/-- Every step keeps the invariant and does not lower the capacity. -/
theorem step_ok (hsize : 0 < sizeofT) (s : PoolRun) (e : Event) (s' : PoolRun)
    (h : s.Ok sizeofT maxCapacity) (hstep : step sizeofT s e = some s') :
    s'.Ok sizeofT maxCapacity ∧ s.pool.capacity ≤ s'.pool.capacity := by
  cases e with
  | newObjectRaw =>
      obtain rfl := Option.some.inj hstep
      rcases h.newObjectRaw hsize with ⟨-, hnew⟩ | ⟨-, i, hi, -, -, hok, hmono⟩
      · rw [hnew]
        exact ⟨h, Nat.le_refl _⟩
      · rw [hi]
        exact ⟨hok, hmono⟩
  | freeObject objectPtr =>
      simp only [step, Option.ite_none_right_eq_some, Option.some.injEq] at hstep
      obtain ⟨hlive, rfl⟩ := hstep
      obtain ⟨-, -, -, -, hok⟩ := h.freeObject hsize hlive
      exact ⟨hok, Nat.le_refl _⟩
  | reserve newCapacity =>
      obtain rfl := Option.some.inj hstep
      obtain ⟨-, live, hok, -⟩ := id h
      exact ⟨h.reserve newCapacity, (hok.reserve newCapacity true).2.1⟩

/-! ## The allocation

What a caller may rely on, in one structure: what is returned is new, nothing is returned only when the pool
is full, and freeing gives back exactly one storage.
-/

/-- What holds of the next operation of a pool. The property is about the operations that can follow,
whatever led to the state. -/
structure AllocatesWell (sizeofT maxCapacity : Nat) (s : PoolRun) : Prop where
  capacity_le : s.pool.capacity ≤ maxCapacity
  capacity_mono : ∀ e s', step sizeofT s e = some s' → s.pool.capacity ≤ s'.pool.capacity
  live_nodup : s.live.Nodup
  /-- A returned object is new, and in committed memory. -/
  returned : ∀ objectPtr, (s.pool.newObjectRaw sizeofT true).2 = some objectPtr →
    objectPtr ∉ s.live ∧ ∃ i, objectPtr = getObjectStorage sizeofT i ∧ i < maxCapacity ∧
      i < (s.pool.newObjectRaw sizeofT true).1.capacity
  null_iff : (s.pool.newObjectRaw sizeofT true).2 = none ↔ s.live.length = maxCapacity
  available_iff : ∀ i, i < maxCapacity →
    (s.pool.isFree i = true ↔ getObjectStorage sizeofT i ∉ s.live)
  /-- A live object is freed, and its storage is what becomes available. -/
  freed : ∀ objectPtr ∈ s.live, (s.pool.freeObject sizeofT objectPtr).2 = true ∧
    ∃ i, objectPtr = getObjectStorage sizeofT i ∧
      ∀ k, (s.pool.freeObject sizeofT objectPtr).1.isFree k = true ↔ s.pool.isFree k = true ∨ k = i

theorem Ok.allocatesWell (h : s.Ok sizeofT maxCapacity) (hsize : 0 < sizeofT) :
    s.AllocatesWell sizeofT maxCapacity := by
  have hnew := h.newObjectRaw hsize
  obtain ⟨hmax, live, hok, hlive⟩ := id h
  refine ⟨hmax ▸ hok.capacity_le, fun e s' hstep => (step_ok hsize s e s' h hstep).2, ?_, ?_, ?_, ?_, ?_⟩
  · rw [hlive]
    exact hok.nodup.map (getObjectStorage_injective hsize)
  · intro objectPtr hreturned
    rcases hnew with ⟨-, hnull⟩ | ⟨-, i, hi, hlt, hnot, hok', -⟩
    · rw [hnull] at hreturned
      exact nomatch hreturned
    · rw [hi] at hreturned
      obtain rfl := Option.some.inj hreturned
      obtain ⟨hmax', _, hpool, -⟩ := hok'
      exact ⟨hnot, i, rfl, Nat.lt_of_lt_of_le hlt (hmax' ▸ hpool.capacity_le), hlt⟩
  · rcases hnew with ⟨hfull, hnull⟩ | ⟨hroom, i, hi, -⟩
    · exact iff_of_true (by rw [hnull]) hfull
    · exact iff_of_false (by rw [hi]; exact Option.some_ne_none _) (Nat.ne_of_lt hroom)
  · intro i hi
    rw [hlive, List.mem_map_of_injective (getObjectStorage_injective hsize)]
    exact hok.isFree_iff i (hok.lt_bits (by omega))
  · intro objectPtr hptr
    obtain ⟨i, heq, hused, hfree, -⟩ := h.freeObject hsize hptr
    exact ⟨hused, i, heq, hfree⟩

/-- **Object pool allocation.** In every state that a pool reaches: an object that is returned is new and
below the committed capacity, none is returned exactly if as many as the maximum are live, a live object
is freed and exactly its storage becomes available, and the capacity grows up to the maximum. -/
theorem objectPool_allocatesWell (hsize : 0 < sizeofT)
    (hlt : maxCapacity < 2 ^ 31) {events : List Event} {s : PoolRun}
    (hrun : run (step sizeofT) { pool := .new maxCapacity } events = some s) :
    s.AllocatesWell sizeofT maxCapacity := by
  have hinit : Ok sizeofT maxCapacity { pool := .new maxCapacity } := ⟨rfl, [], new_ok hlt, rfl⟩
  have hok : s.Ok sizeofT maxCapacity :=
    run_invariant (fun s e s' h hstep => (step_ok hsize s e s' h hstep).1) hinit hrun
  exact hok.allocatesWell hsize

/-- A pool of two objects: one is freed and its storage used again, and a third does not fit. -/
theorem objectPool_allocatesWell_two : ∃ s : PoolRun,
    run (step 24) { pool := .new 2 } [.newObjectRaw, .newObjectRaw, .freeObject 0, .newObjectRaw,
      .reserve 7] = some s ∧ s.live = [0, 24] ∧ s.AllocatesWell 24 2 := by
  have hsome : (run (step 24) { pool := .new 2 } [.newObjectRaw, .newObjectRaw, .freeObject 0,
      .newObjectRaw, .reserve 7]).isSome = true := by decide +kernel
  refine ⟨_, run_getD (t := { pool := .new 2 }) hsome, by decide +kernel, ?_⟩
  exact objectPool_allocatesWell (by decide) (by decide) (run_getD hsome)

end PoolRun

end Mmocraft.Win
