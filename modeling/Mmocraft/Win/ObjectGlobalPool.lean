/-
# Mmocraft.Win.ObjectGlobalPool -- object ids over a table of pools

An `ObjectGlobalPool` takes an index from a countdown that all pools share, registers itself in
`pool_table` at that index, and gives out ids made of its index and the index of the object.  An id
resolves through the table.  The countdown is one byte: the construction that takes 0 fails, but it has
counted down too, and the byte goes on from 255.  Nothing gives an index back.

Ids resolve to their own pools exactly as long as no construction takes the index of a live pool.

Objects and pools are named by identities that the code does not have, so that an id which resolves to the
wrong pool can be told from one that resolves to its own. A commit of memory that fails changes nothing, and
neither does a construction whose memory cannot be reserved.
-/
import Mathlib.Logic.Function.Basic
import Mmocraft.Win.ObjectPool

namespace Mmocraft.Win

open Mmocraft.Lib

/-- The capacities of pools. -/
abbrev MaxCapacity := { n : Nat // n < 2 ^ 31 }

/-! ## Ids -/

/-- The id of an object, from the indices of its pool and of itself. -/
def objectId (poolIndex objectIndex : Nat) : Nat := poolIndex <<< 32 ||| objectIndex

/-- `get_object_index`. -/
def getObjectIndex (id : Nat) : Nat := id &&& 0xFFFFFFFF

theorem objectId_eq (poolIndex : Nat) {objectIndex : Nat} (h : objectIndex < 2 ^ 32) :
    objectId poolIndex objectIndex = poolIndex * 2 ^ 32 + objectIndex := by
  rw [objectId, ← Nat.shiftLeft_add_eq_or_of_lt h, Nat.shiftLeft_eq]

theorem objectId_shiftRight (poolIndex : Nat) {objectIndex : Nat} (h : objectIndex < 2 ^ 32) :
    objectId poolIndex objectIndex >>> 32 = poolIndex := by
  rw [objectId_eq _ h, Nat.shiftRight_eq_div_pow]
  omega

theorem getObjectIndex_objectId (poolIndex : Nat) {objectIndex : Nat} (h : objectIndex < 2 ^ 32) :
    getObjectIndex (objectId poolIndex objectIndex) = objectIndex := by
  have hmask : (0xFFFFFFFF : Nat) = 2 ^ 32 - 1 := rfl
  rw [objectId_eq _ h, getObjectIndex, hmask, Nat.and_two_pow_sub_one_eq_mod]
  omega

/-- The id of an object of a pool with an index is not `INVALID_OBJECT_ID`. -/
theorem objectId_ne_zero {poolIndex objectIndex : Nat} (hpool : poolIndex ≠ 0) (h : objectIndex < 2 ^ 32) :
    objectId poolIndex objectIndex ≠ 0 := by
  rw [objectId_eq _ h]
  omega

/-! ## Pools -/

/-- `ObjectGlobalPool`, with the size of its objects.  `live` is a history: the indices of the objects
that were allocated from it and not freed since. -/
structure ObjectGlobalPool where
  super : ObjectPool
  poolIndex : Nat
  sizeofT : Nat
  live : List Nat := []

namespace ObjectGlobalPool

/-- `new_object_unsafe`. -/
def newObjectUnsafe (pool : ObjectGlobalPool) (committed : Bool) : ObjectGlobalPool × Nat :=
  let r := pool.super.newObjectInternal committed
  if r.2 = invalidIndex then ({ pool with super := r.1 }, 0)
  else ({ pool with super := r.1, live := r.2 :: pool.live }, objectId pool.poolIndex r.2)

@[simp] theorem newObjectUnsafe_poolIndex (pool : ObjectGlobalPool) (committed : Bool) :
    (pool.newObjectUnsafe committed).1.poolIndex = pool.poolIndex := by
  simp only [newObjectUnsafe]
  split_ifs <;> rfl

/-- An allocation keeps the live objects right. -/
theorem newObjectUnsafe_ok {pool : ObjectGlobalPool} (h : pool.super.Ok pool.live) (committed : Bool) :
    (pool.newObjectUnsafe committed).1.super.Ok (pool.newObjectUnsafe committed).1.live := by
  have hnone : pool.super.newObjectInternal committed = (pool.super, invalidIndex) →
      (pool.newObjectUnsafe committed).1.super.Ok (pool.newObjectUnsafe committed).1.live := by
    intro hnew
    simp only [newObjectUnsafe, hnew]
    rw [if_pos trivial]
    exact h
  have htrue : pool.super.newObjectInternal committed = (pool.super, invalidIndex) ∨
      pool.super.newObjectInternal committed = pool.super.newObjectInternal true := by
    cases committed with
    | true => exact Or.inr rfl
    | false => exact pool.super.newObjectInternal_false
  rcases htrue with hnew | hnew
  · exact hnone hnew
  · rcases h.newObjectInternal with ⟨-, hfull⟩ | ⟨-, -, hlt, hok, -, -⟩
    · exact hnone (hnew.trans hfull)
    · have hvalid := hok.ne_invalidIndex List.mem_cons_self
      simp only [newObjectUnsafe, hnew]
      rw [if_neg hvalid]
      exact hok

end ObjectGlobalPool

/-- The pools of a process by identity, `num_of_free_object_pool` and `pool_table`. -/
structure GlobalPools where
  numOfFreeObjectPool : BitVec 8 := 0xFF
  poolTable : Nat → Option Nat := fun _ => none
  pools : Nat → Option ObjectGlobalPool := fun _ => none
  /-- The number of constructions that took an index so far. -/
  numOfPools : Nat := 0

namespace GlobalPools

/-- The constructor, once the memory is reserved; the result is false if it throws
`TOO_MANY_POOL_ERROR`. -/
def construct (s : GlobalPools) (maxCapacity sizeofT : Nat) : GlobalPools × Bool :=
  let poolIndex := s.numOfFreeObjectPool.toNat
  let counted := { s with numOfFreeObjectPool := s.numOfFreeObjectPool - 1, numOfPools := s.numOfPools + 1 }
  -- the countdown has passed 0 by the time the constructor throws
  if poolIndex = 0 then (counted, false)
  else
    ({ counted with
        poolTable := Function.update s.poolTable poolIndex (some s.numOfPools)
        pools := Function.update s.pools s.numOfPools
          (some { super := .new maxCapacity, poolIndex := poolIndex, sizeofT := sizeofT }) }, true)

/-- The destructor of the pool `p`. -/
def destruct (s : GlobalPools) (p : Nat) (pool : ObjectGlobalPool) : GlobalPools :=
  { s with poolTable := Function.update s.poolTable pool.poolIndex none
           pools := Function.update s.pools p none }

def updatePool (s : GlobalPools) (p : Nat) (f : ObjectGlobalPool → ObjectGlobalPool) : GlobalPools :=
  { s with pools := Function.update s.pools p ((s.pools p).map f) }

/-- `find_pool`. -/
def findPool (s : GlobalPools) (id : Nat) : Option Nat := s.poolTable (id >>> 32)

/-- `find_object` of the pools whose objects have this size: the pool and the offset in its storage. -/
def findObject (s : GlobalPools) (sizeofT id : Nat) : Option (Nat × Nat) :=
  if id = 0 then none
  else (s.findPool id).map fun p => (p, ObjectPool.getObjectStorage sizeofT (getObjectIndex id))

/-- `free_object`. -/
def freeObject (s : GlobalPools) (id : Nat) : GlobalPools :=
  if id = 0 then s
  else
    match s.findPool id with
    | none => s
    | some p => s.updatePool p fun pool =>
        { pool with super := (pool.super.transitionToFree (getObjectIndex id)).1 }

/-- The object is not live any more. -/
def forget (s : GlobalPools) (p objectIndex : Nat) : GlobalPools :=
  s.updatePool p fun pool => { pool with live := pool.live.erase objectIndex }

inductive Event where
  | construct (maxCapacity : MaxCapacity) (sizeofT : Nat) (reserved : Bool)
  | destruct (p : Nat)
  | newObject (p : Nat) (committed : Bool)
  | freeObject (p objectIndex : Nat)

/-- A pool whose memory cannot be reserved has not taken an index.  Live objects are freed, by id. -/
def step (s : GlobalPools) : Event → Option GlobalPools
  | .construct maxCapacity sizeofT reserved =>
      some (if reserved then (s.construct maxCapacity.1 sizeofT).1 else s)
  | .destruct p => (s.pools p).map (s.destruct p)
  | .newObject p committed =>
      (s.pools p).map fun pool =>
        { s with pools := Function.update s.pools p (some (pool.newObjectUnsafe committed).1) }
  | .freeObject p objectIndex =>
      match s.pools p with
      | none => none
      | some pool =>
          if objectIndex ∈ pool.live then
            some ((s.freeObject (objectId pool.poolIndex objectIndex)).forget p objectIndex)
          else none

/-! ## What should hold -/

/-- Ids resolve to their own pools. Different pools have different indices that are not zero, the table
leads from an index to its pool, and an id to its object. -/
structure Resolves (s : GlobalPools) : Prop where
  index_ne_zero : ∀ p pool, s.pools p = some pool → pool.poolIndex ≠ 0
  index_ne : ∀ p q pool pool', s.pools p = some pool → s.pools q = some pool' → p ≠ q →
    pool.poolIndex ≠ pool'.poolIndex
  registered : ∀ p pool, s.pools p = some pool → s.poolTable pool.poolIndex = some p
  found : ∀ p pool, s.pools p = some pool → ∀ i ∈ pool.live,
    s.findObject pool.sizeofT (objectId pool.poolIndex i) =
      some (p, ObjectPool.getObjectStorage pool.sizeofT i)

/-- No live pool has the index that the next construction takes. -/
def IndexUnused (s : GlobalPools) : Prop :=
  ∀ p, p < s.numOfPools → ∀ pool ∈ s.pools p, pool.poolIndex ≠ s.numOfFreeObjectPool.toNat

instance (s : GlobalPools) : Decidable s.IndexUnused :=
  inferInstanceAs (Decidable (∀ p, p < s.numOfPools → ∀ pool ∈ s.pools p, _))

/-- A construction takes no index of a live pool: it does not take any, it takes 0 and throws, or no live
pool has it. -/
def TakesUnused (s : GlobalPools) : Event → Prop
  | .construct _ _ reserved => reserved = false ∨ s.numOfFreeObjectPool = 0 ∨ s.IndexUnused
  | _ => True

instance (s : GlobalPools) (e : Event) : Decidable (s.TakesUnused e) :=
  match e with
  | .construct _ _ reserved =>
      inferInstanceAs (Decidable (reserved = false ∨ s.numOfFreeObjectPool = 0 ∨ s.IndexUnused))
  | .destruct _ => isTrue trivial
  | .newObject .. => isTrue trivial
  | .freeObject .. => isTrue trivial

/-! ## The invariant -/

/-- A live pool has an index, is registered there, and its bitmap has its live objects. -/
structure PoolOk (s : GlobalPools) (p : Nat) (pool : ObjectGlobalPool) : Prop where
  super_ok : pool.super.Ok pool.live
  index_ne_zero : pool.poolIndex ≠ 0
  registered : s.poolTable pool.poolIndex = some p

structure Ok (s : GlobalPools) : Prop where
  pool_ok : ∀ p pool, s.pools p = some pool → s.PoolOk p pool
  fresh : ∀ p, s.numOfPools ≤ p → s.pools p = none

theorem init_ok : Ok {} := ⟨fun _ _ h => (nomatch h), fun _ _ => rfl⟩

section Ok

variable {s : GlobalPools} {p : Nat} {pool : ObjectGlobalPool}

theorem PoolOk.live_lt (h : s.PoolOk p pool) {i : Nat} (hi : i ∈ pool.live) : i < 2 ^ 32 :=
  Nat.lt_trans (h.super_ok.lt_of_mem hi) (by decide)

theorem PoolOk.findPool (h : s.PoolOk p pool) {i : Nat} (hi : i ∈ pool.live) :
    s.findPool (objectId pool.poolIndex i) = some p := by
  rw [GlobalPools.findPool, objectId_shiftRight _ (h.live_lt hi)]
  exact h.registered

theorem Ok.resolves (h : Ok s) : s.Resolves where
  index_ne_zero p pool hpool := (h.pool_ok p pool hpool).index_ne_zero
  index_ne p q pool pool' hpool hpool' hne heq := by
    have hp := (h.pool_ok p pool hpool).registered
    rw [heq, (h.pool_ok q pool' hpool').registered, Option.some.injEq] at hp
    exact hne hp.symm
  registered p pool hpool := (h.pool_ok p pool hpool).registered
  found p pool hpool i hi := by
    have hok := h.pool_ok p pool hpool
    rw [findObject, if_neg (objectId_ne_zero hok.index_ne_zero (hok.live_lt hi)), hok.findPool hi,
      Option.map_some, getObjectIndex_objectId _ (hok.live_lt hi)]

/-- An update of one pool that leaves its index alone. -/
theorem Ok.updatePool (h : Ok s) (hpool : s.pools p = some pool) {pool' : ObjectGlobalPool}
    (hsuper : pool'.super.Ok pool'.live) (hindex : pool'.poolIndex = pool.poolIndex) :
    Ok { s with pools := Function.update s.pools p (some pool') } where
  pool_ok q other hother := by
    dsimp only at hother
    rcases eq_or_ne q p with rfl | hne
    · rw [Function.update_self] at hother
      obtain rfl := Option.some.inj hother
      have hok := h.pool_ok q pool hpool
      exact ⟨hsuper, hindex ▸ hok.index_ne_zero, hindex ▸ hok.registered⟩
    · rw [Function.update_of_ne hne] at hother
      have hok := h.pool_ok q other hother
      exact ⟨hok.super_ok, hok.index_ne_zero, hok.registered⟩
  fresh q hq := by
    have hne : q ≠ p := by
      rintro rfl
      rw [h.fresh q hq] at hpool
      exact nomatch hpool
    exact (Function.update_of_ne hne _ _).trans (h.fresh q hq)

/-- A construction that takes no index of a live pool. -/
theorem Ok.construct (h : Ok s) (maxCapacity : MaxCapacity) (sizeofT : Nat)
    (hunused : s.numOfFreeObjectPool = 0 ∨ s.IndexUnused) : Ok (s.construct maxCapacity.1 sizeofT).1 := by
  unfold GlobalPools.construct
  dsimp only
  split_ifs with hzero
  · exact ⟨fun q other hother => ⟨(h.pool_ok q other hother).super_ok,
        (h.pool_ok q other hother).index_ne_zero, (h.pool_ok q other hother).registered⟩,
      fun q hq => h.fresh q (Nat.le_of_succ_le hq)⟩
  · have hindex : s.IndexUnused := hunused.resolve_left fun hcount => hzero (by rw [hcount]; rfl)
    refine ⟨fun q other hother => ?_, fun q hq => ?_⟩
    · dsimp only at hother ⊢
      rcases eq_or_ne q s.numOfPools with rfl | hne
      · rw [Function.update_self] at hother
        obtain rfl := Option.some.inj hother
        exact ⟨ObjectPool.new_ok maxCapacity.2, hzero, Function.update_self ..⟩
      · rw [Function.update_of_ne hne] at hother
        have hok := h.pool_ok q other hother
        have hlt : q < s.numOfPools := by
          by_contra hge
          rw [h.fresh q (by omega)] at hother
          exact nomatch hother
        exact ⟨hok.super_ok, hok.index_ne_zero,
          (Function.update_of_ne (hindex q hlt other hother) _ _).trans hok.registered⟩
    · have hne : q ≠ s.numOfPools := Nat.ne_of_gt hq
      exact (Function.update_of_ne hne _ _).trans (h.fresh q (Nat.le_of_succ_le hq))

/-- A destroyed pool leaves the others registered. -/
theorem Ok.destruct (h : Ok s) (hpool : s.pools p = some pool) : Ok (s.destruct p pool) where
  pool_ok q other hother := by
    have hne : q ≠ p := by
      rintro rfl
      have hnone : (s.destruct q pool).pools q = none := Function.update_self ..
      rw [hnone] at hother
      exact nomatch hother
    have hsame : s.pools q = some other := (Function.update_of_ne hne _ _).symm.trans hother
    have hok := h.pool_ok q other hsame
    have hindex := h.resolves.index_ne q p other pool hsame hpool hne
    exact ⟨hok.super_ok, hok.index_ne_zero, (Function.update_of_ne hindex _ _).trans hok.registered⟩
  fresh q hq := by
    rcases eq_or_ne q p with rfl | hne
    · exact Function.update_self ..
    · exact (Function.update_of_ne hne _ _).trans (h.fresh q hq)

/-- An object is freed in its own pool. -/
theorem Ok.freeObject (h : Ok s) (hpool : s.pools p = some pool) {i : Nat} (hi : i ∈ pool.live) :
    Ok ((s.freeObject (objectId pool.poolIndex i)).forget p i) := by
  have hok := h.pool_ok p pool hpool
  have hfreed : (s.freeObject (objectId pool.poolIndex i)).forget p i =
      { s with pools := Function.update s.pools p (some { pool with
          super := (pool.super.transitionToFree i).1
          live := pool.live.erase i }) } := by
    simp only [GlobalPools.freeObject, hok.findPool hi, getObjectIndex_objectId _ (hok.live_lt hi)]
    rw [if_neg (objectId_ne_zero hok.index_ne_zero (hok.live_lt hi))]
    simp only [forget, GlobalPools.updatePool, hpool, Function.update_self, Option.map_some,
      Function.update_idem]
  rw [hfreed]
  exact h.updatePool hpool (hok.super_ok.transitionToFree hi).1 rfl

/-- Every step keeps the invariant, if a construction takes no index of a live pool. -/
theorem step_ok (s : GlobalPools) (e : Event) (s' : GlobalPools) (h : Ok s) (hunused : s.TakesUnused e)
    (hstep : step s e = some s') : Ok s' := by
  cases e with
  | construct maxCapacity sizeofT reserved =>
      obtain rfl := Option.some.inj hstep
      cases reserved with
      | false => exact h
      | true => exact h.construct maxCapacity sizeofT (hunused.resolve_left (by decide))
  | destruct p =>
      obtain ⟨pool, hpool, rfl⟩ := Option.map_eq_some_iff.mp hstep
      exact h.destruct hpool
  | newObject p committed =>
      obtain ⟨pool, hpool, rfl⟩ := Option.map_eq_some_iff.mp hstep
      exact h.updatePool hpool
        (ObjectGlobalPool.newObjectUnsafe_ok (h.pool_ok p pool hpool).super_ok committed)
        (pool.newObjectUnsafe_poolIndex committed)
  | freeObject p objectIndex =>
      simp only [step] at hstep
      cases hpool : s.pools p with
      | none =>
          rw [hpool] at hstep
          exact nomatch hstep
      | some pool =>
          simp only [hpool, Option.ite_none_right_eq_some, Option.some.injEq] at hstep
          obtain ⟨hlive, rfl⟩ := hstep
          exact h.freeObject hpool hlive

/-- A construction that takes the index of a live pool leaves two pools with it. -/
theorem not_resolves_of_taken {s : GlobalPools} {e : Event} {s' : GlobalPools}
    (htaken : ¬ s.TakesUnused e) (hstep : step s e = some s') : ¬ s'.Resolves := by
  cases e with
  | construct maxCapacity sizeofT reserved =>
      simp only [TakesUnused, not_or, Bool.not_eq_false] at htaken
      obtain ⟨hreserved, hcount, hused⟩ := htaken
      simp only [IndexUnused, not_forall, not_not] at hused
      obtain ⟨p, hp, pool, hpool, hindex⟩ := hused
      subst hreserved
      obtain rfl := Option.some.inj hstep
      have hzero : s.numOfFreeObjectPool.toNat ≠ 0 := fun hzero =>
        hcount (BitVec.eq_of_toNat_eq hzero)
      have hne : p ≠ s.numOfPools := Nat.ne_of_lt hp
      -- the new pool and the live one share their index
      intro hresolves
      rw [if_pos rfl, GlobalPools.construct] at hresolves
      simp only [if_neg hzero] at hresolves
      refine hresolves.index_ne p s.numOfPools pool
        { super := .new maxCapacity.1, poolIndex := s.numOfFreeObjectPool.toNat, sizeofT := sizeofT }
        ?_ (Function.update_self ..) hne hindex
      exact (Function.update_of_ne hne _ _).trans hpool
  | destruct p => exact absurd trivial htaken
  | newObject p committed => exact absurd trivial htaken
  | freeObject p objectIndex => exact absurd trivial htaken

end Ok

/-- **Global object ids resolve to their own pool** in every state of a run exactly if no construction of it
takes the index of a live pool. Such a construction breaks it at once: the ids of the older pool lead to the
new one. -/
theorem eachState_resolves_iff {events : List Event} {s : GlobalPools}
    (hrun : run step {} events = some s) :
    EachState step Resolves {} events ↔ Along step TakesUnused {} events :=
  eachState_iff_along step_ok (fun _ h => h.resolves) (fun _ _ _ _ => not_resolves_of_taken) init_ok hrun

/-- Two pools, one of which is destroyed, and objects of both. -/
def twoPools : List Event :=
  [.construct ⟨3, by decide⟩ 8 true, .newObject 0 true, .construct ⟨1, by decide⟩ 24 true,
    .newObject 1 true, .newObject 0 true, .freeObject 0 0, .destruct 1]

theorem eachState_resolves_iff_twoPools :
    (run step {} twoPools).isSome = true ∧ EachState step Resolves {} twoPools := by
  have hsome : (run step {} twoPools).isSome = true := by decide +kernel
  exact ⟨hsome, (eachState_resolves_iff (run_getD (t := {}) hsome)).mpr (by decide +kernel)⟩

/-- So many pools that the countdown comes around. -/
def manyPools : List Event := List.replicate 257 (.construct ⟨1, by decide⟩ 8 true)

/-- The 256th construction throws, and the 257th takes the index of the first pool. -/
theorem manyPools_not_resolves : ∃ s, run step {} manyPools = some s ∧ ¬ s.Resolves := by
  have hsome : (run step {} manyPools).isSome = true := by decide +kernel
  refine ⟨_, run_getD (t := {}) hsome, fun h => ?_⟩
  have hfirst : (((run step {} manyPools).getD {}).pools 0).map ObjectGlobalPool.poolIndex = some 255 := by
    decide +kernel
  have hlast : (((run step {} manyPools).getD {}).pools 256).map ObjectGlobalPool.poolIndex = some 255 := by
    decide +kernel
  obtain ⟨pool, hpool, hindex⟩ := Option.map_eq_some_iff.mp hfirst
  obtain ⟨pool', hpool', hindex'⟩ := Option.map_eq_some_iff.mp hlast
  exact h.index_ne 0 256 pool pool' hpool hpool' (by decide) (hindex.trans hindex'.symm)

end GlobalPools

end Mmocraft.Win
