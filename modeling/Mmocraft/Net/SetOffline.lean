/-
# Mmocraft.Net.SetOffline -- the stores of `set_offline` and the reads of a clean-up

`Connection::set_offline` takes no lock: it stores `_is_online`, then `last_offline_tick`, then the
`will_delete` of its entry, and a clean-up on the accept thread reads the first two of them in that order.
The events of the server take a call of `set_offline` as one step.  Here its stores are steps of their own,
for any number of threads that call it on one connection, and so are the two reads of `is_safe_delete`.

Outside the window between the first two stores the connection is what whole calls leave, in the order of
their second stores, so nothing is lost by taking them as one step.  Within the window of the first call the
clean-up still finds the initial `last_offline_tick`, and frees a connection that has just gone offline.
-/
import Mathlib.Data.List.Induction
import Mmocraft.Lib.Runs
import Mmocraft.Net.ConnectionEnvironment

namespace Mmocraft.Net

open Mmocraft.Lib

/-- Whole calls, one after the other: the last one leaves its tick. -/
theorem Connection.foldl_setOffline (conn : Connection) (ticks : List Nat) :
    ticks.foldl setOffline conn = { conn with
      isOnline := conn.isOnline && ticks.isEmpty
      lastOfflineTick := ticks.getLastD conn.lastOfflineTick } := by
  induction ticks using List.reverseRecOn with
  | nil => simp
  | append_singleton ticks tick ih =>
      rw [List.foldl_append, ih]
      simp [setOffline]

/-- A connection, the threads that are in its `set_offline`, each with its `current_tick`, and the clean-up. -/
structure OfflineStores where
  conn : Connection
  /-- `will_delete` of its entry. -/
  willDelete : Bool := false
  /-- Before the first store. -/
  entered : List Nat := []
  /-- Between the first store and the second. -/
  marked : List Nat := []
  /-- Between the second store and the third. -/
  stamped : List Nat := []
  /-- The ticks that were stored, in order. -/
  stores : List Nat := []
  /-- The `current_tick` of a clean-up that found the connection offline. -/
  visit : Option Nat := none
  /-- The `current_tick` of the clean-up that freed the connection. -/
  freed : Option Nat := none
  deriving DecidableEq, Repr

namespace OfflineStores

def init (conn : Connection) : OfflineStores := { conn := conn }

/-- What happens; `k` counts the threads at one place. -/
inductive StoreEvent where
  /-- A thread calls `set_offline`. -/
  | call (currentTick : Nat)
  /-- `_is_online = false`. -/
  | storeOnline (k : Nat)
  /-- `last_offline_tick = current_tick`. -/
  | storeTick (k : Nat)
  /-- `on_connection_offline`. -/
  | storeDelete (k : Nat)
  /-- `is_safe_delete` reads the clock, then `_is_online`. -/
  | readOnline (currentTick : Nat)
  /-- It reads `last_offline_tick`, and the clean-up frees the connection if its time has come. -/
  | readTick
  deriving DecidableEq, Repr

def step (s : OfflineStores) : StoreEvent → Option OfflineStores
  | .call currentTick => some { s with entered := s.entered ++ [currentTick] }
  | .storeOnline k =>
      (s.entered[k]?).map fun tick =>
        { s with
          conn := { s.conn with isOnline := false }
          entered := s.entered.eraseIdx k
          marked := s.marked ++ [tick] }
  | .storeTick k =>
      (s.marked[k]?).map fun tick =>
        { s with
          conn := { s.conn with lastOfflineTick := tick }
          marked := s.marked.eraseIdx k
          stamped := s.stamped ++ [tick]
          stores := s.stores ++ [tick] }
  | .storeDelete k =>
      (s.stamped[k]?).map fun _ => { s with willDelete := true, stamped := s.stamped.eraseIdx k }
  | .readOnline currentTick =>
      -- one clean-up at a time, and none of a connection that is gone
      if s.visit.isNone && s.freed.isNone then
        some { s with visit := if s.conn.isOnline then none else some currentTick }
      else none
  | .readTick =>
      s.visit.map fun currentTick =>
        { s with
          visit := none
          freed :=
            if s.conn.lastOfflineTick + Connection.requiredMillisecondsForSecureDeletion ≤ currentTick then
              some currentTick
            else none }

/-- Before its event every call reads the clock at `start` or later. -/
def CallsFrom (start : Nat) : StoreEvent → Prop
  | .call currentTick => start ≤ currentTick
  | _ => True

/-- The connection is what whole calls leave, but for the first stores of the threads that have not made the
second one; and the ticks of all threads are those of calls. -/
structure Ok (conn : Connection) (start : Nat) (s : OfflineStores) : Prop where
  conn : s.conn = { s.stores.foldl Connection.setOffline conn with
    isOnline := conn.isOnline && s.stores.isEmpty && s.marked.isEmpty }
  entered : ∀ tick ∈ s.entered, start ≤ tick
  marked : ∀ tick ∈ s.marked, start ≤ tick
  stores : ∀ tick ∈ s.stores, start ≤ tick

namespace Ok

variable {conn : Connection} {start : Nat} {s s' : OfflineStores}

theorem init (conn : Connection) (start : Nat) : Ok conn start (init conn) where
  conn := by simp [OfflineStores.init]
  entered _ h := absurd h List.not_mem_nil
  marked _ h := absurd h List.not_mem_nil
  stores _ h := absurd h List.not_mem_nil

/-- The first store of a thread. -/
theorem storeOnline (h : Ok conn start s) {k tick : Nat} (hk : s.entered[k]? = some tick) : Ok conn start
    { s with
      conn := { s.conn with isOnline := false }
      entered := s.entered.eraseIdx k
      marked := s.marked ++ [tick] } where
  conn := by
    rw [h.conn]
    simp
  entered t ht := h.entered t (List.mem_of_mem_eraseIdx ht)
  marked t ht := by
    rcases List.mem_append.mp ht with hold | hnew
    · exact h.marked t hold
    · rw [List.mem_singleton.mp hnew]
      exact h.entered tick (List.mem_of_getElem? hk)
  stores := h.stores

/-- The second store of a thread. -/
theorem storeTick (h : Ok conn start s) {k tick : Nat} (hk : s.marked[k]? = some tick) : Ok conn start
    { s with
      conn := { s.conn with lastOfflineTick := tick }
      marked := s.marked.eraseIdx k
      stamped := s.stamped ++ [tick]
      stores := s.stores ++ [tick] } where
  conn := by
    -- the thread was between its stores, so the connection was offline already
    have hmarked : s.marked.isEmpty = false := by
      cases hm : s.marked with
      | nil =>
          rw [hm] at hk
          cases hk
      | cons => rfl
    rw [h.conn, hmarked, List.foldl_append]
    simp [Connection.setOffline]
  entered := h.entered
  marked t ht := h.marked t (List.mem_of_mem_eraseIdx ht)
  stores t ht := by
    rcases List.mem_append.mp ht with hold | hnew
    · exact h.stores t hold
    · rw [List.mem_singleton.mp hnew]
      exact h.marked tick (List.mem_of_getElem? hk)

theorem step (h : Ok conn start s) {e : StoreEvent} (hcall : CallsFrom start e) (hstep : s.step e = some s') :
    Ok conn start s' := by
  cases e with
  | call currentTick =>
      obtain rfl := Option.some.inj hstep
      refine ⟨h.conn, fun t ht => ?_, h.marked, h.stores⟩
      rcases List.mem_append.mp ht with hold | hnew
      · exact h.entered t hold
      · rw [List.mem_singleton.mp hnew]
        exact hcall
  | storeOnline k =>
      obtain ⟨tick, hk, rfl⟩ := Option.map_eq_some_iff.mp hstep
      exact h.storeOnline hk
  | storeTick k =>
      obtain ⟨tick, hk, rfl⟩ := Option.map_eq_some_iff.mp hstep
      exact h.storeTick hk
  | storeDelete k =>
      obtain ⟨tick, -, rfl⟩ := Option.map_eq_some_iff.mp hstep
      exact ⟨h.conn, h.entered, h.marked, h.stores⟩
  | readOnline currentTick =>
      obtain ⟨-, heq⟩ := Option.ite_none_right_eq_some.mp hstep
      obtain rfl := Option.some.inj heq
      exact ⟨h.conn, h.entered, h.marked, h.stores⟩
  | readTick =>
      obtain ⟨currentTick, -, rfl⟩ := Option.map_eq_some_iff.mp hstep
      exact ⟨h.conn, h.entered, h.marked, h.stores⟩

/-- Where no thread is between its first two stores, the calls might have been single steps. -/
theorem conn_of_settled (h : Ok conn start s) (hsettled : s.marked = []) :
    s.conn = s.stores.foldl Connection.setOffline conn := by
  rw [h.conn, hsettled, Connection.foldl_setOffline]
  simp

/-- A tick that was stored is the tick of a call. -/
theorem start_le_lastOfflineTick (h : Ok conn start s) (hstores : s.stores ≠ []) :
    start ≤ s.conn.lastOfflineTick := by
  rw [h.conn, Connection.foldl_setOffline]
  show start ≤ s.stores.getLastD conn.lastOfflineTick
  rw [List.getLastD_eq_getLast?, List.getLast?_eq_some_getLast hstores, Option.getD_some]
  exact h.stores _ (List.getLast_mem hstores)

end Ok

/-- **`set_offline` in single stores.** Any number of threads call `set_offline` on a connection while it is
visited by clean-ups.  Where no thread is between its first two stores, the connection is what whole calls
leave, in the order of their second stores.  And a clean-up whose clock is not yet five seconds past the first
of the calls frees the connection exactly if no thread has made its second store. -/
theorem freedEarly_iff_of_run {conn : Connection} (start : Nat) {es : List StoreEvent} {s : OfflineStores}
    (hcalls : ∀ e ∈ es, CallsFrom start e) (hrun : run step (init conn) es = some s) :
    (s.marked = [] → s.conn = s.stores.foldl Connection.setOffline conn) ∧
    ∀ now, s.visit = some now → now < start + Connection.requiredMillisecondsForSecureDeletion →
      conn.lastOfflineTick + Connection.requiredMillisecondsForSecureDeletion ≤ now →
      ((s.step .readTick).bind freed = some now ↔ s.stores = []) := by
  have h : Ok conn start s :=
    run_invariant_along (fun _ _ _ h hcall hstep => h.step hcall hstep) (Ok.init conn start)
      (Along.of_forall_mem fun e he _ => hcalls e he) hrun
  refine ⟨h.conn_of_settled, fun now hvisit hearly hlate => ?_⟩
  have hread : (s.step .readTick).bind freed =
      if s.conn.lastOfflineTick + Connection.requiredMillisecondsForSecureDeletion ≤ now then some now
      else none := by
    rw [step, hvisit]
    rfl
  rw [hread]
  constructor
  · intro hfreed
    by_contra hstores
    have hstart := h.start_le_lastOfflineTick hstores
    rw [if_neg (by omega)] at hfreed
    cases hfreed
  · intro hnone
    have htick : s.conn.lastOfflineTick = conn.lastOfflineTick := by rw [h.conn, hnone]; rfl
    rw [htick, if_pos hlate]

/-- A connection that was online a hundred seconds after the start of the machine. -/
def busyConnection : Connection := { id := 0, connectionKey := ⟨0, 0⟩, lastInteractionTick := 100000 }

/-- A worker thread takes it offline, and a clean-up comes between the two stores. -/
def cleanupBetweenStores : List StoreEvent := [.call 100000, .storeOnline 0, .readOnline 100000]

/-- The connection is freed at once. -/
theorem freedEarly_iff_of_run_cleanupBetweenStores : ∃ s, run step (init busyConnection) cleanupBetweenStores = some s ∧
    (s.step .readTick).bind freed = some 100000 := by
  obtain ⟨s, hs, hstate⟩ := Option.map_eq_some_iff.mp
    (show (run step (init busyConnection) cleanupBetweenStores).map (fun s => (s.visit, s.stores)) =
      some (some 100000, []) by decide)
  obtain ⟨hvisit, hstores⟩ := Prod.mk.injEq .. ▸ hstate
  have hiff := (freedEarly_iff_of_run 100000 (by simp [cleanupBetweenStores, CallsFrom]) hs).2
    100000 hvisit (by decide) (by decide)
  exact ⟨s, hs, hiff.mpr hstores⟩

end OfflineStores

end Mmocraft.Net
