/-
# Mmocraft.Server.ConnectionTable -- the connection table over whole runs

What a run keeps true of the connection table: its counter and flags agree with what the slots hold,
a new connection gets a free slot, and a key finds the connection it was made for and no other.  The
second part is about properties of the table alone: `ClosedTable` lists the four ways in which an
event changes it, and from it follows what every event does.

Keys are the part with time in it. A key is the index of the slot and the tick of the registration in 32 bits;
a connection that is deleted had gone offline five seconds before, so the next one in its slot has another
tick, as long as the run is shorter than 2^32 milliseconds (`TimesOk`). Without that bound keys can repeat,
and with an index from outside the table even a single access is not safe (`safeHandle_iff`).
-/
import Mathlib.Data.List.Nodup
import Mmocraft.Server.History

namespace Mmocraft

open Mmocraft.Lib Mmocraft.Game Mmocraft.Net

namespace Server

/-! ## Counter and flags -/

/-- The counter is the number of used slots, of which there are not too many; a slot is used exactly
if it holds a connection, and one that is not marked for deletion holds an online connection. -/
structure TableInvariant (s : Server) : Prop where
  count : s.connectionEnv.numOfConnections =
    countUsed s.connectionEnv.table s.connectionEnv.numOfMaxConnections
  count_le : s.connectionEnv.numOfConnections ≤ s.connectionEnv.numOfMaxConnections
  used_lt : ∀ i, (s.connectionEnv.table i).used = true → i < s.connectionEnv.numOfMaxConnections
  used_iff : ∀ i, (s.connectionEnv.table i).used = true ↔ (s.connection i).isSome = true
  online : ∀ i, (s.connectionEnv.table i).willDelete = false →
    ∃ conn, s.connection i = some conn ∧ conn.isOnline = true

/-- A connection accepted now gets a slot that exists and holds none, and the others keep theirs;
while the table is full none is accepted. -/
structure AcceptsIntoFree (s : Server) (now : Nat) : Prop where
  full : s.connectionEnv.numOfMaxConnections ≤ s.connectionEnv.numOfConnections → s.accept now = s
  index_lt : s.connectionEnv.numOfConnections < s.connectionEnv.numOfMaxConnections →
    s.connectionEnv.getUnusedConnectionId < s.connectionEnv.numOfMaxConnections
  free : s.connectionEnv.numOfConnections < s.connectionEnv.numOfMaxConnections →
    s.connection s.connectionEnv.getUnusedConnectionId = none
  placed : s.connectionEnv.numOfConnections < s.connectionEnv.numOfMaxConnections →
    (s.accept now).connection s.connectionEnv.getUnusedConnectionId =
      some { id := s.numOfAccepted
             connectionKey := ⟨s.connectionEnv.getUnusedConnectionId, monotonicTick32 now⟩
             lastInteractionTick := now }
  others : ∀ i, i ≠ s.connectionEnv.getUnusedConnectionId →
    (s.accept now).connection i = s.connection i

end Server

namespace TableOk

variable {s : Server} (h : TableOk s)

include h

/-- What is said of flags and counter is part of the invariant of the table. -/
theorem tableInvariant : s.TableInvariant where
  count := h.count
  count_le := by
    rw [h.count, countUsed]
    exact List.countP_le_length.trans_eq List.length_range
  used_lt := h.used_lt
  used_iff := h.used_iff
  online i hwill := (h.online_iff i).mp hwill

/-- A new connection gets the slot that the search finds, if the table is not full. -/
theorem acceptsIntoFree (now : Nat) : s.AcceptsIntoFree now := by
  have hspec : s.connectionEnv.numOfConnections < s.connectionEnv.numOfMaxConnections →
      s.connectionEnv.getUnusedConnectionId < s.connectionEnv.numOfMaxConnections ∧
        (s.connectionEnv.table s.connectionEnv.getUnusedConnectionId).used = false := fun hlt =>
    getUnusedConnectionId_spec s.connectionEnv (h.count ▸ hlt)
  constructor
  · intro hfull
    exact if_pos hfull
  · intro hlt
    exact (hspec hlt).1
  · intro hlt
    have hunused := (h.used_iff s.connectionEnv.getUnusedConnectionId).not.mp
      (by rw [(hspec hlt).2]; exact Bool.false_ne_true)
    exact Option.not_isSome_iff_eq_none.mp hunused
  · intro hlt
    rw [Server.accept, if_neg (Nat.not_le_of_lt hlt)]
    show (Function.update s.connectionEnv.table s.connectionEnv.getUnusedConnectionId _
      s.connectionEnv.getUnusedConnectionId).connection = _
    rw [Function.update_self]
  · intro i hi
    unfold Server.accept
    show Server.connection (if _ then _ else _) i = _
    split_ifs
    · rfl
    · exact congrArg ConnectionEntry.connection (Function.update_of_ne hi ..)

end TableOk

/-- **Connection table.** After every run the counter and the flags of the table agree with what its slots
hold, and the next connection gets a free slot. There is no condition on the run: clean-ups come at any
time, several times for one slot, and connections go offline in any order. -/
theorem Server.tableInvariant_of_run {maxClients : Nat} {metadata : WorldMetadata}
    {blockMapping : List UInt8} {es : List Event} {s : Server}
    (hrun : run Server.step (Server.init maxClients metadata blockMapping) es = some s) :
    s.TableInvariant ∧ ∀ now, s.AcceptsIntoFree now := by
  obtain ⟨ht, -⟩ := Server.consistent_of_run hrun
  exact ⟨ht.tableInvariant, ht.acceptsIntoFree⟩

/-- A guest plays and is torn down; its slot is cleaned up, and the next connection gets it. -/
theorem Server.tableInvariant_of_run_slotReused :
    ∃ s, run Server.step Server.small (guestSession ++ [.cleanup 0 5007, .accept 5008]) = some s ∧
      (s.connection 0).map Connection.id = some 1 ∧ s.TableInvariant ∧ ∀ now, s.AcceptsIntoFree now := by
  obtain ⟨s, hs, hconn⟩ := Option.map_eq_some_iff.mp
    (show (run Server.step Server.small (guestSession ++ [.cleanup 0 5007, .accept 5008])).map
      (fun s => (s.connection 0).map Connection.id) = some (some 1) by decide)
  exact ⟨s, hs, hconn, Server.tableInvariant_of_run hs⟩

/-! ## Properties of the table

What the table promises to those that use it, said of the state, with the histories that the statement
needs: the keys that were given out, and the flags of the entries.
-/

/-- The keys of the connections registered so far, the newest first. -/
def acceptedKeys (log : List Record) : List ConnectionKey :=
  log.filterMap fun
    | .accepted _ key => some key
    | _ => none

/-- From `s` to `t` the table stays as it is, and no connection is registered. -/
structure SameTable (s t : Server) : Prop where
  connectionEnv : t.connectionEnv = s.connectionEnv
  numOfAccepted : t.numOfAccepted = s.numOfAccepted
  keys : acceptedKeys t.log = acceptedKeys s.log

namespace SameTable

variable {s t u : Server}

theorem trans (hst : SameTable s t) (htu : SameTable t u) : SameTable s u :=
  ⟨htu.1.trans hst.1, htu.2.trans hst.2, htu.3.trans hst.3⟩

theorem of_quiet (h : Quiet s t) : SameTable s t :=
  ⟨h.connectionEnv, h.numOfAccepted, by rw [h.log]⟩

/-- Every slot holds what it held. -/
theorem connection (h : SameTable s t) (i : Nat) : t.connection i = s.connection i := by
  rw [Server.connection, Server.connection, h.connectionEnv]

theorem savePlayerGamedata (s : Server) (p : Nat) : SameTable s (s.savePlayerGamedata p) := by
  unfold Server.savePlayerGamedata
  show SameTable s (if _ then _ else _)
  split_ifs
  · exact ⟨rfl, rfl, rfl⟩
  · exact ⟨rfl, rfl, rfl⟩

theorem admitLoaded (s : Server) (p : Nat) (load : GamedataLoad) (result : LoadResult) :
    SameTable s (s.admitLoaded p load result) := by
  rw [Server.admitLoaded_eq]
  exact ⟨rfl, rfl, rfl⟩

end SameTable

/-- From `s` to `t` the connection in slot `i` changes from `conn` to `conn'`, under the same key. -/
structure ReplacesConnection (s t : Server) (i : Nat) (conn conn' : Connection) : Prop where
  before : s.connection i = some conn
  after : t.connection i = some conn'
  others : ∀ j, j ≠ i → t.connection j = s.connection j
  slots : t.connectionEnv.numOfMaxConnections = s.connectionEnv.numOfMaxConnections
  keys : acceptedKeys t.log = acceptedKeys s.log
  connectionKey : conn'.connectionKey = conn.connectionKey

namespace ReplacesConnection

variable {s t : Server} {i : Nat} {conn conn' : Connection}

/-- An interaction replaces a connection by itself at a later time. -/
theorem interact (hconn : s.connection i = some conn) (now : Nat) :
    ReplacesConnection s (s.interact i now) i conn (conn.updateLastInteractionTime now) where
  before := hconn
  after := TableOk.interact_connection hconn now
  others _ hj := congrArg ConnectionEntry.connection (Function.update_of_ne hj _ _)
  slots := rfl
  keys := rfl
  connectionKey := rfl

theorem setPlayer (hconn : s.connection i = some conn) (player : Player) :
    ReplacesConnection s (s.setPlayer i conn player) i conn
      { conn with player := some s.numOfPlayers } where
  before := hconn
  after := Server.setPlayer_connection hconn player
  others _ hj := Server.setPlayer_connection_of_ne conn player hj
  slots := rfl
  keys := rfl
  connectionKey := rfl

theorem setOffline (ht : TableOk s) (hconn : s.connection i = some conn) (now : Nat) :
    ReplacesConnection s (s.setOffline i conn now) i conn (conn.setOffline now) where
  before := hconn
  after := Server.setOffline_connection ht hconn now
  others _ hj := Server.setOffline_connection_of_ne ht hconn now hj
  slots := rfl
  keys := rfl
  connectionKey := rfl

/-- A connection of `t` is one of `s`, or the changed one. -/
theorem cases (h : ReplacesConnection s t i conn conn') {j : Nat} {c : Connection}
    (hc : t.connection j = some c) : (j = i ∧ c = conn') ∨ (j ≠ i ∧ s.connection j = some c) := by
  by_cases hj : j = i
  · subst hj
    exact Or.inl ⟨rfl, Option.some.inj (hc.symm.trans h.after)⟩
  · exact Or.inr ⟨hj, (h.others j hj).symm.trans hc⟩

end ReplacesConnection

/-- What a new connection changes. It is in a free slot of the table, with the key made of that slot and the
time, and the key is the newest one. -/
structure AddsConnection (s t : Server) (i now : Nat) : Prop where
  index_lt : i < s.connectionEnv.numOfMaxConnections
  free : s.connection i = none
  after : t.connection i = some
    { id := s.numOfAccepted, connectionKey := ⟨i, monotonicTick32 now⟩, lastInteractionTick := now }
  others : ∀ j, j ≠ i → t.connection j = s.connection j
  slots : t.connectionEnv.numOfMaxConnections = s.connectionEnv.numOfMaxConnections
  keys : acceptedKeys t.log = ⟨i, monotonicTick32 now⟩ :: acceptedKeys s.log

/-- An accept adds a connection, or finds the table full. -/
theorem AddsConnection.accept {s : Server} (ht : TableOk s) (now : Nat) :
    s.accept now = s ∨ ∃ i, AddsConnection s (s.accept now) i now := by
  have hfree := ht.acceptsIntoFree now
  by_cases hfull : s.connectionEnv.numOfMaxConnections ≤ s.connectionEnv.numOfConnections
  · exact Or.inl (hfree.full hfull)
  · have hlt := Nat.lt_of_not_le hfull
    refine Or.inr ⟨_, hfree.index_lt hlt, hfree.free hlt, hfree.placed hlt, hfree.others, ?_, ?_⟩
    · rw [Server.accept, if_neg hfull]
      rfl
    · rw [Server.accept, if_neg hfull]
      rfl

/-! ### What leaves the table alone -/

namespace SameTable

variable {P : Server → Prop} {C : Server → Server.Call → Prop}
  (hsame : ∀ {s t}, P s → SameTable s t → P t)

include hsame

theorem closedTick : ClosedTick (fun _ => True) P where
  syncing _ _ _ _ _ hP := hsame hP ⟨rfl, rfl, rfl⟩
  levelWait _ _ _ _ _ hP := hsame hP ⟨rfl, rfl, rfl⟩
  spawnWait _ _ _ _ _ hP := hsame hP ⟨rfl, rfl, rfl⟩
  pushDisconnect _ _ _ _ _ hP := hsame hP ⟨rfl, rfl, rfl⟩

theorem closedSchedules : ClosedSchedules (fun _ => True) P where
  scheduleSpawn _ _ _ _ _ hP := hsame hP ⟨rfl, rfl, rfl⟩
  scheduleDisconnect _ _ _ _ _ hP := hsame hP ⟨rfl, rfl, rfl⟩
  scheduleLevel _ _ _ _ _ hP := hsame hP ⟨rfl, rfl, rfl⟩

theorem closedTasks : ClosedTasks (fun _ => True) P C where
  levelCallback _ _ _ _ _ hP := hsame hP ⟨rfl, rfl, rfl⟩
  spawnCallback _ _ _ _ _ hP := hsame hP ⟨rfl, rfl, rfl⟩
  finishLevel _ _ hP := hsame hP ⟨rfl, rfl, rfl⟩
  finishSpawn _ _ hP := hsame hP ⟨rfl, rfl, rfl⟩
  disconnectRun o o' ht _ _ _ hP := by
    refine Closed.disconnectRun_of_parts (P := P) (fun _ hq hP => hsame hP (SameTable.of_quiet hq))
      ?_ ?_ (fun hP => hsame hP ⟨rfl, rfl, rfl⟩) ht hP o o'
    · intro s ds _ hP
      refine hsame hP ⟨rfl, rfl, ?_⟩
      rw [acceptedKeys, List.filterMap_append, List.filterMap_map]
      simp [acceptedKeys]
    · intro s conn p _ _ _ hP
      exact hsame hP ((SameTable.savePlayerGamedata s p).trans ⟨rfl, rfl, rfl⟩)

theorem closedLogins : ClosedLogins (fun _ => True) P C where
  respond _ _ _ _ hP := hsame hP ⟨rfl, rfl, rfl⟩
  setIdentity _ _ _ _ _ _ _ _ hP := hsame hP ⟨rfl, rfl, rfl⟩
  guest _ _ _ _ _ _ _ _ hP := hsame hP ⟨rfl, rfl, rfl⟩
  addLoad _ _ _ _ hP := hsame hP ⟨rfl, rfl, rfl⟩
  takeLoad _ _ _ hP := hsame hP ⟨rfl, rfl, rfl⟩
  loaded := by
    intro s i conn p load result _ _ _ _ _ _ _ _ hP
    have herased : P { s with loads := s.loads.erase load } := hsame hP ⟨rfl, rfl, rfl⟩
    exact hsame herased (SameTable.admitLoaded _ p load result)

end SameTable

section Closed

variable (P : Server → Prop) (T : Nat → Prop)

/-- `P` is about the table alone, and survives what an event at a time in `T` can do to it, apart
from deleting a connection. -/
structure ClosedTable : Prop where
  same : ∀ {s t}, P s → SameTable s t → P t
  touch : ∀ {s t i conn conn'}, P s → ReplacesConnection s t i conn conn' →
    conn'.isOnline = conn.isOnline → conn'.lastOfflineTick = conn.lastOfflineTick → P t
  goOffline : ∀ {s t i conn now}, T now → P s →
    ReplacesConnection s t i conn (conn.setOffline now) → P t
  add : ∀ {s t i now}, T now → P s → AddsConnection s t i now → P t

end Closed

namespace ClosedTable

variable {P : Server → Prop} {T : Nat → Prop} (h : ClosedTable P T)

include h

theorem closedConnections : ClosedConnections (fun _ => True) P (fun _ _ => True) T where
  quiet _ _ hq hP := h.same hP (SameTable.of_quiet hq)
  interact now _ _ _ hconn hP := h.touch hP (ReplacesConnection.interact hconn now) rfl rfl
  accept now hT ht _ hP := by
    rcases AddsConnection.accept ht now with heq | ⟨i, hadds⟩
    · rw [heq]
      exact hP
    · exact h.add hT hP hadds
  disconnect i now hT ht _ _ hP := by
    rcases Server.disconnect_cases _ i now with heq | ⟨conn, p, -, -, -, heq⟩ |
      ⟨conn, hconn, -, -, heq⟩
    · rw [heq]
      exact hP
    · rw [heq]
      exact h.same hP ⟨rfl, rfl, rfl⟩
    · rw [heq]
      exact h.goOffline hT hP (ReplacesConnection.setOffline ht hconn now)
  handshake username password cpeMagic garbage _ _ hconn _ _ hP := by
    obtain ⟨cur, next, -, heq⟩ := Server.handshake_eq _ _ _ username password cpeMagic garbage
    rw [heq]
    exact h.same (h.touch hP (ReplacesConnection.setPlayer hconn _) rfl rfl) ⟨rfl, rfl, rfl⟩
  extEntry _ _ _ _ _ hP := h.same hP ⟨rfl, rfl, rfl⟩

theorem closedTick : ClosedTick (fun _ => True) P := SameTable.closedTick h.same

theorem closedSchedules : ClosedSchedules (fun _ => True) P := SameTable.closedSchedules h.same

theorem closedTasks : ClosedTasks (fun _ => True) P fun _ _ => True := SameTable.closedTasks h.same

theorem closedLogins : ClosedLogins (fun _ => True) P fun _ _ => True := SameTable.closedLogins h.same

/-- What survives the changes of the table survives every event that happens at such a time. -/
theorem step {s s' : Server} (hs : TableOk s ∧ P s) (e : Event) (hT : ∀ now, e.time = some now → T now)
    (hdelete : ∀ i now conn, e = .cleanup i now → s.connection i = some conn →
      conn.isSafeDelete now = true →
      P { s with connectionEnv := s.connectionEnv.onConnectionDelete conn.connectionKey })
    (hstep : s.step e = some s') : TableOk s' ∧ P s' := by
  refine h.closedConnections.step h.closedTick h.closedLogins hs e hT (fun _ _ => trivial) hdelete ?_
    ?_ hstep
  · intro task now posted _
    exact h.closedConnections.of_schedule h.closedSchedules hs task now posted
  · intro task o o' _ hqueued
    exact h.closedConnections.of_runTask h.closedTasks hs task o o' hqueued fun _ _ => trivial

end ClosedTable

/-! ## Keys as handles

A raw key is 64 bits from anywhere, for instance from a database. Its lower half is taken for an index and
its upper half is compared with the tick at which the connection in that slot was created.
-/

/-- `try_acquire_connection` looks at a slot that exists, and it returns a connection exactly if it
is in the table, was made with that very key and has not been set offline. -/
structure Server.SafeHandle (s : Server) (raw : BitVec 64) : Prop where
  slot_lt : (ConnectionKey.ofRaw raw).index < s.connectionEnv.numOfMaxConnections
  acquires : ∀ conn, s.tryAcquireConnection (ConnectionKey.ofRaw raw) = some conn ↔
    ∃ i, s.connection i = some conn ∧ conn.connectionKey.raw = raw ∧ conn.isOnline = true

/-- No two connections were given the same key. -/
def UniqueKeys (log : List Record) : Prop := ((acceptedKeys log).map ConnectionKey.raw).Nodup

/-- The clock of the run does not go back, and stays within the 2^32 ms from `start` on. -/
structure ShortRun (start : Nat) (es : List Event) : Prop where
  monotone : (es.filterMap Event.time).Pairwise (· ≤ ·)
  within : ∀ now ∈ es.filterMap Event.time, start ≤ now ∧ now < start + 2 ^ 32

/-- The keys of a table of `n` slots: they fit their fields, those in the table were given out, and
no slot is added. -/
structure KeysOk (n : Nat) (s : Server) : Prop where
  slots : s.connectionEnv.numOfMaxConnections = n
  accepted : ∀ key ∈ acceptedKeys s.log, key.index < n ∧ key.createdAt < 2 ^ 32
  given : ∀ i conn, s.connection i = some conn → conn.connectionKey ∈ acceptedKeys s.log

namespace KeysOk

variable {n : Nat}

/-- The connection in a slot keeps its key. -/
theorem of_replace {s t : Server} {i : Nat} {conn conn' : Connection} (h : KeysOk n s)
    (hreplace : ReplacesConnection s t i conn conn') : KeysOk n t := by
  refine ⟨hreplace.slots.trans h.slots, hreplace.keys ▸ h.accepted, fun j c hc => ?_⟩
  rw [hreplace.keys]
  rcases hreplace.cases hc with ⟨-, rfl⟩ | ⟨-, hc⟩
  · rw [hreplace.connectionKey]
    exact h.given i conn hreplace.before
  · exact h.given j c hc

/-- The key of a new connection leads to its slot. -/
theorem of_adds {s t : Server} {i now : Nat} (h : KeysOk n s) (hadds : AddsConnection s t i now) :
    KeysOk n t where
  slots := hadds.slots.trans h.slots
  accepted key hkey := by
    rw [hadds.keys] at hkey
    rcases List.mem_cons.mp hkey with rfl | hkey
    · exact ⟨h.slots ▸ hadds.index_lt, Nat.mod_lt _ (by decide)⟩
    · exact h.accepted key hkey
  given j c hc := by
    rw [hadds.keys]
    by_cases hj : j = i
    · subst hj
      obtain rfl := Option.some.inj (hc.symm.trans hadds.after)
      exact List.mem_cons_self
    · exact List.mem_cons_of_mem _ (h.given j c ((hadds.others j hj).symm.trans hc))

/-- Deleting a connection gives out no key. -/
theorem delete {s : Server} (h : KeysOk n s) (ht : TableOk s) {i : Nat} {conn : Connection}
    (hconn : s.connection i = some conn) :
    KeysOk n { s with connectionEnv := s.connectionEnv.onConnectionDelete conn.connectionKey } :=
  ⟨h.slots, h.accepted, fun j c hc => h.given j c (Server.of_delete_connection ht hconn hc)⟩

theorem closedTable : ClosedTable (KeysOk n) fun _ => True where
  same h hst :=
    ⟨hst.connectionEnv ▸ h.slots, hst.keys ▸ h.accepted,
      fun i conn hconn => hst.keys ▸ h.given i conn ((hst.connection i).symm.trans hconn)⟩
  touch h hreplace _ _ := h.of_replace hreplace
  goOffline _ h hreplace := h.of_replace hreplace
  add _ h hadds := h.of_adds hadds

theorem init (metadata : WorldMetadata) (blockMapping : List UInt8) :
    KeysOk n (Server.init n metadata blockMapping) where
  slots := rfl
  accepted _ hkey := nomatch hkey
  given _ _ hconn := nomatch hconn

/-- Every event keeps the keys in order. -/
theorem step {s s' : Server} (hs : TableOk s ∧ KeysOk n s) (e : Event) (hstep : s.step e = some s') :
    TableOk s' ∧ KeysOk n s' :=
  closedTable.step hs e (fun _ _ => trivial) (fun _ _ _ _ hconn _ => hs.2.delete hs.1 hconn) hstep

theorem of_run {metadata : WorldMetadata} {blockMapping : List UInt8} {es : List Event} {s : Server}
    (hrun : run Server.step (Server.init n metadata blockMapping) es = some s) :
    TableOk s ∧ KeysOk n s :=
  run_invariant (P := fun s => TableOk s ∧ KeysOk n s)
    (fun _ e _ hs hstep => step hs e hstep) ⟨TableOk.init .., init ..⟩ hrun

/-- A key of the table is found exactly by its raw value. -/
theorem safeHandle {s : Server} (h : KeysOk n s) (ht : TableOk s) (hn : n ≤ 2 ^ 32) {raw : BitVec 64}
    (hlt : (ConnectionKey.ofRaw raw).index < n) : s.SafeHandle raw := by
  refine ⟨h.slots.symm ▸ hlt, fun conn => ⟨fun hacq => ?_, ?_⟩⟩
  · obtain ⟨hconn, honline, hkey⟩ := ht.of_tryAcquire hacq
    refine ⟨_, hconn, ?_, honline⟩
    rw [hkey, ConnectionKey.raw_ofRaw]
  · rintro ⟨i, hconn, rfl, honline⟩
    obtain ⟨hindex, hcreated⟩ := h.accepted _ (h.given i conn hconn)
    rw [ConnectionKey.ofRaw_raw ⟨Nat.lt_of_lt_of_le hindex hn, hcreated⟩]
    exact ht.tryAcquire_of_online hconn honline

end KeysOk

/-! ## Keys are unique

Two keys for one slot have different ticks, since a slot is only used again after its connection was offline
for five seconds; that needs a clock that does not go back and has not wrapped.
-/

/-- A key that was given out at `time`, not after `now`: it was given out before `now`, or its
connection is still in the table, and went offline, if it did, not before `time`. -/
structure GivenAt (s : Server) (start now : Nat) (key : ConnectionKey) (time : Nat) : Prop where
  start_le : start ≤ time
  le_now : time ≤ now
  createdAt : key.createdAt = monotonicTick32 time
  held : time < now ∨ ∃ conn, s.connection key.index = some conn ∧ conn.connectionKey = key ∧
    (conn.isOnline = false → time ≤ conn.lastOfflineTick)

/-- At `now` the keys given out since `start` are distinct. -/
structure TimesOk (start now : Nat) (s : Server) : Prop where
  given : ∀ key ∈ acceptedKeys s.log, ∃ time, GivenAt s start now key time
  nodup : (acceptedKeys s.log).Nodup

namespace GivenAt

variable {s t : Server} {start now time : Nat} {key : ConnectionKey}

/-- What was given before a time was given before any later one. -/
theorem later (h : GivenAt s start now key time) {now' : Nat} (hle : now ≤ now') :
    GivenAt s start now' key time :=
  ⟨h.start_le, h.le_now.trans hle, h.createdAt, h.held.imp_left fun hlt => Nat.lt_of_lt_of_le hlt hle⟩

/-- The connection of a slot is replaced, and goes offline at `now` if it does. -/
theorem of_replace (h : GivenAt s start now key time) {i : Nat} {conn conn' : Connection}
    (hreplace : ReplacesConnection s t i conn conn')
    (hoffline : conn'.isOnline = false →
      conn'.lastOfflineTick = now ∨
        (conn.isOnline = false ∧ conn'.lastOfflineTick = conn.lastOfflineTick)) :
    GivenAt t start now key time := by
  refine ⟨h.start_le, h.le_now, h.createdAt, ?_⟩
  rcases h.held with hlt | ⟨c, hc, hkey, htick⟩
  · exact Or.inl hlt
  · by_cases hi : key.index = i
    · rw [hi] at hc
      obtain rfl : c = conn := Option.some.inj (hc.symm.trans hreplace.before)
      refine Or.inr ⟨conn', hi ▸ hreplace.after, hreplace.connectionKey.trans hkey, fun hoff => ?_⟩
      rcases hoffline hoff with heq | ⟨hwas, heq⟩
      · exact heq ▸ h.le_now
      · exact heq ▸ htick hwas
    · exact Or.inr ⟨c, (hreplace.others _ hi).trans hc, hkey, htick⟩

end GivenAt

namespace TimesOk

variable {s t : Server} {start now : Nat}

theorem later (h : TimesOk start now s) {now' : Nat} (hle : now ≤ now') : TimesOk start now' s := by
  refine ⟨fun key hkey => ?_, h.nodup⟩
  obtain ⟨time, hgiven⟩ := h.given key hkey
  exact ⟨time, hgiven.later hle⟩

theorem of_replace (h : TimesOk start now s) {i : Nat} {conn conn' : Connection}
    (hreplace : ReplacesConnection s t i conn conn')
    (hoffline : conn'.isOnline = false →
      conn'.lastOfflineTick = now ∨
        (conn.isOnline = false ∧ conn'.lastOfflineTick = conn.lastOfflineTick)) :
    TimesOk start now t := by
  refine ⟨fun key hkey => ?_, hreplace.keys ▸ h.nodup⟩
  rw [hreplace.keys] at hkey
  obtain ⟨time, hgiven⟩ := h.given key hkey
  exact ⟨time, hgiven.of_replace hreplace hoffline⟩

/-- A key given out at `now` is new: the earlier ones of its slot, which is free, were given out
before `now`, and less than 2^32 ms before. -/
theorem of_adds (h : TimesOk start now s) {i : Nat} (hadds : AddsConnection s t i now)
    (hstart : start ≤ now) (hshort : now < start + 2 ^ 32) : TimesOk start now t := by
  refine ⟨fun key hkey => ?_, ?_⟩
  · rw [hadds.keys] at hkey
    rcases List.mem_cons.mp hkey with rfl | hkey
    · refine ⟨now, hstart, Nat.le_refl _, rfl, Or.inr ⟨_, hadds.after, rfl, ?_⟩⟩
      exact fun hoff => Bool.noConfusion hoff
    · obtain ⟨time, hgiven⟩ := h.given key hkey
      refine ⟨time, hgiven.start_le, hgiven.le_now, hgiven.createdAt, ?_⟩
      rcases hgiven.held with hlt | ⟨conn, hconn, hrest⟩
      · exact Or.inl hlt
      · have hi : key.index ≠ i := by
          rintro rfl
          rw [hadds.free] at hconn
          cases hconn
        exact Or.inr ⟨conn, (hadds.others _ hi).trans hconn, hrest⟩
  · rw [hadds.keys, List.nodup_cons]
    refine ⟨fun hmem => ?_, h.nodup⟩
    obtain ⟨time, hgiven⟩ := h.given _ hmem
    have hcreated := hgiven.createdAt
    have hsince := hgiven.start_le
    rcases hgiven.held with hlt | ⟨conn, hconn, -⟩
    · simp only [monotonicTick32] at hcreated
      omega
    · rw [hadds.free] at hconn
      cases hconn

/-- A connection is deleted no earlier than five seconds after it went offline. -/
theorem delete (h : TimesOk start now s) (ht : TableOk s) {i : Nat} {conn : Connection}
    (hconn : s.connection i = some conn) (hsafe : conn.isSafeDelete now = true) :
    TimesOk start now
      { s with connectionEnv := s.connectionEnv.onConnectionDelete conn.connectionKey } := by
  refine ⟨fun key hkey => ?_, h.nodup⟩
  obtain ⟨time, hgiven⟩ := h.given key hkey
  refine ⟨time, hgiven.start_le, hgiven.le_now, hgiven.createdAt, ?_⟩
  rcases hgiven.held with hlt | ⟨c, hc, hkeyc, htick⟩
  · exact Or.inl hlt
  · by_cases hi : key.index = i
    · rw [hi] at hc
      obtain rfl : c = conn := Option.some.inj (hc.symm.trans hconn)
      have hoffline := htick (Connection.offline_of_isSafeDelete hsafe)
      have hpast := Connection.lastOfflineTick_lt_of_isSafeDelete hsafe
      exact Or.inl (Nat.lt_of_le_of_lt hoffline hpast)
    · exact Or.inr ⟨c, (Server.delete_connection_of_ne ht hconn hi).trans hc, hkeyc, htick⟩

theorem closedTable (hstart : start ≤ now) (hshort : now < start + 2 ^ 32) :
    ClosedTable (TimesOk start now) (· = now) where
  same h hst := by
    refine ⟨fun key hkey => ?_, hst.keys ▸ h.nodup⟩
    obtain ⟨time, hgiven⟩ := h.given key (hst.keys ▸ hkey)
    refine ⟨time, hgiven.start_le, hgiven.le_now, hgiven.createdAt, ?_⟩
    rw [hst.connection]
    exact hgiven.held
  touch h hreplace honline htick :=
    h.of_replace hreplace fun hoff => Or.inr ⟨honline.symm.trans hoff, htick⟩
  goOffline hT h hreplace := h.of_replace hreplace fun _ => Or.inl hT
  add hT h hadds := by
    subst hT
    exact h.of_adds hadds hstart hshort

/-- An event at `now`, or one that does not read the clock. -/
theorem step {s' : Server} (hs : TableOk s ∧ TimesOk start now s) (e : Event)
    (htime : ∀ time, e.time = some time → time = now) (hstart : start ≤ now)
    (hshort : now < start + 2 ^ 32) (hstep : s.step e = some s') : TableOk s' ∧ TimesOk start now s' := by
  refine (closedTable hstart hshort).step hs e htime (fun i time conn he hconn hsafe => ?_) hstep
  obtain rfl := htime time (by rw [he]; rfl)
  exact hs.2.delete hs.1 hconn hsafe

/-- A run whose clock does not go back. -/
theorem run {es : List Event} {last : Nat} (hs : TableOk s ∧ TimesOk start last s)
    (hstart : start ≤ last) (hlast : last < start + 2 ^ 32)
    (hmonotone : (es.filterMap Event.time).Pairwise (· ≤ ·))
    (hwithin : ∀ now ∈ es.filterMap Event.time, last ≤ now ∧ now < start + 2 ^ 32)
    (hrun : Lib.run Server.step s es = some t) : (acceptedKeys t.log).Nodup := by
  induction es generalizing s last with
  | nil =>
      obtain rfl : s = t := by simpa using hrun
      exact hs.2.nodup
  | cons e es ih =>
      obtain ⟨s', hstep, hrest⟩ := run_cons_eq_some.mp hrun
      cases htime : e.time with
      | none =>
          rw [List.filterMap_cons_none htime] at hmonotone hwithin
          have hs' := step hs e (fun _ h => by rw [htime] at h; cases h) hstart hlast hstep
          exact ih hs' hstart hlast hmonotone hwithin hrest
      | some now =>
          rw [List.filterMap_cons_some htime] at hmonotone hwithin
          obtain ⟨hlater, hmonotone⟩ := List.pairwise_cons.mp hmonotone
          obtain ⟨hle, hlt⟩ := hwithin now List.mem_cons_self
          have hs' := step ⟨hs.1, hs.2.later hle⟩ e
            (fun _ h => by rw [htime] at h; exact (Option.some.inj h).symm) (hstart.trans hle) hlt hstep
          exact ih hs' (hstart.trans hle) hlt hmonotone
            (fun time hmem => ⟨hlater time hmem, (hwithin time (List.mem_cons_of_mem _ hmem)).2⟩) hrest

end TimesOk

namespace Server

/-- The keys of a run of the table: they fit their fields, and those of a short run are distinct. -/
theorem uniqueKeys_of_run {maxClients : Nat} {metadata : WorldMetadata} {blockMapping : List UInt8}
    {es : List Event} {s : Server} (hmax : maxClients < 2 ^ 32)
    (hrun : run Server.step (Server.init maxClients metadata blockMapping) es = some s) {start : Nat}
    (hshort : ShortRun start es) : UniqueKeys s.log := by
  have hkeys := KeysOk.of_run hrun
  have hnodup : (acceptedKeys s.log).Nodup := by
    have hinit : TimesOk start start (Server.init maxClients metadata blockMapping) :=
      { given := fun _ hkey => (List.not_mem_nil hkey).elim, nodup := List.nodup_nil }
    exact TimesOk.run ⟨TableOk.init .., hinit⟩ (Nat.le_refl _) (by omega) hshort.monotone hshort.within
      hrun
  refine hnodup.map_on fun key hkey key' hkey' heq => ?_
  obtain ⟨hindex, hcreated⟩ := hkeys.2.accepted key hkey
  obtain ⟨hindex', hcreated'⟩ := hkeys.2.accepted key' hkey'
  exact ConnectionKey.raw_inj ⟨by omega, hcreated⟩ ⟨by omega, hcreated'⟩ heq

/-- **Connection keys.** A raw key is a safe handle, and the keys of a short run are distinct, exactly when
the index in the key is that of a slot: the lookup does not check it. For an index in range a key leads to
the one connection that it was created for, as long as that is online; and as long as the clock does not go
back and stays below `2 ^ 32` milliseconds, no key is given twice. -/
theorem safeHandle_iff {maxClients : Nat} {metadata : WorldMetadata} {blockMapping : List UInt8}
    {es : List Event} {s : Server} (hmax : maxClients < 2 ^ 32)
    (hrun : run Server.step (Server.init maxClients metadata blockMapping) es = some s)
    (raw : BitVec 64) :
    (s.SafeHandle raw ∧ ∀ start, ShortRun start es → UniqueKeys s.log) ↔
      (ConnectionKey.ofRaw raw).index < maxClients := by
  have hkeys := KeysOk.of_run hrun
  constructor
  · intro h
    exact hkeys.2.slots ▸ h.1.slot_lt
  · intro hlt
    exact ⟨hkeys.2.safeHandle hkeys.1 hmax.le hlt, fun _ => uniqueKeys_of_run hmax hrun⟩

/-- The key of the first connection finds it. -/
theorem safeHandle_iff_guestLogin :
    ∃ s, run Server.step Server.small (guestLogin 0) = some s ∧
      ((s.SafeHandle 1 ∧ ∀ start, ShortRun start (guestLogin 0) → UniqueKeys s.log) ↔
        (ConnectionKey.ofRaw 1).index < 2) := by
  obtain ⟨s, hs⟩ := Option.isSome_iff_exists.mp
    (show (run Server.step Server.small (guestLogin 0)).isSome = true by decide)
  exact ⟨s, hs, safeHandle_iff (by decide) hs 1⟩

/-- A client logs in, and the reply names a previous connection in slot 5 of a table of two. -/
def foreignPreviousKey : List Event :=
  [.accept 0, .receive 0 (.handshake [97] [] 0) 0 true 0,
    .response 0 { errorCode := ErrorCode.success, prevConnectionKey := ConnectionKey.ofRaw 5 } 0 true]

/-- The key of that reply is looked up in a slot that does not exist. -/
theorem not_safeHandle_foreignPreviousKey :
    ∃ s, run Server.step Server.small foreignPreviousKey = some s ∧ ¬ s.SafeHandle 5 := by
  have hrun : ((run Server.step Server.small foreignPreviousKey).map fun s =>
      s.connectionEnv.numOfMaxConnections) = some 2 := by decide
  obtain ⟨s, hs, hslots⟩ := Option.map_eq_some_iff.mp hrun
  refine ⟨s, hs, fun h => ?_⟩
  have hlt := h.slot_lt
  rw [hslots] at hlt
  exact absurd hlt (by decide)

end Server

end Mmocraft
