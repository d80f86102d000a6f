/-
# Mmocraft.Server.Attached -- which players belong to an online connection

A player is attached while its connection is online and still has it.  A player is attached when it
is constructed; it stops being attached when its connection goes offline or another player replaces
it, and never becomes attached again.

That an attached player can be found is what most invariants about players need: its connection is online in
some slot, the connection names the player, and a task that refers to the player reaches exactly that
connection (`tryAcquireOf_of_hasPlayer`). Each move of a connection has an equivalence here that says who is
attached after it, in terms of who was before; the invariants then follow a player through the table without
opening it.

`OnlineId` is the same for a connection, by its number: numbers are never given twice, so a connection that
went offline is told from the one that is in its slot later.
-/
import Mmocraft.Server.Moves

namespace Mmocraft

open Mmocraft.Lib Mmocraft.Game Mmocraft.Net

namespace Server

/-- Player `p` belongs to an online connection. -/
def Attached (s : Server) (p : Nat) : Prop :=
  ∃ i conn, s.HasPlayer i conn p ∧ conn.isOnline = true

/-- A player in the slot of an online connection is attached. -/
theorem HasPlayer.attached {s : Server} {i p : Nat} {conn : Connection} (hp : s.HasPlayer i conn p)
    (honline : conn.isOnline = true) : s.Attached p := ⟨i, conn, hp, honline⟩

/-- The same connections have the same players. -/
theorem attached_congr {s t : Server} (h : ∀ i, t.connection i = s.connection i) (p : Nat) :
    t.Attached p ↔ s.Attached p := by
  simp only [Attached, HasPlayer, h]

/-- The players of a table that stays are attached to the same connections. -/
theorem attached_of_env {s t : Server} (h : t.connectionEnv = s.connectionEnv) (p : Nat) :
    t.Attached p ↔ s.Attached p :=
  attached_congr (fun i => by rw [Server.connection, Server.connection, h]) p

/-- The connection of one slot is replaced. -/
theorem attached_of_replace {s t : Server} {i : Nat} {conn : Connection}
    (hself : t.connection i = some conn) (hother : ∀ j, j ≠ i → t.connection j = s.connection j)
    (p : Nat) :
    t.Attached p ↔ (conn.player = some p ∧ conn.isOnline = true) ∨
      ∃ j c, j ≠ i ∧ s.HasPlayer j c p ∧ c.isOnline = true := by
  constructor
  · rintro ⟨j, c, ⟨hc, hp⟩, honline⟩
    by_cases hj : j = i
    · subst hj
      obtain rfl : conn = c := Option.some.inj (hself.symm.trans hc)
      exact Or.inl ⟨hp, honline⟩
    · exact Or.inr ⟨j, c, hj, ⟨hother j hj ▸ hc, hp⟩, honline⟩
  · rintro (⟨hp, honline⟩ | ⟨j, c, hj, ⟨hc, hp⟩, honline⟩)
    · exact ⟨i, conn, ⟨hself, hp⟩, honline⟩
    · exact ⟨j, c, ⟨(hother j hj).trans hc, hp⟩, honline⟩

/-- The players of the other slots, with an online connection in slot `i`. -/
theorem attached_other_iff {s : Server} (ht : TableOk s) {i : Nat} {conn : Connection}
    (hconn : s.connection i = some conn) (p : Nat) :
    (∃ j c, j ≠ i ∧ s.HasPlayer j c p ∧ c.isOnline = true) ↔
      s.Attached p ∧ conn.player ≠ some p := by
  constructor
  · rintro ⟨j, c, hj, hp, honline⟩
    exact ⟨⟨j, c, hp, honline⟩, fun heq => hj (ht.hasPlayer_unique hp ⟨hconn, heq⟩).1⟩
  · rintro ⟨⟨j, c, hp, honline⟩, hne⟩
    refine ⟨j, c, ?_, hp, honline⟩
    rintro rfl
    obtain rfl : conn = c := Option.some.inj (hconn.symm.trans hp.1)
    exact hne hp.2

/-- Connection `c` is online. -/
def OnlineId (s : Server) (c : Nat) : Prop :=
  ∃ i conn, s.connection i = some conn ∧ conn.isOnline = true ∧ conn.id = c

/-- Who is online after one slot was written to. -/
theorem onlineId_of_replace {s t : Server} {i : Nat} {conn : Connection}
    (hself : t.connection i = some conn) (hother : ∀ j, j ≠ i → t.connection j = s.connection j)
    {c : Nat} (h : t.OnlineId c) : (conn.isOnline = true ∧ conn.id = c) ∨
      ∃ j d, j ≠ i ∧ s.connection j = some d ∧ d.isOnline = true ∧ d.id = c := by
  obtain ⟨j, d, hd, honline, hid⟩ := h
  by_cases hj : j = i
  · subst hj
    obtain rfl : conn = d := Option.some.inj (hself.symm.trans hd)
    exact Or.inl ⟨honline, hid⟩
  · exact Or.inr ⟨j, d, hj, hother j hj ▸ hd, honline, hid⟩

/-! ## The moves of connections -/

/-- The player of a connection is the one that was constructed last. -/
theorem setPlayer_connection {s : Server} {i : Nat} {conn : Connection}
    (hconn : s.connection i = some conn) (player : Player) :
    (s.setPlayer i conn player).connection i =
      some { conn with player := some s.numOfPlayers } := by
  show ((s.connectionEnv.updateConnection i _).table i).connection = _
  rw [TableOk.updateConnection_table hconn, Function.update_self]

theorem setPlayer_connection_of_ne {s : Server} {i j : Nat} (conn : Connection) (player : Player)
    (hj : j ≠ i) : (s.setPlayer i conn player).connection j = s.connection j :=
  congrArg ConnectionEntry.connection (Function.update_of_ne hj _ _)

/-- An interaction brings nobody online. -/
theorem onlineId_interact {s : Server} {i : Nat} {conn : Connection}
    (hconn : s.connection i = some conn) {now c : Nat} (h : (s.interact i now).OnlineId c) :
    s.OnlineId c := by
  have hother : ∀ j, j ≠ i → (s.interact i now).connection j = s.connection j := fun j hj =>
    congrArg ConnectionEntry.connection (Function.update_of_ne hj _ _)
  rcases onlineId_of_replace (TableOk.interact_connection hconn now) hother h with
    ⟨honline, hid⟩ | ⟨j, d, -, hd⟩
  · exact ⟨i, conn, hconn, honline, hid⟩
  · exact ⟨j, d, hd⟩

theorem onlineId_handshake {s : Server} {i : Nat} {conn : Connection}
    (hconn : s.connection i = some conn) {username password : List UInt8} {cpeMagic : UInt8}
    {garbage : PlayerTypeId} {c : Nat}
    (h : (s.handleHandshakePacket i conn username password cpeMagic garbage).OnlineId c) :
    s.OnlineId c := by
  obtain ⟨cur, next, -, heq⟩ := s.handshake_eq i conn username password cpeMagic garbage
  rw [heq] at h
  have hset : (s.setPlayer i conn (Player.new conn.connectionKey username garbage)).OnlineId c := h
  rcases onlineId_of_replace (setPlayer_connection hconn _)
    (fun j hj => setPlayer_connection_of_ne conn _ hj) hset with ⟨honline, hid⟩ | ⟨j, d, -, hd⟩
  · exact ⟨i, conn, hconn, honline, hid⟩
  · exact ⟨j, d, hd⟩

section Moves

variable {s : Server} (ht : TableOk s) {i : Nat} {conn : Connection}
  (hconn : s.connection i = some conn)

include ht hconn

/-- Nor does it attach or detach a player. -/
theorem attached_interact (now p : Nat) : (s.interact i now).Attached p ↔ s.Attached p := by
  have hother : ∀ j, j ≠ i → (s.interact i now).connection j = s.connection j := fun j hj =>
    congrArg ConnectionEntry.connection (Function.update_of_ne hj _ _)
  rw [attached_of_replace (TableOk.interact_connection hconn now) hother,
    attached_other_iff ht hconn]
  constructor
  · rintro (⟨hp, honline⟩ | ⟨hp, -⟩)
    · exact ⟨i, conn, ⟨hconn, hp⟩, honline⟩
    · exact hp
  · intro hp
    by_cases heq : conn.player = some p
    · obtain ⟨j, c, hc, honline⟩ := hp
      obtain ⟨rfl, rfl⟩ := ht.hasPlayer_unique hc ⟨hconn, heq⟩
      exact Or.inl ⟨heq, honline⟩
    · exact Or.inr ⟨hp, heq⟩

/-- What `set_offline` writes to the table: the stores in the connection, and the mark of its entry. -/
theorem setOffline_table (now : Nat) :
    (s.setOffline i conn now).connectionEnv.table = Function.update s.connectionEnv.table i
      { s.connectionEnv.table i with
        connection := some (conn.setOffline now)
        willDelete := true } := by
  show ((s.connectionEnv.updateConnection i _).onConnectionOffline conn.connectionKey).table = _
  simp only [ConnectionEnvironment.onConnectionOffline, ConnectionEnvironment.updateEntry,
    ht.key_index i conn hconn]
  rw [TableOk.updateConnection_table hconn, Function.update_self, Function.update_idem]

theorem setOffline_connection (now : Nat) : (s.setOffline i conn now).connection i =
    some (conn.setOffline now) := by
  rw [Server.connection, setOffline_table ht hconn, Function.update_self]

theorem setOffline_connection_of_ne (now : Nat) {j : Nat} (hj : j ≠ i) :
    (s.setOffline i conn now).connection j = s.connection j := by
  rw [Server.connection, setOffline_table ht hconn, Function.update_of_ne hj]
  rfl

/-- Going offline detaches the player of the connection, and no other. -/
theorem attached_setOffline (now p : Nat) :
    (s.setOffline i conn now).Attached p ↔ s.Attached p ∧ conn.player ≠ some p := by
  rw [attached_of_replace (setOffline_connection ht hconn now)
    fun j hj => setOffline_connection_of_ne ht hconn now hj, attached_other_iff ht hconn]
  constructor
  · rintro (⟨-, honline⟩ | h)
    · cases honline
    · exact h
  · exact Or.inr

/-- The connection itself is not online any more, and the others are as they were. -/
theorem onlineId_setOffline {now c : Nat} (h : (s.setOffline i conn now).OnlineId c) :
    s.OnlineId c ∧ c ≠ conn.id := by
  rcases onlineId_of_replace (setOffline_connection ht hconn now)
    (fun j hj => setOffline_connection_of_ne ht hconn now hj) h with
    ⟨honline, -⟩ | ⟨j, d, hj, hd, honline, hid⟩
  · cases honline
  · exact ⟨⟨j, d, hd, honline, hid⟩, fun heq => hj (ht.id_inj j i d conn hd hconn (hid.trans heq))⟩

/-- A new player replaces the old one. -/
theorem attached_setPlayer (honline : conn.isOnline = true) (player : Player) (p : Nat) :
    (s.setPlayer i conn player).Attached p ↔
      p = s.numOfPlayers ∨ (s.Attached p ∧ conn.player ≠ some p) := by
  rw [attached_of_replace (setPlayer_connection hconn player)
    fun j hj => setPlayer_connection_of_ne conn player hj, attached_other_iff ht hconn]
  simp [honline, eq_comm]

theorem attached_handshake (honline : conn.isOnline = true) (username password : List UInt8)
    (cpeMagic : UInt8) (garbage : PlayerTypeId) (p : Nat) :
    (s.handleHandshakePacket i conn username password cpeMagic garbage).Attached p ↔
      p = s.numOfPlayers ∨ (s.Attached p ∧ conn.player ≠ some p) := by
  obtain ⟨cur, next, -, heq⟩ := s.handshake_eq i conn username password cpeMagic garbage
  rw [heq]
  exact (attached_of_env (s := s.setPlayer i conn (Player.new conn.connectionKey username garbage)) rfl
    p).trans (attached_setPlayer ht hconn honline _ p)

/-- The slot of a connection that was deleted is empty. -/
theorem delete_connection : Server.connection
    { s with connectionEnv := s.connectionEnv.onConnectionDelete conn.connectionKey } i = none := by
  show (Function.update s.connectionEnv.table conn.connectionKey.index _ i).connection = none
  rw [ht.key_index i conn hconn, Function.update_self]

theorem delete_connection_of_ne {j : Nat} (hj : j ≠ i) : Server.connection
    { s with connectionEnv := s.connectionEnv.onConnectionDelete conn.connectionKey } j =
      s.connection j := by
  show (Function.update s.connectionEnv.table conn.connectionKey.index _ j).connection = _
  rw [ht.key_index i conn hconn, Function.update_of_ne hj]
  rfl

/-- Deleting a connection leaves the other ones. -/
theorem of_delete_connection {j : Nat} {c : Connection} (hc : Server.connection
    { s with connectionEnv := s.connectionEnv.onConnectionDelete conn.connectionKey } j = some c) :
    s.connection j = some c := by
  by_cases hj : j = i
  · rw [hj, delete_connection ht hconn] at hc
    cases hc
  · rwa [delete_connection_of_ne ht hconn hj] at hc

theorem onlineId_delete {c : Nat} (h : Server.OnlineId
    { s with connectionEnv := s.connectionEnv.onConnectionDelete conn.connectionKey } c) :
    s.OnlineId c := by
  obtain ⟨j, d, hd, hrest⟩ := h
  exact ⟨j, d, of_delete_connection ht hconn hd, hrest⟩

/-- Deleting a connection that is offline detaches nobody. -/
theorem attached_delete (hoffline : conn.isOnline = false) (p : Nat) :
    Server.Attached { s with connectionEnv := s.connectionEnv.onConnectionDelete conn.connectionKey }
      p ↔ s.Attached p := by
  constructor
  · rintro ⟨j, c, ⟨hc, hp⟩, honline⟩
    exact ⟨j, c, ⟨of_delete_connection ht hconn hc, hp⟩, honline⟩
  · rintro ⟨j, c, ⟨hc, hp⟩, honline⟩
    have hj : j ≠ i := by
      rintro rfl
      obtain rfl : conn = c := Option.some.inj (hconn.symm.trans hc)
      rw [hoffline] at honline
      cases honline
    exact ⟨j, c, ⟨(delete_connection_of_ne ht hconn hj).trans hc, hp⟩, honline⟩

end Moves

/-- A new connection has no player, and takes the slot of no other. -/
theorem accept_cases {s : Server} (ht : TableOk s) (now : Nat) :
    s.accept now = s ∨ ∃ i conn, s.connection i = none ∧ conn.player = none ∧
      conn.id = s.numOfAccepted ∧ (s.accept now).connection i = some conn ∧
      ∀ j, j ≠ i → (s.accept now).connection j = s.connection j := by
  unfold Server.accept
  by_cases hfull : s.connectionEnv.numOfMaxConnections ≤ s.connectionEnv.numOfConnections
  · exact Or.inl (if_pos hfull)
  · have hcountlt : countUsed s.connectionEnv.table s.connectionEnv.numOfMaxConnections <
        s.connectionEnv.numOfMaxConnections := by
      have := ht.count
      omega
    obtain ⟨-, hunused⟩ := getUnusedConnectionId_spec s.connectionEnv hcountlt
    rw [if_neg hfull]
    set i := s.connectionEnv.getUnusedConnectionId
    refine Or.inr ⟨i, { id := s.numOfAccepted, connectionKey := ⟨i, monotonicTick32 now⟩
                        lastInteractionTick := now }, ?_, rfl, rfl, ?_, fun j hj => ?_⟩
    · cases hc : s.connection i with
      | none => rfl
      | some conn =>
          have hused := (ht.used_iff i).mpr (by rw [hc]; rfl)
          rw [hunused] at hused
          cases hused
    · show (Function.update s.connectionEnv.table i _ i).connection = _
      rw [Function.update_self]
    · show (Function.update s.connectionEnv.table i _ j).connection = _
      rw [Function.update_of_ne hj]
      rfl

/-- A new connection has no player. -/
theorem attached_accept {s : Server} (ht : TableOk s) (now p : Nat) :
    (s.accept now).Attached p ↔ s.Attached p := by
  rcases accept_cases ht now with heq | ⟨i, conn, hnone, hplayer, -, hself, hother⟩
  · rw [heq]
  · rw [attached_of_replace hself hother]
    constructor
    · rintro (⟨hp, -⟩ | ⟨j, c, -, hp, honline⟩)
      · rw [hplayer] at hp
        cases hp
      · exact ⟨j, c, hp, honline⟩
    · rintro ⟨j, c, hp, honline⟩
      refine Or.inr ⟨j, c, ?_, hp, honline⟩
      rintro rfl
      rw [hp.1] at hnone
      cases hnone

/-- The number of a new connection is a new one. -/
theorem onlineId_accept {s : Server} (ht : TableOk s) {now c : Nat} (h : (s.accept now).OnlineId c) :
    s.OnlineId c ∨ c = s.numOfAccepted := by
  rcases accept_cases ht now with heq | ⟨i, conn, -, -, hid, hself, hother⟩
  · rw [heq] at h
    exact Or.inl h
  · rcases onlineId_of_replace hself hother h with ⟨-, heq⟩ | ⟨j, d, -, hd⟩
    · exact Or.inr (heq.symm.trans hid)
    · exact Or.inl ⟨j, d, hd⟩

/-- An attached player's connection is online. -/
theorem Attached.onlineId {s : Server} (ht : TableOk s) {p : Nat} (h : s.Attached p) :
    s.OnlineId (s.owner p) := by
  obtain ⟨i, conn, hp, honline⟩ := h
  exact ⟨i, conn, hp.1, honline, (ht.player_owner _ _ _ hp).symm⟩

/-- An attached player's key gives its connection. -/
theorem tryAcquireOf_of_hasPlayer {s : Server} (ht : TableOk s) {i p : Nat} {conn : Connection}
    (hp : s.HasPlayer i conn p) (honline : conn.isOnline = true) : s.tryAcquireOf p = some conn := by
  rw [Server.tryAcquireOf, ht.player_key _ _ _ hp]
  exact ht.tryAcquire_of_online hp.1 honline

end Server

end Mmocraft
