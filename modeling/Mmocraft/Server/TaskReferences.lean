/-
# Mmocraft.Server.TaskReferences -- the players the world tasks refer to

The tasks keep references to players from the tick that queues them to the end of the task run.  The
tick only queues players of online connections, and a player keeps its connection until a second
handshake replaces it or the clean-up deletes the connection; neither of the two asks whether a task
still refers to the player.

A reference is safe as long as its player is owned by some connection in the table. Two events take a player
from its connection, and each has a condition of its own: a handshake replaces the player
(`ReplacesUnreferenced`, a condition on the call), a clean-up deletes the connection (`DeletesUnreferenced`,
on the event). Everything else either leaves the players where they are, or adds a reference to a player that
was just found in the table.
-/
import Mmocraft.Server.Lifecycle

namespace Mmocraft

open Mmocraft.Lib Mmocraft.Game Mmocraft.Net

namespace Server

/-- The players in the queue or in the list of a task. -/
def referencedPlayers (s : Server) : List Nat :=
  s.world.spawnPlayerTask.players ++ s.world.disconnectPlayerTask.players ++
    s.world.syncBlockTask.players

/-- A connection of the table owns the player. -/
def Owned (s : Server) (p : Nat) : Prop := ∃ i conn, s.HasPlayer i conn p

/-- **Task references.** Every player that a task refers to is owned by a connection. -/
def ReferencesLive (s : Server) : Prop := ∀ p ∈ s.referencedPlayers, s.Owned p

/-- A player is only replaced while no task refers to it. -/
def ReplacesUnreferenced (s : Server) : Call → Prop
  | .setPlayer i _ => ∀ p ∈ s.connectionEnv.playerOf i, p ∉ s.referencedPlayers
  | _ => True

/-- A connection is only deleted while no task refers to its player. -/
def DeletesUnreferenced (s : Server) : Event → Prop
  | .cleanup i now => ∀ conn ∈ s.connection i, conn.isSafeDelete now = true →
      ∀ p ∈ conn.player, p ∉ s.referencedPlayers
  | _ => True

instance (s : Server) : (call : Call) → Decidable (s.ReplacesUnreferenced call)
  | .setPlayer i _ =>
      inferInstanceAs (Decidable (∀ p ∈ s.connectionEnv.playerOf i, p ∉ s.referencedPlayers))
  | .disconnect _ | .setIdentity .. | .transit .. | .disconnectPlayer _ => isTrue trivial

instance (s : Server) (e : Event) : Decidable (s.DeletesUnreferenced e) := by
  unfold DeletesUnreferenced
  split <;> infer_instance

/-- The three tasks that keep references. -/
theorem mem_referencedPlayers {s : Server} {p : Nat} : p ∈ s.referencedPlayers ↔
    p ∈ s.world.spawnPlayerTask.players ∨ p ∈ s.world.disconnectPlayerTask.players ∨
      p ∈ s.world.syncBlockTask.players := by
  rw [referencedPlayers, List.mem_append, List.mem_append, or_assoc]

end Server

namespace Server.ReferencesLive

variable {s t : Server}

/-- No player loses its owner, and no task refers to a new one. -/
theorem kept (h : s.ReferencesLive) (howned : ∀ p, s.Owned p → t.Owned p)
    (hrefers : ∀ p ∈ t.referencedPlayers, p ∈ s.referencedPlayers) : t.ReferencesLive :=
  fun p hp => howned p (h p (hrefers p hp))

/-- The table is the same, and no reference is added. -/
theorem of_env (h : s.ReferencesLive) (henv : t.connectionEnv = s.connectionEnv)
    (hrefers : ∀ p ∈ t.referencedPlayers, p ∈ s.referencedPlayers) : t.ReferencesLive := by
  refine h.kept (fun p hp => ?_) hrefers
  obtain ⟨i, conn, hconn, hplayer⟩ := hp
  refine ⟨i, conn, ?_, hplayer⟩
  rw [Server.connection, henv]
  exact hconn

/-- The tasks refer to one more player, which a connection owns. -/
theorem add (h : s.ReferencesLive) (henv : t.connectionEnv = s.connectionEnv) {i p : Nat}
    {conn : Connection} (hp : s.HasPlayer i conn p)
    (hrefers : ∀ q ∈ t.referencedPlayers, q = p ∨ q ∈ s.referencedPlayers) : t.ReferencesLive := by
  intro q hq
  have howned : s.Owned q := by
    rcases hrefers q hq with rfl | hq
    · exact ⟨i, conn, hp⟩
    · exact h q hq
  obtain ⟨j, c, hc, hplayer⟩ := howned
  refine ⟨j, c, ?_, hplayer⟩
  rw [Server.connection, henv]
  exact hc

/-- A connection changes and keeps its player. -/
theorem of_replace (h : s.ReferencesLive) {i : Nat} {conn conn' : Connection}
    (hreplace : ReplacesConnection s t i conn conn') (hplayer : conn'.player = conn.player)
    (hworld : t.world = s.world) : t.ReferencesLive := by
  refine h.kept (fun p hp => ?_) fun p hp => ?_
  · obtain ⟨j, c, hc, hp⟩ := hp
    by_cases hj : j = i
    · subst hj
      obtain rfl := Option.some.inj (hc.symm.trans hreplace.before)
      exact ⟨j, conn', hreplace.after, hplayer.trans hp⟩
    · exact ⟨j, c, (hreplace.others j hj).trans hc, hp⟩
  · rwa [Server.referencedPlayers, hworld] at hp

/-- A quiet change moves no player and no reference. -/
theorem of_quiet (h : s.ReferencesLive) (hq : Quiet s t) : t.ReferencesLive := by
  refine h.of_env hq.connectionEnv fun p hp => ?_
  rw [Server.mem_referencedPlayers] at hp ⊢
  rwa [hq.spawnTask, hq.disconnectTask, hq.levelTask] at hp

/-- A new connection takes an empty slot. -/
theorem accept (h : s.ReferencesLive) (ht : TableOk s) (now : Nat) : (s.accept now).ReferencesLive := by
  refine h.kept (fun p hp => ?_) fun p hp => ?_
  · obtain ⟨j, c, hc, hp⟩ := hp
    rcases AddsConnection.accept ht now with heq | ⟨i, hadds⟩
    · rw [heq]
      exact ⟨j, c, hc, hp⟩
    · have hj : j ≠ i := by
        rintro rfl
        rw [hadds.free] at hc
        cases hc
      exact ⟨j, c, (hadds.others j hj).trans hc, hp⟩
  · rwa [Server.referencedPlayers, Server.accept_world] at hp

/-- A connection that goes offline keeps its player until it is deleted. -/
theorem disconnect (h : s.ReferencesLive) (ht : TableOk s) (i now : Nat) :
    (s.disconnect i now).ReferencesLive := by
  rcases s.disconnect_cases i now with heq | ⟨conn, p, -, -, -, heq⟩ | ⟨conn, hconn, -, -, heq⟩
  · rw [heq]
    exact h
  · rw [heq]
    exact h.of_env rfl fun _ hp => hp
  · rw [heq]
    exact h.of_replace (ReplacesConnection.setOffline ht hconn now) rfl rfl

/-- A handshake takes the connection from the player before. -/
theorem handshake (h : s.ReferencesLive) (ht : TableOk s) {i : Nat} {conn : Connection}
    (hconn : s.connection i = some conn) (honline : conn.isOnline = true)
    (username password : List UInt8) (cpeMagic : UInt8) (garbage : PlayerTypeId)
    (hC : s.ReplacesUnreferenced (.setPlayer i garbage)) :
    (s.handleHandshakePacket i conn username password cpeMagic garbage).ReferencesLive := by
  obtain ⟨cur, next, -, heq⟩ := s.handshake_eq i conn username password cpeMagic garbage
  have hreplace := ReplacesConnection.setPlayer hconn (Player.new conn.connectionKey username garbage)
  rw [heq]
  intro p hp
  obtain ⟨j, c, hc, hplayer⟩ := h p hp
  have hj : j ≠ i := by
    rintro rfl
    obtain rfl := Option.some.inj (hc.symm.trans hconn)
    exact hC p (ht.playerOf_eq ⟨hconn, hplayer⟩ honline) hp
  exact ⟨j, c, (hreplace.others j hj).trans hc, hplayer⟩

/-- Deleting a connection takes it from its player. -/
theorem delete (h : s.ReferencesLive) (ht : TableOk s) {i : Nat} {conn : Connection}
    (hconn : s.connection i = some conn) (hspared : ∀ p ∈ conn.player, p ∉ s.referencedPlayers) :
    Server.ReferencesLive
      { s with connectionEnv := s.connectionEnv.onConnectionDelete conn.connectionKey } := by
  intro p hp
  obtain ⟨j, c, hc, hplayer⟩ := h p hp
  have hj : j ≠ i := by
    rintro rfl
    obtain rfl := Option.some.inj (hc.symm.trans hconn)
    exact hspared p hplayer hp
  exact ⟨j, c, (Server.delete_connection_of_ne ht hconn hj).trans hc, hplayer⟩

theorem closedConnections : ClosedConnections (fun _ => True) Server.ReferencesLive
    Server.ReplacesUnreferenced fun _ => True where
  quiet _ _ hq h := h.of_quiet hq
  interact now _ _ _ hconn h := h.of_replace (ReplacesConnection.interact hconn now) rfl rfl
  accept now _ ht _ h := h.accept ht now
  disconnect i now _ ht _ _ h := h.disconnect ht i now
  handshake username password cpeMagic garbage ht _ hconn honline hC h :=
    h.handshake ht hconn honline username password cpeMagic garbage hC
  extEntry _ _ _ _ _ h := h.of_env rfl fun _ hp => hp

theorem closedTick : ClosedTick (fun _ => True) Server.ReferencesLive where
  syncing _ _ _ _ _ h := h.of_env rfl fun _ hp => hp
  levelWait _ _ hp _ _ h := by
    refine h.add rfl hp fun q hq => ?_
    rw [Server.mem_referencedPlayers] at hq ⊢
    rcases hq with hq | hq | hq
    · exact Or.inr (Or.inl hq)
    · exact Or.inr (Or.inr (Or.inl hq))
    · exact (WorldPlayerTask.mem_players_push.mp hq).imp_right fun hq => Or.inr (Or.inr hq)
  spawnWait _ _ hp _ _ h := by
    refine h.add rfl hp fun q hq => ?_
    rw [Server.mem_referencedPlayers] at hq ⊢
    rcases hq with hq | hq
    · exact (WorldPlayerTask.mem_players_push.mp hq).imp_right Or.inl
    · exact Or.inr (Or.inr hq)
  pushDisconnect _ _ hp _ _ h := by
    refine h.add rfl hp fun q hq => ?_
    rw [Server.mem_referencedPlayers] at hq ⊢
    rcases hq with hq | hq | hq
    · exact Or.inr (Or.inl hq)
    · exact (WorldPlayerTask.mem_players_push.mp hq).imp_right fun hq => Or.inr (Or.inl hq)
    · exact Or.inr (Or.inr (Or.inr hq))

theorem closedSchedules : ClosedSchedules (fun _ => True) Server.ReferencesLive where
  scheduleSpawn _ _ _ _ _ h := by
    refine h.of_env rfl fun p hp => ?_
    rw [Server.mem_referencedPlayers] at hp ⊢
    exact hp.imp_left WorldPlayerTask.mem_players_schedule.mp
  scheduleDisconnect _ _ _ _ _ h := by
    refine h.of_env rfl fun p hp => ?_
    rw [Server.mem_referencedPlayers] at hp ⊢
    exact hp.imp_right fun hp => hp.imp_left WorldPlayerTask.mem_players_schedule.mp
  scheduleLevel _ _ _ _ _ h := by
    refine h.of_env rfl fun p hp => ?_
    rw [Server.mem_referencedPlayers] at hp ⊢
    exact hp.imp_right fun hp => hp.imp_right WorldPlayerTask.mem_players_schedule.mp

theorem closedTasks : ClosedTasks (fun _ => True) Server.ReferencesLive
    Server.ReplacesUnreferenced where
  levelCallback _ _ _ _ _ h := h.of_env rfl fun _ hp => hp
  spawnCallback _ _ _ _ _ h := h.of_env rfl fun _ hp => hp
  finishLevel _ _ h := by
    refine h.of_env rfl fun p hp => ?_
    rw [Server.mem_referencedPlayers] at hp ⊢
    exact hp.imp_right fun hp => hp.imp_right WorldPlayerTask.mem_players_of_finish
  finishSpawn _ _ h := by
    refine h.of_env rfl fun p hp => ?_
    rw [Server.mem_referencedPlayers] at hp ⊢
    exact hp.imp_left WorldPlayerTask.mem_players_of_finish
  disconnectRun o o' ht _ _ _ h := by
    refine Closed.disconnectRun_of_parts (fun _ hq h => of_quiet h hq)
      (fun _ _ h => of_env h rfl fun _ hp => hp) ?_ ?_ ht h o o'
    · intro s conn p _ _ _ h
      rw [Server.savePlayerGamedata_eq]
      exact h.of_env rfl fun _ hp => hp
    · intro s h
      refine h.of_env rfl fun p hp => ?_
      rw [Server.mem_referencedPlayers] at hp ⊢
      exact hp.imp_right fun hp => hp.imp_left WorldPlayerTask.mem_players_of_finish

theorem closedLogins : ClosedLogins (fun _ => True) Server.ReferencesLive
    Server.ReplacesUnreferenced where
  respond _ _ _ _ h := h.of_env rfl fun _ hp => hp
  setIdentity _ _ _ _ _ _ _ _ h := h.of_env rfl fun _ hp => hp
  guest _ _ _ _ _ _ _ _ h := h.of_env rfl fun _ hp => hp
  addLoad _ _ _ _ h := h.of_env rfl fun _ hp => hp
  takeLoad _ _ _ h := h.of_env rfl fun _ hp => hp
  loaded _ _ _ _ _ _ _ _ h := by
    rw [Server.admitLoaded_eq]
    exact h.of_env rfl fun _ hp => hp

/-- An event that neither replaces nor deletes a player a task refers to. -/
theorem step {s' : Server} (hs : TableOk s ∧ s.ReferencesLive) {e : Event}
    (hC : s.CallsMeet Server.ReplacesUnreferenced e) (hD : s.DeletesUnreferenced e)
    (hstep : s.step e = some s') : TableOk s' ∧ s'.ReferencesLive := by
  refine closedConnections.step closedTick closedLogins hs e (fun _ _ => trivial) hC ?_ ?_ ?_ hstep
  · rintro i now conn rfl hconn hsafe
    exact hs.2.delete hs.1 hconn (hD conn hconn hsafe)
  · intro task now posted _
    exact closedConnections.of_schedule closedSchedules hs task now posted
  · rintro task o o' rfl hqueued
    exact closedConnections.of_runTask closedTasks hs task o o' hqueued hC

end Server.ReferencesLive

namespace Server

/-- **Task references** are live in every state reached by a run that neither replaces nor deletes a player
while a task refers to it. The tasks keep plain pointers, and nothing tells them that a connection is gone.
-/
theorem referencesLive_of_run {maxClients : Nat} {metadata : WorldMetadata}
    {blockMapping : List UInt8} {es : List Event} {s : Server}
    (hrun : run Server.step (Server.init maxClients metadata blockMapping) es = some s)
    (hC : Along Server.step
      (fun s e => s.CallsMeet Server.ReplacesUnreferenced e ∧ s.DeletesUnreferenced e)
      (Server.init maxClients metadata blockMapping) es) : s.ReferencesLive := by
  have hinit : TableOk (Server.init maxClients metadata blockMapping) ∧
      (Server.init maxClients metadata blockMapping).ReferencesLive :=
    ⟨TableOk.init .., fun _ hp => absurd hp List.not_mem_nil⟩
  have h := run_invariant_along (P := fun s => TableOk s ∧ s.ReferencesLive)
    (fun _ _ _ hs hG hstep => ReferencesLive.step hs hG.1 hG.2 hstep) hinit hC hrun
  exact h.2

/-- A guest is queued three times, and is there each time. -/
theorem referencesLive_of_run_guestSession :
    ∃ s, run Server.step Server.small guestSession = some s ∧ s.ReferencesLive := by
  obtain ⟨s, hs⟩ := Option.isSome_iff_exists.mp
    (show (run Server.step Server.small guestSession).isSome = true by decide)
  exact ⟨s, hs, referencesLive_of_run hs (by decide)⟩

/-- A client whose player waits for its level data sends a second handshake. -/
def handshakeWhileQueued : List Event :=
  guestLogin 0 ++ [.tickPlayer 0 0 fun _ => true, .receive 0 (.handshake [97] [] 0) 1 true 0]

/-- `sync_block_task` refers to the player that was replaced. -/
theorem not_referencesLive_handshakeWhileQueued :
    ∃ s, run Server.step Server.small handshakeWhileQueued = some s ∧ ¬ s.ReferencesLive := by
  have hrun : ((run Server.step Server.small handshakeWhileQueued).map fun s =>
      (decide (0 ∈ s.referencedPlayers), (s.players 0).connectionKey.index,
        (s.connection 0).bind Connection.player)) = some (true, 0, some 1) := by decide
  obtain ⟨s, hs, heq⟩ := Option.map_eq_some_iff.mp hrun
  obtain ⟨hrefers, hindex, hplayer⟩ :
      decide (0 ∈ s.referencedPlayers) = true ∧ (s.players 0).connectionKey.index = 0 ∧
        (s.connection 0).bind Connection.player = some 1 := by simpa using heq
  obtain ⟨ht, -⟩ := Server.consistent_of_run hs
  refine ⟨s, hs, fun h => ?_⟩
  -- the only connection that player 0 could have is that of its key
  obtain ⟨i, conn, hp⟩ := h 0 (of_decide_eq_true hrefers)
  have hi : i = 0 := by
    rw [← ht.key_index i conn hp.1, ← ht.player_key i conn 0 hp, hindex]
  rw [← hi, hp.1, Option.bind_some, hp.2] at hplayer
  cases hplayer

end Server

end Mmocraft
