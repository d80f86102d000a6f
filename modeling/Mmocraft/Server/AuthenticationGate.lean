/-
# Mmocraft.Server.AuthenticationGate -- no live player before the login server answers

A handshake leaves the player in `handshaking` or `ex_handshaking` with the state behind it already
prepared, and every call of `transit_state` moves there.  The replies of the login server are meant
to make that call, but two others reach it: an `ExtEntry` packet that brings the pending count to
zero, and the end of a gamedata load that a failed reply went on to.  As long as neither is made for
a player that still waits for its reply, the gate holds.

The invariant (`GateOk`) is about the key of a player: whoever is live, or is referred to by a task that lets
players on, has a key to which a reply that admits was recorded. The condition `WaitsForAnswer` is on the two
calls that can pass the gate without a reply; it asks for the state of the player before the call, and for
what has been recorded, so it can be checked without running the call.
-/
import Mmocraft.Server.History

namespace Mmocraft

open Mmocraft.Lib Mmocraft.Game Mmocraft.Net

/-! ## The gate

A reply opens the gate for the connection whose key it answers, and stays recorded in the history. The
property compares the states of all players with these records.
-/

/-- The reply lets the player in: it succeeded, or it makes a guest. -/
def LoginReply.Admits (reply : LoginReply) : Prop :=
  reply.errorCode = ErrorCode.success ∨ reply.errorCode = ErrorCode.playerNotExist

instance (reply : LoginReply) : Decidable reply.Admits :=
  inferInstanceAs (Decidable (_ ∨ _))

/-- The record is that of a reply for the key that lets the player in. -/
def Record.Answers (key : ConnectionKey) : Record → Prop
  | .responded request reply => request.connectionKey = key ∧ reply.Admits
  | _ => False

instance (key : ConnectionKey) : DecidablePred (Record.Answers key)
  | .responded request reply =>
      inferInstanceAs (Decidable (request.connectionKey = key ∧ reply.Admits))
  | .accepted .. | .state .. | .transit .. | .saveCalled _ | .document .. | .despawned _ | .logout ..
  | .offline _ | .loaded .. | .authenticated .. => isFalse id

/-- A reply that lets the player in was handled for the key. -/
def Answered (log : List Record) (key : ConnectionKey) : Prop := ∃ r ∈ log, r.Answers key

instance (log : List Record) (key : ConnectionKey) : Decidable (Answered log key) :=
  inferInstanceAs (Decidable (∃ r ∈ log, r.Answers key))

/-- **Authentication gate.** Without such a reply for the key of a connection, its player is in no
state from `handshaked` on. -/
def Server.AuthenticationGate (s : Server) : Prop :=
  ∀ i conn p, s.HasPlayer i conn p → ¬ Answered s.log conn.connectionKey →
    ¬ (s.players p).state.IsLive

/-- `transit_state` is called by `handle_ext_entry_packet`, or after a gamedata load, only for a
player whose key was answered or that does not wait for the answer. -/
def Server.WaitsForAnswer (s : Server) : Server.Call → Prop
  | .transit p .extEntry | .transit p (.loaded _ _) =>
      Answered s.log (s.players p).connectionKey ∨ ¬ (s.players p).state.IsHandshaking
  | _ => True

instance (s : Server) (call : Server.Call) : Decidable (s.WaitsForAnswer call) := by
  cases call with
  | transit p cause => cases cause <;> unfold Server.WaitsForAnswer <;> infer_instance
  | _ => exact isTrue trivial

theorem Answered.of_extends {s t : Server} (h : LogExtends s t) {key : ConnectionKey}
    (hanswered : Answered s.log key) : Answered t.log key := by
  obtain ⟨r, hmem, hanswers⟩ := hanswered
  exact ⟨r, h.mem hmem, hanswers⟩

/-- Where the connections of the players stay and the history grows, answered players stay so. -/
theorem Answered.of_sameShape {s t : Server} (hshape : SameShape s t) (hlog : LogExtends s t)
    {p : Nat} (h : Answered s.log (s.players p).connectionKey) :
    Answered t.log (t.players p).connectionKey := by
  rw [hshape.connectionKey]
  exact h.of_extends hlog

/-! ## The invariant

A player can be prepared for a state behind the gate before it enters it, so the invariant speaks of the
next state as well as the current one.
-/

/-- Every player is answered, waits for the answer, or leaves; the tasks that let players on refer to
answered ones. -/
structure GateOk (s : Server) : Prop where
  player : ∀ p < s.numOfPlayers, Answered s.log (s.players p).connectionKey ∨
    (s.players p).state.IsHandshaking ∨ (s.players p).state.IsLeaving
  spawn : ∀ p ∈ s.world.spawnPlayerTask.players, Answered s.log (s.players p).connectionKey
  level : ∀ p ∈ s.world.syncBlockTask.players, Answered s.log (s.players p).connectionKey

namespace GateOk

variable {s t : Server}

theorem init (maxClients : Nat) (metadata : WorldMetadata) (blockMapping : List UInt8) :
    GateOk (Server.init maxClients metadata blockMapping) where
  player _ hp := nomatch hp
  spawn _ hp := nomatch hp
  level _ hp := nomatch hp

/-- A live player has passed the gate. -/
theorem answered_of_live (h : GateOk s) {p : Nat} (hp : p < s.numOfPlayers)
    (hlive : (s.players p).state.IsLive) : Answered s.log (s.players p).connectionKey := by
  rcases h.player p hp with hanswered | hwaiting | hleaving
  · exact hanswered
  · exact absurd hlive hwaiting.not_live
  · exact absurd hlive hleaving.not_live

/-- One player moves.  If it is not answered, it must wait or leave afterwards. -/
theorem of_move (h : GateOk s) (p : Nat) (hshape : SameShape s t) (hlog : LogExtends s t)
    (hworld : t.world = s.world) (hothers : ∀ q, q ≠ p → (t.players q).state = (s.players q).state)
    (hmove : Answered s.log (s.players p).connectionKey ∨ (t.players p).state.IsHandshaking ∨
      (t.players p).state.IsLeaving) : GateOk t := by
  have hkeep : ∀ {q}, Answered s.log (s.players q).connectionKey →
      Answered t.log (t.players q).connectionKey := fun hq => hq.of_sameShape hshape hlog
  refine ⟨fun q hq => ?_, fun q hq => ?_, fun q hq => ?_⟩
  · by_cases hqp : q = p
    · rw [hqp]
      exact hmove.imp hkeep id
    · rw [hothers q hqp]
      exact (h.player q (hshape.numOfPlayers ▸ hq)).imp hkeep id
  · exact hkeep (h.spawn q (hworld ▸ hq))
  · exact hkeep (h.level q (hworld ▸ hq))

/-- `transit_state` on a player that is answered or does not wait for the answer. -/
theorem transitState (h : GateOk s) (hB : HistoryOk s) {p : Nat} (hp : p < s.numOfPlayers)
    (hint : State)
    (hmove : Answered s.log (s.players p).connectionKey ∨ ¬ (s.players p).state.IsHandshaking) :
    GateOk (s.transitState p hint) := by
  refine h.of_move p (SameShape.transitState s p hint) (LogExtends.transitState s p hint) rfl ?_ ?_
  · intro q hq
    rw [Server.transitState_players, if_neg hq]
  · rw [Server.transitState_players, if_pos rfl, Player.transitState_state]
    rcases h.player p hp with hanswered | hwaiting | hleaving
    · exact Or.inl hanswered
    · exact Or.inl (hmove.resolve_right (not_not_intro hwaiting))
    · -- a leaving player can only become disconnected
      exact Or.inr (Or.inr (Or.inr ((hB.sound p hp).tornDown hleaving).2))

/-- A player that is prepared to leave, or was answered, may be prepared for anything. -/
theorem prepareStateTransition (h : GateOk s) (p : Nat) (cur next : State)
    (hmove : Answered s.log (s.players p).connectionKey ∨ cur.IsLeaving) :
    GateOk (s.prepareStateTransition p cur next) := by
  refine h.of_move p (SameShape.prepareStateTransition s p _ _)
    (LogExtends.prepareStateTransition s p _ _) rfl ?_ ?_
  · intro q hq
    rw [Server.prepareStateTransition_players, if_neg hq]
  · rw [Server.prepareStateTransition_players, if_pos rfl]
    exact hmove.imp id Or.inr

/-- Nothing but the history changes, or the identity of players. -/
theorem of_same (h : GateOk s) (hshape : SameShape s t) (hlog : LogExtends s t)
    (hworld : t.world = s.world) (hplayers : ∀ q, (t.players q).state = (s.players q).state) :
    GateOk t where
  player p hp := by
    rw [hplayers p]
    exact (h.player p (hshape.numOfPlayers ▸ hp)).imp (·.of_sameShape hshape hlog) id
  spawn p hp := (h.spawn p (hworld ▸ hp)).of_sameShape hshape hlog
  level p hp := (h.level p (hworld ▸ hp)).of_sameShape hshape hlog

/-- A record admits at most. -/
theorem record (h : GateOk s) (r : Record) : GateOk (s.record r) :=
  h.of_same (SameShape.record s r) (LogExtends.record s r) rfl fun _ => rfl

theorem updatePlayer (h : GateOk s) (p : Nat) {f : Player → Player}
    (hstate : (f (s.players p)).state = (s.players p).state)
    (hkey : (f (s.players p)).connectionKey = (s.players p).connectionKey) :
    GateOk (s.updatePlayer p f) := by
  refine h.of_same (SameShape.updatePlayer s p hkey) (LogExtends.of_eq rfl) rfl fun q => ?_
  rw [Server.updatePlayer_players]
  split_ifs with hqp
  · rw [hqp, hstate]
  · rfl

theorem of_loads (h : GateOk s) (loads : List GamedataLoad) : GateOk { s with loads := loads } :=
  ⟨h.player, h.spawn, h.level⟩

theorem setTypeAndUuid (h : GateOk s) (p : Nat) (type : PlayerTypeId) (uuid : List UInt8) :
    GateOk (s.updatePlayer p fun player => (player.setPlayerType type).setUuid uuid) :=
  h.updatePlayer p rfl rfl

/-- Moving on after a record. -/
theorem authenticate (h : GateOk s) (hB : HistoryOk s) {p : Nat} (hp : p < s.numOfPlayers)
    (hmove : Answered s.log (s.players p).connectionKey ∨ ¬ (s.players p).state.IsHandshaking)
    (request : LoginRequest) (reply : LoginReply) :
    GateOk ((s.record (.authenticated p request reply)).transitState p) := by
  have hrecord : HistoryOk (s.record (.authenticated p request reply)) := hB.record_authenticated hp
  refine (h.record _).transitState hrecord hp _ (hmove.imp (fun hanswered => ?_) id)
  exact hanswered.of_extends (LogExtends.record s _)

/-- The reply that there is no such player admits a guest. -/
theorem admitGuest (h : GateOk s) (hB : HistoryOk s) {p : Nat} (hp : p < s.numOfPlayers)
    (hanswered : Answered s.log (s.players p).connectionKey) (request : LoginRequest)
    (reply : LoginReply) : GateOk (s.admitGuest p request reply) := by
  have htyped : GateOk (s.updatePlayer p (·.setPlayerType PlayerTypeId.guest)) :=
    h.updatePlayer p rfl rfl
  have hBtyped : HistoryOk (s.updatePlayer p (·.setPlayerType PlayerTypeId.guest)) :=
    hB.updatePlayer p rfl
  refine htyped.authenticate hBtyped hp (Or.inl ?_) request reply
  rw [Server.updatePlayer_players, if_pos rfl]
  exact hanswered

/-- The end of a load admits a player that was answered, or that does not wait any more. -/
theorem admitLoaded (h : GateOk s) (hB : HistoryOk s) {p : Nat} (hp : p < s.numOfPlayers)
    {load : GamedataLoad} {result : LoadResult}
    (hmove : s.WaitsForAnswer (.transit p (.loaded load result))) :
    GateOk (s.admitLoaded p load result) := by
  rw [Server.admitLoaded_eq]
  have hstanding := Server.sameStanding_loadedGamedata (s.players p) result
  have hloaded : GateOk ((s.updatePlayer p (Server.loadedGamedata · result)).record
      (.loaded p load result)) := (h.updatePlayer p hstanding.state hstanding.connectionKey).record _
  have hBloaded : HistoryOk ((s.updatePlayer p (Server.loadedGamedata · result)).record
      (.loaded p load result)) := (hB.updatePlayer p hstanding.toPlayerState).record_loaded hp
  refine hloaded.authenticate hBloaded hp ?_ load.request load.reply
  rw [Server.record_players, Server.updatePlayer_players, if_pos rfl, hstanding.state,
    hstanding.connectionKey]
  exact hmove.imp (fun hanswered => hanswered.of_extends (LogExtends.record s _)) id

/-- Tasks whose players are those of `s`, or answered. -/
theorem of_world (h : GateOk s) (world : World)
    (hspawn : ∀ p ∈ world.spawnPlayerTask.players, p ∈ s.world.spawnPlayerTask.players ∨
      Answered s.log (s.players p).connectionKey)
    (hlevel : ∀ p ∈ world.syncBlockTask.players, p ∈ s.world.syncBlockTask.players ∨
      Answered s.log (s.players p).connectionKey) : GateOk { s with world := world } where
  player := h.player
  spawn p hp := (hspawn p hp).elim (h.spawn p) id
  level p hp := (hlevel p hp).elim (h.level p) id

/-- A quiet change lets nobody pass. -/
theorem quiet (h : GateOk s) (hq : Quiet s t) : GateOk t where
  player p hp := by
    rw [hq.log, (hq.standing p).connectionKey, (hq.standing p).state]
    exact h.player p (hq.numOfPlayers ▸ hp)
  spawn p hp := by
    rw [hq.log, (hq.standing p).connectionKey]
    exact h.spawn p (hq.spawnTask ▸ hp)
  level p hp := by
    rw [hq.log, (hq.standing p).connectionKey]
    exact h.level p (hq.levelTask ▸ hp)

theorem setOffline (h : GateOk s) (i : Nat) (conn : Connection) (now : Nat) :
    GateOk (s.setOffline i conn now) := by
  have hrecord := h.record (.offline conn.id)
  exact ⟨hrecord.player, hrecord.spawn, hrecord.level⟩

theorem accept (h : GateOk s) (now : Nat) : GateOk (s.accept now) := by
  unfold Server.accept
  show GateOk (if _ then _ else _)
  split_ifs
  · exact h
  · have hrecord := h.record (.accepted s.numOfAccepted
      ⟨s.connectionEnv.getUnusedConnectionId, monotonicTick32 now⟩)
    exact ⟨hrecord.player, hrecord.spawn, hrecord.level⟩

/-- Who leaves is not live. -/
theorem disconnect (h : GateOk s) (i now : Nat) : GateOk (s.disconnect i now) := by
  rcases s.disconnect_cases i now with heq | ⟨conn, p, -, -, -, heq⟩ | ⟨conn, -, -, -, heq⟩
  · rw [heq]
    exact h
  · rw [heq]
    exact h.prepareStateTransition p _ _ (Or.inr (Or.inl rfl))
  · rw [heq]
    exact h.setOffline i conn now

/-- A new player waits for its answer. -/
theorem handshake (h : GateOk s) (hB : HistoryOk s) (i : Nat) (conn : Connection)
    (username password : List UInt8) (cpeMagic : UInt8) (garbage : PlayerTypeId) :
    GateOk (s.handleHandshakePacket i conn username password cpeMagic garbage) := by
  obtain ⟨cur, next, hstart, heq⟩ := s.handshake_eq i conn username password cpeMagic garbage
  have hplayers := fun p => s.handshake_players_of_lt i conn username password cpeMagic garbage (p := p)
  have hkeep : ∀ p, p < s.numOfPlayers → Answered s.log (s.players p).connectionKey →
      Answered (s.handleHandshakePacket i conn username password cpeMagic garbage).log
        ((s.handleHandshakePacket i conn username password cpeMagic
          garbage).players p).connectionKey := by
    intro p hp hanswered
    rw [hplayers p hp]
    refine hanswered.of_extends ?_
    rw [heq]
    exact ⟨[_], rfl⟩
  have hworld : (s.handleHandshakePacket i conn username password cpeMagic garbage).world =
      s.world := by
    rw [heq]
    rfl
  refine ⟨fun p hp => ?_, fun p hp => ?_, fun p hp => ?_⟩
  · by_cases hnew : p = s.numOfPlayers
    · refine Or.inr (Or.inl ?_)
      rw [heq, hnew]
      simp only [Server.prepareStateTransition_players, if_true,
        Player.prepareStateTransition_state]
      exact hstart.isHandshaking
    · have hlt : p < s.numOfPlayers := by
        rw [heq] at hp
        exact Nat.lt_of_le_of_ne (Nat.le_of_lt_succ hp) hnew
      rw [hplayers p hlt]
      exact (h.player p hlt).imp (fun ha => hplayers p hlt ▸ hkeep p hlt ha) id
  · rw [hworld] at hp
    exact hkeep p (hB.spawn_lt hp) (h.spawn p hp)
  · rw [hworld] at hp
    exact hkeep p (hB.level_lt hp) (h.level p hp)

/-- Nor is who has left. -/
theorem disconnectRun (h : GateOk s) (hB : HistoryOk s) (ht : TableOk s) (o o' : Outcomes) :
    GateOk (s.runTask .disconnectPlayer o o') := by
  have hboth := Closed.disconnectRun_of_parts (P := fun s => HistoryOk s ∧ GateOk s)
    (fun _ hq hs => ⟨hs.1.quiet hq, hs.2.quiet hq⟩) ?_ ?_ ?_ ht ⟨hB, h⟩ o o'
  · exact hboth.2
  · intro s ds hds hs
    exact ⟨hs.1.record_despawned hds,
      hs.2.of_same (SameShape.of_rfl rfl rfl rfl rfl rfl) ⟨_, rfl⟩ rfl fun _ => rfl⟩
  · intro s conn p _ hp _ hs
    obtain ⟨hlt, htorn⟩ := hs.1.disconnect_tornDown p (WorldPlayerTask.mem_players_of_target hp)
    have hBsaved := hs.1.savePlayerGamedata hlt
    have hsaved : GateOk (s.savePlayerGamedata p) := by
      rw [Server.savePlayerGamedata_eq]
      exact hs.2.of_same (SameShape.of_rfl rfl rfl rfl rfl rfl) ⟨_, rfl⟩ rfl fun _ => rfl
    rw [Server.savePlayerGamedata_eq] at hBsaved hsaved ⊢
    exact ⟨hBsaved.transitState hlt _,
      hsaved.transitState hBsaved hlt _ (Or.inr htorn.1.not_handshaking)⟩
  · intro s hs
    exact ⟨hs.1.finishDisconnect, hs.2.of_world _ (fun _ => Or.inl) fun _ => Or.inl⟩

/-- The invariant survives every event whose calls of `transit_state` respect the gate. -/
theorem closed : Closed HistoryOk GateOk Server.WaitsForAnswer where
  quiet _ _ hq h := h.quiet hq
  interact _ _ _ _ _ h := ⟨h.player, h.spawn, h.level⟩
  accept now _ _ _ h := h.accept now
  delete _ _ _ _ h := ⟨h.player, h.spawn, h.level⟩
  disconnect i now _ _ _ _ h := h.disconnect i now
  handshake username password cpeMagic garbage _ hB _ _ _ h :=
    h.handshake hB _ _ username password cpeMagic garbage
  extEntry ht hB hp _ hC h := h.transitState hB (ht.player_lt _ _ _ hp) _ hC
  syncing ht _ hp _ hst h := by
    have hanswered := h.answered_of_live (ht.player_lt _ _ _ hp) (hst ▸ by decide)
    exact h.prepareStateTransition _ _ _ (Or.inl hanswered)
  levelWait ht _ hp _ hst h := by
    have hanswered := h.answered_of_live (ht.player_lt _ _ _ hp)
      (by rcases hst with hst | hst <;> rw [hst] <;> decide)
    have hprepared := h.prepareStateTransition _ .levelInitializing .levelInitialized
      (Or.inl hanswered)
    refine hprepared.of_world _ (fun _ => Or.inl) fun q hq => ?_
    rcases WorldPlayerTask.mem_players_push.mp hq with rfl | hq
    · exact Or.inr (hanswered.of_sameShape (SameShape.prepareStateTransition ..)
        (LogExtends.prepareStateTransition ..))
    · exact Or.inl hq
  spawnWait ht _ hp _ hst h := by
    have hanswered := h.answered_of_live (ht.player_lt _ _ _ hp) (hst ▸ by decide)
    have hprepared := h.prepareStateTransition _ .spawning .spawned (Or.inl hanswered)
    refine hprepared.of_world _ (fun q hq => ?_) fun _ => Or.inl
    rcases WorldPlayerTask.mem_players_push.mp hq with rfl | hq
    · exact Or.inr (hanswered.of_sameShape (SameShape.prepareStateTransition ..)
        (LogExtends.prepareStateTransition ..))
    · exact Or.inl hq
  pushDisconnect _ _ _ _ _ h := h.of_world _ (fun _ => Or.inl) fun _ => Or.inl
  scheduleSpawn _ _ _ _ _ h := h.of_world _
    (fun _ hq => Or.inl (WorldPlayerTask.mem_players_schedule.mp hq)) fun _ => Or.inl
  scheduleDisconnect _ _ _ _ _ h := h.of_world _ (fun _ => Or.inl) fun _ => Or.inl
  scheduleLevel _ _ _ _ _ h := h.of_world _ (fun _ => Or.inl)
    fun _ hq => Or.inl (WorldPlayerTask.mem_players_schedule.mp hq)
  levelCallback _ hB hp _ _ h := by
    have hmem := WorldPlayerTask.mem_players_of_target hp
    exact h.transitState hB (hB.level_lt hmem) _ (Or.inl (h.level _ hmem))
  spawnCallback _ hB hp _ _ h := by
    have hmem := WorldPlayerTask.mem_players_of_target hp
    exact h.transitState hB (hB.spawn_lt hmem) _ (Or.inl (h.spawn _ hmem))
  finishLevel _ _ h := h.of_world _ (fun _ => Or.inl)
    fun _ hq => Or.inl (WorldPlayerTask.mem_players_of_finish hq)
  finishSpawn _ _ h := h.of_world _
    (fun _ hq => Or.inl (WorldPlayerTask.mem_players_of_finish hq)) fun _ => Or.inl
  disconnectRun o o' ht hB _ _ h := h.disconnectRun hB ht o o'
  respond _ _ _ _ h := by
    refine h.of_same ?_ ⟨[_], rfl⟩ rfl fun _ => rfl
    exact SameShape.of_rfl rfl rfl rfl rfl rfl
  setIdentity _ _ _ _ _ _ _ _ h := h.setTypeAndUuid _ _ _
  guest ht hB hp _ hkey hr he _ h := by
    have hanswered : Answered _ _ :=
      ⟨_, hr, hkey.symm.trans (ht.player_key _ _ _ hp).symm, Or.inr he⟩
    exact h.admitGuest hB (ht.player_lt _ _ _ hp) hanswered _ _
  addLoad _ _ _ _ h := h.of_loads _
  takeLoad _ _ _ h := h.of_loads _
  loaded ht hB _ hp _ _ _ hC h :=
    (h.of_loads _).admitLoaded (hB.eraseLoad _) (ht.player_lt _ _ _ hp) hC

end GateOk

/-- **The authentication gate holds** in every state reached by a run in which `transit_state` is not called
by `handle_ext_entry_packet`, or after a gamedata load, for a player that waits for an answer. Those are the
only two calls whose player need not have been answered; whoever else is moved on was. -/
theorem Server.authenticationGate_of_run {maxClients : Nat} {metadata : WorldMetadata}
    {blockMapping : List UInt8} {es : List Event} {s : Server}
    (hrun : run Server.step (Server.init maxClients metadata blockMapping) es = some s)
    (hC : Along Server.step (Server.CallsMeet Server.WaitsForAnswer)
      (Server.init maxClients metadata blockMapping) es) : s.AuthenticationGate := by
  obtain ⟨ht, -, h⟩ := ((HistoryOk.closed.weaken _).inter GateOk.closed).run
    ⟨TableOk.init .., HistoryOk.init .., GateOk.init ..⟩ hC hrun
  intro i conn p hp hnot hlive
  apply hnot
  rw [← ht.player_key _ _ _ hp]
  exact h.answered_of_live (ht.player_lt _ _ _ hp) hlive

/-- A guest is live after the reply, and not before. -/
theorem Server.authenticationGate_of_run_guestLogin :
    ∃ s, run Server.step Server.small (guestLogin 0) = some s ∧ s.AuthenticationGate := by
  obtain ⟨s, hs⟩ := Option.isSome_iff_exists.mp
    (show (run Server.step Server.small (guestLogin 0)).isSome = true by decide)
  exact ⟨s, hs, Server.authenticationGate_of_run hs (by decide)⟩

/-- A client with extensions announces one extension entry and sends it, right after its
handshake. -/
def earlyExtEntry : List Event :=
  [.accept 0, .receive 0 (.handshake [97] [] 0x42) 0 true 0, .receive 0 (.extInfo 1) 0 true 0,
    .receive 0 (.extEntry [] 0) 0 true 0]

/-- No reply has arrived, but that client's player is in `ex_handshaked`. -/
theorem Server.not_authenticationGate_earlyExtEntry :
    ∃ s, run Server.step Server.small earlyExtEntry = some s ∧ (s.players 0).state = .exHandshaked ∧
      ¬ s.AuthenticationGate := by
  have hrun : ((run Server.step Server.small earlyExtEntry).map fun s =>
      (s.connection 0, (s.players 0).state, decide (Answered s.log ⟨0, monotonicTick32 0⟩))) =
      some (some { id := 0, connectionKey := ⟨0, monotonicTick32 0⟩, lastInteractionTick := 0
                   player := some 0 }, .exHandshaked, false) := by decide
  obtain ⟨s, hs, heq⟩ := Option.map_eq_some_iff.mp hrun
  simp only [Prod.mk.injEq, decide_eq_false_iff_not] at heq
  obtain ⟨hconn, hstate, hnot⟩ := heq
  refine ⟨s, hs, hstate, fun h => h 0 _ 0 ⟨hconn, rfl⟩ hnot ?_⟩
  rw [hstate]
  decide

end Mmocraft
