/-
# Mmocraft.Server.Teardown -- how often a player is torn down

`World::disconnect_player` saves the players the disconnect task took and broadcasts that they are
gone.  Four moves of the code leave the path of `Phase`: a second `disconnect` of a waiting player
takes its connection offline at once, a late `transit_state` makes it disconnected, a second
handshake frees it, and ticks that find it waiting queue it again and again.  Without them every
player that has been live is torn down exactly once.

The count is read off the phases: a player in `live` has not been saved, one that leaves has a place in the
task or will be queued by the tick, one that is disconnected was saved once and despawned once if it had been
spawned, and only then may its connection go offline. What has to be shown is that every move keeps each
player in a phase (`OnceOk.closed`); the condition `KeepsTeardown` excludes the four moves above and nothing
else.
-/
import Mmocraft.Server.Phase

namespace Mmocraft

open Mmocraft.Lib Mmocraft.Game Mmocraft.Net

/-! ## Exactly-once teardown -/

/-- **Exactly-once teardown.** A player whose connection went offline after it had been live was
saved exactly once, and its despawn record was broadcast exactly once if it had been spawned and
never otherwise. -/
def Server.TeardownOnce (s : Server) : Prop :=
  ∀ p, s.WentOffline p → s.log.count (.saveCalled p) = 1 ∧
    s.log.count (.despawned p) = if .state p .spawned ∈ s.log then 1 else 0

/-- No move leaves the path of the teardown: a player that has been live is not replaced before it
is disconnected, and not disconnected again or moved on while it waits for the disconnect task;
and the task takes it only once, and not again after it has become disconnected. -/
def Server.KeepsTeardown (s : Server) : Server.Call → Prop
  | .setPlayer i _ => ∀ p ∈ s.connectionEnv.playerOf i,
      ReachedLive s.log p → (s.players p).state = .disconnected
  | .disconnect i => ∀ p ∈ s.connectionEnv.playerOf i,
      ReachedLive s.log p → (s.players p).state ≠ .disconnecting
  | .transit p _ => ReachedLive s.log p → (s.players p).state ≠ .disconnecting
  | .disconnectPlayer players => ∀ p ∈ players, ReachedLive s.log p →
      (s.tryAcquireOf p).isSome = true →
        (s.players p).state = .disconnecting ∧ players.count p = 1
  | .setIdentity .. => True

instance (s : Server) : (call : Server.Call) → Decidable (s.KeepsTeardown call)
  | .setPlayer i _ => inferInstanceAs (Decidable (∀ p ∈ s.connectionEnv.playerOf i,
      ReachedLive s.log p → (s.players p).state = .disconnected))
  | .disconnect i => inferInstanceAs (Decidable (∀ p ∈ s.connectionEnv.playerOf i,
      ReachedLive s.log p → (s.players p).state ≠ .disconnecting))
  | .transit p _ =>
      inferInstanceAs (Decidable (ReachedLive s.log p → (s.players p).state ≠ .disconnecting))
  | .disconnectPlayer players => inferInstanceAs (Decidable (∀ p ∈ players, ReachedLive s.log p →
      (s.tryAcquireOf p).isSome = true →
        (s.players p).state = .disconnecting ∧ players.count p = 1))
  | .setIdentity .. => isTrue trivial

/-! ## Every player stays on its path -/

/-- Every player is in one of the phases. -/
def OnceOk (s : Server) : Prop := ∀ p < s.numOfPlayers, s.Phase p

namespace OnceOk

variable {s t : Server}

/-- Nothing happens to the players, except that some that are not live lose their connection. -/
theorem frame (h : OnceOk s) (hnum : t.numOfPlayers = s.numOfPlayers)
    (htally : ∀ p, SameTally p s.log t.log)
    (hstates : ∀ p, (t.players p).toPlayerState = (s.players p).toPlayerState)
    (hattached : ∀ p, ReachedLive s.log p → (s.players p).state ≠ .disconnected → s.Attached p →
      t.Attached p) : OnceOk t := by
  intro p hp
  rw [hnum] at hp
  exact (h p hp).frame (htally p) (hstates p) (hattached p)

/-- A move that touches no player. -/
theorem untouched (h : OnceOk s) (hq : ∀ p, Untouched p s t) : OnceOk t :=
  h.frame (hq 0).shape.numOfPlayers (fun p => (hq p).tally) (fun p => (hq p).states)
    fun p _ _ => ((hq p).attached p).mpr

/-- One player moves to the phase `hself` says. -/
theorem of_move (h : OnceOk s) {p : Nat} (hq : ∀ q, q ≠ p → Untouched q s t)
    (hnum : t.numOfPlayers = s.numOfPlayers) (hself : t.Phase p) : OnceOk t := by
  intro q hlt
  by_cases hqp : q = p
  · exact hqp ▸ hself
  · rw [hnum] at hlt
    exact (h q hlt).untouched (hq q hqp)

/-- A transition of a player that is not waiting for its teardown. -/
theorem transitState (h : OnceOk s) (hB : HistoryOk s) {p : Nat} (hp : p < s.numOfPlayers)
    (hattached : s.Attached p ∨ ReachedLive s.log p)
    (hC : ReachedLive s.log p → (s.players p).state ≠ .disconnecting) (hint : State) :
    OnceOk (s.transitState p hint) := by
  refine h.of_move (fun q hq => ⟨?_, ?_, SameShape.transitState s p hint⟩) rfl
    ((h p hp).transitState hB hp hattached hC hint)
  · refine SameTally.append q [_, _] (fun r hr hcounts => ?_) s.log
    rcases List.mem_pair.mp hr with rfl | rfl
    · exact hq hcounts.symm
    · exact hcounts
  · rw [Server.transitState_players, if_neg hq]

/-- The other players, when one is prepared. -/
theorem prepare (h : OnceOk s) {p : Nat} {cur next : State}
    (hself : (s.prepareStateTransition p cur next).Phase p) :
    OnceOk (s.prepareStateTransition p cur next) := by
  refine h.of_move (fun q hq => ⟨?_, ?_, SameShape.prepareStateTransition s p cur next⟩) rfl hself
  · refine SameTally.append q [_] (fun r hr hcounts => ?_) s.log
    rw [List.mem_singleton.mp hr] at hcounts
    exact hq hcounts.symm
  · rw [Server.prepareStateTransition_players, if_neg hq]

theorem of_world (h : OnceOk s) (world : World) : OnceOk { s with world := world } :=
  h.untouched fun p => ⟨SameTally.refl p s.log, rfl, SameShape.of_rfl rfl rfl rfl rfl rfl⟩

theorem of_loads (h : OnceOk s) (loads : List GamedataLoad) : OnceOk { s with loads := loads } :=
  h.untouched fun p => ⟨SameTally.refl p s.log, rfl, SameShape.of_rfl rfl rfl rfl rfl rfl⟩

theorem of_requests (h : OnceOk s) (requests : List LoginRequest) :
    OnceOk { s with requests := requests } :=
  h.untouched fun p => ⟨SameTally.refl p s.log, rfl, SameShape.of_rfl rfl rfl rfl rfl rfl⟩

theorem setTypeAndUuid (h : OnceOk s) (p : Nat) (type : PlayerTypeId) (uuid : List UInt8) :
    OnceOk (s.updatePlayer p fun player => (player.setPlayerType type).setUuid uuid) :=
  h.untouched fun _ => Untouched.updatePlayer s p rfl rfl

/-- A new connection has no player to tear down. -/
theorem accept (h : OnceOk s) (ht : TableOk s) (now : Nat) : OnceOk (s.accept now) := by
  have hattached := Server.attached_accept ht now
  unfold Server.accept at hattached ⊢
  by_cases hfull : s.connectionEnv.numOfMaxConnections ≤ s.connectionEnv.numOfConnections
  · rw [if_pos hfull]
    exact h
  · rw [if_neg hfull] at hattached ⊢
    refine h.frame rfl (fun p => SameTally.append p [_] ?_ s.log) (fun _ => rfl)
      fun p _ _ => (hattached p).mpr
    intro r hr
    rw [List.mem_singleton.mp hr]
    exact id

/-- The first disconnection of a live player hands it over; that of a disconnected one takes it offline. -/
theorem disconnect (h : OnceOk s) (ht : TableOk s) (i now : Nat)
    (hC : s.KeepsTeardown (.disconnect i)) : OnceOk (s.disconnect i now) := by
  rcases s.disconnect_cases i now with heq | ⟨conn, p, hp, -, hstate, heq⟩ |
    ⟨conn, hconn, honline, hnot, heq⟩
  · rw [heq]
    exact h
  · rw [heq]
    exact h.prepare ((h p (ht.player_lt _ _ _ hp)).handOver hstate)
  · rw [heq]
    refine h.frame rfl (fun p => SameTally.append p [_] ?_ s.log) (fun _ => rfl) ?_
    · intro r hr
      rw [List.mem_singleton.mp hr]
      exact fun hcounts => hcounts
    · -- the player that loses its connection has been torn down
      intro p hreached hne hp
      refine (Server.attached_setOffline ht hconn now p).mpr ⟨hp, fun hplayer => ?_⟩
      have hlt := ht.player_lt _ _ _ ⟨hconn, hplayer⟩
      have hdisconnecting := hC p (ht.playerOf_eq ⟨hconn, hplayer⟩ honline) hreached
      cases h p hlt with
      | waiting unreached => exact unreached hreached
      | refused unreached => exact unreached hreached
      | live _ _ states => exact hnot p hplayer states.1.handshaking_le
      | leaving _ _ state => exact hdisconnecting state
      | left _ state => exact hne state

/-- A handshake that replaces a player must not take it from its teardown. -/
theorem handshake (h : OnceOk s) (hB : HistoryOk s) (ht : TableOk s) {i : Nat} {conn : Connection}
    (hconn : s.connection i = some conn) (honline : conn.isOnline = true)
    (username password : List UInt8) (cpeMagic : UInt8) (garbage : PlayerTypeId)
    (hC : s.KeepsTeardown (.setPlayer i garbage)) :
    OnceOk (s.handleHandshakePacket i conn username password cpeMagic garbage) := by
  have hattached := Server.attached_handshake ht hconn honline username password cpeMagic garbage
  obtain ⟨cur, next, hstart, heq⟩ := s.handshake_eq i conn username password cpeMagic garbage
  rw [heq] at hattached ⊢
  intro p hp
  have hfresh : ∀ r : Record, r.IsAbout s.numOfPlayers → r ∉ s.log := fun r hr hmem =>
    Nat.lt_irrefl _ (hB.about_lt r hmem _ hr)
  by_cases hnew : p = s.numOfPlayers
  · -- the history has nothing about a player that is new
    subst hnew
    refine .waiting ?_ ?_ ?_ ?_
    · rintro ⟨r, hr, hlive⟩
      rcases List.mem_cons.mp hr with rfl | hr
      · exact hstart.isHandshaking.not_live hlive.2
      · exact hfresh r hlive.isAbout hr
    · simpa [Server.prepareStateTransition_players] using hstart
    · rw [List.count_eq_zero]
      intro hmem
      rcases List.mem_cons.mp hmem with hmem | hmem
      · cases hmem
      · exact hfresh (.saveCalled s.numOfPlayers) rfl hmem
    · rw [List.count_eq_zero]
      intro hmem
      rcases List.mem_cons.mp hmem with hmem | hmem
      · cases hmem
      · exact hfresh (.despawned s.numOfPlayers) rfl hmem
  · have hlt : p < s.numOfPlayers := Nat.lt_of_le_of_ne (Nat.le_of_lt_succ hp) hnew
    refine (h p hlt).frame ?_ ?_ ?_
    · refine SameTally.append p [.state s.numOfPlayers cur] (fun r hr hcounts => ?_) s.log
      rw [List.mem_singleton.mp hr] at hcounts
      exact hnew hcounts.symm
    · rw [show Server.players _ p = _ from s.construct_players i conn _ cur next p, if_neg hnew]
    · -- the player that is replaced has been torn down
      intro hreached hne hattach
      refine (hattached p).mpr (Or.inr ⟨hattach, fun hplayer => hne ?_⟩)
      exact hC p (ht.playerOf_eq ⟨hconn, hplayer⟩ honline) hreached

/-- A player that leaves without having been live does so whatever the task does. -/
theorem refused_disconnectRun (hB : HistoryOk s) (ht : TableOk s) (o o' : Outcomes) {p : Nat}
    (hunreached : ¬ ReachedLive s.log p) (hleaving : (s.players p).state.IsLeaving) :
    (s.runTask .disconnectPlayer o o').Phase p := by
  have hparts := Closed.disconnectRun_of_parts (P := fun s => HistoryOk s ∧
      ¬ ReachedLive s.log p ∧ (s.players p).state.IsLeaving) ?_ ?_ ?_ ?_ ht ⟨hB, hunreached, hleaving⟩
    o o'
  · exact .refused hparts.2.1 hparts.2.2
  · rintro s t _ hq ⟨hB, hunreached, hleaving⟩
    refine ⟨hB.quiet hq, ?_, ?_⟩
    · rwa [hq.log]
    · rwa [(hq.standing p).state]
  · rintro s ds hds ⟨hB, hunreached, hleaving⟩
    refine ⟨hB.record_despawned hds, ?_, hleaving⟩
    rintro ⟨r, hr, hlive⟩
    rcases List.mem_append.mp hr with hr | hr
    · obtain ⟨q, -, rfl⟩ := List.mem_map.mp hr
      exact hlive
    · exact hunreached ⟨r, hr, hlive⟩
  · rintro s conn q _ hq - ⟨hB, hunreached, hleaving⟩
    obtain ⟨hlt, htorn⟩ := hB.disconnect_tornDown q (WorldPlayerTask.mem_players_of_target hq)
    have hsaved := hB.savePlayerGamedata hlt
    rw [Server.savePlayerGamedata_eq] at hsaved ⊢
    refine ⟨hsaved.transitState hlt _, ?_, ?_⟩
    · rintro ⟨r, hr, hlive⟩
      have hnext : (s.players q).nextState = .disconnected := htorn.2
      -- the records of a round: the transition, the logout, the save and its document
      simp only [Server.transitState_log, Server.savedRecords, List.mem_cons, List.mem_append] at hr
      rcases hr with rfl | rfl | (hr | rfl | hr) | hr
      · exact State.IsLeaving.not_live (Or.inr hnext) hlive.2
      · exact hlive
      · split_ifs at hr
        · rw [List.mem_singleton.mp hr] at hlive
          exact hlive
        · cases hr
      · exact hlive
      · cases hr
      · exact hunreached ⟨r, hr, hlive⟩
    · rw [Server.transitState_players]
      split_ifs with hpq
      · exact htorn.transitState.1
      · exact hleaving
  · rintro s ⟨hB, hrest⟩
    exact ⟨hB.finishDisconnect, hrest⟩

/-- Each player of the run is saved and despawned, once. -/
theorem disconnectRun (h : OnceOk s) (hB : HistoryOk s) (ht : TableOk s) (o o' : Outcomes)
    (hC : s.KeepsTeardown (.disconnectPlayer s.world.disconnectPlayerTask.target)) :
    OnceOk (s.runTask .disconnectPlayer o o') := by
  set target := s.world.disconnectPlayerTask.target with htarget
  intro p hp
  have hlt : p < s.numOfPlayers := (SameShape.disconnectPlayer s target o).numOfPlayers ▸ hp
  -- setting the task unused changes no player
  have hfinish : (s.disconnectPlayer target o).Phase p → (s.runTask .disconnectPlayer o o').Phase p :=
    fun hphase => hphase.frame (SameTally.refl p _) rfl fun _ _ => id
  by_cases hmem : p ∈ target
  · obtain ⟨-, htorn⟩ := hB.disconnect_tornDown p (WorldPlayerTask.mem_players_of_target hmem)
    cases h p hlt with
    | waiting _ states => exact absurd states.isHandshaking htorn.1.not_handshaking
    | refused unreached leaving => exact refused_disconnectRun hB ht o o' unreached leaving
    | live _ _ states => exact absurd states.1 htorn.1.not_live
    | leaving reached attached state saves despawns spawned =>
        obtain ⟨i, conn, hhas, honline⟩ := attached
        have hacq := Server.tryAcquireOf_of_hasPlayer ht hhas honline
        obtain ⟨-, hcount⟩ := hC p hmem reached (by rw [hacq]; rfl)
        exact hfinish (.takenOnce hcount hacq reached state htorn.2 saves despawns spawned o)
    | left reached state prev saves despawns =>
        have hnone : s.tryAcquireOf p = none := by
          rw [← Option.not_isSome_iff_eq_none]
          intro hsome
          rw [(hC p hmem reached hsome).1] at state
          cases state
        exact hfinish ((h p hlt).untouched (Untouched.disconnectPlayer s o fun _ => ⟨hnone, prev⟩))
  · have huntouched := Untouched.disconnectPlayer s (p := p) o fun h => absurd h hmem
    exact hfinish ((h p hlt).untouched huntouched)

/-- An attached player is moved on after changes that do not touch it. -/
theorem authenticate {u : Server} (h : OnceOk s) (hu : ∀ q, Untouched q s u)
    (hBu : HistoryOk u) {p : Nat} (hp : p < s.numOfPlayers) (hattached : s.Attached p)
    (hC : ReachedLive s.log p → (s.players p).state ≠ .disconnecting) (hint : State) :
    OnceOk (u.transitState p hint) := by
  refine (h.untouched hu).transitState hBu ?_ (Or.inl (((hu p).attached p).mpr hattached)) ?_ hint
  · rwa [(hu p).shape.numOfPlayers]
  · rw [(hu p).tally.reached, show (u.players p).state = (s.players p).state from
      congrArg PlayerState.state (hu p).states]
    exact hC

theorem admitGuest (h : OnceOk s) (hB : HistoryOk s) {p : Nat} (hp : p < s.numOfPlayers)
    (hattached : s.Attached p)
    (hC : ReachedLive s.log p → (s.players p).state ≠ .disconnecting) (request : LoginRequest)
    (reply : LoginReply) : OnceOk (s.admitGuest p request reply) := by
  have htyped := hB.updatePlayer p (f := (·.setPlayerType PlayerTypeId.guest)) rfl
  refine h.authenticate (fun q => ?_) (htyped.record_authenticated hp) hp hattached hC _
  exact (Untouched.updatePlayer s p rfl rfl).trans (Untouched.record _ id)

theorem admitLoaded (h : OnceOk s) (hB : HistoryOk s) {p : Nat} (hp : p < s.numOfPlayers)
    (hattached : s.Attached p)
    (hC : ReachedLive s.log p → (s.players p).state ≠ .disconnecting) (load : GamedataLoad)
    (result : LoadResult) : OnceOk (s.admitLoaded p load result) := by
  rw [Server.admitLoaded_eq]
  have hstanding := Server.sameStanding_loadedGamedata (s.players p) result
  have hset := hB.updatePlayer p (f := (Server.loadedGamedata · result)) hstanding.toPlayerState
  refine h.authenticate (fun q => ?_) ((hset.record_loaded hp).record_authenticated hp) hp hattached hC _
  refine ((Untouched.updatePlayer s p ?_ ?_).trans (Untouched.record _ id)).trans
    (Untouched.record _ id)
  · exact hstanding.toPlayerState
  · exact hstanding.connectionKey

/-- Every player stays on its path in every event whose calls keep to it. -/
theorem closed : Closed HistoryOk OnceOk Server.KeepsTeardown where
  quiet _ _ hq h := h.untouched fun _ => Untouched.of_quiet hq
  interact now _ ht _ hconn h := by
    refine h.frame rfl (fun p => SameTally.refl p _) (fun _ => rfl) fun p _ _ hp => ?_
    exact (Server.attached_interact ht hconn now p).mpr hp
  accept now _ ht _ h := h.accept ht now
  delete ht _ hconn hoffline h := by
    refine h.frame rfl (fun p => SameTally.refl p _) (fun _ => rfl) fun p _ _ hp => ?_
    exact (Server.attached_delete ht hconn hoffline p).mpr hp
  disconnect i now _ ht _ hC h := h.disconnect ht i now hC
  handshake username password cpeMagic garbage ht hB hconn honline hC h :=
    h.handshake hB ht hconn honline username password cpeMagic garbage hC
  extEntry ht hB hp honline hC h :=
    h.transitState hB (ht.player_lt _ _ _ hp) (Or.inl (hp.attached honline)) hC _
  syncing ht _ hp _ hst h :=
    h.prepare ((h _ (ht.player_lt _ _ _ hp)).prepareNext (hst ▸ by decide) (by decide) (by decide))
  levelWait ht _ hp _ hst h := by
    refine (h.prepare ((h _ (ht.player_lt _ _ _ hp)).prepareNext ?_ ?_ ?_)).of_world _
    · rcases hst with hst | hst <;> rw [hst] <;> decide
    · decide
    · decide
  spawnWait ht _ hp _ hst h := by
    refine (h.prepare ((h _ (ht.player_lt _ _ _ hp)).prepareNext ?_ ?_ ?_)).of_world _
    · exact hst ▸ by decide
    · decide
    · decide
  pushDisconnect _ _ _ _ _ h := h.of_world _
  scheduleSpawn _ _ _ _ _ h := h.of_world _
  scheduleDisconnect _ _ _ _ _ h := h.of_world _
  scheduleLevel _ _ _ _ _ h := h.of_world _
  levelCallback _ hB hp _ hC h := by
    have hreached := hB.level_reached _ (WorldPlayerTask.mem_players_of_target hp)
    exact h.transitState hB (hB.reachedLive_lt hreached) (Or.inr hreached) hC _
  spawnCallback _ hB hp _ hC h := by
    have hreached := hB.spawn_reached _ (WorldPlayerTask.mem_players_of_target hp)
    exact h.transitState hB (hB.reachedLive_lt hreached) (Or.inr hreached) hC _
  finishLevel _ _ h := h.of_world _
  finishSpawn _ _ h := h.of_world _
  disconnectRun o o' ht hB _ hC h := h.disconnectRun hB ht o o' hC
  respond _ _ _ _ h := (h.of_requests _).untouched fun _ => Untouched.record _ id
  setIdentity _ _ _ _ _ _ _ _ h := h.setTypeAndUuid _ _ _
  guest ht hB hp honline _ _ _ hC h :=
    h.admitGuest hB (ht.player_lt _ _ _ hp) (hp.attached honline) hC _ _
  addLoad _ _ _ _ h := h.of_loads _
  takeLoad _ _ _ h := h.of_loads _
  loaded ht hB _ hp honline _ _ hC h :=
    (h.of_loads _).admitLoaded (hB.eraseLoad _) (ht.player_lt _ _ _ hp) (hp.attached honline) hC _ _

theorem init (maxClients : Nat) (metadata : WorldMetadata) (blockMapping : List UInt8) :
    OnceOk (Server.init maxClients metadata blockMapping) := fun _ hp => nomatch hp

/-- A player that is attached or has not been live does not concern the guarantee, and the others
have been torn down. -/
theorem teardownOnce (h : OnceOk s) (hB : HistoryOk s) (ht : TableOk s) : s.TeardownOnce := by
  intro p hoffline
  have hreached := OfflineAfterLive.reached hoffline
  cases h p (hB.reachedLive_lt hreached) with
  | waiting unreached => exact absurd hreached unreached
  | refused unreached => exact absurd hreached unreached
  | live _ attached => exact absurd hoffline (hB.not_wentOffline ht attached)
  | leaving _ attached => exact absurd hoffline (hB.not_wentOffline ht attached)
  | left _ _ _ saves despawns => exact ⟨saves, despawns⟩

end OnceOk

/-- **Exactly-once teardown** holds in every state reached by a run none of whose calls leaves the path of
the teardown. The phase of each player is followed beside the run: what it is owed (a save, and a despawn if
it was spawned) is fixed when it is handed over, and given once, when the disconnect task reaches it. -/
theorem Server.teardownOnce_of_run {maxClients : Nat} {metadata : WorldMetadata}
    {blockMapping : List UInt8} {es : List Event} {s : Server}
    (hrun : run Server.step (Server.init maxClients metadata blockMapping) es = some s)
    (hC : Along Server.step (Server.CallsMeet Server.KeepsTeardown)
      (Server.init maxClients metadata blockMapping) es) : s.TeardownOnce := by
  obtain ⟨ht, hB, h⟩ := ((HistoryOk.closed.weaken _).inter OnceOk.closed).run
    ⟨TableOk.init .., HistoryOk.init .., OnceOk.init _ _ _⟩ hC hrun
  exact h.teardownOnce hB ht

/-- A guest that was spawned is saved and despawned once, and then goes offline. -/
theorem Server.teardownOnce_of_run_guestSession :
    ∃ s, run Server.step Server.small guestSession = some s ∧ s.WentOffline 0 ∧ s.TeardownOnce := by
  have hrun : ((run Server.step Server.small guestSession).map fun s => decide (s.WentOffline 0)) =
      some true := by decide
  obtain ⟨s, hs, heq⟩ := Option.map_eq_some_iff.mp hrun
  exact ⟨s, hs, of_decide_eq_true heq, Server.teardownOnce_of_run hs (by decide)⟩

/-- A second receive error follows before the tick has queued the player. -/
def twoReceiveErrors : List Event := guestLogin 0 ++ [.receiveError 0 1, .receiveError 0 2]

/-- The connection goes offline, and the player is never saved. -/
theorem Server.not_teardownOnce_twoReceiveErrors :
    ∃ s, run Server.step Server.small twoReceiveErrors = some s ∧ ¬ s.TeardownOnce := by
  have hrun : ((run Server.step Server.small twoReceiveErrors).map fun s =>
      (decide (s.WentOffline 0), s.log.count (.saveCalled 0))) = some (true, 0) := by decide
  obtain ⟨s, hs, heq⟩ := Option.map_eq_some_iff.mp hrun
  simp only [Prod.mk.injEq, decide_eq_true_eq] at heq
  obtain ⟨hwent, hcount⟩ := heq
  refine ⟨s, hs, fun h => ?_⟩
  have hone := (h 0 hwent).1
  omega

end Mmocraft
