/-
# Mmocraft.Server.History -- what the history says, and that it is consistent

`ReachedLive` and `WentOffline` are the two facts about a run that several guarantees speak of.
`HistoryOk` says that the history, the tasks and the suspended logins only mention players and
replies that there are, and that a player that leaves can only become disconnected; it holds after
every run.

The history is a list, newest first, of what the guarantees about whole runs speak of: states entered,
saves, documents, despawn notices, logouts, connections that went offline. A guarantee is a property of that
list, so what is needed most often is that records are about players that exist, and in which order they can
stand.

`HistoryOk.closed` is the first instance of the rule `Closed`, and every other invariant is proved over it:
`Server.consistent_of_run` gives the table and the history to anyone who starts from a reachable state.
-/
import Mmocraft.Server.Closure

namespace Mmocraft

open Mmocraft.Lib Mmocraft.Game Mmocraft.Net

/-! ## Facts about a run

The facts are decidable on the history, so that a run can be checked by evaluation, and are preserved when
records are added.
-/

/-- The record says that player `p` entered a state from `handshaked` on. -/
def Record.EntersLive (p : Nat) : Record → Prop
  | .state q st => q = p ∧ st.IsLive
  | _ => False

instance (p : Nat) : DecidablePred (Record.EntersLive p) := fun r => by
  cases r <;> unfold Record.EntersLive <;> infer_instance

/-- Player `p` has been in a state from `handshaked` on. -/
def ReachedLive (log : List Record) (p : Nat) : Prop := ∃ r ∈ log, r.EntersLive p

instance (log : List Record) (p : Nat) : Decidable (ReachedLive log p) :=
  inferInstanceAs (Decidable (∃ r ∈ log, r.EntersLive p))

/-- The newest record is a live state of the player, or an earlier one was. -/
theorem reachedLive_cons {r : Record} {log : List Record} {p : Nat} :
    ReachedLive (r :: log) p ↔ r.EntersLive p ∨ ReachedLive log p := by
  simp [ReachedLive]

theorem ReachedLive.of_state {log : List Record} {p : Nat} {st : State}
    (hmem : .state p st ∈ log) (hlive : st.IsLive) : ReachedLive log p := ⟨_, hmem, rfl, hlive⟩

/-- A player that was live once stays one that was live. -/
theorem ReachedLive.append {log : List Record} {p : Nat} (h : ReachedLive log p)
    (later : List Record) : ReachedLive (later ++ log) p := by
  obtain ⟨r, hr, hlive⟩ := h
  exact ⟨r, List.mem_append_right _ hr, hlive⟩

/-- Connection `conn` went offline after player `p` had reached a live state. -/
def OfflineAfterLive (conn p : Nat) : List Record → Prop
  | [] => False
  | r :: earlier => (r = .offline conn ∧ ReachedLive earlier p) ∨ OfflineAfterLive conn p earlier

instance decidableOfflineAfterLive (conn p : Nat) :
    (log : List Record) → Decidable (OfflineAfterLive conn p log)
  | [] => isFalse id
  | _ :: earlier =>
      letI := decidableOfflineAfterLive conn p earlier
      inferInstanceAs (Decidable (_ ∨ _))

/-- In the order of time: the player was live, and its connection went offline later. -/
theorem offlineAfterLive_iff {conn p : Nat} {log : List Record} :
    OfflineAfterLive conn p log ↔
      ∃ later earlier, log = later ++ .offline conn :: earlier ∧ ReachedLive earlier p := by
  induction log with
  | nil => simp [OfflineAfterLive]
  | cons r log ih =>
      constructor
      · rintro (⟨rfl, hlive⟩ | h)
        · exact ⟨[], log, rfl, hlive⟩
        · obtain ⟨later, earlier, rfl, hlive⟩ := ih.mp h
          exact ⟨r :: later, earlier, rfl, hlive⟩
      · rintro ⟨later, earlier, hlog, hlive⟩
        cases later with
        | nil =>
            obtain ⟨rfl, rfl⟩ := List.cons.inj hlog
            exact Or.inl ⟨rfl, hlive⟩
        | cons r' later =>
            obtain ⟨rfl, rfl⟩ := List.cons.inj hlog
            exact Or.inr (ih.mpr ⟨later, earlier, rfl, hlive⟩)

/-- The connection of player `p` went offline after the player had reached a live state. -/
def Server.WentOffline (s : Server) (p : Nat) : Prop := OfflineAfterLive (s.owner p) p s.log

instance (s : Server) (p : Nat) : Decidable (s.WentOffline p) :=
  inferInstanceAs (Decidable (OfflineAfterLive _ _ _))

/-- The record is about player `p`. -/
def Record.IsAbout (p : Nat) : Record → Prop
  | .state q _ | .transit q _ _ | .saveCalled q | .document q _ _ _ | .despawned q | .loaded q _ _
  | .authenticated q _ _ => q = p
  | _ => False

theorem Record.EntersLive.isAbout {p : Nat} {r : Record} (h : r.EntersLive p) : r.IsAbout p := by
  cases r with
  | state q st => exact h.1
  | _ => exact h.elim

/-- A record is about one player. -/
theorem Record.IsAbout.unique {p q : Nat} {r : Record} (hp : r.IsAbout p) (hq : r.IsAbout q) :
    p = q := by
  cases r with
  | accepted _ _ => exact hp.elim
  | logout _ _ => exact hp.elim
  | offline _ => exact hp.elim
  | responded _ _ => exact hp.elim
  | _ => exact hp.symm.trans hq

/-- The record is neither a logout nor the end of a connection. -/
def Record.IsPlain : Record → Prop
  | .logout _ _ | .offline _ => False
  | _ => True

/-! ## Consistency

What is needed of the lists of the tasks is that their players exist, and were live before they were queued
or are being torn down; of the stages, that `disconnecting` only leads to `disconnected` and nothing leads
on from there.
-/

/-- History, tasks and suspended logins mention only players, connections and replies that there
are.  The tasks that let players on refer to players that have been live; a player that leaves can
only become disconnected, and the disconnect task refers to none but such. -/
structure HistoryOk (s : Server) : Prop where
  about_lt : ∀ r ∈ s.log, ∀ p, r.IsAbout p → p < s.numOfPlayers
  spawn_reached : ∀ p ∈ s.world.spawnPlayerTask.players, ReachedLive s.log p
  level_reached : ∀ p ∈ s.world.syncBlockTask.players, ReachedLive s.log p
  disconnect_tornDown : ∀ p ∈ s.world.disconnectPlayerTask.players, p < s.numOfPlayers ∧
    (s.players p).toPlayerState.IsTornDown
  state_mem : ∀ p < s.numOfPlayers, .state p (s.players p).state ∈ s.log
  sound : ∀ p < s.numOfPlayers, (s.players p).toPlayerState.IsSound
  load_responded : ∀ load ∈ s.loads, .responded load.request load.reply ∈ s.log
  not_logout : ∀ conn username, .logout conn username ∉ s.log
  offline_lt : ∀ c, .offline c ∈ s.log → c < s.numOfAccepted
  online : ∀ c, s.OnlineId c → .offline c ∉ s.log

namespace HistoryOk

variable {s : Server}

/-- Only players that were constructed were ever live. -/
theorem reachedLive_lt (h : HistoryOk s) {p : Nat} (hlive : ReachedLive s.log p) :
    p < s.numOfPlayers := by
  obtain ⟨r, hr, hlive⟩ := hlive
  exact h.about_lt r hr p hlive.isAbout

theorem disconnect_lt (h : HistoryOk s) {p : Nat} (hp : p ∈ s.world.disconnectPlayerTask.players) :
    p < s.numOfPlayers := (h.disconnect_tornDown p hp).1

theorem spawn_lt (h : HistoryOk s) {p : Nat} (hp : p ∈ s.world.spawnPlayerTask.players) :
    p < s.numOfPlayers := h.reachedLive_lt (h.spawn_reached p hp)

theorem level_lt (h : HistoryOk s) {p : Nat} (hp : p ∈ s.world.syncBlockTask.players) :
    p < s.numOfPlayers := h.reachedLive_lt (h.level_reached p hp)

/-- While a player is attached, its connection has not gone offline. -/
theorem not_wentOffline (h : HistoryOk s) (ht : TableOk s) {p : Nat} (hp : s.Attached p) :
    ¬ s.WentOffline p := by
  intro hoffline
  obtain ⟨later, earlier, hlog, -⟩ := offlineAfterLive_iff.mp hoffline
  apply h.online _ (hp.onlineId ht)
  rw [hlog]
  exact List.mem_append_right _ List.mem_cons_self

/-- A player that is live now was recorded when it became so. -/
theorem reachedLive_of_state (h : HistoryOk s) {p : Nat} (hp : p < s.numOfPlayers)
    (hlive : (s.players p).state.IsLive) : ReachedLive s.log p :=
  ReachedLive.of_state (h.state_mem p hp) hlive

theorem init (maxClients : Nat) (metadata : WorldMetadata) (blockMapping : List UInt8) :
    HistoryOk (Server.init maxClients metadata blockMapping) where
  about_lt _ hr := nomatch hr
  spawn_reached _ hp := nomatch hp
  level_reached _ hp := nomatch hp
  disconnect_tornDown _ hp := nomatch hp
  state_mem _ hp := nomatch hp
  sound _ hp := nomatch hp
  load_responded _ hl := nomatch hl
  not_logout _ _ hr := nomatch hr
  offline_lt _ hr := nomatch hr
  online _ _ hr := nomatch hr

/-- New plain records about known players, and changed states that are recorded and keep a leaving
player leaving, keep the history consistent as long as the tasks and the loads stay the same and
only a new connection comes online. -/
theorem of_log {t : Server} (h : HistoryOk s) (rs : List Record) (hlog : t.log = rs ++ s.log)
    (hnum : s.numOfPlayers ≤ t.numOfPlayers)
    (habout : ∀ r ∈ rs, (∀ p, r.IsAbout p → p < t.numOfPlayers) ∧ r.IsPlain)
    (hstate : ∀ p < t.numOfPlayers,
      (p < s.numOfPlayers ∧ (t.players p).toPlayerState = (s.players p).toPlayerState) ∨
      (.state p (t.players p).state ∈ rs ∧ (t.players p).toPlayerState.IsSound ∧
        (p < s.numOfPlayers → (s.players p).toPlayerState.IsTornDown →
          (t.players p).toPlayerState.IsTornDown)))
    (hworld : t.world = s.world) (hloads : t.loads = s.loads)
    (haccepted : s.numOfAccepted ≤ t.numOfAccepted)
    (honline : ∀ c, t.OnlineId c → s.OnlineId c ∨ c = s.numOfAccepted) : HistoryOk t where
  about_lt r hr p hp := by
    rw [hlog] at hr
    rcases List.mem_append.mp hr with hr | hr
    · exact (habout r hr).1 p hp
    · exact Nat.lt_of_lt_of_le (h.about_lt r hr p hp) hnum
  spawn_reached p hp := hlog ▸ (h.spawn_reached p (hworld ▸ hp)).append rs
  level_reached p hp := hlog ▸ (h.level_reached p (hworld ▸ hp)).append rs
  disconnect_tornDown p hp := by
    obtain ⟨hlt, htorn⟩ := h.disconnect_tornDown p (hworld ▸ hp)
    have hlt' := Nat.lt_of_lt_of_le hlt hnum
    refine ⟨hlt', ?_⟩
    rcases hstate p hlt' with ⟨-, heq⟩ | ⟨-, -, hstay⟩
    · exact heq ▸ htorn
    · exact hstay hlt htorn
  state_mem p hp := by
    rw [hlog]
    rcases hstate p hp with ⟨hlt, heq⟩ | ⟨hmem, -⟩
    · rw [show (t.players p).state = (s.players p).state from congrArg _ heq]
      exact List.mem_append_right _ (h.state_mem p hlt)
    · exact List.mem_append_left _ hmem
  sound p hp := by
    rcases hstate p hp with ⟨hlt, heq⟩ | ⟨-, hsound, -⟩
    · exact heq ▸ h.sound p hlt
    · exact hsound
  load_responded load hl := by
    rw [hlog]
    exact List.mem_append_right _ (h.load_responded load (hloads ▸ hl))
  not_logout conn username hr := by
    rw [hlog] at hr
    rcases List.mem_append.mp hr with hr | hr
    · exact (habout _ hr).2
    · exact h.not_logout conn username hr
  offline_lt c hr := by
    rw [hlog] at hr
    rcases List.mem_append.mp hr with hr | hr
    · exact (habout _ hr).2.elim
    · exact Nat.lt_of_lt_of_le (h.offline_lt c hr) haccepted
  online c hc hr := by
    rw [hlog] at hr
    rcases List.mem_append.mp hr with hr | hr
    · exact (habout _ hr).2
    · rcases honline c hc with hc | rfl
      · exact h.online c hc hr
      · exact Nat.lt_irrefl _ (h.offline_lt _ hr)

theorem record (h : HistoryOk s) {r : Record} (habout : ∀ p, r.IsAbout p → p < s.numOfPlayers)
    (hplain : r.IsPlain) : HistoryOk (s.record r) := by
  refine h.of_log [r] rfl (Nat.le_refl _) ?_ (fun p hp => Or.inl ⟨hp, rfl⟩) rfl rfl
    (Nat.le_refl _) fun _ => Or.inl
  intro r' hr'
  rw [List.mem_singleton.mp hr']
  exact ⟨habout, hplain⟩

/-- A state of a known player is changed and recorded. -/
theorem of_move {t : Server} (h : HistoryOk s) {p : Nat} (hp : p < s.numOfPlayers) (rs : List Record)
    (hlog : t.log = .state p (t.players p).state :: rs ++ s.log)
    (hrs : ∀ r ∈ rs, r.IsAbout p ∧ r.IsPlain)
    (hothers : ∀ q, q ≠ p → t.players q = s.players q)
    (hsound : (t.players p).toPlayerState.IsSound)
    (hstay : (s.players p).toPlayerState.IsTornDown → (t.players p).toPlayerState.IsTornDown)
    (hshape : SameShape s t) (hworld : t.world = s.world) (hloads : t.loads = s.loads) :
    HistoryOk t := by
  have hnum := hshape.numOfPlayers
  refine h.of_log (.state p (t.players p).state :: rs) hlog (Nat.le_of_eq hnum.symm) ?_ ?_ hworld hloads
    (Nat.le_of_eq hshape.numOfAccepted.symm) ?_
  · intro r hr
    rcases List.mem_cons.mp hr with rfl | hr
    · refine ⟨fun q hq => ?_, trivial⟩
      obtain rfl : p = q := hq
      omega
    · refine ⟨fun q hq => ?_, (hrs r hr).2⟩
      obtain rfl := Record.IsAbout.unique (hrs r hr).1 hq
      omega
  · intro q hq
    by_cases hqp : q = p
    · rw [hqp]
      exact Or.inr ⟨List.mem_cons_self, hsound, fun _ => hstay⟩
    · exact Or.inl ⟨hnum ▸ hq, by rw [hothers q hqp]⟩
  · rintro c ⟨i, conn, hc, hrest⟩
    rw [Server.connection, hshape.connectionEnv] at hc
    exact Or.inl ⟨i, conn, hc, hrest⟩

/-- A transition is recorded, with the state that it was prepared to enter. -/
theorem transitState (h : HistoryOk s) {p : Nat} (hp : p < s.numOfPlayers) (hint : State) :
    HistoryOk (s.transitState p hint) := by
  have hself : ((s.transitState p hint).players p).toPlayerState =
      (s.players p).toPlayerState.transitState := by
    rw [Server.transitState_players, if_pos rfl]
    rfl
  refine h.of_move hp [.transit p hint (s.players p).nextState] ?_ ?_ ?_ ?_ ?_
    (SameShape.transitState s p hint) rfl rfl
  · simp [Server.transitState_players]
  · intro r hr
    rw [List.mem_singleton.mp hr]
    exact ⟨rfl, trivial⟩
  · intro q hq
    rw [Server.transitState_players, if_neg hq]
  · rw [hself]
    exact (h.sound p hp).transitState
  · rw [hself]
    exact fun htorn => htorn.transitState

/-- A preparation enters its own state at once, and may not lead out of the teardown. -/
theorem prepareStateTransition (h : HistoryOk s) {p : Nat} (hp : p < s.numOfPlayers)
    {cur next : State} (hsound : ((s.players p).prepareStateTransition cur next).toPlayerState.IsSound)
    (hstay : (s.players p).toPlayerState.IsTornDown →
      ((s.players p).prepareStateTransition cur next).toPlayerState.IsTornDown) :
    HistoryOk (s.prepareStateTransition p cur next) := by
  have hself : (s.prepareStateTransition p cur next).players p =
      (s.players p).prepareStateTransition cur next := by
    rw [Server.prepareStateTransition_players, if_pos rfl]
  refine h.of_move hp [] ?_ (fun _ hr => nomatch hr) ?_ (hself ▸ hsound) (hself ▸ hstay)
    (SameShape.prepareStateTransition s p cur next) rfl rfl
  · simp [Server.prepareStateTransition_players]
  · intro q hq
    rw [Server.prepareStateTransition_players, if_neg hq]

/-- The world prepares a player that is not leaving for something else than leaving. -/
theorem prepareNext (h : HistoryOk s) {p : Nat} (hp : p < s.numOfPlayers) (cur next : State)
    (hstate : ¬ (s.players p).state.IsLeaving) (hcur : ¬ cur.IsLeaving) (hnext : ¬ next.IsLeaving) :
    HistoryOk (s.prepareStateTransition p cur next) :=
  h.prepareStateTransition hp (Or.inr ⟨hcur, hnext⟩) fun htorn => absurd htorn.1 hstate

/-- What changes no state leaves nothing to be recorded. -/
theorem quiet {t : Server} (h : HistoryOk s) (hq : Quiet s t) : HistoryOk t where
  about_lt := by
    rw [hq.log, hq.numOfPlayers]
    exact h.about_lt
  spawn_reached := by
    rw [hq.spawnTask, hq.log]
    exact h.spawn_reached
  level_reached := by
    rw [hq.levelTask, hq.log]
    exact h.level_reached
  disconnect_tornDown p hp := by
    rw [hq.numOfPlayers, (hq.standing p).toPlayerState]
    exact h.disconnect_tornDown p (hq.disconnectTask ▸ hp)
  state_mem p hp := by
    rw [hq.log, (hq.standing p).state]
    exact h.state_mem p (hq.numOfPlayers ▸ hp)
  sound p hp := by
    rw [(hq.standing p).toPlayerState]
    exact h.sound p (hq.numOfPlayers ▸ hp)
  load_responded := by
    rw [hq.log, hq.loads]
    exact h.load_responded
  not_logout := by
    rw [hq.log]
    exact h.not_logout
  offline_lt := by
    rw [hq.log, hq.numOfAccepted]
    exact h.offline_lt
  online := by
    rintro c ⟨i, conn, hc, hrest⟩
    rw [hq.log]
    exact h.online c ⟨i, conn, (hq.connection i).symm.trans hc, hrest⟩

/-- The record is about a connection that is not online any more, and about no player. -/
theorem setOffline (h : HistoryOk s) (ht : TableOk s) {i : Nat} {conn : Connection}
    (hconn : s.connection i = some conn) (now : Nat) : HistoryOk (s.setOffline i conn now) where
  about_lt r hr p hp := by
    rcases List.mem_cons.mp hr with rfl | hr
    · exact hp.elim
    · exact h.about_lt r hr p hp
  spawn_reached p hp := (h.spawn_reached p hp).append [.offline conn.id]
  level_reached p hp := (h.level_reached p hp).append [.offline conn.id]
  disconnect_tornDown := h.disconnect_tornDown
  state_mem p hp := List.mem_cons_of_mem _ (h.state_mem p hp)
  sound := h.sound
  load_responded load hl := List.mem_cons_of_mem _ (h.load_responded load hl)
  not_logout c username hr := by
    rcases List.mem_cons.mp hr with hr | hr
    · cases hr
    · exact h.not_logout c username hr
  offline_lt c hr := by
    rcases List.mem_cons.mp hr with heq | hr
    · rw [Record.offline.inj heq]
      exact ht.id_lt i conn hconn
    · exact h.offline_lt c hr
  online c hc hr := by
    obtain ⟨honline, hne⟩ := Server.onlineId_setOffline ht hconn hc
    rcases List.mem_cons.mp hr with heq | hr
    · exact hne (Record.offline.inj heq)
    · exact h.online c honline hr

theorem disconnect (h : HistoryOk s) (ht : TableOk s) (i now : Nat) :
    HistoryOk (s.disconnect i now) := by
  have htorn : ∀ player : Player,
      (player.prepareStateTransition .disconnecting .disconnected).toPlayerState.IsTornDown :=
    fun _ => ⟨Or.inl rfl, rfl⟩
  rcases s.disconnect_cases i now with heq | ⟨conn, p, hhas, -, -, heq⟩ | ⟨conn, hconn, -, -, heq⟩
  · rw [heq]
    exact h
  · rw [heq]
    exact h.prepareStateTransition (ht.player_lt _ _ _ hhas) (Or.inl (htorn _)) fun _ => htorn _
  · rw [heq]
    exact h.setOffline ht hconn now

/-- The player of a handshake is new, so no record and no task is about it. -/
theorem handshake (h : HistoryOk s) {i : Nat} {conn : Connection} (hconn : s.connection i = some conn)
    (username password : List UInt8) (cpeMagic : UInt8) (garbage : PlayerTypeId) :
    HistoryOk (s.handleHandshakePacket i conn username password cpeMagic garbage) := by
  have honline : ∀ c, (s.handleHandshakePacket i conn username password cpeMagic garbage).OnlineId c →
      s.OnlineId c ∨ c = s.numOfAccepted := fun c hc => Or.inl (Server.onlineId_handshake hconn hc)
  obtain ⟨cur, next, hstart, heq⟩ := s.handshake_eq i conn username password cpeMagic garbage
  rw [heq] at honline ⊢
  refine h.of_log [.state s.numOfPlayers cur] rfl (Nat.le_succ _) ?_ ?_ rfl rfl (Nat.le_refl _) honline
  · intro r hr
    rw [List.mem_singleton.mp hr]
    refine ⟨fun p hp => ?_, trivial⟩
    obtain rfl : s.numOfPlayers = p := hp
    exact Nat.lt_succ_self _
  · intro p hp
    simp only [Server.prepareStateTransition_players]
    by_cases hnew : p = s.numOfPlayers
    · rw [if_pos hnew, hnew]
      refine Or.inr ⟨List.mem_singleton_self _, Or.inr ?_, fun hlt => absurd hlt (Nat.lt_irrefl _)⟩
      exact hstart.not_leaving
    · have hlt : p < s.numOfPlayers := Nat.lt_of_le_of_ne (Nat.le_of_lt_succ hp) hnew
      rw [if_neg hnew]
      exact Or.inl ⟨hlt, by rw [Server.setPlayer_players, if_neg hnew]⟩

theorem record_saveCalled (h : HistoryOk s) {p : Nat} (hp : p < s.numOfPlayers) :
    HistoryOk (s.record (.saveCalled p)) :=
  h.record (fun q hq => show q < _ from hq ▸ hp) trivial

theorem record_loaded (h : HistoryOk s) {p : Nat} (hp : p < s.numOfPlayers) {load : GamedataLoad}
    {result : LoadResult} :
    HistoryOk (s.record (.loaded p load result)) :=
  h.record (fun q hq => show q < _ from hq ▸ hp) trivial

theorem record_authenticated (h : HistoryOk s) {p : Nat} (hp : p < s.numOfPlayers)
    {request : LoginRequest} {reply : LoginReply} :
    HistoryOk (s.record (.authenticated p request reply)) :=
  h.record (fun q hq => show q < _ from hq ▸ hp) trivial

/-- A save is recorded when it is called, and again with its document. -/
theorem savePlayerGamedata (h : HistoryOk s) {p : Nat} (hp : p < s.numOfPlayers) :
    HistoryOk (s.savePlayerGamedata p) := by
  have hsave := h.record_saveCalled hp
  unfold Server.savePlayerGamedata
  show HistoryOk (if _ then _ else _)
  split_ifs
  · exact hsave.record (fun q hq => show q < _ from hq ▸ hp) trivial
  · exact hsave

theorem authenticate (h : HistoryOk s) {p : Nat} (hp : p < s.numOfPlayers) (request : LoginRequest)
    (reply : LoginReply) : HistoryOk ((s.record (.authenticated p request reply)).transitState p) :=
  HistoryOk.transitState (h.record_authenticated hp) hp _

/-- Despawn records of players that the disconnect task refers to. -/
theorem record_despawned (h : HistoryOk s) {ds : List Nat}
    (hds : ∀ p ∈ ds, p ∈ s.world.disconnectPlayerTask.target) :
    HistoryOk { s with log := ds.map .despawned ++ s.log } := by
  refine h.of_log (ds.map .despawned) rfl (Nat.le_refl _) ?_ (fun p hp => Or.inl ⟨hp, rfl⟩) rfl rfl
    (Nat.le_refl _) fun _ => Or.inl
  intro r hr
  obtain ⟨p, hp, rfl⟩ := List.mem_map.mp hr
  refine ⟨fun q hq => ?_, trivial⟩
  obtain rfl : p = q := hq
  exact h.disconnect_lt (WorldPlayerTask.mem_players_of_target (hds p hp))

theorem finishDisconnect (h : HistoryOk s) : HistoryOk (s.updateDisconnectPlayerTask (·.finish)) :=
  { h with
    disconnect_tornDown := fun p hp =>
      h.disconnect_tornDown p (WorldPlayerTask.mem_players_of_finish hp) }

/-- A change of the identity of a known player. -/
theorem updatePlayer (h : HistoryOk s) (p : Nat) {f : Player → Player}
    (hf : (f (s.players p)).toPlayerState = (s.players p).toPlayerState) :
    HistoryOk (s.updatePlayer p f) := by
  refine h.of_log [] rfl (Nat.le_refl _) (fun _ hr => nomatch hr) (fun q hq => Or.inl ⟨hq, ?_⟩)
    rfl rfl (Nat.le_refl _) fun _ => Or.inl
  rw [Server.updatePlayer_players]
  split_ifs with hqp
  · rw [hqp, hf]
  · rfl

theorem setTypeAndUuid (h : HistoryOk s) (p : Nat) (type : PlayerTypeId) (uuid : List UInt8) :
    HistoryOk (s.updatePlayer p fun player => (player.setPlayerType type).setUuid uuid) :=
  h.updatePlayer p rfl

theorem admitGuest (h : HistoryOk s) {p : Nat} (hp : p < s.numOfPlayers) (request : LoginRequest)
    (reply : LoginReply) : HistoryOk (s.admitGuest p request reply) := by
  have htyped : HistoryOk (s.updatePlayer p fun player => player.setPlayerType PlayerTypeId.guest) :=
    h.updatePlayer p rfl
  exact htyped.authenticate hp request reply

theorem admitLoaded (h : HistoryOk s) {p : Nat} (hp : p < s.numOfPlayers) (load : GamedataLoad)
    (result : LoadResult) : HistoryOk (s.admitLoaded p load result) := by
  rw [Server.admitLoaded_eq]
  have hset := h.updatePlayer p (f := (Server.loadedGamedata · result))
    (Server.sameStanding_loadedGamedata _ result).toPlayerState
  exact (hset.record_loaded hp).authenticate hp _ _

theorem of_requests (h : HistoryOk s) (requests : List LoginRequest) :
    HistoryOk { s with requests := requests } := { h with }

theorem eraseLoad (h : HistoryOk s) (load : GamedataLoad) :
    HistoryOk { s with loads := s.loads.erase load } :=
  { h with load_responded := fun load hl => h.load_responded load (List.mem_of_mem_erase hl) }

/-- A run of the disconnect task. -/
theorem disconnectRun (h : HistoryOk s) (ht : TableOk s) (o o' : Outcomes) :
    HistoryOk (s.runTask .disconnectPlayer o o') := by
  refine Closed.disconnectRun_of_parts (P := HistoryOk) (fun _ hq hs => hs.quiet hq) ?_ ?_ ?_ ht h o o'
  · exact fun ds hds hs => hs.record_despawned hds
  · intro s conn p _ hp _ hs
    have hlt := hs.disconnect_lt (WorldPlayerTask.mem_players_of_target hp)
    refine (hs.savePlayerGamedata hlt).transitState ?_ _
    rwa [(SameShape.savePlayerGamedata s p).numOfPlayers]
  · exact fun hs => hs.finishDisconnect

/-- A new connection is one that the history does not know yet. -/
theorem accept (h : HistoryOk s) (ht : TableOk s) (now : Nat) : HistoryOk (s.accept now) := by
  have honline : ∀ c, (s.accept now).OnlineId c → s.OnlineId c ∨ c = s.numOfAccepted := fun c hc =>
    Server.onlineId_accept ht hc
  unfold Server.accept at honline ⊢
  by_cases hfull : s.connectionEnv.numOfMaxConnections ≤ s.connectionEnv.numOfConnections
  · rw [if_pos hfull]
    exact h
  · rw [if_neg hfull] at honline ⊢
    refine h.of_log [.accepted _ _] rfl (Nat.le_refl _) ?_ (fun p hp => Or.inl ⟨hp, rfl⟩) rfl rfl
      (Nat.le_succ _) honline
    intro r hr
    rw [List.mem_singleton.mp hr]
    exact ⟨fun _ hp => hp.elim, trivial⟩

/-- **The history stays consistent.** -/
theorem closed : Closed (fun _ => True) HistoryOk fun _ _ => True where
  quiet _ _ hq h := h.quiet hq
  interact _ _ _ _ hconn h :=
    { h with online := fun c hc => h.online c (Server.onlineId_interact hconn hc) }
  accept now _ ht _ h := h.accept ht now
  delete ht _ hconn _ h :=
    { h with online := fun c hc => h.online c (Server.onlineId_delete ht hconn hc) }
  disconnect i now _ ht _ _ h := h.disconnect ht i now
  handshake username password cpeMagic garbage _ _ hconn _ _ h :=
    h.handshake hconn username password cpeMagic garbage
  extEntry ht _ hp _ _ h := h.transitState (ht.player_lt _ _ _ hp) _
  syncing ht _ hp _ hst h :=
    h.prepareNext (ht.player_lt _ _ _ hp) _ _ (hst ▸ by decide) (by decide) (by decide)
  levelWait ht _ hp _ hst h := by
    have hlt := ht.player_lt _ _ _ hp
    have hlive : ReachedLive _ _ := h.reachedLive_of_state hlt
      (by rcases hst with hst | hst <;> rw [hst] <;> decide)
    have hprepared := h.prepareNext hlt .levelInitializing .levelInitialized
      (by rcases hst with hst | hst <;> rw [hst] <;> decide) (by decide) (by decide)
    refine { hprepared with level_reached := fun q hq => ?_ }
    rcases WorldPlayerTask.mem_players_push.mp hq with rfl | hq
    · exact hlive.append [_]
    · exact hprepared.level_reached q hq
  spawnWait ht _ hp _ hst h := by
    have hlt := ht.player_lt _ _ _ hp
    have hlive : ReachedLive _ _ := h.reachedLive_of_state hlt (hst ▸ by decide)
    have hprepared := h.prepareNext hlt .spawning .spawned (hst ▸ by decide) (by decide) (by decide)
    refine { hprepared with spawn_reached := fun q hq => ?_ }
    rcases WorldPlayerTask.mem_players_push.mp hq with rfl | hq
    · exact hlive.append [_]
    · exact hprepared.spawn_reached q hq
  pushDisconnect ht _ hp _ hst h := by
    refine { h with disconnect_tornDown := fun q hq => ?_ }
    rcases WorldPlayerTask.mem_players_push.mp hq with rfl | hq
    · have hlt := ht.player_lt _ _ _ hp
      exact ⟨hlt, (h.sound q hlt).tornDown (Or.inl hst)⟩
    · exact h.disconnect_tornDown q hq
  scheduleSpawn _ _ _ _ _ h :=
    { h with
      spawn_reached := fun q hq => h.spawn_reached q (WorldPlayerTask.mem_players_schedule.mp hq) }
  scheduleDisconnect _ _ _ _ _ h :=
    { h with
      disconnect_tornDown := fun q hq =>
        h.disconnect_tornDown q (WorldPlayerTask.mem_players_schedule.mp hq) }
  scheduleLevel _ _ _ _ _ h :=
    { h with
      level_reached := fun q hq => h.level_reached q (WorldPlayerTask.mem_players_schedule.mp hq) }
  levelCallback _ _ hp _ _ h :=
    h.transitState (h.level_lt (WorldPlayerTask.mem_players_of_target hp)) _
  spawnCallback _ _ hp _ _ h :=
    h.transitState (h.spawn_lt (WorldPlayerTask.mem_players_of_target hp)) _
  finishLevel _ _ h :=
    { h with
      level_reached := fun q hq => h.level_reached q (WorldPlayerTask.mem_players_of_finish hq) }
  finishSpawn _ _ h :=
    { h with
      spawn_reached := fun q hq => h.spawn_reached q (WorldPlayerTask.mem_players_of_finish hq) }
  disconnectRun o o' ht _ _ _ h := h.disconnectRun ht o o'
  respond _ _ _ _ h := (h.of_requests _).record (fun _ hp => hp.elim) trivial
  setIdentity _ _ _ _ _ _ _ _ h := h.setTypeAndUuid _ _ _
  guest ht _ hp _ _ _ _ _ h := h.admitGuest (ht.player_lt _ _ _ hp) _ _
  addLoad _ _ hr _ h := by
    refine { h with load_responded := fun load hl => ?_ }
    rcases List.mem_append.mp hl with hl | hl
    · exact h.load_responded load hl
    · rw [List.mem_singleton.mp hl]
      exact hr
  takeLoad _ _ _ h := h.eraseLoad _
  loaded ht _ _ hp _ _ _ _ h := (h.eraseLoad _).admitLoaded (ht.player_lt _ _ _ hp) _ _

end HistoryOk

/-- Table and history are consistent after every run from the start. -/
theorem Server.consistent_of_run {maxClients : Nat} {metadata : WorldMetadata}
    {blockMapping : List UInt8} {es : List Event} {s : Server}
    (hrun : run Server.step (Server.init maxClients metadata blockMapping) es = some s) :
    TableOk s ∧ HistoryOk s := by
  refine HistoryOk.closed.run ⟨TableOk.init .., HistoryOk.init ..⟩ (Along.of_forall ?_) hrun
  exact fun _ _ _ _ => trivial

end Mmocraft
