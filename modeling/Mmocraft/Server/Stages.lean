/-
# Mmocraft.Server.Stages -- the prepared transitions

A player is always in a stage, with the end of the stage as its prepared transition, or at the end
of one.  Nothing checks that the call of `transit_state` which ends a stage finds the player in it:
only an assert compares the hint of the call with the prepared state.  `ClosedStates` lists the few
ways in which an event changes states; what it says of a property holds of every event.

So there are two results here. That every player is in a stage (`StagesOk`) holds in every run, because only
the tick and the handlers prepare transitions, and each of them prepares a stage. That the hint of a call
agrees with the prepared state (`HintsOk`) holds as long as the call is made in its stage, and the run
`errorBeforeLevel` is one in which it is not.

`ClosedStates` is the form of the rule `Closed` for properties of states and of the history: of all moves,
only the transitions, the preparations and a new player are left to be looked at.
-/
import Mmocraft.Server.History

namespace Mmocraft

open Mmocraft.Lib Mmocraft.Game Mmocraft.Net

/-! ## Changes of states -/

/-- The record tells a state or a transition. -/
def Record.IsStep : Record → Prop
  | .state _ _ | .transit _ _ _ => True
  | _ => False

/-- From `s` to `t` no state changes and no transition is made. -/
structure StatesKept (s t : Server) : Prop where
  numOfPlayers : t.numOfPlayers = s.numOfPlayers
  owner : t.owner = s.owner
  states : ∀ p, (t.players p).toPlayerState = (s.players p).toPlayerState
  log : ∃ rs, t.log = rs ++ s.log ∧ ∀ r ∈ rs, ¬ r.IsStep

namespace StatesKept

variable {s t u : Server}

theorem of_eq (hnum : t.numOfPlayers = s.numOfPlayers) (howner : t.owner = s.owner)
    (hplayers : t.players = s.players) (hlog : t.log = s.log) : StatesKept s t :=
  ⟨hnum, howner, fun _ => by rw [hplayers], [], hlog, fun _ hr => absurd hr List.not_mem_nil⟩

theorem refl (s : Server) : StatesKept s s := of_eq rfl rfl rfl rfl

theorem trans (hst : StatesKept s t) (htu : StatesKept t u) : StatesKept s u := by
  obtain ⟨rs, hrs, hnone⟩ := hst.log
  obtain ⟨qs, hqs, hnone'⟩ := htu.log
  refine ⟨htu.1.trans hst.1, htu.2.trans hst.2, fun p => (htu.3 p).trans (hst.3 p), qs ++ rs, ?_, ?_⟩
  · rw [hqs, hrs, List.append_assoc]
  · intro r hr
    rcases List.mem_append.mp hr with hr | hr
    · exact hnone' r hr
    · exact hnone r hr

/-- A quiet change enters no state. -/
theorem of_quiet (h : Quiet s t) : StatesKept s t :=
  ⟨h.numOfPlayers, h.owner, fun p => (h.standing p).toPlayerState, [], h.log,
    fun _ hr => absurd hr List.not_mem_nil⟩

/-- A record that is about no state. -/
theorem record (s : Server) {r : Record} (hr : ¬ r.IsStep) : StatesKept s (s.record r) := by
  refine ⟨rfl, rfl, fun _ => rfl, [r], rfl, fun r' hr' => ?_⟩
  rw [List.mem_singleton.mp hr']
  exact hr

/-- Data of a player beside its state. -/
theorem updatePlayer (s : Server) (p : Nat) {f : Player → Player}
    (hf : (f (s.players p)).toPlayerState = (s.players p).toPlayerState) :
    StatesKept s (s.updatePlayer p f) := by
  refine ⟨rfl, rfl, fun q => ?_, [], rfl, fun _ hr => absurd hr List.not_mem_nil⟩
  rw [Server.updatePlayer_players]
  split_ifs with hqp
  · rw [hf, hqp]
  · rfl

theorem setTypeAndUuid (s : Server) (p : Nat) (type : PlayerTypeId) (uuid : List UInt8) :
    StatesKept s (s.updatePlayer p fun player => (player.setPlayerType type).setUuid uuid) :=
  updatePlayer s p rfl

theorem savePlayerGamedata (s : Server) (p : Nat) : StatesKept s (s.savePlayerGamedata p) := by
  unfold Server.savePlayerGamedata
  show StatesKept s (if _ then _ else _)
  split_ifs
  · exact (record s id).trans (record _ id)
  · exact record s id

/-- What a reply does to a guest before its transition. -/
theorem guest (s : Server) (p : Nat) (request : LoginRequest) (reply : LoginReply) :
    StatesKept s ((s.updatePlayer p (·.setPlayerType PlayerTypeId.guest)).record
      (.authenticated p request reply)) := by
  have htyped : StatesKept s (s.updatePlayer p (·.setPlayerType PlayerTypeId.guest)) :=
    .updatePlayer s p rfl
  exact htyped.trans (.record _ id)

/-- What the end of a load does to a player before its transition. -/
theorem loaded (s : Server) (p : Nat) (load : GamedataLoad) (result : LoadResult) :
    StatesKept s (((s.updatePlayer p (Server.loadedGamedata · result)).record
      (.loaded p load result)).record (.authenticated p load.request load.reply)) := by
  have hset : StatesKept s (s.updatePlayer p (Server.loadedGamedata · result)) :=
    .updatePlayer s p (Server.sameStanding_loadedGamedata _ result).toPlayerState
  exact (hset.trans (.record _ id)).trans (.record _ id)

/-- A new connection has no player. -/
theorem accept (s : Server) (now : Nat) : StatesKept s (s.accept now) := by
  unfold Server.accept
  show StatesKept s (if _ then _ else _)
  split_ifs
  · exact refl s
  · refine ⟨rfl, rfl, fun _ => rfl, [_], rfl, fun r hr => ?_⟩
    rw [List.mem_singleton.mp hr]
    exact id

theorem setOffline (s : Server) (i : Nat) (conn : Connection) (now : Nat) :
    StatesKept s (s.setOffline i conn now) := by
  refine ⟨rfl, rfl, fun _ => rfl, [_], rfl, fun r hr => ?_⟩
  rw [List.mem_singleton.mp hr]
  exact id

theorem despawned (s : Server) (ds : List Nat) :
    StatesKept s { s with log := ds.map .despawned ++ s.log } := by
  refine ⟨rfl, rfl, fun _ => rfl, _, rfl, fun r hr => ?_⟩
  obtain ⟨p, -, rfl⟩ := List.mem_map.mp hr
  exact id

end StatesKept

/-- The hint that `transit_state` is called with. -/
def Server.Cause.hint : Server.Cause → State
  | .extEntry => .extensionSynced
  | .guest _ _ | .loaded _ _ => .invaild
  | .level => .levelInitialized
  | .spawn => .spawned

/-- The preparations of the tick, by the state they are made in. -/
inductive TickPrepares : State → State → State → Prop
  | syncing : TickPrepares .exHandshaked .extensionSyncing .extensionSynced
  | level : TickPrepares .handshaked .levelInitializing .levelInitialized
  | levelSynced : TickPrepares .extensionSynced .levelInitializing .levelInitialized
  | spawn : TickPrepares .levelInitialized .spawning .spawned

/-- `P` is about states and the history, and survives what an event can do to them. -/
structure ClosedStates (B P : Server → Prop) (C : Server → Server.Call → Prop) : Prop where
  kept : ∀ {s t}, P s → StatesKept s t → P t
  construct : ∀ {s i conn cur next garbage} (player), TableOk s → B s → s.connection i = some conn →
    conn.isOnline = true → Server.IsHandshake cur next → C s (.setPlayer i garbage) → P s →
    P ((s.setPlayer i conn player).prepareStateTransition s.numOfPlayers cur next)
  handOver : ∀ {s i conn p}, TableOk s → B s → s.HasPlayer i conn p → conn.isOnline = true →
    State.handshaking ≤ (s.players p).state → C s (.disconnect i) → P s →
    P (s.prepareStateTransition p .disconnecting .disconnected)
  prepare : ∀ {s i conn p cur next}, TableOk s → B s → s.HasPlayer i conn p → conn.isOnline = true →
    TickPrepares (s.players p).state cur next → P s → P (s.prepareStateTransition p cur next)
  transit : ∀ {s u p} (cause : Server.Cause), TableOk s → B s → p < s.numOfPlayers →
    C s (.transit p cause) → StatesKept s u → P s → P (u.transitState p cause.hint)
  disconnectRun : ∀ {s} (o o'), TableOk s → B s → s.completionQueued .disconnectPlayer = true →
    C s (.disconnectPlayer s.world.disconnectPlayerTask.target) → P s →
    P (s.runTask .disconnectPlayer o o')

namespace ClosedStates

variable {B P : Server → Prop} {C : Server → Server.Call → Prop}

/-- A property of states survives every move. -/
theorem closed (h : ClosedStates B P C) (hB : ∀ {s}, B s → HistoryOk s)
    (hloads : ∀ s loads call, C { s with loads := loads } call → C s call) : Closed B P C where
  quiet _ _ hq hP := h.kept hP (StatesKept.of_quiet hq)
  interact _ _ _ _ _ hP := h.kept hP (StatesKept.of_eq rfl rfl rfl rfl)
  accept now _ _ _ hP := h.kept hP (StatesKept.accept _ now)
  delete _ _ _ _ hP := h.kept hP (StatesKept.of_eq rfl rfl rfl rfl)
  disconnect := by
    intro s i now _ ht hBs hC hP
    rcases s.disconnect_cases i now with heq | ⟨conn, p, hp, honline, hstate, heq⟩ |
      ⟨conn, -, -, -, heq⟩
    · rw [heq]
      exact hP
    · rw [heq]
      exact h.handOver ht hBs hp honline hstate hC hP
    · rw [heq]
      exact h.kept hP (StatesKept.setOffline s i conn now)
  handshake := by
    intro s i conn username password cpeMagic garbage ht hBs hconn honline hC hP
    obtain ⟨cur, next, hstart, heq⟩ := s.handshake_eq i conn username password cpeMagic garbage
    rw [heq]
    exact h.kept (h.construct _ ht hBs hconn honline hstart hC hP) (StatesKept.of_eq rfl rfl rfl rfl)
  extEntry ht hBs hp _ hC hP := h.transit .extEntry ht hBs (ht.player_lt _ _ _ hp) hC (.refl _) hP
  syncing ht hBs hp honline hst hP := h.prepare ht hBs hp honline (hst ▸ .syncing) hP
  levelWait ht hBs hp honline hst hP := by
    refine h.kept (h.prepare ht hBs hp honline ?_ hP) (StatesKept.of_eq rfl rfl rfl rfl)
    rcases hst with hst | hst <;> rw [hst] <;> constructor
  spawnWait ht hBs hp honline hst hP :=
    h.kept (h.prepare ht hBs hp honline (hst ▸ .spawn) hP) (StatesKept.of_eq rfl rfl rfl rfl)
  pushDisconnect _ _ _ _ _ hP := h.kept hP (StatesKept.of_eq rfl rfl rfl rfl)
  scheduleSpawn _ _ _ _ _ hP := h.kept hP (StatesKept.of_eq rfl rfl rfl rfl)
  scheduleDisconnect _ _ _ _ _ hP := h.kept hP (StatesKept.of_eq rfl rfl rfl rfl)
  scheduleLevel _ _ _ _ _ hP := h.kept hP (StatesKept.of_eq rfl rfl rfl rfl)
  levelCallback ht hBs hp _ hC hP := by
    have hlt := (hB hBs).level_lt (WorldPlayerTask.mem_players_of_target hp)
    exact h.transit .level ht hBs hlt hC (.refl _) hP
  spawnCallback ht hBs hp _ hC hP := by
    have hlt := (hB hBs).spawn_lt (WorldPlayerTask.mem_players_of_target hp)
    exact h.transit .spawn ht hBs hlt hC (.refl _) hP
  finishLevel _ _ hP := h.kept hP (StatesKept.of_eq rfl rfl rfl rfl)
  finishSpawn _ _ hP := h.kept hP (StatesKept.of_eq rfl rfl rfl rfl)
  disconnectRun o o' ht hBs hq hC hP := h.disconnectRun o o' ht hBs hq hC hP
  respond := by
    intro s request reply _ _ _ hP
    have herased : StatesKept s { s with requests := s.requests.erase request } := .of_eq rfl rfl rfl rfl
    exact h.kept hP (herased.trans (StatesKept.record _ id))
  setIdentity := by
    intro s i conn p request reply _ _ _ _ _ _ _ _ hP
    exact h.kept hP (StatesKept.setTypeAndUuid s p _ _)
  guest := by
    intro s i conn p request reply ht hBs hp _ _ _ _ hC hP
    exact h.transit (.guest request reply) ht hBs (ht.player_lt _ _ _ hp) hC (.guest s p _ _) hP
  addLoad _ _ _ _ hP := h.kept hP (StatesKept.of_eq rfl rfl rfl rfl)
  takeLoad _ _ _ hP := h.kept hP (StatesKept.of_eq rfl rfl rfl rfl)
  loaded := by
    intro s i conn p load result ht hBs _ hp _ _ _ hC hP
    rw [Server.admitLoaded_eq]
    refine h.transit (.loaded load result) ht hBs (ht.player_lt _ _ _ hp) (hloads _ _ _ hC) ?_ hP
    have herased : StatesKept s { s with loads := s.loads.erase load } := .of_eq rfl rfl rfl rfl
    exact herased.trans (.loaded _ p load result)

end ClosedStates

/-! ## Stages

The tick and the handlers prepare a player for a stage and the state behind it: waiting for a reply, for
entries, for the level, for the spawn, for the teardown. Until the stage ends, current and next state are
those of the preparation.
-/

/-- The stages: a state and the one that its end is prepared for. -/
inductive IsStage : State → State → Prop
  | handshaking : IsStage .handshaking .handshaked
  | exHandshaking : IsStage .exHandshaking .exHandshaked
  | extensionSyncing : IsStage .extensionSyncing .extensionSynced
  | levelInitializing : IsStage .levelInitializing .levelInitialized
  | spawning : IsStage .spawning .spawned
  | disconnecting : IsStage .disconnecting .disconnected

/-- The player is in a stage, or at the end of one. -/
def IsStaged (st : PlayerState) : Prop :=
  IsStage st.state st.nextState ∨ (st.state = st.nextState ∧ ∃ cur, IsStage cur st.nextState)

/-- The end of a stage is a state with nothing behind it. -/
theorem IsStaged.transitState {st : PlayerState} (h : IsStaged st) : IsStaged st.transitState := by
  rcases h with hstage | ⟨-, hend⟩
  · exact Or.inr ⟨rfl, _, hstage⟩
  · exact Or.inr ⟨rfl, hend⟩

/-- What the tick prepares is a stage. -/
theorem TickPrepares.isStage {st cur next : State} (h : TickPrepares st cur next) :
    IsStage cur next := by
  cases h <;> constructor

/-- So is what a handshake begins. -/
theorem Server.IsHandshake.isStage {cur next : State} (h : Server.IsHandshake cur next) :
    IsStage cur next := by
  rcases h with ⟨rfl, rfl⟩ | ⟨rfl, rfl⟩ <;> constructor

/-- The prepared state, by the stage: what a player is prepared for tells which stage it is in, or at
the end of which. -/
theorem IsStaged.next_eq_iff {st : PlayerState} (h : IsStaged st) {cur next : State}
    (hstage : IsStage cur next) : st.nextState = next ↔ st.state = cur ∨ st.state = next := by
  constructor
  · rintro rfl
    rcases h with hcur | ⟨heq, -⟩
    · generalize st.state = a at *
      generalize st.nextState = b at *
      cases hstage <;> cases hcur <;> simp
    · exact Or.inr heq
  · rintro (heq | heq)
    · rcases h with hcur | ⟨hsame, end_, hend⟩
      · rw [heq] at hcur
        generalize st.nextState = b at *
        cases hstage <;> cases hcur <;> rfl
      · rw [← hsame, heq] at hend
        cases hstage <;> cases hend
    · rcases h with hcur | ⟨hsame, -⟩
      · rw [heq] at hcur
        cases hstage <;> cases hcur
      · exact hsame.symm.trans heq

/-- No stage begins where another ends. -/
theorem IsStage.not_begins {a b c : State} (h : IsStage a b) : ¬ IsStage b c := by
  cases h <;> exact fun h' => nomatch h'

/-- No player is prepared for the state in which a stage begins. -/
theorem IsStaged.next_ne {st : PlayerState} (h : IsStaged st) {cur next : State}
    (hstage : IsStage cur next) : st.nextState ≠ cur := by
  rintro heq
  rcases h with hends | ⟨-, _, hends⟩ <;> exact hends.not_begins (heq ▸ hstage)

/-- Every player is in a stage or at the end of one. -/
def StagesOk (s : Server) : Prop := ∀ p < s.numOfPlayers, IsStaged (s.players p).toPlayerState

namespace StagesOk

variable {s t : Server}

theorem kept (h : StagesOk s) (hst : StatesKept s t) : StagesOk t := by
  intro p hp
  rw [hst.states p]
  exact h p (hst.numOfPlayers ▸ hp)

/-- A transition ends the stage, whatever its hint. -/
theorem transitState (h : StagesOk s) {p : Nat} (hint : State) : StagesOk (s.transitState p hint) := by
  intro q hq
  rw [Server.transitState_players]
  split_ifs with hqp
  · exact (h p (hqp ▸ hq)).transitState
  · exact h q hq

/-- A preparation begins a stage. -/
theorem prepare (h : StagesOk s) {p : Nat} {cur next : State} (hstage : IsStage cur next) :
    StagesOk (s.prepareStateTransition p cur next) := by
  intro q hq
  rw [Server.prepareStateTransition_players]
  split_ifs
  · exact Or.inl hstage
  · exact h q hq

/-- A new player begins with the stage of its handshake. -/
theorem construct (h : StagesOk s) (i : Nat) (conn : Connection) (player : Player) {cur next : State}
    (hstage : IsStage cur next) :
    StagesOk ((s.setPlayer i conn player).prepareStateTransition s.numOfPlayers cur next) := by
  intro q hq
  rw [Server.construct_players]
  split_ifs with hnew
  · exact Or.inl hstage
  · exact h q (Nat.lt_of_le_of_ne (Nat.le_of_lt_succ hq) hnew)

theorem closedStates : ClosedStates HistoryOk StagesOk fun _ _ => True where
  kept h hst := h.kept hst
  construct player _ _ _ _ hstart _ h := h.construct _ _ player hstart.isStage
  handOver _ _ _ _ _ _ h := h.prepare .disconnecting
  prepare _ _ _ _ hprepares h := h.prepare hprepares.isStage
  transit _ _ _ _ _ hst h := (h.kept hst).transitState _
  disconnectRun o o' ht _ _ _ h := by
    refine Closed.disconnectRun_of_parts (P := StagesOk) (fun _ hq h => h.kept (.of_quiet hq)) ?_ ?_
      (fun h => h) ht h o o'
    · exact fun ds _ h => h.kept (.despawned _ ds)
    · intro s conn p _ _ _ h
      exact (h.kept (.savePlayerGamedata s p)).transitState _

theorem closed : Closed HistoryOk StagesOk fun _ _ => True :=
  closedStates.closed (fun h => h) fun _ _ _ h => h

theorem init (maxClients : Nat) (metadata : WorldMetadata) (blockMapping : List UInt8) :
    StagesOk (Server.init maxClients metadata blockMapping) := fun _ hp => nomatch hp

end StagesOk

/-! ## The hints of the transitions

A hint names the state that the caller expects to enter. It is recorded with the state that was prepared, so
that the history says whether the assertion of the source would have held.
-/

/-- **Transition hints.** Every transition with a hint found that state prepared. -/
def HintsRight (log : List Record) : Prop :=
  ∀ p hint next, .transit p hint next ∈ log → hint ≠ .invaild → next = hint

/-- The transition is made in its stage or at the end of it: the last extension entry while the
extensions are synced, a callback of a task for a player that still waits for it. -/
def Server.InStage (s : Server) : Server.Call → Prop
  | .transit p .extEntry =>
      (s.players p).state = .extensionSyncing ∨ (s.players p).state = .extensionSynced
  | .transit p .level =>
      (s.players p).state = .levelInitializing ∨ (s.players p).state = .levelInitialized
  | .transit p .spawn => (s.players p).state = .spawning ∨ (s.players p).state = .spawned
  | _ => True

instance (s : Server) (call : Server.Call) : Decidable (s.InStage call) := by
  unfold Server.InStage
  split <;> infer_instance

/-- In its stage a transition finds what its hint says. -/
theorem Server.InStage.next_eq {s : Server} {p : Nat} {cause : Server.Cause}
    (h : s.InStage (.transit p cause)) (hstaged : IsStaged (s.players p).toPlayerState)
    (hhint : cause.hint ≠ .invaild) : (s.players p).nextState = cause.hint := by
  cases cause with
  | extEntry => exact (hstaged.next_eq_iff .extensionSyncing).mpr h
  | level => exact (hstaged.next_eq_iff .levelInitializing).mpr h
  | spawn => exact (hstaged.next_eq_iff .spawning).mpr h
  | guest request reply => exact absurd rfl hhint
  | loaded load result => exact absurd rfl hhint

/-- The history of hints, in a state of consistent history and stages. -/
def HintsOk (s : Server) : Prop := HintsRight s.log

namespace HintsOk

variable {s t : Server}

/-- Records whose hints are right are added. -/
theorem of_log (h : HintsOk s) (rs : List Record) (hlog : t.log = rs ++ s.log)
    (hrs : ∀ p hint next, .transit p hint next ∈ rs → hint ≠ .invaild → next = hint) : HintsOk t := by
  intro p hint next hmem
  rw [hlog] at hmem
  rcases List.mem_append.mp hmem with hmem | hmem
  · exact hrs p hint next hmem
  · exact h p hint next hmem

theorem kept (h : HintsOk s) (hst : StatesKept s t) : HintsOk t := by
  obtain ⟨rs, hlog, hnone⟩ := hst.log
  exact h.of_log rs hlog fun p hint next hmem => absurd trivial (hnone _ hmem)

/-- A transition whose hint is the prepared state, or that has none. -/
theorem transitState (h : HintsOk s) {p : Nat} {hint : State}
    (hnext : hint ≠ .invaild → (s.players p).nextState = hint) : HintsOk (s.transitState p hint) := by
  refine h.of_log [_, _] (Server.transitState_log s p hint) fun q hint' next hmem => ?_
  rcases List.mem_pair.mp hmem with heq | heq
  · cases heq
  · obtain ⟨-, rfl, rfl⟩ := Record.transit.inj heq
    exact hnext

theorem prepare (h : HintsOk s) {p : Nat} {cur next : State} :
    HintsOk (s.prepareStateTransition p cur next) := by
  refine h.of_log [_] (Server.prepareStateTransition_log s p cur next) ?_
  intro q hint next' hmem
  cases List.mem_singleton.mp hmem

theorem closedStates :
    ClosedStates (fun s => HistoryOk s ∧ StagesOk s) HintsOk Server.InStage where
  kept h hst := h.kept hst
  construct player _ _ _ _ _ _ h := by
    refine h.of_log [_] rfl fun q hint next' hmem => ?_
    cases List.mem_singleton.mp hmem
  handOver _ _ _ _ _ _ h := h.prepare
  prepare _ _ _ _ _ h := h.prepare
  transit := by
    intro s u p cause _ hB hp hC hst h
    refine (h.kept hst).transitState fun hhint => ?_
    rw [show (u.players p).nextState = (s.players p).nextState from
      congrArg PlayerState.nextState (hst.states p)]
    exact hC.next_eq (hB.2 p hp) hhint
  disconnectRun o o' ht hB _ _ h := by
    -- a player of the disconnect task can only become disconnected
    have hboth := Closed.disconnectRun_of_parts (P := fun s => HistoryOk s ∧ HintsOk s)
      (fun _ hq h => ⟨h.1.quiet hq, h.2.kept (.of_quiet hq)⟩) ?_ ?_ ?_ ht ⟨hB.1, h⟩ o o'
    · exact hboth.2
    · exact fun ds hds h => ⟨h.1.record_despawned hds, h.2.kept (.despawned _ ds)⟩
    · intro s conn p _ hp _ h
      obtain ⟨hlt, htorn⟩ := h.1.disconnect_tornDown p (WorldPlayerTask.mem_players_of_target hp)
      have hsaved := h.1.savePlayerGamedata hlt
      have hhints := h.2.kept (.savePlayerGamedata s p)
      rw [Server.savePlayerGamedata_eq] at hsaved hhints ⊢
      exact ⟨hsaved.transitState hlt _, hhints.transitState fun _ => htorn.2⟩
    · exact fun h => ⟨h.1.finishDisconnect, h.2⟩

end HintsOk

/-- **Transition hints** are right in every state reached by a run that makes each transition in its stage.
The hint is only asserted in the source, so a release build enters the prepared state all the same: the
theorem says when the assertion could not have failed. -/
theorem Server.hintsRight_of_run {maxClients : Nat} {metadata : WorldMetadata}
    {blockMapping : List UInt8} {es : List Event} {s : Server}
    (hrun : run Server.step (Server.init maxClients metadata blockMapping) es = some s)
    (hC : Along Server.step (Server.CallsMeet Server.InStage)
      (Server.init maxClients metadata blockMapping) es) : HintsRight s.log := by
  have hclosed := HintsOk.closedStates.closed (fun h => h.1) fun _ _ _ h => h
  obtain ⟨-, -, h⟩ := (((HistoryOk.closed.inter StagesOk.closed).weaken _).inter hclosed).run
    ⟨TableOk.init .., ⟨HistoryOk.init .., StagesOk.init _ _ _⟩, fun _ _ _ hmem => nomatch hmem⟩ hC hrun
  exact h

/-- All transitions of a guest are made in their stages. -/
theorem Server.hintsRight_of_run_guestSession :
    ∃ s, run Server.step Server.small guestSession = some s ∧ HintsRight s.log := by
  obtain ⟨s, hs⟩ := Option.isSome_iff_exists.mp
    (show (run Server.step Server.small guestSession).isSome = true by decide)
  exact ⟨s, hs, Server.hintsRight_of_run hs (by decide)⟩

/-- A receive error comes between the queuing of a player for its level data and the callback. -/
def errorBeforeLevel : List Event :=
  guestLogin 0 ++ [.tickPlayer 0 0 fun _ => true, .receiveError 0 1, .schedule .syncBlock 1 true] ++
  [.runTask .syncBlock (fun _ => true) fun _ => true]

/-- The level callback ends the teardown: it moves the player to `disconnected`. -/
theorem Server.not_hintsRight_errorBeforeLevel :
    ∃ s, run Server.step Server.small errorBeforeLevel = some s ∧ ¬ HintsRight s.log := by
  have hrun : ((run Server.step Server.small errorBeforeLevel).map fun s =>
      decide (.transit 0 .levelInitialized .disconnected ∈ s.log)) = some true := by decide
  obtain ⟨s, hs, heq⟩ := Option.map_eq_some_iff.mp hrun
  refine ⟨s, hs, fun h => ?_⟩
  have hnext := h 0 .levelInitialized .disconnected (of_decide_eq_true heq) (by decide)
  cases hnext

end Mmocraft
