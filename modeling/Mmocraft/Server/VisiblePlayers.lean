/-
# Mmocraft.Server.VisiblePlayers -- whom the clients see

`spawn_player` shows the players of its list to everybody, whatever has become of them since they
were queued, and `disconnect_player` hides those that were spawned before they left, going by their
previous state.  So a player that leaves while it waits to be spawned is shown and never hidden, and
one that is disconnected twice goes offline while it is still seen.

A view is the list of players that a client was shown and not told to hide; `followViews` reads it off the
events, as `ViewsAgree` compares it with who is spawned. The invariant needs a little more: a player that
leaves is still seen until the disconnect task hides it, if it was spawned before (`AwaitsDespawn`), so the
players that are seen are the spawned ones and these.

Only two events show or hide: the run of the spawn task, whose players must all still wait for it, and the run
of the disconnect task. The rest of the module is that no other move changes who is seen.
-/
import Mmocraft.Server.Sending
import Mmocraft.Server.Stages

namespace Mmocraft

open Mmocraft.Lib Mmocraft.Game Mmocraft.Net

/-! ## Views

The view of a player is a list of players; it grows and shrinks with the records of the spawn and despawn
packets that reach the player. It is computed from the events beside the run, and changes nothing of the
server.
-/

/-- The players that each player was shown and not hidden since. -/
abbrev Views := Nat → List Nat

namespace Views

/-- Spawn records of `ps` are sent to the viewers. -/
def add (views : Views) (viewers ps : List Nat) : Views :=
  fun v => if v ∈ viewers then views v ++ ps else views v

/-- Despawn records of `ps` are sent to the viewers. -/
def remove (views : Views) (viewers ps : List Nat) : Views :=
  fun v => if v ∈ viewers then (views v).filter (· ∉ ps) else views v

/-- Who is seen after players were shown. -/
theorem mem_add {views : Views} {viewers ps : List Nat} {v p : Nat} :
    p ∈ views.add viewers ps v ↔ p ∈ views v ∨ (v ∈ viewers ∧ p ∈ ps) := by
  unfold add
  split_ifs with hv <;> simp [hv]

/-- And after players were hidden. -/
theorem mem_remove {views : Views} {viewers ps : List Nat} {v p : Nat} :
    p ∈ views.remove viewers ps v ↔ p ∈ views v ∧ (v ∈ viewers → p ∉ ps) := by
  unfold remove
  split_ifs with hv <;> simp [hv]

end Views

namespace Server

/-- The players whose despawn records a run of `disconnect_player` sends. -/
def despawnedPlayers (s : Server) : List Nat :=
  s.world.disconnectPlayerTask.target.filter fun p => decide (State.spawned ≤ (s.players p).prevState)

/-- The views after one more event: who is sent spawn and despawn records, and of whom. -/
def followViews (views : Views) (s : Server) (e : Event) : Views :=
  match e with
  | .runTask .spawnPlayer o o' =>
      let waiting := s.world.spawnPlayerTask.target
      let old := s.selectPlayersFrom .spawned
      (views.add (s.reached waiting o) (old ++ waiting)).add (s.reached old o') waiting
  | .runTask .disconnectPlayer o _ =>
      views.remove (s.reached (s.selectPlayersFrom .spawned) o) s.despawnedPlayers
  | _ => views

/-- **Visible players.** A spawned player sees every other spawned player, and nobody whose
connection is offline. -/
structure ViewsAgree (views : Views) (s : Server) : Prop where
  sees : ∀ v p, v ≠ p → (s.players v).state = .spawned → (s.players p).state = .spawned → p ∈ views v
  forgets : ∀ v p, (s.players v).state = .spawned → ¬ s.OnlineId (s.owner p) → p ∉ views v

end Server

/-! ## The conditions

There are three: every send is accepted, the spawn task finds its players still waiting for it, and the
calls that move a player leave those alone that are being shown or are to be hidden. The last two can fail
in the code.
-/

/-- The player left the world, and is to be hidden from the others. -/
def AwaitsDespawn (st : PlayerState) : Prop := st.state = .disconnecting ∧ st.prevState = .spawned

/-- The others see the player. -/
def IsSeen (st : PlayerState) : Prop := st.state = .spawned ∨ AwaitsDespawn st

/-- The others see the player, or will be shown it. -/
def IsInWorld (st : PlayerState) : Prop := st.state = .spawning ∨ IsSeen st

instance (st : PlayerState) : Decidable (AwaitsDespawn st) :=
  inferInstanceAs (Decidable (st.state = .disconnecting ∧ st.prevState = .spawned))

instance (st : PlayerState) : Decidable (IsSeen st) :=
  inferInstanceAs (Decidable (st.state = .spawned ∨ AwaitsDespawn st))

instance (st : PlayerState) : Decidable (IsInWorld st) :=
  inferInstanceAs (Decidable (st.state = .spawning ∨ IsSeen st))

/-- The sends of the world tasks are accepted. -/
def Event.SendsAccepted : Event → Prop
  | .runTask _ o o' => (∀ k, o k = true) ∧ ∀ k, o' k = true
  | _ => True

namespace Server

/-- A player that awaits its despawn is not disconnected again, nobody in the world is replaced, and
only the spawn task ends the stage of a player that waits for it. -/
def ShowsPlayers (s : Server) : Call → Prop
  | .setPlayer i _ => ∀ p ∈ s.connectionEnv.playerOf i, ¬ IsInWorld (s.players p).toPlayerState
  | .disconnect i => ∀ p ∈ s.connectionEnv.playerOf i, ¬ AwaitsDespawn (s.players p).toPlayerState
  | .transit _ .spawn => True
  | .transit p _ => (s.players p).state ≠ .spawning ∧ ¬ AwaitsDespawn (s.players p).toPlayerState
  | _ => True

/-- Whom the spawn task shows still waits for it. -/
def SpawnsWaiting (s : Server) : Event → Prop
  | .runTask .spawnPlayer _ _ =>
      ∀ p ∈ s.world.spawnPlayerTask.target, (s.players p).state = .spawning
  | _ => True

instance (s : Server) : (call : Call) → Decidable (s.ShowsPlayers call)
  | .setPlayer i _ => inferInstanceAs (Decidable (∀ p ∈ s.connectionEnv.playerOf i,
      ¬ IsInWorld (s.players p).toPlayerState))
  | .disconnect i => inferInstanceAs (Decidable (∀ p ∈ s.connectionEnv.playerOf i,
      ¬ AwaitsDespawn (s.players p).toPlayerState))
  | .transit _ .spawn => isTrue trivial
  | .transit p .extEntry | .transit p (.guest ..) | .transit p (.loaded ..) | .transit p .level =>
      inferInstanceAs (Decidable ((s.players p).state ≠ .spawning ∧
        ¬ AwaitsDespawn (s.players p).toPlayerState))
  | .setIdentity .. | .disconnectPlayer _ => isTrue trivial

instance (s : Server) (e : Event) : Decidable (s.SpawnsWaiting e) := by
  unfold SpawnsWaiting
  split <;> infer_instance

/-! ## The invariant

A player that was spawned is seen from then on until it is hidden, and is hidden once. In between its state
passes from `spawned` to `disconnecting`, where only the previous state tells that it is still seen.
-/

/-- The player is not constructed yet, or has not been spawned yet and does not leave. -/
def IsFresh (s : Server) (p : Nat) : Prop :=
  s.numOfPlayers ≤ p ∨ (¬ (s.players p).state.IsLeaving ∧ (s.players p).state ≠ .spawned)

/-- What the runs keep true of the views. Beyond the property itself: whoever is seen is spawned or is still
to be hidden, a player that is not spawned yet sees nobody, and players in the world are attached. -/
structure ViewsOk (views : Views) (s : Server) : Prop where
  sees : ∀ v p, v ≠ p → (s.players v).state = .spawned → (s.players p).state = .spawned → p ∈ views v
  seen : ∀ v p, (s.players v).state = .spawned → p ∈ views v → IsSeen (s.players p).toPlayerState
  fresh : ∀ v, s.IsFresh v → views v = []
  attached : ∀ p, IsInWorld (s.players p).toPlayerState → s.Attached p

/-- From `s` to `t` nobody is spawned, nobody that is seen disappears, and nobody starts afresh. -/
structure KeepsViews (s t : Server) : Prop where
  spawned : ∀ p, (t.players p).state = .spawned → (s.players p).state = .spawned
  seen : ∀ p, IsSeen (s.players p).toPlayerState → IsSeen (t.players p).toPlayerState
  fresh : ∀ p, t.IsFresh p → s.IsFresh p
  attached : ∀ p, IsInWorld (t.players p).toPlayerState →
    t.Attached p ∨ (IsInWorld (s.players p).toPlayerState ∧ (s.Attached p → t.Attached p))

namespace ViewsOk

variable {s t : Server} {views : Views}

theorem kept (h : ViewsOk views s) (hk : KeepsViews s t) : ViewsOk views t where
  sees v p hne hv hp := h.sees v p hne (hk.spawned v hv) (hk.spawned p hp)
  seen v p hv hp := hk.seen p (h.seen v p (hk.spawned v hv) hp)
  fresh v hv := h.fresh v (hk.fresh v hv)
  attached p hp := by
    rcases hk.attached p hp with ht | ⟨hs, ht⟩
    · exact ht
    · exact ht (h.attached p hs)

/-- Whom a spawned player sees is online. -/
theorem viewsAgree (h : ViewsOk views s) (ht : TableOk s) : s.ViewsAgree views where
  sees := h.sees
  forgets v p hv hoffline hp :=
    hoffline ((h.attached p (Or.inr (h.seen v p hv hp))).onlineId ht)

theorem init (maxClients : Nat) (metadata : WorldMetadata) (blockMapping : List UInt8) :
    ViewsOk (fun _ => []) (Server.init maxClients metadata blockMapping) where
  sees _ _ _ hv := nomatch hv
  seen _ _ hv := nomatch hv
  fresh _ _ := rfl
  attached p hp := by
    rcases hp with hp | hp | ⟨hp, -⟩ <;> cases hp

end ViewsOk

/-! ## The moves that show and hide nobody

Whether a player is seen depends on its state and the state before that, and on its connection. What changes
neither keeps the views; a move of a player keeps them if it is seen after the move exactly if it was
before.
-/

namespace KeepsViews

variable {s t : Server}

/-- The states stay, and the players in the world stay attached. -/
theorem of_states (hst : StatesKept s t)
    (hattached : ∀ p, IsInWorld (s.players p).toPlayerState → s.Attached p → t.Attached p) :
    KeepsViews s t where
  spawned p hp := by
    rw [hst.states] at hp
    exact hp
  seen p hp := by
    rw [hst.states]
    exact hp
  fresh p hp := by
    rw [IsFresh, hst.states, hst.numOfPlayers] at hp
    exact hp
  attached p hp := by
    rw [hst.states] at hp
    exact Or.inr ⟨hp, hattached p hp⟩

/-- A quiet change shows and hides nobody. -/
theorem of_quiet (hq : Quiet s t) : KeepsViews s t :=
  of_states (StatesKept.of_quiet hq) fun p _ => (attached_of_env hq.connectionEnv p).mpr

/-- An attached player is prepared; one that is seen is to be despawned. -/
theorem prepare {p : Nat} {cur : State} (next : State) (hp : s.Attached p) (hcur : cur ≠ .spawned)
    (hseen : IsSeen (s.players p).toPlayerState →
      cur = .disconnecting ∧ (s.players p).state = .spawned)
    (hfresh : ¬ cur.IsLeaving → s.IsFresh p) :
    KeepsViews s (s.prepareStateTransition p cur next) := by
  have hself : (s.prepareStateTransition p cur next).players p =
      (s.players p).prepareStateTransition cur next := by
    rw [prepareStateTransition_players, if_pos rfl]
  have hother : ∀ q, q ≠ p → (s.prepareStateTransition p cur next).players q = s.players q :=
    fun q hq => by rw [prepareStateTransition_players, if_neg hq]
  refine ⟨fun q hq => ?_, fun q hq => ?_, fun q hq => ?_, fun q hq => ?_⟩
  -- each of the four for the player itself and for another one
  all_goals by_cases hqp : q = p
  · rw [hqp, hself] at hq
    exact absurd hq hcur
  · rwa [hother q hqp] at hq
  · obtain ⟨rfl, hstate⟩ := hseen (hqp ▸ hq)
    rw [hqp, hself]
    exact Or.inr ⟨rfl, hstate⟩
  · rwa [hother q hqp]
  · rcases hq with hlt | ⟨hleaving, -⟩
    · exact Or.inl hlt
    · rw [hqp, hself] at hleaving
      exact hqp ▸ hfresh hleaving
  · rwa [IsFresh, hother q hqp] at hq
  · exact Or.inl (hqp ▸ hp)
  · rw [hother q hqp] at hq
    exact Or.inr ⟨hq, fun hattached => hattached⟩

/-- The end of a stage other than `spawning`, for a player that does not await its despawn. -/
theorem transit {p : Nat} (hint : State) (hstaged : IsStaged (s.players p).toPlayerState)
    (hsound : (s.players p).toPlayerState.IsSound) (hspawning : (s.players p).state ≠ .spawning)
    (hawaits : ¬ AwaitsDespawn (s.players p).toPlayerState) : KeepsViews s (s.transitState p hint) := by
  have hself : (s.transitState p hint).players p = (s.players p).transitState := by
    rw [transitState_players, if_pos rfl]
  have hother : ∀ q, q ≠ p → (s.transitState p hint).players q = s.players q :=
    fun q hq => by rw [transitState_players, if_neg hq]
  -- only a player that is spawned already ends up spawned
  have hspawned : (s.players p).nextState = .spawned ↔ (s.players p).state = .spawned := by
    rw [hstaged.next_eq_iff .spawning]
    exact or_iff_right hspawning
  refine ⟨fun q hq => ?_, fun q hq => ?_, fun q hq => ?_, fun q hq => ?_⟩
  all_goals by_cases hqp : q = p
  · rw [hqp, hself] at hq
    rw [hqp]
    exact hspawned.mp hq
  · rwa [hother q hqp] at hq
  · rw [hqp] at hq ⊢
    rw [hself]
    exact Or.inl (hspawned.mpr (hq.resolve_right hawaits))
  · rwa [hother q hqp]
  · rcases hq with hlt | ⟨hleaving, hnot⟩
    · exact Or.inl hlt
    · rw [hqp, hself] at hleaving hnot
      rw [hqp]
      refine Or.inr ⟨fun hs => hleaving ?_, fun hs => hnot (hspawned.mpr hs)⟩
      exact Or.inr (hsound.tornDown hs).2
  · rwa [IsFresh, hother q hqp] at hq
  · rw [hqp, hself] at hq
    rw [hqp]
    rcases hq with hq | hq | ⟨hq, -⟩
    · exact absurd hq (hstaged.next_ne .spawning)
    · exact Or.inr ⟨Or.inr (Or.inl (hspawned.mp hq)), fun hattached => hattached⟩
    · exact absurd hq (hstaged.next_ne .disconnecting)
  · rw [hother q hqp] at hq
    exact Or.inr ⟨hq, fun hattached => hattached⟩

end KeepsViews

namespace ViewsOk

variable {s t : Server} {views : Views}

/-- What is assumed along a run. -/
abbrev Base (s : Server) : Prop := HistoryOk s ∧ StagesOk s

/-- A transition, after updates that leave states and connections alone. -/
theorem transit (h : ViewsOk views s) (hB : Base s) {t : Server} (hkept : StatesKept s t)
    (henv : t.connectionEnv = s.connectionEnv) {p : Nat} (hp : p < s.numOfPlayers) (hint : State)
    (hC : (s.players p).state ≠ .spawning ∧ ¬ AwaitsDespawn (s.players p).toPlayerState) :
    ViewsOk views (t.transitState p hint) := by
  have hupdated : ViewsOk views t :=
    h.kept (.of_states hkept fun p _ => (attached_of_env henv p).mpr)
  apply hupdated.kept
  apply KeepsViews.transit <;> rw [hkept.states p]
  · exact hB.2 p hp
  · exact hB.1.sound p hp
  · exact hC.1
  · exact hC.2

/-- A player in the world is not disconnected while it awaits its despawn, so it stays attached. -/
theorem disconnect (h : ViewsOk views s) (ht : TableOk s) (i now : Nat)
    (hC : s.ShowsPlayers (.disconnect i)) : ViewsOk views (s.disconnect i now) := by
  rcases s.disconnect_cases i now with heq | ⟨conn, p, hp, honline, hstate, heq⟩ |
    ⟨conn, hconn, honline, hnot, heq⟩
  · rw [heq]
    exact h
  · rw [heq]
    refine h.kept (KeepsViews.prepare _ (hp.attached honline) (by decide) (fun hseen => ⟨rfl, ?_⟩)
      fun hleaving => absurd (Or.inl rfl) hleaving)
    exact hseen.resolve_right fun hawaits => hC p (ht.playerOf_eq hp honline) hawaits
  · rw [heq]
    refine h.kept (KeepsViews.of_states (.setOffline s i conn now) fun p hworld hattached => ?_)
    refine (attached_setOffline ht hconn now p).mpr ⟨hattached, fun hplayer => ?_⟩
    -- its player would be handed over, or awaits its despawn
    rcases hworld with hstate | hstate | hawaits
    · exact hnot p hplayer (hstate ▸ by decide)
    · exact hnot p hplayer (hstate ▸ by decide)
    · exact hC p (ht.playerOf_eq ⟨hconn, hplayer⟩ honline) hawaits

/-- A new player is fresh, and the one before it was not in the world. -/
theorem handshake (h : ViewsOk views s) (ht : TableOk s) {i : Nat} {conn : Connection}
    (hconn : s.connection i = some conn) (honline : conn.isOnline = true)
    (username password : List UInt8) (cpeMagic : UInt8) (garbage : PlayerTypeId)
    (hC : s.ShowsPlayers (.setPlayer i garbage)) :
    ViewsOk views (s.handleHandshakePacket i conn username password cpeMagic garbage) := by
  have hattached := attached_handshake ht hconn honline username password cpeMagic garbage
  obtain ⟨cur, next, hstart, heq⟩ := s.handshake_eq i conn username password cpeMagic garbage
  rw [heq] at hattached ⊢
  set t : Server := { (s.setPlayer i conn (Player.new conn.connectionKey username
    garbage)).prepareStateTransition s.numOfPlayers cur next with requests := _ }
  have hother : ∀ q, q ≠ s.numOfPlayers → t.players q = s.players q := by
    intro q hq
    exact (s.construct_players i conn _ cur next q).trans (if_neg hq)
  have hnew : (t.players s.numOfPlayers).state = cur := by
    show (((s.setPlayer i conn _).prepareStateTransition _ cur next).players _).state = _
    rw [construct_players, if_pos rfl, Player.prepareStateTransition_state]
  have hcur : cur ≠ .spawned ∧ cur ≠ .spawning ∧ cur ≠ .disconnecting := by
    rcases hstart with ⟨rfl, -⟩ | ⟨rfl, -⟩ <;> decide
  refine h.kept ⟨fun p hp => ?_, fun p hp => ?_, fun p hp => ?_, fun p hp => ?_⟩
  all_goals by_cases hpn : p = s.numOfPlayers
  · rw [hpn, hnew] at hp
    exact absurd hp hcur.1
  · rwa [hother p hpn] at hp
  · -- nobody sees a player that is not constructed
    obtain ⟨j, d, hhas, -⟩ := h.attached p (Or.inr hp)
    exact absurd hpn (Nat.ne_of_lt (ht.player_lt _ _ _ hhas))
  · rwa [hother p hpn]
  · exact Or.inl (Nat.le_of_eq hpn.symm)
  · rcases hp with hlt | hp
    · exact Or.inl (Nat.le_of_succ_le hlt)
    · rw [hother p hpn] at hp
      exact Or.inr hp
  · rw [IsInWorld, IsSeen, AwaitsDespawn, hpn, hnew] at hp
    rcases hp with hp | hp | ⟨hp, -⟩
    · exact absurd hp hcur.2.1
    · exact absurd hp hcur.1
    · exact absurd hp hcur.2.2
  · rw [hother p hpn] at hp
    refine Or.inr ⟨hp, fun hs => (hattached p).mpr (Or.inr ⟨hs, fun hplayer => ?_⟩)⟩
    exact hC p (ht.playerOf_eq ⟨hconn, hplayer⟩ honline) hp

theorem closedConnections :
    ClosedConnections Base (ViewsOk views) ShowsPlayers fun _ => True where
  quiet _ _ hq h := h.kept (.of_quiet hq)
  interact now _ ht _ hconn h := h.kept
    (.of_states (.of_eq rfl rfl rfl rfl) fun p _ => (attached_interact ht hconn now p).mpr)
  accept now _ ht _ h := h.kept
    (.of_states (.accept _ now) fun p _ => (attached_accept ht now p).mpr)
  disconnect i now _ ht _ hC h := h.disconnect ht i now hC
  handshake username password cpeMagic garbage ht _ hconn honline hC h :=
    h.handshake ht hconn honline username password cpeMagic garbage hC
  extEntry ht hB hp _ hC h := h.transit hB (.refl _) rfl (ht.player_lt _ _ _ hp) _ hC

/-- The tick prepares players before they are spawned. -/
theorem prepareFresh (h : ViewsOk views s) {p : Nat} {st cur : State} (next : State)
    (hp : s.Attached p) (hstate : (s.players p).state = st)
    (hst : ¬ st.IsLeaving ∧ st ≠ .spawned) (hcur : cur ≠ .spawned) :
    ViewsOk views (s.prepareStateTransition p cur next) := by
  refine h.kept (KeepsViews.prepare next hp hcur (fun hseen => ?_) fun _ => Or.inr (hstate ▸ hst))
  rcases hseen with hspawned | ⟨hleaving, -⟩
  · exact absurd (hstate ▸ hspawned) hst.2
  · exact absurd (Or.inl (hstate ▸ hleaving)) hst.1

theorem closedTick : ClosedTick Base (ViewsOk views) where
  syncing _ _ hp honline hst h :=
    h.prepareFresh _ (hp.attached honline) hst (by decide) (by decide)
  levelWait := by
    intro s i conn p _ _ hp honline hst h
    have hprepared : ViewsOk views (s.prepareStateTransition p .levelInitializing .levelInitialized) := by
      rcases hst with hst | hst
      · exact h.prepareFresh _ (hp.attached honline) hst (by decide) (by decide)
      · exact h.prepareFresh _ (hp.attached honline) hst (by decide) (by decide)
    exact hprepared.kept (.of_states (.of_eq rfl rfl rfl rfl) fun _ _ hattached => hattached)
  spawnWait _ _ hp honline hst h :=
    (h.prepareFresh _ (hp.attached honline) hst (by decide) (by decide)).kept
      (.of_states (.of_eq rfl rfl rfl rfl) fun _ _ hattached => hattached)
  pushDisconnect _ _ _ _ _ h :=
    h.kept (.of_states (.of_eq rfl rfl rfl rfl) fun _ _ hattached => hattached)

theorem closedLogins : ClosedLogins Base (ViewsOk views) ShowsPlayers where
  respond := by
    intro s request reply _ _ _ h
    have herased : StatesKept s { s with requests := s.requests.erase request } := .of_eq rfl rfl rfl rfl
    exact h.kept (.of_states (herased.trans (.record _ id)) fun _ _ hattached => hattached)
  setIdentity _ _ _ _ _ _ _ _ h :=
    h.kept (.of_states (.setTypeAndUuid _ _ _ _) fun _ _ hattached => hattached)
  guest ht hB hp _ _ _ _ hC h := h.transit hB (.guest _ _ _ _) rfl (ht.player_lt _ _ _ hp) _ hC
  addLoad _ _ _ _ h := h.kept (.of_states (.of_eq rfl rfl rfl rfl) fun _ _ hattached => hattached)
  takeLoad _ _ _ h := h.kept (.of_states (.of_eq rfl rfl rfl rfl) fun _ _ hattached => hattached)
  loaded := by
    intro s i conn p load result ht hB _ hp _ _ _ hC h
    rw [admitLoaded_eq]
    have herased : StatesKept s { s with loads := s.loads.erase load } := .of_eq rfl rfl rfl rfl
    exact h.transit hB (herased.trans (.loaded _ p load result)) rfl (ht.player_lt _ _ _ hp) _ hC

end ViewsOk

/-- What a run of the spawn task does to the states, if everybody it shows waits for it and is
reached: those players are spawned, and nobody else changes. -/
structure SpawnsTarget (s t : Server) : Prop where
  connectionEnv : t.connectionEnv = s.connectionEnv
  numOfPlayers : t.numOfPlayers = s.numOfPlayers
  spawned : ∀ p ∈ s.world.spawnPlayerTask.target, (t.players p).state = .spawned
  others : ∀ p, p ∉ s.world.spawnPlayerTask.target →
    (t.players p).toPlayerState = (s.players p).toPlayerState

/-- What a run of the disconnect task does to the states: the players of its list can become
disconnected. -/
structure TearsDownTarget (s t : Server) : Prop where
  connectionEnv : t.connectionEnv = s.connectionEnv
  numOfPlayers : t.numOfPlayers = s.numOfPlayers
  states : ∀ p, (t.players p).toPlayerState = (s.players p).toPlayerState ∨
    p ∈ s.world.disconnectPlayerTask.target ∧ (t.players p).state = .disconnected ∧
      (t.players p).nextState = .disconnected

variable {s : Server} {views : Views}

/-- The run of the spawn task, when nothing refuses and all its players wait. -/
theorem SpawnsTarget.runTask (ht : TableOk s) (hstaged : ∀ p < s.numOfPlayers,
      IsStaged (s.players p).toPlayerState) {o : Outcomes} (o' : Outcomes) (ho : ∀ k, o k = true)
    (hwaiting : ∀ p ∈ s.world.spawnPlayerTask.target, (s.players p).state = .spawning)
    (hattached : ∀ p ∈ s.world.spawnPlayerTask.target, s.Attached p) :
    SpawnsTarget s (s.runTask .spawnPlayer o o') := by
  set target := s.world.spawnPlayerTask.target with htarget
  have hshape := sameShape_spawnPlayer s target o o'
  have hplayers : ∀ p, (s.runTask .spawnPlayer o o').players p =
      Player.transitState^[target.count p] (s.players p) := by
    intro p
    rw [show (s.runTask .spawnPlayer o o').players p = _ from spawnPlayer_players s target o o' p,
      reached_eq_self ho hattached ht]
  refine ⟨hshape.connectionEnv, hshape.numOfPlayers, fun p hp => ?_, fun p hp => ?_⟩
  · obtain ⟨i, conn, hhas, -⟩ := hattached p hp
    have hstaged := hstaged p (ht.player_lt _ _ _ hhas)
    rw [hplayers, Player.iterate_transitState_state _ (List.count_pos_iff.mpr hp).ne']
    exact (hstaged.next_eq_iff .spawning).mpr (Or.inl (hwaiting p hp))
  · rw [hplayers, List.count_eq_zero.mpr hp]
    rfl

/-- Who was spawned before the run still is, and who is spawned after it was or waited for it. -/
theorem SpawnsTarget.spawned_iff {t : Server} (h : SpawnsTarget s t) (p : Nat) :
    (t.players p).state = .spawned ↔
      (s.players p).state = .spawned ∨ p ∈ s.world.spawnPlayerTask.target := by
  by_cases hp : p ∈ s.world.spawnPlayerTask.target
  · exact iff_of_true (h.spawned p hp) (Or.inr hp)
  · rw [h.others p hp]
    exact (or_iff_left hp).symm

/-- Who was seen is seen after it. -/
theorem SpawnsTarget.isSeen {t : Server} (h : SpawnsTarget s t) {p : Nat}
    (hp : IsSeen (s.players p).toPlayerState) : IsSeen (t.players p).toPlayerState := by
  by_cases htarget : p ∈ s.world.spawnPlayerTask.target
  · exact Or.inl (h.spawned p htarget)
  · rw [h.others p htarget]
    exact hp

namespace ViewsOk

/-- The players of the world are those that are spawned: nobody is spawned without a connection. -/
theorem mem_selectPlayersFrom_spawned (h : ViewsOk views s) (ht : TableOk s) (p : Nat) :
    p ∈ s.selectPlayersFrom .spawned ↔ (s.players p).state = .spawned := by
  rw [mem_selectPlayersFrom ht, State.spawned_le_iff]
  exact and_iff_right_of_imp fun hp => h.attached p (Or.inr (Or.inl hp))

/-- **The spawn task** shows everybody it spawns to everybody who is spawned, and the other way
round. -/
theorem spawnRun (h : ViewsOk views s) (ht : TableOk s) (hB : Base s) {o o' : Outcomes}
    (ho : ∀ k, o k = true) (ho' : ∀ k, o' k = true)
    (hwaiting : ∀ p ∈ s.world.spawnPlayerTask.target, (s.players p).state = .spawning) :
    ViewsOk (followViews views s (.runTask .spawnPlayer o o')) (s.runTask .spawnPlayer o o') := by
  have hattached : ∀ p ∈ s.world.spawnPlayerTask.target, s.Attached p := fun p hp =>
    h.attached p (Or.inl (hwaiting p hp))
  have hrun := SpawnsTarget.runTask ht hB.2 o' ho hwaiting hattached
  set t := s.runTask .spawnPlayer o o' with ht'
  have hmem : ∀ v p, p ∈ followViews views s (.runTask .spawnPlayer o o') v ↔
      (p ∈ views v ∨ v ∈ s.world.spawnPlayerTask.target ∧
        ((s.players p).state = .spawned ∨ p ∈ s.world.spawnPlayerTask.target)) ∨
      (s.players v).state = .spawned ∧ p ∈ s.world.spawnPlayerTask.target := by
    intro v p
    simp only [followViews, reached_eq_self ho hattached ht, reached_selectPlayersFrom ht _ ho',
      Views.mem_add, List.mem_append, h.mem_selectPlayersFrom_spawned ht]
  have hspawned := hrun.spawned_iff
  clear_value t
  refine ⟨fun v p hne hv hp => ?_, fun v p hv hp => ?_, fun v hv => ?_, fun p hp => ?_⟩
  · rw [hspawned] at hv hp
    rw [hmem]
    rcases hv with hv | hv
    · rcases hp with hp | hp
      · exact Or.inl (Or.inl (h.sees v p hne hv hp))
      · exact Or.inr ⟨hv, hp⟩
    · exact Or.inl (Or.inr ⟨hv, hp⟩)
  · rw [hspawned] at hv
    rcases (hmem v p).mp hp with (hp | ⟨-, hp⟩) | ⟨-, hp⟩
    · rcases hv with hv | hv
      · exact hrun.isSeen (h.seen v p hv hp)
      · -- who waits to be spawned was not shown anybody yet
        have hstate := hwaiting v hv
        rw [h.fresh v (Or.inr ⟨by rw [hstate]; decide, by rw [hstate]; decide⟩)] at hp
        exact absurd hp List.not_mem_nil
    · exact Or.inl ((hspawned p).mpr hp)
    · exact Or.inl ((hspawned p).mpr (Or.inr hp))
  · have hnot : ¬ ((s.players v).state = .spawned ∨ v ∈ s.world.spawnPlayerTask.target) := by
      intro hs
      rcases hv with hle | ⟨-, hnot⟩
      · have hattached : s.Attached v := hs.elim (fun hs => h.attached v (Or.inr (Or.inl hs)))
          (hattached v)
        obtain ⟨i, conn, hhas, -⟩ := hattached
        have hlt := ht.player_lt _ _ _ hhas
        rw [hrun.numOfPlayers] at hle
        exact absurd hlt (Nat.not_lt.mpr hle)
      · exact hnot ((hspawned v).mpr hs)
    obtain ⟨hunspawned, htarget⟩ := not_or.mp hnot
    rw [IsFresh, hrun.others v htarget, hrun.numOfPlayers] at hv
    apply List.eq_nil_iff_forall_not_mem.mpr
    intro p hp
    rcases (hmem v p).mp hp with (hp | ⟨hv', -⟩) | ⟨hv', -⟩
    · rw [h.fresh v hv] at hp
      exact absurd hp List.not_mem_nil
    · exact htarget hv'
    · exact hunspawned hv'
  · apply (attached_of_env hrun.connectionEnv p).mpr
    by_cases htarget : p ∈ s.world.spawnPlayerTask.target
    · exact hattached p htarget
    · rw [hrun.others p htarget] at hp
      exact h.attached p hp

end ViewsOk

/-! ### The run of the disconnect task -/

/-- What comes after the teardown is quiet. -/
theorem TearsDownTarget.of_quiet {t u : Server} (h : TearsDownTarget s t) (hq : Quiet t u) :
    TearsDownTarget s u where
  connectionEnv := hq.connectionEnv.trans h.connectionEnv
  numOfPlayers := hq.numOfPlayers.trans h.numOfPlayers
  states p := by
    rw [show (u.players p).toPlayerState = _ from (hq.standing p).toPlayerState]
    exact h.states p

/-- The run of the disconnect task: its players are disconnected, the others are as they were. -/
theorem TearsDownTarget.runTask (ht : TableOk s) (hB : HistoryOk s) (o o' : Outcomes) :
    TearsDownTarget s (s.runTask .disconnectPlayer o o') := by
  have hnext : ∀ p ∈ s.world.disconnectPlayerTask.target, (s.players p).nextState = .disconnected :=
    fun p hp => (hB.disconnect_tornDown p (WorldPlayerTask.mem_players_of_target hp)).2.2
  -- each round moves one player of the list to what it was prepared for
  refine Closed.disconnectRun_of_rounds
    (Q := fun ps u => (∀ p ∈ ps, p ∈ s.world.disconnectPlayerTask.target) ∧ TearsDownTarget s u) ?_ ?_
    (fun h => ⟨h.2.1, h.2.2, h.2.3⟩) ht ?_ o o'
  · rintro u p ps - ⟨hsub, hu⟩
    exact ⟨fun q hq => hsub q (List.mem_cons_of_mem p hq), hu⟩
  · rintro u conn p ps - - ⟨hsub, hu⟩
    refine ⟨fun q hq => hsub q (List.mem_cons_of_mem p hq), ?_⟩
    have hp := hsub p List.mem_cons_self
    rw [savePlayerGamedata_eq]
    refine ⟨hu.connectionEnv, hu.numOfPlayers, fun q => ?_⟩
    rw [transitState_players]
    split_ifs with hqp
    · have hdisconnected : (u.players q).nextState = .disconnected := by
        rcases hu.states q with heq | ⟨-, -, heq⟩
        · rw [show (u.players q).nextState = _ from congrArg PlayerState.nextState heq]
          exact hnext q (hqp ▸ hp)
        · exact heq
      exact Or.inr ⟨hqp ▸ hp, hqp ▸ hdisconnected, hqp ▸ hdisconnected⟩
    · exact hu.states q
  · intro ds u _ hq
    have hlogged : TearsDownTarget s { s with log := ds.map .despawned ++ s.log } :=
      ⟨rfl, rfl, fun _ => Or.inl rfl⟩
    exact ⟨fun p hp => hp, hlogged.of_quiet hq⟩

namespace ViewsOk

/-- **The disconnect task** hides whom it disconnects from everybody who is spawned. -/
theorem disconnectRun (h : ViewsOk views s) (ht : TableOk s) (hB : HistoryOk s) {o : Outcomes}
    (o' : Outcomes) (ho : ∀ k, o k = true) :
    ViewsOk (followViews views s (.runTask .disconnectPlayer o o'))
      (s.runTask .disconnectPlayer o o') := by
  have hmem : ∀ v p, p ∈ followViews views s (.runTask .disconnectPlayer o o') v ↔
      p ∈ views v ∧ ((s.players v).state = .spawned → p ∉ s.despawnedPlayers) := by
    intro v p
    simp only [followViews, reached_selectPlayersFrom ht _ ho, Views.mem_remove,
      h.mem_selectPlayersFrom_spawned ht]
  have hrun := TearsDownTarget.runTask ht hB o o'
  have hleaving : ∀ p ∈ s.world.disconnectPlayerTask.target, (s.players p).state.IsLeaving :=
    fun p hp => (hB.disconnect_tornDown p (WorldPlayerTask.mem_players_of_target hp)).2.1
  generalize s.runTask .disconnectPlayer o o' = t at hrun ⊢
  have hkept : ∀ p, (t.players p).state ≠ .disconnected →
      (t.players p).toPlayerState = (s.players p).toPlayerState := fun p hp =>
    (hrun.states p).resolve_right fun hgone => hp hgone.2.1
  have hspawned : ∀ p, (t.players p).state = .spawned → (s.players p).state = .spawned := by
    intro p hp
    have heq := hkept p (by rw [hp]; decide)
    exact (congrArg PlayerState.state heq).symm.trans hp
  refine ⟨fun v p hne hv hp => ?_, fun v p hv hp => ?_, fun v hv => ?_, fun p hp => ?_⟩
  · refine (hmem v p).mpr ⟨h.sees v p hne (hspawned v hv) (hspawned p hp), fun _ hdespawned => ?_⟩
    -- whom the task hides is leaving
    have hleaves := hleaving p (List.mem_of_mem_filter hdespawned)
    rw [hspawned p hp] at hleaves
    exact absurd hleaves (by decide)
  · obtain ⟨hp, hshown⟩ := (hmem v p).mp hp
    have hseen := h.seen v p (hspawned v hv) hp
    rcases hrun.states p with heq | ⟨htarget, -, -⟩
    · rwa [heq]
    · -- whoever was disconnected by the task and was spawned before is among the despawned
      rcases hseen with hstate | ⟨-, hprev⟩
      · have hleaves := hleaving p htarget
        rw [hstate] at hleaves
        exact absurd hleaves (by decide)
      · refine absurd ?_ (hshown (hspawned v hv))
        exact List.mem_filter.mpr ⟨htarget, decide_eq_true (State.spawned_le_iff.mpr hprev)⟩
  · have hfresh : s.IsFresh v := by
      rcases hv with hle | ⟨hnot, hunspawned⟩
      · exact Or.inl (hrun.numOfPlayers ▸ hle)
      · have heq := hkept v fun hgone => hnot (Or.inr hgone)
        rw [heq] at hnot hunspawned
        exact Or.inr ⟨hnot, hunspawned⟩
    apply List.eq_nil_iff_forall_not_mem.mpr
    intro p hp
    rw [hmem, h.fresh v hfresh] at hp
    exact List.not_mem_nil hp.1
  · have heq : (t.players p).toPlayerState = (s.players p).toPlayerState := by
      apply hkept
      rcases hp with hp | hp | ⟨hp, -⟩ <;> rw [hp] <;> decide
    rw [heq] at hp
    exact (attached_of_env hrun.connectionEnv p).mpr (h.attached p hp)

/-! ### Events -/

theorem closedBase : Closed (fun _ => True) Base ShowsPlayers :=
  (HistoryOk.closed.inter StagesOk.closed).weaken _

/-- A schedule moves lists. -/
theorem scheduleTask (h : ViewsOk views s) (task : WorldTaskId) (now : Nat) (posted : Bool) :
    ViewsOk views (s.scheduleTask task now posted) := by
  cases task
  all_goals
    simp only [Server.scheduleTask]
    split_ifs
    · exact h.kept (.of_states (.of_eq rfl rfl rfl rfl) fun _ _ hattached => hattached)
    · exact h

/-- The tasks that send neither spawn nor despawn records. -/
theorem otherRun (h : ViewsOk views s) (ht : TableOk s) (hB : Base s) {task : WorldTaskId}
    {o o' : Outcomes} (hC : s.CallsMeet ShowsPlayers (.runTask task o o'))
    (hspawn : task ≠ .spawnPlayer) (hdisconnect : task ≠ .disconnectPlayer) :
    ViewsOk views (s.runTask task o o') := by
  cases task with
  | spawnPlayer => exact absurd rfl hspawn
  | disconnectPlayer => exact absurd rfl hdisconnect
  | syncBlock =>
      -- the level callback moves nobody to or from the states that the others see
      have hboth : ClosedConnections (fun _ => True) (fun s => Base s ∧ ViewsOk views s) ShowsPlayers
          fun _ => True := closedBase.toClosedConnections.inter closedConnections
      refine (hboth.of_runLevel ?_ ?_ ⟨ht, hB, h⟩ o o' hC).2.2
      · intro s conn p ht hp hacq hcall hs
        have hlt := hs.1.1.level_lt (WorldPlayerTask.mem_players_of_target hp)
        exact ⟨closedBase.levelCallback ht trivial hp hacq hcall hs.1,
          hs.2.transit hs.1 (.refl _) rfl hlt _ hcall⟩
      · intro s ht hs
        exact ⟨closedBase.finishLevel ht trivial hs.1,
          hs.2.kept (.of_states (.of_eq rfl rfl rfl rfl) fun _ _ hattached => hattached)⟩
  | syncPlayerPosition =>
      exact h.kept (.of_quiet ((Quiet.syncPlayerPosition s o).trans (Quiet.world _ rfl rfl rfl rfl)))
  | commonChatTransfer =>
      exact h.kept (.of_quiet ((Quiet.commonChatTransfer s _ o).trans (Quiet.world _ rfl rfl rfl rfl)))

/-- An event without spawn and despawn records. -/
theorem otherStep {s' : Server} (hs : TableOk s ∧ Base s ∧ ViewsOk views s) {e : Event}
    (hC : s.CallsMeet ShowsPlayers e) (hspawn : ∀ o o', e ≠ .runTask .spawnPlayer o o')
    (hdisconnect : ∀ o o', e ≠ .runTask .disconnectPlayer o o') (hstep : s.step e = some s') :
    TableOk s' ∧ Base s' ∧ ViewsOk views s' := by
  refine closedBase.step_over closedConnections closedTick closedLogins hs e hC ?_ ?_ ?_ hstep
  · intro i now conn _ hconn hsafe
    have hoffline := Connection.offline_of_isSafeDelete hsafe
    exact hs.2.2.kept
      (.of_states (.of_eq rfl rfl rfl rfl) fun p _ => (attached_delete hs.1 hconn hoffline p).mpr)
  · exact fun task now posted _ => hs.2.2.scheduleTask task now posted
  · rintro task o o' rfl -
    exact hs.2.2.otherRun hs.1 hs.2.1 hC (fun htask => hspawn o o' (htask ▸ rfl))
      fun htask => hdisconnect o o' (htask ▸ rfl)

/-- What one event keeps, with the views it leaves. -/
theorem step {s' : Server} (hs : TableOk s ∧ Base s ∧ ViewsOk views s) {e : Event}
    (ho : e.SendsAccepted) (hC : s.CallsMeet ShowsPlayers e) (hwaiting : s.SpawnsWaiting e)
    (hstep : s.step e = some s') :
    TableOk s' ∧ Base s' ∧ ViewsOk (followViews views s e) s' := by
  by_cases hspawn : ∃ o o', e = .runTask .spawnPlayer o o'
  · obtain ⟨o, o', rfl⟩ := hspawn
    obtain ⟨ht, hB⟩ := closedBase.step ⟨hs.1, hs.2.1⟩ _ hC hstep
    simp only [Server.step] at hstep
    split_ifs at hstep
    obtain rfl := Option.some.inj hstep
    exact ⟨ht, hB, hs.2.2.spawnRun hs.1 hs.2.1 ho.1 ho.2 hwaiting⟩
  by_cases hdisconnect : ∃ o o', e = .runTask .disconnectPlayer o o'
  · obtain ⟨o, o', rfl⟩ := hdisconnect
    obtain ⟨ht, hB⟩ := closedBase.step ⟨hs.1, hs.2.1⟩ _ hC hstep
    simp only [Server.step] at hstep
    split_ifs at hstep
    obtain rfl := Option.some.inj hstep
    exact ⟨ht, hB, hs.2.2.disconnectRun hs.1 hs.2.1.1 o' ho.1⟩
  · -- no other event sends spawn or despawn records
    have hviews : followViews views s e = views := by
      unfold followViews
      split
      · exact absurd ⟨_, _, rfl⟩ hspawn
      · exact absurd ⟨_, _, rfl⟩ hdisconnect
      · rfl
    rw [hviews]
    exact otherStep hs hC (fun o o' he => hspawn ⟨o, o', he⟩)
      (fun o o' he => hdisconnect ⟨o, o', he⟩) hstep

end ViewsOk

/-! ## Runs -/

/-- The views that the clients have after a run. -/
def viewsAfter (s : Server) (es : List Event) : Views := follow Server.step followViews (fun _ => []) s es

/-- **Visible players** agree with the states in every state reached by a run in which the spawn task only
shows players that still wait for it, and nobody who is to be hidden is disconnected again. All sends are
accepted here. A player that was kicked in the queue of the spawn task would be shown to everybody, and
never be hidden again. -/
theorem viewsAgree_of_run {maxClients : Nat} {metadata : WorldMetadata} {blockMapping : List UInt8}
    {es : List Event} {s : Server}
    (hrun : run Server.step (Server.init maxClients metadata blockMapping) es = some s)
    (haccepted : ∀ e ∈ es, e.SendsAccepted)
    (hC : Along Server.step (fun s e => s.CallsMeet ShowsPlayers e ∧ s.SpawnsWaiting e)
      (Server.init maxClients metadata blockMapping) es) :
    s.ViewsAgree ((Server.init maxClients metadata blockMapping).viewsAfter es) := by
  have hsends : Along Server.step (fun _ e => e.SendsAccepted)
      (Server.init maxClients metadata blockMapping) es :=
    Along.of_forall_mem fun e he _ => haccepted e he
  have h := run_invariant_follow (f := followViews)
    (P := fun views s => TableOk s ∧ ViewsOk.Base s ∧ ViewsOk views s) ?_
    ⟨TableOk.init .., ⟨HistoryOk.init .., StagesOk.init _ _ _⟩, ViewsOk.init _ _ _⟩
    (hsends.and hC) hrun
  · exact h.2.2.viewsAgree h.1
  · rintro views s e s' hs ⟨hsend, hcalls, hwaiting⟩ hstep
    exact ViewsOk.step hs hsend hcalls hwaiting hstep

/-- Two guests: the first one plays before the second one logs in and is queued to be spawned. -/
def secondGuestQueued : List Event :=
  guestLogin 0 ++ [.tickPlayer 0 0 fun _ => true, .schedule .syncBlock 1 true] ++
  [.runTask .syncBlock (fun _ => true) fun _ => true, .tickPlayer 0 2 fun _ => true] ++
  [.schedule .spawnPlayer 3 true, .runTask .spawnPlayer (fun _ => true) fun _ => true] ++
  [.accept 10, .receive 1 (.handshake [98] [] 0) 10 true 0] ++
  [.response 1 { errorCode := ErrorCode.playerNotExist } 10 true, .tickPlayer 1 11 fun _ => true] ++
  [.schedule .syncBlock 300 true, .runTask .syncBlock (fun _ => true) fun _ => true] ++
  [.tickPlayer 1 301 fun _ => true]

theorem secondGuestQueued_sendsAccepted : ∀ e ∈ secondGuestQueued, e.SendsAccepted := by
  simp [secondGuestQueued, guestLogin, Event.SendsAccepted]

/-- The second guest is spawned, closes its socket, and is hidden before it goes offline. -/
def secondGuestLeaves : List Event :=
  secondGuestQueued ++
  [.schedule .spawnPlayer 3000 true, .runTask .spawnPlayer (fun _ => true) fun _ => true] ++
  [.receiveError 1 3001, .tickPlayer 1 3002 fun _ => true, .schedule .disconnectPlayer 3003 true] ++
  [.runTask .disconnectPlayer (fun _ => true) fun _ => true, .tickPlayer 1 3004 fun _ => true]

/-- Two guests see each other, and one of them leaves. -/
theorem viewsAgree_of_run_secondGuestLeaves :
    ∃ s, run Server.step Server.small secondGuestLeaves = some s ∧
      s.ViewsAgree (Server.small.viewsAfter secondGuestLeaves) := by
  obtain ⟨s, hs⟩ := Option.isSome_iff_exists.mp
    (show (run Server.step Server.small secondGuestLeaves).isSome = true by decide +kernel)
  refine ⟨s, hs, viewsAgree_of_run hs ?_ (by decide +kernel)⟩
  simp only [secondGuestLeaves, List.forall_mem_append]
  exact ⟨⟨⟨secondGuestQueued_sendsAccepted, by simp [Event.SendsAccepted]⟩,
    by simp [Event.SendsAccepted]⟩, by simp [Event.SendsAccepted]⟩

/-- The second guest is kicked while it waits to be spawned. -/
def kickedWhileQueued : List Event :=
  secondGuestQueued ++ [.kick 1 ErrorCode.playerAlreadyLogin 302 true, .schedule .spawnPlayer 3000 true] ++
  [.runTask .spawnPlayer (fun _ => true) fun _ => true, .tickPlayer 1 3001 fun _ => true]

/-- The player that plays sees the other one, whose connection is offline. -/
theorem not_viewsAgree_kickedWhileQueued :
    (∀ e ∈ kickedWhileQueued, e.SendsAccepted) ∧
    ∃ s, run Server.step Server.small kickedWhileQueued = some s ∧
      ¬ s.ViewsAgree (Server.small.viewsAfter kickedWhileQueued) := by
  have hrun : ((run Server.step Server.small kickedWhileQueued).map fun s =>
      ((s.players 0).state, s.owner 1, decide (.offline 1 ∈ s.log))) =
      some (.spawned, 1, true) := by decide +kernel
  have hviews : Server.small.viewsAfter kickedWhileQueued 0 = [0, 1] := by decide +kernel
  obtain ⟨s, hs, heq⟩ := Option.map_eq_some_iff.mp hrun
  simp only [Prod.mk.injEq] at heq
  obtain ⟨hstate, howner, hoffline⟩ := heq
  have hsends : ∀ e ∈ kickedWhileQueued, e.SendsAccepted := by
    simp only [kickedWhileQueued, List.forall_mem_append]
    exact ⟨⟨secondGuestQueued_sendsAccepted, by simp [Event.SendsAccepted]⟩,
      by simp [Event.SendsAccepted]⟩
  refine ⟨hsends, s, hs, fun h => ?_⟩
  obtain ⟨-, hhistory⟩ := Server.consistent_of_run hs
  refine h.forgets 0 1 hstate (fun honline => ?_) (by rw [hviews]; decide)
  exact hhistory.online 1 (howner ▸ honline) (of_decide_eq_true hoffline)

end Server

end Mmocraft
