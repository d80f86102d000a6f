/-
# Mmocraft.Server.SentOrder -- the order in which a connection accepts its packets

What the server sends a client comes from three places: the tick, which greets a player and announces the
level; the level task and the spawn task, which send the level and show the world; and the tasks that pass
on changes to whoever is far enough along.  A client should be sent these in one order: the packets of the
login, then the level, then the world, and no change before what it is a change of.  The packets are read by
a monitor that knows nothing of players; in runs in which every stage is ended by the call that it waits for,
the monitor accepts what each connection accepted, and until the player leaves it is as far as the player.

Three limits of the result.  The order is that of acceptance: what RIO is handed may overtake it, since small
data and multicasts take different paths.  The answers to a packet of the client (a pong, a refused block
change, an error, a disconnect notice) are sent in every state of the player, so the monitor lets them pass
at any time, and pings with them: a client can be told to take back a block before it has the level.  And the
entries of the extensions may be repeated.
-/
import Mmocraft.Server.SendRules
import Mmocraft.Server.TaskReferences
import Mmocraft.Server.VisiblePlayers

namespace Mmocraft

open Mmocraft.Lib Mmocraft.Game Mmocraft.Net

/-! ## The monitor

The monitor reads the packets that one connection accepted, the oldest first, and keeps how far the stream
is. It has no way to know the players, so that accepting is a fact about the stream alone.
-/

/-- How far a stream is: the position of its last packet of the login, or what came after the login. -/
inductive SentPhase where
  | login (position : Nat)
  | level
  | world
  deriving DecidableEq, Repr

namespace ServerPacket

/-- The position of a packet in the login. -/
def loginPosition : ServerPacket → Option Nat
  | .extInfo => some 1
  | .extEntry .. => some 2
  | .handshake _ => some 3
  | .setPlayerId _ => some 4
  | .levelInit => some 5
  | _ => none

/-- The monitor.  Answers and pings pass at any time, also the block packet of a refused change.  The packets of the
login come in their order, none of them twice except for the entries of the extensions; then the level data,
once; then block changes, and from the first spawned players on everything about players. -/
def sentNext (φ : SentPhase) (packet : ServerPacket) : Option SentPhase :=
  if packet.isAnswer then some φ
  else
    match φ, packet with
    | .login _, .levelData _ => some .level
    | .login position, packet =>
        packet.loginPosition.bind fun next =>
          if position < next ∨ (position = 2 ∧ next = 2) then some (.login next) else none
    | .level, .blockHistory _ => some .level
    | .level, .spawnPlayers _ => some .world
    | .world, .blockHistory _ | .world, .spawnPlayers _ | .world, .despawnPlayers _
    | .world, .playerPositions _ | .world, .chat _ => some .world
    | _, _ => none

/-- Answers and pings pass in every phase. -/
theorem sentNext_answer (φ : SentPhase) {packet : ServerPacket} (h : packet.isAnswer = true) :
    packet.sentNext φ = some φ := if_pos h

/-- The packets of the login come in their order, an entry after an entry too. -/
theorem sentNext_login {packet : ServerPacket} {position next : Nat} (hnext : packet.loginPosition = some next)
    (hlt : position < next ∨ (position = 2 ∧ next = 2)) :
    packet.sentNext (.login position) = some (.login next) := by
  cases packet <;> cases hnext
  all_goals
    show (if position < _ ∨ (position = 2 ∧ _ = 2) then some (SentPhase.login _) else none) = _
    exact if_pos hlt

end ServerPacket

namespace Server

/-- What the monitor says of the stream of a connection. -/
def sentPhase (s : Server) (c : Nat) : Option SentPhase :=
  (s.sent c).foldlM (fun φ packet => packet.sentNext φ) (.login 0)

end Server

/-- How far the stream of a player in a state can be.  The packets of the login may have been refused; the
level and the players were not, since it is their acceptance that moves a player on.  Of a player that leaves
nothing is said. -/
def Game.State.FitsSent : State → SentPhase → Prop
  | .handshaking, φ | .exHandshaking, φ | .handshaked, φ | .exHandshaked, φ => φ = .login 0
  | .extensionSyncing, φ | .extensionSynced, φ => ∃ k ≤ 2, φ = .login k
  | .levelInitializing, φ => ∃ k, φ = .login k
  | .levelInitialized, φ | .spawning, φ => φ = .level
  | .spawned, φ => φ = .world
  | .invaild, _ | .initialized, _ | .disconnecting, _ | .disconnected, _ => True

namespace Server

/-- Every stage is ended by the call that it waits for: a player is only constructed for a connection
without one, an extension entry ends the syncing, a reply ends the handshake, the level task the wait for
the level and the spawn task the wait for the world. -/
def EndsOwnStage (s : Server) : Call → Prop
  | .setPlayer i _ => s.connectionEnv.playerOf i = none
  | .transit p .extEntry => (s.players p).state = .extensionSyncing
  | .transit p (.guest ..) | .transit p (.loaded ..) => (s.players p).state.IsHandshaking
  | .transit p .level => (s.players p).state = .levelInitializing
  | .transit p .spawn => (s.players p).state = .spawning
  | _ => True

instance (s : Server) : (call : Call) → Decidable (s.EndsOwnStage call)
  | .setPlayer i _ => inferInstanceAs (Decidable (s.connectionEnv.playerOf i = none))
  | .transit p .extEntry => inferInstanceAs (Decidable ((s.players p).state = .extensionSyncing))
  | .transit p (.guest ..) | .transit p (.loaded ..) =>
      inferInstanceAs (Decidable (s.players p).state.IsHandshaking)
  | .transit p .level => inferInstanceAs (Decidable ((s.players p).state = .levelInitializing))
  | .transit p .spawn => inferInstanceAs (Decidable ((s.players p).state = .spawning))
  | .disconnect _ | .setIdentity .. | .disconnectPlayer _ => isTrue trivial

/-- **The order of acceptance.** The monitor accepts the stream of every connection, and the stream of a
player's connection is as far as the player. -/
structure SentOrdered (s : Server) : Prop where
  accepted : ∀ c, (s.sentPhase c).isSome = true
  agrees : ∀ i conn p, s.HasPlayer i conn p → ∃ φ, s.sentPhase conn.id = some φ ∧ (s.players p).state.FitsSent φ

end Server

/-! ## The invariant

Each state of a player says how far its stream may be. A player that is moved on by the tick was sent what
belongs to the next phase first, and one that is moved on by a callback was sent the packet that the
callback belongs to.
-/

/-- The phases of the streams. -/
def InPhase (σ : Nat → SentPhase) (s : Server) : Prop := ∀ c, s.sentPhase c = some (σ c)

/-- The phases fit the states of the players; a connection that never had a player was greeted with
nothing. -/
structure Fits (σ : Nat → SentPhase) (s : Server) : Prop where
  player : ∀ p < s.numOfPlayers, (s.players p).state.FitsSent (σ (s.owner p))
  unowned : ∀ c, (∀ p < s.numOfPlayers, s.owner p ≠ c) → σ c = .login 0

/-- The streams have phases that fit. -/
def SentOk (s : Server) : Prop := ∃ σ, InPhase σ s ∧ Fits σ s

namespace Fits

variable {σ : Nat → SentPhase} {s t : Server}

/-- What a runs keeps besides. -/
abbrev Base (s : Server) : Prop := (HistoryOk s ∧ StagesOk s) ∧ OwnersOk s

/-- Neither states nor owners change. -/
theorem kept (h : Fits σ s) (hst : StatesKept s t) : Fits σ t where
  player p hp := by
    rw [hst.numOfPlayers] at hp
    rw [hst.owner, show (t.players p).state = (s.players p).state from congrArg PlayerState.state (hst.states p)]
    exact h.player p hp
  unowned c hc := by
    rw [hst.numOfPlayers, hst.owner] at hc
    exact h.unowned c hc

/-- The state of one player changes. -/
theorem move (h : Fits σ s) (hnum : t.numOfPlayers = s.numOfPlayers) (howner : t.owner = s.owner) {p : Nat}
    {st : State} (hplayers : ∀ q, (t.players q).state = if q = p then st else (s.players q).state)
    (hst : (s.players p).state.FitsSent (σ (s.owner p)) → st.FitsSent (σ (s.owner p))) : Fits σ t where
  player q hq := by
    rw [hnum] at hq
    rw [howner, hplayers]
    split_ifs with hqp
    · subst hqp
      exact hst (h.player q hq)
    · exact h.player q hq
  unowned c hc := by
    rw [hnum, howner] at hc
    exact h.unowned c hc

/-- A player is prepared for a stage that its stream is ready for. -/
theorem prepare (h : Fits σ s) {p : Nat} {cur next : State}
    (hcur : (s.players p).state.FitsSent (σ (s.owner p)) → cur.FitsSent (σ (s.owner p))) :
    Fits σ (s.prepareStateTransition p cur next) := by
  refine h.move rfl rfl (fun q => ?_) hcur
  rw [Server.prepareStateTransition_players]
  split_ifs <;> rfl

/-- A stage ends where the stream is already in the next one. -/
theorem transitState (h : Fits σ s) {p : Nat} {st : State} (hst : (s.players p).nextState = st) (hint : State)
    (hnext : (s.players p).state.FitsSent (σ (s.owner p)) → st.FitsSent (σ (s.owner p))) :
    Fits σ (s.transitState p hint) := by
  refine h.move rfl rfl (fun q => ?_) hnext
  rw [Server.transitState_players]
  split_ifs
  · exact hst
  · rfl

/-- A player and the stream of its connection move on together. -/
theorem advance (h : Fits σ s) (ho : OwnersOk s) {p : Nat} (hp : p < s.numOfPlayers)
    (hnum : t.numOfPlayers = s.numOfPlayers) (howner : t.owner = s.owner)
    (hothers : ∀ q, q ≠ p → (t.players q).state = (s.players q).state) {φ : SentPhase}
    (hφ : (t.players p).state.FitsSent φ) : Fits (Function.update σ (s.owner p) φ) t where
  player q hq := by
    rw [hnum] at hq
    rw [howner]
    by_cases hqp : q = p
    · subst hqp
      rwa [Function.update_self]
    · have hne : s.owner q ≠ s.owner p := fun heq => hqp (ho.owner_inj q hq p hp heq)
      rw [Function.update_of_ne hne, hothers q hqp]
      exact h.player q hq
  unowned c hc := by
    rw [hnum, howner] at hc
    rw [Function.update_of_ne (hc p hp).symm]
    exact h.unowned c hc

/-- A new player is where its connection is: nothing was sent. -/
theorem construct (h : Fits σ s) (ho : OwnersOk s) {i : Nat} {conn : Connection}
    (hconn : s.connection i = some conn) (hnone : conn.player = none) (player : Player) {cur next : State}
    (hstart : cur.IsHandshaking) :
    Fits σ ((s.setPlayer i conn player).prepareStateTransition s.numOfPlayers cur next) := by
  have hself : (s.setPlayer i conn player).owner s.numOfPlayers = conn.id := Function.update_self ..
  have hother : ∀ p, p < s.numOfPlayers → (s.setPlayer i conn player).owner p = s.owner p :=
    fun p hp => Function.update_of_ne (Nat.ne_of_lt hp) _ _
  have hfree := h.unowned conn.id fun p hp => ho.owner_ne hconn hnone p hp
  refine ⟨fun p hp => ?_, fun c hc => h.unowned c fun p hp => ?_⟩
  · show (((s.setPlayer i conn player).prepareStateTransition _ cur next).players p).state.FitsSent
      (σ ((s.setPlayer i conn player).owner p))
    rw [Server.construct_players]
    by_cases hnew : p = s.numOfPlayers
    · rw [if_pos hnew, hnew, hself, hfree, Player.prepareStateTransition_state]
      rcases hstart with rfl | rfl <;> rfl
    · have hlt := Nat.lt_of_le_of_ne (Nat.le_of_lt_succ hp) hnew
      rw [if_neg hnew, hother p hlt]
      exact h.player p hlt
  · exact hother p hp ▸ hc p (Nat.lt_succ_of_lt hp)

/-- The calls that move a player on without sending it anything. -/
def SilentStage (s : Server) : Server.Call → Prop
  | .transit _ .level | .transit _ .spawn => False
  | call => s.EndsOwnStage call

/-- A player that is prepared by the tick stays where its stream is. -/
theorem fitsSent_of_prepares {st cur next : State} (h : TickPrepares st cur next) {φ : SentPhase}
    (hst : st.FitsSent φ) : cur.FitsSent φ := by
  cases h with
  | syncing => exact ⟨0, Nat.zero_le 2, hst⟩
  | level => exact ⟨0, hst⟩
  | levelSynced =>
      obtain ⟨k, -, rfl⟩ := hst
      exact ⟨k, rfl⟩
  | spawn => exact hst

/-- All moves but the two that end a stage with a packet. -/
theorem closedStates : ClosedStates Base (Fits σ) SilentStage where
  kept h hst := h.kept hst
  construct := by
    intro s i conn cur next garbage player ht hB hconn honline hstart hC h
    have hnone : conn.player = none := by
      cases hp : conn.player with
      | none => rfl
      | some p =>
          have hfree : s.connectionEnv.playerOf i = none := hC
          rw [ht.playerOf_eq ⟨hconn, hp⟩ honline] at hfree
          cases hfree
    exact h.construct hB.2 hconn hnone player hstart.isHandshaking
  handOver _ _ _ _ _ _ h := h.prepare fun _ => trivial
  prepare _ _ _ _ hprepares h := h.prepare (fitsSent_of_prepares hprepares)
  transit := by
    intro s u p cause _ hB hp hC hst h
    have hstate : (u.players p).state = (s.players p).state := congrArg PlayerState.state (hst.states p)
    have hnext : (u.players p).nextState = (s.players p).nextState :=
      congrArg PlayerState.nextState (hst.states p)
    have hstaged := hB.1.2 p hp
    have hreply : (s.players p).state.IsHandshaking → Fits σ (u.transitState p .invaild) := by
      rintro (hs | hs)
      · have hready := (hstaged.next_eq_iff .handshaking).mpr (Or.inl hs)
        refine (h.kept hst).transitState (hnext.trans hready) _ fun hfits => ?_
        rwa [hstate, hs] at hfits
      · have hready := (hstaged.next_eq_iff .exHandshaking).mpr (Or.inl hs)
        refine (h.kept hst).transitState (hnext.trans hready) _ fun hfits => ?_
        rwa [hstate, hs] at hfits
    cases cause with
    | extEntry =>
        have hs : (s.players p).state = .extensionSyncing := hC
        have hready := (hstaged.next_eq_iff .extensionSyncing).mpr (Or.inl hs)
        refine (h.kept hst).transitState (hnext.trans hready) _ fun hfits => ?_
        rwa [hstate, hs] at hfits
    | guest request reply => exact hreply hC
    | loaded load result => exact hreply hC
    | level => exact hC.elim
    | spawn => exact hC.elim
  disconnectRun := by
    intro s o o' ht hB _ _ h
    have hrun := Server.TearsDownTarget.runTask ht hB.1.1 o o'
    have howner : (s.runTask .disconnectPlayer o o').owner = s.owner :=
      (SameShape.disconnectPlayer s s.world.disconnectPlayerTask.target o).owner
    refine ⟨fun p hp => ?_, fun c hc => ?_⟩
    · rw [hrun.numOfPlayers] at hp
      rw [howner]
      rcases hrun.states p with heq | ⟨-, heq, -⟩
      · rw [congrArg PlayerState.state heq]
        exact h.player p hp
      · rw [heq]
        trivial
    · rw [hrun.numOfPlayers, howner] at hc
      exact h.unowned c hc

end Fits

/-! ## Sending -/

namespace InPhase

variable {σ : Nat → SentPhase} {s t : Server}

/-- Nothing is sent. -/
theorem of_sent (h : InPhase σ s) (hsent : t.sent = s.sent) : InPhase σ t := by
  intro c
  rw [Server.sentPhase, hsent]
  exact h c

/-- A packet moves the stream of its connection. -/
theorem send (h : InPhase σ s) (conn : Connection) {packet : ServerPacket} {φ : SentPhase}
    (hnext : packet.sentNext (σ conn.id) = some φ) :
    InPhase (Function.update σ conn.id φ) (s.send conn packet true) := by
  intro c
  show (Function.update s.sent conn.id (s.sent conn.id ++ [packet]) c).foldlM _ _ = _
  by_cases hc : c = conn.id
  · have hbefore : (s.sent conn.id).foldlM (fun φ packet => packet.sentNext φ) (.login 0) = some (σ conn.id) :=
      h conn.id
    rw [hc, Function.update_self, Function.update_self, List.foldlM_append, hbefore]
    show (packet.sentNext (σ conn.id)).bind some = _
    rw [hnext, Option.bind_some]
  · rw [Function.update_of_ne hc, Function.update_of_ne hc]
    exact h c

/-- Packets that are in place leave the streams where they are. -/
theorem sendClosed (σ : Nat → SentPhase) : SendClosed (fun s t => InPhase σ s → InPhase σ t)
    fun c packet => packet.sentNext (σ c) = some (σ c) where
  trans hst htu h := htu (hst h)
  silent hsent _ h := h.of_sent hsent
  send s conn packet accepted hpacket h := by
    cases accepted with
    | false => exact h
    | true =>
        have hsent := h.send conn hpacket
        rwa [Function.update_eq_self] at hsent

end InPhase

/-- The stream of a connection is in the login, at most that far. -/
def LoginWithin (σ : Nat → SentPhase) (c bound : Nat) (s : Server) : Prop :=
  ∃ k ≤ bound, InPhase (Function.update σ c (.login k)) s

/-- The next packet of the login, sent or refused. -/
theorem LoginWithin.send {σ : Nat → SentPhase} {s : Server} {conn : Connection} {bound : Nat}
    (h : LoginWithin σ conn.id bound s) (packet : ServerPacket) {next : Nat}
    (hnext : packet.loginPosition = some next) (hlt : bound < next ∨ (bound = 2 ∧ next = 2)) (accepted : Bool) :
    LoginWithin σ conn.id next (s.send conn packet accepted) := by
  obtain ⟨k, hk, hphase⟩ := h
  cases accepted with
  | false => exact ⟨k, by omega, hphase⟩
  | true =>
      refine ⟨next, Nat.le_refl next, ?_⟩
      have haccepts : packet.sentNext (Function.update σ conn.id (.login k) conn.id) = some (.login next) := by
        rw [Function.update_self]
        exact ServerPacket.sentNext_login hnext (by omega)
      have hsent := hphase.send conn haccepts
      rwa [Function.update_idem] at hsent

/-- A stream in its login phase. -/
theorem LoginWithin.of_phase {σ : Nat → SentPhase} {s : Server} {c k bound : Nat} (h : InPhase σ s)
    (hk : σ c = .login k) (hle : k ≤ bound) : LoginWithin σ c bound s := by
  refine ⟨k, hle, ?_⟩
  rw [← hk, Function.update_eq_self]
  exact h

/-! ### The tick

The tick sends several packets in a row, and a connection may refuse any of them. What is accepted is still
in order, since positions only grow; `LoginWithin` is how far they can have come.
-/

section Tick

variable {σ : Nat → SentPhase} {s t u : Server}

/-- The greeting is sent in order, as far as the connection accepts it. -/
theorem LoginWithin.onHandshakeSuccess {conn : Connection} (h : LoginWithin σ conn.id 2 s) (p : Nat)
    (o : Outcomes) : LoginWithin σ conn.id 5 (s.onHandshakeSuccess conn p o) := by
  have hgreeted : ∀ userType, LoginWithin σ conn.id 3 (s.send conn (.handshake userType) (o 0)) :=
    fun userType => h.send (.handshake userType) rfl (Or.inl (Nat.lt_succ_self 2)) (o 0)
  have hnumbered := fun userType gameId =>
    (hgreeted userType).send (.setPlayerId gameId) rfl (Or.inl (Nat.lt_succ_self 3)) (o 1)
  exact (hnumbered _ _).send .levelInit rfl (Or.inl (Nat.lt_succ_self 4)) (o 2)

/-- A player that was greeted is prepared for what comes next. -/
theorem LoginWithin.sentOk {i p bound : Nat} {conn : Connection} (h : LoginWithin σ conn.id bound u)
    (ht : TableOk s) (ho : OwnersOk s) (hhas : s.HasPlayer i conn p) (hshape : SameShape s t)
    (hsent : t.sent = u.sent) (hfits : Fits σ t)
    (hstate : ∀ k ≤ bound, (t.players p).state.FitsSent (.login k)) : SentOk t := by
  obtain ⟨k, hk, hphase⟩ := h
  have hlt : p < t.numOfPlayers := hshape.numOfPlayers ▸ ht.player_lt _ _ _ hhas
  have howner : t.owner p = conn.id := (congrFun hshape.owner p).trans (ht.player_owner _ _ _ hhas)
  have hmoved := hfits.advance (ho.of_sameShape hshape) hlt rfl rfl (fun _ _ => rfl) (hstate k hk)
  rw [howner] at hmoved
  exact ⟨_, hphase.of_sent hsent, hmoved⟩

/-- The states in which the tick greets. -/
def Game.State.IsGreeted (st : State) : Prop := st = .exHandshaked ∨ st = .handshaked ∨ st = .extensionSynced

/-- In any other state the tick sends answers only. -/
theorem ServerPacket.SentInState.isAnswer {st : State} {packet : ServerPacket} (h : packet.SentInState st)
    (hst : ¬ st.IsGreeted) : packet.isAnswer = true := by
  cases st with
  | exHandshaked => exact absurd (Or.inl rfl) hst
  | handshaked => exact absurd (Or.inr (Or.inl rfl)) hst
  | extensionSynced => exact absurd (Or.inr (Or.inr rfl)) hst
  | spawned => cases packet <;> first | rfl | exact h.elim
  | _ => exact h.elim

/-- A visit that greets moves the stream on along the login. -/
theorem sentOk_of_greeted (ht : TableOk s) (ho : OwnersOk s) (hphase : InPhase σ s) (hfits : Fits σ s)
    {i p now : Nat} {conn : Connection} (hhas : s.HasPlayer i conn p) (hst : (s.players p).state.IsGreeted)
    (o : Outcomes) (hkept : Fits σ (s.transitPlayerState i conn p now o)) :
    SentOk (s.transitPlayerState i conn p now o) := by
  have hfit := hfits.player p (ht.player_lt _ _ _ hhas)
  rw [ht.player_owner _ _ _ hhas] at hfit
  have hprepared : ∀ (u : Server) cur next, ((u.prepareStateTransition p cur next).players p).state = cur := by
    intro u cur next
    rw [Server.prepareStateTransition_players, if_pos rfl]
    rfl
  -- the player is greeted, wherever its login is
  have hwaits : ∀ k ≤ 2, σ conn.id = .login k → Fits σ ((s.onHandshakeSuccess conn p o).waitForLevel p) →
      SentOk ((s.onHandshakeSuccess conn p o).waitForLevel p) := by
    intro k hk heq hkept
    have hlogin := (LoginWithin.of_phase hphase heq hk).onHandshakeSuccess p o
    have hshape := (Quiet.onHandshakeSuccess s conn p o).sameShape
    have hwait : ∀ u : Server, SameShape u (u.waitForLevel p) := fun u =>
      (SameShape.prepareStateTransition u p _ _).trans (SameShape.of_rfl rfl rfl rfl rfl rfl)
    refine hlogin.sentOk ht ho hhas (hshape.trans (hwait _)) rfl hkept fun j _ => ?_
    rw [show (((s.onHandshakeSuccess conn p o).waitForLevel p).players p).state = _ from hprepared _ _ _]
    exact ⟨j, rfl⟩
  unfold Server.transitPlayerState at hkept ⊢
  rcases hst with hs | hs | hs
  · rw [hs] at hfit
    simp only [hs] at hkept ⊢
    split_ifs at hkept ⊢
    · have hinfo := (LoginWithin.of_phase hphase hfit (Nat.le_refl 0)).send .extInfo rfl (Or.inl Nat.one_pos) true
      have hentry : ∀ name version accepted, LoginWithin σ conn.id 2
          ((s.send conn .extInfo true).send conn (.extEntry name version) accepted) :=
        fun name version => hinfo.send (.extEntry name version) rfl (Or.inl (Nat.lt_succ_self 1))
      have hentries := fun name version accepted name' version' =>
        (hentry name version accepted).send (.extEntry name' version') rfl (Or.inr ⟨rfl, rfl⟩) (o 2)
      have hshape : ∀ packet packet' accepted accepted', SameShape s ((((s.send conn .extInfo true).send conn
          packet accepted).send conn packet' accepted').prepareStateTransition p .extensionSyncing
            .extensionSynced) := fun _ _ _ _ =>
        (((SameShape.send s conn _ _).trans (SameShape.send _ conn _ _)).trans (SameShape.send _ conn _ _)).trans
          (SameShape.prepareStateTransition _ p _ _)
      refine (hentries _ _ _ _ _).sentOk ht ho hhas (hshape _ _ _ _) rfl hkept fun j hj => ?_
      rw [hprepared]
      exact ⟨j, hj, rfl⟩
    · exact ⟨σ, hphase, hfits⟩
  · rw [hs] at hfit
    simp only [hs] at hkept ⊢
    exact hwaits 0 (Nat.zero_le 2) hfit hkept
  · rw [hs] at hfit
    obtain ⟨k, hk, heq⟩ := hfit
    simp only [hs] at hkept ⊢
    exact hwaits k hk heq hkept

/-- The visit of a slot. -/
theorem sentOk_tickPlayer (ht : TableOk s) (ho : OwnersOk s) (hphase : InPhase σ s) (hfits : Fits σ s)
    (i now : Nat) (o : Outcomes) (hkept : Fits σ (s.tickPlayer i now o)) :
    SentOk (s.tickPlayer i now o) := by
  by_cases hgreets : ∃ conn p, s.connection i = some conn ∧ s.connectionEnv.playerOf i = some p ∧
      (s.players p).state.IsGreeted
  · obtain ⟨conn, p, hconn, hp, hst⟩ := hgreets
    obtain ⟨conn', hhas, -⟩ := ht.of_playerOf hp
    obtain rfl := Option.some.inj (hconn.symm.trans hhas.1)
    have heq : s.tickPlayer i now o = s.transitPlayerState i conn p now o := by
      rw [Server.tickPlayer, hconn, hp]
    rw [heq] at hkept ⊢
    exact sentOk_of_greeted ht ho hphase hfits hhas hst o hkept
  · refine ⟨σ, (InPhase.sendClosed σ).tickPlayer s i now o (fun conn p packet hconn hp hpacket => ?_) hphase, hkept⟩
    exact ServerPacket.sentNext_answer _ (hpacket.isAnswer fun hst => hgreets ⟨conn, p, hconn, hp, hst⟩)

end Tick

/-! ### The tasks that move players on

The level task and the spawn task move on whom they reached, one after the other; the stream of each is
advanced together with its player.
-/

section Callbacks

variable {σ : Nat → SentPhase}

/-- What is kept while a task sends to the players of its list and moves them on. -/
structure CallbackOk (ps : List Nat) (s : Server) : Prop where
  table : TableOk s
  stages : StagesOk s
  owners : OwnersOk s
  owned : ∀ p ∈ ps, s.Owned p

/-- What a callback keeps for the players behind it. -/
theorem CallbackOk.of_sameShape {ps qs : List Nat} {s t : Server} (h : CallbackOk ps s) (hst : SameShape s t)
    (hstages : StagesOk t) (hsub : ∀ p ∈ qs, p ∈ ps) : CallbackOk qs t where
  table := h.table.of_sameShape hst
  stages := hstages
  owners := h.owners.of_sameShape hst
  owned p hp := by
    obtain ⟨i, conn, hhas⟩ := h.owned p (hsub p hp)
    rw [Server.Owned]
    refine ⟨i, conn, ?_, hhas.2⟩
    rw [Server.connection, hst.connectionEnv]
    exact hhas.1

/-- The connection of an owned player is acquired for that player. -/
theorem Server.Owned.owner_of_acquired {s : Server} {p : Nat} {conn : Connection} (h : s.Owned p) (ht : TableOk s)
    (hacq : s.tryAcquireOf p = some conn) : p < s.numOfPlayers ∧ s.owner p = conn.id := by
  obtain ⟨i, conn', hhas⟩ := h
  obtain ⟨hconn, -, -⟩ := ht.of_tryAcquire hacq
  rw [ht.player_key _ _ _ hhas, ht.key_index _ _ hhas.1] at hconn
  obtain rfl := Option.some.inj (hhas.1.symm.trans hconn)
  exact ⟨ht.player_lt _ _ _ hhas, ht.player_owner _ _ _ hhas⟩

/-- A packet that ends a stage: it is sent while the stage lasts, and leads to where the next one begins. -/
structure EndsStage (cause : Server.Cause) (packet : ServerPacket) (cur next : State) : Prop where
  stage : IsStage cur next
  called : ∀ (s : Server) p, s.EndsOwnStage (.transit p cause) → (s.players p).state = cur
  accepted : ∀ φ, cur.FitsSent φ → φ ≠ .world ∧ ∃ ψ, packet.sentNext φ = some ψ ∧ next.FitsSent ψ

namespace EndsStage

variable {packet : ServerPacket} {cause : Server.Cause} {cur next : State} {s : Server}

/-- One callback: the player moves on, and its stream with it. -/
theorem callback (h : EndsStage cause packet cur next) (hint : State) {p : Nat} {ps : List Nat}
    (hok : CallbackOk (p :: ps) s) (hphase : InPhase σ s) (hfits : Fits σ s) {conn : Connection}
    (hacq : s.tryAcquireOf p = some conn)
    (hcall : (s.send conn packet true).EndsOwnStage (.transit p cause)) :
    σ conn.id ≠ .world ∧ CallbackOk ps ((s.send conn packet true).transitState p hint) ∧
      ∃ ψ, InPhase (Function.update σ conn.id ψ) ((s.send conn packet true).transitState p hint) ∧
        Fits (Function.update σ conn.id ψ) ((s.send conn packet true).transitState p hint) := by
  have hstate : (s.players p).state = cur := h.called _ p hcall
  obtain ⟨hlt, howner⟩ := (hok.owned p List.mem_cons_self).owner_of_acquired hok.table hacq
  have hfit := hfits.player p hlt
  rw [hstate, howner] at hfit
  obtain ⟨hnot, ψ, haccept, hmoved⟩ := h.accepted _ hfit
  have hnext : (s.players p).nextState = next :=
    ((hok.stages p hlt).next_eq_iff h.stage).mpr (Or.inl hstate)
  have hplayers : ∀ q, (((s.send conn packet true).transitState p hint).players q).state =
      if q = p then next else (s.players q).state := by
    intro q
    rw [Server.transitState_players]
    split_ifs
    · exact hnext
    · rfl
  have hshape := (SameShape.send s conn packet true).trans
    (SameShape.transitState (s.send conn packet true) p hint)
  refine ⟨hnot, ?_, ψ, ?_, ?_⟩
  · have hstages := hok.stages.kept (StatesKept.of_quiet (Quiet.send s conn packet true))
    exact hok.of_sameShape hshape (hstages.transitState hint) fun q hq => List.mem_cons_of_mem p hq
  · exact (hphase.send conn haccept).of_sent rfl
  · rw [← howner]
    refine hfits.advance hok.owners hlt hshape.numOfPlayers hshape.owner (fun q hq => ?_) ?_
    · rw [hplayers, if_neg hq]
    · rw [hplayers, if_pos rfl]
      exact hmoved

/-- **A task that ends a stage.** Each player of the list that is reached moves on, and its stream with it;
the streams that are in the world stay there. -/
theorem callbacks (h : EndsStage cause packet cur next) (hint : State) (ps : List Nat) (o : Outcomes)
    (hok : CallbackOk ps s) (hphase : InPhase σ s) (hfits : Fits σ s)
    (hC : ∀ c ∈ Server.callbackCalls packet (fun s p => s.transitState p hint) cause ps o s,
      c.1.EndsOwnStage c.2) :
    ∃ σ', InPhase σ' (Server.sendToPlayers packet (fun s p => s.transitState p hint) ps o s) ∧
      Fits σ' (Server.sendToPlayers packet (fun s p => s.transitState p hint) ps o s) ∧
      ∀ c, σ c = .world → σ' c = .world := by
  induction ps generalizing o σ s with
  | nil => exact ⟨σ, hphase, hfits, fun _ hc => hc⟩
  | cons p ps ih =>
      simp only [Server.callbackCalls, List.mem_append] at hC
      have hfirst := fun c hc => hC c (Or.inl hc)
      have hrest := fun c hc => hC c (Or.inr hc)
      rw [Server.sendToPlayers]
      by_cases hreached : ∃ conn, s.tryAcquireOf p = some conn ∧ o 0 = true
      · obtain ⟨conn, hacq, haccepts⟩ := hreached
        have hone : s.sendToPlayer p packet (o 0) (fun s p => s.transitState p hint) =
            (s.send conn packet true).transitState p hint := by
          rw [Server.sendToPlayer, hacq, haccepts]
          rfl
        rw [hacq, haccepts] at hfirst
        rw [hone] at hrest ⊢
        obtain ⟨hnot, hok', ψ, hphase', hfits'⟩ :=
          h.callback hint hok hphase hfits hacq (hfirst _ (List.mem_singleton_self _))
        obtain ⟨σ', hin, hfit, hworld⟩ := ih o.tail hok' hphase' hfits' hrest
        refine ⟨σ', hin, hfit, fun c hc => hworld c ?_⟩
        have hne : c ≠ conn.id := by
          rintro rfl
          exact hnot hc
        rwa [Function.update_of_ne hne]
      · -- a player that is not reached changes nothing
        have hone : s.sendToPlayer p packet (o 0) (fun s p => s.transitState p hint) = s := by
          unfold Server.sendToPlayer
          cases hacq : s.tryAcquireOf p with
          | none => rfl
          | some conn => exact if_neg fun haccepts => hreached ⟨conn, hacq, haccepts⟩
        rw [hone] at hrest ⊢
        have hok' := hok.of_sameShape (SameShape.refl s) hok.stages fun q hq => List.mem_cons_of_mem p hq
        exact ih o.tail hok' hphase hfits hrest

/-- The level data ends the wait for the level. -/
theorem levelData (blocks : List UInt8) :
    EndsStage .level (.levelData blocks) .levelInitializing .levelInitialized where
  stage := .levelInitializing
  called _ _ h := h
  accepted := by
    rintro φ ⟨k, rfl⟩
    exact ⟨nofun, .level, rfl, rfl⟩

/-- The players of the world end the wait for it. -/
theorem spawnPlayers (records : List SpawnRecord) :
    EndsStage .spawn (.spawnPlayers records) .spawning .spawned where
  stage := .spawning
  called _ _ h := h
  accepted := by
    rintro φ rfl
    exact ⟨nofun, .world, rfl, rfl⟩

end EndsStage

end Callbacks

/-! ## One event -/

/-- The visit of a slot, the level task and the spawn task move streams on. -/
def Event.movesStreams : Event → Bool
  | .tickPlayer .. | .runTask .syncBlock _ _ | .runTask .spawnPlayer _ _ => true
  | _ => false

namespace SentOk

variable {σ : Nat → SentPhase} {s t : Server}

/-- A player that is far enough along is sent what is for its state. -/
theorem selected (ht : TableOk s) (hfits : Fits σ s) {st : State} {p : Nat} {conn : Connection}
    (hp : p ∈ s.selectPlayersFrom st) (hacq : s.tryAcquireOf p = some conn) :
    st ≤ (s.players p).state ∧ (s.players p).state.FitsSent (σ conn.id) := by
  obtain ⟨⟨i, conn', hhas, honline⟩, hle⟩ := (Server.mem_selectPlayersFrom ht).mp hp
  rw [Server.tryAcquireOf_of_hasPlayer ht hhas honline] at hacq
  obtain rfl := Option.some.inj hacq
  have hfit := hfits.player p (ht.player_lt _ _ _ hhas)
  rw [ht.player_owner _ _ _ hhas] at hfit
  exact ⟨hle, hfit⟩

/-- Players from `spawned` on have streams in the world. -/
theorem selected_spawned (ht : TableOk s) (hfits : Fits σ s) {p : Nat} {conn : Connection}
    (hp : p ∈ s.selectPlayersFrom .spawned) (hacq : s.tryAcquireOf p = some conn) : σ conn.id = .world := by
  obtain ⟨hle, hfit⟩ := selected ht hfits hp hacq
  rw [State.spawned_le_iff.mp hle] at hfit
  exact hfit

/-- Block changes are sent to whoever has the level. -/
theorem accepts_blockHistory (ht : TableOk s) (hfits : Fits σ s) (records : List BlockHistoryRecord) {p : Nat}
    {conn : Connection} (hp : p ∈ s.selectPlayersFrom .levelInitialized)
    (hacq : s.tryAcquireOf p = some conn) :
    (ServerPacket.blockHistory records).sentNext (σ conn.id) = some (σ conn.id) := by
  obtain ⟨hle, hfit⟩ := selected ht hfits hp hacq
  cases hs : (s.players p).state with
  | levelInitialized => rw [hs] at hfit; rw [show σ conn.id = .level from hfit]; rfl
  | spawning => rw [hs] at hfit; rw [show σ conn.id = .level from hfit]; rfl
  | spawned => rw [hs] at hfit; rw [show σ conn.id = .world from hfit]; rfl
  | _ => exact absurd (hs ▸ hle) (by decide)

/-- A chat message is passed on by the task, not at once. -/
theorem receive_chat_sent (s : Server) (i : Nat) (data : List UInt8) (isCommand : Bool) (now : Nat)
    (accepted : Bool) (garbage : PlayerTypeId) :
    (s.receivePacket i (.chatMessage data isCommand) now accepted garbage).sent = s.sent := by
  unfold Server.receivePacket
  cases s.connection i with
  | none => rfl
  | some conn =>
      show Server.sent (if _ then _ else _) = _
      split_ifs
      · cases isCommand <;> rfl
      · rfl

/-- What no stage waits for leaves every stream where it is. -/
theorem inPhase_step (ht : TableOk s) (hfits : Fits σ s) (hphase : InPhase σ s) {e : Event}
    (he : e.movesStreams = false) (hstep : s.step e = some t) : InPhase σ t := by
  have hsends := InPhase.sendClosed σ
  have hanswer : ∀ c packet, ServerPacket.isAnswer packet = true → packet.sentNext (σ c) = some (σ c) :=
    fun c _ h => ServerPacket.sentNext_answer (σ c) h
  cases e with
  | accept now =>
      obtain rfl := Option.some.inj hstep
      exact hsends.accept s now hphase
  | cleanup i now =>
      obtain rfl := Option.some.inj hstep
      exact hsends.cleanup s i now hphase
  | receive i packet now accepted garbage =>
      obtain rfl := Option.some.inj hstep
      by_cases hchat : ∃ data, packet = .chatMessage data false
      · obtain ⟨data, rfl⟩ := hchat
        exact hphase.of_sent (receive_chat_sent ..)
      · refine hsends.receive hanswer s i (fun data hdata => hchat ⟨data, hdata⟩) now accepted garbage hphase
  | kick i reason now accepted =>
      obtain rfl := Option.some.inj hstep
      exact hsends.kick hanswer s i reason now accepted hphase
  | receiveError i now =>
      obtain rfl := Option.some.inj hstep
      exact hsends.disconnect s i now hphase
  | tickPlayer i now o => exact absurd he Bool.noConfusion
  | schedule task now posted =>
      obtain rfl := Option.some.inj hstep
      cases task
      all_goals
        simp only [Server.scheduleTask]
        split_ifs
        · exact hphase.of_sent rfl
        · exact hphase
  | runTask task o o' =>
      rw [Server.step] at hstep
      split_ifs at hstep
      obtain rfl := Option.some.inj hstep
      have hworld : ∀ {packet : ServerPacket}, packet.sentNext .world = some .world → ∀ p ∈ s.selectPlayersFrom .spawned,
          ∀ conn, s.tryAcquireOf p = some conn → packet.sentNext (σ conn.id) = some (σ conn.id) := by
        intro packet hpacket p hp conn hacq
        rw [selected_spawned ht hfits hp hacq]
        exact hpacket
      cases task with
      | spawnPlayer => exact absurd he Bool.noConfusion
      | syncBlock => exact absurd he Bool.noConfusion
      | disconnectPlayer =>
          have hrun := hsends.disconnectPlayer s s.world.disconnectPlayerTask.target o
            (fun p hp conn hacq gameIds => hworld rfl p hp conn hacq) hphase
          exact hrun.of_sent rfl
      | syncPlayerPosition =>
          have hrun := hsends.syncPlayerPosition s o (fun p hp conn hacq records => hworld rfl p hp conn hacq) hphase
          exact hrun.of_sent rfl
      | commonChatTransfer =>
          have hrun := hsends.commonChatTransfer s s.world.commonChatTransferTask.commonChatHistory.output o
            (hworld rfl) hphase
          exact hrun.of_sent rfl
  | response p reply now accepted =>
      obtain ⟨request, -, rfl⟩ := Option.map_eq_some_iff.mp hstep
      have herased : InPhase σ { s with requests := s.requests.erase request } := hphase.of_sent rfl
      exact hsends.response hanswer _ request reply now accepted herased
  | load p result now accepted =>
      obtain ⟨pending, -, rfl⟩ := Option.map_eq_some_iff.mp hstep
      have herased : InPhase σ { s with loads := s.loads.erase pending } := hphase.of_sent rfl
      exact hsends.load hanswer _ pending result now accepted herased

/-- A run of the level task. -/
theorem levelRun (ht : TableOk s) (hB : Fits.Base s) (hrefers : s.ReferencesLive) (hphase : InPhase σ s)
    (hfits : Fits σ s) {o o' : Outcomes} (hC : s.CallsMeet Server.EndsOwnStage (.runTask .syncBlock o o')) :
    SentOk (s.runTask .syncBlock o o') := by
  have hquiet := Quiet.syncBlockHistory s s.world.syncBlockTask.blockHistory.output o
  have hblocks := (InPhase.sendClosed σ).syncBlockHistory s s.world.syncBlockTask.blockHistory.output o
    (fun p hp conn hacq => accepts_blockHistory ht hfits _ hp hacq) hphase
  have hok : CallbackOk s.world.syncBlockTask.target s := by
    refine ⟨ht, hB.1.2, hB.2, fun p hp => hrefers p (Server.mem_referencedPlayers.mpr ?_)⟩
    exact Or.inr (Or.inr (WorldPlayerTask.mem_players_of_target hp))
  have hok' := hok.of_sameShape hquiet.sameShape (hB.1.2.kept (.of_quiet hquiet)) fun _ hp => hp
  obtain ⟨σ', hphase', hfits', -⟩ := (EndsStage.levelData _).callbacks .levelInitialized _ o' hok' hblocks
    (hfits.kept (.of_quiet hquiet)) hC
  rw [Server.runTask, Server.syncBlock_eq]
  exact ⟨σ', hphase'.of_sent rfl, hfits'.kept (StatesKept.of_eq rfl rfl rfl rfl)⟩

/-- A run of the spawn task: those it spawns are in the world after it, those that were stay there. -/
theorem spawnRun (ht : TableOk s) (hB : Fits.Base s) (hrefers : s.ReferencesLive) (hphase : InPhase σ s)
    (hfits : Fits σ s) {o o' : Outcomes} (hC : s.CallsMeet Server.EndsOwnStage (.runTask .spawnPlayer o o')) :
    SentOk (s.runTask .spawnPlayer o o') := by
  have hok : CallbackOk s.world.spawnPlayerTask.target s := by
    refine ⟨ht, hB.1.2, hB.2, fun p hp => hrefers p (Server.mem_referencedPlayers.mpr ?_)⟩
    exact Or.inl (WorldPlayerTask.mem_players_of_target hp)
  obtain ⟨σ', hphase', hfits', hworld⟩ := (EndsStage.spawnPlayers _).callbacks .spawned _ o hok hphase hfits hC
  have hshape := fun packet => SameShape.sendAndTransit packet .spawned s.world.spawnPlayerTask.target o s
  have hold := fun records => (InPhase.sendClosed σ').sendPlain (s.selectPlayersFrom .spawned) o' _
    (fun p hp conn hacq => by
      rw [Server.tryAcquireOf_of_sameShape (hshape _)] at hacq
      rw [hworld _ (selected_spawned ht hfits hp hacq)]
      exact (rfl : (ServerPacket.spawnPlayers records).sentNext .world = some .world)) hphase'
  have hquiet := fun packet u => Quiet.sendToPlayers packet Quiet.noCallback (s.selectPlayersFrom .spawned) o' u
  exact ⟨σ', (hold _).of_sent rfl, (hfits'.kept (.of_quiet (hquiet _ _))).kept (StatesKept.of_eq rfl rfl rfl rfl)⟩

/-- The history, the stages and the owners. -/
theorem closedBase : Closed (fun _ => True) Fits.Base Server.EndsOwnStage :=
  ((HistoryOk.closed.inter StagesOk.closed).weaken _).inter (OwnersOk.closed_of_setPlayer fun _ _ _ h => h)

/-- The phases fit after every event that ends neither the wait for the level nor the wait for the world. -/
theorem fits_step (ht : TableOk s) (hB : Fits.Base s) (hfits : Fits σ s) {e : Event}
    (hC : s.CallsMeet Server.EndsOwnStage e) (hlevel : ∀ o o', e ≠ .runTask .syncBlock o o')
    (hspawn : ∀ o o', e ≠ .runTask .spawnPlayer o o') (hstep : s.step e = some t) : Fits σ t := by
  have hclosed : Closed Fits.Base (Fits σ) Fits.SilentStage :=
    Fits.closedStates.closed (fun h => h.1.1) fun _ _ _ h => h
  -- the moves of these two make none of the calls in which the two conditions differ
  have hconnections : ClosedConnections Fits.Base (Fits σ) Server.EndsOwnStage fun _ => True :=
    { hclosed.toClosedConnections with }
  have hlogins : ClosedLogins Fits.Base (Fits σ) Server.EndsOwnStage := { hclosed.toClosedLogins with }
  refine (closedBase.step_over hconnections hclosed.toClosedTick hlogins ⟨ht, hB, hfits⟩ e hC ?_ ?_ ?_ hstep).2.2
  · intro i now conn _ _ _
    exact hfits.kept (StatesKept.of_eq rfl rfl rfl rfl)
  · intro task now posted _
    cases task
    all_goals
      simp only [Server.scheduleTask]
      split_ifs
      · exact hfits.kept (StatesKept.of_eq rfl rfl rfl rfl)
      · exact hfits
  · rintro task o o' rfl hqueued
    cases task with
    | spawnPlayer => exact absurd rfl (hspawn o o')
    | syncBlock => exact absurd rfl (hlevel o o')
    | disconnectPlayer => exact Fits.closedStates.disconnectRun o o' ht hB hqueued trivial hfits
    | syncPlayerPosition =>
        exact hfits.kept (.of_quiet ((Quiet.syncPlayerPosition s o).trans (Quiet.world _ rfl rfl rfl rfl)))
    | commonChatTransfer =>
        exact hfits.kept (.of_quiet ((Quiet.commonChatTransfer s _ o).trans (Quiet.world _ rfl rfl rfl rfl)))

/-- An event whose calls end their own stages. -/
theorem step (hok : SentOk s) (ht : TableOk s) (hB : Fits.Base s) (hrefers : s.ReferencesLive) {e : Event}
    (hC : s.CallsMeet Server.EndsOwnStage e) (hstep : s.step e = some t) : SentOk t := by
  obtain ⟨σ, hphase, hfits⟩ := hok
  by_cases hlevel : ∃ o o', e = .runTask .syncBlock o o'
  · obtain ⟨o, o', rfl⟩ := hlevel
    rw [Server.step] at hstep
    split_ifs at hstep
    obtain rfl := Option.some.inj hstep
    exact levelRun ht hB hrefers hphase hfits hC
  by_cases hspawn : ∃ o o', e = .runTask .spawnPlayer o o'
  · obtain ⟨o, o', rfl⟩ := hspawn
    rw [Server.step] at hstep
    split_ifs at hstep
    obtain rfl := Option.some.inj hstep
    exact spawnRun ht hB hrefers hphase hfits hC
  have hkept : Fits σ t := fits_step ht hB hfits hC (fun o o' he => hlevel ⟨o, o', he⟩)
    (fun o o' he => hspawn ⟨o, o', he⟩) hstep
  cases he : e.movesStreams with
  | false => exact ⟨σ, inPhase_step ht hfits hphase he hstep, hkept⟩
  | true =>
      unfold Event.movesStreams at he
      split at he
      · obtain rfl := Option.some.inj hstep
        exact sentOk_tickPlayer ht hB.2 hphase hfits _ _ _ hkept
      · exact absurd ⟨_, _, rfl⟩ hlevel
      · exact absurd ⟨_, _, rfl⟩ hspawn
      · exact absurd he Bool.false_ne_true

/-- No connection was sent anything. -/
theorem init (maxClients : Nat) (metadata : WorldMetadata) (blockMapping : List UInt8) :
    SentOk (Server.init maxClients metadata blockMapping) :=
  ⟨fun _ => .login 0, fun _ => rfl, fun _ hp => absurd hp (Nat.not_lt_zero _), fun _ _ => rfl⟩

/-- The phases of all streams are known, so the monitor has rejected none. -/
theorem sentOrdered (h : SentOk s) (ht : TableOk s) : s.SentOrdered := by
  obtain ⟨σ, hphase, hfits⟩ := h
  refine ⟨fun c => ?_, fun i conn p hhas => ⟨σ conn.id, hphase conn.id, ?_⟩⟩
  · rw [hphase c]
    rfl
  · rw [← ht.player_owner _ _ _ hhas]
    exact hfits.player p (ht.player_lt _ _ _ hhas)

end SentOk

namespace Server

/-- A player that is only constructed for a connection without one replaces nobody. -/
theorem EndsOwnStage.replacesUnreferenced {s : Server} {e : Event} (h : s.CallsMeet EndsOwnStage e) :
    s.CallsMeet ReplacesUnreferenced e := by
  intro c hc
  have hends := h c hc
  obtain ⟨u, call⟩ := c
  cases call with
  | setPlayer i garbage =>
      intro p hp
      rw [show u.connectionEnv.playerOf i = none from hends] at hp
      cases hp
  | _ => trivial

/-- **The order of acceptance.** After every run in which each stage is ended by the call that it waits for, and no
connection is deleted while a task refers to its player, what each connection accepted is in order, and is
as far as its player. -/
theorem sentOrdered_of_run {maxClients : Nat} {metadata : WorldMetadata} {blockMapping : List UInt8}
    {es : List Event} {s : Server}
    (hrun : run Server.step (Server.init maxClients metadata blockMapping) es = some s)
    (hC : Along Server.step (fun s e => s.CallsMeet EndsOwnStage e ∧ s.DeletesUnreferenced e)
      (Server.init maxClients metadata blockMapping) es) : s.SentOrdered := by
  have h := run_invariant_along
    (P := fun s : Server => (TableOk s ∧ Fits.Base s) ∧ s.ReferencesLive ∧ SentOk s) ?_
    ⟨⟨TableOk.init .., ⟨HistoryOk.init .., StagesOk.init _ _ _⟩, OwnersOk.init ..⟩,
      fun _ hp => absurd hp List.not_mem_nil, SentOk.init ..⟩ hC hrun
  · exact h.2.2.sentOrdered h.1.1
  · rintro s e t ⟨hs, hrefers, hok⟩ ⟨hends, hdeletes⟩ hstep
    have hlive := ReferencesLive.step ⟨hs.1, hrefers⟩ (EndsOwnStage.replacesUnreferenced hends) hdeletes hstep
    exact ⟨SentOk.closedBase.step hs e hends hstep, hlive.2, hok.step hs.1 hs.2 hrefers hends hstep⟩

/-- A guest is greeted, sent the level, shown the world and torn down. -/
theorem sentOrdered_of_run_guestSession :
    ∃ s, run Server.step Server.small guestSession = some s ∧ s.SentOrdered := by
  obtain ⟨s, hs⟩ := Option.isSome_iff_exists.mp
    (show (run Server.step Server.small guestSession).isSome = true by decide)
  exact ⟨s, hs, sentOrdered_of_run hs (by decide)⟩

/-- A guest that waits for the level announces an extension, and counts it down. -/
def lateEntry : List Event :=
  guestLogin 0 ++ [.tickPlayer 0 0 fun _ => true, .receive 0 (.extInfo 1) 1 true 0] ++
  [.receive 0 (.extEntry [] 0) 1 true 0, .tickPlayer 0 2 fun _ => true] ++
  [.schedule .spawnPlayer 3 true, .runTask .spawnPlayer (fun _ => true) fun _ => true]

/-- The entry ends the wait for the level: the guest is shown the world without it. -/
theorem not_sentOrdered_lateEntry :
    ∃ s, run Server.step Server.small lateEntry = some s ∧ ¬ s.SentOrdered := by
  have hrun : ((run Server.step Server.small lateEntry).map fun s => s.sentPhase 0) = some none := by decide
  obtain ⟨s, hs, hnone⟩ := Option.map_eq_some_iff.mp hrun
  refine ⟨s, hs, fun h => ?_⟩
  have haccepted := h.accepted 0
  rw [hnone] at haccepted
  cases haccepted

end Server

end Mmocraft
