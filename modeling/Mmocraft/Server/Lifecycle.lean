/-
# Mmocraft.Server.Lifecycle -- the life cycle of the players of a connection

The states of the players of a connection, in the order in which they were entered, should form a path
from a handshake to `disconnected`.  Every stage moves along an edge of that graph; what leaves it is a
second handshake, which starts over on the same connection, and a transition that is made when its
stage has ended, which enters the same state again.

The order is proved from two sides. `PathOk` says that the states that were entered so far, newest first, are
a path of the life cycle that ends in the state of the player; for that, each preparation and each transition
has to be an edge, which is what the stages (`StagesOk`) say of the states in which they are made. And
`OwnersOk` says that a connection has one player in its whole life, so that the path of the connection is that
of the player; a second handshake breaks exactly this.

`lifecycleProgress` grows along every edge, so no state is entered twice and the path is finite.
-/
import Mmocraft.Server.ConnectionTable
import Mmocraft.Server.Stages

namespace Mmocraft

open Mmocraft.Lib Mmocraft.Game Mmocraft.Net

/-! ## Paths of the life cycle

The graph has an edge for each move that a player may make, and each edge increases the progress. So a path
enters no state twice, and whatever is said about the order of states follows from being a path.
-/

/-- The edges of the life cycle. A player leaves from any state from `handshaking` on, and then only to its
end. -/
inductive LifecycleEdge : State → State → Prop
  | answered : LifecycleEdge .handshaking .handshaked
  | exAnswered : LifecycleEdge .exHandshaking .exHandshaked
  | syncing : LifecycleEdge .exHandshaked .extensionSyncing
  | synced : LifecycleEdge .extensionSyncing .extensionSynced
  | level : LifecycleEdge .handshaked .levelInitializing
  | levelSynced : LifecycleEdge .extensionSynced .levelInitializing
  | levelSent : LifecycleEdge .levelInitializing .levelInitialized
  | spawn : LifecycleEdge .levelInitialized .spawning
  | spawnSent : LifecycleEdge .spawning .spawned
  | leave {st : State} : State.handshaking ≤ st → LifecycleEdge st .disconnecting
  | left : LifecycleEdge .disconnecting .disconnected

/-- The end of a stage is the next state of the life cycle. -/
theorem IsStage.edge {cur next : State} (h : IsStage cur next) : LifecycleEdge cur next := by
  cases h <;> constructor

/-- So is the beginning of one in the tick. -/
theorem TickPrepares.edge {st cur next : State} (h : TickPrepares st cur next) :
    LifecycleEdge st cur := by
  cases h <;> constructor

/-- How far a state is along the life cycle. -/
def lifecycleProgress : State → Nat
  | .handshaking | .exHandshaking => 1
  | .handshaked | .exHandshaked => 2
  | .extensionSyncing => 3
  | .extensionSynced => 4
  | .levelInitializing => 5
  | .levelInitialized => 6
  | .spawning => 7
  | .spawned => 8
  | .disconnecting => 9
  | .disconnected => 10
  | .invaild | .initialized => 0

/-- Every edge leads on. -/
theorem LifecycleEdge.progress_lt {cur next : State} (h : LifecycleEdge cur next) :
    lifecycleProgress cur < lifecycleProgress next := by
  cases h with
  | leave hle => revert hle; cases cur <;> decide
  | _ => decide

/-- The states of a list, the newest first, form a path that starts with a handshake. -/
structure IsLifecyclePath (states : List State) : Prop where
  edges : states.IsChain fun newer older => LifecycleEdge older newer
  start : ∀ st ∈ states.getLast?, st.IsHandshaking

namespace IsLifecyclePath

theorem nil : IsLifecyclePath [] := ⟨List.IsChain.nil, fun _ h => nomatch h⟩

theorem singleton {st : State} (h : st.IsHandshaking) : IsLifecyclePath [st] :=
  ⟨List.IsChain.singleton _, fun _ hst => Option.some.inj hst ▸ h⟩

theorem cons {cur next : State} {rest : List State} (h : IsLifecyclePath (cur :: rest))
    (hedge : LifecycleEdge cur next) : IsLifecyclePath (next :: cur :: rest) :=
  ⟨List.isChain_cons_cons.mpr ⟨hedge, h.edges⟩, by rw [List.getLast?_cons_cons]; exact h.start⟩

/-- Along a path the progress grows. -/
theorem pairwise {states : List State} (h : IsLifecyclePath states) :
    states.Pairwise fun newer older => lifecycleProgress older < lifecycleProgress newer := by
  have : IsTrans State fun newer older => lifecycleProgress older < lifecycleProgress newer :=
    ⟨fun _ _ _ hab hbc => Nat.lt_trans hbc hab⟩
  exact (h.edges.imp fun _ _ hedge => hedge.progress_lt).pairwise

end IsLifecyclePath

/-- **Life cycle.** The states form a path of the graph; no state is entered twice, and after
`disconnecting` comes only `disconnected`. -/
structure LifecycleConforms (states : List State) : Prop where
  path : IsLifecyclePath states
  once : states.Nodup
  final : ∀ newer older, states = newer ++ .disconnecting :: older →
    ∀ st ∈ newer, st = .disconnected

theorem IsLifecyclePath.conforms {states : List State} (h : IsLifecyclePath states) :
    LifecycleConforms states := by
  refine ⟨h, ?_, ?_⟩
  · exact h.pairwise.imp fun hlt heq => by rw [heq] at hlt; exact Nat.lt_irrefl _ hlt
  · rintro newer older rfl st hst
    have hlt := (List.pairwise_append.mp h.pairwise).2.2 st hst _ List.mem_cons_self
    revert hlt
    cases st <;> decide

namespace Server

/-- The state that a record tells of a player of connection `c`. -/
def stateOf (owner : Nat → Nat) (c : Nat) : Record → Option State
  | .state p st => if owner p = c then some st else none
  | _ => none

/-- The states that players of connection `c` entered, the newest first. -/
def statesOf (s : Server) (c : Nat) : List State := s.log.filterMap (stateOf s.owner c)

/-- The calls keep to the life cycle: a player is only constructed for a connection without one, a
transition leads to another state, and the disconnect task finds each player once, still
disconnecting. -/
def KeepsLifecycle (s : Server) : Call → Prop
  | .setPlayer i _ => s.connectionEnv.playerOf i = none
  | .transit p _ => (s.players p).state ≠ (s.players p).nextState
  | .disconnectPlayer players => ∀ p ∈ players, (s.tryAcquireOf p).isSome = true →
      (s.players p).state = .disconnecting ∧ players.count p = 1
  | _ => True

instance (s : Server) : (call : Call) → Decidable (s.KeepsLifecycle call)
  | .setPlayer i _ => inferInstanceAs (Decidable (s.connectionEnv.playerOf i = none))
  | .transit p _ => inferInstanceAs (Decidable ((s.players p).state ≠ (s.players p).nextState))
  | .disconnectPlayer players =>
      inferInstanceAs (Decidable (∀ p ∈ players, (s.tryAcquireOf p).isSome = true →
        (s.players p).state = .disconnecting ∧ players.count p = 1))
  | .disconnect _ | .setIdentity .. => isTrue trivial

end Server

/-! ## One player for each connection

The states of a connection are those of all its players. As long as a connection that has a player is given
no second one, these are the states of a single player.
-/

/-- Each connection has one player, which it keeps. No connection was ever given a second one, and as long
as a connection is there its player is. -/
structure OwnersOk (s : Server) : Prop where
  owner_lt : ∀ p < s.numOfPlayers, s.owner p < s.numOfAccepted
  owner_inj : ∀ p < s.numOfPlayers, ∀ q < s.numOfPlayers, s.owner p = s.owner q → p = q
  kept : ∀ i conn, s.connection i = some conn → ∀ p < s.numOfPlayers, s.owner p = conn.id →
    conn.player = some p

namespace OwnersOk

variable {s t : Server}

/-- The connections of `t` are connections of `s` with their players, or new ones. -/
theorem of_connections (h : OwnersOk s) (hnum : t.numOfPlayers = s.numOfPlayers)
    (howner : t.owner = s.owner) (haccepted : s.numOfAccepted ≤ t.numOfAccepted)
    (hconnection : ∀ j c, t.connection j = some c → s.numOfAccepted ≤ c.id ∨
      ∃ d, s.connection j = some d ∧ c.id = d.id ∧ c.player = d.player) : OwnersOk t := by
  refine ⟨?_, ?_, ?_⟩
  · rw [hnum, howner]
    exact fun p hp => Nat.lt_of_lt_of_le (h.owner_lt p hp) haccepted
  · rw [hnum, howner]
    exact h.owner_inj
  · rw [hnum, howner]
    intro j c hc p hp hown
    rcases hconnection j c hc with hnew | ⟨d, hd, hid, hplayer⟩
    · have := h.owner_lt p hp
      omega
    · rw [hplayer]
      exact h.kept j d hd p hp (hown.trans hid)

/-- Who owns which player is part of the shape of the table. -/
theorem of_sameShape (h : OwnersOk s) (hst : SameShape s t) : OwnersOk t := by
  refine h.of_connections hst.numOfPlayers hst.owner hst.numOfAccepted.ge fun j c hc => ?_
  rw [Server.connection, hst.connectionEnv] at hc
  exact Or.inr ⟨c, hc, rfl, rfl⟩

theorem of_rfl (h : OwnersOk s) (henv : t.connectionEnv = s.connectionEnv)
    (haccepted : t.numOfAccepted = s.numOfAccepted) (hnum : t.numOfPlayers = s.numOfPlayers)
    (howner : t.owner = s.owner) (hplayers : t.players = s.players) : OwnersOk t :=
  h.of_sameShape (SameShape.of_rfl henv haccepted hnum howner hplayers)

/-- One connection changes and keeps its identity and its player. -/
theorem of_replace (h : OwnersOk s) (hnum : t.numOfPlayers = s.numOfPlayers)
    (howner : t.owner = s.owner) (haccepted : t.numOfAccepted = s.numOfAccepted) {i : Nat}
    {conn conn' : Connection} (hreplace : ReplacesConnection s t i conn conn')
    (hid : conn'.id = conn.id) (hplayer : conn'.player = conn.player) : OwnersOk t := by
  refine h.of_connections hnum howner haccepted.ge fun j c hc => Or.inr ?_
  rcases hreplace.cases hc with ⟨rfl, rfl⟩ | ⟨-, hc⟩
  · exact ⟨conn, hreplace.before, hid, hplayer⟩
  · exact ⟨c, hc, rfl, rfl⟩

/-- A connection without a player never had one. -/
theorem owner_ne (h : OwnersOk s) {i : Nat} {conn : Connection} (hconn : s.connection i = some conn)
    (hnone : conn.player = none) : ∀ p < s.numOfPlayers, s.owner p ≠ conn.id := by
  intro p hp hown
  have hkept := h.kept i conn hconn p hp hown
  rw [hnone] at hkept
  cases hkept

/-- A connection without a player gets its only one. -/
theorem setPlayer (h : OwnersOk s) (ht : TableOk s) {i : Nat} {conn : Connection}
    (hconn : s.connection i = some conn) (hnone : conn.player = none) (player : Player) :
    OwnersOk (s.setPlayer i conn player) := by
  have hfree := h.owner_ne hconn hnone
  have howner : ∀ q, (s.setPlayer i conn player).owner q =
      if q = s.numOfPlayers then conn.id else s.owner q := Function.update_apply s.owner _ _
  refine ⟨fun p hp => ?_, fun p hp q hq heq => ?_, fun j c hc p hp hown => ?_⟩
  · rw [howner]
    split_ifs with hnew
    · exact ht.id_lt i conn hconn
    · exact h.owner_lt p (Nat.lt_of_le_of_ne (Nat.le_of_lt_succ hp) hnew)
  · rw [howner, howner] at heq
    have hlt : ∀ r, r < s.numOfPlayers + 1 → r ≠ s.numOfPlayers → r < s.numOfPlayers :=
      fun r hr hne => Nat.lt_of_le_of_ne (Nat.le_of_lt_succ hr) hne
    split_ifs at heq with hpnew hqnew hqnew
    · rw [hpnew, hqnew]
    · exact absurd heq.symm (hfree q (hlt q hq hqnew))
    · exact absurd heq (hfree p (hlt p hp hpnew))
    · exact h.owner_inj p (hlt p hp hpnew) q (hlt q hq hqnew) heq
  · rw [howner] at hown
    rcases (ReplacesConnection.setPlayer hconn player).cases hc with ⟨rfl, rfl⟩ | ⟨hj, hc⟩
    · split_ifs at hown with hnew
      · rw [hnew]
      · exact absurd hown (hfree p (Nat.lt_of_le_of_ne (Nat.le_of_lt_succ hp) hnew))
    · split_ifs at hown with hnew
      · exact absurd (ht.id_inj j i c conn hc hconn hown.symm) hj
      · exact h.kept j c hc p (Nat.lt_of_le_of_ne (Nat.le_of_lt_succ hp) hnew) hown

/-- A connection that goes offline keeps its player, and gets no other. -/
theorem disconnect (h : OwnersOk s) (ht : TableOk s) (i now : Nat) : OwnersOk (s.disconnect i now) := by
  rcases s.disconnect_cases i now with heq | ⟨conn, p, -, -, -, heq⟩ | ⟨conn, hconn, -, -, heq⟩
  · rw [heq]
    exact h
  · rw [heq]
    exact h.of_sameShape (SameShape.prepareStateTransition s p _ _)
  · rw [heq]
    exact h.of_replace rfl rfl rfl (ReplacesConnection.setOffline ht hconn now) rfl rfl

/-- A new connection is the owner of nobody. -/
theorem accept (h : OwnersOk s) (ht : TableOk s) (now : Nat) : OwnersOk (s.accept now) := by
  rcases AddsConnection.accept ht now with heq | ⟨i, hadds⟩
  · rw [heq]
    exact h
  · have haccepted : s.numOfAccepted ≤ (s.accept now).numOfAccepted := by
      unfold Server.accept
      show _ ≤ (if _ then _ else _ : Server).numOfAccepted
      split_ifs
      · exact Nat.le_refl _
      · exact Nat.le_succ _
    refine h.of_connections (s.accept_numOfPlayers now) (s.accept_owner now) haccepted fun j c hc => ?_
    by_cases hj : j = i
    · subst hj
      obtain rfl := Option.some.inj (hc.symm.trans hadds.after)
      exact Or.inl (Nat.le_refl _)
    · exact Or.inr ⟨c, (hadds.others j hj).symm.trans hc, rfl, rfl⟩

/-- All that matters is that no player is replaced. -/
theorem closed_of_setPlayer {B : Server → Prop} {C : Server → Server.Call → Prop}
    (hreplaces : ∀ s i garbage, C s (.setPlayer i garbage) → s.connectionEnv.playerOf i = none) :
    Closed B OwnersOk C where
  quiet _ _ hq h := h.of_sameShape hq.sameShape
  interact now _ _ _ hconn h := h.of_replace rfl rfl rfl (ReplacesConnection.interact hconn now) rfl rfl
  accept now _ ht _ h := h.accept ht now
  delete ht _ hconn _ h := h.of_connections rfl rfl (Nat.le_refl _) fun j c hc =>
    Or.inr ⟨c, Server.of_delete_connection ht hconn hc, rfl, rfl⟩
  disconnect i now _ ht _ _ h := h.disconnect ht i now
  handshake := by
    intro s i conn username password cpeMagic garbage ht _ hconn honline hC h
    have hnone : conn.player = none := by
      cases hp : conn.player with
      | none => rfl
      | some p =>
          have hfree := hreplaces s i _ hC
          rw [ht.playerOf_eq ⟨hconn, hp⟩ honline] at hfree
          cases hfree
    obtain ⟨cur, next, -, heq⟩ := s.handshake_eq i conn username password cpeMagic garbage
    rw [heq]
    have hset := h.setPlayer ht hconn hnone (Player.new conn.connectionKey username garbage)
    have hprepared := hset.of_sameShape (SameShape.prepareStateTransition _ s.numOfPlayers cur next)
    exact hprepared.of_rfl rfl rfl rfl rfl rfl
  extEntry _ _ _ _ _ h := h.of_sameShape (SameShape.transitState _ _ _)
  syncing _ _ _ _ _ h := h.of_sameShape (SameShape.prepareStateTransition _ _ _ _)
  levelWait _ _ _ _ _ h := h.of_sameShape
    ((SameShape.prepareStateTransition _ _ _ _).trans (SameShape.of_rfl rfl rfl rfl rfl rfl))
  spawnWait _ _ _ _ _ h := h.of_sameShape
    ((SameShape.prepareStateTransition _ _ _ _).trans (SameShape.of_rfl rfl rfl rfl rfl rfl))
  pushDisconnect _ _ _ _ _ h := h.of_rfl rfl rfl rfl rfl rfl
  scheduleSpawn _ _ _ _ _ h := h.of_rfl rfl rfl rfl rfl rfl
  scheduleDisconnect _ _ _ _ _ h := h.of_rfl rfl rfl rfl rfl rfl
  scheduleLevel _ _ _ _ _ h := h.of_rfl rfl rfl rfl rfl rfl
  levelCallback _ _ _ _ _ h := h.of_sameShape (SameShape.transitState _ _ _)
  spawnCallback _ _ _ _ _ h := h.of_sameShape (SameShape.transitState _ _ _)
  finishLevel _ _ h := h.of_rfl rfl rfl rfl rfl rfl
  finishSpawn _ _ h := h.of_rfl rfl rfl rfl rfl rfl
  disconnectRun := by
    intro s o o' _ _ _ _ h
    have hrun := h.of_sameShape (SameShape.disconnectPlayer s s.world.disconnectPlayerTask.target o)
    exact hrun.of_rfl rfl rfl rfl rfl rfl
  respond _ _ _ _ h := h.of_rfl rfl rfl rfl rfl rfl
  setIdentity _ _ _ _ _ _ _ _ h := h.of_sameShape (SameShape.setIdentity _ _ _)
  guest _ _ _ _ _ _ _ _ h := h.of_sameShape (SameShape.admitGuest _ _ _ _)
  addLoad _ _ _ _ h := h.of_rfl rfl rfl rfl rfl rfl
  takeLoad _ _ _ h := h.of_rfl rfl rfl rfl rfl rfl
  loaded := by
    intro s i conn p load result _ _ _ _ _ _ _ _ h
    have herased : OwnersOk { s with loads := s.loads.erase load } := h.of_rfl rfl rfl rfl rfl rfl
    exact herased.of_sameShape (SameShape.admitLoaded _ p load result)

/-- One connection, one player: where a handshake finds no player. -/
theorem closed {B : Server → Prop} : Closed B OwnersOk Server.KeepsLifecycle :=
  closed_of_setPlayer fun _ _ _ h => h

theorem init (maxClients : Nat) (metadata : WorldMetadata) (blockMapping : List UInt8) :
    OwnersOk (Server.init maxClients metadata blockMapping) where
  owner_lt _ hp := nomatch hp
  owner_inj _ hp := nomatch hp
  kept _ _ hconn := nomatch hconn

end OwnersOk

/-! ## The states of a connection

The states of a connection, the newest first, with the current state of its player at the head: a move has
to be an edge from there.
-/

namespace Server

variable {s t : Server}

/-- No state is entered where the states are kept. -/
theorem statesOf_kept (h : StatesKept s t) (c : Nat) : t.statesOf c = s.statesOf c := by
  obtain ⟨rs, hlog, hnone⟩ := h.log
  have hsilent : rs.filterMap (stateOf s.owner c) = [] := by
    apply List.filterMap_eq_nil_iff.mpr
    intro r hr
    cases r with
    | state p st => exact absurd trivial (hnone _ hr)
    | _ => rfl
  rw [statesOf, statesOf, h.owner, hlog, List.filterMap_append, hsilent, List.nil_append]

/-- A preparation enters its state, for the connection of its player. -/
theorem statesOf_prepareStateTransition (p c : Nat) (cur next : State) :
    (s.prepareStateTransition p cur next).statesOf c =
      if s.owner p = c then cur :: s.statesOf c else s.statesOf c := by
  show (Record.state p cur :: s.log).filterMap (stateOf s.owner c) = _
  split_ifs with hown
  · exact List.filterMap_cons_some (if_pos hown)
  · exact List.filterMap_cons_none (if_neg hown)

/-- A transition enters the prepared state, for the connection of its player. -/
theorem statesOf_transitState (p c : Nat) (hint : State) :
    (s.transitState p hint).statesOf c =
      if s.owner p = c then (s.players p).nextState :: s.statesOf c else s.statesOf c := by
  show (Record.state p (s.players p).nextState :: Record.transit p hint (s.players p).nextState ::
    s.log).filterMap (stateOf s.owner c) = _
  split_ifs with hown
  · exact List.filterMap_cons_some (if_pos hown)
  · exact List.filterMap_cons_none (if_neg hown)

/-- The construction of a player tells nothing about the states before. -/
theorem statesOf_setPlayer (h : HistoryOk s) (i : Nat) (conn : Connection) (player : Player) (c : Nat) :
    (s.setPlayer i conn player).statesOf c = s.statesOf c := by
  have hlog : (s.setPlayer i conn player).log = s.log := rfl
  rw [statesOf, statesOf, hlog]
  refine List.filterMap_congr fun r hr => ?_
  cases r with
  | state p st =>
      have hlt := h.about_lt _ hr p rfl
      have howner : (s.setPlayer i conn player).owner p = s.owner p :=
        Function.update_of_ne (Nat.ne_of_lt hlt) _ _
      rw [stateOf, stateOf, howner]
  | _ => rfl

end Server

/-- The states of every connection form a path, whose newest state is that of its player. -/
structure PathOk (s : Server) : Prop where
  path : ∀ c, IsLifecyclePath (s.statesOf c)
  newest : ∀ p < s.numOfPlayers, (s.statesOf (s.owner p)).head? = some (s.players p).state
  unowned : ∀ c, (∀ p < s.numOfPlayers, s.owner p ≠ c) → s.statesOf c = []

namespace PathOk

variable {s t : Server}

theorem kept (h : PathOk s) (hst : StatesKept s t) : PathOk t where
  path c := Server.statesOf_kept hst c ▸ h.path c
  newest p hp := by
    rw [hst.owner, Server.statesOf_kept hst, h.newest p (hst.numOfPlayers ▸ hp)]
    exact congrArg (fun st => some st.state) (hst.states p).symm
  unowned c hc := by
    rw [Server.statesOf_kept hst]
    exact h.unowned c (by rwa [hst.numOfPlayers, hst.owner] at hc)

/-- A player moves along an edge. -/
theorem move (h : PathOk s) (ho : OwnersOk s) {p : Nat} (hp : p < s.numOfPlayers) {st : State}
    (hedge : LifecycleEdge (s.players p).state st) (hnum : t.numOfPlayers = s.numOfPlayers)
    (howner : t.owner = s.owner)
    (hplayers : ∀ q, (t.players q).state = if q = p then st else (s.players q).state)
    (hstates : ∀ c, t.statesOf c = if s.owner p = c then st :: s.statesOf c else s.statesOf c) :
    PathOk t := by
  refine ⟨fun c => ?_, fun q hq => ?_, fun c hc => ?_⟩
  · rw [hstates]
    split_ifs with hown
    · -- the newest state on the path is the one that the player leaves
      obtain ⟨rest, hrest⟩ := List.head?_eq_some_iff.mp (h.newest p hp)
      have hpath := h.path c
      rw [← hown, hrest] at hpath ⊢
      exact hpath.cons hedge
    · exact h.path c
  · rw [hnum] at hq
    rw [hplayers, hstates, howner]
    split_ifs with hown hqp hqp
    · rfl
    · exact absurd (ho.owner_inj p hp q hq hown).symm hqp
    · exact absurd (congrArg s.owner hqp).symm hown
    · exact h.newest q hq
  · rw [hnum, howner] at hc
    rw [hstates, if_neg (hc p hp)]
    exact h.unowned c hc

/-- An edge of the tick extends the path. -/
theorem prepare (h : PathOk s) (ho : OwnersOk s) {p : Nat} (hp : p < s.numOfPlayers) {cur next : State}
    (hedge : LifecycleEdge (s.players p).state cur) : PathOk (s.prepareStateTransition p cur next) := by
  refine h.move ho hp hedge rfl rfl (fun q => ?_) fun c => Server.statesOf_prepareStateTransition p c ..
  rw [Server.prepareStateTransition_players]
  split_ifs <;> rfl

/-- A stage ends, after changes that keep the states. -/
theorem transitState (h : PathOk s) (ho : OwnersOk s) {p : Nat} (hp : p < s.numOfPlayers)
    (hedge : LifecycleEdge (s.players p).state (s.players p).nextState) (hst : StatesKept s t)
    (hint : State) : PathOk (t.transitState p hint) := by
  refine h.move ho hp hedge hst.numOfPlayers hst.owner (fun q => ?_) fun c => ?_
  · rw [Server.transitState_players]
    split_ifs
    · exact congrArg PlayerState.nextState (hst.states p)
    · exact congrArg PlayerState.state (hst.states q)
  · rw [Server.statesOf_transitState, Server.statesOf_kept hst, hst.owner,
      congrArg PlayerState.nextState (hst.states p)]

/-- The first state of a connection is a handshaking one. -/
theorem construct (h : PathOk s) (hh : HistoryOk s) (ho : OwnersOk s) {i : Nat} {conn : Connection}
    (hconn : s.connection i = some conn) (hnone : conn.player = none) (player : Player)
    {cur next : State} (hstart : cur.IsHandshaking) :
    PathOk ((s.setPlayer i conn player).prepareStateTransition s.numOfPlayers cur next) := by
  have hfree := ho.owner_ne hconn hnone
  have hself : (s.setPlayer i conn player).owner s.numOfPlayers = conn.id := Function.update_self ..
  have hother : ∀ p, p < s.numOfPlayers → (s.setPlayer i conn player).owner p = s.owner p :=
    fun p hp => Function.update_of_ne (Nat.ne_of_lt hp) _ _
  have hstates : ∀ c, ((s.setPlayer i conn player).prepareStateTransition s.numOfPlayers cur
      next).statesOf c = if conn.id = c then [cur] else s.statesOf c := by
    intro c
    rw [Server.statesOf_prepareStateTransition, hself, Server.statesOf_setPlayer hh]
    split_ifs with hc
    · rw [h.unowned c fun p hp => hc ▸ hfree p hp]
    · rfl
  refine ⟨fun c => ?_, fun p hp => ?_, fun c hc => ?_⟩
  · rw [hstates]
    split_ifs
    · exact .singleton hstart
    · exact h.path c
  · show (Server.statesOf _ ((s.setPlayer i conn player).owner p)).head? = _
    rw [hstates, Server.construct_players]
    by_cases hnew : p = s.numOfPlayers
    · rw [if_pos hnew, hnew, hself, if_pos rfl]
      rfl
    · have hlt := Nat.lt_of_le_of_ne (Nat.le_of_lt_succ hp) hnew
      rw [if_neg hnew, hother p hlt, if_neg (hfree p hlt).symm]
      exact h.newest p hlt
  · have hne : conn.id ≠ c := hself ▸ hc s.numOfPlayers (Nat.lt_succ_self _)
    rw [hstates, if_neg hne]
    exact h.unowned c fun p hp => hother p hp ▸ hc p (Nat.lt_succ_of_lt hp)

/-- The players that are still to be torn down: what is reached is disconnecting, and reached once. -/
structure Remaining (ps : List Nat) (u : Server) : Prop where
  tornDown : ∀ p ∈ ps, p < u.numOfPlayers ∧ (u.players p).nextState = .disconnected
  reached : ∀ p ∈ ps, (u.tryAcquireOf p).isSome = true →
    (u.players p).state = .disconnecting ∧ ps.count p = 1

/-- A player that is not reached waits for a later run. -/
theorem Remaining.skip {u : Server} {p : Nat} {ps : List Nat} (h : Remaining (p :: ps) u)
    (hnone : u.tryAcquireOf p = none) : Remaining ps u := by
  refine ⟨fun q hq => h.tornDown q (List.mem_cons_of_mem p hq), fun q hq hacq => ?_⟩
  have hqp : p ≠ q := by
    rintro rfl
    rw [hnone] at hacq
    cases hacq
  rw [← List.count_cons_of_ne hqp]
  exact h.reached q (List.mem_cons_of_mem p hq) hacq

/-- A player that is reached is torn down, and the list has one less. -/
theorem Remaining.round {u : Server} {p : Nat} {ps : List Nat} (h : Remaining (p :: ps) u)
    (hsome : (u.tryAcquireOf p).isSome = true) :
    Remaining ps ((u.savePlayerGamedata p).transitState p .disconnected) := by
  have hshape := (SameShape.savePlayerGamedata u p).trans (SameShape.transitState _ p .disconnected)
  have hkept := StatesKept.savePlayerGamedata u p
  have hcount := (h.reached p List.mem_cons_self hsome).2
  rw [List.count_cons_self] at hcount
  -- the players after `p` are other players, whose states stay
  have hne : ∀ q ∈ ps, q ≠ p := by
    rintro q hq rfl
    exact List.count_eq_zero.mp (Nat.succ.inj hcount) hq
  have hstates : ∀ q ∈ ps, (((u.savePlayerGamedata p).transitState p .disconnected).players
      q).toPlayerState = (u.players q).toPlayerState := by
    intro q hq
    rw [Server.transitState_players, if_neg (hne q hq)]
    exact hkept.states q
  refine ⟨fun q hq => ?_, fun q hq hacq => ?_⟩
  · obtain ⟨hlt, hnext⟩ := h.tornDown q (List.mem_cons_of_mem p hq)
    exact ⟨hshape.numOfPlayers ▸ hlt, (congrArg PlayerState.nextState (hstates q hq)).trans hnext⟩
  · have hacq' : (u.tryAcquireOf q).isSome = true := by
      rwa [Server.tryAcquireOf, Server.tryAcquireConnection, hshape.connectionEnv,
        hshape.connectionKey] at hacq
    obtain ⟨hstate, hone⟩ := h.reached q (List.mem_cons_of_mem p hq) hacq'
    rw [List.count_cons_of_ne (hne q hq).symm] at hone
    exact ⟨(congrArg PlayerState.state (hstates q hq)).trans hstate, hone⟩

/-- The disconnect task moves each of its players along one edge. -/
theorem disconnectRun (h : PathOk s) (hh : HistoryOk s) (ho : OwnersOk s) (ht : TableOk s)
    (hC : s.KeepsLifecycle (.disconnectPlayer s.world.disconnectPlayerTask.target)) (o o' : Outcomes) :
    PathOk (s.runTask .disconnectPlayer o o') := by
  -- what is left of the list stays disconnecting until its own round
  refine Closed.disconnectRun_of_rounds
    (Q := fun ps u => Remaining ps u ∧ OwnersOk u ∧ PathOk u) ?_ ?_ ?_ ht ?_ o o'
  · rintro u p ps hnone ⟨hrest, hothers⟩
    exact ⟨hrest.skip hnone, hothers⟩
  · rintro u conn p ps - hacq ⟨hrest, howners, hpath⟩
    have hshape := (SameShape.savePlayerGamedata u p).trans (SameShape.transitState _ p .disconnected)
    have hsome : (u.tryAcquireOf p).isSome = true := by rw [hacq]; rfl
    obtain ⟨hlt, hnext⟩ := hrest.tornDown p List.mem_cons_self
    refine ⟨hrest.round hsome, howners.of_sameShape hshape, ?_⟩
    apply hpath.transitState howners hlt ?_ (StatesKept.savePlayerGamedata u p)
    rw [(hrest.reached p List.mem_cons_self hsome).1, hnext]
    exact .left
  · exact fun h => h.2.2.kept (StatesKept.of_eq rfl rfl rfl rfl)
  · intro ds u _ hq
    have hkept := (StatesKept.despawned s ds).trans (StatesKept.of_quiet hq)
    refine ⟨⟨fun p hp => ?_, fun p hp hacq => ?_⟩, ?_, h.kept hkept⟩
    · obtain ⟨hlt, htorn⟩ := hh.disconnect_tornDown p (WorldPlayerTask.mem_players_of_target hp)
      exact ⟨hkept.numOfPlayers ▸ hlt, (congrArg PlayerState.nextState (hkept.states p)).trans htorn.2⟩
    · rw [hq.tryAcquireOf] at hacq
      obtain ⟨hstate, hone⟩ := hC p hp hacq
      exact ⟨(congrArg PlayerState.state (hkept.states p)).trans hstate, hone⟩
    · have hlogged : OwnersOk { s with log := ds.map .despawned ++ s.log } := ho.of_rfl rfl rfl rfl rfl rfl
      exact hlogged.of_sameShape hq.sameShape

theorem closedStates : ClosedStates (fun s => (HistoryOk s ∧ StagesOk s) ∧ OwnersOk s) PathOk
    Server.KeepsLifecycle where
  kept h hst := h.kept hst
  construct := by
    intro s i conn cur next garbage player ht hB hconn honline hstart hC h
    have hnone : conn.player = none := by
      cases hp : conn.player with
      | none => rfl
      | some p =>
          rw [Server.KeepsLifecycle, ht.playerOf_eq ⟨hconn, hp⟩ honline] at hC
          simp at hC
    exact h.construct hB.1.1 hB.2 hconn hnone player hstart.isHandshaking
  handOver ht hB hp _ hstate _ h := h.prepare hB.2 (ht.player_lt _ _ _ hp) (.leave hstate)
  prepare ht hB hp _ hprepares h := h.prepare hB.2 (ht.player_lt _ _ _ hp) hprepares.edge
  transit := by
    intro s u p cause ht hB hp hC hst h
    have hstage : IsStage (s.players p).state (s.players p).nextState := by
      rcases hB.1.2 p hp with hstage | ⟨heq, -⟩
      · exact hstage
      · exact absurd heq hC
    exact h.transitState hB.2 hp hstage.edge hst _
  disconnectRun o o' ht hB _ hC h := h.disconnectRun hB.1.1 hB.2 ht hC o o'

theorem init (maxClients : Nat) (metadata : WorldMetadata) (blockMapping : List UInt8) :
    PathOk (Server.init maxClients metadata blockMapping) where
  path _ := .nil
  newest _ hp := nomatch hp
  unowned _ _ := rfl

end PathOk

namespace Server

/-- **Life cycle.** In every state reached by a run whose calls keep to the life cycle, the states entered
by the players of a connection conform to it. That covers all players of a connection: with one player for
each connection, their states are those of one player, and each move goes on along the graph. -/
theorem lifecycleConforms_of_run {maxClients : Nat} {metadata : WorldMetadata}
    {blockMapping : List UInt8} {es : List Event} {s : Server}
    (hrun : run Server.step (Server.init maxClients metadata blockMapping) es = some s)
    (hC : Along Server.step (Server.CallsMeet Server.KeepsLifecycle)
      (Server.init maxClients metadata blockMapping) es) (c : Nat) :
    LifecycleConforms (s.statesOf c) := by
  have hstages := (HistoryOk.closed.inter StagesOk.closed).weaken KeepsLifecycle
  have hpaths := PathOk.closedStates.closed (fun h => h.1.1) fun _ _ _ h => h
  obtain ⟨-, -, h⟩ := ((hstages.inter OwnersOk.closed).inter hpaths).run
    ⟨TableOk.init .., ⟨⟨HistoryOk.init .., StagesOk.init _ _ _⟩, OwnersOk.init ..⟩, PathOk.init ..⟩ hC
    hrun
  exact (h.path c).conforms

/-- The states of a guest, from its handshake to its teardown. -/
theorem lifecycleConforms_of_run_guestSession :
    ∃ s, run Server.step Server.small guestSession = some s ∧ LifecycleConforms (s.statesOf 0) := by
  obtain ⟨s, hs⟩ := Option.isSome_iff_exists.mp
    (show (run Server.step Server.small guestSession).isSome = true by decide)
  exact ⟨s, hs, lifecycleConforms_of_run hs (by decide) 0⟩

/-- A client that is logged in sends a second handshake. -/
def secondHandshake : List Event := guestLogin 0 ++ [.receive 0 (.handshake [97] [] 0) 1 true 0]

/-- The connection goes from `handshaked` back to `handshaking`. -/
theorem not_lifecycleConforms_secondHandshake :
    ∃ s, run Server.step Server.small secondHandshake = some s ∧
      ¬ LifecycleConforms (s.statesOf 0) := by
  have hrun : ((run Server.step Server.small secondHandshake).map fun s => s.statesOf 0) =
      some [.handshaking, .handshaked, .handshaking] := by decide
  obtain ⟨s, hs, hstates⟩ := Option.map_eq_some_iff.mp hrun
  refine ⟨s, hs, fun h => ?_⟩
  have honce := h.once
  rw [hstates] at honce
  exact absurd honce (by decide)

end Server

end Mmocraft
