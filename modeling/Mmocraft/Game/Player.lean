/-
# Mmocraft.Game.Player -- the player and its state machine

`PlayerState` keeps three states: the previous one, the current one and the one that the next call
of `transit_state` moves to.  `Player` adds what the handlers and the world tasks read and write.
Asserts are compiled out, as in a release build, so the hint of `transit_state` has no effect.

The states have an order, by which the code compares them, and three classes that most conditions speak of:
still in the handshake, live, and leaving. What a player is besides its states is kept in fields that the
transitions do not touch, which is what `SameStanding` is for.
-/
import Mathlib.Order.Basic
import Mmocraft.Game.PlayerPosition
import Mmocraft.Lib.MachineInt
import Mmocraft.Net.ConnectionKey
import Mmocraft.Net.Packet

namespace Mmocraft.Game

open Mmocraft.Lib Mmocraft.Net

/-! ## States -/

/-- `PlayerState::State`, in the order of the source, which the code compares by. -/
inductive State where
  | invaild
  | disconnecting
  | disconnected
  | initialized
  | handshaking
  | exHandshaking
  | handshaked
  | exHandshaked
  | extensionSyncing
  | extensionSynced
  | levelInitializing
  | levelInitialized
  | spawning
  | spawned
  deriving DecidableEq, Repr, Inhabited

namespace State

/-- The value of the enumerator. -/
def rank : State → Nat
  | invaild => 0
  | disconnecting => 1
  | disconnected => 2
  | initialized => 3
  | handshaking => 4
  | exHandshaking => 5
  | handshaked => 6
  | exHandshaked => 7
  | extensionSyncing => 8
  | extensionSynced => 9
  | levelInitializing => 10
  | levelInitialized => 11
  | spawning => 12
  | spawned => 13

theorem rank_injective : Function.Injective rank := by
  intro a b h
  cases a <;> cases b <;> first | rfl | exact absurd h (by decide)

instance : LinearOrder State := LinearOrder.lift' rank rank_injective

/-- The states of a player whose login was answered and who is not being torn down. -/
def IsLive (st : State) : Prop := handshaked ≤ st

/-- The states of a player that is being torn down or is torn down. -/
def IsLeaving (st : State) : Prop := st = disconnecting ∨ st = disconnected

/-- The states in which the reply of the login server is awaited. -/
def IsHandshaking (st : State) : Prop := st = handshaking ∨ st = exHandshaking

instance (st : State) : Decidable st.IsHandshaking :=
  inferInstanceAs (Decidable (st = handshaking ∨ st = exHandshaking))

instance (st : State) : Decidable st.IsLive := inferInstanceAs (Decidable (handshaked ≤ st))

instance (st : State) : Decidable st.IsLeaving :=
  inferInstanceAs (Decidable (st = disconnecting ∨ st = disconnected))

theorem IsLeaving.not_live {st : State} (h : st.IsLeaving) : ¬ st.IsLive := by
  rcases h with rfl | rfl <;> decide

theorem IsLeaving.not_handshaking {st : State} (h : st.IsLeaving) : ¬ st.IsHandshaking := by
  rcases h with rfl | rfl <;> decide

theorem IsHandshaking.not_live {st : State} (h : st.IsHandshaking) : ¬ st.IsLive := by
  rcases h with rfl | rfl <;> decide

theorem IsLive.handshaking_le {st : State} (h : st.IsLive) : handshaking ≤ st :=
  le_trans (by decide) h

/-- Nothing comes after `spawned`. -/
theorem spawned_le_iff {st : State} : spawned ≤ st ↔ st = spawned := by
  cases st <;> decide

end State

/-- `PlayerState`: `_prev`, `_cur` and `_next`. -/
structure PlayerState where
  prevState : State := .initialized
  state : State := .initialized
  nextState : State := .initialized
  deriving DecidableEq, Repr

namespace PlayerState

/-- `transit_state`: the hint is only compared in an assert. -/
def transitState (st : PlayerState) : PlayerState :=
  { st with prevState := st.state, state := st.nextState }

/-- `prepare_state_transition`. -/
def prepareStateTransition (st : PlayerState) (cur next : State) : PlayerState :=
  { prevState := st.state, state := cur, nextState := next }

/-- The player is being torn down: it can only become disconnected. -/
def IsTornDown (st : PlayerState) : Prop := st.state.IsLeaving ∧ st.nextState = .disconnected

/-- The player is being torn down, or on its way to something else. -/
def IsSound (st : PlayerState) : Prop :=
  st.IsTornDown ∨ (¬ st.state.IsLeaving ∧ ¬ st.nextState.IsLeaving)

theorem IsTornDown.transitState {st : PlayerState} (h : st.IsTornDown) :
    st.transitState.IsTornDown := ⟨Or.inr h.2, h.2⟩

theorem IsSound.transitState {st : PlayerState} (h : st.IsSound) : st.transitState.IsSound := by
  rcases h with htorn | ⟨-, hnext⟩
  · exact Or.inl htorn.transitState
  · exact Or.inr ⟨hnext, hnext⟩

/-- Only a torn down player is leaving. -/
theorem IsSound.tornDown {st : PlayerState} (h : st.IsSound) (hleaving : st.state.IsLeaving) :
    st.IsTornDown := by
  rcases h with htorn | ⟨hnot, -⟩
  · exact htorn
  · exact absurd hleaving hnot

end PlayerState

/-! ## Players -/

/-- `player_type_id`; values outside the enumeration can arrive from the login server. -/
abbrev PlayerTypeId := Int

namespace PlayerTypeId

def invalid : PlayerTypeId := 0
def guest : PlayerTypeId := 1
def authenticatedUser : PlayerTypeId := 2
def admin : PlayerTypeId := 3

end PlayerTypeId

/-- `database::collection::PlayerGamedata`. -/
structure PlayerGamedata where
  latestPos : PlayerPosition := default
  spawnPos : PlayerPosition := default
  level : BitVec 32 := 0
  exp : BitVec 32 := 0
  deriving DecidableEq, Repr, Inhabited

/-- `Player`. -/
structure Player extends PlayerState where
  connectionKey : ConnectionKey
  playerType : PlayerTypeId
  /-- The characters of `_username`, without the terminator that `string_copy` writes. -/
  usernameBuf : List UInt8
  gamedata : PlayerGamedata := default
  uuid : List UInt8 := []
  pendingExtensionCount : BitVec 32 := 0
  supportedExtensions : BitVec 64 := 0
  lastTransferredPos : PlayerPosition := default
  lastTransferredPosTmp : PlayerPosition := default
  lastPingTime : Nat := 0
  deriving DecidableEq, Repr

namespace Player

/-- The constructor.  `string_copy` keeps the first 16 characters; `_player_type` is not
initialized, `garbage` is what it holds. -/
def new (connectionKey : ConnectionKey) (username : List UInt8) (garbage : PlayerTypeId) : Player :=
  { connectionKey := connectionKey, playerType := garbage, usernameBuf := username.take 16 }

/-- `username()`, read as the C string it is. -/
def username (p : Player) : List UInt8 := p.usernameBuf.takeWhile (· ≠ 0)

/-- `game_id()`: the low byte of the connection index. -/
def gameId (p : Player) : UInt8 := UInt8.ofNat p.connectionKey.index

def transitState (p : Player) : Player := { p with toPlayerState := p.toPlayerState.transitState }

def prepareStateTransition (p : Player) (cur next : State) : Player :=
  { p with toPlayerState := p.toPlayerState.prepareStateTransition cur next }

def setPlayerType (p : Player) (type : PlayerTypeId) : Player := { p with playerType := type }

def setUuid (p : Player) (uuid : List UInt8) : Player := { p with uuid := uuid }

def setGamedata (p : Player) (gamedata : PlayerGamedata) : Player := { p with gamedata := gamedata }

def lastPosition (p : Player) : PlayerPosition := p.gamedata.latestPos

def spawnPosition (p : Player) : PlayerPosition := p.gamedata.spawnPos

def setPosition (p : Player) (pos : PlayerPosition) : Player :=
  { p with gamedata := { p.gamedata with latestPos := pos } }

/-- `set_spawn_coordinate` with `force = false`. -/
def setSpawnCoordinate (p : Player) (x y z : Int) : Player :=
  if p.spawnPosition.rawCoordinate = 0 then
    { p with gamedata := { p.gamedata with
        spawnPos := p.spawnPosition.setRawCoordinate (x * 32) (y * 32 + 51) (z * 32) } }
  else p

/-- `set_spawn_orientation` with `force = false`. -/
def setSpawnOrientation (p : Player) (yaw pitch : Nat) : Player :=
  if p.spawnPosition.rawOrientation = 0 then
    { p with gamedata := { p.gamedata with spawnPos := p.spawnPosition.setRawOrientation yaw pitch } }
  else p

def updateLastTransferredPosition (p : Player) (pos : PlayerPosition) : Player :=
  { p with lastTransferredPosTmp := pos }

def commitLastTransferredPosition (p : Player) : Player :=
  { p with lastTransferredPos := p.lastTransferredPosTmp }

def updatePingTime (p : Player) (now : Nat) : Player := { p with lastPingTime := now }

/-- `set_extension_count`: the `Short` of the packet converts to `unsigned`. -/
def setExtensionCount (p : Player) (count : BitVec 16) : Player :=
  { p with pendingExtensionCount := count.signExtend 32 }

def decreasePendingExtensionCount (p : Player) : Player :=
  { p with pendingExtensionCount := p.pendingExtensionCount - 1 }

def registerExtension (p : Player) (ext : UInt8) : Player :=
  { p with supportedExtensions := p.supportedExtensions ||| (1 <<< ext.toNat) }

/-- `is_support_gamedata_saving`. -/
def isSupportGamedataSaving (p : Player) : Bool :=
  PlayerTypeId.authenticatedUser ≤ p.playerType ∨
    (State.handshaked ≤ p.state ∨ State.handshaked ≤ p.prevState)

section Projections

variable (p : Player) (cur next : State)

@[simp] theorem transitState_state : p.transitState.state = p.nextState := rfl

@[simp] theorem transitState_prevState : p.transitState.prevState = p.state := rfl

@[simp] theorem transitState_nextState : p.transitState.nextState = p.nextState := rfl

@[simp] theorem prepareStateTransition_state : (p.prepareStateTransition cur next).state = cur := rfl

@[simp] theorem prepareStateTransition_prevState :
    (p.prepareStateTransition cur next).prevState = p.state := rfl

@[simp] theorem prepareStateTransition_nextState :
    (p.prepareStateTransition cur next).nextState = next := rfl

end Projections

/-! ## Updates that leave the state machine and the identity alone -/

/-- `q` is `p` after updates of other data: same states, same connection, same identity. -/
structure SameStanding (p q : Player) : Prop where
  toPlayerState : q.toPlayerState = p.toPlayerState
  connectionKey : q.connectionKey = p.connectionKey
  playerType : q.playerType = p.playerType
  usernameBuf : q.usernameBuf = p.usernameBuf
  uuid : q.uuid = p.uuid

namespace SameStanding

variable {p q r : Player}

theorem refl (p : Player) : SameStanding p p := ⟨rfl, rfl, rfl, rfl, rfl⟩

theorem trans (hpq : SameStanding p q) (hqr : SameStanding q r) : SameStanding p r :=
  ⟨hqr.1.trans hpq.1, hqr.2.trans hpq.2, hqr.3.trans hpq.3, hqr.4.trans hpq.4, hqr.5.trans hpq.5⟩

theorem state (h : SameStanding p q) : q.state = p.state := congrArg _ h.toPlayerState

theorem prevState (h : SameStanding p q) : q.prevState = p.prevState :=
  congrArg PlayerState.prevState h.toPlayerState

theorem nextState (h : SameStanding p q) : q.nextState = p.nextState :=
  congrArg PlayerState.nextState h.toPlayerState

end SameStanding

theorem sameStanding_setSpawnCoordinate (p : Player) (x y z : Int) :
    SameStanding p (p.setSpawnCoordinate x y z) := by
  unfold setSpawnCoordinate
  split_ifs
  · exact ⟨rfl, rfl, rfl, rfl, rfl⟩
  · exact SameStanding.refl p

theorem sameStanding_setSpawnOrientation (p : Player) (yaw pitch : Nat) :
    SameStanding p (p.setSpawnOrientation yaw pitch) := by
  unfold setSpawnOrientation
  split_ifs
  · exact ⟨rfl, rfl, rfl, rfl, rfl⟩
  · exact SameStanding.refl p

end Player

end Mmocraft.Game
