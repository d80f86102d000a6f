/-
# Mmocraft.Server.Moves -- what the moves do to players, tasks and history

The projections of the primitive operations, and one case lemma for each move that branches:
`disconnect_cases` for `Connection::disconnect`, `handshake_eq` for the handshake packet,
`teardown_eq` and `admitLoaded_eq` for the two operations that record before they move a player on.
-/
import Mmocraft.Server.Table

namespace Mmocraft

open Mmocraft.Lib Mmocraft.Game Mmocraft.Net

namespace Server

/-! ## Projections -/

section Projections

variable (s : Server) (r : Record) (p q : Nat) (f : Player → Player) (hint cur next : State)

@[simp] theorem record_players : (s.record r).players = s.players := rfl

@[simp] theorem record_world : (s.record r).world = s.world := rfl

@[simp] theorem record_log : (s.record r).log = r :: s.log := rfl

theorem updatePlayer_players : (s.updatePlayer p f).players q =
    if q = p then f (s.players p) else s.players q := Function.update_apply ..

theorem transitState_players : (s.transitState p hint).players q =
    if q = p then (s.players p).transitState else s.players q := Function.update_apply ..

theorem prepareStateTransition_players : (s.prepareStateTransition p cur next).players q =
    if q = p then (s.players p).prepareStateTransition cur next else s.players q :=
  Function.update_apply ..

theorem setPlayer_players (i : Nat) (conn : Connection) (player : Player) :
    (s.setPlayer i conn player).players q = if q = s.numOfPlayers then player else s.players q :=
  Function.update_apply ..

@[simp] theorem updatePlayer_log : (s.updatePlayer p f).log = s.log := rfl

@[simp] theorem transitState_log : (s.transitState p hint).log =
    .state p (s.players p).nextState :: .transit p hint (s.players p).nextState :: s.log := rfl

@[simp] theorem prepareStateTransition_log :
    (s.prepareStateTransition p cur next).log = .state p cur :: s.log := rfl

@[simp] theorem updatePlayer_world : (s.updatePlayer p f).world = s.world := rfl

@[simp] theorem transitState_world : (s.transitState p hint).world = s.world := rfl

@[simp] theorem prepareStateTransition_world :
    (s.prepareStateTransition p cur next).world = s.world := rfl

@[simp] theorem updatePlayer_loads : (s.updatePlayer p f).loads = s.loads := rfl

@[simp] theorem transitState_loads : (s.transitState p hint).loads = s.loads := rfl

@[simp] theorem prepareStateTransition_loads :
    (s.prepareStateTransition p cur next).loads = s.loads := rfl

@[simp] theorem updatePlayer_numOfPlayers : (s.updatePlayer p f).numOfPlayers = s.numOfPlayers := rfl

@[simp] theorem transitState_numOfPlayers :
    (s.transitState p hint).numOfPlayers = s.numOfPlayers := rfl

@[simp] theorem prepareStateTransition_numOfPlayers :
    (s.prepareStateTransition p cur next).numOfPlayers = s.numOfPlayers := rfl

end Projections

/-- A new connection changes the table, the counter and the history only. -/
theorem accept_eq (s : Server) (now : Nat) : s.accept now =
    { s with
      connectionEnv := (s.accept now).connectionEnv
      numOfAccepted := (s.accept now).numOfAccepted
      log := (s.accept now).log } := by
  simp only [Server.accept]
  split_ifs <;> rfl

theorem accept_world (s : Server) (now : Nat) : (s.accept now).world = s.world := by rw [accept_eq]

theorem accept_players (s : Server) (now : Nat) : (s.accept now).players = s.players := by
  rw [accept_eq]

theorem accept_numOfPlayers (s : Server) (now : Nat) :
    (s.accept now).numOfPlayers = s.numOfPlayers := by
  rw [accept_eq]

theorem accept_owner (s : Server) (now : Nat) : (s.accept now).owner = s.owner := by rw [accept_eq]

/-! ## Disconnecting -/

/-- The player that `disconnect` would hand over to the world, for the connection in slot `i`. -/
def handedOver (s : Server) (i : Nat) : Option Nat :=
  (s.connection i).bind fun conn =>
    if conn.isOnline then
      conn.player.filter fun p => State.handshaking ≤ (s.players p).state
    else none

/-- A player from `handshaking` on is handed over, when its connection is online. -/
theorem handedOver_eq_some {s : Server} {i : Nat} {conn : Connection} {p : Nat}
    (hp : s.HasPlayer i conn p) (honline : conn.isOnline = true)
    (hstate : State.handshaking ≤ (s.players p).state) : s.handedOver i = some p := by
  simp [handedOver, hp.1, hp.2, honline, Option.filter_some, hstate]

/-- **What `disconnect` does.** Nothing; or it hands a player from `handshaking` on over to the
world; or the connection goes offline.  In no case is a logout sent: `on_disconnect` wants a player
from `handshaked` on, and such a player is handed over. -/
theorem disconnect_cases (s : Server) (i now : Nat) :
    s.disconnect i now = s ∨
    (∃ conn p, s.HasPlayer i conn p ∧ conn.isOnline = true ∧
      State.handshaking ≤ (s.players p).state ∧
      s.disconnect i now = s.prepareStateTransition p .disconnecting .disconnected) ∨
    (∃ conn, s.connection i = some conn ∧ conn.isOnline = true ∧
      (∀ p, conn.player = some p → ¬ State.handshaking ≤ (s.players p).state) ∧
      s.disconnect i now = s.setOffline i conn now) := by
  unfold Server.disconnect
  cases hconn : s.connection i with
  | none => exact Or.inl rfl
  | some conn =>
      by_cases honline : conn.isOnline = true
      · refine Or.inr ?_
        cases hplayer : conn.player with
        | none =>
            refine Or.inr ⟨conn, rfl, honline, fun p hp => ?_, ?_⟩
            · rw [hplayer] at hp
              cases hp
            · simp [honline, hplayer, Server.onDisconnect]
        | some p =>
            by_cases hstate : State.handshaking ≤ (s.players p).state
            · refine Or.inl ⟨conn, p, ⟨hconn, hplayer⟩, honline, hstate, ?_⟩
              simp [honline, hplayer, Option.filter_some, hstate]
            · have hnot : ¬ State.handshaked ≤ (s.players p).state := fun h =>
                hstate (State.IsLive.handshaking_le h)
              refine Or.inr ⟨conn, rfl, honline, fun q hq => ?_, ?_⟩
              · obtain rfl : p = q := Option.some.inj (hplayer.symm.trans hq)
                exact hstate
              · simp [honline, hplayer, Option.filter_some, hstate, hnot, Server.onDisconnect]
      · exact Or.inl (by simp [honline])

/-! ## The handshake -/

/-- The two state machines a handshake can start: without and with extensions. -/
def IsHandshake (cur next : State) : Prop :=
  (cur = .handshaking ∧ next = .handshaked) ∨ (cur = .exHandshaking ∧ next = .exHandshaked)

instance (cur next : State) : Decidable (IsHandshake cur next) :=
  inferInstanceAs (Decidable (_ ∨ _))

/-- A handshake leaves the player in the handshake. -/
theorem IsHandshake.isHandshaking {cur next : State} (h : IsHandshake cur next) :
    cur.IsHandshaking := h.imp And.left And.left

/-- And not on its way out. -/
theorem IsHandshake.not_leaving {cur next : State} (h : IsHandshake cur next) :
    ¬ cur.IsLeaving ∧ ¬ next.IsLeaving := by
  rcases h with ⟨rfl, rfl⟩ | ⟨rfl, rfl⟩ <;> decide

/-- What `handle_handshake_packet` does: a new player, prepared for the reply to its login. -/
theorem handshake_eq (s : Server) (i : Nat) (conn : Connection) (username password : List UInt8)
    (cpeMagic : UInt8) (garbage : PlayerTypeId) :
    ∃ cur next, IsHandshake cur next ∧
      s.handleHandshakePacket i conn username password cpeMagic garbage =
        { (s.setPlayer i conn (Player.new conn.connectionKey username garbage)).prepareStateTransition
            s.numOfPlayers cur next with
          requests := s.requests ++
            [{ player := s.numOfPlayers, connectionKey := conn.connectionKey, username := username
               password := password }] } := by
  simp only [Server.handleHandshakePacket]
  split_ifs
  · exact ⟨_, _, Or.inr ⟨rfl, rfl⟩, rfl⟩
  · exact ⟨_, _, Or.inl ⟨rfl, rfl⟩, rfl⟩

/-- A new player is prepared, and the players before it are as they were. -/
theorem construct_players (s : Server) (i : Nat) (conn : Connection) (player : Player)
    (cur next : State) (p : Nat) :
    ((s.setPlayer i conn player).prepareStateTransition s.numOfPlayers cur next).players p =
      if p = s.numOfPlayers then player.prepareStateTransition cur next else s.players p := by
  rw [prepareStateTransition_players, setPlayer_players, setPlayer_players, if_pos rfl]
  split_ifs <;> rfl

/-- A handshake makes a new player and leaves the others as they are. -/
theorem handshake_players_of_lt (s : Server) (i : Nat) (conn : Connection)
    (username password : List UInt8) (cpeMagic : UInt8) (garbage : PlayerTypeId) {p : Nat}
    (hp : p < s.numOfPlayers) :
    (s.handleHandshakePacket i conn username password cpeMagic garbage).players p = s.players p := by
  obtain ⟨cur, next, -, heq⟩ := s.handshake_eq i conn username password cpeMagic garbage
  rw [heq]
  exact (s.construct_players i conn _ cur next p).trans (if_neg (Nat.ne_of_lt hp))

/-! ## Saving and loading -/

/-- The records of `PlayerGamedata::save`, newest first. -/
def savedRecords (s : Server) (p : Nat) : List Record :=
  (if (s.players p).isSupportGamedataSaving then
    [.document p (s.players p).playerType (s.players p).uuid (s.players p).gamedata] else []) ++
  [.saveCalled p]

/-- Saving only adds to the history. -/
theorem savePlayerGamedata_eq (s : Server) (p : Nat) :
    s.savePlayerGamedata p = { s with log := s.savedRecords p ++ s.log } := by
  unfold Server.savePlayerGamedata Server.savedRecords
  show (if _ then _ else _ : Server) = _
  split_ifs <;> rfl

/-- The gamedata that the end of a load leaves. -/
def loadedGamedata (player : Player) : LoadResult → Player
  | .document gamedata => player.setGamedata gamedata
  | _ => player

/-- Loaded data are not about the standing of a player. -/
theorem sameStanding_loadedGamedata (player : Player) (result : LoadResult) :
    player.SameStanding (loadedGamedata player result) := by
  cases result <;> exact ⟨rfl, rfl, rfl, rfl, rfl⟩

theorem admitLoaded_eq (s : Server) (p : Nat) (load : GamedataLoad) (result : LoadResult) :
    s.admitLoaded p load result =
      (((s.updatePlayer p (loadedGamedata · result)).record (.loaded p load result)).record
        (.authenticated p load.request load.reply)).transitState p := by
  have hself : s.updatePlayer p (fun player => player) = s := by
    simp only [Server.updatePlayer, Function.update_eq_self]
  cases result with
  | document gamedata => rfl
  | documentNotFound => exact (congrArg (fun s : Server => ((s.record _).record _).transitState p)
      hself).symm
  | error => exact (congrArg (fun s : Server => ((s.record _).record _).transitState p) hself).symm

end Server

end Mmocraft
