/-
# Mmocraft.Server.PositionView -- where the clients see the players

`sync_player_position` sends differences to the position that was transferred last, one for all
clients, and a spawn packet tells a client the latest position of a player.  A client that was told
a position between two syncs adds the next difference to another base than it was taken from; so
does every client after the first spawn of a player, of which nothing was transferred yet.

`ClientView` replays the packets of one client, and its result is compared with the positions on the server.
The condition is about the server alone: `shown` keeps which positions spawn packets told since the last sync,
and `ContinuesShown` asks of each of them that the next record is absolute, or a difference to that position.

The condition and the agreement are equivalent for whole runs and not for each sync alone: after a sync that
went wrong the views are no longer those that `PositionsOk` says. Every send is accepted here, and whoever is
in the world stays in it; that the ids of the players differ is asked for, and holds of a table of up to 256
slots.
-/
import Mmocraft.Lib.Updates
import Mmocraft.Server.History
import Mmocraft.Server.Sending

namespace Mmocraft

open Mmocraft.Lib Mmocraft.Game Mmocraft.Net

/-! ## What a client makes of its packets -/

namespace Net.ClientView

/-- A client's reading of a packet. -/
def receive (view : ClientView) : ServerPacket → ClientView
  | .spawnPlayers records =>
      records.foldl (fun view r => Function.update view r.gameId (some r.position)) view
  | .despawnPlayers gameIds => gameIds.foldl (fun view id => Function.update view id none) view
  | .playerPositions records =>
      records.foldl (fun view r => Function.update view r.gameId ((view r.gameId).map r.apply)) view
  | _ => view

/-- The positions a client obtains by replaying what it was sent. -/
def replay (packets : List ServerPacket) : ClientView := packets.foldl receive fun _ => none

theorem replay_append (packets more : List ServerPacket) :
    replay (packets ++ more) = more.foldl receive (replay packets) := List.foldl_append

/-- A client that was sent one more packet. -/
theorem replay_append_replicate_one (packets : List ServerPacket) (packet : ServerPacket) :
    replay (packets ++ List.replicate 1 packet) = receive (replay packets) packet :=
  replay_append packets [packet]

/-- Spawn records tell the positions of the players they are of. -/
theorem receive_spawnPlayers (view : ClientView) (players : Nat → Player) {ps : List Nat} {q : Nat}
    (hids : ∀ p ∈ ps, (players p).gameId = (players q).gameId → p = q) :
    view.receive (.spawnPlayers (ps.map fun p => spawnRecord (players p))) (players q).gameId =
      if q ∈ ps then some (spawnPacketPosition (players q)) else view (players q).gameId := by
  have hfold : view.receive (.spawnPlayers (ps.map fun p => spawnRecord (players p))) =
      updateAll (fun p => (players p).gameId)
        (fun p _ => some (spawnPacketPosition (players p))) view ps := by
    rw [receive, List.foldl_map]
    rfl
  rw [hfold, updateAll_apply _ view hids, iterate_const]
  simp only [List.count_eq_zero, ite_not]

/-- Position records move the positions of the players they are of. -/
theorem receive_playerPositions (view : ClientView) (players : Nat → Player) {ps : List Nat} {q : Nat}
    (hids : ∀ p ∈ ps, (players p).gameId = (players q).gameId → p = q) :
    view.receive (.playerPositions (ps.filterMap fun p => positionRecord (players p)))
        (players q).gameId =
      (Option.map (movedPosition (players q)))^[ps.count q] (view (players q).gameId) := by
  have hfold : view.receive (.playerPositions (ps.filterMap fun p => positionRecord (players p))) =
      updateAll (fun p => (players p).gameId)
        (fun p => Option.map (movedPosition (players p))) view ps := by
    rw [receive, List.foldl_filterMap, updateAll]
    congr 1
    funext view p
    cases hr : positionRecord (players p) with
    | none =>
        have hmoved : movedPosition (players p) = id := by
          funext base
          rw [movedPosition, hr]
          rfl
        rw [hmoved, Option.map_id, id, Function.update_eq_self]
    | some r =>
        have hmoved : movedPosition (players p) = r.apply := by
          funext base
          rw [movedPosition, hr]
        rw [hmoved, ← positionRecord_gameId hr]
  rw [hfold, updateAll_apply _ view hids]

end Net.ClientView

/-! ## Runs of position steps -/

/-- The steps that the positions of the clients depend on.  Every send is accepted. -/
inductive PositionEvent where
  | setPosition (p : Nat) (position : PlayerPosition)
  | spawnPlayer (spawnWaitPlayers : List Nat)
  | syncPlayerPosition
  deriving Repr

/-- Every send is accepted. -/
def Outcomes.accepted : Outcomes := fun _ => true

/-- The server, and for two players the position that the first one was last shown of the second by
a spawn packet, if it was since the last sync. -/
structure PositionRun where
  server : Server
  shown : Nat → Nat → Option PlayerPosition := fun _ _ => none

namespace PositionRun

/-- The players in the world. -/
def worldPlayers (c : PositionRun) : List Nat := c.server.selectPlayersFrom .spawned

/-- What is shown once `spawn_player` ran. -/
def showSpawned (c : PositionRun) (ps : List Nat) : Nat → Nat → Option PlayerPosition := fun v p =>
  if (v ∈ ps ∧ (p ∈ c.worldPlayers ∨ p ∈ ps)) ∨ (v ∈ c.worldPlayers ∧ p ∈ ps) then
    some (spawnPacketPosition (c.server.players p))
  else c.shown v p

/-- The functions of the source, with the record of what was shown. -/
def step (c : PositionRun) : PositionEvent → Option PositionRun
  | .setPosition p position =>
      some { c with server := c.server.updatePlayer p (·.setPosition position) }
  | .spawnPlayer ps =>
      some { server := c.server.spawnPlayer ps .accepted .accepted, shown := c.showSpawned ps }
  | .syncPlayerPosition => some { server := c.server.syncPlayerPosition .accepted }

/-- The differences that a sync sends for the player are too far for a relative record. -/
def MovesFar (player : Player) : Prop :=
  isFarMove (player.lastPosition - player.lastTransferredPos) = true

instance (player : Player) : Decidable (MovesFar player) :=
  inferInstanceAs (Decidable (isFarMove (player.lastPosition - player.lastTransferredPos) = true))

/-- The players to spawn are attached, wait for it and have a position; the `z` differences in
relative records fit a byte. -/
def IsProper (c : PositionRun) : PositionEvent → Prop
  | .setPosition _ _ => True
  | .spawnPlayer ps => ps.Nodup ∧ ∀ p ∈ ps, p ∈ c.server.selectPlayersFrom .spawning ∧
      (c.server.players p).state = .spawning ∧ (c.server.players p).nextState = .spawned ∧
      (c.server.players p).lastPosition.raw ≠ 0
  | .syncPlayerPosition => ∀ p ∈ c.worldPlayers, ¬ MovesFar (c.server.players p) →
      FitsByte ((c.server.players p).lastPosition - (c.server.players p).lastTransferredPos).z

/-- **Position view agreement.** Whoever is in the world obtains the latest position of every other
player in the world by replaying what it was sent. -/
def ViewsRight (s : Server) : Prop :=
  ∀ v ∈ s.selectPlayersFrom .spawned, ∀ p ∈ s.selectPlayersFrom .spawned, v ≠ p →
    ∀ conn ∈ s.tryAcquireOf v, ClientView.replay (s.sent conn.id) (s.players p).gameId =
      some (s.players p).lastPosition

/-- The views are right after a sync. -/
def AgreesAfter (c : PositionRun) : PositionEvent → Prop
  | .syncPlayerPosition => ViewsRight (c.server.syncPlayerPosition .accepted)
  | _ => True

/-- Every position that was shown since the last sync and is still moved by relative records is the
one that was last transferred. -/
def ContinuesShown (c : PositionRun) : PositionEvent → Prop
  | .syncPlayerPosition => ∀ v ∈ c.worldPlayers, ∀ p ∈ c.worldPlayers, v ≠ p →
      ∀ position ∈ c.shown v p,
        MovesFar (c.server.players p) ∨ ContinuesFrom (c.server.players p) position
  | _ => True

instance (c : PositionRun) (e : PositionEvent) : Decidable (c.IsProper e) := by
  unfold IsProper
  split <;> infer_instance

instance (s : Server) : Decidable (ViewsRight s) := by
  unfold ViewsRight
  infer_instance

instance (c : PositionRun) (e : PositionEvent) : Decidable (c.AgreesAfter e) := by
  unfold AgreesAfter
  split <;> infer_instance

instance (c : PositionRun) (e : PositionEvent) : Decidable (c.ContinuesShown e) := by
  unfold ContinuesShown
  split <;> infer_instance

end PositionRun

/-! ## What a sync does -/

namespace Server

/-- No two attached players share a game id. -/
def DistinctGameIds (s : Server) : Prop :=
  ∀ p q, s.Attached p → s.Attached q → (s.players p).gameId = (s.players q).gameId → p = q

/-- `game_id` is one byte: with 256 slots or fewer it tells the players of the table apart. -/
theorem gameId_injective {s : Server} (ht : TableOk s)
    (hslots : s.connectionEnv.numOfMaxConnections ≤ 256) {i j p q : Nat} {conn conn' : Connection}
    (hp : s.HasPlayer i conn p) (hq : s.HasPlayer j conn' q)
    (hids : (s.players p).gameId = (s.players q).gameId) : p = q := by
  have hlt : ∀ {k d r}, s.HasPlayer k d r → k < 256 := fun hr =>
    Nat.lt_of_lt_of_le (ht.used_lt _ ((ht.used_iff _).mpr (by rw [hr.1]; rfl))) hslots
  rw [Player.gameId, Player.gameId, ht.player_key _ _ _ hp, ht.player_key _ _ _ hq,
    ht.key_index _ _ hp.1, ht.key_index _ _ hq.1] at hids
  have hij : i = j := by
    have htoNat := congrArg UInt8.toNat hids
    simpa only [UInt8.toNat_ofNat', Nat.mod_eq_of_lt (hlt hp), Nat.mod_eq_of_lt (hlt hq)] using htoNat
  subst hij
  obtain rfl := Option.some.inj (hp.1.symm.trans hq.1)
  exact Option.some.inj (hp.2.symm.trans hq.2)

/-- With 256 slots or fewer the game ids are distinct. -/
theorem distinctGameIds {s : Server} (ht : TableOk s)
    (hslots : s.connectionEnv.numOfMaxConnections ≤ 256) : s.DistinctGameIds := by
  rintro p q ⟨i, conn, hp, -⟩ ⟨j, conn', hq, -⟩ hids
  exact gameId_injective ht hslots hp hq hids

/-- Ids do not change. -/
theorem DistinctGameIds.of_sameShape {s t : Server} (h : s.DistinctGameIds) (hst : SameShape s t) :
    t.DistinctGameIds := by
  intro p q hp hq hids
  rw [Player.gameId, Player.gameId, hst.connectionKey, hst.connectionKey] at hids
  exact h p q ((attached_of_env hst.connectionEnv p).mp hp)
    ((attached_of_env hst.connectionEnv q).mp hq) hids

/-- Changing the players of a list one after the other. -/
theorem foldl_updatePlayer (f : Player → Player) (ps : List Nat) (s : Server) :
    ps.foldl (fun s p => s.updatePlayer p f) s =
      { s with players := updateAll id (fun _ => f) s.players ps } := by
  induction ps generalizing s with
  | nil => rfl
  | cons p ps ih =>
      rw [List.foldl_cons, ih]
      rfl

/-- What `serialize` leaves of a player. -/
def rememberedPosition (player : Player) : Player :=
  player.updateLastTransferredPosition player.lastPosition

/-- The callback of the sync, by how often a player is listed. -/
theorem rememberPosition_players (s : Server) (ps : List Nat) (p : Nat) :
    (ps.foldl rememberPosition s).players p = rememberedPosition^[ps.count p] (s.players p) := by
  rw [show ps.foldl rememberPosition s = _ from foldl_updatePlayer rememberedPosition ps s]
  exact updateAll_apply (κ := Nat) (fun _ => rememberedPosition) s.players fun _ _ heq => heq

/-- It sends nothing. -/
theorem rememberPosition_sent (s : Server) (ps : List Nat) :
    (ps.foldl rememberPosition s).sent = s.sent := by
  rw [show ps.foldl rememberPosition s = _ from foldl_updatePlayer rememberedPosition ps s]

/-- And leaves the table alone. -/
theorem sameShape_rememberPosition (s : Server) (ps : List Nat) :
    SameShape s (ps.foldl rememberPosition s) :=
  SameShape.foldl (fun s p => SameShape.updatePlayer s p rfl) ps s

/-- Every player of the world is in it once. -/
theorem count_world {s : Server} (ht : TableOk s) {p : Nat} (hp : p ∈ s.selectPlayersFrom .spawned) :
    (s.selectPlayersFrom .spawned).count p = 1 := by
  obtain ⟨hattached, hstate⟩ := (mem_selectPlayersFrom ht).mp hp
  rw [count_selectPlayersFrom ht hattached, if_pos hstate]

/-- It is applied to each player in the world once. -/
theorem rememberPosition_world {s : Server} (ht : TableOk s) (p : Nat) :
    ((s.selectPlayersFrom .spawned).foldl rememberPosition s).players p =
      if p ∈ s.selectPlayersFrom .spawned then rememberedPosition (s.players p) else s.players p := by
  rw [rememberPosition_players, iterate_count_of_nodup _ fun hp => count_world ht hp]

end Server

open Server

/-- What a sync does to the positions, and what the clients in the world make of what it sends. -/
structure SyncsPositions (s t : Server) : Prop where
  shape : SameShape s t
  states : ∀ p, (t.players p).toPlayerState = (s.players p).toPlayerState
  lastPosition : ∀ p, (t.players p).lastPosition = (s.players p).lastPosition
  transferred : ∀ p ∈ s.selectPlayersFrom .spawned,
    (t.players p).lastTransferredPos = (s.players p).lastPosition
  views : ∀ v ∈ s.selectPlayersFrom .spawned, ∀ i conn, s.HasPlayer i conn v → conn.isOnline = true →
    ∀ p ∈ s.selectPlayersFrom .spawned,
      ClientView.replay (t.sent conn.id) (s.players p).gameId =
        (ClientView.replay (s.sent conn.id) (s.players p).gameId).map (movedPosition (s.players p))

namespace SyncsPositions

/-- A sync that sends nothing, as nobody moved. -/
theorem of_unmoved {s : Server} (ht : TableOk s)
    (hunmoved : ∀ p ∈ s.selectPlayersFrom .spawned, positionRecord (s.players p) = none) :
    SyncsPositions s ((s.selectPlayersFrom .spawned).foldl rememberPosition s) := by
  have hplayers := rememberPosition_world ht
  refine ⟨sameShape_rememberPosition s _, fun p => ?_, fun p => ?_, fun p hp => ?_,
    fun v _ i conn _ _ p hp => ?_⟩
  · rw [hplayers]
    split_ifs <;> rfl
  · rw [hplayers]
    split_ifs <;> rfl
  · rw [hplayers, if_pos hp]
    exact (lastPosition_eq_of_none (hunmoved p hp)).symm
  · have hmoved : movedPosition (s.players p) = id := by
      funext base
      rw [movedPosition, hunmoved p hp]
      rfl
    rw [rememberPosition_sent, hmoved, Option.map_id, id]

/-- A sync that sends records: the players that are reached commit what they were recorded with. -/
theorem of_sent {s t : Server} (ht : TableOk s) (hids : s.DistinctGameIds)
    (heq : t = sendToPlayers
      (.playerPositions ((s.selectPlayersFrom .spawned).filterMap fun p => positionRecord (s.players p)))
      (fun s p => s.updatePlayer p Player.commitLastTransferredPosition) (s.selectPlayersFrom .spawned)
      .accepted ((s.selectPlayersFrom .spawned).foldl rememberPosition s)) :
    SyncsPositions s t := by
  set world := s.selectPlayersFrom .spawned with hworld
  have hattached : ∀ p ∈ world, s.Attached p := fun p hp => ((mem_selectPlayersFrom ht).mp hp).1
  have hcount : ∀ p ∈ world, world.count p = 1 := fun p hp => count_world ht hp
  have hkeys : ∀ q ∈ world, ∀ p ∈ world, (s.players p).gameId = (s.players q).gameId → p = q :=
    fun q hq p hp heq => hids p q (hattached p hp) (hattached q hq) heq
  have hshape := sameShape_rememberPosition s world
  have hcommit : ∀ (s : Server) p,
      SameShape s (s.updatePlayer p Player.commitLastTransferredPosition) :=
    fun s p => SameShape.updatePlayer s p rfl
  have haccepted : ∀ k, Outcomes.accepted k = true := fun _ => rfl
  have hafter : ∀ p, t.players p = if p ∈ world then
      (rememberedPosition (s.players p)).commitLastTransferredPosition else s.players p := by
    intro p
    rw [heq, sendToPlayers_players _ hcommit fun _ _ => rfl,
      reached_congr (tryAcquireOf_of_sameShape hshape), reached_eq_self haccepted hattached ht,
      iterate_count_of_nodup _ (hcount p), rememberPosition_world ht]
    split_ifs <;> rfl
  refine ⟨?_, fun p => ?_, fun p => ?_, fun p hp => ?_, fun v hv i conn hhas honline p hp => ?_⟩
  · rw [heq]
    exact hshape.trans (sendToPlayers_rel SameShape.refl SameShape.trans
      (fun s conn => SameShape.send s conn _ true) hcommit _ _ _)
  · rw [hafter]
    split_ifs <;> rfl
  · rw [hafter]
    split_ifs <;> rfl
  · rw [hafter, if_pos hp]
    rfl
  · -- the records come once, to every connection of a player in the world
    have howned : ∀ q ∈ world, ∃ j d, (world.foldl rememberPosition s).HasPlayer j d q := by
      intro q hq
      obtain ⟨j, d, hhas, -⟩ := (attached_of_env hshape.connectionEnv q).mpr (hattached q hq)
      exact ⟨j, d, hhas⟩
    have hhas' : (world.foldl rememberPosition s).HasPlayer i conn v := by
      rw [HasPlayer, Server.connection, hshape.connectionEnv]
      exact hhas
    rw [heq, sendToPlayers_sent_of_accepts (ht.of_sameShape hshape) _ _ hcommit (fun _ _ => rfl) hhas'
      honline howned haccepted, rememberPosition_sent, hcount v hv,
      ClientView.replay_append_replicate_one, ClientView.receive_playerPositions _ _ (hkeys p hp),
      hcount p hp]
    rfl

/-- A sync either sends the records or has none to send. -/
theorem syncPlayerPosition {s : Server} (ht : TableOk s) (hids : s.DistinctGameIds) :
    SyncsPositions s (s.syncPlayerPosition .accepted) := by
  by_cases hempty :
      ((s.selectPlayersFrom .spawned).filterMap fun p => positionRecord (s.players p)).isEmpty = true
  · have heq : s.syncPlayerPosition .accepted =
        (s.selectPlayersFrom .spawned).foldl rememberPosition s := if_pos hempty
    rw [heq]
    exact of_unmoved ht (List.filterMap_eq_nil_iff.mp (List.isEmpty_iff.mp hempty))
  · exact of_sent ht hids (if_neg hempty)

end SyncsPositions

/-! ## What spawning does -/

/-- The players of the list are spawned, and whoever is in the world afterwards was shown them, or is
one of them and was shown everybody. -/
structure SpawnsPlayers (s t : Server) (ps : List Nat) : Prop where
  shape : SameShape s t
  mem : ∀ p, p ∈ t.selectPlayersFrom .spawned ↔ p ∈ s.selectPlayersFrom .spawned ∨ p ∈ ps
  transferred : ∀ p, (t.players p).lastTransferredPos = (s.players p).lastTransferredPos
  views : ∀ v ∈ t.selectPlayersFrom .spawned, ∀ i conn, s.HasPlayer i conn v → conn.isOnline = true →
    ∀ p ∈ t.selectPlayersFrom .spawned, ClientView.replay (t.sent conn.id) (s.players p).gameId =
      if v ∈ ps ∨ p ∈ ps then some (spawnPacketPosition (s.players p))
      else ClientView.replay (s.sent conn.id) (s.players p).gameId

theorem SpawnsPlayers.spawnPlayer {s : Server} (ht : TableOk s) (hids : s.DistinctGameIds)
    {ps : List Nat} (hnodup : ps.Nodup) (hattached : ∀ p ∈ ps, s.Attached p)
    (hstate : ∀ p ∈ ps, (s.players p).state = .spawning ∧ (s.players p).nextState = .spawned) :
    SpawnsPlayers s (s.spawnPlayer ps .accepted .accepted) ps := by
  set old := s.selectPlayersFrom .spawned with hold
  have haccepted : ∀ k, Outcomes.accepted k = true := fun _ => rfl
  have holdAttached : ∀ p ∈ old, s.Attached p := fun p hp => ((mem_selectPlayersFrom ht).mp hp).1
  have hdisjoint : ∀ p ∈ ps, p ∉ old := by
    intro p hp hpold
    have hspawned := ((mem_selectPlayersFrom ht).mp hpold).2
    rw [(hstate p hp).1] at hspawned
    exact absurd hspawned (by decide)
  have hshape := sameShape_spawnPlayer s ps .accepted .accepted
  have hplayers : ∀ p, (s.spawnPlayer ps .accepted .accepted).players p =
      if p ∈ ps then (s.players p).transitState else s.players p := by
    intro p
    rw [spawnPlayer_players, reached_eq_self haccepted hattached ht,
      iterate_count_of_nodup _ (List.count_eq_one_of_mem hnodup)]
  have hmem : ∀ p, p ∈ (s.spawnPlayer ps .accepted .accepted).selectPlayersFrom .spawned ↔
      p ∈ old ∨ p ∈ ps := by
    intro p
    rw [mem_selectPlayersFrom (ht.of_sameShape hshape), attached_of_env hshape.connectionEnv, hold,
      mem_selectPlayersFrom ht, hplayers]
    split_ifs with hp
    · exact iff_of_true ⟨hattached p hp, (hstate p hp).2.ge⟩ (Or.inr hp)
    · exact (or_iff_left hp).symm
  refine ⟨hshape, hmem, fun p => ?_, fun v hv i conn hhas honline p hp => ?_⟩
  · rw [hplayers]
    split_ifs <;> rfl
  · have howned : ∀ {q}, s.Attached q → ∃ j d, s.HasPlayer j d q :=
      fun ⟨j, d, hq, _⟩ => ⟨j, d, hq⟩
    have hkeys : ∀ q ∈ old ++ ps, (s.players q).gameId = (s.players p).gameId → q = p := by
      intro q hq heq
      refine hids q p ?_ ?_ heq
      · exact (List.mem_append.mp hq).elim (holdAttached q) (hattached q)
      · exact ((hmem p).mp hp).elim (holdAttached p) (hattached p)
    rw [spawnPlayer_sent,
      countP_reached ht hhas honline (fun q hq => howned (hattached q hq)) haccepted,
      countP_reached ht hhas honline (fun q hq => howned (holdAttached q hq)) haccepted]
    rcases (hmem v).mp hv with hvold | hvps
    · -- an old player is sent the records of the new ones
      have hvps : v ∉ ps := fun hvps => hdisjoint v hvps hvold
      obtain ⟨hattachedV, hspawnedV⟩ := (mem_selectPlayersFrom ht).mp hvold
      rw [List.count_eq_zero.mpr hvps, List.replicate_zero, List.append_nil,
        count_selectPlayersFrom ht hattachedV, if_pos hspawnedV, ClientView.replay_append_replicate_one,
        ClientView.receive_spawnPlayers _ _ fun q hq => hkeys q (List.mem_append_right _ hq)]
      simp only [hvps, false_or]
    · -- a new player is sent the records of everybody
      have hvold : v ∉ old := hdisjoint v hvps
      rw [List.count_eq_one_of_mem hnodup hvps, List.count_eq_zero.mpr hvold, List.replicate_zero,
        List.append_nil, ClientView.replay_append_replicate_one, ClientView.receive_spawnPlayers _ _ hkeys,
        if_pos (Or.inl hvps), if_pos]
      exact List.mem_append.mpr ((hmem p).mp hp)

/-! ## The views between two syncs -/

namespace PositionRun

/-- Whoever is in the world holds, of every other player in the world, the position it was shown
since the last sync, or else the one that was last transferred. -/
structure PositionsOk (c : PositionRun) : Prop where
  table : TableOk c.server
  ids : c.server.DistinctGameIds
  views : ∀ v ∈ c.worldPlayers, ∀ p ∈ c.worldPlayers, v ≠ p →
    ∀ i conn, c.server.HasPlayer i conn v → conn.isOnline = true →
      ClientView.replay (c.server.sent conn.id) (c.server.players p).gameId =
        some ((c.shown v p).getD (c.server.players p).lastTransferredPos)

/-- The views are right, by the connections of the players. -/
theorem viewsRight_iff {s : Server} (ht : TableOk s) : ViewsRight s ↔
    ∀ v ∈ s.selectPlayersFrom .spawned, ∀ p ∈ s.selectPlayersFrom .spawned, v ≠ p →
      ∀ i conn, s.HasPlayer i conn v → conn.isOnline = true →
        ClientView.replay (s.sent conn.id) (s.players p).gameId =
          some (s.players p).lastPosition := by
  constructor
  · intro h v hv p hp hne i conn hhas honline
    exact h v hv p hp hne conn (tryAcquireOf_of_hasPlayer ht hhas honline)
  · intro h v hv p hp hne conn hacq
    obtain ⟨i, conn', hhas, honline⟩ := ((mem_selectPlayersFrom ht).mp hv).1
    obtain rfl := Option.some.inj (hacq.symm.trans (tryAcquireOf_of_hasPlayer ht hhas honline))
    exact h v hv p hp hne i conn hhas honline

namespace PositionsOk

variable {c : PositionRun}

/-- The id of a player is that of its slot. -/
theorem gameId_of_sameShape {s t : Server} (h : SameShape s t) (p : Nat) :
    (t.players p).gameId = (s.players p).gameId := by
  rw [Player.gameId, Player.gameId, h.connectionKey]

/-- Players stay with their connections. -/
theorem hasPlayer_of_sameShape {s t : Server} (h : SameShape s t) {i p : Nat} {conn : Connection}
    (hp : t.HasPlayer i conn p) : s.HasPlayer i conn p := by
  rw [Server.HasPlayer, Server.connection, ← h.connectionEnv]
  exact hp

/-- Nobody is in the world yet. -/
theorem start {s : Server} (ht : TableOk s) (hids : s.DistinctGameIds)
    (hnone : s.selectPlayersFrom .spawned = []) : PositionsOk { server := s } where
  table := ht
  ids := hids
  views v hv := by
    rw [worldPlayers, hnone] at hv
    exact absurd hv List.not_mem_nil

/-- A player that moves changes nothing of what was told or transferred. -/
theorem setPosition (h : PositionsOk c) (p : Nat) (position : PlayerPosition) :
    PositionsOk { c with server := c.server.updatePlayer p (·.setPosition position) } := by
  have hshape := SameShape.updatePlayer c.server p (f := (·.setPosition position)) rfl
  have htable := h.table.of_sameShape hshape
  have hplayer : ∀ q, ((c.server.updatePlayer p (·.setPosition position)).players q).state =
        (c.server.players q).state ∧
      ((c.server.updatePlayer p (·.setPosition position)).players q).lastTransferredPos =
        (c.server.players q).lastTransferredPos := by
    intro q
    rw [updatePlayer_players]
    split_ifs with hq
    · rw [hq]
      exact ⟨rfl, rfl⟩
    · exact ⟨rfl, rfl⟩
  have hworld : ∀ q, q ∈ (c.server.updatePlayer p (·.setPosition position)).selectPlayersFrom
      .spawned ↔ q ∈ c.worldPlayers := by
    intro q
    rw [worldPlayers, mem_selectPlayersFrom htable, mem_selectPlayersFrom h.table,
      attached_of_env hshape.connectionEnv, (hplayer q).1]
  refine ⟨htable, h.ids.of_sameShape hshape, fun v hv q hq hne i conn hhas honline => ?_⟩
  rw [gameId_of_sameShape hshape]
  show ClientView.replay (c.server.sent conn.id) _ = some ((c.shown v q).getD _)
  rw [(hplayer q).2]
  exact h.views v ((hworld v).mp hv) q ((hworld q).mp hq) hne i conn
    (hasPlayer_of_sameShape hshape hhas) honline

/-- A spawn packet is the last word on the players it shows. -/
theorem spawns (h : PositionsOk c) {t : Server} {ps : List Nat} (hspawns : SpawnsPlayers c.server t ps) :
    PositionsOk { server := t, shown := c.showSpawned ps } := by
  refine ⟨h.table.of_sameShape hspawns.shape, h.ids.of_sameShape hspawns.shape,
    fun v hv p hp hne i conn hhas honline => ?_⟩
  have hhas := hasPlayer_of_sameShape hspawns.shape hhas
  have hvWorld := (hspawns.mem v).mp hv
  have hpWorld := (hspawns.mem p).mp hp
  rw [gameId_of_sameShape hspawns.shape, hspawns.transferred,
    hspawns.views v hv i conn hhas honline p hp]
  by_cases hshown : v ∈ ps ∨ p ∈ ps
  · have hrecord : c.showSpawned ps v p = some (spawnPacketPosition (c.server.players p)) := by
      apply if_pos
      rcases hshown with hv | hp
      · exact Or.inl ⟨hv, hpWorld⟩
      · exact hvWorld.elim (fun hv => Or.inr ⟨hv, hp⟩) fun hv => Or.inl ⟨hv, Or.inr hp⟩
    rw [if_pos hshown]
    show _ = some ((c.showSpawned ps v p).getD _)
    rw [hrecord, Option.getD_some]
  · obtain ⟨hvps, hpps⟩ := not_or.mp hshown
    have hrecord : c.showSpawned ps v p = c.shown v p := by
      apply if_neg
      rintro (⟨hv, -⟩ | ⟨-, hp⟩)
      · exact hvps hv
      · exact hpps hp
    rw [if_neg hshown]
    show _ = some ((c.showSpawned ps v p).getD _)
    rw [hrecord]
    exact h.views v (hvWorld.resolve_right hvps) p (hpWorld.resolve_right hpps) hne i conn hhas honline

/-- The spawn task, for players that wait for it. -/
theorem spawnPlayer (h : PositionsOk c) {ps : List Nat} (hproper : c.IsProper (.spawnPlayer ps)) :
    PositionsOk { server := c.server.spawnPlayer ps .accepted .accepted, shown := c.showSpawned ps } := by
  obtain ⟨hnodup, hps⟩ := hproper
  apply h.spawns
  apply SpawnsPlayers.spawnPlayer h.table h.ids hnodup
  · exact fun p hp => ((mem_selectPlayersFrom h.table).mp (hps p hp).1).1
  · exact fun p hp => ⟨(hps p hp).2.1, (hps p hp).2.2.1⟩

/-- Who is in the world after a sync was before. -/
theorem mem_of_syncs (h : PositionsOk c) {t : Server} (hsync : SyncsPositions c.server t) (p : Nat) :
    p ∈ t.selectPlayersFrom .spawned ↔ p ∈ c.worldPlayers := by
  rw [worldPlayers, mem_selectPlayersFrom (h.table.of_sameShape hsync.shape),
    mem_selectPlayersFrom h.table, attached_of_env hsync.shape.connectionEnv,
    show (t.players p).state = _ from congrArg PlayerState.state (hsync.states p)]

/-- **A sync** makes the views right exactly if what was shown since the last one continues where the
records lead from. -/
theorem viewsRight_of_syncs_iff (h : PositionsOk c) (hproper : c.IsProper .syncPlayerPosition)
    {t : Server} (hsync : SyncsPositions c.server t) :
    ViewsRight t ↔ c.ContinuesShown .syncPlayerPosition := by
  have hview : ∀ v ∈ c.worldPlayers, ∀ p ∈ c.worldPlayers, v ≠ p → ∀ i conn,
      c.server.HasPlayer i conn v → conn.isOnline = true →
      (ClientView.replay (t.sent conn.id) (t.players p).gameId = some (t.players p).lastPosition ↔
        ∀ position ∈ c.shown v p,
          MovesFar (c.server.players p) ∨ ContinuesFrom (c.server.players p) position) := by
    intro v hv p hp hne i conn hhas honline
    rw [gameId_of_sameShape hsync.shape, hsync.views v hv i conn hhas honline p hp,
      h.views v hv p hp hne i conn hhas honline, hsync.lastPosition, Option.map_some,
      Option.some_inj, movedPosition_eq_iff _ fun hnear => hproper p hp (by simp [MovesFar, hnear])]
    cases hshown : c.shown v p with
    | none =>
        -- the view is the position the record is a difference to
        exact iff_of_true (Or.inr (continuesFrom_lastTransferredPos _)) fun _ hnone => nomatch hnone
    | some position =>
        constructor
        · intro hcontinues position' hposition
          obtain rfl := Option.some.inj hposition
          exact hcontinues
        · exact fun hall => hall position rfl
  rw [viewsRight_iff (h.table.of_sameShape hsync.shape)]
  simp only [h.mem_of_syncs hsync]
  constructor
  · intro hright v hv p hp hne
    obtain ⟨i, conn, hhas, honline⟩ := ((mem_selectPlayersFrom h.table).mp hv).1
    apply (hview v hv p hp hne i conn hhas honline).mp
    apply hright v hv p hp hne i conn _ honline
    rw [Server.HasPlayer, Server.connection, hsync.shape.connectionEnv]
    exact hhas
  · intro hcontinues v hv p hp hne i conn hhas honline
    have hhas := hasPlayer_of_sameShape hsync.shape hhas
    exact (hview v hv p hp hne i conn hhas honline).mpr (hcontinues v hv p hp hne)

/-- After a sync that made the views right, they hold what was transferred last. -/
theorem syncs (h : PositionsOk c) {t : Server} (hsync : SyncsPositions c.server t)
    (hright : ViewsRight t) : PositionsOk { server := t } := by
  have htable := h.table.of_sameShape hsync.shape
  refine ⟨htable, h.ids.of_sameShape hsync.shape, fun v hv p hp hne i conn hhas honline => ?_⟩
  have htransferred := hsync.transferred p ((h.mem_of_syncs hsync p).mp hp)
  have hview := (viewsRight_iff htable).mp hright v hv p hp hne i conn hhas honline
  rw [hsync.lastPosition, ← htransferred] at hview
  exact hview

end PositionsOk

/-! ## Runs -/

/-- **Position view agreement**, exactly: in a run of position steps the views are right after every
sync if and only if at every sync each position that was shown since the last one, and is not
replaced by an absolute record, is the one that was transferred last. -/
theorem agreesAfter_iff_of_run {s : Server} (ht : TableOk s) (hids : s.DistinctGameIds)
    (hnone : s.selectPlayersFrom .spawned = []) {es : List PositionEvent}
    (hproper : Along step IsProper { server := s } es) :
    Along step AgreesAfter { server := s } es ↔ Along step ContinuesShown { server := s } es := by
  -- the invariant needs agreement at the syncs so far, so both directions go by one induction
  suffices h : ∀ c, PositionsOk c → Along step IsProper c es →
      (Along step AgreesAfter c es ↔ Along step ContinuesShown c es) from
    h _ (PositionsOk.start ht hids hnone) hproper
  clear hproper hnone hids ht s
  induction es with
  | nil => exact fun _ _ _ => Iff.rfl
  | cons e es ih =>
      intro c h hproper
      have hstep : (c.AgreesAfter e ↔ c.ContinuesShown e) ∧
          (c.AgreesAfter e → ∀ c', c.step e = some c' → PositionsOk c') := by
        cases e with
        | setPosition p position =>
            refine ⟨Iff.rfl, fun _ c' hc' => ?_⟩
            obtain rfl := Option.some.inj hc'
            exact h.setPosition p position
        | spawnPlayer ps =>
            refine ⟨Iff.rfl, fun _ c' hc' => ?_⟩
            obtain rfl := Option.some.inj hc'
            exact h.spawnPlayer hproper.1
        | syncPlayerPosition =>
            have hsync := SyncsPositions.syncPlayerPosition h.table h.ids
            refine ⟨h.viewsRight_of_syncs_iff hproper.1 hsync, fun hright c' hc' => ?_⟩
            obtain rfl := Option.some.inj hc'
            exact h.syncs hsync hright
      obtain ⟨hiff, hkept⟩ := hstep
      constructor
      · rintro ⟨hagrees, hrest⟩
        exact ⟨hiff.mp hagrees, fun c' hc' =>
          (ih c' (hkept hagrees c' hc') (hproper.2 c' hc')).mp (hrest c' hc')⟩
      · rintro ⟨hcontinues, hrest⟩
        have hagrees := hiff.mpr hcontinues
        exact ⟨hagrees, fun c' hc' =>
          (ih c' (hkept hagrees c' hc') (hproper.2 c' hc')).mpr (hrest c' hc')⟩

/-- Two guests log in, get their level data and are queued for the spawn task. -/
def twoGuestsQueued : List Event :=
  guestLogin 0 ++ [.accept 1, .receive 1 (.handshake [98] [] 0) 1 true 0] ++
  [.response 1 { errorCode := ErrorCode.playerNotExist } 1 true] ++
  [.tickPlayer 0 2 fun _ => true, .tickPlayer 1 2 fun _ => true, .schedule .syncBlock 3 true] ++
  [.runTask .syncBlock (fun _ => true) fun _ => true] ++
  [.tickPlayer 0 4 fun _ => true, .tickPlayer 1 4 fun _ => true]

/-- The server before both guests are spawned. -/
def bothWaiting : Server := (run Server.step Server.small twoGuestsQueued).getD Server.small

/-- It is reached by a run. -/
theorem bothWaiting_table : TableOk bothWaiting := by
  obtain ⟨s, hs⟩ := Option.isSome_iff_exists.mp
    (show (run Server.step Server.small twoGuestsQueued).isSome = true by decide +kernel)
  have heq : bothWaiting = s := by rw [bothWaiting, hs, Option.getD_some]
  rw [heq]
  exact (Server.consistent_of_run hs).1

/-- Both guests are spawned, and then the first one walks from sync to sync. -/
def walkAfterSpawn : List PositionEvent :=
  [.setPosition 0 { x := 100 }, .setPosition 1 { x := 200 }, .spawnPlayer [0, 1]] ++
  [.syncPlayerPosition, .setPosition 0 { x := 110 }, .syncPlayerPosition] ++
  [.setPosition 0 { x := 115, yaw := 3 }, .syncPlayerPosition]

/-- Both see where the other one is: the first sync is absolute, and each next record continues from the
last. -/
theorem agreesAfter_of_run_walkAfterSpawn :
    Along step AgreesAfter { server := bothWaiting } walkAfterSpawn := by
  have hslots : bothWaiting.connectionEnv.numOfMaxConnections ≤ 256 := by decide +kernel
  apply (agreesAfter_iff_of_run bothWaiting_table (distinctGameIds bothWaiting_table hslots)
    (by decide +kernel) (by decide +kernel)).mpr
  decide +kernel

/-- The second guest is spawned between two syncs, while the first one walks. -/
def walkDuringSpawn : List PositionEvent :=
  [.setPosition 0 { x := 100 }, .spawnPlayer [0], .syncPlayerPosition] ++
  [.setPosition 0 { x := 110 }, .setPosition 1 { x := 200 }, .spawnPlayer [1]] ++
  [.setPosition 0 { x := 115 }, .syncPlayerPosition]

/-- The second guest adds the difference `115 - 100` to the `110` it was shown. -/
theorem not_agreesAfter_walkDuringSpawn :
    Along step IsProper { server := bothWaiting } walkDuringSpawn ∧
      ¬ Along step AgreesAfter { server := bothWaiting } walkDuringSpawn := by
  decide +kernel

end PositionRun

end Mmocraft
