/-
# Mmocraft.Server.GameIds -- game ids and the size of the table

The game id of a player is the index of its slot narrowed to one byte, and it is all that a spawn, a
despawn or a position record says about whom it means.  With 256 slots or fewer the ids of the spawned
players are distinct in every run.  With more, two guests can log in to the slots 0 and 256 and both
are spawned with the id 0.

The run of the two guests is computed for a table of 257 slots.  That it is a run for every larger
table too is a matter of what its events read: none of them looks at the number of slots
(`run_withSlots`), except the task that spawns, of which only the states it leaves are used.
-/
import Mmocraft.Server.ConnectionTable
import Mmocraft.Server.PositionView

namespace Mmocraft

open Mmocraft.Lib Mmocraft.Game Mmocraft.Net

namespace Server

/-- `p` is a player of the table in state `spawned`. -/
def Spawned (s : Server) (p : Nat) : Prop :=
  (∃ i conn, s.HasPlayer i conn p) ∧ (s.players p).state = .spawned

/-- Two different spawned players have different game ids. -/
def SpawnedIdsDistinct (s : Server) : Prop :=
  ∀ p q, s.Spawned p → s.Spawned q → p ≠ q → (s.players p).gameId ≠ (s.players q).gameId

/-! ## The accepts that fill the table -/

/-- The server after `k` sockets were accepted at time 0. -/
def accepted (n : Nat) (metadata : WorldMetadata) (blockMapping : List UInt8) (k : Nat) : Server :=
  { init n metadata blockMapping with
    connectionEnv :=
      { numOfMaxConnections := n
        numOfConnections := k
        table := fun i =>
          if i < k then
            { used := true, willDelete := false, createdAt := 0
              connection := some { id := i, connectionKey := ⟨i, 0⟩, lastInteractionTick := 0 } }
          else {} }
    numOfAccepted := k
    log := (List.range k).reverse.map fun i => .accepted i ⟨i, 0⟩ }

variable {n : Nat} {metadata : WorldMetadata} {blockMapping : List UInt8}

/-- The slots are filled in order. -/
theorem accepted_getUnusedConnectionId {k : Nat} (hk : k < n) :
    (accepted n metadata blockMapping k).connectionEnv.getUnusedConnectionId = k := by
  rw [ConnectionEnvironment.getUnusedConnectionId]
  refine (List.findIdx_eq (List.length_range.symm ▸ hk)).mpr ⟨?_, fun i hi => ?_⟩
  · simp [accepted]
  · simp [accepted, hi]

/-- The table after one more accept. -/
theorem accepted_table_succ (n : Nat) (metadata : WorldMetadata) (blockMapping : List UInt8)
    (k : Nat) :
    Function.update (accepted n metadata blockMapping k).connectionEnv.table k
        { used := true, willDelete := false, createdAt := 0
          connection := some { id := k, connectionKey := ⟨k, 0⟩, lastInteractionTick := 0 } } =
      (accepted n metadata blockMapping (k + 1)).connectionEnv.table := by
  funext i
  rcases Nat.lt_trichotomy i k with hlt | rfl | hgt
  · rw [Function.update_of_ne hlt.ne]
    simp only [accepted, if_pos hlt, if_pos (Nat.lt_succ_of_lt hlt)]
  · rw [Function.update_self]
    simp [accepted]
  · rw [Function.update_of_ne hgt.ne']
    simp only [accepted, if_neg (Nat.not_lt_of_lt hgt), if_neg (Nat.not_lt_of_le (Nat.succ_le_of_lt hgt))]

/-- Accepts fill the slots in order. -/
theorem run_accepts {k : Nat} (hk : k ≤ n) :
    run step (init n metadata blockMapping) (List.replicate k (.accept 0)) =
      some (accepted n metadata blockMapping k) := by
  induction k with
  | zero => simp [accepted, init]
  | succ k ih =>
      have hroom : ¬ (accepted n metadata blockMapping k).connectionEnv.numOfMaxConnections ≤
          (accepted n metadata blockMapping k).connectionEnv.numOfConnections :=
        Nat.not_le_of_lt hk
      have htable := accepted_table_succ n metadata blockMapping k
      rw [List.replicate_succ', run_append, ih (Nat.le_of_succ_le hk), Option.bind_some, run_singleton]
      show some (accept _ 0) = _
      rw [accept, if_neg hroom, newConnectionKey, registerConnection, accepted_getUnusedConnectionId hk]
      simp only [accepted, List.range_succ, List.reverse_append, List.map_append,
        Nat.lt_succ_iff] at htable ⊢
      simp [← htable, ConnectionEnvironment.onConnectionCreate, ConnectionEnvironment.updateEntry,
        record, monotonicTick32]

/-! ## Events that do not read the number of slots -/

/-- The same server with another number of slots. -/
def withSlots (s : Server) (n : Nat) : Server :=
  { s with connectionEnv := { s.connectionEnv with numOfMaxConnections := n } }

/-- The events of a login as a guest, the ticks and the schedules. -/
def IsLocal : Event → Prop
  | .receive _ (.handshake ..) .. | .tickPlayer .. | .schedule .. => True
  | .response _ reply .. => reply.errorCode = ErrorCode.playerNotExist
  | _ => False

/-- The callback of a teardown looks at one connection. -/
theorem onDisconnect_withSlots (s : Server) (n : Nat) (conn : Connection) :
    (s.withSlots n).onDisconnect conn = (s.onDisconnect conn).withSlots n := by
  unfold onDisconnect
  cases conn.player with
  | none => rfl
  | some p =>
      rw [show (s.withSlots n).players = s.players from rfl]
      dsimp only
      split_ifs <;> rfl

/-- So does a disconnection. -/
theorem disconnect_withSlots (s : Server) (n i now : Nat) :
    (s.withSlots n).disconnect i now = (s.disconnect i now).withSlots n := by
  unfold disconnect
  rw [show (s.withSlots n).connection i = s.connection i from rfl,
    show (s.withSlots n).players = s.players from rfl]
  cases s.connection i with
  | none => rfl
  | some conn =>
      dsimp only
      split_ifs with honline
      · rfl
      · cases conn.player.filter fun p => State.handshaking ≤ (s.players p).state with
        | some p => rfl
        | none =>
            dsimp only
            rw [onDisconnect_withSlots]
            rfl

theorem send_withSlots (s : Server) (n : Nat) (conn : Connection) (packet : ServerPacket)
    (accepted : Bool) :
    (s.withSlots n).send conn packet accepted = (s.send conn packet accepted).withSlots n := by
  unfold send
  split_ifs <;> rfl

/-- A handshake looks at the slot it came in on. -/
theorem handshake_withSlots (s : Server) (n i : Nat) (username password : List UInt8)
    (cpeMagic : UInt8) (now : Nat) (accepted : Bool) (garbage : PlayerTypeId) :
    (s.withSlots n).receivePacket i (.handshake username password cpeMagic) now accepted garbage =
      (s.receivePacket i (.handshake username password cpeMagic) now accepted garbage).withSlots n := by
  unfold receivePacket
  rw [show (s.withSlots n).connection i = s.connection i from rfl]
  cases s.connection i with
  | none => rfl
  | some conn =>
      dsimp only [handlePacket, handleHandshakePacket]
      split_ifs <;> rfl

theorem handleHandshakeResponse_withSlots (s : Server) (n : Nat) (request : LoginRequest)
    {reply : LoginReply} (hreply : reply.errorCode = ErrorCode.playerNotExist) (now : Nat)
    (accepted : Bool) :
    (s.withSlots n).handleHandshakeResponse request reply now accepted =
      (s.handleHandshakeResponse request reply now accepted).withSlots n := by
  have hfailed : reply.errorCode ≠ ErrorCode.success := by
    rw [hreply]
    decide
  unfold handleHandshakeResponse
  rw [if_neg hfailed, if_neg hfailed,
    show ((s.withSlots n).record (.responded request reply)).tryAcquireConnection =
      (s.record (.responded request reply)).tryAcquireConnection from rfl]
  cases (s.record (.responded request reply)).tryAcquireConnection request.connectionKey with
  | none => rfl
  | some conn =>
      dsimp only
      rw [if_pos hreply, if_pos hreply]
      cases conn.player <;> rfl

/-- A visit of the tick looks at one slot. -/
theorem tickPlayer_withSlots (s : Server) (n i now : Nat) (o : Outcomes) :
    (s.withSlots n).tickPlayer i now o = (s.tickPlayer i now o).withSlots n := by
  unfold tickPlayer
  rw [show (s.withSlots n).connection i = s.connection i from rfl,
    show (s.withSlots n).connectionEnv.playerOf i = s.connectionEnv.playerOf i from rfl]
  cases s.connection i with
  | none => rfl
  | some conn =>
      cases s.connectionEnv.playerOf i with
      | none => rfl
      | some p =>
          have hplayers : (s.withSlots n).players = s.players := rfl
          simp only [transitPlayerState, hplayers]
          cases (s.players p).state with
          | disconnected => exact disconnect_withSlots s n i now
          | exHandshaked =>
              dsimp only
              split_ifs
              · simp only [send_withSlots]
                rfl
              · rfl
          | spawned =>
              dsimp only
              split_ifs
              · rw [send_withSlots]
                rfl
              · rfl
          | handshaked | extensionSynced =>
              simp only [onHandshakeSuccess, send_withSlots]
              rfl
          | _ => rfl

theorem scheduleTask_withSlots (s : Server) (n : Nat) (task : WorldTaskId) (now : Nat) (posted : Bool) :
    (s.withSlots n).scheduleTask task now posted = (s.scheduleTask task now posted).withSlots n := by
  cases task <;> unfold scheduleTask <;>
    rw [show (s.withSlots n).world = s.world from rfl] <;> dsimp only <;> split_ifs <;> rfl

/-- These events do the same in a larger table. -/
theorem step_withSlots (s : Server) (n : Nat) {e : Event} (he : IsLocal e) :
    (s.withSlots n).step e = (s.step e).map (·.withSlots n) := by
  cases e with
  | receive i packet now accepted garbage =>
      cases packet with
      | handshake username password cpeMagic =>
          exact congrArg some (handshake_withSlots s n i username password cpeMagic now accepted garbage)
      | _ => exact he.elim
  | tickPlayer i now o => exact congrArg some (tickPlayer_withSlots s n i now o)
  | schedule task now posted => exact congrArg some (scheduleTask_withSlots s n task now posted)
  | response p reply now accepted =>
      simp only [step, Option.map_map]
      refine congrArg₂ Option.map (funext fun request => ?_) rfl
      exact handleHandshakeResponse_withSlots { s with requests := s.requests.erase request } n request
        he now accepted
  | _ => exact he.elim

theorem run_withSlots (n : Nat) {es : List Event} (hes : ∀ e ∈ es, IsLocal e) (s : Server) :
    run step (s.withSlots n) es = (run step s es).map (·.withSlots n) := by
  induction es generalizing s with
  | nil => rfl
  | cons e es ih =>
      rw [run_cons, run_cons, step_withSlots s n (hes e List.mem_cons_self)]
      cases s.step e with
      | none => rfl
      | some t => exact ih (fun e he => hes e (List.mem_cons_of_mem _ he)) t

/-- The task that sends the level does not either, as long as no block changed. -/
theorem runTask_syncBlock_withSlots (s : Server) (n : Nat)
    (hhistory : s.world.syncBlockTask.blockHistory.output = []) (o o' : Outcomes) :
    (s.withSlots n).runTask .syncBlock o o' = (s.runTask .syncBlock o o').withSlots n := by
  have hlevel : ∀ (packet : ServerPacket) (ps : List Nat) (o : Outcomes) (s : Server),
      sendToPlayers packet (fun s p => s.transitState p .levelInitialized) ps o (s.withSlots n) =
        (sendToPlayers packet (fun s p => s.transitState p .levelInitialized) ps o s).withSlots n := by
    intro packet ps
    induction ps with
    | nil => exact fun _ _ => rfl
    | cons p ps ih =>
        intro o s
        rw [sendToPlayers, sendToPlayers, ← ih]
        congr 1
        unfold sendToPlayer
        rw [show (s.withSlots n).tryAcquireOf p = s.tryAcquireOf p from rfl]
        cases s.tryAcquireOf p with
        | none => rfl
        | some conn =>
            dsimp only
            rw [send_withSlots]
            split_ifs <;> rfl
  have hnone : ∀ s : Server, s.syncBlockHistory [] o = s := fun _ => rfl
  dsimp only [runTask, syncBlock]
  rw [show (s.withSlots n).world = s.world from rfl, hhistory, hnone, hnone]
  split_ifs with hwaiting
  · rfl
  · rw [processLevelWaitPlayer, processLevelWaitPlayer, show (s.withSlots n).world = s.world from rfl, hlevel]
    rfl

end Server

/-! ## Two guests with one id -/

/-- Guests log in to two slots and are queued for the level. -/
def guestsLogin (i j : Nat) : List Event :=
  [.receive i (.handshake [97] [] 0) 0 true 0] ++
  [.response 0 { errorCode := ErrorCode.playerNotExist } 0 true] ++
  [.receive j (.handshake [98] [] 0) 0 true 0] ++
  [.response 1 { errorCode := ErrorCode.playerNotExist } 0 true] ++
  [.tickPlayer i 0 fun _ => true, .tickPlayer j 0 fun _ => true, .schedule .syncBlock 1 true]

/-- The guests have received the level and are queued for their spawn. -/
def guestsWait (i j : Nat) : List Event :=
  [.tickPlayer i 2 fun _ => true, .tickPlayer j 2 fun _ => true, .schedule .spawnPlayer 3 true]

/-- The table of 257 slots is full. -/
def fullTable : Server :=
  Server.accepted 257 Server.small.world.metadata Server.small.world.blockMapping 257

/-- The guests in the slots 0 and 256 of the full table have logged in. -/
def guestsLoggedIn : Server := (run Server.step fullTable (guestsLogin 0 256)).getD fullTable

/-- They were sent the level. -/
def guestsLeveled : Server := guestsLoggedIn.runTask .syncBlock (fun _ => true) fun _ => true

/-- They wait for the spawn task. -/
def guestsWaiting : Server := (run Server.step guestsLeveled (guestsWait 0 256)).getD guestsLeveled

/-- A client connects to every slot up to 256, and the ones in the slots 0 and 256 are spawned. -/
def spawnGuests : List Event :=
  List.replicate 257 (.accept 0) ++ guestsLogin 0 256 ++
  [.runTask .syncBlock (fun _ => true) fun _ => true] ++ guestsWait 0 256 ++
  [.runTask .spawnPlayer (fun _ => true) fun _ => true]

/-- The server after `spawnGuests`, for a table of `n` slots. -/
def guestsSpawned (n : Nat) : Server :=
  (guestsWaiting.withSlots n).runTask .spawnPlayer (fun _ => true) fun _ => true

/-- The run of the two guests, in any table that has slot 256. -/
theorem run_spawnGuests {n : Nat} (hn : 256 < n) :
    run Server.step
        (Server.init n Server.small.world.metadata Server.small.world.blockMapping) spawnGuests =
      some (guestsSpawned n) := by
  have hlogin : run Server.step (fullTable.withSlots n) (guestsLogin 0 256) =
      some (guestsLoggedIn.withSlots n) := by
    rw [Server.run_withSlots n (by simp [guestsLogin, Server.IsLocal]), run_getD (by decide +kernel)]
    rfl
  have hlevel : (guestsLoggedIn.withSlots n).step
        (.runTask .syncBlock (fun _ => true) fun _ => true) = some (guestsLeveled.withSlots n) := by
    have hqueued : (guestsLoggedIn.withSlots n).completionQueued .syncBlock = true := by
      show guestsLoggedIn.completionQueued .syncBlock = true
      decide +kernel
    have hhistory : guestsLoggedIn.world.syncBlockTask.blockHistory.output = [] := by decide +kernel
    rw [Server.step, if_pos hqueued, Server.runTask_syncBlock_withSlots _ n hhistory]
    rfl
  have hwait : run Server.step (guestsLeveled.withSlots n) (guestsWait 0 256) =
      some (guestsWaiting.withSlots n) := by
    rw [Server.run_withSlots n (by simp [guestsWait, Server.IsLocal]), run_getD (by decide +kernel)]
    rfl
  have hspawn : (guestsWaiting.withSlots n).step
        (.runTask .spawnPlayer (fun _ => true) fun _ => true) = some (guestsSpawned n) := by
    have hqueued : (guestsWaiting.withSlots n).completionQueued .spawnPlayer = true := by
      show guestsWaiting.completionQueued .spawnPlayer = true
      decide +kernel
    rw [Server.step, if_pos hqueued]
    rfl
  have haccepts : run Server.step
      (Server.init n Server.small.world.metadata Server.small.world.blockMapping)
      (List.replicate 257 (.accept 0)) = some (fullTable.withSlots n) :=
    Server.run_accepts (Nat.succ_le_of_lt hn)
  rw [spawnGuests, run_append, run_append, run_append, run_append, haccepts, Option.bind_some, hlogin,
    Option.bind_some, run_singleton, hlevel, Option.bind_some, hwait, Option.bind_some, run_singleton,
    hspawn]

/-- Both guests are spawned, with one id. -/
theorem guestsSpawned_spec (n : Nat) :
    (guestsSpawned n).Spawned 0 ∧ (guestsSpawned n).Spawned 1 ∧
      ((guestsSpawned n).players 0).gameId = ((guestsSpawned n).players 1).gameId := by
  have hplayers : ∀ p, (guestsSpawned n).players p = Player.transitState^[[0, 1].count p]
      (guestsWaiting.players p) := by
    intro p
    have hreached : (guestsWaiting.withSlots n).reached guestsWaiting.world.spawnPlayerTask.target
        (fun _ => true) = [0, 1] := by
      show guestsWaiting.reached guestsWaiting.world.spawnPlayerTask.target (fun _ => true) = [0, 1]
      decide +kernel
    rw [← hreached]
    exact Server.spawnPlayer_players (guestsWaiting.withSlots n) _ _ _ p
  have hconnection : ∀ i, (guestsSpawned n).connection i = guestsWaiting.connection i := by
    intro i
    show (((guestsWaiting.withSlots n).spawnPlayer _ _ _).connectionEnv.table i).connection = _
    rw [(Server.sameShape_spawnPlayer _ _ _ _).connectionEnv]
    rfl
  have hspawned : ∀ p i, (guestsWaiting.connection i).bind Connection.player = some p →
      (Player.transitState^[[0, 1].count p] (guestsWaiting.players p)).state = .spawned →
      (guestsSpawned n).Spawned p := by
    intro p i hslot hstate
    obtain ⟨conn, hconn, hplayer⟩ := Option.bind_eq_some_iff.mp hslot
    refine ⟨⟨i, conn, (hconnection i).trans hconn, hplayer⟩, ?_⟩
    rw [hplayers]
    exact hstate
  refine ⟨hspawned 0 0 ?_ ?_, hspawned 1 256 ?_ ?_, ?_⟩
  · decide +kernel
  · decide +kernel
  · decide +kernel
  · decide +kernel
  · rw [hplayers, hplayers]
    decide +kernel

/-- **Game ids.** Whatever the world is and whatever happens, different spawned players have different
game ids: exactly if the table has 256 slots or fewer. -/
theorem Server.spawnedIdsDistinct_of_run_iff (maxClients : Nat) :
    (∀ metadata blockMapping es s,
        run Server.step (Server.init maxClients metadata blockMapping) es = some s →
          s.SpawnedIdsDistinct) ↔
      maxClients ≤ 256 := by
  constructor
  · intro hdistinct
    by_contra hslots
    obtain ⟨hfirst, hsecond, hids⟩ := guestsSpawned_spec maxClients
    exact hdistinct _ _ _ _ (run_spawnGuests (Nat.lt_of_not_le hslots)) 0 1 hfirst hsecond
      Nat.zero_ne_one hids
  · intro hslots metadata blockMapping es s hrun p q hp hq hne hids
    obtain ⟨⟨i, conn, hp⟩, -⟩ := hp
    obtain ⟨⟨j, conn', hq⟩, -⟩ := hq
    obtain ⟨ht, hkeys⟩ := KeysOk.of_run hrun
    exact hne (Server.gameId_injective ht (hkeys.slots.symm ▸ hslots) hp hq hids)

/-- In a table of 257 slots the guests of the slots 0 and 256 share the id 0. -/
theorem Server.not_spawnedIdsDistinct_spawnGuests :
    ∃ s, run Server.step
        (Server.init 257 Server.small.world.metadata Server.small.world.blockMapping) spawnGuests =
        some s ∧ ¬ s.SpawnedIdsDistinct := by
  refine ⟨guestsSpawned 257, run_spawnGuests (by decide), fun hdistinct => ?_⟩
  obtain ⟨hfirst, hsecond, hids⟩ := guestsSpawned_spec 257
  exact hdistinct 0 1 hfirst hsecond Nat.zero_ne_one hids

end Mmocraft
