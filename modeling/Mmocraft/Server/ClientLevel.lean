/-
# Mmocraft.Server.ClientLevel -- the level that a client holds, and the blocks of the server

A client builds its level from what it is sent: the level data replace it, and each record of a block
history or of a single change sets one cell.  The server commits the records of a history to the mapped
file before it passes them on, and it builds the level data from the committed file.  So from its level
data on a client holds, after each event, exactly the committed blocks, without the four that the level
data do not carry.

The proof is put together from two that know nothing of each other. `BlockUpdates` says which packets about
blocks a joining player is sent, in which order, and which snapshots they carry; `Game.LevelTransfer` says
what a client decodes from level data. What is added here is that a commit and a record do the same to a cell
on both sides (`carriedBlocks_commitBlockChange`), and that no answer about a block comes in between, which is
why the client's own changes are asked to be accepted: a refused one is sent back in whatever state the level
is.

What is replayed is what the connection accepted, in that order; on the order in which RIO transfers it see
`Net.SendPaths`.
-/
import Mmocraft.Game.LevelTransfer
import Mmocraft.Server.BlockCommit
import Mmocraft.Server.BlockUpdates
import Mmocraft.Server.SendRules

namespace Mmocraft

open Mmocraft.Lib Mmocraft.Game Mmocraft.Net Mmocraft.Util

/-! ## The level of a client

What a client does with its packets, as far as blocks are concerned: level data replace everything it has, a
block packet changes one cell.
-/

/-- The level data that `process_level_wait_player` builds of the mapped file. -/
def levelDataBytes (metadata : WorldMetadata) (zlib : Zlib) (garbage : Nat → UInt8)
    (blocks : List UInt8) : List UInt8 :=
  (PacketLevelDataChunk.new zlib blocks metadata.volume (BitVec.ofInt 16 metadata.width)
    (BitVec.ofInt 16 metadata.height) (BitVec.ofInt 16 metadata.length)).serialized garbage

/-- The cell of a record in the level of a client; outside of the level there is none. -/
def Game.BlockHistoryRecord.clientCell (metadata : WorldMetadata) (r : BlockHistoryRecord) : Option Nat :=
  if r.InWorld metadata then some (metadata.cellIndex r.coordinateX r.coordinateY r.coordinateZ) else none

/-- The blocks a client holds, once it has been sent a level. -/
abbrev ClientLevel := Option (List UInt8)

namespace ClientLevel

variable (metadata : WorldMetadata) (zlib : Zlib) (garbage : Nat → UInt8)

/-- A client sets the block of a record. -/
def setBlock (cells : List UInt8) (r : BlockHistoryRecord) : List UInt8 :=
  writeCell (BlockHistoryRecord.clientCell metadata) BlockHistoryRecord.blockId cells r

/-- A client's reading of a packet. -/
def receive (level : ClientLevel) : ServerPacket → ClientLevel
  | .levelData blocks => (decodeChunks (levelDataBytes metadata zlib garbage blocks)).map fun data =>
      (zlib.inflate data).drop blockFileHeaderSize
  | .blockHistory records => level.map fun cells => records.foldl (setBlock metadata) cells
  | .setBlock r => level.map fun cells => setBlock metadata cells r
  | _ => level

/-- The level a client obtains by replaying what it was sent. -/
def replay (packets : List ServerPacket) : ClientLevel :=
  packets.foldl (receive metadata zlib garbage) none

end ClientLevel

/-- The blocks of a mapped file that level data carry. -/
def carriedBlocks (metadata : WorldMetadata) (blocks : List UInt8) : List UInt8 :=
  (blocks.drop blockFileHeaderSize).take (metadata.volume - blockFileHeaderSize)

/-! ## Commits on both sides

The server writes a record into the mapped file, the client into its level. Both compute an index from the
same coordinates, but the file has a header and the comparison of the server does not count it, so that the
two agree only on the cells that level data carry.
-/

section Commits

variable {metadata : WorldMetadata} {blocks : List UInt8} {r : BlockHistoryRecord}

/-- A commit writes one block. -/
theorem length_commitBlockChange (metadata : WorldMetadata) (blocks : List UInt8) (r : BlockHistoryRecord) :
    (Server.commitBlockChange metadata blocks r).length = blocks.length := by
  simp only [Server.commitBlockChange]
  split_ifs
  · exact List.length_set
  · rfl

/-- **One record**: what the server commits is what the client sets. -/
theorem carriedBlocks_commitBlockChange (hvalid : metadata.Valid)
    (hmapped : blocks.length = blockFileHeaderSize + metadata.volume) (hr : r.InWorld metadata) :
    carriedBlocks metadata (Server.commitBlockChange metadata blocks r) =
      ClientLevel.setBlock metadata (carriedBlocks metadata blocks) r := by
  have hoffset := BlockHistoryRecord.offset_eq hvalid hr
  have hlength : (carriedBlocks metadata blocks).length = metadata.volume - blockFileHeaderSize := by
    rw [carriedBlocks, List.length_take, List.length_drop]
    omega
  rw [BlockHistoryRecord.offset] at hoffset
  simp only [Server.commitBlockChange, hoffset, ClientLevel.setBlock, writeCell,
    BlockHistoryRecord.clientCell, if_pos hr]
  split_ifs with hlt
  · rw [carriedBlocks, carriedBlocks, List.drop_set, if_neg (by omega), Nat.add_sub_cancel_left, List.take_set]
  · -- one of the last four cells: the server does not write it, and the client has not got it
    exact (List.set_eq_of_length_le (by omega)).symm

/-- A whole snapshot, record by record. -/
theorem carriedBlocks_commit (hvalid : metadata.Valid)
    (hmapped : blocks.length = blockFileHeaderSize + metadata.volume) {records : List BlockHistoryRecord}
    (hrecords : ∀ r ∈ records, r.InWorld metadata) :
    carriedBlocks metadata (records.foldl (Server.commitBlockChange metadata) blocks) =
      records.foldl (ClientLevel.setBlock metadata) (carriedBlocks metadata blocks) := by
  induction records generalizing blocks with
  | nil => rfl
  | cons r records ih =>
      rw [List.foldl_cons, List.foldl_cons,
        ih ((length_commitBlockChange metadata blocks r).trans hmapped)
          fun r' hr' => hrecords r' (List.mem_cons_of_mem r hr'),
        carriedBlocks_commitBlockChange hvalid hmapped (hrecords r List.mem_cons_self)]

/-- **Level data** give the client the blocks they carry. -/
theorem receive_levelData (hvalid : metadata.Valid)
    (hmapped : blocks.length = blockFileHeaderSize + metadata.volume) {zlib : Zlib}
    (hlossless : zlib.Lossless) (hbounded : zlib.Bounded) (garbage : Nat → UInt8) (level : ClientLevel) :
    ClientLevel.receive metadata zlib garbage level (.levelData blocks) =
      some (carriedBlocks metadata blocks) := by
  have hvol := hvalid.volume_lt
  obtain ⟨stream, hstream, hserialized⟩ := PacketLevelDataChunk.serialized_new zlib hbounded blocks
    metadata.volume (by omega) (by omega) (BitVec.ofInt 16 metadata.width)
    (BitVec.ofInt 16 metadata.height) (BitVec.ofInt 16 metadata.length) garbage
  have hdecode : decodeChunks (levelDataBytes metadata zlib garbage blocks) =
      some (zlib.deflate (blocks.take metadata.volume)) := by
    rw [levelDataBytes, hserialized]
    exact hstream.decodeChunks_append _
  rw [ClientLevel.receive, hdecode, Option.map_some, hlossless, List.drop_take, carriedBlocks]

end Commits

/-! ## Packets without a revert

A refused change is answered with the old block. The answer is right when it is sent and may be wrong when
it arrives behind later changes, so the client here is one whose changes were accepted.
-/

/-- The change that is sent back to a client whose own change was refused. -/
def ServerPacket.isRevert : ServerPacket → Bool
  | .setBlock _ => true
  | _ => false

namespace ClientLevel

variable {metadata : WorldMetadata} {zlib : Zlib} {garbage : Nat → UInt8}

/-- A packet that is not about blocks leaves the level. -/
theorem receive_other {packet : ServerPacket} (level : ClientLevel)
    (hupdate : packet.isBlockUpdate = false) (hrevert : packet.isRevert = false) :
    receive metadata zlib garbage level packet = level := by
  cases packet with
  | levelData | blockHistory => exact absurd hupdate Bool.noConfusion
  | setBlock => exact absurd hrevert Bool.noConfusion
  | _ => rfl

/-- Without reverts a client follows the updates. -/
theorem foldl_receive_filter {packets : List ServerPacket}
    (hrevert : ∀ packet ∈ packets, packet.isRevert = false) (level : ClientLevel) :
    packets.foldl (receive metadata zlib garbage) level =
      (packets.filter (·.isBlockUpdate)).foldl (receive metadata zlib garbage) level := by
  induction packets generalizing level with
  | nil => rfl
  | cons packet packets ih =>
      have hrest := ih fun other hother => hrevert other (List.mem_cons_of_mem packet hother)
      cases hupdate : packet.isBlockUpdate with
      | true => rw [List.filter_cons_of_pos hupdate, List.foldl_cons, List.foldl_cons, hrest]
      | false =>
          rw [List.filter_cons_of_neg (Bool.eq_false_iff.mp hupdate), List.foldl_cons,
            receive_other level hupdate (hrevert packet List.mem_cons_self), hrest]

/-- The snapshots that are passed on set their records one after the other. -/
theorem foldl_receive_historyPackets (snapshots : List (List BlockHistoryRecord)) (cells : List UInt8) :
    (historyPackets snapshots).foldl (receive metadata zlib garbage) (some cells) =
      some (snapshots.flatten.foldl (setBlock metadata) cells) := by
  induction snapshots generalizing cells with
  | nil => rfl
  | cons records snapshots ih =>
      rw [List.flatten_cons, List.foldl_append, ← ih]
      cases hempty : records.isEmpty with
      | true =>
          obtain rfl := List.isEmpty_iff.mp hempty
          rfl
      | false =>
          rw [historyPackets, List.filter_cons_of_pos (by rw [hempty]; rfl), List.map_cons, List.foldl_cons]
          rfl

end ClientLevel

/-! ## What the events of a join send -/

/-- From `s` to `t` connection `c` is sent more, but no revert. -/
def SendsNoRevert (c : Nat) (s t : Server) : Prop :=
  ∃ more, t.sent c = s.sent c ++ more ∧ ∀ packet ∈ more, packet.isRevert = false

namespace SendsNoRevert

variable {s t u : Server} {c : Nat}

/-- Nothing is sent. -/
theorem of_sent (h : t.sent = s.sent) : SendsNoRevert c s t :=
  ⟨[], by rw [h, List.append_nil], fun _ hmem => absurd hmem List.not_mem_nil⟩

theorem refl (s : Server) : SendsNoRevert c s s := of_sent rfl

theorem trans (hst : SendsNoRevert c s t) (htu : SendsNoRevert c t u) : SendsNoRevert c s u := by
  obtain ⟨more, hmore, hst⟩ := hst
  obtain ⟨more', hmore', htu⟩ := htu
  refine ⟨more ++ more', by rw [hmore', hmore, List.append_assoc], fun packet hmem => ?_⟩
  exact (List.mem_append.mp hmem).elim (hst packet) (htu packet)

/-- A packet that is no revert, or goes to another connection. -/
theorem send (s : Server) (conn : Connection) {packet : ServerPacket} (accepted : Bool)
    (hpacket : conn.id = c → packet.isRevert = false) : SendsNoRevert c s (s.send conn packet accepted) := by
  unfold Server.send
  cases accepted with
  | false => exact refl s
  | true =>
      by_cases hc : conn.id = c
      · refine ⟨[packet], ?_, fun other hmem => List.mem_singleton.mp hmem ▸ hpacket hc⟩
        show Function.update s.sent conn.id _ c = _
        rw [hc, Function.update_self]
      · refine ⟨[], ?_, fun _ hmem => absurd hmem List.not_mem_nil⟩
        show Function.update s.sent conn.id _ c = _
        rw [Function.update_of_ne (Ne.symm hc), List.append_nil]

theorem sendClosed (c : Nat) :
    SendClosed (SendsNoRevert c) fun id packet => id = c → packet.isRevert = false where
  trans := trans
  silent hsent _ := of_sent hsent
  send s conn _ accepted hpacket := send s conn accepted hpacket

/-- The tick takes no change back. -/
theorem tickPlayer (s : Server) (i now : Nat) (o : Outcomes) : SendsNoRevert c s (s.tickPlayer i now o) := by
  refine (sendClosed c).tickPlayer s i now o fun conn p packet _ _ hpacket _ => ?_
  cases packet with
  | setBlock r => exact absurd hpacket (by cases (s.players p).state <;> exact id)
  | _ => rfl

/-- Nor does a schedule. -/
theorem scheduleTask (s : Server) (task : WorldTaskId) (now : Nat) (posted : Bool) :
    SendsNoRevert c s (s.scheduleTask task now posted) := by
  cases task <;>
  · simp only [Server.scheduleTask]
    split_ifs
    · exact of_sent rfl
    · exact refl s

/-- The run of the task sends block histories and levels. -/
theorem runLevel (s : Server) (o o' : Outcomes) : SendsNoRevert c s (s.runTask .syncBlock o o') := by
  have hhistory := fun records => (sendClosed c).syncBlockHistory s records o fun _ _ _ _ _ => rfl
  have hlevel : ∀ ps (u : Server), SendsNoRevert c u (u.processLevelWaitPlayer ps o') :=
    fun ps u => (sendClosed c).sendAndTransit .levelInitialized ps o' u fun _ _ _ _ _ => rfl
  show SendsNoRevert c s (Server.updateSyncBlockTask (s.syncBlock _ _ o o') _)
  rw [Server.syncBlock_eq]
  exact ((hhistory _).trans (hlevel _ _)).trans (of_sent rfl)

end SendsNoRevert

namespace Server

open ClientPacket

/-- A change that comes from slot `i` is not refused. -/
def ChangeAccepted (i : Nat) (s : Server) : Event → Prop
  | .receive j (.setBlock x y z mode blockId) _ _ _ =>
      j = i → (s.pushBlock (changedBlock x y z mode blockId)).2 = true
  | _ => True

instance (i : Nat) (s : Server) : (e : Event) → Decidable (ChangeAccepted i s e)
  | .receive _ (.setBlock ..) _ _ _ => inferInstanceAs (Decidable (_ → _))
  | .receive _ (.handshake ..) _ _ _ | .receive _ .ping _ _ _ | .receive _ (.setPlayerPosition _) _ _ _
  | .receive _ (.chatMessage ..) _ _ _ | .receive _ (.extInfo _) _ _ _ | .receive _ (.extEntry ..) _ _ _
  | .receive _ (.twoWayPing _) _ _ _ | .receive _ (.extPing _) _ _ _ | .accept _ | .cleanup .. | .kick ..
  | .receiveError .. | .tickPlayer .. | .schedule .. | .runTask .. | .response .. | .load .. => isTrue trivial

/-- A refused change is reverted at its sender alone. -/
theorem sendsNoRevert_setBlock {s : Server} (ht : TableOk s) {i j p : Nat} {conn : Connection}
    (hp : s.HasPlayer i conn p) {x y z : BitVec 16} {mode blockId : UInt8} (now : Nat) (accepted : Bool)
    (garbage : PlayerTypeId)
    (haccepted : j = i → (s.pushBlock (changedBlock x y z mode blockId)).2 = true) :
    SendsNoRevert conn.id s (s.receivePacket j (.setBlock x y z mode blockId) now accepted garbage) := by
  unfold receivePacket
  cases hconn : s.connection j with
  | none => exact .refl s
  | some conn' =>
      show SendsNoRevert conn.id s (if _ then _ else _)
      split_ifs
      · refine (SendsNoRevert.of_sent (t := s.interact j now) rfl).trans ?_
        show SendsNoRevert conn.id (s.interact j now) ((s.interact j now).handleSetBlockPacket _ x y z mode
          blockId accepted)
        rcases (s.interact j now).handleSetBlockPacket_cases
            (conn'.updateLastInteractionTime now) x y z mode blockId accepted with ⟨-, heq⟩ | ⟨hrefused, r, heq⟩
        · rw [heq]
          exact .of_sent rfl
        · rw [heq]
          refine .send _ _ accepted fun hid => ?_
          obtain rfl := ht.id_inj _ _ _ _ hconn hp.1 hid
          exact absurd (haccepted rfl) (Bool.eq_false_iff.mp hrefused)
      · exact .refl s

end Server

/-! ## Runs -/

/-- What the events of a join keep, from `s₀` on. It is the invariant of a join together with what the
client could be confused by. -/
structure LevelRun (s₀ : Server) (i c p : Nat) (a : BlockTrace) (s : Server) : Prop where
  base : TableOk s ∧ HistoryOk s ∧ LevelTaskOk s
  live : s.ReferencesLive
  join : JoinOk s₀ i c p a s
  sends : SendsNoRevert c s₀ s

namespace LevelRun

variable {s₀ s t : Server} {i c p : Nat} {a : BlockTrace}

/-- One event, with the condition on the changes of this client. -/
theorem step (h : LevelRun s₀ i c p a s) {e : Event} (he : e.IsBlockEvent) (haccepted : s.ChangeAccepted i e)
    (hstep : s.step e = some t) : LevelRun s₀ i c p (s.traceBlocks a e) t := by
  obtain ⟨hcalls, hdeletes⟩ := JoinOk.callsMeet s he
  have hbase := (HistoryOk.closed.inter LevelTaskOk.closed).step h.base e (fun _ _ => trivial) hstep
  refine ⟨hbase, (Server.ReferencesLive.step ⟨h.base.1, h.live⟩ hcalls hdeletes hstep).2,
    h.join.step h.base h.live he hstep, h.sends.trans ?_⟩
  cases e with
  | receive j packet now accepted garbage =>
      obtain rfl := Option.some.inj hstep
      cases packet with
      | setBlock x y z mode blockId =>
          obtain ⟨conn, hp, -, rfl⟩ := h.join.player
          exact Server.sendsNoRevert_setBlock h.base.1 hp now accepted garbage haccepted
      | _ => exact he.elim
  | tickPlayer j now o =>
      obtain rfl := Option.some.inj hstep
      exact .tickPlayer s j now o
  | schedule task now posted =>
      obtain rfl := Option.some.inj hstep
      exact .scheduleTask s task now posted
  | runTask task o o' =>
      cases task with
      | syncBlock =>
          rw [Server.step] at hstep
          split_ifs at hstep
          obtain rfl := Option.some.inj hstep
          exact .runLevel s o o'
      | _ => exact he.elim
  | _ => exact he.elim

/-- Once it is served, a client holds the committed blocks. -/
theorem replay_eq (h : LevelRun s₀ i c p a s) (hvalid : s₀.world.metadata.Valid)
    (hmapped : s₀.world.blockMapping.length = blockFileHeaderSize + s₀.world.metadata.volume)
    (hrecords : ∀ r ∈ s₀.pendingBlocks ++ a.pushed, r.InWorld s₀.world.metadata) {zlib : Zlib}
    (hlossless : zlib.Lossless) (hbounded : zlib.Bounded) (garbage : Nat → UInt8)
    (hserved : State.levelInitialized ≤ (s.players p).state) :
    ClientLevel.replay s₀.world.metadata zlib garbage (s.sent c) =
      some (carriedBlocks s₀.world.metadata s.world.blockMapping) := by
  obtain ⟨more, hmore, hrevert⟩ := h.sends
  cases h.join.phase with
  | waiting updates loggedIn state next queued =>
      exact absurd (hserved.trans state) (by decide)
  | served before after split built updates state queued =>
      have hall : ∀ r ∈ before.flatten ++ after.flatten, r.InWorld s₀.world.metadata := by
        intro r hr
        refine hrecords r ?_
        rw [h.join.inOrder, split, List.flatten_append]
        exact List.mem_append_left _ hr
      have hfile : (s₀.levelAfter before).length = blockFileHeaderSize + s₀.world.metadata.volume := by
        rw [Server.levelAfter, ← hmapped]
        exact Server.length_commitBlockChanges s₀ before.flatten
      -- the updates sent since `s₀` are the level and the snapshots after it
      have hupdates : more.filter (·.isBlockUpdate) =
          .levelData (s₀.levelAfter before) :: historyPackets after := by
        rw [Server.blockUpdates, Server.blockUpdates, hmore, List.filter_append] at updates
        exact List.append_cancel_left updates
      rw [ClientLevel.replay, hmore, List.foldl_append, ClientLevel.foldl_receive_filter hrevert, hupdates,
        List.foldl_cons, receive_levelData hvalid hfile hlossless hbounded,
        ClientLevel.foldl_receive_historyPackets,
        ← carriedBlocks_commit hvalid hfile fun r hr => hall r (List.mem_append_right _ hr),
        h.join.committed, split, Server.levelAfter, Server.levelAfter, List.flatten_append, List.foldl_append]

end LevelRun

namespace Server

/-- **A client holds the blocks of the server.** After any run of changes, ticks and `sync_block`, in which
its own changes were accepted and all changes are in the world, a player that has been given its level
makes of everything it was sent exactly the committed blocks, up to the four that level data never carry. -/
theorem clientLevel_eq_committed {maxClients : Nat} {metadata : WorldMetadata} {blockMapping : List UInt8}
    {pre es : List Event} {s t : Server} {i p : Nat} {conn : Connection}
    (hpre : run Server.step (Server.init maxClients metadata blockMapping) pre = some s)
    (hlive : s.ReferencesLive) (hp : s.HasPlayer i conn p) (honline : conn.isOnline = true)
    (hloggedIn : .handshaking ≤ (s.players p).state) (hstate : (s.players p).state < .levelInitializing)
    (hvalid : s.world.metadata.Valid)
    (hmapped : s.world.blockMapping.length = blockFileHeaderSize + s.world.metadata.volume)
    (hes : ∀ e ∈ es, e.IsBlockEvent) (haccepted : Along Server.step (ChangeAccepted i) s es)
    (hrecords : ∀ r ∈ s.pendingBlocks ++ (follow Server.step traceBlocks {} s es).pushed,
      r.InWorld s.world.metadata)
    {zlib : Zlib} (hlossless : zlib.Lossless) (hbounded : zlib.Bounded) (garbage : Nat → UInt8)
    (hrun : run Server.step s es = some t) (hserved : State.levelInitialized ≤ (t.players p).state) :
    ClientLevel.replay s.world.metadata zlib garbage (t.sent conn.id) =
      some (carriedBlocks s.world.metadata t.world.blockMapping) := by
  have hbase := (HistoryOk.closed.inter LevelTaskOk.closed).run
    (s := Server.init maxClients metadata blockMapping)
    ⟨TableOk.init .., HistoryOk.init .., fun _ => ⟨rfl, rfl⟩, fun _ hq => absurd hq List.not_mem_nil⟩
    (Along.of_forall fun _ _ _ _ => trivial) hpre
  have h : LevelRun s i conn.id p _ t :=
    run_invariant_follow (f := traceBlocks) (P := LevelRun s i conn.id p)
      (G := fun s e => e.IsBlockEvent ∧ s.ChangeAccepted i e)
      (fun a s' e t' h hG hstep => h.step hG.1 hG.2 hstep)
      ⟨hbase, hlive, joinOk_start hbase.2.2 hp honline hloggedIn hstate, .refl s⟩
      ((Along.of_forall_mem fun e he _ => hes e he).and haccepted) hrun
  exact h.replay_eq hvalid hmapped hrecords hlossless hbounded garbage hserved

/-- In a world of 4 x 4 x 4 blocks a guest is queued, changes a block before its level is built, and
another one after. -/
theorem clientLevel_eq_committed_withChanges :
    ∃ s t, run Server.step stoneServer (guestLogin 0) = some s ∧
      run Server.step s joinWithChanges = some t ∧
      ClientLevel.replay s.world.metadata MappedWorld.stoneCubeZlib (fun _ => 0) (t.sent 0) =
        some (carriedBlocks s.world.metadata t.world.blockMapping) := by
  have hstart : ((run Server.step stoneServer (guestLogin 0)).map fun s =>
      ((s.connection 0).map fun conn => (conn.player, conn.isOnline, conn.id),
        (s.players 0).state, s.referencedPlayers)) =
      some (some (some 0, true, 0), .handshaked, []) := by decide
  have hworld : ((run Server.step stoneServer (guestLogin 0)).map fun s =>
      (s.world.metadata, s.world.blockMapping.length, s.pendingBlocks)) =
      some (stoneServer.world.metadata, 68, []) := by decide
  obtain ⟨s, hs, heq⟩ := Option.map_eq_some_iff.mp hstart
  simp only [Prod.mk.injEq] at heq
  obtain ⟨hconn, hstate, hnone⟩ := heq
  obtain ⟨conn, hslot, hconn⟩ := Option.map_eq_some_iff.mp hconn
  simp only [Prod.mk.injEq] at hconn
  obtain ⟨hplayer, honline, hid⟩ := hconn
  rw [hs, Option.map_some, Option.some.injEq] at hworld
  simp only [Prod.mk.injEq] at hworld
  obtain ⟨hmetadata, hlength, hpending⟩ := hworld
  have hguards : ((run Server.step stoneServer (guestLogin 0)).map fun s =>
      (decide (Along Server.step (ChangeAccepted 0) s joinWithChanges),
        decide (∀ r ∈ (follow Server.step traceBlocks {} s joinWithChanges).pushed,
          r.InWorld stoneServer.world.metadata))) = some (true, true) := by decide
  rw [hs, Option.map_some, Option.some.injEq, Prod.mk.injEq] at hguards
  obtain ⟨haccepted, hrecords⟩ := hguards
  have hwhole : ((run Server.step stoneServer (guestLogin 0 ++ joinWithChanges)).map fun t =>
      (t.players 0).state) = some .spawning := by decide
  obtain ⟨t, ht, hserved⟩ := Option.map_eq_some_iff.mp hwhole
  obtain ⟨s', hs', hrun⟩ := run_append_eq_some.mp ht
  obtain rfl := Option.some.inj (hs.symm.trans hs')
  have hlive : s.ReferencesLive := fun q hq => absurd (hnone ▸ hq) List.not_mem_nil
  have hlevel := clientLevel_eq_committed hs hlive ⟨hslot, hplayer⟩ honline (by rw [hstate]; decide)
    (by rw [hstate]; decide) (hmetadata ▸ stoneServer_valid)
    (by rw [hlength, hmetadata]; rfl) (by simp [joinWithChanges, Event.IsBlockEvent])
    (of_decide_eq_true haccepted)
    (by rw [hpending, List.nil_append, hmetadata]; exact of_decide_eq_true hrecords)
    MappedWorld.stoneCubeZlib_lossless MappedWorld.stoneCubeZlib_bounded (fun _ => 0) hrun
    (by rw [hserved]; decide)
  rw [hid] at hlevel
  exact ⟨s, t, hs, hrun, hlevel⟩

end Server

end Mmocraft
