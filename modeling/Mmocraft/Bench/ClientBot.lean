/-
# Mmocraft.Bench.ClientBot -- the stream parser of the bench client

`ClientBot::handle_io_event` goes through a received buffer from packet id to packet id, with the number
of bytes it still has to skip of a packet kept from one receive to the next.  Its loop moves on only in
the cases of the ids it knows: at any other id it writes a line to the log and looks at the same byte
again, for ever.  Where it knows the ids, it is the reader of `StreamCursor` with the client's table.

The loop is modelled as it stands, with nothing that would make it end (`Lib.WhileLoop`), so that not
returning is a result like any other: `handleIoEvent_eq_none` says when it does not. The proof compares a turn
of the loop with a turn of the reader (`ahead`, `turn_spec`), for any content of the buffer; that a server
stream has known ids, and which it has not, comes from `Net.ServerStream`.
-/
import Mmocraft.Lib.StreamCursor
import Mmocraft.Lib.WhileLoop
import Mmocraft.Net.ServerStream

namespace Mmocraft.Bench

open Mmocraft.Lib Mmocraft.Lib.Cursor Mmocraft.Net

/-! ## The parser -/

/-- `ClientState`. -/
inductive ClientState where
  | error | initialized | connected | handshakeRequested | handshakeCompleted | levelInitialized
  deriving DecidableEq, Repr

/-- What `handle_io_event` keeps in the client. -/
structure ClientBot where
  remainPacketSize : Nat := 0
  state : ClientState := .initialized
  deriving DecidableEq, Repr

/-- The cases of the switch: the id, the size that is consumed, and the state that is set. -/
def clientCases : List (UInt8 × Nat × Option ClientState) :=
  [(PacketTypeId.handshake, PacketHandshake.packetSize, some .handshakeCompleted),
    (PacketTypeId.ping, PacketPing.packetSize, none),
    (PacketTypeId.levelInitialize, PacketLevelInit.packetSize, none),
    (PacketTypeId.levelDatachunk, PacketLevelDataChunk.packetSize, none),
    (PacketTypeId.levelFinalize, 7, some .levelInitialized),
    (PacketTypeId.setBlockServer, PacketSetBlockServer.packetSize, none),
    (PacketTypeId.spawnPlayer, PacketSpawnPlayer.packetSize, none),
    (PacketTypeId.setPlayerPosition, PacketSetPlayerPosition.packetSize, none),
    (PacketTypeId.updatePlayerPosition, 7, none),
    (PacketTypeId.updatePlayerCoordinate, 5, none),
    (PacketTypeId.updatePlayerOrientation, 4, none),
    (PacketTypeId.despawnPlayer, PacketDespawnPlayer.packetSize, none),
    (PacketTypeId.chatMessage, PacketChatMessage.packetSize, none),
    (PacketTypeId.disconnectPlayer, PacketDisconnectPlayer.packetSize, some .error),
    (PacketTypeId.setPlayerid, PacketSetPlayerID.packetSize, none),
    (PacketTypeId.extPing, PacketExtPing.packetSize, none)]

/-- The case that the switch takes, or `none` for `default`. -/
def clientCase (packetId : UInt8) : Option (Nat × Option ClientState) := clientCases.lookup packetId

/-- The client's table of packet sizes. -/
def clientPacketSize (packetId : UInt8) : Option Nat := (clientCase packetId).map Prod.fst

/-- The variables of the loop; `idReads` collects the offsets at which `data_begin[0]` is read. -/
structure ReadLoop where
  remainPacketSize : Nat
  dataBegin : Nat
  state : ClientState
  idReads : List Nat
  deriving DecidableEq, Repr

namespace ReadLoop

/-- `CONSUME_PACKET_SIZE`. -/
def consumePacketSize (s : ReadLoop) (dataEnd packetSize : Nat) : ReadLoop :=
  let remainPacketSize := packetSize - min packetSize (dataEnd - s.dataBegin)
  { s with remainPacketSize := remainPacketSize
           dataBegin := s.dataBegin + (packetSize - remainPacketSize) }

/-- One turn of the loop, or `none` where its condition does not hold. -/
def turn (data : List UInt8) (s : ReadLoop) : Option ReadLoop :=
  if s.remainPacketSize = 0 ∧ s.dataBegin < data.length then
    match data[s.dataBegin]? with
    | none => none
    | some packetId =>
        let s := { s with idReads := s.idReads ++ [s.dataBegin] }
        match clientCase packetId with
        | some (packetSize, state) =>
            some { s.consumePacketSize data.length packetSize with state := state.getD s.state }
        -- `default` logs the id
        | none => some s
  else none

/-- The partial receive in front of the loop. -/
def enter (bot : ClientBot) (data : List UInt8) : ReadLoop :=
  let partialPacketSize := min bot.remainPacketSize data.length
  { remainPacketSize := bot.remainPacketSize - partialPacketSize, dataBegin := partialPacketSize
    state := bot.state, idReads := [] }

end ReadLoop

/-- What `handle_io_event` leaves: the client, the offsets at which ids were read, and the number of bytes
it takes from the receive buffer. -/
structure Handled where
  bot : ClientBot
  idReads : List Nat
  size : Nat
  deriving DecidableEq, Repr

/-- `ClientBot::handle_io_event`, if its loop ends within `fuel` turns. -/
def handleIoEvent (fuel : Nat) (bot : ClientBot) (data : List UInt8) : Option Handled :=
  (whileLoop (ReadLoop.turn data) fuel (ReadLoop.enter bot data)).map fun s =>
    ⟨⟨s.remainPacketSize, s.state⟩, s.idReads, data.length⟩

/-- `handle_io_event` returns. -/
def Terminates (bot : ClientBot) (data : List UInt8) : Prop :=
  ∃ fuel, (handleIoEvent fuel bot data).isSome = true

/-- One receive after the other, each of them handled: the client, and the positions in the stream at
which ids were read.  The first receive begins at position `base`. -/
def receiveAll (fuel : Nat) (bot : ClientBot) (base : Nat) : List (List UInt8) →
    Option (ClientBot × List Nat)
  | [] => some (bot, [])
  | data :: rest => do
      let handled ← handleIoEvent fuel bot data
      let (bot', idReads) ← receiveAll fuel handled.bot (base + handled.size) rest
      return (bot', handled.idReads.map (base + ·) ++ idReads)

/-! ## The table -/

theorem mem_clientCases {packetId : UInt8} {n : Nat} (h : clientPacketSize packetId = some n) :
    ∃ state, (packetId, n, state) ∈ clientCases := by
  obtain ⟨⟨m, state⟩, hcase, rfl⟩ := Option.map_eq_some_iff.mp h
  obtain ⟨before, behind, hcases, -⟩ := List.lookup_eq_some_iff.mp hcase
  exact ⟨state, by rw [hcases]; exact List.mem_append_right _ List.mem_cons_self⟩

/-- What the client knows about sizes is right. -/
theorem serverPacketSize_of_client {packetId : UInt8} {n : Nat} (h : clientPacketSize packetId = some n) :
    serverPacketSize packetId = some n := by
  have hcases : ∀ c ∈ clientCases, serverPacketSize c.1 = some c.2.1 := by decide
  obtain ⟨state, hmem⟩ := mem_clientCases h
  exact hcases _ hmem

theorem clientPacketSize_pos {packetId : UInt8} {n : Nat} (h : clientPacketSize packetId = some n) :
    0 < n := by
  have hcases : ∀ c ∈ clientCases, 0 < c.2.1 := by decide
  obtain ⟨state, hmem⟩ := mem_clientCases h
  exact hcases _ hmem

/-- The packets of the server have the sizes the client knows, or ids it does not know. -/
theorem agrees_of_sized {p : List UInt8} (h : Sized p) : Agrees clientPacketSize p := by
  obtain ⟨packetId, t, hp, hsize⟩ := h
  refine ⟨packetId, t, hp, fun n hn => ?_⟩
  exact Option.some.inj ((serverPacketSize_of_client hn).symm.trans hsize)

/-! ## The loop is the reader -/

namespace ReadLoop

/-- Where the loop is, as a reader. -/
def cursor (s : ReadLoop) : Cursor := ⟨s.dataBegin, s.remainPacketSize, s.idReads⟩

/-- What holds between two turns: a packet is only incomplete at the end of the data. -/
structure Between (data : List UInt8) (s : ReadLoop) : Prop where
  le : s.dataBegin ≤ data.length
  incomplete : s.remainPacketSize = 0 ∨ s.dataBegin = data.length

/-- What the reader makes of the data that is left. -/
def ahead (data : List UInt8) (s : ReadLoop) : Option Cursor :=
  feedAll clientPacketSize s.cursor (data.drop s.dataBegin)

/-- The loop ends where the reader does. -/
theorem ahead_of_exit {data : List UInt8} {s : ReadLoop} (h : s.Between data) (hexit : turn data s = none) :
    ahead data s = some s.cursor := by
  have hend : s.dataBegin = data.length := by
    rcases h.incomplete with h0 | hend
    · by_contra hne
      have hlt : s.dataBegin < data.length := Nat.lt_of_le_of_ne h.le hne
      rw [turn, if_pos ⟨h0, hlt⟩, List.getElem?_eq_getElem hlt] at hexit
      cases hcase : clientCase data[s.dataBegin] with
      | none => simp [hcase] at hexit
      | some c => simp [hcase] at hexit
    · exact hend
  rw [ahead, hend, List.drop_length]
  rfl

/-- A turn at a known id moves over the packet, or over what there is of it. -/
theorem turn_known {data : List UInt8} {s : ReadLoop} (h0 : s.remainPacketSize = 0)
    (hlt : s.dataBegin < data.length) {n : Nat} {state : Option ClientState}
    (hcase : clientCase data[s.dataBegin] = some (n, state)) :
    ∃ s', turn data s = some s' ∧ s'.idReads = s.idReads ++ [s.dataBegin] ∧
      s'.dataBegin = s.dataBegin + min n (data.length - s.dataBegin) ∧
      s'.remainPacketSize = n - (data.length - s.dataBegin) := by
  rw [turn, if_pos ⟨h0, hlt⟩, List.getElem?_eq_getElem hlt]
  simp only [hcase]
  refine ⟨_, rfl, rfl, ?_, ?_⟩
  · simp only [consumePacketSize]
    omega
  · simp only [consumePacketSize]
    omega

/-- That is the way of the reader to the end of the packet. -/
theorem ahead_of_turn_known {data : List UInt8} {s s' : ReadLoop} (h0 : s.remainPacketSize = 0)
    (hlt : s.dataBegin < data.length) {n : Nat} (hsize : clientPacketSize data[s.dataBegin] = some n)
    (hreads : s'.idReads = s.idReads ++ [s.dataBegin])
    (hbegin : s'.dataBegin = s.dataBegin + min n (data.length - s.dataBegin))
    (hremain : s'.remainPacketSize = n - (data.length - s.dataBegin)) :
    ahead data s' = ahead data s := by
  have hlength : (data.drop (s.dataBegin + 1)).length + 1 = data.length - s.dataBegin := by
    rw [List.length_drop]
    omega
  have hskip := @feedAll_eq_drop _ clientPacketSize (fun _ _ h => clientPacketSize_pos h) s.cursor h0 _ _ hsize (data.drop (s.dataBegin + 1))
  rw [← List.drop_eq_getElem_cons hlt, hlength, List.drop_drop] at hskip
  -- both are at the end of the packet, or of the data
  have hbehind : data.drop (s.dataBegin + min n (data.length - s.dataBegin)) =
      data.drop (s.dataBegin + n) := by
    rcases Nat.le_total n (data.length - s.dataBegin) with hle | hle
    · rw [Nat.min_eq_left hle]
    · rw [List.drop_eq_nil_of_le (by omega), List.drop_eq_nil_of_le (by omega)]
  rw [ahead, ahead, hskip, cursor, hreads, hremain, hbegin, hbehind]
  rfl

/-- A turn at an unknown id goes nowhere, and the reader is stuck there. -/
theorem turn_unknown {data : List UInt8} {s : ReadLoop} (h0 : s.remainPacketSize = 0)
    (hlt : s.dataBegin < data.length) (hcase : clientCase data[s.dataBegin] = none) :
    ahead data s = none ∧ turn data s = some { s with idReads := s.idReads ++ [s.dataBegin] } := by
  constructor
  · rw [ahead, List.drop_eq_getElem_cons hlt]
    exact feedAll_unknown (c := s.cursor) h0 (by rw [clientPacketSize, hcase]; rfl) _
  · rw [turn, if_pos ⟨h0, hlt⟩, List.getElem?_eq_getElem hlt]
    simp only [hcase]

/-- One turn, for the reader: it stays where the data begins to be read, and gets nearer to the end if it
is not stuck. -/
theorem turn_spec {data : List UInt8} {s s' : ReadLoop} (h : s.Between data)
    (hturn : turn data s = some s') :
    s'.Between data ∧ ahead data s' = ahead data s ∧
      ((ahead data s).isSome = true → s.dataBegin < s'.dataBegin) := by
  have hcond : s.remainPacketSize = 0 ∧ s.dataBegin < data.length := by
    by_contra hcond
    rw [turn, if_neg hcond] at hturn
    exact nomatch hturn
  obtain ⟨h0, hlt⟩ := hcond
  cases hcase : clientCase data[s.dataBegin] with
  | none =>
      obtain ⟨hstuck, hstay⟩ := turn_unknown h0 hlt hcase
      obtain rfl := Option.some.inj (hstay.symm.trans hturn)
      refine ⟨⟨h.le, h.incomplete⟩, ?_, fun hsome => ?_⟩
      · rw [hstuck, ahead, List.drop_eq_getElem_cons hlt]
        exact feedAll_unknown (c := ⟨_, _, _⟩) h0 (by rw [clientPacketSize, hcase]; rfl) _
      · rw [hstuck] at hsome
        exact nomatch hsome
  | some c =>
      obtain ⟨n, state⟩ := c
      have hsize : clientPacketSize data[s.dataBegin] = some n := by rw [clientPacketSize, hcase]; rfl
      have hpos := clientPacketSize_pos hsize
      obtain ⟨s'', hturn', hreads, hbegin, hremain⟩ := turn_known h0 hlt hcase
      obtain rfl := Option.some.inj (hturn'.symm.trans hturn)
      refine ⟨⟨?_, ?_⟩, ahead_of_turn_known h0 hlt hsize hreads hbegin hremain, fun _ => ?_⟩
      · omega
      · omega
      · omega

theorem between_enter (bot : ClientBot) (data : List UInt8) : (enter bot data).Between data := by
  constructor
  · simp only [enter]
    omega
  · simp only [enter]
    omega

/-- The partial receive skips what is missing of a packet. -/
theorem ahead_enter (bot : ClientBot) (data : List UInt8) :
    ahead data (enter bot data) = feedAll clientPacketSize ⟨0, bot.remainPacketSize, []⟩ data := by
  have htake : (data.take (min bot.remainPacketSize data.length)).length =
      min bot.remainPacketSize data.length := by
    rw [List.length_take]
    omega
  conv_rhs => rw [← List.take_append_drop (min bot.remainPacketSize data.length) data]
  rw [feedAll_append, feedAll_skip (by simp only [htake]; omega), htake, Option.bind_some]
  simp only [ahead, cursor, enter, Nat.zero_add]

/-- Where the reader gets through, the loop ends where it ends. -/
theorem exists_returns_of_ahead {data : List UInt8} {s : ReadLoop} (h : s.Between data) {c : Cursor}
    (hahead : ahead data s = some c) : ∃ r, Returns (turn data) s r ∧ r.cursor = c := by
  obtain ⟨r, hreturns, ⟨hbetween, hr⟩, hexit⟩ := exists_returns
    (I := fun s => s.Between data ∧ ahead data s = some c) (fun s => data.length - s.dataBegin)
    (fun s s' hs hturn => by
      obtain ⟨hbetween, hsame, hlt⟩ := turn_spec hs.1 hturn
      have hmove := hlt (by rw [hs.2]; rfl)
      have hle := hbetween.le
      exact ⟨⟨hbetween, hsame.trans hs.2⟩, by omega⟩) ⟨h, hahead⟩
  exact ⟨r, hreturns, Option.some.inj ((ahead_of_exit hbetween hexit).symm.trans hr)⟩

/-- Where the reader is stuck, the loop does not end. -/
theorem whileLoop_eq_none_of_ahead {data : List UInt8} {s : ReadLoop} (h : s.Between data)
    (hahead : ahead data s = none) (fuel : Nat) : whileLoop (turn data) fuel s = none := by
  apply whileLoop_eq_none (I := fun s => s.Between data ∧ ahead data s = none) _ ⟨h, hahead⟩ fuel
  rintro s ⟨hbetween, hstuck⟩
  cases hturn : turn data s with
  | none => exact nomatch hstuck.symm.trans (ahead_of_exit hbetween hturn)
  | some s' =>
      obtain ⟨hbetween', hsame, -⟩ := turn_spec hbetween hturn
      exact ⟨s', rfl, hbetween', hsame.trans hstuck⟩

end ReadLoop

/-! ## One receive -/

open ReadLoop

/-- What a handled receive has to do with the reader. -/
structure Handled.Agrees (r : Handled) (c : Cursor) (size : Nat) : Prop where
  remain : r.bot.remainPacketSize = c.remain
  idReads : r.idReads = c.heads
  size : r.size = size

theorem handleIoEvent_mono {fuel fuel' : Nat} {bot : ClientBot} {data : List UInt8} {r : Handled}
    (h : handleIoEvent fuel bot data = some r) (hle : fuel ≤ fuel') :
    handleIoEvent fuel' bot data = some r := by
  obtain ⟨s, hs, rfl⟩ := Option.map_eq_some_iff.mp h
  rw [handleIoEvent, whileLoop_mono hs hle]
  rfl

/-- Data that the reader gets through is handled. -/
theorem exists_handleIoEvent {bot : ClientBot} {data : List UInt8} {c : Cursor}
    (h : feedAll clientPacketSize ⟨0, bot.remainPacketSize, []⟩ data = some c) :
    ∃ fuel r, handleIoEvent fuel bot data = some r ∧ r.Agrees c data.length := by
  rw [← ahead_enter] at h
  obtain ⟨s, ⟨fuel, hfuel⟩, rfl⟩ := exists_returns_of_ahead (between_enter bot data) h
  exact ⟨fuel, _, by rw [handleIoEvent, hfuel]; rfl, rfl, rfl, rfl⟩

/-- On data where the reader is stuck, `handle_io_event` does not return. -/
theorem handleIoEvent_eq_none {bot : ClientBot} {data : List UInt8}
    (h : feedAll clientPacketSize ⟨0, bot.remainPacketSize, []⟩ data = none) (fuel : Nat) :
    handleIoEvent fuel bot data = none := by
  rw [← ahead_enter] at h
  rw [handleIoEvent, whileLoop_eq_none_of_ahead (between_enter bot data) h]
  rfl

/-- Whatever `handle_io_event` returns is what the reader finds. -/
theorem agrees_of_handleIoEvent {fuel : Nat} {bot : ClientBot} {data : List UInt8} {r : Handled}
    (h : handleIoEvent fuel bot data = some r) :
    ∃ c, feedAll clientPacketSize ⟨0, bot.remainPacketSize, []⟩ data = some c ∧ r.Agrees c data.length := by
  cases hfeed : feedAll clientPacketSize ⟨0, bot.remainPacketSize, []⟩ data with
  | none => exact nomatch h.symm.trans (handleIoEvent_eq_none hfeed fuel)
  | some c =>
      obtain ⟨fuel', r', h', hagrees⟩ := exists_handleIoEvent hfeed
      have hr := handleIoEvent_mono h (Nat.le_max_left fuel fuel')
      have hr' := handleIoEvent_mono h' (Nat.le_max_right fuel fuel')
      obtain rfl := Option.some.inj (hr.symm.trans hr')
      exact ⟨c, rfl, hagrees⟩

/-- **Termination**, for any client and any data. -/
theorem terminates_iff (bot : ClientBot) (data : List UInt8) :
    Terminates bot data ↔ HeadsKnown clientPacketSize (data.drop bot.remainPacketSize) := by
  rw [← feedAll_isSome_iff (fun _ _ h => clientPacketSize_pos h) ⟨0, bot.remainPacketSize, []⟩ data]
  constructor
  · rintro ⟨fuel, hsome⟩
    obtain ⟨r, hr⟩ := Option.isSome_iff_exists.mp hsome
    obtain ⟨c, hc, -⟩ := agrees_of_handleIoEvent hr
    rw [hc]
    rfl
  · intro hsome
    obtain ⟨c, hc⟩ := Option.isSome_iff_exists.mp hsome
    obtain ⟨fuel, r, hr, -⟩ := exists_handleIoEvent hc
    exact ⟨fuel, by rw [hr]; rfl⟩

/-! ## One receive after the other -/

theorem receiveAll_mono {fuel fuel' : Nat} (hle : fuel ≤ fuel') {bufs : List (List UInt8)}
    {bot : ClientBot} {base : Nat} {r : ClientBot × List Nat}
    (h : receiveAll fuel bot base bufs = some r) : receiveAll fuel' bot base bufs = some r := by
  induction bufs generalizing bot base r with
  | nil => exact h
  | cons data rest ih =>
      obtain ⟨handled, hhandled, hrest⟩ := Option.bind_eq_some_iff.mp h
      obtain ⟨r', hr', hr⟩ := Option.bind_eq_some_iff.mp hrest
      rw [receiveAll, handleIoEvent_mono hhandled hle]
      simp only [Option.bind_eq_bind, Option.bind_some, ih hr']
      exact hr

/-- The reader over a first segment and the rest. -/
theorem feedAll_segments (base remain : Nat) (data more : List UInt8) :
    feedAll clientPacketSize ⟨base, remain, []⟩ (data ++ more) =
      (feedAll clientPacketSize ⟨0, remain, []⟩ data).bind fun c =>
        (feedAll clientPacketSize ⟨base + data.length, c.remain, []⟩ more).map fun c' =>
          ⟨c'.pos, c'.remain, c.heads.map (base + ·) ++ c'.heads⟩ := by
  have hfirst := @feedAll_shift _ clientPacketSize base [] ⟨0, remain, []⟩ data
  rw [List.map_nil, List.append_nil, Nat.add_zero] at hfirst
  rw [feedAll_append, hfirst]
  cases hdata : feedAll clientPacketSize ⟨0, remain, []⟩ data with
  | none => rfl
  | some c =>
      have hpos : c.pos = data.length := by rw [pos_of_feedAll hdata, Nat.zero_add]
      have hrest := @feedAll_shift _ clientPacketSize 0 (c.heads.map (base + ·))
        ⟨base + data.length, c.remain, []⟩ more
      simp only [Nat.zero_add, List.map_nil, List.append_nil, List.map_id'] at hrest
      simp only [Option.map_some, Option.bind_some, hpos, List.nil_append]
      exact hrest

/-- **The cuts do not matter**: the receives are handled as the reader goes through all the data. -/
theorem exists_receiveAll {bufs : List (List UInt8)} {bot : ClientBot} {base : Nat} {c : Cursor}
    (h : feedAll clientPacketSize ⟨base, bot.remainPacketSize, []⟩ bufs.flatten = some c) :
    ∃ fuel bot', receiveAll fuel bot base bufs = some (bot', c.heads) ∧
      bot'.remainPacketSize = c.remain := by
  induction bufs generalizing bot base c with
  | nil =>
      obtain rfl := Option.some.inj h
      exact ⟨0, bot, rfl, rfl⟩
  | cons data rest ih =>
      rw [List.flatten_cons, feedAll_segments] at h
      obtain ⟨c₁, hc₁, hrest⟩ := Option.bind_eq_some_iff.mp h
      obtain ⟨c₂, hc₂, rfl⟩ := Option.map_eq_some_iff.mp hrest
      obtain ⟨fuel₁, r, hr, hagrees⟩ := exists_handleIoEvent hc₁
      rw [← hagrees.remain, ← hagrees.size] at hc₂
      obtain ⟨fuel₂, bot', hbot', hremain⟩ := ih hc₂
      refine ⟨max fuel₁ fuel₂, bot', ?_, hremain⟩
      rw [receiveAll, handleIoEvent_mono hr (Nat.le_max_left _ _)]
      simp only [Option.bind_eq_bind, Option.bind_some, receiveAll_mono (Nat.le_max_right _ _) hbot',
        hagrees.idReads]
      rfl

/-- Where the reader is stuck, one of the receives is never handled. -/
theorem receiveAll_eq_none {bufs : List (List UInt8)} {bot : ClientBot} {base : Nat}
    (h : feedAll clientPacketSize ⟨base, bot.remainPacketSize, []⟩ bufs.flatten = none) (fuel : Nat) :
    receiveAll fuel bot base bufs = none := by
  induction bufs generalizing bot base with
  | nil => exact nomatch h
  | cons data rest ih =>
      rw [List.flatten_cons, feedAll_segments] at h
      rw [receiveAll]
      cases hhandled : handleIoEvent fuel bot data with
      | none => rfl
      | some r =>
          obtain ⟨c, hc, hagrees⟩ := agrees_of_handleIoEvent hhandled
          rw [hc, Option.bind_some, Option.map_eq_none_iff, ← hagrees.remain, ← hagrees.size] at h
          simp only [Option.bind_eq_bind, Option.bind_some, ih h]
          rfl

/-! ## Server streams -/

/-- A client that is between two packets handles the receives, reads ids where the packets of the stream
begin and nowhere else, and at the end is short of the rest of the last packet. -/
def ParsesStream (packets : List (List UInt8)) (bufs : List (List UInt8)) : Prop :=
  ∀ state, ∃ fuel bot, receiveAll fuel ⟨0, state⟩ 0 bufs =
      some (bot, offsets 0 (begun bufs.flatten.length packets)) ∧
    bot.remainPacketSize = (begun bufs.flatten.length packets).flatten.length - bufs.flatten.length

theorem flatten_packets (outputs : List ServerOutput) :
    (outputs.flatMap ServerOutput.packets).flatten = outputs.flatMap ServerOutput.bytes := by
  induction outputs with
  | nil => rfl
  | cons o outputs ih =>
      rw [List.flatMap_cons, List.flatten_append, o.flatten_packets, ih, List.flatMap_cons]

/-- What has been received of a server stream, cut anywhere, is parsed exactly if the client knows the ids
of the packets in it. -/
theorem parsesStream_iff {outputs : List ServerOutput} {bufs : List (List UInt8)}
    (h : bufs.flatten <+: outputs.flatMap ServerOutput.bytes) :
    ParsesStream (outputs.flatMap ServerOutput.packets) bufs ↔
      ∀ p ∈ begun bufs.flatten.length (outputs.flatMap ServerOutput.packets),
        HeadKnown clientPacketSize p := by
  have hagrees : ∀ p ∈ outputs.flatMap ServerOutput.packets, Agrees clientPacketSize p := by
    intro p hp
    obtain ⟨o, -, hp⟩ := List.mem_flatMap.mp hp
    exact agrees_of_sized (o.sized_packets p hp)
  rw [← flatten_packets] at h
  have hle := h.length_le
  have htake := List.prefix_iff_eq_take.mp h
  constructor
  · intro hparses p hp
    by_contra hunknown
    obtain ⟨fuel, bot, hreceive, -⟩ := hparses .connected
    have hstuck := feedAll_stream_unknown hagrees hp hunknown 0 []
    rw [← htake] at hstuck
    exact nomatch hreceive.symm.trans (receiveAll_eq_none hstuck fuel)
  · intro hknown state
    have hstream := feedAll_stream hagrees hle hknown 0 []
    rw [← htake] at hstream
    exact @exists_receiveAll bufs ⟨0, state⟩ 0 _ hstream

/-- **The stream parser.**  On any data it returns exactly if the ids that it meets by its own table are
known; and what has been received of a server stream, cut anywhere, is parsed exactly if the ids of the
packets in it are known. -/
theorem handleIoEvent_parses_iff (bot : ClientBot) (data : List UInt8) (outputs : List ServerOutput)
    (bufs : List (List UInt8)) :
    (Terminates bot data ↔ HeadsKnown clientPacketSize (data.drop bot.remainPacketSize)) ∧
      (bufs.flatten <+: outputs.flatMap ServerOutput.bytes →
        (ParsesStream (outputs.flatMap ServerOutput.packets) bufs ↔
          ∀ p ∈ begun bufs.flatten.length (outputs.flatMap ServerOutput.packets),
            HeadKnown clientPacketSize p)) :=
  ⟨terminates_iff bot data, fun hreceived => parsesStream_iff hreceived⟩

/-- A `SetPlayerID` packet in two receives, with a ping behind it. -/
theorem handleIoEvent_parses_setPlayerID :
    ParsesStream [[PacketTypeId.setPlayerid, 5], [PacketTypeId.ping]]
      [[PacketTypeId.setPlayerid], [5, PacketTypeId.ping]] := by
  refine ((handleIoEvent_parses_iff {} [] [.packet (.setPlayerID ⟨5⟩), .ping] _).2 (by decide)).mpr ?_
  intro p hp
  have hmem : p ∈ [[PacketTypeId.setPlayerid, 5], [PacketTypeId.ping]] := hp
  rcases List.mem_cons.mp hmem with rfl | hmem
  · exact ⟨_, _, rfl, rfl⟩
  · rw [List.mem_singleton.mp hmem]
    exact ⟨_, _, rfl, rfl⟩

/-- The client does not return from the `ExtInfo` packet of the server. -/
theorem not_terminates_extInfo :
    ¬ Terminates {} (ServerOutput.packet (.extInfo {})).bytes ∧
      ¬ ParsesStream (ServerOutput.packet (.extInfo {})).packets
        [(ServerOutput.packet (.extInfo {})).bytes] := by
  have hstuck : feedAll clientPacketSize ⟨0, 0, []⟩ (ServerOutput.packet (.extInfo {})).bytes = none :=
    feedAll_unknown rfl rfl _
  constructor
  · rintro ⟨fuel, hsome⟩
    rw [handleIoEvent_eq_none hstuck] at hsome
    exact nomatch hsome
  · intro hparses
    obtain ⟨fuel, bot, hreceive, -⟩ := hparses .connected
    rw [receiveAll_eq_none (by rw [List.flatten_singleton]; exact hstuck)] at hreceive
    exact nomatch hreceive

end Mmocraft.Bench
