/-
# Mmocraft.Net.ReceivePath -- from received segments to handled packets

The receive side of a `Connection`: the loop of `Connection::process_packets` over the bytes that
are in the receive buffer, the completion routine `IoRecvEvent::on_event_complete` around it, and
the runs of receives, posts and completions of one connection.  The result is that the segmentation
of the client's byte stream is invisible: what reaches `handle_packet` is the maximal framing of
everything received so far.

The invariant `Framed` is about everything received so far, so that its proof needs one fact about the loop
(`processPackets_frames`: it leaves the maximal framing of what is in the buffer) and one about framings (what
is left over goes in front of what comes next). That the buffer never gets full of an incomplete packet is
part of the result.
-/
import Mmocraft.Lib.Framing
import Mmocraft.Lib.Runs
import Mmocraft.Io.RecvEvent

namespace Mmocraft.Net

open Mmocraft.Lib Mmocraft.Io

/-! ## The parse loop -/

/-- What one call of `process_packets` does: the packets it hands to `handle_packet`, the error code
it leaves in the connection and the number of bytes it reports as parsed. -/
structure ProcessResult where
  handled : List (List UInt8)
  lastErrorCode : ErrorCode
  parsedBytes : Nat
  deriving DecidableEq, Repr

/-- `Connection::process_packets` on the bytes from `data_cur` to `data_end`.  `handlePacket` is the
result `handle_packet` returns for a packet. -/
def processPackets (handlePacket : List UInt8 → ErrorCode) (dataCur : List UInt8)
    (lastErrorCode : ErrorCode) : ProcessResult :=
  match dataCur with
  | [] => ⟨[], lastErrorCode, 0⟩
  | b :: t =>
      let packetSize := (parsePacket b).2
      if _hid : (parsePacket b).1 = PacketTypeId.invalid then ⟨[], ErrorCode.invalidPacketId, 0⟩
      else if (b :: t).length < packetSize then ⟨[], ErrorCode.insuffientPacketData, 0⟩
      else
        let packet := (b :: t).take packetSize
        let handleResult := handlePacket packet
        if handleResult.isPacketHandleSuccess then
          let rest := processPackets handlePacket ((b :: t).drop packetSize) lastErrorCode
          ⟨packet :: rest.handled, rest.lastErrorCode, packetSize + rest.parsedBytes⟩
        -- the failed packet was handed over, but it is not consumed
        else ⟨[packet], handleResult, 0⟩
termination_by dataCur.length
decreasing_by
  have hpos : protocolDb b ≠ 0 := fun h0 => _hid ((parsePacket_invalid_iff b).mpr h0)
  simp only [parsePacket_size, List.length_drop, List.length_cons]
  omega

/-- The error code the loop leaves, as a function of the bytes it could not consume. -/
def endCode (lastErrorCode : ErrorCode) : List UInt8 → ErrorCode
  | [] => lastErrorCode
  | b :: _ =>
      if protocolDb b = 0 then ErrorCode.invalidPacketId else ErrorCode.insuffientPacketData

/-- **The parse loop computes the maximal framing**, when every packet is handled successfully. -/
theorem processPackets_frames {handlePacket : List UInt8 → ErrorCode}
    (hok : ∀ p, (handlePacket p).isPacketHandleSuccess = true) (data : List UInt8)
    (code : ErrorCode) :
    let r := processPackets handlePacket data code
    Frames protocolDb data r.handled (data.drop r.parsedBytes) ∧
      r.lastErrorCode = endCode code (data.drop r.parsedBytes) := by
  fun_induction processPackets handlePacket data code with
  | case1 => exact ⟨Frames.nil, rfl⟩
  | case2 b t hid =>
      have hzero : protocolDb b = 0 := (parsePacket_invalid_iff b).mp hid
      exact ⟨Frames.stuck (Or.inl hzero), by simp [endCode, hzero]⟩
  | case3 b t packetSize hid hlen =>
      have hne : protocolDb b ≠ 0 := fun h0 => hid ((parsePacket_invalid_iff b).mpr h0)
      exact ⟨Frames.stuck (Or.inr hlen), by simp [endCode, hne]⟩
  | case4 b t packetSize hid hlen packet handleResult hres rest ih =>
      have hsize : packetSize = protocolDb b := rfl
      have hne : protocolDb b ≠ 0 := fun h0 => hid ((parsePacket_invalid_iff b).mpr h0)
      have hframe : IsFrame protocolDb packet := by
        obtain ⟨k, hk⟩ : ∃ k, protocolDb b = k + 1 := Nat.exists_eq_succ_of_ne_zero hne
        have hpacket : packet = b :: t.take k := by
          simp only [packet, hsize, hk, List.take_succ_cons]
        rw [hpacket]
        show protocolDb b = (b :: t.take k).length
        simp only [List.length_cons, List.length_take] at hlen ⊢
        omega
      have hdrop : (b :: t).drop (packetSize + rest.parsedBytes) =
          ((b :: t).drop packetSize).drop rest.parsedBytes := by rw [List.drop_drop]
      simp only [hdrop]
      refine ⟨?_, ih.2⟩
      have := Frames.cons hframe ih.1
      rwa [List.take_append_drop] at this
  | case5 b t packetSize hid hlen packet handleResult hres =>
      exact absurd (hok packet) hres

/-! ## One connection -/

/-- The receive side of a `Connection`; `handled` records the packets given to `handle_packet`. -/
structure ReceivePath where
  recvEvent : IoRecvEvent
  lastErrorCode : ErrorCode
  isOnline : Bool
  handled : List (List UInt8)
  deriving DecidableEq, Repr

namespace ReceivePath

/-- A new connection over its slice of the receive buffer pool. -/
def init (buf : List UInt8) : ReceivePath :=
  { recvEvent := { eventData := .new buf, isProcessing := false }
    lastErrorCode := ErrorCode.success, isOnline := true, handled := [] }

def eventData (c : ReceivePath) : IoRecvEventData := c.recvEvent.eventData

/-- `Connection::handle_io_event`: nothing is processed once the connection is offline. -/
def handleIoEvent (handlePacket : List UInt8 → ErrorCode) (c : ReceivePath)
    (data : IoRecvEventData) : ProcessResult :=
  if c.isOnline then processPackets handlePacket data.contents c.lastErrorCode
  else ⟨[], c.lastErrorCode, 0⟩

/-- `IoRecvEvent::on_event_complete` for a completion that carries the bytes `chunk`, up to and
including `Connection::on_complete`.  A kick leaves the connection online when the teardown is
delegated to the world, and takes it offline otherwise: `staysOnline` says which. -/
def onEventComplete (handlePacket : List UInt8 → ErrorCode) (c : ReceivePath)
    (chunk : List UInt8) (staysOnline : Bool) : ReceivePath :=
  let data := (c.eventData.fill chunk).push chunk.length
  let r := c.handleIoEvent handlePacket data
  let data := if r.parsedBytes ≠ 0 then data.pop r.parsedBytes else data
  let kicked := !r.lastErrorCode.isPacketHandleSuccess
  { recvEvent := { eventData := data, isProcessing := false }
    lastErrorCode := if kicked then r.lastErrorCode else ErrorCode.success
    isOnline := c.isOnline && (!kicked || staysOnline)
    handled := c.handled ++ r.handled }

/-- The steps of a connection's receive side: `ConnectionIO::flush_receive` and a completion. -/
inductive Event where
  | flushReceive (rioOk : Bool)
  | complete (chunk : List UInt8) (staysOnline : Bool)
  deriving DecidableEq, Repr

/-- A completion is possible while a receive is posted; it carries at least one byte and fits the
posted range, which is the free space. -/
def step (handlePacket : List UInt8 → ErrorCode) (c : ReceivePath) : Event → Option ReceivePath
  | .flushReceive rioOk =>
      if c.isOnline then some { c with recvEvent := (c.recvEvent.postRioEvent rioOk).1 } else none
  | .complete chunk staysOnline =>
      if c.recvEvent.isProcessing ∧ 0 < chunk.length ∧ chunk.length ≤ c.eventData.unusedSize then
        some (c.onEventComplete handlePacket chunk staysOnline)
      else none

/-- The bytes a list of events has received. -/
def received (events : List Event) : List UInt8 :=
  events.flatMap fun
    | .flushReceive _ => []
    | .complete chunk _ => chunk

/-- The first unconsumed byte, if there is one, has a valid packet id. -/
def NoInvalidId (rest : List UInt8) : Prop := ∀ b t, rest = b :: t → protocolDb b ≠ 0

/-- The invariant of the receive side, relative to the events so far. Everything is said of the stream
received so far, not of the receives it came in. -/
structure Framed (events : List Event) (c : ReceivePath) : Prop where
  wellFormed : c.eventData.WellFormed
  capacity : c.eventData.capacity = tcpRecvBufferSize
  frames : Frames protocolDb (received events) c.handled c.eventData.contents
  online : NoInvalidId c.eventData.contents → c.isOnline = true ∧
    c.lastErrorCode = ErrorCode.success

theorem init_framed {buf : List UInt8} (hbuf : buf.length = tcpRecvBufferSize) :
    Framed [] (init buf) where
  wellFormed := IoRecvEventData.new_wellFormed buf
  capacity := hbuf
  frames := by
    show Frames protocolDb [] [] (IoRecvEventData.new buf).contents
    rw [IoRecvEventData.contents_new]
    exact Frames.nil
  online := fun _ => ⟨rfl, rfl⟩

section Complete

variable {handlePacket : List UInt8 → ErrorCode} {events : List Event} {c : ReceivePath}
  {chunk : List UInt8} {staysOnline : Bool}

/-- What one call of `handle_io_event` achieves on a framed connection: the packets of the bytes it
sees, whether it runs the loop or finds the connection offline. -/
theorem handleIoEvent_frames (hok : ∀ p, (handlePacket p).isPacketHandleSuccess = true)
    (h : Framed events c) {data : IoRecvEventData}
    (hdata : data.contents = c.eventData.contents ++ chunk) :
    let r := c.handleIoEvent handlePacket data
    Frames protocolDb data.contents r.handled (data.contents.drop r.parsedBytes) ∧
      (NoInvalidId (data.contents.drop r.parsedBytes) →
        c.isOnline = true ∧ r.lastErrorCode.isPacketHandleSuccess = true) := by
  unfold handleIoEvent
  cases honline : c.isOnline with
  | true =>
      obtain ⟨hframes, hcode⟩ := processPackets_frames hok data.contents c.lastErrorCode
      refine ⟨by simpa using hframes, fun hvalid => ⟨rfl, ?_⟩⟩
      simp only [if_true] at hvalid ⊢
      rw [hcode]
      revert hvalid
      generalize hrest : data.contents.drop _ = rest
      intro hvalid
      cases rest with
      | nil =>
          -- everything was consumed, in particular there was no invalid id before
          have hold : NoInvalidId c.eventData.contents := by
            intro b t hb hzero
            have hstuck := Frames.stuck (a := b) (t := t ++ chunk) (Or.inl hzero)
            rw [← List.cons_append, ← hb, ← hdata] at hstuck
            have := (hframes.unique hstuck).2
            rw [hrest, hdata, hb] at this
            exact absurd this (by simp)
          rw [endCode, (h.online hold).2]
          decide
      | cons b t => simp only [endCode, if_neg (hvalid b t rfl)]; decide
  | false =>
      -- the connection went offline because an invalid id stands at the front of the buffer
      have hinvalid : ¬ NoInvalidId c.eventData.contents := fun hv => by
        simpa [honline] using (h.online hv).1
      obtain ⟨b, t, hb, hzero⟩ : ∃ b t, c.eventData.contents = b :: t ∧ protocolDb b = 0 := by
        simpa [NoInvalidId] using hinvalid
      have hbytes : data.contents = b :: (t ++ chunk) := by rw [hdata, hb, List.cons_append]
      simp only [Bool.false_eq_true, if_false, List.drop_zero, hbytes]
      exact ⟨Frames.stuck (Or.inl hzero), fun hv => absurd hzero (hv b _ rfl)⟩

/-- What a completion leaves in the buffer: the compaction in `pop` keeps exactly the unconsumed bytes. -/
theorem onEventComplete_eventData (h : c.eventData.WellFormed)
    (hfit : chunk.length ≤ c.eventData.unusedSize) :
    let data := (c.eventData.fill chunk).push chunk.length
    let left := (c.onEventComplete handlePacket chunk staysOnline).eventData
    left.WellFormed ∧ left.capacity = c.eventData.capacity ∧
      left.contents = data.contents.drop (c.handleIoEvent handlePacket data).parsedBytes := by
  intro data left
  have hwf : data.WellFormed := IoRecvEventData.fill_push_wellFormed h hfit
  have hcap : data.capacity = c.eventData.capacity := IoRecvEventData.capacity_fill_push h hfit
  set r := c.handleIoEvent handlePacket data with hr
  have hleft : left = if r.parsedBytes ≠ 0 then data.pop r.parsedBytes else data := rfl
  rw [hleft]
  split_ifs with hz
  · exact ⟨IoRecvEventData.pop_wellFormed hwf, (IoRecvEventData.capacity_pop hwf).trans hcap,
      IoRecvEventData.contents_pop hwf⟩
  · refine ⟨hwf, hcap, ?_⟩
    rw [not_not.mp hz, List.drop_zero]

/-- **Step lemma of a completion.** -/
theorem onEventComplete_framed (hok : ∀ p, (handlePacket p).isPacketHandleSuccess = true)
    (h : Framed events c) (hfit : chunk.length ≤ c.eventData.unusedSize) :
    Framed (events ++ [.complete chunk staysOnline])
      (c.onEventComplete handlePacket chunk staysOnline) := by
  set data := (c.eventData.fill chunk).push chunk.length with hdata
  have hbytes : data.contents = c.eventData.contents ++ chunk :=
    IoRecvEventData.contents_fill_push h.wellFormed
  set r := c.handleIoEvent handlePacket data with hr
  obtain ⟨hframes, hvalid⟩ := handleIoEvent_frames hok h hbytes
  obtain ⟨hwf, hcap, hrest⟩ := @onEventComplete_eventData handlePacket c chunk staysOnline h.wellFormed hfit
  have hevents : received (events ++ [.complete chunk staysOnline]) = received events ++ chunk := by
    simp [received]
  refine ⟨hwf, hcap.trans h.capacity, ?_, ?_⟩
  · show Frames protocolDb _ (c.handled ++ r.handled) _
    rw [hevents, hrest]
    exact h.frames.append (by rw [← hbytes]; exact hframes)
  · intro hno
    have hno' : NoInvalidId (data.contents.drop r.parsedBytes) := by rwa [← hrest]
    obtain ⟨honline, hsuccess⟩ := hvalid hno'
    show (c.isOnline && (!(!r.lastErrorCode.isPacketHandleSuccess) || staysOnline)) = true ∧
      (if !r.lastErrorCode.isPacketHandleSuccess then r.lastErrorCode else ErrorCode.success) =
        ErrorCode.success
    rw [← hr] at hsuccess
    simp [honline, hsuccess]

end Complete

/-- Every step keeps the invariant. -/
theorem step_framed {handlePacket : List UInt8 → ErrorCode}
    (hok : ∀ p, (handlePacket p).isPacketHandleSuccess = true) (events : List Event) (e : Event)
    (c c' : ReceivePath) (h : Framed events c) (hstep : step handlePacket c e = some c') :
    Framed (events ++ [e]) c' := by
  cases e with
  | flushReceive rioOk =>
      obtain ⟨-, rfl⟩ : c.isOnline = true ∧ _ = c' := by simpa [step] using hstep
      have hdata : (c.recvEvent.postRioEvent rioOk).1.eventData = c.eventData :=
        IoRecvEvent.postRioEvent_eventData _ _
      have hevents : received (events ++ [.flushReceive rioOk]) = received events := by
        simp [received]
      exact ⟨by simpa [eventData, hdata] using h.wellFormed,
        by simpa [eventData, hdata] using h.capacity,
        by simpa [eventData, hdata, hevents] using h.frames,
        by simpa [eventData, hdata] using h.online⟩
  | complete chunk staysOnline =>
      obtain ⟨⟨-, -, hfit⟩, rfl⟩ :
          (c.recvEvent.isProcessing = true ∧ 0 < chunk.length ∧
            chunk.length ≤ c.eventData.unusedSize) ∧ _ = c' := by
        simpa [step] using hstep
      exact onEventComplete_framed hok h hfit

/-- **Packet framing is independent of segmentation.** Whatever the stream and however it is cut
into receives, the handled packets are the maximal framing of the stream received so far, the
buffer holds exactly the unconsumed rest, and as long as no invalid id stands in front the rest is
shorter than a handshake, so that a free receive event is never refused for lack of room. -/
theorem handled_eq_frames_of_stream {handlePacket : List UInt8 → ErrorCode}
    (hok : ∀ p, (handlePacket p).isPacketHandleSuccess = true) {buf : List UInt8}
    (hbuf : buf.length = tcpRecvBufferSize) {events : List Event} {c : ReceivePath}
    (hrun : run (step handlePacket) (init buf) events = some c) :
    Frames protocolDb (received events) c.handled c.eventData.contents ∧
      (NoInvalidId c.eventData.contents →
        c.isOnline = true ∧ c.eventData.contents.length < 131 ∧
          (c.recvEvent.isProcessing = false → ∀ rioOk, (c.recvEvent.postRioEvent rioOk).2 = rioOk)) ∧
      ∀ chunk, chunk.length ≤ c.eventData.unusedSize →
        ((c.eventData.fill chunk).push chunk.length).size ≤ c.eventData.capacity := by
  have h : Framed events c :=
    run_invariant_trace (P := Framed) (fun es e s s' => step_framed hok es e s s')
      (init_framed hbuf) hrun
  refine ⟨h.frames, ?_, ?_⟩
  · intro hvalid
    have hshort : c.eventData.contents.length < 131 :=
      h.frames.rest_length_lt protocolDb_le (by decide) hvalid
    refine ⟨(h.online hvalid).1, hshort, fun hfree rioOk => ?_⟩
    rw [IoRecvEventData.length_contents h.wellFormed] at hshort
    refine IoRecvEvent.postRioEvent_accepted hfree ?_
    have hcap : c.eventData.capacity = 4096 := h.capacity
    show 64 ≤ c.eventData.capacity - c.eventData.size
    omega
  · intro chunk hfit
    have hwf := IoRecvEventData.fill_push_wellFormed h.wellFormed hfit
    unfold IoRecvEventData.WellFormed at hwf
    rwa [IoRecvEventData.capacity_fill_push h.wellFormed hfit] at hwf

/-- Two pings and the first byte of a block change arrive in one segment: the pings are handled, the
byte stays. -/
theorem handled_eq_frames_of_stream_pings : ∃ buf c, buf.length = tcpRecvBufferSize ∧
    run (step fun _ => ErrorCode.success) (init buf)
      [.flushReceive true, .complete [1, 1, 5] true] = some c ∧
    c.handled = [[1], [1]] ∧ c.eventData.contents = [5] := by
  obtain ⟨buf, hbuf⟩ : ∃ buf : List UInt8, buf.length = tcpRecvBufferSize :=
    ⟨List.replicate tcpRecvBufferSize 0, List.length_replicate⟩
  have hunused : (IoRecvEventData.new buf).unusedSize = 4096 := hbuf
  let posted : ReceivePath := { init buf with recvEvent := ⟨.new buf, true⟩ }
  have hflush : step (fun _ => ErrorCode.success) (init buf) (.flushReceive true) = some posted := by
    simp [step, init, IoRecvEvent.postRioEvent, hunused, maxSizeOfPacketStruct, posted]
  have hcomplete : step (fun _ => ErrorCode.success) posted (.complete [1, 1, 5] true) =
      some (posted.onEventComplete (fun _ => ErrorCode.success) [1, 1, 5] true) := by
    simp [step, posted, eventData, hunused]
  have hrun : run (step fun _ => ErrorCode.success) (init buf)
      [.flushReceive true, .complete [1, 1, 5] true] =
        some (posted.onEventComplete (fun _ => ErrorCode.success) [1, 1, 5] true) := by
    rw [run_cons, hflush]
    exact (run_singleton _ _).trans hcomplete
  have hping : IsFrame protocolDb [1] := by show protocolDb 1 = 1; decide
  have hframes : Frames protocolDb [1, 1, 5] [[1], [1]] [5] :=
    Frames.cons hping (Frames.cons hping (Frames.stuck (Or.inr (by decide))))
  refine ⟨buf, _, hbuf, hrun, ?_⟩
  exact (handled_eq_frames_of_stream (fun _ => by decide) hbuf hrun).1.unique hframes

end ReceivePath

end Mmocraft.Net
