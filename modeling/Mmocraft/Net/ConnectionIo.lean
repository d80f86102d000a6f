/-
# Mmocraft.Net.ConnectionIo -- the two send paths of a connection

`ConnectionIO` sends what a connection accepts on two paths: through the send buffer of `io_send_event`,
or, for a multicast that is large for the room in the buffer, through an event of its own in
`ready_multicast_events`.  Both paths end in `RIOSend` on one request queue, which
`register_event_source` creates for a single outstanding send.

Every accepted datum gets a number, and histories remember which data wait in the buffer, which were
handed to RIO and which RIO completed.  RIO can complete a send with fewer bytes than it was posted with, or
with `event_failed`.  What the send buffer still holds then is handed over again by a later flush, together
with what was pushed since; a multicast event is freed however its send ends.

The two posts of `flush_send` are separate events, so that completions can come between them. What the proofs
of the following modules need is stated here once: what an event accepts (`Accepts`), what is outstanding and
whether that fits the send buffer (`SendsOk`), and that no more is outstanding than the queue has room for.
-/
import Mmocraft.Io.SendEvent
import Mmocraft.Lib.Ranges

namespace Mmocraft.Net

open Mmocraft.Lib Mmocraft.Io

/-! ## The two paths -/

/-- `config::network::num_of_multicast_events`, the capacity of `multicast_event_pool`. -/
def numOfMulticastEvents : Nat := 1

/-- `MaxOutstandingSend` of the request queue. -/
def maxOutstandingSend : Nat := 1

/-- What the connection accepted, numbered in the order of acceptance. The number is that of `accepted`; the
code has none, and nothing it does depends on it. -/
structure SendData where
  id : Nat
  isMulticast : Bool
  bytes : List UInt8
  deriving DecidableEq, Repr

/-- A send that is outstanding on the request queue. Of the two kinds only the send event has a window,
which what was not transferred goes back to. -/
inductive RioSend where
  /-- The window of the send buffer, with the data it consists of. -/
  | sendEvent (data : List SendData)
  /-- The data of a multicast event. -/
  | multicast (data : SendData)
  deriving DecidableEq, Repr

namespace RioSend

def data : RioSend → List SendData
  | sendEvent data => data
  | multicast data => [data]

/-- The send is that of the send event. -/
def isSendEvent : RioSend → Bool
  | sendEvent _ => true
  | multicast _ => false

/-- The part of the send that stays in the send buffer until it completes. -/
def buffered : RioSend → List SendData
  | sendEvent data => data
  | multicast _ => []

end RioSend

/-- How RIO completes a send: the transferred bytes, or the signal `event_failed`.  No bytes at all are the
signal `eof`, with which the connection is disconnected. -/
inductive SendResult where
  | transferred (n : Nat)
  | eventFailed
  deriving DecidableEq, Repr

/-- What can come of a send that was posted with `length` bytes. -/
def SendResult.Fits (length : Nat) : SendResult → Prop
  | transferred n => 0 < n ∧ n ≤ length
  | eventFailed => True

instance (length : Nat) : (result : SendResult) → Decidable (result.Fits length)
  | .transferred n => inferInstanceAs (Decidable (0 < n ∧ n ≤ length))
  | .eventFailed => isTrue trivial

/-- `ConnectionIO`: the send event and the multicast events, with the request queue and the histories of
the data. -/
structure ConnectionIo where
  ioSendEvent : IoSendEvent
  readyMulticastEvents : List SendData := []
  /-- The objects of `multicast_event_pool` in use. -/
  usedMulticastEvents : Nat := 0
  outstanding : List RioSend := []
  /-- The data accepted so far. -/
  accepted : List SendData := []
  /-- The data in the send buffer that were not handed to RIO yet. -/
  buffered : List SendData := []
  /-- The data before them in the send buffer, which a completion left there. -/
  returned : List SendData := []
  /-- How many bytes of the first datum in the send buffer RIO has transferred. -/
  partlySent : Nat := 0
  /-- The data passed to a `RIOSend` that succeeded, in the order in which they were passed first. -/
  handed : List SendData := []
  /-- The data passed to another one after that. -/
  handedAgain : List SendData := []
  /-- The data that RIO transferred to their end. -/
  completed : List SendData := []
  /-- The multicasts whose event was freed by a completion that did not transfer them to their end. -/
  cutShort : List SendData := []
  /-- The bytes that RIO transferred. -/
  transferred : List UInt8 := []
  deriving DecidableEq, Repr

namespace ConnectionIo

/-- A new connection with the given send buffer. -/
def init (buf : List UInt8) : ConnectionIo := { ioSendEvent := .init buf }

/-- A successful push to the send buffer accepts the data. -/
def push (c : ConnectionIo) (isMulticast : Bool) (bytes : List UInt8) : ConnectionIo × Bool :=
  if (c.ioSendEvent.eventData.push bytes).2 then
    let data := { id := c.accepted.length, isMulticast := isMulticast, bytes := bytes }
    ({ c with
       ioSendEvent := c.ioSendEvent.push bytes
       accepted := c.accepted ++ [data]
       buffered := c.buffered ++ [data] }, true)
  else ({ c with ioSendEvent := c.ioSendEvent.push bytes }, false)

/-- `send_raw_data` and `send_packet`. -/
def sendRawData (c : ConnectionIo) (bytes : List UInt8) : ConnectionIo × Bool := c.push false bytes

/-- The second part of `post_multicast_event`: a multicast event of its own. -/
def readyMulticast (c : ConnectionIo) (bytes : List UInt8) : ConnectionIo × Bool :=
  if c.usedMulticastEvents < numOfMulticastEvents then
    let data := { id := c.accepted.length, isMulticast := true, bytes := bytes }
    ({ c with
       readyMulticastEvents := c.readyMulticastEvents ++ [data]
       usedMulticastEvents := c.usedMulticastEvents + 1
       accepted := c.accepted ++ [data] }, true)
  else (c, false)

/-- `post_multicast_event`. -/
def postMulticastEvent (c : ConnectionIo) (bytes : List UInt8) : ConnectionIo × Bool :=
  -- use the send buffer if it has sufficient space
  if bytes.length < c.ioSendEvent.eventData.unusedSize / 2 then
    if (c.push true bytes).2 then c.push true bytes else (c.push true bytes).1.readyMulticast bytes
  else c.readyMulticast bytes

/-- `free_multicast_event`. -/
def freeMulticastEvent (c : ConnectionIo) : ConnectionIo :=
  { c with usedMulticastEvents := c.usedMulticastEvents - 1 }

/-- Whether `RIOSend` succeeds on a request queue for `limit` sends; it can fail for other reasons
than a full queue. -/
def rioAccepts (limit : Nat) (c : ConnectionIo) (ok : Bool) : Bool :=
  ok && decide (c.outstanding.length < limit)

/-- `post_send_event`. -/
def postSendEvent (limit : Nat) (c : ConnectionIo) (ok : Bool) : ConnectionIo :=
  let r := c.ioSendEvent.postRioEvent (c.rioAccepts limit ok)
  if r.2 then
    { c with
      ioSendEvent := r.1
      outstanding := c.outstanding ++ [.sendEvent (c.returned ++ c.buffered)]
      handed := c.handed ++ c.buffered
      handedAgain := c.handedAgain ++ c.returned
      returned := []
      buffered := [] }
  else { c with ioSendEvent := r.1 }

/-- One round of `flush_multicast_send`: `IoMulticastSendEvent::post_rio_event` on an event that is
not processing; if it fails, the event is freed. -/
def postMulticast (limit : Nat) (c : ConnectionIo) (data : SendData) (ok : Bool) : ConnectionIo :=
  if data.bytes.length == 0 then c.freeMulticastEvent
  else if c.rioAccepts limit ok then
    { c with outstanding := c.outstanding ++ [.multicast data], handed := c.handed ++ [data] }
  else c.freeMulticastEvent

/-- The rounds of `flush_multicast_send`, with the outcomes of `RIOSend`. -/
def postMulticasts (limit : Nat) : List SendData → (Nat → Bool) → ConnectionIo → ConnectionIo
  | [], _, c => c
  | data :: rest, o, c =>
      postMulticasts limit rest (fun k => o (k + 1)) (c.postMulticast limit data (o 0))

/-- `flush_multicast_send`. -/
def flushMulticastSend (limit : Nat) (c : ConnectionIo) (o : Nat → Bool) : ConnectionIo :=
  postMulticasts limit c.readyMulticastEvents o { c with readyMulticastEvents := [] }

/-- The bytes of a list of data, in order. -/
def bytesOf (ds : List SendData) : List UInt8 := ds.flatMap SendData.bytes

/-- The data that lie whole in the first `n` bytes. -/
def wholeIn : Nat → List SendData → List SendData
  | _, [] => []
  | n, d :: ds => if d.bytes.length ≤ n then d :: wholeIn (n - d.bytes.length) ds else []

/-- How many bytes of the first datum of a send were transferred before it. -/
def partlySentOf (c : ConnectionIo) : RioSend → Nat
  | .sendEvent _ => c.partlySent
  | .multicast _ => 0

/-- The data that a completion transfers to their end. -/
def finishedBy (c : ConnectionIo) (send : RioSend) : SendResult → List SendData
  | .transferred n => wholeIn (c.partlySentOf send + n) send.data
  | .eventFailed => []

/-- The data of a send that its completion does not transfer to their end. -/
def leftBy (c : ConnectionIo) (send : RioSend) (result : SendResult) : List SendData :=
  send.data.drop (c.finishedBy send result).length

/-- How many bytes of the first datum that a completion leaves are transferred. -/
def partlySentBy (c : ConnectionIo) (send : RioSend) : SendResult → Nat
  | .transferred n => c.partlySentOf send + n - (bytesOf (c.finishedBy send (.transferred n))).length
  | .eventFailed => c.partlySentOf send

/-- The bytes that a completion transfers: of the send event, from the posted range of the send buffer. -/
def transferredBy (c : ConnectionIo) : RioSend → SendResult → List UInt8
  | .sendEvent _, .transferred n =>
      match c.ioSendEvent.outstanding with
      | none => []
      | some (offset, _) => Memory.read c.ioSendEvent.eventData.data offset n
  | .multicast data, .transferred n => data.bytes.take n
  | _, .eventFailed => []

/-- The completion of a send takes it from the request queue: what it leaves of the send event stays in the
send buffer, what it leaves of a multicast goes with its event. -/
def takeOutstanding (c : ConnectionIo) (k : Nat) (send : RioSend) (result : SendResult) : ConnectionIo :=
  match send with
  | .sendEvent _ =>
      { c with
        outstanding := c.outstanding.eraseIdx k
        completed := c.completed ++ c.finishedBy send result
        returned := c.leftBy send result ++ c.returned
        partlySent := c.partlySentBy send result
        transferred := c.transferred ++ c.transferredBy send result }
  | .multicast _ =>
      { c with
        outstanding := c.outstanding.eraseIdx k
        completed := c.completed ++ c.finishedBy send result
        cutShort := c.cutShort ++ c.leftBy send result
        transferred := c.transferred ++ c.transferredBy send result }

/-- `on_event_complete`, with `on_complete`. -/
def onEventComplete (c : ConnectionIo) : RioSend → SendResult → ConnectionIo
  | .sendEvent _, .transferred n =>
      match c.ioSendEvent.outstanding with
      | none => c
      | some (offset, _) => { c with ioSendEvent := c.ioSendEvent.onEventComplete offset n }
  | .sendEvent _, .eventFailed => { c with ioSendEvent := c.ioSendEvent.onEventFailed }
  | .multicast _, _ => c.freeMulticastEvent

/-- The number of bytes that a send was posted with. -/
def postedLength (c : ConnectionIo) : RioSend → Nat
  | .sendEvent _ => (c.ioSendEvent.outstanding.map Prod.snd).getD 0
  | .multicast data => data.bytes.length

/-- The send at a place of the request queue completes. -/
def complete (c : ConnectionIo) (k : Nat) (result : SendResult) : Option ConnectionIo :=
  (c.outstanding[k]?).bind fun send =>
    if result.Fits (c.postedLength send) then some ((c.takeOutstanding k send result).onEventComplete send result)
    else none

/-! ## Runs -/

/-- What happens on a connection.  `flush_send` is `postSendEvent` followed by `flushMulticastSend`;
other threads can come in between. -/
inductive Event where
  | sendRawData (bytes : PushData)
  | postMulticastEvent (bytes : List UInt8)
  | postSendEvent (ok : Bool)
  | flushMulticastSend (o : Nat → Bool)
  | complete (k : Nat) (result : SendResult)

def step (limit : Nat) (c : ConnectionIo) : Event → Option ConnectionIo
  | .sendRawData bytes => some (c.sendRawData bytes.1).1
  | .postMulticastEvent bytes => some (c.postMulticastEvent bytes).1
  -- flush_send skips the send event while it is busy
  | .postSendEvent ok =>
      some (if c.ioSendEvent.isProcessing then c else c.postSendEvent limit ok)
  | .flushMulticastSend o => some (c.flushMulticastSend limit o)
  | .complete k result => c.complete k result

/-- `flush_send` without events of other threads in between. -/
def flushSend (ok : Bool) (o : Nat → Bool) : List Event := [.postSendEvent ok, .flushMulticastSend o]

/-! ## What an event accepts and hands over -/

/-- What an event accepts. One datum at most, at the end of one of the two paths. -/
inductive Accepts (c c' : ConnectionIo) : Prop where
  /-- Nothing, and the paths stay as they are. -/
  | nothing (accepted : c'.accepted = c.accepted) (buffered : c'.buffered = c.buffered)
      (ready : c'.readyMulticastEvents = c.readyMulticastEvents)
  /-- A datum for the send buffer. -/
  | buffer (d : SendData) (id : d.id = c.accepted.length) (accepted : c'.accepted = c.accepted ++ [d])
      (buffered : c'.buffered = c.buffered ++ [d])
      (ready : c'.readyMulticastEvents = c.readyMulticastEvents)
  /-- A multicast for an event of its own. -/
  | multicast (d : SendData) (id : d.id = c.accepted.length)
      (accepted : c'.accepted = c.accepted ++ [d]) (buffered : c'.buffered = c.buffered)
      (ready : c'.readyMulticastEvents = c.readyMulticastEvents ++ [d])

/-- From `c` to `c'` nothing is handed to RIO, and nothing comes of what was. -/
structure SameSends (c c' : ConnectionIo) : Prop where
  outstanding : c'.outstanding = c.outstanding
  handed : c'.handed = c.handed
  handedAgain : c'.handedAgain = c.handedAgain
  completed : c'.completed = c.completed
  returned : c'.returned = c.returned
  partlySent : c'.partlySent = c.partlySent
  cutShort : c'.cutShort = c.cutShort
  transferred : c'.transferred = c.transferred

theorem push_accepts (c : ConnectionIo) (isMulticast : Bool) (bytes : List UInt8) :
    Accepts c (c.push isMulticast bytes).1 ∧ SameSends c (c.push isMulticast bytes).1 := by
  unfold push
  split_ifs
  · exact ⟨.buffer _ rfl rfl rfl rfl, ⟨rfl, rfl, rfl, rfl, rfl, rfl, rfl, rfl⟩⟩
  · exact ⟨.nothing rfl rfl rfl, ⟨rfl, rfl, rfl, rfl, rfl, rfl, rfl, rfl⟩⟩

theorem readyMulticast_accepts (c : ConnectionIo) (bytes : List UInt8) :
    Accepts c (c.readyMulticast bytes).1 ∧ SameSends c (c.readyMulticast bytes).1 := by
  unfold readyMulticast
  split_ifs
  · exact ⟨.multicast _ rfl rfl rfl rfl, ⟨rfl, rfl, rfl, rfl, rfl, rfl, rfl, rfl⟩⟩
  · exact ⟨.nothing rfl rfl rfl, ⟨rfl, rfl, rfl, rfl, rfl, rfl, rfl, rfl⟩⟩

theorem postMulticastEvent_accepts (c : ConnectionIo) (bytes : List UInt8) :
    Accepts c (c.postMulticastEvent bytes).1 ∧ SameSends c (c.postMulticastEvent bytes).1 := by
  unfold postMulticastEvent
  split_ifs with hsize hok
  · exact push_accepts c true bytes
  · -- a refused push changes nothing that is counted here
    have hrefused : (c.push true bytes).1 = { c with ioSendEvent := c.ioSendEvent.push bytes } := by
      by_cases hpush : (c.ioSendEvent.eventData.push bytes).2 = true
      · exact absurd (by rw [push, if_pos hpush]) hok
      · rw [push, if_neg hpush]
    rw [hrefused]
    unfold readyMulticast
    split_ifs
    · exact ⟨.multicast _ rfl rfl rfl rfl, ⟨rfl, rfl, rfl, rfl, rfl, rfl, rfl, rfl⟩⟩
    · exact ⟨.nothing rfl rfl rfl, ⟨rfl, rfl, rfl, rfl, rfl, rfl, rfl, rfl⟩⟩
  · exact readyMulticast_accepts c bytes

/-- `on_event_complete` accepts nothing, and leaves the data to the histories. -/
theorem onEventComplete_accepts (c : ConnectionIo) (send : RioSend) (result : SendResult) :
    Accepts c (c.onEventComplete send result) ∧ SameSends c (c.onEventComplete send result) := by
  cases send with
  | multicast d => exact ⟨.nothing rfl rfl rfl, ⟨rfl, rfl, rfl, rfl, rfl, rfl, rfl, rfl⟩⟩
  | sendEvent ds =>
      cases result with
      | eventFailed => exact ⟨.nothing rfl rfl rfl, ⟨rfl, rfl, rfl, rfl, rfl, rfl, rfl, rfl⟩⟩
      | transferred n =>
          simp only [onEventComplete]
          cases c.ioSendEvent.outstanding <;>
            exact ⟨.nothing rfl rfl rfl, ⟨rfl, rfl, rfl, rfl, rfl, rfl, rfl, rfl⟩⟩

/-! ## The request queue and the send buffer -/

theorem bytesOf_append (ds ds' : List SendData) : bytesOf (ds ++ ds') = bytesOf ds ++ bytesOf ds' :=
  List.flatMap_append

theorem wholeIn_append_drop (n : Nat) (ds : List SendData) :
    wholeIn n ds ++ ds.drop (wholeIn n ds).length = ds := by
  induction ds generalizing n with
  | nil => rfl
  | cons d ds ih =>
      unfold wholeIn
      split_ifs
      · exact congrArg (d :: ·) (ih _)
      · rfl

theorem length_bytesOf_wholeIn_le (n : Nat) (ds : List SendData) : (bytesOf (wholeIn n ds)).length ≤ n := by
  induction ds generalizing n with
  | nil => exact Nat.zero_le n
  | cons d ds ih =>
      unfold wholeIn
      split_ifs with hd
      · have hrest := ih (n - d.bytes.length)
        show (d.bytes ++ bytesOf (wholeIn (n - d.bytes.length) ds)).length ≤ n
        rw [List.length_append]
        omega
      · exact Nat.zero_le n

theorem wholeIn_of_length_le {n : Nat} {ds : List SendData} (h : (bytesOf ds).length ≤ n) :
    wholeIn n ds = ds := by
  induction ds generalizing n with
  | nil => rfl
  | cons d ds ih =>
      have hsum : d.bytes.length + (bytesOf ds).length ≤ n := by
        rw [← List.length_append]
        exact h
      rw [wholeIn, if_pos (by omega), ih (by omega)]

/-- The bytes behind the first `n` are those of the data that do not lie whole in them. -/
theorem drop_bytesOf (n : Nat) (ds : List SendData) :
    (bytesOf ds).drop n =
      (bytesOf (ds.drop (wholeIn n ds).length)).drop (n - (bytesOf (wholeIn n ds)).length) := by
  have hsplit : bytesOf ds = bytesOf (wholeIn n ds) ++ bytesOf (ds.drop (wholeIn n ds).length) := by
    rw [← bytesOf_append, wholeIn_append_drop]
  rw [hsplit, List.drop_append, List.drop_of_length_le (length_bytesOf_wholeIn_le n ds), List.nil_append]

/-- Every datum of a send is transferred to its end or left. -/
theorem finishedBy_append_leftBy (c : ConnectionIo) (send : RioSend) (result : SendResult) :
    c.finishedBy send result ++ c.leftBy send result = send.data := by
  cases result with
  | transferred n => exact wholeIn_append_drop _ _
  | eventFailed => rfl

/-- The data of the send event that is outstanding, which the send buffer still holds. -/
def sending (c : ConnectionIo) : List SendData := c.outstanding.flatMap RioSend.buffered

theorem sending_of_countP {sends : List RioSend} (h : sends.countP RioSend.isSendEvent = 0) :
    sends.flatMap RioSend.buffered = [] := by
  apply List.flatMap_eq_nil_iff.mpr
  intro send hsend
  cases send with
  | sendEvent ds => exact absurd rfl (List.countP_eq_zero.mp h _ hsend)
  | multicast d => rfl

/-- What a completion that happens takes from the request queue. -/
theorem complete_eq_some {c c' : ConnectionIo} {k : Nat} {result : SendResult} (h : c.complete k result = some c') :
    ∃ send, c.outstanding[k]? = some send ∧ result.Fits (c.postedLength send) ∧
      c' = (c.takeOutstanding k send result).onEventComplete send result := by
  obtain ⟨send, hk, hcomplete⟩ := Option.bind_eq_some_iff.mp h
  split_ifs at hcomplete with hfits
  exact ⟨send, hk, hfits, (Option.some.inj hcomplete).symm⟩

/-- The window is handed to RIO. -/
def handWindow (c : ConnectionIo) : ConnectionIo :=
  { c with
    ioSendEvent := { c.ioSendEvent with
      isProcessing := true
      outstanding := some (c.ioSendEvent.eventData.dataHead.toNat, c.ioSendEvent.eventData.size) }
    outstanding := c.outstanding ++ [.sendEvent (c.returned ++ c.buffered)]
    handed := c.handed ++ c.buffered
    handedAgain := c.handedAgain ++ c.returned
    returned := []
    buffered := [] }

/-- `post_send_event` on an idle send event hands over the window, if there is one, or does nothing. -/
theorem postSendEvent_cases (c : ConnectionIo) (limit : Nat) (ok : Bool)
    (hidle : c.ioSendEvent.isProcessing = false) :
    c.postSendEvent limit ok = c ∨ (c.ioSendEvent.eventData.size ≠ 0 ∧
      c.rioAccepts limit ok = true ∧ c.postSendEvent limit ok = c.handWindow) := by
  by_cases hsize : c.ioSendEvent.eventData.size = 0
  · exact Or.inl (by simp [postSendEvent, IoSendEvent.postRioEvent, hsize])
  · cases hrio : c.rioAccepts limit ok with
    | true => exact Or.inr ⟨hsize, rfl, by
        simp [postSendEvent, handWindow, IoSendEvent.postRioEvent, hidle, hsize, hrio]⟩
    | false =>
        have hsame : { c.ioSendEvent with isProcessing := false } = c.ioSendEvent := by rw [← hidle]
        exact Or.inl (by simp [postSendEvent, IoSendEvent.postRioEvent, hidle, hsize, hrio, hsame])

/-- The send buffer and the request queue agree: the window holds the data of the outstanding send event, of
which there is at most one, or what came back of the last one, followed by the data that wait. -/
structure SendsOk (c : ConnectionIo) : Prop where
  queue : c.ioSendEvent.Queue
  window : c.ioSendEvent.eventData.contents =
    (bytesOf (c.sending ++ c.returned)).drop c.partlySent ++ bytesOf c.buffered
  partlySent_le : c.partlySent ≤ (bytesOf (c.sending ++ c.returned)).length
  processing : c.outstanding.countP RioSend.isSendEvent =
    if c.ioSendEvent.isProcessing then 1 else 0
  range : c.ioSendEvent.isProcessing = true → c.returned = [] ∧
    ∃ offset, c.ioSendEvent.outstanding = some (offset, (bytesOf c.sending).length - c.partlySent)
  handed : ∀ d, c.handed.count d =
    (c.outstanding.flatMap RioSend.data).count d + c.completed.count d + c.returned.count d + c.cutShort.count d

namespace SendsOk

variable {c : ConnectionIo}

theorem init {buf : List UInt8} (hbuf : buf.length < 2 ^ 31) : (init buf).SendsOk where
  queue := IoSendEvent.init_queue hbuf
  window := IoSendEventData.contents_new buf
  partlySent_le := Nat.le_refl 0
  processing := rfl
  range h := Bool.noConfusion h
  handed _ := rfl

theorem push (h : c.SendsOk) (isMulticast : Bool) (bytes : PushData) :
    (c.push isMulticast bytes.1).1.SendsOk := by
  have hqueue := IoSendEvent.push_queue h.queue bytes
  unfold ConnectionIo.push
  split_ifs with hok
  · refine ⟨hqueue, ?_, h.partlySent_le, h.processing, h.range, h.handed⟩
    show (c.ioSendEvent.eventData.push bytes.1).1.contents =
      (bytesOf (c.sending ++ c.returned)).drop c.partlySent ++ bytesOf (c.buffered ++ [_])
    rw [IoSendEventData.contents_push h.queue.wellFormed bytes hok, h.window, bytesOf_append,
      List.append_assoc]
    simp [bytesOf]
  · refine ⟨hqueue, ?_, h.partlySent_le, h.processing, h.range, h.handed⟩
    show (c.ioSendEvent.eventData.push bytes.1).1.contents = _
    rw [IoSendEventData.push_refused (Bool.eq_false_iff.mpr hok)]
    exact h.window

theorem readyMulticast (h : c.SendsOk) (bytes : List UInt8) : (c.readyMulticast bytes).1.SendsOk := by
  unfold ConnectionIo.readyMulticast
  split_ifs
  · exact ⟨h.queue, h.window, h.partlySent_le, h.processing, h.range, h.handed⟩
  · exact h

/-- What fits into half of the unused buffer fits into an int. -/
theorem length_lt (h : c.SendsOk) {bytes : List UInt8}
    (hbytes : bytes.length < c.ioSendEvent.eventData.unusedSize / 2) : bytes.length < 2 ^ 31 := by
  rw [IoSendEventData.unusedSize_eq h.queue.wellFormed] at hbytes
  have := h.queue.wellFormed.capacity_lt
  omega

theorem postMulticastEvent (h : c.SendsOk) (bytes : List UInt8) :
    (c.postMulticastEvent bytes).1.SendsOk := by
  unfold ConnectionIo.postMulticastEvent
  split_ifs with hsize
  · exact h.push true ⟨bytes, h.length_lt hsize⟩
  · exact (h.push true ⟨bytes, h.length_lt hsize⟩).readyMulticast bytes
  · exact h.readyMulticast bytes

theorem handWindow (h : c.SendsOk) (hidle : c.ioSendEvent.isProcessing = false)
    (hsize : c.ioSendEvent.eventData.size ≠ 0) : c.handWindow.SendsOk := by
  have hnone : c.outstanding.countP RioSend.isSendEvent = 0 := by
    rw [h.processing, hidle]
    rfl
  have hidling : c.sending = [] := sending_of_countP hnone
  have hpartly := h.partlySent_le
  have hwindow := h.window
  rw [hidling, List.nil_append] at hpartly hwindow
  have hqueue := IoSendEvent.postRioEvent_queue h.queue true
  simp only [IoSendEvent.postRioEvent, hidle, Bool.false_or, beq_iff_eq, hsize, if_false, if_true]
    at hqueue
  -- the whole window is outstanding now
  have hsending : c.handWindow.sending = c.returned ++ c.buffered := by
    show (c.outstanding ++ [RioSend.sendEvent (c.returned ++ c.buffered)]).flatMap RioSend.buffered = _
    rw [List.flatMap_append, sending_of_countP hnone]
    simp [RioSend.buffered]
  have hcontents : c.ioSendEvent.eventData.contents = (bytesOf (c.returned ++ c.buffered)).drop c.partlySent := by
    rw [hwindow, bytesOf_append, List.drop_append_of_le_length hpartly]
  refine ⟨hqueue, ?_, ?_, ?_, fun _ => ⟨rfl, c.ioSendEvent.eventData.dataHead.toNat, ?_⟩, fun d => ?_⟩
  · rw [hsending]
    show c.ioSendEvent.eventData.contents =
      (bytesOf (c.returned ++ c.buffered ++ [])).drop c.partlySent ++ bytesOf []
    rw [List.append_nil, hcontents]
    exact (List.append_nil _).symm
  · rw [hsending]
    show c.partlySent ≤ (bytesOf (c.returned ++ c.buffered ++ [])).length
    rw [List.append_nil, bytesOf_append, List.length_append]
    exact Nat.le_add_right_of_le hpartly
  · show List.countP _ (c.outstanding ++ _) = 1
    rw [List.countP_append, hnone]
    rfl
  · rw [hsending]
    show some (_, c.ioSendEvent.eventData.size) = some (_, _ - c.partlySent)
    rw [IoSendEventData.size_eq h.queue.wellFormed, hcontents, List.length_drop]
  · have hhanded := h.handed d
    show (c.handed ++ c.buffered).count d =
      ((c.outstanding ++ _).flatMap RioSend.data).count d + c.completed.count d + [].count d + c.cutShort.count d
    rw [List.flatMap_append, List.count_append, List.count_append, hhanded]
    simp only [List.flatMap_cons, List.flatMap_nil, RioSend.data, List.append_nil, List.count_append,
      List.count_nil]
    omega

theorem postSendEvent (h : c.SendsOk) (limit : Nat) (ok : Bool)
    (hidle : c.ioSendEvent.isProcessing = false) : (c.postSendEvent limit ok).SendsOk := by
  rcases c.postSendEvent_cases limit ok hidle with heq | ⟨hsize, -, heq⟩
  · rw [heq]
    exact h
  · rw [heq]
    exact h.handWindow hidle hsize

theorem postMulticast (h : c.SendsOk) (limit : Nat) (data : SendData) (ok : Bool) :
    (c.postMulticast limit data ok).SendsOk := by
  unfold ConnectionIo.postMulticast
  split_ifs
  · exact ⟨h.queue, h.window, h.partlySent_le, h.processing, h.range, h.handed⟩
  · have hsending :
        (c.outstanding ++ [RioSend.multicast data]).flatMap RioSend.buffered = c.sending := by
      rw [List.flatMap_append]
      exact List.append_nil _
    refine ⟨h.queue, ?_, ?_, ?_, ?_, fun d => ?_⟩
    · show _ = (bytesOf (List.flatMap _ _ ++ _)).drop _ ++ _
      rw [hsending]
      exact h.window
    · show _ ≤ (bytesOf (List.flatMap _ _ ++ _)).length
      rw [hsending]
      exact h.partlySent_le
    · show List.countP _ (c.outstanding ++ _) = _
      rw [List.countP_append, h.processing]
      rfl
    · show _ → _ ∧ ∃ offset, _ = some (offset, (bytesOf (List.flatMap _ _)).length - _)
      rw [hsending]
      exact h.range
    · have hhanded := h.handed d
      show (c.handed ++ [data]).count d = ((c.outstanding ++ _).flatMap RioSend.data).count d +
        c.completed.count d + c.returned.count d + c.cutShort.count d
      rw [List.flatMap_append, List.count_append, List.count_append, hhanded]
      simp only [List.flatMap_cons, List.flatMap_nil, RioSend.data, List.append_nil]
      omega
  · exact ⟨h.queue, h.window, h.partlySent_le, h.processing, h.range, h.handed⟩

theorem postMulticasts (h : c.SendsOk) (limit : Nat) (ds : List SendData) (o : Nat → Bool) :
    (postMulticasts limit ds o c).SendsOk := by
  induction ds generalizing c o with
  | nil => exact h
  | cons data rest ih => exact ih (h.postMulticast limit data (o 0)) _

/-- What was handed over is still somewhere when a send leaves the request queue. -/
theorem handed_takeOutstanding (h : c.SendsOk) {k : Nat} {send : RioSend} (hk : c.outstanding[k]? = some send)
    (result : SendResult) (d : SendData) :
    c.handed.count d = ((c.outstanding.eraseIdx k).flatMap RioSend.data).count d +
      (c.completed ++ c.finishedBy send result).count d + (c.leftBy send result).count d +
      c.returned.count d + c.cutShort.count d := by
  obtain ⟨before, behind, hsplit, -, herase⟩ := exists_split_of_getElem? hk
  have hd := h.handed d
  rw [hsplit, List.flatMap_append, List.flatMap_cons, ← c.finishedBy_append_leftBy send result] at hd
  rw [herase, List.flatMap_append]
  simp only [List.count_append] at hd ⊢
  omega

/-- The send event is outstanding alone of its kind. -/
theorem sendEvent_alone (h : c.SendsOk) {k : Nat} {ds : List SendData}
    (hk : c.outstanding[k]? = some (.sendEvent ds)) :
    c.ioSendEvent.isProcessing = true ∧ c.sending = ds ∧
      (c.outstanding.eraseIdx k).countP RioSend.isSendEvent = 0 := by
  obtain ⟨before, behind, hsplit, -, herase⟩ := exists_split_of_getElem? hk
  have hcount := h.processing
  rw [hsplit, List.countP_append, List.countP_cons] at hcount
  simp only [RioSend.isSendEvent, if_true] at hcount
  have hprocessing : c.ioSendEvent.isProcessing = true := by
    by_contra hidle
    rw [if_neg hidle] at hcount
    omega
  rw [if_pos hprocessing] at hcount
  have hbefore : before.countP RioSend.isSendEvent = 0 := by omega
  have hbehind : behind.countP RioSend.isSendEvent = 0 := by omega
  refine ⟨hprocessing, ?_, ?_⟩
  · rw [sending, hsplit, List.flatMap_append, List.flatMap_cons, sending_of_countP hbefore,
      sending_of_countP hbehind]
    simp [RioSend.buffered]
  · rw [herase, List.countP_append, hbefore, hbehind]

/-- A completed send event: the front of the window is transferred, the rest comes back. -/
theorem completeSendEvent (h : c.SendsOk) {k : Nat} {ds : List SendData} {result : SendResult}
    (hk : c.outstanding[k]? = some (.sendEvent ds)) (hfits : result.Fits (c.postedLength (.sendEvent ds))) :
    ((c.takeOutstanding k (.sendEvent ds) result).onEventComplete (.sendEvent ds) result).SendsOk := by
  obtain ⟨hprocessing, rfl, halone⟩ := h.sendEvent_alone hk
  obtain ⟨hreturned, offset, hrange⟩ := h.range hprocessing
  have hwindow := h.window
  have hpartly := h.partlySent_le
  rw [hreturned, List.append_nil] at hwindow hpartly
  have hleft : (c.outstanding.eraseIdx k).flatMap RioSend.buffered = [] := sending_of_countP halone
  have hhanded : ∀ d, c.handed.count d = ((c.outstanding.eraseIdx k).flatMap RioSend.data).count d +
      (c.completed ++ c.finishedBy (.sendEvent c.sending) result).count d +
      (c.leftBy (.sendEvent c.sending) result ++ c.returned).count d + c.cutShort.count d := by
    intro d
    have hd := h.handed_takeOutstanding hk result d
    have hsplit : (c.leftBy (.sendEvent c.sending) result ++ c.returned).count d =
        (c.leftBy (.sendEvent c.sending) result).count d + c.returned.count d := List.count_append
    omega
  cases result with
  | eventFailed =>
      refine ⟨IoSendEvent.onEventFailed_queue h.queue, ?_, ?_, halone, fun hp => Bool.noConfusion hp, hhanded⟩
      · show c.ioSendEvent.eventData.contents =
          (bytesOf ((c.outstanding.eraseIdx k).flatMap RioSend.buffered ++ (c.sending ++ c.returned))).drop
            c.partlySent ++ bytesOf c.buffered
        rw [hleft, hreturned, List.nil_append, List.append_nil]
        exact hwindow
      · show c.partlySent ≤
          (bytesOf ((c.outstanding.eraseIdx k).flatMap RioSend.buffered ++ (c.sending ++ c.returned))).length
        rw [hleft, hreturned, List.nil_append, List.append_nil]
        exact hpartly
  | transferred n =>
      have hn : n ≤ (bytesOf c.sending).length - c.partlySent := by
        have hposted := hfits.2
        rwa [postedLength, hrange, Option.map_some, Option.getD_some] at hposted
      obtain ⟨hhead, htail⟩ := h.queue.outstanding _ _ hrange
      have hqueue := IoSendEvent.onEventComplete_queue h.queue hrange hn
      have hcontents := IoSendEventData.contents_pop h.queue.wellFormed (n := n) (by omega)
      have hsplit : bytesOf c.sending =
          bytesOf (wholeIn (c.partlySent + n) c.sending) ++
            bytesOf (c.sending.drop (wholeIn (c.partlySent + n) c.sending).length) := by
        rw [← bytesOf_append, wholeIn_append_drop]
      have heq : (c.takeOutstanding k (.sendEvent c.sending) (.transferred n)).onEventComplete
            (.sendEvent c.sending) (.transferred n) =
          { c.takeOutstanding k (.sendEvent c.sending) (.transferred n) with
            ioSendEvent := c.ioSendEvent.onEventComplete offset n } := by
        simp only [onEventComplete, takeOutstanding, hrange]
      rw [heq]
      refine ⟨hqueue, ?_, ?_, halone, fun hp => Bool.noConfusion hp, hhanded⟩
      · show (c.ioSendEvent.eventData.pop n).contents =
          (bytesOf ((c.outstanding.eraseIdx k).flatMap RioSend.buffered ++
            (c.sending.drop (wholeIn (c.partlySent + n) c.sending).length ++ c.returned))).drop
            (c.partlySent + n - (bytesOf (wholeIn (c.partlySent + n) c.sending)).length) ++ bytesOf c.buffered
        rw [hleft, hreturned, List.nil_append, List.append_nil, ← drop_bytesOf, hcontents, hwindow,
          List.drop_append_of_le_length (by rw [List.length_drop]; exact hn), List.drop_drop]
      · show c.partlySent + n - (bytesOf (wholeIn (c.partlySent + n) c.sending)).length ≤
          (bytesOf ((c.outstanding.eraseIdx k).flatMap RioSend.buffered ++
            (c.sending.drop (wholeIn (c.partlySent + n) c.sending).length ++ c.returned))).length
        have hlength := congrArg List.length hsplit
        rw [List.length_append] at hlength
        rw [hleft, hreturned, List.nil_append, List.append_nil]
        omega

/-- The completion of the send at a place of the request queue. -/
theorem complete (h : c.SendsOk) {k : Nat} {send : RioSend} {result : SendResult}
    (hk : c.outstanding[k]? = some send) (hfits : result.Fits (c.postedLength send)) :
    ((c.takeOutstanding k send result).onEventComplete send result).SendsOk := by
  cases send with
  | sendEvent ds => exact h.completeSendEvent hk hfits
  | multicast d =>
      obtain ⟨before, behind, hsplit, -, herase⟩ := exists_split_of_getElem? hk
      have hsending : (c.outstanding.eraseIdx k).flatMap RioSend.buffered = c.sending := by
        rw [sending, herase, List.flatMap_append]
        conv_rhs => rw [hsplit, List.flatMap_append, List.flatMap_cons]
        rfl
      refine ⟨h.queue, ?_, ?_, ?_, ?_, fun x => ?_⟩
      · show c.ioSendEvent.eventData.contents =
          (bytesOf ((c.outstanding.eraseIdx k).flatMap RioSend.buffered ++ c.returned)).drop c.partlySent ++ _
        rw [hsending]
        exact h.window
      · show c.partlySent ≤ (bytesOf ((c.outstanding.eraseIdx k).flatMap RioSend.buffered ++ c.returned)).length
        rw [hsending]
        exact h.partlySent_le
      · have hcount := h.processing
        rw [hsplit, List.countP_append, List.countP_cons] at hcount
        show List.countP _ (c.outstanding.eraseIdx k) = if c.ioSendEvent.isProcessing then 1 else 0
        rw [herase, List.countP_append]
        simpa [RioSend.isSendEvent] using hcount
      · show _ → c.returned = [] ∧ ∃ offset, c.ioSendEvent.outstanding =
          some (offset, (bytesOf ((c.outstanding.eraseIdx k).flatMap RioSend.buffered)).length - c.partlySent)
        rw [hsending]
        exact h.range
      · have hx := h.handed_takeOutstanding hk result x
        show c.handed.count x = ((c.outstanding.eraseIdx k).flatMap RioSend.data).count x +
          (c.completed ++ c.finishedBy (.multicast d) result).count x + c.returned.count x +
          (c.cutShort ++ c.leftBy (.multicast d) result).count x
        have hsplit : (c.cutShort ++ c.leftBy (.multicast d) result).count x =
            c.cutShort.count x + (c.leftBy (.multicast d) result).count x := List.count_append
        omega

theorem step {limit : Nat} {c' : ConnectionIo} {e : Event} (h : c.SendsOk)
    (hstep : c.step limit e = some c') : c'.SendsOk := by
  cases e with
  | sendRawData bytes =>
      obtain rfl := Option.some.inj hstep
      exact h.push false bytes
  | postMulticastEvent bytes =>
      obtain rfl := Option.some.inj hstep
      exact h.postMulticastEvent bytes
  | postSendEvent ok =>
      obtain rfl := Option.some.inj hstep
      show (if _ then _ else _ : ConnectionIo).SendsOk
      split_ifs with hbusy
      · exact h
      · exact h.postSendEvent limit ok (Bool.eq_false_iff.mpr hbusy)
  | flushMulticastSend o =>
      obtain rfl := Option.some.inj hstep
      have hswapped : SendsOk { c with readyMulticastEvents := [] } :=
        ⟨h.queue, h.window, h.partlySent_le, h.processing, h.range, h.handed⟩
      exact hswapped.postMulticasts limit c.readyMulticastEvents o
  | complete k result =>
      obtain ⟨send, hk, hfits, rfl⟩ := complete_eq_some hstep
      exact h.complete hk hfits

end SendsOk

/-! ## The room in the request queue -/

/-- RIO takes a send only where the request queue has room. -/
theorem outstanding_le_postMulticast {limit : Nat} {c : ConnectionIo} (h : c.outstanding.length ≤ limit)
    (data : SendData) (ok : Bool) : (c.postMulticast limit data ok).outstanding.length ≤ limit := by
  unfold postMulticast
  split_ifs with hlength hrio
  · exact h
  · rw [rioAccepts, Bool.and_eq_true, decide_eq_true_eq] at hrio
    rw [List.length_append]
    exact hrio.2
  · exact h

theorem outstanding_le_postMulticasts {limit : Nat} {c : ConnectionIo} (h : c.outstanding.length ≤ limit)
    (ds : List SendData) (o : Nat → Bool) : (postMulticasts limit ds o c).outstanding.length ≤ limit := by
  induction ds generalizing c o with
  | nil => exact h
  | cons data rest ih => exact ih (outstanding_le_postMulticast h data (o 0)) _

theorem outstanding_le_step {limit : Nat} {c c' : ConnectionIo} {e : Event} (h : c.outstanding.length ≤ limit)
    (hstep : c.step limit e = some c') : c'.outstanding.length ≤ limit := by
  cases e with
  | sendRawData bytes =>
      obtain rfl := Option.some.inj hstep
      rw [sendRawData, (push_accepts c false bytes.1).2.outstanding]
      exact h
  | postMulticastEvent bytes =>
      obtain rfl := Option.some.inj hstep
      rw [(postMulticastEvent_accepts c bytes).2.outstanding]
      exact h
  | postSendEvent ok =>
      obtain rfl := Option.some.inj hstep
      show (outstanding (if _ then _ else _)).length ≤ limit
      split_ifs with hbusy
      · exact h
      · rcases c.postSendEvent_cases limit ok (Bool.eq_false_iff.mpr hbusy) with heq | ⟨-, hrio, heq⟩
        · rw [heq]
          exact h
        · rw [rioAccepts, Bool.and_eq_true, decide_eq_true_eq] at hrio
          rw [heq]
          show (c.outstanding ++ [_]).length ≤ limit
          rw [List.length_append]
          exact hrio.2
  | flushMulticastSend o =>
      obtain rfl := Option.some.inj hstep
      exact outstanding_le_postMulticasts (c := { c with readyMulticastEvents := [] }) h _ o
  | complete k result =>
      obtain ⟨send, -, -, rfl⟩ := complete_eq_some hstep
      rw [(onEventComplete_accepts _ send result).2.outstanding]
      cases send <;> exact (List.length_eraseIdx_le c.outstanding k).trans h

end ConnectionIo

end Mmocraft.Net
