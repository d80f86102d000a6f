/-
# Mmocraft.Io.SendNotices -- which bytes of a send buffer were ever handed to RIO

A send event with three histories.  `posted` is where, in the stream of accepted bytes, the last window
ends that `RIOSend` took; `notices` are the places of those packets that should leave before the
connection does; and `unflushed` says that one of them was accepted after the last such post.  A byte
of the stream is in the buffer until its completion pops it, and was posted if it lies below `posted`:
so bytes of a notice stay behind exactly while `unflushed` is set.
-/
import Mmocraft.Io.SendEvent
import Mmocraft.Lib.Ranges

namespace Mmocraft.Io

open Mmocraft.Lib

/-- The send event of a connection, with what was posted of it and where its notices are. Positions count
the bytes accepted so far, so a notice keeps its place when the window moves. -/
structure NoticeIo where
  send : IoSendEvent
  posted : Nat := 0
  notices : List Range := []
  /-- A notice was accepted since the last post that `RIOSend` took. -/
  unflushed : Bool := false
  deriving DecidableEq, Repr

namespace NoticeIo

def init (buf : List UInt8) : NoticeIo := { send := .init buf }

/-! ## Operations -/

/-- A push to the send buffer. -/
def push (io : NoticeIo) (bytes : List UInt8) : NoticeIo := { io with send := io.send.push bytes }

/-- Whether the send buffer takes a push. -/
def accepts (io : NoticeIo) (bytes : List UInt8) : Bool := (io.send.eventData.push bytes).2

/-- A push of a notice: where it is accepted, its place is remembered. -/
def pushNotice (io : NoticeIo) (bytes : List UInt8) : NoticeIo :=
  { io with
    send := io.send.push bytes
    notices :=
      if io.accepts bytes then io.notices ++ [⟨io.send.accepted.length, bytes.length⟩] else io.notices
    unflushed := io.unflushed || io.accepts bytes }

/-- `post_send_event`: what `RIOSend` takes is the window at this time. -/
def postSendEvent (io : NoticeIo) (rioOk : Bool) : NoticeIo :=
  let r := io.send.postRioEvent rioOk
  { io with
    send := r.1
    posted := if r.2 then io.send.transferred.length + io.send.eventData.size else io.posted
    unflushed := io.unflushed && !r.2 }

/-- A completion with `n` transferred bytes. -/
def complete (io : NoticeIo) (n : Nat) : Option NoticeIo :=
  (io.send.step (.complete n)).map fun send => { io with send := send }

/-- A completion with the signal `event_failed`. -/
def fail (io : NoticeIo) : Option NoticeIo :=
  (io.send.step .eventFailed).map fun send => { io with send := send }

/-! ## What is still in the buffer -/

/-- The window of the buffer has the `k`-th accepted byte. -/
def Holds (io : NoticeIo) (k : Nat) : Prop :=
  io.send.transferred.length ≤ k ∧ k < io.send.transferred.length + io.send.eventData.contents.length

/-- No byte of a notice is in the buffer without ever having been posted. -/
def NoticesLeave (io : NoticeIo) : Prop :=
  ∀ r ∈ io.notices, ∀ k, r.start ≤ k → k < r.stop → ¬ (io.Holds k ∧ io.posted ≤ k)

/-- A notice ends above what was posted. -/
def Waiting (io : NoticeIo) : Prop := ∃ r ∈ io.notices, io.posted < r.stop

/-- What was transferred was posted, what was posted was accepted, an outstanding range was posted, a
notice is a place in the stream, and one waits exactly if the last post came before it. -/
structure Ok (io : NoticeIo) : Prop where
  queue : io.send.Queue
  transferred_le : io.send.transferred.length ≤ io.posted
  posted_le : io.posted ≤ io.send.accepted.length
  outstanding_le : ∀ offset length, io.send.outstanding = some (offset, length) →
    io.send.transferred.length + length ≤ io.posted
  notice_pos : ∀ r ∈ io.notices, 0 < r.len
  notice_le : ∀ r ∈ io.notices, r.stop ≤ io.send.accepted.length
  unflushed_iff : io.unflushed = true ↔ io.Waiting

theorem init_ok {buf : List UInt8} (h : buf.length < 2 ^ 31) : (init buf).Ok where
  queue := IoSendEvent.init_queue h
  transferred_le := Nat.le_refl 0
  posted_le := Nat.le_refl 0
  outstanding_le := by
    intro _ _ hout
    cases hout
  notice_pos := by
    intro _ hr
    cases hr
  notice_le := by
    intro _ hr
    cases hr
  unflushed_iff := by
    refine iff_of_false Bool.false_ne_true ?_
    rintro ⟨r, hr, -⟩
    cases hr

section Ok

variable {io : NoticeIo} (h : io.Ok)

include h

/-- The window follows what was transferred. -/
theorem Ok.length_accepted : io.send.accepted.length =
    io.send.transferred.length + io.send.eventData.contents.length := by
  rw [← h.queue.stream, List.length_append]

/-- Bytes of a notice stay behind exactly while one was accepted since the last post. -/
theorem Ok.leave_iff : io.NoticesLeave ↔ ¬ io.unflushed = true := by
  rw [h.unflushed_iff]
  constructor
  · rintro hleave ⟨r, hr, hlt⟩
    have hpos := h.notice_pos r hr
    have hle := h.notice_le r hr
    have hlen := h.length_accepted
    have htransferred := h.transferred_le
    have hstop : r.stop = r.start + r.len := rfl
    -- the last byte of the notice
    refine hleave r hr (r.stop - 1) ?_ ?_ ⟨⟨?_, ?_⟩, ?_⟩ <;> omega
  · rintro hnone r hr k - hk ⟨-, hposted⟩
    exact hnone ⟨r, hr, Nat.lt_of_le_of_lt hposted hk⟩

/-- A push moves neither what was transferred nor what is outstanding. -/
theorem Ok.push (bytes : PushData) : (io.push bytes.1).Ok := by
  have hgrows : io.send.accepted.length ≤ (io.send.push bytes.1).accepted.length := by
    simp only [IoSendEvent.push]
    split_ifs
    · simp
    · exact Nat.le_refl _
  exact ⟨IoSendEvent.push_queue h.queue bytes, h.transferred_le, h.posted_le.trans hgrows,
    h.outstanding_le, h.notice_pos, fun r hr => (h.notice_le r hr).trans hgrows, h.unflushed_iff⟩

theorem Ok.pushNotice (bytes : PushData) (hpos : 0 < bytes.1.length) : (io.pushNotice bytes.1).Ok := by
  have hpush := Ok.push h bytes
  by_cases hok : io.accepts bytes.1 = true
  · have hnotices : (io.pushNotice bytes.1).notices =
        io.notices ++ [⟨io.send.accepted.length, bytes.1.length⟩] := if_pos hok
    have haccepted : (io.pushNotice bytes.1).send.accepted = io.send.accepted ++ bytes.1 := if_pos hok
    refine ⟨hpush.queue, hpush.transferred_le, hpush.posted_le, hpush.outstanding_le, ?_, ?_, ?_⟩
    · intro r hr
      rw [hnotices] at hr
      rcases List.mem_append.mp hr with hold | hnew
      · exact h.notice_pos r hold
      · rw [List.mem_singleton.mp hnew]
        exact hpos
    · intro r hr
      rw [hnotices] at hr
      rcases List.mem_append.mp hr with hold | hnew
      · exact hpush.notice_le r hold
      · rw [List.mem_singleton.mp hnew, haccepted, List.length_append]
        exact Nat.le_refl _
    · -- the new notice ends above all that was posted
      refine iff_of_true ?_ ⟨⟨io.send.accepted.length, bytes.1.length⟩, ?_, ?_⟩
      · show (io.unflushed || io.accepts bytes.1) = true
        rw [hok, Bool.or_true]
      · rw [hnotices]
        exact List.mem_append_right _ (List.mem_singleton_self _)
      · show io.posted < io.send.accepted.length + bytes.1.length
        have hposted := h.posted_le
        omega
  · have hsame : io.pushNotice bytes.1 = io.push bytes.1 := by
      simp [NoticeIo.pushNotice, NoticeIo.push, hok]
    rw [hsame]
    exact hpush

/-- What a post leaves: nothing changes, or all that was accepted is posted now. -/
theorem Ok.postSendEvent_posted (rioOk : Bool) :
    (io.postSendEvent rioOk).posted =
      if (io.send.postRioEvent rioOk).2 then io.send.accepted.length else io.posted := by
  rw [NoticeIo.postSendEvent, IoSendEventData.size_eq h.queue.wellFormed, ← h.length_accepted]

theorem Ok.posted_le_postSendEvent (rioOk : Bool) : io.posted ≤ (io.postSendEvent rioOk).posted := by
  rw [h.postSendEvent_posted]
  split_ifs
  · exact h.posted_le
  · exact Nat.le_refl _

/-- After a post that `RIOSend` took no notice waits; any other post changes nothing. -/
theorem Ok.waiting_postSendEvent (rioOk : Bool) :
    (io.postSendEvent rioOk).Waiting ↔ io.Waiting ∧ (io.send.postRioEvent rioOk).2 = false := by
  have hposted := h.postSendEvent_posted rioOk
  constructor
  · rintro ⟨r, hr, hlt⟩
    rw [hposted] at hlt
    split_ifs at hlt with htaken
    · exact absurd hlt (Nat.not_lt_of_le (h.notice_le r hr))
    · exact ⟨⟨r, hr, hlt⟩, Bool.eq_false_iff.mpr htaken⟩
  · rintro ⟨⟨r, hr, hlt⟩, hrefused⟩
    refine ⟨r, hr, ?_⟩
    rw [hposted, hrefused, if_neg Bool.false_ne_true]
    exact hlt

theorem Ok.postSendEvent (rioOk : Bool) : (io.postSendEvent rioOk).Ok where
  queue := IoSendEvent.postRioEvent_queue h.queue rioOk
  transferred_le := by
    show (io.send.postRioEvent rioOk).1.transferred.length ≤ _
    rw [IoSendEvent.postRioEvent_transferred]
    exact h.transferred_le.trans (h.posted_le_postSendEvent rioOk)
  posted_le := by
    show _ ≤ (io.send.postRioEvent rioOk).1.accepted.length
    rw [h.postSendEvent_posted, IoSendEvent.postRioEvent_accepted]
    split_ifs
    · exact Nat.le_refl _
    · exact h.posted_le
  outstanding_le := by
    intro offset length hout
    show (io.send.postRioEvent rioOk).1.transferred.length + length ≤ _
    rw [IoSendEvent.postRioEvent_transferred]
    rcases IoSendEvent.outstanding_of_postRioEvent hout with hold | ⟨htaken, rfl⟩
    · exact (h.outstanding_le offset length hold).trans (h.posted_le_postSendEvent rioOk)
    · rw [h.postSendEvent_posted, if_pos htaken, IoSendEventData.size_eq h.queue.wellFormed,
        ← h.length_accepted]
  notice_pos := h.notice_pos
  notice_le := by
    intro r hr
    show r.stop ≤ (io.send.postRioEvent rioOk).1.accepted.length
    rw [IoSendEvent.postRioEvent_accepted]
    exact h.notice_le r hr
  unflushed_iff := by
    rw [h.waiting_postSendEvent, ← h.unflushed_iff]
    simp [NoticeIo.postSendEvent]

/-- A completion transfers bytes of the outstanding range, which were posted. -/
theorem Ok.complete {n : Nat} {io' : NoticeIo} (hstep : io.complete n = some io') : io'.Ok := by
  obtain ⟨send, hsend, rfl⟩ := Option.map_eq_some_iff.mp hstep
  have hqueue := IoSendEvent.step_queue io.send (.complete n) send h.queue hsend
  simp only [IoSendEvent.step] at hsend
  cases hout : io.send.outstanding with
  | none => simp [hout] at hsend
  | some range =>
      obtain ⟨offset, length⟩ := range
      rw [hout] at hsend
      simp only [Option.ite_none_right_eq_some, Option.some.injEq] at hsend
      obtain ⟨⟨-, hn⟩, rfl⟩ := hsend
      have hbound := h.outstanding_le offset length hout
      have hread : (Memory.read io.send.eventData.data offset n).length ≤ n := List.length_take_le _ _
      refine ⟨hqueue, ?_, h.posted_le, ?_, h.notice_pos, h.notice_le, h.unflushed_iff⟩
      · show (io.send.transferred ++ Memory.read io.send.eventData.data offset n).length ≤ io.posted
        rw [List.length_append]
        omega
      · intro _ _ hnone
        cases hnone

theorem Ok.fail {io' : NoticeIo} (hstep : io.fail = some io') : io'.Ok := by
  obtain ⟨send, hsend, rfl⟩ := Option.map_eq_some_iff.mp hstep
  have hqueue := IoSendEvent.step_queue io.send .eventFailed send h.queue hsend
  simp only [IoSendEvent.step, Option.ite_none_right_eq_some, Option.some.injEq] at hsend
  obtain ⟨-, rfl⟩ := hsend
  refine ⟨hqueue, h.transferred_le, h.posted_le, ?_, h.notice_pos, h.notice_le, h.unflushed_iff⟩
  intro _ _ hnone
  cases hnone

end Ok

theorem unflushed_complete {io io' : NoticeIo} {n : Nat} (hstep : io.complete n = some io') :
    io'.unflushed = io.unflushed := by
  obtain ⟨send, -, rfl⟩ := Option.map_eq_some_iff.mp hstep
  rfl

theorem unflushed_fail {io io' : NoticeIo} (hstep : io.fail = some io') :
    io'.unflushed = io.unflushed := by
  obtain ⟨send, -, rfl⟩ := Option.map_eq_some_iff.mp hstep
  rfl

end NoticeIo

end Mmocraft.Io
