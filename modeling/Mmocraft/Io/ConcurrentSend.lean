/-
# Mmocraft.Io.ConcurrentSend -- pushes that publish the tail before the bytes

`IoSendEventLockFreeDataImpl::push` in its two steps: the compare-and-swap that advances the tail, and
the copy.  The pushes of any number of threads interleave at these steps, with each other, with
`post_rio_event`, which hands the window to RIO, and with the completions, whose `pop` may set the
window back to the start of the buffer.

A byte belongs to the push that reserved it last.  The window can be handed on while a push has not
copied yet, and then the completion can even free its room for another.  This is the only way in which
it goes wrong: a run hands on only written bytes exactly if no push is between its two steps when
`post_rio_event` reads the window.

With no push under way the two steps together are the push of `Io.SendEvent` (`push_eq_reserve_copy`). The
invariant holds until the first window is handed on too early, and `handed_of_not_settled` says that from
there on the history shows it: so the condition is exact for every run.
-/
import Mmocraft.Io.SendEvent
import Mmocraft.Lib.Ranges

namespace Mmocraft.Io

open Mmocraft.Lib

/-! ## The two steps of a push -/

namespace IoSendEventData

/-- The loop of `push`: the window once the compare-and-swap has succeeded, or nothing if the bytes do
not fit. -/
def reserve (d : IoSendEventData) (n : Nat) : Option IoSendEventData :=
  let newTail := int32 (d.dataTail + int32 n)
  if d.capacity < sizeT newTail then none else some { d with dataTail := newTail }

/-- The `memcpy` of `push`. -/
def copy (d : IoSendEventData) (start : Nat) (bytes : List UInt8) : IoSendEventData :=
  { d with data := Memory.write d.data start bytes }

/-- A push that is not interrupted takes its two steps. -/
theorem push_eq_reserve_copy (d : IoSendEventData) (bytes : List UInt8) :
    d.push bytes = match d.reserve bytes.length with
      | none => (d, false)
      | some d' => (d'.copy d.dataTail.toNat bytes, true) := by
  simp only [push, reserve]
  split_ifs <;> rfl

variable {d d' : IoSendEventData}

/-- What a reservation leaves. -/
theorem reserve_eq (h : d.WellFormed) {bytes : PushData} (hreserve : d.reserve bytes.1.length = some d') :
    d' = { d with dataTail := d.dataTail + bytes.1.length } ∧
      d.dataTail + bytes.1.length ≤ d.capacity := by
  have hpush : d.push bytes.1 = (d'.copy d.dataTail.toNat bytes.1, true) := by
    rw [push_eq_reserve_copy, hreserve]
  have hok : (d.push bytes.1).2 = true := by rw [hpush]
  have htail : d'.dataTail = d.dataTail + bytes.1.length := by
    have heq := push_accepted h bytes hok
    rw [hpush] at heq
    exact congrArg dataTail heq
  refine ⟨?_, (push_accepts_iff h bytes).mp hok⟩
  simp only [reserve] at hreserve
  split_ifs at hreserve
  obtain rfl := Option.some.inj hreserve
  rw [← htail]

theorem reserve_wellFormed (h : d.WellFormed) {bytes : PushData}
    (hreserve : d.reserve bytes.1.length = some d') : d'.WellFormed := by
  obtain ⟨rfl, hfit⟩ := reserve_eq h hreserve
  have h1 := h.head_nonneg
  have h2 := h.head_le_tail
  refine ⟨h1, by simp only; omega, hfit, h.capacity_lt, fun hempty => ?_⟩
  simp only at hempty ⊢
  have := h.reset (by omega)
  omega

theorem copy_wellFormed (h : d.WellFormed) {start : Nat} {bytes : List UInt8}
    (hin : start + bytes.length ≤ d.capacity) : (d.copy start bytes).WellFormed := by
  have hcapacity : (d.copy start bytes).capacity = d.capacity := Memory.length_write hin
  exact ⟨h.head_nonneg, h.head_le_tail, hcapacity ▸ h.tail_le_capacity, hcapacity ▸ h.capacity_lt, h.reset⟩

end IoSendEventData

/-! ## The send event with its pushes

The window of the send buffer is everything between head and tail, whether it has been written or not. A
push under way is known by its range, so that it can be said which bytes of the window are still to be
written.
-/

/-- A push between its two steps. It has its range of the buffer, and its bytes are still to be copied
there. -/
structure PendingPush where
  id : Nat
  start : Nat
  bytes : PushData
  deriving DecidableEq, Repr

def PendingPush.range (p : PendingPush) : Range := ⟨p.start, p.bytes.1.length⟩

/-- `IoSendEvent` with the range that is outstanding at RIO and the pushes under way.  Two histories:
the push that reserved each byte last, and the bytes that were handed to `RIOSend` before that push had
copied them. -/
structure ConcurrentSend where
  eventData : IoSendEventData
  isProcessing : Bool := false
  outstanding : Option Range := none
  pushes : List PendingPush := []
  nextId : Nat := 0
  owner : Nat → Option Nat := fun _ => none
  handedUnwritten : List Nat := []

namespace ConcurrentSend

def init (buf : List UInt8) : ConcurrentSend := { eventData := .new buf }

/-- The byte was copied by the push that reserved it. -/
def written (s : ConcurrentSend) (x : Nat) : Bool :=
  match s.owner x with
  | none => false
  | some id => s.pushes.all fun p => p.id != id

/-- A push whose compare-and-swap has succeeded. -/
def reserve (s : ConcurrentSend) (bytes : PushData) (d : IoSendEventData) : ConcurrentSend :=
  let start := s.eventData.dataTail.toNat
  { s with
    eventData := d
    pushes := s.pushes ++ [{ id := s.nextId, start := start, bytes := bytes }]
    nextId := s.nextId + 1
    owner := fun x => if start ≤ x ∧ x < start + bytes.1.length then some s.nextId else s.owner x }

/-- The copy of the `k`-th push, which returns true. -/
def copy (s : ConcurrentSend) (k : Nat) (p : PendingPush) : ConcurrentSend :=
  { s with eventData := s.eventData.copy p.start p.bytes.1, pushes := s.pushes.eraseIdx k }

/-- The window as `post_rio_event` reads it. -/
def window (s : ConcurrentSend) : Range := ⟨s.eventData.dataHead.toNat, s.eventData.size⟩

/-- `IoSendEvent::post_rio_event` calls `RIOSend`. -/
def hands (s : ConcurrentSend) : Bool := !s.isProcessing && s.eventData.size != 0

/-- `IoSendEvent::post_rio_event`; `rioOk` is the outcome of `RIOSend`. -/
def postRioEvent (s : ConcurrentSend) (rioOk : Bool) : ConcurrentSend :=
  if s.hands then
    { s with
      isProcessing := rioOk
      outstanding := if rioOk then some s.window else s.outstanding
      handedUnwritten := s.handedUnwritten ++
        (List.range' s.window.start s.window.len).filter fun x => !s.written x }
  else s

/-- `IoSendEvent::on_event_complete` with `n` transferred bytes. -/
def onEventComplete (s : ConcurrentSend) (n : Nat) : ConcurrentSend :=
  { s with eventData := s.eventData.pop n, isProcessing := false, outstanding := none }

/-- `IoSendEvent::on_event_complete` with the signal `event_failed`. -/
def onEventFailed (s : ConcurrentSend) : ConcurrentSend :=
  { s with isProcessing := false, outstanding := none }

/-- The steps; `k` counts the pushes that are under way. -/
inductive Event where
  | reserve (bytes : PushData)
  | copy (k : Nat)
  | postRioEvent (rioOk : Bool)
  | complete (n : Nat)
  | eventFailed

/-- One step.  A push that does not fit returns false; a completion belongs to the outstanding range and
transfers between one byte and all of it. -/
def step (s : ConcurrentSend) : Event → Option ConcurrentSend
  | .reserve bytes => some (((s.eventData.reserve bytes.1.length).map (s.reserve bytes)).getD s)
  | .copy k => s.pushes[k]?.map (s.copy k)
  | .postRioEvent rioOk => some (s.postRioEvent rioOk)
  | .complete n =>
      match s.outstanding with
      | none => none
      | some range => if 0 < n ∧ n ≤ range.len then some (s.onEventComplete n) else none
  | .eventFailed => if s.outstanding.isSome then some s.onEventFailed else none

/-- No push is between its two steps when the window is handed on; one without bytes does not
matter. -/
def Settled (s : ConcurrentSend) : Event → Prop
  | .postRioEvent _ => s.hands = true → ∀ p ∈ s.pushes, p.bytes.1 = []
  | _ => True

instance (s : ConcurrentSend) : (e : Event) → Decidable (s.Settled e)
  | .postRioEvent _ => inferInstanceAs (Decidable (s.hands = true → ∀ p ∈ s.pushes, p.bytes.1 = []))
  | .reserve _ | .copy _ | .complete _ | .eventFailed => isTrue trivial

/-- Only written bytes were handed to `RIOSend`, and the bytes that a pending copy targets were not
reserved again. -/
structure OnlyWritten (s : ConcurrentSend) : Prop where
  handed : s.handedUnwritten = []
  targets : ∀ p ∈ s.pushes, ∀ x, p.range.start ≤ x → x < p.range.stop → s.owner x = some p.id

/-! ## Every step

Ranges of pushes are disjoint and lie in the window while it has not been handed on. That stops to be true
with the first window that is handed on too early, and from then on nothing is said.
-/

/-- The invariant: a pending copy targets bytes of the window that it owns, behind the outstanding range;
and every byte of the window is owned. -/
structure Invariant (s : ConcurrentSend) : Prop where
  wellFormed : s.eventData.WellFormed
  pushes_in : ∀ p ∈ s.pushes, p.range.stop ≤ s.eventData.capacity
  pushes_window : ∀ p ∈ s.pushes, p.bytes.1 ≠ [] →
    s.eventData.dataHead ≤ p.start ∧ (p.range.stop : Int) ≤ s.eventData.dataTail
  outstanding : ∀ range, s.outstanding = some range → (range.start : Int) = s.eventData.dataHead ∧
    (range.stop : Int) ≤ s.eventData.dataTail ∧ ∀ p ∈ s.pushes, p.bytes.1 ≠ [] → range.stop ≤ p.start
  owned : ∀ x : Nat, s.eventData.dataHead ≤ x → x < s.eventData.dataTail → s.owner x ≠ none
  targets : ∀ p ∈ s.pushes, ∀ x, p.range.start ≤ x → x < p.range.stop → s.owner x = some p.id
  owner_in : ∀ p ∈ s.pushes, ∀ x, s.owner x = some p.id → p.range.start ≤ x ∧ x < p.range.stop
  id_lt : ∀ p ∈ s.pushes, p.id < s.nextId
  owner_lt : ∀ x id, s.owner x = some id → id < s.nextId
  handed : s.handedUnwritten = []

namespace Invariant

variable {s s' : ConcurrentSend}

theorem onlyWritten (h : Invariant s) : OnlyWritten s where
  handed := h.handed
  targets := h.targets

theorem init {buf : List UInt8} (hcapacity : buf.length < 2 ^ 31) :
    Invariant (ConcurrentSend.init buf) where
  wellFormed := IoSendEventData.new_wellFormed hcapacity
  pushes_in _ hp := nomatch hp
  pushes_window _ hp := nomatch hp
  outstanding _ hrange := nomatch hrange
  owned x hhead htail := by
    have htail' : (x : Int) < 0 := htail
    omega
  targets _ hp := nomatch hp
  owner_in _ hp := nomatch hp
  id_lt _ hp := nomatch hp
  owner_lt _ _ hid := nomatch hid
  handed := rfl

/-- A reservation owns its bytes, and leaves the owners of the others. -/
theorem reserve_owner (s : ConcurrentSend) (bytes : PushData) (d : IoSendEventData) (x : Nat) :
    (s.reserve bytes d).owner x =
      if s.eventData.dataTail.toNat ≤ x ∧ x < s.eventData.dataTail.toNat + bytes.1.length then some s.nextId
      else s.owner x := rfl

theorem reserve (h : Invariant s) {bytes : PushData} {d : IoSendEventData}
    (hreserve : s.eventData.reserve bytes.1.length = some d) : Invariant (s.reserve bytes d) := by
  have hwellFormed := IoSendEventData.reserve_wellFormed h.wellFormed hreserve
  obtain ⟨hd, hfit⟩ := IoSendEventData.reserve_eq h.wellFormed hreserve
  have hhead := h.wellFormed.head_nonneg
  have hle := h.wellFormed.head_le_tail
  have hdHead : d.dataHead = s.eventData.dataHead := by rw [hd]
  have hdTail : d.dataTail = s.eventData.dataTail + bytes.1.length := by rw [hd]
  have hdCapacity : d.capacity = s.eventData.capacity := by rw [hd]; rfl
  -- what holds of the pushes before and of the new one holds of all
  have hforall : ∀ {P : PendingPush → Prop}, (∀ p ∈ s.pushes, P p) →
      P { id := s.nextId, start := s.eventData.dataTail.toNat, bytes := bytes } →
      ∀ p ∈ (s.reserve bytes d).pushes, P p := by
    intro P hold hnew p hp
    rcases List.mem_append.mp hp with hp | hp
    · exact hold p hp
    · rwa [List.mem_singleton.mp hp]
  have howner := reserve_owner s bytes d
  refine { wellFormed := hwellFormed
           pushes_in := hforall (fun p hp => (h.pushes_in p hp).trans (le_of_eq hdCapacity.symm)) ?_
           pushes_window := hforall ?_ fun _ => ?_
           outstanding := ?_
           owned := ?_
           targets := hforall ?_ fun x hlow hhigh => by rw [howner, if_pos ⟨hlow, hhigh⟩]
           owner_in := hforall ?_ ?_
           id_lt := hforall (fun p hp => Nat.lt_succ_of_lt (h.id_lt p hp)) (Nat.lt_succ_self _)
           owner_lt := ?_
           handed := h.handed }
  · show s.eventData.dataTail.toNat + bytes.1.length ≤ d.capacity
    omega
  · intro p hp hbytes
    show d.dataHead ≤ p.start ∧ (p.range.stop : Int) ≤ d.dataTail
    have hp' := h.pushes_window p hp hbytes
    omega
  · show d.dataHead ≤ (s.eventData.dataTail.toNat : Int) ∧
      ((s.eventData.dataTail.toNat + bytes.1.length : Nat) : Int) ≤ d.dataTail
    omega
  · intro range hrange
    obtain ⟨hstart, hstop, hbehind⟩ := h.outstanding range hrange
    refine ⟨hstart.trans hdHead.symm, ?_, hforall hbehind fun _ => ?_⟩
    · show (range.stop : Int) ≤ d.dataTail
      omega
    · show range.stop ≤ s.eventData.dataTail.toNat
      omega
  · intro x hlow hhigh
    have hlow' : d.dataHead ≤ x := hlow
    have hhigh' : (x : Int) < d.dataTail := hhigh
    rw [howner]
    split_ifs with hmine
    · exact Option.some_ne_none _
    · exact h.owned x (by omega) (by omega)
  · -- a pending copy with a byte at `x` lies below the new reservation
    intro p hp x hlow hhigh
    have hlen : p.range.stop = p.start + p.bytes.1.length := rfl
    have hstart : p.range.start = p.start := rfl
    have hbytes : p.bytes.1 ≠ [] := List.ne_nil_of_length_pos (by omega)
    have hp' := h.pushes_window p hp hbytes
    rw [howner, if_neg (by omega)]
    exact h.targets p hp x hlow hhigh
  · intro p hp x hid
    rw [howner] at hid
    split_ifs at hid with hmine
    · exact absurd (Option.some.inj hid) (Nat.ne_of_gt (h.id_lt p hp))
    · exact h.owner_in p hp x hid
  · intro x hid
    rw [howner] at hid
    split_ifs at hid with hmine
    · exact hmine
    · exact absurd (h.owner_lt x _ hid) (lt_irrefl _)
  · intro x id hid
    rw [howner] at hid
    show id < s.nextId + 1
    split_ifs at hid with hmine
    · exact Option.some.inj hid ▸ Nat.lt_succ_self _
    · exact Nat.lt_succ_of_lt (h.owner_lt x id hid)

theorem copy (h : Invariant s) {k : Nat} {p : PendingPush} (hk : s.pushes[k]? = some p) :
    Invariant (s.copy k p) := by
  have hin := h.pushes_in p (List.mem_of_getElem? hk)
  have hcapacity : (s.eventData.copy p.start p.bytes.1).capacity = s.eventData.capacity :=
    Memory.length_write hin
  have hmem : ∀ q ∈ (s.copy k p).pushes, q ∈ s.pushes := fun q hq => List.mem_of_mem_eraseIdx hq
  exact
    { wellFormed := IoSendEventData.copy_wellFormed h.wellFormed hin
      pushes_in := fun q hq => (h.pushes_in q (hmem q hq)).trans (le_of_eq hcapacity.symm)
      pushes_window := fun q hq => h.pushes_window q (hmem q hq)
      outstanding := fun range hrange =>
        ⟨(h.outstanding range hrange).1, (h.outstanding range hrange).2.1,
          fun q hq => (h.outstanding range hrange).2.2 q (hmem q hq)⟩
      owned := h.owned
      targets := fun q hq => h.targets q (hmem q hq)
      owner_in := fun q hq => h.owner_in q (hmem q hq)
      id_lt := fun q hq => h.id_lt q (hmem q hq)
      owner_lt := h.owner_lt
      handed := h.handed }

/-- The window ends at the tail. -/
theorem window_stop (h : Invariant s) : (s.window.stop : Int) = s.eventData.dataTail := by
  have hhead := h.wellFormed.head_nonneg
  have hle := h.wellFormed.head_le_tail
  show ((s.eventData.dataHead.toNat + s.eventData.size : Nat) : Int) = _
  rw [IoSendEventData.size_eq h.wellFormed, IoSendEventData.length_contents h.wellFormed]
  omega

theorem mem_window (h : Invariant s) {x : Nat} :
    x ∈ List.range' s.window.start s.window.len ↔
      s.eventData.dataHead ≤ x ∧ (x : Int) < s.eventData.dataTail := by
  have hhead := h.wellFormed.head_nonneg
  have hstop := h.window_stop
  rw [List.mem_range'_1]
  show s.eventData.dataHead.toNat ≤ x ∧ x < s.window.stop ↔ _
  omega

/-- With no bytes to be copied, every byte of the window is written. -/
theorem written (h : Invariant s) (hsettled : ∀ p ∈ s.pushes, p.bytes.1 = []) {x : Nat}
    (hx : x ∈ List.range' s.window.start s.window.len) : s.written x = true := by
  obtain ⟨hhead, htail⟩ := h.mem_window.mp hx
  obtain ⟨id, hid⟩ := Option.ne_none_iff_exists'.mp (h.owned x hhead htail)
  rw [ConcurrentSend.written, hid]
  refine List.all_eq_true.mpr fun p hp => bne_iff_ne.mpr ?_
  rintro rfl
  have hrange := h.owner_in p hp x hid
  have hempty : p.range.len = 0 := by rw [PendingPush.range, hsettled p hp, List.length_nil]
  unfold Range.stop at hrange
  omega

/-- A byte that a push of the window is still to copy is not written. -/
theorem not_written (h : Invariant s) {p : PendingPush} (hp : p ∈ s.pushes) (hbytes : p.bytes.1 ≠ []) :
    p.start ∈ List.range' s.window.start s.window.len ∧ s.written p.start = false := by
  have hlen := List.length_pos_of_ne_nil hbytes
  have hstop : p.range.stop = p.start + p.bytes.1.length := rfl
  obtain ⟨hhead, htail⟩ := h.pushes_window p hp hbytes
  refine ⟨h.mem_window.mpr ⟨hhead, by omega⟩, ?_⟩
  have howner : s.owner p.start = some p.id := h.targets p hp p.start (le_refl _) (by omega)
  rw [ConcurrentSend.written, howner]
  exact List.all_eq_false.mpr ⟨p, hp, by simp⟩

theorem postRioEvent (h : Invariant s) {rioOk : Bool} (hsettled : s.Settled (.postRioEvent rioOk)) :
    Invariant (s.postRioEvent rioOk) := by
  unfold ConcurrentSend.postRioEvent
  by_cases hhands : s.hands = true
  · have hempty := hsettled hhands
    rw [if_pos hhands]
    refine { h with outstanding := fun range hrange => ?_, handed := ?_ }
    · cases rioOk with
      | false => exact h.outstanding range hrange
      | true =>
          obtain rfl := Option.some.inj hrange
          have hhead := h.wellFormed.head_nonneg
          exact ⟨Int.toNat_of_nonneg hhead, le_of_eq h.window_stop,
            fun p hp hbytes => absurd (hempty p hp) hbytes⟩
    · show s.handedUnwritten ++ _ = []
      rw [h.handed, List.nil_append, List.filter_eq_nil_iff]
      intro x hx
      rw [h.written hempty hx]
      exact Bool.false_ne_true
  · rw [if_neg hhands]
    exact h

/-- A completion frees nothing that a push is still to copy to. -/
theorem onEventComplete (h : Invariant s) {range : Range} (hrange : s.outstanding = some range) {n : Nat}
    (hn : n ≤ range.len) : Invariant (s.onEventComplete n) := by
  obtain ⟨hstart, hstop, hbehind⟩ := h.outstanding range hrange
  have hrangeStop : range.stop = range.start + range.len := rfl
  have hpop : s.eventData.dataHead + n ≤ s.eventData.dataTail := by omega
  have heq := IoSendEventData.pop_eq h.wellFormed hpop
  have hwindow : ∀ p ∈ s.pushes, p.bytes.1 ≠ [] →
      (s.eventData.pop n).dataHead ≤ p.start ∧ (p.range.stop : Int) ≤ (s.eventData.pop n).dataTail := by
    intro p hp hbytes
    have hlen := List.length_pos_of_ne_nil hbytes
    have hpStop : p.range.stop = p.start + p.bytes.1.length := rfl
    have hp' := h.pushes_window p hp hbytes
    have hbehind' := hbehind p hp hbytes
    rw [heq, if_neg (by omega)]
    exact ⟨by simp only; omega, hp'.2⟩
  have howned : ∀ x : Nat, (s.eventData.pop n).dataHead ≤ x → x < (s.eventData.pop n).dataTail →
      s.owner x ≠ none := by
    intro x
    rw [heq]
    split_ifs
    · intro hlow hhigh
      simp only at hhigh
      omega
    · intro hlow hhigh
      simp only at hlow hhigh
      exact h.owned x (by omega) hhigh
  exact
    { wellFormed := IoSendEventData.pop_wellFormed h.wellFormed hpop
      pushes_in := fun p hp => (h.pushes_in p hp).trans
        (le_of_eq (IoSendEventData.pop_capacity n).symm)
      pushes_window := hwindow
      outstanding := fun _ hnone => nomatch hnone
      owned := howned
      targets := h.targets
      owner_in := h.owner_in
      id_lt := h.id_lt
      owner_lt := h.owner_lt
      handed := h.handed }

theorem onEventFailed (h : Invariant s) : Invariant s.onEventFailed :=
  { h with outstanding := fun _ hrange => nomatch hrange }

theorem step (h : Invariant s) {e : Event} (hsettled : s.Settled e) (hstep : s.step e = some s') :
    Invariant s' := by
  cases e with
  | reserve bytes =>
      obtain rfl := Option.some.inj hstep
      cases hreserve : s.eventData.reserve bytes.1.length with
      | none => exact h
      | some d => exact h.reserve hreserve
  | copy k =>
      obtain ⟨p, hk, rfl⟩ := Option.map_eq_some_iff.mp hstep
      exact h.copy hk
  | postRioEvent rioOk =>
      obtain rfl := Option.some.inj hstep
      exact h.postRioEvent hsettled
  | complete n =>
      simp only [ConcurrentSend.step] at hstep
      split at hstep
      · exact nomatch hstep
      · rename_i range hrange
        split_ifs at hstep with hn
        obtain rfl := Option.some.inj hstep
        exact h.onEventComplete hrange hn.2
  | eventFailed =>
      simp only [ConcurrentSend.step] at hstep
      split_ifs at hstep
      obtain rfl := Option.some.inj hstep
      exact h.onEventFailed

/-- A push in between has its bytes handed on before it copies them. -/
theorem handed_of_not_settled (h : Invariant s) {e : Event} (hsettled : ¬ s.Settled e)
    (hstep : s.step e = some s') : s'.handedUnwritten ≠ [] := by
  cases e with
  | postRioEvent rioOk =>
      obtain rfl := Option.some.inj hstep
      simp only [Settled, not_forall] at hsettled
      obtain ⟨hhands, p, hp, hbytes⟩ := hsettled
      obtain ⟨hmem, hunwritten⟩ := h.not_written hp hbytes
      rw [ConcurrentSend.postRioEvent, if_pos hhands]
      refine List.append_ne_nil_of_right_ne_nil _ (List.ne_nil_of_mem (a := p.start) ?_)
      rw [List.mem_filter, hunwritten]
      exact ⟨hmem, rfl⟩
  | reserve bytes => exact absurd trivial hsettled
  | copy k => exact absurd trivial hsettled
  | complete n => exact absurd trivial hsettled
  | eventFailed => exact absurd trivial hsettled

end Invariant

/-! ## Runs -/

/-- What was handed on stays handed on. -/
theorem handed_of_step {s s' : ConcurrentSend} {e : Event} (hhanded : s.handedUnwritten ≠ [])
    (hstep : s.step e = some s') : s'.handedUnwritten ≠ [] := by
  cases e with
  | reserve bytes =>
      obtain rfl := Option.some.inj hstep
      cases s.eventData.reserve bytes.1.length <;> exact hhanded
  | copy k =>
      obtain ⟨p, -, rfl⟩ := Option.map_eq_some_iff.mp hstep
      exact hhanded
  | postRioEvent rioOk =>
      obtain rfl := Option.some.inj hstep
      unfold postRioEvent
      by_cases hhands : s.hands = true
      · rw [if_pos hhands]
        exact List.append_ne_nil_of_left_ne_nil hhanded _
      · rw [if_neg hhands]
        exact hhanded
  | complete n =>
      simp only [step] at hstep
      split at hstep
      · exact nomatch hstep
      · split_ifs at hstep
        obtain rfl := Option.some.inj hstep
        exact hhanded
  | eventFailed =>
      simp only [step] at hstep
      split_ifs at hstep
      obtain rfl := Option.some.inj hstep
      exact hhanded

/-- **Only written bytes are sent**, and no copy goes to bytes that were reserved again, exactly in the
runs in which no push is between its two steps when the window is handed on. -/
theorem onlyWritten_iff {buf : List UInt8} (hcapacity : buf.length < 2 ^ 31) {es : List Event}
    {s : ConcurrentSend} (hrun : run step (init buf) es = some s) :
    OnlyWritten s ↔ Along step Settled (init buf) es := by
  have hinit := Invariant.init hcapacity
  have hiff : ¬ s.handedUnwritten ≠ [] ↔ Along step Settled (init buf) es :=
    run_iff_along (fun _ _ _ h hG hstep => h.step hG hstep)
      (fun _ _ _ h hG hstep => h.handed_of_not_settled hG hstep)
      (fun _ _ _ hD hstep => handed_of_step hD hstep) (fun _ h hD => hD h.handed) hinit hrun
  refine ⟨fun h => hiff.mp (not_not.mpr h.handed), fun hG => ?_⟩
  have h : Invariant s := run_invariant_along (fun _ _ _ h hG hstep => h.step hG hstep) hinit hG hrun
  exact h.onlyWritten

/-- The send buffer of a connection, all zero. -/
def zeroed : ConcurrentSend := init (List.replicate tcpSendBufferSize (0 : UInt8))

/-- Two pushes interleave, the window is handed on, and a third push comes before the completion. -/
def copiesBeforePost : List Event :=
  [.reserve ⟨[1, 2], by decide⟩, .reserve ⟨[3], by decide⟩, .copy 1, .copy 0, .postRioEvent true,
    .reserve ⟨[4], by decide⟩, .complete 3, .copy 0]

theorem onlyWritten_copiesBeforePost :
    ∃ s, run step zeroed copiesBeforePost = some s ∧ OnlyWritten s := by
  have hrun : run step zeroed copiesBeforePost = some ((run step zeroed copiesBeforePost).getD zeroed) :=
    run_getD (by decide +kernel)
  exact ⟨_, hrun, (onlyWritten_iff (by decide +kernel) hrun).mpr
    (show Along step Settled zeroed copiesBeforePost by decide +kernel)⟩

/-- The window is handed on before the push has copied, the completion sets it back, and a second push
reserves the byte that the first is still to copy. -/
def postBeforeCopy : List Event :=
  [.reserve ⟨[1], by decide⟩, .postRioEvent true, .complete 1, .reserve ⟨[2], by decide⟩]

/-- **A byte is sent before it is written**, and two copies are to go to it. -/
theorem not_onlyWritten_postBeforeCopy : ∃ s, run step zeroed postBeforeCopy = some s ∧
    s.handedUnwritten = [0] ∧ s.pushes.map PendingPush.range = [⟨0, 1⟩, ⟨0, 1⟩] ∧ ¬ OnlyWritten s := by
  have hrun : run step zeroed postBeforeCopy = some ((run step zeroed postBeforeCopy).getD zeroed) :=
    run_getD (by decide +kernel)
  have hhanded : ((run step zeroed postBeforeCopy).getD zeroed).handedUnwritten = [0] := by decide +kernel
  refine ⟨_, hrun, hhanded, by decide +kernel, fun h => ?_⟩
  exact absurd (hhanded.symm.trans h.handed) (by decide)

end ConcurrentSend

end Mmocraft.Io
