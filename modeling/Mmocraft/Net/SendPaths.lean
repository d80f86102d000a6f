/-
# Mmocraft.Net.SendPaths -- what is accepted for sending is sent once and in order

The two send paths of a connection compete for one place in the request queue.  A multicast event that
finds the place taken is freed unsent, although its multicast was accepted; and since a flush always
takes the send buffer first, data can overtake each other on the two paths.  Both are avoided if each flush
finds the two paths in the right state.  A send that RIO does not transfer to its end is a third danger to a
multicast: its own event is freed all the same, and what is left of a window in the send buffer is handed
over again.

Both results are invariants of the data by their numbers.  For the first, every accepted datum is counted in
the places where it can be, and each step moves it from one place to another.  For the second, what waits on
either path comes after a list that grows with each send: the data in the order in which RIO was given them,
or, with one send outstanding at most, those that it completed, those that it has and those that came back.
-/
import Mathlib.Data.List.Nodup
import Mmocraft.Net.ConnectionIo

namespace Mmocraft.Net

open Mmocraft.Lib Mmocraft.Io

namespace ConnectionIo

/-! ## The data accepted so far

Data are numbered when they are accepted, on either path. The histories keep the numbers, and nothing in the
code depends on them.
-/

/-- Where accepted data can be: in the send buffer, ready, outstanding, or completed. -/
def places (c : ConnectionIo) : List SendData :=
  (c.returned ++ c.buffered) ++ c.readyMulticastEvents ++ c.outstanding.flatMap RioSend.data ++ c.completed

/-- The accepted data are numbered in order. -/
def Numbered (c : ConnectionIo) : Prop := c.accepted.map SendData.id = List.range c.accepted.length

/-- A send that leaves the request queue keeps its data in their places, but for what is left of a
multicast. -/
theorem count_places_takeOutstanding {c : ConnectionIo} {k : Nat} {send : RioSend}
    (hk : c.outstanding[k]? = some send) (result : SendResult) (d : SendData) :
    c.places.count d = (c.takeOutstanding k send result).places.count d +
      if send.isSendEvent then 0 else (c.leftBy send result).count d := by
  obtain ⟨before, behind, hsplit, -, herase⟩ := exists_split_of_getElem? hk
  have hdata := congrArg (List.count d) (c.finishedBy_append_leftBy send result)
  rw [List.count_append] at hdata
  have hplaces : c.places.count d = (c.returned ++ c.buffered).count d + c.readyMulticastEvents.count d +
      (before.flatMap RioSend.data).count d + send.data.count d + (behind.flatMap RioSend.data).count d +
      c.completed.count d := by
    rw [places, hsplit]
    simp only [List.flatMap_append, List.flatMap_cons, List.count_append]
    omega
  rw [hplaces]
  cases send with
  | sendEvent ds =>
      simp only [places, takeOutstanding, herase, List.flatMap_append, List.count_append, RioSend.isSendEvent,
        if_true]
      omega
  | multicast m =>
      simp only [places, takeOutstanding, herase, List.flatMap_append, List.count_append, RioSend.isSendEvent,
        Bool.false_eq_true, if_false]
      omega

/-! ## Accepted multicasts are not lost

An accepted datum is buffered, ready, with RIO, or completed. The invariant counts it over these places,
with those multicasts that a flush still has to post as a parameter, because in the middle of a flush they
are in none of them.
-/

/-- **Accepted multicasts.** Each is in exactly one place and was handed over at most once; the bytes
in the send buffer are those of the data it is said to hold. -/
structure MulticastsKept (c : ConnectionIo) : Prop where
  inOnePlace : ∀ d ∈ c.accepted, d.isMulticast = true → c.places.count d = 1
  handedOnce : ∀ d ∈ c.accepted, d.isMulticast = true → (c.handed ++ c.handedAgain).count d ≤ 1
  window : c.ioSendEvent.eventData.contents =
    (bytesOf (c.sending ++ c.returned)).drop c.partlySent ++ bytesOf c.buffered

/-- The flush can hand over every ready event: it has data, the request queue has room for it, and
RIO takes it.  And RIO transfers the multicasts of a send to their end. -/
def HandsOverReady (limit : Nat) (c : ConnectionIo) : Event → Prop
  | .flushMulticastSend o => ∀ m ∈ c.readyMulticastEvents.zipIdx,
      m.1.bytes ≠ [] ∧ c.outstanding.length + m.2 < limit ∧ o m.2 = true
  | .complete k result => ∀ send ∈ c.outstanding[k]?, ∀ d ∈ c.leftBy send result,
      send.isSendEvent = true ∧ d.isMulticast = false
  | _ => True

instance (limit : Nat) (c : ConnectionIo) (e : Event) : Decidable (c.HandsOverReady limit e) := by
  unfold HandsOverReady
  split <;> infer_instance

/-- All accepted data are accounted for; `rest` are the events a flush has not reached yet.  What came back
from RIO is no multicast. -/
structure Accounted (rest : List SendData) (c : ConnectionIo) : Prop where
  numbered : c.Numbered
  count : ∀ d, c.accepted.count d = c.places.count d + rest.count d
  again : ∀ d ∈ c.returned ++ c.handedAgain, d.isMulticast = false
  cutShort : c.cutShort = []

namespace Accounted

variable {c c' : ConnectionIo} {rest : List SendData}

/-- An accepted datum waits in one of the two paths. -/
theorem accepts (h : c.Accounted []) (hc : Accepts c c') (hs : SameSends c c') : c'.Accounted [] := by
  have hplaces : ∀ d, c'.places.count d = c.returned.count d + c'.buffered.count d +
      c'.readyMulticastEvents.count d + (c.outstanding.flatMap RioSend.data).count d + c.completed.count d := by
    intro d
    rw [places, hs.outstanding, hs.completed, hs.returned]
    simp only [List.count_append]
  have hcount := h.count
  simp only [places, List.count_append, List.count_nil, Nat.add_zero] at hcount
  have hagain : ∀ d ∈ c'.returned ++ c'.handedAgain, d.isMulticast = false := by
    rw [hs.returned, hs.handedAgain]
    exact h.again
  have hcut : c'.cutShort = [] := hs.cutShort.trans h.cutShort
  have hnumbered : ∀ d : SendData, d.id = c.accepted.length → c'.accepted = c.accepted ++ [d] →
      c'.Numbered := by
    intro d hid haccepted
    rw [Numbered, haccepted, List.map_append, List.length_append, List.length_singleton,
      List.range_succ, h.numbered, List.map_singleton, hid]
  cases hc with
  | nothing haccepted hbuffered hready =>
      refine ⟨?_, fun d => ?_, hagain, hcut⟩
      · rw [Numbered, haccepted]
        exact h.numbered
      · rw [hplaces, haccepted, hbuffered, hready, hcount]
        rfl
  | buffer x hid haccepted hbuffered hready =>
      refine ⟨hnumbered x hid haccepted, fun d => ?_, hagain, hcut⟩
      rw [hplaces, haccepted, hbuffered, hready, List.count_append, List.count_append, hcount,
        List.count_nil]
      omega
  | multicast x hid haccepted hbuffered hready =>
      refine ⟨hnumbered x hid haccepted, fun d => ?_, hagain, hcut⟩
      rw [hplaces, haccepted, hbuffered, hready, List.count_append, List.count_append, hcount,
        List.count_nil]
      omega

/-- The window moves to those that RIO has. -/
theorem handWindow (h : c.Accounted []) : c.handWindow.Accounted [] := by
  refine ⟨h.numbered, fun d => ?_, fun d hd => h.again d ?_, h.cutShort⟩
  · have hcount := h.count d
    show c.accepted.count d = _
    rw [hcount]
    simp only [places, ConnectionIo.handWindow, List.flatMap_append, List.flatMap_cons,
      List.flatMap_nil, RioSend.data, List.append_nil, List.count_append, List.count_nil]
    omega
  · exact List.perm_append_comm.mem_iff.mp (hd : d ∈ [] ++ (c.handedAgain ++ c.returned))

/-- A ready event that RIO takes. -/
theorem postMulticast (limit : Nat) {m : SendData} (h : c.Accounted (m :: rest)) {ok : Bool}
    (hbytes : m.bytes ≠ []) (hrio : c.rioAccepts limit ok = true) :
    (c.postMulticast limit m ok).Accounted rest := by
  have hposted : c.postMulticast limit m ok =
      { c with outstanding := c.outstanding ++ [.multicast m], handed := c.handed ++ [m] } := by
    have hlength : (m.bytes.length == 0) = false := by simpa using hbytes
    rw [ConnectionIo.postMulticast, hlength, hrio]
    rfl
  rw [hposted]
  refine ⟨h.numbered, fun d => ?_, h.again, h.cutShort⟩
  have hcount := h.count d
  show c.accepted.count d = _
  rw [hcount]
  simp only [places, List.flatMap_append, List.flatMap_cons, List.flatMap_nil, RioSend.data,
    List.append_nil, List.count_append, List.count_cons, List.count_nil]
  omega

/-- Each multicast that is posted moves to those that RIO has. -/
theorem postMulticasts (limit : Nat) (o : Nat → Bool) (h : c.Accounted rest)
    (hready : ∀ m ∈ rest.zipIdx, m.1.bytes ≠ [] ∧ c.outstanding.length + m.2 < limit ∧ o m.2 = true) :
    (postMulticasts limit rest o c).Accounted [] := by
  induction rest generalizing c o with
  | nil => exact h
  | cons m ms ih =>
      obtain ⟨hbytes, hroom, hok⟩ := hready (m, 0) (List.mem_cons_self)
      have hrio : c.rioAccepts limit (o 0) = true := by
        rw [rioAccepts, hok, Bool.true_and]
        exact decide_eq_true hroom
      have houtstanding : (c.postMulticast limit m (o 0)).outstanding.length =
          c.outstanding.length + 1 := by
        have hlength : (m.bytes.length == 0) = false := by simpa using hbytes
        rw [ConnectionIo.postMulticast, hlength, hrio]
        exact List.length_append
      refine ih (fun k => o (k + 1)) (h.postMulticast limit hbytes hrio) fun x hx => ?_
      -- the events after it come one place later
      obtain ⟨hx, hxroom, hxok⟩ := hready (x.1, x.2 + 1) (by
        rw [List.mem_zipIdx_iff_getElem?] at hx ⊢
        exact hx)
      exact ⟨hx, by rw [houtstanding]; omega, hxok⟩

/-- A completion that leaves no multicast behind. -/
theorem complete (h : c.Accounted []) {k : Nat} {send : RioSend} {result : SendResult}
    (hk : c.outstanding[k]? = some send)
    (hleft : ∀ d ∈ c.leftBy send result, send.isSendEvent = true ∧ d.isMulticast = false) :
    ((c.takeOutstanding k send result).onEventComplete send result).Accounted [] := by
  have htaken : (c.takeOutstanding k send result).Accounted [] := by
    have hcount : ∀ d, c.accepted.count d = (c.takeOutstanding k send result).places.count d +
        if send.isSendEvent then 0 else (c.leftBy send result).count d := by
      intro d
      rw [h.count d, count_places_takeOutstanding hk result d, List.count_nil, Nat.add_zero]
    cases send with
    | sendEvent ds =>
        refine ⟨h.numbered, hcount, fun d hd => ?_, h.cutShort⟩
        have hd : d ∈ c.leftBy (.sendEvent ds) result ++ c.returned ++ c.handedAgain := hd
        rw [List.append_assoc] at hd
        rcases List.mem_append.mp hd with hd | hd
        · exact (hleft d hd).2
        · exact h.again d hd
    | multicast m =>
        have hnone : c.leftBy (.multicast m) result = [] :=
          List.eq_nil_iff_forall_not_mem.mpr fun d hd => Bool.false_ne_true (hleft d hd).1
        refine ⟨h.numbered, fun d => ?_, h.again, ?_⟩
        · have hd := hcount d
          rwa [hnone, List.count_nil, ite_self] at hd
        · show c.cutShort ++ c.leftBy (.multicast m) result = []
          rw [hnone, h.cutShort]
          rfl
  exact htaken.accepts (onEventComplete_accepts _ send result).1 (onEventComplete_accepts _ send result).2

/-- Every event moves data, and loses none where a flush finds room. -/
theorem step {limit : Nat} (h : c.Accounted []) {e : Event} (hhands : c.HandsOverReady limit e)
    (hstep : c.step limit e = some c') : c'.Accounted [] := by
  cases e with
  | sendRawData bytes =>
      obtain rfl := Option.some.inj hstep
      exact h.accepts (push_accepts c false bytes.1).1 (push_accepts c false bytes.1).2
  | postMulticastEvent bytes =>
      obtain rfl := Option.some.inj hstep
      exact h.accepts (postMulticastEvent_accepts c bytes).1 (postMulticastEvent_accepts c bytes).2
  | postSendEvent ok =>
      obtain rfl := Option.some.inj hstep
      show Accounted [] (if _ then _ else _)
      split_ifs with hbusy
      · exact h
      · rcases c.postSendEvent_cases limit ok (Bool.eq_false_iff.mpr hbusy) with heq | ⟨-, -, heq⟩
        · rw [heq]
          exact h
        · rw [heq]
          exact h.handWindow
  | flushMulticastSend o =>
      obtain rfl := Option.some.inj hstep
      -- the ready events are taken from the connection, and are the rest
      have htaken : Accounted c.readyMulticastEvents { c with readyMulticastEvents := [] } := by
        refine ⟨h.numbered, fun d => ?_, h.again, h.cutShort⟩
        have hcount := h.count d
        show c.accepted.count d = _
        rw [hcount]
        simp only [places, List.count_append, List.count_nil]
        omega
      exact htaken.postMulticasts limit o hhands
  | complete k result =>
      obtain ⟨send, hk, -, rfl⟩ := complete_eq_some hstep
      exact h.complete hk (hhands send hk)

/-- Whatever was accepted is somewhere. -/
theorem multicastsKept (h : c.Accounted []) (hs : c.SendsOk) : c.MulticastsKept := by
  have hnodup : c.accepted.Nodup := by
    apply List.Nodup.of_map SendData.id
    rw [h.numbered]
    exact List.nodup_range
  have hone : ∀ d ∈ c.accepted, c.places.count d = 1 := by
    intro d hd
    have hcount := h.count d
    rw [List.count_eq_one_of_mem hnodup hd, List.count_nil] at hcount
    exact hcount.symm
  refine ⟨fun d hd _ => hone d hd, fun d hd hmulticast => ?_, hs.window⟩
  have hcount := hone d hd
  have hagain : c.handedAgain.count d = 0 := by
    refine List.count_eq_zero.mpr fun hmem => ?_
    have hplain := h.again d (List.mem_append_right _ hmem)
    rw [hmulticast] at hplain
    cases hplain
  have hcut : c.cutShort.count d = 0 := by
    rw [h.cutShort]
    rfl
  rw [List.count_append, hs.handed, hagain, hcut]
  simp only [places, List.count_append] at hcount
  omega

end Accounted

/-- **Accepted multicasts are not lost** in any state reached by a run in which every flush can hand over
the ready events, and RIO transfers the multicasts that it was handed to their end. The limit of outstanding
sends is a parameter: with one, a flush that finds data in the send buffer has no room for a multicast any
more. -/
theorem multicastsKept_of_run {buf : List UInt8} (hbuf : buf.length < 2 ^ 31) {es : List Event}
    {c : ConnectionIo} (hrun : run (step maxOutstandingSend) (init buf) es = some c)
    (hhands : Along (step maxOutstandingSend) (HandsOverReady maxOutstandingSend) (init buf) es) :
    c.MulticastsKept := by
  have h := run_invariant_along (P := fun c => SendsOk c ∧ Accounted [] c)
    (fun _ _ _ hs hG hstep => ⟨hs.1.step hstep, hs.2.step hG hstep⟩)
    ⟨SendsOk.init hbuf, rfl, fun _ => rfl, fun _ hd => absurd hd List.not_mem_nil, rfl⟩ hhands hrun
  exact h.2.multicastsKept h.1

/-- Two multicasts on a send buffer of eight bytes: the large one gets an event of its own, and is flushed
while no send is outstanding.  The small one goes through the buffer behind a datum whose first send failed
and whose second was cut short; it waits while the datum is sent again. -/
theorem multicastsKept_of_run_twoPaths :
    ∃ es, (run (step maxOutstandingSend) (init (List.replicate 8 0)) es).isSome = true ∧
      ∀ c, run (step maxOutstandingSend) (init (List.replicate 8 0)) es = some c →
        c.MulticastsKept :=
  ⟨[.postMulticastEvent [1, 2, 3, 4, 5, 6]] ++ flushSend true (fun _ => true) ++
      [.complete 0 (.transferred 6), .sendRawData ⟨[7, 8], of_decide_eq_true rfl⟩] ++
      flushSend true (fun _ => true) ++ [.complete 0 .eventFailed] ++ flushSend true (fun _ => true) ++
      [.complete 0 (.transferred 1), .postMulticastEvent [9]] ++ flushSend true (fun _ => true) ++
      [.complete 0 (.transferred 2)],
    by decide, fun _ hrun => multicastsKept_of_run (by decide) hrun (by decide)⟩

/-- With the send buffer of the server: the datum in the buffer takes the only place of the request
queue, and the same flush frees the multicast, whose acceptance was reported. -/
theorem not_multicastsKept_sharedQueue :
    ∃ c, run (step maxOutstandingSend) (init (List.replicate tcpSendBufferSize 0))
      ([.postMulticastEvent (List.replicate 5000 1), .sendRawData ⟨[2], by decide⟩] ++
        flushSend true (fun _ => true)) = some c ∧ ¬ c.MulticastsKept := by
  set_option maxRecDepth 100000 in
  have hlost : ∃ c, run (step maxOutstandingSend) (init (List.replicate tcpSendBufferSize 0))
      ([.postMulticastEvent (List.replicate 5000 1), .sendRawData ⟨[2], by decide⟩] ++
        flushSend true (fun _ => true)) = some c ∧
      c.accepted.any (fun d => d.isMulticast && c.places.count d == 0) = true := by
    exact ⟨_, rfl, by decide +kernel⟩
  obtain ⟨c, hrun, hlost⟩ := hlost
  obtain ⟨d, hd, hlost⟩ := List.any_eq_true.mp hlost
  obtain ⟨hmulticast, hcount⟩ := Bool.and_eq_true_iff.mp hlost
  refine ⟨c, hrun, fun hkept => ?_⟩
  have hone := hkept.inOnePlace d hd hmulticast
  rw [beq_iff_eq.mp hcount] at hone
  exact absurd hone (by decide)

/-! ## Data are handed over in the order of acceptance

Behind the data that were handed over come those of the window or those that are ready, in one list whose
numbers grow. Which of the two comes first is decided by the condition at each flush.
-/

/-- The data are in the order in which they were accepted. -/
def InOrder (ds : List SendData) : Prop := ds.Pairwise fun a b => a.id < b.id

/-- The data that RIO completed, those that it has, and those that came back to the send buffer. -/
def passed (c : ConnectionIo) : List SendData :=
  c.completed ++ c.outstanding.flatMap RioSend.data ++ c.returned

/-- **The sending order.** RIO was handed the accepted data in order.  Where one send is outstanding at most,
what is handed over again does not break the order: RIO completes the data in order, those that it has come
after them, and what is in the send buffer comes last.  From the send buffer RIO is handed exactly the bytes
of the data. -/
structure HandedInOrder (limit : Nat) (c : ConnectionIo) : Prop where
  handed : InOrder c.handed
  passed : limit ≤ maxOutstandingSend → InOrder (c.passed ++ c.buffered)
  window : c.ioSendEvent.eventData.contents =
    (bytesOf (c.sending ++ c.returned)).drop c.partlySent ++ bytesOf c.buffered

/-- What a flush takes first was accepted first: all the data in the send buffer when the window is
handed over, all the ready multicasts when these are. -/
def TakesInOrder (c : ConnectionIo) : Event → Prop
  | .postSendEvent _ => c.ioSendEvent.isProcessing = false → c.ioSendEvent.eventData.size ≠ 0 →
      ∀ a ∈ c.returned ++ c.buffered, ∀ m ∈ c.readyMulticastEvents, a.id < m.id
  | .flushMulticastSend _ => ∀ m ∈ c.readyMulticastEvents, ∀ a ∈ c.returned ++ c.buffered, m.id < a.id
  | _ => True

instance (c : ConnectionIo) (e : Event) : Decidable (c.TakesInOrder e) := by
  unfold TakesInOrder
  split <;> infer_instance

/-- What waits on either path is in order and comes after `front`; `ready` are the multicasts that a flush
has not reached yet. -/
structure Ordered (front ready : List SendData) (c : ConnectionIo) : Prop where
  throughBuffer : InOrder (front ++ c.buffered)
  throughReady : InOrder (front ++ ready)
  numbered : ∀ d ∈ front ++ c.buffered ++ ready, d.id < c.accepted.length

namespace Ordered

variable {c c' : ConnectionIo} {front rest : List SendData}

/-- A datum with the next number. -/
theorem inOrder_snoc {ds : List SendData} {d : SendData} (h : InOrder ds) (hd : ∀ a ∈ ds, a.id < d.id) :
    InOrder (ds ++ [d]) :=
  List.pairwise_append.mpr ⟨h, List.pairwise_singleton _ d, fun a ha b hb => by
    rw [List.mem_singleton.mp hb]
    exact hd a ha⟩

/-- What comes after a list comes after a part of it. -/
theorem of_sublist {front' : List SendData} (h : c.Ordered front rest) (hfront : front'.Sublist front) :
    c.Ordered front' rest where
  throughBuffer := h.throughBuffer.sublist (hfront.append_right _)
  throughReady := h.throughReady.sublist (hfront.append_right _)
  numbered d hd := h.numbered d (((hfront.append_right _).append_right _).subset hd)

/-- What is accepted now has the highest number. -/
theorem accepts (h : c.Ordered front c.readyMulticastEvents) (hc : Accepts c c') :
    c'.Ordered front c'.readyMulticastEvents := by
  have hlt := h.numbered
  cases hc with
  | nothing haccepted hbuffered hready =>
      refine ⟨?_, ?_, ?_⟩
      · rw [hbuffered]
        exact h.throughBuffer
      · rw [hready]
        exact h.throughReady
      · rw [hbuffered, hready, haccepted]
        exact hlt
  | buffer x hid haccepted hbuffered hready =>
      refine ⟨?_, ?_, fun d hd => ?_⟩
      · rw [hbuffered, ← List.append_assoc]
        exact inOrder_snoc h.throughBuffer fun a ha => hid ▸ hlt a (List.mem_append_left _ ha)
      · rw [hready]
        exact h.throughReady
      · rw [hbuffered, hready] at hd
        rw [haccepted, List.length_append, List.length_singleton]
        simp only [List.mem_append, List.mem_singleton] at hd hlt
        grind
  | multicast x hid haccepted hbuffered hready =>
      refine ⟨?_, ?_, fun d hd => ?_⟩
      · rw [hbuffered]
        exact h.throughBuffer
      · rw [hready, ← List.append_assoc]
        refine inOrder_snoc h.throughReady fun a ha => hid ▸ hlt a ?_
        simp only [List.mem_append] at ha ⊢
        tauto
      · rw [hbuffered, hready] at hd
        rw [haccepted, List.length_append, List.length_singleton]
        simp only [List.mem_append, List.mem_singleton] at hd hlt
        grind

/-- The window goes out before the multicasts that are ready. -/
theorem handWindow (h : c.Ordered front rest) (hfirst : ∀ a ∈ c.buffered, ∀ m ∈ rest, a.id < m.id) :
    c.handWindow.Ordered (front ++ c.buffered) rest := by
  obtain ⟨-, hready, hcross⟩ := List.pairwise_append.mp h.throughReady
  refine ⟨?_, ?_, ?_⟩
  · show InOrder (front ++ c.buffered ++ [])
    rw [List.append_nil]
    exact h.throughBuffer
  · refine List.pairwise_append.mpr ⟨h.throughBuffer, hready, fun a ha m hm => ?_⟩
    rcases List.mem_append.mp ha with ha | ha
    · exact hcross a ha m hm
    · exact hfirst a ha m hm
  · show ∀ d ∈ front ++ c.buffered ++ [] ++ rest, _
    rw [List.append_nil]
    exact h.numbered

/-- A ready event that is freed. -/
theorem freeMulticastEvent {m : SendData} (h : c.Ordered front (m :: rest)) :
    c.freeMulticastEvent.Ordered front rest where
  throughBuffer := h.throughBuffer
  throughReady := h.throughReady.sublist ((List.sublist_cons_self m rest).append_left front)
  numbered d hd := h.numbered d (((List.sublist_cons_self m rest).append_left _).subset hd)

/-- One round of the flush, on a multicast accepted before everything that waits in the buffer. -/
theorem postMulticast (limit : Nat) (ok : Bool) {m : SendData} (h : c.Ordered front (m :: rest))
    (hfirst : ∀ a ∈ c.buffered, m.id < a.id) : ∃ new,
    (c.postMulticast limit m ok).handed = c.handed ++ new ∧
    (c.postMulticast limit m ok).outstanding.flatMap RioSend.data = c.outstanding.flatMap RioSend.data ++ new ∧
    (c.postMulticast limit m ok).Ordered (front ++ new) rest := by
  have hfreed : ∃ new, c.freeMulticastEvent.handed = c.handed ++ new ∧
      c.freeMulticastEvent.outstanding.flatMap RioSend.data = c.outstanding.flatMap RioSend.data ++ new ∧
      c.freeMulticastEvent.Ordered (front ++ new) rest := by
    refine ⟨[], (List.append_nil _).symm, (List.append_nil _).symm, ?_⟩
    rw [List.append_nil]
    exact h.freeMulticastEvent
  unfold ConnectionIo.postMulticast
  split_ifs
  · exact hfreed
  · have happend : front ++ [m] ++ rest = front ++ m :: rest := by simp
    obtain ⟨hhanded, hbuffered, hcross⟩ := List.pairwise_append.mp h.throughBuffer
    refine ⟨[m], rfl, List.flatMap_append, ?_, ?_, fun d hd => ?_⟩
    · refine List.pairwise_append.mpr ⟨?_, hbuffered, fun a ha b hb => ?_⟩
      · exact (List.pairwise_append.mp (happend ▸ h.throughReady)).1
      · rcases List.mem_append.mp ha with ha | ha
        · exact hcross a ha b hb
        · rw [List.mem_singleton.mp ha]
          exact hfirst b hb
    · rw [happend]
      exact h.throughReady
    · apply h.numbered d
      simp only [List.mem_append, List.mem_cons, List.not_mem_nil, or_false] at hd ⊢
      tauto
  · exact hfreed

/-- Multicasts go out while nothing older is in the send buffer. -/
theorem postMulticasts (limit : Nat) (o : Nat → Bool) (h : c.Ordered front rest)
    (hfirst : ∀ m ∈ rest, ∀ a ∈ c.buffered, m.id < a.id) : ∃ new,
    (postMulticasts limit rest o c).handed = c.handed ++ new ∧
    (ConnectionIo.postMulticasts limit rest o c).outstanding.flatMap RioSend.data =
      c.outstanding.flatMap RioSend.data ++ new ∧
    (ConnectionIo.postMulticasts limit rest o c).Ordered (front ++ new) [] := by
  induction rest generalizing c o front with
  | nil =>
      refine ⟨[], (List.append_nil _).symm, (List.append_nil _).symm, ?_⟩
      rw [List.append_nil]
      exact h
  | cons m ms ih =>
      have hsame : (c.postMulticast limit m (o 0)).buffered = c.buffered := by
        unfold ConnectionIo.postMulticast
        split_ifs <;> rfl
      obtain ⟨new, hhanded, houtstanding, hordered⟩ :=
        h.postMulticast limit (o 0) (hfirst m List.mem_cons_self)
      obtain ⟨later, hhanded', houtstanding', hordered'⟩ := ih (fun k => o (k + 1)) hordered
        (fun x hx => hsame ▸ hfirst x (List.mem_cons_of_mem m hx))
      refine ⟨new ++ later, ?_, ?_, ?_⟩
      · rw [ConnectionIo.postMulticasts, hhanded', hhanded, List.append_assoc]
      · rw [ConnectionIo.postMulticasts, houtstanding', houtstanding, List.append_assoc]
      · rw [← List.append_assoc]
        exact hordered'

theorem complete (h : c.Ordered front c.readyMulticastEvents) (k : Nat) (send : RioSend) (result : SendResult) :
    ((c.takeOutstanding k send result).onEventComplete send result).Ordered front
      ((c.takeOutstanding k send result).onEventComplete send result).readyMulticastEvents := by
  refine accepts ?_ (onEventComplete_accepts _ send result).1
  cases send <;> exact ⟨h.throughBuffer, h.throughReady, h.numbered⟩

end Ordered

/-- What the rounds of a flush leave besides the request queue. -/
theorem postMulticasts_same (limit : Nat) (ds : List SendData) (o : Nat → Bool) (c : ConnectionIo) :
    (postMulticasts limit ds o c).readyMulticastEvents = c.readyMulticastEvents ∧
    (postMulticasts limit ds o c).completed = c.completed ∧
    (postMulticasts limit ds o c).returned = c.returned := by
  induction ds generalizing o c with
  | nil => exact ⟨rfl, rfl, rfl⟩
  | cons m ms ih =>
      obtain ⟨hready, hcompleted, hreturned⟩ := ih (fun k => o (k + 1)) (c.postMulticast limit m (o 0))
      have hsame : (c.postMulticast limit m (o 0)).readyMulticastEvents = c.readyMulticastEvents ∧
          (c.postMulticast limit m (o 0)).completed = c.completed ∧
          (c.postMulticast limit m (o 0)).returned = c.returned := by
        unfold postMulticast
        split_ifs <;> exact ⟨rfl, rfl, rfl⟩
      exact ⟨hready.trans hsame.1, hcompleted.trans hsame.2.1, hreturned.trans hsame.2.2⟩

/-- What a completion leaves of the data that RIO has or had, if the send is the only one. -/
theorem passed_complete {c : ConnectionIo} {k : Nat} {send : RioSend} (hk : c.outstanding[k]? = some send)
    (hone : c.outstanding.length ≤ 1) (result : SendResult) :
    ((c.takeOutstanding k send result).onEventComplete send result).passed.Sublist c.passed := by
  obtain ⟨rfl, houtstanding⟩ : k = 0 ∧ c.outstanding = [send] := by
    have hlt : k < c.outstanding.length := (List.getElem?_eq_some_iff.mp hk).1
    obtain rfl : k = 0 := by omega
    obtain ⟨x, hx⟩ : ∃ x, c.outstanding = [x] := List.length_eq_one_iff.mp (by omega)
    rw [hx] at hk ⊢
    rw [Option.some.inj hk]
    exact ⟨rfl, rfl⟩
  have hsame := (onEventComplete_accepts (c.takeOutstanding 0 send result) send result).2
  have hdata := c.finishedBy_append_leftBy send result
  rw [passed, passed, hsame.completed, hsame.outstanding, hsame.returned, houtstanding, List.flatMap_singleton]
  cases send with
  | sendEvent ds =>
      show (c.completed ++ c.finishedBy (.sendEvent ds) result ++
          (c.outstanding.eraseIdx 0).flatMap RioSend.data ++
          (c.leftBy (.sendEvent ds) result ++ c.returned)).Sublist _
      rw [houtstanding, ← hdata]
      simp
  | multicast m =>
      show (c.completed ++ c.finishedBy (.multicast m) result ++
          (c.outstanding.eraseIdx 0).flatMap RioSend.data ++ c.returned).Sublist _
      rw [houtstanding, ← hdata]
      simp

/-- One step hands over some data, which come after all that was handed over; and where one send is
outstanding at most, after all that RIO has or had. -/
theorem Ordered.step {limit : Nat} {c c' : ConnectionIo} {e : Event}
    (h : c.Ordered c.handed c.readyMulticastEvents)
    (hpassed : limit ≤ maxOutstandingSend →
      c.outstanding.length ≤ limit ∧ c.Ordered c.passed c.readyMulticastEvents)
    (htakes : c.TakesInOrder e) (hstep : c.step limit e = some c') :
    c'.Ordered c'.handed c'.readyMulticastEvents ∧
    (limit ≤ maxOutstandingSend → c'.Ordered c'.passed c'.readyMulticastEvents) := by
  -- an event that hands over nothing
  have haccepts : Accepts c c' → SameSends c c' → c'.Ordered c'.handed c'.readyMulticastEvents ∧
      (limit ≤ maxOutstandingSend → c'.Ordered c'.passed c'.readyMulticastEvents) := by
    intro hc hs
    rw [hs.handed]
    refine ⟨h.accepts hc, fun hlimit => ?_⟩
    rw [passed, hs.completed, hs.outstanding, hs.returned]
    exact (hpassed hlimit).2.accepts hc
  cases e with
  | sendRawData bytes =>
      obtain rfl := Option.some.inj hstep
      exact haccepts (push_accepts c false bytes.1).1 (push_accepts c false bytes.1).2
  | postMulticastEvent bytes =>
      obtain rfl := Option.some.inj hstep
      exact haccepts (postMulticastEvent_accepts c bytes).1 (postMulticastEvent_accepts c bytes).2
  | postSendEvent ok =>
      obtain rfl := Option.some.inj hstep
      show Ordered (handed (if _ then _ else _)) (readyMulticastEvents (if _ then _ else _)) (if _ then _ else _) ∧
        (_ → Ordered (passed (if _ then _ else _)) (readyMulticastEvents (if _ then _ else _)) (if _ then _ else _))
      split_ifs with hbusy
      · exact ⟨h, fun hlimit => (hpassed hlimit).2⟩
      · have hidle : c.ioSendEvent.isProcessing = false := Bool.eq_false_iff.mpr hbusy
        rcases c.postSendEvent_cases limit ok hidle with heq | ⟨hsize, -, heq⟩
        · rw [heq]
          exact ⟨h, fun hlimit => (hpassed hlimit).2⟩
        · rw [heq]
          have hfirst : ∀ a ∈ c.buffered, ∀ m ∈ c.readyMulticastEvents, a.id < m.id :=
            fun a ha => htakes hidle hsize a (List.mem_append_right _ ha)
          refine ⟨h.handWindow hfirst, fun hlimit => ?_⟩
          have hwindow : c.handWindow.passed = c.passed ++ c.buffered := by
            simp only [passed, ConnectionIo.handWindow, List.flatMap_append, List.flatMap_singleton, RioSend.data,
              List.append_nil, List.append_assoc]
          rw [hwindow]
          exact (hpassed hlimit).2.handWindow hfirst
  | flushMulticastSend o =>
      obtain rfl := Option.some.inj hstep
      obtain ⟨hready, hcompleted, hreturned⟩ :=
        postMulticasts_same limit c.readyMulticastEvents o { c with readyMulticastEvents := [] }
      have hfirst : ∀ m ∈ c.readyMulticastEvents, ∀ a ∈ c.buffered, m.id < a.id :=
        fun m hm a ha => htakes m hm a (List.mem_append_right _ ha)
      have hswapped : ∀ {front}, c.Ordered front c.readyMulticastEvents →
          Ordered front c.readyMulticastEvents { c with readyMulticastEvents := [] } :=
        fun h => ⟨h.throughBuffer, h.throughReady, h.numbered⟩
      rw [flushMulticastSend, hready]
      refine ⟨?_, fun hlimit => ?_⟩
      · obtain ⟨new, hhanded, -, hordered⟩ := (hswapped h).postMulticasts limit o hfirst
        rw [hhanded]
        exact hordered
      · obtain ⟨new, -, houtstanding, hordered⟩ := (hswapped (hpassed hlimit).2).postMulticasts limit o hfirst
        rw [passed, hcompleted, hreturned, houtstanding]
        -- a ready multicast finds nothing that came back: it would come before it and after it
        rcases List.eq_nil_or_concat c.returned with hnone | ⟨before, a, hlast⟩
        · rw [show ({ c with readyMulticastEvents := [] } : ConnectionIo).returned = [] from hnone,
            List.append_nil, ← List.append_assoc]
          rwa [passed, hnone, List.append_nil] at hordered
        · have hback : a ∈ c.returned := by
            rw [hlast, List.concat_eq_append]
            exact List.mem_concat_self
          have hempty : c.readyMulticastEvents = [] := by
            refine List.eq_nil_iff_forall_not_mem.mpr fun m hm => ?_
            have hbefore := htakes m hm a (List.mem_append_left _ hback)
            have hafter := (List.pairwise_append.mp (hpassed hlimit).2.throughReady).2.2 a
              (List.mem_append_right _ hback) m hm
            omega
          rw [hempty] at houtstanding hordered ⊢
          obtain rfl : new = [] := List.append_right_eq_self.mp houtstanding.symm
          rwa [List.append_nil] at hordered ⊢
  | complete k result =>
      obtain ⟨send, hk, -, rfl⟩ := complete_eq_some hstep
      have hhanded : ((c.takeOutstanding k send result).onEventComplete send result).handed = c.handed := by
        rw [(onEventComplete_accepts _ send result).2.handed]
        cases send <;> rfl
      refine ⟨?_, fun hlimit => ?_⟩
      · rw [hhanded]
        exact h.complete k send result
      · obtain ⟨hlength, hordered⟩ := hpassed hlimit
        exact (hordered.complete k send result).of_sublist (passed_complete hk (hlength.trans hlimit) result)

/-- **Accepted data are handed to RIO in order** in every run in which each flush takes first what was
accepted first, for every request queue, whichever sends RIO refuses and whatever it transfers of the
others. The order is that in which sends were accepted, on whichever path; a datum that comes back after a
failure keeps its place. -/
theorem handedInOrder_of_run {limit : Nat} {buf : List UInt8} (hbuf : buf.length < 2 ^ 31)
    {es : List Event} {c : ConnectionIo} (hrun : run (step limit) (init buf) es = some c)
    (htakes : Along (step limit) TakesInOrder (init buf) es) : c.HandedInOrder limit := by
  have h := run_invariant_along
    (P := fun c => (SendsOk c ∧ c.outstanding.length ≤ limit) ∧ Ordered c.handed c.readyMulticastEvents c ∧
      (limit ≤ maxOutstandingSend → Ordered c.passed c.readyMulticastEvents c))
    (fun c _ _ hs hG hstep => ⟨⟨hs.1.1.step hstep, outstanding_le_step hs.1.2 hstep⟩,
      hs.2.1.step (fun hlimit => ⟨hs.1.2, hs.2.2 hlimit⟩) hG hstep⟩)
    ⟨⟨SendsOk.init hbuf, Nat.zero_le limit⟩, ⟨List.Pairwise.nil, List.Pairwise.nil, fun _ hd => nomatch hd⟩,
      fun _ => ⟨List.Pairwise.nil, List.Pairwise.nil, fun _ hd => nomatch hd⟩⟩ htakes hrun
  exact ⟨(List.pairwise_append.mp h.2.1.throughBuffer).1, fun hlimit => (h.2.2 hlimit).throughBuffer,
    h.1.1.window⟩

/-- Data on both paths, each flushed before the other path accepts more; RIO cuts the first send short, and
the rest of it goes first. -/
theorem handedInOrder_of_run_alternating :
    ∃ es, (run (step maxOutstandingSend) (init (List.replicate 8 0)) es).isSome = true ∧
      ∀ c, run (step maxOutstandingSend) (init (List.replicate 8 0)) es = some c →
        c.HandedInOrder maxOutstandingSend :=
  ⟨[.sendRawData ⟨[1, 2], of_decide_eq_true rfl⟩] ++ flushSend true (fun _ => true) ++
      [.complete 0 (.transferred 1)] ++ flushSend true (fun _ => true) ++
      [.complete 0 (.transferred 1), .postMulticastEvent [2, 3, 4, 5, 6]] ++ flushSend true (fun _ => true),
    by decide, fun _ hrun => handedInOrder_of_run (by decide) hrun (by decide)⟩

/-- `RIOSend` takes whatever the event hands over. -/
def RioSendsSucceed (limit : Nat) (c : ConnectionIo) : Event → Prop
  | .postSendEvent ok => c.ioSendEvent.isProcessing = false → c.ioSendEvent.eventData.size ≠ 0 →
      c.rioAccepts limit ok = true
  | .flushMulticastSend o => ∀ m ∈ c.readyMulticastEvents.zipIdx,
      m.1.bytes ≠ [] → c.outstanding.length + m.2 < limit ∧ o m.2 = true
  | _ => True

instance (limit : Nat) (c : ConnectionIo) (e : Event) : Decidable (c.RioSendsSucceed limit e) := by
  unfold RioSendsSucceed
  split <;> infer_instance

/-- With the send buffer of the server: a block update of 5000 bytes gets an event of its own, a later
one of 4 bytes goes through the send buffer, and is handed over first. -/
theorem not_handedInOrder_overtaken :
    ∃ es c, run (step maxOutstandingSend) (init (List.replicate tcpSendBufferSize 0)) es = some c ∧
      Along (step maxOutstandingSend) (RioSendsSucceed maxOutstandingSend)
        (init (List.replicate tcpSendBufferSize 0)) es ∧ ¬ c.HandedInOrder maxOutstandingSend := by
  set_option maxRecDepth 100000 in
  have hovertaken : ∃ es c,
      run (step maxOutstandingSend) (init (List.replicate tcpSendBufferSize 0)) es = some c ∧
      Along (step maxOutstandingSend) (RioSendsSucceed maxOutstandingSend)
        (init (List.replicate tcpSendBufferSize 0)) es ∧ c.handed.map SendData.id = [1, 0] := by
    exact ⟨[.postMulticastEvent (List.replicate 5000 1), .postMulticastEvent (List.replicate 4 2),
      .postSendEvent true, .complete 0 (.transferred 4), .flushMulticastSend fun _ => true], _, rfl,
      by decide +kernel, by decide +kernel⟩
  obtain ⟨es, c, hrun, hsucceed, hids⟩ := hovertaken
  refine ⟨es, c, hrun, hsucceed, fun horder => ?_⟩
  have hpairwise := List.pairwise_map.mpr horder.handed
  rw [hids] at hpairwise
  exact absurd hpairwise (by decide)

end ConnectionIo

end Mmocraft.Net
