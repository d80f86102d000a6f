/-
# Mmocraft.Net.SentStream -- the packets that reach a client

Everything the server sends is accepted in one piece, goes to one of the two send paths, and may be freed
there unsent.  What RIO is given nevertheless is a sequence of whole outputs, none of them twice: the send
event always posts all the data that wait, and nothing overwrites them while it is outstanding.  What RIO does
not transfer of them is handed over again from there on.  So a client that goes by the sizes of packets finds
the packets of the server in whatever part of the stream has arrived, in every order of sends, multicasts,
flushes, failures and completions in which no multicast comes between the two parts of a packet.

That nothing is sent twice (`SentOnce`), that at most one send is outstanding and that the outstanding bytes
are untouched hold in every run. What RIO transferred is a beginning of the stream under `CutsNoDatum` only
(`TransferredInOrder`): the next flush hands the rest of a send that was cut short over again, but it posts
the send buffer before the ready multicasts only if nothing is outstanding, and a multicast in between lands
inside of a packet.
-/
import Mathlib.Data.Set.List
import Mmocraft.Lib.Framing
import Mmocraft.Net.SendPaths
import Mmocraft.Net.ServerStream

namespace Mmocraft.Net

open Mmocraft.Lib Mmocraft.Io

/-! ## The packets of an output as frames

The framing of the receive side (`Lib.Framing`) is used for the stream in the other direction, with the
sizes that the client knows.
-/

/-- The size of the packets that start with an id; 0 where the server writes none. -/
def serverFrameSize (packetId : UInt8) : Nat := (serverPacketSize packetId).getD 0

/-- A packet of the server begins with the id that its size goes by. -/
theorem Sized.isFrame {p : List UInt8} (h : Sized p) : IsFrame serverFrameSize p := by
  obtain ⟨packetId, t, rfl, hsize⟩ := h
  show (serverPacketSize packetId).getD 0 = (packetId :: t).length
  rw [hsize, Option.getD_some]

/-- The bytes of several outputs are the bytes of their packets. -/
theorem flatten_flatMap_packets (outputs : List ServerOutput) :
    (outputs.flatMap ServerOutput.packets).flatten = outputs.flatMap ServerOutput.bytes := by
  induction outputs with
  | nil => rfl
  | cons o outputs ih =>
      rw [List.flatMap_cons, List.flatMap_cons, List.flatten_append, o.flatten_packets, ih]

/-- The packets of outputs are frames. -/
theorem isFrame_of_mem_packets {outputs : List ServerOutput} :
    ∀ p ∈ outputs.flatMap ServerOutput.packets, IsFrame serverFrameSize p := by
  intro p hp
  obtain ⟨o, -, hp⟩ := List.mem_flatMap.mp hp
  exact (o.sized_packets p hp).isFrame

namespace ConnectionIo

/-! ## Nothing is sent twice

Each datum has a number and is completed at most once. A part of it that comes back keeps its number, and is
what is still to be transferred of it.
-/

/-- No datum is in more places than it was accepted; `rest` are the events a flush has not reached yet. -/
structure SentOnce (rest : List SendData) (c : ConnectionIo) : Prop where
  numbered : c.Numbered
  count : ∀ d, c.places.count d + rest.count d ≤ c.accepted.count d

namespace SentOnce

variable {c c' : ConnectionIo} {rest : List SendData}

theorem init (buf : List UInt8) : SentOnce [] (init buf) := ⟨rfl, fun _ => Nat.le_refl 0⟩

/-- What stays accepted, with places that are not more. -/
theorem of_places_le {rest' : List SendData} (h : c.SentOnce rest) (haccepted : c'.accepted = c.accepted)
    (hplaces : ∀ d, c'.places.count d + rest'.count d ≤ c.places.count d + rest.count d) :
    c'.SentOnce rest' := by
  refine ⟨?_, fun d => ?_⟩
  · rw [Numbered, haccepted]
    exact h.numbered
  · rw [haccepted]
    exact (hplaces d).trans (h.count d)

/-- A new datum in one new place. -/
theorem of_accepted (h : c.SentOnce []) {x : SendData} (hid : x.id = c.accepted.length)
    (haccepted : c'.accepted = c.accepted ++ [x])
    (hplaces : ∀ d, c'.places.count d = c.places.count d + [x].count d) : c'.SentOnce [] := by
  refine ⟨?_, fun d => ?_⟩
  · rw [Numbered, haccepted, List.map_append, List.length_append, List.length_singleton, List.range_succ,
      h.numbered, List.map_singleton, hid]
  · have hcount := h.count d
    rw [haccepted, hplaces, List.count_append]
    omega

/-- A push and a multicast add one datum, to one place. -/
theorem accepts (h : c.SentOnce []) (hc : Accepts c c') (hs : SameSends c c') : c'.SentOnce [] := by
  cases hc with
  | nothing haccepted hbuffered hready =>
      apply h.of_places_le haccepted
      intro d
      rw [places, places, hbuffered, hready, hs.outstanding, hs.completed, hs.returned]
  | buffer x hid haccepted hbuffered hready =>
      apply h.of_accepted hid haccepted
      intro d
      rw [places, places, hbuffered, hready, hs.outstanding, hs.completed, hs.returned]
      simp only [List.count_append]
      omega
  | multicast x hid haccepted hbuffered hready =>
      apply h.of_accepted hid haccepted
      intro d
      rw [places, places, hbuffered, hready, hs.outstanding, hs.completed, hs.returned]
      simp only [List.count_append]
      omega

/-- The whole send buffer is handed over, what came back and what waits. -/
theorem handWindow (h : c.SentOnce []) : c.handWindow.SentOnce [] := by
  refine h.of_places_le ?_ fun d => ?_
  · rfl
  · simp only [places, ConnectionIo.handWindow, List.flatMap_append, List.flatMap_cons, List.flatMap_nil,
      RioSend.data, List.append_nil, List.count_append, List.count_nil]
    omega

/-- A ready event goes to RIO, or is freed. -/
theorem postMulticast (limit : Nat) {m : SendData} (h : c.SentOnce (m :: rest)) (ok : Bool) :
    (c.postMulticast limit m ok).SentOnce rest := by
  have hfreed : c.freeMulticastEvent.SentOnce rest := by
    refine h.of_places_le ?_ fun d => ?_
    · rfl
    · rw [List.count_cons]
      exact Nat.add_le_add_left (Nat.le_add_right _ _) _
  unfold ConnectionIo.postMulticast
  split_ifs
  · exact hfreed
  · refine h.of_places_le ?_ fun d => ?_
    · rfl
    · simp only [places, List.flatMap_append, List.flatMap_cons, List.flatMap_nil, RioSend.data,
        List.append_nil, List.count_append, List.count_cons, List.count_nil]
      omega
  · exact hfreed

theorem postMulticasts (limit : Nat) (o : Nat → Bool) (h : c.SentOnce rest) :
    (postMulticasts limit rest o c).SentOnce [] := by
  induction rest generalizing c o with
  | nil => exact h
  | cons m ms ih => exact ih (fun k => o (k + 1)) (h.postMulticast limit (o 0))

/-- A completion moves the data of its send on, or back. -/
theorem complete (h : c.SentOnce []) {k : Nat} {send : RioSend} (hk : c.outstanding[k]? = some send)
    (result : SendResult) : ((c.takeOutstanding k send result).onEventComplete send result).SentOnce [] := by
  have htaken : (c.takeOutstanding k send result).SentOnce [] := by
    refine h.of_places_le ?_ fun d => ?_
    · cases send <;> rfl
    · rw [count_places_takeOutstanding hk result d]
      exact Nat.add_le_add_right (Nat.le_add_right _ _) _
  exact htaken.accepts (onEventComplete_accepts _ send result).1 (onEventComplete_accepts _ send result).2

theorem step {limit : Nat} (h : c.SentOnce []) {e : Event} (hstep : c.step limit e = some c') :
    c'.SentOnce [] := by
  cases e with
  | sendRawData bytes =>
      obtain rfl := Option.some.inj hstep
      exact h.accepts (push_accepts c false bytes.1).1 (push_accepts c false bytes.1).2
  | postMulticastEvent bytes =>
      obtain rfl := Option.some.inj hstep
      exact h.accepts (postMulticastEvent_accepts c bytes).1 (postMulticastEvent_accepts c bytes).2
  | postSendEvent ok =>
      obtain rfl := Option.some.inj hstep
      show SentOnce [] (if _ then _ else _)
      split_ifs with hbusy
      · exact h
      · rcases c.postSendEvent_cases limit ok (Bool.eq_false_iff.mpr hbusy) with heq | ⟨-, -, heq⟩
        · rw [heq]
          exact h
        · rw [heq]
          exact h.handWindow
  | flushMulticastSend o =>
      obtain rfl := Option.some.inj hstep
      have htaken : SentOnce c.readyMulticastEvents { c with readyMulticastEvents := [] } := by
        refine h.of_places_le ?_ fun d => ?_
        · rfl
        · simp only [places, List.count_append, List.count_nil]
          omega
      exact htaken.postMulticasts limit o
  | complete k result =>
      obtain ⟨send, hk, -, rfl⟩ := complete_eq_some hstep
      exact h.complete hk result

/-- Each datum is in one place at most. -/
theorem nodup_places (h : c.SentOnce []) : c.places.Nodup := by
  have hnodup : c.accepted.Nodup := by
    apply List.Nodup.of_map SendData.id
    rw [h.numbered]
    exact List.nodup_range
  rw [List.nodup_iff_count_le_one]
  intro d
  exact (Nat.le_of_add_right_le (h.count d)).trans (List.nodup_iff_count_le_one.mp hnodup d)

theorem accepted_of_mem_places (h : c.SentOnce []) {d : SendData} (hd : d ∈ c.places) : d ∈ c.accepted := by
  rw [← List.count_pos_iff] at hd ⊢
  exact Nat.lt_of_lt_of_le hd (Nat.le_of_add_right_le (h.count d))

end SentOnce

/-! ## What RIO transferred

The transferred bytes are followed by the rest of what is first in the send buffer, as long as nothing else
is handed to RIO in between: that is `CutsNoDatum`, and only the statement about the bytes needs it.
-/

/-- No multicast goes between the parts of a datum that RIO cut short, and RIO transfers a multicast whole or
not at all. -/
def CutsNoDatum (c : ConnectionIo) : Event → Prop
  | .flushMulticastSend _ => c.outstanding = [] → c.readyMulticastEvents ≠ [] → c.partlySent = 0
  | .complete k result => ∀ send ∈ c.outstanding[k]?, send.isSendEvent = false →
      result = .eventFailed ∨ result = .transferred (c.postedLength send)
  | _ => True

instance (c : ConnectionIo) : (e : Event) → Decidable (c.CutsNoDatum e)
  | .flushMulticastSend _ =>
      inferInstanceAs (Decidable (c.outstanding = [] → c.readyMulticastEvents ≠ [] → c.partlySent = 0))
  | .complete k result => inferInstanceAs (Decidable (∀ send ∈ c.outstanding[k]?, send.isSendEvent = false →
      result = .eventFailed ∨ result = .transferred (c.postedLength send)))
  | .sendRawData _ | .postMulticastEvent _ | .postSendEvent _ => instDecidableTrue

/-- RIO transferred the completed data and the beginning of what is first in the send buffer; nothing of the
latter while a multicast is outstanding. -/
structure TransferredInOrder (c : ConnectionIo) : Prop where
  stream : c.transferred = bytesOf c.completed ++ (bytesOf (c.sending ++ c.returned)).take c.partlySent
  multicast : c.outstanding ≠ [] → c.outstanding.countP RioSend.isSendEvent = 0 → c.partlySent = 0

namespace TransferredInOrder

variable {c c' : ConnectionIo}

theorem init (buf : List UInt8) : (init buf).TransferredInOrder := ⟨rfl, fun _ _ => rfl⟩

/-- What only accepts transfers nothing. -/
theorem of_sameSends (h : c.TransferredInOrder) (hs : SameSends c c') : c'.TransferredInOrder := by
  constructor
  · rw [hs.transferred, hs.completed, sending, hs.outstanding, hs.returned, hs.partlySent]
    exact h.stream
  · rw [hs.outstanding, hs.partlySent]
    exact h.multicast

/-- The rest of what was cut short stays first. -/
theorem handWindow (h : c.TransferredInOrder) (hsends : c.SendsOk)
    (hidle : c.ioSendEvent.isProcessing = false) : c.handWindow.TransferredInOrder := by
  have hnone : c.outstanding.countP RioSend.isSendEvent = 0 := by
    rw [hsends.processing, hidle]
    rfl
  have hstream := h.stream
  have hpartly := hsends.partlySent_le
  rw [show c.sending = [] from sending_of_countP hnone, List.nil_append] at hstream hpartly
  refine ⟨?_, fun _ hcount => ?_⟩
  · have hsending : c.handWindow.sending ++ c.handWindow.returned = c.returned ++ c.buffered := by
      show (c.outstanding ++ [RioSend.sendEvent (c.returned ++ c.buffered)]).flatMap RioSend.buffered ++ [] = _
      rw [List.flatMap_append, sending_of_countP hnone]
      simp [RioSend.buffered]
    rw [hsending, bytesOf_append]
    show c.transferred = bytesOf c.completed ++ (bytesOf c.returned ++ bytesOf c.buffered).take c.partlySent
    rw [List.take_append_of_le_length hpartly]
    exact hstream
  · have hone : c.handWindow.outstanding.countP RioSend.isSendEvent = 1 := by
      show (c.outstanding ++ [RioSend.sendEvent _]).countP RioSend.isSendEvent = 1
      rw [List.countP_append, hnone]
      rfl
    omega

/-- A multicast that is posted finds no part of a datum transferred. -/
theorem postMulticast (h : c.TransferredInOrder) (hwhole : c.outstanding = [] → c.partlySent = 0)
    (data : SendData) (ok : Bool) : (c.postMulticast maxOutstandingSend data ok).TransferredInOrder ∧
      ((c.postMulticast maxOutstandingSend data ok).outstanding = [] →
        (c.postMulticast maxOutstandingSend data ok).partlySent = 0) := by
  unfold ConnectionIo.postMulticast
  split_ifs with hlength hrio
  · exact ⟨⟨h.stream, h.multicast⟩, hwhole⟩
  · have hempty : c.outstanding = [] := by
      rw [rioAccepts, Bool.and_eq_true, decide_eq_true_eq, maxOutstandingSend, Nat.lt_one_iff,
        List.length_eq_zero_iff] at hrio
      exact hrio.2
    have hsending : (c.outstanding ++ [RioSend.multicast data]).flatMap RioSend.buffered = c.sending := by
      rw [List.flatMap_append]
      exact List.append_nil _
    refine ⟨⟨?_, fun _ _ => hwhole hempty⟩, fun _ => hwhole hempty⟩
    show c.transferred = bytesOf c.completed ++ (bytesOf (List.flatMap _ _ ++ c.returned)).take c.partlySent
    rw [hsending]
    exact h.stream
  · exact ⟨⟨h.stream, h.multicast⟩, hwhole⟩

theorem postMulticasts (h : c.TransferredInOrder) (ds : List SendData)
    (hwhole : c.outstanding = [] → ds ≠ [] → c.partlySent = 0) (o : Nat → Bool) :
    (postMulticasts maxOutstandingSend ds o c).TransferredInOrder := by
  induction ds generalizing c o with
  | nil => exact h
  | cons data rest ih =>
      obtain ⟨hposted, hstill⟩ :=
        h.postMulticast (fun hempty => hwhole hempty (List.cons_ne_nil _ _)) data (o 0)
      exact ih hposted (fun hempty _ => hstill hempty) _

/-- The transferred part of the window comes before the rest of it. -/
theorem completeSendEvent (h : c.TransferredInOrder) (hsends : c.SendsOk) {k : Nat} {ds : List SendData}
    {result : SendResult} (hk : c.outstanding[k]? = some (.sendEvent ds))
    (hone : c.outstanding.length ≤ 1) (hfits : result.Fits (c.postedLength (.sendEvent ds))) :
    (c.takeOutstanding k (.sendEvent ds) result).TransferredInOrder := by
  obtain ⟨hprocessing, rfl, halone⟩ := hsends.sendEvent_alone hk
  obtain ⟨hreturned, offset, hrange⟩ := hsends.range hprocessing
  have hstream := h.stream
  have hwindow := hsends.window
  have hpartly := hsends.partlySent_le
  rw [hreturned, List.append_nil] at hstream hwindow hpartly
  have hnone : c.outstanding.eraseIdx k = [] := by
    have hlt : k < c.outstanding.length := (List.getElem?_eq_some_iff.mp hk).1
    apply List.eq_nil_of_length_eq_zero
    rw [List.length_eraseIdx_of_lt hlt]
    omega
  refine ⟨?_, fun hne => absurd hnone hne⟩
  show c.transferred ++ c.transferredBy (.sendEvent c.sending) result =
    bytesOf (c.completed ++ c.finishedBy (.sendEvent c.sending) result) ++
      (bytesOf ((c.outstanding.eraseIdx k).flatMap RioSend.buffered ++
        (c.leftBy (.sendEvent c.sending) result ++ c.returned))).take
        (c.partlySentBy (.sendEvent c.sending) result)
  rw [hnone, hreturned, List.flatMap_nil, List.nil_append, List.append_nil, hstream]
  cases result with
  | eventFailed =>
      show _ ++ [] = bytesOf (c.completed ++ []) ++ (bytesOf c.sending).take c.partlySent
      rw [List.append_nil, List.append_nil]
  | transferred n =>
      have hn : n ≤ (bytesOf c.sending).length - c.partlySent := by
        have hposted := hfits.2
        rwa [postedLength, hrange, Option.map_some, Option.getD_some] at hposted
      obtain ⟨hhead, htail⟩ := hsends.queue.outstanding _ _ hrange
      have hfront : c.transferredBy (.sendEvent c.sending) (.transferred n) =
          ((bytesOf c.sending).drop c.partlySent).take n := by
        have hread : Memory.read c.ioSendEvent.eventData.data offset n =
            c.ioSendEvent.eventData.contents.take n := by
          rw [show offset = c.ioSendEvent.eventData.dataHead.toNat by omega, IoSendEventData.contents,
            Memory.take_read _ _ _ _ (by omega)]
        simp only [transferredBy, hrange]
        rw [hread, hwindow, List.take_append_of_le_length (by rw [List.length_drop]; exact hn)]
      have hwhole := length_bytesOf_wholeIn_le (c.partlySent + n) c.sending
      have hsplit : bytesOf c.sending =
          bytesOf (wholeIn (c.partlySent + n) c.sending) ++
            bytesOf (c.sending.drop (wholeIn (c.partlySent + n) c.sending).length) := by
        rw [← bytesOf_append, wholeIn_append_drop]
      rw [hfront, List.append_assoc, ← List.take_add, bytesOf_append, List.append_assoc]
      show bytesOf c.completed ++ (bytesOf c.sending).take (c.partlySent + n) =
        bytesOf c.completed ++ (bytesOf (wholeIn (c.partlySent + n) c.sending) ++
          (bytesOf (c.sending.drop (wholeIn (c.partlySent + n) c.sending).length)).take
            (c.partlySent + n - (bytesOf (wholeIn (c.partlySent + n) c.sending)).length))
      conv_lhs => rw [hsplit, List.take_append, List.take_of_length_le hwhole]

/-- A multicast that is transferred whole, or not at all. -/
theorem completeMulticast (h : c.TransferredInOrder) {k : Nat} {m : SendData} {result : SendResult}
    (hk : c.outstanding[k]? = some (.multicast m)) (hone : c.outstanding.length ≤ 1)
    (hresult : result = .eventFailed ∨ result = .transferred m.bytes.length) :
    (c.takeOutstanding k (.multicast m) result).TransferredInOrder := by
  obtain ⟨hnone, hsending, hwhole⟩ : c.outstanding.eraseIdx k = [] ∧ c.sending = [] ∧ c.partlySent = 0 := by
    have hlt : k < c.outstanding.length := (List.getElem?_eq_some_iff.mp hk).1
    obtain rfl : k = 0 := by omega
    obtain ⟨x, hx⟩ : ∃ x, c.outstanding = [x] := List.length_eq_one_iff.mp (by omega)
    have hmulticast := h.multicast
    rw [hx] at hk
    rw [sending, hx, Option.some.inj hk]
    rw [hx, Option.some.inj hk] at hmulticast
    exact ⟨rfl, rfl, hmulticast (List.cons_ne_nil _ _) rfl⟩
  have hstream := h.stream
  rw [hsending, hwhole, List.take_zero, List.append_nil] at hstream
  refine ⟨?_, fun hne => absurd hnone hne⟩
  show c.transferred ++ c.transferredBy (.multicast m) result =
    bytesOf (c.completed ++ c.finishedBy (.multicast m) result) ++ List.take c.partlySent _
  rw [hwhole, List.take_zero, List.append_nil, hstream, bytesOf_append]
  rcases hresult with rfl | rfl
  · rfl
  · have hfinished : c.finishedBy (.multicast m) (.transferred m.bytes.length) = [m] := by
      apply wholeIn_of_length_le
      show (m.bytes ++ []).length ≤ 0 + m.bytes.length
      rw [List.append_nil, Nat.zero_add]
    rw [hfinished]
    show _ ++ m.bytes.take m.bytes.length = _ ++ (m.bytes ++ [])
    rw [List.take_length, List.append_nil]

theorem step (h : c.TransferredInOrder) (hsends : c.SendsOk) (hone : c.outstanding.length ≤ maxOutstandingSend)
    {e : Event} (hcuts : c.CutsNoDatum e) (hstep : c.step maxOutstandingSend e = some c') :
    c'.TransferredInOrder := by
  cases e with
  | sendRawData bytes =>
      obtain rfl := Option.some.inj hstep
      exact h.of_sameSends (push_accepts c false bytes.1).2
  | postMulticastEvent bytes =>
      obtain rfl := Option.some.inj hstep
      exact h.of_sameSends (postMulticastEvent_accepts c bytes).2
  | postSendEvent ok =>
      obtain rfl := Option.some.inj hstep
      show (if _ then _ else _ : ConnectionIo).TransferredInOrder
      split_ifs with hbusy
      · exact h
      · have hidle : c.ioSendEvent.isProcessing = false := Bool.eq_false_iff.mpr hbusy
        rcases c.postSendEvent_cases _ ok hidle with heq | ⟨-, -, heq⟩
        · rw [heq]
          exact h
        · rw [heq]
          exact h.handWindow hsends hidle
  | flushMulticastSend o =>
      obtain rfl := Option.some.inj hstep
      have htaken : TransferredInOrder { c with readyMulticastEvents := [] } := ⟨h.stream, h.multicast⟩
      exact htaken.postMulticasts c.readyMulticastEvents hcuts o
  | complete k result =>
      obtain ⟨send, hk, hfits, rfl⟩ := complete_eq_some hstep
      apply of_sameSends ?_ (onEventComplete_accepts _ send result).2
      cases send with
      | sendEvent ds => exact h.completeSendEvent hsends hk hone hfits
      | multicast m => exact h.completeMulticast hk hone (hcuts _ hk rfl)

/-- What RIO transferred is a beginning of the data that it completed, has, or gave back. -/
theorem transferred_beginning (h : c.TransferredInOrder)
    (hone : c.outstanding.length ≤ maxOutstandingSend) : c.transferred <+: bytesOf c.passed := by
  rw [h.stream, passed, List.append_assoc, bytesOf_append c.completed]
  refine (List.prefix_append_right_inj _).mpr ?_
  cases hout : c.outstanding with
  | nil =>
      rw [sending, hout]
      exact List.take_prefix _ _
  | cons send sends =>
      have hlength : (send :: sends).length ≤ 1 := hout ▸ hone
      obtain rfl : sends = [] := List.eq_nil_of_length_eq_zero (Nat.le_zero.mp (Nat.le_of_succ_le_succ hlength))
      cases send with
      | sendEvent ds =>
          have hsending : c.sending = [RioSend.sendEvent ds].flatMap RioSend.data := by
            rw [sending, hout]
            rfl
          rw [hsending]
          exact List.take_prefix _ _
      | multicast m =>
          rw [h.multicast (by rw [hout]; exact List.cons_ne_nil _ _) (by rw [hout]; rfl)]
          exact List.nil_prefix

end TransferredInOrder

/-! ## What is accepted

Outputs are accepted whole or not at all, on either path, so the accepted data are the bytes of outputs.
-/

/-- What the event offers to the connection. -/
def Event.offers : Event → Option (List UInt8)
  | .sendRawData bytes => some bytes.1
  | .postMulticastEvent bytes => some bytes
  | _ => none

theorem accepted_push (c : ConnectionIo) (isMulticast : Bool) (bytes : List UInt8) :
    ∀ d ∈ (c.push isMulticast bytes).1.accepted, d ∈ c.accepted ∨ d.bytes = bytes := by
  intro d hd
  unfold push at hd
  split_ifs at hd
  · rcases List.mem_append.mp hd with hd | hd
    · exact Or.inl hd
    · rw [List.mem_singleton.mp hd]
      exact Or.inr rfl
  · exact Or.inl hd

/-- A multicast event is accepted as a whole. -/
theorem accepted_readyMulticast (c : ConnectionIo) (bytes : List UInt8) :
    ∀ d ∈ (c.readyMulticast bytes).1.accepted, d ∈ c.accepted ∨ d.bytes = bytes := by
  intro d hd
  unfold readyMulticast at hd
  split_ifs at hd
  · rcases List.mem_append.mp hd with hd | hd
    · exact Or.inl hd
    · rw [List.mem_singleton.mp hd]
      exact Or.inr rfl
  · exact Or.inl hd

theorem accepted_postMulticastEvent (c : ConnectionIo) (bytes : List UInt8) :
    ∀ d ∈ (c.postMulticastEvent bytes).1.accepted, d ∈ c.accepted ∨ d.bytes = bytes := by
  intro d hd
  unfold postMulticastEvent at hd
  split_ifs at hd
  · exact accepted_push c true bytes d hd
  · rcases accepted_readyMulticast _ bytes d hd with hd | hd
    · exact accepted_push c true bytes d hd
    · exact Or.inr hd
  · exact accepted_readyMulticast c bytes d hd

theorem accepted_postMulticasts (limit : Nat) (ds : List SendData) (o : Nat → Bool) (c : ConnectionIo) :
    (postMulticasts limit ds o c).accepted = c.accepted := by
  induction ds generalizing o c with
  | nil => rfl
  | cons data rest ih =>
      rw [postMulticasts, ih]
      unfold postMulticast
      split_ifs <;> rfl

/-- Nothing is accepted that was not offered. -/
theorem accepted_step {limit : Nat} {c c' : ConnectionIo} {e : Event} (hstep : c.step limit e = some c') :
    ∀ d ∈ c'.accepted, d ∈ c.accepted ∨ e.offers = some d.bytes := by
  intro d hd
  cases e with
  | sendRawData bytes =>
      obtain rfl := Option.some.inj hstep
      exact (accepted_push c false bytes.1 d hd).imp_right fun h => congrArg some h.symm
  | postMulticastEvent bytes =>
      obtain rfl := Option.some.inj hstep
      exact (accepted_postMulticastEvent c bytes d hd).imp_right fun h => congrArg some h.symm
  | postSendEvent ok =>
      obtain rfl := Option.some.inj hstep
      refine Or.inl ?_
      split at hd
      · exact hd
      · rename_i hbusy
        rcases c.postSendEvent_cases limit ok (Bool.eq_false_iff.mpr hbusy) with heq | ⟨-, -, heq⟩
        · rwa [heq] at hd
        · rwa [heq] at hd
  | flushMulticastSend o =>
      obtain rfl := Option.some.inj hstep
      rw [flushMulticastSend, accepted_postMulticasts] at hd
      exact Or.inl hd
  | complete k result =>
      obtain ⟨send, -, -, rfl⟩ := complete_eq_some hstep
      refine Or.inl ?_
      cases send with
      | multicast data => exact hd
      | sendEvent ds =>
          cases result with
          | eventFailed => exact hd
          | transferred n =>
              simp only [onEventComplete] at hd
              cases hrange : (c.takeOutstanding k (.sendEvent ds) (.transferred n)).ioSendEvent.outstanding with
              | none => rwa [hrange] at hd
              | some range => rwa [hrange] at hd

/-! ## The stream

The completed data, those that RIO has and those that came back make one list of outputs, of which the
client reads the beginning that it has received.
-/

/-- The accepted data are outputs of the server. -/
def AcceptsOutputs (c : ConnectionIo) : Prop := ∀ d ∈ c.accepted, ∃ o : ServerOutput, o.bytes = d.bytes

/-- What was not transferred of the data that wait at RIO is in the posted range of the send buffer. -/
def RangeHolds (c : ConnectionIo) : Prop :=
  c.ioSendEvent.isProcessing = true → ∃ offset length, c.ioSendEvent.outstanding = some (offset, length) ∧
    Memory.read c.ioSendEvent.eventData.data offset length = (bytesOf c.sending).drop c.partlySent

/-- The front of the window is posted, which no push overwrites. -/
theorem SendsOk.rangeHolds {c : ConnectionIo} (h : c.SendsOk) : c.RangeHolds := by
  intro hprocessing
  obtain ⟨hreturned, offset, hrange⟩ := h.range hprocessing
  obtain ⟨hhead, htail⟩ := h.queue.outstanding _ _ hrange
  have hwindow := h.window
  rw [hreturned, List.append_nil] at hwindow
  refine ⟨offset, _, hrange, ?_⟩
  have hoffset : offset = c.ioSendEvent.eventData.dataHead.toNat := by omega
  have hfront := Memory.take_read c.ioSendEvent.eventData.data c.ioSendEvent.eventData.dataHead.toNat
    (c.ioSendEvent.eventData.dataTail - c.ioSendEvent.eventData.dataHead).toNat
    ((bytesOf c.sending).length - c.partlySent) (by omega)
  rw [hoffset, ← hfront]
  show c.ioSendEvent.eventData.contents.take _ = _
  rw [hwindow, ← List.length_drop, List.take_left]

/-- What a client has received of the outputs when a part of the stream has arrived: whole packets, and a
beginning of the next one. -/
def ReceivesPackets (outputs : List ServerOutput) (stream : List UInt8) : Prop :=
  ∃ received missing rest, outputs.flatMap ServerOutput.packets = received ++ missing ∧
    Frames serverFrameSize stream received rest ∧ rest <+: missing.flatten ∧
    ∀ p, missing.head? = some p → rest.length < p.length

/-- A beginning of the outputs is a beginning of their packets. -/
theorem receivesPackets {outputs : List ServerOutput} {stream : List UInt8}
    (hbegin : stream <+: outputs.flatMap ServerOutput.bytes) : ReceivesPackets outputs stream := by
  rw [← flatten_flatMap_packets] at hbegin
  exact Frames.of_beginning isFrame_of_mem_packets hbegin

/-- Some outputs are the data, if each of the data is one. -/
theorem exists_outputs {ds : List SendData} (h : ∀ d ∈ ds, ∃ o : ServerOutput, o.bytes = d.bytes) :
    ∃ outputs : List ServerOutput, ds.map SendData.bytes = outputs.map ServerOutput.bytes := by
  have hrange : ds.map SendData.bytes ∈ Set.range (List.map ServerOutput.bytes) := by
    rw [Set.range_list_map]
    intro bytes hbytes
    obtain ⟨d, hd, rfl⟩ := List.mem_map.mp hbytes
    exact h d hd
  obtain ⟨outputs, houtputs⟩ := hrange
  exact ⟨outputs, houtputs.symm⟩

/-- The same data have the same bytes. -/
theorem bytesOf_eq_of_map {ds : List SendData} {outputs : List ServerOutput}
    (h : ds.map SendData.bytes = outputs.map ServerOutput.bytes) :
    bytesOf ds = outputs.flatMap ServerOutput.bytes := by
  rw [bytesOf, List.flatMap_def, List.flatMap_def, h]

/-- **A client receives whole packets.** Whatever the order of sends, multicasts, flushes, failures and
completions: RIO completes outputs of the server one after the other, each at most once, and those that it has
come after them; they lie unchanged in the send buffer while they are outstanding.  Going by the sizes of the
packets, any beginning of the stream consists of packets of these outputs and a beginning of the next one.
The bytes that RIO transferred are such a beginning in every run in which no datum is cut. -/
theorem transferred_packets {buf : List UInt8} (hbuf : buf.length < 2 ^ 31) {es : List Event}
    (hes : ∀ e ∈ es, ∀ bytes, e.offers = some bytes → ∃ o : ServerOutput, o.bytes = bytes) {c : ConnectionIo}
    (hrun : run (step maxOutstandingSend) (init buf) es = some c) :
    c.outstanding.length ≤ maxOutstandingSend ∧ c.passed.Nodup ∧ (∀ d ∈ c.passed, d ∈ c.accepted) ∧
    c.RangeHolds ∧
    (∃ outputs, c.passed.map SendData.bytes = outputs.map ServerOutput.bytes ∧
      ∀ stream, stream <+: bytesOf c.passed → ReceivesPackets outputs stream) ∧
    (Along (step maxOutstandingSend) CutsNoDatum (init buf) es → c.transferred <+: bytesOf c.passed) := by
  have h := run_invariant_along
    (P := fun c => (SendsOk c ∧ c.outstanding.length ≤ maxOutstandingSend) ∧ SentOnce [] c ∧ AcceptsOutputs c)
    (G := fun _ e => ∀ bytes, e.offers = some bytes → ∃ o : ServerOutput, o.bytes = bytes)
    (fun c e c' hc he hstep => by
      refine ⟨⟨hc.1.1.step hstep, outstanding_le_step hc.1.2 hstep⟩, hc.2.1.step hstep, fun d hd => ?_⟩
      rcases accepted_step hstep d hd with hold | hoffered
      · exact hc.2.2 d hold
      · exact he d.bytes hoffered)
    ⟨⟨SendsOk.init hbuf, Nat.zero_le _⟩, SentOnce.init buf, fun _ hd => nomatch hd⟩
    (Along.of_forall_mem fun e he _ => hes e he) hrun
  obtain ⟨⟨hsends, hone⟩, honce, houtputs⟩ := h
  have hplaces : ∀ d, c.passed.count d ≤ c.places.count d := by
    intro d
    simp only [places, passed, List.count_append]
    omega
  have haccepted : ∀ d ∈ c.passed, d ∈ c.accepted := by
    intro d hd
    apply honce.accepted_of_mem_places
    rw [← List.count_pos_iff] at hd ⊢
    exact Nat.lt_of_lt_of_le hd (hplaces d)
  obtain ⟨outputs, hmap⟩ := exists_outputs fun d hd => houtputs d (haccepted d hd)
  refine ⟨hone, ?_, haccepted, hsends.rangeHolds, ⟨outputs, hmap, fun stream hstream => ?_⟩, fun hcuts => ?_⟩
  · rw [List.nodup_iff_count_le_one]
    intro d
    exact (hplaces d).trans (List.nodup_iff_count_le_one.mp honce.nodup_places d)
  · rw [bytesOf_eq_of_map hmap] at hstream
    exact receivesPackets hstream
  · have htransferred := run_invariant_along
      (P := fun c => (SendsOk c ∧ c.outstanding.length ≤ maxOutstandingSend) ∧ TransferredInOrder c)
      (fun c e c' hc hcut hstep => ⟨⟨hc.1.1.step hstep, outstanding_le_step hc.1.2 hstep⟩,
        hc.2.step hc.1.1 hc.1.2 hcut hstep⟩)
      ⟨⟨SendsOk.init hbuf, Nat.zero_le _⟩, TransferredInOrder.init buf⟩ hcuts hrun
    exact htransferred.2.transferred_beginning hone

/-- A pong waits in a send buffer of twenty bytes and two block changes in an event of their own; the pong is
sent, the event is freed by the same flush, and a second one for two block changes is sent after it.  One block
change goes through the send buffer: RIO fails to send it, and then cuts it after three bytes. -/
theorem transferred_packets_resumed :
    ∃ es c, run (step maxOutstandingSend) (init (List.replicate 20 0)) es = some c ∧
      c.accepted.length = 4 ∧ c.completed.length = 2 ∧ c.handedAgain.length = 1 ∧
      c.transferred.length = 1 + 16 + 3 ∧
      c.outstanding.length ≤ maxOutstandingSend ∧ c.passed.Nodup ∧ (∀ d ∈ c.passed, d ∈ c.accepted) ∧
      c.RangeHolds ∧
      (∃ outputs, c.passed.map SendData.bytes = outputs.map ServerOutput.bytes ∧
        ∀ stream, stream <+: bytesOf c.passed → ReceivesPackets outputs stream) ∧
      c.transferred <+: bytesOf c.passed := by
  let change : List UInt8 := [6, 1, 0, 2, 0, 3, 0, 4]
  let es : List Event := [.sendRawData ⟨[1], by decide⟩, .postMulticastEvent (change ++ change)] ++
    flushSend true (fun _ => true) ++ [.complete 0 (.transferred 1), .postMulticastEvent (change ++ change)] ++
    flushSend true (fun _ => true) ++ [.complete 0 (.transferred 16), .postMulticastEvent change] ++
    flushSend true (fun _ => true) ++ [.complete 0 .eventFailed] ++ flushSend true (fun _ => true) ++
    [.complete 0 (.transferred 3)]
  have hlengths : (run (step maxOutstandingSend) (init (List.replicate 20 0)) es).map (fun c =>
      (c.accepted.length, c.completed.length, c.handedAgain.length, c.transferred.length)) =
      some (4, 2, 1, 1 + 16 + 3) := by decide
  obtain ⟨c, hrun, hc⟩ := Option.map_eq_some_iff.mp hlengths
  simp only [Prod.mk.injEq] at hc
  obtain ⟨haccepted, hcompleted, hagain, htransferred⟩ := hc
  have houtputs : ∀ e ∈ es, ∀ bytes, e.offers = some bytes → ∃ o : ServerOutput, o.bytes = bytes := by
    intro e he bytes hbytes
    have hoffered : bytes ∈ es.filterMap Event.offers := List.mem_filterMap.mpr ⟨e, he, hbytes⟩
    rw [show es.filterMap Event.offers = [[1], change ++ change, change ++ change, change] from rfl] at hoffered
    simp only [List.mem_cons, List.not_mem_nil, or_false] at hoffered
    rcases hoffered with rfl | rfl | rfl | rfl
    · exact ⟨.ping, rfl⟩
    · exact ⟨.blockHistory [⟨1, 2, 3, 4⟩, ⟨1, 2, 3, 4⟩], rfl⟩
    · exact ⟨.blockHistory [⟨1, 2, 3, 4⟩, ⟨1, 2, 3, 4⟩], rfl⟩
    · exact ⟨.blockHistory [⟨1, 2, 3, 4⟩], rfl⟩
  obtain ⟨hone, hnodup, hpassed, hrange, hpackets, hcuts⟩ := transferred_packets (by decide) houtputs hrun
  exact ⟨es, c, hrun, haccepted, hcompleted, hagain, htransferred, hone, hnodup, hpassed, hrange, hpackets,
    hcuts (by decide)⟩

end ConnectionIo

end Mmocraft.Net
