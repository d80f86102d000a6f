/-
# Mmocraft.Lib.StreamCursor -- skipping through a stream by the heads of its packets

A reader that knows the sizes of packets by their first cell needs no other cell of them: it reads a head,
skips the rest of the packet, and is at the next head.  `Cursor.feed` moves such a reader over one cell; it
is stuck at a head whose size it does not know.  The reader keeps what is missing of a packet, so the way
a stream is cut into segments does not matter: `feedAll_append`.

Over a stream of packets the heads that are read are where the packets begin, as long as each packet has
the size that is known for its head.
-/
import Mathlib.Data.List.Basic
import Mathlib.Tactic.Common

namespace Mmocraft.Lib

universe u

variable {α : Type u} {size : α → Option Nat}

/-- Where a reader is in a stream, how many cells of a packet it still has to skip, and where it has read
heads. -/
@[ext] structure Cursor where
  pos : Nat
  remain : Nat
  heads : List Nat
  deriving DecidableEq, Repr

namespace Cursor

/-- Move over one cell. -/
def feed (size : α → Option Nat) (c : Cursor) (a : α) : Option Cursor :=
  if c.remain = 0 then (size a).map fun n => ⟨c.pos + 1, n - 1, c.heads ++ [c.pos]⟩
  else some ⟨c.pos + 1, c.remain - 1, c.heads⟩

/-- Move over a segment. -/
def feedAll (size : α → Option Nat) (c : Cursor) (segment : List α) : Option Cursor :=
  segment.foldlM (feed size) c

@[simp] theorem feedAll_nil (c : Cursor) : feedAll size c [] = some c := rfl

theorem feedAll_cons (c : Cursor) (a : α) (segment : List α) :
    feedAll size c (a :: segment) = (feed size c a).bind (feedAll size · segment) := by
  rw [feedAll, List.foldlM_cons]
  rfl

/-- **Segmentation.** -/
theorem feedAll_append (c : Cursor) (segment more : List α) :
    feedAll size c (segment ++ more) = (feedAll size c segment).bind (feedAll size · more) := by
  rw [feedAll, List.foldlM_append]
  rfl

/-- Cells of a packet whose head is behind the reader. -/
theorem feedAll_skip {c : Cursor} {segment : List α} (h : segment.length ≤ c.remain) :
    feedAll size c segment =
      some ⟨c.pos + segment.length, c.remain - segment.length, c.heads⟩ := by
  induction segment generalizing c with
  | nil => rfl
  | cons a segment ih =>
      rw [List.length_cons] at h
      rw [feedAll_cons, feed, if_neg (by omega), Option.bind_some, ih (by simp only; omega)]
      simp only [List.length_cons, Option.some.injEq, Cursor.mk.injEq, and_true]
      omega

/-- A packet, or the part of it that is there. -/
theorem feedAll_packet {c : Cursor} (hc : c.remain = 0) {a : α} {n : Nat} (ha : size a = some n)
    {segment : List α} (h : segment.length + 1 ≤ n) :
    feedAll size c (a :: segment) =
      some ⟨c.pos + (segment.length + 1), n - (segment.length + 1), c.heads ++ [c.pos]⟩ := by
  rw [feedAll_cons, feed, if_pos hc, ha, Option.map_some, Option.bind_some,
    feedAll_skip (by simp only; omega)]
  simp only [Option.some.injEq, Cursor.mk.injEq, and_true]
  omega

/-- A head of unknown size. -/
theorem feedAll_unknown {c : Cursor} (hc : c.remain = 0) {a : α} (ha : size a = none)
    (segment : List α) : feedAll size c (a :: segment) = none := by
  rw [feedAll_cons, feed, if_pos hc, ha]
  rfl

/-- A reader that starts elsewhere. -/
theorem feedAll_shift (base : Nat) (old : List Nat) (c : Cursor) (segment : List α) :
    feedAll size ⟨base + c.pos, c.remain, old ++ c.heads.map (base + ·)⟩ segment =
      (feedAll size c segment).map fun c' =>
        ⟨base + c'.pos, c'.remain, old ++ c'.heads.map (base + ·)⟩ := by
  induction segment generalizing c with
  | nil => rfl
  | cons a segment ih =>
      rw [feedAll_cons, feedAll_cons, feed, feed]
      split
      · cases size a with
        | none => rfl
        | some n =>
            have hstep := ih ⟨c.pos + 1, n - 1, c.heads ++ [c.pos]⟩
            rw [List.map_append, ← List.append_assoc, ← Nat.add_assoc] at hstep
            exact hstep
      · exact ih ⟨c.pos + 1, c.remain - 1, c.heads⟩

/-- Every cell moves the reader by one. -/
theorem pos_of_feedAll {c c' : Cursor} {segment : List α} (h : feedAll size c segment = some c') :
    c'.pos = c.pos + segment.length := by
  induction segment generalizing c with
  | nil => rw [← Option.some.inj h]; rfl
  | cons a segment ih =>
      rw [feedAll_cons] at h
      obtain ⟨d, hd, hrest⟩ := Option.bind_eq_some_iff.mp h
      have hpos : d.pos = c.pos + 1 := by
        rw [feed] at hd
        split at hd
        · obtain ⟨n, -, rfl⟩ := Option.map_eq_some_iff.mp hd
          rfl
        · rw [← Option.some.inj hd]
      rw [ih hrest, hpos, List.length_cons]
      omega

end Cursor

/-! ## Data whose heads are all known -/

/-- Going through the data by the sizes of its packets, one meets known heads only; the last packet may be
incomplete. -/
inductive HeadsKnown (size : α → Option Nat) : List α → Prop where
  | nil : HeadsKnown size []
  | packet {a : α} {n : Nat} {segment : List α} (hhead : size a = some n)
      (hrest : HeadsKnown size ((a :: segment).drop n)) : HeadsKnown size (a :: segment)

open Cursor

/-- What a known head leaves to go through. -/
theorem feedAll_eq_drop (hpos : ∀ a n, size a = some n → 0 < n) {c : Cursor} (hc : c.remain = 0)
    {a : α} {n : Nat} (ha : size a = some n) (segment : List α) :
    feedAll size c (a :: segment) = feedAll size
      ⟨c.pos + min n (segment.length + 1), n - (segment.length + 1), c.heads ++ [c.pos]⟩
      ((a :: segment).drop n) := by
  obtain ⟨k, rfl⟩ : ∃ k, n = k + 1 := ⟨n - 1, by have := hpos a n ha; omega⟩
  have hsplit : a :: segment = (a :: segment.take k) ++ (a :: segment).drop (k + 1) := by
    rw [List.drop_succ_cons, List.cons_append, List.take_append_drop]
  have htake : (segment.take k).length = min k segment.length := List.length_take
  conv_lhs => rw [hsplit]
  rw [feedAll_append, feedAll_packet hc ha (by omega), Option.bind_some, htake]
  rcases Nat.le_total k segment.length with hle | hle
  · rw [Nat.min_eq_left hle, Nat.min_eq_left (by omega), Nat.sub_self,
      show k + 1 - (segment.length + 1) = 0 by omega]
  · rw [Nat.min_eq_right hle, Nat.min_eq_right (by omega)]

/-- **The reader gets through** the data exactly if all heads it meets are known. -/
theorem feedAll_isSome_iff (hpos : ∀ a n, size a = some n → 0 < n) (c : Cursor) (data : List α) :
    (feedAll size c data).isSome ↔ HeadsKnown size (data.drop c.remain) := by
  induction hlen : data.length using Nat.strongRecOn generalizing c data with
  | ind len ih =>
      cases data with
      | nil => simp [HeadsKnown.nil]
      | cons a segment =>
          rcases Nat.eq_zero_or_pos c.remain with hc | hc
          · rw [hc, List.drop_zero]
            cases ha : size a with
            | none =>
                rw [feedAll_unknown hc ha]
                refine iff_of_false (by simp) ?_
                rintro (_ | ⟨hhead, -⟩)
                exact nomatch ha.symm.trans hhead
            | some n =>
                have hn := hpos a n ha
                rw [feedAll_eq_drop hpos hc ha]
                have hrest := ih ((a :: segment).drop n).length
                  (by rw [List.length_drop, ← hlen, List.length_cons]; omega)
                  ⟨c.pos + min n (segment.length + 1), n - (segment.length + 1), c.heads ++ [c.pos]⟩
                  ((a :: segment).drop n) rfl
                rw [hrest, List.drop_drop]
                -- what is missing of the packet lies behind the data
                have hdrop : (a :: segment).drop (n + (n - (segment.length + 1))) =
                    (a :: segment).drop n := by
                  rcases Nat.le_total n (segment.length + 1) with hle | hle
                  · rw [Nat.sub_eq_zero_of_le hle, Nat.add_zero]
                  · rw [List.drop_eq_nil_of_le (by simp only [List.length_cons]; omega),
                      List.drop_eq_nil_of_le (by simp only [List.length_cons]; omega)]
                rw [hdrop]
                constructor
                · exact HeadsKnown.packet ha
                · rintro (_ | ⟨hhead, hknown⟩)
                  obtain rfl := Option.some.inj (ha.symm.trans hhead)
                  exact hknown
          · have hfeed : feed size c a = some ⟨c.pos + 1, c.remain - 1, c.heads⟩ :=
              if_neg (Nat.ne_of_gt hc)
            have hdrop : (a :: segment).drop c.remain = segment.drop (c.remain - 1) := by
              conv_lhs => rw [show c.remain = c.remain - 1 + 1 by omega]
              rfl
            rw [feedAll_cons, hfeed, Option.bind_some, hdrop]
            exact ih segment.length (by rw [← hlen]; exact Nat.lt_succ_self _) _ segment rfl

/-! ## Streams of packets -/

/-- Where the packets begin, if the first one begins at `pos`. -/
def offsets : Nat → List (List α) → List Nat
  | _, [] => []
  | pos, p :: ps => pos :: offsets (pos + p.length) ps

/-- The packets of which the first `n` cells of the stream contain something. -/
def begun : Nat → List (List α) → List (List α)
  | _, [] => []
  | n, p :: ps => if n = 0 then [] else p :: begun (n - p.length) ps

/-- The head of the packet has a known size. -/
def HeadKnown (size : α → Option Nat) (p : List α) : Prop := ∃ a t, p = a :: t ∧ (size a).isSome = true

/-- The packet is not empty, and has the size that is known for its head, if one is known. -/
def Agrees (size : α → Option Nat) (p : List α) : Prop :=
  ∃ a t, p = a :: t ∧ ∀ n, size a = some n → n = p.length

@[simp] theorem begun_zero (ps : List (List α)) : begun 0 ps = [] := by cases ps <;> rfl

theorem begun_cons {n : Nat} (hn : 0 < n) (p : List α) (ps : List (List α)) :
    begun n (p :: ps) = p :: begun (n - p.length) ps := if_neg (Nat.ne_of_gt hn)

/-- The part of a stream that ends in its first packet, or goes beyond it. -/
theorem take_flatten_cons (n : Nat) (p : List α) (ps : List (List α)) :
    (p :: ps).flatten.take n = p.take n ++ ps.flatten.take (n - p.length) := by
  rw [List.flatten_cons, List.take_append]

/-- The reader over what there is of one packet with a known head. -/
theorem feedAll_begun {p : List α} (hagrees : Agrees size p) (hknown : HeadKnown size p) {n : Nat}
    (hn : 0 < n) (pos : Nat) (old : List Nat) :
    feedAll size ⟨pos, 0, old⟩ (p.take n) =
      some ⟨pos + min n p.length, p.length - min n p.length, old ++ [pos]⟩ := by
  obtain ⟨a, t, rfl, hsize⟩ := hagrees
  obtain ⟨b, u, heq, hsome⟩ := hknown
  obtain ⟨rfl, rfl⟩ := List.cons.inj heq
  obtain ⟨m, hm⟩ := Option.isSome_iff_exists.mp hsome
  obtain rfl := hsize m hm
  obtain ⟨k, rfl⟩ : ∃ k, n = k + 1 := ⟨n - 1, by omega⟩
  have htake : (t.take k).length = min k t.length := List.length_take
  have hmin : min (k + 1) (a :: t).length = min k t.length + 1 := by
    rw [List.length_cons]
    omega
  rw [List.take_succ_cons, feedAll_packet rfl hm (by rw [htake, List.length_cons]; omega), htake, hmin]

/-- **A stream of packets with known heads**, cut off anywhere: the heads are read where the packets begin,
and what is missing is the rest of the last packet. -/
theorem feedAll_stream {ps : List (List α)} (hps : ∀ p ∈ ps, Agrees size p) {n : Nat}
    (hn : n ≤ ps.flatten.length) (hknown : ∀ p ∈ begun n ps, HeadKnown size p) (pos : Nat)
    (old : List Nat) :
    feedAll size ⟨pos, 0, old⟩ (ps.flatten.take n) =
      some ⟨pos + n, (begun n ps).flatten.length - n, old ++ offsets pos (begun n ps)⟩ := by
  induction ps generalizing n pos old with
  | nil =>
      obtain rfl : n = 0 := Nat.eq_zero_of_le_zero hn
      simp [begun, offsets]
  | cons p ps ih =>
      rcases Nat.eq_zero_or_pos n with rfl | hpos
      · simp [offsets]
      rw [List.flatten_cons, List.length_append] at hn
      rw [begun_cons hpos] at hknown ⊢
      have hrest := ih (fun q hq => hps q (List.mem_cons_of_mem p hq)) (n := n - p.length) (by omega)
        (fun q hq => hknown q (List.mem_cons_of_mem p hq)) (pos + p.length) (old ++ [pos])
      rw [take_flatten_cons, feedAll_append, feedAll_begun (hps p List.mem_cons_self)
        (hknown p List.mem_cons_self) hpos, Option.bind_some]
      rcases Nat.le_total n p.length with hle | hle
      · -- the cut lies in this packet
        rw [Nat.sub_eq_zero_of_le hle, Nat.min_eq_left hle, List.take_zero, begun_zero]
        simp [offsets]
      · rw [Nat.min_eq_right hle, Nat.sub_self, hrest, List.flatten_cons, List.length_append, offsets,
          List.append_assoc, List.singleton_append]
        simp only [Option.some.injEq, Cursor.mk.injEq, and_true]
        omega

/-- **A stream with an unknown head** in the part that is there: the reader is stuck at it. -/
theorem feedAll_stream_unknown {ps : List (List α)} (hps : ∀ p ∈ ps, Agrees size p) {n : Nat}
    {p : List α} (hp : p ∈ begun n ps) (hunknown : ¬ HeadKnown size p) (pos : Nat) (old : List Nat) :
    feedAll size ⟨pos, 0, old⟩ (ps.flatten.take n) = none := by
  induction ps generalizing n pos old with
  | nil => exact nomatch hp
  | cons q ps ih =>
      rcases Nat.eq_zero_or_pos n with rfl | hpos
      · exact nomatch hp
      rw [begun_cons hpos] at hp
      obtain ⟨a, t, hq, hsize⟩ := hps q List.mem_cons_self
      rw [take_flatten_cons, feedAll_append]
      cases ha : size a with
      | none =>
          obtain ⟨k, rfl⟩ : ∃ k, n = k + 1 := ⟨n - 1, by omega⟩
          rw [hq, List.take_succ_cons, feedAll_unknown rfl ha]
          rfl
      | some m =>
          have hknown : HeadKnown size q := ⟨a, t, hq, by rw [ha]; rfl⟩
          rw [feedAll_begun (hps q List.mem_cons_self) hknown hpos, Option.bind_some]
          rcases List.mem_cons.mp hp with rfl | hp
          · exact absurd hknown hunknown
          · -- the stuck head lies behind this packet
            have hlt : q.length < n := by
              by_contra hle
              rw [Nat.sub_eq_zero_of_le (Nat.not_lt.mp hle), begun_zero] at hp
              exact nomatch hp
            rw [Nat.min_eq_right (Nat.le_of_lt hlt), Nat.sub_self]
            exact ih (fun r hr => hps r (List.mem_cons_of_mem q hr)) hp _ _

end Mmocraft.Lib
