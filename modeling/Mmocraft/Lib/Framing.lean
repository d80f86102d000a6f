/-
# Mmocraft.Lib.Framing -- self-delimiting frames in a stream

The first cell of a frame determines its length through `size`; the value `0` marks a cell that
starts no frame.  `Frames size stream fs rest` says that `fs` is the *maximal* sequence of complete
frames at the front of `stream`: they are complete, they are followed by exactly `rest`, and no
further complete frame stands at the front of `rest`.  The decomposition is unique, and it can be
computed piecewise: framing what is left after more cells have arrived continues the framing of
the whole stream.  That is why the way a stream is cut into segments does not matter.
-/
import Mathlib.Data.List.Basic
import Mathlib.Tactic.Common

namespace Mmocraft.Lib

universe u

variable {α : Type u} {size : α → Nat}

/-- A nonempty list whose first cell announces exactly its length. -/
def IsFrame (size : α → Nat) : List α → Prop
  | [] => False
  | a :: t => size a = (a :: t).length

/-- The maximal sequence of complete frames at the front of a stream, and what is left. -/
structure Frames (size : α → Nat) (stream : List α) (fs : List (List α)) (rest : List α) :
    Prop where
  concat : fs.flatten ++ rest = stream
  complete : ∀ f ∈ fs, IsFrame size f
  maximal : ∀ f t, rest = f ++ t → ¬ IsFrame size f

namespace Frames

/-- An empty remainder contains no further frame. -/
theorem nil : Frames size ([] : List α) [] [] where
  concat := rfl
  complete := by simp
  maximal := by
    intro f t h
    obtain ⟨rfl, -⟩ := List.append_eq_nil_iff.mp h.symm
    exact id

/-- A cell that announces more cells than there are, or none, starts no complete frame. -/
theorem stuck {a : α} {t : List α} (h : size a = 0 ∨ (a :: t).length < size a) :
    Frames size (a :: t) [] (a :: t) where
  concat := rfl
  complete := by simp
  maximal := by
    intro f u hf hframe
    cases f with
    | nil => exact hframe
    | cons b g =>
        obtain ⟨rfl, rfl⟩ : a = b ∧ t = g ++ u := by simpa using hf
        have hlen : size a = (a :: g).length := hframe
        simp only [List.length_cons, List.length_append] at h hlen
        omega

/-- A complete frame in front of a framed stream. -/
theorem cons {f stream : List α} {fs : List (List α)} {rest : List α}
    (hf : IsFrame size f) (h : Frames size stream fs rest) :
    Frames size (f ++ stream) (f :: fs) rest where
  concat := by rw [List.flatten_cons, List.append_assoc, h.concat]
  complete := by
    intro g hg
    rcases List.mem_cons.mp hg with rfl | hg
    · exact hf
    · exact h.complete g hg
  maximal := h.maximal

/-- Two frames at the front of one stream are equal. -/
theorem frame_prefix_unique {f g t u : List α} (hf : IsFrame size f) (hg : IsFrame size g)
    (h : f ++ t = g ++ u) : f = g := by
  cases f with
  | nil => exact hf.elim
  | cons a f =>
      cases g with
      | nil => exact hg.elim
      | cons b g =>
          obtain ⟨rfl, -⟩ : a = b ∧ f ++ t = g ++ u := by simpa using h
          have hlen : (a :: f).length = (a :: g).length := Eq.trans hf.symm hg
          exact List.append_inj_left h hlen

/-- The maximal framing of a stream is unique. -/
theorem unique {stream : List α} {fs gs : List (List α)} {r r' : List α}
    (h : Frames size stream fs r) (h' : Frames size stream gs r') : fs = gs ∧ r = r' := by
  induction fs generalizing gs stream with
  | nil =>
      have hr : r = stream := by simpa using h.concat
      cases gs with
      | nil => exact ⟨rfl, hr.trans (by simpa using h'.concat.symm)⟩
      | cons g gs =>
          refine absurd (h'.complete g (by simp)) (h.maximal g (gs.flatten ++ r') ?_)
          rw [hr, ← h'.concat, List.flatten_cons, List.append_assoc]
  | cons f fs ih =>
      have hf : IsFrame size f := h.complete f (by simp)
      cases gs with
      | nil =>
          have hr : r' = stream := by simpa using h'.concat
          refine absurd hf (h'.maximal f (fs.flatten ++ r) ?_)
          rw [hr, ← h.concat, List.flatten_cons, List.append_assoc]
      | cons g gs =>
          have hg : IsFrame size g := h'.complete g (by simp)
          have heq : f ++ (fs.flatten ++ r) = g ++ (gs.flatten ++ r') := by
            have := h.concat.trans h'.concat.symm
            simpa [List.append_assoc] using this
          obtain rfl := frame_prefix_unique hf hg heq
          have htail : fs.flatten ++ r = gs.flatten ++ r' := List.append_cancel_left heq
          have hfs : Frames size (fs.flatten ++ r) fs r :=
            ⟨rfl, fun x hx => h.complete x (by simp [hx]), h.maximal⟩
          have hgs : Frames size (fs.flatten ++ r) gs r' :=
            ⟨htail.symm, fun x hx => h'.complete x (by simp [hx]), h'.maximal⟩
          obtain ⟨rfl, rfl⟩ := ih hfs hgs
          exact ⟨rfl, rfl⟩

/-- **Segmentation.** Framing the remainder after more cells have arrived continues the framing
of the whole stream. -/
theorem append {stream more : List α} {fs gs : List (List α)} {r r' : List α}
    (h : Frames size stream fs r) (h' : Frames size (r ++ more) gs r') :
    Frames size (stream ++ more) (fs ++ gs) r' where
  concat := by
    rw [List.flatten_append, List.append_assoc, h'.concat, ← List.append_assoc, h.concat]
  complete := by
    intro f hf
    rcases List.mem_append.mp hf with hf | hf
    · exact h.complete f hf
    · exact h'.complete f hf
  maximal := h'.maximal

/-- An incomplete frame is shorter than the largest frame. -/
theorem rest_length_lt {stream : List α} {fs : List (List α)} {r : List α} {m : Nat}
    (h : Frames size stream fs r) (hm : ∀ a, size a ≤ m) (hpos : 0 < m)
    (hvalid : ∀ a t, r = a :: t → size a ≠ 0) : r.length < m := by
  cases r with
  | nil => simpa using hpos
  | cons a t =>
      by_contra hlen
      have ha : size a ≤ m := hm a
      have hne : size a ≠ 0 := hvalid a t rfl
      have hle : size a - 1 ≤ t.length := by simp only [List.length_cons] at hlen; omega
      refine h.maximal (a :: t.take (size a - 1)) (t.drop (size a - 1)) (by simp) ?_
      show size a = (a :: t.take (size a - 1)).length
      simp only [List.length_cons, List.length_take, Nat.min_eq_left hle]
      omega

/-- **A stream of frames that has arrived in part.** The frames that are complete are framed; what is left is
a beginning of the others that is shorter than the first of them. -/
theorem of_beginning {fs : List (List α)} (hfs : ∀ f ∈ fs, IsFrame size f) {stream : List α}
    (hbegin : stream <+: fs.flatten) :
    ∃ done later rest, fs = done ++ later ∧ Frames size stream done rest ∧ rest <+: later.flatten ∧
      ∀ f, later.head? = some f → rest.length < f.length := by
  induction fs generalizing stream with
  | nil =>
      obtain rfl := List.prefix_nil.mp hbegin
      exact ⟨[], [], [], rfl, nil, List.prefix_rfl, fun _ h => nomatch h⟩
  | cons f fs ih =>
      have hf : IsFrame size f := hfs f List.mem_cons_self
      rw [List.flatten_cons] at hbegin
      by_cases hlength : f.length ≤ stream.length
      · obtain ⟨stream', rfl⟩ := List.prefix_of_prefix_length_le (List.prefix_append f _) hbegin hlength
        rw [List.prefix_append_right_inj] at hbegin
        obtain ⟨done, later, rest, rfl, hframes, hrest, hshort⟩ :=
          ih (fun g hg => hfs g (List.mem_cons_of_mem f hg)) hbegin
        exact ⟨f :: done, later, rest, rfl, hframes.cons hf, hrest, hshort⟩
      · refine ⟨[], f :: fs, stream, rfl, ?_, hbegin, fun g hg => ?_⟩
        · cases stream with
          | nil => exact nil
          | cons a t =>
              cases f with
              | nil => exact hf.elim
              | cons b g =>
                  obtain ⟨rfl, -⟩ := List.cons_prefix_cons.mp hbegin
                  have hsize : size a = (a :: g).length := hf
                  exact stuck (Or.inr (by rw [hsize]; exact Nat.lt_of_not_le hlength))
        · obtain rfl := Option.some.inj hg
          exact Nat.lt_of_not_le hlength

end Frames

end Mmocraft.Lib
