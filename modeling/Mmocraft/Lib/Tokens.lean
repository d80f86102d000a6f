/-
# Mmocraft.Lib.Tokens -- the maximal runs between separators

A predicate marks the separators of a list.  `IsRun sep l start stop` says that the cells from `start` to
`stop` are a maximal nonempty run without a separator.  `starts sep l` computes where the runs begin, from
left to right and one cell after the other: a run begins at the first cell that is no separator while no
run is open.  A scan that keeps the one flag `closed` therefore finds every run.
-/
import Mathlib.Data.List.Induction
import Mathlib.Tactic.Common

namespace Mmocraft.Lib.Tokens

universe u

variable {α : Type u} {sep : α → Bool}

/-! ## Runs and where they begin -/

/-- No run is open behind the list: it is empty, or it ends in a separator. -/
def closed (sep : α → Bool) (l : List α) : Bool := l.getLast?.all sep

/-- The positions at which a run opens. -/
def starts (sep : α → Bool) (l : List α) : List Nat :=
  (List.range l.length).filter fun i => closed sep (l.take i) && !closed sep (l.take (i + 1))

/-- The cells from `start` to `stop` are a maximal run without a separator. -/
structure IsRun (sep : α → Bool) (l : List α) (start stop : Nat) : Prop where
  nonempty : start < stop
  stop_le : stop ≤ l.length
  inside : ∀ i, start ≤ i → i < stop → ∃ a, l[i]? = some a ∧ sep a = false
  before : closed sep (l.take start) = true
  after : ∀ a, l[stop]? = some a → sep a = true

/-- No cell of a run is a separator. -/
theorem IsRun.sep_eq_false {l : List α} {start stop : Nat} (h : IsRun sep l start stop) {a : α}
    (ha : a ∈ (l.drop start).take (stop - start)) : sep a = false := by
  obtain ⟨k, hk⟩ := List.mem_iff_getElem?.mp ha
  have hlt : k < stop - start :=
    Nat.lt_of_lt_of_le (List.getElem?_eq_some_iff.mp hk).1 (List.length_take_le _ _)
  obtain ⟨b, hb, hsep⟩ := h.inside (start + k) (Nat.le_add_right _ _) (by omega)
  rw [List.getElem?_take_of_lt hlt, List.getElem?_drop, hb] at hk
  rwa [← Option.some.inj hk]

@[simp] theorem closed_nil : closed sep [] = true := rfl

@[simp] theorem closed_append_singleton (l : List α) (a : α) : closed sep (l ++ [a]) = sep a := by
  simp [closed]

theorem closed_take_succ {l : List α} {i : Nat} {a : α} (h : l[i]? = some a) :
    closed sep (l.take (i + 1)) = sep a := by
  rw [List.take_add_one, h]
  exact closed_append_singleton (l.take i) a

/-! ## The scan -/

@[simp] theorem starts_nil : starts sep [] = [] := rfl

/-- One more cell opens a run when it is no separator and no run is open. -/
theorem starts_append_singleton (l : List α) (a : α) :
    starts sep (l ++ [a]) =
      starts sep l ++ if closed sep l && !sep a then [l.length] else [] := by
  have hfront : ∀ i, i ≤ l.length → (l ++ [a]).take i = l.take i := fun i hi =>
    List.take_append_of_le_length hi
  have hold : (List.range l.length).filter
      (fun i => closed sep ((l ++ [a]).take i) && !closed sep ((l ++ [a]).take (i + 1))) =
      starts sep l := by
    apply List.filter_congr
    intro i hi
    have hlt : i < l.length := List.mem_range.mp hi
    rw [hfront i (Nat.le_of_lt hlt), hfront (i + 1) hlt]
  have hnew : (l ++ [a]).take (l.length + 1) = l ++ [a] := by
    rw [List.take_of_length_le]
    simp
  rw [starts, List.length_append, List.length_singleton, List.range_succ, List.filter_append, hold]
  congr 1
  rw [List.filter_cons, List.filter_nil, hfront _ (Nat.le_refl _), hnew, List.take_length,
    closed_append_singleton]

/-- Cells that are no separators open one run at most, and only if none is open. -/
theorem starts_append_replicate (l : List α) {z : α} (hz : sep z = false) (n : Nat) :
    starts sep (l ++ List.replicate (n + 1) z) =
      starts sep l ++ if closed sep l then [l.length] else [] := by
  induction n with
  | zero => simp [starts_append_singleton, hz]
  | succ n ih =>
      have hopen : closed sep (l ++ List.replicate (n + 1) z) = false := by
        rw [List.replicate_succ', ← List.append_assoc, closed_append_singleton, hz]
      rw [List.replicate_succ', ← List.append_assoc, starts_append_singleton, ih, hopen]
      simp

/-- The runs are found from left to right. -/
theorem pairwise_starts (l : List α) : (starts sep l).Pairwise (· < ·) :=
  List.pairwise_lt_range.filter _

theorem lt_length_of_mem_starts {l : List α} {i : Nat} (h : i ∈ starts sep l) : i < l.length :=
  List.mem_range.mp (List.mem_filter.mp h).1

/-! ## The scan finds the runs -/

/-- A run that is open behind the list reaches its end. -/
theorem exists_run_to_end {l : List α} (h : closed sep l = false) :
    ∃ start, IsRun sep l start l.length := by
  induction l using List.reverseRecOn with
  | nil => exact absurd h (by simp)
  | append_singleton l a ih =>
      have ha : sep a = false := by simpa using h
      have hlast : (l ++ [a])[l.length]? = some a := by simp
      have hafter : ∀ b, (l ++ [a])[(l ++ [a]).length]? = some b → sep b = true := by simp
      cases hopen : closed sep l with
      | true =>
          refine ⟨l.length, by simp, Nat.le_refl _, ?_, ?_, hafter⟩
          · intro i hi hlt
            obtain rfl : i = l.length := by simp at hlt; omega
            exact ⟨a, hlast, ha⟩
          · simpa using hopen
      | false =>
          obtain ⟨start, hrun⟩ := ih hopen
          refine ⟨start, ?_, Nat.le_refl _, ?_, ?_, hafter⟩
          · have := hrun.nonempty
            simp
            omega
          · intro i hi hlt
            rcases Nat.lt_or_ge i l.length with hil | hil
            · obtain ⟨b, hb, hsep⟩ := hrun.inside i hi hil
              exact ⟨b, by rw [List.getElem?_append_left hil, hb], hsep⟩
            · obtain rfl : i = l.length := by simp at hlt; omega
              exact ⟨a, hlast, ha⟩
          · rw [List.take_append_of_le_length (Nat.le_of_lt hrun.nonempty)]
            exact hrun.before

/-- Behind a list with no open run, no run reaches its end. -/
theorem IsRun.stop_lt {l : List α} {start stop : Nat} (h : IsRun sep l start stop)
    (hclosed : closed sep l = true) : stop < l.length := by
  rcases Nat.lt_or_eq_of_le h.stop_le with hlt | rfl
  · exact hlt
  · -- the last cell would be in the run
    have hpos := h.nonempty
    obtain ⟨a, ha, hsep⟩ := h.inside (l.length - 1) (by omega) (by omega)
    rw [← List.getLast?_eq_getElem?] at ha
    rw [closed, ha, Option.all_some, hsep] at hclosed
    cases hclosed

/-- The run that is open behind a prefix goes on to the next separator. -/
theorem exists_stop {l : List α} {i : Nat} (hi : i < l.length)
    (h : closed sep (l.take (i + 1)) = false) :
    ∃ stop, i < stop ∧ stop ≤ l.length ∧
      (∀ j, i ≤ j → j < stop → ∃ a, l[j]? = some a ∧ sep a = false) ∧
      ∀ a, l[stop]? = some a → sep a = true := by
  induction hn : l.length - i generalizing i with
  | zero => omega
  | succ n ih =>
      obtain ⟨a, ha⟩ : ∃ a, l[i]? = some a := ⟨l[i], List.getElem?_eq_getElem hi⟩
      have hsep : sep a = false := by rwa [closed_take_succ ha] at h
      have hhere : ∀ j, i ≤ j → j < i + 1 → ∃ a, l[j]? = some a ∧ sep a = false := by
        intro j hij hj
        obtain rfl : j = i := by omega
        exact ⟨a, ha, hsep⟩
      cases hnext : l[i + 1]? with
      | none =>
          exact ⟨i + 1, by omega, hi, hhere, by simp [hnext]⟩
      | some b =>
          have hlt : i + 1 < l.length := (List.getElem?_eq_some_iff.mp hnext).1
          cases hb : sep b with
          | true =>
              refine ⟨i + 1, by omega, hi, hhere, ?_⟩
              intro c hc
              rw [hnext] at hc
              rwa [← Option.some.inj hc]
          | false =>
              obtain ⟨stop, hlt', hle, hin, hafter⟩ :=
                ih hlt (by rw [closed_take_succ hnext, hb]) (by omega)
              refine ⟨stop, by omega, hle, ?_, hafter⟩
              intro j hij hj
              rcases Nat.lt_or_ge j (i + 1) with hlow | hhigh
              · exact hhere j hij hlow
              · exact hin j hhigh hj

/-- **The scan finds every run**, and nothing else. -/
theorem mem_starts_iff {l : List α} {i : Nat} :
    i ∈ starts sep l ↔ ∃ stop, IsRun sep l i stop := by
  constructor
  · intro h
    have hopen := (List.mem_filter.mp h).2
    rw [Bool.and_eq_true, Bool.not_eq_true'] at hopen
    obtain ⟨stop, hlt, hle, hin, hafter⟩ := exists_stop (lt_length_of_mem_starts h) hopen.2
    exact ⟨stop, hlt, hle, hin, hopen.1, hafter⟩
  · rintro ⟨stop, hrun⟩
    obtain ⟨a, ha, hsep⟩ := hrun.inside i (Nat.le_refl _) hrun.nonempty
    refine List.mem_filter.mpr ⟨List.mem_range.mpr ?_, ?_⟩
    · exact Nat.lt_of_lt_of_le hrun.nonempty hrun.stop_le
    · rw [hrun.before, closed_take_succ ha, hsep]
      rfl

end Mmocraft.Lib.Tokens
