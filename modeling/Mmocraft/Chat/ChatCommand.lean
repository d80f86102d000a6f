/-
# Mmocraft.Chat.ChatCommand -- the commands of the chat server

`ChatCommand::execute` copies a command into a zeroed buffer of 64 bytes, and `parse_tokens` splits it in
place: every whitespace becomes a NUL, and a token is a pointer to the first character behind one.  The
loop goes over the whole buffer.  The padding is not whitespace for it, so a command that ends in
whitespace has an empty token more than it has words; and a word at the very end of a full buffer has no
NUL behind it.  In every other case the tokens are the words of the command.

Words are maximal runs without whitespace, stated without the loop (`Lib.Tokens`), and a token is compared
with a word as the C string that it points to. So both halves matter: where the tokens begin, and where each
of them ends.
-/
import Mmocraft.Lib.Memory
import Mmocraft.Lib.Tokens
import Mmocraft.Net.PacketFields

namespace Mmocraft.Chat

open Mmocraft.Lib Mmocraft.Lib.Tokens

/-! ## The tokenizer -/

/-- `is_whitespace`.  No `char` of 0x80 and above is whitespace, with or without a sign. -/
def isWhitespace (c : UInt8) : Bool := c == 0x20 || (0x9 ≤ c && c ≤ 0xD)

/-- `sizeof(_command)`. -/
def commandSize : Nat := Net.maxStringLength

/-- `_command` behind the `memcpy_s` of a command that it can hold. -/
def commandBuffer (command : List UInt8) : List UInt8 :=
  command ++ List.replicate (commandSize - command.length) 0

/-- What the loop of `parse_tokens` works on; a token is its offset in the buffer. -/
structure TokenScan where
  command : List UInt8
  tokens : List Nat
  tokenSplited : Bool
  deriving DecidableEq, Repr

/-- One turn of the loop. -/
def TokenScan.step (s : TokenScan) (i : Nat) : TokenScan :=
  match s.command[i]? with
  | none => s
  | some c =>
      if isWhitespace c then { s with command := s.command.set i 0, tokenSplited := true }
      else if s.tokenSplited then { s with tokens := s.tokens ++ [i], tokenSplited := false }
      else s

/-- `parse_tokens`. -/
def parseTokens (command : List UInt8) : TokenScan :=
  (List.range commandSize).foldl TokenScan.step ⟨command, [], true⟩

/-- The string that a pointer into the buffer stands for, if it ends inside the buffer. -/
def cString (buf : List UInt8) (pos : Nat) : Option (List UInt8) :=
  if 0 ∈ buf.drop pos then some ((buf.drop pos).takeWhile (· != 0)) else none

/-! ## The loop -/

/-- What the loop writes over a character. -/
def blank (c : UInt8) : UInt8 := if isWhitespace c then 0 else c

/-- What the loop has done when `seen` is behind it and `rest` is before it. -/
def scanned (seen rest : List UInt8) : TokenScan where
  command := seen.map blank ++ rest
  tokens := starts isWhitespace seen
  tokenSplited := closed isWhitespace seen

/-- One turn moves the scan over one character. -/
theorem step_scanned (seen : List UInt8) (c : UInt8) (rest : List UInt8) :
    (scanned seen (c :: rest)).step seen.length = scanned (seen ++ [c]) rest := by
  have hat : (scanned seen (c :: rest)).command[seen.length]? = some c := by simp [scanned]
  have hset : (scanned seen (c :: rest)).command.set seen.length 0 = seen.map blank ++ 0 :: rest := by
    simp [scanned]
  rw [TokenScan.step, hat]
  simp only [hset]
  rw [scanned, scanned, starts_append_singleton, closed_append_singleton]
  cases hc : isWhitespace c with
  | true => simp [blank, hc]
  | false =>
      cases hclosed : closed isWhitespace seen with
      | true => simp [blank, hc]
      | false => simp [blank, hc]

/-- **The loop.**  It blanks the whitespace and finds the words of the whole buffer. -/
theorem parseTokens_eq {buf : List UInt8} (h : buf.length = commandSize) :
    parseTokens buf = ⟨buf.map blank, starts isWhitespace buf, closed isWhitespace buf⟩ := by
  have hrun : ∀ n, n ≤ buf.length → (List.range n).foldl TokenScan.step ⟨buf, [], true⟩ =
      scanned (buf.take n) (buf.drop n) := by
    intro n
    induction n with
    | zero => intro _; rfl
    | succ n ih =>
        intro hn
        have hlength : (buf.take n).length = n := List.length_take_of_le (Nat.le_of_succ_le hn)
        have hstep := step_scanned (buf.take n) buf[n] (buf.drop (n + 1))
        rw [hlength, ← List.drop_eq_getElem_cons hn] at hstep
        rw [List.range_succ, List.foldl_append, ih (Nat.le_of_succ_le hn), List.take_add_one,
          List.getElem?_eq_getElem hn]
        exact hstep
  rw [parseTokens, ← h, hrun _ (Nat.le_refl _)]
  simp [scanned]

/-! ## The words of a command -/

/-- The text of a command: no NUL in it, and not longer than the buffer. -/
structure IsChatCommand (command : List UInt8) : Prop where
  slash : command.head? = some 0x2F
  length_le : command.length ≤ commandSize
  noNul : 0 ∉ command

instance (command : List UInt8) : Decidable (IsChatCommand command) :=
  decidable_of_iff (command.head? = some 0x2F ∧ command.length ≤ commandSize ∧ 0 ∉ command)
    ⟨fun h => ⟨h.1, h.2.1, h.2.2⟩, fun h => ⟨h.1, h.2, h.3⟩⟩

/-- The last character of the command is whitespace. -/
def endsInWhitespace (command : List UInt8) : Bool := command.getLast?.any isWhitespace

/-- The tokens are the words of the command from left to right, each a string inside the buffer. -/
structure FindsWords (command : List UInt8) (result : TokenScan) : Prop where
  inOrder : result.tokens.Pairwise (· < ·)
  words : ∀ t, t ∈ result.tokens ↔ ∃ stop, IsRun isWhitespace command t stop
  strings : ∀ t stop, IsRun isWhitespace command t stop →
    cString result.command t = some (Memory.read command t (stop - t))

theorem IsChatCommand.ne_nil {command : List UInt8} (h : IsChatCommand command) : command ≠ [] := by
  intro hnil
  have := h.slash
  rw [hnil] at this
  exact nomatch this

theorem IsChatCommand.closed_eq {command : List UInt8} (h : IsChatCommand command) :
    closed isWhitespace command = endsInWhitespace command := by
  rw [closed, endsInWhitespace, List.getLast?_eq_some_getLast h.ne_nil]
  rfl

theorem IsChatCommand.length_commandBuffer {command : List UInt8} (h : IsChatCommand command) :
    (commandBuffer command).length = commandSize := by
  have := h.length_le
  rw [commandBuffer, List.length_append, List.length_replicate]
  omega

/-- The padding opens a token when the command ends in whitespace. -/
theorem starts_commandBuffer {command : List UInt8} :
    starts isWhitespace (commandBuffer command) = starts isWhitespace command ++
      if command.length < commandSize ∧ closed isWhitespace command = true then [command.length]
      else [] := by
  rw [commandBuffer]
  cases hsize : commandSize - command.length with
  | zero =>
      have hfull : ¬ command.length < commandSize := by omega
      simp [hfull]
  | succ n =>
      have hroom : command.length < commandSize := by omega
      rw [starts_append_replicate command (by rfl)]
      simp [hroom]

/-- A string ends at the first NUL. -/
theorem cString_of_drop {buf str rest : List UInt8} {pos : Nat} (h : buf.drop pos = str ++ 0 :: rest)
    (hstr : 0 ∉ str) : cString buf pos = some str := by
  have hne : ∀ c ∈ str, (c != 0) = true := by
    intro c hc
    rw [bne_iff_ne]
    rintro rfl
    exact hstr hc
  rw [cString, h, if_pos (by simp), List.takeWhile_append_of_pos hne]
  simp

/-- The text of a run in the buffer that `parse_tokens` leaves. -/
theorem drop_blank_commandBuffer {command : List UInt8} {t stop : Nat}
    (h : IsRun isWhitespace command t stop) :
    ((commandBuffer command).map blank).drop t = Memory.read command t (stop - t) ++
      (command.drop stop ++ List.replicate (commandSize - command.length) 0).map blank := by
  have hle : t ≤ command.length := Nat.le_trans (Nat.le_of_lt h.nonempty) h.stop_le
  have hword : (Memory.read command t (stop - t)).map blank = Memory.read command t (stop - t) := by
    conv_rhs => rw [← List.map_id (Memory.read command t (stop - t))]
    apply List.map_congr_left
    intro c hc
    rw [blank, h.sep_eq_false hc]
    rfl
  have hsplit : command.drop t = Memory.read command t (stop - t) ++ command.drop stop := by
    have htake := List.take_append_drop (stop - t) (command.drop t)
    rw [List.drop_drop, Nat.add_sub_cancel' (Nat.le_of_lt h.nonempty)] at htake
    exact htake.symm
  rw [← List.map_drop, commandBuffer, List.drop_append_of_le_length hle, hsplit, List.append_assoc,
    List.map_append, hword]

theorem zero_not_mem_read {command : List UInt8} (h : 0 ∉ command) (t n : Nat) :
    0 ∉ Memory.read command t n := fun hmem => h (List.mem_of_mem_drop (List.mem_of_mem_take hmem))

/-- A word is a string when something stands behind it in the buffer: whitespace or padding. -/
theorem cString_of_run {command : List UInt8} (hnul : 0 ∉ command) {t stop : Nat}
    (h : IsRun isWhitespace command t stop) (hbehind : stop < command.length ∨ command.length < commandSize) :
    cString ((commandBuffer command).map blank) t = some (Memory.read command t (stop - t)) := by
  obtain ⟨rest, hrest⟩ : ∃ rest,
      (command.drop stop ++ List.replicate (commandSize - command.length) 0).map blank = 0 :: rest := by
    rcases Nat.lt_or_ge stop command.length with hlt | hge
    · have hspace : isWhitespace command[stop] = true := h.after _ (List.getElem?_eq_getElem hlt)
      rw [List.drop_eq_getElem_cons hlt, List.cons_append, List.map_cons, blank, hspace]
      exact ⟨_, rfl⟩
    · obtain ⟨n, hn⟩ : ∃ n, commandSize - command.length = n + 1 :=
        ⟨commandSize - command.length - 1, by omega⟩
      rw [List.drop_eq_nil_of_le hge, List.nil_append, hn, List.replicate_succ, List.map_cons]
      exact ⟨_, rfl⟩
  have hdrop := drop_blank_commandBuffer h
  rw [hrest] at hdrop
  exact cString_of_drop hdrop (zero_not_mem_read hnul t (stop - t))

/-- A word at the end of a full buffer is no string. -/
theorem cString_of_full {command : List UInt8} (hnul : 0 ∉ command) (hfull : command.length = commandSize)
    {t : Nat} (h : IsRun isWhitespace command t command.length) :
    cString ((commandBuffer command).map blank) t = none := by
  have hdrop := drop_blank_commandBuffer h
  rw [List.drop_length, hfull, Nat.sub_self, List.replicate_zero, List.append_nil, List.map_nil,
    List.append_nil] at hdrop
  rw [cString, hdrop, if_neg (zero_not_mem_read hnul _ _)]

/-- **`parse_tokens` finds the words** exactly when either the padding or a whitespace ends the last one,
and not both: the command ends in whitespace if and only if it fills the buffer. The buffer is filled with
zeros behind the command and scanned to its end, and a zero is no whitespace for the scan: behind a
whitespace it begins a word of its own. -/
theorem parseTokens_findsWords_iff {command : List UInt8} (h : IsChatCommand command) :
    FindsWords command (parseTokens (commandBuffer command)) ↔
      (endsInWhitespace command = true ↔ command.length = commandSize) := by
  rw [parseTokens_eq h.length_commandBuffer, starts_commandBuffer, h.closed_eq]
  have hlength := h.length_le
  constructor
  · intro hfinds
    constructor
    · intro hends
      by_contra hfull
      -- the token that the padding opens lies behind every run
      have hmem : command.length ∈ starts isWhitespace command ++
          if command.length < commandSize ∧ endsInWhitespace command = true then [command.length]
          else [] := by
        rw [if_pos ⟨by omega, hends⟩]
        simp
      obtain ⟨stop, hrun⟩ := (hfinds.words command.length).mp hmem
      exact absurd hrun.nonempty (Nat.not_lt.mpr hrun.stop_le)
    · intro hfull
      by_contra hends
      -- the last word has no NUL behind it
      obtain ⟨t, hrun⟩ : ∃ t, IsRun isWhitespace command t command.length := by
        apply exists_run_to_end
        rw [h.closed_eq]
        exact Bool.eq_false_iff.mpr hends
      have hstring := hfinds.strings t _ hrun
      rw [cString_of_full h.noNul hfull hrun] at hstring
      exact nomatch hstring
  · intro hcond
    have hnone : ¬ (command.length < commandSize ∧ endsInWhitespace command = true) := by
      rintro ⟨hroom, hends⟩
      exact absurd (hcond.mp hends) (Nat.ne_of_lt hroom)
    rw [if_neg hnone, List.append_nil]
    refine ⟨pairwise_starts command, fun t => mem_starts_iff, ?_⟩
    intro t stop hrun
    apply cString_of_run h.noNul hrun
    rcases Nat.lt_or_ge command.length commandSize with hroom | hfull
    · exact Or.inr hroom
    · -- the command ends in whitespace, so no word reaches its end
      have hends : closed isWhitespace command = true := by
        rw [h.closed_eq]
        exact hcond.mpr (Nat.le_antisymm hlength hfull)
      exact Or.inl (hrun.stop_lt hends)

/-- `/dm a b`. -/
theorem parseTokens_findsWords_directMessage :
    FindsWords [0x2F, 0x64, 0x6D, 0x20, 0x61, 0x20, 0x62]
      (parseTokens (commandBuffer [0x2F, 0x64, 0x6D, 0x20, 0x61, 0x20, 0x62])) :=
  (parseTokens_findsWords_iff (by decide)).mpr (by decide)

/-- `/dm a b` with a tab behind it: the padding is a fourth token. -/
theorem parseTokens_trailingTab :
    IsChatCommand [0x2F, 0x64, 0x6D, 0x20, 0x61, 0x20, 0x62, 0x09] ∧
      ¬ FindsWords [0x2F, 0x64, 0x6D, 0x20, 0x61, 0x20, 0x62, 0x09]
        (parseTokens (commandBuffer [0x2F, 0x64, 0x6D, 0x20, 0x61, 0x20, 0x62, 0x09])) := by
  refine ⟨by decide, fun hfinds => ?_⟩
  have hpadding :
      8 ∈ (parseTokens (commandBuffer [0x2F, 0x64, 0x6D, 0x20, 0x61, 0x20, 0x62, 0x09])).tokens := by
    rw [parseTokens_eq (by decide), starts_commandBuffer]
    decide
  obtain ⟨stop, hrun⟩ := (hfinds.words 8).mp hpadding
  exact absurd hrun.nonempty (Nat.not_lt.mpr hrun.stop_le)

end Mmocraft.Chat
