/-
# Mmocraft.Server.Extensions -- the negotiation of protocol extensions

A client announces a number of extensions and then sends that many entries.  The player counts the
entries down and moves on when the count reaches zero; on the way it registers the extensions that the
server supports in that version.  The count is compared only after it was decreased: a client without
extensions is never done.

Anything else can happen between the packets, as long as it leaves the player and its connection alone.

The condition is exact for every number of entries and every choice of them. What a client is sent while it
negotiates, and what it does not send in the order of the protocol, is not part of it.
-/
import Mathlib.Data.List.Induction
import Mmocraft.Net.PacketExtension
import Mmocraft.Server.Step

namespace Mmocraft

open Mmocraft.Lib Mmocraft.Game Mmocraft.Net

/-- An entry of the client: the name and the version of an extension. -/
abbrev ExtEntry := List UInt8 × BitVec 32

/-- The extension with the packet id `ext` is supported in the name and the version of the entry. -/
def ExtEntry.Supports (entry : ExtEntry) (ext : UInt8) : Prop :=
  (entry.1, { index := ext, version := entry.2 }) ∈ supportedCpeMap

instance (entry : ExtEntry) (ext : UInt8) : Decidable (entry.Supports ext) :=
  inferInstanceAs (Decidable (_ ∈ supportedCpeMap))

/-! ## The player -/

namespace Game.Player

/-- `is_supported_extension`. -/
def isSupportedExtension (player : Player) (ext : UInt8) : Bool :=
  player.supportedExtensions.getLsbD ext.toNat

/-- What an `ExtEntry` packet does to the player of its connection. -/
def receiveExtEntry (player : Player) (entry : ExtEntry) : Player :=
  let player := (match availableCpe entry.1 entry.2 with
    | some ext => player.registerExtension ext
    | none => player).decreasePendingExtensionCount
  if player.pendingExtensionCount = 0 then player.transitState else player

/-- The supported extensions have a place in the set. -/
theorem lt_of_supports {entry : ExtEntry} {ext : UInt8} (h : entry.Supports ext) : ext.toNat < 64 := by
  have hall : ∀ e ∈ supportedCpeMap, e.2.index.toNat < 64 := by decide
  exact hall _ h

/-- An extension is a bit of a 64-bit word. -/
theorem isSupportedExtension_registerExtension (player : Player) {new ext : UInt8}
    (hnew : new.toNat < 64) : (player.registerExtension new).isSupportedExtension ext = true ↔
      player.isSupportedExtension ext = true ∨ ext = new := by
  have hbit : (BitVec.ofNat 64 (1 <<< new.toNat)).getLsbD ext.toNat = true ↔ ext = new := by
    rw [BitVec.getLsbD_ofNat, Nat.one_shiftLeft, Nat.testBit_two_pow, Bool.and_eq_true,
      decide_eq_true_eq, decide_eq_true_eq, ← UInt8.toNat_inj]
    omega
  simp only [isSupportedExtension, registerExtension, BitVec.getLsbD_or, Bool.or_eq_true]
  exact or_congr_right hbit

/-- An entry registers what it names, if it is supported. -/
theorem isSupportedExtension_receiveExtEntry (player : Player) (entry : ExtEntry) (ext : UInt8) :
    (player.receiveExtEntry entry).isSupportedExtension ext = true ↔
      player.isSupportedExtension ext = true ∨ entry.Supports ext := by
  have hkept : (player.receiveExtEntry entry).isSupportedExtension ext =
      (match availableCpe entry.1 entry.2 with
        | some new => player.registerExtension new
        | none => player).isSupportedExtension ext := by
    unfold receiveExtEntry
    dsimp only
    split_ifs <;> rfl
  rw [hkept]
  cases havailable : availableCpe entry.1 entry.2 with
  | none =>
      have hnot : ¬ entry.Supports ext := fun h => by
        rw [availableCpe_eq_some_iff.mpr h] at havailable
        exact nomatch havailable
      simp only [hnot, or_false]
  | some new =>
      have hnew := availableCpe_eq_some_iff.mp havailable
      have hsame : entry.Supports ext ↔ ext = new := by
        constructor
        · intro h
          rw [availableCpe_eq_some_iff.mpr h, Option.some.injEq] at havailable
          exact havailable
        · rintro rfl
          exact hnew
      rw [isSupportedExtension_registerExtension player (lt_of_supports hnew), hsame]

/-- What an entry does to the count and to the states. -/
theorem receiveExtEntry_of_pending {player : Player} {count : Nat} (entry : ExtEntry)
    (hcount : count + 1 < 2 ^ 32) (hpending : player.pendingExtensionCount = BitVec.ofNat 32 (count + 1)) :
    (player.receiveExtEntry entry).pendingExtensionCount = BitVec.ofNat 32 count ∧
    (player.receiveExtEntry entry).nextState = player.nextState ∧
    (player.receiveExtEntry entry).state = if count = 0 then player.nextState else player.state := by
  have hdecreased : player.pendingExtensionCount - 1 = BitVec.ofNat 32 count := by
    have hone : (1 : BitVec 32).toNat = 1 := rfl
    rw [hpending]
    apply BitVec.eq_of_toNat_eq
    simp only [BitVec.toNat_sub, BitVec.toNat_ofNat, hone]
    omega
  have hzero : BitVec.ofNat 32 count = 0 ↔ count = 0 := by
    rw [← BitVec.toNat_inj, BitVec.toNat_ofNat, Nat.mod_eq_of_lt (by omega)]
    rfl
  have hregistered : ∀ q : Player, q = (match availableCpe entry.1 entry.2 with
      | some new => player.registerExtension new
      | none => player) → q.pendingExtensionCount = player.pendingExtensionCount ∧
        q.toPlayerState = player.toPlayerState := by
    rintro q rfl
    cases availableCpe entry.1 entry.2 with
    | none => exact ⟨rfl, rfl⟩
    | some new => exact ⟨rfl, rfl⟩
  obtain ⟨hsamePending, hsameState⟩ := hregistered _ rfl
  unfold receiveExtEntry
  generalize (match availableCpe entry.1 entry.2 with
      | some new => player.registerExtension new
      | none => player) = q at hsamePending hsameState ⊢
  have hnext : q.nextState = player.nextState := congrArg PlayerState.nextState hsameState
  have hstate : q.state = player.state := congrArg PlayerState.state hsameState
  have hq : q.decreasePendingExtensionCount.pendingExtensionCount = BitVec.ofNat 32 count := by
    show q.pendingExtensionCount - 1 = _
    rw [hsamePending, hdecreased]
  dsimp only
  rw [hq]
  rcases Nat.eq_zero_or_pos count with hlast | hmore
  · rw [if_pos (hzero.mpr hlast), if_pos hlast]
    exact ⟨hq, hnext, hnext⟩
  · have hne : count ≠ 0 := Nat.ne_of_gt hmore
    rw [if_neg fun h => hne (hzero.mp h), if_neg hne]
    exact ⟨hq, hnext, hstate⟩

/-- **The countdown.**  After fewer entries than were announced the player is where it was; the last one
moves it on.  What it has registered is what it had and what was supported. -/
theorem foldl_receiveExtEntry (player : Player) {count : Nat} (hcount : count < 2 ^ 32)
    (hpending : player.pendingExtensionCount = BitVec.ofNat 32 count) {entries : List ExtEntry}
    (hlength : entries.length ≤ count) :
    (entries.foldl receiveExtEntry player).pendingExtensionCount =
        BitVec.ofNat 32 (count - entries.length) ∧
      (entries.foldl receiveExtEntry player).nextState = player.nextState ∧
      (entries.foldl receiveExtEntry player).state =
        (if entries ≠ [] ∧ entries.length = count then player.nextState else player.state) ∧
      ∀ ext, (entries.foldl receiveExtEntry player).isSupportedExtension ext = true ↔
        player.isSupportedExtension ext = true ∨ ∃ entry ∈ entries, entry.Supports ext := by
  induction entries using List.reverseRecOn with
  | nil =>
      refine ⟨by rw [List.length_nil, Nat.sub_zero]; exact hpending, rfl, ?_, fun ext => ?_⟩
      · rw [if_neg fun h => h.1 rfl]
        rfl
      · simp
  | append_singleton entries entry ih =>
      rw [List.length_append, List.length_singleton] at hlength
      obtain ⟨hpending', hnext, hstate, hregistered⟩ := ih (by omega)
      -- the entry finds a count of at least one
      obtain ⟨rest, hrest⟩ : ∃ rest, count - entries.length = rest + 1 :=
        ⟨count - entries.length - 1, by omega⟩
      rw [hrest] at hpending'
      obtain ⟨hp, hn, hs⟩ := receiveExtEntry_of_pending entry (by omega) hpending'
      rw [List.foldl_append, List.foldl_cons, List.foldl_nil]
      refine ⟨?_, hn.trans hnext, ?_, fun ext => ?_⟩
      · rw [hp, List.length_append, List.length_singleton]
        congr 1
        omega
      · rw [hs, hnext, hstate, if_neg (show ¬ (entries ≠ [] ∧ entries.length = count) by omega)]
        have hne : entries ++ [entry] ≠ [] := by simp
        simp only [ne_eq, hne, not_false_eq_true, true_and, List.length_append, List.length_singleton]
        split_ifs <;> first | rfl | omega
      · rw [isSupportedExtension_receiveExtEntry, hregistered]
        simp only [List.mem_append, List.mem_singleton, or_and_right, exists_or, exists_eq_left, or_assoc]

end Game.Player

/-! ## The packets -/

/-- The packets of the client: the number of entries, and the entries. -/
def negotiation (entries : List ExtEntry) : List ClientPacket :=
  .extInfo (BitVec.ofNat 16 entries.length) :: entries.map fun entry => .extEntry entry.1 entry.2

namespace Server

/-- The connection in slot `i` is online and has the player `p`. -/
def HasOnlinePlayer (s : Server) (i p : Nat) : Prop :=
  ∃ conn, s.connection i = some conn ∧ conn.isOnline = true ∧ conn.player = some p

instance (s : Server) (i p : Nat) : Decidable (s.HasOnlinePlayer i p) :=
  decidable_of_iff ((s.connection i).any fun conn => conn.isOnline && conn.player == some p) <| by
    simp only [Option.any_eq_true_iff_get, HasOnlinePlayer, Bool.and_eq_true, beq_iff_eq]
    constructor
    · rintro ⟨hsome, hconn⟩
      exact ⟨_, (Option.some_get hsome).symm, hconn⟩
    · rintro ⟨conn, hconn, honline⟩
      simp only [hconn, Option.isSome_some, Option.get_some, exists_const]
      exact honline

/-- From `s` to `s'` other things have happened, to others. -/
structure Undisturbed (i p : Nat) (s s' : Server) : Prop where
  players_eq : s'.players p = s.players p
  online : s'.HasOnlinePlayer i p

/-- The client in slot `i`, with the player `p`, sends packets, and from `s` they lead to `t`. -/
inductive Receives (i p : Nat) : Server → List ClientPacket → Server → Prop
  | nil (s : Server) : Receives i p s [] s
  | cons {s s' t : Server} {packet : ClientPacket} {packets : List ClientPacket} (now : Nat)
      (accepted : Bool) (garbage : PlayerTypeId) (between : Undisturbed i p s s')
      (rest : Receives i p (s'.receivePacket i packet now accepted garbage) packets t) :
      Receives i p s (packet :: packets) t

section Packets

variable {s : Server} {i p : Nat} (now : Nat) (accepted : Bool) (garbage : PlayerTypeId)

/-- A packet updates the time of the last interaction first. -/
theorem interact_hasOnlinePlayer (h : s.HasOnlinePlayer i p) : (s.interact i now).HasOnlinePlayer i p := by
  obtain ⟨conn, hconn, honline, hplayer⟩ := h
  refine ⟨conn.updateLastInteractionTime now, ?_, honline, hplayer⟩
  simp only [interact, connection, ConnectionEnvironment.updateConnection,
    ConnectionEnvironment.updateEntry, Function.update_self]
  show (s.connection i).map _ = _
  rw [hconn]
  rfl

/-- `ExtInfo` sets the count of the player. -/
theorem receivePacket_extInfo (h : s.HasOnlinePlayer i p) (count : BitVec 16) :
    (s.receivePacket i (.extInfo count) now accepted garbage).players p =
        (s.players p).setExtensionCount count ∧
      (s.receivePacket i (.extInfo count) now accepted garbage).HasOnlinePlayer i p := by
  have hinteract := interact_hasOnlinePlayer now h
  obtain ⟨conn, hconn, honline, hplayer⟩ := h
  have heq : s.receivePacket i (.extInfo count) now accepted garbage =
      (s.interact i now).updatePlayer p (·.setExtensionCount count) := by
    simp only [receivePacket, hconn, honline, if_true, handlePacket, handleExtInfoPacket,
      Connection.updateLastInteractionTime, hplayer]
  rw [heq]
  exact ⟨Function.update_self .., hinteract⟩

/-- `ExtEntry` is handled by the player. -/
theorem receivePacket_extEntry (h : s.HasOnlinePlayer i p) (entry : ExtEntry) :
    (s.receivePacket i (.extEntry entry.1 entry.2) now accepted garbage).players p =
        (s.players p).receiveExtEntry entry ∧
      (s.receivePacket i (.extEntry entry.1 entry.2) now accepted garbage).HasOnlinePlayer i p := by
  have hinteract := interact_hasOnlinePlayer now h
  obtain ⟨conn, hconn, honline, hplayer⟩ := h
  have heq : s.receivePacket i (.extEntry entry.1 entry.2) now accepted garbage =
      (let s' := (s.interact i now).countExtEntry p entry.1 entry.2
       if (s'.players p).pendingExtensionCount = 0 then s'.transitState p .extensionSynced else s') := by
    simp only [receivePacket, hconn, honline, if_true, handlePacket, handleExtEntryPacket,
      Connection.updateLastInteractionTime, hplayer]
  rw [heq]
  have hcounted : ((s.interact i now).countExtEntry p entry.1 entry.2).players p =
      (match availableCpe entry.1 entry.2 with
        | some ext => (s.players p).registerExtension ext
        | none => s.players p).decreasePendingExtensionCount := Function.update_self ..
  dsimp only
  rw [hcounted]
  unfold Player.receiveExtEntry
  dsimp only
  split_ifs with hlast
  · refine ⟨?_, hinteract⟩
    rw [← hcounted]
    exact Function.update_self ..
  · exact ⟨hcounted, hinteract⟩

/-- The entries of a client, one after the other. -/
theorem Receives.extEntries {t : Server} {entries : List ExtEntry}
    (h : Receives i p s (entries.map fun entry => .extEntry entry.1 entry.2) t) :
    t.players p = entries.foldl Player.receiveExtEntry (s.players p) := by
  induction entries generalizing s with
  | nil =>
      cases h
      rfl
  | cons entry entries ih =>
      cases h with
      | cons now accepted garbage between rest =>
          obtain ⟨hplayers, -⟩ := receivePacket_extEntry now accepted garbage between.online entry
          rw [ih rest, hplayers, between.players_eq]
          rfl

/-- A negotiation, from the announced number on. -/
theorem Receives.extInfo {t : Server} {count : BitVec 16} {entries : List ExtEntry}
    (h : Receives i p s (.extInfo count :: entries.map fun entry => .extEntry entry.1 entry.2) t) :
    t.players p = entries.foldl Player.receiveExtEntry ((s.players p).setExtensionCount count) := by
  cases h with
  | cons now accepted garbage between rest =>
      obtain ⟨hplayers, -⟩ := receivePacket_extInfo now accepted garbage between.online count
      rw [Receives.extEntries rest, hplayers, between.players_eq]

/-- The entries can be sent. -/
theorem exists_receives_extEntries (h : s.HasOnlinePlayer i p) (entries : List ExtEntry) :
    ∃ t, Receives i p s (entries.map fun entry => .extEntry entry.1 entry.2) t := by
  induction entries generalizing s with
  | nil => exact ⟨s, .nil s⟩
  | cons entry entries ih =>
      obtain ⟨t, ht⟩ := ih (receivePacket_extEntry 0 true 0 h entry).2
      exact ⟨t, .cons 0 true 0 ⟨rfl, h⟩ ht⟩

/-- The negotiation can be sent. -/
theorem exists_receives_negotiation (h : s.HasOnlinePlayer i p) (entries : List ExtEntry) :
    ∃ t, Receives i p s (negotiation entries) t := by
  obtain ⟨t, ht⟩ := exists_receives_extEntries
    (receivePacket_extInfo 0 true 0 h (BitVec.ofNat 16 entries.length)).2 entries
  exact ⟨t, .cons 0 true 0 ⟨rfl, h⟩ ht⟩

end Packets

/-! ## The negotiation completes -/

/-- The negotiation of these entries leads the player to `extension_synced` with its last packet and not
before, with exactly the supported ones registered. -/
structure NegotiationCompletes (s : Server) (i p : Nat) (entries : List ExtEntry) : Prop where
  synced : ∀ t, Receives i p s (negotiation entries) t → (t.players p).state = .extensionSynced
  not_before : ∀ sent t, sent <+: negotiation entries → sent ≠ negotiation entries →
    Receives i p s sent t → (t.players p).state ≠ .extensionSynced
  registered : ∀ t, Receives i p s (negotiation entries) t →
    ∀ ext, (t.players p).isSupportedExtension ext = true ↔ ∃ entry ∈ entries, entry.Supports ext

/-- The announced number of at most 32767 extensions is counted down from. -/
theorem pendingExtensionCount_setExtensionCount (player : Player) {count : Nat} (hcount : count ≤ 32767) :
    (player.setExtensionCount (BitVec.ofNat 16 count)).pendingExtensionCount = BitVec.ofNat 32 count := by
  show (BitVec.ofNat 16 count).signExtend 32 = BitVec.ofNat 32 count
  -- the number is a signed `short`, so the top bit must be clear
  apply BitVec.eq_of_toInt_eq
  rw [BitVec.toInt_signExtend_of_le (by decide), BitVec.toInt_ofNat', BitVec.toInt_ofNat']
  simp only [Int.bmod]
  omega

/-- A part of the packets is nothing, or the number and a part of the entries. -/
theorem prefix_negotiation {entries : List ExtEntry} {sent : List ClientPacket}
    (h : sent <+: negotiation entries) (hne : sent ≠ negotiation entries) :
    sent = [] ∨ ∃ front : List ExtEntry, front.length < entries.length ∧
      sent = .extInfo (BitVec.ofNat 16 entries.length) ::
        front.map fun entry => .extEntry entry.1 entry.2 := by
  cases sent with
  | nil => exact Or.inl rfl
  | cons packet sent =>
      obtain ⟨rest, hrest⟩ := h
      rw [List.cons_append, negotiation, List.cons.injEq] at hrest
      obtain ⟨rfl, hrest⟩ := hrest
      obtain ⟨front, back, hentries, rfl, rfl⟩ := List.map_eq_append_iff.mp hrest.symm
      refine Or.inr ⟨front, ?_, rfl⟩
      rw [hentries, List.length_append]
      rcases back with _ | ⟨entry, back⟩
      · rw [List.append_nil] at hentries
        exact absurd (by rw [negotiation, hentries]) hne
      · rw [List.length_cons]
        omega

/-- **Extension negotiation completes** exactly if at least one extension is announced and nothing else was
registered before. The packets of the negotiation come in a row here, with anything in between that leaves
the player and its connection alone. -/
theorem negotiationCompletes_iff {s : Server} {i p : Nat} {entries : List ExtEntry}
    (hentries : entries.length ≤ 32767) (honline : s.HasOnlinePlayer i p)
    (hstate : (s.players p).state = .extensionSyncing)
    (hnext : (s.players p).nextState = .extensionSynced) :
    s.NegotiationCompletes i p entries ↔ 1 ≤ entries.length ∧
      ∀ ext, (s.players p).isSupportedExtension ext = true → ∃ entry ∈ entries, entry.Supports ext := by
  have hpending := pendingExtensionCount_setExtensionCount (s.players p) hentries
  have hlt : entries.length < 2 ^ 32 := by omega
  have hcountdown := fun (front : List ExtEntry) (hfront : front.length ≤ entries.length) =>
    Player.foldl_receiveExtEntry _ hlt hpending hfront
  constructor
  · intro h
    obtain ⟨t, ht⟩ := exists_receives_negotiation honline entries
    have hplayer : t.players p = _ := ht.extInfo
    obtain ⟨-, -, hsynced, hregistered⟩ := hcountdown entries (le_refl _)
    rw [← hplayer] at hsynced hregistered
    refine ⟨?_, fun ext hext => (h.registered t ht ext).mp ((hregistered ext).mpr (Or.inl hext))⟩
    rcases entries with _ | ⟨entry, entries⟩
    · -- the number alone leaves the player where it was
      rw [h.synced t ht, if_neg fun h => h.1 rfl] at hsynced
      exact absurd (hsynced.trans hstate) (by decide)
    · exact Nat.le_add_left 1 _
  · rintro ⟨hpos, hbefore⟩
    have hne : entries ≠ [] := List.ne_nil_of_length_pos hpos
    obtain ⟨-, -, hsynced, hregistered⟩ := hcountdown entries (le_refl _)
    refine ⟨fun t ht => ?_, fun sent t hsent hpart ht => ?_, fun t ht ext => ?_⟩
    · rw [ht.extInfo, hsynced, if_pos ⟨hne, rfl⟩]
      exact hnext
    · rcases prefix_negotiation hsent hpart with rfl | ⟨front, hfront, rfl⟩
      · cases ht
        rw [hstate]
        decide
      · -- fewer entries than announced
        obtain ⟨-, -, hwaiting, -⟩ := hcountdown front (by omega)
        rw [ht.extInfo, hwaiting, if_neg (show ¬ (front ≠ [] ∧ front.length = entries.length) by omega)]
        show (s.players p).state ≠ _
        rw [hstate]
        decide
    · rw [ht.extInfo, hregistered]
      exact ⟨fun h => h.elim (hbefore ext) id, Or.inr⟩

end Server

/-- A client with extensions is logged in as a guest, and the tick sends it those of the server. -/
def extensionLogin : List Event :=
  [.accept 0, .receive 0 (.handshake [97] [] ClientPacket.cpeMagicValue) 0 true 0,
    .response 0 { errorCode := ErrorCode.playerNotExist } 0 true, .tickPlayer 0 0 fun _ => true]

namespace Server

/-- Its player is syncing. -/
def extensionSyncing : Server := (run step small extensionLogin).getD small

/-- The run of that login. -/
theorem run_extensionLogin : run step small extensionLogin = some extensionSyncing :=
  run_getD (by decide +kernel)

/-- The facts about the player that the negotiation starts from. -/
theorem extensionSyncing_facts : extensionSyncing.HasOnlinePlayer 0 0 ∧
    (extensionSyncing.players 0).state = .extensionSyncing ∧
    (extensionSyncing.players 0).nextState = .extensionSynced ∧
    (extensionSyncing.players 0).supportedExtensions = 0 :=
  ⟨by decide +kernel, by decide +kernel, by decide +kernel, by decide +kernel⟩

/-- One extension that is supported and one that is not. -/
theorem negotiationCompletes_iff_two :
    extensionSyncing.NegotiationCompletes 0 0 [(twoWayPingExtension.1, 1), ([88], 1)] := by
  obtain ⟨honline, hstate, hnext, hnone⟩ := extensionSyncing_facts
  refine (negotiationCompletes_iff (by decide) honline hstate hnext).mpr ⟨by decide, fun ext hext => ?_⟩
  rw [Player.isSupportedExtension, hnone, show (0 : BitVec 64) = 0#64 from rfl, BitVec.getLsbD_zero] at hext
  exact nomatch hext

/-- A client that announces no extensions stays in `extension_syncing`. -/
theorem negotiation_stuck : run step small extensionLogin = some extensionSyncing ∧
    extensionSyncing.HasOnlinePlayer 0 0 ∧ (extensionSyncing.players 0).state = .extensionSyncing ∧
    (extensionSyncing.players 0).nextState = .extensionSynced ∧
    ¬ extensionSyncing.NegotiationCompletes 0 0 [] := by
  obtain ⟨honline, hstate, hnext, -⟩ := extensionSyncing_facts
  refine ⟨run_extensionLogin, honline, hstate, hnext, fun h => ?_⟩
  obtain ⟨t, ht⟩ := exists_receives_negotiation honline []
  have hstays : (t.players 0).state = (extensionSyncing.players 0).state := by
    rw [ht.extInfo]
    rfl
  rw [h.synced t ht, hstate] at hstays
  exact absurd hstays (by decide)

end Server

end Mmocraft
