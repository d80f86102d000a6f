/-
# Mmocraft.Server.SavedGamedata -- which documents the teardown writes

`PlayerGamedata::save` asks `is_support_gamedata_saving`, which accepts a player whose type is that
of a user, but also any player that is, or just was, in a live state.  Guests are live, and a user
has its type before its gamedata is loaded, so the documents are not always real.

They are real if logins end before players leave: a live player that is handed over to the teardown
is a user, one that still waits for its login is not, and nothing makes a player a user, or a waiting
user live, but its reply and its load.  The condition is about calls and the states in which they are
made; that a user which leaves has a uuid and a completed load is an invariant (`PlayerReal`), and
that it is saved only then follows.
-/
import Mmocraft.Server.History

namespace Mmocraft

open Mmocraft.Lib Mmocraft.Game Mmocraft.Net

/-! ## Real documents

A save writes what the player holds, under the uuid it holds. Whether that is real cannot be seen from the
document alone, so it is said with the history before it: the player had completed a load by then.
-/

/-- The record is the end of a gamedata load of player `p`. -/
def Record.CompletesLoad (p : Nat) : Record → Prop
  | .loaded q _ _ => q = p
  | _ => False

instance (p : Nat) : DecidablePred (Record.CompletesLoad p)
  | .loaded q _ _ => inferInstanceAs (Decidable (q = p))
  | .accepted .. | .state .. | .transit .. | .saveCalled _ | .document .. | .despawned _ | .logout ..
  | .offline _ | .responded .. | .authenticated .. => isFalse id

/-- The gamedata load of player `p` has completed. -/
def LoadCompleted (log : List Record) (p : Nat) : Prop := ∃ r ∈ log, r.CompletesLoad p

instance (log : List Record) (p : Nat) : Decidable (LoadCompleted log p) :=
  inferInstanceAs (Decidable (∃ r ∈ log, r.CompletesLoad p))

/-- A document of that type and uuid is real: it is a user's, it has a key, and the gamedata in it
has been loaded. -/
def SaveIsReal (log : List Record) (p : Nat) (type : PlayerTypeId) (uuid : List UInt8) : Prop :=
  PlayerTypeId.authenticatedUser ≤ type ∧ uuid ≠ [] ∧ LoadCompleted log p

instance (log : List Record) (p : Nat) (type : PlayerTypeId) (uuid : List UInt8) :
    Decidable (SaveIsReal log p type uuid) :=
  inferInstanceAs (Decidable (_ ≤ _ ∧ _ ≠ _ ∧ _))

/-- **Saved game data is real.** Every document was real when it was written. -/
def SavedReal (log : List Record) : Prop :=
  ∀ later earlier p type uuid gamedata, log = later ++ .document p type uuid gamedata :: earlier →
    SaveIsReal earlier p type uuid

/-- What a save of the player would write is real. -/
def SavesReal (log : List Record) (p : Nat) (player : Player) : Prop :=
  player.isSupportGamedataSaving = true → SaveIsReal log p player.playerType player.uuid

instance (log : List Record) (p : Nat) (player : Player) : Decidable (SavesReal log p player) :=
  inferInstanceAs (Decidable (_ = true → _))

/-- **Logins end before players leave.**  No live guest is handed over to the teardown, and no user that
still waits for the end of its login; a reply gives an identity, with a uuid, to a player that waits for
it; no extension entry moves a waiting user on; and the uninitialized type of a new player is not that of
a user. -/
def Server.LeavesAfterLogin (s : Server) : Server.Call → Prop
  | .setPlayer _ garbage => garbage < PlayerTypeId.authenticatedUser
  | .disconnect i => ∀ p ∈ s.handedOver i,
      ((s.players p).state.IsLive ↔ PlayerTypeId.authenticatedUser ≤ (s.players p).playerType)
  | .setIdentity p _ reply => (s.players p).state.IsHandshaking ∧ reply.playerUuid ≠ []
  | .transit p .extEntry => (s.players p).state.IsHandshaking →
      (s.players p).playerType < PlayerTypeId.authenticatedUser
  | _ => True

instance (s : Server) : (call : Server.Call) → Decidable (s.LeavesAfterLogin call)
  | .setPlayer _ garbage => inferInstanceAs (Decidable (garbage < PlayerTypeId.authenticatedUser))
  | .disconnect i => inferInstanceAs (Decidable (∀ p ∈ s.handedOver i,
      ((s.players p).state.IsLive ↔ PlayerTypeId.authenticatedUser ≤ (s.players p).playerType)))
  | .setIdentity p _ reply =>
      inferInstanceAs (Decidable ((s.players p).state.IsHandshaking ∧ reply.playerUuid ≠ []))
  | .transit p .extEntry => inferInstanceAs (Decidable ((s.players p).state.IsHandshaking →
      (s.players p).playerType < PlayerTypeId.authenticatedUser))
  | .transit _ (.guest _ _) | .transit _ (.loaded _ _) | .transit _ .level | .transit _ .spawn
  | .disconnectPlayer _ => instDecidableTrue

/-! ## The history of saves

The property is about every document in the list and the records behind it, so a new record matters only if
it is a document, and otherwise only adds to what is before later ones.
-/

theorem LoadCompleted.append {log : List Record} {p : Nat} (h : LoadCompleted log p)
    (later : List Record) : LoadCompleted (later ++ log) p := by
  obtain ⟨r, hr, hload⟩ := h
  exact ⟨r, List.mem_append_right _ hr, hload⟩

theorem SavesReal.append {log : List Record} {p : Nat} {player : Player}
    (h : SavesReal log p player) (later : List Record) : SavesReal (later ++ log) p player := by
  intro hsupport
  obtain ⟨htype, huuid, hload⟩ := h hsupport
  exact ⟨htype, huuid, hload.append later⟩

theorem savedReal_cons {r : Record} {log : List Record} (h : SavedReal log)
    (hr : ∀ p type uuid gamedata, r = .document p type uuid gamedata → SaveIsReal log p type uuid) :
    SavedReal (r :: log) := by
  intro later earlier p type uuid gamedata hlog
  cases later with
  | nil =>
      obtain ⟨rfl, rfl⟩ := List.cons.inj hlog
      exact hr p type uuid gamedata rfl
  | cons r' later =>
      obtain ⟨-, hlog⟩ := List.cons.inj hlog
      exact h later earlier p type uuid gamedata hlog

/-- Other records change nothing. -/
theorem SavedReal.append {log : List Record} (h : SavedReal log) (rs : List Record)
    (hrs : ∀ r ∈ rs, ∀ p type uuid gamedata, r ≠ .document p type uuid gamedata) :
    SavedReal (rs ++ log) := by
  induction rs with
  | nil => exact h
  | cons r rs ih =>
      have hrest := ih fun r' hr' => hrs r' (List.mem_cons_of_mem _ hr')
      refine savedReal_cons hrest fun p type uuid gamedata heq => ?_
      exact absurd heq (hrs r List.mem_cons_self p type uuid gamedata)

/-- Outside live states only a user's data is saved. -/
theorem isSupportGamedataSaving_of_not_live {player : Player} (hstate : ¬ player.state.IsLive)
    (hprev : ¬ player.prevState.IsLive) :
    player.isSupportGamedataSaving = true ↔ PlayerTypeId.authenticatedUser ≤ player.playerType := by
  simp only [Player.isSupportGamedataSaving, decide_eq_true_eq]
  exact ⟨fun h => h.resolve_right fun hlive => hlive.elim hstate hprev, Or.inl⟩

/-! ## The invariant

For each player: a user has a uuid, a live user a completed load, and a save of a player that leaves would
be real. The condition of the run is used where a player is handed over and where it gets its type and uuid;
at the save itself nothing is left to ask.
-/

/-- What is known of a player: a user has a uuid, a live one a completed load, and a save of a leaving
player would be real. -/
structure PlayerReal (log : List Record) (p : Nat) (player : Player) : Prop where
  uuid : PlayerTypeId.authenticatedUser ≤ player.playerType → player.uuid ≠ []
  loaded : player.state.IsLive → PlayerTypeId.authenticatedUser ≤ player.playerType →
    LoadCompleted log p
  leaving : player.state.IsLeaving → SavesReal log p player

/-- The player waits for its login and has not been live, or is live, or leaves; and it is on its way to
one of the latter two. -/
structure Underway (log : List Record) (p : Nat) (player : Player) : Prop where
  state : (player.state.IsHandshaking ∧ ¬ ReachedLive log p) ∨ player.state.IsLive ∨ player.state.IsLeaving
  next : player.nextState.IsLive ∨ player.nextState.IsLeaving

/-- The record makes no document, and no player live but `p`. -/
structure Record.Spares (p : Nat) (r : Record) : Prop where
  document : ∀ q type uuid gamedata, r ≠ .document q type uuid gamedata
  entersLive : ∀ q, r.EntersLive q → q = p

/-- The documents are real, and those of leaving players would be. -/
structure RealOk (s : Server) : Prop where
  player : ∀ p, PlayerReal s.log p (s.players p)
  underway : ∀ p < s.numOfPlayers, Underway s.log p (s.players p)
  log : SavedReal s.log

section Players

variable {log : List Record} {p : Nat} {player : Player}

theorem PlayerReal.append (h : PlayerReal log p player) (rs : List Record) :
    PlayerReal (rs ++ log) p player where
  uuid := h.uuid
  loaded hlive huser := (h.loaded hlive huser).append rs
  leaving hleaving := (h.leaving hleaving).append rs

/-- A player stays underway when records of others come. -/
theorem Underway.append (h : Underway log p player) (rs : List Record) (hrs : ∀ r ∈ rs, ¬ r.EntersLive p) :
    Underway (rs ++ log) p player where
  state := by
    refine h.state.imp_left fun ⟨hwaiting, hunreached⟩ => ⟨hwaiting, ?_⟩
    rintro ⟨r, hr, hlive⟩
    rcases List.mem_append.mp hr with hr | hr
    · exact hrs r hr hlive
    · exact hunreached ⟨r, hr, hlive⟩
  next := h.next

theorem PlayerReal.of_standing {player' : Player} (h : PlayerReal log p player)
    (hstanding : player.SameStanding player') : PlayerReal log p player' where
  uuid := by
    rw [hstanding.playerType, hstanding.uuid]
    exact h.uuid
  loaded := by
    rw [hstanding.state, hstanding.playerType]
    exact h.loaded
  leaving := by
    have hleaving := h.leaving
    simp only [SavesReal, Player.isSupportGamedataSaving] at hleaving ⊢
    rw [hstanding.state, hstanding.prevState, hstanding.playerType, hstanding.uuid]
    exact hleaving

theorem Underway.of_standing {player' : Player} (h : Underway log p player)
    (hstanding : player.SameStanding player') : Underway log p player' where
  state := by
    rw [hstanding.state]
    exact h.state
  next := by
    rw [hstanding.nextState]
    exact h.next

/-- **The save of a player that leaves after its login.**  What was live is a user with a uuid and a
completed load; what was not is no user, and is not saved. -/
theorem PlayerReal.handOver (h : PlayerReal log p player)
    (hlogin : player.state.IsLive ↔ PlayerTypeId.authenticatedUser ≤ player.playerType) :
    PlayerReal log p (player.prepareStateTransition .disconnecting .disconnected) where
  uuid := h.uuid
  loaded hlive := absurd (show State.IsLive .disconnecting from hlive) (by decide)
  leaving _ hsupport := by
    have huser : PlayerTypeId.authenticatedUser ≤ player.playerType := by
      rcases of_decide_eq_true hsupport with huser | hlive | hlive
      · exact huser
      · exact absurd (show State.IsLive .disconnecting from hlive) (by decide)
      · exact hlogin.mp hlive
    exact ⟨huser, h.uuid huser, h.loaded (hlogin.mpr huser) huser⟩

/-- A leaving player that moves on: afterwards only a user's data would be saved, and it would have
been before. -/
theorem savesReal_transitState (hsound : player.toPlayerState.IsSound)
    (h : player.state.IsLeaving → PlayerTypeId.authenticatedUser ≤ player.playerType →
      SaveIsReal log p player.playerType player.uuid)
    (hleaving : player.transitState.state.IsLeaving) : SavesReal log p player.transitState := by
  rcases hsound with htorn | ⟨-, hnext⟩
  · have hprev : ¬ player.transitState.prevState.IsLive := htorn.1.not_live
    intro hsupport
    exact h htorn.1 ((isSupportGamedataSaving_of_not_live hleaving.not_live hprev).mp hsupport)
  · exact absurd hleaving hnext

/-- Moving on, for a waiting user only once its load has completed. -/
theorem PlayerReal.transitState (h : PlayerReal log p player) (hunderway : Underway log p player)
    (hsound : player.toPlayerState.IsSound)
    (hload : player.state.IsHandshaking → PlayerTypeId.authenticatedUser ≤ player.playerType →
      LoadCompleted log p) : PlayerReal log p player.transitState where
  uuid := h.uuid
  loaded hlive huser := by
    rcases hunderway.state with ⟨hwaiting, -⟩ | hwas | hleaving
    · exact hload hwaiting huser
    · exact h.loaded hwas huser
    · -- what leaves is on its way to disconnected
      rw [Player.transitState_state, (hsound.tornDown hleaving).2] at hlive
      exact absurd hlive (by decide)
  leaving := savesReal_transitState hsound fun hleaving huser =>
    h.leaving hleaving (decide_eq_true (Or.inl huser))

theorem Underway.transitState (h : Underway log p player) (rs : List Record) :
    Underway (rs ++ log) p player.transitState := ⟨Or.inr h.next, h.next⟩

end Players

namespace RealOk

variable {s t : Server}

/-- At most one player changes, and no document is written. -/
theorem of_move (h : RealOk s) (p : Nat) (rs : List Record) (hlog : t.log = rs ++ s.log)
    (hrs : ∀ r ∈ rs, r.Spares p) (hothers : ∀ q, q ≠ p → t.players q = s.players q)
    (hnum : ∀ q, q ≠ p → q < t.numOfPlayers → q < s.numOfPlayers)
    (hself : PlayerReal t.log p (t.players p)) (hunderway : p < t.numOfPlayers → Underway t.log p (t.players p)) :
    RealOk t where
  player q := by
    by_cases hqp : q = p
    · exact hqp ▸ hself
    · rw [hothers q hqp, hlog]
      exact (h.player q).append rs
  underway q hq := by
    by_cases hqp : q = p
    · subst hqp
      exact hunderway hq
    · rw [hothers q hqp, hlog]
      exact (h.underway q (hnum q hqp hq)).append rs fun r hr hlive => hqp ((hrs r hr).entersLive q hlive)
  log := by
    rw [hlog]
    exact h.log.append rs fun r hr => (hrs r hr).document

/-- Only the history grows, by records that change no state. -/
theorem of_log (h : RealOk s) (rs : List Record) (hlog : t.log = rs ++ s.log)
    (hrs : ∀ r ∈ rs, (∀ q type uuid gamedata, r ≠ .document q type uuid gamedata) ∧ ∀ q, ¬ r.EntersLive q)
    (hplayers : t.players = s.players) (hnum : t.numOfPlayers = s.numOfPlayers) : RealOk t where
  player q := by
    rw [hplayers, hlog]
    exact (h.player q).append rs
  underway q hq := by
    rw [hplayers, hlog]
    exact (h.underway q (hnum ▸ hq)).append rs fun r hr => (hrs r hr).2 q
  log := by
    rw [hlog]
    exact h.log.append rs fun r hr => (hrs r hr).1

theorem record (h : RealOk s) {r : Record} (hdocument : ∀ q type uuid gamedata, r ≠ .document q type uuid gamedata)
    (hlive : ∀ q, ¬ r.EntersLive q) : RealOk (s.record r) := by
  refine h.of_log [r] rfl (fun r' hr' => ?_) rfl rfl
  rw [List.mem_singleton.mp hr']
  exact ⟨hdocument, hlive⟩

theorem quiet (h : RealOk s) (hq : Quiet s t) : RealOk t where
  player p := hq.log ▸ (h.player p).of_standing (hq.standing p)
  underway p hp := hq.log ▸ (h.underway p (hq.numOfPlayers ▸ hp)).of_standing (hq.standing p)
  log := hq.log ▸ h.log

/-- The records of a change of state make no other player live. -/
theorem spares_state (p : Nat) (st : State) : (Record.state p st).Spares p :=
  ⟨fun _ _ _ _ => Record.noConfusion, fun _ hlive => hlive.1.symm⟩

theorem spares_transit (p : Nat) (hint next : State) : (Record.transit p hint next).Spares p :=
  ⟨fun _ _ _ _ => Record.noConfusion, fun _ hlive => hlive.elim⟩

theorem transitState (h : RealOk s) (hB : HistoryOk s) {p : Nat} (hp : p < s.numOfPlayers) (hint : State)
    (hload : (s.players p).state.IsHandshaking →
      PlayerTypeId.authenticatedUser ≤ (s.players p).playerType → LoadCompleted s.log p) :
    RealOk (s.transitState p hint) := by
  have hself : (s.transitState p hint).players p = (s.players p).transitState := by
    rw [Server.transitState_players, if_pos rfl]
  refine h.of_move p [_, _] (Server.transitState_log s p hint) (fun r hr => ?_) (fun q hq => ?_) (fun _ _ hq => hq)
    ?_ fun _ => ?_
  · rcases List.mem_cons.mp hr with rfl | hr
    · exact spares_state p _
    · rw [List.mem_singleton.mp hr]
      exact spares_transit p hint _
  · rw [Server.transitState_players, if_neg hq]
  · rw [hself]
    exact ((h.player p).transitState (h.underway p hp) (hB.sound p hp) hload).append [_, _]
  · rw [hself]
    exact (h.underway p hp).transitState [_, _]

/-- A player that has been live does not wait for its login. -/
theorem transitReached (h : RealOk s) (hB : HistoryOk s) {p : Nat} (hreached : ReachedLive s.log p)
    (hint : State) : RealOk (s.transitState p hint) := by
  have hp := hB.reachedLive_lt hreached
  refine h.transitState hB hp hint fun hwaiting _ => ?_
  rcases (h.underway p hp).state with ⟨-, hunreached⟩ | hlive | hleaving
  · exact absurd hreached hunreached
  · exact absurd hlive hwaiting.not_live
  · exact absurd hwaiting hleaving.not_handshaking

/-- The world prepares a live player for something else than leaving. -/
theorem prepareNext (h : RealOk s) (p : Nat) {cur next : State} (hlive : (s.players p).state.IsLive)
    (hcur : cur.IsLive) (hnext : next.IsLive) : RealOk (s.prepareStateTransition p cur next) := by
  have hself : (s.prepareStateTransition p cur next).players p =
      (s.players p).prepareStateTransition cur next := by
    rw [Server.prepareStateTransition_players, if_pos rfl]
  refine h.of_move p [_] (Server.prepareStateTransition_log s p cur next) (fun r hr => ?_) (fun q hq => ?_)
    (fun _ _ hq => hq) ?_ fun _ => ?_
  · rw [List.mem_singleton.mp hr]
    exact spares_state p cur
  · rw [Server.prepareStateTransition_players, if_neg hq]
  · rw [hself]
    refine ⟨(h.player p).uuid, fun _ huser => ((h.player p).loaded hlive huser).append [_], fun hleaving => ?_⟩
    exact absurd hcur hleaving.not_live
  · rw [hself]
    exact ⟨Or.inr (Or.inl hcur), Or.inl hnext⟩

theorem disconnect (h : RealOk s) (i now : Nat) (hC : s.LeavesAfterLogin (.disconnect i)) :
    RealOk (s.disconnect i now) := by
  rcases s.disconnect_cases i now with heq | ⟨conn, p, hp, honline, hstate, heq⟩ |
    ⟨conn, -, -, -, heq⟩
  · rw [heq]
    exact h
  · have hself : (s.prepareStateTransition p .disconnecting .disconnected).players p =
        (s.players p).prepareStateTransition .disconnecting .disconnected := by
      rw [Server.prepareStateTransition_players, if_pos rfl]
    rw [heq]
    refine h.of_move p [_] (Server.prepareStateTransition_log s p _ _) (fun r hr => ?_) (fun q hq => ?_)
      (fun _ _ hq => hq) ?_ fun _ => ?_
    · rw [List.mem_singleton.mp hr]
      exact spares_state p _
    · rw [Server.prepareStateTransition_players, if_neg hq]
    · rw [hself]
      exact ((h.player p).handOver (hC p (Server.handedOver_eq_some hp honline hstate))).append [_]
    · rw [hself]
      exact ⟨Or.inr (Or.inr (Or.inl rfl)), Or.inr (Or.inr rfl)⟩
  · rw [heq]
    exact h.of_log [.offline conn.id] rfl (by simp [Record.EntersLive]) rfl rfl

/-- A new player waits for its login, and is no user. -/
theorem handshake (h : RealOk s) (hB : HistoryOk s) (i : Nat) (conn : Connection)
    (username password : List UInt8) (cpeMagic : UInt8) {garbage : PlayerTypeId}
    (hgarbage : garbage < PlayerTypeId.authenticatedUser) :
    RealOk (s.handleHandshakePacket i conn username password cpeMagic garbage) := by
  obtain ⟨cur, next, hstart, heq⟩ := s.handshake_eq i conn username password cpeMagic garbage
  have hnext : next.IsLive := by
    rcases hstart with ⟨-, rfl⟩ | ⟨-, rfl⟩ <;> decide
  have hself : (s.handleHandshakePacket i conn username password cpeMagic garbage).players s.numOfPlayers =
      (Player.new conn.connectionKey username garbage).prepareStateTransition cur next := by
    rw [heq]
    exact (s.construct_players i conn _ cur next s.numOfPlayers).trans (if_pos rfl)
  have hlog : (s.handleHandshakePacket i conn username password cpeMagic garbage).log =
      .state s.numOfPlayers cur :: s.log := by
    rw [heq]
    rfl
  have hnum : (s.handleHandshakePacket i conn username password cpeMagic garbage).numOfPlayers =
      s.numOfPlayers + 1 := by
    rw [heq]
    rfl
  refine h.of_move s.numOfPlayers [.state s.numOfPlayers cur] hlog (fun r hr => ?_) (fun q hq => ?_)
    (fun q hqn hq => ?_) ?_ fun _ => ?_
  · rw [List.mem_singleton.mp hr]
    exact spares_state _ cur
  · rw [heq]
    exact (s.construct_players i conn _ cur next q).trans (if_neg hq)
  · omega
  · rw [hself]
    have hnot : ¬ PlayerTypeId.authenticatedUser ≤ garbage := Int.not_le.mpr hgarbage
    exact ⟨fun huser => absurd huser hnot, fun _ huser => absurd huser hnot,
      fun hleaving => absurd hleaving hstart.not_leaving.1⟩
  · rw [hself, hlog]
    refine ⟨Or.inl ⟨hstart.isHandshaking, fun hreached => ?_⟩, Or.inl hnext⟩
    rcases reachedLive_cons.mp hreached with ⟨-, hlive⟩ | hreached
    · exact hstart.isHandshaking.not_live hlive
    · exact Nat.lt_irrefl _ (hB.reachedLive_lt hreached)

/-- The saves of the teardown are those of leaving players. -/
theorem savePlayerGamedata (h : RealOk s) {p : Nat} (hleaving : (s.players p).state.IsLeaving) :
    RealOk (s.savePlayerGamedata p) := by
  have hcalled : RealOk (s.record (.saveCalled p)) :=
    h.record (fun _ _ _ _ => Record.noConfusion) fun _ => id
  unfold Server.savePlayerGamedata
  show RealOk (if _ then _ else _)
  split_ifs with hsupport
  · refine ⟨fun q => (hcalled.player q).append [_], fun q hq => ?_, savedReal_cons hcalled.log ?_⟩
    · refine (hcalled.underway q hq).append [_] fun r hr hlive => ?_
      rw [List.mem_singleton.mp hr] at hlive
      exact hlive
    · intro q type uuid gamedata heq
      obtain ⟨rfl, rfl, rfl, rfl⟩ := Record.document.inj heq
      exact (hcalled.player p).leaving hleaving hsupport
  · exact hcalled

theorem disconnectRun (h : RealOk s) (hB : HistoryOk s) (ht : TableOk s) (o o' : Outcomes) :
    RealOk (s.runTask .disconnectPlayer o o') := by
  have hboth := Closed.disconnectRun_of_parts (P := fun s => HistoryOk s ∧ RealOk s)
    (fun _ hq hs => ⟨hs.1.quiet hq, hs.2.quiet hq⟩) ?_ ?_ ?_ ht ⟨hB, h⟩ o o'
  · exact hboth.2
  · intro s ds hds hs
    exact ⟨hs.1.record_despawned hds, hs.2.of_log _ rfl (by simp [Record.EntersLive]) rfl rfl⟩
  · intro s conn p _ hp _ hs
    obtain ⟨hlt, htorn⟩ := hs.1.disconnect_tornDown p (WorldPlayerTask.mem_players_of_target hp)
    have hBsaved := hs.1.savePlayerGamedata hlt
    have hsaved := hs.2.savePlayerGamedata htorn.1
    rw [Server.savePlayerGamedata_eq] at hBsaved hsaved ⊢
    -- what leaves does not wait for its login
    exact ⟨hBsaved.transitState hlt _, hsaved.transitState hBsaved hlt _ fun hwaiting _ =>
      absurd hwaiting htorn.1.not_handshaking⟩
  · intro s hs
    exact ⟨hs.1.finishDisconnect, ⟨hs.2.player, hs.2.underway, hs.2.log⟩⟩

/-- A guest is no user. -/
theorem admitGuest (h : RealOk s) (hB : HistoryOk s) {p : Nat} (hp : p < s.numOfPlayers)
    (request : LoginRequest) (reply : LoginReply) : RealOk (s.admitGuest p request reply) := by
  have hself : (s.admitGuest p request reply).players p =
      ((s.players p).setPlayerType PlayerTypeId.guest).transitState := by
    simp [Server.admitGuest, Server.transitState_players, Server.updatePlayer_players]
  have hnot : ¬ PlayerTypeId.authenticatedUser ≤ PlayerTypeId.guest := by decide
  refine h.of_move p [_, _, _] (Server.transitState_log ..) (fun r hr => ?_) (fun q hq => ?_) (fun _ _ hq => hq)
    ?_ fun _ => ?_
  · simp only [List.mem_cons, List.not_mem_nil, or_false] at hr
    rcases hr with rfl | rfl | rfl
    · exact spares_state p _
    · exact spares_transit p _ _
    · exact ⟨fun _ _ _ _ => Record.noConfusion, fun _ hlive => hlive.elim⟩
  · simp only [Server.admitGuest, Server.transitState_players, Server.record_players,
      Server.updatePlayer_players, if_neg hq]
  · rw [hself]
    exact ⟨fun huser => absurd huser hnot, fun _ huser => absurd huser hnot,
      savesReal_transitState (hB.sound p hp) fun _ huser => absurd huser hnot⟩
  · rw [hself]
    exact ⟨Or.inr (h.underway p hp).next, (h.underway p hp).next⟩

/-- The load of a login has completed when its player moves on. -/
theorem admitLoaded (h : RealOk s) (hB : HistoryOk s) {p : Nat} (hp : p < s.numOfPlayers)
    (load : GamedataLoad) (result : LoadResult) : RealOk (s.admitLoaded p load result) := by
  rw [Server.admitLoaded_eq]
  have hquiet := Quiet.updatePlayer s p (f := (Server.loadedGamedata · result))
    (Server.sameStanding_loadedGamedata (s.players p) result)
  have hloaded := (h.quiet hquiet).record (r := .loaded p load result)
    (fun _ _ _ _ => Record.noConfusion) fun _ => id
  have hBloaded : HistoryOk (((s.updatePlayer p (Server.loadedGamedata · result)).record
      (.loaded p load result)).record (.authenticated p load.request load.reply)) :=
    ((hB.quiet hquiet).record_loaded hp).record_authenticated hp
  refine (hloaded.record (fun _ _ _ _ => Record.noConfusion) fun _ => id).transitState hBloaded hp _ fun _ _ => ?_
  exact ⟨.loaded p load result, List.mem_cons_of_mem _ List.mem_cons_self, rfl⟩

/-- The identity of a reply, for a player that waits for it. -/
theorem setTypeAndUuid (h : RealOk s) (p : Nat) (type : PlayerTypeId) {uuid : List UInt8}
    (hwaiting : (s.players p).state.IsHandshaking) (huuid : uuid ≠ []) :
    RealOk (s.updatePlayer p fun player => (player.setPlayerType type).setUuid uuid) := by
  have hself : (s.updatePlayer p fun player => (player.setPlayerType type).setUuid uuid).players p =
      ((s.players p).setPlayerType type).setUuid uuid := by
    rw [Server.updatePlayer_players, if_pos rfl]
  refine h.of_move p [] rfl (fun _ hr => nomatch hr) (fun q hq => ?_) (fun _ _ hq => hq) ?_ fun hp => ?_
  · rw [Server.updatePlayer_players, if_neg hq]
  · rw [hself]
    exact ⟨fun _ => huuid, fun hlive => absurd hlive hwaiting.not_live,
      fun hleaving => absurd hwaiting hleaving.not_handshaking⟩
  · rw [hself]
    exact ⟨(h.underway p hp).state, (h.underway p hp).next⟩

theorem of_world (h : RealOk s) (world : World) : RealOk { s with world := world } :=
  ⟨h.player, h.underway, h.log⟩

theorem of_loads (h : RealOk s) (loads : List GamedataLoad) : RealOk { s with loads := loads } :=
  ⟨h.player, h.underway, h.log⟩

/-- The invariant survives every event whose calls respect the condition. -/
theorem closed : Closed HistoryOk RealOk Server.LeavesAfterLogin where
  quiet _ _ hq h := h.quiet hq
  interact _ _ _ _ _ h := ⟨h.player, h.underway, h.log⟩
  accept now _ _ _ h := by
    unfold Server.accept
    show RealOk (if _ then _ else _)
    split_ifs
    · exact h
    · exact h.of_log [_] rfl (by simp [Record.EntersLive]) rfl rfl
  delete _ _ _ _ h := ⟨h.player, h.underway, h.log⟩
  disconnect i now _ _ _ hC h := h.disconnect i now hC
  handshake username password cpeMagic _ _ hB _ _ hC h := h.handshake hB _ _ username password cpeMagic hC
  extEntry ht hB hp _ hC h := h.transitState hB (ht.player_lt _ _ _ hp) _ fun hwaiting huser =>
    absurd huser (Int.not_le.mpr (hC hwaiting))
  syncing _ _ _ _ hst h := h.prepareNext _ (hst ▸ by decide) (by decide) (by decide)
  levelWait _ _ _ _ hst h := by
    refine (h.prepareNext _ ?_ (by decide) (by decide)).of_world _
    rcases hst with hst | hst <;> rw [hst] <;> decide
  spawnWait _ _ _ _ hst h := (h.prepareNext _ (hst ▸ by decide) (by decide) (by decide)).of_world _
  pushDisconnect _ _ _ _ _ h := h.of_world _
  scheduleSpawn _ _ _ _ _ h := h.of_world _
  scheduleDisconnect _ _ _ _ _ h := h.of_world _
  scheduleLevel _ _ _ _ _ h := h.of_world _
  levelCallback _ hB hp _ _ h :=
    h.transitReached hB (hB.level_reached _ (WorldPlayerTask.mem_players_of_target hp)) _
  spawnCallback _ hB hp _ _ h :=
    h.transitReached hB (hB.spawn_reached _ (WorldPlayerTask.mem_players_of_target hp)) _
  finishLevel _ _ h := h.of_world _
  finishSpawn _ _ h := h.of_world _
  disconnectRun o o' ht hB _ _ h := h.disconnectRun hB ht o o'
  respond _ _ _ _ h := h.of_log [_] rfl (by simp [Record.EntersLive]) rfl rfl
  setIdentity _ _ _ _ _ _ _ hC h := h.setTypeAndUuid _ _ hC.1 hC.2
  guest ht hB hp _ _ _ _ _ h := h.admitGuest hB (ht.player_lt _ _ _ hp) _ _
  addLoad _ _ _ _ h := h.of_loads _
  takeLoad _ _ _ h := h.of_loads _
  loaded ht hB _ hp _ _ _ _ h :=
    (h.of_loads _).admitLoaded (hB.eraseLoad _) (ht.player_lt _ _ _ hp) _ _

theorem init (maxClients : Nat) (metadata : WorldMetadata) (blockMapping : List UInt8) :
    RealOk (Server.init maxClients metadata blockMapping) where
  player _ := by
    refine ⟨fun huser => ?_, fun hlive => ?_, fun hleaving => ?_⟩
    · exact absurd (show PlayerTypeId.authenticatedUser ≤ PlayerTypeId.invalid from huser) (by decide)
    · exact absurd (show State.initialized.IsLive from hlive) (by decide)
    · exact absurd (show State.initialized.IsLeaving from hleaving) (by decide)
  underway _ hp := nomatch hp
  log later earlier p type uuid gamedata hlog := by
    cases later <;> cases hlog

end RealOk

/-- **Saved game data is real** in every state reached by a run in which logins end before players leave.
Nothing is asked of the save itself: at a save the source looks at the type and the states of a player, and
that these mean a user, a uuid and a completed load is what the run has kept. -/
theorem Server.savedReal_of_run {maxClients : Nat} {metadata : WorldMetadata}
    {blockMapping : List UInt8} {es : List Event} {s : Server}
    (hrun : run Server.step (Server.init maxClients metadata blockMapping) es = some s)
    (hC : Along Server.step (Server.CallsMeet Server.LeavesAfterLogin)
      (Server.init maxClients metadata blockMapping) es) : SavedReal s.log := by
  obtain ⟨-, -, h⟩ := ((HistoryOk.closed.weaken _).inter RealOk.closed).run
    ⟨TableOk.init .., HistoryOk.init .., RealOk.init ..⟩ hC hrun
  exact h.log

/-- A user plays and leaves, and its gamedata is saved. -/
def userSession : List Event :=
  userLogin 1 ++ [.receiveError 0 1, .tickPlayer 0 2 fun _ => true] ++
  [.schedule .disconnectPlayer 3 true, .runTask .disconnectPlayer (fun _ => true) fun _ => true]

theorem Server.savedReal_of_run_userSession :
    ∃ s, run Server.step Server.small userSession = some s ∧ SavedReal s.log := by
  obtain ⟨s, hs⟩ := Option.isSome_iff_exists.mp
    (show (run Server.step Server.small userSession).isSome = true by decide)
  exact ⟨s, hs, Server.savedReal_of_run hs (by decide)⟩

/-- A guest is torn down as soon as it is admitted. -/
def guestLeaves : List Event :=
  guestLogin 0 ++ [.receiveError 0 1, .tickPlayer 0 2 fun _ => true] ++
  [.schedule .disconnectPlayer 3 true, .runTask .disconnectPlayer (fun _ => true) fun _ => true]

/-- A document is written for the guest, without a uuid. -/
theorem Server.not_savedReal_guestLeaves :
    ∃ s, run Server.step Server.small guestLeaves = some s ∧
      .document 0 PlayerTypeId.guest [] default ∈ s.log ∧ ¬ SavedReal s.log := by
  have hrun : ((run Server.step Server.small guestLeaves).map fun s =>
      decide (.document 0 PlayerTypeId.guest [] default ∈ s.log)) = some true := by decide
  obtain ⟨s, hs, heq⟩ := Option.map_eq_some_iff.mp hrun
  have hmem := of_decide_eq_true heq
  refine ⟨s, hs, hmem, fun h => ?_⟩
  obtain ⟨later, earlier, hlog⟩ := List.append_of_mem hmem
  exact (h later earlier 0 _ _ _ hlog).2.1 rfl

end Mmocraft
