/-
# Mmocraft.Server.Phase -- the phases a player goes through

A player that has been live goes through the phases of `Phase`: it is live, it is handed over and
leaves, and the disconnect task makes it disconnected, after which its connection may go offline.
With each phase goes what the history tells of the player: its saves, its despawn records, and
whether it was spawned.  The lemmas say how the moves of the server change the phase of one player,
and which moves do not concern it.

A phase is a statement about one player, its connection, its place in the disconnect task and the history, and
all of them change in different moves; that is why it is followed as one proposition. A move that does not
concern the player at all is `Untouched`, whatever it does to others, and a run of the disconnect task is
divided by that into the round of the player and the rounds of the others.
-/
import Mathlib.Data.List.Count
import Mmocraft.Server.History

namespace Mmocraft

open Mmocraft.Lib Mmocraft.Game Mmocraft.Net

/-! ## What the history counts -/

/-- The record tells a state of player `p`, a save or a despawn. -/
def Record.Counts (p : Nat) : Record → Prop
  | .state q _ | .saveCalled q | .despawned q => q = p
  | _ => False

/-- The two histories tell the same of player `p`, as far as the teardown is concerned. -/
structure SameTally (p : Nat) (log log' : List Record) : Prop where
  reached : ReachedLive log' p ↔ ReachedLive log p
  saves : log'.count (.saveCalled p) = log.count (.saveCalled p)
  despawns : log'.count (.despawned p) = log.count (.despawned p)
  spawned : .state p .spawned ∈ log' ↔ .state p .spawned ∈ log

namespace SameTally

variable {p : Nat} {log log' log'' : List Record}

theorem refl (p : Nat) (log : List Record) : SameTally p log log := ⟨Iff.rfl, rfl, rfl, Iff.rfl⟩

theorem trans (h : SameTally p log log') (h' : SameTally p log' log'') : SameTally p log log'' :=
  ⟨h'.1.trans h.1, h'.2.trans h.2, h'.3.trans h.3, h'.4.trans h.4⟩

/-- Records that do not count change nothing. -/
theorem append (p : Nat) (rs : List Record) (hrs : ∀ r ∈ rs, ¬ r.Counts p) (log : List Record) :
    SameTally p log (rs ++ log) := by
  have hnot : ∀ r : Record, r.Counts p → r ∉ rs := fun r hr hmem => hrs r hmem hr
  refine ⟨?_, ?_, ?_, ?_⟩
  · constructor
    · rintro ⟨r, hr, hlive⟩
      rcases List.mem_append.mp hr with hr | hr
      · cases r with
        | state q st => exact absurd hr (hnot _ hlive.1)
        | _ => exact hlive.elim
      · exact ⟨r, hr, hlive⟩
    · exact fun h => h.append rs
  · rw [List.count_append, List.count_eq_zero_of_not_mem (hnot (.saveCalled p) rfl), Nat.zero_add]
  · rw [List.count_append, List.count_eq_zero_of_not_mem (hnot (.despawned p) rfl), Nat.zero_add]
  · rw [List.mem_append]
    exact or_iff_right (hnot (.state p .spawned) rfl)

end SameTally

/-- What a history tells after player `p` has entered a state. -/
theorem reachedLive_state_cons {p : Nat} {st : State} {log : List Record} :
    ReachedLive (.state p st :: log) p ↔ st.IsLive ∨ ReachedLive log p := by
  rw [reachedLive_cons]
  exact or_congr_left ⟨And.right, fun h => ⟨rfl, h⟩⟩

/-- Going offline after having been live means having been live. -/
theorem OfflineAfterLive.reached {conn p : Nat} {log : List Record}
    (h : OfflineAfterLive conn p log) : ReachedLive log p := by
  obtain ⟨later, earlier, rfl, hlive⟩ := offlineAfterLive_iff.mp h
  exact (hlive.append [_]).append later

/-! ## The phases of a player

A player awaits its login, is live, waits for the disconnect task, or has left, and for each phase it is
known how often it was saved and despawned so far, as counts in the history.
-/

/-- Where a player is on its way. -/
inductive Server.Phase (s : Server) (p : Nat) : Prop
  /-- The reply to its login is awaited. -/
  | waiting (unreached : ¬ ReachedLive s.log p)
      (states : IsHandshake (s.players p).state (s.players p).nextState)
      (saves : s.log.count (.saveCalled p) = 0) (despawns : s.log.count (.despawned p) = 0)
  /-- It leaves without ever having been live. -/
  | refused (unreached : ¬ ReachedLive s.log p) (leaving : (s.players p).state.IsLeaving)
  | live (reached : ReachedLive s.log p) (attached : s.Attached p)
      (states : (s.players p).state.IsLive ∧ (s.players p).nextState.IsLive)
      (saves : s.log.count (.saveCalled p) = 0) (despawns : s.log.count (.despawned p) = 0)
      (spawned : .state p .spawned ∈ s.log ↔ (s.players p).state = .spawned)
      (stays : (s.players p).state = .spawned → (s.players p).nextState = .spawned)
  /-- It waits for the disconnect task. -/
  | leaving (reached : ReachedLive s.log p) (attached : s.Attached p)
      (state : (s.players p).state = .disconnecting)
      (saves : s.log.count (.saveCalled p) = 0) (despawns : s.log.count (.despawned p) = 0)
      (spawned : .state p .spawned ∈ s.log ↔ (s.players p).prevState = .spawned)
  /-- It has been torn down. -/
  | left (reached : ReachedLive s.log p) (state : (s.players p).state = .disconnected)
      (prev : (s.players p).prevState ≠ .spawned) (saves : s.log.count (.saveCalled p) = 1)
      (despawns : s.log.count (.despawned p) = if .state p .spawned ∈ s.log then 1 else 0)

namespace Server.Phase

variable {s t : Server} {p : Nat}

/-- The phase of a player whose states, tally and connection stay is the same.  Only a player that
has been live and is not disconnected needs its connection. -/
theorem frame (h : Phase s p) (htally : SameTally p s.log t.log)
    (hstates : (t.players p).toPlayerState = (s.players p).toPlayerState)
    (hattached : ReachedLive s.log p → (s.players p).state ≠ .disconnected → s.Attached p →
      t.Attached p) : Phase t p := by
  have hprev : (t.players p).prevState = (s.players p).prevState :=
    congrArg PlayerState.prevState hstates
  have hstate : (t.players p).state = (s.players p).state := congrArg PlayerState.state hstates
  have hnext : (t.players p).nextState = (s.players p).nextState :=
    congrArg PlayerState.nextState hstates
  cases h with
  | waiting unreached states saves despawns =>
      refine waiting (htally.reached.not.mpr unreached) ?_ (htally.saves.trans saves)
        (htally.despawns.trans despawns)
      rwa [hstate, hnext]
  | refused unreached leaving =>
      exact refused (htally.reached.not.mpr unreached) (hstate ▸ leaving)
  | live reached attached states saves despawns spawned stays =>
      have hne : (s.players p).state ≠ .disconnected := fun heq =>
        State.IsLeaving.not_live (Or.inr heq) states.1
      refine live (htally.reached.mpr reached) (hattached reached hne attached) ?_ (htally.saves.trans saves)
        (htally.despawns.trans despawns) ?_ ?_
      · rwa [hstate, hnext]
      · rwa [htally.spawned, hstate]
      · rwa [hstate, hnext]
  | leaving reached attached state saves despawns spawned =>
      refine leaving (htally.reached.mpr reached) (hattached reached ?_ attached)
        (hstate.trans state) (htally.saves.trans saves) (htally.despawns.trans despawns) ?_
      · rw [state]
        decide
      · rwa [htally.spawned, hprev]
  | left reached state prev saves despawns =>
      refine left (htally.reached.mpr reached) (hstate.trans state) (hprev ▸ prev)
        (htally.saves.trans saves) ?_
      rw [htally.despawns, despawns]
      simp only [htally.spawned]

/-- `transit_state` keeps a player on its path, unless it waits for the disconnect task. -/
theorem transitState (h : Phase s p) (hB : HistoryOk s) (hp : p < s.numOfPlayers)
    (hattached : s.Attached p ∨ ReachedLive s.log p)
    (hC : ReachedLive s.log p → (s.players p).state ≠ .disconnecting) (hint : State) :
    Phase (s.transitState p hint) p := by
  have hself : (s.transitState p hint).players p = (s.players p).transitState := by
    rw [Server.transitState_players, if_pos rfl]
  have hstays : s.Attached p → (s.transitState p hint).Attached p :=
    (Server.attached_of_env rfl p).mpr
  have hreached : ReachedLive (s.transitState p hint).log p ↔
      (s.players p).nextState.IsLive ∨ ReachedLive s.log p := by
    rw [Server.transitState_log, reachedLive_state_cons, reachedLive_cons]
    simp [Record.EntersLive]
  have hspawned : .state p .spawned ∈ (s.transitState p hint).log ↔
      (s.players p).nextState = .spawned ∨ .state p .spawned ∈ s.log := by
    simp [eq_comm]
  have hsaves : (s.transitState p hint).log.count (.saveCalled p) = s.log.count (.saveCalled p) := by
    simp
  have hdespawns : (s.transitState p hint).log.count (.despawned p) =
      s.log.count (.despawned p) := by simp
  cases h with
  | waiting unreached states saves despawns =>
      have hnext : (s.players p).nextState.IsLive ∧ (s.players p).nextState ≠ .spawned := by
        rcases states with ⟨-, hnext⟩ | ⟨-, hnext⟩ <;> rw [hnext] <;> decide
      -- it becomes live with this transition, and was not spawned before
      have hnever : .state p .spawned ∉ s.log := fun hmem =>
        unreached (ReachedLive.of_state hmem (by decide))
      refine live (hreached.mpr (Or.inl hnext.1)) (hstays (hattached.resolve_right unreached)) ?_
        (hsaves.trans saves) (hdespawns.trans despawns) ?_ ?_ <;> rw [hself]
      · exact ⟨hnext.1, hnext.1⟩
      · rw [hspawned]
        exact or_iff_left hnever
      · exact fun heq => heq
  | refused unreached leaving =>
      have htorn := (hB.sound p hp).tornDown leaving
      have hnext : (s.players p).nextState = .disconnected := htorn.2
      refine refused ?_ ?_
      · rw [hreached, hnext]
        exact not_or.mpr ⟨by decide, unreached⟩
      · rw [hself]
        exact htorn.transitState.1
  | live reached attached states saves despawns spawned stays =>
      refine live (hreached.mpr (Or.inr reached)) (hstays attached) ?_ (hsaves.trans saves)
        (hdespawns.trans despawns) ?_ ?_ <;> rw [hself]
      · exact ⟨states.2, states.2⟩
      · rw [hspawned, spawned]
        exact or_iff_left_of_imp stays
      · exact fun heq => heq
  | leaving reached attached state saves despawns spawned => exact absurd state (hC reached)
  | left reached state prev saves despawns =>
      have hnext : (s.players p).nextState = .disconnected :=
        ((hB.sound p hp).tornDown (Or.inr state)).2
      refine left (hreached.mpr (Or.inr reached)) ?_ ?_ (hsaves.trans saves) ?_
      · rw [hself]
        exact hnext
      · rw [hself, Player.transitState_prevState, state]
        decide
      · rw [hdespawns, despawns]
        simp only [hspawned, hnext]
        simp

/-- The world prepares a live player that is not spawned. -/
theorem prepareNext (h : Phase s p) {cur next : State}
    (hstate : (s.players p).state.IsLive ∧ (s.players p).state ≠ .spawned)
    (hcur : cur.IsLive ∧ cur ≠ .spawned)
    (hnext : next.IsLive) : Phase (s.prepareStateTransition p cur next) p := by
  have hself : (s.prepareStateTransition p cur next).players p =
      (s.players p).prepareStateTransition cur next := by
    rw [Server.prepareStateTransition_players, if_pos rfl]
  cases h with
  | waiting _ states => exact absurd hstate.1 states.isHandshaking.not_live
  | refused _ leaving => exact absurd hstate.1 leaving.not_live
  | live reached attached states saves despawns spawned stays =>
      refine live (reached.append [_]) ((Server.attached_of_env rfl p).mpr attached) ?_ ?_ ?_ ?_ ?_
      · rw [hself]
        exact ⟨hcur.1, hnext⟩
      · simpa using saves
      · simpa using despawns
      · rw [hself]
        simp [spawned, hstate.2, hcur.2, Ne.symm hcur.2]
      · rw [hself]
        exact fun heq => absurd heq hcur.2
  | leaving _ _ state => exact absurd hstate.1 (State.IsLeaving.not_live (Or.inl state))
  | left _ state => exact absurd hstate.1 (State.IsLeaving.not_live (Or.inr state))

/-- `disconnect` hands a player over to the world. -/
theorem handOver (h : Phase s p) (hstate : State.handshaking ≤ (s.players p).state) :
    Phase (s.prepareStateTransition p .disconnecting .disconnected) p := by
  have hself : (s.prepareStateTransition p .disconnecting .disconnected).players p =
      (s.players p).prepareStateTransition .disconnecting .disconnected := by
    rw [Server.prepareStateTransition_players, if_pos rfl]
  have hreached : ReachedLive (s.prepareStateTransition p .disconnecting .disconnected).log p ↔
      ReachedLive s.log p := by
    rw [Server.prepareStateTransition_log, reachedLive_state_cons]
    exact or_iff_right (by decide)
  have hnot : ¬ (s.players p).state.IsLeaving := by
    rintro (heq | heq) <;> rw [heq] at hstate <;> exact absurd hstate (by decide)
  cases h with
  | waiting unreached states =>
      refine refused (hreached.not.mpr unreached) ?_
      rw [hself]
      exact Or.inl rfl
  | refused _ leaving => exact absurd leaving hnot
  | live reached attached states saves despawns spawned stays =>
      refine leaving (hreached.mpr reached)
        ((Server.attached_of_env rfl p).mpr attached) ?_ ?_ ?_ ?_
      · rw [hself]
        rfl
      · simpa using saves
      · simpa using despawns
      · rw [hself]
        simpa using spawned
  | leaving _ _ state => exact absurd (Or.inl state) hnot
  | left _ state => exact absurd (Or.inr state) hnot

end Server.Phase

/-! ## One run of the disconnect task

The run saves its players one after the other and despawns those that were spawned, in one packet. A player
that is in the list once and still waits for it is taken through both.
-/

/-- From `s` to `t` nothing happens to player `p`, as far as the teardown is concerned. -/
structure Untouched (p : Nat) (s t : Server) : Prop where
  tally : SameTally p s.log t.log
  states : (t.players p).toPlayerState = (s.players p).toPlayerState
  shape : SameShape s t

namespace Untouched

variable {p : Nat} {s t u : Server}

theorem refl (p : Nat) (s : Server) : Untouched p s s := ⟨SameTally.refl p _, rfl, SameShape.refl s⟩

theorem trans (hst : Untouched p s t) (htu : Untouched p t u) : Untouched p s u :=
  ⟨hst.1.trans htu.1, htu.2.trans hst.2, hst.3.trans htu.3⟩

/-- A quiet change touches nobody. -/
theorem of_quiet (hq : Quiet s t) : Untouched p s t where
  tally := hq.log ▸ SameTally.refl p s.log
  states := (hq.standing p).toPlayerState
  shape := hq.sameShape

/-- A record that does not count for the player. -/
theorem record (s : Server) {r : Record} (hr : ¬ r.Counts p) : Untouched p s (s.record r) := by
  refine ⟨SameTally.append p [r] ?_ s.log, rfl, SameShape.record s r⟩
  intro r' hr'
  rw [List.mem_singleton.mp hr']
  exact hr

/-- Data of a player beside its state and the key of its connection. -/
theorem updatePlayer (s : Server) (q : Nat) {f : Player → Player}
    (hf : (f (s.players q)).toPlayerState = (s.players q).toPlayerState)
    (hkey : (f (s.players q)).connectionKey = (s.players q).connectionKey) :
    Untouched p s (s.updatePlayer q f) := by
  refine ⟨SameTally.refl p s.log, ?_, SameShape.updatePlayer s q hkey⟩
  rw [Server.updatePlayer_players]
  split_ifs with hpq
  · rw [hf, hpq]
  · rfl

/-- Nobody is attached or detached. -/
theorem attached (h : Untouched p s t) (q : Nat) : t.Attached q ↔ s.Attached q :=
  Server.attached_of_env h.shape.connectionEnv q

theorem tryAcquireOf (h : Untouched p s t) (q : Nat) : t.tryAcquireOf q = s.tryAcquireOf q := by
  rw [Server.tryAcquireOf, Server.tryAcquireOf, Server.tryAcquireConnection,
    Server.tryAcquireConnection, h.shape.connectionEnv, h.shape.connectionKey]

/-- A round of the teardown touches a player only if it is its own and the connection can be
acquired. -/
theorem teardownPlayer (s : Server) {p q : Nat} (h : p = q → s.tryAcquireOf p = none) :
    Untouched p s (s.teardownPlayer q) := by
  unfold Server.teardownPlayer
  cases hacq : s.tryAcquireOf q with
  | none => exact refl p s
  | some conn =>
      have hne : p ≠ q := by
        rintro rfl
        rw [h rfl] at hacq
        cases hacq
      have hshape := SameShape.teardownPlayer s q
      simp only [Server.teardownPlayer, hacq] at hshape
      refine ⟨?_, ?_, hshape⟩
      · rw [Server.transitState_log, Server.savePlayerGamedata_eq]
        refine (SameTally.append p _ ?_ s.log).trans (SameTally.append p [_, _] ?_ _)
        · intro r hr hcounts
          simp only [Server.savedRecords] at hr
          split_ifs at hr <;> simp only [List.mem_append, List.mem_singleton, List.not_mem_nil,
            false_or] at hr
          · rcases hr with rfl | rfl
            · exact hcounts
            · exact hne hcounts.symm
          · rw [hr] at hcounts
            exact hne hcounts.symm
        · intro r hr hcounts
          rcases List.mem_pair.mp hr with rfl | rfl
          · exact hne hcounts.symm
          · exact hcounts
      · rw [Server.transitState_players, if_neg hne, Server.savePlayerGamedata_eq]

/-- The second loop of the teardown, for a player that is not in the list or has no connection. -/
theorem foldl (players : List Nat) (s : Server) (h : p ∈ players → s.tryAcquireOf p = none) :
    Untouched p s (players.foldl Server.teardownPlayer s) := by
  induction players generalizing s with
  | nil => exact refl p s
  | cons q qs ih =>
      have hone : Untouched p s (s.teardownPlayer q) :=
        teardownPlayer s fun heq => h (heq ▸ List.mem_cons_self)
      refine hone.trans (ih _ fun hmem => ?_)
      rw [hone.tryAcquireOf]
      exact h (List.mem_cons_of_mem q hmem)

/-- The broadcast of the despawn records of other players. -/
theorem despawnPlayer (s : Server) (players : List Nat) (h : p ∉ players) (o : Outcomes) :
    Untouched p s (s.despawnPlayer players o) := by
  have hlog : Untouched p s { s with log := players.map .despawned ++ s.log } := by
    refine ⟨SameTally.append p _ ?_ s.log, rfl, SameShape.of_rfl rfl rfl rfl rfl rfl⟩
    intro r hr hcounts
    obtain ⟨q, hq, rfl⟩ := List.mem_map.mp hr
    obtain rfl : q = p := hcounts
    exact h hq
  exact hlog.trans (of_quiet (Quiet.sendToPlayers _ Quiet.noCallback _ _ _))

/-- The task as a whole, for a player that it does not have to save and that is not spawned. -/
theorem disconnectPlayer (s : Server) {players : List Nat} (o : Outcomes)
    (h : p ∈ players → s.tryAcquireOf p = none ∧ (s.players p).prevState ≠ .spawned) :
    Untouched p s (s.disconnectPlayer players o) := by
  have hdespawn := despawnPlayer (p := p) s
    (players.filter fun p => decide (State.spawned ≤ (s.players p).prevState)) (fun hmem => by
      obtain ⟨hp, hprev⟩ := List.mem_filter.mp hmem
      exact (h hp).2 (State.spawned_le_iff.mp (of_decide_eq_true hprev))) o
  refine hdespawn.trans (foldl players _ fun hp => ?_)
  rw [hdespawn.tryAcquireOf]
  exact (h hp).1

end Untouched

namespace Server.Phase

variable {s t : Server} {p : Nat}

/-- A player that is not touched stays in its phase. -/
theorem untouched (h : s.Phase p) (hq : Untouched p s t) : t.Phase p :=
  h.frame hq.tally hq.states fun _ _ => (hq.attached p).mpr

/-- The round of the task that saves a waiting player. -/
theorem saved (reached : ReachedLive s.log p) (state : (s.players p).state = .disconnecting)
    (next : (s.players p).nextState = .disconnected) (saves : s.log.count (.saveCalled p) = 0)
    (despawns : s.log.count (.despawned p) = if .state p .spawned ∈ s.log then 1 else 0) :
    ((s.savePlayerGamedata p).transitState p .disconnected).Phase p := by
  rw [Server.savePlayerGamedata_eq]
  set u : Server := { s with log := s.savedRecords p ++ s.log } with hu
  have hself : (u.transitState p .disconnected).players p = (s.players p).transitState := by
    rw [Server.transitState_players, if_pos rfl]
  have hnext : (u.players p).nextState = .disconnected := next
  have hreached : ReachedLive u.log p := reached.append _
  have hsaves : u.log.count (.saveCalled p) = 1 := by
    rw [hu, List.count_append, saves]
    unfold Server.savedRecords
    split_ifs <;> simp
  have hdespawns : u.log.count (.despawned p) = s.log.count (.despawned p) := by
    rw [hu, List.count_append, Nat.add_eq_right]
    unfold Server.savedRecords
    split_ifs <;> simp
  have hspawned : .state p .spawned ∈ u.log ↔ .state p .spawned ∈ s.log := by
    rw [hu, List.mem_append]
    unfold Server.savedRecords
    split_ifs <;> simp
  refine left ?_ ?_ ?_ ?_ ?_
  · exact hreached.append [_, _]
  · rw [hself]
    exact next
  · rw [hself, Player.transitState_prevState, state]
    decide
  · simpa using hsaves
  · simp [hnext, hspawned, hdespawns, despawns]

/-- The task takes a waiting player once: it is despawned if it was spawned, saved, and moved on. -/
theorem takenOnce {players : List Nat} {conn : Connection} (hcount : players.count p = 1)
    (hacq : s.tryAcquireOf p = some conn) (reached : ReachedLive s.log p)
    (state : (s.players p).state = .disconnecting)
    (next : (s.players p).nextState = .disconnected)
    (saves : s.log.count (.saveCalled p) = 0) (despawns : s.log.count (.despawned p) = 0)
    (spawned : .state p .spawned ∈ s.log ↔ (s.players p).prevState = .spawned) (o : Outcomes) :
    (s.disconnectPlayer players o).Phase p := by
  obtain ⟨before, after, rfl⟩ := List.append_of_mem
    (List.count_pos_iff.mp (hcount ▸ Nat.one_pos))
  have hother : p ∉ before ∧ p ∉ after := by
    rw [List.count_append, List.count_cons_self] at hcount
    constructor <;> rw [← List.count_eq_zero] <;> omega
  unfold Server.disconnectPlayer
  simp only [List.foldl_append, List.foldl_cons]
  set spawnedPlayers := (before ++ p :: after).filter fun p =>
    decide (State.spawned ≤ (s.players p).prevState) with hspawnedPlayers
  have hdespawned : spawnedPlayers.count p = if .state p .spawned ∈ s.log then 1 else 0 := by
    by_cases hprev : (s.players p).prevState = .spawned
    · rw [if_pos (spawned.mpr hprev), hspawnedPlayers, List.count_filter, hcount]
      exact decide_eq_true (State.spawned_le_iff.mpr hprev)
    · rw [if_neg (spawned.not.mpr hprev), List.count_eq_zero]
      intro hmem
      exact hprev (State.spawned_le_iff.mp (of_decide_eq_true (List.mem_filter.mp hmem).2))
  -- the broadcast of the despawn records
  set a := s.despawnPlayer spawnedPlayers o with ha
  have hquiet : Quiet { s with log := spawnedPlayers.map .despawned ++ s.log } a :=
    Quiet.sendToPlayers _ Quiet.noCallback _ _ _
  have halog : a.log = spawnedPlayers.map .despawned ++ s.log := hquiet.log
  have hastates : (a.players p).toPlayerState = (s.players p).toPlayerState :=
    (hquiet.standing p).toPlayerState
  have haacq : a.tryAcquireOf p = some conn := (hquiet.tryAcquireOf p).trans hacq
  -- the players before it
  set b := before.foldl Server.teardownPlayer a with hb
  have hab : Untouched p a b := Untouched.foldl before a fun hmem => absurd hmem hother.1
  have hbstates : (b.players p).toPlayerState = (s.players p).toPlayerState :=
    hab.states.trans hastates
  have hbspawned : .state p .spawned ∈ b.log ↔ .state p .spawned ∈ s.log := by
    rw [hab.tally.spawned, halog]
    simp
  -- its own round
  have hround : b.teardownPlayer p = (b.savePlayerGamedata p).transitState p .disconnected := by
    rw [Server.teardownPlayer, hab.tryAcquireOf, haacq]
  have hphase : (b.teardownPlayer p).Phase p := by
    rw [hround]
    apply saved
    · rw [hab.tally.reached, halog]
      exact reached.append _
    · exact (congrArg PlayerState.state hbstates).trans state
    · exact (congrArg PlayerState.nextState hbstates).trans next
    · rw [hab.tally.saves, halog, List.count_append, saves, Nat.add_zero, List.count_eq_zero]
      simp
    · rw [hab.tally.despawns, halog, List.count_append, despawns, Nat.add_zero,
        List.count_map_of_injective _ _ fun _ _ => Record.despawned.inj, hdespawned]
      simp only [hbspawned]
  -- the players after it
  exact hphase.untouched (Untouched.foldl after _ fun hmem => absurd hmem hother.2)

end Server.Phase

end Mmocraft
