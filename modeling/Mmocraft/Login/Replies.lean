/-
# Mmocraft.Login.Replies -- what a reply does to the logins

A login as the game server sees it: a slot, the connection in it and the player it has been given.  A
reply tells at most one of them to leave: the one whose key it carries if it is a success, and its own if
it is not.  The other logins are as they were.

These are the facts about the game server that the proof about logins needs, and no more: what a step of the
server leaves of a login, stated for the login and not for the slots of the table. `KeepsLogin` is what a step
does to a login that it does not concern; `disconnect_self` and `kick_self` are what happens to the one it
does.
-/
import Mmocraft.Server.Stages

namespace Mmocraft

open Mmocraft.Lib Mmocraft.Game Mmocraft.Net

namespace Server

/-- The connection of the player is online, and the player was not told to leave. -/
def LoggedIn (s : Server) (p : Nat) : Prop := s.Attached p ∧ ¬ (s.players p).state.IsLeaving

/-- The connection of a login, online or not, and its player, which is on its way or torn down. -/
structure HoldsLogin (s : Server) (r : LoginRequest) : Prop where
  owned : ∃ conn, s.HasPlayer r.connectionKey.index conn r.player ∧
    conn.connectionKey = r.connectionKey
  standing : (s.players r.player).toPlayerState.IsTornDown ∨
    (State.handshaking ≤ (s.players r.player).state ∧
      State.handshaking ≤ (s.players r.player).nextState)

/-- The login is as it was. -/
structure KeepsLogin (s t : Server) (r : LoginRequest) : Prop where
  holds : t.HoldsLogin r
  attached : t.Attached r.player ↔ s.Attached r.player
  leaving : (t.players r.player).state.IsLeaving ↔ (s.players r.player).state.IsLeaving

namespace KeepsLogin

variable {s t u : Server} {r : LoginRequest}

/-- Two steps that leave a login alone leave it alone together. -/
theorem trans (hst : KeepsLogin s t r) (htu : KeepsLogin t u r) : KeepsLogin s u r :=
  ⟨htu.holds, htu.attached.trans hst.attached, htu.leaving.trans hst.leaving⟩

/-- Such a login is in exactly if it was. -/
theorem loggedIn_iff (h : KeepsLogin s t r) : t.LoggedIn r.player ↔ s.LoggedIn r.player :=
  and_congr h.attached (not_congr h.leaving)

end KeepsLogin

namespace HoldsLogin

variable {s t : Server} {r : LoginRequest}

/-- No connection changes, and no state. -/
theorem kept (h : s.HoldsLogin r) (henv : t.connectionEnv = s.connectionEnv)
    (hstates : (t.players r.player).toPlayerState = (s.players r.player).toPlayerState) :
    KeepsLogin s t r := by
  refine ⟨⟨?_, ?_⟩, attached_of_env henv r.player, ?_⟩
  · obtain ⟨conn, hhas, hkey⟩ := h.owned
    refine ⟨conn, ?_, hkey⟩
    rwa [HasPlayer, Server.connection, henv]
  · rw [hstates]
    exact h.standing
  · rw [hstates]

/-- Players from handshaking on do not leave. -/
theorem ne_leaving {st : State} (h : State.handshaking ≤ st) : ¬ st.IsLeaving := by
  rintro (rfl | rfl) <;> exact absurd h (by decide)

/-- A login is attached if its key can be acquired. -/
theorem acquires (h : s.HoldsLogin r) (ht : TableOk s) (hattached : s.Attached r.player) :
    ∃ conn, s.tryAcquireConnection r.connectionKey = some conn ∧ conn.player = some r.player := by
  obtain ⟨conn, hhas, hkey⟩ := h.owned
  obtain ⟨j, conn', hhas', honline⟩ := hattached
  obtain ⟨rfl, rfl⟩ := ht.hasPlayer_unique hhas' hhas
  refine ⟨conn', ?_, hhas.2⟩
  rw [← hkey]
  exact ht.tryAcquire_of_online hhas.1 honline

/-- Whoever is reached under the key of a login is its player. -/
theorem attached_of_acquires (h : s.HoldsLogin r) (ht : TableOk s) {conn : Connection}
    (hacq : s.tryAcquireConnection r.connectionKey = some conn) :
    s.Attached r.player ∧ conn.player = some r.player := by
  obtain ⟨hslot, honline, -⟩ := ht.of_tryAcquire hacq
  obtain ⟨conn', hhas, -⟩ := h.owned
  obtain rfl := Option.some.inj (hslot.symm.trans hhas.1)
  exact ⟨hhas.attached honline, hhas.2⟩

/-- Two logins have two slots. -/
theorem index_ne (h : s.HoldsLogin r) {r' : LoginRequest} (h' : s.HoldsLogin r')
    (hne : r.player ≠ r'.player) : r.connectionKey.index ≠ r'.connectionKey.index := by
  intro heq
  obtain ⟨conn, hhas, -⟩ := h.owned
  obtain ⟨conn', hhas', -⟩ := h'.owned
  rw [heq] at hhas
  obtain rfl := Option.some.inj (hhas.1.symm.trans hhas'.1)
  exact hne (Option.some.inj (hhas.2.symm.trans hhas'.2))

/-- A transition ends the stage of the login, or its teardown. -/
theorem transit (h : s.HoldsLogin r) (p : Nat) (hint : State) :
    KeepsLogin s (s.transitState p hint) r := by
  by_cases hp : r.player = p
  · have hself : (s.transitState p hint).players r.player = (s.players r.player).transitState := by
      rw [transitState_players, if_pos hp, hp]
    refine ⟨⟨h.owned, ?_⟩, Iff.rfl, ?_⟩
    · rw [hself]
      exact h.standing.imp PlayerState.IsTornDown.transitState fun hs => ⟨hs.2, hs.2⟩
    · rw [hself]
      rcases h.standing with htorn | ⟨hstate, hnext⟩
      · exact iff_of_true htorn.transitState.1 htorn.1
      · exact iff_of_false (ne_leaving hnext) (ne_leaving hstate)
  · refine h.kept (t := s.transitState p hint) rfl ?_
    rw [transitState_players, if_neg hp]

/-! ## Kicks

A kick sends a packet and disconnects a slot. For a login it is either its own slot, and the player is on
its way out, or another one, and nothing of the login changes.
-/

/-- Disconnecting another slot. -/
theorem disconnect_other (h : s.HoldsLogin r) (ht : TableOk s) {i : Nat} (hi : i ≠ r.connectionKey.index)
    (now : Nat) : KeepsLogin s (s.disconnect i now) r := by
  obtain ⟨conn, hhas, hkey⟩ := h.owned
  rcases s.disconnect_cases i now with heq | ⟨conn', p, hp, -, -, heq⟩ | ⟨conn', hconn, -, -, heq⟩
  · rw [heq]
    exact h.kept rfl rfl
  · rw [heq]
    have hne : r.player ≠ p := by
      rintro rfl
      exact hi (ht.hasPlayer_unique hp hhas).1
    refine h.kept (t := s.prepareStateTransition p .disconnecting .disconnected) rfl ?_
    rw [prepareStateTransition_players, if_neg hne]
  · rw [heq]
    have hother := setOffline_connection_of_ne ht hconn now (Ne.symm hi)
    refine ⟨⟨⟨conn, ⟨hother.trans hhas.1, hhas.2⟩, hkey⟩, h.standing⟩, ?_, Iff.rfl⟩
    rw [attached_setOffline ht hconn]
    exact and_iff_left fun hplayer => hi (ht.hasPlayer_unique ⟨hconn, hplayer⟩ hhas).1

/-- Disconnecting its own slot: a player that was not told to leave is told so, and stays attached;
otherwise its connection goes offline. -/
theorem disconnect_self (h : s.HoldsLogin r) (ht : TableOk s) (now : Nat) :
    (s.disconnect r.connectionKey.index now).HoldsLogin r ∧
    ¬ (s.disconnect r.connectionKey.index now).LoggedIn r.player ∧
    (s.LoggedIn r.player → (s.disconnect r.connectionKey.index now).Attached r.player) := by
  obtain ⟨conn, hhas, hkey⟩ := h.owned
  by_cases honline : conn.isOnline = true
  · have hattached := hhas.attached honline
    -- `disconnect` tells a player to leave only from its handshake on
    by_cases hstate : State.handshaking ≤ (s.players r.player).state
    · have heq : s.disconnect r.connectionKey.index now =
          s.prepareStateTransition r.player .disconnecting .disconnected := by
        simp [Server.disconnect, hhas.1, hhas.2, honline, Option.filter_some, hstate]
      rw [heq]
      have hself : (s.prepareStateTransition r.player .disconnecting .disconnected).players r.player =
          (s.players r.player).prepareStateTransition .disconnecting .disconnected := by
        rw [prepareStateTransition_players, if_pos rfl]
      refine ⟨⟨⟨conn, hhas, hkey⟩, ?_⟩, ?_, fun _ => hattached⟩
      · rw [hself]
        exact Or.inl ⟨Or.inl rfl, rfl⟩
      · rintro ⟨-, hstays⟩
        rw [hself] at hstays
        exact hstays (Or.inl rfl)
    · have hnot : ¬ State.handshaked ≤ (s.players r.player).state := fun hlive =>
        hstate (State.IsLive.handshaking_le hlive)
      have heq : s.disconnect r.connectionKey.index now =
          s.setOffline r.connectionKey.index conn now := by
        simp [Server.disconnect, hhas.1, hhas.2, honline, Option.filter_some, hstate, hnot,
          Server.onDisconnect]
      rw [heq]
      have hslot := setOffline_connection ht hhas.1 now
      refine ⟨⟨⟨_, ⟨hslot, hhas.2⟩, hkey⟩, h.standing⟩, ?_, fun hlogged => ?_⟩
      · rintro ⟨hattached, -⟩
        exact ((attached_setOffline ht hhas.1 now r.player).mp hattached).2 hhas.2
      · exact absurd hlogged.2 (not_not.mpr (h.standing.resolve_right fun hs => hstate hs.1).1)
  · have heq : s.disconnect r.connectionKey.index now = s := by
      simp [Server.disconnect, hhas.1, honline]
    have hdetached : ¬ s.Attached r.player := by
      rintro ⟨j, conn', hhas', honline'⟩
      obtain ⟨rfl, rfl⟩ := ht.hasPlayer_unique hhas' hhas
      exact honline honline'
    rw [heq]
    exact ⟨h, fun hlogged => hdetached hlogged.1, And.left⟩

/-- Kicking another slot. -/
theorem kick_other (h : s.HoldsLogin r) (ht : TableOk s) {i : Nat} (hi : i ≠ r.connectionKey.index)
    (reason : ErrorCode) (now : Nat) (accepted : Bool) :
    KeepsLogin s (s.kick i reason now accepted) r := by
  unfold Server.kick
  cases hconn : s.connection i with
  | none => exact h.kept rfl rfl
  | some conn =>
      have hquiet := Quiet.send s conn (.disconnectPlayer reason) accepted
      have hsent := h.kept hquiet.connectionEnv (hquiet.standing r.player).toPlayerState
      exact hsent.trans (hsent.holds.disconnect_other (ht.of_sameShape hquiet.sameShape) hi now)

/-- Kicking its own slot. -/
theorem kick_self (h : s.HoldsLogin r) (ht : TableOk s) (reason : ErrorCode) (now : Nat)
    (accepted : Bool) :
    (s.kick r.connectionKey.index reason now accepted).HoldsLogin r ∧
    ¬ (s.kick r.connectionKey.index reason now accepted).LoggedIn r.player ∧
    (s.LoggedIn r.player →
      (s.kick r.connectionKey.index reason now accepted).Attached r.player) := by
  obtain ⟨conn, hhas, -⟩ := h.owned
  unfold Server.kick
  rw [hhas.1]
  have hquiet := Quiet.send s conn (.disconnectPlayer reason) accepted
  have hsent := h.kept hquiet.connectionEnv (hquiet.standing r.player).toPlayerState
  obtain ⟨hholds, hout, hattached⟩ :=
    hsent.holds.disconnect_self (ht.of_sameShape hquiet.sameShape) now
  exact ⟨hholds, hout, fun hlogged => hattached (hsent.loggedIn_iff.mpr hlogged)⟩

/-! ## Replies

A reply is handled for the player that its key leads to. A success kicks the connection that the reply
names, a failure the one that asked; in both cases the login of everybody else is kept.
-/

/-- The kick of a successful reply does not reach the other logins. -/
theorem kickPrevious_other (h : s.HoldsLogin r) (ht : TableOk s) (request : LoginRequest)
    {reply : LoginReply} (hne : reply.prevConnectionKey ≠ r.connectionKey) (now : Nat)
    (accepted : Bool) : KeepsLogin s (s.kickPrevious request reply now accepted) r := by
  unfold Server.kickPrevious Server.previousConnection
  cases s.tryAcquireConnection request.connectionKey with
  | none => exact h.kept rfl rfl
  | some conn =>
      cases hacq : s.tryAcquireConnection reply.prevConnectionKey with
      | none => exact h.kept rfl rfl
      | some prev =>
          refine h.kick_other ht ?_ _ now accepted
          -- a connection in the slot of the login has its key
          intro hindex
          obtain ⟨conn', hhas, hkey⟩ := h.owned
          obtain ⟨hslot, -, hprev⟩ := ht.of_tryAcquire hacq
          rw [hindex] at hslot
          obtain rfl := Option.some.inj (hslot.symm.trans hhas.1)
          exact hne (hprev.symm.trans hkey)

/-- The kick of a successful reply whose connection is still there reaches the login it names. -/
theorem kickPrevious_self (h : s.HoldsLogin r) (ht : TableOk s) {request : LoginRequest}
    (hrequest : s.HoldsLogin request) (hattached : s.Attached request.player) {reply : LoginReply}
    (hprev : reply.prevConnectionKey = r.connectionKey) (now : Nat) (accepted : Bool) :
    (s.kickPrevious request reply now accepted).HoldsLogin r ∧
    ¬ (s.kickPrevious request reply now accepted).LoggedIn r.player ∧
    (s.LoggedIn r.player → (s.kickPrevious request reply now accepted).Attached r.player) := by
  obtain ⟨conn, hacq, -⟩ := hrequest.acquires ht hattached
  unfold Server.kickPrevious Server.previousConnection
  rw [hacq, hprev]
  cases hacq' : s.tryAcquireConnection r.connectionKey with
  | some conn' => exact h.kick_self ht _ now accepted
  | none =>
      refine ⟨h, fun hlogged => ?_, And.left⟩
      obtain ⟨conn', hsome, -⟩ := h.acquires ht hlogged.1
      rw [hacq'] at hsome
      cases hsome

/-- Taking the request and noting the identity of its player. -/
theorem identify (h : s.HoldsLogin r) (request : LoginRequest) (reply : LoginReply) :
    KeepsLogin s (({ s with requests := s.requests.erase request }.record
      (.responded request reply)).identify request reply) r := by
  have hrecorded := h.kept (t := { s with requests := s.requests.erase request }.record
    (.responded request reply)) rfl rfl
  refine hrecorded.trans ?_
  unfold Server.identify
  cases (Server.tryAcquireConnection _ request.connectionKey).bind Connection.player with
  | none => exact hrecorded.holds.kept rfl rfl
  | some p => exact hrecorded.holds.kept rfl ((StatesKept.setTypeAndUuid _ p _ _).states r.player)

end HoldsLogin

/-- The reply to a request that is the only one of its player. -/
theorem response_eq {s t : Server} {r : LoginRequest} {reply : LoginReply} {now : Nat} {accepted : Bool}
    (hsole : ∀ r' ∈ s.requests, r'.player = r.player → r' = r)
    (hstep : s.step (.response r.player reply now accepted) = some t) :
    t = { s with requests := s.requests.erase r }.handleHandshakeResponse r reply now accepted := by
  obtain ⟨r', hfind, rfl⟩ := Option.map_eq_some_iff.mp hstep
  have hplayer := List.find?_some hfind
  rw [hsole r' (List.mem_of_find?_eq_some hfind) (of_decide_eq_true hplayer)]

/-- What a successful reply to `request` does to the logins: to the one whose key it carries, and to
the others. -/
structure KicksPrevious (s t : Server) (request : LoginRequest) (reply : LoginReply) : Prop where
  others : ∀ r, s.HoldsLogin r → reply.prevConnectionKey ≠ r.connectionKey → KeepsLogin s t r
  named : ∀ r, s.HoldsLogin r → reply.prevConnectionKey = r.connectionKey → t.HoldsLogin r ∧
    ¬ t.LoggedIn r.player ∧ (s.LoggedIn r.player → t.Attached r.player)

/-- A reply that succeeded kicks the login whose key it carries, if that is one of the handshakes. -/
theorem KicksPrevious.of_response {s t : Server} {request : LoginRequest} {reply : LoginReply}
    {now : Nat} {accepted : Bool} (ht : TableOk s)
    (hsole : ∀ r' ∈ s.requests, r'.player = request.player → r' = request)
    (hstep : s.step (.response request.player reply now accepted) = some t)
    (hsuccess : reply.errorCode = ErrorCode.success) (hrequest : s.HoldsLogin request)
    (hattached : s.Attached request.player) : KicksPrevious s t request reply := by
  set u := ({ s with requests := s.requests.erase request }.record
    (.responded request reply)).identify request reply with hu
  have heq : t = { u.kickPrevious request reply now accepted with
      loads := (u.kickPrevious request reply now accepted).loads ++
        [{ request := request, reply := reply }] } := by
    rw [response_eq hsole hstep]
    exact if_pos hsuccess
  -- up to the kick nothing happens to a login, and after it only a load is added
  have hkept : ∀ r, s.HoldsLogin r → KeepsLogin s u r := fun r hr => hr.identify request reply
  have hutable : TableOk u := by
    have hrecorded := ht.of_sameShape (SameShape.of_rfl (s := s) (t := { s with
      requests := s.requests.erase request }.record (.responded request reply)) rfl rfl rfl rfl rfl)
    rw [hu, identify]
    cases (Server.tryAcquireConnection _ request.connectionKey).bind Connection.player with
    | none => exact hrecorded
    | some p => exact hrecorded.of_sameShape (SameShape.setIdentity _ p reply)
  refine ⟨fun r hr hne => ?_, fun r hr hprev => ?_⟩
  · have hkicked := (hkept r hr).holds.kickPrevious_other hutable request hne now accepted
    rw [heq]
    exact (hkept r hr).trans (hkicked.trans (hkicked.holds.kept rfl rfl))
  · obtain ⟨hholds, hout, hstays⟩ := (hkept r hr).holds.kickPrevious_self hutable
      (hkept request hrequest).holds ((hkept request hrequest).attached.mpr hattached) hprev now accepted
    have hloaded := hholds.kept (t := t) (by rw [heq]) (by rw [heq])
    refine ⟨hloaded.holds, fun hlogged => hout (hloaded.loggedIn_iff.mp hlogged), fun hlogged => ?_⟩
    exact hloaded.attached.mpr (hstays ((hkept r hr).loggedIn_iff.mpr hlogged))

/-- What a failed reply to `request` does: its connection is kicked. -/
structure KicksRequest (s t : Server) (request : LoginRequest) : Prop where
  others : ∀ r, s.HoldsLogin r → r.player ≠ request.player → KeepsLogin s t r
  self : t.HoldsLogin request ∧ ¬ t.LoggedIn request.player

/-- A reply that failed kicks the login that it answers. -/
theorem KicksRequest.of_response {s t : Server} {request : LoginRequest} {reply : LoginReply}
    {now : Nat} {accepted : Bool} (ht : TableOk s)
    (hsole : ∀ r' ∈ s.requests, r'.player = request.player → r' = request)
    (hstep : s.step (.response request.player reply now accepted) = some t)
    (hfail : reply.errorCode = ErrorCode.playerLoginFail) (hrequest : s.HoldsLogin request) :
    KicksRequest s t request := by
  set u := { s with requests := s.requests.erase request }.record (.responded request reply) with hu
  have hkept : ∀ r, s.HoldsLogin r → KeepsLogin s u r := fun r hr => hr.kept rfl rfl
  have hutable : TableOk u := ht.of_sameShape (SameShape.of_rfl rfl rfl rfl rfl rfl)
  have hnot : reply.errorCode ≠ ErrorCode.success := by rw [hfail]; decide
  have hguest : reply.errorCode ≠ ErrorCode.playerNotExist := by rw [hfail]; decide
  have heq : t = (u.tryAcquireConnection request.connectionKey).elim
      { u with loads := u.loads ++ [{ request := request, reply := reply }] }
      fun _ => u.kick request.connectionKey.index ErrorCode.playerLoginFail now accepted := by
    rw [response_eq hsole hstep, handleHandshakeResponse, if_neg hnot]
    cases hacq : u.tryAcquireConnection request.connectionKey with
    | none => rfl
    | some conn => exact if_neg hguest
  cases hacq : u.tryAcquireConnection request.connectionKey with
  | none =>
      -- its connection is gone
      rw [hacq, Option.elim_none] at heq
      have hall : ∀ r, s.HoldsLogin r → KeepsLogin u t r := fun r hr =>
        (hkept r hr).holds.kept (by rw [heq]) (by rw [heq])
      refine ⟨fun r hr _ => (hkept r hr).trans (hall r hr),
        (hall request hrequest).holds, fun hlogged => ?_⟩
      obtain ⟨conn, hsome, -⟩ := (hkept request hrequest).holds.acquires hutable
        ((hall request hrequest).loggedIn_iff.mp hlogged).1
      rw [hacq] at hsome
      cases hsome
  | some conn =>
      rw [hacq, Option.elim_some] at heq
      rw [heq]
      refine ⟨fun r hr hne => ?_, ?_⟩
      · have hindex := (hkept request hrequest).holds.index_ne (hkept r hr).holds (Ne.symm hne)
        exact (hkept r hr).trans ((hkept r hr).holds.kick_other hutable hindex _ now accepted)
      · have hself := (hkept request hrequest).holds.kick_self hutable
          ErrorCode.playerLoginFail now accepted
        exact ⟨hself.1, hself.2.1⟩

/-- The end of a load makes no difference to a login. -/
theorem KeepsLogin.of_load {s t : Server} {request : LoginRequest} {result : LoadResult}
    {now : Nat} {accepted : Bool} (ht : TableOk s)
    (hsole : ∀ load ∈ s.loads, load.request.player = request.player → load.request = request)
    (hstep : s.step (.load request.player result now accepted) = some t) (hresult : result ≠ .error)
    (hrequest : s.HoldsLogin request) {r : LoginRequest} (hr : s.HoldsLogin r) : KeepsLogin s t r := by
  obtain ⟨load, hfind, rfl⟩ := Option.map_eq_some_iff.mp hstep
  have hplayer := List.find?_some hfind
  have hload := hsole load (List.mem_of_find?_eq_some hfind) (of_decide_eq_true hplayer)
  have htaken := hr.kept (t := { s with loads := s.loads.erase load }) rfl rfl
  have hrequest := (hrequest.kept (t := { s with loads := s.loads.erase load }) rfl rfl).holds
  have htable : TableOk { s with loads := s.loads.erase load } :=
    ht.of_sameShape (SameShape.of_rfl rfl rfl rfl rfl rfl)
  refine htaken.trans ?_
  -- from here on the load is off the list
  replace hr := htaken.holds
  clear htaken hstep hfind hplayer hsole
  generalize ({ s with loads := s.loads.erase load } : Server) = u at *
  simp only [resumeHandshakeResponse, hload]
  cases hacq : u.tryAcquireConnection request.connectionKey with
  | none => exact hr.kept rfl rfl
  | some conn =>
      simp only [if_neg hresult, (hrequest.attached_of_acquires htable hacq).2]
      rw [admitLoaded_eq]
      have hloaded := StatesKept.loaded u request.player load result
      have hkept := hr.kept (t := ((u.updatePlayer request.player (loadedGamedata · result)).record
        (.loaded request.player load result)).record
          (.authenticated request.player load.request load.reply)) rfl (hloaded.states r.player)
      exact hkept.trans (hkept.holds.transit request.player _)

/-! ## Pending requests and loads

Handling a reply takes its request from the list, and may add a load. No kick changes either list.
-/

theorem disconnect_logins (s : Server) (i now : Nat) : (s.disconnect i now).requests = s.requests ∧
    (s.disconnect i now).loads = s.loads := by
  rcases s.disconnect_cases i now with heq | ⟨_, _, -, -, -, heq⟩ | ⟨_, -, -, -, heq⟩
  all_goals
    rw [heq]
    exact ⟨rfl, rfl⟩

theorem kick_logins (s : Server) (i : Nat) (reason : ErrorCode) (now : Nat) (accepted : Bool) :
    (s.kick i reason now accepted).requests = s.requests ∧
      (s.kick i reason now accepted).loads = s.loads := by
  unfold Server.kick
  cases s.connection i with
  | none => exact ⟨rfl, rfl⟩
  | some conn =>
      have hquiet := Quiet.send s conn (.disconnectPlayer reason) accepted
      obtain ⟨hrequests, hloads⟩ :=
        disconnect_logins (s.send conn (.disconnectPlayer reason) accepted) i now
      exact ⟨hrequests.trans hquiet.requests, hloads.trans hquiet.loads⟩

theorem kickPrevious_logins (s : Server) (request : LoginRequest) (reply : LoginReply) (now : Nat)
    (accepted : Bool) : (s.kickPrevious request reply now accepted).requests = s.requests ∧
      (s.kickPrevious request reply now accepted).loads = s.loads := by
  unfold Server.kickPrevious
  cases s.previousConnection request reply with
  | none => exact ⟨rfl, rfl⟩
  | some i => exact kick_logins s i _ now accepted

theorem identify_logins (s : Server) (request : LoginRequest) (reply : LoginReply) :
    (s.identify request reply).requests = s.requests ∧
      (s.identify request reply).loads = s.loads := by
  unfold Server.identify
  cases (s.tryAcquireConnection request.connectionKey).bind Connection.player <;> exact ⟨rfl, rfl⟩

/-- A reply takes its request, and leaves at most one more load, of that request. -/
theorem handleHandshakeResponse_logins (s : Server) (request : LoginRequest) (reply : LoginReply)
    (now : Nat) (accepted : Bool) :
    (s.handleHandshakeResponse request reply now accepted).requests = s.requests ∧
    ∀ load ∈ (s.handleHandshakeResponse request reply now accepted).loads,
      load ∈ s.loads ∨ load.request = request := by
  have hadd : ∀ {t : Server}, t.loads = s.loads →
      ∀ load ∈ t.loads ++ [{ request := request, reply := reply }],
        load ∈ s.loads ∨ load.request = request := by
    intro t hloads load hload
    rcases List.mem_append.mp hload with hload | hload
    · exact Or.inl (hloads ▸ hload)
    · rw [List.mem_singleton.mp hload]
      exact Or.inr rfl
  simp only [handleHandshakeResponse]
  split_ifs with hsuccess hguest
  · obtain ⟨hrequests, hloads⟩ := kickPrevious_logins
      ((s.record (.responded request reply)).identify request reply) request reply now accepted
    obtain ⟨hrequests', hloads'⟩ := identify_logins (s.record (.responded request reply)) request reply
    exact ⟨hrequests.trans hrequests', hadd (hloads.trans hloads')⟩
  · cases (s.record (.responded request reply)).tryAcquireConnection request.connectionKey with
    | none => exact ⟨rfl, hadd (t := s) rfl⟩
    | some conn =>
        cases hplayer : conn.player <;> simp only [hplayer]
        · exact ⟨rfl, fun _ hload => Or.inl hload⟩
        · exact ⟨rfl, fun _ hload => Or.inl hload⟩
  · cases (s.record (.responded request reply)).tryAcquireConnection request.connectionKey with
    | none => exact ⟨rfl, hadd (t := s) rfl⟩
    | some conn =>
        obtain ⟨hrequests, hloads⟩ := kick_logins (s.record (.responded request reply))
          request.connectionKey.index ErrorCode.playerLoginFail now accepted
        exact ⟨hrequests, fun load hload => Or.inl (hloads ▸ hload)⟩

/-- The end of a load leaves no more of them. -/
theorem resumeHandshakeResponse_logins (s : Server) (load : GamedataLoad) (result : LoadResult)
    (now : Nat) (accepted : Bool) :
    (s.resumeHandshakeResponse load result now accepted).requests = s.requests ∧
      (s.resumeHandshakeResponse load result now accepted).loads = s.loads := by
  unfold resumeHandshakeResponse
  cases s.tryAcquireConnection load.request.connectionKey with
  | none => exact ⟨rfl, rfl⟩
  | some conn =>
      show (if _ then _ else _ : Server).requests = _ ∧ (if _ then _ else _ : Server).loads = _
      split_ifs
      · exact kick_logins s _ _ now accepted
      · cases conn.player with
        | none => exact ⟨rfl, rfl⟩
        | some p =>
            show (s.admitLoaded p load result).requests = _ ∧ (s.admitLoaded p load result).loads = _
            rw [admitLoaded_eq]
            exact ⟨rfl, rfl⟩

end Server

end Mmocraft
