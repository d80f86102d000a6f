/-
# Mmocraft.Server.DisconnectCalls -- what a call of `disconnect` does to the table

An event calls `Connection::disconnect` at most once, and what it does to the connection table ends with
that call.  So the calls decide which connections go offline: a set of connections stays online as long
as every call spares it, and a call that does not marks the entry of one of them.

The calls of an event are given together with the states in which they are made, so an event that does other
things before the call is read up to it: `EndsWithDisconnect` says that these other things left the table as
it was, and that what follows the call does too. The lemmas go through the handlers once for that; receives
and tasks are the ones that call `disconnect` not at all.

The second half is about any set `W` of connections, by their numbers. That a call spares them is a condition
on the state before the call, and it is exact: a call that does not spare them takes one offline and leaves
the mark of the clean-up behind, which nothing takes back.
-/
import Mmocraft.Server.ConnectionTable

namespace Mmocraft

open Mmocraft.Lib Mmocraft.Game Mmocraft.Net

/-! ## The calls of `disconnect` -/

namespace Server

/-- `disconnect` takes this connection offline itself: it is online, and has no player in a state from
`handshaking` on. -/
def LeavesAtOnce (s : Server) (conn : Connection) : Prop :=
  conn.isOnline = true ∧ (conn.player.filter fun p => State.handshaking ≤ (s.players p).state) = none

instance (s : Server) (conn : Connection) : Decidable (s.LeavesAtOnce conn) :=
  inferInstanceAs (Decidable (_ ∧ _))

/-- A connection that leaves at once is offline afterwards, and its entry marked. -/
theorem disconnect_of_leavesAtOnce {s : Server} (ht : TableOk s) {i : Nat} {conn : Connection}
    (hconn : s.connection i = some conn) (hleaves : s.LeavesAtOnce conn) (now : Nat) :
    (s.disconnect i now).connection i = some (conn.setOffline now) ∧
      ((s.disconnect i now).connectionEnv.table i).willDelete = true := by
  have hdisconnect : s.disconnect i now = (s.onDisconnect conn).setOffline i conn now := by
    simp [disconnect, hconn, hleaves.1, hleaves.2]
  have hshape := SameShape.onDisconnect s conn
  have htable := ht.of_sameShape hshape
  have hconn' : (s.onDisconnect conn).connection i = some conn := by
    rwa [connection, hshape.connectionEnv]
  rw [hdisconnect]
  refine ⟨setOffline_connection htable hconn' now, ?_⟩
  rw [setOffline_table htable hconn', Function.update_self]

/-- The call that an event makes to `disconnect` ends what it does to the table. -/
def EndsWithDisconnect (s s' t : Server) (i : Nat) : Prop :=
  SameShape s t ∧ ∃ now, s'.connectionEnv = (t.disconnect i now).connectionEnv

theorem EndsWithDisconnect.of_sameShape {s s' t u : Server} {i : Nat} (hshape : SameShape s u)
    (h : EndsWithDisconnect u s' t i) : EndsWithDisconnect s s' t i := ⟨hshape.trans h.1, h.2⟩

section Calls

variable {s t : Server} {i : Nat}

/-- A single call is that call. -/
theorem eq_of_mem_disconnect {u : Server} {j : Nat}
    (hcall : (t, Call.disconnect i) ∈ [(u, Call.disconnect j)]) : t = u ∧ i = j := by
  obtain ⟨ht, hi⟩ := Prod.mk.inj (List.mem_singleton.mp hcall)
  exact ⟨ht, Call.disconnect.inj hi⟩

/-- A kick sends its notice and disconnects. -/
theorem endsWithDisconnect_kick {j : Nat} {reason : ErrorCode} {accepted : Bool}
    (hcall : (t, Call.disconnect i) ∈ s.kickCalls j reason accepted) (now : Nat) :
    EndsWithDisconnect s (s.kick j reason now accepted) t i := by
  cases hconn : s.connection j with
  | none => simp [kickCalls, hconn] at hcall
  | some conn =>
      simp only [kickCalls, hconn] at hcall
      obtain ⟨rfl, rfl⟩ := eq_of_mem_disconnect hcall
      refine ⟨SameShape.send s conn _ accepted, now, ?_⟩
      rw [kick, hconn]

/-- The connection that a reply names is kicked, if it is still there. -/
theorem endsWithDisconnect_kickPrevious {request : LoginRequest} {reply : LoginReply} {accepted : Bool}
    (hcall : (t, Call.disconnect i) ∈ (match s.previousConnection request reply with
      | none => []
      | some j => s.kickCalls j ErrorCode.playerAlreadyLogin accepted)) (now : Nat) :
    EndsWithDisconnect s (s.kickPrevious request reply now accepted) t i := by
  unfold kickPrevious
  cases hprevious : s.previousConnection request reply with
  | none => simp [hprevious] at hcall
  | some j =>
      rw [hprevious] at hcall
      exact endsWithDisconnect_kick hcall now

/-- A reply disconnects by a kick: of the connection it answers, or of the one that it names. -/
theorem endsWithDisconnect_response {request : LoginRequest} {reply : LoginReply} {accepted : Bool}
    (hcall : (t, Call.disconnect i) ∈ s.responseCalls request reply accepted) (now : Nat) :
    EndsWithDisconnect s (s.handleHandshakeResponse request reply now accepted) t i := by
  have hrecord := SameShape.record s (.responded request reply)
  simp only [responseCalls] at hcall
  simp only [handleHandshakeResponse]
  generalize s.record (.responded request reply) = u at hcall hrecord ⊢
  apply EndsWithDisconnect.of_sameShape hrecord
  by_cases hsuccess : reply.errorCode = ErrorCode.success
  · rw [if_pos hsuccess] at hcall ⊢
    rcases List.mem_append.mp hcall with hidentity | hkick
    · -- `set_player_type` and `set_uuid`
      cases hacq : (u.tryAcquireConnection request.connectionKey).bind Connection.player with
      | none => simp [hacq] at hidentity
      | some p => simp [hacq] at hidentity
    · apply EndsWithDisconnect.of_sameShape (SameShape.identify u request reply)
      exact endsWithDisconnect_kickPrevious hkick now
  · rw [if_neg hsuccess] at hcall ⊢
    cases hacq : u.tryAcquireConnection request.connectionKey with
    | none => simp [hacq] at hcall
    | some conn =>
        rw [hacq] at hcall
        dsimp only at hcall ⊢
        by_cases hguest : reply.errorCode = ErrorCode.playerNotExist
        · rw [if_pos hguest] at hcall
          cases hplayer : conn.player with
          | none => simp [hplayer] at hcall
          | some p => simp [hplayer] at hcall
        · rw [if_neg hguest] at hcall ⊢
          exact endsWithDisconnect_kick hcall now

/-- A load that fails kicks. -/
theorem endsWithDisconnect_load {load : GamedataLoad} {result : LoadResult} {accepted : Bool}
    (hcall : (t, Call.disconnect i) ∈ s.loadCalls load result accepted) (now : Nat) :
    EndsWithDisconnect s (s.resumeHandshakeResponse load result now accepted) t i := by
  unfold resumeHandshakeResponse
  cases hacq : s.tryAcquireConnection load.request.connectionKey with
  | none => simp [loadCalls, hacq] at hcall
  | some conn =>
      simp only [loadCalls, hacq] at hcall
      dsimp only
      by_cases herror : result = .error
      · rw [if_pos herror] at hcall ⊢
        exact endsWithDisconnect_kick hcall now
      · rw [if_neg herror] at hcall
        cases hplayer : conn.player with
        | none => simp [hplayer] at hcall
        | some p => simp [hplayer] at hcall

/-- No handler of a packet disconnects. -/
theorem not_disconnect_of_mem_packetCalls {j : Nat} {conn : Connection} {packet : ClientPacket}
    {garbage : PlayerTypeId} : (t, Call.disconnect i) ∉ s.packetCalls j conn packet garbage := by
  intro hcall
  cases packet with
  | handshake username password cpeMagic => simp [packetCalls] at hcall
  | extEntry extensionName version =>
      simp only [packetCalls] at hcall
      cases hplayer : conn.player with
      | none => simp [hplayer] at hcall
      | some p =>
          rw [hplayer] at hcall
          dsimp only at hcall
          split_ifs at hcall
          · simp at hcall
          · exact List.not_mem_nil hcall
  | _ => exact List.not_mem_nil hcall

/-- No task disconnects: the disconnect task moves players on, and the tick does the rest. -/
theorem not_disconnect_of_mem_taskCalls {task : WorldTaskId} {o o' : Outcomes} :
    (t, Call.disconnect i) ∉ s.taskCalls task o o' := by
  intro hcall
  cases task with
  | spawnPlayer =>
      obtain ⟨p, htransit⟩ := eq_transit_of_mem_callbackCalls hcall
      cases htransit
  | syncBlock =>
      obtain ⟨p, htransit⟩ := eq_transit_of_mem_callbackCalls hcall
      cases htransit
  | disconnectPlayer => simp [taskCalls] at hcall
  | syncPlayerPosition => exact List.not_mem_nil hcall
  | commonChatTransfer => exact List.not_mem_nil hcall

/-- A clean-up disconnects whoever has been silent for too long. -/
theorem endsWithDisconnect_cleanup {j now : Nat}
    (hcall : (t, Call.disconnect i) ∈ s.calls (.cleanup j now)) :
    EndsWithDisconnect s (s.cleanupExpiredConnection j now) t i := by
  cases hconn : s.connection j with
  | none => simp [calls, hconn] at hcall
  | some conn =>
      simp only [calls, hconn] at hcall
      split_ifs at hcall with hexpired
      · obtain ⟨hused, hsafe, hexp⟩ := hexpired
        obtain ⟨rfl, rfl⟩ := eq_of_mem_disconnect hcall
        refine ⟨SameShape.refl t, now, ?_⟩
        have hunsafe : conn.isSafeDelete now = false := by simpa using hsafe
        simp [cleanupExpiredConnection, hused, hconn, hunsafe, hexp]
      · exact absurd hcall List.not_mem_nil

/-- The tick disconnects a player whose teardown is complete. -/
theorem endsWithDisconnect_tickPlayer {j now : Nat} {o : Outcomes}
    (hcall : (t, Call.disconnect i) ∈ s.calls (.tickPlayer j now o)) :
    EndsWithDisconnect s (s.tickPlayer j now o) t i := by
  cases hconn : s.connection j with
  | none => simp [calls, hconn] at hcall
  | some conn =>
      cases hplayer : s.connectionEnv.playerOf j with
      | none => simp [calls, hconn, hplayer] at hcall
      | some p =>
          simp only [calls, hconn, hplayer] at hcall
          split_ifs at hcall with hstate
          · obtain ⟨rfl, rfl⟩ := eq_of_mem_disconnect hcall
            refine ⟨SameShape.refl t, now, ?_⟩
            simp [tickPlayer, hconn, hplayer, transitPlayerState, hstate]
          · exact absurd hcall List.not_mem_nil

/-- So a receive does not disconnect. -/
theorem not_disconnect_of_receive {j now : Nat} {packet : ClientPacket} {accepted : Bool}
    {garbage : PlayerTypeId} :
    (t, Call.disconnect i) ∉ s.calls (.receive j packet now accepted garbage) := by
  intro hcall
  cases hconn : s.connection j with
  | none => simp [calls, hconn] at hcall
  | some conn =>
      simp only [calls, hconn] at hcall
      split_ifs at hcall
      · exact not_disconnect_of_mem_packetCalls hcall
      · exact List.not_mem_nil hcall

/-- **The rule of `disconnect`.** Whatever the event, what it does to the table ends with its call of
`disconnect`, if it makes one. -/
theorem endsWithDisconnect {s' : Server} {e : Event} (hcall : (t, Call.disconnect i) ∈ s.calls e)
    (hstep : s.step e = some s') : EndsWithDisconnect s s' t i := by
  cases e with
  | accept now => exact absurd hcall List.not_mem_nil
  | cleanup j now =>
      obtain rfl := Option.some.inj hstep
      exact endsWithDisconnect_cleanup hcall
  | receive j packet now accepted garbage => exact absurd hcall not_disconnect_of_receive
  | kick j reason now accepted =>
      obtain rfl := Option.some.inj hstep
      exact endsWithDisconnect_kick hcall now
  | receiveError j now =>
      obtain rfl := Option.some.inj hstep
      obtain ⟨rfl, rfl⟩ := eq_of_mem_disconnect hcall
      exact ⟨SameShape.refl t, now, rfl⟩
  | tickPlayer j now o =>
      obtain rfl := Option.some.inj hstep
      exact endsWithDisconnect_tickPlayer hcall
  | schedule task now posted => exact absurd hcall List.not_mem_nil
  | runTask task o o' => exact absurd hcall not_disconnect_of_mem_taskCalls
  | response p reply now accepted =>
      obtain ⟨request, hfind, rfl⟩ := Option.map_eq_some_iff.mp hstep
      simp only [calls, hfind] at hcall
      refine EndsWithDisconnect.of_sameShape ?_ (endsWithDisconnect_response hcall now)
      exact SameShape.of_rfl rfl rfl rfl rfl rfl
  | load p result now accepted =>
      obtain ⟨load, hfind, rfl⟩ := Option.map_eq_some_iff.mp hstep
      simp only [calls, hfind] at hcall
      refine EndsWithDisconnect.of_sameShape ?_ (endsWithDisconnect_load hcall now)
      exact SameShape.of_rfl rfl rfl rfl rfl rfl

end Calls

/-! ## Waiting connections stay online -/

/-- No connection that is offline has an id in `W`. -/
def OfflineAvoids (W : Nat → Prop) (s : Server) : Prop :=
  ∀ i conn, s.connection i = some conn → conn.isOnline = false → ¬ W conn.id

/-- A call of `disconnect` takes no connection with an id in `W` offline. -/
def SparesIds (W : Nat → Prop) (s : Server) : Call → Prop
  | .disconnect i => ∀ conn ∈ s.connection i, s.LeavesAtOnce conn → ¬ W conn.id
  | _ => True

instance (W : Nat → Prop) [DecidablePred W] (s : Server) : (call : Call) → Decidable (s.SparesIds W call)
  | .disconnect i =>
      inferInstanceAs (Decidable (∀ conn ∈ s.connection i, s.LeavesAtOnce conn → ¬ W conn.id))
  | .setPlayer .. | .setIdentity .. | .transit .. | .disconnectPlayer _ => isTrue trivial

namespace OfflineAvoids

variable {W : Nat → Prop} {s t : Server}

theorem same (h : s.OfflineAvoids W) (hst : SameTable s t) : t.OfflineAvoids W := fun i conn hconn =>
  h i conn ((hst.connection i).symm.trans hconn)

/-- A connection that is replaced in its slot may go offline only outside the set. -/
theorem of_replace (h : s.OfflineAvoids W) {i : Nat} {conn conn' : Connection}
    (hreplace : ReplacesConnection s t i conn conn') (hoffline : conn'.isOnline = false → ¬ W conn'.id) :
    t.OfflineAvoids W := by
  intro j c hc hoff
  rcases hreplace.cases hc with ⟨-, rfl⟩ | ⟨-, hc⟩
  · exact hoffline hoff
  · exact h j c hc hoff

/-- A new connection is online. -/
theorem of_adds (h : s.OfflineAvoids W) {i now : Nat} (hadds : AddsConnection s t i now) :
    t.OfflineAvoids W := by
  intro j c hc hoff
  by_cases hj : j = i
  · subst hj
    obtain rfl := Option.some.inj (hc.symm.trans hadds.after)
    cases hoff
  · exact h j c ((hadds.others j hj).symm.trans hc) hoff

theorem closedConnections :
    ClosedConnections (fun _ => True) (OfflineAvoids W) (SparesIds W) fun _ => True where
  quiet _ _ hq h := h.same (SameTable.of_quiet hq)
  interact now _ _ _ hconn h := by
    have hbefore := h _ _ hconn
    exact h.of_replace (ReplacesConnection.interact hconn now) hbefore
  accept now _ ht _ h := by
    rcases AddsConnection.accept ht now with heq | ⟨i, hadds⟩
    · rw [heq]
      exact h
    · exact h.of_adds hadds
  disconnect i now _ ht _ hspares h := by
    rcases Server.disconnect_cases _ i now with heq | ⟨conn, p, -, -, -, heq⟩ |
      ⟨conn, hconn, honline, hplayer, heq⟩
    · rw [heq]
      exact h
    · rw [heq]
      exact h.same ⟨rfl, rfl, rfl⟩
    · rw [heq]
      refine h.of_replace (ReplacesConnection.setOffline ht hconn now) fun _ => ?_
      refine hspares conn hconn ⟨honline, ?_⟩
      exact Option.filter_eq_none_iff.mpr fun p hp => by simpa using hplayer p hp
  handshake username password cpeMagic garbage _ _ hconn _ _ h := by
    obtain ⟨cur, next, -, heq⟩ := Server.handshake_eq _ _ _ username password cpeMagic garbage
    rw [heq]
    have hbefore := h _ _ hconn
    exact (h.of_replace (ReplacesConnection.setPlayer hconn _) hbefore).same ⟨rfl, rfl, rfl⟩
  extEntry _ _ _ _ _ h := h.same ⟨rfl, rfl, rfl⟩

/-- An event whose calls of `disconnect` spare the connections in `W` takes none of them offline. -/
theorem step (hs : TableOk s ∧ s.OfflineAvoids W) {e : Event} (hspares : s.CallsMeet (SparesIds W) e)
    (hstep : s.step e = some t) : TableOk t ∧ t.OfflineAvoids W := by
  refine closedConnections.step (SameTable.closedTick same) (SameTable.closedLogins same) hs e
    (fun _ _ => trivial) hspares ?_ ?_ ?_ hstep
  · intro i now conn _ hconn _ j c hc
    exact hs.2 j c (Server.of_delete_connection hs.1 hconn hc)
  · intro task now posted _
    exact closedConnections.of_schedule (SameTable.closedSchedules same) hs task now posted
  · rintro task o o' rfl hqueued
    exact closedConnections.of_runTask (SameTable.closedTasks same) hs task o o' hqueued hspares

/-- An event that does not spare them takes one of them offline, and marks its entry. -/
theorem not_spared (ht : TableOk s) {e : Event} (hspares : ¬ s.CallsMeet (SparesIds W) e)
    (hstep : s.step e = some t) : ∃ i conn, t.connection i = some conn ∧
      (t.connectionEnv.table i).willDelete = true ∧ W conn.id := by
  simp only [CallsMeet, not_forall] at hspares
  obtain ⟨⟨u, call⟩, hmem, hcall⟩ := hspares
  cases call with
  | disconnect i =>
      simp only [SparesIds, not_forall, not_not] at hcall
      obtain ⟨conn, hconn, hleaves, hW⟩ := hcall
      obtain ⟨hshape, now, henv⟩ := endsWithDisconnect hmem hstep
      obtain ⟨hoffline, hmarked⟩ :=
        disconnect_of_leavesAtOnce (ht.of_sameShape hshape) hconn hleaves now
      refine ⟨i, conn.setOffline now, ?_, ?_, hW⟩
      · rw [connection, henv]
        exact hoffline
      · rw [henv]
        exact hmarked
  | setPlayer i garbage => exact absurd trivial hcall
  | setIdentity p request reply => exact absurd trivial hcall
  | transit p cause => exact absurd trivial hcall
  | disconnectPlayer players => exact absurd trivial hcall

end OfflineAvoids

end Server

end Mmocraft
