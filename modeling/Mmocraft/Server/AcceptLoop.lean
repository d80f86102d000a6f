/-
# Mmocraft.Server.AcceptLoop -- accepting sockets on any event thread

There is one accept event.  `start_accept` posts it, some event thread takes its completion, cleans the table
up, registers the connection and calls `start_accept` again; when the event cannot be posted the server is
marked stopped, and the next tick of the main thread starts it again.  Between any two of these calls the
other threads go on.  The table is safe because the event is one token: it is posted, completed, or with a
thread on its path, or the server is stopped.  So the calls of one accept take effect as if they were made at
once, when the connection is registered, and what is proved of runs of the server holds of runs of the loop.
An exception in a handler loses the token: nothing is accepted any more, and the tick does not notice.

The invariant counts. The token is counted over the threads and the places outside of them (`outer`), and each
socket over everywhere it can be (`places`). A thread that has the token is alone with it (`Alone`), so the
lemma about a call looks at one thread only. Beside the counts stands what a thread read of the table and uses
later (`PointOk`): it is still true when the connection is registered, since nothing else changes which slots
are used.

What is stated of whole runs is the exclusion (`sequential_of_run`), the run of the server that a run of the
loop amounts to (`serverRun_of_run`), where the sockets are (`socketsOnce_of_run`), and the lost token
(`attached_of_thrown`). The steps of the other threads are whole events of the server; what two calls do to
one word of memory at the same time is not looked at.
-/
import Mathlib.Data.Multiset.Range
import Mathlib.Tactic.Abel
import Mmocraft.Lib.Places
import Mmocraft.Server.UsedSlots
import Mmocraft.Util.IntervalTask

namespace Mmocraft

open Mmocraft.Lib Mmocraft.Game Mmocraft.Net Mmocraft.Util

/-! ## The state -/

/-- `ServerCore::State`. -/
inductive ServerState where
  | uninitialized
  | initialized
  | running
  | stop
  deriving DecidableEq, Repr

/-- Where a thread is on the path of the accept event: the call it makes next.  A thread in `new_connection`
carries the reading of the clock for its key; that of the constructor, for `last_interaction_tick`, comes
after it in the source and is taken to be the same. -/
inductive AcceptPoint where
  | idle
  /-- `start_accept`, after an accept or at the start. -/
  | starting
  /-- `start_accept`, in `GameServer::tick`. -/
  | restarting
  | creating
  | posting
  | stopping
  /-- `handle_io_event`. -/
  | handling
  /-- `cleanup_expired_connection`, at an entry. -/
  | cleaning (i : Nat)
  | adopting
  | checking (socket : Nat)
  | naming (socket : Nat)
  | constructing (socket : Nat) (key : ConnectionKey) (now : Nat)
  | registering (socket : Nat) (key : ConnectionKey) (now : Nat)
  | completing
  deriving DecidableEq, Repr

namespace AcceptPoint

/-- A thread on the path has the token.  One that restarts a stopped server takes it with `set_state`. -/
def token : AcceptPoint → Nat
  | idle | restarting => 0
  | _ => 1

/-- The socket is still the accept event's. -/
def eventToken : AcceptPoint → Nat
  | posting | handling | cleaning _ | adopting => 1
  | _ => 0

/-- The socket is the thread's. -/
def sockets : AcceptPoint → Multiset Nat
  | checking socket | naming socket | constructing socket .. | registering socket .. => {socket}
  | _ => 0

/-- A thread that is not on the path has no event. -/
theorem eventToken_eq_zero {p : AcceptPoint} (h : p.token = 0) : p.eventToken = 0 := by
  cases p <;> first | rfl | exact absurd h Nat.one_ne_zero

/-- Nor a socket. -/
theorem sockets_eq_zero {p : AcceptPoint} (h : p.token = 0) : p.sockets = 0 := by
  cases p <;> first | rfl | exact absurd h Nat.one_ne_zero

theorem token_le_one (p : AcceptPoint) : p.token ≤ 1 := by
  cases p <;> simp [token]

end AcceptPoint

/-- `TcpServer` with its threads, the first of which is the main thread.  `acceptedSocket` is that of the
accept event; `outstanding` and `completions` are the posted event and its completion, with the number of
bytes or the signal.  Sockets are numbered; histories: those that connections own, in the order of the
connections, those that were closed, those that were left open, and the exceptions in a handler. -/
structure AcceptLoop where
  server : Server
  state : ServerState := .initialized
  acceptedSocket : Option Nat := none
  cleanTask : IntervalTask
  outstanding : Nat := 0
  completions : List Nat := []
  threads : List AcceptPoint := [.starting]
  numOfSockets : Nat := 0
  attached : List Nat := []
  closed : List Nat := []
  leaked : List Nat := []
  thrown : Nat := 0

/-- `iocp_signal::event_failed`. -/
def eventFailed : Nat := 2 ^ 32 - 1

/-! ## The calls -/

/-- The calls on the path of the accept event, with what they return. -/
inductive AcceptCall where
  /-- `is_stopped` in `GameServer::tick`. -/
  | tick
  /-- `on_event_complete` for the completion of the event. -/
  | onEventComplete
  | setRunning
  | createSocket (created : Bool)
  | acceptEx (pending : Bool)
  | setStop
  | processTasks (now : Nat)
  | cleanEntry (now : Nat)
  /-- `cleanup_expired_connection` ends, after the last entry or with an exception. -/
  | cleanDone (now : Nat) (throws : Bool)
  | adopt
  | checkSize
  | nameKey (now : Nat)
  | construct (throws : Bool)
  | register
  | onComplete
  deriving DecidableEq, Repr

/-- The main thread ticks, the event threads take completions. -/
def AcceptCall.onThread : AcceptCall → Nat → Bool
  | tick, k => k == 0
  | onEventComplete, k => k != 0
  | _, _ => true

namespace AcceptLoop

/-- A call of a thread, and where it leads the thread. -/
def act (s : AcceptLoop) : AcceptPoint → AcceptCall → Option (AcceptLoop × AcceptPoint)
  | .idle, .tick => if s.state = .stop then some (s, .restarting) else none
  | .idle, .onEventComplete =>
      match s.completions with
      | [] => none
      | transferred :: rest =>
          if transferred = eventFailed then
            some ({ s with completions := rest, leaked := s.leaked ++ s.acceptedSocket.toList }, .completing)
          else some ({ s with completions := rest }, .handling)
  | .starting, .setRunning | .restarting, .setRunning => some ({ s with state := .running }, .creating)
  | .creating, .createSocket true =>
      some ({ s with acceptedSocket := some s.numOfSockets, numOfSockets := s.numOfSockets + 1 }, .posting)
  | .creating, .createSocket false => some ({ s with acceptedSocket := none }, .stopping)
  | .posting, .acceptEx true => some ({ s with outstanding := s.outstanding + 1 }, .idle)
  -- nothing closes the socket, and the next one takes its place
  | .posting, .acceptEx false => some ({ s with leaked := s.leaked ++ s.acceptedSocket.toList }, .stopping)
  | .stopping, .setStop => some ({ s with state := .stop }, .idle)
  | .handling, .processTasks now =>
      some (s, if s.cleanTask.isExpired now then .cleaning 0 else .adopting)
  | .cleaning i, .cleanEntry now =>
      if i < s.server.connectionEnv.numOfMaxConnections then
        some ({ s with server := s.server.cleanupExpiredConnection i now }, .cleaning (i + 1))
      else none
  | .cleaning i, .cleanDone now throws =>
      if throws ∨ s.server.connectionEnv.numOfMaxConnections ≤ i then
        some ({ s with cleanTask := s.cleanTask.invoke now throws }, .adopting)
      else none
  | .adopting, .adopt => s.acceptedSocket.map fun socket => (s, .checking socket)
  | .checking socket, .checkSize =>
      if s.server.IsFull then some ({ s with closed := s.closed ++ [socket] }, .completing)
      else some (s, .naming socket)
  | .naming socket, .nameKey now =>
      some (s, .constructing socket (s.server.newConnectionKey now) now)
  | .constructing socket key now, .construct false => some (s, .registering socket key now)
  -- the exception leaves `on_event_complete`, and the event loop suppresses it
  | .constructing socket _ _, .construct true =>
      some ({ s with closed := s.closed ++ [socket], thrown := s.thrown + 1 }, .idle)
  | .registering socket key now, .register =>
      some ({ s with server := s.server.registerConnection key now, attached := s.attached ++ [socket] },
        .completing)
  | .completing, .onComplete => some (s, .starting)
  | _, _ => none

end AcceptLoop

/-- What is next: something else happens to the server, a thread is spawned, the accept event completes, or a
thread makes a call. -/
inductive AcceptEvent where
  | server (e : Event)
  | spawnEventThread
  | complete (transferred : Nat)
  | thread (k : Nat) (call : AcceptCall)

/-- The events of the server that are made on the path of the accept event alone. -/
def Event.onAcceptPath : Event → Bool
  | .accept _ | .cleanup .. => true
  | _ => false

namespace AcceptLoop

/-- The constructor of `TcpServer`, and the main thread at `start_network_io_service`. -/
def init (maxClients : Nat) (metadata : WorldMetadata) (blockMapping : List UInt8) (now : Nat) : AcceptLoop :=
  { server := Server.init maxClients metadata blockMapping
    cleanTask := { tag := .cleanConnection, period := 2000, expiredAt := now + 2000 } }

/-- The other threads do what the server does, except on the path of the accept event. -/
def step (s : AcceptLoop) : AcceptEvent → Option AcceptLoop
  | .server e => if e.onAcceptPath then none else (s.server.step e).map fun server => { s with server := server }
  | .spawnEventThread => some { s with threads := s.threads ++ [.idle] }
  | .complete transferred =>
      if 0 < s.outstanding then
        some { s with outstanding := s.outstanding - 1, completions := s.completions ++ [transferred] }
      else none
  | .thread k call =>
      (s.threads[k]?).bind fun p =>
        if call.onThread k then
          (s.act p call).map fun r => { r.1 with threads := r.1.threads.set k r.2 }
        else none

end AcceptLoop

/-- What a call is to the server: an accept is the registration of its connection. -/
def AcceptPoint.serverEvents : AcceptPoint → AcceptCall → List Event
  | .cleaning i, .cleanEntry now => [.cleanup i now]
  | .registering _ _ now, .register => [.accept now]
  | _, _ => []

namespace AcceptLoop

/-- The events of the server that a step amounts to. -/
def serverEvents (s : AcceptLoop) : AcceptEvent → List Event
  | .server e => [e]
  | .thread k call => (s.threads[k]?).elim [] (·.serverEvents call)
  | .spawnEventThread | .complete _ => []

/-! ## What is kept -/

/-- What a thread on the path knows of the table.  It holds on to it, since no other thread changes it. -/
def PointOk (s : Server) : AcceptPoint → Prop
  | .naming _ => s.connectionEnv.numOfConnections < s.connectionEnv.numOfMaxConnections
  | .constructing _ key now | .registering _ key now =>
      s.connectionEnv.numOfConnections < s.connectionEnv.numOfMaxConnections ∧
        key = ⟨s.connectionEnv.getUnusedConnectionId, monotonicTick32 now⟩
  | _ => True

/-- Where the token is, unless with a thread. -/
def outer (s : AcceptLoop) : Nat :=
  s.outstanding + s.completions.length + (if s.state = .stop then 1 else 0) + s.thrown

/-- Whether the accept event holds the socket, for threads that hold it `n` times. -/
def eventTokens (s : AcceptLoop) (n : Nat) : Nat := n + s.outstanding + s.completions.length

/-- All sockets, for threads that hold the event `n` times and the sockets `m`. -/
def places (s : AcceptLoop) (n : Nat) (m : Multiset Nat) : Multiset Nat :=
  s.eventTokens n • (s.acceptedSocket.toList : Multiset Nat) + m + s.attached + s.closed + s.leaked

/-- The token is in one place, and each socket is. The other fields say what the token has to do with the
rest: only the main thread restarts, a thread remembers the table correctly, and an event on its way has a
socket. -/
structure Ok (s : AcceptLoop) : Prop where
  table : TableOk s.server
  token : held AcceptPoint.token s.threads + s.outer = 1
  restarting : ∀ k, s.threads[k]? = some .restarting → k = 0 ∧ s.state = .stop
  point : ∀ p ∈ s.threads, PointOk s.server p
  posted : s.eventTokens (held AcceptPoint.eventToken s.threads) ≠ 0 → s.acceptedSocket.isSome = true
  sockets : s.places (held AcceptPoint.eventToken s.threads) (held AcceptPoint.sockets s.threads) =
    Multiset.range s.numOfSockets
  accepted : s.attached.length = s.server.numOfAccepted

variable {s s' t : AcceptLoop} {k : Nat} {p p' : AcceptPoint}

/-! What a step can do. -/

/-- An event of another thread leaves everything but the server alone. -/
theorem step_server {e : Event} (hstep : s.step (.server e) = some t) :
    e.onAcceptPath = false ∧ ∃ server, s.server.step e = some server ∧ t = { s with server := server } := by
  simp only [step] at hstep
  split_ifs at hstep with hpath
  obtain ⟨server, hserver, rfl⟩ := Option.map_eq_some_iff.mp hstep
  exact ⟨Bool.eq_false_of_not_eq_true hpath, server, hserver, rfl⟩

/-- A posted event is completed, with the bytes it transferred or as failed. -/
theorem step_complete {transferred : Nat} (hstep : s.step (.complete transferred) = some t) :
    0 < s.outstanding ∧
      t = { s with outstanding := s.outstanding - 1, completions := s.completions ++ [transferred] } := by
  simp only [step] at hstep
  split_ifs at hstep with hout
  exact ⟨hout, (Option.some.inj hstep).symm⟩

/-- A call leaves the other threads where they are. -/
theorem step_thread {call : AcceptCall} (hstep : s.step (.thread k call) = some t) :
    ∃ p s' p', s.threads[k]? = some p ∧ call.onThread k = true ∧ s.act p call = some (s', p') ∧
      t = { s' with threads := s'.threads.set k p' } := by
  obtain ⟨p, hk, hcall⟩ := Option.bind_eq_some_iff.mp hstep
  split_ifs at hcall with hthread
  obtain ⟨⟨s', p'⟩, hact, rfl⟩ := Option.map_eq_some_iff.mp hcall
  exact ⟨p, s', p', hk, hthread, hact, rfl⟩

/-- A thread that is not on the path has read nothing of the table. -/
theorem pointOk_of_token {server : Server} (hp : p.token = 0) : PointOk server p := by
  cases p <;> trivial

/-- Other threads leave what is known of the table. -/
theorem PointOk.of_sameSlots {server server' : Server} (h : PointOk server p) (hslots : SameSlots server server') :
    PointOk server' p := by
  unfold PointOk at h ⊢
  rw [hslots.numOfMaxConnections, hslots.numOfConnections, hslots.getUnusedConnectionId]
  exact h

/-- Nobody but thread `k`, at `p`, has the token, if it has it. -/
structure Alone (s : AcceptLoop) (k : Nat) (p : AcceptPoint) : Prop where
  thread : s.threads[k]? = some p
  held : held AcceptPoint.token s.threads = p.token
  main : s.state = .stop → k = 0

/-- If the token is with a thread, the event is not posted and not completed, and the server runs. -/
theorem eq_of_outer_eq_zero (h : s.outer = 0) :
    s.outstanding = 0 ∧ s.completions = [] ∧ s.state ≠ .stop ∧ s.thrown = 0 := by
  rw [outer] at h
  refine ⟨by omega, List.eq_nil_of_length_eq_zero (by omega), fun hstop => ?_, by omega⟩
  rw [if_pos hstop] at h
  omega

namespace Alone

/-- The others are not on the path. -/
theorem token_eq_zero (h : s.Alone k p) {j : Nat} {q : AcceptPoint} (hj : s.threads[j]? = some q) (hjk : j ≠ k) :
    q.token = 0 := by
  have hle := add_le_held (f := AcceptPoint.token) hj h.thread hjk
  have hheld := h.held
  omega

/-- What goes with the token is with the thread. -/
theorem held_eq (h : s.Alone k p) :
    Lib.held AcceptPoint.eventToken s.threads = p.eventToken ∧
      Lib.held AcceptPoint.sockets s.threads = p.sockets :=
  ⟨held_eq_single h.thread h.held.le fun _ => AcceptPoint.eventToken_eq_zero,
    held_eq_single h.thread h.held.le fun _ => AcceptPoint.sockets_eq_zero⟩

end Alone

namespace Ok

/-- The thread with the token has it alone. -/
theorem alone (h : Ok s) (hk : s.threads[k]? = some p) (hp : p.token = 1) : s.Alone k p ∧ s.outer = 0 := by
  have hle := le_held (f := AcceptPoint.token) hk
  have hone := h.token
  have hzero : s.outer = 0 := by omega
  exact ⟨⟨hk, by omega, fun hstop => absurd hstop (eq_of_outer_eq_zero hzero).2.2.1⟩, hzero⟩

/-- All sockets that other threads do not have are with this one, or outside. -/
theorem places_alone (h : Ok s) (halone : s.Alone k p) :
    s.places p.eventToken p.sockets = Multiset.range s.numOfSockets := by
  rw [← h.sockets, halone.held_eq.1, halone.held_eq.2]

/-- The event of a thread has a socket. -/
theorem posted_of_event (h : Ok s) (hk : s.threads[k]? = some p) (hevent : p.eventToken = 1) :
    s.acceptedSocket.isSome = true := by
  have hle := le_held (f := AcceptPoint.eventToken) hk
  refine h.posted ?_
  rw [eventTokens]
  omega

/-- A call of a thread that is alone: what it has to keep is said of this thread. -/
theorem advance (h : Ok s) (s' : AcceptLoop) (halone : s.Alone k p) (hthreads : s'.threads = s.threads)
    (htable : TableOk s'.server) (htoken : p'.token + s'.outer = 1)
    (hp' : p' = .restarting → k = 0 ∧ s'.state = .stop) (hpoint : PointOk s'.server p')
    (hposted : s'.eventTokens p'.eventToken ≠ 0 → s'.acceptedSocket.isSome = true)
    (hsockets : s'.places p'.eventToken p'.sockets = Multiset.range s'.numOfSockets)
    (haccepted : s'.attached.length = s'.server.numOfAccepted) :
    Ok { s' with threads := s'.threads.set k p' } := by
  have hset : (s.threads.set k p')[k]? = some p' :=
    List.getElem?_set_self (List.getElem?_eq_some_iff.mp halone.thread).1
  have hother : ∀ {j q}, (s.threads.set k p')[j]? = some q → k ≠ j → s.threads[j]? = some q := fun hj hjk =>
    (List.getElem?_set_ne hjk).symm.trans hj
  have hheld : held AcceptPoint.token (s.threads.set k p') = p'.token := by
    have hsum := held_set (f := AcceptPoint.token) halone.thread p'
    have hbefore := halone.held
    omega
  have hevent : held AcceptPoint.eventToken (s.threads.set k p') = p'.eventToken :=
    held_eq_single hset hheld.le fun _ => AcceptPoint.eventToken_eq_zero
  have hthread : held AcceptPoint.sockets (s.threads.set k p') = p'.sockets :=
    held_eq_single hset hheld.le fun _ => AcceptPoint.sockets_eq_zero
  rw [hthreads]
  refine ⟨htable, ?_, fun j hj => ?_, fun q hq => ?_, ?_, ?_, haccepted⟩
  · show held AcceptPoint.token (s.threads.set k p') + s'.outer = 1
    rw [hheld, htoken]
  · -- only the main thread restarts, and it is this one if the server was stopped
    by_cases hjk : k = j
    · subst hjk
      exact hp' (Option.some.inj (hset.symm.trans hj))
    · obtain ⟨hzero, hstop⟩ := h.restarting j (hother hj hjk)
      exact absurd ((halone.main hstop).trans hzero.symm) hjk
  · obtain ⟨j, hj⟩ := List.getElem?_of_mem hq
    by_cases hjk : k = j
    · subst hjk
      rw [← Option.some.inj (hset.symm.trans hj)]
      exact hpoint
    · exact pointOk_of_token (halone.token_eq_zero (hother hj hjk) (Ne.symm hjk))
  · show s'.eventTokens (held AcceptPoint.eventToken (s.threads.set k p')) ≠ 0 → _
    rw [hevent]
    exact hposted
  · show s'.places (held AcceptPoint.eventToken (s.threads.set k p'))
      (held AcceptPoint.sockets (s.threads.set k p')) = _
    rw [hevent, hthread]
    exact hsockets

/-- A call that leaves the socket where it is. -/
theorem move (h : Ok s) (hk : s.threads[k]? = some p) (hp : p.token = 1) (server : Server) (cleanTask : IntervalTask)
    {p' : AcceptPoint} (hp' : p'.token = 1) (hevent : p'.eventToken = p.eventToken)
    (hsockets : p'.sockets = p.sockets) (htable : TableOk server)
    (haccepted : server.numOfAccepted = s.server.numOfAccepted) (hpoint : PointOk server p') :
    Ok { s with server := server, cleanTask := cleanTask, threads := s.threads.set k p' } := by
  obtain ⟨halone, hzero⟩ := h.alone hk hp
  have hplaces := h.places_alone halone
  refine h.advance { s with server := server, cleanTask := cleanTask } halone rfl htable ?_ ?_ hpoint ?_ ?_
    (h.accepted.trans haccepted.symm)
  · rw [hp']
    exact congrArg (1 + ·) hzero
  · rintro rfl
    exact absurd hp' Nat.zero_ne_one
  · intro hne
    refine h.posted ?_
    rw [halone.held_eq.1, ← hevent]
    exact hne
  · rw [← hevent, ← hsockets] at hplaces
    exact hplaces

/-! ### Posting the event -/

/-- The tick finds the server stopped. -/
theorem tick (h : Ok s) (hk : s.threads[k]? = some .idle) (hmain : k = 0) (hstop : s.state = .stop) :
    Ok { s with threads := s.threads.set k .restarting } := by
  have hone := h.token
  rw [outer, if_pos hstop] at hone
  -- the token is the stopped server's, so no thread is on the path
  have halone : s.Alone k .idle := ⟨hk, by rw [AcceptPoint.token]; omega, fun _ => hmain⟩
  have houter : s.outer = 1 := by
    rw [outer, if_pos hstop]
    omega
  have hplaces := h.places_alone halone
  refine h.advance s halone rfl h.table ?_ (fun _ => ⟨hmain, hstop⟩) trivial ?_ hplaces h.accepted
  · rw [houter, AcceptPoint.token]
  · intro hne
    refine h.posted ?_
    rw [halone.held_eq.1]
    exact hne

theorem setRunning (h : Ok s) (halone : s.Alone k p) (hevent : p.eventToken = 0) (hsockets : p.sockets = 0)
    (hout : s.outstanding = 0) (hcomp : s.completions = []) (hthrown : s.thrown = 0) :
    Ok { s with state := .running, threads := s.threads.set k .creating } := by
  have hplaces := h.places_alone halone
  rw [hevent, hsockets] at hplaces
  refine h.advance { s with state := .running } halone rfl h.table ?_ nofun trivial ?_ hplaces h.accepted
  · simp [outer, hout, hcomp, hthrown, AcceptPoint.token]
  · simp [eventTokens, hout, hcomp, AcceptPoint.eventToken]

/-- From a server that is not stopped, and from one that is. -/
theorem setRunning_starting (h : Ok s) (hk : s.threads[k]? = some .starting) :
    Ok { s with state := .running, threads := s.threads.set k .creating } := by
  obtain ⟨halone, hzero⟩ := h.alone hk rfl
  obtain ⟨hout, hcomp, -, hthrown⟩ := eq_of_outer_eq_zero hzero
  exact h.setRunning halone rfl rfl hout hcomp hthrown

theorem setRunning_restarting (h : Ok s) (hk : s.threads[k]? = some .restarting) :
    Ok { s with state := .running, threads := s.threads.set k .creating } := by
  obtain ⟨hmain, hstop⟩ := h.restarting k hk
  have hone := h.token
  rw [outer, if_pos hstop] at hone
  refine h.setRunning (p := .restarting) ⟨hk, ?_, fun _ => hmain⟩ rfl rfl ?_ ?_ ?_
  · rw [AcceptPoint.token]
    omega
  · omega
  · exact List.eq_nil_of_length_eq_zero (by omega)
  · omega

/-- A new socket is the event's. -/
theorem createSocket (h : Ok s) (hk : s.threads[k]? = some .creating) :
    Ok { s with acceptedSocket := some s.numOfSockets, numOfSockets := s.numOfSockets + 1
                threads := s.threads.set k .posting } := by
  obtain ⟨halone, hzero⟩ := h.alone hk rfl
  obtain ⟨hout, hcomp, -, -⟩ := eq_of_outer_eq_zero hzero
  have hplaces := h.places_alone halone
  -- nobody holds the event, so the socket that is overwritten is elsewhere
  refine h.advance { s with acceptedSocket := some s.numOfSockets, numOfSockets := s.numOfSockets + 1 }
    halone rfl h.table (congrArg (1 + ·) hzero) nofun trivial (fun _ => rfl) ?_ h.accepted
  simp only [places, eventTokens, hout, hcomp, List.length_nil, Nat.add_zero, AcceptPoint.eventToken,
    AcceptPoint.sockets, zero_nsmul, one_nsmul, Option.toList_some, Multiset.coe_singleton] at hplaces ⊢
  rw [Multiset.range_succ, ← hplaces, ← Multiset.singleton_add]
  abel

theorem createSocket_failed (h : Ok s) (hk : s.threads[k]? = some .creating) :
    Ok { s with acceptedSocket := none, threads := s.threads.set k .stopping } := by
  obtain ⟨halone, hzero⟩ := h.alone hk rfl
  obtain ⟨hout, hcomp, -, -⟩ := eq_of_outer_eq_zero hzero
  have hplaces := h.places_alone halone
  refine h.advance { s with acceptedSocket := none } halone rfl h.table (congrArg (1 + ·) hzero) nofun
    trivial ?_ ?_ h.accepted
  · simp [eventTokens, hout, hcomp, AcceptPoint.eventToken]
  · simpa [places, eventTokens, hout, hcomp, AcceptPoint.eventToken, AcceptPoint.sockets] using hplaces

theorem acceptEx (h : Ok s) (hk : s.threads[k]? = some .posting) :
    Ok { s with outstanding := s.outstanding + 1, threads := s.threads.set k .idle } := by
  obtain ⟨halone, hzero⟩ := h.alone hk rfl
  obtain ⟨hout, hcomp, -, -⟩ := eq_of_outer_eq_zero hzero
  have hplaces := h.places_alone halone
  refine h.advance { s with outstanding := s.outstanding + 1 } halone rfl h.table ?_ nofun trivial ?_ ?_
    h.accepted
  · simp only [outer, AcceptPoint.token] at hzero ⊢
    omega
  · exact fun _ => h.posted_of_event hk rfl
  · simpa [places, eventTokens, hout, hcomp, AcceptPoint.eventToken, AcceptPoint.sockets] using hplaces

/-- The socket of an event that is not posted stays open. -/
theorem acceptEx_failed (h : Ok s) (hk : s.threads[k]? = some .posting) :
    Ok { s with leaked := s.leaked ++ s.acceptedSocket.toList, threads := s.threads.set k .stopping } := by
  obtain ⟨halone, hzero⟩ := h.alone hk rfl
  obtain ⟨hout, hcomp, -, -⟩ := eq_of_outer_eq_zero hzero
  have hplaces := h.places_alone halone
  refine h.advance { s with leaked := s.leaked ++ s.acceptedSocket.toList } halone rfl h.table
    (congrArg (1 + ·) hzero) nofun trivial ?_ ?_ h.accepted
  · simp [eventTokens, hout, hcomp, AcceptPoint.eventToken]
  · simp only [places, eventTokens, hout, hcomp, List.length_nil, Nat.add_zero, AcceptPoint.eventToken,
      AcceptPoint.sockets, zero_nsmul, one_nsmul] at hplaces ⊢
    rw [← hplaces, ← Multiset.coe_add]
    abel

theorem setStop (h : Ok s) (hk : s.threads[k]? = some .stopping) :
    Ok { s with state := .stop, threads := s.threads.set k .idle } := by
  obtain ⟨halone, hzero⟩ := h.alone hk rfl
  obtain ⟨hout, hcomp, -, hthrown⟩ := eq_of_outer_eq_zero hzero
  have hplaces := h.places_alone halone
  refine h.advance { s with state := .stop } halone rfl h.table ?_ nofun trivial ?_ hplaces h.accepted
  · simp [outer, hout, hcomp, hthrown, AcceptPoint.token]
  · simp [eventTokens, hout, hcomp, AcceptPoint.eventToken]

/-! ### Handling a completion -/

/-- The only completion is taken. -/
theorem take (h : Ok s) (hk : s.threads[k]? = some .idle) {transferred : Nat} {rest : List Nat}
    (hcomp : s.completions = transferred :: rest) :
    s.Alone k .idle ∧ s.outstanding = 0 ∧ rest = [] ∧ s.state ≠ .stop ∧ s.thrown = 0 := by
  have hone := h.token
  rw [outer, hcomp, List.length_cons] at hone
  have hrunning : s.state ≠ .stop := by
    intro hstop
    rw [if_pos hstop] at hone
    omega
  exact ⟨⟨hk, by rw [AcceptPoint.token]; omega, fun hstop => absurd hstop hrunning⟩, by omega,
    List.eq_nil_of_length_eq_zero (by omega), hrunning, by omega⟩

/-- The completion moves from the queue to the thread. -/
theorem onEventComplete (h : Ok s) (hk : s.threads[k]? = some .idle) {transferred : Nat} {rest : List Nat}
    (hcomp : s.completions = transferred :: rest) :
    Ok { s with completions := rest, threads := s.threads.set k .handling } := by
  obtain ⟨halone, hout, rfl, hrunning, hthrown⟩ := h.take hk hcomp
  have hplaces := h.places_alone halone
  refine h.advance { s with completions := [] } halone rfl h.table ?_ nofun trivial ?_ ?_ h.accepted
  · simp [outer, hout, hthrown, hrunning, AcceptPoint.token]
  · refine fun _ => h.posted ?_
    rw [eventTokens, hcomp, List.length_singleton]
    omega
  · simpa [places, eventTokens, hout, hcomp, AcceptPoint.eventToken, AcceptPoint.sockets] using hplaces

/-- A failed completion stops the server, and its socket stays open. -/
theorem onEventComplete_failed (h : Ok s) (hk : s.threads[k]? = some .idle) {transferred : Nat} {rest : List Nat}
    (hcomp : s.completions = transferred :: rest) :
    Ok { s with completions := rest, leaked := s.leaked ++ s.acceptedSocket.toList
                threads := s.threads.set k .completing } := by
  obtain ⟨halone, hout, rfl, hrunning, hthrown⟩ := h.take hk hcomp
  have hplaces := h.places_alone halone
  refine h.advance { s with completions := [], leaked := s.leaked ++ s.acceptedSocket.toList } halone rfl
    h.table ?_ nofun trivial ?_ ?_ h.accepted
  · simp [outer, hout, hthrown, hrunning, AcceptPoint.token]
  · simp [eventTokens, hout, AcceptPoint.eventToken]
  · simp only [places, eventTokens, hout, hcomp, List.length_nil, List.length_singleton, Nat.add_zero, Nat.zero_add,
      AcceptPoint.eventToken, AcceptPoint.sockets, zero_nsmul, one_nsmul] at hplaces ⊢
    rw [← hplaces, ← Multiset.coe_add]
    abel

/-- The socket moves from the event to the thread. -/
theorem adopt (h : Ok s) (hk : s.threads[k]? = some .adopting) {socket : Nat}
    (hsocket : s.acceptedSocket = some socket) : Ok { s with threads := s.threads.set k (.checking socket) } := by
  obtain ⟨halone, hzero⟩ := h.alone hk rfl
  obtain ⟨hout, hcomp, -, -⟩ := eq_of_outer_eq_zero hzero
  have hplaces := h.places_alone halone
  refine h.advance s halone rfl h.table (congrArg (1 + ·) hzero) nofun trivial ?_ ?_ h.accepted
  · simp [eventTokens, hout, hcomp, AcceptPoint.eventToken]
  · simp only [places, eventTokens, hout, hcomp, hsocket, List.length_nil, Nat.add_zero, AcceptPoint.eventToken,
      AcceptPoint.sockets, zero_nsmul, one_nsmul, Option.toList_some, Multiset.coe_singleton] at hplaces ⊢
    rw [← hplaces]
    abel

/-- The socket goes out of scope. -/
theorem close (h : Ok s) (hk : s.threads[k]? = some p) (hp : p.token = 1) (hevent : p.eventToken = 0) {socket : Nat}
    (hsocket : p.sockets = {socket}) (thrown : Nat) {p' : AcceptPoint} (hp' : p' ≠ .restarting)
    (hthrown : p'.token + thrown = 1) (hevent' : p'.eventToken = 0) (hsocket' : p'.sockets = 0)
    (hpoint : PointOk s.server p') :
    Ok { s with closed := s.closed ++ [socket], thrown := s.thrown + thrown, threads := s.threads.set k p' } := by
  obtain ⟨halone, hzero⟩ := h.alone hk hp
  obtain ⟨hout, hcomp, -, -⟩ := eq_of_outer_eq_zero hzero
  have hplaces := h.places_alone halone
  -- the token goes on with the thread, or is lost with the exception
  refine h.advance { s with closed := s.closed ++ [socket], thrown := s.thrown + thrown } halone rfl h.table
    ?_ (fun heq => absurd heq hp') hpoint ?_ ?_ h.accepted
  · simp only [outer] at hzero ⊢
    omega
  · simp [eventTokens, hout, hcomp, hevent']
  · simp only [places, eventTokens, hout, hcomp, List.length_nil, Nat.add_zero, hevent, hevent', hsocket, hsocket',
      zero_nsmul] at hplaces ⊢
    rw [← hplaces, ← Multiset.coe_add, Multiset.coe_singleton]
    abel

end Ok

/-- The connection is registered in the slot that was unused when its key was made: that is what an accept
at one go does. -/
theorem accept_eq {server : Server} {socket : Nat} {key : ConnectionKey} {now : Nat}
    (hpoint : PointOk server (.registering socket key now)) :
    server.accept now = server.registerConnection key now := by
  obtain ⟨hlt, rfl⟩ := hpoint
  exact if_neg (Nat.not_le_of_lt hlt)

namespace Ok

/-- The connection is registered, and the socket is its own. -/
theorem register (h : Ok s) {socket : Nat} {key : ConnectionKey} {now : Nat}
    (hk : s.threads[k]? = some (.registering socket key now)) :
    Ok { s with server := s.server.registerConnection key now, attached := s.attached ++ [socket]
                threads := s.threads.set k .completing } := by
  obtain ⟨halone, hzero⟩ := h.alone hk rfl
  obtain ⟨hout, hcomp, -, -⟩ := eq_of_outer_eq_zero hzero
  have hplaces := h.places_alone halone
  have htable : TableOk (s.server.registerConnection key now) := by
    rw [← accept_eq (h.point _ (List.mem_of_getElem? hk))]
    exact h.table.accept now
  refine h.advance { s with
    server := s.server.registerConnection key now
    attached := s.attached ++ [socket] } halone rfl htable (congrArg (1 + ·) hzero) nofun trivial ?_ ?_ ?_
  · simp [eventTokens, hout, hcomp, AcceptPoint.eventToken]
  · simp only [places, eventTokens, hout, hcomp, List.length_nil, Nat.add_zero, AcceptPoint.eventToken,
      AcceptPoint.sockets, zero_nsmul] at hplaces ⊢
    rw [← hplaces, ← Multiset.coe_add, Multiset.coe_singleton]
    abel
  · show (s.attached ++ [socket]).length = s.server.numOfAccepted + 1
    rw [List.length_append, h.accepted, List.length_singleton]

/-- Every call of a thread keeps the invariant. -/
theorem act (h : Ok s) (hk : s.threads[k]? = some p) {call : AcceptCall} (hthread : call.onThread k = true)
    (hact : s.act p call = some (s', p')) : Ok { s' with threads := s'.threads.set k p' } := by
  cases p with
  | idle =>
      cases call with
      | tick =>
          simp only [AcceptLoop.act] at hact
          split_ifs at hact with hstop
          obtain ⟨rfl, rfl⟩ := Prod.mk.inj (Option.some.inj hact)
          exact h.tick hk (beq_iff_eq.mp hthread) hstop
      | onEventComplete =>
          cases hcomp : s.completions with
          | nil =>
              simp only [AcceptLoop.act, hcomp] at hact
              cases hact
          | cons transferred rest =>
              simp only [AcceptLoop.act, hcomp] at hact
              split_ifs at hact
              · obtain ⟨rfl, rfl⟩ := Prod.mk.inj (Option.some.inj hact)
                exact h.onEventComplete_failed hk hcomp
              · obtain ⟨rfl, rfl⟩ := Prod.mk.inj (Option.some.inj hact)
                exact h.onEventComplete hk hcomp
      | _ => cases hact
  | starting =>
      cases call with
      | setRunning =>
          obtain ⟨rfl, rfl⟩ := Prod.mk.inj (Option.some.inj hact)
          exact h.setRunning_starting hk
      | _ => cases hact
  | restarting =>
      cases call with
      | setRunning =>
          obtain ⟨rfl, rfl⟩ := Prod.mk.inj (Option.some.inj hact)
          exact h.setRunning_restarting hk
      | _ => cases hact
  | creating =>
      cases call with
      | createSocket created =>
          cases created with
          | true =>
              obtain ⟨rfl, rfl⟩ := Prod.mk.inj (Option.some.inj hact)
              exact h.createSocket hk
          | false =>
              obtain ⟨rfl, rfl⟩ := Prod.mk.inj (Option.some.inj hact)
              exact h.createSocket_failed hk
      | _ => cases hact
  | posting =>
      cases call with
      | acceptEx pending =>
          cases pending with
          | true =>
              obtain ⟨rfl, rfl⟩ := Prod.mk.inj (Option.some.inj hact)
              exact h.acceptEx hk
          | false =>
              obtain ⟨rfl, rfl⟩ := Prod.mk.inj (Option.some.inj hact)
              exact h.acceptEx_failed hk
      | _ => cases hact
  | stopping =>
      cases call with
      | setStop =>
          obtain ⟨rfl, rfl⟩ := Prod.mk.inj (Option.some.inj hact)
          exact h.setStop hk
      | _ => cases hact
  | handling =>
      cases call with
      | processTasks now =>
          obtain ⟨rfl, rfl⟩ := Prod.mk.inj (Option.some.inj hact)
          split_ifs
          · exact h.move hk rfl s.server s.cleanTask rfl rfl rfl h.table rfl trivial
          · exact h.move hk rfl s.server s.cleanTask rfl rfl rfl h.table rfl trivial
      | _ => cases hact
  | cleaning i =>
      cases call with
      | cleanEntry now =>
          simp only [AcceptLoop.act] at hact
          split_ifs at hact
          obtain ⟨rfl, rfl⟩ := Prod.mk.inj (Option.some.inj hact)
          have htable : TableOk (s.server.cleanupExpiredConnection i now) := h.table.step (e := .cleanup i now) rfl
          exact h.move hk rfl _ s.cleanTask rfl rfl rfl htable
            (s.server.cleanupExpiredConnection_numOfAccepted i now) trivial
      | cleanDone now throws =>
          simp only [AcceptLoop.act] at hact
          split_ifs at hact
          obtain ⟨rfl, rfl⟩ := Prod.mk.inj (Option.some.inj hact)
          exact h.move hk rfl s.server (s.cleanTask.invoke now throws) rfl rfl rfl h.table rfl trivial
      | _ => cases hact
  | adopting =>
      cases call with
      | adopt =>
          obtain ⟨socket, hsocket, heq⟩ := Option.map_eq_some_iff.mp hact
          obtain ⟨rfl, rfl⟩ := Prod.mk.inj heq
          exact h.adopt hk hsocket
      | _ => cases hact
  | checking socket =>
      cases call with
      | checkSize =>
          simp only [AcceptLoop.act] at hact
          split_ifs at hact with hfull
          · obtain ⟨rfl, rfl⟩ := Prod.mk.inj (Option.some.inj hact)
            exact h.close hk rfl rfl rfl 0 nofun rfl rfl rfl trivial
          · obtain ⟨rfl, rfl⟩ := Prod.mk.inj (Option.some.inj hact)
            exact h.move hk rfl s.server s.cleanTask rfl rfl rfl h.table rfl (Nat.lt_of_not_le hfull)
      | _ => cases hact
  | naming socket =>
      cases call with
      | nameKey now =>
          obtain ⟨rfl, rfl⟩ := Prod.mk.inj (Option.some.inj hact)
          have hlt : PointOk s.server (.naming socket) := h.point _ (List.mem_of_getElem? hk)
          exact h.move hk rfl s.server s.cleanTask rfl rfl rfl h.table rfl ⟨hlt, rfl⟩
      | _ => cases hact
  | constructing socket key now =>
      cases call with
      | construct throws =>
          cases throws with
          | true =>
              obtain ⟨rfl, rfl⟩ := Prod.mk.inj (Option.some.inj hact)
              exact h.close hk rfl rfl rfl 1 nofun rfl rfl rfl trivial
          | false =>
              obtain ⟨rfl, rfl⟩ := Prod.mk.inj (Option.some.inj hact)
              have hkey : PointOk s.server (.constructing socket key now) := h.point _ (List.mem_of_getElem? hk)
              exact h.move hk rfl s.server s.cleanTask rfl rfl rfl h.table rfl hkey
      | _ => cases hact
  | registering socket key now =>
      cases call with
      | register =>
          obtain ⟨rfl, rfl⟩ := Prod.mk.inj (Option.some.inj hact)
          exact h.register hk
      | _ => cases hact
  | completing =>
      cases call with
      | onComplete =>
          obtain ⟨rfl, rfl⟩ := Prod.mk.inj (Option.some.inj hact)
          exact h.move hk rfl s.server s.cleanTask rfl rfl rfl h.table rfl trivial
      | _ => cases hact

/-- The main thread is about to start the service, with nothing accepted. -/
theorem init (maxClients : Nat) (metadata : WorldMetadata) (blockMapping : List UInt8) (now : Nat) :
    Ok (AcceptLoop.init maxClients metadata blockMapping now) where
  table := TableOk.init ..
  token := rfl
  restarting k hk := by
    cases k with
    | zero => cases hk
    | succ k => cases hk
  point p hp := by
    rw [List.mem_singleton.mp hp]
    trivial
  posted hne := absurd rfl hne
  sockets := rfl
  accepted := rfl

/-- A new event thread begins idle. -/
theorem spawnEventThread (h : Ok s) : Ok { s with threads := s.threads ++ [AcceptPoint.idle] } := by
  have htoken := held_concat (f := AcceptPoint.token) AcceptPoint.idle s.threads
  have hevent := held_concat (f := AcceptPoint.eventToken) AcceptPoint.idle s.threads
  have hsockets : held AcceptPoint.sockets (s.threads ++ [AcceptPoint.idle]) = held AcceptPoint.sockets s.threads :=
    (held_concat ..).trans (add_zero _)
  refine ⟨h.table, ?_, fun j hj => ?_, fun p hp => ?_, ?_, ?_, h.accepted⟩
  · show held AcceptPoint.token (s.threads ++ [AcceptPoint.idle]) + s.outer = 1
    rw [htoken]
    exact h.token
  · rcases Nat.lt_or_ge j s.threads.length with hlt | hge
    · rw [List.getElem?_append_left hlt] at hj
      exact h.restarting j hj
    · -- the new thread is idle
      rw [List.getElem?_append_right hge] at hj
      have hmem := List.mem_singleton.mp (List.mem_of_getElem? hj)
      cases hmem
  · rcases List.mem_append.mp hp with hp | hp
    · exact h.point p hp
    · rw [List.mem_singleton.mp hp]
      trivial
  · rw [hevent]
    exact h.posted
  · rw [hevent, hsockets]
    exact h.sockets

/-- The event moves from outstanding to completed. -/
theorem complete (h : Ok s) (transferred : Nat) (hout : 0 < s.outstanding) :
    Ok { s with outstanding := s.outstanding - 1, completions := s.completions ++ [transferred] } := by
  -- the event moves from one place to another, and its socket with it
  have htokens : ∀ n, AcceptLoop.eventTokens
      { s with outstanding := s.outstanding - 1, completions := s.completions ++ [transferred] } n =
        s.eventTokens n := by
    intro n
    simp only [eventTokens, List.length_append, List.length_singleton]
    omega
  refine ⟨h.table, ?_, h.restarting, h.point, ?_, ?_, h.accepted⟩
  · have hone := h.token
    simp only [outer, List.length_append, List.length_singleton] at hone ⊢
    omega
  · rw [htokens]
    exact h.posted
  · rw [places, htokens]
    exact h.sockets

/-- Every step keeps the token one. -/
theorem step (h : Ok s) {e : AcceptEvent} (hstep : s.step e = some t) : Ok t := by
  cases e with
  | server e =>
      obtain ⟨hpath, server, hserver, rfl⟩ := step_server hstep
      -- what threads on the path know of the table depends on the used slots alone
      have hslots : SameSlots s.server server := by
        refine SameSlots.step h.table (fun now heq => ?_) (fun i now heq => ?_) hserver
        · subst heq
          cases hpath
        · subst heq
          cases hpath
      exact ⟨h.table.step hserver, h.token, h.restarting, fun p hp => (h.point p hp).of_sameSlots hslots, h.posted,
        h.sockets, h.accepted.trans hslots.numOfAccepted.symm⟩
  | spawnEventThread =>
      obtain rfl := Option.some.inj hstep
      exact h.spawnEventThread
  | complete transferred =>
      obtain ⟨hout, rfl⟩ := step_complete hstep
      exact h.complete transferred hout
  | thread k call =>
      obtain ⟨p, s', p', hk, hthread, hact, rfl⟩ := step_thread hstep
      exact h.act hk hthread hact

end Ok

/-- The invariant holds in every run. -/
theorem ok_of_run {maxClients : Nat} {metadata : WorldMetadata} {blockMapping : List UInt8} {now : Nat}
    {es : List AcceptEvent} (hrun : run step (init maxClients metadata blockMapping now) es = some s) : Ok s :=
  run_invariant (fun _ _ _ h hstep => h.step hstep) (Ok.init ..) hrun

/-! ## A run -/

/-- A world of one block. -/
def oneBlock : WorldMetadata :=
  { width := 1, height := 1, length := 1, volume := 1, spawnX := 0, spawnY := 1, spawnZ := 0, spawnYaw := 0
    spawnPitch := 0 }

/-- The main thread posts the event, and a thread handles its completion up to the construction. -/
def firstAccept : List AcceptEvent :=
  [.spawnEventThread, .thread 0 .setRunning, .thread 0 (.createSocket true), .thread 0 (.acceptEx true),
    .complete 0, .thread 1 .onEventComplete, .thread 1 (.processTasks 2000), .thread 1 (.cleanEntry 2000),
    .thread 1 (.cleanEntry 2000), .thread 1 (.cleanDone 2001 false), .thread 1 .adopt, .thread 1 .checkSize,
    .thread 1 (.nameKey 2001)]

/-- The connection is registered, and the event posted again. -/
def accepted : List AcceptEvent :=
  firstAccept ++ [.thread 1 (.construct false), .server (.schedule .syncBlock 2002 true), .thread 1 .register,
    .thread 1 .onComplete, .thread 1 .setRunning, .thread 1 (.createSocket true), .thread 1 (.acceptEx true)]

/-- These calls are possible, in this order. -/
theorem run_accepted : ∃ s, run step (init 2 oneBlock [] 0) accepted = some s :=
  Option.isSome_iff_exists.mp (by decide)

/-! ## One accept at a time -/

/-- **Exclusion.** At most one thread is on the path of the accept event, and while one is the event is
neither posted nor completed; a connection is registered in a slot that exists and is unused, in a table that
is not full.  The token is lost with the first exception in a handler, and in no other way. -/
structure Sequential (s : AcceptLoop) : Prop where
  one_thread : ∀ (j k : Nat) (p q : AcceptPoint), s.threads[j]? = some p → s.threads[k]? = some q →
    p.token = 1 → q.token = 1 → j = k
  alone : ∀ p ∈ s.threads, p.token = 1 → s.outstanding = 0 ∧ s.completions = [] ∧ s.state ≠ .stop
  one_event : s.outstanding + s.completions.length ≤ 1
  free : ∀ socket key now, .registering socket key now ∈ s.threads →
    key.index < s.server.connectionEnv.numOfMaxConnections ∧
      (s.server.connectionEnv.table key.index).used = false ∧
      s.server.connectionEnv.numOfConnections < s.server.connectionEnv.numOfMaxConnections
  alive : s.thrown = 0 ↔
    (∃ p ∈ s.threads, p.token = 1) ∨ s.outstanding = 1 ∨ s.completions ≠ [] ∨ s.state = .stop

namespace Ok

/-- A slot that is picked for a table that is not full. -/
theorem free (h : Ok s) {socket : Nat} {key : ConnectionKey} {now : Nat}
    (hmem : .registering socket key now ∈ s.threads) :
    key.index < s.server.connectionEnv.numOfMaxConnections ∧
      (s.server.connectionEnv.table key.index).used = false ∧
      s.server.connectionEnv.numOfConnections < s.server.connectionEnv.numOfMaxConnections := by
  obtain ⟨hlt, rfl⟩ : PointOk s.server (.registering socket key now) := h.point _ hmem
  have hcount := h.table.count
  obtain ⟨hindex, hunused⟩ := getUnusedConnectionId_spec s.server.connectionEnv (by omega)
  exact ⟨hindex, hunused, hlt⟩

/-- Some thread has the token, or none has it. -/
theorem token_cases (h : Ok s) :
    (∃ p ∈ s.threads, p.token = 1) ∧ s.outer = 0 ∨ (∀ p ∈ s.threads, p.token = 0) ∧ s.outer = 1 := by
  have hone := h.token
  by_cases hheld : ∀ p ∈ s.threads, p.token = 0
  · rw [held_eq_zero hheld, Nat.zero_add] at hone
    exact Or.inr ⟨hheld, hone⟩
  · push Not at hheld
    obtain ⟨p, hp, hne⟩ := hheld
    have htoken : p.token = 1 := by
      have hle := p.token_le_one
      omega
    obtain ⟨k, hk⟩ := List.getElem?_of_mem hp
    exact Or.inl ⟨⟨p, hp, htoken⟩, (h.alone hk htoken).2⟩

/-- With one token, two threads on the path are one thread. -/
theorem sequential (h : Ok s) : s.Sequential where
  one_thread j k p q hj hk hp hq := by
    by_contra hjk
    have hzero := (h.alone hk hq).1.token_eq_zero hj hjk
    omega
  alone p hp htoken := by
    obtain ⟨k, hk⟩ := List.getElem?_of_mem hp
    obtain ⟨hout, hcomp, hstop, -⟩ := eq_of_outer_eq_zero (h.alone hk htoken).2
    exact ⟨hout, hcomp, hstop⟩
  one_event := by
    have hone := h.token
    rw [outer] at hone
    omega
  free _ _ _ hmem := h.free hmem
  alive := by
    -- if no thread has the token, it is with the event, with the stopped server, or lost
    rcases h.token_cases with ⟨hthread, hzero⟩ | ⟨hidle, houter⟩
    · exact iff_of_true (eq_of_outer_eq_zero hzero).2.2.2 (Or.inl hthread)
    · have hnone : ¬ ∃ p ∈ s.threads, p.token = 1 := by
        rintro ⟨p, hp, htoken⟩
        exact absurd (hidle p hp) (by omega)
      rw [or_iff_right hnone, ← List.length_pos_iff]
      rw [outer] at houter
      by_cases hstop : s.state = .stop
      · rw [if_pos hstop] at houter
        exact iff_of_true (by omega) (Or.inr (Or.inr hstop))
      · rw [if_neg hstop] at houter
        rw [or_iff_left hstop]
        omega

end Ok

/-- **One accept at a time**, in every run: whatever the event threads, the main thread and the clients do,
and whichever of the calls fail or throw, no two threads are between the completion of the accept event and
its next post. So the slot that was picked is still unused when the connection is registered in it. -/
theorem sequential_of_run {maxClients : Nat} {metadata : WorldMetadata} {blockMapping : List UInt8} {now : Nat}
    {es : List AcceptEvent} (hrun : run step (init maxClients metadata blockMapping now) es = some s) :
    s.Sequential := (ok_of_run hrun).sequential

theorem sequential_of_run_accepted :
    ∃ s, run step (init 2 oneBlock [] 0) accepted = some s ∧ s.Sequential := by
  obtain ⟨s, hs⟩ := run_accepted
  exact ⟨s, hs, sequential_of_run hs⟩

/-! ## An accept is atomic -/

/-- A call is to the server what the model of the server says of it. -/
theorem run_act (h : Ok s) (hk : s.threads[k]? = some p) {call : AcceptCall} (hact : s.act p call = some (s', p')) :
    run Server.step s.server (p.serverEvents call) = some s'.server := by
  unfold act at hact
  split at hact
  case h_2 =>
    split at hact
    · cases hact
    · split_ifs at hact <;> (obtain ⟨rfl, rfl⟩ := Prod.mk.inj (Option.some.inj hact); rfl)
  case h_13 =>
    obtain ⟨socket, -, heq⟩ := Option.map_eq_some_iff.mp hact
    obtain ⟨rfl, rfl⟩ := Prod.mk.inj heq
    rfl
  case h_18 socket key now =>
    -- the connection is registered as if everything since the check had happened now
    obtain ⟨rfl, rfl⟩ := Prod.mk.inj (Option.some.inj hact)
    have haccept := accept_eq (h.point _ (List.mem_of_getElem? hk))
    exact (run_singleton ..).trans (congrArg some haccept)
  case h_10 | h_14 =>
    split_ifs at hact <;> (obtain ⟨rfl, rfl⟩ := Prod.mk.inj (Option.some.inj hact); rfl)
  case h_20 => cases hact
  -- the other calls leave the server alone, and a clean-up of an entry is that of the server
  all_goals
    try split_ifs at hact
    obtain ⟨rfl, rfl⟩ := Prod.mk.inj (Option.some.inj hact)
    rfl

/-- Each step of the loop is at most one event of the server. -/
theorem run_serverEvents (h : Ok s) {e : AcceptEvent} (hstep : s.step e = some t) :
    run Server.step s.server (s.serverEvents e) = some t.server := by
  cases e with
  | server e =>
      obtain ⟨-, server, hserver, rfl⟩ := step_server hstep
      exact (run_singleton ..).trans hserver
  | spawnEventThread =>
      obtain rfl := Option.some.inj hstep
      rfl
  | complete transferred =>
      obtain ⟨-, rfl⟩ := step_complete hstep
      rfl
  | thread k call =>
      obtain ⟨p, s', p', hk, -, hact, rfl⟩ := step_thread hstep
      have hserver := run_act h hk hact
      show run Server.step s.server ((s.threads[k]?).elim [] _) = some s'.server
      rw [hk, Option.elim_some]
      exact hserver

/-- **Refinement.** A run of the accept loop, with the calls of each accept interleaved with everything
else, is a run of the server in which each accept is one event, at the time of its registration. What is
proved of all runs of the server holds of the loop. The two readings of the clock in an accept, for the key
and for `last_interaction_tick`, are one. -/
theorem serverRun_of_run {maxClients : Nat} {metadata : WorldMetadata} {blockMapping : List UInt8} {now : Nat}
    {es : List AcceptEvent} (hrun : run step (init maxClients metadata blockMapping now) es = some s) :
    run Server.step (Server.init maxClients metadata blockMapping)
      (follow step (fun events s e => events ++ s.serverEvents e) [] (init maxClients metadata blockMapping now) es) =
      some s.server := by
  refine (run_invariant_follow (P := fun events s => Ok s ∧
    run Server.step (Server.init maxClients metadata blockMapping) events = some s.server) (G := fun _ _ => True)
    ?_ ⟨Ok.init .., rfl⟩ (Along.of_forall fun _ _ => trivial) hrun).2
  rintro events u e u' ⟨hu, hevents⟩ - hstep
  exact ⟨hu.step hstep, run_append_eq_some.mpr ⟨u.server, hevents, run_serverEvents hu hstep⟩⟩

theorem serverRun_of_run_accepted :
    ∃ s, run step (init 2 oneBlock [] 0) accepted = some s ∧
      run Server.step (Server.init 2 oneBlock []) (follow step (fun events s e => events ++ s.serverEvents e) []
        (init 2 oneBlock [] 0) accepted) = some s.server := by
  obtain ⟨s, hs⟩ := run_accepted
  exact ⟨s, hs, serverRun_of_run hs⟩

/-! ## Sockets -/

/-- **Sockets.** Each socket that was created is in one place: with the accept event, with the thread that
handles its completion, with the one connection it was registered for, closed, or left open where an event
could not be posted or failed. -/
structure SocketsOnce (s : AcceptLoop) : Prop where
  each : s.places (held AcceptPoint.eventToken s.threads) (held AcceptPoint.sockets s.threads) =
    Multiset.range s.numOfSockets
  distinct : (s.attached ++ s.closed ++ s.leaked).Nodup
  owned : s.attached.length = s.server.numOfAccepted

/-- **No socket is lost or used twice**, in every run: a socket is registered for one connection, or was
closed, or was left open by a post or a completion that failed (nothing closes it then).  As many are
registered as connections were accepted. -/
theorem socketsOnce_of_run {maxClients : Nat} {metadata : WorldMetadata} {blockMapping : List UInt8} {now : Nat}
    {es : List AcceptEvent} (hrun : run step (init maxClients metadata blockMapping now) es = some s) :
    s.SocketsOnce := by
  have h := ok_of_run hrun
  refine ⟨h.sockets, ?_, h.accepted⟩
  have hplaces := h.sockets
  rw [places, add_assoc, add_assoc, Multiset.coe_add, Multiset.coe_add, ← List.append_assoc] at hplaces
  have hle : ((s.attached ++ s.closed ++ s.leaked : List Nat) : Multiset Nat) ≤ Multiset.range s.numOfSockets := by
    rw [← hplaces]
    exact Multiset.le_add_left _ _
  exact Multiset.coe_nodup.mp (Multiset.nodup_of_le hle (Multiset.nodup_range _))

theorem socketsOnce_of_run_accepted :
    ∃ s, run step (init 2 oneBlock [] 0) accepted = some s ∧ s.SocketsOnce := by
  obtain ⟨s, hs⟩ := run_accepted
  exact ⟨s, hs, socketsOnce_of_run hs⟩

/-! ## An exception in a handler -/

/-- After an exception no thread makes a call on the path any more. -/
theorem Ok.no_act (h : Ok s) (hthrown : s.thrown ≠ 0) (hk : s.threads[k]? = some p) (call : AcceptCall) :
    s.act p call = none := by
  have hone := h.token
  rw [outer] at hone
  have hcomp : s.completions = [] := List.eq_nil_of_length_eq_zero (by omega)
  have hstop : s.state ≠ .stop := by
    intro hstop
    rw [if_pos hstop] at hone
    omega
  have htoken : p.token = 0 := by
    have hle := le_held (f := AcceptPoint.token) hk
    omega
  cases p with
  | idle =>
      cases call with
      | tick => exact if_neg hstop
      | onEventComplete =>
          simp only [AcceptLoop.act, hcomp]
      | _ => rfl
  | restarting => exact absurd (h.restarting k hk).2 hstop
  | _ => exact absurd htoken Nat.one_ne_zero

/-- **The token is not found again.** After an exception in a handler, whatever happens, no connection is
registered any more; and since the server is not marked stopped, no tick starts it again. The event loop
catches the exception and goes on, and `on_complete`, which posts the accept event again, was behind the
handler. -/
theorem attached_of_thrown {maxClients : Nat} {metadata : WorldMetadata} {blockMapping : List UInt8} {now : Nat}
    {pre es : List AcceptEvent} (hpre : run step (init maxClients metadata blockMapping now) pre = some s)
    (hthrown : s.thrown ≠ 0) (hrun : run step s es = some t) :
    t.attached = s.attached ∧ t.server.numOfAccepted = s.server.numOfAccepted ∧ t.state ≠ .stop := by
  have hok := ok_of_run hpre
  have hrule := run_invariant (P := fun u => Ok u ∧ u.thrown ≠ 0 ∧ u.attached = s.attached) ?_
    ⟨hok, hthrown, rfl⟩ hrun
  · obtain ⟨ht, hne, hattached⟩ := hrule
    refine ⟨hattached, ?_, fun hstop => ?_⟩
    · rw [← ht.accepted, hattached, hok.accepted]
    · exact hne (ht.sequential.alive.mpr (Or.inr (Or.inr (Or.inr hstop))))
  · -- only a call on the path registers a connection, and there is none
    rintro u e u' ⟨hu, hne, hattached⟩ hstep
    refine ⟨hu.step hstep, ?_⟩
    cases e with
    | server e =>
        obtain ⟨-, server, -, rfl⟩ := step_server hstep
        exact ⟨hne, hattached⟩
    | spawnEventThread =>
        obtain rfl := Option.some.inj hstep
        exact ⟨hne, hattached⟩
    | complete transferred =>
        obtain ⟨-, rfl⟩ := step_complete hstep
        exact ⟨hne, hattached⟩
    | thread k call =>
        obtain ⟨p, s', p', hk, -, hact, -⟩ := step_thread hstep
        rw [hu.no_act hne hk call] at hact
        cases hact

/-- The constructor of the first connection throws. -/
theorem attached_of_thrown_firstAccept :
    ∃ s t, run step (init 2 oneBlock [] 0) (firstAccept ++ [.thread 1 (.construct true)]) = some s ∧
      run step s [.spawnEventThread] = some t ∧ t.attached = s.attached ∧
      t.server.numOfAccepted = s.server.numOfAccepted ∧ t.state ≠ .stop := by
  have hthrown : (run step (init 2 oneBlock [] 0) (firstAccept ++ [.thread 1 (.construct true)])).map thrown =
      some 1 := by decide
  obtain ⟨s, hs, hone⟩ := Option.map_eq_some_iff.mp hthrown
  have hne : s.thrown ≠ 0 := by
    rw [hone]
    exact Nat.one_ne_zero
  have hspawn : run step s [.spawnEventThread] = some { s with threads := s.threads ++ [.idle] } := rfl
  exact ⟨s, _, hs, hspawn, attached_of_thrown hs hne hspawn⟩

end AcceptLoop

end Mmocraft
