/-
# Mmocraft.Net.MulticastBuffers -- how long a registered multicast buffer lives

The data of a multicast are registered with RIO when they are made and deregistered by their destructor.  A
task holds them by a shared pointer, and so does each multicast event that a connection takes for them: while
it is ready, while a flush has it in hand, and while its send is outstanding.  The events of a connection are
objects of its `multicast_event_pool`, and the destructor of a pool frees the memory without destroying the
objects that are still in it: their shares are never given back.

The result is an equivalence for every state of every run: a buffer is registered exactly while one of these
has it, or a share of it is lost. A share is lost in two ways only, with a send that completes with `eof`,
whose event is neither freed nor posted again, and with a connection that is deleted while its pool has
events. That the registration itself succeeds is assumed, as the source does.
-/
import Mmocraft.Lib.Places
import Mmocraft.Lib.Ranges
import Mmocraft.Lib.Runs
import Mmocraft.Lib.SharedObjects
import Mmocraft.Net.ConnectionIo
import Mathlib.Algebra.Order.Group.Multiset
import Mathlib.Tactic.Abel

namespace Mmocraft.Net

open Mmocraft.Lib

/-! ## Events and data -/

/-- The objects of the `multicast_event_pool` of a connection, by the data they hold. -/
structure MulticastEvents where
  /-- `ready_multicast_events`. -/
  ready : List Nat := []
  /-- The local vector of `flush_multicast_send`. -/
  taken : List Nat := []
  /-- The events whose sends are outstanding. -/
  outstanding : List Nat := []
  /-- The events whose sends completed with `eof`, which nobody frees. -/
  stuck : List Nat := []
  deriving DecidableEq, Repr

namespace MulticastEvents

/-- The objects of the pool in use. -/
def inPool (m : MulticastEvents) : List Nat := m.ready ++ m.taken ++ m.outstanding ++ m.stuck

def used (m : MulticastEvents) : Nat := m.inPool.length

/-- The shared pointers of all events. -/
def shares (m : MulticastEvents) : Multiset Nat := ↑m.inPool

theorem shares_eq (m : MulticastEvents) :
    m.shares = ↑m.ready + ↑m.taken + ↑m.outstanding + ↑m.stuck := by
  simp only [shares, inPool, Multiset.coe_add]

theorem used_eq_card (m : MulticastEvents) : m.used = m.shares.card := rfl

/-- The outstanding sends without one of them. -/
theorem outstanding_eq {m : MulticastEvents} {k x : Nat} (hk : m.outstanding[k]? = some x) :
    (m.outstanding : Multiset Nat) = ↑(m.outstanding.eraseIdx k) + {x} := by
  obtain ⟨hlt, rfl⟩ := List.getElem?_eq_some_iff.mp hk
  rw [← Multiset.coe_eq_coe.mpr (List.getElem_cons_eraseIdx_perm hlt), ← Multiset.cons_coe, add_comm,
    Multiset.singleton_add]

end MulticastEvents

/-- The multicasts of a server: the data, who holds them, and the slots of the connections. A buffer is held
by shared pointers: of the tasks that run with it, of the events of the connections, and those in memory
that nobody destroys any more. -/
structure MulticastBuffers where
  /-- The objects of type `IoMulticastEventData`. -/
  data : SharedObjects := {}
  /-- The shared pointers of the tasks that are running. -/
  tasks : List Nat := []
  connections : List MulticastEvents
  /-- The shared pointers in the memory of freed pools. -/
  abandoned : List Nat := []

namespace MulticastBuffers

/-- A server with slots for `n` connections. -/
def init (n : Nat) : MulticastBuffers := { connections := List.replicate n {} }

/-- The constructor registers the buffer, and the destructor deregisters it. -/
def Registered (s : MulticastBuffers) (x : Nat) : Prop := s.data.Alive x

def updateConnection (s : MulticastBuffers) (i : Nat) (m : MulticastEvents) : MulticastBuffers :=
  { s with connections := s.connections.set i m }

/-- `std::make_shared<IoMulticastEventData>` in a task. -/
def makeShared (s : MulticastBuffers) : MulticastBuffers :=
  { s with data := s.data.make, tasks := s.tasks ++ [s.data.made] }

/-- The second part of `post_multicast_event`: an event of the pool, if there is one, is given the data. -/
def postMulticastEvent (s : MulticastBuffers) (i : Nat) (m : MulticastEvents) (x : Nat) : MulticastBuffers :=
  if m.used < numOfMulticastEvents then
    { s with data := s.data.copy x }.updateConnection i { m with ready := m.ready ++ [x] }
  else s

/-- `free_multicast_event`: the destructor of the event releases its data. -/
def freeMulticastEvent (s : MulticastBuffers) (i : Nat) (m : MulticastEvents) (x : Nat) : MulticastBuffers :=
  { s with data := s.data.release x }.updateConnection i m

/-- What happens; `k` counts the shared pointers of tasks, or the sends that are outstanding. -/
inductive BufferEvent where
  | makeShared
  /-- `post_multicast_event` on the connection in slot `i`; with enough room, the data are copied to the send
  buffer instead. -/
  | postMulticastEvent (i k : Nat) (usesSendBuffer : Bool)
  /-- A task returns. -/
  | endTask (k : Nat)
  /-- The start of `flush_multicast_send`: the ready events are swapped out. -/
  | takeReady (i : Nat)
  /-- `post_rio_event` on the next of them; `ok` is the outcome of `multicast_send`. -/
  | postRioEvent (i : Nat) (ok : Bool)
  /-- A send completes, or fails: `on_complete` frees its event. -/
  | complete (i k : Nat)
  /-- A send completes with `eof`: `on_error`. -/
  | eof (i k : Nat)
  /-- The connection in slot `i` is deleted, and its pool with it. -/
  | deleteConnection (i : Nat)
  deriving DecidableEq, Repr

def step (s : MulticastBuffers) : BufferEvent → Option MulticastBuffers
  | .makeShared => some s.makeShared
  | .postMulticastEvent i k usesSendBuffer => do
      let x ← s.tasks[k]?
      let m ← s.connections[i]?
      return if usesSendBuffer then s else s.postMulticastEvent i m x
  | .endTask k => do
      let x ← s.tasks[k]?
      return { s with tasks := s.tasks.eraseIdx k, data := s.data.release x }
  | .takeReady i => do
      let m ← s.connections[i]?
      if m.taken = [] then s.updateConnection i { m with ready := [], taken := m.ready } else none
  | .postRioEvent i ok => do
      let m ← s.connections[i]?
      match m.taken with
      | [] => none
      | x :: rest =>
          if ok then s.updateConnection i { m with taken := rest, outstanding := m.outstanding ++ [x] }
          else s.freeMulticastEvent i { m with taken := rest } x
  | .complete i k => do
      let m ← s.connections[i]?
      let x ← m.outstanding[k]?
      return s.freeMulticastEvent i { m with outstanding := m.outstanding.eraseIdx k } x
  | .eof i k => do
      let m ← s.connections[i]?
      let x ← m.outstanding[k]?
      return s.updateConnection i
        { m with outstanding := m.outstanding.eraseIdx k, stuck := m.stuck ++ [x] }
  | .deleteConnection i => do
      let m ← s.connections[i]?
      if m.taken = [] then
        some { s.updateConnection i {} with
          abandoned := s.abandoned ++ m.inPool }
      else none

/-! ## The holders -/

/-- Everybody who holds data. -/
def holders (s : MulticastBuffers) : Multiset Nat :=
  ↑s.tasks + held MulticastEvents.shares s.connections + ↑s.abandoned

theorem mem_holders {s : MulticastBuffers} {x : Nat} :
    x ∈ s.holders ↔ x ∈ s.tasks ∨ (∃ m ∈ s.connections, x ∈ m.inPool) ∨ x ∈ s.abandoned := by
  rw [holders, Multiset.mem_add, Multiset.mem_add, mem_held, or_assoc]
  rfl

/-- The counts are those of the holders, and no pool exceeds its capacity. -/
structure Ok (s : MulticastBuffers) : Prop where
  held : s.data.HeldBy s.holders
  used : ∀ m ∈ s.connections, m.used ≤ numOfMulticastEvents

theorem mem_updateConnection {s : MulticastBuffers} {i : Nat} {m m' : MulticastEvents}
    (hm : m' ∈ (s.updateConnection i m).connections) : m' ∈ s.connections ∨ m' = m :=
  List.mem_or_eq_of_mem_set hm

namespace Ok

variable {s s' : MulticastBuffers} {i k x : Nat} {m m' : MulticastEvents}

theorem init (n : Nat) : Ok (init n) where
  held := by
    have hnone : (MulticastBuffers.init n).holders = 0 := by
      rw [holders, held_eq_zero]
      · rfl
      · intro m hm
        rw [List.eq_of_mem_replicate hm]
        rfl
    rw [hnone]
    exact .new
  used m hm := by
    rw [List.eq_of_mem_replicate hm]
    exact Nat.zero_le _

/-- The pool of a slot is used as before, or less. -/
theorem used_update (h : s.Ok) (hm : s.connections[i]? = some m) (hle : m'.used ≤ m.used) :
    ∀ a ∈ (s.updateConnection i m').connections, a.used ≤ numOfMulticastEvents := by
  intro a ha
  rcases mem_updateConnection ha with ha | rfl
  · exact h.used a ha
  · exact hle.trans (h.used m (List.mem_of_getElem? hm))

theorem makeShared (h : s.Ok) : s.makeShared.Ok where
  held := by
    have hholders : s.makeShared.holders = s.data.made ::ₘ s.holders := by
      rw [holders, holders, MulticastBuffers.makeShared, ← Multiset.coe_add, Multiset.coe_singleton,
        ← Multiset.singleton_add]
      abel
    rw [hholders]
    exact h.held.make
  used := h.used

theorem postMulticastEvent (h : s.Ok) (hm : s.connections[i]? = some m) (hx : x ∈ s.tasks) :
    (s.postMulticastEvent i m x).Ok := by
  unfold MulticastBuffers.postMulticastEvent
  split_ifs with hroom
  · have hshares : MulticastEvents.shares { m with ready := m.ready ++ [x] } = m.shares + {x} := by
      simp only [MulticastEvents.shares_eq, ← Multiset.coe_add, Multiset.coe_singleton]
      abel
    constructor
    · have hholders : ({ s with data := s.data.copy x }.updateConnection i
          { m with ready := m.ready ++ [x] }).holders = x ::ₘ s.holders := by
        show ↑s.tasks + Lib.held MulticastEvents.shares (s.connections.set i _) + ↑s.abandoned = _
        rw [held_set_add hm hshares, holders, ← Multiset.singleton_add]
        abel
      rw [hholders]
      exact h.held.copy (mem_holders.mpr (Or.inl hx))
    · intro a ha
      rcases mem_updateConnection ha with ha | rfl
      · exact h.used a ha
      · rw [MulticastEvents.used_eq_card, hshares, Multiset.card_add, Multiset.card_singleton,
          ← MulticastEvents.used_eq_card]
        exact hroom
  · exact h

/-- An event is freed. -/
theorem freeMulticastEvent (h : s.Ok) (hm : s.connections[i]? = some m)
    (hshares : m.shares = m'.shares + {x}) : (s.freeMulticastEvent i m' x).Ok where
  held := by
    have hholders : s.holders = x ::ₘ (s.freeMulticastEvent i m' x).holders := by
      show ↑s.tasks + Lib.held MulticastEvents.shares s.connections + ↑s.abandoned = x ::ₘ
        (↑s.tasks + Lib.held MulticastEvents.shares (s.connections.set i m') + ↑s.abandoned)
      rw [held_set_remove hm hshares, ← Multiset.singleton_add]
      abel
    have hheld := h.held
    rw [hholders] at hheld
    exact hheld.release
  used := by
    apply h.used_update hm
    rw [MulticastEvents.used_eq_card, MulticastEvents.used_eq_card, hshares, Multiset.card_add]
    exact Nat.le_add_right _ _

/-- An event moves within its connection. -/
theorem moveEvent (h : s.Ok) (hm : s.connections[i]? = some m) (hshares : m'.shares = m.shares) :
    (s.updateConnection i m').Ok where
  held := by
    have hholders : (s.updateConnection i m').holders = s.holders := by
      rw [holders, holders, updateConnection, held_set_eq hm hshares]
    rw [hholders]
    exact h.held
  used := by
    apply h.used_update hm
    rw [MulticastEvents.used_eq_card, MulticastEvents.used_eq_card, hshares]

theorem endTask (h : s.Ok) (hk : s.tasks[k]? = some x) :
    Ok { s with tasks := s.tasks.eraseIdx k, data := s.data.release x } where
  held := by
    obtain ⟨hlt, rfl⟩ := List.getElem?_eq_some_iff.mp hk
    have htasks : (s.tasks : Multiset Nat) = s.tasks[k] ::ₘ ↑(s.tasks.eraseIdx k) :=
      (Multiset.coe_eq_coe.mpr (List.getElem_cons_eraseIdx_perm hlt)).symm
    have hheld := h.held
    rw [holders, htasks, Multiset.cons_add, Multiset.cons_add] at hheld
    exact hheld.release
  used := h.used

/-- What is still in the pool is abandoned. -/
theorem deleteConnection (h : s.Ok) (hm : s.connections[i]? = some m) :
    Ok { s.updateConnection i {} with abandoned := s.abandoned ++ m.inPool } where
  held := by
    have hnone : m.shares = MulticastEvents.shares {} + m.shares := (zero_add _).symm
    have hholders : s.holders =
        holders { s.updateConnection i {} with abandoned := s.abandoned ++ m.inPool } := by
      show ↑s.tasks + Lib.held MulticastEvents.shares s.connections + ↑s.abandoned =
        ↑s.tasks + Lib.held MulticastEvents.shares (s.connections.set i {}) + ↑(s.abandoned ++ m.inPool)
      rw [held_set_remove hm hnone, ← Multiset.coe_add, MulticastEvents.shares]
      abel
    exact hholders ▸ h.held
  used := h.used_update hm (Nat.zero_le _)

theorem step (h : s.Ok) {e : BufferEvent} (hstep : s.step e = some s') : s'.Ok := by
  cases e with
  | makeShared =>
      obtain rfl := Option.some.inj hstep
      exact h.makeShared
  | postMulticastEvent i k usesSendBuffer =>
      simp only [MulticastBuffers.step, Option.bind_eq_bind, Option.bind_eq_some_iff] at hstep
      obtain ⟨x, hx, m, hm, hpost⟩ := hstep
      obtain rfl := Option.some.inj hpost
      cases usesSendBuffer with
      | true => exact h
      | false => exact h.postMulticastEvent hm (List.mem_of_getElem? hx)
  | endTask k =>
      simp only [MulticastBuffers.step, Option.bind_eq_bind, Option.bind_eq_some_iff] at hstep
      obtain ⟨x, hx, hend⟩ := hstep
      obtain rfl := Option.some.inj hend
      exact h.endTask hx
  | takeReady i =>
      simp only [MulticastBuffers.step, Option.bind_eq_bind, Option.bind_eq_some_iff] at hstep
      obtain ⟨m, hm, htake⟩ := hstep
      split_ifs at htake with htaken
      obtain rfl := Option.some.inj htake
      refine h.moveEvent hm ?_
      rw [MulticastEvents.shares_eq, MulticastEvents.shares_eq, htaken]
      exact congrArg (· + _ + _) (add_comm _ _)
  | postRioEvent i ok =>
      simp only [MulticastBuffers.step, Option.bind_eq_bind, Option.bind_eq_some_iff] at hstep
      obtain ⟨m, hm, hpost⟩ := hstep
      split at hpost
      · exact nomatch hpost
      · rename_i x rest htaken
        cases ok with
        | true =>
            obtain rfl := Option.some.inj hpost
            refine h.moveEvent hm ?_
            simp only [MulticastEvents.shares_eq, htaken, ← Multiset.coe_add, ← Multiset.cons_coe,
              ← Multiset.singleton_add]
            abel
        | false =>
            obtain rfl := Option.some.inj hpost
            refine h.freeMulticastEvent hm ?_
            simp only [MulticastEvents.shares_eq, htaken, ← Multiset.cons_coe, ← Multiset.singleton_add]
            abel
  | complete i k =>
      simp only [MulticastBuffers.step, Option.bind_eq_bind, Option.bind_eq_some_iff] at hstep
      obtain ⟨m, hm, x, hk, hfree⟩ := hstep
      obtain rfl := Option.some.inj hfree
      refine h.freeMulticastEvent hm ?_
      rw [MulticastEvents.shares_eq, MulticastEvents.shares_eq, MulticastEvents.outstanding_eq hk]
      abel
  | eof i k =>
      simp only [MulticastBuffers.step, Option.bind_eq_bind, Option.bind_eq_some_iff] at hstep
      obtain ⟨m, hm, x, hk, hstuck⟩ := hstep
      obtain rfl := Option.some.inj hstuck
      refine h.moveEvent hm ?_
      rw [MulticastEvents.shares_eq, MulticastEvents.shares_eq, MulticastEvents.outstanding_eq hk,
        ← Multiset.coe_add, Multiset.coe_singleton]
      abel
  | deleteConnection i =>
      simp only [MulticastBuffers.step, Option.bind_eq_bind, Option.bind_eq_some_iff] at hstep
      obtain ⟨m, hm, hdelete⟩ := hstep
      split_ifs at hdelete
      obtain rfl := Option.some.inj hdelete
      exact h.deleteConnection hm

end Ok

/-! ## Shares that are never given back -/

/-- The shares of events that nobody frees. -/
def lost (s : MulticastBuffers) : Multiset Nat :=
  held (fun m => (m.stuck : Multiset Nat)) s.connections + ↑s.abandoned

/-- The event gives back every share that it takes out of use: it is no completion with `eof`, and a
connection is deleted only when it has no events. -/
def Releases (s : MulticastBuffers) : BufferEvent → Prop
  | .eof _ _ => False
  | .deleteConnection i => ∀ m ∈ s.connections[i]?, m.ready = [] ∧ m.outstanding = []
  | _ => True

instance (s : MulticastBuffers) : (e : BufferEvent) → Decidable (s.Releases e)
  | .eof .. => isFalse id
  | .deleteConnection i =>
      inferInstanceAs (Decidable (∀ m ∈ s.connections[i]?, m.ready = [] ∧ m.outstanding = []))
  | .makeShared | .postMulticastEvent .. | .endTask _ | .takeReady _ | .postRioEvent .. | .complete .. =>
      isTrue trivial

section Lost

variable {s s' : MulticastBuffers} {i : Nat} {m m' : MulticastEvents}

theorem lost_updateConnection (hm : s.connections[i]? = some m) (hstuck : m'.stuck = m.stuck) :
    (s.updateConnection i m').lost = s.lost := by
  have hsame : (m'.stuck : Multiset Nat) = m.stuck := congrArg _ hstuck
  rw [lost, lost, updateConnection, held_set_eq hm hsame]

theorem lost_freeMulticastEvent {x : Nat} (hm : s.connections[i]? = some m) (hstuck : m'.stuck = m.stuck) :
    (s.freeMulticastEvent i m' x).lost = s.lost :=
  lost_updateConnection (s := { s with data := s.data.release x }) hm hstuck

theorem lost_postMulticastEvent {x : Nat} (hm : s.connections[i]? = some m) :
    (s.postMulticastEvent i m x).lost = s.lost := by
  unfold postMulticastEvent
  split_ifs
  · exact lost_updateConnection (s := { s with data := s.data.copy x }) hm rfl
  · rfl

/-- What a step loses: nothing, exactly if it gives back what it takes out of use. -/
theorem lost_step {e : BufferEvent} (hstep : s.step e = some s') :
    ∃ new : Multiset Nat, s'.lost = s.lost + new ∧ (new = 0 ↔ s.Releases e) := by
  cases e with
  | makeShared =>
      obtain rfl := Option.some.inj hstep
      exact ⟨0, (add_zero _).symm, iff_of_true rfl trivial⟩
  | postMulticastEvent i k usesSendBuffer =>
      simp only [step, Option.bind_eq_bind, Option.bind_eq_some_iff] at hstep
      obtain ⟨x, -, m, hm, hpost⟩ := hstep
      obtain rfl := Option.some.inj hpost
      refine ⟨0, ?_, iff_of_true rfl trivial⟩
      cases usesSendBuffer with
      | true => exact (add_zero _).symm
      | false => exact (lost_postMulticastEvent hm).trans (add_zero _).symm
  | endTask k =>
      simp only [step, Option.bind_eq_bind, Option.bind_eq_some_iff] at hstep
      obtain ⟨x, -, hend⟩ := hstep
      obtain rfl := Option.some.inj hend
      exact ⟨0, (add_zero _).symm, iff_of_true rfl trivial⟩
  | takeReady i =>
      simp only [step, Option.bind_eq_bind, Option.bind_eq_some_iff] at hstep
      obtain ⟨m, hm, htake⟩ := hstep
      split_ifs at htake
      obtain rfl := Option.some.inj htake
      refine ⟨0, ?_, iff_of_true rfl trivial⟩
      rw [add_zero]
      exact lost_updateConnection hm rfl
  | postRioEvent i ok =>
      simp only [step, Option.bind_eq_bind, Option.bind_eq_some_iff] at hstep
      obtain ⟨m, hm, hpost⟩ := hstep
      refine ⟨0, ?_, iff_of_true rfl trivial⟩
      rw [add_zero]
      split at hpost
      · exact nomatch hpost
      · cases ok with
        | true =>
            obtain rfl := Option.some.inj hpost
            exact lost_updateConnection hm rfl
        | false =>
            obtain rfl := Option.some.inj hpost
            exact lost_freeMulticastEvent hm rfl
  | complete i k =>
      simp only [step, Option.bind_eq_bind, Option.bind_eq_some_iff] at hstep
      obtain ⟨m, hm, x, -, hfree⟩ := hstep
      obtain rfl := Option.some.inj hfree
      refine ⟨0, ?_, iff_of_true rfl trivial⟩
      rw [add_zero]
      exact lost_freeMulticastEvent hm rfl
  | eof i k =>
      simp only [step, Option.bind_eq_bind, Option.bind_eq_some_iff] at hstep
      obtain ⟨m, hm, x, -, hstuck⟩ := hstep
      obtain rfl := Option.some.inj hstuck
      refine ⟨{x}, ?_, iff_of_false (Multiset.singleton_ne_zero x) id⟩
      have hmore : ((m.stuck ++ [x] : List Nat) : Multiset Nat) = ↑m.stuck + {x} := by
        rw [← Multiset.coe_add, Multiset.coe_singleton]
      rw [lost, updateConnection, held_set_add hm hmore, lost, add_right_comm]
  | deleteConnection i =>
      simp only [step, Option.bind_eq_bind, Option.bind_eq_some_iff] at hstep
      obtain ⟨m, hm, hdelete⟩ := hstep
      split_ifs at hdelete with htaken
      obtain rfl := Option.some.inj hdelete
      refine ⟨↑(m.ready ++ m.outstanding), ?_, ?_⟩
      · have hnone : (m.stuck : Multiset Nat) = ↑([] : List Nat) + ↑m.stuck := (zero_add _).symm
        show held (fun m => (m.stuck : Multiset Nat)) (s.connections.set i {}) +
          ↑(s.abandoned ++ m.inPool) = s.lost + ↑(m.ready ++ m.outstanding)
        rw [lost, held_set_remove (b := {}) hm hnone, MulticastEvents.inPool, htaken]
        simp only [← Multiset.coe_add, Multiset.coe_nil, add_zero]
        abel
      · rw [Multiset.coe_eq_zero, List.append_eq_nil_iff]
        constructor
        · intro hempty m' hm'
          obtain rfl := Option.some.inj (hm.symm.trans hm')
          exact hempty
        · intro hempty
          exact hempty m hm

end Lost

/-! ## Runs -/

/-- No task runs, and no connection has an event that is ready, in hand or outstanding. -/
structure Idle (s : MulticastBuffers) : Prop where
  tasks : s.tasks = []
  connections : ∀ m ∈ s.connections, m.ready = [] ∧ m.taken = [] ∧ m.outstanding = []

/-- When nothing is in progress, only lost shares are left. -/
theorem Idle.holders_eq {s : MulticastBuffers} (h : s.Idle) : s.holders = s.lost := by
  have hshares : ∀ m ∈ s.connections, m.shares = ↑m.stuck := by
    intro m hm
    obtain ⟨hready, htaken, houtstanding⟩ := h.connections m hm
    rw [MulticastEvents.shares, MulticastEvents.inPool, hready, htaken, houtstanding]
    rfl
  rw [holders, lost, held_congr hshares, h.tasks, Multiset.coe_nil, zero_add]

theorem lost_init (n : Nat) : (init n).lost = 0 := by
  rw [lost, held_eq_zero]
  · rfl
  · intro m hm
    rw [List.eq_of_mem_replicate hm]
    rfl

/-- **A buffer is registered as long as it is needed**: exactly while a task runs with it, an event of a
connection refers to it, or its share was abandoned.  It is deregistered once, and no pool gives out more
events than it has. -/
theorem registered_iff {n : Nat} {es : List BufferEvent} {s : MulticastBuffers}
    (hrun : run step (init n) es = some s) :
    (∀ x, s.Registered x ↔
      x ∈ s.tasks ∨ (∃ m ∈ s.connections, x ∈ m.inPool) ∨ x ∈ s.abandoned) ∧
    s.data.destroyed.Nodup ∧ ∀ m ∈ s.connections, m.used ≤ numOfMulticastEvents := by
  have h : s.Ok := run_invariant (fun _ _ _ h hstep => h.step hstep) (Ok.init n) hrun
  exact ⟨fun x => h.held.alive_iff.trans mem_holders, h.held.nodup, h.used⟩

/-- The task has returned, and the send of its data is outstanding. -/
def outstandingSend : List BufferEvent :=
  [.makeShared, .postMulticastEvent 0 0 false, .postMulticastEvent 1 0 true, .endTask 0, .takeReady 0,
    .postRioEvent 0 true]

theorem registered_outstandingSend :
    ∃ s, run step (init 2) outstandingSend = some s ∧ s.tasks = [] ∧ s.Registered 0 := by
  have hrun : run step (init 2) outstandingSend =
      some ((run step (init 2) outstandingSend).getD (init 2)) := run_getD (by decide)
  refine ⟨_, hrun, by decide, ((registered_iff hrun).1 0).mpr (Or.inr (Or.inl ?_))⟩
  decide

/-- **Every buffer is deregistered in the end** exactly in the runs in which no send completes with `eof`
and no connection is deleted that still has an event. An event that completes with `eof` is kept without
being posted again, and the events of a deleted connection are not freed one by one: their shares are never
given back. -/
theorem deregistered_iff {n : Nat} {es : List BufferEvent} {s : MulticastBuffers}
    (hrun : run step (init n) es = some s) (hidle : s.Idle) :
    (∀ x, ¬ s.Registered x) ↔ Along step Releases (init n) es := by
  have h : s.Ok := run_invariant (fun _ _ _ h hstep => h.step hstep) (Ok.init n) hrun
  have hlost : ¬ s.lost ≠ 0 ↔ Along step Releases (init n) es := by
    refine run_iff_along (P := fun s => s.lost = 0) (D := fun s => s.lost ≠ 0) ?_ ?_ ?_
      (fun _ h => not_not.mpr h) (lost_init n) hrun
    · intro s e s' hnone hG hstep
      obtain ⟨new, hnew, hiff⟩ := lost_step hstep
      rw [hnew, hnone, hiff.mpr hG, add_zero]
    · intro s e s' hnone hG hstep
      obtain ⟨new, hnew, hiff⟩ := lost_step hstep
      rw [hnew, hnone, zero_add]
      exact fun hzero => hG (hiff.mp hzero)
    · intro s e s' hsome hstep
      obtain ⟨new, hnew, -⟩ := lost_step hstep
      rw [hnew]
      exact fun hzero => hsome (Multiset.le_zero.mp (hzero ▸ Multiset.le_add_right s.lost new))
  rw [← hlost, not_not, ← hidle.holders_eq]
  exact h.held.none_alive_iff

/-- With the completion the data are deregistered; with `eof` instead they are not, not even when the
connection is deleted. -/
theorem deregistered_outstandingSend :
    (∃ s, run step (init 2) (outstandingSend ++ [.complete 0 0, .deleteConnection 0]) = some s ∧
      ∀ x, ¬ s.Registered x) ∧
    ∃ s, run step (init 2) (outstandingSend ++ [.eof 0 0, .deleteConnection 0]) = some s ∧
      ∃ x, s.Registered x := by
  constructor
  · have hrun : run step (init 2) (outstandingSend ++ [.complete 0 0, .deleteConnection 0]) =
        some ((run step (init 2) (outstandingSend ++ [.complete 0 0, .deleteConnection 0])).getD (init 2)) :=
      run_getD (by decide)
    exact ⟨_, hrun, (deregistered_iff hrun ⟨by decide, by decide⟩).mpr (by decide)⟩
  · have hrun : run step (init 2) (outstandingSend ++ [.eof 0 0, .deleteConnection 0]) =
        some ((run step (init 2) (outstandingSend ++ [.eof 0 0, .deleteConnection 0])).getD (init 2)) :=
      run_getD (by decide)
    have hkept := (deregistered_iff hrun ⟨by decide, by decide⟩).not.mpr (by decide)
    exact ⟨_, hrun, not_forall_not.mp hkept⟩

end MulticastBuffers

end Mmocraft.Net
