/-
# Mmocraft.Server.GracePeriod -- how long an acquired connection can be used

`try_acquire_connection` hands out a pointer to the connection in a slot, which nothing counts.  What keeps
the object in place while another thread works with it is time: a connection is only freed by a clean-up
that finds it offline for five seconds.  So whoever acquires a connection can use it for that long, in any
order of the events of the other threads, and no clean-up that comes sooner frees anything that was online.

The events are whole ones, and the one thing of them that matters here is `set_offline`, whose stores are one
step.  A clean-up that comes between the first two of them frees the connection too early: that window is the
subject of `OfflineStores`.
-/
import Mmocraft.Server.ConnectionTable

namespace Mmocraft

open Mmocraft.Lib Mmocraft.Game Mmocraft.Net

namespace Server

/-- Slot `i` holds connection `c`. -/
def HoldsConnection (i c : Nat) (s : Server) : Prop := ∃ conn, s.connection i = some conn ∧ conn.id = c

/-- A clean-up reaches slot `i` when its connection can be freed. -/
def FreesSlot (i : Nat) (s : Server) : Event → Prop
  | .cleanup j now => j = i ∧ (s.connection i).any (·.isSafeDelete now) = true
  | _ => False

instance (i : Nat) (s : Server) : (e : Event) → Decidable (FreesSlot i s e)
  | .cleanup j now =>
      inferInstanceAs (Decidable (j = i ∧ (s.connection i).any (·.isSafeDelete now) = true))
  | .accept _ | .receive .. | .kick .. | .receiveError .. | .tickPlayer .. | .schedule .. | .runTask ..
  | .response .. | .load .. => isFalse id

end Server

/-- What is kept of slot `i`: it holds connection `c`, which is online or went offline no earlier than
`start`. -/
def HeldSince (i c start : Nat) (s : Server) : Prop :=
  ∃ conn, s.connection i = some conn ∧ conn.id = c ∧ (conn.isOnline = true ∨ start ≤ conn.lastOfflineTick)

namespace HeldSince

variable {i c start : Nat} {s t : Server}

theorem of_same (h : HeldSince i c start s) (hst : SameTable s t) : HeldSince i c start t := by
  obtain ⟨conn, hconn, hrest⟩ := h
  exact ⟨conn, (hst.connection i).trans hconn, hrest⟩

/-- A connection changes; if it is `c`, it keeps its identity, and goes offline late enough. -/
theorem of_replace (h : HeldSince i c start s) {j : Nat} {conn conn' : Connection}
    (hreplace : ReplacesConnection s t j conn conn') (hid : conn'.id = conn.id)
    (htick : conn.isOnline = true ∨ start ≤ conn.lastOfflineTick →
      conn'.isOnline = true ∨ start ≤ conn'.lastOfflineTick) : HeldSince i c start t := by
  obtain ⟨d, hd, hdid, hdtick⟩ := h
  by_cases hj : i = j
  · subst hj
    obtain rfl := Option.some.inj (hd.symm.trans hreplace.before)
    exact ⟨conn', hreplace.after, hid.trans hdid, htick hdtick⟩
  · exact ⟨d, (hreplace.others i hj).trans hd, hdid, hdtick⟩

theorem accept (h : HeldSince i c start s) (ht : TableOk s) (now : Nat) : HeldSince i c start (s.accept now) := by
  rcases AddsConnection.accept ht now with heq | ⟨j, hadds⟩
  · rw [heq]
    exact h
  · obtain ⟨conn, hconn, hrest⟩ := h
    have hi : i ≠ j := by
      rintro rfl
      rw [hadds.free] at hconn
      cases hconn
    exact ⟨conn, (hadds.others i hi).trans hconn, hrest⟩

/-- What goes offline does so after `start`. -/
theorem disconnect (h : HeldSince i c start s) (ht : TableOk s) (j : Nat) {now : Nat} (hnow : start ≤ now) :
    HeldSince i c start (s.disconnect j now) := by
  rcases s.disconnect_cases j now with heq | ⟨conn, p, -, -, -, heq⟩ | ⟨conn, hconn, -, -, heq⟩
  · rw [heq]
    exact h
  · rw [heq]
    exact h.of_same ⟨rfl, rfl, rfl⟩
  · rw [heq]
    exact h.of_replace (ReplacesConnection.setOffline ht hconn now) rfl fun _ => Or.inr hnow

theorem closedConnections : ClosedConnections (fun _ => True) (HeldSince i c start) (fun _ _ => True)
    (start ≤ ·) where
  quiet _ _ hq h := h.of_same (SameTable.of_quiet hq)
  interact now _ _ _ hconn h := h.of_replace (ReplacesConnection.interact hconn now) rfl id
  accept now _ ht _ h := h.accept ht now
  disconnect j now hnow ht _ _ h := h.disconnect ht j hnow
  handshake username password cpeMagic garbage _ _ hconn _ _ h := by
    obtain ⟨cur, next, -, heq⟩ := Server.handshake_eq _ _ _ username password cpeMagic garbage
    rw [heq]
    exact (h.of_replace (ReplacesConnection.setPlayer hconn _) rfl id).of_same ⟨rfl, rfl, rfl⟩
  extEntry _ _ _ _ _ h := h.of_same ⟨rfl, rfl, rfl⟩

/-- A clean-up that frees another slot. -/
theorem delete (h : HeldSince i c start s) (ht : TableOk s) {j : Nat} {conn : Connection}
    (hconn : s.connection j = some conn) (hj : j ≠ i) : HeldSince i c start
      { s with connectionEnv := s.connectionEnv.onConnectionDelete conn.connectionKey } := by
  obtain ⟨d, hd, hrest⟩ := h
  exact ⟨d, (Server.delete_connection_of_ne ht hconn hj.symm).trans hd, hrest⟩

/-- Every event from `start` on, other than a clean-up that frees the slot. -/
theorem step {s' : Server} (hs : TableOk s ∧ HeldSince i c start s) {e : Event}
    (htime : ∀ now, e.time = some now → start ≤ now) (hfrees : ¬ s.FreesSlot i e)
    (hstep : s.step e = some s') : TableOk s' ∧ HeldSince i c start s' := by
  have hsame : ∀ {s t : Server}, HeldSince i c start s → SameTable s t → HeldSince i c start t := of_same
  refine closedConnections.step (SameTable.closedTick hsame) (SameTable.closedLogins hsame) hs e htime
    (fun _ _ => trivial) ?_ ?_ ?_ hstep
  · rintro j now conn rfl hconn hsafe
    refine hs.2.delete hs.1 hconn fun hj => hfrees ⟨hj, ?_⟩
    subst hj
    rw [hconn, Option.any_some]
    exact hsafe
  · intro task now posted _
    exact closedConnections.of_schedule (SameTable.closedSchedules hsame) hs task now posted
  · intro task o o' _ hqueued
    exact closedConnections.of_runTask (SameTable.closedTasks hsame) hs task o o' hqueued fun _ _ => trivial

/-- Before `start` and the grace period are over, no clean-up frees the slot. -/
theorem not_frees (h : HeldSince i c start s) {e : Event}
    (htime : ∀ now, e.time = some now → now < start + Connection.requiredMillisecondsForSecureDeletion) :
    ¬ s.FreesSlot i e := by
  obtain ⟨conn, hconn, -, htick⟩ := h
  cases e with
  | cleanup j now =>
      rintro ⟨-, hsafe⟩
      rw [hconn, Option.any_some, Connection.isSafeDelete, Bool.and_eq_true, Bool.not_eq_true',
        decide_eq_true_eq] at hsafe
      have hearly := htime now rfl
      rcases htick with honline | htick
      · rw [hsafe.1] at honline
        cases honline
      · exact absurd hsafe.2 (by omega)
  | _ => exact id

end HeldSince

namespace Server

/-- A clean-up that frees a slot leaves nothing in it. -/
theorem FreesSlot.connection_eq_none {s s' : Server} (ht : TableOk s) {i : Nat} {e : Event}
    (h : s.FreesSlot i e) (hstep : s.step e = some s') : s'.connection i = none := by
  cases e with
  | cleanup j now =>
      obtain ⟨rfl, hany⟩ := h
      obtain ⟨conn, hconn, hsafe⟩ := (Option.any_eq_true ..).mp hany
      obtain rfl := Option.some.inj hstep
      have hused := (ht.used_of_connection hconn).1
      rw [cleanupExpiredConnection, hused, hconn]
      show Server.connection (if conn.isSafeDelete now = true then _ else _) j = none
      rw [if_pos hsafe]
      exact delete_connection ht hconn
  | _ => exact h.elim

/-- The socket of a guest closes while its connection is in use; the clean-up comes too early to free it. -/
def earlyCleanup : List Event := [.receiveError 0 10, .accept 4000, .cleanup 0 5009]

theorem run_earlyCleanup : ∃ s t conn, run Server.step small [.accept 0] = some s ∧
    s.tryAcquireConnection ⟨0, 0⟩ = some conn ∧ conn.id = 0 ∧ run Server.step s earlyCleanup = some t := by
  have hacquired : ((run Server.step small [.accept 0]).bind fun s =>
      s.tryAcquireConnection ⟨0, 0⟩).map Connection.id = some 0 := by decide
  obtain ⟨conn, hbind, hid⟩ := Option.map_eq_some_iff.mp hacquired
  obtain ⟨s, hs, hacq⟩ := Option.bind_eq_some_iff.mp hbind
  have hwhole : (run Server.step small ([.accept 0] ++ earlyCleanup)).isSome = true := by decide
  obtain ⟨t, ht⟩ := Option.isSome_iff_exists.mp hwhole
  obtain ⟨s', hs', hrun⟩ := run_append_eq_some.mp ht
  obtain rfl := Option.some.inj (hs.symm.trans hs')
  exact ⟨s, t, conn, hs, hacq, hid, hrun⟩

/-- **Freed by a late clean-up alone.** In a run from any reachable state a slot holds its connection
throughout exactly if no clean-up reaches it when the connection has been offline for five seconds. No kick,
reply, load, task or other accept empties a slot or puts another connection into it. -/
theorem holdsConnection_iff {maxClients : Nat} {metadata : WorldMetadata} {blockMapping : List UInt8}
    {pre es : List Event} {s t : Server} {i : Nat} {conn : Connection}
    (hpre : run Server.step (Server.init maxClients metadata blockMapping) pre = some s)
    (hconn : s.connection i = some conn) (hrun : run Server.step s es = some t) :
    EachState Server.step (HoldsConnection i conn.id) s es ↔
      Along Server.step (fun u e => ¬ u.FreesSlot i e) s es := by
  obtain ⟨ht, -⟩ := consistent_of_run hpre
  refine eachState_iff_along (P := fun u => TableOk u ∧ HeldSince i conn.id 0 u) ?_ ?_ ?_
    ⟨ht, conn, hconn, rfl, Or.inr (Nat.zero_le _)⟩ hrun
  · exact fun u e u' hu hkeeps hstep => HeldSince.step hu (fun _ _ => Nat.zero_le _) hkeeps hstep
  · rintro u ⟨-, conn', hconn', hid, -⟩
    exact ⟨conn', hconn', hid⟩
  · rintro u e u' hu hfrees hstep ⟨conn', hconn', -⟩
    rw [(not_not.mp hfrees).connection_eq_none hu.1 hstep] at hconn'
    cases hconn'

theorem holdsConnection_iff_earlyCleanup :
    ∃ s t, run Server.step small [.accept 0] = some s ∧ run Server.step s earlyCleanup = some t ∧
      (EachState Server.step (HoldsConnection 0 0) s earlyCleanup ↔
        Along Server.step (fun u e => ¬ u.FreesSlot 0 e) s earlyCleanup) := by
  obtain ⟨s, t, conn, hs, hacq, hid, hrun⟩ := run_earlyCleanup
  have hconn := ((consistent_of_run hs).1.of_tryAcquire hacq).1
  have hiff := holdsConnection_iff hs hconn hrun
  rw [hid] at hiff
  exact ⟨s, t, hs, hrun, hiff⟩

/-- **Grace period.** Whoever acquires a connection can use it for five seconds: in every run that goes on
from there, as long as its clock is less than five seconds on, the connection stays in its slot. Nothing
counts the pointers that are in use. What protects them is that the clean-up waits, and that the clock of
the run is at most five seconds past the moment of the acquisition; the events are whole here, and what a
clean-up can do between two stores of `set_offline` is `freedEarly_iff_of_run`. -/
theorem acquired_within_grace {maxClients : Nat} {metadata : WorldMetadata} {blockMapping : List UInt8}
    {pre es : List Event} {s t : Server} {key : ConnectionKey} {conn : Connection} (start : Nat)
    (hpre : run Server.step (Server.init maxClients metadata blockMapping) pre = some s)
    (hacq : s.tryAcquireConnection key = some conn)
    (htimes : ∀ e ∈ es, ∀ now, e.time = some now →
      start ≤ now ∧ now < start + Connection.requiredMillisecondsForSecureDeletion)
    (hrun : run Server.step s es = some t) : t.HoldsConnection key.index conn.id := by
  obtain ⟨ht, -⟩ := consistent_of_run hpre
  obtain ⟨hconn, honline, -⟩ := ht.of_tryAcquire hacq
  have hheld := run_invariant_along (P := fun u => TableOk u ∧ HeldSince key.index conn.id start u)
    (G := fun _ e => ∀ now, e.time = some now →
      start ≤ now ∧ now < start + Connection.requiredMillisecondsForSecureDeletion) ?_
    ⟨ht, conn, hconn, rfl, Or.inl honline⟩ (Along.of_forall_mem fun e he _ => htimes e he) hrun
  · obtain ⟨-, conn', hconn', hid, -⟩ := hheld
    exact ⟨conn', hconn', hid⟩
  · intro u e u' hu htime hstep
    exact HeldSince.step hu (fun now hnow => (htime now hnow).1)
      (hu.2.not_frees fun now hnow => (htime now hnow).2) hstep

theorem acquired_within_grace_earlyCleanup :
    ∃ s t, run Server.step small [.accept 0] = some s ∧ run Server.step s earlyCleanup = some t ∧
      t.HoldsConnection 0 0 := by
  obtain ⟨s, t, conn, hs, hacq, hid, hrun⟩ := run_earlyCleanup
  have htimes : ∀ e ∈ earlyCleanup, ∀ now, e.time = some now →
      10 ≤ now ∧ now < 10 + Connection.requiredMillisecondsForSecureDeletion := by
    simp [earlyCleanup, Event.time, Connection.requiredMillisecondsForSecureDeletion]
  have hholds := acquired_within_grace 10 hs hacq htimes hrun
  rw [hid] at hholds
  exact ⟨s, t, hs, hrun, hholds⟩

end Server

end Mmocraft
