/-
# Mmocraft.Server.KickNotices -- kicks beside the thread that flushes

`Connection::kick` pushes a disconnect packet and calls `disconnect`; the packet leaves only when
`flush_send` visits the connection, which it does not do once the entry is marked.  The server runs here
together with the send buffers of its connections: the push and the call are two events, and so are
the look of the flush at `will_delete` and its post.  All notices leave exactly if no `disconnect` takes its
connection offline at once while a disconnect packet was accepted after the last post.

The send buffers do not know what a notice is; where the notices lie among the accepted bytes is kept beside
them (`Io.SendNotices`). All events of the server are events here, with the condition only on those that
disconnect.
-/
import Mmocraft.Io.RegisteredIo
import Mmocraft.Io.SendNotices
import Mmocraft.Net.PacketSerialize
import Mmocraft.Server.DisconnectCalls

namespace Mmocraft

open Mmocraft.Lib Mmocraft.Io Mmocraft.Game Mmocraft.Net

/-! ## The server with its send buffers -/

/-- A `kick` that has pushed its packet and not called `disconnect` yet. -/
structure PendingKick where
  slot : Nat
  /-- The identity of the connection. -/
  id : Nat
  accepted : Bool
  deriving DecidableEq, Repr

/-- What the push returned, for the events that can kick. -/
def Event.kickAccepted : Event → Option Bool
  | .kick _ _ _ accepted | .response _ _ _ accepted | .load _ _ _ accepted => some accepted
  | _ => none

/-- The kick that ends with an event. -/
def Server.kickOf (s : Server) (e : Event) : Option PendingKick :=
  e.kickAccepted.bind fun accepted => (s.calls e).findSome? fun call =>
    match call.2 with
    | .disconnect i => (s.connection i).map fun conn => ⟨i, conn.id, accepted⟩
    | _ => none

/-- The server with the send event of each connection, by its identity. A kick is two calls, and
`flush_send` reads a flag before it posts; so both can stand between the steps of others. -/
structure KickServer where
  server : Server
  io : Nat → NoticeIo
  kicks : List PendingKick := []
  /-- The connection that `flush_send` has found with `will_delete` clear. -/
  visited : Option Nat := none

namespace KickServer

/-- A server without connections; `memory` is what the send buffers hold before. -/
def init (server : Server) (memory : Nat → SliceMemory tcpSendBufferSize) : KickServer where
  server := server
  io c := .init (memory c).1

def updateIo (s : KickServer) (c : Nat) (io : NoticeIo) : KickServer :=
  { s with io := Function.update s.io c io }

/-- The first half of `kick`: the disconnect packet is sent.  Where it is accepted and the connection
online, it is a notice. -/
def sendKick (s : KickServer) (i : Nat) (conn : Connection) (packet : PacketDisconnectPlayer) :
    KickServer :=
  let io := s.io conn.id
  { s.updateIo conn.id
      (if conn.isOnline then io.pushNotice packet.serialized else io.push packet.serialized) with
    kicks := s.kicks ++ [⟨i, conn.id, io.accepts packet.serialized⟩] }

/-- An event of the server.  If it ends a kick, that kick has sent its packet before. -/
def stepServer (s : KickServer) (e : Mmocraft.Event) : Option KickServer :=
  match s.server.kickOf e with
  | none => (s.server.step e).map fun server => { s with server := server }
  | some kick =>
      if kick ∈ s.kicks then
        (s.server.step e).map fun server => { s with server := server, kicks := s.kicks.erase kick }
      else none

/-- The events.  Except for those of the server, each is about the connection in a slot. -/
inductive Event where
  /-- Anything but the packet of a kick is pushed to the send buffer. -/
  | push (i : Nat) (bytes : PushData)
  | sendKick (i : Nat) (packet : PacketDisconnectPlayer)
  | server (e : Mmocraft.Event)
  /-- `for_each_connection` in `flush_send` reads `will_delete`. -/
  | visit (i : Nat)
  /-- `post_send_event` in `flush_send`; `rioOk` is the outcome of `RIOSend`. -/
  | flushSend (i : Nat) (rioOk : Bool)
  | complete (i n : Nat)
  | fail (i : Nat)

def step (s : KickServer) : Event → Option KickServer
  | .push i bytes => (s.server.connection i).map fun conn =>
      s.updateIo conn.id ((s.io conn.id).push bytes.1)
  | .sendKick i packet => (s.server.connection i).map fun conn => s.sendKick i conn packet
  | .server e => s.stepServer e
  | .visit i => (s.server.connection i).bind fun conn =>
      if (s.server.connectionEnv.table i).willDelete then none
      else some { s with visited := some conn.id }
  | .flushSend i rioOk => (s.server.connection i).bind fun conn =>
      if s.visited = some conn.id then
        some { s.updateIo conn.id ((s.io conn.id).postSendEvent rioOk) with visited := none }
      else none
  | .complete i n => (s.server.connection i).bind fun conn =>
      ((s.io conn.id).complete n).map (s.updateIo conn.id)
  | .fail i => (s.server.connection i).bind fun conn =>
      (s.io conn.id).fail.map (s.updateIo conn.id)

/-- Where the entry is marked, and so never flushed again, no byte of an accepted disconnect packet is
left in the send buffer that was never posted. -/
def NoticesLeave (s : KickServer) : Prop :=
  ∀ i conn, s.server.connection i = some conn → (s.server.connectionEnv.table i).willDelete = true →
    (s.io conn.id).NoticesLeave

/-- No `disconnect` takes a connection offline at once for which a disconnect packet was accepted since
the last post that `RIOSend` took. -/
def FlushedFirst (s : KickServer) : Event → Prop
  | .server e => s.server.CallsMeet (Server.SparesIds fun c => (s.io c).unflushed = true) e
  | _ => True

instance (s : KickServer) : (e : Event) → Decidable (s.FlushedFirst e)
  | .server e => inferInstanceAs (Decidable
      (s.server.CallsMeet (Server.SparesIds fun c => (s.io c).unflushed = true) e))
  | .push .. | .sendKick .. | .visit _ | .flushSend .. | .complete .. | .fail _ => isTrue trivial

/-! ## The invariant -/

/-- The table and the send events are in order, and no connection that is offline has accepted a
disconnect packet since its last post. -/
structure Ok (s : KickServer) : Prop where
  table : TableOk s.server
  io : ∀ c, (s.io c).Ok
  offline : s.server.OfflineAvoids fun c => (s.io c).unflushed = true

theorem init_ok (maxClients : Nat) (metadata : WorldMetadata) (blockMapping : List UInt8)
    (memory : Nat → SliceMemory tcpSendBufferSize) :
    (init (Server.init maxClients metadata blockMapping) memory).Ok where
  table := TableOk.init ..
  io c := by
    apply NoticeIo.init_ok
    rw [(memory c).2]
    decide
  offline _ _ hconn := nomatch hconn

/-- What an event of the server does to the rest: at most it takes a kick from the list. -/
theorem of_stepServer {s t : KickServer} {e : Mmocraft.Event} (hstep : s.stepServer e = some t) :
    s.server.step e = some t.server ∧ t.io = s.io := by
  unfold stepServer at hstep
  cases hkick : s.server.kickOf e with
  | none =>
      rw [hkick] at hstep
      obtain ⟨server, hserver, rfl⟩ := Option.map_eq_some_iff.mp hstep
      exact ⟨hserver, rfl⟩
  | some kick =>
      rw [hkick] at hstep
      dsimp only at hstep
      split_ifs at hstep
      obtain ⟨server, hserver, rfl⟩ := Option.map_eq_some_iff.mp hstep
      exact ⟨hserver, rfl⟩

section Ok

variable {s t : KickServer} (h : s.Ok)

include h

/-- The send event of one connection changes; no notice is added, or the connection is online. -/
theorem Ok.updateIo {i : Nat} {conn : Connection} (hconn : s.server.connection i = some conn)
    {io : NoticeIo} (hio : io.Ok)
    (hunflushed : conn.isOnline = false → io.unflushed = true → (s.io conn.id).unflushed = true) :
    (s.updateIo conn.id io).Ok := by
  refine ⟨h.table, fun c => ?_, fun j c hc hoff => ?_⟩
  · show (Function.update s.io conn.id io c).Ok
    rw [Function.update_apply]
    split_ifs
    · exact hio
    · exact h.io c
  · show ¬ (Function.update s.io conn.id io c.id).unflushed = true
    rw [Function.update_apply]
    split_ifs with hid
    · obtain rfl := h.table.id_inj j i c conn hc hconn hid
      obtain rfl := Option.some.inj (hc.symm.trans hconn)
      exact fun hun => h.offline j c hc hoff (hunflushed hoff hun)
    · exact h.offline j c hc hoff

theorem Ok.sendKick {i : Nat} {conn : Connection} (hconn : s.server.connection i = some conn)
    (packet : PacketDisconnectPlayer) : (s.sendKick i conn packet).Ok := by
  have hlen := packet.length_serialized
  have hlt : packet.serialized.length < 2 ^ 31 := by
    rw [hlen]
    decide
  have hpos : 0 < packet.serialized.length := by
    rw [hlen]
    decide
  have hio := h.io conn.id
  have hupdate : (s.updateIo conn.id (if conn.isOnline then (s.io conn.id).pushNotice packet.serialized
      else (s.io conn.id).push packet.serialized)).Ok := by
    split_ifs with honline
    · apply h.updateIo hconn (hio.pushNotice ⟨_, hlt⟩ hpos)
      intro hoff
      rw [honline] at hoff
      cases hoff
    · apply h.updateIo hconn (hio.push ⟨_, hlt⟩)
      exact fun _ hun => hun
  exact ⟨hupdate.table, hupdate.io, hupdate.offline⟩

/-- A step that meets the condition keeps the invariant. -/
theorem Ok.step {e : Event} (hfirst : s.FlushedFirst e) (hstep : s.step e = some t) : t.Ok := by
  cases e with
  | push i bytes =>
      obtain ⟨conn, hconn, rfl⟩ := Option.map_eq_some_iff.mp hstep
      apply h.updateIo hconn ((h.io conn.id).push bytes)
      exact fun _ hun => hun
  | sendKick i packet =>
      obtain ⟨conn, hconn, rfl⟩ := Option.map_eq_some_iff.mp hstep
      exact h.sendKick hconn packet
  | server e =>
      obtain ⟨hserver, hio⟩ := of_stepServer hstep
      obtain ⟨ht, hoffline⟩ := Server.OfflineAvoids.step ⟨h.table, h.offline⟩ hfirst hserver
      refine ⟨ht, ?_, ?_⟩
      · rw [hio]
        exact h.io
      · rw [hio]
        exact hoffline
  | visit i =>
      obtain ⟨conn, -, hvisit⟩ := Option.bind_eq_some_iff.mp hstep
      split_ifs at hvisit
      obtain rfl := Option.some.inj hvisit
      exact ⟨h.table, h.io, h.offline⟩
  | flushSend i rioOk =>
      obtain ⟨conn, hconn, hflush⟩ := Option.bind_eq_some_iff.mp hstep
      split_ifs at hflush
      obtain rfl := Option.some.inj hflush
      have hupdate : (s.updateIo conn.id ((s.io conn.id).postSendEvent rioOk)).Ok := by
        apply h.updateIo hconn ((h.io conn.id).postSendEvent rioOk)
        exact fun _ hun => (Bool.and_eq_true_iff.mp hun).1
      exact ⟨hupdate.table, hupdate.io, hupdate.offline⟩
  | complete i n =>
      obtain ⟨conn, hconn, hcomplete⟩ := Option.bind_eq_some_iff.mp hstep
      obtain ⟨io, hio, rfl⟩ := Option.map_eq_some_iff.mp hcomplete
      apply h.updateIo hconn ((h.io conn.id).complete hio)
      exact fun _ hun => (NoticeIo.unflushed_complete hio).symm.trans hun
  | fail i =>
      obtain ⟨conn, hconn, hfail⟩ := Option.bind_eq_some_iff.mp hstep
      obtain ⟨io, hio, rfl⟩ := Option.map_eq_some_iff.mp hfail
      apply h.updateIo hconn ((h.io conn.id).fail hio)
      exact fun _ hun => (NoticeIo.unflushed_fail hio).symm.trans hun

/-- A marked entry holds a connection that is offline. -/
theorem Ok.noticesLeave : s.NoticesLeave := by
  intro i conn hconn hmarked
  rw [(h.io conn.id).leave_iff]
  refine h.offline i conn hconn (Bool.eq_false_iff.mpr fun honline => ?_)
  have hclear := (h.table.online_iff i).mpr ⟨conn, hconn, honline⟩
  rw [hmarked] at hclear
  cases hclear

/-- A step that does not meet it marks an entry while bytes of a notice were never posted. -/
theorem Ok.not_noticesLeave {e : Event} (hfirst : ¬ s.FlushedFirst e) (hstep : s.step e = some t) :
    ¬ t.NoticesLeave := by
  intro hleave
  cases e with
  | server e =>
      obtain ⟨hserver, hio⟩ := of_stepServer hstep
      obtain ⟨i, conn, hconn, hmarked, hunflushed⟩ :=
        Server.OfflineAvoids.not_spared h.table hfirst hserver
      have hleft := hleave i conn hconn hmarked
      rw [hio, (h.io conn.id).leave_iff] at hleft
      exact hleft hunflushed
  | _ => exact hfirst trivial

end Ok

/-- **Kick notices.** In every run: a marked entry never leaves bytes of a disconnect packet behind that
were not posted, exactly if every `disconnect` that takes its connection offline at once comes after a
flush that `RIOSend` took, with no disconnect packet accepted in between. -/
theorem noticesLeave_iff {maxClients : Nat} {metadata : WorldMetadata} {blockMapping : List UInt8}
    {memory : Nat → SliceMemory tcpSendBufferSize} {es : List Event} {s : KickServer}
    (hrun : run step (init (Server.init maxClients metadata blockMapping) memory) es = some s) :
    EachState step NoticesLeave (init (Server.init maxClients metadata blockMapping) memory) es ↔
      Along step FlushedFirst (init (Server.init maxClients metadata blockMapping) memory) es :=
  eachState_iff_along (fun _ _ _ h => h.step) (fun _ h => h.noticesLeave)
    (fun _ _ _ h => h.not_noticesLeave) (init_ok maxClients metadata blockMapping memory) hrun

/-- Cleared send buffers. -/
def clearedMemory : Nat → SliceMemory tcpSendBufferSize := fun _ =>
  ⟨List.replicate tcpSendBufferSize 0, List.length_replicate⟩

/-- A client connects, sends a packet that cannot be parsed, and the packet of its kick is flushed before
it is disconnected. -/
def flushedKick : List Event :=
  [.server (.accept 0), .sendKick 0 ⟨[66, 97, 100]⟩, .visit 0, .flushSend 0 true,
    .server (.kick 0 ErrorCode.invalidPacketId 1 true)]

theorem noticesLeave_flushedKick :
    EachState step NoticesLeave (init Server.small clearedMemory) flushedKick := by
  obtain ⟨s, hs⟩ := Option.isSome_iff_exists.mp
    (show (run step (init Server.small clearedMemory) flushedKick).isSome = true by decide +kernel)
  exact (noticesLeave_iff hs).mpr (by decide +kernel)

/-- The same client, kicked without a flush between the push and `disconnect`. -/
def earlyKick : List Event :=
  [.server (.accept 0), .sendKick 0 ⟨[66, 97, 100]⟩,
    .server (.kick 0 ErrorCode.invalidPacketId 1 true)]

/-- The client of an early kick has no player, so its entry is marked at once, with the disconnect
packet still in the buffer. -/
theorem not_noticesLeave_earlyKick :
    ∃ s, run step (init Server.small clearedMemory) earlyKick = some s ∧ ¬ s.NoticesLeave := by
  have hrun : ((run step (init Server.small clearedMemory) earlyKick).map fun s =>
      ((s.server.connection 0).map Connection.id, (s.server.connectionEnv.table 0).willDelete,
        (s.io 0).notices, (s.io 0).posted, (s.io 0).send.transferred.length,
        (s.io 0).send.eventData.contents.length)) =
      some (some 0, true, [⟨0, 65⟩], 0, 0, 65) := by decide +kernel
  obtain ⟨s, hs, hview⟩ := Option.map_eq_some_iff.mp hrun
  simp only [Prod.mk.injEq] at hview
  obtain ⟨hid, hmarked, hnotices, hposted, htransferred, hcontents⟩ := hview
  obtain ⟨conn, hconn, hid⟩ := Option.map_eq_some_iff.mp hid
  refine ⟨s, hs, fun hleave => ?_⟩
  have hleft := hleave 0 conn hconn hmarked
  rw [hid] at hleft
  refine hleft ⟨0, 65⟩ (by rw [hnotices]; exact List.mem_singleton_self _) 0 (Nat.le_refl 0) (by decide)
    ⟨⟨?_, ?_⟩, ?_⟩ <;> omega

end KickServer

end Mmocraft
