/-
# Mmocraft.Server.PostedRanges -- the posted ranges of a server with its buffers

A game server together with the `ConnectionIO` of each of its connections.  The connection table gives
out the ids, the buffers of an id are slices of the two pools, and what is posted for a connection stays
within them: so two connections that live at the same time never share a byte of a posted range.

This is where the connection table and the buffers meet: the table keeps ids of live connections apart, the
pools keep the slices of ids apart, and the events of a connection keep its posts in its slice. Every event of
the server may come between two posts.
-/
import Mmocraft.Io.RegisteredIo
import Mmocraft.Server.ConnectionTable

namespace Mmocraft

open Mmocraft.Lib Mmocraft.Io Mmocraft.Net

/-- What was passed to `RIOReceive` or `RIOSend` by `recv` or `send`, for the connection with a key. -/
structure Posted where
  key : ConnectionKey
  buf : RioBuf
  deriving DecidableEq, Repr

/-- The server with its registered I/O. The buffers are made with the connection and go with it; a key tells
which of several connections of one slot they were. -/
structure IoServer where
  server : Server
  rio : RegisteredIo
  /-- The `ConnectionIO` of the latest connection with a key. -/
  io : ConnectionKey → PooledIo
  posted : List Posted := []

/-- The event accepts a socket. -/
def Event.isAccept : Event → Bool
  | .accept _ => true
  | _ => false

namespace IoServer

/-- Cleared memory for a buffer. -/
def clearedMemory (size : Nat) : SliceMemory size := ⟨List.replicate size 0, List.length_replicate⟩

/-- A server that has just started, with its pools at two addresses. -/
def init (maxClients : Nat) (metadata : Game.WorldMetadata) (blockMapping : List UInt8)
    (recvBase sendBase : Nat) : IoServer where
  server := .init maxClients metadata blockMapping
  rio := .new maxClients recvBase sendBase
  io key := .new (.new maxClients recvBase sendBase) key.index (clearedMemory _) (clearedMemory _)

/-- A socket is accepted.  The constructor of a new connection makes its `ConnectionIO`, on whatever the
buffers held before. -/
def accept (s : IoServer) (now : Nat) (recvMemory : SliceMemory tcpRecvBufferSize)
    (sendMemory : SliceMemory tcpSendBufferSize) : IoServer :=
  if s.server.IsFull then { s with server := s.server.accept now }
  else
    let key := s.server.newConnectionKey now
    { s with
      server := s.server.accept now
      io := Function.update s.io key (.new s.rio key.index recvMemory sendMemory) }

/-- Something happens on the connection in slot `i`. -/
def visit (s : IoServer) (i : Nat) (e : PooledIo.Event) : Option IoServer :=
  (s.server.connection i).bind fun conn =>
    ((s.io conn.connectionKey).step s.rio (!(s.server.connectionEnv.table i).willDelete) e).map fun r =>
      { s with
        io := Function.update s.io conn.connectionKey r.1
        posted := s.posted ++ r.2.map fun buf => ⟨conn.connectionKey, buf⟩ }

/-- The events: a socket is accepted, the server does anything else, or something happens on the
connection in a slot. -/
inductive Event where
  | accept (now : Nat) (recvMemory : SliceMemory tcpRecvBufferSize)
      (sendMemory : SliceMemory tcpSendBufferSize)
  | server (e : Mmocraft.Event)
  | io (i : Nat) (e : PooledIo.Event)

def step (s : IoServer) : Event → Option IoServer
  | .accept now recvMemory sendMemory => some (s.accept now recvMemory sendMemory)
  | .server e =>
      if e.isAccept then none else (s.server.step e).map fun server => { s with server := server }
  | .io i e => s.visit i e

/-! ## The invariant -/

/-- The table is consistent, the buffers of every key are those of its index, and what was posted lies in
the slice of the index. -/
structure Ok (maxClients : Nat) (s : IoServer) : Prop where
  table : TableOk s.server ∧ KeysOk maxClients s.server
  addressable : s.rio.Addressable maxClients
  connectionId : ∀ key, (s.io key).connectionId = key.index
  buffers : ∀ key, (s.io key).Ok s.rio
  inside : ∀ p ∈ s.posted, p.buf.range.Inside ((s.rio.pool p.buf.bufferId).slice p.key.index)

namespace Ok

variable {maxClients : Nat} {s s' : IoServer}

theorem init (metadata : Game.WorldMetadata) (blockMapping : List UInt8) (recvBase sendBase : Nat)
    (hmax : maxClients * tcpSendBufferSize < 2 ^ 32) :
    Ok maxClients (init maxClients metadata blockMapping recvBase sendBase) where
  table := ⟨TableOk.init .., KeysOk.init ..⟩
  addressable := RegisteredIo.addressable_new recvBase sendBase hmax
  connectionId _ := rfl
  buffers _ := PooledIo.new_ok (RegisteredIo.addressable_new recvBase sendBase hmax) _ _ _
  inside _ hp := nomatch hp

/-- The server moves on, the buffers stay. -/
theorem server (h : Ok maxClients s) {server : Server} {e : Mmocraft.Event}
    (hstep : s.server.step e = some server) : Ok maxClients { s with server := server } where
  table := KeysOk.step h.table e hstep
  addressable := h.addressable
  connectionId := h.connectionId
  buffers := h.buffers
  inside := h.inside

/-- The `ConnectionIO` of one key changes, and something is posted for it. -/
theorem updateIo (h : Ok maxClients s) (key : ConnectionKey) {x : PooledIo} (bufs : List RioBuf)
    (hid : x.connectionId = key.index) (hx : x.Ok s.rio)
    (hbufs : ∀ buf ∈ bufs, buf.range.Inside ((s.rio.pool buf.bufferId).slice key.index)) :
    Ok maxClients { s with
      io := Function.update s.io key x
      posted := s.posted ++ bufs.map fun buf => ⟨key, buf⟩ } where
  table := h.table
  addressable := h.addressable
  connectionId key' := by
    dsimp only
    rw [Function.update_apply]
    split_ifs with hkey
    · rw [hid, hkey]
    · exact h.connectionId key'
  buffers key' := by
    dsimp only
    rw [Function.update_apply]
    split_ifs
    · exact hx
    · exact h.buffers key'
  inside p hp := by
    rcases List.mem_append.mp hp with hold | hnew
    · exact h.inside p hold
    · obtain ⟨buf, hbuf, rfl⟩ := List.mem_map.mp hnew
      exact hbufs buf hbuf

theorem accept (h : Ok maxClients s) (now : Nat) (recvMemory : SliceMemory tcpRecvBufferSize)
    (sendMemory : SliceMemory tcpSendBufferSize) : Ok maxClients (s.accept now recvMemory sendMemory) := by
  have haccepted : Ok maxClients { s with server := s.server.accept now } :=
    h.server (show s.server.step (.accept now) = _ from rfl)
  unfold IoServer.accept
  dsimp only
  split_ifs
  · exact haccepted
  · have hmade := PooledIo.new_ok h.addressable s.server.connectionEnv.getUnusedConnectionId recvMemory
      sendMemory
    have hnew := haccepted.updateIo ⟨s.server.connectionEnv.getUnusedConnectionId, monotonicTick32 now⟩ []
      rfl hmade (fun _ hmem => nomatch hmem)
    simpa only [List.map_nil, List.append_nil] using hnew

theorem visit (h : Ok maxClients s) {i : Nat} {e : PooledIo.Event} (hstep : s.visit i e = some s') :
    Ok maxClients s' := by
  obtain ⟨conn, hconn, hvisit⟩ := Option.bind_eq_some_iff.mp hstep
  obtain ⟨⟨x, bufs⟩, hio, rfl⟩ := Option.map_eq_some_iff.mp hvisit
  have hid := h.connectionId conn.connectionKey
  -- the connection was given the slot it is in, and there is such a slot
  have hindex : (s.io conn.connectionKey).connectionId < maxClients := by
    rw [hid, h.table.1.key_index i conn hconn, ← h.table.2.slots]
    exact (h.table.1.used_of_connection hconn).2
  obtain ⟨hx, hkept, hbufs⟩ := (h.buffers conn.connectionKey).step h.addressable hindex hio
  rw [hid] at hkept hbufs
  exact h.updateIo conn.connectionKey bufs hkept hx hbufs

/-- Every event keeps the invariant. -/
theorem step (h : Ok maxClients s) (e : Event) (hstep : s.step e = some s') : Ok maxClients s' := by
  cases e with
  | accept now recvMemory sendMemory =>
      cases hstep
      exact h.accept now recvMemory sendMemory
  | server e =>
      simp only [IoServer.step] at hstep
      split_ifs at hstep
      obtain ⟨server, hserver, rfl⟩ := Option.map_eq_some_iff.mp hstep
      exact h.server hserver
  | io i e => exact h.visit hstep

end Ok

/-! ## Separate ranges -/

/-- What was posted for a live connection lies in the slice of its slot, and nothing posted for another
live connection overlaps it. -/
structure RangesSeparate (maxClients : Nat) (s : IoServer) : Prop where
  inside : ∀ i conn, s.server.connection i = some conn → ∀ p ∈ s.posted, p.key = conn.connectionKey →
    i < maxClients ∧ p.buf.range.Inside ((s.rio.pool p.buf.bufferId).slice i)
  disjoint : ∀ i c j d, s.server.connection i = some c → s.server.connection j = some d → c.id ≠ d.id →
    ∀ p ∈ s.posted, p.key = c.connectionKey → ∀ q ∈ s.posted, q.key = d.connectionKey →
      p.buf.bufferId = q.buf.bufferId → p.buf.range.Disjoint q.buf.range

theorem Ok.rangesSeparate {maxClients : Nat} {s : IoServer} (h : Ok maxClients s) :
    s.RangesSeparate maxClients := by
  have hinside : ∀ i conn, s.server.connection i = some conn → ∀ p ∈ s.posted,
      p.key = conn.connectionKey → p.buf.range.Inside ((s.rio.pool p.buf.bufferId).slice i) := by
    intro i conn hconn p hp hkey
    have hindex : p.key.index = i := by rw [hkey, h.table.1.key_index i conn hconn]
    have hposted := h.inside p hp
    rwa [hindex] at hposted
  constructor
  · intro i conn hconn p hp hkey
    refine ⟨?_, hinside i conn hconn p hp hkey⟩
    rw [← h.table.2.slots]
    exact (h.table.1.used_of_connection hconn).2
  · intro i c j d hc hd hne p hp hpkey q hq hqkey hpool
    -- two connections that live at the same time are in different slots
    have hij : i ≠ j := by
      rintro rfl
      exact hne (congrArg Connection.id (Option.some.inj (hc.symm.trans hd)))
    have hp' := hinside i c hc p hp hpkey
    have hq' := hinside j d hd q hq hqkey
    rw [← hpool] at hq'
    exact (Range.slice_disjoint _ hij).of_inside hp' hq'

/-- **Posted ranges.** In every run of a server whose pools 32 bits can address, each range that is posted
for a live connection lies in the slice of that connection, and those of two live connections are disjoint.
The ids that the table gives out are at the same time the indices of the slices, so this is the exclusive
use of slots seen from the memory. -/
theorem rangesSeparate_of_run {maxClients : Nat} (hmax : maxClients * 8192 < 2 ^ 32)
    {metadata : Game.WorldMetadata} {blockMapping : List UInt8} {recvBase sendBase : Nat} {es : List Event}
    {s : IoServer} (hrun : run step (init maxClients metadata blockMapping recvBase sendBase) es = some s) :
    s.RangesSeparate maxClients :=
  (run_invariant (fun _ e _ hs hstep => Ok.step hs e hstep)
    (Ok.init metadata blockMapping recvBase sendBase hmax) hrun).rangesSeparate

/-- Two clients: both receive, and one of them sends. -/
def twoClients : List Event :=
  [.accept 0 (clearedMemory _) (clearedMemory _), .accept 1 (clearedMemory _) (clearedMemory _),
    .io 0 (.flushReceive true), .io 1 (.flushReceive true), .io 1 (.push ⟨[1, 2, 3], by decide⟩),
    .io 1 (.flushSend true)]

theorem rangesSeparate_twoClients : ∃ s, run step
    (init 2 Server.small.world.metadata Server.small.world.blockMapping 4096 65536) twoClients = some s ∧
      s.RangesSeparate 2 := by
  obtain ⟨s, hs⟩ := Option.isSome_iff_exists.mp (show (run step
    (init 2 Server.small.world.metadata Server.small.world.blockMapping 4096 65536) twoClients).isSome = true
      from rfl)
  exact ⟨s, hs, rangesSeparate_of_run (by decide) hs⟩

end IoServer

end Mmocraft
