/-
# Mmocraft.Net.ConnectionEnvironment -- the connection table

`Connection`, its table entry and the table itself.  A slot keeps `will_delete` set until a
connection is registered and again once that connection is offline; `try_acquire_connection`
compares the tick in the key with the one in the entry.  Objects have identities: a connection
carries one that is never reused, and owns its player by the player's identity.
-/
import Mathlib.Logic.Function.Basic
import Mmocraft.Net.ConnectionKey

namespace Mmocraft.Net

/-- `Connection`. -/
structure Connection where
  /-- The identity of the object. -/
  id : Nat
  connectionKey : ConnectionKey
  isOnline : Bool := true
  lastOfflineTick : Nat := 0
  lastInteractionTick : Nat
  /-- `_player`: the identity of the player it owns. -/
  player : Option Nat := none
  deriving DecidableEq, Repr

namespace Connection

def requiredMillisecondsForExpire : Nat := 60 * 1000

def requiredMillisecondsForSecureDeletion : Nat := 5 * 1000

def isExpired (conn : Connection) (currentTick : Nat) : Bool :=
  conn.lastInteractionTick + requiredMillisecondsForExpire ≤ currentTick

def isSafeDelete (conn : Connection) (currentTick : Nat) : Bool :=
  !conn.isOnline && conn.lastOfflineTick + requiredMillisecondsForSecureDeletion ≤ currentTick

/-- The stores of `set_offline` in the connection, as one step. -/
def setOffline (conn : Connection) (currentTick : Nat) : Connection :=
  { conn with isOnline := false, lastOfflineTick := currentTick }

/-- `update_last_interaction_time`. -/
def updateLastInteractionTime (conn : Connection) (currentTick : Nat) : Connection :=
  { conn with lastInteractionTick := currentTick }

theorem offline_of_isSafeDelete {conn : Connection} {now : Nat} (h : conn.isSafeDelete now = true) :
    conn.isOnline = false := by
  simp only [isSafeDelete, Bool.and_eq_true, Bool.not_eq_true'] at h
  exact h.1

theorem lastOfflineTick_lt_of_isSafeDelete {conn : Connection} {now : Nat}
    (h : conn.isSafeDelete now = true) : conn.lastOfflineTick < now := by
  simp only [isSafeDelete, requiredMillisecondsForSecureDeletion, Bool.and_eq_true] at h
  have hle := of_decide_eq_true h.2
  omega

end Connection

/-- `INVALID_TICK`. -/
def invalidTick : Nat := 0xDEADBEEF

/-- `ConnectionEntry`. -/
structure ConnectionEntry where
  used : Bool := false
  willDelete : Bool := true
  connection : Option Connection := none
  createdAt : Nat := invalidTick
  deriving DecidableEq, Repr, Inhabited

/-- `ConnectionEnvironment`.  Only the slots below `num_of_max_connections` exist; the others stay as
they are initialized. -/
structure ConnectionEnvironment where
  numOfMaxConnections : Nat
  numOfConnections : Nat := 0
  table : Nat → ConnectionEntry := fun _ => {}

namespace ConnectionEnvironment

/-- `get_unused_connection_id`: the first slot that is not used, the number of slots if all are. -/
def getUnusedConnectionId (env : ConnectionEnvironment) : Nat :=
  (List.range env.numOfMaxConnections).findIdx fun i => !(env.table i).used

def updateEntry (env : ConnectionEnvironment) (i : Nat) (f : ConnectionEntry → ConnectionEntry) :
    ConnectionEnvironment :=
  { env with table := Function.update env.table i (f (env.table i)) }

/-- `on_connection_create`. -/
def onConnectionCreate (env : ConnectionEnvironment) (key : ConnectionKey) (conn : Connection) :
    ConnectionEnvironment :=
  { env.updateEntry key.index fun _ =>
      { used := true, willDelete := false, connection := some conn, createdAt := key.createdAt } with
    numOfConnections := env.numOfConnections + 1 }

/-- `on_connection_delete`, which the destructor of the connection calls: `connection.reset()` in the
entry of the connection comes first. -/
def onConnectionDelete (env : ConnectionEnvironment) (key : ConnectionKey) :
    ConnectionEnvironment :=
  { env.updateEntry key.index fun entry =>
      { entry with used := false, connection := none, createdAt := invalidTick } with
    numOfConnections := env.numOfConnections - 1 }

/-- The object in a slot, updated. -/
def updateConnection (env : ConnectionEnvironment) (i : Nat) (f : Connection → Connection) :
    ConnectionEnvironment :=
  env.updateEntry i fun entry => { entry with connection := entry.connection.map f }

/-- `on_connection_offline`. -/
def onConnectionOffline (env : ConnectionEnvironment) (key : ConnectionKey) :
    ConnectionEnvironment :=
  env.updateEntry key.index fun entry => { entry with willDelete := true }

/-- `is_expired`. -/
def isExpired (env : ConnectionEnvironment) (key : ConnectionKey) : Bool :=
  (env.table key.index).willDelete || key.createdAt ≠ (env.table key.index).createdAt

/-- `try_acquire_connection`. -/
def tryAcquireConnection (env : ConnectionEnvironment) (key : ConnectionKey) : Option Connection :=
  if env.isExpired key then none else (env.table key.index).connection

theorem tryAcquireConnection_eq_some {env : ConnectionEnvironment} {key : ConnectionKey}
    {conn : Connection} :
    env.tryAcquireConnection key = some conn ↔
      (env.table key.index).willDelete = false ∧
        key.createdAt = (env.table key.index).createdAt ∧
        (env.table key.index).connection = some conn := by
  simp only [tryAcquireConnection, isExpired]
  by_cases hwill : (env.table key.index).willDelete = true
  · simp [hwill]
  · by_cases hcreated : key.createdAt = (env.table key.index).createdAt
    · simp [hwill, hcreated]
    · simp [hwill, hcreated]

/-- The slots in which a player is visited by `for_each_player` and `select_players`. -/
def playerOf (env : ConnectionEnvironment) (i : Nat) : Option Nat :=
  if (env.table i).willDelete then none else (env.table i).connection.bind Connection.player

/-- `select_players`, in the order of the table. -/
def selectPlayers (env : ConnectionEnvironment) (filter : Nat → Bool) : List Nat :=
  (List.range env.numOfMaxConnections).filterMap fun i => (env.playerOf i).filter filter

end ConnectionEnvironment

end Mmocraft.Net
