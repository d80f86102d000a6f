/-
# Mmocraft.Server.UsedSlots -- who registers and deletes connections

`on_connection_create` and `on_connection_delete` are called on the path of the accept event alone.  Every
other event, on whichever thread, leaves the number of connections and the used slots as they are, and with
them the slot that the next connection is given.

This is what makes it right that the accept loop picks a slot first and registers the connection there several
calls later: between the two, the steps of other threads do not touch the free slots. It is the frame
condition of the refinement of the loop, and it is proved with the rule for connections, for a relation to a
fixed state.
-/
import Mmocraft.Server.ConnectionTable

namespace Mmocraft

open Mmocraft.Lib Mmocraft.Game Mmocraft.Net

/-- `t` uses the slots that `s` uses. Connections may have gone offline and players may have changed. -/
structure SameSlots (s t : Server) : Prop where
  numOfMaxConnections : t.connectionEnv.numOfMaxConnections = s.connectionEnv.numOfMaxConnections
  numOfConnections : t.connectionEnv.numOfConnections = s.connectionEnv.numOfConnections
  used : ∀ i, (t.connectionEnv.table i).used = (s.connectionEnv.table i).used
  numOfAccepted : t.numOfAccepted = s.numOfAccepted

namespace SameSlots

variable {s t u : Server}

theorem refl (s : Server) : SameSlots s s := ⟨rfl, rfl, fun _ => rfl, rfl⟩

theorem trans (hst : SameSlots s t) (htu : SameSlots t u) : SameSlots s u :=
  ⟨htu.1.trans hst.1, htu.2.trans hst.2, fun i => (htu.3 i).trans (hst.3 i), htu.4.trans hst.4⟩

/-- The players have no part in it. -/
theorem of_shape (h : SameShape s t) : SameSlots s t := by
  refine ⟨?_, ?_, fun i => ?_, h.numOfAccepted⟩
  all_goals rw [h.connectionEnv]

theorem of_same (h : SameTable s t) : SameSlots s t := by
  refine ⟨?_, ?_, fun i => ?_, h.numOfAccepted⟩
  all_goals rw [h.connectionEnv]

/-- The slot of the next connection depends on the used slots alone. -/
theorem getUnusedConnectionId (h : SameSlots s t) :
    t.connectionEnv.getUnusedConnectionId = s.connectionEnv.getUnusedConnectionId := by
  simp only [ConnectionEnvironment.getUnusedConnectionId, h.numOfMaxConnections, h.used]

/-! ## The connections themselves -/

/-- A change of an entry that leaves its flag. -/
theorem of_updateEntry {i : Nat} {f : ConnectionEntry → ConnectionEntry}
    (henv : t.connectionEnv = s.connectionEnv.updateEntry i f) (haccepted : t.numOfAccepted = s.numOfAccepted)
    (hf : ∀ entry, (f entry).used = entry.used) : SameSlots s t := by
  refine ⟨?_, ?_, fun j => ?_, haccepted⟩
  · rw [henv]
    rfl
  · rw [henv]
    rfl
  · rw [henv]
    show (Function.update s.connectionEnv.table i _ j).used = _
    by_cases hj : j = i
    · rw [hj, Function.update_self, hf]
    · rw [Function.update_of_ne hj]

/-- A change of the connection in a slot. -/
theorem of_updateConnection {i : Nat} {g : Connection → Connection}
    (henv : t.connectionEnv = s.connectionEnv.updateConnection i g) (haccepted : t.numOfAccepted = s.numOfAccepted) :
    SameSlots s t :=
  of_updateEntry (f := fun entry => { entry with connection := entry.connection.map g }) henv haccepted fun _ => rfl

/-- An interaction writes a tick into a connection. -/
theorem interact (s : Server) (i now : Nat) : SameSlots s (s.interact i now) := of_updateConnection rfl rfl

/-- A handshake writes a player into a connection. -/
theorem setPlayer (s : Server) (i : Nat) (conn : Connection) (player : Player) :
    SameSlots s (s.setPlayer i conn player) := of_updateConnection rfl rfl

/-- A connection that goes offline stays in its slot, and its entry is marked. -/
theorem setOffline (s : Server) (i : Nat) (conn : Connection) (now : Nat) :
    SameSlots s (s.setOffline i conn now) := by
  have hobject : SameSlots s { s with connectionEnv := s.connectionEnv.updateConnection i fun conn => conn.setOffline now } :=
    of_updateConnection rfl rfl
  exact hobject.trans
    (of_updateEntry (f := fun entry => { entry with willDelete := true }) rfl rfl fun _ => rfl)

theorem disconnect (s : Server) (i now : Nat) : SameSlots s (s.disconnect i now) := by
  rcases s.disconnect_cases i now with heq | ⟨conn, p, -, -, -, heq⟩ | ⟨conn, -, -, -, heq⟩
  · rw [heq]
    exact refl s
  · rw [heq]
    exact of_shape (SameShape.prepareStateTransition s p _ _)
  · rw [heq]
    exact setOffline s i conn now

theorem kick (s : Server) (i : Nat) (reason : ErrorCode) (now : Nat) (accepted : Bool) :
    SameSlots s (s.kick i reason now accepted) := by
  unfold Server.kick
  cases s.connection i with
  | none => exact refl s
  | some conn => exact (of_shape (SameShape.send s conn _ accepted)).trans (disconnect _ i now)

/-! ## The events -/

/-- The moves that read no clock; those that do are below. -/
theorem closedConnections {C : Server → Server.Call → Prop} :
    ClosedConnections (fun _ => True) (SameSlots s) C fun _ => False where
  quiet _ _ hq h := h.trans (of_shape hq.sameShape)
  interact _ hT := hT.elim
  accept _ hT := hT.elim
  disconnect _ _ hT := hT.elim
  handshake username password cpeMagic garbage _ _ _ _ _ h := by
    obtain ⟨cur, next, -, heq⟩ := Server.handshake_eq _ _ _ username password cpeMagic garbage
    rw [heq]
    exact (h.trans (setPlayer _ _ _ _)).trans (of_same ⟨rfl, rfl, rfl⟩)
  extEntry _ _ _ _ _ h := h.trans (of_shape (SameShape.transitState _ _ _))

/-- A receive registers and deletes no connection, whatever its packet asks for. -/
theorem receive (ht : TableOk s) (i : Nat) (packet : ClientPacket) (now : Nat) (accepted : Bool)
    (garbage : PlayerTypeId) : SameSlots s (s.receivePacket i packet now accepted garbage) := by
  unfold Server.receivePacket
  cases hconn : s.connection i with
  | none => exact refl s
  | some conn =>
      show SameSlots s (if _ then _ else _)
      split_ifs with honline
      · exact (closedConnections.of_handlePacket (C := fun _ _ => True)
          ⟨ht.interact hconn now, interact s i now⟩ (TableOk.interact_connection hconn now) honline packet
          accepted garbage fun _ _ => trivial).2
      · exact refl s

/-- The visit of a slot: a player that is not to be disconnected leaves the table alone. -/
theorem tickPlayer (s : Server) (i now : Nat) (o : Outcomes) : SameSlots s (s.tickPlayer i now o) := by
  have hsuccess : ∀ conn p, SameShape s ((s.onHandshakeSuccess conn p o).waitForLevel p) := fun conn p =>
    (Quiet.onHandshakeSuccess s conn p o).sameShape.trans
      ((SameShape.prepareStateTransition _ p _ _).trans (SameShape.of_rfl rfl rfl rfl rfl rfl))
  unfold Server.tickPlayer
  split
  · rename_i conn p _ _
    unfold Server.transitPlayerState
    cases (s.players p).state with
    | exHandshaked =>
        show SameSlots s (if _ then _ else _)
        split_ifs
        · exact of_shape ((((SameShape.send s conn _ _).trans (SameShape.send _ conn _ _)).trans
            (SameShape.send _ conn _ _)).trans (SameShape.prepareStateTransition _ p _ _))
        · exact refl s
    | handshaked => exact of_shape (hsuccess conn p)
    | extensionSynced => exact of_shape (hsuccess conn p)
    | levelInitialized =>
        exact of_shape ((Quiet.setSpawnPosition s p).sameShape.trans
          ((SameShape.prepareStateTransition _ p _ _).trans (SameShape.of_rfl rfl rfl rfl rfl rfl)))
    | spawned =>
        show SameSlots s (if _ then _ else _)
        split_ifs
        · exact of_shape ((SameShape.send s conn .ping (o 0)).trans (SameShape.updatePlayer _ p rfl))
        · exact refl s
    | disconnecting => exact of_same ⟨rfl, rfl, rfl⟩
    | disconnected => exact disconnect s i now
    | _ => exact refl s
  · exact refl s

/-- A reply reaches connections that there are. -/
theorem response (s : Server) (request : LoginRequest) (reply : LoginReply) (now : Nat) (accepted : Bool) :
    SameSlots s (s.handleHandshakeResponse request reply now accepted) := by
  have hrecord : SameSlots s (s.record (.responded request reply)) := of_shape (SameShape.record s _)
  have hkick : ∀ u : Server, SameSlots u (u.kickPrevious request reply now accepted) := by
    intro u
    unfold Server.kickPrevious
    split
    · exact refl u
    · exact kick u _ _ now accepted
  have hload : ∀ u : Server, SameSlots u { u with loads := u.loads ++ [{ request := request, reply := reply }] } :=
    fun _ => of_same ⟨rfl, rfl, rfl⟩
  simp only [Server.handleHandshakeResponse]
  refine hrecord.trans ?_
  generalize s.record (.responded request reply) = t
  by_cases hsuccess : reply.errorCode = ErrorCode.success
  · rw [if_pos hsuccess]
    exact ((of_shape (SameShape.identify t request reply)).trans (hkick _)).trans (hload _)
  · rw [if_neg hsuccess]
    cases t.tryAcquireConnection request.connectionKey with
    | none => exact hload t
    | some conn =>
        show SameSlots t (if _ then _ else _)
        split_ifs
        · cases conn.player with
          | none => exact refl t
          | some p => exact of_shape (SameShape.admitGuest t p request reply)
        · exact kick t _ _ now accepted

/-- So does the end of a load. -/
theorem load (s : Server) (load : GamedataLoad) (result : LoadResult) (now : Nat) (accepted : Bool) :
    SameSlots s (s.resumeHandshakeResponse load result now accepted) := by
  unfold Server.resumeHandshakeResponse
  split
  · exact refl s
  · split_ifs
    · exact kick s _ _ now accepted
    · split
      · exact of_shape (SameShape.admitLoaded s _ load result)
      · exact refl s

/-- Every event but an accept and a clean-up leaves the used slots. -/
theorem step (ht : TableOk s) {e : Event} (haccept : ∀ now, e ≠ .accept now)
    (hcleanup : ∀ i now, e ≠ .cleanup i now) (hstep : s.step e = some t) : SameSlots s t := by
  have hsame : ∀ {u v : Server}, SameSlots s u → SameTable u v → SameSlots s v := fun h huv =>
    h.trans (of_same huv)
  have hs : TableOk s ∧ SameSlots s s := ⟨ht, refl s⟩
  cases e with
  | accept now => exact absurd rfl (haccept now)
  | cleanup i now => exact absurd rfl (hcleanup i now)
  | receive i packet now accepted garbage =>
      obtain rfl := Option.some.inj hstep
      exact receive ht i packet now accepted garbage
  | kick i reason now accepted =>
      obtain rfl := Option.some.inj hstep
      exact kick s i reason now accepted
  | receiveError i now =>
      obtain rfl := Option.some.inj hstep
      exact disconnect s i now
  | tickPlayer i now o =>
      obtain rfl := Option.some.inj hstep
      exact tickPlayer s i now o
  | schedule task now posted =>
      obtain rfl := Option.some.inj hstep
      exact (closedConnections.of_schedule (C := fun _ _ => True) (SameTable.closedSchedules hsame) hs task now
        posted).2
  | runTask task o o' =>
      have hstep' : (if s.completionQueued task then some (s.runTask task o o') else none) = some t := hstep
      split_ifs at hstep' with hqueued
      obtain rfl := Option.some.inj hstep'
      exact (closedConnections.of_runTask (C := fun _ _ => True) (SameTable.closedTasks hsame) hs task o o'
        hqueued fun _ _ => trivial).2
  | response p reply now accepted =>
      obtain ⟨request, -, rfl⟩ := Option.map_eq_some_iff.mp hstep
      have herased : SameSlots s { s with requests := s.requests.erase request } := of_same ⟨rfl, rfl, rfl⟩
      exact herased.trans (response _ request reply now accepted)
  | load p result now accepted =>
      obtain ⟨gamedata, -, rfl⟩ := Option.map_eq_some_iff.mp hstep
      have herased : SameSlots s { s with loads := s.loads.erase gamedata } := of_same ⟨rfl, rfl, rfl⟩
      exact herased.trans (load _ gamedata result now accepted)

end SameSlots

/-- The table is kept by every event, whatever else holds. -/
theorem TableOk.step {s t : Server} (h : TableOk s) {e : Event} (hstep : s.step e = some t) : TableOk t := by
  have hclosed : ClosedTable (fun _ => True) fun _ => True :=
    ⟨fun _ _ => trivial, fun _ _ _ _ => trivial, fun _ _ _ => trivial, fun _ _ _ => trivial⟩
  exact (hclosed.step ⟨h, trivial⟩ e (fun _ _ => trivial) (fun _ _ _ _ _ _ => trivial) hstep).1

/-- A clean-up accepts nothing. -/
theorem Server.cleanupExpiredConnection_numOfAccepted (s : Server) (i now : Nat) :
    (s.cleanupExpiredConnection i now).numOfAccepted = s.numOfAccepted := by
  unfold Server.cleanupExpiredConnection
  split_ifs
  · rfl
  · cases s.connection i with
    | none => rfl
    | some conn =>
        show Server.numOfAccepted (if _ then _ else _) = _
        split_ifs
        · rfl
        · exact (SameSlots.disconnect s i now).numOfAccepted
        · rfl

end Mmocraft
