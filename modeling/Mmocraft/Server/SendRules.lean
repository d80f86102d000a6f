/-
# Mmocraft.Server.SendRules -- what the handlers send

A relation between the states before and after that holds of every change which sends nothing, and of every
single send of a packet that it allows, holds of each handler that sends what it allows.  The rules say for
each handler what it sends, and to whom; a statement about what connections are sent takes them with a
relation of its own.

The relation is a parameter because it is a different one each time: that no chat is sent, that what is sent
fits a monitor, that one connection gets nothing. The rules follow the handlers, and inside a handler the
order in which it sends; they are stated for whatever the posts of the handler come to.
-/
import Mmocraft.Server.Sending

namespace Mmocraft

open Mmocraft.Lib Mmocraft.Game Mmocraft.Net

/-- Packets that can be sent at any time: the answers to packets of the client, pings (the tick sends some of its
own to spawned players), and the end. -/
def ServerPacket.isAnswer : ServerPacket → Bool
  | .disconnectPlayer _ | .ping | .twoWayPing _ | .extPing _ | .setBlock _ => true
  | _ => false

/-- What the tick sends to a player in a state. -/
def ServerPacket.SentInState : State → ServerPacket → Prop
  | .exHandshaked, .extInfo | .exHandshaked, .extEntry .. => True
  | .handshaked, .handshake _ | .handshaked, .setPlayerId _ | .handshaked, .levelInit => True
  | .extensionSynced, .handshake _ | .extensionSynced, .setPlayerId _ | .extensionSynced, .levelInit => True
  | .spawned, .ping => True
  | _, _ => False

/-- `R` holds of what sends nothing and leaves the chat task alone, and of sending a connection what `A`
allows. -/
structure SendClosed (R : Server → Server → Prop) (A : Nat → ServerPacket → Prop) : Prop where
  trans : ∀ {s t u}, R s t → R t u → R s u
  silent : ∀ {s t : Server}, t.sent = s.sent →
    t.world.commonChatTransferTask = s.world.commonChatTransferTask → R s t
  send : ∀ (s : Server) {conn : Connection} {packet : ServerPacket} (accepted : Bool), A conn.id packet →
    R s (s.send conn packet accepted)

namespace SendClosed

variable {R : Server → Server → Prop} {A : Nat → ServerPacket → Prop} (h : SendClosed R A)

include h

/-- Nothing happens, and nothing is sent. -/
theorem refl (s : Server) : R s s := h.silent rfl rfl

/-! ## Without a task -/

/-- Leaving sends nothing. -/
theorem disconnect (s : Server) (i now : Nat) : R s (s.disconnect i now) := by
  rcases s.disconnect_cases i now with heq | ⟨conn, p, -, -, -, heq⟩ | ⟨conn, -, -, -, heq⟩
  all_goals
    rw [heq]
    exact h.silent rfl rfl

/-- A new connection is sent nothing before its handshake. -/
theorem accept (s : Server) (now : Nat) : R s (s.accept now) := by
  rw [Server.accept_eq]
  exact h.silent rfl rfl

theorem cleanup (s : Server) (i now : Nat) : R s (s.cleanupExpiredConnection i now) := by
  unfold Server.cleanupExpiredConnection
  split_ifs
  · exact h.refl s
  · cases s.connection i with
    | none => exact h.refl s
    | some conn =>
        show R s (if _ then _ else _)
        split_ifs
        · exact h.silent rfl rfl
        · exact h.disconnect s i now
        · exact h.refl s

/-- The greeting: the handshake, the id of the player, and the announcement of the level. -/
theorem onHandshakeSuccess (s : Server) {conn : Connection} {p : Nat} (o : Outcomes)
    (hA : ∀ packet : ServerPacket, packet.SentInState .handshaked → A conn.id packet) :
    R s (s.onHandshakeSuccess conn p o) :=
  h.trans (h.trans (h.send s _ (hA (.handshake _) trivial)) (h.send _ _ (hA (.setPlayerId _) trivial)))
    (h.send _ _ (hA .levelInit trivial))

/-- The visit of a slot sends what belongs to the state of its player. -/
theorem tickPlayer (s : Server) (i now : Nat) (o : Outcomes)
    (hA : ∀ conn p packet, s.connection i = some conn → s.connectionEnv.playerOf i = some p →
      ServerPacket.SentInState (s.players p).state packet → A conn.id packet) :
    R s (s.tickPlayer i now o) := by
  unfold Server.tickPlayer
  split
  · rename_i conn p hconn hp
    have hsent := fun packet => hA conn p packet hconn hp
    unfold Server.transitPlayerState
    cases hstate : (s.players p).state with
    | exHandshaked =>
        rw [hstate] at hsent
        show R s (if _ then _ else _)
        split_ifs
        · have hinfo : R s (s.send conn .extInfo true) := h.send s true (hsent .extInfo trivial)
          have hentry : ∀ (u : Server) name version accepted,
              R u (u.send conn (.extEntry name version) accepted) := fun u name version accepted =>
            h.send u accepted (hsent (.extEntry name version) trivial)
          exact h.trans (h.trans (h.trans hinfo (hentry ..)) (hentry ..)) (h.silent rfl rfl)
        · exact h.refl s
    | handshaked =>
        rw [hstate] at hsent
        exact h.trans (h.onHandshakeSuccess s o hsent) (h.silent rfl rfl)
    | extensionSynced =>
        rw [hstate] at hsent
        refine h.trans (h.onHandshakeSuccess s o fun packet hpacket => hsent packet ?_) (h.silent rfl rfl)
        cases packet <;> exact hpacket
    | spawned =>
        rw [hstate] at hsent
        show R s (if _ then _ else _)
        split_ifs
        · exact h.trans (h.send s (o 0) (hsent .ping trivial)) (h.silent rfl rfl)
        · exact h.refl s
    | disconnected => exact h.disconnect s i now
    | _ => exact h.silent rfl rfl
  · exact h.refl s

theorem scheduleTask (s : Server) {task : WorldTaskId} (htask : task ≠ .commonChatTransfer) (now : Nat)
    (posted : Bool) : R s (s.scheduleTask task now posted) := by
  cases task with
  | commonChatTransfer => exact absurd rfl htask
  | _ =>
      simp only [Server.scheduleTask]
      split_ifs
      · exact h.silent rfl rfl
      · exact h.refl s

section Answers

variable (hanswer : ∀ c packet, ServerPacket.isAnswer packet = true → A c packet)

include hanswer

/-- A kick sends a notice with its reason, which is an answer. -/
theorem kick (s : Server) (i : Nat) (reason : ErrorCode) (now : Nat) (accepted : Bool) :
    R s (s.kick i reason now accepted) := by
  unfold Server.kick
  cases s.connection i with
  | none => exact h.refl s
  | some conn => exact h.trans (h.send s accepted (hanswer _ _ rfl)) (h.disconnect _ i now)

/-- A reply that is not a success kicks, as does one for a player that is logged in elsewhere. -/
theorem response (s : Server) (request : LoginRequest) (reply : LoginReply) (now : Nat) (accepted : Bool) :
    R s (s.handleHandshakeResponse request reply now accepted) := by
  have hrecord : R s (s.record (.responded request reply)) := h.silent rfl rfl
  have hidentify : ∀ u : Server, R u (u.identify request reply) := by
    intro u
    unfold Server.identify
    split <;> exact h.silent rfl rfl
  have hkick : ∀ u : Server, R u (u.kickPrevious request reply now accepted) := by
    intro u
    unfold Server.kickPrevious
    split
    · exact h.refl u
    · exact h.kick hanswer u _ _ now accepted
  simp only [Server.handleHandshakeResponse]
  split_ifs
  · exact h.trans (h.trans (h.trans hrecord (hidentify _)) (hkick _)) (h.silent rfl rfl)
  · cases (s.record (.responded request reply)).tryAcquireConnection request.connectionKey with
    | none => exact h.silent rfl rfl
    | some conn =>
        dsimp only
        cases conn.player <;> exact h.silent rfl rfl
  · cases (s.record (.responded request reply)).tryAcquireConnection request.connectionKey with
    | none => exact h.silent rfl rfl
    | some conn => exact h.trans hrecord (h.kick hanswer _ _ _ now accepted)

/-- A load that fails kicks; one that succeeds sends nothing. -/
theorem load (s : Server) (load : GamedataLoad) (result : LoadResult) (now : Nat) (accepted : Bool) :
    R s (s.resumeHandshakeResponse load result now accepted) := by
  unfold Server.resumeHandshakeResponse
  split
  · exact h.refl s
  · split_ifs
    · exact h.kick hanswer s _ _ now accepted
    · split
      · rw [Server.admitLoaded_eq]
        exact h.silent rfl rfl
      · exact h.refl s

/-- A packet of a client, other than a chat message, is answered at most. -/
theorem receive (s : Server) (i : Nat) {packet : ClientPacket} (hpacket : ∀ data, packet ≠ .chatMessage data false)
    (now : Nat) (accepted : Bool) (garbage : PlayerTypeId) :
    R s (s.receivePacket i packet now accepted garbage) := by
  unfold Server.receivePacket
  cases s.connection i with
  | none => exact h.refl s
  | some conn =>
      show R s (if _ then _ else _)
      split_ifs
      · have hinteract : R s (s.interact i now) := h.silent rfl rfl
        refine h.trans hinteract ?_
        generalize s.interact i now = u
        cases packet with
        | handshake username password cpeMagic =>
            obtain ⟨cur, next, -, heq⟩ := u.handshake_eq i (conn.updateLastInteractionTime now) username
              password cpeMagic garbage
            show R u (u.handleHandshakePacket i _ username password cpeMagic garbage)
            rw [heq]
            exact h.silent rfl rfl
        | ping => exact h.send u accepted (hanswer _ _ rfl)
        | setBlock x y z mode blockId =>
            show R u (u.handleSetBlockPacket _ x y z mode blockId accepted)
            simp only [Server.handleSetBlockPacket]
            split_ifs
            · exact h.silent rfl rfl
            · exact h.send u accepted (hanswer _ _ rfl)
            · exact h.silent rfl rfl
            · exact h.send u accepted (hanswer _ _ rfl)
        | setPlayerPosition position =>
            show R u (u.handlePlayerPositionPacket _ position)
            unfold Server.handlePlayerPositionPacket
            split <;> exact h.silent rfl rfl
        | chatMessage data isCommand =>
            cases isCommand with
            | true => exact h.refl u
            | false => exact absurd rfl (hpacket data)
        | extInfo extensionCount =>
            show R u (u.handleExtInfoPacket _ extensionCount)
            unfold Server.handleExtInfoPacket
            split <;> exact h.silent rfl rfl
        | extEntry extensionName version =>
            show R u (u.handleExtEntryPacket _ extensionName version)
            unfold Server.handleExtEntryPacket
            split
            · exact h.refl u
            · show R u (if _ then _ else _)
              split_ifs <;> exact h.silent rfl rfl
        | twoWayPing data => exact h.send u accepted (hanswer _ _ rfl)
        | extPing requestTime => exact h.send u accepted (hanswer _ _ rfl)
      · exact h.refl s

end Answers

/-! ## The tasks -/

/-- Sending to players: what matters is the connections that are acquired. -/
theorem sendToPlayers {packet : ServerPacket} {successed : Server → Nat → Server}
    (hsuccessed : ∀ s p, R s (successed s p)) (hshape : ∀ s p, SameShape s (successed s p)) (ps : List Nat)
    (o : Outcomes) (s : Server) (hA : ∀ p ∈ ps, ∀ conn, s.tryAcquireOf p = some conn → A conn.id packet) :
    R s (Server.sendToPlayers packet successed ps o s) := by
  induction ps generalizing o s with
  | nil => exact h.refl s
  | cons p ps ih =>
      have hrest := fun q hq => hA q (List.mem_cons_of_mem p hq)
      rw [Server.sendToPlayers]
      cases hacq : s.tryAcquireOf p with
      | none =>
          rw [show s.sendToPlayer p packet (o 0) successed = s by rw [Server.sendToPlayer, hacq]]
          exact ih o.tail s hrest
      | some conn =>
          have hone : s.sendToPlayer p packet (o 0) successed =
              if o 0 then successed (s.send conn packet true) p else s := by
            rw [Server.sendToPlayer, hacq]
          rw [hone]
          split_ifs
          · have hkept := (SameShape.send s conn packet true).trans (hshape (s.send conn packet true) p)
            have hsent := h.send s true (hA p List.mem_cons_self conn hacq)
            refine h.trans (h.trans hsent (hsuccessed _ p)) (ih o.tail _ fun q hq => ?_)
            rw [Server.tryAcquireOf_of_sameShape hkept]
            exact hrest q hq
          · exact ih o.tail s hrest

/-- Sending without a callback. -/
theorem sendPlain {packet : ServerPacket} (ps : List Nat) (o : Outcomes) (s : Server)
    (hA : ∀ p ∈ ps, ∀ conn, s.tryAcquireOf p = some conn → A conn.id packet) :
    R s (Server.sendToPlayers packet Server.noCallback ps o s) :=
  h.sendToPlayers (fun s _ => h.refl s) (fun s _ => SameShape.refl s) ps o s hA

/-- Sending with a transition as callback. -/
theorem sendAndTransit {packet : ServerPacket} (hint : State) (ps : List Nat) (o : Outcomes) (s : Server)
    (hA : ∀ p ∈ ps, ∀ conn, s.tryAcquireOf p = some conn → A conn.id packet) :
    R s (Server.sendToPlayers packet (fun s p => s.transitState p hint) ps o s) := by
  have hsilent : ∀ (u : Server) p, R u (u.transitState p hint) := fun _ _ => h.silent rfl rfl
  exact h.sendToPlayers hsilent (fun u p => SameShape.transitState u p hint) ps o s hA

theorem foldl {f : Server → Nat → Server} (hf : ∀ s p, R s (f s p)) (ps : List Nat) (s : Server) :
    R s (ps.foldl f s) := by
  induction ps generalizing s with
  | nil => exact h.refl s
  | cons p ps ih => exact h.trans (hf s p) (ih _)

/-- The block records go to whoever has the level. -/
theorem syncBlockHistory (s : Server) (records : List BlockHistoryRecord) (o : Outcomes)
    (hA : ∀ p ∈ s.selectPlayersFrom .levelInitialized, ∀ conn, s.tryAcquireOf p = some conn →
      A conn.id (.blockHistory records)) : R s (s.syncBlockHistory records o) := by
  unfold Server.syncBlockHistory
  split_ifs
  · exact h.refl s
  · have hcommit : R s (s.commitBlockChanges records) := h.silent rfl rfl
    exact h.trans hcommit (h.sendPlain _ o _ hA)

theorem teardownPlayer (s : Server) (p : Nat) : R s (s.teardownPlayer p) := by
  unfold Server.teardownPlayer
  cases s.tryAcquireOf p with
  | none => exact h.refl s
  | some conn =>
      show R s ((s.savePlayerGamedata p).transitState p .disconnected)
      rw [Server.savePlayerGamedata_eq]
      exact h.silent rfl rfl

/-- Who has been spawned is told who leaves. -/
theorem disconnectPlayer (s : Server) (waiting : List Nat) (o : Outcomes)
    (hA : ∀ p ∈ s.selectPlayersFrom .spawned, ∀ conn, s.tryAcquireOf p = some conn →
      ∀ gameIds, A conn.id (.despawnPlayers gameIds)) : R s (s.disconnectPlayer waiting o) := by
  have hdespawn : ∀ ps, R s (s.despawnPlayer ps o) := by
    intro ps
    have hlog : R s { s with log := ps.map .despawned ++ s.log } := h.silent rfl rfl
    exact h.trans hlog (h.sendPlain _ o _ fun p hp conn hacq => hA p hp conn hacq _)
  unfold Server.disconnectPlayer
  exact h.trans (hdespawn _) (h.foldl h.teardownPlayer _ _)

/-- Everybody that is spawned is sent the positions that changed for it. -/
theorem syncPlayerPosition (s : Server) (o : Outcomes)
    (hA : ∀ p ∈ s.selectPlayersFrom .spawned, ∀ conn, s.tryAcquireOf p = some conn →
      ∀ records, A conn.id (.playerPositions records)) : R s (s.syncPlayerPosition o) := by
  have hsilent : ∀ (u : Server) p f, R u (u.updatePlayer p f) := fun _ _ _ => h.silent rfl rfl
  have hremember : R s ((s.selectPlayersFrom .spawned).foldl Server.rememberPosition s) :=
    h.foldl (fun u p => hsilent u p _) _ s
  have hshape : SameShape s ((s.selectPlayersFrom .spawned).foldl Server.rememberPosition s) :=
    SameShape.foldl (fun u p => SameShape.updatePlayer u p rfl) _ s
  simp only [Server.syncPlayerPosition]
  split_ifs
  · exact hremember
  · have hcommit : ∀ (u : Server) p, SameShape u (u.updatePlayer p Player.commitLastTransferredPosition) :=
      fun u p => SameShape.updatePlayer u p rfl
    refine h.trans hremember (h.sendToPlayers (fun u p => hsilent u p _) hcommit _ o _ fun p hp conn hacq => ?_)
    rw [Server.tryAcquireOf_of_sameShape hshape] at hacq
    exact hA p hp conn hacq _

/-- A batch of messages goes to whoever is spawned. -/
theorem commonChatTransfer (s : Server) (messages : List (List UInt8)) (o : Outcomes)
    (hA : ∀ p ∈ s.selectPlayersFrom .spawned, ∀ conn, s.tryAcquireOf p = some conn →
      A conn.id (.chat messages)) : R s (s.commonChatTransfer messages o) := by
  unfold Server.commonChatTransfer
  split_ifs
  · exact h.refl s
  · exact h.sendPlain _ o s hA

end SendClosed

end Mmocraft
