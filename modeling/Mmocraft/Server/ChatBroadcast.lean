/-
# Mmocraft.Server.ChatBroadcast -- one order of the chat for everybody

A chat message is pushed to the live buffer of `common_chat_transfer_task` while its packet is handled; a
run of the task sends the buffer that was switched out to every spawned player.  Over whole runs of the
server this is a totally ordered broadcast.  What was accepted leaves in batches, in the order in which it
was accepted, nothing lost and nothing twice, and what any connection is sent is made of these batches in
their order.  A player that is spawned whenever the task runs, and whose connection refuses nothing, is sent
every one of them.

The order is that of the pushes, each of which is one step here, and what a connection is sent is what it
accepted. The task is an instance of the buffered tasks of `Game.TaskDelivery`: each event of the server is a
run of that machine (`step_chatDelivery`), so that nothing accepted is lost or doubled is taken from there,
and only who is sent what has to be proved about the server. `chat_complete` is an equivalence, step by step:
a connection that was not reached once is behind for good.
-/
import Mmocraft.Game.TaskDelivery
import Mmocraft.Server.History
import Mmocraft.Server.SendRules

namespace Mmocraft

open Mmocraft.Lib Mmocraft.Game Mmocraft.Net

/-- The messages of a chat transfer. -/
def ServerPacket.chatBatch? : ServerPacket → Option (List (List UInt8))
  | .chat messages => some messages
  | _ => none

namespace Server

/-- `common_chat_transfer_task`. -/
abbrev chatTask (s : Server) : CommonChatTask := s.world.commonChatTransferTask

/-- The chat transfers that a connection was sent. -/
def chats (s : Server) (c : Nat) : List (List (List UInt8)) := (s.sent c).filterMap ServerPacket.chatBatch?

/-- The message that an event adds to the live buffer. -/
def pushedChat (s : Server) : Event → List (List UInt8)
  | .receive i (.chatMessage data false) _ _ _ =>
      if (s.connection i).any (·.isOnline) ∧ (s.chatTask.push data).2 then [data] else []
  | _ => []

/-- The batch that an event transfers. -/
def transferredChat (s : Server) : Event → List (List (List UInt8))
  | .runTask .commonChatTransfer _ _ =>
      if s.chatTask.commonChatHistory.output = [] then [] else [s.chatTask.commonChatHistory.output]
  | _ => []

/-- A history of the chat: the messages that were accepted, and the batches that were transferred. -/
structure ChatTrace where
  accepted : List (List UInt8) := []
  batches : List (List (List UInt8)) := []
  deriving DecidableEq, Repr

def traceChat (a : ChatTrace) (s : Server) (e : Event) : ChatTrace :=
  { accepted := a.accepted ++ s.pushedChat e, batches := a.batches ++ s.transferredChat e }

/-- The messages that were accepted and not transferred yet. -/
def pendingChat (s : Server) : List (List UInt8) :=
  s.chatTask.commonChatHistory.output ++ s.chatTask.commonChatHistory.live

/-- If the event transfers a batch, it reaches a player on the connection. -/
def ChatReaches (c : Nat) (s : Server) : Event → Prop
  | .runTask .commonChatTransfer o _ => s.chatTask.commonChatHistory.output ≠ [] →
      ∃ p ∈ s.reached (s.selectPlayersFrom .spawned) o, (s.tryAcquireOf p).any (·.id == c) = true
  | _ => True

instance (c : Nat) (s : Server) : (e : Event) → Decidable (ChatReaches c s e)
  | .runTask .commonChatTransfer _ _ => inferInstanceAs (Decidable (_ → _))
  | .runTask .spawnPlayer _ _ | .runTask .disconnectPlayer _ _ | .runTask .syncBlock _ _
  | .runTask .syncPlayerPosition _ _ | .accept _ | .cleanup .. | .receive .. | .kick .. | .receiveError ..
  | .tickPlayer .. | .schedule .. | .response .. | .load .. => isTrue trivial

end Server

/-! ## What has nothing to do with the chat

Everything but the chat packets of clients, the schedule of the chat task and its run.
-/

/-- From `s` to `t` nobody is sent chat, and the task stays as it is. -/
structure ChatKept (s t : Server) : Prop where
  task : t.chatTask = s.chatTask
  chats : ∀ c, t.chats c = s.chats c

namespace ChatKept

variable {s t u : Server}

/-- What sends nothing and leaves the task keeps the chat. -/
theorem of_sent (htask : t.chatTask = s.chatTask) (hsent : t.sent = s.sent) : ChatKept s t :=
  ⟨htask, fun c => by rw [Server.chats, Server.chats, hsent]⟩

theorem trans (hst : ChatKept s t) (htu : ChatKept t u) : ChatKept s u :=
  ⟨htu.task.trans hst.task, fun c => (htu.chats c).trans (hst.chats c)⟩

/-- A packet of another kind. -/
theorem send (s : Server) (conn : Connection) {packet : ServerPacket} (accepted : Bool)
    (hpacket : packet.chatBatch? = none) : ChatKept s (s.send conn packet accepted) := by
  unfold Server.send
  cases accepted with
  | false => exact of_sent rfl rfl
  | true =>
      refine ⟨rfl, fun c => ?_⟩
      show List.filterMap _ (Function.update s.sent conn.id (s.sent conn.id ++ [packet]) c) = _
      by_cases hc : c = conn.id
      · rw [hc, Function.update_self, List.filterMap_append, List.filterMap_cons_none hpacket,
          List.filterMap_nil, List.append_nil]
        rfl
      · rw [Function.update_of_ne hc]
        rfl

/-- Every packet that is no batch may be sent. -/
theorem sendClosed : SendClosed ChatKept fun _ packet => packet.chatBatch? = none where
  trans := trans
  silent hsent htask := of_sent htask hsent
  send s _ _ accepted hpacket := send s _ accepted hpacket

/-- No answer is a batch. -/
theorem not_answer (_c : Nat) (packet : ServerPacket) (h : packet.isAnswer = true) :
    packet.chatBatch? = none := by
  cases packet <;> first | rfl | exact absurd h Bool.noConfusion

/-- The tick sends no chat. -/
theorem tickPlayer (s : Server) (i now : Nat) (o : Outcomes) : ChatKept s (s.tickPlayer i now o) := by
  refine sendClosed.tickPlayer s i now o fun conn p packet _ _ hpacket => ?_
  cases packet with
  | chat messages => exact absurd hpacket (by cases (s.players p).state <;> exact id)
  | _ => rfl

/-- The tasks of other kinds. -/
theorem runTask (s : Server) {task : WorldTaskId} (htask : task ≠ .commonChatTransfer) (o o' : Outcomes) :
    ChatKept s (s.runTask task o o') := by
  have hfinish : ∀ {u t : Server}, ChatKept s u → t.sent = u.sent → t.chatTask = u.chatTask → ChatKept s t :=
    fun h hsent htask => h.trans (of_sent htask hsent)
  cases task with
  | commonChatTransfer => exact absurd rfl htask
  | spawnPlayer =>
      have hnew : ∀ records, ChatKept s (Server.sendToPlayers (.spawnPlayers records)
          (fun s p => s.transitState p .spawned) s.world.spawnPlayerTask.target o s) :=
        fun records => sendClosed.sendAndTransit .spawned _ o s fun _ _ _ _ => rfl
      have hold : ∀ (u : Server) records, ChatKept u (Server.sendToPlayers (.spawnPlayers records)
          Server.noCallback (s.selectPlayersFrom .spawned) o' u) :=
        fun u records => sendClosed.sendPlain _ o' u fun _ _ _ _ => rfl
      exact hfinish ((hnew _).trans (hold _ _)) rfl rfl
  | disconnectPlayer =>
      exact hfinish (sendClosed.disconnectPlayer s _ o fun _ _ _ _ _ => rfl) rfl rfl
  | syncBlock =>
      have hhistory : ChatKept s (s.syncBlockHistory s.world.syncBlockTask.blockHistory.output o) :=
        sendClosed.syncBlockHistory s _ o fun _ _ _ _ => rfl
      have hlevel : ∀ (u : Server) ps, ChatKept u (u.processLevelWaitPlayer ps o') :=
        fun u ps => sendClosed.sendAndTransit .levelInitialized ps o' u fun _ _ _ _ => rfl
      have hboth : ChatKept s (s.syncBlock s.world.syncBlockTask.target
          s.world.syncBlockTask.blockHistory.output o o') := by
        rw [Server.syncBlock_eq]
        exact hhistory.trans (hlevel _ _)
      exact hfinish hboth rfl rfl
  | syncPlayerPosition => exact hfinish (sendClosed.syncPlayerPosition s o fun _ _ _ _ _ => rfl) rfl rfl

end ChatKept

/-! ## The three events of the chat

A message is pushed, the buffers are exchanged, the batch is sent: the accepted messages pass through these
places in one order, and the batches are cut from that order.
-/

namespace Server

variable {s t : Server}

/-- A message is pushed, if its connection is online. -/
theorem receive_chat (s : Server) (i : Nat) (data : List UInt8) (now : Nat) (accepted : Bool)
    (garbage : PlayerTypeId) : (∀ c, (s.receivePacket i (.chatMessage data false) now accepted garbage).chats c =
        s.chats c) ∧
      (s.receivePacket i (.chatMessage data false) now accepted garbage).chatTask =
        if (s.connection i).any (·.isOnline) then (s.chatTask.push data).1 else s.chatTask := by
  unfold receivePacket
  cases s.connection i with
  | none => exact ⟨fun _ => rfl, rfl⟩
  | some conn =>
      rw [Option.any_some]
      by_cases honline : conn.isOnline = true
      · rw [if_pos honline]
        simp only [honline, if_true]
        exact ⟨fun _ => rfl, rfl⟩
      · rw [if_neg honline]
        simp only [honline]
        exact ⟨fun _ => rfl, rfl⟩

/-- Who is reached was selected, in that order. -/
theorem reached_sublist (s : Server) (ps : List Nat) (o : Outcomes) : (s.reached ps o).Sublist ps := by
  induction ps generalizing o with
  | nil => exact List.Sublist.slnil
  | cons p ps ih =>
      rw [reached]
      split_ifs
      · exact (ih o.tail).cons_cons p
      · exact (ih o.tail).cons p

/-- Two players of the table do not share a connection. -/
theorem countP_reached_le_one (ht : TableOk s) {ps : List Nat} (hps : ∀ p ∈ ps, s.Attached p)
    (hone : ∀ p ∈ ps, ps.count p ≤ 1) (o : Outcomes) (c : Nat) :
    (s.reached ps o).countP (fun p => (s.tryAcquireOf p).any (·.id == c)) ≤ 1 := by
  have hsub := s.reached_sublist ps o
  by_cases hreached : ∃ p ∈ s.reached ps o, (s.tryAcquireOf p).any (·.id == c) = true
  · obtain ⟨p, hp, hany⟩ := hreached
    obtain ⟨i, conn, hhas, honline⟩ := hps p (hsub.mem hp)
    rw [tryAcquireOf_of_hasPlayer ht hhas honline, Option.any_some, beq_iff_eq] at hany
    obtain rfl := hany
    have hcount : (s.reached ps o).countP (fun q => (s.tryAcquireOf q).any (·.id == conn.id)) =
        (s.reached ps o).count p := by
      refine List.countP_congr fun q hq => ?_
      obtain ⟨j, d, hd, -⟩ := hps q (hsub.mem hq)
      rw [acquires_iff ht hhas honline ⟨j, d, hd⟩, beq_iff_eq]
    rw [hcount]
    exact (hsub.count_le p).trans (hone p (hsub.mem hp))
  · rw [List.countP_eq_zero.mpr fun p hp hany => hreached ⟨p, hp, hany⟩]
    exact Nat.zero_le 1

/-- A run of the task sends the batch to every spawned player whose connection takes it, once. -/
theorem run_chat (ht : TableOk s) (o o' : Outcomes) (c : Nat) :
    (s.runTask .commonChatTransfer o o').chats c =
      s.chats c ++ if s.ChatReaches c (.runTask .commonChatTransfer o o') then
        s.transferredChat (.runTask .commonChatTransfer o o') else [] := by
  have hps : ∀ p ∈ s.selectPlayersFrom .spawned, s.Attached p := fun p hp =>
    ((mem_selectPlayersFrom ht).mp hp).1
  have hone : ∀ p ∈ s.selectPlayersFrom .spawned, (s.selectPlayersFrom .spawned).count p ≤ 1 := by
    intro p hp
    rw [count_selectPlayersFrom ht (hps p hp)]
    split_ifs <;> decide
  have hle := countP_reached_le_one ht hps hone o c
  have hsent := sendToPlayers_sent (.chat s.chatTask.commonChatHistory.output) noCallback
    (fun s _ => SameShape.refl s) (fun _ _ => rfl) (s.selectPlayersFrom .spawned) o s c
  rw [transferredChat]
  show (s.commonChatTransfer s.chatTask.commonChatHistory.output o).chats c = _
  unfold commonChatTransfer
  by_cases hempty : s.chatTask.commonChatHistory.output = []
  · rw [if_pos hempty, ite_self, List.append_nil, if_pos (List.isEmpty_iff.mpr hempty)]
  · rw [if_neg hempty, if_neg (List.isEmpty_iff.not.mpr hempty), chats, hsent, List.filterMap_append]
    congr 1
    split_ifs with hreaches
    · have hpos := List.countP_pos_iff.mpr (hreaches hempty)
      rw [show _ = 1 from Nat.le_antisymm hle hpos]
      rfl
    · have hzero : (s.reached (s.selectPlayersFrom .spawned) o).countP
          (fun p => (s.tryAcquireOf p).any (·.id == c)) = 0 :=
        List.countP_eq_zero.mpr fun p hp hany => hreaches fun _ => ⟨p, hp, hany⟩
      rw [hzero]
      rfl

/-- After a run the task has nothing under way. -/
theorem run_chat_task (s : Server) (o o' : Outcomes) :
    (s.runTask .commonChatTransfer o o').chatTask = s.chatTask.finish := by
  show (s.commonChatTransfer _ o).chatTask.finish = _
  unfold commonChatTransfer
  split_ifs
  · rfl
  · exact congrArg (fun world : World => world.commonChatTransferTask.finish)
      (sendToPlayers_world _ (fun _ _ => rfl) _ o s)

end Server

/-! ## One event -/

/-- The events around the chat. -/
def Event.isChat : Event → Bool
  | .receive _ (.chatMessage _ false) _ _ _ | .schedule .commonChatTransfer _ _
  | .runTask .commonChatTransfer _ _ => true
  | _ => false

/-- The three events of the chat. -/
theorem Event.cases_isChat {e : Event} (he : e.isChat = true) :
    (∃ i data now accepted garbage, e = .receive i (.chatMessage data false) now accepted garbage) ∨
      (∃ now posted, e = .schedule .commonChatTransfer now posted) ∨
      ∃ o o', e = .runTask .commonChatTransfer o o' := by
  unfold isChat at he
  split at he
  · exact .inl ⟨_, _, _, _, _, rfl⟩
  · exact .inr (.inl ⟨_, _, rfl⟩)
  · exact .inr (.inr ⟨_, _, rfl⟩)
  · exact absurd he Bool.false_ne_true

/-- The other events leave the chat alone. -/
theorem ChatKept.step {s t : Server} {e : Event} (he : e.isChat = false) (hstep : s.step e = some t) :
    ChatKept s t := by
  cases e with
  | accept now =>
      obtain rfl := Option.some.inj hstep
      exact sendClosed.accept s now
  | cleanup i now =>
      obtain rfl := Option.some.inj hstep
      exact sendClosed.cleanup s i now
  | receive i packet now accepted garbage =>
      obtain rfl := Option.some.inj hstep
      refine sendClosed.receive not_answer s i (fun data hpacket => ?_) now accepted garbage
      subst hpacket
      exact absurd he (by simp [Event.isChat])
  | kick i reason now accepted =>
      obtain rfl := Option.some.inj hstep
      exact sendClosed.kick not_answer s i reason now accepted
  | receiveError i now =>
      obtain rfl := Option.some.inj hstep
      exact sendClosed.disconnect s i now
  | tickPlayer i now o =>
      obtain rfl := Option.some.inj hstep
      exact tickPlayer s i now o
  | schedule task now posted =>
      obtain rfl := Option.some.inj hstep
      refine sendClosed.scheduleTask s (fun htask => ?_) now posted
      subst htask
      exact absurd he (by simp [Event.isChat])
  | runTask task o o' =>
      rw [Server.step] at hstep
      split_ifs at hstep
      obtain rfl := Option.some.inj hstep
      refine runTask s (fun htask => ?_) o o'
      subst htask
      exact absurd he (by simp [Event.isChat])
  | response p reply now accepted =>
      obtain ⟨request, -, rfl⟩ := Option.map_eq_some_iff.mp hstep
      have herase : ChatKept s { s with requests := s.requests.erase request } := of_sent rfl rfl
      exact herase.trans (sendClosed.response not_answer _ request reply now accepted)
  | load p result now accepted =>
      obtain ⟨pending, -, rfl⟩ := Option.map_eq_some_iff.mp hstep
      have herase : ChatKept s { s with loads := s.loads.erase pending } := of_sent rfl rfl
      exact herase.trans (sendClosed.load not_answer _ pending result now accepted)

namespace Server

variable {s t : Server}

/-- The others push nothing and transfer nothing. -/
theorem chatTrace_of_not_isChat (s : Server) {e : Event} (he : e.isChat = false) :
    s.pushedChat e = [] ∧ s.transferredChat e = [] := by
  cases e with
  | receive i packet now accepted garbage =>
      cases packet with
      | chatMessage data isCommand =>
          cases isCommand with
          | true => exact ⟨rfl, rfl⟩
          | false => exact absurd he (by simp [Event.isChat])
      | _ => exact ⟨rfl, rfl⟩
  | runTask task o o' =>
      cases task with
      | commonChatTransfer => exact absurd he (by simp [Event.isChat])
      | _ => exact ⟨rfl, rfl⟩
  | _ => exact ⟨rfl, rfl⟩

/-- What one event sends of the chat. -/
theorem step_chats (ht : TableOk s) {e : Event} (hstep : s.step e = some t) (c : Nat) :
    t.chats c = s.chats c ++ if s.ChatReaches c e then s.transferredChat e else [] := by
  cases he : e.isChat with
  | false =>
      rw [(s.chatTrace_of_not_isChat he).2, ite_self, List.append_nil]
      exact (ChatKept.step he hstep).chats c
  | true =>
      rcases Event.cases_isChat he with ⟨i, data, now, accepted, garbage, rfl⟩ | ⟨now, posted, rfl⟩ | ⟨o, o', rfl⟩
      · obtain rfl := Option.some.inj hstep
        rw [(s.receive_chat i data now accepted garbage).1 c]
        exact (List.append_nil _).symm
      · obtain rfl := Option.some.inj hstep
        show (s.scheduleTask .commonChatTransfer now posted).chats c = s.chats c ++ []
        rw [List.append_nil]
        simp only [scheduleTask]
        split_ifs <;> rfl
      · rw [step] at hstep
        split_ifs at hstep
        obtain rfl := Option.some.inj hstep
        exact run_chat ht o o' c

/-- The chat as a delivery of the buffered task. -/
def chatDelivery (a : ChatTrace) (s : Server) : BufferedTask.Delivery CommonChatTask Unit fun _ => List UInt8 :=
  { task := s.chatTask, handled := fun _ => a.batches.flatten, pushed := fun _ => a.accepted }

theorem chatDelivery_traceChat {a : ChatTrace} {e : Event} {task : CommonChatTask}
    {pushed : List (List UInt8)} {batches : List (List (List UInt8))} (htask : t.chatTask = task)
    (hpushed : s.pushedChat e = pushed) (hbatches : s.transferredChat e = batches) :
    chatDelivery (traceChat a s e) t =
      { task := task, handled := fun _ => a.batches.flatten ++ batches.flatten,
        pushed := fun _ => a.accepted ++ pushed } := by
  rw [chatDelivery, traceChat, htask, hpushed, hbatches, List.flatten_append]

/-- **The chat of the server is a buffered task.** An event of the server is some events of the task. -/
theorem step_chatDelivery (a : ChatTrace) {e : Event} (hstep : s.step e = some t) :
    ∃ fs, run commonChatTask.step (chatDelivery a s) fs = some (chatDelivery (traceChat a s e) t) := by
  cases he : e.isChat with
  | false =>
      obtain ⟨hpushed, htransferred⟩ := s.chatTrace_of_not_isChat he
      refine ⟨[], ?_⟩
      rw [run_nil, chatDelivery_traceChat (ChatKept.step he hstep).task hpushed htransferred, chatDelivery,
        List.flatten_nil, List.append_nil, List.append_nil]
  | true =>
      rcases Event.cases_isChat he with ⟨i, data, now, accepted, garbage, rfl⟩ | ⟨now, posted, rfl⟩ | ⟨o, o', rfl⟩
      · obtain rfl := Option.some.inj hstep
        obtain ⟨-, htask⟩ := s.receive_chat i data now accepted garbage
        have hbatches : s.transferredChat (.receive i (.chatMessage data false) now accepted garbage) = [] := rfl
        by_cases honline : (s.connection i).any (·.isOnline) = true
        · refine ⟨[.push () data], congrArg some ?_⟩
          rw [if_pos honline] at htask
          have hpushed : s.pushedChat (.receive i (.chatMessage data false) now accepted garbage) =
              if (s.chatTask.push data).2 then [data] else [] := by
            simp only [pushedChat, honline, true_and]
          rw [chatDelivery_traceChat htask hpushed hbatches, List.flatten_nil, List.append_nil]
          show BufferedTask.Delivery.mk (s.chatTask.push data).1 false _ _ = _
          congr 1
          funext j
          cases hok : (s.chatTask.push data).2 with
          | true => exact congrFun (if_pos hok) j
          | false => exact (congrFun (if_neg (Bool.eq_false_iff.mp hok)) j).trans (List.append_nil _).symm
        · refine ⟨[], ?_⟩
          rw [if_neg honline] at htask
          have hpushed : s.pushedChat (.receive i (.chatMessage data false) now accepted garbage) = [] :=
            if_neg fun h => honline h.1
          rw [run_nil, chatDelivery_traceChat htask hpushed hbatches, chatDelivery, List.flatten_nil,
            List.append_nil, List.append_nil]
      · obtain rfl := Option.some.inj hstep
        refine ⟨[.schedule now now posted], congrArg some ?_⟩
        have hpushed : s.pushedChat (.schedule .commonChatTransfer now posted) = [] := rfl
        have hbatches : s.transferredChat (.schedule .commonChatTransfer now posted) = [] := rfl
        have htask : (s.scheduleTask .commonChatTransfer now posted).chatTask =
            if s.chatTask.ready now then s.chatTask.schedule now posted else s.chatTask := by
          simp only [scheduleTask]
          split_ifs <;> rfl
        rw [chatDelivery_traceChat htask hpushed hbatches, List.flatten_nil, List.append_nil, List.append_nil]
        show (if s.chatTask.ready now then _ else _) = _
        split_ifs <;> rfl
      · rw [step] at hstep
        split_ifs at hstep with hqueued
        obtain rfl := Option.some.inj hstep
        refine ⟨[.start, .finish], ?_⟩
        have hpushed : s.pushedChat (.runTask .commonChatTransfer o o') = [] := rfl
        have hbatches : (s.transferredChat (.runTask .commonChatTransfer o o')).flatten =
            s.chatTask.commonChatHistory.output := by
          rw [transferredChat]
          split_ifs with hempty
          · exact hempty.symm
          · exact List.flatten_singleton
        have hguard : (commonChatTask.queued s.chatTask && !false) = true := by
          rw [Bool.not_false, Bool.and_true]
          exact hqueued
        rw [chatDelivery_traceChat (s.run_chat_task o o') hpushed rfl, hbatches, List.append_nil, run_cons,
          BufferedTask.step, chatDelivery, if_pos hguard, Option.bind_some, run_singleton, BufferedTask.step,
          if_pos rfl]
        rfl

/-! ## Runs -/

/-- The invariant of the chat: the task delivers, and what a connection was sent is among the batches. -/
structure ChatOk (a : ChatTrace) (s : Server) : Prop where
  base : TableOk s ∧ HistoryOk s
  delivery : commonChatTask.Invariant (chatDelivery a s)
  batches : ∀ c, (s.chats c).Sublist a.batches

namespace ChatOk

variable {a : ChatTrace}

theorem init (maxClients : Nat) (metadata : WorldMetadata) (blockMapping : List UInt8) :
    ChatOk {} (Server.init maxClients metadata blockMapping) where
  base := ⟨TableOk.init .., HistoryOk.init ..⟩
  delivery := ⟨fun _ => rfl, fun _ _ => rfl, fun _ => rfl, fun _ => rfl⟩
  batches _ := List.Sublist.slnil

/-- What was accepted is what was transferred and what waits, and each connection has batches in order. -/
theorem step (h : ChatOk a s) {e : Event} (hstep : s.step e = some t) : ChatOk (traceChat a s e) t := by
  refine ⟨HistoryOk.closed.step h.base e (fun _ _ => trivial) hstep, ?_, fun c => ?_⟩
  · obtain ⟨fs, hfs⟩ := step_chatDelivery a hstep
    exact commonChatTask_lawful.invariant_run h.delivery hfs
  · rw [step_chats h.base.1 hstep c]
    refine (h.batches c).append ?_
    split_ifs
    · exact List.Sublist.refl _
    · exact List.nil_sublist _

end ChatOk

/-- **One order for everybody.** After every run the messages that were accepted are those of the batches,
in their order, and those that still wait; and each connection was sent some of the batches, in their order
and none twice. Each push to the history is one step, and what a connection was sent is what it accepted;
which batches a client misses is `chat_complete`. -/
theorem chat_totalOrder {maxClients : Nat} {metadata : WorldMetadata} {blockMapping : List UInt8}
    {es : List Event} {t : Server}
    (hrun : run Server.step (Server.init maxClients metadata blockMapping) es = some t) :
    let a := follow Server.step traceChat {} (Server.init maxClients metadata blockMapping) es
    a.batches.flatten ++ t.pendingChat = a.accepted ∧ ∀ c, (t.chats c).Sublist a.batches := by
  have h : ChatOk _ t := run_invariant_follow (f := traceChat) (P := ChatOk) (G := fun _ _ => True)
    (fun a s e t h _ hstep => h.step hstep) (ChatOk.init ..) (Along.of_forall fun _ _ => trivial) hrun
  exact ⟨h.delivery.delivered (), h.batches⟩

/-- A guest joins and is spawned. -/
def guestChat : List Event :=
  guestLogin 0 ++ [.tickPlayer 0 0 fun _ => true, .schedule .syncBlock 1 true] ++
  [.runTask .syncBlock (fun _ => true) fun _ => true, .tickPlayer 0 2 fun _ => true] ++
  [.schedule .spawnPlayer 3 true, .runTask .spawnPlayer (fun _ => true) fun _ => true]

/-- It says something; while that is on its way, it says something else. -/
def guestTalk : List Event :=
  [.receive 0 (.chatMessage [104] false) 4 true 0, .schedule .commonChatTransfer 5 true] ++
  [.receive 0 (.chatMessage [105] false) 6 true 0] ++
  [.runTask .commonChatTransfer (fun _ => true) fun _ => true]

/-- One message has left, the other waits. -/
theorem chat_totalOrder_guestTalk :
    ∃ t, run Server.step small (guestChat ++ guestTalk) = some t ∧
      (follow Server.step traceChat {} small (guestChat ++ guestTalk)).batches.flatten ++ t.pendingChat =
        (follow Server.step traceChat {} small (guestChat ++ guestTalk)).accepted ∧
      ∀ c, (t.chats c).Sublist (follow Server.step traceChat {} small (guestChat ++ guestTalk)).batches := by
  have hrun : (run Server.step small (guestChat ++ guestTalk)).isSome = true := by decide
  obtain ⟨t, ht⟩ := Option.isSome_iff_exists.mp hrun
  exact ⟨t, ht, chat_totalOrder ht⟩

/-- Only a transfer can miss a connection. -/
theorem length_transferredChat_of_missed {c : Nat} {e : Event} (hmissed : ¬ s.ChatReaches c e) :
    (s.transferredChat e).length = 1 := by
  cases e with
  | runTask task o o' =>
      cases task with
      | commonChatTransfer =>
          rw [ChatReaches, Classical.not_imp] at hmissed
          rw [transferredChat, if_neg hmissed.1]
          rfl
      | _ => exact absurd trivial hmissed
  | _ => exact absurd trivial hmissed

/-- Beyond what it had before, a connection was sent every batch. -/
def ChatUpToDate (c : Nat) (before : List (List (List UInt8))) (a : ChatTrace) (s : Server) : Prop :=
  (TableOk s ∧ HistoryOk s) ∧ s.chats c = before ++ a.batches

/-- A connection has missed a batch. -/
def ChatBehind (c : Nat) (before : List (List (List UInt8))) (a : ChatTrace) (s : Server) : Prop :=
  (TableOk s ∧ HistoryOk s) ∧ (s.chats c).length < before.length + a.batches.length

/-- A batch that a connection is not reached with is one that it lacks from then on. -/
theorem ChatUpToDate.missed {c : Nat} {before : List (List (List UInt8))} {a : ChatTrace} {e : Event}
    (h : ChatUpToDate c before a s) (hmissed : ¬ s.ChatReaches c e) (hstep : s.step e = some t) :
    ChatBehind c before (traceChat a s e) t := by
  refine ⟨HistoryOk.closed.step h.1 e (fun _ _ => trivial) hstep, ?_⟩
  rw [step_chats h.1.1 hstep, if_neg hmissed, List.append_nil, h.2, traceChat, List.length_append,
    List.length_append, length_transferredChat_of_missed hmissed]
  omega

/-- Who is behind stays behind: no batch is sent again. -/
theorem ChatBehind.step {c : Nat} {before : List (List (List UInt8))} {a : ChatTrace} {e : Event}
    (h : ChatBehind c before a s) (hstep : s.step e = some t) : ChatBehind c before (traceChat a s e) t := by
  refine ⟨HistoryOk.closed.step h.1 e (fun _ _ => trivial) hstep, ?_⟩
  have hsent : (if s.ChatReaches c e then s.transferredChat e else []).length ≤ (s.transferredChat e).length := by
    split_ifs
    · exact Nat.le_refl _
    · exact Nat.zero_le _
  have hlt := h.2
  rw [step_chats h.1.1 hstep, traceChat, List.length_append, List.length_append]
  omega

/-- **Who is there is sent everything.** A connection is sent every batch that is transferred in a run, in
their order, exactly if each transfer reaches a spawned player on it. So a client misses exactly the batches
that were transferred while it was not in the world, or that its connection refused. -/
theorem chat_complete {maxClients : Nat} {metadata : WorldMetadata} {blockMapping : List UInt8}
    {pre es : List Event} {s t : Server} (c : Nat)
    (hpre : run Server.step (Server.init maxClients metadata blockMapping) pre = some s)
    (hrun : run Server.step s es = some t) :
    t.chats c = s.chats c ++ (follow Server.step traceChat {} s es).batches ↔
      Along Server.step (ChatReaches c) s es := by
  have hrule : ChatUpToDate c (s.chats c) (follow Server.step traceChat {} s es) t ↔
      Along Server.step (ChatReaches c) s es := by
    refine follow_iff_along (D := ChatBehind c (s.chats c)) ?_ (fun a u e v h => h.missed)
      (fun a u e v h => h.step) ?_ ⟨consistent_of_run hpre, (List.append_nil _).symm⟩ hrun
    · intro a u e v h hreaches hstep
      refine ⟨HistoryOk.closed.step h.1 e (fun _ _ => trivial) hstep, ?_⟩
      rw [step_chats h.1.1 hstep, if_pos hreaches, h.2, List.append_assoc]
      rfl
    · rintro a u ⟨-, heq⟩ ⟨-, hlt⟩
      rw [heq, List.length_append] at hlt
      exact absurd hlt (Nat.lt_irrefl _)
  have hwhole := run_append_eq_some.mpr ⟨s, hpre, hrun⟩
  exact ⟨fun heq => hrule.mp ⟨consistent_of_run hwhole, heq⟩, fun hG => (hrule.mpr hG).2⟩

/-- The guest is sent what it said first. -/
theorem chat_complete_guestTalk :
    ∃ s t, run Server.step small guestChat = some s ∧ run Server.step s guestTalk = some t ∧
      t.chats 0 = s.chats 0 ++ [[[104]]] := by
  have hguards : ((run Server.step small guestChat).map fun s =>
      ((follow Server.step traceChat {} s guestTalk).batches,
        decide (Along Server.step (ChatReaches 0) s guestTalk))) = some ([[[104]]], true) := by decide
  obtain ⟨s, hs, heq⟩ := Option.map_eq_some_iff.mp hguards
  rw [Prod.mk.injEq] at heq
  have hwhole : (run Server.step small (guestChat ++ guestTalk)).isSome = true := by decide
  obtain ⟨t, ht⟩ := Option.isSome_iff_exists.mp hwhole
  obtain ⟨s', hs', hrun⟩ := run_append_eq_some.mp ht
  obtain rfl := Option.some.inj (hs.symm.trans hs')
  refine ⟨s, t, hs, hrun, ?_⟩
  rw [(chat_complete 0 hs hrun).mpr (of_decide_eq_true heq.2), heq.1]

end Server

end Mmocraft
