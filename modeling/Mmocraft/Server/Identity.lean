/-
# Mmocraft.Server.Identity -- whose login makes a player live

Replies are matched to connections by key alone, and every handshake on a connection replaces its
player, so the reply to one handshake can be handled for the player of another.  As long as the
handlers only reach the player that the answered handshake constructed, a player that a reply made
live has the name of that handshake and type, uuid and gamedata of that reply.

The invariant (`IdentityOk`) follows a login from its request to its end: a request is owned by the player
that its handshake constructed, no player has two, a reply that was handled leaves none behind, and what was
recorded as authenticated agrees with the reply and with the name in the request. Moves that touch no login
are collected in `Undisturbed`, so that the login moves are the only ones with an argument.

The condition `AnswersOwnPlayer` fails in the code where a second handshake comes between a request and its
reply; `not_identityBound_twoHandshakes` is the run in which the reply to the first gives its uuid to the
second player.
-/
import Mathlib.Data.List.Nodup
import Mmocraft.Server.History

namespace Mmocraft

open Mmocraft.Lib Mmocraft.Game Mmocraft.Net

/-! ## Bound identities -/

/-- The player has the type and the uuid of the reply; a guest has no uuid. -/
def LoginReply.Identifies (reply : LoginReply) (player : Player) : Prop :=
  if reply.errorCode = ErrorCode.playerNotExist then
    player.playerType = PlayerTypeId.guest ∧ player.uuid = []
  else player.playerType = int32 reply.playerType ∧ player.uuid = reply.playerUuid

instance (reply : LoginReply) (player : Player) : Decidable (reply.Identifies player) :=
  inferInstanceAs (Decidable (ite _ _ _))

/-- **Identity binding.** A live player that a reply made live has the username of the handshake
that the reply answers, cut to 16 characters, and type, uuid and gamedata of that reply. -/
def Server.IdentityBound (s : Server) : Prop :=
  ∀ i conn p request reply, s.HasPlayer i conn p → (s.players p).state.IsLive →
    .authenticated p request reply ∈ s.log →
    .responded request reply ∈ s.log ∧ (s.players p).usernameBuf = request.username.take 16 ∧
      reply.Identifies (s.players p) ∧
      ∀ load result, .loaded p load result ∈ s.log → load = { request := request, reply := reply }

/-- The reply is handled for the player that the handshake it answers constructed: no later
handshake has replaced it. -/
def Server.AnswersOwnPlayer (_ : Server) : Server.Call → Prop
  | .setIdentity p request _ | .transit p (.guest request _) => p = request.player
  | .transit p (.loaded load _) => p = load.request.player
  | _ => True

instance (s : Server) : (call : Server.Call) → Decidable (s.AnswersOwnPlayer call)
  | .setIdentity p request _ | .transit p (.guest request _) =>
      inferInstanceAs (Decidable (p = request.player))
  | .transit p (.loaded load _) => inferInstanceAs (Decidable (p = load.request.player))
  | .transit _ .extEntry | .transit _ .level | .transit _ .spawn => isTrue trivial
  | .setPlayer .. | .disconnect _ | .disconnectPlayer _ => isTrue trivial

/-! ## The invariant

A request in flight belongs to the player that the handshake constructed. The reply comes with the request,
so what has to be remembered of a player is which request it made, and once it is live, which reply it was
made live with.
-/

/-- The player of a request has the name and the connection key of the request. -/
def Server.OwnsRequest (s : Server) (request : LoginRequest) : Prop :=
  request.player < s.numOfPlayers ∧
    (s.players request.player).usernameBuf = request.username.take 16 ∧
    (s.players request.player).connectionKey = request.connectionKey

/-- Requests and replies are unique for each player, and identities come from the replies. A login is a
request, then a reply, then for a user a load; the fields go through these in order, and say for each that
it is the only one of its player. -/
structure IdentityOk (s : Server) : Prop where
  request_owned : ∀ request ∈ s.requests, s.OwnsRequest request
  request_nodup : (s.requests.map LoginRequest.player).Nodup
  responded_owned : ∀ request reply, .responded request reply ∈ s.log → s.OwnsRequest request
  responded_not_pending : ∀ request reply, .responded request reply ∈ s.log →
    ∀ pending ∈ s.requests, pending.player ≠ request.player
  responded_unique : ∀ request reply request' reply', .responded request reply ∈ s.log →
    .responded request' reply' ∈ s.log → request.player = request'.player →
    request = request' ∧ reply = reply'
  uuid_replied : ∀ p < s.numOfPlayers, (s.players p).uuid ≠ [] → ∃ request reply,
    .responded request reply ∈ s.log ∧ request.player = p ∧ reply.errorCode = ErrorCode.success
  load_identified : ∀ load ∈ s.loads, s.Attached load.request.player →
    load.reply.errorCode = ErrorCode.success ∧ load.reply.Identifies (s.players load.request.player)
  authenticated : ∀ p request reply, .authenticated p request reply ∈ s.log →
    request.player = p ∧ .responded request reply ∈ s.log ∧ reply.Identifies (s.players p)
  loaded : ∀ p load result, .loaded p load result ∈ s.log →
    load.request.player = p ∧ .responded load.request load.reply ∈ s.log

/-! ## Moves that do not touch logins

Most moves neither answer a request nor construct a player. They may still change players and add records,
so what they keep is said about the four parts of a player that make its identity, and the three records
that are about logins.
-/

/-- The player has the same connection, name, type and uuid. -/
structure Game.Player.SameIdentity (p q : Player) : Prop where
  connectionKey : q.connectionKey = p.connectionKey
  usernameBuf : q.usernameBuf = p.usernameBuf
  playerType : q.playerType = p.playerType
  uuid : q.uuid = p.uuid

theorem Game.Player.SameIdentity.refl (p : Player) : Player.SameIdentity p p := ⟨rfl, rfl, rfl, rfl⟩

/-- What a reply says of a player it says of any player with that identity. -/
theorem LoginReply.Identifies.of_same {reply : LoginReply} {p q : Player}
    (h : reply.Identifies p) (hpq : p.SameIdentity q) : reply.Identifies q := by
  unfold LoginReply.Identifies at h ⊢
  rwa [hpq.playerType, hpq.uuid]

/-- The record belongs to a login. -/
def Record.IsLogin : Record → Prop
  | .responded _ _ | .loaded _ _ _ | .authenticated _ _ _ => True
  | _ => False

/-- From `s` to `t` no login makes progress, and no player gets attached. -/
structure Undisturbed (s t : Server) : Prop where
  numOfPlayers : t.numOfPlayers = s.numOfPlayers
  identity : ∀ p, (s.players p).SameIdentity (t.players p)
  records : ∀ r, r.IsLogin → (r ∈ t.log ↔ r ∈ s.log)
  requests : t.requests = s.requests
  loads : t.loads = s.loads
  attached : ∀ p, t.Attached p → s.Attached p

/-- Records that belong to no login may be added. -/
theorem mem_append_of_not_login (rs : List Record) {log : List Record}
    (hrs : ∀ r ∈ rs, ¬ r.IsLogin) {r : Record}
    (hr : r.IsLogin) : r ∈ rs ++ log ↔ r ∈ log := by
  constructor
  · intro h
    rcases List.mem_append.mp h with h | h
    · exact absurd hr (hrs r h)
    · exact h
  · exact List.mem_append_right rs

namespace Undisturbed

variable {s t : Server}

theorem of_players (hnum : t.numOfPlayers = s.numOfPlayers)
    (hplayers : ∀ p, (s.players p).SameIdentity (t.players p)) (rs : List Record)
    (hlog : t.log = rs ++ s.log) (hrs : ∀ r ∈ rs, ¬ r.IsLogin) (hrequests : t.requests = s.requests)
    (hloads : t.loads = s.loads) (henv : t.connectionEnv = s.connectionEnv) : Undisturbed s t where
  numOfPlayers := hnum
  identity := hplayers
  records r hr := by
    rw [hlog]
    exact mem_append_of_not_login _ hrs hr
  requests := hrequests
  loads := hloads
  attached p := (Server.attached_of_env henv p).mp

/-- No reply was handled. -/
theorem responded (h : Undisturbed s t) {request : LoginRequest} {reply : LoginReply} :
    .responded request reply ∈ t.log ↔ .responded request reply ∈ s.log := h.records _ trivial

/-- Nobody was authenticated. -/
theorem authenticated (h : Undisturbed s t) {p : Nat} {request : LoginRequest} {reply : LoginReply} :
    .authenticated p request reply ∈ t.log ↔ .authenticated p request reply ∈ s.log :=
  h.records _ trivial

/-- No load ended. -/
theorem loaded (h : Undisturbed s t) {p : Nat} {load : GamedataLoad} {result : LoadResult} :
    .loaded p load result ∈ t.log ↔ .loaded p load result ∈ s.log := h.records _ trivial

theorem quiet (hq : Quiet s t) : Undisturbed s t :=
  of_players hq.numOfPlayers
    (fun p => ⟨(hq.standing p).connectionKey, (hq.standing p).usernameBuf, (hq.standing p).playerType,
      (hq.standing p).uuid⟩) [] hq.log (fun _ hr => nomatch hr) hq.requests hq.loads hq.connectionEnv

theorem updatePlayer (s : Server) (p : Nat) {f : Player → Player}
    (hf : (s.players p).SameIdentity (f (s.players p))) (q : Nat) :
    (s.players q).SameIdentity ((s.updatePlayer p f).players q) := by
  rw [Server.updatePlayer_players]
  split_ifs with hq
  · rw [hq]
    exact hf
  · exact Player.SameIdentity.refl _

/-- A transition changes the state of its player, and no part of its identity. -/
theorem transitState (s : Server) (p : Nat) (hint : State) : Undisturbed s (s.transitState p hint) := by
  refine of_players rfl ?_ [_, _] (Server.transitState_log s p hint) ?_ rfl rfl rfl
  · exact fun q => updatePlayer s p (f := Player.transitState) ⟨rfl, rfl, rfl, rfl⟩ q
  · simp [Record.IsLogin]

theorem prepareStateTransition (s : Server) (p : Nat) (cur next : State) :
    Undisturbed s (s.prepareStateTransition p cur next) := by
  refine of_players rfl ?_ [_] (Server.prepareStateTransition_log s p cur next) ?_ rfl rfl rfl
  · exact fun q => updatePlayer s p (f := (·.prepareStateTransition cur next)) ⟨rfl, rfl, rfl, rfl⟩ q
  · simp [Record.IsLogin]

theorem world (s : Server) (world : World) : Undisturbed s { s with world := world } :=
  of_players rfl (fun _ => Player.SameIdentity.refl _) [] rfl (fun _ hr => nomatch hr) rfl rfl rfl

/-- Records are added that belong to no login. -/
theorem of_log (s : Server) (rs : List Record) (hrs : ∀ r ∈ rs, ¬ r.IsLogin) :
    Undisturbed s { s with log := rs ++ s.log } :=
  of_players rfl (fun _ => Player.SameIdentity.refl _) rs rfl hrs rfl rfl rfl

/-- A connection that goes offline takes its player from the attached ones. -/
theorem setOffline (ht : TableOk s) {i : Nat} {conn : Connection} (hconn : s.connection i = some conn)
    (now : Nat) : Undisturbed s (s.setOffline i conn now) where
  numOfPlayers := rfl
  identity _ := Player.SameIdentity.refl _
  records r hr := mem_append_of_not_login [.offline conn.id] (by simp [Record.IsLogin]) hr
  requests := rfl
  loads := rfl
  attached p hp := ((Server.attached_setOffline ht hconn now p).mp hp).1

theorem disconnect (ht : TableOk s) (i now : Nat) : Undisturbed s (s.disconnect i now) := by
  rcases s.disconnect_cases i now with heq | ⟨conn, p, -, -, -, heq⟩ | ⟨conn, hconn, -, -, heq⟩
  · rw [heq]
    exact world s s.world
  · rw [heq]
    exact prepareStateTransition s p _ _
  · rw [heq]
    exact setOffline ht hconn now

/-- A new connection has no player yet. -/
theorem accept (ht : TableOk s) (now : Nat) : Undisturbed s (s.accept now) := by
  have hattached := Server.attached_accept ht now
  unfold Server.accept at hattached ⊢
  by_cases hfull : s.connectionEnv.numOfMaxConnections ≤ s.connectionEnv.numOfConnections
  · rw [if_pos hfull]
    exact world s s.world
  · rw [if_neg hfull] at hattached ⊢
    exact ⟨rfl, fun _ => Player.SameIdentity.refl _, fun r hr =>
      mem_append_of_not_login [.accepted _ _] (by simp [Record.IsLogin]) hr, rfl, rfl,
      fun p => (hattached p).mp⟩

end Undisturbed

namespace IdentityOk

variable {s t : Server}

theorem init (maxClients : Nat) (metadata : WorldMetadata) (blockMapping : List UInt8) :
    IdentityOk (Server.init maxClients metadata blockMapping) where
  request_owned _ h := nomatch h
  request_nodup := List.nodup_nil
  responded_owned _ _ h := nomatch h
  responded_not_pending _ _ h := nomatch h
  responded_unique _ _ _ _ h := nomatch h
  uuid_replied _ h := nomatch h
  load_identified _ h := nomatch h
  authenticated _ _ _ h := nomatch h
  loaded _ _ _ h := nomatch h

/-- A request stays owned while its player keeps its identity. -/
theorem ownsRequest_of_same {request : LoginRequest} (h : s.OwnsRequest request)
    (hnum : s.numOfPlayers ≤ t.numOfPlayers)
    (hsame : (s.players request.player).SameIdentity (t.players request.player)) :
    t.OwnsRequest request := by
  obtain ⟨hlt, hname, hkey⟩ := h
  exact ⟨Nat.lt_of_lt_of_le hlt hnum, hsame.usernameBuf.trans hname, hsame.connectionKey.trans hkey⟩

/-- What disturbs no login keeps the invariant. -/
theorem undisturbed (h : IdentityOk s) (hu : Undisturbed s t) : IdentityOk t where
  request_owned request hr := ownsRequest_of_same (h.request_owned request (hu.requests ▸ hr))
    (Nat.le_of_eq hu.numOfPlayers.symm) (hu.identity _)
  request_nodup := by
    rw [hu.requests]
    exact h.request_nodup
  responded_owned request reply hr :=
    ownsRequest_of_same (h.responded_owned request reply (hu.responded.mp hr))
      (Nat.le_of_eq hu.numOfPlayers.symm) (hu.identity _)
  responded_not_pending request reply hr := by
    rw [hu.requests]
    exact h.responded_not_pending request reply (hu.responded.mp hr)
  responded_unique request reply request' reply' hr hr' :=
    h.responded_unique request reply request' reply' (hu.responded.mp hr) (hu.responded.mp hr')
  uuid_replied p hp huuid := by
    rw [(hu.identity p).uuid] at huuid
    obtain ⟨request, reply, hr, hplayer⟩ := h.uuid_replied p (hu.numOfPlayers ▸ hp) huuid
    exact ⟨request, reply, hu.responded.mpr hr, hplayer⟩
  load_identified load hl hattached := by
    obtain ⟨hsuccess, hid⟩ := h.load_identified load (hu.loads ▸ hl) (hu.attached _ hattached)
    exact ⟨hsuccess, hid.of_same (hu.identity _)⟩
  authenticated p request reply hr := by
    obtain ⟨hplayer, hresponded, hid⟩ := h.authenticated p request reply (hu.authenticated.mp hr)
    exact ⟨hplayer, hu.responded.mpr hresponded, hid.of_same (hu.identity _)⟩
  loaded p load result hr := by
    obtain ⟨hplayer, hresponded⟩ := h.loaded p load result (hu.loaded.mp hr)
    exact ⟨hplayer, hu.responded.mpr hresponded⟩

/-- A new player has no uuid, and no login yet. -/
theorem setPlayer (h : IdentityOk s) (hB : HistoryOk s) (ht : TableOk s) {i : Nat} {conn : Connection}
    (hconn : s.connection i = some conn) (honline : conn.isOnline = true) (player : Player)
    (huuid : player.uuid = []) : IdentityOk (s.setPlayer i conn player) := by
  have hself : (s.setPlayer i conn player).players s.numOfPlayers = player := Function.update_self ..
  have hold : ∀ {p}, p < s.numOfPlayers → (s.setPlayer i conn player).players p = s.players p :=
    fun hp => Function.update_of_ne (Nat.ne_of_lt hp) ..
  have howned : ∀ {request : LoginRequest}, s.OwnsRequest request →
      (s.setPlayer i conn player).OwnsRequest request := by
    intro request ho
    refine ownsRequest_of_same ho (Nat.le_succ _) ?_
    rw [hold ho.1]
    exact Player.SameIdentity.refl _
  refine { request_owned := fun r hr => howned (h.request_owned r hr)
           request_nodup := h.request_nodup
           responded_owned := fun r y hr => howned (h.responded_owned r y hr)
           responded_not_pending := h.responded_not_pending
           responded_unique := h.responded_unique
           uuid_replied := ?_, load_identified := ?_, authenticated := ?_
           loaded := h.loaded }
  · intro p hp hne
    rcases Nat.lt_succ_iff_lt_or_eq.mp hp with hlt | rfl
    · rw [hold hlt] at hne
      exact h.uuid_replied p hlt hne
    · rw [hself] at hne
      exact absurd huuid hne
  · intro load hl hattached
    have hlt := (h.responded_owned _ _ (hB.load_responded load hl)).1
    rcases (Server.attached_setPlayer ht hconn honline player _).mp hattached with heq | ⟨hattached, -⟩
    · omega
    · rw [hold hlt]
      exact h.load_identified load hl hattached
  · intro p request reply hr
    obtain ⟨rfl, hresponded, hid⟩ := h.authenticated p request reply hr
    refine ⟨rfl, hresponded, ?_⟩
    rw [hold (h.responded_owned request reply hresponded).1]
    exact hid

/-- One more request, for a player that has neither a request nor a reply. -/
theorem addRequest (h : IdentityOk s) {request : LoginRequest} (howns : s.OwnsRequest request)
    (hpending : ∀ r ∈ s.requests, r.player ≠ request.player)
    (hreplied : ∀ r y, .responded r y ∈ s.log → r.player ≠ request.player) :
    IdentityOk { s with requests := s.requests ++ [request] } := by
  refine { h with request_owned := ?_, request_nodup := ?_, responded_not_pending := ?_ }
  · intro r hr
    rcases List.mem_append.mp hr with hr | hr
    · exact h.request_owned r hr
    · rw [List.mem_singleton.mp hr]
      exact howns
  · rw [List.map_append, List.nodup_append]
    refine ⟨h.request_nodup, List.nodup_singleton _, ?_⟩
    intro p hp q hq
    obtain ⟨r, hr, rfl⟩ := List.mem_map.mp hp
    rw [List.mem_singleton.mp hq]
    exact hpending r hr
  · intro r y hr pending hp
    rcases List.mem_append.mp hp with hp | hp
    · exact h.responded_not_pending r y hr pending hp
    · rw [List.mem_singleton.mp hp]
      exact (hreplied r y hr).symm

/-- A handshake makes one more request, for a new player without a uuid. -/
theorem handshake (h : IdentityOk s) (hB : HistoryOk s) (ht : TableOk s) {i : Nat} {conn : Connection}
    (hconn : s.connection i = some conn) (honline : conn.isOnline = true)
    (username password : List UInt8) (cpeMagic : UInt8) (garbage : PlayerTypeId) :
    IdentityOk (s.handleHandshakePacket i conn username password cpeMagic garbage) := by
  obtain ⟨cur, next, -, heq⟩ := s.handshake_eq i conn username password cpeMagic garbage
  have hplayer := s.construct_players i conn (Player.new conn.connectionKey username garbage) cur next
    s.numOfPlayers
  rw [if_pos rfl] at hplayer
  have hconstructed := (h.setPlayer hB ht hconn honline
    (Player.new conn.connectionKey username garbage) rfl).undisturbed
    (Undisturbed.prepareStateTransition _ s.numOfPlayers cur next)
  rw [heq]
  apply hconstructed.addRequest
  · refine ⟨Nat.lt_succ_self _, ?_, ?_⟩
    · rw [hplayer]
      rfl
    · rw [hplayer]
      rfl
  · exact fun r hr => Nat.ne_of_lt (h.request_owned r hr).1
  · intro r y hr
    have hlogin : Record.IsLogin (.responded r y) := trivial
    have hr' : .responded r y ∈ s.log :=
      (mem_append_of_not_login [.state s.numOfPlayers cur] (by simp [Record.IsLogin]) hlogin).mp hr
    exact Nat.ne_of_lt (h.responded_owned r y hr').1

/-- A reply takes its request away, and is the first one for its player. -/
theorem respond (h : IdentityOk s) {request : LoginRequest} (hmem : request ∈ s.requests)
    (reply : LoginReply) :
    IdentityOk ({ s with requests := s.requests.erase request }.record
      (.responded request reply)) := by
  -- what is still pending is of other players
  have hsub : ∀ pending ∈ s.requests.erase request, pending ∈ s.requests ∧
      pending.player ≠ request.player := by
    intro pending hp
    have hp' := List.mem_of_mem_erase hp
    refine ⟨hp', fun hplayer => ?_⟩
    have hnodup : s.requests.Nodup := List.Nodup.of_map _ h.request_nodup
    obtain ⟨hne, -⟩ := hnodup.mem_erase_iff.mp hp
    exact hne (List.inj_on_of_nodup_map h.request_nodup hp' hmem hplayer)
  have hold : ∀ {r y}, .responded r y ∈ (Record.responded request reply :: s.log) →
      (r = request ∧ y = reply) ∨ (.responded r y ∈ s.log ∧ r.player ≠ request.player) := by
    intro r y hr
    rcases List.mem_cons.mp hr with heq | hr
    · obtain ⟨rfl, rfl⟩ := Record.responded.inj heq
      exact Or.inl ⟨rfl, rfl⟩
    · exact Or.inr ⟨hr, (h.responded_not_pending r y hr request hmem).symm⟩
  have hlogin : ∀ {r : Record}, (∀ request reply, r ≠ .responded request reply) →
      r ∈ (Record.responded request reply :: s.log) → r ∈ s.log := fun hne hr =>
    (List.mem_cons.mp hr).resolve_left (hne request reply)
  constructor
  · intro r hr
    exact h.request_owned r (hsub r hr).1
  · exact h.request_nodup.sublist (List.erase_sublist.map _)
  · intro r y hr
    rcases hold hr with ⟨rfl, rfl⟩ | ⟨hr, -⟩
    · exact h.request_owned r hmem
    · exact h.responded_owned r y hr
  · intro r y hr pending hp
    rcases hold hr with ⟨rfl, rfl⟩ | ⟨hr, -⟩
    · exact (hsub pending hp).2
    · exact h.responded_not_pending r y hr pending (hsub pending hp).1
  · intro r y r' y' hr hr' hplayer
    rcases hold hr with ⟨rfl, rfl⟩ | ⟨hr, hne⟩ <;> rcases hold hr' with ⟨rfl, rfl⟩ | ⟨hr', hne'⟩
    · exact ⟨rfl, rfl⟩
    · exact absurd hplayer.symm hne'
    · exact absurd hplayer hne
    · exact h.responded_unique r y r' y' hr hr' hplayer
  · intro p hp huuid
    obtain ⟨r, y, hr, hrest⟩ := h.uuid_replied p hp huuid
    exact ⟨r, y, List.mem_cons_of_mem _ hr, hrest⟩
  · intro load hl hatt
    exact h.load_identified load hl hatt
  · intro p r y hr
    obtain ⟨hplayer, hr', hid⟩ := h.authenticated p r y (hlogin (fun _ _ hne => nomatch hne) hr)
    exact ⟨hplayer, List.mem_cons_of_mem _ hr', hid⟩
  · intro p load result hr
    obtain ⟨hplayer, hr'⟩ := h.loaded p load result (hlogin (fun _ _ hne => nomatch hne) hr)
    exact ⟨hplayer, List.mem_cons_of_mem _ hr'⟩

/-- A player gets the identity of its reply. -/
theorem updatePlayer (h : IdentityOk s) (hB : HistoryOk s) {request : LoginRequest} {reply : LoginReply}
    (hr : .responded request reply ∈ s.log) {f : Player → Player}
    (hname : (f (s.players request.player)).usernameBuf = (s.players request.player).usernameBuf)
    (hkey : (f (s.players request.player)).connectionKey = (s.players request.player).connectionKey)
    (hid : reply.Identifies (f (s.players request.player)))
    (hsuccess : (f (s.players request.player)).uuid ≠ [] →
      reply.errorCode = ErrorCode.success) :
    IdentityOk (s.updatePlayer request.player f) := by
  have hattached : ∀ p, (s.updatePlayer request.player f).Attached p ↔ s.Attached p :=
    Server.attached_of_env rfl
  have howned : ∀ {r : LoginRequest}, s.OwnsRequest r →
      (s.updatePlayer request.player f).OwnsRequest r := by
    rintro r ⟨hlt, hn, hk⟩
    refine ⟨hlt, ?_, ?_⟩
    all_goals
      rw [Server.updatePlayer_players]
      split_ifs with heq
    · rw [hname, ← heq, hn]
    · exact hn
    · rw [hkey, ← heq, hk]
    · exact hk
  -- any other reply for the player is the same one
  have hidentifies : ∀ {r y}, .responded r y ∈ s.log → y.Identifies (s.players r.player) →
      y.Identifies ((s.updatePlayer request.player f).players r.player) := by
    intro r y hr' hy
    rw [Server.updatePlayer_players]
    split_ifs with heq
    · obtain ⟨-, rfl⟩ := h.responded_unique r y request reply hr' hr heq
      exact hid
    · exact hy
  refine { h with request_owned := fun r hm => howned (h.request_owned r hm)
                  responded_owned := fun r y hm => howned (h.responded_owned r y hm)
                  uuid_replied := ?_, load_identified := ?_, authenticated := ?_ }
  · intro p hp huuid
    rw [Server.updatePlayer_players] at huuid
    split_ifs at huuid with heq
    · exact ⟨request, reply, hr, heq.symm, hsuccess huuid⟩
    · exact h.uuid_replied p hp huuid
  · intro load hl hatt
    obtain ⟨hsuccess', hid'⟩ := h.load_identified load hl ((hattached _).mp hatt)
    exact ⟨hsuccess', hidentifies (hB.load_responded load hl) hid'⟩
  · intro p r y hm
    obtain ⟨hplayer, hr', hid'⟩ := h.authenticated p r y hm
    refine ⟨hplayer, hr', ?_⟩
    rw [← hplayer] at hid' ⊢
    exact hidentifies hr' hid'

/-- A record that is no reply, and tells the truth about a login or a load. -/
theorem record (h : IdentityOk s) {rec : Record}
    (hresponded : ∀ request reply, rec ≠ .responded request reply)
    (hauthenticated : ∀ p request reply, rec = .authenticated p request reply → request.player = p ∧
      .responded request reply ∈ s.log ∧ reply.Identifies (s.players p))
    (hloaded : ∀ p load result, rec = .loaded p load result →
      load.request.player = p ∧ .responded load.request load.reply ∈ s.log) :
    IdentityOk (s.record rec) := by
  have hreply : ∀ {r y}, .responded r y ∈ (rec :: s.log) → .responded r y ∈ s.log := fun hm =>
    (List.mem_cons.mp hm).resolve_left (hresponded _ _).symm
  refine { h with responded_owned := ?_, responded_not_pending := ?_, responded_unique := ?_
                  uuid_replied := ?_, authenticated := ?_, loaded := ?_ }
  · intro r y hm
    exact h.responded_owned r y (hreply hm)
  · intro r y hm
    exact h.responded_not_pending r y (hreply hm)
  · intro r y r' y' hm hm'
    exact h.responded_unique r y r' y' (hreply hm) (hreply hm')
  · intro p hp huuid
    obtain ⟨r, y, hm, hrest⟩ := h.uuid_replied p hp huuid
    exact ⟨r, y, List.mem_cons_of_mem _ hm, hrest⟩
  · intro p r y hm
    rcases List.mem_cons.mp hm with heq | hm
    · obtain ⟨hplayer, hm', hid⟩ := hauthenticated p r y heq.symm
      exact ⟨hplayer, List.mem_cons_of_mem _ hm', hid⟩
    · obtain ⟨hplayer, hm', hid⟩ := h.authenticated p r y hm
      exact ⟨hplayer, List.mem_cons_of_mem _ hm', hid⟩
  · intro p load result hm
    rcases List.mem_cons.mp hm with heq | hm
    · obtain ⟨hplayer, hm'⟩ := hloaded p load result heq.symm
      exact ⟨hplayer, List.mem_cons_of_mem _ hm'⟩
    · obtain ⟨hplayer, hm'⟩ := h.loaded p load result hm
      exact ⟨hplayer, List.mem_cons_of_mem _ hm'⟩

/-- A reply moves its own player on. -/
theorem authenticate (h : IdentityOk s) {request : LoginRequest} {reply : LoginReply}
    (hr : .responded request reply ∈ s.log) (hid : reply.Identifies (s.players request.player)) :
    IdentityOk ((s.record (.authenticated request.player request reply)).transitState
      request.player) := by
  apply undisturbed _ (Undisturbed.transitState _ _ _)
  apply h.record
  · exact fun _ _ => nofun
  · intro p r y heq
    obtain ⟨rfl, rfl, rfl⟩ := Record.authenticated.inj heq
    exact ⟨rfl, hr, hid⟩
  · exact fun _ _ _ => nofun

/-- A load ends for its own player. -/
theorem record_loaded (h : IdentityOk s) {load : GamedataLoad} (result : LoadResult)
    (hr : .responded load.request load.reply ∈ s.log) :
    IdentityOk (s.record (.loaded load.request.player load result)) := by
  apply h.record
  · exact fun _ _ => nofun
  · exact fun _ _ _ => nofun
  · intro p l res heq
    obtain ⟨rfl, rfl, rfl⟩ := Record.loaded.inj heq
    exact ⟨rfl, hr⟩

/-- The player of a reply is given the type and uuid that the reply has. -/
theorem setTypeAndUuid (h : IdentityOk s) (hB : HistoryOk s) {request : LoginRequest}
    {reply : LoginReply} (hr : .responded request reply ∈ s.log)
    (hsuccess : reply.errorCode = ErrorCode.success) (type : PlayerTypeId) (uuid : List UInt8)
    (htype : type = int32 reply.playerType) (huuid : uuid = reply.playerUuid) :
    IdentityOk (s.updatePlayer request.player fun player =>
      (player.setPlayerType type).setUuid uuid) := by
  refine h.updatePlayer hB hr rfl rfl ?_ fun _ => hsuccess
  have hne : reply.errorCode ≠ ErrorCode.playerNotExist := by
    rw [hsuccess]
    decide
  rw [LoginReply.Identifies, if_neg hne]
  exact ⟨htype, huuid⟩

/-- The player of a handshake that no account answers to is a guest, and no reply has given it a uuid. -/
theorem admitGuest (h : IdentityOk s) (hB : HistoryOk s) {request : LoginRequest}
    {reply : LoginReply} (hr : .responded request reply ∈ s.log)
    (hguest : reply.errorCode = ErrorCode.playerNotExist) :
    IdentityOk (s.admitGuest request.player request reply) := by
  -- a uuid would be that of a successful reply, and this is the only reply for the player
  have huuid : (s.players request.player).uuid = [] := by
    by_contra hne
    obtain ⟨r, y, hr', hplayer, hsuccess⟩ :=
      h.uuid_replied request.player (h.responded_owned request reply hr).1 hne
    obtain ⟨-, rfl⟩ := h.responded_unique r y request reply hr' hr hplayer
    rw [hguest] at hsuccess
    exact absurd hsuccess (by decide)
  have hid : reply.Identifies ((s.players request.player).setPlayerType PlayerTypeId.guest) := by
    rw [LoginReply.Identifies, if_pos hguest]
    exact ⟨rfl, huuid⟩
  have hset := h.updatePlayer hB hr (f := (·.setPlayerType PlayerTypeId.guest)) rfl rfl hid
    fun hne => absurd huuid hne
  refine hset.authenticate hr ?_
  rw [Server.updatePlayer_players, if_pos rfl]
  exact hid

/-- Whoever is admitted after a load was identified by the reply before it. -/
theorem admitLoaded (h : IdentityOk s) {load : GamedataLoad} (result : LoadResult)
    (hr : .responded load.request load.reply ∈ s.log)
    (hid : load.reply.Identifies (s.players load.request.player)) :
    IdentityOk (s.admitLoaded load.request.player load result) := by
  rw [Server.admitLoaded_eq]
  have hstanding := Server.sameStanding_loadedGamedata (s.players load.request.player) result
  have hquiet := Quiet.updatePlayer s load.request.player (f := (Server.loadedGamedata · result))
    hstanding
  have hset := h.undisturbed (Undisturbed.quiet hquiet)
  refine (hset.record_loaded result hr).authenticate (List.mem_cons_of_mem _ hr) ?_
  rw [Server.record_players, Server.updatePlayer_players, if_pos rfl]
  exact hid.of_same ⟨hstanding.connectionKey, hstanding.usernameBuf, hstanding.playerType,
    hstanding.uuid⟩

theorem eraseLoad (h : IdentityOk s) (load : GamedataLoad) :
    IdentityOk { s with loads := s.loads.erase load } :=
  { h with load_identified := fun l hl hatt => h.load_identified l (List.mem_of_mem_erase hl) hatt }

/-- A load is added for a reply that has just identified its player, if that is still there. -/
theorem addLoad (h : IdentityOk s) (ht : TableOk s) {request : LoginRequest} {reply : LoginReply}
    (hr : .responded request reply ∈ s.log) (hl : s.LoadFollows request reply) :
    IdentityOk { s with loads := s.loads ++ [{ request := request, reply := reply }] } := by
  refine { h with load_identified := fun load hm hatt => ?_ }
  rcases List.mem_append.mp hm with hm | hm
  · exact h.load_identified load hm hatt
  · obtain ⟨i, conn, hp, honline⟩ := hatt
    rw [List.mem_singleton.mp hm] at hp ⊢
    have hkey : conn.connectionKey = request.connectionKey :=
      (ht.player_key _ _ _ hp).symm.trans (h.responded_owned request reply hr).2.2
    obtain ⟨hsuccess, hid⟩ := hl i conn hp.1 honline hkey
    have hne : reply.errorCode ≠ ErrorCode.playerNotExist := by
      rw [hsuccess]
      decide
    refine ⟨hsuccess, ?_⟩
    rw [LoginReply.Identifies, if_neg hne]
    exact hid _ hp.2

theorem disconnectRun (h : IdentityOk s) (ht : TableOk s) (o o' : Outcomes) :
    IdentityOk (s.runTask .disconnectPlayer o o') := by
  refine Closed.disconnectRun_of_parts (P := IdentityOk)
    (fun _ hq hs => hs.undisturbed (Undisturbed.quiet hq)) ?_ ?_ ?_ ht h o o'
  · exact fun ds _ hs => hs.undisturbed (Undisturbed.of_log _ _ (by simp [Record.IsLogin]))
  · intro s conn p _ _ _ hs
    rw [Server.savePlayerGamedata_eq]
    refine (hs.undisturbed (Undisturbed.of_log s (s.savedRecords p) ?_)).undisturbed
      (Undisturbed.transitState _ p _)
    simp only [Server.savedRecords]
    split_ifs <;> simp [Record.IsLogin]
  · exact fun hs => hs.undisturbed (Undisturbed.world _ _)

/-- The invariant survives every event whose replies reach their own players. -/
theorem closed : Closed HistoryOk IdentityOk Server.AnswersOwnPlayer where
  quiet _ _ hq h := h.undisturbed (Undisturbed.quiet hq)
  interact now _ ht _ hconn h := h.undisturbed
    ⟨rfl, fun _ => Player.SameIdentity.refl _, fun _ _ => Iff.rfl, rfl, rfl,
      fun p => (Server.attached_interact ht hconn now p).mp⟩
  accept now _ ht _ h := h.undisturbed (Undisturbed.accept ht now)
  delete ht _ hconn hoffline h := h.undisturbed
    ⟨rfl, fun _ => Player.SameIdentity.refl _, fun _ _ => Iff.rfl, rfl, rfl,
      fun p => (Server.attached_delete ht hconn hoffline p).mp⟩
  disconnect i now _ ht _ _ h := h.undisturbed (Undisturbed.disconnect ht i now)
  handshake username password cpeMagic garbage ht hB hconn honline _ h :=
    h.handshake hB ht hconn honline username password cpeMagic garbage
  extEntry _ _ _ _ _ h := h.undisturbed (Undisturbed.transitState _ _ _)
  syncing _ _ _ _ _ h := h.undisturbed (Undisturbed.prepareStateTransition _ _ _ _)
  levelWait _ _ _ _ _ h := (h.undisturbed (Undisturbed.prepareStateTransition _ _ _ _)).undisturbed
    (Undisturbed.world _ _)
  spawnWait _ _ _ _ _ h := (h.undisturbed (Undisturbed.prepareStateTransition _ _ _ _)).undisturbed
    (Undisturbed.world _ _)
  pushDisconnect _ _ _ _ _ h := h.undisturbed (Undisturbed.world _ _)
  scheduleSpawn _ _ _ _ _ h := h.undisturbed (Undisturbed.world _ _)
  scheduleDisconnect _ _ _ _ _ h := h.undisturbed (Undisturbed.world _ _)
  scheduleLevel _ _ _ _ _ h := h.undisturbed (Undisturbed.world _ _)
  levelCallback _ _ _ _ _ h := h.undisturbed (Undisturbed.transitState _ _ _)
  spawnCallback _ _ _ _ _ h := h.undisturbed (Undisturbed.transitState _ _ _)
  finishLevel _ _ h := h.undisturbed (Undisturbed.world _ _)
  finishSpawn _ _ h := h.undisturbed (Undisturbed.world _ _)
  disconnectRun o o' ht _ _ _ h := h.disconnectRun ht o o'
  respond reply _ _ hm h := h.respond hm reply
  setIdentity _ hB _ _ _ hr hsuccess hC h := by
    obtain rfl := hC
    exact h.setTypeAndUuid hB hr hsuccess _ _ rfl rfl
  guest _ hB _ _ _ hr hguest hC h := by
    obtain rfl := hC
    exact h.admitGuest hB hr hguest
  addLoad ht _ hr hl h := h.addLoad ht hr hl
  takeLoad _ _ _ h := h.eraseLoad _
  loaded ht hB hl hp honline _ _ hC h := by
    obtain rfl := hC
    exact (h.eraseLoad _).admitLoaded _ (hB.load_responded _ hl)
      (h.load_identified _ hl (hp.attached honline)).2

end IdentityOk

/-- **Identities are bound** in every state reached by a run in which every reply, and the load that follows
it, is handled for the player that its handshake constructed. A reply names a connection and not a player,
so a second handshake on the connection would let the player of the second name have the identity of the
first. -/
theorem Server.identityBound_of_run {maxClients : Nat} {metadata : WorldMetadata}
    {blockMapping : List UInt8} {es : List Event} {s : Server}
    (hrun : run Server.step (Server.init maxClients metadata blockMapping) es = some s)
    (hC : Along Server.step (Server.CallsMeet Server.AnswersOwnPlayer)
      (Server.init maxClients metadata blockMapping) es) : s.IdentityBound := by
  obtain ⟨-, -, h⟩ := ((HistoryOk.closed.weaken _).inter IdentityOk.closed).run
    ⟨TableOk.init .., HistoryOk.init .., IdentityOk.init ..⟩ hC hrun
  intro i conn p request reply _ _ hauth
  obtain ⟨rfl, hr, hid⟩ := h.authenticated p request reply hauth
  refine ⟨hr, (h.responded_owned request reply hr).2.1, hid, fun load result hload => ?_⟩
  obtain ⟨hplayer, hr'⟩ := h.loaded _ load result hload
  obtain ⟨hrequest, hreply⟩ := h.responded_unique _ _ _ _ hr' hr hplayer
  cases load
  exact congrArg₂ GamedataLoad.mk hrequest hreply

/-- One handshake and its reply, a load, and the user is live under its own name and uuid. -/
theorem Server.identityBound_of_run_userLogin :
    ∃ s, run Server.step Server.small (userLogin 1) = some s ∧ s.IdentityBound := by
  obtain ⟨s, hs⟩ := Option.isSome_iff_exists.mp
    (show (run Server.step Server.small (userLogin 1)).isSome = true by decide)
  exact ⟨s, hs, Server.identityBound_of_run hs (by decide)⟩

/-- A client sends two handshakes, `a` and `b`; the reply to the first one is a success. -/
def handshakeTwice : List Event :=
  [.accept 1, .receive 0 (.handshake [97] [] 0) 1 true 0, .receive 0 (.handshake [98] [] 0) 1 true 0,
    .response 0 { errorCode := ErrorCode.success, playerType := 2, playerUuid := [7] } 1 true,
    .load 0 .documentNotFound 1 true]

/-- The player of the second handshake is logged in as `b`, with the identity of `a`. -/
theorem Server.not_identityBound_twoHandshakes :
    ∃ s, run Server.step Server.small handshakeTwice = some s ∧ (s.players 1).usernameBuf = [98] ∧
      (s.players 1).uuid = [7] ∧ ¬ s.IdentityBound := by
  let request : LoginRequest :=
    { player := 0, connectionKey := ⟨0, monotonicTick32 1⟩, username := [97], password := [] }
  let reply : LoginReply := { errorCode := ErrorCode.success, playerType := 2, playerUuid := [7] }
  have hrun : ((run Server.step Server.small handshakeTwice).map fun s =>
      (s.connection 0, (s.players 1).usernameBuf, (s.players 1).uuid, (s.players 1).state,
        decide (.authenticated 1 request reply ∈ s.log))) =
      some (some { id := 0, connectionKey := ⟨0, monotonicTick32 1⟩, lastInteractionTick := 1
                   player := some 1 }, [98], [7], .handshaked, true) := by decide
  obtain ⟨s, hs, heq⟩ := Option.map_eq_some_iff.mp hrun
  simp only [Prod.mk.injEq, decide_eq_true_eq] at heq
  obtain ⟨hconn, hname, huuid, hstate, hauth⟩ := heq
  refine ⟨s, hs, hname, huuid, fun h => ?_⟩
  have hlive : (s.players 1).state.IsLive := by
    rw [hstate]
    decide
  obtain ⟨-, hbound, -⟩ := h 0 _ 1 request reply ⟨hconn, rfl⟩ hlive hauth
  rw [hname] at hbound
  exact absurd hbound (by decide)

end Mmocraft
