/-
# Mmocraft.Net.UdpServer -- the datagrams of the servers

Every server of the system receives its messages through a `UdpServer`: the first byte of a datagram
selects a common handler and then a handler of the application, the rest is a protobuf message.  The
first byte is a signed `char` where it becomes an index, and an enum field of a proto3 message holds
any 32-bit integer, so a datagram decides where the tables are read and written.

`ParseFromArray` belongs to protobuf: the parsers are parameters.  What the handlers of the
applications do beyond the tables is left to the modules about logins; here they are named.

An access outside a table is an error of the model (`Lib.Bounds`), and nothing more is said about what the
program does then. The four applications are followed through their tables of handlers; the result is exact
for the loop of each of them, over any sequence of datagrams.
-/
import Mathlib.Logic.Function.Basic
import Mmocraft.Lib.Bounds

namespace Mmocraft.Net

open Mmocraft.Lib

/-! ## Messages -/

namespace MessageId

/-! `message_id::value`, as far as a handler is selected by it. -/

def serverAnnouncement : Int := 2
def chatCommand : Int := 3
def fetchConfig : Int := 4
def fetchServerAddress : Int := 5
def packetHandshake : Int := 6
def playerLogout : Int := 7

end MessageId

/-- `protocol::server_type_id`, an open enum. -/
abbrev ServerTypeId := Int

namespace ServerTypeId

def game : ServerTypeId := 0
def router : ServerTypeId := 1
def chat : ServerTypeId := 2
def login : ServerTypeId := 3

/-- `total_count`. -/
def totalCount : Nat := 4

end ServerTypeId

/-- `IPAddress`. -/
structure IPAddress where
  ip : List UInt8 := []
  port : Int := 0
  deriving DecidableEq, Repr

/-- `protocol::ServerAnnouncement`. -/
structure ServerAnnouncement where
  serverType : ServerTypeId
  serverInfo : IPAddress
  deriving DecidableEq, Repr

/-- `ParseFromArray` of the messages that carry a server type; the two requests consist of it. -/
structure MessageParser where
  serverAnnouncement : List UInt8 → Option ServerAnnouncement
  fetchConfigRequest : List UInt8 → Option ServerTypeId
  fetchServerRequest : List UInt8 → Option ServerTypeId

/-- `config::memory::udp_buffer_size`. -/
def udpBufferSize : Nat := 2048

/-- `MessageRequest`: the first `_size` bytes of its buffer. -/
structure MessageRequest where
  data : List UInt8
  ne_nil : data ≠ []
  length_le : data.length ≤ udpBufferSize

namespace MessageRequest

/-- `read_message`, for the datagram that arrives: `recvfrom` fails if it does not fit the buffer. -/
def readMessage (datagram : List UInt8) : Option MessageRequest :=
  if h : datagram ≠ [] ∧ datagram.length ≤ udpBufferSize then some ⟨datagram, h.1, h.2⟩ else none

/-- `_buf[0]`. -/
def header (r : MessageRequest) : UInt8 := r.data.head r.ne_nil

/-- `message_id()`: the `char` is signed. -/
def messageId (r : MessageRequest) : Int := r.header.toBitVec.toInt

/-- `begin_message()` up to `message_size()`. -/
def message (r : MessageRequest) : List UInt8 := r.data.tail

end MessageRequest

/-! ## The servers -/

/-- The application behind a `UdpServer`. -/
inductive AppServer where
  | game
  | router
  | chat
  | login
  deriving DecidableEq, Repr

/-- A handler that is started on a message and reads no table. -/
inductive DetachedHandler where
  | handshakeResponseMessage
  | chatCommand
  | handshakePacket
  | playerLogoutMessage
  deriving DecidableEq, Repr

/-- What the router answers. -/
inductive RouterReply where
  /-- `FetchConfigResponse` with the configuration read from a file. -/
  | config (configPath : String)
  /-- `FetchServerResponse`. -/
  | server (serverType : ServerTypeId) (serverInfo : IPAddress)
  deriving DecidableEq, Repr

/-- `UdpServer` with its application and its `ServerCommunicator`. -/
structure UdpServer where
  app : AppServer
  /-- `ServerCommunicator::_servers`. -/
  servers : Fin ServerTypeId.totalCount → IPAddress := fun _ => {}
  started : List (DetachedHandler × List UInt8) := []
  replies : List RouterReply := []

/-- A handler of `common_message_handler_table`. -/
inductive CommonHandler where
  | serverAnnouncement
  deriving DecidableEq, Repr

/-- `common_message_handler_table`. -/
def commonMessageHandlerTable (i : Fin 0x100) : Option CommonHandler :=
  if i = MessageId.serverAnnouncement then some .serverAnnouncement else none

/-- The `message_handler_table` of the game server. -/
def gameMessageHandlerTable (i : Fin 0x100) : Option DetachedHandler :=
  if i = MessageId.packetHandshake then some .handshakeResponseMessage else none

/-- A handler of the router. -/
inductive RouterHandler where
  | fetchConfig
  | fetchServerAddress
  deriving DecidableEq, Repr

/-- The `message_handler_table` of the router. -/
def routerMessageHandlerTable (i : Fin 0x100) : Option RouterHandler :=
  if i = MessageId.fetchConfig then some .fetchConfig
  else if i = MessageId.fetchServerAddress then some .fetchServerAddress
  else none

/-- `config_path_db`, of 0xff entries: the path column. -/
def configPathDb (i : Fin 0xff) : Option String :=
  if i = ServerTypeId.game then some "config/game_config.json"
  else if i = ServerTypeId.router then some "config/router_config.json"
  else if i = ServerTypeId.chat then some "config/chat_config.json"
  else if i = ServerTypeId.login then some "config/login_config.json"
  else none

namespace UdpServer

/-- A `MessageRequest` is given to a coroutine. -/
def start (s : UdpServer) (handler : DetachedHandler) (r : MessageRequest) : UdpServer :=
  { s with started := s.started ++ [(handler, r.message)] }

/-! ### ServerCommunicator -/

/-- `get_server`. -/
def getServer (s : UdpServer) (serverType : ServerTypeId) : Except OutOfRange IPAddress := do
  let i ← checkIndex ServerTypeId.totalCount serverType
  return s.servers i

/-- `register_server`. -/
def registerServer (s : UdpServer) (serverType : ServerTypeId) (serverInfo : IPAddress) :
    Except OutOfRange UdpServer := do
  let i ← checkIndex ServerTypeId.totalCount serverType
  return { s with servers := Function.update s.servers i serverInfo }

/-- `handle_server_announcement`. -/
def handleServerAnnouncement (p : MessageParser) (s : UdpServer) (r : MessageRequest) :
    Except OutOfRange (Bool × UdpServer) :=
  match p.serverAnnouncement r.message with
  | none => return (false, s)
  | some msg => do
      let s ← s.registerServer msg.serverType msg.serverInfo
      return (true, s)

/-- `handle_common_message`. -/
def handleCommonMessage (p : MessageParser) (s : UdpServer) (r : MessageRequest) :
    Except OutOfRange (Option Bool × UdpServer) := do
  let i ← checkIndex 0x100 r.messageId
  match commonMessageHandlerTable i with
  | some .serverAnnouncement => do
      let (success, s) ← s.handleServerAnnouncement p r
      return (some success, s)
  | none => return (none, s)

/-! ### The applications -/

/-- `load_server_config`: the path that the configuration of the reply is read from. -/
def loadServerConfig (serverType : ServerTypeId) : Except OutOfRange (Option String) := do
  let i ← checkIndex 0xff serverType
  return configPathDb i

/-- `handle_fetch_config`. -/
def handleFetchConfig (p : MessageParser) (s : UdpServer) (r : MessageRequest) :
    Except OutOfRange (Bool × UdpServer) :=
  match p.fetchConfigRequest r.message with
  | none => return (false, s)
  | some serverType => do
      match ← loadServerConfig serverType with
      | none => return (false, s)
      | some configPath => return (true, { s with replies := s.replies ++ [.config configPath] })

/-- `handle_fetch_server_address`. -/
def handleFetchServerAddress (p : MessageParser) (s : UdpServer) (r : MessageRequest) :
    Except OutOfRange (Bool × UdpServer) :=
  match p.fetchServerRequest r.message with
  | none => return (false, s)
  | some serverType => do
      let info ← s.getServer serverType
      if info.port = 0 then return (false, s)
      else return (true, { s with replies := s.replies ++ [.server serverType info] })

/-- `GameServer::handle_message`. -/
def gameHandleMessage (s : UdpServer) (r : MessageRequest) : Except OutOfRange (Bool × UdpServer) := do
  let i ← checkIndex 0x100 r.messageId
  match gameMessageHandlerTable i with
  | some handler => return (true, s.start handler r)
  | none => return (false, s)

/-- `RouteServer::handle_message`. -/
def routerHandleMessage (p : MessageParser) (s : UdpServer) (r : MessageRequest) :
    Except OutOfRange (Bool × UdpServer) := do
  let i ← checkIndex 0x100 r.messageId
  match routerMessageHandlerTable i with
  | some .fetchConfig => s.handleFetchConfig p r
  | some .fetchServerAddress => s.handleFetchServerAddress p r
  | none => return (false, s)

/-- `ChatServer::handle_message`. -/
def chatHandleMessage (s : UdpServer) (r : MessageRequest) : Except OutOfRange (Bool × UdpServer) :=
  if r.messageId = MessageId.chatCommand then return (true, s.start .chatCommand r)
  else return (false, s)

/-- `LoginServer::handle_message`. -/
def loginHandleMessage (s : UdpServer) (r : MessageRequest) : Except OutOfRange (Bool × UdpServer) :=
  if r.messageId = MessageId.packetHandshake then return (true, s.start .handshakePacket r)
  else if r.messageId = MessageId.playerLogout then return (true, s.start .playerLogoutMessage r)
  else return (false, s)

/-- `app_server.handle_message`. -/
def appHandleMessage (p : MessageParser) (s : UdpServer) (r : MessageRequest) :
    Except OutOfRange (Bool × UdpServer) :=
  match s.app with
  | .game => s.gameHandleMessage r
  | .router => s.routerHandleMessage p r
  | .chat => s.chatHandleMessage r
  | .login => s.loginHandleMessage r

/-- `UdpServer::handle_message`. -/
def handleMessage (p : MessageParser) (s : UdpServer) (r : MessageRequest) :
    Except OutOfRange (Bool × UdpServer) := do
  let (common, s) ← s.handleCommonMessage p r
  -- a common handler that fails ends the handling
  if common.getD true = false then return (false, s)
  else
    let (handled, s) ← s.appHandleMessage p r
    return (handled || common.getD false, s)

/-- `run_event_loop_forever`, over the datagrams that arrive. -/
def runEventLoop (p : MessageParser) (s : UdpServer) : List (List UInt8) → Except OutOfRange UdpServer
  | [] => return s
  | datagram :: datagrams =>
      match MessageRequest.readMessage datagram with
      | none => s.runEventLoop p datagrams
      | some r => do
          let (_, s) ← s.handleMessage p r
          s.runEventLoop p datagrams

/-! ## Datagrams in bounds -/

variable (p : MessageParser) (s : UdpServer) (r : MessageRequest)

/-- The first byte of a message and the server type it carries fit the tables they index. -/
structure FitsTables : Prop where
  header : r.header < 0x80
  serverAnnouncement : r.messageId = MessageId.serverAnnouncement →
    ∀ msg, p.serverAnnouncement r.message = some msg →
      0 ≤ msg.serverType ∧ msg.serverType < ServerTypeId.totalCount
  fetchConfig : s.app = .router → r.messageId = MessageId.fetchConfig →
    ∀ serverType, p.fetchConfigRequest r.message = some serverType → 0 ≤ serverType ∧ serverType < 0xff
  fetchServerAddress : s.app = .router → r.messageId = MessageId.fetchServerAddress →
    ∀ serverType, p.fetchServerRequest r.message = some serverType →
      0 ≤ serverType ∧ serverType < ServerTypeId.totalCount

/-- The signed first byte is an index of a handler table exactly below 0x80. -/
theorem inBounds_messageId : InBounds (checkIndex 0x100 r.messageId) ↔ r.header < 0x80 := by
  rw [inBounds_checkIndex, MessageRequest.messageId, BitVec.toInt_eq_toNat_cond,
    UInt8.lt_iff_toNat_lt]
  have hlt := r.header.toBitVec.isLt
  have htoNat : r.header.toBitVec.toNat = r.header.toNat := rfl
  have hconst : (0x80 : UInt8).toNat = 128 := rfl
  split_ifs <;> omega

theorem inBounds_registerServer (serverType : ServerTypeId) (serverInfo : IPAddress) :
    InBounds (s.registerServer serverType serverInfo) ↔
      0 ≤ serverType ∧ serverType < ServerTypeId.totalCount := by
  rw [registerServer, inBounds_bind_of_forall _ fun _ => inBounds_pure _, inBounds_checkIndex]

theorem inBounds_handleServerAnnouncement :
    InBounds (s.handleServerAnnouncement p r) ↔
      ∀ msg, p.serverAnnouncement r.message = some msg →
        0 ≤ msg.serverType ∧ msg.serverType < ServerTypeId.totalCount := by
  unfold handleServerAnnouncement
  cases hmsg : p.serverAnnouncement r.message with
  | none => simp
  | some msg =>
      dsimp only
      rw [inBounds_bind_of_forall _ fun _ => inBounds_pure _, inBounds_registerServer]
      simp

/-- The common handlers: the announcement is the only one. -/
theorem inBounds_handleCommonMessage :
    InBounds (s.handleCommonMessage p r) ↔
      r.header < 0x80 ∧ (r.messageId = MessageId.serverAnnouncement →
        ∀ msg, p.serverAnnouncement r.message = some msg →
          0 ≤ msg.serverType ∧ msg.serverType < ServerTypeId.totalCount) := by
  rw [handleCommonMessage, inBounds_checkIndex_bind, inBounds_messageId,
    ← inBounds_handleServerAnnouncement]
  refine and_congr_right fun hheader => ?_
  obtain ⟨k, hk⟩ := (inBounds_messageId r).mpr hheader
  rw [checkIndex_eq_ok_iff] at hk
  constructor
  · intro h hid
    have hentry : commonMessageHandlerTable k = some .serverAnnouncement := if_pos (hk ▸ hid)
    have hrun := h k hk
    rw [hentry] at hrun
    exact (inBounds_bind_of_forall _ fun _ => inBounds_pure _).mp hrun
  · intro h i hi
    by_cases hid : r.messageId = MessageId.serverAnnouncement
    · have hentry : commonMessageHandlerTable i = some .serverAnnouncement := if_pos (hi ▸ hid)
      rw [hentry]
      exact (inBounds_bind_of_forall _ fun _ => inBounds_pure _).mpr (h hid)
    · have hentry : commonMessageHandlerTable i = none := if_neg (hi ▸ hid)
      rw [hentry]
      exact inBounds_pure _

theorem handleServerAnnouncement_app {success : Bool} {s' : UdpServer}
    (h : s.handleServerAnnouncement p r = .ok (success, s')) : s'.app = s.app := by
  unfold handleServerAnnouncement at h
  cases hmsg : p.serverAnnouncement r.message with
  | none =>
      rw [hmsg] at h
      cases h
      rfl
  | some msg =>
      rw [hmsg] at h
      obtain ⟨t, ht, hresult⟩ := bind_eq_ok.mp h
      obtain ⟨i, -, hi⟩ := bind_eq_ok.mp ht
      cases hresult
      cases hi
      rfl

/-- A common handler leaves the application alone, and only an announcement ends the handling. -/
theorem handleCommonMessage_spec {common : Option Bool} {s' : UdpServer}
    (h : s.handleCommonMessage p r = .ok (common, s')) :
    s'.app = s.app ∧ (common.getD true = false → r.messageId = MessageId.serverAnnouncement) := by
  obtain ⟨i, hi, hbody⟩ := bind_eq_ok.mp h
  rw [checkIndex_eq_ok_iff] at hi
  by_cases hid : r.messageId = MessageId.serverAnnouncement
  · have hentry : commonMessageHandlerTable i = some .serverAnnouncement := if_pos (hi ▸ hid)
    rw [hentry] at hbody
    obtain ⟨⟨success, t⟩, ht, hresult⟩ := bind_eq_ok.mp hbody
    cases hresult
    exact ⟨handleServerAnnouncement_app p s r ht, fun _ => hid⟩
  · have hentry : commonMessageHandlerTable i = none := if_neg (hi ▸ hid)
    rw [hentry] at hbody
    cases hbody
    exact ⟨rfl, fun hfalse => nomatch hfalse⟩

theorem inBounds_handleFetchConfig :
    InBounds (s.handleFetchConfig p r) ↔ ∀ serverType,
      p.fetchConfigRequest r.message = some serverType → 0 ≤ serverType ∧ serverType < 0xff := by
  unfold handleFetchConfig
  cases hmsg : p.fetchConfigRequest r.message with
  | none => simp
  | some serverType =>
      have hreply : ∀ path : Option String, InBounds (match path with
          | none => (return (false, s) : Except OutOfRange (Bool × UdpServer))
          | some configPath => return (true, { s with replies := s.replies ++ [.config configPath] })) := by
        intro path
        cases path <;> exact inBounds_pure _
      dsimp only
      rw [inBounds_bind_of_forall _ hreply, loadServerConfig,
        inBounds_bind_of_forall _ fun _ => inBounds_pure _, inBounds_checkIndex]
      simp

theorem inBounds_handleFetchServerAddress :
    InBounds (s.handleFetchServerAddress p r) ↔ ∀ serverType,
      p.fetchServerRequest r.message = some serverType →
        0 ≤ serverType ∧ serverType < ServerTypeId.totalCount := by
  unfold handleFetchServerAddress
  cases hmsg : p.fetchServerRequest r.message with
  | none => simp
  | some serverType =>
      have hreply : ∀ info : IPAddress, InBounds (if info.port = 0
          then (return (false, s) : Except OutOfRange (Bool × UdpServer))
          else return (true, { s with replies := s.replies ++ [.server serverType info] })) := by
        intro info
        split_ifs <;> exact inBounds_pure _
      dsimp only
      rw [inBounds_bind_of_forall _ hreply, getServer,
        inBounds_bind_of_forall _ fun _ => inBounds_pure _, inBounds_checkIndex]
      simp

/-- The handlers of the router. -/
theorem inBounds_routerHandleMessage (hheader : r.header < 0x80) :
    InBounds (s.routerHandleMessage p r) ↔
      (r.messageId = MessageId.fetchConfig → ∀ serverType,
        p.fetchConfigRequest r.message = some serverType → 0 ≤ serverType ∧ serverType < 0xff) ∧
      (r.messageId = MessageId.fetchServerAddress → ∀ serverType,
        p.fetchServerRequest r.message = some serverType →
          0 ≤ serverType ∧ serverType < ServerTypeId.totalCount) := by
  obtain ⟨i, hi⟩ := (inBounds_messageId r).mpr hheader
  rw [← inBounds_handleFetchConfig p s r, ← inBounds_handleFetchServerAddress p s r,
    routerHandleMessage, hi]
  rw [checkIndex_eq_ok_iff] at hi
  show InBounds (match routerMessageHandlerTable i with
    | some .fetchConfig => s.handleFetchConfig p r
    | some .fetchServerAddress => s.handleFetchServerAddress p r
    | none => return (false, s)) ↔ _
  by_cases hconfig : r.messageId = MessageId.fetchConfig
  · have hentry : routerMessageHandlerTable i = some .fetchConfig := if_pos (hi ▸ hconfig)
    have hne : ¬ MessageId.fetchConfig = MessageId.fetchServerAddress := by decide
    rw [hentry, hconfig]
    simp [hne]
  · by_cases haddress : r.messageId = MessageId.fetchServerAddress
    · have hentry : routerMessageHandlerTable i = some .fetchServerAddress :=
        (if_neg (hi ▸ hconfig)).trans (if_pos (hi ▸ haddress))
      have hne : ¬ MessageId.fetchServerAddress = MessageId.fetchConfig := by decide
      rw [hentry, haddress]
      simp [hne]
    · have hentry : routerMessageHandlerTable i = none :=
        (if_neg (hi ▸ hconfig)).trans (if_neg (hi ▸ haddress))
      rw [hentry]
      simp [hconfig, haddress]

/-- The handlers of the other applications read no table. -/
theorem inBounds_appHandleMessage (hheader : r.header < 0x80) :
    InBounds (s.appHandleMessage p r) ↔
      (s.app = .router → InBounds (s.routerHandleMessage p r)) := by
  unfold appHandleMessage
  cases s.app with
  | router => simp
  | game =>
      have hgame : InBounds (s.gameHandleMessage r) := by
        rw [gameHandleMessage, inBounds_checkIndex_bind, inBounds_messageId]
        refine ⟨hheader, fun i _ => ?_⟩
        cases gameMessageHandlerTable i <;> exact inBounds_pure _
      simpa using hgame
  | chat =>
      have hchat : InBounds (s.chatHandleMessage r) := by
        unfold chatHandleMessage
        split_ifs <;> exact inBounds_pure _
      simpa using hchat
  | login =>
      have hlogin : InBounds (s.loginHandleMessage r) := by
        unfold loginHandleMessage
        split_ifs <;> exact inBounds_pure _
      simpa using hlogin

/-- Handling a message stays within every table exactly if its first byte is below 0x80 and the server
type it carries fits the table that the handler of its id indexes. -/
theorem inBounds_handleMessage : InBounds (s.handleMessage p r) ↔ s.FitsTables p r := by
  rw [handleMessage, inBounds_bind, inBounds_handleCommonMessage]
  have happ : ∀ s' : UdpServer, s'.app = s.app → r.header < 0x80 →
      (InBounds (s'.appHandleMessage p r) ↔ (s.app = .router →
        (r.messageId = MessageId.fetchConfig → ∀ serverType,
          p.fetchConfigRequest r.message = some serverType → 0 ≤ serverType ∧ serverType < 0xff) ∧
        (r.messageId = MessageId.fetchServerAddress → ∀ serverType,
          p.fetchServerRequest r.message = some serverType →
            0 ≤ serverType ∧ serverType < ServerTypeId.totalCount))) := by
    intro s' hs' hheader
    rw [inBounds_appHandleMessage p s' r hheader, inBounds_routerHandleMessage p s' r hheader, hs']
  constructor
  · rintro ⟨⟨hheader, hannounced⟩, hrest⟩
    obtain ⟨⟨common, s'⟩, hcommon⟩ := (inBounds_handleCommonMessage p s r).mpr ⟨hheader, hannounced⟩
    obtain ⟨hs', hended⟩ := handleCommonMessage_spec p s r hcommon
    have hafter := hrest _ hcommon
    dsimp only at hafter
    by_cases hsuccess : common.getD true = false
    · have hid := hended hsuccess
      refine ⟨hheader, hannounced, fun _ hconfig => ?_, fun _ haddress => ?_⟩
      · exact absurd (hid.symm.trans hconfig) (by decide)
      · exact absurd (hid.symm.trans haddress) (by decide)
    · rw [if_neg hsuccess, inBounds_bind_of_forall _ fun _ => inBounds_pure _, happ s' hs' hheader]
        at hafter
      exact ⟨hheader, hannounced, fun hr => (hafter hr).1, fun hr => (hafter hr).2⟩
  · rintro ⟨hheader, hannounced, hconfig, haddress⟩
    refine ⟨⟨hheader, hannounced⟩, fun ⟨common, s'⟩ hcommon => ?_⟩
    obtain ⟨hs', -⟩ := handleCommonMessage_spec p s r hcommon
    dsimp only
    split_ifs with hsuccess
    · exact inBounds_pure _
    · rw [inBounds_bind_of_forall _ fun _ => inBounds_pure _, happ s' hs' hheader]
      exact fun hr => ⟨hconfig hr, haddress hr⟩

theorem routerHandleMessage_app {handled : Bool} {s' : UdpServer}
    (h : s.routerHandleMessage p r = .ok (handled, s')) : s'.app = s.app := by
  obtain ⟨i, -, hbody⟩ := bind_eq_ok.mp h
  cases hentry : routerMessageHandlerTable i with
  | none =>
      rw [hentry] at hbody
      cases hbody
      rfl
  | some handler =>
      rw [hentry] at hbody
      cases handler with
      | fetchConfig =>
          dsimp only at hbody
          unfold handleFetchConfig at hbody
          split at hbody
          · cases hbody
            rfl
          · obtain ⟨path, -, hpath⟩ := bind_eq_ok.mp hbody
            cases path <;> cases hpath <;> rfl
      | fetchServerAddress =>
          dsimp only at hbody
          unfold handleFetchServerAddress at hbody
          split at hbody
          · cases hbody
            rfl
          · obtain ⟨info, -, hinfo⟩ := bind_eq_ok.mp hbody
            split_ifs at hinfo <;> cases hinfo <;> rfl

theorem appHandleMessage_app {handled : Bool} {s' : UdpServer}
    (h : s.appHandleMessage p r = .ok (handled, s')) : s'.app = s.app := by
  unfold appHandleMessage at h
  split at h
  · obtain ⟨i, -, hbody⟩ := bind_eq_ok.mp h
    cases hentry : gameMessageHandlerTable i <;> rw [hentry] at hbody <;> cases hbody <;> rfl
  · exact routerHandleMessage_app p s r h
  · unfold chatHandleMessage at h
    split_ifs at h <;> cases h <;> rfl
  · unfold loginHandleMessage at h
    split_ifs at h <;> cases h <;> rfl

/-- A message does not change which application a server runs. -/
theorem handleMessage_app {handled : Bool} {s' : UdpServer}
    (h : s.handleMessage p r = .ok (handled, s')) : s'.app = s.app := by
  obtain ⟨⟨common, t⟩, hcommon, hrest⟩ := bind_eq_ok.mp h
  obtain ⟨ht, -⟩ := handleCommonMessage_spec p s r hcommon
  dsimp only at hrest
  split_ifs at hrest with hsuccess
  · cases hrest
    exact ht
  · obtain ⟨⟨success, t'⟩, ht', hresult⟩ := bind_eq_ok.mp hrest
    cases hresult
    exact (appHandleMessage_app p t r ht').trans ht

/-- **Datagrams.** The event loop of a server stays within every table exactly if each datagram that
is read does: its first byte is below 0x80, and the server type it carries fits the table that the
handler of its id indexes. -/
theorem inBounds_runEventLoop_iff (datagrams : List (List UInt8)) :
    InBounds (s.runEventLoop p datagrams) ↔
      ∀ datagram ∈ datagrams, ∀ r, MessageRequest.readMessage datagram = some r →
        s.FitsTables p r := by
  induction datagrams generalizing s with
  | nil => simp [runEventLoop]
  | cons datagram datagrams ih =>
      rw [List.forall_mem_cons, runEventLoop]
      cases hread : MessageRequest.readMessage datagram with
      | none => simp [ih]
      | some r =>
          dsimp only
          rw [inBounds_bind, inBounds_handleMessage]
          simp only [Option.some.injEq, forall_eq']
          refine and_congr_right fun hfits => ?_
          obtain ⟨⟨handled, t⟩, ht⟩ := (inBounds_handleMessage p s r).mpr hfits
          have happ := handleMessage_app p s r ht
          have hcongr : ∀ r, t.FitsTables p r ↔ s.FitsTables p r := fun r =>
            ⟨fun h => ⟨h.1, h.2, happ ▸ h.3, happ ▸ h.4⟩, fun h => ⟨h.1, h.2, happ ▸ h.3, happ ▸ h.4⟩⟩
          simp only [← hcongr]
          constructor
          · intro h
            exact (ih t).mp (h _ ht)
          · rintro h ⟨handled', t'⟩ ht'
            cases ht.symm.trans ht'
            exact (ih t).mpr h

/-- `ParseFromArray` for messages that are empty or hold one `server_type` of a single byte. -/
def parseServerType : List UInt8 → Option ServerTypeId
  | [] => some 0
  | [0x08, value] => if value < 0x80 then some value.toNat else none
  | _ => none

def serverTypeParser : MessageParser where
  serverAnnouncement message := (parseServerType message).map fun serverType => ⟨serverType, {}⟩
  fetchConfigRequest := parseServerType
  fetchServerRequest := parseServerType

/-- A first byte of 0x80 indexes the common handlers at -128; an announcement of the server type 4 is
stored behind the table of the servers, and a request for it is read from there. -/
theorem not_inBounds_runEventLoop :
    ¬ InBounds (runEventLoop serverTypeParser { app := .game } [[0x80]]) ∧
    ¬ InBounds (runEventLoop serverTypeParser { app := .chat } [[0x02, 0x08, 0x04]]) ∧
    ¬ InBounds (runEventLoop serverTypeParser { app := .router } [[0x05, 0x08, 0x04]]) := by
  decide

end UdpServer

end Mmocraft.Net
