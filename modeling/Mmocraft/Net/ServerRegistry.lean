/-
# Mmocraft.Net.ServerRegistry -- how the servers find each other

Every server announces its address to the router, and the router hands addresses out to whoever asks for
one.  Announcements are single datagrams; a request is repeated from a socket of its own until something
arrives there.  Datagrams are lost, repeated and overtaken, and no answer says which request it belongs to.

The parties are the router and any number of other servers, the network is the set of all datagrams that
were ever sent, of which any can be delivered at any time.  An entry of a table is empty or an address that a
server of its type announced, provided that a socket is not opened at an address that the network still has
datagrams of: an answer to an earlier request is taken for the answer to a later one.  A port of 0 is not
handed out, so that what a server fetched has a port; the router itself registers whatever it is told.

The datagrams are messages here; that `UdpServer::handle_message` does the same to their bytes is
`handleMessage_eq_receive`.
-/
import Mmocraft.Lib.Runs
import Mmocraft.Net.UdpMessage

namespace Mmocraft.Net

open Mmocraft.Lib

/-! ## Messages -/

/-- The message ids with handlers that no server table is behind. -/
inductive OtherId where
  | chatCommand
  | packetHandshake
  | playerLogout
  deriving DecidableEq, Repr

def OtherId.toInt : OtherId → Int
  | .chatCommand => MessageId.chatCommand
  | .packetHandshake => MessageId.packetHandshake
  | .playerLogout => MessageId.playerLogout

/-- What a datagram between two servers holds. -/
inductive Message where
  | serverAnnouncement (msg : ServerAnnouncement)
  | fetchServerRequest (serverType : ServerTypeId)
  | fetchServerResponse (serverType : ServerTypeId) (serverInfo : IPAddress)
  | other (id : OtherId) (message : List UInt8)
  deriving DecidableEq, Repr

/-- The handler that an application has for another id. -/
def AppServer.detachedHandler : AppServer → OtherId → Option DetachedHandler
  | .game, .packetHandshake => some .handshakeResponseMessage
  | .chat, .chatCommand => some .chatCommand
  | .login, .packetHandshake => some .handshakePacket
  | .login, .playerLogout => some .playerLogoutMessage
  | _, _ => none

namespace UdpServer

/-- `handle_fetch_server_address`, once the request is parsed. -/
def answerFetchServer (s : UdpServer) (serverType : ServerTypeId) : Except OutOfRange (Bool × UdpServer) := do
  let info ← s.getServer serverType
  if info.port = 0 then return (false, s)
  else return (true, { s with replies := s.replies ++ [.server serverType info] })

/-- A message is given to a coroutine. -/
def startDetached (s : UdpServer) (handler : DetachedHandler) (message : List UInt8) : UdpServer :=
  { s with started := s.started ++ [(handler, message)] }

/-- `handle_message`.  A response has the id of its request, and its type stands where that of a request
does. -/
def receive (s : UdpServer) : Message → Except OutOfRange (Bool × UdpServer)
  | .serverAnnouncement msg => do
      let s ← s.registerServer msg.serverType msg.serverInfo
      return (true, s)
  | .fetchServerRequest serverType | .fetchServerResponse serverType _ =>
      if s.app = .router then s.answerFetchServer serverType else return (false, s)
  | .other id message =>
      match s.app.detachedHandler id with
      | some handler => return (true, s.startDetached handler message)
      | none => return (false, s)

/-- The bytes of a request are a message. -/
def Carries (p : MessageParser) (r : MessageRequest) : Message → Prop
  | .serverAnnouncement msg =>
      r.messageId = MessageId.serverAnnouncement ∧ p.serverAnnouncement r.message = some msg
  | .fetchServerRequest serverType | .fetchServerResponse serverType _ =>
      r.messageId = MessageId.fetchServerAddress ∧ p.fetchServerRequest r.message = some serverType
  | .other id message => r.messageId = id.toInt ∧ r.message = message

/-- A message that is not for every server goes to the handler of the application. -/
theorem handleMessage_of_uncommon (p : MessageParser) (s : UdpServer) (r : MessageRequest)
    (hcommon : s.handleCommonMessage p r = .ok (none, s)) :
    s.handleMessage p r = s.appHandleMessage p r := by
  rw [handleMessage, hcommon]
  show (s.appHandleMessage p r >>= _) = _
  cases s.appHandleMessage p r with
  | error => rfl
  | ok result =>
      obtain ⟨handled, t⟩ := result
      show Except.ok (handled || false, t) = _
      rw [Bool.or_false]

/-- A request for an address, once its text is parsed. -/
theorem handleMessage_fetchServer (p : MessageParser) (s : UdpServer) (r : MessageRequest)
    {serverType : ServerTypeId} (hid : r.messageId = MessageId.fetchServerAddress)
    (hparse : p.fetchServerRequest r.message = some serverType) :
    s.handleMessage p r = if s.app = .router then s.answerFetchServer serverType else return (false, s) := by
  rw [handleMessage_of_uncommon p s r (by rw [handleCommonMessage, hid]; rfl)]
  unfold appHandleMessage
  cases s.app with
  | game =>
      rw [gameHandleMessage, hid]
      rfl
  | router =>
      rw [routerHandleMessage, hid]
      show s.handleFetchServerAddress p r = _
      rw [handleFetchServerAddress, hparse]
      rfl
  | chat => exact if_neg (hid ▸ by decide)
  | login => exact (if_neg (hid ▸ by decide)).trans (if_neg (hid ▸ by decide))

/-- **A datagram is handled as its message.** -/
theorem handleMessage_eq_receive (p : MessageParser) (s : UdpServer) (r : MessageRequest) {m : Message}
    (h : Carries p r m) : s.handleMessage p r = s.receive m := by
  cases m with
  | serverAnnouncement msg =>
      obtain ⟨hid, hparse⟩ := h
      have hcommon : s.handleCommonMessage p r = do
          let s ← s.registerServer msg.serverType msg.serverInfo
          return (some true, s) := by
        rw [handleCommonMessage, hid]
        show (s.handleServerAnnouncement p r >>= _) = _
        rw [handleServerAnnouncement, hparse]
        dsimp only
        cases s.registerServer msg.serverType msg.serverInfo <;> rfl
      rw [handleMessage, hcommon, receive]
      cases s.registerServer msg.serverType msg.serverInfo with
      | error => rfl
      | ok t =>
          have happ : t.appHandleMessage p r = .ok (false, t) := by
            unfold appHandleMessage
            cases t.app with
            | game | router =>
                simp only [gameHandleMessage, routerHandleMessage, hid]
                rfl
            | chat => exact if_neg (hid ▸ by decide)
            | login => exact (if_neg (hid ▸ by decide)).trans (if_neg (hid ▸ by decide))
          show (t.appHandleMessage p r >>= _) = _
          rw [happ]
          rfl
  | fetchServerRequest serverType => exact handleMessage_fetchServer p s r h.1 h.2
  | fetchServerResponse serverType serverInfo => exact handleMessage_fetchServer p s r h.1 h.2
  | other id message =>
      obtain ⟨hid, rfl⟩ := h
      rw [handleMessage_of_uncommon p s r (by rw [handleCommonMessage, hid]; cases id <;> rfl), receive]
      unfold appHandleMessage
      cases s.app with
      | game =>
          rw [gameHandleMessage, hid]
          cases id <;> rfl
      | router =>
          rw [routerHandleMessage, hid]
          cases id <;> rfl
      | chat =>
          rw [chatHandleMessage, hid]
          cases id <;> rfl
      | login =>
          rw [loginHandleMessage, hid]
          cases id <;> rfl

/-- A request that was constructed with a message that fits carries it. -/
theorem carries_new {M : Type} {pb : Protobuf M} (h : pb.Lawful) {m : M}
    (hfits : (pb.encode m).length ≤ messageCapacity) (memory : RequestBuffer) (id : MessageId.Value) :
    (RequestBuffer.new pb memory id m).toRequest.messageId = id.toInt ∧
      pb.parseFromArray (RequestBuffer.new pb memory id m).toRequest.message = some m := by
  have hdata := (memory.reset id.toInt).data_setMessage_of_fits h hfits
  constructor
  · rw [← SendPath.messageId_reset memory id, RequestBuffer.messageId, MessageRequest.messageId,
      MessageRequest.messageId, MessageRequest.header]
    simp only [RequestBuffer.new, hdata, List.head_cons]
  · rw [MessageRequest.message, RequestBuffer.new, hdata]
    exact h.parse_encode m

/-- An announcement, as `UdpMessage` puts it into a datagram. -/
theorem carries_serverAnnouncement {p : MessageParser} {pb : Protobuf ServerAnnouncement} (h : pb.Lawful)
    (hp : p.serverAnnouncement = pb.parseFromArray) {msg : ServerAnnouncement}
    (hfits : (pb.encode msg).length ≤ messageCapacity) (memory : RequestBuffer) :
    Carries p (RequestBuffer.new pb memory .serverAnnouncement msg).toRequest (.serverAnnouncement msg) := by
  rw [Carries, hp]
  exact carries_new h hfits memory .serverAnnouncement

/-- A request. -/
theorem carries_fetchServerRequest {p : MessageParser} {pb : Protobuf ServerTypeId} (h : pb.Lawful)
    (hp : p.fetchServerRequest = pb.parseFromArray) {serverType : ServerTypeId}
    (hfits : (pb.encode serverType).length ≤ messageCapacity) (memory : RequestBuffer) :
    Carries p (RequestBuffer.new pb memory .fetchServerAddress serverType).toRequest
      (.fetchServerRequest serverType) := by
  rw [Carries, hp]
  exact carries_new h hfits memory .fetchServerAddress

end UdpServer

/-! ## The system

A datagram carries where it comes from and where it goes, and stays in flight for ever: one that is lost is
never delivered, one that is repeated is delivered again. A fetch is the loop of `send_message_reliably`,
one round at a time.
-/

/-- The entry of `_servers` that an application announces itself for. -/
def AppServer.serverType : AppServer → Fin ServerTypeId.totalCount
  | .game => ⟨0, by decide⟩
  | .router => ⟨1, by decide⟩
  | .chat => ⟨2, by decide⟩
  | .login => ⟨3, by decide⟩

/-- An enumerator as it stands in a message. -/
def ServerTypeId.ofFin (t : Fin ServerTypeId.totalCount) : ServerTypeId := (t : Nat)

/-- How the servers are configured.  Two sockets are not bound to one address. -/
structure ServerConfig where
  routerAddress : IPAddress
  app : Nat → AppServer
  address : Nat → IPAddress
  app_ne : ∀ i, app i ≠ .router
  address_ne : ∀ i, address i ≠ routerAddress

/-- A datagram that was sent. -/
structure Datagram where
  sender : IPAddress
  target : IPAddress
  message : Message
  deriving DecidableEq, Repr

/-- A `send_message_reliably` of `fetch_server_address`. -/
structure Fetch where
  serverType : Fin ServerTypeId.totalCount
  /-- The address of `ephemeral_sock`. -/
  socket : IPAddress
  /-- The counter `i` of the loop. -/
  retries : Nat
  /-- The request was sent in this round, and `recvfrom` waits. -/
  waiting : Bool := false
  deriving DecidableEq, Repr

/-- A server other than the router. -/
structure Node where
  core : UdpServer
  fetch : Option Fetch := none

/-- The servers and all datagrams that were sent. The network has no order and no memory of what was
delivered: any datagram of `flight` can be delivered next, and again. -/
structure Registry where
  router : UdpServer
  nodes : Nat → Node
  flight : List Datagram := []
  /-- A table was accessed out of its range. -/
  fault : Bool := false

inductive RegistryEvent where
  /-- `RouteServer::serve_forever` registers the router itself. -/
  | registerRouter
  /-- `announce_server` of a server. -/
  | announce (i : Nat)
  /-- `send_to` with another message. -/
  | sendTo (i : Nat) (serverType : Fin ServerTypeId.totalCount) (id : OtherId) (message : List UInt8)
  /-- `fetch_server_address` opens its socket. -/
  | fetch (i : Nat) (serverType : Fin ServerTypeId.totalCount) (socket : IPAddress) (retryCount : Nat)
  /-- A round of the loop sends the request, or fails to. -/
  | flushSend (i : Nat) (sent : Bool)
  /-- `recvfrom` gets a datagram. -/
  | readMessage (i k : Nat)
  /-- `recvfrom` fails, or waited too long. -/
  | timeout (i : Nat)
  /-- A datagram arrives at the router. -/
  | deliverRouter (k : Nat)
  /-- A datagram arrives at another server. -/
  | deliver (k i : Nat)
  deriving DecidableEq, Repr

/-- What `ParseFromArray` of a `FetchServerResponse` finds in the bytes of a message: an announcement has
the same fields, a request the first of them. -/
def Message.serverInfo (parse : List UInt8 → Option IPAddress) : Message → Option IPAddress
  | .serverAnnouncement msg => some msg.serverInfo
  | .fetchServerRequest _ => some {}
  | .fetchServerResponse _ serverInfo => some serverInfo
  | .other _ message => parse message

/-- The type that a message asks the router for. -/
def Message.askedFor : Message → Option ServerTypeId
  | .fetchServerRequest t | .fetchServerResponse t _ => some t
  | _ => none

/-- The message that a reply is sent as; configurations are replies to other requests. -/
def RouterReply.message? : RouterReply → Option Message
  | .server serverType serverInfo => some (.fetchServerResponse serverType serverInfo)
  | .config _ => none

namespace Registry

variable (c : ServerConfig)

/-- The router as it is constructed, and the other servers after `register_server` of the router. -/
def init : Registry where
  router := { app := .router }
  nodes i := { core := { app := c.app i
                         servers := Function.update (fun _ => {}) AppServer.router.serverType c.routerAddress } }

def updateNode (s : Registry) (i : Nat) (f : Node → Node) : Registry :=
  { s with nodes := Function.update s.nodes i (f (s.nodes i)) }

def setFetch (s : Registry) (i : Nat) (fetch : Option Fetch) : Registry :=
  s.updateNode i fun node => { node with fetch := fetch }

def send (s : Registry) (d : Datagram) : Registry := { s with flight := s.flight ++ [d] }

/-- The entry of a server's table. -/
def entry (s : Registry) (i : Nat) (t : Fin ServerTypeId.totalCount) : IPAddress := (s.nodes i).core.servers t

/-- `register_server` at a server. -/
def register (s : Registry) (i : Nat) (t : Fin ServerTypeId.totalCount) (info : IPAddress) : Registry :=
  match (s.nodes i).core.registerServer (.ofFin t) info with
  | .ok core => s.updateNode i fun node => { node with core := core }
  | .error _ => { s with fault := true }

/-- A round of `send_message_reliably` ends without a datagram.  After the last one the default response
is what is parsed, and registered. -/
def failRound (s : Registry) (i : Nat) (f : Fetch) : Registry :=
  if f.retries = 0 then (s.register i f.serverType {}).setFetch i none
  else s.setFetch i (some { f with retries := f.retries - 1, waiting := false })

/-- The rest of `fetch_server_address`. -/
def finishFetch (s : Registry) (i : Nat) (f : Fetch) (info : Option IPAddress) : Registry :=
  match info with
  | none => s.setFetch i none
  | some info => (s.register i f.serverType info).setFetch i none

/-- `handle_message` at the router, with the replies it sends. -/
def handleAtRouter (s : Registry) (d : Datagram) : Registry :=
  match s.router.receive d.message with
  | .error _ => { s with fault := true }
  | .ok (_, router) =>
      let replies := (router.replies.drop s.router.replies.length).filterMap RouterReply.message?
      { s with
        router := router
        flight := s.flight ++ replies.map fun message => ⟨c.routerAddress, d.sender, message⟩ }

/-- `handle_message` at another server. -/
def handleAtNode (s : Registry) (d : Datagram) (i : Nat) : Registry :=
  match (s.nodes i).core.receive d.message with
  | .error _ => { s with fault := true }
  | .ok (_, core) => s.updateNode i fun node => { node with core := core }

/-- One event.  `GameServer::initialize` fetches the addresses of the login server and the chat server; no
server fetches that of the router. -/
def step (parse : List UInt8 → Option IPAddress) (s : Registry) : RegistryEvent → Option Registry
  | .registerRouter =>
      match s.router.registerServer (.ofFin AppServer.router.serverType) c.routerAddress with
      | .ok router => some { s with router := router }
      | .error _ => some { s with fault := true }
  | .announce i =>
      let msg : ServerAnnouncement := ⟨.ofFin (c.app i).serverType, c.address i⟩
      some (s.send ⟨c.address i, s.entry i AppServer.router.serverType, .serverAnnouncement msg⟩)
  | .sendTo i t id message => some (s.send ⟨c.address i, s.entry i t, .other id message⟩)
  | .fetch i t socket retryCount =>
      if (s.nodes i).fetch = none ∧ t ≠ AppServer.router.serverType then
        some (s.setFetch i (some { serverType := t, socket := socket, retries := retryCount }))
      else none
  | .flushSend i sent =>
      match (s.nodes i).fetch with
      | none => none
      | some f =>
          if f.waiting then none
          else if sent then
            let target := s.entry i AppServer.router.serverType
            some ((s.setFetch i (some { f with waiting := true })).send
              ⟨f.socket, target, .fetchServerRequest (.ofFin f.serverType)⟩)
          else some (s.failRound i f)
  | .readMessage i k =>
      match (s.nodes i).fetch, s.flight[k]? with
      | some f, some d =>
          if f.waiting ∧ d.target = f.socket then some (s.finishFetch i f (d.message.serverInfo parse))
          else none
      | _, _ => none
  | .timeout i =>
      match (s.nodes i).fetch with
      | some f => if f.waiting then some (s.failRound i f) else none
      | none => none
  | .deliverRouter k =>
      match s.flight[k]? with
      | some d => if d.target = c.routerAddress then some (s.handleAtRouter c d) else none
      | none => none
  | .deliver k i =>
      match s.flight[k]? with
      | some d => if d.target = c.address i then some (s.handleAtNode d i) else none
      | none => none

/-- A socket is opened at an address of its own: no server is there, no other fetch waits there, and no
datagram of the network names it. -/
structure FreshSocket (s : Registry) (socket : IPAddress) : Prop where
  ne_default : socket ≠ {}
  ne_router : socket ≠ c.routerAddress
  ne_address : ∀ i, socket ≠ c.address i
  ne_fetch : ∀ i f, (s.nodes i).fetch = some f → f.socket ≠ socket
  ne_datagram : ∀ d ∈ s.flight, d.sender ≠ socket ∧ d.target ≠ socket

/-- Every fetch opens such a socket. -/
def OpensFresh (s : Registry) : RegistryEvent → Prop
  | .fetch _ _ socket _ => FreshSocket c s socket
  | _ => True

/-- A server of the type announced the address, or it is that of the router. -/
def Genuine (s : Registry) (t : Fin ServerTypeId.totalCount) (info : IPAddress) : Prop :=
  (t = AppServer.router.serverType ∧ info = c.routerAddress) ∨
    ∃ i, (c.app i).serverType = t ∧ c.address i = info ∧
      ∃ d ∈ s.flight, d.message = .serverAnnouncement ⟨.ofFin t, info⟩

/-! ## The invariant

An address is genuine if a server of the type has announced it, which is a fact about the datagrams and so
never ceases to hold. What has to be shown of each event is that it only registers such addresses, and that
an answer at the socket of a fetch is one to that fetch.
-/

/-- What is true of every datagram of the network. The first three are about what a message says, the last
two about the socket of a fetch, which gets nothing but answers and sends nothing but requests. -/
structure DatagramOk (s : Registry) (d : Datagram) : Prop where
  announcement : ∀ msg, d.message = .serverAnnouncement msg →
    d.target = c.routerAddress ∧ ∃ i, msg = ⟨.ofFin (c.app i).serverType, c.address i⟩
  request : ∀ t, d.message = .fetchServerRequest t → ∃ t', t = .ofFin t'
  response : ∀ t info, d.message = .fetchServerResponse t info →
    ∃ t', t = .ofFin t' ∧ info.port ≠ 0 ∧ Genuine c s t' info
  /-- What is sent to the socket of a fetch answers its request. -/
  target_socket : ∀ i f, (s.nodes i).fetch = some f → d.target = f.socket →
    ∃ info, d.message = .fetchServerResponse (.ofFin f.serverType) info
  sender_socket : ∀ i f, (s.nodes i).fetch = some f → d.sender = f.socket →
    d.message = .fetchServerRequest (.ofFin f.serverType)

/-- What is true of every fetch. Its socket is nobody else's. -/
structure FetchOk (s : Registry) (i : Nat) (f : Fetch) : Prop where
  type_ne : f.serverType ≠ AppServer.router.serverType
  ne_default : f.socket ≠ {}
  ne_router : f.socket ≠ c.routerAddress
  ne_address : ∀ j, f.socket ≠ c.address j
  ne_fetch : ∀ j g, j ≠ i → (s.nodes j).fetch = some g → g.socket ≠ f.socket

/-- An entry of a server that is usable, or empty: it was not filled yet, or a later fetch of its type failed
in all rounds, which registers the default. -/
def EntryOk (s : Registry) (t : Fin ServerTypeId.totalCount) (info : IPAddress) : Prop :=
  info = {} ∨ (info.port ≠ 0 ∧ Genuine c s t info)

structure Ok (s : Registry) : Prop where
  fault : s.fault = false
  app : s.router.app = .router
  router : ∀ t, s.router.servers t = {} ∨ Genuine c s t (s.router.servers t)
  node_app : ∀ i, (s.nodes i).core.app = c.app i
  entry_router : ∀ i, s.entry i AppServer.router.serverType = c.routerAddress
  entry : ∀ i t, t ≠ AppServer.router.serverType → EntryOk c s t (s.entry i t)
  flight : ∀ d ∈ s.flight, DatagramOk c s d
  fetch : ∀ i f, (s.nodes i).fetch = some f → FetchOk c s i f

/-- What an event can do, but for the opening of a socket. Entries become right ones, datagrams are added,
and fetches end or go on with the same socket. -/
structure Grows (s s' : Registry) : Prop where
  fault : s'.fault = s.fault
  app : s'.router.app = s.router.app
  router : ∀ t, s'.router.servers t = s.router.servers t ∨ Genuine c s t (s'.router.servers t)
  node_app : ∀ i, (s'.nodes i).core.app = (s.nodes i).core.app
  entry : ∀ i t, s'.entry i t = s.entry i t ∨
    (t ≠ AppServer.router.serverType ∧ EntryOk c s t (s'.entry i t))
  flight : s.flight ⊆ s'.flight
  datagram : ∀ d ∈ s'.flight, d ∈ s.flight ∨ DatagramOk c s d
  fetch : ∀ i f', (s'.nodes i).fetch = some f' →
    ∃ f, (s.nodes i).fetch = some f ∧ f.socket = f'.socket ∧ f.serverType = f'.serverType

variable {c} {s s' : Registry}

/-- What was announced stays announced. -/
theorem Genuine.mono {t : Fin ServerTypeId.totalCount} {info : IPAddress} (h : Genuine c s t info)
    (hflight : s.flight ⊆ s'.flight) : Genuine c s' t info := by
  rcases h with hrouter | ⟨i, ht, hinfo, d, hd, hmessage⟩
  · exact .inl hrouter
  · exact .inr ⟨i, ht, hinfo, d, hflight hd, hmessage⟩

/-- An entry stays right while datagrams are sent. -/
theorem EntryOk.mono {t : Fin ServerTypeId.totalCount} {info : IPAddress} (h : EntryOk c s t info)
    (hflight : s.flight ⊆ s'.flight) : EntryOk c s' t info :=
  h.imp_right fun hused => ⟨hused.1, hused.2.mono hflight⟩

/-- And so does a datagram. -/
theorem DatagramOk.grows {d : Datagram} (h : DatagramOk c s d) (hgrows : Grows c s s') :
    DatagramOk c s' d where
  announcement := h.announcement
  request := h.request
  response t info hmessage := by
    obtain ⟨t', ht, hport, hgenuine⟩ := h.response t info hmessage
    exact ⟨t', ht, hport, hgenuine.mono hgrows.flight⟩
  target_socket i f' hf' htarget := by
    obtain ⟨f, hf, hsocket, htype⟩ := hgrows.fetch i f' hf'
    rw [← htype]
    exact h.target_socket i f hf (htarget.trans hsocket.symm)
  sender_socket i f' hf' hsender := by
    obtain ⟨f, hf, hsocket, htype⟩ := hgrows.fetch i f' hf'
    rw [← htype]
    exact h.sender_socket i f hf (hsender.trans hsocket.symm)

/-- And a fetch that goes on. -/
theorem FetchOk.grows {i : Nat} {f f' : Fetch} (h : FetchOk c s i f) (hgrows : Grows c s s')
    (hsocket : f.socket = f'.socket) (htype : f.serverType = f'.serverType) : FetchOk c s' i f' where
  type_ne := htype ▸ h.type_ne
  ne_default := hsocket ▸ h.ne_default
  ne_router := hsocket ▸ h.ne_router
  ne_address j := hsocket ▸ h.ne_address j
  ne_fetch j g' hj hg' := by
    obtain ⟨g, hg, hgsocket, -⟩ := hgrows.fetch j g' hg'
    rw [← hgsocket, ← hsocket]
    exact h.ne_fetch j g hj hg

/-- **The invariant survives.** -/
theorem Ok.grows (h : Ok c s) (hgrows : Grows c s s') : Ok c s' where
  fault := hgrows.fault.trans h.fault
  app := hgrows.app.trans h.app
  router t := by
    rcases hgrows.router t with heq | hgenuine
    · rw [heq]
      exact (h.router t).imp_right (·.mono hgrows.flight)
    · exact .inr (hgenuine.mono hgrows.flight)
  node_app i := (hgrows.node_app i).trans (h.node_app i)
  entry_router i := by
    rcases hgrows.entry i AppServer.router.serverType with heq | ⟨hne, -⟩
    · exact heq.trans (h.entry_router i)
    · exact absurd rfl hne
  entry i t ht := by
    rcases hgrows.entry i t with heq | ⟨-, hentry⟩
    · rw [heq]
      exact (h.entry i t ht).mono hgrows.flight
    · exact hentry.mono hgrows.flight
  flight d hd := by
    rcases hgrows.datagram d hd with hold | hnew
    · exact (h.flight d hold).grows hgrows
    · exact hnew.grows hgrows
  fetch i f' hf' := by
    obtain ⟨f, hf, hsocket, htype⟩ := hgrows.fetch i f' hf'
    exact (h.fetch i f hf).grows hgrows hsocket htype

/-! ## What the events do

Tables change only by `register`, and datagrams are only added (`Grows`). The lemmas say for each event
which address it registers, and why it is right.
-/

/-- The check of a server type lets the types of servers pass. -/
theorem checkIndex_ofFin (t : Fin ServerTypeId.totalCount) :
    checkIndex ServerTypeId.totalCount (ServerTypeId.ofFin t) = .ok t := checkIndex_eq_ok_iff.mpr rfl

/-- Registering writes one entry. -/
theorem registerServer_ofFin (core : UdpServer) (t : Fin ServerTypeId.totalCount) (info : IPAddress) :
    core.registerServer (.ofFin t) info = .ok { core with servers := Function.update core.servers t info } := by
  rw [UdpServer.registerServer, checkIndex_ofFin]
  rfl

theorem register_eq (s : Registry) (i : Nat) (t : Fin ServerTypeId.totalCount) (info : IPAddress) :
    s.register i t info = s.updateNode i fun node =>
      { node with core := { node.core with servers := Function.update node.core.servers t info } } := by
  rw [register, registerServer_ofFin]
  rfl

/-- A change at one server: its application stays, its entries stay or become good, and its fetch stays,
ends or goes on. -/
theorem Grows.updateNode (i : Nat) {f : Node → Node} (happ : (f (s.nodes i)).core.app = (s.nodes i).core.app)
    (hentry : ∀ t, (f (s.nodes i)).core.servers t = s.entry i t ∨
      (t ≠ AppServer.router.serverType ∧ EntryOk c s t ((f (s.nodes i)).core.servers t)))
    (hfetch : ∀ g', (f (s.nodes i)).fetch = some g' →
      ∃ g, (s.nodes i).fetch = some g ∧ g.socket = g'.socket ∧ g.serverType = g'.serverType) :
    Grows c s (s.updateNode i f) where
  fault := rfl
  app := rfl
  router _ := .inl rfl
  node_app j := by
    show (Function.update s.nodes i (f (s.nodes i)) j).core.app = _
    by_cases hj : j = i
    · rw [hj, Function.update_self, happ]
    · rw [Function.update_of_ne hj]
  entry j t := by
    show (Function.update s.nodes i (f (s.nodes i)) j).core.servers t = _ ∨
      (_ ∧ EntryOk c s t ((Function.update s.nodes i (f (s.nodes i)) j).core.servers t))
    by_cases hj : j = i
    · rw [hj, Function.update_self]
      exact hentry t
    · rw [Function.update_of_ne hj]
      exact .inl rfl
  flight _ hd := hd
  datagram _ hd := .inl hd
  fetch j g' hg' := by
    change (Function.update s.nodes i (f (s.nodes i)) j).fetch = some g' at hg'
    by_cases hj : j = i
    · rw [hj, Function.update_self] at hg'
      rw [hj]
      exact hfetch g' hg'
    · rw [Function.update_of_ne hj] at hg'
      exact ⟨g', hg', rfl, rfl⟩

/-- A fetch ends. -/
theorem Grows.endFetch (s : Registry) (i : Nat) : Grows c s (s.setFetch i none) :=
  .updateNode i rfl (fun _ => .inl rfl) fun _ hg => nomatch hg

/-- A fetch goes on with the same socket and type. -/
theorem Grows.goOn {i : Nat} {f f' : Fetch} (hf : (s.nodes i).fetch = some f)
    (hsocket : f.socket = f'.socket) (htype : f.serverType = f'.serverType) :
    Grows c s (s.setFetch i (some f')) := by
  refine .updateNode i rfl (fun _ => .inl rfl) fun g' hg' => ⟨f, hf, ?_⟩
  obtain rfl := Option.some.inj hg'
  exact ⟨hsocket, htype⟩

/-- An address that is right is registered. -/
theorem Grows.register (i : Nat) {t : Fin ServerTypeId.totalCount} {info : IPAddress}
    (ht : t ≠ AppServer.router.serverType) (hinfo : EntryOk c s t info) : Grows c s (s.register i t info) := by
  rw [register_eq]
  refine .updateNode i rfl (fun t' => ?_) fun g hg => ⟨g, hg, rfl, rfl⟩
  show Function.update (s.nodes i).core.servers t info t' = _ ∨
    (_ ∧ EntryOk c s t' (Function.update (s.nodes i).core.servers t info t'))
  by_cases ht' : t' = t
  · rw [ht', Function.update_self]
    exact .inr ⟨ht, hinfo⟩
  · rw [Function.update_of_ne ht']
    exact .inl rfl

theorem Grows.send {d : Datagram} (hd : DatagramOk c s d) : Grows c s (s.send d) where
  fault := rfl
  app := rfl
  router _ := .inl rfl
  node_app _ := rfl
  entry _ _ := .inl rfl
  flight := List.subset_append_left _ _
  datagram d' hd' := by
    rcases List.mem_append.mp hd' with hold | hnew
    · exact .inl hold
    · rw [List.mem_singleton.mp hnew]
      exact .inr hd
  fetch _ g hg := ⟨g, hg, rfl, rfl⟩

/-- What a server has in its table is not the socket of a fetch. -/
theorem Ok.entry_ne_socket (h : Ok c s) (i : Nat) (t : Fin ServerTypeId.totalCount) {j : Nat} {f : Fetch}
    (hf : (s.nodes j).fetch = some f) : s.entry i t ≠ f.socket := by
  have hfetch := h.fetch j f hf
  by_cases ht : t = AppServer.router.serverType
  · rw [ht, h.entry_router]
    exact hfetch.ne_router.symm
  · rcases h.entry i t ht with hnone | ⟨-, ⟨htype, -⟩ | ⟨k, -, haddress, -⟩⟩
    · rw [hnone]
      exact hfetch.ne_default.symm
    · exact absurd htype ht
    · rw [← haddress]
      exact (hfetch.ne_address k).symm

/-- A message that is sent to an entry of the table and is no request. -/
theorem Ok.datagramOk_entry (h : Ok c s) (i : Nat) (t : Fin ServerTypeId.totalCount) {message : Message}
    (hannouncement : ∀ msg, message = .serverAnnouncement msg → t = AppServer.router.serverType ∧
      msg = ⟨.ofFin (c.app i).serverType, c.address i⟩)
    (hother : ∀ t', message ≠ .fetchServerRequest t' ∧ ∀ info, message ≠ .fetchServerResponse t' info) :
    DatagramOk c s ⟨c.address i, s.entry i t, message⟩ where
  announcement msg hmessage := by
    obtain ⟨rfl, hmsg⟩ := hannouncement msg hmessage
    exact ⟨h.entry_router i, i, hmsg⟩
  request t' hmessage := absurd hmessage (hother t').1
  response t' info hmessage := absurd hmessage ((hother t').2 info)
  target_socket j f hf htarget := absurd htarget (h.entry_ne_socket i t hf)
  sender_socket j f hf hsender := absurd hsender.symm ((h.fetch j f hf).ne_address i)

/-- A server announces its own address. -/
theorem Ok.announce (h : Ok c s) (i : Nat) :
    DatagramOk c s ⟨c.address i, s.entry i AppServer.router.serverType,
      .serverAnnouncement ⟨.ofFin (c.app i).serverType, c.address i⟩⟩ :=
  h.datagramOk_entry i _ (fun _ hmsg => ⟨rfl, (Message.serverAnnouncement.inj hmsg).symm⟩)
    fun _ => ⟨nofun, fun _ => nofun⟩

/-- A fetch gives up, and registers an empty entry. -/
theorem Ok.failRound (h : Ok c s) {i : Nat} {f : Fetch} (hf : (s.nodes i).fetch = some f) :
    Ok c (s.failRound i f) := by
  unfold Registry.failRound
  split_ifs
  · exact (h.grows (.register i (h.fetch i f hf).type_ne (.inl rfl))).grows (.endFetch _ i)
  · exact h.grows (.goOn hf rfl rfl)

/-- What arrives at the socket of a fetch is an answer to it. -/
theorem Ok.finishFetch (h : Ok c s) {i : Nat} {f : Fetch} (hf : (s.nodes i).fetch = some f) {d : Datagram}
    (hd : d ∈ s.flight) (htarget : d.target = f.socket) (parse : List UInt8 → Option IPAddress) :
    Ok c (s.finishFetch i f (d.message.serverInfo parse)) := by
  obtain ⟨info, hmessage⟩ := (h.flight d hd).target_socket i f hf htarget
  obtain ⟨t, ht, hport, hgenuine⟩ := (h.flight d hd).response _ info hmessage
  obtain rfl : f.serverType = t := Fin.ext (Int.ofNat.inj ht)
  rw [hmessage]
  exact (h.grows (.register i (h.fetch i f hf).type_ne (.inr ⟨hport, hgenuine⟩))).grows (.endFetch _ i)

theorem answerFetchServer_ofFin (core : UdpServer) (t : Fin ServerTypeId.totalCount) :
    core.answerFetchServer (.ofFin t) = .ok (if (core.servers t).port = 0 then (false, core)
      else (true, { core with replies := core.replies ++ [.server (.ofFin t) (core.servers t)] })) := by
  rw [UdpServer.answerFetchServer, UdpServer.getServer, checkIndex_ofFin]
  show (if _ then _ else _) = _
  split_ifs <;> rfl

/-- What the router does with a message: it stores an announcement, and answers a request if it has a
usable address. -/
theorem Ok.receive_router (h : Ok c s) {d : Datagram} (hmem : d ∈ s.flight) (hd : DatagramOk c s d) :
    ∃ handled router, s.router.receive d.message = .ok (handled, router) ∧ router.app = .router ∧
      (∀ t, router.servers t = s.router.servers t ∨ Genuine c s t (router.servers t)) ∧
      (router.replies = s.router.replies ∨ ∃ t, d.message.askedFor = some (.ofFin t) ∧
        router.replies = s.router.replies ++ [.server (.ofFin t) (s.router.servers t)] ∧
        (s.router.servers t).port ≠ 0) := by
  have hanswer : ∀ (m : Message) (t : Fin ServerTypeId.totalCount), m.askedFor = some (.ofFin t) →
      ∃ handled router, s.router.receive m = .ok (handled, router) ∧ router.app = .router ∧
        (∀ t, router.servers t = s.router.servers t ∨ Genuine c s t (router.servers t)) ∧
        (router.replies = s.router.replies ∨ ∃ t, m.askedFor = some (.ofFin t) ∧
          router.replies = s.router.replies ++ [.server (.ofFin t) (s.router.servers t)] ∧
          (s.router.servers t).port ≠ 0) := by
    intro m t hm
    have hreceive : s.router.receive m = s.router.answerFetchServer (.ofFin t) := by
      cases m with
      | fetchServerRequest t' | fetchServerResponse t' info =>
          obtain rfl := Option.some.inj hm
          exact if_pos h.app
      | _ => exact nomatch hm
    rw [hreceive, answerFetchServer_ofFin]
    by_cases hport : (s.router.servers t).port = 0
    · exact ⟨_, _, congrArg _ (if_pos hport), h.app, fun _ => .inl rfl, .inl rfl⟩
    · exact ⟨_, _, congrArg _ (if_neg hport), h.app, fun _ => .inl rfl, .inr ⟨t, hm, rfl, hport⟩⟩
  cases hmessage : d.message with
  | serverAnnouncement msg =>
      obtain ⟨-, i, rfl⟩ := hd.announcement msg hmessage
      rw [UdpServer.receive, registerServer_ofFin]
      refine ⟨true, _, rfl, h.app, fun t => ?_, .inl rfl⟩
      show Function.update s.router.servers _ (c.address i) t = _ ∨
        Genuine c s t (Function.update s.router.servers _ (c.address i) t)
      by_cases ht : t = (c.app i).serverType
      · rw [ht, Function.update_self]
        exact .inr (.inr ⟨i, rfl, rfl, d, hmem, hmessage⟩)
      · rw [Function.update_of_ne ht]
        exact .inl rfl
  | fetchServerRequest t =>
      obtain ⟨t', rfl⟩ := hd.request t hmessage
      exact hanswer _ t' rfl
  | fetchServerResponse t info =>
      obtain ⟨t', rfl, -⟩ := hd.response t info hmessage
      exact hanswer _ t' rfl
  | other id message =>
      have hnone : s.router.receive (.other id message) = .ok (false, s.router) := by
        rw [UdpServer.receive, h.app]
        rfl
      exact ⟨false, s.router, hnone, h.app, fun _ => .inl rfl, .inl rfl⟩

/-- An answer of the router. -/
theorem Ok.reply (h : Ok c s) {d : Datagram} (hd : DatagramOk c s d) {t : Fin ServerTypeId.totalCount}
    (hasked : d.message.askedFor = some (.ofFin t)) (hport : (s.router.servers t).port ≠ 0) :
    DatagramOk c s ⟨c.routerAddress, d.sender, .fetchServerResponse (.ofFin t) (s.router.servers t)⟩ where
  announcement _ hmessage := nomatch hmessage
  request _ hmessage := nomatch hmessage
  response t' info hmessage := by
    obtain ⟨rfl, rfl⟩ := Message.fetchServerResponse.inj hmessage
    refine ⟨t, rfl, hport, (h.router t).resolve_left fun hnone => hport ?_⟩
    rw [hnone]
  target_socket i f hf htarget := by
    have hrequest := hd.sender_socket i f hf htarget
    rw [hrequest] at hasked
    obtain htype := Option.some.inj hasked
    exact ⟨_, by rw [htype]⟩
  sender_socket i f hf hsender := absurd hsender.symm (h.fetch i f hf).ne_router

/-- The router registers what it is told, and answers from its table. -/
theorem Ok.handleAtRouter (h : Ok c s) {d : Datagram} (hmem : d ∈ s.flight) : Ok c (s.handleAtRouter c d) := by
  have hd := h.flight d hmem
  obtain ⟨handled, router, hreceive, happ, hservers, hreplies⟩ := h.receive_router hmem hd
  apply h.grows
  rw [Registry.handleAtRouter, hreceive]
  refine ⟨rfl, happ.trans h.app.symm, hservers, fun _ => rfl, fun _ _ => .inl rfl,
    List.subset_append_left _ _, fun d' hd' => ?_, fun _ f hf => ⟨f, hf, rfl, rfl⟩⟩
  rcases List.mem_append.mp hd' with hold | hnew
  · exact .inl hold
  · right
    rcases hreplies with heq | ⟨t, hasked, heq, hport⟩
    · simp [heq] at hnew
    · simp [heq, RouterReply.message?] at hnew
      rw [hnew]
      exact h.reply hd hasked hport

/-- Another server stores no address, since announcements go to the router. -/
theorem Ok.handleAtNode (h : Ok c s) {d : Datagram} (hmem : d ∈ s.flight) {i : Nat}
    (htarget : d.target = c.address i) : Ok c (s.handleAtNode d i) := by
  have hd := h.flight d hmem
  have hreceive : ∃ handled core, (s.nodes i).core.receive d.message = .ok (handled, core) ∧
      core.app = (s.nodes i).core.app ∧ core.servers = (s.nodes i).core.servers := by
    have hne : (s.nodes i).core.app ≠ .router := h.node_app i ▸ c.app_ne i
    cases hmessage : d.message with
    | serverAnnouncement msg =>
        exact absurd (htarget.symm.trans (hd.announcement msg hmessage).1) (c.address_ne i)
    | fetchServerRequest t | fetchServerResponse t info => exact ⟨false, _, if_neg hne, rfl, rfl⟩
    | other id message =>
        rw [UdpServer.receive]
        cases (s.nodes i).core.app.detachedHandler id with
        | none => exact ⟨false, _, rfl, rfl, rfl⟩
        | some handler => exact ⟨true, _, rfl, rfl, rfl⟩
  obtain ⟨handled, core, hreceive, happ, hservers⟩ := hreceive
  apply h.grows
  rw [Registry.handleAtNode, hreceive]
  refine .updateNode i happ (fun t => .inl ?_) fun g hg => ⟨g, hg, rfl, rfl⟩
  exact congrFun hservers t

/-- The table is not touched. -/
theorem setFetch_core (s : Registry) (i : Nat) (fetch : Option Fetch) (j : Nat) :
    ((s.setFetch i fetch).nodes j).core = (s.nodes j).core := by
  show (Function.update s.nodes i _ j).core = _
  by_cases hj : j = i
  · rw [hj, Function.update_self]
  · rw [Function.update_of_ne hj]

/-- The fetches after one was opened. -/
theorem fetch_cases {i j : Nat} {f g : Fetch} (h : ((s.setFetch i (some f)).nodes j).fetch = some g) :
    (j = i ∧ g = f) ∨ (j ≠ i ∧ (s.nodes j).fetch = some g) := by
  change (Function.update s.nodes i { s.nodes i with fetch := some f } j).fetch = some g at h
  by_cases hj : j = i
  · rw [hj, Function.update_self] at h
    exact .inl ⟨hj, (Option.some.inj h).symm⟩
  · rw [Function.update_of_ne hj] at h
    exact .inr ⟨hj, h⟩

/-- A socket is opened at an address of its own. -/
theorem Ok.openSocket (h : Ok c s) (i : Nat) {t : Fin ServerTypeId.totalCount} {socket : IPAddress}
    (ht : t ≠ AppServer.router.serverType) (hfresh : FreshSocket c s socket) (retryCount : Nat) :
    Ok c (s.setFetch i (some { serverType := t, socket := socket, retries := retryCount })) where
  fault := h.fault
  app := h.app
  router := h.router
  node_app j := by
    rw [setFetch_core]
    exact h.node_app j
  entry_router j := by
    rw [Registry.entry, setFetch_core]
    exact h.entry_router j
  entry j t' ht' := by
    rw [Registry.entry, setFetch_core]
    exact h.entry j t' ht'
  flight d hd := by
    have hold := h.flight d hd
    have hsocket := hfresh.ne_datagram d hd
    refine ⟨hold.announcement, hold.request, hold.response, fun j g hg htarget => ?_, fun j g hg hsender => ?_⟩
    · rcases fetch_cases hg with ⟨-, rfl⟩ | ⟨-, hg⟩
      · exact absurd htarget hsocket.2
      · exact hold.target_socket j g hg htarget
    · rcases fetch_cases hg with ⟨-, rfl⟩ | ⟨-, hg⟩
      · exact absurd hsender hsocket.1
      · exact hold.sender_socket j g hg hsender
  fetch j g hg := by
    rcases fetch_cases hg with ⟨rfl, rfl⟩ | ⟨hj, hg⟩
    · refine ⟨ht, hfresh.ne_default, hfresh.ne_router, hfresh.ne_address, fun k f hk hf => ?_⟩
      rcases fetch_cases hf with ⟨rfl, -⟩ | ⟨-, hf⟩
      · exact absurd rfl hk
      · exact hfresh.ne_fetch k f hf
    · have hold := h.fetch j g hg
      refine ⟨hold.type_ne, hold.ne_default, hold.ne_router, hold.ne_address, fun k f hk hf => ?_⟩
      rcases fetch_cases hf with ⟨-, rfl⟩ | ⟨-, hf⟩
      · exact (hfresh.ne_fetch j g hg).symm
      · exact hold.ne_fetch k f hk hf

/-- Tables are empty, except for the address of the router. -/
theorem Ok.init (c : ServerConfig) : Ok c (Registry.init c) where
  fault := rfl
  app := rfl
  router _ := .inl rfl
  node_app _ := rfl
  entry_router _ := by simp [Registry.init, Registry.entry]
  entry _ _ ht := by simp [Registry.init, Registry.entry, EntryOk, ht]
  flight _ hd := absurd hd List.not_mem_nil
  fetch _ _ hf := nomatch hf

/-- A request leaves the socket of its fetch. -/
theorem Ok.request (h : Ok c s) {i : Nat} {f : Fetch} (hf : (s.nodes i).fetch = some f) :
    DatagramOk c s ⟨f.socket, s.entry i AppServer.router.serverType, .fetchServerRequest (.ofFin f.serverType)⟩ where
  announcement _ hmessage := nomatch hmessage
  request t hmessage := ⟨f.serverType, (Message.fetchServerRequest.inj hmessage).symm⟩
  response _ _ hmessage := nomatch hmessage
  target_socket j g hg htarget := absurd htarget (h.entry_ne_socket i _ hg)
  sender_socket j g hg hsender := by
    by_cases hj : j = i
    · subst hj
      obtain rfl := Option.some.inj (hf.symm.trans hg)
      rfl
    · exact absurd hsender.symm ((h.fetch i f hf).ne_fetch j g hj hg)

/-- **One event.** -/
theorem Ok.step (h : Ok c s) {parse : List UInt8 → Option IPAddress} {e : RegistryEvent}
    (hfresh : OpensFresh c s e) (hstep : s.step c parse e = some s') : Ok c s' := by
  cases e with
  | registerRouter =>
      rw [Registry.step, registerServer_ofFin] at hstep
      obtain rfl := Option.some.inj hstep
      apply h.grows
      refine ⟨rfl, rfl, fun t => ?_, fun _ => rfl, fun _ _ => .inl rfl, List.Subset.refl _,
        fun _ hd => .inl hd, fun _ f hf => ⟨f, hf, rfl, rfl⟩⟩
      show Function.update s.router.servers _ c.routerAddress t = _ ∨
        Genuine c s t (Function.update s.router.servers _ c.routerAddress t)
      by_cases ht : t = AppServer.router.serverType
      · rw [ht, Function.update_self]
        exact .inr (.inl ⟨rfl, rfl⟩)
      · rw [Function.update_of_ne ht]
        exact .inl rfl
  | announce i =>
      obtain rfl := Option.some.inj hstep
      exact h.grows (.send (h.announce i))
  | sendTo i t id message =>
      obtain rfl := Option.some.inj hstep
      apply h.grows
      exact .send (h.datagramOk_entry i t (fun _ hmsg => nomatch hmsg) fun _ => ⟨nofun, fun _ => nofun⟩)
  | fetch i t socket retryCount =>
      rw [Registry.step] at hstep
      split_ifs at hstep with hguard
      obtain rfl := Option.some.inj hstep
      exact h.openSocket i hguard.2 hfresh retryCount
  | flushSend i sent =>
      rw [Registry.step] at hstep
      cases hf : (s.nodes i).fetch with
      | none => simp [hf] at hstep
      | some f =>
          simp only [hf] at hstep
          split_ifs at hstep
          · obtain rfl := Option.some.inj hstep
            -- the socket waits from now on, then the request is on its way
            have hwaiting : Grows c s (s.setFetch i (some { f with waiting := true })) := .goOn hf rfl rfl
            exact (h.grows hwaiting).grows (.send ((h.request hf).grows hwaiting))
          · obtain rfl := Option.some.inj hstep
            exact h.failRound hf
  | readMessage i k =>
      rw [Registry.step] at hstep
      cases hf : (s.nodes i).fetch with
      | none => simp [hf] at hstep
      | some f =>
          cases hd : s.flight[k]? with
          | none => simp [hf, hd] at hstep
          | some d =>
              simp only [hf, hd] at hstep
              split_ifs at hstep with hguard
              obtain rfl := Option.some.inj hstep
              exact h.finishFetch hf (List.mem_of_getElem? hd) hguard.2 parse
  | timeout i =>
      rw [Registry.step] at hstep
      cases hf : (s.nodes i).fetch with
      | none => simp [hf] at hstep
      | some f =>
          simp only [hf] at hstep
          split_ifs at hstep
          obtain rfl := Option.some.inj hstep
          exact h.failRound hf
  | deliverRouter k =>
      rw [Registry.step] at hstep
      cases hd : s.flight[k]? with
      | none => simp [hd] at hstep
      | some d =>
          simp only [hd] at hstep
          split_ifs at hstep
          obtain rfl := Option.some.inj hstep
          exact h.handleAtRouter (List.mem_of_getElem? hd)
  | deliver k i =>
      rw [Registry.step] at hstep
      cases hd : s.flight[k]? with
      | none => simp [hd] at hstep
      | some d =>
          simp only [hd] at hstep
          split_ifs at hstep with htarget
          obtain rfl := Option.some.inj hstep
          exact h.handleAtNode (List.mem_of_getElem? hd) htarget

/-! ## Runs -/

/-- **Every address is genuine.** In every run, whatever the network loses, repeats and delays, no table is
accessed out of its range.  An entry of the router that is not empty was announced by a server of its type,
with whatever port; every other server has the address of the router, and an entry of its table that is not
empty was announced by a server of its type and has a port that can be used.  An entry can become empty
again: that is what a fetch leaves whose rounds all fail. -/
theorem addresses_genuine {parse : List UInt8 → Option IPAddress} {es : List RegistryEvent}
    (hfresh : Along (Registry.step c parse) (OpensFresh c) (Registry.init c) es)
    (hrun : run (Registry.step c parse) (Registry.init c) es = some s) :
    s.fault = false ∧ (∀ t, s.router.servers t = {} ∨ Genuine c s t (s.router.servers t)) ∧
      ∀ i, s.entry i AppServer.router.serverType = c.routerAddress ∧
        ∀ t, t ≠ AppServer.router.serverType → s.entry i t = {} ∨
          ((s.entry i t).port ≠ 0 ∧ Genuine c s t (s.entry i t)) := by
  have h : Ok c s :=
    run_invariant_along (fun _ _ _ h hfresh hstep => h.step hfresh hstep) (Ok.init c) hfresh hrun
  exact ⟨h.fault, h.router, fun i => ⟨h.entry_router i, h.entry i⟩⟩

/-- A login server, a chat server, and game servers. -/
def threeServers : ServerConfig where
  routerAddress := { ip := [114], port := 1000 }
  app
    | 0 => .login
    | 1 => .chat
    | _ => .game
  address i := { ip := [115], port := 2000 + i }
  app_ne i := by
    split <;> decide
  address_ne i := by simp

/-- A game server asks for the login server before that has announced itself. -/
def fetchLogin : List RegistryEvent :=
  [.fetch 2 AppServer.login.serverType ⟨[116], 50000⟩ 9, .registerRouter, .flushSend 2 true] ++
  [.deliverRouter 0, .timeout 2, .announce 0, .deliverRouter 1, .flushSend 2 true, .deliverRouter 2] ++
  [.readMessage 2 3]

theorem addresses_genuine_fetchLogin :
    ∃ s, run (Registry.step threeServers fun _ => none) (Registry.init threeServers) fetchLogin = some s ∧
      s.fault = false ∧ s.entry 2 AppServer.login.serverType = { ip := [115], port := 2000 } ∧
      Genuine threeServers s AppServer.login.serverType { ip := [115], port := 2000 } := by
  have hrun : ((run (Registry.step threeServers fun _ => none) (Registry.init threeServers) fetchLogin).map
      fun s => s.entry 2 AppServer.login.serverType) = some { ip := [115], port := 2000 } := by decide
  obtain ⟨s, hs, hentry⟩ := Option.map_eq_some_iff.mp hrun
  have hsocket : FreshSocket threeServers (Registry.init threeServers) ⟨[116], 50000⟩ :=
    ⟨by decide, by decide, fun i => by simp [threeServers], fun _ _ hf => absurd hf (by simp [init]),
      fun _ hd => absurd hd List.not_mem_nil⟩
  have hfresh : Along (Registry.step threeServers fun _ => none) (OpensFresh threeServers)
      (Registry.init threeServers) fetchLogin := by
    refine ⟨hsocket, fun _ _ => Along.of_forall_mem fun e he _ => ?_⟩
    cases e with
    | fetch => simp at he
    | _ => trivial
  obtain ⟨hfault, -, hnodes⟩ := addresses_genuine hfresh hs
  have hgenuine := (hnodes 2).2 AppServer.login.serverType (by decide)
  rw [hentry] at hgenuine
  exact ⟨s, hs, hfault, hentry, (hgenuine.resolve_left (by decide)).2⟩

/-- If the socket of the next fetch is opened at the address of the last one, a late answer of that fetch is
registered: the game server takes the login server for the chat server. -/
theorem late_answer_registered :
    ((run (Registry.step threeServers fun _ => none) (Registry.init threeServers) (fetchLogin ++
      [.deliverRouter 0, .fetch 2 AppServer.chat.serverType ⟨[116], 50000⟩ 9, .flushSend 2 true,
        .readMessage 2 4])).map fun s => s.entry 2 AppServer.chat.serverType) =
      some { ip := [115], port := 2000 } := by
  decide

end Registry

end Mmocraft.Net
