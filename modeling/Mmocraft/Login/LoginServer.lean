/-
# Mmocraft.Login.LoginServer -- handshakes at the login server

`LoginServer::handle_handshake_packet` is a coroutine: it is suspended in every access to the database
while the handshakes of other connections go on, and its reply is sent when it ends.  The system below
is the login server, the two documents of one username and the game server, for the handshakes of that
username that are on their way.
-/
import Mmocraft.Server.Step

namespace Mmocraft

open Mmocraft.Lib Mmocraft.Game Mmocraft.Net

/-- `database::collection::PlayerLogin`, without the username it is stored under. -/
structure PlayerLogin where
  password : List UInt8
  identity : List UInt8
  playerType : Int := 0
  deriving DecidableEq, Repr

/-- How far a handshake is, with the reply as it is so far. One constructor for each suspension of the
coroutine, and two for the way of the reply. -/
inductive HandshakePhase where
  | received
  /-- Before `get_document` of the session. -/
  | authenticated (reply : LoginReply)
  /-- Before `upsert_document` of the session. -/
  | sessionRead (reply : LoginReply)
  /-- The coroutine has ended. -/
  | finished (reply : LoginReply)
  /-- The reply is on its way to the game server. -/
  | replied (reply : LoginReply)
  /-- The game server has taken the reply. -/
  | handled (reply : LoginReply)
  deriving DecidableEq, Repr

/-- The game server has taken the reply. -/
def HandshakePhase.IsHandled : HandshakePhase → Prop
  | handled _ => True
  | _ => False

instance (phase : HandshakePhase) : Decidable phase.IsHandled := by
  cases phase <;> simp only [HandshakePhase.IsHandled] <;> infer_instance

/-- The login server and the game server. There is one username, so there is one document of each kind; the
documents of other usernames are not touched by these logins. -/
structure LoginSystem where
  server : Server
  /-- The requests of the handshakes. -/
  handshakes : List LoginRequest
  /-- The document of the username in `player_login`. -/
  playerLogin : Option PlayerLogin
  /-- `connection_key` of the document of the username in `player_login_session`. -/
  session : Option ConnectionKey := none
  phase : LoginRequest → HandshakePhase := fun _ => .received

/-- The steps of the handshakes; each access to the database can fail. -/
inductive LoginEvent where
  | getLogin (r : LoginRequest) (ok : Bool)
  | getSession (r : LoginRequest) (ok : Bool)
  | upsertSession (r : LoginRequest) (ok : Bool)
  | sendReply (r : LoginRequest)
  /-- `GameServer::handle_handshake_response_message`, up to its suspension. -/
  | handleReply (r : LoginRequest) (now : Nat) (accepted : Bool)
  /-- The rest of it. -/
  | loadGamedata (r : LoginRequest) (result : LoadResult) (now : Nat) (accepted : Bool)

namespace LoginEvent

def request : LoginEvent → LoginRequest
  | getLogin r _ | getSession r _ | upsertSession r _ | sendReply r => r
  | handleReply r _ _ | loadGamedata r _ _ _ => r

/-- The access to the database succeeds. -/
def Succeeds : LoginEvent → Prop
  | getLogin _ ok | getSession _ ok | upsertSession _ ok => ok = true
  | loadGamedata _ result _ _ => result ≠ .error
  | _ => True

instance (e : LoginEvent) : Decidable e.Succeeds := by
  unfold Succeeds
  split <;> infer_instance

end LoginEvent

namespace LoginSystem

def setPhase (c : LoginSystem) (r : LoginRequest) (phase : HandshakePhase) : LoginSystem :=
  { c with phase := Function.update c.phase r phase }

/-- The first part of `handle_handshake_packet`, from the result of `get_document` on. -/
def authenticate (c : LoginSystem) (r : LoginRequest) : HandshakePhase :=
  match c.playerLogin with
  | none => .finished { errorCode := ErrorCode.playerNotExist }
  | some login =>
      if login.password ≠ r.password then .finished { errorCode := ErrorCode.playerLoginFail }
      else .authenticated
        { errorCode := ErrorCode.success, playerType := (login.playerType % 2 ^ 32).toNat
          playerUuid := login.identity }

/-- The second part, up to `upsert_document`. -/
def readSession (c : LoginSystem) (reply : LoginReply) : LoginReply :=
  match c.session with
  | none => reply
  | some key => { reply with prevConnectionKey := key }

/-- One step of a handshake. -/
def advance (c : LoginSystem) : LoginEvent → Option LoginSystem
  | .getLogin r ok =>
      match c.phase r with
      | .received => some <| c.setPhase r <|
          if ok then c.authenticate r else .finished { errorCode := ErrorCode.playerLoginFail }
      | _ => none
  | .getSession r ok =>
      match c.phase r with
      | .authenticated reply => some <| c.setPhase r <|
          if ok then .sessionRead (c.readSession reply) else .finished reply
      | _ => none
  | .upsertSession r ok =>
      match c.phase r with
      | .sessionRead reply => some <|
          { c with session := if ok then some r.connectionKey else c.session }.setPhase r
            (.finished reply)
      | _ => none
  | .sendReply r =>
      match c.phase r with
      | .finished reply => some (c.setPhase r (.replied reply))
      | _ => none
  | .handleReply r now accepted =>
      match c.phase r with
      | .replied reply => (c.server.step (.response r.player reply now accepted)).map fun server =>
          { c with server := server }.setPhase r (.handled reply)
      | _ => none
  | .loadGamedata r result now accepted =>
      (c.server.step (.load r.player result now accepted)).map fun server =>
        { c with server := server }

/-- Only the handshakes of the system advance. -/
def step (c : LoginSystem) (e : LoginEvent) : Option LoginSystem :=
  if e.request ∈ c.handshakes then c.advance e else none

/-- The game server has taken every reply. -/
def AllHandled (c : LoginSystem) : Prop := ∀ r ∈ c.handshakes, (c.phase r).IsHandled

instance (c : LoginSystem) : Decidable c.AllHandled :=
  inferInstanceAs (Decidable (∀ r ∈ c.handshakes, (c.phase r).IsHandled))

end LoginSystem

end Mmocraft
