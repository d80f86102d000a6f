/-
# Mmocraft.Login.SingleSession -- one login for a username

A login reads the session of its username, writes its own key there, and has the game server kick the
connection whose key it read.  If nobody reads between the two, the logins form a chain in which each
has the one before it kicked; logins that read the same session leave each other alone.

The system here has both sides: the phases of the logins at the login server, the session document, and the
game server of the other modules, which handles the replies. A step is one query of one login, or one event of
the game server, so every interleaving of the queries of different logins is a run.

`SessionOk` is the chain: two logins that have read different sessions are ordered by who read whose key, the
last one has its key in the document, and no two read the same. `LoginsOk` and `KicksOk` carry it over to the
connections: a login that is followed by another in the chain is kicked when the reply of the follower is
handled. Their conjunction is kept by every step in which a session is read while nobody is between reading
and writing (`ReadsApart`), and gives `SingleSession` once every login is handled.

`not_singleSession_bothRead` is the other interleaving: both logins read the empty session before either
writes, and both connections stay.
-/
import Mmocraft.Login.LoginServer
import Mmocraft.Login.Replies

namespace Mmocraft

open Mmocraft.Lib Mmocraft.Game Mmocraft.Net

/-! ## Phases

A login is a coroutine of the login server, and each suspension of it is a phase: received, authenticated,
session read, finished, replied, and handled by the game server. What it has read is known from its phase.
-/

namespace HandshakePhase

/-- The reply of a successful login that has read the session. -/
def readReply : HandshakePhase → Option LoginReply
  | sessionRead reply => some reply
  | finished reply | replied reply | handled reply =>
      if reply.errorCode = ErrorCode.success then some reply else none
  | _ => none

/-- Between the read of the session and its write. -/
def IsReading : HandshakePhase → Prop
  | sessionRead _ => True
  | _ => False

/-- The login has written its key into the session. -/
def IsUpserted (phase : HandshakePhase) : Prop := phase.readReply.isSome ∧ ¬ phase.IsReading

/-- The replies there are if no access to the database fails and the username has a login. -/
def IsProper : HandshakePhase → Prop
  | received => True
  | authenticated reply => reply.errorCode = ErrorCode.success ∧ reply.prevConnectionKey = default
  | sessionRead reply => reply.errorCode = ErrorCode.success
  | finished reply | replied reply | handled reply =>
      reply.errorCode = ErrorCode.success ∨ reply.errorCode = ErrorCode.playerLoginFail

instance : (phase : HandshakePhase) → Decidable phase.IsReading
  | sessionRead _ => isTrue trivial
  | received | authenticated _ | finished _ | replied _ | handled _ => isFalse id

end HandshakePhase

namespace LoginSystem

open Server HandshakePhase

/-- The login has read the key in the session. -/
def ReadsKey (c : LoginSystem) (r : LoginRequest) (key : ConnectionKey) : Prop :=
  ∃ reply ∈ (c.phase r).readReply, reply.prevConnectionKey = key

/-! ## The chain of sessions

The session document holds the key of the last login that wrote it. As long as nobody reads between a read
and the write that follows, each login reads the key of the login before it, and keys are read once.
-/

/-- What is known of the session: who wrote it and who read it. The logins that have written their key form
a chain by who read whose; the key in the document is that of the last one, which at most one login has read
and is about to replace. -/
structure SessionOk (c : LoginSystem) : Prop where
  keys_ne : ∀ r ∈ c.handshakes, r.connectionKey ≠ default
  keys_inj : ∀ r ∈ c.handshakes, ∀ r' ∈ c.handshakes, r.connectionKey = r'.connectionKey → r = r'
  proper : ∀ r ∈ c.handshakes, (c.phase r).IsProper
  reading : ∀ r ∈ c.handshakes, ∀ r' ∈ c.handshakes,
    (c.phase r).IsReading → (c.phase r').IsReading → r = r'
  current : ∀ r ∈ c.handshakes, (c.phase r).IsReading → ∀ r' ∈ c.handshakes,
    (c.ReadsKey r r'.connectionKey ↔ c.session = some r'.connectionKey)
  session_upserted : ∀ r ∈ c.handshakes, c.session = some r.connectionKey → (c.phase r).IsUpserted
  read_upserted : ∀ x ∈ c.handshakes, ∀ r ∈ c.handshakes,
    c.ReadsKey x r.connectionKey → (c.phase r).IsUpserted
  read_unique : ∀ x ∈ c.handshakes, ∀ y ∈ c.handshakes, ∀ r ∈ c.handshakes,
    c.ReadsKey x r.connectionKey → c.ReadsKey y r.connectionKey → x = y
  session_read : ∀ x ∈ c.handshakes, ∀ r ∈ c.handshakes,
    c.session = some r.connectionKey → c.ReadsKey x r.connectionKey → (c.phase x).IsReading
  succeeded : ∀ r ∈ c.handshakes, (c.phase r).IsUpserted →
    c.session = some r.connectionKey ∨ ∃ x ∈ c.handshakes, c.ReadsKey x r.connectionKey

/-- The phase that was set. -/
theorem setPhase_self (c : LoginSystem) (r : LoginRequest) (phase : HandshakePhase) :
    (c.setPhase r phase).phase r = phase := Function.update_self ..

/-- The logins of the others are where they were. -/
theorem setPhase_of_ne (c : LoginSystem) {r x : LoginRequest} (hne : x ≠ r) (phase : HandshakePhase) :
    (c.setPhase r phase).phase x = c.phase x := Function.update_of_ne hne ..

namespace SessionOk

variable {c : LoginSystem} {r : LoginRequest}

/-- A step that neither reads nor writes the session. -/
theorem same (h : SessionOk c) {c' : LoginSystem} (hhandshakes : c'.handshakes = c.handshakes)
    (hsession : c'.session = c.session)
    (hread : ∀ x, (c'.phase x).readReply = (c.phase x).readReply)
    (hreading : ∀ x, (c'.phase x).IsReading ↔ (c.phase x).IsReading)
    (hproper : ∀ x ∈ c.handshakes, (c'.phase x).IsProper) : SessionOk c' := by
  have hreads : ∀ x key, c'.ReadsKey x key ↔ c.ReadsKey x key := by
    intro x key
    rw [ReadsKey, ReadsKey, hread]
  have hupserted : ∀ x, (c'.phase x).IsUpserted ↔ (c.phase x).IsUpserted := by
    intro x
    rw [IsUpserted, IsUpserted, hread, hreading]
  obtain ⟨h1, h2, -, h4, h5, h6, h7, h8, h9, h10⟩ := h
  constructor <;> simp only [hhandshakes, hsession, hreads, hreading, hupserted] <;> assumption

/-- A phase of a login changes that has to do with the session neither before nor after. -/
theorem setPhase (h : SessionOk c) {phase : HandshakePhase}
    (hread : phase.readReply = (c.phase r).readReply)
    (hreading : phase.IsReading ↔ (c.phase r).IsReading) (hproper : phase.IsProper) :
    SessionOk (c.setPhase r phase) := by
  refine h.same rfl rfl (fun x => ?_) (fun x => ?_) fun x hx => ?_
  all_goals by_cases hxr : x = r
  · rw [hxr, setPhase_self, hread]
  · rw [setPhase_of_ne c hxr]
  · rw [hxr, setPhase_self, hreading]
  · rw [setPhase_of_ne c hxr]
  · rw [hxr, setPhase_self]
    exact hproper
  · rw [setPhase_of_ne c hxr]
    exact h.proper x hx

theorem readSession_prev (h : SessionOk c) {reply : LoginReply}
    (hprev : reply.prevConnectionKey = default) {x : LoginRequest} (hx : x ∈ c.handshakes) :
    (c.readSession reply).prevConnectionKey = x.connectionKey ↔ c.session = some x.connectionKey := by
  unfold readSession
  cases c.session with
  | none =>
      rw [hprev]
      exact iff_of_false (Ne.symm (h.keys_ne x hx)) nofun
  | some key => rw [Option.some_inj]

/-- The session is read while nobody is about to write it. -/
theorem getSession (h : SessionOk c) (hr : r ∈ c.handshakes) {reply : LoginReply}
    (hphase : c.phase r = .authenticated reply) (hapart : ∀ x ∈ c.handshakes, ¬ (c.phase x).IsReading) :
    SessionOk (c.setPhase r (.sessionRead (c.readSession reply))) := by
  have hproper := h.proper r hr
  rw [hphase] at hproper
  obtain ⟨hsuccess, hprev⟩ := hproper
  set c' := c.setPhase r (.sessionRead (c.readSession reply)) with hc'
  have hself : c'.phase r = .sessionRead (c.readSession reply) := setPhase_self c r _
  have hother : ∀ {x}, x ≠ r → c'.phase x = c.phase x := fun hx => setPhase_of_ne c hx _
  have hsuccess' : (c.readSession reply).errorCode = ErrorCode.success := by
    unfold readSession
    cases c.session <;> exact hsuccess
  -- the login itself has written nothing yet, so nobody has read its key
  have hnot : ¬ (c.phase r).IsUpserted := by
    rw [hphase]
    simp [IsUpserted, readReply]
  have hupserted : ∀ {x}, (c.phase x).IsUpserted → x ≠ r ∧ (c'.phase x).IsUpserted := by
    intro x hx
    have hne : x ≠ r := fun heq => hnot (heq ▸ hx)
    exact ⟨hne, by rwa [hother hne]⟩
  have hreadsSelf : ∀ x ∈ c.handshakes, (c'.ReadsKey r x.connectionKey ↔
      c.session = some x.connectionKey) := by
    intro x hx
    rw [ReadsKey, hself, ← h.readSession_prev hprev hx]
    simp [readReply]
  have hreadsOther : ∀ {x key}, x ≠ r → (c'.ReadsKey x key ↔ c.ReadsKey x key) := by
    intro x key hx
    rw [ReadsKey, ReadsKey, hother hx]
  have hreading : ∀ x ∈ c.handshakes, (c'.phase x).IsReading → x = r := by
    intro x hx hreads
    by_contra hne
    rw [hother hne] at hreads
    exact hapart x hx hreads
  refine ⟨h.keys_ne, h.keys_inj, fun x hx => ?_, fun x hx y hy hreadsX hreadsY => ?_,
    fun x hx hreads y hy => ?_, fun x hx hsession => ?_, fun x hx y hy hreads => ?_,
    fun x hx y hy z hz hreadsX hreadsY => ?_, fun x hx y hy hsession hreads => ?_, fun x hx hup => ?_⟩
  · by_cases hxr : x = r
    · rw [hxr, hself]
      exact hsuccess'
    · rw [hother hxr]
      exact h.proper x hx
  · exact (hreading x hx hreadsX).trans (hreading y hy hreadsY).symm
  · rw [hreading x hx hreads]
    exact hreadsSelf y hy
  · exact (hupserted (h.session_upserted x hx hsession)).2
  · by_cases hxr : x = r
    · exact (hupserted (h.session_upserted y hy ((hreadsSelf y hy).mp (hxr ▸ hreads)))).2
    · exact (hupserted (h.read_upserted x hx y hy ((hreadsOther hxr).mp hreads))).2
  · -- nobody who is done has read what the session is now
    have hnew : ∀ y ∈ c.handshakes, y ≠ r → c'.ReadsKey r z.connectionKey →
        ¬ c'.ReadsKey y z.connectionKey := by
      intro y hy hyr hreads hreadsY
      exact hapart y hy (h.session_read y hy z hz ((hreadsSelf z hz).mp hreads)
        ((hreadsOther hyr).mp hreadsY))
    by_cases hxr : x = r
    · by_contra hne
      exact hnew y hy (fun hyr => hne (hxr.trans hyr.symm)) (hxr ▸ hreadsX) hreadsY
    · by_cases hyr : y = r
      · exact absurd hreadsX (hnew x hx hxr (hyr ▸ hreadsY))
      · exact h.read_unique x hx y hy z hz ((hreadsOther hxr).mp hreadsX)
          ((hreadsOther hyr).mp hreadsY)
  · by_cases hxr : x = r
    · rw [hxr, hself]
      trivial
    · exact absurd (h.session_read x hx y hy hsession ((hreadsOther hxr).mp hreads)) (hapart x hx)
  · have hxr : x ≠ r := by
      rintro rfl
      rw [hself] at hup
      exact hup.2 trivial
    rw [hother hxr] at hup
    refine (h.succeeded x hx hup).imp_right fun ⟨y, hy, hreads⟩ => ⟨y, hy, ?_⟩
    refine (hreadsOther ?_).mpr hreads
    rintro rfl
    rw [ReadsKey, hphase] at hreads
    simp [readReply] at hreads

/-- The session is written by the only login that has read it. -/
theorem upsertSession (h : SessionOk c) (hr : r ∈ c.handshakes) {reply : LoginReply}
    (hphase : c.phase r = .sessionRead reply) :
    SessionOk ({ c with session := some r.connectionKey }.setPhase r (.finished reply)) := by
  have hsuccess : reply.errorCode = ErrorCode.success := by
    have hproper := h.proper r hr
    rwa [hphase] at hproper
  have hreadingR : (c.phase r).IsReading := by
    rw [hphase]
    trivial
  set c' := { c with session := some r.connectionKey }.setPhase r (.finished reply) with hc'
  have hself : c'.phase r = .finished reply := Function.update_self ..
  have hother : ∀ {x}, x ≠ r → c'.phase x = c.phase x := fun hx => Function.update_of_ne hx ..
  have hread : ∀ x, (c'.phase x).readReply = (c.phase x).readReply := by
    intro x
    by_cases hxr : x = r
    · rw [hxr, hself, hphase]
      exact if_pos hsuccess
    · rw [hother hxr]
  have hreads : ∀ x key, c'.ReadsKey x key ↔ c.ReadsKey x key := by
    intro x key
    rw [ReadsKey, ReadsKey, hread]
  have hnone : ∀ x ∈ c.handshakes, ¬ (c'.phase x).IsReading := by
    intro x hx hreading
    by_cases hxr : x = r
    · rw [hxr, hself] at hreading
      exact hreading
    · rw [hother hxr] at hreading
      exact hxr (h.reading x hx r hr hreading hreadingR)
  have hupserted : ∀ {x}, x ∈ c.handshakes → (c.phase x).IsUpserted → (c'.phase x).IsUpserted :=
    fun hx hup => ⟨by rw [hread]; exact hup.1, hnone _ hx⟩
  have hkey : ∀ {x}, x ∈ c.handshakes → c'.session = some x.connectionKey → x = r := fun hx heq =>
    (h.keys_inj r hr _ hx (Option.some.inj heq)).symm
  refine ⟨h.keys_ne, h.keys_inj, fun x hx => ?_, fun x hx y hy hreadsX _ => absurd hreadsX (hnone x hx),
    fun x hx hreading => absurd hreading (hnone x hx), fun x hx hsession => ?_,
    fun x hx y hy hreadsX => ?_,
    fun x hx y hy z hz hreadsX hreadsY => ?_, fun x hx y hy hsession hreadsX => ?_, fun x hx hup => ?_⟩
  · by_cases hxr : x = r
    · rw [hxr, hself]
      exact Or.inl hsuccess
    · rw [hother hxr]
      exact h.proper x hx
  · refine ⟨?_, hnone x hx⟩
    rw [hkey hx hsession, hread, hphase]
    rfl
  · exact hupserted hy (h.read_upserted x hx y hy ((hreads x _).mp hreadsX))
  · exact h.read_unique x hx y hy z hz ((hreads x _).mp hreadsX) ((hreads y _).mp hreadsY)
  · -- nobody can have read a key that was not written yet
    obtain rfl := hkey hy hsession
    exact absurd hreadingR (h.read_upserted x hx y hy ((hreads x _).mp hreadsX)).2
  · by_cases hxr : x = r
    · exact Or.inl (hxr ▸ rfl)
    · -- whoever was in the session is overwritten by a login that has read its key
      rw [hother hxr] at hup
      refine Or.inr ?_
      rcases h.succeeded x hx hup with hsession | ⟨y, hy, hreadsY⟩
      · exact ⟨r, hr, (hreads r _).mpr ((h.current r hr hreadingR x hx).mpr hsession)⟩
      · exact ⟨y, hy, (hreads y _).mpr hreadsY⟩

end SessionOk

/-! ## The connections

The game server kicks the connection whose key a reply names. So a login that was followed in the chain is
told to leave when the reply of its follower is handled, and the order in which replies arrive does not
matter.
-/

/-- The game server has the connections of the handshakes, and no other business with their players. -/
structure LoginsOk (c : LoginSystem) : Prop where
  consistent : TableOk c.server ∧ HistoryOk c.server
  login : c.playerLogin.isSome
  holds : ∀ r ∈ c.handshakes, c.server.HoldsLogin r
  requests : ∀ r ∈ c.handshakes, ∀ r' ∈ c.server.requests, r'.player = r.player → r' = r
  loads : ∀ r ∈ c.handshakes, ∀ load ∈ c.server.loads, load.request.player = r.player →
    load.request = r

/-- A login whose key was read is out once the reader is handled, and so is one that failed; a login
that is not handled still has its connection, and leaves only because of such a reader. -/
structure KicksOk (c : LoginSystem) : Prop where
  kicked : ∀ x ∈ c.handshakes, ∀ r ∈ c.handshakes, (c.phase x).IsHandled →
    c.ReadsKey x r.connectionKey → ¬ c.server.LoggedIn r.player
  failed : ∀ r ∈ c.handshakes, (c.phase r).IsHandled → (c.phase r).readReply = none →
    ¬ c.server.LoggedIn r.player
  attached : ∀ r ∈ c.handshakes, ¬ (c.phase r).IsHandled → c.server.Attached r.player
  leaving : ∀ r ∈ c.handshakes, ¬ (c.phase r).IsHandled →
    (c.server.players r.player).state.IsLeaving →
      ∃ x ∈ c.handshakes, (c.phase x).IsHandled ∧ c.ReadsKey x r.connectionKey

namespace LoginsOk

variable {c c' : LoginSystem} {r : LoginRequest}

/-- The players of two handshakes differ. -/
theorem player_inj (h : LoginsOk c) (hsession : SessionOk c) (hr : r ∈ c.handshakes)
    {r' : LoginRequest} (hr' : r' ∈ c.handshakes) (heq : r.player = r'.player) : r = r' := by
  obtain ⟨conn, hhas, hkey⟩ := (h.holds r hr).owned
  obtain ⟨conn', hhas', hkey'⟩ := (h.holds r' hr').owned
  obtain ⟨-, rfl⟩ := h.consistent.1.hasPlayer_unique hhas (heq ▸ hhas')
  exact hsession.keys_inj r hr r' hr' (hkey.symm.trans hkey')

/-- An event of the game server that keeps what it has of the handshakes. -/
theorem advance (h : LoginsOk c) {e : Event} (hstep : c.server.step e = some c'.server)
    (hhandshakes : c'.handshakes = c.handshakes) (hlogin : c'.playerLogin = c.playerLogin)
    (hholds : ∀ x ∈ c.handshakes, c'.server.HoldsLogin x)
    (hrequests : ∀ r' ∈ c'.server.requests, r' ∈ c.server.requests)
    (hloads : ∀ load ∈ c'.server.loads, load ∈ c.server.loads ∨ load.request = r)
    (hr : r ∈ c.handshakes) (hsession : SessionOk c) : LoginsOk c' := by
  have hconsistent : TableOk c'.server ∧ HistoryOk c'.server :=
    HistoryOk.closed.step h.consistent e (fun _ _ => trivial) hstep
  refine ⟨hconsistent, hlogin ▸ h.login, ?_, ?_, ?_⟩
  all_goals rw [hhandshakes]
  · exact hholds
  · exact fun x hx r' hr' => h.requests x hx r' (hrequests r' hr')
  · intro x hx load hload hplayer
    rcases hloads load hload with hload | rfl
    · exact h.loads x hx load hload hplayer
    · exact h.player_inj hsession hr hx hplayer

end LoginsOk

namespace KicksOk

variable {c c' : LoginSystem} {r : LoginRequest}

/-- Neither a login nor the phase of a handled one changes. -/
theorem kept (h : KicksOk c) (hhandshakes : c'.handshakes = c.handshakes)
    (hphase : ∀ x, (c'.phase x).IsHandled ∨ (c.phase x).IsHandled → c'.phase x = c.phase x)
    (hkeeps : ∀ x ∈ c.handshakes, KeepsLogin c.server c'.server x) : KicksOk c' := by
  have hreads : ∀ {x key}, (c.phase x).IsHandled → (c'.ReadsKey x key ↔ c.ReadsKey x key) := by
    intro x key hx
    rw [ReadsKey, ReadsKey, hphase x (Or.inr hx)]
  have hhandled : ∀ {x}, (c'.phase x).IsHandled ↔ (c.phase x).IsHandled := fun {x} =>
    ⟨fun hx => hphase x (Or.inl hx) ▸ hx, fun hx => (hphase x (Or.inr hx)).symm ▸ hx⟩
  constructor
  all_goals
    rw [hhandshakes]
    simp only [hhandled]
  · intro x hx y hy hdone hread hlogged
    exact h.kicked x hx y hy hdone ((hreads hdone).mp hread) ((hkeeps y hy).loggedIn_iff.mp hlogged)
  · intro x hx hdone hnone hlogged
    rw [hphase x (Or.inr hdone)] at hnone
    exact h.failed x hx hdone hnone ((hkeeps x hx).loggedIn_iff.mp hlogged)
  · exact fun x hx hdone => (hkeeps x hx).attached.mpr (h.attached x hx hdone)
  · intro x hx hdone hleaving
    obtain ⟨y, hy, hdone', hread⟩ := h.leaving x hx hdone ((hkeeps x hx).leaving.mp hleaving)
    exact ⟨y, hy, hdone', (hreads hdone').mpr hread⟩

/-- The game server takes a successful reply: the login whose key it carries is out. -/
theorem succeeds (h : KicksOk c) (hsession : SessionOk c) (hlogins : LoginsOk c)
    (hr : r ∈ c.handshakes) {reply : LoginReply} (hphase : c.phase r = .replied reply)
    (hsuccess : reply.errorCode = ErrorCode.success) {t : Server}
    (hkicks : KicksPrevious c.server t r reply) :
    KicksOk ({ c with server := t }.setPhase r (.handled reply)) := by
  set c' := { c with server := t }.setPhase r (.handled reply) with hc'
  have hself : c'.phase r = .handled reply := Function.update_self ..
  have hother : ∀ {x}, x ≠ r → c'.phase x = c.phase x := fun hx => Function.update_of_ne hx ..
  have hpending : ¬ (c.phase r).IsHandled := by
    rw [hphase]
    exact id
  have hreads : ∀ {x key}, c'.ReadsKey x key ↔ c.ReadsKey x key := by
    intro x key
    by_cases hxr : x = r
    · rw [ReadsKey, ReadsKey, hxr, hself, hphase]
      rfl
    · rw [ReadsKey, ReadsKey, hother hxr]
  have hreadsR : ∀ {key}, c.ReadsKey r key ↔ reply.prevConnectionKey = key := by
    intro key
    rw [ReadsKey, hphase]
    simp [readReply, hsuccess]
  -- who is out stays out
  have hout : ∀ {y}, y ∈ c.handshakes → ¬ c.server.LoggedIn y.player → ¬ t.LoggedIn y.player := by
    intro y hy hnot
    by_cases hprev : reply.prevConnectionKey = y.connectionKey
    · exact (hkicks.named y (hlogins.holds y hy) hprev).2.1
    · rwa [(hkicks.others y (hlogins.holds y hy) hprev).loggedIn_iff]
  refine ⟨fun x hx y hy hdone hread => ?_, fun x hx hdone hnone => ?_, fun y hy hdone => ?_,
    fun y hy hdone hleaving => ?_⟩
  · rw [hreads] at hread
    by_cases hxr : x = r
    · exact (hkicks.named y (hlogins.holds y hy) (hreadsR.mp (hxr ▸ hread))).2.1
    · rw [hother hxr] at hdone
      exact hout hy (h.kicked x hx y hy hdone hread)
  · have hxr : x ≠ r := by
      rintro rfl
      rw [hself] at hnone
      simp [readReply, hsuccess] at hnone
    rw [hother hxr] at hdone hnone
    exact hout hx (h.failed x hx hdone hnone)
  all_goals
    have hyr : y ≠ r := by
      rintro rfl
      rw [hself] at hdone
      exact hdone trivial
    rw [hother hyr] at hdone
    have hattached := h.attached y hy hdone
  · by_cases hprev : reply.prevConnectionKey = y.connectionKey
    · -- only one login reads a key, so the player of `y` was not told to leave before
      refine (hkicks.named y (hlogins.holds y hy) hprev).2.2 ⟨hattached, fun hleaving => ?_⟩
      obtain ⟨x, hx, hdone', hread⟩ := h.leaving y hy hdone hleaving
      obtain rfl := hsession.read_unique x hx r hr y hy hread (hreadsR.mpr hprev)
      exact hpending hdone'
    · exact (hkicks.others y (hlogins.holds y hy) hprev).attached.mpr hattached
  · by_cases hprev : reply.prevConnectionKey = y.connectionKey
    · refine ⟨r, hr, ?_, hreads.mpr (hreadsR.mpr hprev)⟩
      rw [hself]
      trivial
    · obtain ⟨x, hx, hdone', hread⟩ := h.leaving y hy hdone
        ((hkicks.others y (hlogins.holds y hy) hprev).leaving.mp hleaving)
      refine ⟨x, hx, ?_, hreads.mpr hread⟩
      rwa [hother]
      rintro rfl
      exact hpending hdone'

/-- The game server takes a failed reply: that login is out. -/
theorem fails (h : KicksOk c) (hsession : SessionOk c) (hlogins : LoginsOk c)
    (hr : r ∈ c.handshakes) {reply : LoginReply} (hphase : c.phase r = .replied reply)
    (hfail : reply.errorCode = ErrorCode.playerLoginFail) {t : Server}
    (hkicks : KicksRequest c.server t r) :
    KicksOk ({ c with server := t }.setPhase r (.handled reply)) := by
  set c' := { c with server := t }.setPhase r (.handled reply) with hc'
  have hself : c'.phase r = .handled reply := Function.update_self ..
  have hother : ∀ {x}, x ≠ r → c'.phase x = c.phase x := fun hx => Function.update_of_ne hx ..
  have hnone : ¬ reply.errorCode = ErrorCode.success := by
    rw [hfail]
    decide
  -- a failed login has read no session
  have hreads : ∀ {x key}, c'.ReadsKey x key → x ≠ r ∧ c.ReadsKey x key := by
    intro x key hread
    have hxr : x ≠ r := by
      rintro rfl
      rw [ReadsKey, hself] at hread
      simp [readReply, hnone] at hread
    rw [ReadsKey, hother hxr] at hread
    exact ⟨hxr, hread⟩
  have hkeeps : ∀ {y}, y ∈ c.handshakes → y ≠ r → KeepsLogin c.server t y := fun hy hyr =>
    hkicks.others _ (hlogins.holds _ hy) fun hplayer => hyr (hlogins.player_inj hsession hy hr hplayer)
  have hout : ∀ {y}, y ∈ c.handshakes → (y ≠ r → ¬ c.server.LoggedIn y.player) →
      ¬ t.LoggedIn y.player := by
    intro y hy hnot
    by_cases hyr : y = r
    · rw [hyr]
      exact hkicks.self.2
    · rw [(hkeeps hy hyr).loggedIn_iff]
      exact hnot hyr
  refine ⟨fun x hx y hy hdone hread => hout hy fun _ => ?_,
    fun x hx hdone hnone' => hout hx fun hxr => ?_,
    fun y hy hdone => ?_, fun y hy hdone hleaving => ?_⟩
  · obtain ⟨hxr, hread⟩ := hreads hread
    rw [hother hxr] at hdone
    exact h.kicked x hx y hy hdone hread
  · rw [hother hxr] at hdone hnone'
    exact h.failed x hx hdone hnone'
  all_goals
    have hyr : y ≠ r := by
      rintro rfl
      rw [hself] at hdone
      exact hdone trivial
    rw [hother hyr] at hdone
  · exact (hkeeps hy hyr).attached.mpr (h.attached y hy hdone)
  · obtain ⟨x, hx, hdone', hread⟩ := h.leaving y hy hdone ((hkeeps hy hyr).leaving.mp hleaving)
    have hxr : x ≠ r := by
      rintro rfl
      rw [hphase] at hdone'
      exact hdone'
    rw [← hother hxr] at hdone'
    refine ⟨x, hx, hdone', ?_⟩
    rwa [ReadsKey, hother hxr]

end KicksOk

/-! ## Runs

The start is the state right after the handshakes: all connections online, all requests sent, none answered.
Everything the theorem needs of it is in `IsStart`, and the invariant follows from it.
-/

/-- The game server and the login server, at any time of a run. The three parts are kept together, because a
reply that is handled is justified by the chain, and the chain is about logins that are still held. -/
structure ChainOk (c : LoginSystem) : Prop where
  logins : LoginsOk c
  session : SessionOk c
  kicks : KicksOk c

/-- A login reads the session only while no other login is between its read and its write. -/
def ReadsApart (c : LoginSystem) : LoginEvent → Prop
  | .getSession _ _ => ∀ x ∈ c.handshakes, ¬ (c.phase x).IsReading
  | _ => True

instance (c : LoginSystem) : (e : LoginEvent) → Decidable (c.ReadsApart e)
  | .getSession _ _ => inferInstanceAs (Decidable (∀ x ∈ c.handshakes, ¬ (c.phase x).IsReading))
  | .getLogin .. | .upsertSession .. | .sendReply _ | .handleReply .. | .loadGamedata .. => isTrue trivial

namespace ChainOk

variable {c c' : LoginSystem} {r : LoginRequest}

/-- A step of the login server: the game server has nothing to do with it. -/
theorem login (h : ChainOk c) (session : Option ConnectionKey) {phase : HandshakePhase}
    (hbefore : ¬ (c.phase r).IsHandled) (hafter : ¬ phase.IsHandled)
    (hsession : SessionOk ({ c with session := session }.setPhase r phase)) :
    ChainOk ({ c with session := session }.setPhase r phase) := by
  refine ⟨⟨h.logins.consistent, h.logins.login, h.logins.holds, h.logins.requests, h.logins.loads⟩,
    hsession, h.kicks.kept rfl (fun x hx => ?_) fun x hx => (h.logins.holds x hx).kept rfl rfl⟩
  have hself : ({ c with session := session }.setPhase r phase).phase r = phase :=
    Function.update_self ..
  refine Function.update_of_ne ?_ ..
  rintro rfl
  rw [hself] at hx
  exact hx.elim hafter hbefore

/-- The query of the account gives a reply that names no connection yet. -/
theorem getLogin (h : ChainOk c) (hphase : c.phase r = .received) :
    ChainOk (c.setPhase r (c.authenticate r)) := by
  have hauthenticate : (c.authenticate r).readReply = none ∧ ¬ (c.authenticate r).IsReading ∧
      ¬ (c.authenticate r).IsHandled ∧ (c.authenticate r).IsProper := by
    obtain ⟨login, hlogin⟩ := Option.isSome_iff_exists.mp h.logins.login
    by_cases hpassword : login.password = r.password
    · simp [authenticate, hlogin, hpassword, readReply, IsReading, IsHandled, IsProper]
    · simp [authenticate, hlogin, hpassword, readReply, IsReading, IsHandled, IsProper]
      decide
  obtain ⟨hread, hreading, hhandled, hproper⟩ := hauthenticate
  refine h.login c.session (hphase ▸ id) hhandled (h.session.setPhase ?_ ?_ hproper)
  · rw [hread, hphase]
    rfl
  · rw [hphase]
    exact iff_of_false hreading id

/-- The query of the session, taken while no other login is between its two queries. -/
theorem getSession (h : ChainOk c) (hr : r ∈ c.handshakes) {reply : LoginReply}
    (hphase : c.phase r = .authenticated reply) (hapart : ∀ x ∈ c.handshakes, ¬ (c.phase x).IsReading) :
    ChainOk (c.setPhase r (.sessionRead (c.readSession reply))) :=
  h.login c.session (hphase ▸ id) id (h.session.getSession hr hphase hapart)

/-- The session gets the key of the login, which becomes the last one of the chain. -/
theorem upsertSession (h : ChainOk c) (hr : r ∈ c.handshakes) {reply : LoginReply}
    (hphase : c.phase r = .sessionRead reply) :
    ChainOk ({ c with session := some r.connectionKey }.setPhase r (.finished reply)) :=
  h.login _ (hphase ▸ id) id (h.session.upsertSession hr hphase)

/-- A reply on its way changes nothing at either server. -/
theorem sendReply (h : ChainOk c) (hr : r ∈ c.handshakes) {reply : LoginReply}
    (hphase : c.phase r = .finished reply) : ChainOk (c.setPhase r (.replied reply)) := by
  have hproper := h.session.proper r hr
  rw [hphase] at hproper
  refine h.login c.session (hphase ▸ id) id (h.session.setPhase ?_ ?_ hproper)
  · rw [hphase]
    rfl
  · rw [hphase]
    exact Iff.rfl

/-- The game server takes a reply. -/
theorem handleReply (h : ChainOk c) (hr : r ∈ c.handshakes) {reply : LoginReply}
    (hphase : c.phase r = .replied reply) {now : Nat} {accepted : Bool} {t : Server}
    (hstep : c.server.step (.response r.player reply now accepted) = some t) :
    ChainOk ({ c with server := t }.setPhase r (.handled reply)) := by
  have hproper := h.session.proper r hr
  rw [hphase] at hproper
  have hpending : ¬ (c.phase r).IsHandled := hphase ▸ id
  have hsole := h.logins.requests r hr
  have hholdsR := h.logins.holds r hr
  have hsession : SessionOk ({ c with server := t }.setPhase r (.handled reply)) := by
    have hphased : SessionOk (c.setPhase r (.handled reply)) := by
      refine h.session.setPhase ?_ ?_ hproper
      all_goals
        rw [hphase]
        rfl
    exact hphased.same rfl rfl (fun _ => rfl) (fun _ => Iff.rfl) hphased.proper
  obtain ⟨hrequests, hloads⟩ := handleHandshakeResponse_logins
    { c.server with requests := c.server.requests.erase r } r reply now accepted
  rw [← response_eq hsole hstep] at hrequests hloads
  have hlogins : (∀ x ∈ c.handshakes, t.HoldsLogin x) →
      LoginsOk ({ c with server := t }.setPhase r (.handled reply)) := fun hholds =>
    h.logins.advance hstep rfl rfl hholds
      (fun r' hr' => List.mem_of_mem_erase (hrequests ▸ hr')) hloads hr h.session
  -- a reply is a success or a failed login, as there is a login for the username
  rcases hproper with hsuccess | hfail
  · have hkicks := KicksPrevious.of_response h.logins.consistent.1 hsole hstep hsuccess
      hholdsR (h.kicks.attached r hr hpending)
    refine ⟨hlogins fun x hx => ?_, hsession,
      h.kicks.succeeds h.session h.logins hr hphase hsuccess hkicks⟩
    by_cases hprev : reply.prevConnectionKey = x.connectionKey
    · exact (hkicks.named x (h.logins.holds x hx) hprev).1
    · exact (hkicks.others x (h.logins.holds x hx) hprev).holds
  · have hkicks := KicksRequest.of_response h.logins.consistent.1 hsole hstep hfail hholdsR
    refine ⟨hlogins fun x hx => ?_, hsession, h.kicks.fails h.session h.logins hr hphase hfail hkicks⟩
    by_cases hxr : x = r
    · exact hxr ▸ hkicks.self.1
    · refine (hkicks.others x (h.logins.holds x hx) fun hplayer => hxr ?_).holds
      exact h.logins.player_inj h.session hx hr hplayer

/-- A load ends. -/
theorem loadGamedata (h : ChainOk c) (hr : r ∈ c.handshakes) {result : LoadResult} {now : Nat}
    {accepted : Bool} (hresult : result ≠ .error) {t : Server}
    (hstep : c.server.step (.load r.player result now accepted) = some t) :
    ChainOk { c with server := t } := by
  have hkeeps : ∀ x ∈ c.handshakes, KeepsLogin c.server t x := fun x hx =>
    KeepsLogin.of_load h.logins.consistent.1 (h.logins.loads r hr) hstep hresult (h.logins.holds r hr)
      (h.logins.holds x hx)
  refine ⟨?_, h.session.same rfl rfl (fun _ => rfl) (fun _ => Iff.rfl) h.session.proper,
    h.kicks.kept rfl (fun _ _ => rfl) hkeeps⟩
  obtain ⟨load, -, rfl⟩ := Option.map_eq_some_iff.mp hstep
  obtain ⟨hrequests, hloads⟩ := resumeHandshakeResponse_logins
    { c.server with loads := c.server.loads.erase load } load result now accepted
  exact h.logins.advance hstep rfl rfl (fun x hx => (hkeeps x hx).holds) (fun r' hr' => hrequests ▸ hr')
    (fun load' hload' => Or.inl (List.mem_of_mem_erase (hloads ▸ hload'))) hr h.session

/-- **The step lemma.** -/
theorem step (h : ChainOk c) {e : LoginEvent} (hsucceeds : e.Succeeds) (hapart : c.ReadsApart e)
    (hstep : c.step e = some c') : ChainOk c' := by
  unfold LoginSystem.step at hstep
  by_cases hr : e.request ∈ c.handshakes
  · rw [if_pos hr] at hstep
    cases e with
    | getLogin r ok =>
        obtain rfl : ok = true := hsucceeds
        cases hphase : c.phase r <;> simp [advance, hphase] at hstep
        exact hstep ▸ h.getLogin hphase
    | getSession r ok =>
        obtain rfl : ok = true := hsucceeds
        cases hphase : c.phase r <;> simp [advance, hphase] at hstep
        exact hstep ▸ h.getSession hr hphase hapart
    | upsertSession r ok =>
        obtain rfl : ok = true := hsucceeds
        cases hphase : c.phase r <;> simp [advance, hphase] at hstep
        exact hstep ▸ h.upsertSession hr hphase
    | sendReply r =>
        cases hphase : c.phase r <;> simp [advance, hphase] at hstep
        exact hstep ▸ h.sendReply hr hphase
    | handleReply r now accepted =>
        cases hphase : c.phase r <;> simp only [advance, hphase, reduceCtorEq] at hstep
        obtain ⟨t, ht, rfl⟩ := Option.map_eq_some_iff.mp hstep
        exact h.handleReply hr hphase ht
    | loadGamedata r result now accepted =>
        obtain ⟨t, ht, rfl⟩ := Option.map_eq_some_iff.mp hstep
        exact h.loadGamedata hr hsucceeds ht
  · rw [if_neg hr] at hstep
    cases hstep

end ChainOk

/-- The handshakes of one username, from different connections, of which none has begun. The server is one
that a run leads to, with the requests of these handshakes unanswered. -/
structure IsStart (c : LoginSystem) : Prop where
  reachable : ∃ maxClients metadata blockMapping es,
    run Server.step (Server.init maxClients metadata blockMapping) es = some c.server
  username : ∀ r ∈ c.handshakes, ∀ r' ∈ c.handshakes, r.username = r'.username
  connections : ∀ r ∈ c.handshakes, ∀ r' ∈ c.handshakes, r.connectionKey = r'.connectionKey → r = r'
  online : ∀ r ∈ c.handshakes, ∃ conn, c.server.HasPlayer r.connectionKey.index conn r.player ∧
    conn.connectionKey = r.connectionKey ∧ conn.isOnline = true
  handshaking : ∀ r ∈ c.handshakes,
    Server.IsHandshake (c.server.players r.player).state (c.server.players r.player).nextState
  /-- Each of them is the first handshake of its connection. -/
  first : ∀ r ∈ c.handshakes, (∀ r' ∈ c.server.requests, r'.player = r.player → r' = r) ∧
    (∀ load ∈ c.server.loads, load.request.player ≠ r.player) ∧ c.session ≠ some r.connectionKey
  received : ∀ r ∈ c.handshakes, c.phase r = .received
  /-- `get_document` finds a login. -/
  login : c.playerLogin.isSome
  /-- No connection has the key that stands for none. -/
  keys : ∀ r ∈ c.handshakes, r.connectionKey ≠ default

/-- At most one of the connections is still logged in. -/
def SingleSession (c : LoginSystem) : Prop :=
  ∀ r ∈ c.handshakes, ∀ r' ∈ c.handshakes,
    c.server.LoggedIn r.player → c.server.LoggedIn r'.player → r = r'

namespace ChainOk

variable {c : LoginSystem}

/-- At the start nobody has read a session, and the document is empty or names no one of these logins. -/
theorem of_isStart (h : c.IsStart) : ChainOk c := by
  have hreads : ∀ {x}, x ∈ c.handshakes → ∀ key, ¬ c.ReadsKey x key := by
    intro x hx key hread
    rw [ReadsKey, h.received x hx] at hread
    simp [readReply] at hread
  have hreading : ∀ {x}, x ∈ c.handshakes → ¬ (c.phase x).IsReading := fun hx => h.received _ hx ▸ id
  have hhandled : ∀ {x}, x ∈ c.handshakes → ¬ (c.phase x).IsHandled := fun hx => h.received _ hx ▸ id
  obtain ⟨maxClients, metadata, blockMapping, es, hrun⟩ := h.reachable
  refine ⟨⟨Server.consistent_of_run hrun, h.login, fun r hr => ?_, fun r hr => (h.first r hr).1,
    fun r hr load hload hplayer => absurd hplayer ((h.first r hr).2.1 load hload)⟩, ?_, ?_⟩
  · obtain ⟨conn, hhas, hkey, -⟩ := h.online r hr
    refine ⟨⟨conn, hhas, hkey⟩, Or.inr ?_⟩
    rcases h.handshaking r hr with ⟨hstate, hnext⟩ | ⟨hstate, hnext⟩
    all_goals
      rw [hstate, hnext]
      decide
  · constructor
    · exact h.keys
    · exact h.connections
    · intro r hr
      rw [h.received r hr]
      trivial
    · exact fun r hr _ _ hr' => absurd hr' (hreading hr)
    · exact fun r hr hr' => absurd hr' (hreading hr)
    · exact fun r hr hsession => absurd hsession (h.first r hr).2.2
    · exact fun x hx r _ hread => absurd hread (hreads hx _)
    · exact fun x hx _ _ r _ hread => absurd hread (hreads hx _)
    · exact fun x hx r _ _ hread => absurd hread (hreads hx _)
    · intro r hr hup
      rw [h.received r hr] at hup
      simp [IsUpserted, readReply] at hup
  · constructor
    · exact fun x hx _ _ hdone => absurd hdone (hhandled hx)
    · exact fun r hr hdone => absurd hdone (hhandled hr)
    · intro r hr _
      obtain ⟨conn, hhas, -, honline⟩ := h.online r hr
      exact hhas.attached honline
    · exact fun r hr _ hleaving => absurd hleaving (h.handshaking r hr).not_leaving.1

/-- The last login of the chain is the only one that nobody had kicked. -/
theorem singleSession (h : ChainOk c) (hall : c.AllHandled) : c.SingleSession := by
  have hcurrent : ∀ r ∈ c.handshakes, c.server.LoggedIn r.player → c.session = some r.connectionKey := by
    intro r hr hlogged
    have hdone := hall r hr
    have hup : (c.phase r).IsUpserted := by
      refine ⟨Option.isSome_iff_ne_none.mpr fun hnone => ?_, fun hreading => ?_⟩
      · exact h.kicks.failed r hr hdone hnone hlogged
      · cases hphase : c.phase r <;> simp_all [IsReading, IsHandled]
    rcases h.session.succeeded r hr hup with hsession | ⟨x, hx, hread⟩
    · exact hsession
    · -- the login after it has been handled, too
      exact absurd hlogged (h.kicks.kicked x hx r hr (hall x hx) hread)
  intro r hr r' hr' hlogged hlogged'
  apply h.session.keys_inj r hr r' hr'
  exact Option.some.inj ((hcurrent r hr hlogged).symm.trans (hcurrent r' hr' hlogged'))

end ChainOk

/-- **At most one login of a username stays**, if every login writes the session it has read before another
one reads it. Then the logins form a chain: each reply names the connection of the login before it, whose
client is kicked, and only the last one stays. -/
theorem singleSession_of_run {c c' : LoginSystem} (hstart : c.IsStart) {es : List LoginEvent}
    (hsucceeds : ∀ e ∈ es, e.Succeeds) (hapart : Along LoginSystem.step ReadsApart c es)
    (hrun : run LoginSystem.step c es = some c') (hall : c'.AllHandled) : c'.SingleSession := by
  have halong : Along LoginSystem.step (fun c e => e.Succeeds ∧ c.ReadsApart e) c es :=
    (Along.of_forall_mem fun e he _ => hsucceeds e he).and hapart
  have hok : ChainOk c' := by
    refine run_invariant_along (fun c e c' h hG hstep => ?_) (ChainOk.of_isStart hstart) halong hrun
    exact h.step hG.1 hG.2 hstep
  exact hok.singleSession hall

/-- Two clients connect and send their handshakes, for one username. -/
def twoClientsHandshake : List Event :=
  [.accept 1, .accept 2, .receive 0 (.handshake [97] [112] 0) 3 true 0] ++
  [.receive 1 (.handshake [97] [112] 0) 3 true 0]

def firstRequest : LoginRequest :=
  { player := 0, connectionKey := ⟨0, 1⟩, username := [97], password := [112] }

def secondRequest : LoginRequest :=
  { player := 1, connectionKey := ⟨1, 2⟩, username := [97], password := [112] }

/-- Neither of the handshakes has begun. -/
def twoLogins : LoginSystem :=
  { server := (run Server.step Server.small twoClientsHandshake).getD Server.small
    handshakes := [firstRequest, secondRequest]
    playerLogin := some { password := [112], identity := [7], playerType := 2 } }

/-- The connection of a login, from a test that can be evaluated. -/
theorem online_of_any {s : Server} {i p : Nat} (key : ConnectionKey)
    (h : (s.connection i).any (fun conn => conn.player = some p ∧ conn.connectionKey = key ∧
      conn.isOnline = true) = true) :
    ∃ conn, s.HasPlayer i conn p ∧ conn.connectionKey = key ∧ conn.isOnline = true := by
  obtain ⟨conn, hconn, hholds⟩ := (Option.any_eq_true ..).mp h
  obtain ⟨hplayer, hkey, honline⟩ := of_decide_eq_true hholds
  exact ⟨conn, ⟨hconn, hplayer⟩, hkey, honline⟩

/-- Both clients are connected, and have sent their handshakes. -/
theorem twoLogins_isStart : twoLogins.IsStart where
  reachable := by
    obtain ⟨s, hs⟩ := Option.isSome_iff_exists.mp
      (show (run Server.step Server.small twoClientsHandshake).isSome = true by decide +kernel)
    have heq : twoLogins.server = s := by
      show (run Server.step Server.small twoClientsHandshake).getD Server.small = s
      rw [hs, Option.getD_some]
    rw [heq]
    exact ⟨_, _, _, twoClientsHandshake, hs⟩
  username := by decide +kernel
  connections := by decide +kernel
  online r hr := by
    rcases List.mem_pair.mp hr with rfl | rfl
    · exact online_of_any _ (by decide +kernel)
    · exact online_of_any _ (by decide +kernel)
  handshaking := by decide +kernel
  first := by decide +kernel
  received := by decide +kernel
  login := rfl
  keys := by decide +kernel

/-- One login after the other. -/
def oneByOne : List LoginEvent :=
  [firstRequest, secondRequest].flatMap fun r =>
    [.getLogin r true, .getSession r true, .upsertSession r true, .sendReply r, .handleReply r 4 true]

/-- The second login reads what the first wrote, and has it kicked. -/
theorem singleSession_of_run_oneByOne :
    ((run LoginSystem.step twoLogins oneByOne).getD twoLogins).SingleSession := by
  obtain ⟨c, hc⟩ := Option.isSome_iff_exists.mp
    (show (run LoginSystem.step twoLogins oneByOne).isSome = true by decide +kernel)
  have hall : ((run LoginSystem.step twoLogins oneByOne).getD twoLogins).AllHandled := by
    decide +kernel
  rw [hc, Option.getD_some] at hall ⊢
  exact singleSession_of_run twoLogins_isStart (by decide +kernel) (by decide +kernel) hc hall

/-- The second login reads the session before the first one writes it. -/
def bothRead : List LoginEvent :=
  [.getLogin firstRequest true, .getSession firstRequest true] ++
  [.getLogin secondRequest true, .getSession secondRequest true] ++
  [.upsertSession firstRequest true, .sendReply firstRequest, .handleReply firstRequest 4 true] ++
  [.upsertSession secondRequest true, .sendReply secondRequest, .handleReply secondRequest 4 true]

/-- Neither login finds the other one in the session, and both stay. -/
theorem not_singleSession_bothRead :
    twoLogins.IsStart ∧ (∀ e ∈ bothRead, e.Succeeds) ∧
      ((run LoginSystem.step twoLogins bothRead).getD twoLogins).AllHandled ∧
      ¬ ((run LoginSystem.step twoLogins bothRead).getD twoLogins).SingleSession := by
  refine ⟨twoLogins_isStart, by decide +kernel, by decide +kernel, fun hsingle => ?_⟩
  have hattached : ∀ r ∈ [firstRequest, secondRequest],
      ((run LoginSystem.step twoLogins bothRead).getD twoLogins).server.Attached r.player := by
    intro r hr
    rcases List.mem_pair.mp hr with rfl | rfl
    · obtain ⟨conn, hhas, -, honline⟩ := online_of_any (i := 0) (p := 0) ⟨0, 1⟩
        (s := ((run LoginSystem.step twoLogins bothRead).getD twoLogins).server) (by decide +kernel)
      exact hhas.attached honline
    · obtain ⟨conn, hhas, -, honline⟩ := online_of_any (i := 1) (p := 1) ⟨1, 2⟩
        (s := ((run LoginSystem.step twoLogins bothRead).getD twoLogins).server) (by decide +kernel)
      exact hhas.attached honline
  have heq := hsingle firstRequest (by decide +kernel) secondRequest (by decide +kernel)
    ⟨hattached _ (by decide), by decide +kernel⟩ ⟨hattached _ (by decide), by decide +kernel⟩
  exact absurd heq (by decide)

end LoginSystem

end Mmocraft
