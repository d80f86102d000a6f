/-
# Mmocraft.Server.Table -- the invariant of the connection table

What every operation of the server keeps true of its connection table: which slots are used and how
many, that a slot which is not marked for deletion holds an online connection, that keys lead back to
the slot they were made for, and that a player in the table knows the connection it was constructed
for.  Everything said about runs of the server builds on it.

The invariant is stated entry by entry (`EntryOk`), so that an operation on one slot has to be looked at in
that slot only; what it says of the others is kept as long as the players and connections stay what they are
(`ObjectsKept`). The counter is the one thing that is about the whole table, and `countUsed` follows it
through an update.

`SameShape` is the relation of all those changes that do not concern the table, which are most of them.
-/
import Mmocraft.Server.Step

namespace Mmocraft

open Mmocraft.Lib Mmocraft.Game Mmocraft.Net

/-! ## Counting slots -/

/-- The number of used slots. -/
def countUsed (table : Nat → ConnectionEntry) (n : Nat) : Nat :=
  (List.range n).countP fun i => (table i).used

/-- The slots below `n + 1` are those below `n`, and slot `n`. -/
theorem countUsed_succ (table : Nat → ConnectionEntry) (n : Nat) :
    countUsed table (n + 1) = countUsed table n + if (table n).used then 1 else 0 := by
  simp only [countUsed, List.range_succ, List.countP_append, List.countP_singleton]

/-- An update above the counted slots does not change the count. -/
theorem countUsed_update_of_le (table : Nat → ConnectionEntry) {i n : Nat} (e : ConnectionEntry)
    (h : n ≤ i) : countUsed (Function.update table i e) n = countUsed table n := by
  simp only [countUsed]
  apply List.countP_congr
  intro j hj
  rw [Function.update_of_ne (by have := List.mem_range.mp hj; omega)]

/-- An update of a slot changes the count by the difference in that slot. -/
theorem countUsed_update (table : Nat → ConnectionEntry) {i n : Nat} (e : ConnectionEntry)
    (h : i < n) :
    countUsed (Function.update table i e) n + (if (table i).used then 1 else 0) =
      countUsed table n + if e.used then 1 else 0 := by
  induction n with
  | zero => omega
  | succ n ih =>
      rw [countUsed_succ, countUsed_succ]
      rcases Nat.lt_succ_iff_lt_or_eq.mp h with hlt | rfl
      · rw [Function.update_of_ne (by omega)]
        have := ih hlt
        omega
      · rw [Function.update_self, countUsed_update_of_le table e (Nat.le_refl _)]
        omega

/-- While fewer slots are used than there are, `find_if` finds an unused one. -/
theorem getUnusedConnectionId_spec (env : ConnectionEnvironment)
    (h : countUsed env.table env.numOfMaxConnections < env.numOfMaxConnections) :
    env.getUnusedConnectionId < env.numOfMaxConnections ∧
      (env.table env.getUnusedConnectionId).used = false := by
  have hex : ∃ i ∈ List.range env.numOfMaxConnections, (!(env.table i).used) = true := by
    by_contra hall
    push Not at hall
    have hfull : countUsed env.table env.numOfMaxConnections = env.numOfMaxConnections := by
      rw [countUsed, List.countP_eq_length.mpr]
      · exact List.length_range
      · intro i hi
        simpa using hall i hi
    omega
  have hlt : env.getUnusedConnectionId < env.numOfMaxConnections := by
    have := List.findIdx_lt_length_of_exists hex
    rwa [List.length_range] at this
  refine ⟨hlt, ?_⟩
  have hlen : env.getUnusedConnectionId < (List.range env.numOfMaxConnections).length := by
    rwa [List.length_range]
  have hfound : (!(env.table (List.range env.numOfMaxConnections)[env.getUnusedConnectionId]).used) =
      true := List.findIdx_getElem (w := hlen)
  simpa using hfound

/-! ## The invariant

The counter counts the used slots, a connection is in the slot of its key, and the players of different
slots are different. This is the ground on which everything else about the server is proved.
-/

/-- The connection in slot `i` has player `p`. -/
def Server.HasPlayer (s : Server) (i : Nat) (conn : Connection) (p : Nat) : Prop :=
  s.connection i = some conn ∧ conn.player = some p

/-- The invariant of the connection table. -/
structure TableOk (s : Server) : Prop where
  used_iff : ∀ i, (s.connectionEnv.table i).used = true ↔ (s.connection i).isSome
  used_lt : ∀ i, (s.connectionEnv.table i).used = true → i < s.connectionEnv.numOfMaxConnections
  count : s.connectionEnv.numOfConnections =
    countUsed s.connectionEnv.table s.connectionEnv.numOfMaxConnections
  online_iff : ∀ i, (s.connectionEnv.table i).willDelete = false ↔
    ∃ conn, s.connection i = some conn ∧ conn.isOnline = true
  key_index : ∀ i conn, s.connection i = some conn → conn.connectionKey.index = i
  key_createdAt : ∀ i conn, s.connection i = some conn →
    (s.connectionEnv.table i).createdAt = conn.connectionKey.createdAt
  id_lt : ∀ i conn, s.connection i = some conn → conn.id < s.numOfAccepted
  id_inj : ∀ i j c d, s.connection i = some c → s.connection j = some d → c.id = d.id → i = j
  player_lt : ∀ i conn p, s.HasPlayer i conn p → p < s.numOfPlayers
  player_owner : ∀ i conn p, s.HasPlayer i conn p → s.owner p = conn.id
  player_key : ∀ i conn p, s.HasPlayer i conn p → (s.players p).connectionKey = conn.connectionKey

namespace TableOk

variable {s : Server} (h : TableOk s)

include h

/-- A connection that can be acquired is the one its key was made for, and it is online. -/
theorem of_tryAcquire {key : ConnectionKey} {conn : Connection}
    (hacq : s.tryAcquireConnection key = some conn) :
    s.connection key.index = some conn ∧ conn.isOnline = true ∧ conn.connectionKey = key := by
  obtain ⟨hwill, hcreated, hconn⟩ := ConnectionEnvironment.tryAcquireConnection_eq_some.mp hacq
  obtain ⟨conn', hconn', honline⟩ := (h.online_iff _).mp hwill
  obtain rfl : conn = conn' := Option.some.inj (hconn.symm.trans hconn')
  refine ⟨hconn, honline, ?_⟩
  have hindex : conn.connectionKey.index = key.index := h.key_index _ _ hconn
  have hkey : conn.connectionKey.createdAt = key.createdAt :=
    (h.key_createdAt _ _ hconn).symm.trans hcreated.symm
  cases hk : conn.connectionKey
  cases key
  simp_all

/-- An online connection can be acquired by its key. -/
theorem tryAcquire_of_online {i : Nat} {conn : Connection} (hconn : s.connection i = some conn)
    (honline : conn.isOnline = true) : s.tryAcquireConnection conn.connectionKey = some conn := by
  have hindex := h.key_index _ _ hconn
  refine ConnectionEnvironment.tryAcquireConnection_eq_some.mpr ⟨?_, ?_, ?_⟩
  · rw [hindex]
    exact (h.online_iff i).mpr ⟨conn, hconn, honline⟩
  · rw [hindex, h.key_createdAt _ _ hconn]
  · rw [hindex]
    exact hconn

/-- A player is in at most one slot. -/
theorem hasPlayer_unique {i j : Nat} {c d : Connection} {p : Nat} (hi : s.HasPlayer i c p)
    (hj : s.HasPlayer j d p) : i = j ∧ c = d := by
  have hid : c.id = d.id := (h.player_owner _ _ _ hi).symm.trans (h.player_owner _ _ _ hj)
  obtain rfl := h.id_inj _ _ _ _ hi.1 hj.1 hid
  exact ⟨rfl, Option.some.inj (hi.1.symm.trans hj.1)⟩

/-- The player that `for_each_player` visits in a slot belongs to an online connection. -/
theorem of_playerOf {i p : Nat} (hp : s.connectionEnv.playerOf i = some p) :
    ∃ conn, s.HasPlayer i conn p ∧ conn.isOnline = true := by
  simp only [ConnectionEnvironment.playerOf] at hp
  split_ifs at hp with hwill
  obtain ⟨conn, hconn, hplayer⟩ := Option.bind_eq_some_iff.mp hp
  obtain ⟨conn', hconn', honline⟩ := (h.online_iff i).mp (by simpa using hwill)
  obtain rfl : conn = conn' := Option.some.inj (hconn.symm.trans hconn')
  exact ⟨conn, ⟨hconn, hplayer⟩, honline⟩

/-- The player of an online connection is visited. -/
theorem playerOf_eq {i p : Nat} {conn : Connection} (hp : s.HasPlayer i conn p)
    (honline : conn.isOnline = true) : s.connectionEnv.playerOf i = some p := by
  have hwill := (h.online_iff i).mpr ⟨conn, hp.1, honline⟩
  rw [ConnectionEnvironment.playerOf, hwill, if_neg Bool.false_ne_true]
  exact Option.bind_eq_some_iff.mpr ⟨conn, hp.1, hp.2⟩

end TableOk

/-! ## Preservation

Most changes keep the shape of the table (`SameShape`): who is in which slot, and whose player. The others
replace, add or remove the connection of one slot.
-/

/-- `t` has the table of `s`, and its players the connections they have in `s`. States and data of players
may be different. -/
structure SameShape (s t : Server) : Prop where
  connectionEnv : t.connectionEnv = s.connectionEnv
  numOfAccepted : t.numOfAccepted = s.numOfAccepted
  numOfPlayers : t.numOfPlayers = s.numOfPlayers
  owner : t.owner = s.owner
  connectionKey : ∀ p, (t.players p).connectionKey = (s.players p).connectionKey

namespace SameShape

theorem refl (s : Server) : SameShape s s := ⟨rfl, rfl, rfl, rfl, fun _ => rfl⟩

theorem trans {s t u : Server} (hst : SameShape s t) (htu : SameShape t u) : SameShape s u :=
  ⟨htu.1.trans hst.1, htu.2.trans hst.2, htu.3.trans hst.3, htu.4.trans hst.4,
    fun p => (htu.5 p).trans (hst.5 p)⟩

/-- A player may change in everything but the key of its connection. -/
theorem updatePlayer (s : Server) (p : Nat) {f : Player → Player}
    (hf : (f (s.players p)).connectionKey = (s.players p).connectionKey) :
    SameShape s (s.updatePlayer p f) := by
  refine ⟨rfl, rfl, rfl, rfl, fun q => ?_⟩
  simp only [Server.updatePlayer, Function.update_apply]
  split_ifs with hq
  · rw [hq, hf]
  · rfl

theorem record (s : Server) (r : Record) : SameShape s (s.record r) := ⟨rfl, rfl, rfl, rfl, fun _ => rfl⟩

theorem transitState (s : Server) (p : Nat) (hint : State) : SameShape s (s.transitState p hint) :=
  ((record s _).trans (record _ _)).trans (updatePlayer _ p rfl)

theorem prepareStateTransition (s : Server) (p : Nat) (cur next : State) :
    SameShape s (s.prepareStateTransition p cur next) :=
  (record s _).trans (updatePlayer _ p rfl)

theorem send (s : Server) (conn : Connection) (packet : ServerPacket) (accepted : Bool) :
    SameShape s (s.send conn packet accepted) := by
  unfold Server.send
  cases accepted
  · exact refl s
  · exact ⟨rfl, rfl, rfl, rfl, fun _ => rfl⟩

/-- The callback of a teardown writes to the history and to the players. -/
theorem onDisconnect (s : Server) (conn : Connection) : SameShape s (s.onDisconnect conn) := by
  unfold Server.onDisconnect
  rcases conn.player with _ | p
  · exact refl s
  · show SameShape s (if _ then _ else _)
    split_ifs
    · exact record s _
    · exact refl s

/-- A save reads the player, and writes to the history. -/
theorem savePlayerGamedata (s : Server) (p : Nat) : SameShape s (s.savePlayerGamedata p) := by
  unfold Server.savePlayerGamedata
  show SameShape s (if _ then _ else _)
  split_ifs
  · exact (record s _).trans (record _ _)
  · exact record s _

end SameShape

namespace TableOk

variable {s t : Server}

/-- The table is in order as long as its shape is the same. -/
theorem of_sameShape (h : TableOk s) (hst : SameShape s t) : TableOk t := by
  have henv := hst.connectionEnv
  have hconn : ∀ i, t.connection i = s.connection i := fun i => by
    rw [Server.connection, Server.connection, henv]
  have hhas : ∀ i conn p, t.HasPlayer i conn p ↔ s.HasPlayer i conn p := fun i conn p => by
    rw [Server.HasPlayer, Server.HasPlayer, hconn]
  constructor
  · simpa only [henv, hconn] using h.used_iff
  · simpa only [henv] using h.used_lt
  · simpa only [henv] using h.count
  · simpa only [henv, hconn] using h.online_iff
  · simpa only [hconn] using h.key_index
  · simpa only [henv, hconn] using h.key_createdAt
  · simpa only [hconn, hst.numOfAccepted] using h.id_lt
  · simpa only [hconn] using h.id_inj
  · simpa only [hhas, hst.numOfPlayers] using h.player_lt
  · simpa only [hhas, hst.owner] using h.player_owner
  · simpa only [hhas, hst.connectionKey] using h.player_key

end TableOk

/-! ## Updates of one slot -/

/-- What the invariant says of one entry. -/
structure EntryOk (s : Server) (i : Nat) (entry : ConnectionEntry) : Prop where
  used_iff : entry.used = true ↔ entry.connection.isSome
  online_iff : entry.willDelete = false ↔
    ∃ conn, entry.connection = some conn ∧ conn.isOnline = true
  key_index : ∀ conn, entry.connection = some conn → conn.connectionKey.index = i
  key_createdAt : ∀ conn, entry.connection = some conn →
    entry.createdAt = conn.connectionKey.createdAt
  id_lt : ∀ conn, entry.connection = some conn → conn.id < s.numOfAccepted
  player : ∀ conn p, entry.connection = some conn → conn.player = some p →
    p < s.numOfPlayers ∧ s.owner p = conn.id ∧ (s.players p).connectionKey = conn.connectionKey

/-- `t` has the connections and players that were made in `s`, and can have more. -/
structure ObjectsKept (s t : Server) : Prop where
  numOfAccepted : s.numOfAccepted ≤ t.numOfAccepted
  numOfPlayers : s.numOfPlayers ≤ t.numOfPlayers
  owner : ∀ p, p < s.numOfPlayers → t.owner p = s.owner p
  connectionKey : ∀ p, p < s.numOfPlayers → (t.players p).connectionKey = (s.players p).connectionKey

/-- An entry stays in order while players and connections are kept. -/
theorem EntryOk.kept {s t : Server} {i : Nat} {entry : ConnectionEntry} (h : EntryOk s i entry)
    (hst : ObjectsKept s t) : EntryOk t i entry where
  used_iff := h.used_iff
  online_iff := h.online_iff
  key_index := h.key_index
  key_createdAt := h.key_createdAt
  id_lt conn hconn := lt_of_lt_of_le (h.id_lt conn hconn) hst.numOfAccepted
  player conn p hconn hp := by
    obtain ⟨hlt, howner, hkey⟩ := h.player conn p hconn hp
    exact ⟨lt_of_lt_of_le hlt hst.numOfPlayers, (hst.owner p hlt).trans howner,
      (hst.connectionKey p hlt).trans hkey⟩

namespace TableOk

variable {s t : Server}

/-- The invariant, read for one slot. -/
theorem entryOk (h : TableOk s) (i : Nat) : EntryOk s i (s.connectionEnv.table i) where
  used_iff := h.used_iff i
  online_iff := h.online_iff i
  key_index := h.key_index i
  key_createdAt := h.key_createdAt i
  id_lt := h.id_lt i
  player conn p hconn hp := ⟨h.player_lt i conn p ⟨hconn, hp⟩, h.player_owner i conn p ⟨hconn, hp⟩,
    h.player_key i conn p ⟨hconn, hp⟩⟩

/-- Besides its entries, the invariant speaks of the slots there are, of their count and of distinct
connections. -/
theorem of_entries (hentry : ∀ i, EntryOk t i (t.connectionEnv.table i))
    (hused : ∀ i, (t.connectionEnv.table i).used = true → i < t.connectionEnv.numOfMaxConnections)
    (hcount : t.connectionEnv.numOfConnections =
      countUsed t.connectionEnv.table t.connectionEnv.numOfMaxConnections)
    (hid : ∀ i j c d, t.connection i = some c → t.connection j = some d → c.id = d.id → i = j) :
    TableOk t where
  used_iff i := (hentry i).used_iff
  used_lt := hused
  count := hcount
  online_iff i := (hentry i).online_iff
  key_index i := (hentry i).key_index
  key_createdAt i := (hentry i).key_createdAt
  id_lt i := (hentry i).id_lt
  id_inj := hid
  player_lt i conn p hp := ((hentry i).player conn p hp.1 hp.2).1
  player_owner i conn p hp := ((hentry i).player conn p hp.1 hp.2).2.1
  player_key i conn p hp := ((hentry i).player conn p hp.1 hp.2).2.2

/-- **One slot at a time.** An update of one entry keeps the invariant, if what the invariant says of an
entry holds of the new one, the number of connections follows, and the new object is in no other slot. -/
theorem of_update (h : TableOk s) {i : Nat} (entry : ConnectionEntry)
    (hi : i < s.connectionEnv.numOfMaxConnections)
    (htable : t.connectionEnv.table = Function.update s.connectionEnv.table i entry)
    (hmax : t.connectionEnv.numOfMaxConnections = s.connectionEnv.numOfMaxConnections)
    (hcount : t.connectionEnv.numOfConnections + (if (s.connectionEnv.table i).used then 1 else 0) =
      s.connectionEnv.numOfConnections + if entry.used then 1 else 0)
    (hst : ObjectsKept s t) (hentry : EntryOk t i entry)
    (hid : ∀ conn j d, entry.connection = some conn → j ≠ i → s.connection j = some d →
      conn.id ≠ d.id) : TableOk t := by
  have hself : t.connectionEnv.table i = entry := by rw [htable, Function.update_self]
  have hother : ∀ j, j ≠ i → t.connectionEnv.table j = s.connectionEnv.table j := fun j hj => by
    rw [htable, Function.update_of_ne hj]
  have hcself : t.connection i = entry.connection := by rw [Server.connection, hself]
  have hcother : ∀ j, j ≠ i → t.connection j = s.connection j := fun j hj => by
    rw [Server.connection, Server.connection, hother j hj]
  apply of_entries
  · intro j
    by_cases hj : j = i
    · rw [hj, hself]
      exact hentry
    · rw [hother j hj]
      exact (h.entryOk j).kept hst
  · intro j hj
    rw [hmax]
    by_cases hji : j = i
    · rw [hji]
      exact hi
    · rw [hother j hji] at hj
      exact h.used_lt j hj
  · have hupdate := countUsed_update s.connectionEnv.table entry hi
    have hold := h.count
    rw [hmax, htable]
    omega
  · intro j k c d hc hd hcd
    by_cases hj : j = i
    · by_cases hk : k = i
      · rw [hj, hk]
      · rw [hj, hcself] at hc
        rw [hcother k hk] at hd
        exact absurd hcd (hid c k d hc hk hd)
    · rw [hcother j hj] at hc
      by_cases hk : k = i
      · rw [hk, hcself] at hd
        exact absurd hcd.symm (hid d j c hd hj hc)
      · rw [hcother k hk] at hd
        exact h.id_inj j k c d hc hd hcd

/-- The slot of a connection is used, and there is such a slot. -/
theorem used_of_connection (h : TableOk s) {i : Nat} {conn : Connection}
    (hconn : s.connection i = some conn) :
    (s.connectionEnv.table i).used = true ∧ i < s.connectionEnv.numOfMaxConnections := by
  have hused : (s.connectionEnv.table i).used = true := (h.used_iff i).mpr (by rw [hconn]; rfl)
  exact ⟨hused, h.used_lt i hused⟩

/-- **One slot, one object.** Replacing the connection of a slot by one with the same identity and
key keeps the invariant, if the deletion mark says whether it is online and its player, when it is
another one, is a player that was constructed for it. -/
theorem of_replace (h : TableOk s) {i : Nat} {conn : Connection} (conn' : Connection)
    (hconn : s.connection i = some conn) (hid : conn'.id = conn.id)
    (hkey : conn'.connectionKey = conn.connectionKey)
    (htable : t.connectionEnv.table = Function.update s.connectionEnv.table i
      { s.connectionEnv.table i with connection := some conn', willDelete := !conn'.isOnline })
    (hmax : t.connectionEnv.numOfMaxConnections = s.connectionEnv.numOfMaxConnections)
    (hnum : t.connectionEnv.numOfConnections = s.connectionEnv.numOfConnections)
    (hst : ObjectsKept s t)
    (hplayer : ∀ p, conn'.player = some p → conn.player = some p ∨
      p < t.numOfPlayers ∧ t.owner p = conn.id ∧
        (t.players p).connectionKey = conn.connectionKey) : TableOk t := by
  obtain ⟨hused, hlt⟩ := h.used_of_connection hconn
  have hold := (h.entryOk i).kept hst
  refine h.of_update _ hlt htable hmax (by rw [hnum]) hst ?_ ?_
  · constructor
    · exact iff_of_true hused rfl
    · simp
    · rintro c ⟨⟩
      rw [hkey]
      exact hold.key_index conn hconn
    · rintro c ⟨⟩
      rw [hkey]
      exact hold.key_createdAt conn hconn
    · rintro c ⟨⟩
      rw [hid]
      exact hold.id_lt conn hconn
    · rintro c p ⟨⟩ hp
      rw [hid, hkey]
      rcases hplayer p hp with hsame | hnew
      · exact hold.player conn p hconn hsame
      · exact hnew
  · rintro c j d ⟨⟩ hj hd heq
    exact hj (h.id_inj j i d conn hd hconn (heq.symm.trans hid))

/-- The object of a slot after `updateConnection`. -/
theorem updateConnection_table {env : ConnectionEnvironment} {i : Nat} {conn : Connection}
    (hconn : (env.table i).connection = some conn) (f : Connection → Connection) :
    (env.updateConnection i f).table =
      Function.update env.table i { env.table i with connection := some (f conn) } := by
  simp only [ConnectionEnvironment.updateConnection, ConnectionEnvironment.updateEntry, hconn,
    Option.map_some]

/-- The deletion mark of a slot with an object. -/
theorem willDelete_eq (h : TableOk s) {i : Nat} {conn : Connection}
    (hconn : s.connection i = some conn) :
    (s.connectionEnv.table i).willDelete = !conn.isOnline := by
  have hiff := h.online_iff i
  simp only [hconn, Option.some.injEq, exists_eq_left'] at hiff
  cases hw : (s.connectionEnv.table i).willDelete <;> cases ho : conn.isOnline <;>
    simp_all

/-- An interaction writes one tick. -/
theorem interact (h : TableOk s) {i : Nat} {conn : Connection} (hconn : s.connection i = some conn)
    (now : Nat) : TableOk (s.interact i now) := by
  refine h.of_replace (conn.updateLastInteractionTime now) hconn rfl rfl ?_ rfl rfl
    ⟨Nat.le_refl _, Nat.le_refl _, fun _ _ => rfl, fun _ _ => rfl⟩ (fun _ hp => Or.inl hp)
  have hmark : (s.connectionEnv.table i).willDelete =
      !(conn.updateLastInteractionTime now).isOnline := (h.willDelete_eq hconn).trans rfl
  show (s.connectionEnv.updateConnection i _).table = _
  rw [updateConnection_table hconn, ← hmark]

/-- The object of a slot after an interaction. -/
theorem interact_connection {i : Nat} {conn : Connection} (hconn : s.connection i = some conn)
    (now : Nat) : (s.interact i now).connection i = some (conn.updateLastInteractionTime now) := by
  show ((s.connectionEnv.updateConnection i _).table i).connection = _
  rw [updateConnection_table hconn, Function.update_self]

/-- A handshake adds a player, with the key of the connection that it is put into. -/
theorem setPlayer (h : TableOk s) {i : Nat} {conn : Connection} (hconn : s.connection i = some conn)
    (player : Player) (hkey : player.connectionKey = conn.connectionKey) :
    TableOk (s.setPlayer i conn player) := by
  refine h.of_replace { conn with player := some s.numOfPlayers } hconn rfl rfl ?_ rfl rfl
    ⟨Nat.le_refl _, Nat.le_succ _, ?_, ?_⟩ ?_
  · show (s.connectionEnv.updateConnection i _).table = _
    rw [updateConnection_table hconn, ← h.willDelete_eq hconn]
  · intro p hp
    show Function.update s.owner s.numOfPlayers conn.id p = s.owner p
    rw [Function.update_of_ne (by omega)]
  · intro p hp
    show (Function.update s.players s.numOfPlayers player p).connectionKey = _
    rw [Function.update_of_ne (by omega)]
  · rintro p hp
    obtain rfl : s.numOfPlayers = p := Option.some.inj hp
    refine Or.inr ⟨Nat.lt_succ_self _, ?_, ?_⟩
    · show Function.update s.owner s.numOfPlayers conn.id s.numOfPlayers = conn.id
      rw [Function.update_self]
    · show (Function.update s.players s.numOfPlayers player s.numOfPlayers).connectionKey = _
      rw [Function.update_self, hkey]

/-- A connection goes offline together with the mark of its entry. -/
theorem setOffline (h : TableOk s) {i : Nat} {conn : Connection} (hconn : s.connection i = some conn)
    (now : Nat) : TableOk (s.setOffline i conn now) := by
  refine h.of_replace (conn.setOffline now) hconn rfl rfl ?_
    rfl rfl ⟨Nat.le_refl _, Nat.le_refl _, fun _ _ => rfl, fun _ _ => rfl⟩ (fun _ hp => Or.inl hp)
  show ((s.connectionEnv.updateConnection i _).onConnectionOffline conn.connectionKey).table = _
  simp only [ConnectionEnvironment.onConnectionOffline, ConnectionEnvironment.updateEntry]
  rw [updateConnection_table hconn, h.key_index i conn hconn, Function.update_self,
    Function.update_idem]
  rfl

/-- A disconnection hands the player over, takes the connection offline, or finds nothing to do. -/
theorem disconnect (h : TableOk s) (i now : Nat) : TableOk (s.disconnect i now) := by
  unfold Server.disconnect
  cases hconn : s.connection i with
  | none => exact h
  | some conn =>
      show TableOk (if _ then _ else _)
      split_ifs with honline
      · exact h
      · cases hp : conn.player.filter fun p => State.handshaking ≤ (s.players p).state with
        | some p => exact h.of_sameShape (SameShape.prepareStateTransition s p _ _)
        | none =>
            have hshape := SameShape.onDisconnect s conn
            have hconn' : (s.onDisconnect conn).connection i = some conn := by
              rw [Server.connection, hshape.connectionEnv]
              exact hconn
            exact (h.of_sameShape hshape).setOffline hconn' now

/-- The slot of a connection that went offline is freed, and the counter goes down. -/
theorem delete (h : TableOk s) {i : Nat} {conn : Connection} (hconn : s.connection i = some conn)
    (hoffline : conn.isOnline = false) :
    TableOk { s with connectionEnv := s.connectionEnv.onConnectionDelete conn.connectionKey } := by
  obtain ⟨hused, hlt⟩ := h.used_of_connection hconn
  have hmark : (s.connectionEnv.table i).willDelete = true := by
    rw [h.willDelete_eq hconn, hoffline, Bool.not_false]
  have hcount : 0 < s.connectionEnv.numOfConnections := by
    have hupdate := countUsed_update s.connectionEnv.table {} hlt
    have hold := h.count
    simp only [hused, if_true, Bool.false_eq_true, if_false] at hupdate
    omega
  refine h.of_update
    { s.connectionEnv.table i with used := false, connection := none, createdAt := invalidTick }
    hlt ?_ rfl ?_ ⟨Nat.le_refl _, Nat.le_refl _, fun _ _ => rfl, fun _ _ => rfl⟩ ?_ ?_
  · simp only [ConnectionEnvironment.onConnectionDelete, ConnectionEnvironment.updateEntry,
      h.key_index i conn hconn]
  · simp only [hused, if_true, Bool.false_eq_true, if_false]
    exact Nat.sub_add_cancel hcount
  · constructor
    · exact iff_of_false Bool.false_ne_true Bool.false_ne_true
    · refine iff_of_false (fun hfalse => Bool.false_ne_true (hfalse.symm.trans hmark)) ?_
      rintro ⟨c, hc, -⟩
      cases hc
    all_goals
      intros
      contradiction
  · intro c j d hc
    cases hc

/-- A new connection is put into a free slot, and the counter goes up. -/
theorem accept (h : TableOk s) (now : Nat) : TableOk (s.accept now) := by
  unfold Server.accept
  show TableOk (if _ then _ else _)
  split_ifs with hfull
  · exact h
  · have hcountlt : countUsed s.connectionEnv.table s.connectionEnv.numOfMaxConnections <
        s.connectionEnv.numOfMaxConnections := by
      have := h.count
      omega
    obtain ⟨hlt, hunused⟩ := getUnusedConnectionId_spec s.connectionEnv hcountlt
    refine h.of_update _ hlt rfl rfl ?_ ⟨Nat.le_succ _, Nat.le_refl _, fun _ _ => rfl, fun _ _ => rfl⟩ ?_ ?_
    · rw [hunused, if_neg Bool.false_ne_true, if_pos rfl]
      rfl
    · constructor
      · exact iff_of_true rfl rfl
      · exact iff_of_true rfl ⟨_, rfl, rfl⟩
      · rintro c ⟨⟩
        rfl
      · rintro c ⟨⟩
        rfl
      · rintro c ⟨⟩
        exact Nat.lt_succ_self _
      · rintro c p ⟨⟩ hp
        cases hp
    · rintro c j d ⟨⟩ - hd
      exact (h.id_lt j d hd).ne'

/-- At the start every slot is free. -/
theorem init (maxClients : Nat) (metadata : WorldMetadata) (blockMapping : List UInt8) :
    TableOk (Server.init maxClients metadata blockMapping) := by
  have hnone : ∀ i, (Server.init maxClients metadata blockMapping).connection i = none := fun _ => rfl
  constructor
  · intro i
    exact iff_of_false Bool.false_ne_true (by rw [hnone]; exact Bool.false_ne_true)
  · intro i hi
    exact absurd hi Bool.false_ne_true
  · show 0 = List.countP _ _
    rw [eq_comm, List.countP_eq_zero]
    exact fun _ _ => Bool.false_ne_true
  · intro i
    refine iff_of_false (Bool.false_ne_true ∘ Eq.symm) ?_
    rintro ⟨conn, hconn, -⟩
    cases hconn
  all_goals
    intro i
    intros
    simp_all [Server.HasPlayer]

end TableOk

end Mmocraft
