/-
# Mmocraft.Server.Sending -- whom a call of the world sends to

`send_to_players` and `multicast_to_players` reach the players of their list whose connection can be
acquired and takes the data.  What a connection was sent, and how often the callback moved a player
on, are counts in the list of those reached.

A list that names a player twice sends to it twice and calls back twice; the players that are selected from
the table are named once. What is said of one packet here is said by count, so that both kinds of lists are
covered.
-/
import Mathlib.Data.List.Nodup
import Mathlib.Logic.Function.Iterate
import Mmocraft.Server.Closure

namespace Mmocraft

open Mmocraft.Lib Mmocraft.Game Mmocraft.Net

/-! ## Ending a stage more than once -/

namespace Game.Player

/-- Ending its stage any number of times leaves a player prepared for the same state. -/
theorem iterate_transitState_nextState (player : Player) (n : Nat) :
    (Player.transitState^[n] player).nextState = player.nextState := by
  induction n generalizing player with
  | zero => rfl
  | succ n ih => exact ih player.transitState

/-- Ending its stage at least once leaves a player in the state it was prepared for. -/
theorem iterate_transitState_state (player : Player) {n : Nat} (hn : n ≠ 0) :
    (Player.transitState^[n] player).state = player.nextState := by
  obtain ⟨m, rfl⟩ := Nat.exists_eq_succ_of_ne_zero hn
  rw [Function.iterate_succ_apply']
  exact player.iterate_transitState_nextState m

/-- The stages of a player are its state's. -/
theorem iterate_transitState_toPlayerState (player : Player) (n : Nat) :
    (Player.transitState^[n] player).toPlayerState =
      PlayerState.transitState^[n] player.toPlayerState := by
  induction n generalizing player with
  | zero => rfl
  | succ n ih => exact ih player.transitState

end Game.Player

namespace Server

/-! ## The players that are reached -/

/-- The players of the list whose connection is acquired and takes the data. -/
def reached (s : Server) : List Nat → Outcomes → List Nat
  | [], _ => []
  | p :: ps, o => (if (s.tryAcquireOf p).isSome && o 0 then [p] else []) ++ s.reached ps o.tail

/-- Only the connections matter. -/
theorem reached_congr {s t : Server} (h : ∀ p, t.tryAcquireOf p = s.tryAcquireOf p) (ps : List Nat)
    (o : Outcomes) : t.reached ps o = s.reached ps o := by
  induction ps generalizing o with
  | nil => rfl
  | cons p ps ih => simp only [reached, h, ih]

/-- If no connection refuses, those that can be acquired are reached. -/
theorem reached_of_accepts (s : Server) (ps : List Nat) {o : Outcomes} (ho : ∀ k, o k = true) :
    s.reached ps o = ps.filter fun p => (s.tryAcquireOf p).isSome := by
  induction ps generalizing o with
  | nil => rfl
  | cons p ps ih =>
      rw [reached, ih (o := o.tail) fun k => ho (k + 1), ho 0, Bool.and_true, List.filter_cons]
      split_ifs <;> rfl

/-- With nothing refused, all attached players are reached. -/
theorem reached_eq_self {s : Server} {ps : List Nat} {o : Outcomes} (ho : ∀ k, o k = true)
    (hps : ∀ p ∈ ps, s.Attached p) (ht : TableOk s) : s.reached ps o = ps := by
  rw [reached_of_accepts s ps ho, List.filter_eq_self]
  intro p hp
  obtain ⟨i, conn, hhas, honline⟩ := hps p hp
  rw [tryAcquireOf_of_hasPlayer ht hhas honline]
  rfl

/-- The same connections can be acquired. -/
theorem tryAcquireOf_of_sameShape {s t : Server} (h : SameShape s t) (p : Nat) :
    t.tryAcquireOf p = s.tryAcquireOf p := by
  rw [tryAcquireOf, tryAcquireOf, tryAcquireConnection, tryAcquireConnection, h.connectionEnv,
    h.connectionKey]

/-! ## What is sent, and who is moved on -/

/-- What a connection was sent: the packet, once for each player reached on it. -/
theorem sendToPlayers_sent (packet : ServerPacket) (successed : Server → Nat → Server)
    (hshape : ∀ s p, SameShape s (successed s p)) (hsent : ∀ s p, (successed s p).sent = s.sent)
    (ps : List Nat) (o : Outcomes) (s : Server) (c : Nat) :
    (sendToPlayers packet successed ps o s).sent c = s.sent c ++ List.replicate
      ((s.reached ps o).countP fun p => (s.tryAcquireOf p).any (·.id == c)) packet := by
  induction ps generalizing o s with
  | nil => simp [sendToPlayers, reached]
  | cons p ps ih =>
      rw [sendToPlayers, ih, reached]
      cases hacq : s.tryAcquireOf p with
      | none =>
          have hone : s.sendToPlayer p packet (o 0) successed = s := by rw [sendToPlayer, hacq]
          rw [hone]
          rfl
      | some conn =>
          cases ho : o 0 with
          | false =>
              have hone : s.sendToPlayer p packet false successed = s := by rw [sendToPlayer, hacq]; rfl
              rw [hone]
              rfl
          | true =>
              have hone : s.sendToPlayer p packet true successed =
                  successed (s.send conn packet true) p := by
                rw [sendToPlayer, hacq]
                rfl
              have hkept : SameShape s (successed (s.send conn packet true) p) :=
                (SameShape.send s conn packet true).trans (hshape _ p)
              have hacquire := tryAcquireOf_of_sameShape hkept
              rw [hone, hsent, reached_congr hacquire]
              simp only [hacquire, Option.isSome_some, Bool.and_true, if_true, List.singleton_append,
                List.countP_cons, hacq, Option.any_some]
              show Function.update s.sent conn.id (s.sent conn.id ++ [packet]) c ++ _ = _
              by_cases hc : conn.id = c
              · rw [hc, Function.update_self, beq_self_eq_true, if_pos rfl, List.append_assoc,
                  List.replicate_succ]
                rfl
              · rw [Function.update_of_ne (Ne.symm hc), beq_false_of_ne hc]
                rfl

/-- Sending leaves the world to the callback. -/
theorem sendToPlayers_world (packet : ServerPacket) {successed : Server → Nat → Server}
    (hworld : ∀ s p, (successed s p).world = s.world) (ps : List Nat) (o : Outcomes) (s : Server) :
    (sendToPlayers packet successed ps o s).world = s.world :=
  sendToPlayers_rel (R := fun s t => t.world = s.world) (fun _ => rfl) (fun h h' => h'.trans h)
    (fun _ _ => rfl) hworld ps o s

/-- The players: the callback changes each as often as it is reached. -/
theorem sendToPlayers_players (packet : ServerPacket) {successed : Server → Nat → Server}
    {f : Player → Player} (hshape : ∀ s p, SameShape s (successed s p))
    (hplayers : ∀ s p, (successed s p).players = Function.update s.players p (f (s.players p)))
    (ps : List Nat) (o : Outcomes) (s : Server) (p : Nat) :
    (sendToPlayers packet successed ps o s).players p =
      f^[(s.reached ps o).count p] (s.players p) := by
  induction ps generalizing o s with
  | nil => rfl
  | cons q ps ih =>
      rw [sendToPlayers, ih, reached]
      cases hacq : s.tryAcquireOf q with
      | none =>
          have hone : s.sendToPlayer q packet (o 0) successed = s := by rw [sendToPlayer, hacq]
          rw [hone]
          rfl
      | some conn =>
          cases ho : o 0 with
          | false =>
              have hone : s.sendToPlayer q packet false successed = s := by
                rw [sendToPlayer, hacq]
                rfl
              rw [hone]
              rfl
          | true =>
              have hone : s.sendToPlayer q packet true successed =
                  successed (s.send conn packet true) q := by
                rw [sendToPlayer, hacq]
                rfl
              have hkept : SameShape s (successed (s.send conn packet true) q) :=
                (SameShape.send s conn packet true).trans (hshape _ q)
              rw [hone, reached_congr (tryAcquireOf_of_sameShape hkept), hplayers]
              simp only [Option.isSome_some, Bool.and_true, if_true, List.singleton_append,
                List.count_cons]
              by_cases hqp : p = q
              · rw [hqp, Function.update_self, beq_self_eq_true, if_pos rfl,
                  Function.iterate_succ_apply]
                rfl
              · rw [Function.update_of_ne hqp, beq_false_of_ne (Ne.symm hqp)]
                rfl

/-- The states of the players: the callback moves each on as often as it is reached. -/
theorem sendAndTransit_players (packet : ServerPacket) (hint : State) (ps : List Nat) (o : Outcomes)
    (s : Server) (p : Nat) :
    (sendToPlayers packet (fun s p => s.transitState p hint) ps o s).players p =
      Player.transitState^[(s.reached ps o).count p] (s.players p) :=
  sendToPlayers_players packet (fun s p => SameShape.transitState s p hint) (fun _ _ => rfl) ps o s p

/-! ## The players of the table -/

variable {s : Server} (ht : TableOk s)

include ht

/-- The players that `select_players` finds. -/
theorem mem_selectPlayersFrom {st : State} {p : Nat} :
    p ∈ s.selectPlayersFrom st ↔ s.Attached p ∧ st ≤ (s.players p).state := by
  simp only [selectPlayersFrom, ConnectionEnvironment.selectPlayers, List.mem_filterMap,
    List.mem_range, Option.filter_eq_some_iff, decide_eq_true_eq]
  constructor
  · rintro ⟨i, -, hp, hst⟩
    obtain ⟨conn, hhas, honline⟩ := ht.of_playerOf hp
    exact ⟨hhas.attached honline, hst⟩
  · rintro ⟨⟨i, conn, hhas, honline⟩, hst⟩
    have hused : (s.connectionEnv.table i).used = true :=
      (ht.used_iff i).mpr (by rw [hhas.1]; rfl)
    exact ⟨i, ht.used_lt i hused, ht.playerOf_eq hhas honline, hst⟩

/-- If no connection refuses, everybody that `select_players` finds is reached. -/
theorem reached_selectPlayersFrom (st : State) {o : Outcomes} (ho : ∀ k, o k = true) :
    s.reached (s.selectPlayersFrom st) o = s.selectPlayersFrom st := by
  apply reached_eq_self ho _ ht
  exact fun p hp => ((mem_selectPlayersFrom ht).mp hp).1

/-- An attached player is found once, if it is in such a state. -/
theorem count_selectPlayersFrom {st : State} {p : Nat} (hp : s.Attached p) :
    (s.selectPlayersFrom st).count p = if st ≤ (s.players p).state then 1 else 0 := by
  obtain ⟨i, conn, hhas, honline⟩ := id hp
  split_ifs with hst
  · have hused : (s.connectionEnv.table i).used = true :=
      (ht.used_iff i).mpr (by rw [hhas.1]; rfl)
    have hslot : ∀ j, (((s.connectionEnv.playerOf j).filter
        fun q => decide (st ≤ (s.players q).state)) == some p) = (j == i) := by
      intro j
      rw [Bool.eq_iff_iff, beq_iff_eq, beq_iff_eq, Option.filter_eq_some_iff]
      constructor
      · rintro ⟨hj, -⟩
        obtain ⟨d, hd, -⟩ := ht.of_playerOf hj
        exact (ht.hasPlayer_unique hd hhas).1
      · rintro rfl
        exact ⟨ht.playerOf_eq hhas honline, decide_eq_true hst⟩
    rw [selectPlayersFrom, ConnectionEnvironment.selectPlayers, List.count_filterMap]
    simp only [hslot]
    exact List.count_eq_one_of_mem List.nodup_range (List.mem_range.mpr (ht.used_lt i hused))
  · exact List.count_eq_zero.mpr fun hmem => hst ((mem_selectPlayersFrom ht).mp hmem).2

/-- On the connection of `p`, among players that connections own, only `p` is reached. -/
theorem acquires_iff {i p q : Nat} {conn : Connection} (hp : s.HasPlayer i conn p)
    (honline : conn.isOnline = true) (hq : ∃ j d, s.HasPlayer j d q) :
    (s.tryAcquireOf q).any (·.id == conn.id) = true ↔ q = p := by
  constructor
  · intro hany
    obtain ⟨d, hd, hid⟩ := (Option.any_eq_true ..).mp hany
    obtain ⟨j, e, hhas⟩ := hq
    have hslot := (ht.of_tryAcquire hd).1
    rw [ht.player_key _ _ _ hhas, ht.key_index _ _ hhas.1] at hslot
    obtain rfl := ht.id_inj _ _ _ _ hslot hp.1 (beq_iff_eq.mp hid)
    obtain rfl : conn = e := Option.some.inj (hp.1.symm.trans hhas.1)
    exact Option.some.inj (hhas.2.symm.trans hp.2)
  · rintro rfl
    rw [tryAcquireOf_of_hasPlayer ht hp honline, Option.any_some, beq_self_eq_true]

/-- If no connection refuses, that of an attached player is reached as often as the player is
listed. -/
theorem countP_reached {i p : Nat} {conn : Connection} (hp : s.HasPlayer i conn p)
    (honline : conn.isOnline = true) {ps : List Nat} (hps : ∀ q ∈ ps, ∃ j d, s.HasPlayer j d q)
    {o : Outcomes} (ho : ∀ k, o k = true) :
    ((s.reached ps o).countP fun q => (s.tryAcquireOf q).any (·.id == conn.id)) = ps.count p := by
  rw [reached_of_accepts s ps ho, List.countP_filter]
  apply List.countP_congr
  intro q hq
  rw [Bool.and_eq_true, acquires_iff ht hp honline (hps q hq), beq_iff_eq]
  constructor
  · exact And.left
  · rintro rfl
    exact ⟨rfl, by rw [tryAcquireOf_of_hasPlayer ht hp honline]; rfl⟩

/-- The connection of an attached player is sent the packet as often as the player is listed. -/
theorem sendToPlayers_sent_of_accepts (packet : ServerPacket) (successed : Server → Nat → Server)
    (hshape : ∀ s p, SameShape s (successed s p)) (hsent : ∀ s p, (successed s p).sent = s.sent)
    {i p : Nat} {conn : Connection} (hp : s.HasPlayer i conn p) (honline : conn.isOnline = true)
    {ps : List Nat} (hps : ∀ q ∈ ps, ∃ j d, s.HasPlayer j d q) {o : Outcomes} (ho : ∀ k, o k = true) :
    (sendToPlayers packet successed ps o s).sent conn.id =
      s.sent conn.id ++ List.replicate (ps.count p) packet := by
  rw [sendToPlayers_sent packet successed hshape hsent, countP_reached ht hp honline hps ho]

omit ht

/-! ## Spawning and despawning -/

/-- The spawn records that a connection is sent by a run of `spawn_player`. -/
theorem spawnPlayer_sent (s : Server) (waiting : List Nat) (o o' : Outcomes) (c : Nat) :
    (s.spawnPlayer waiting o o').sent c = s.sent c ++
      List.replicate ((s.reached waiting o).countP fun v => (s.tryAcquireOf v).any (·.id == c))
        (.spawnPlayers ((s.selectPlayersFrom .spawned ++ waiting).map fun p =>
          spawnRecord (s.players p))) ++
      List.replicate ((s.reached (s.selectPlayersFrom .spawned) o').countP fun v =>
          (s.tryAcquireOf v).any (·.id == c))
        (.spawnPlayers (waiting.map fun p => spawnRecord (s.players p))) := by
  have hshape := fun packet => SameShape.sendAndTransit packet .spawned waiting o s
  simp only [spawnPlayer, List.map_append]
  rw [sendToPlayers_sent _ noCallback (fun s _ => SameShape.refl s) fun _ _ => rfl,
    sendToPlayers_sent _ _ (fun s p => SameShape.transitState s p _) fun _ _ => rfl,
    reached_congr (tryAcquireOf_of_sameShape (hshape _))]
  simp only [tryAcquireOf_of_sameShape (hshape _)]

/-- Sending without a callback leaves the players alone. -/
theorem sendToPlayers_noCallback_players (packet : ServerPacket) (ps : List Nat) (o : Outcomes)
    (s : Server) : (sendToPlayers packet noCallback ps o s).players = s.players :=
  sendToPlayers_rel (R := fun s t => t.players = s.players) (fun _ => rfl) (fun h h' => h'.trans h)
    (fun _ _ => rfl) (fun _ _ => rfl) ps o s

/-- `spawn_player` ends the stage of whom it reaches. -/
theorem spawnPlayer_players (s : Server) (waiting : List Nat) (o o' : Outcomes) (p : Nat) :
    (s.spawnPlayer waiting o o').players p =
      Player.transitState^[(s.reached waiting o).count p] (s.players p) := by
  rw [spawnPlayer, sendToPlayers_noCallback_players, sendAndTransit_players]

/-- The task changes states of players and what was sent. -/
theorem sameShape_spawnPlayer (s : Server) (waiting : List Nat) (o o' : Outcomes) :
    SameShape s (s.spawnPlayer waiting o o') :=
  (SameShape.sendAndTransit _ _ waiting o s).trans
    (Quiet.sendToPlayers _ Quiet.noCallback _ o' _).sameShape

end Server

end Mmocraft
