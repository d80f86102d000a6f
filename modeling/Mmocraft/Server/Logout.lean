/-
# Mmocraft.Server.Logout -- the notification of the login server

`on_disconnect` sends a `PlayerLogoutRequest` for a player from `handshaked` on, and only
`Connection::disconnect` calls it.  But `disconnect` hands exactly these players over to the world,
which puts them into `disconnecting` and later `disconnected`; when the connection finally goes
offline, the player is in neither of the states that `on_disconnect` asks for.
-/
import Mmocraft.Server.History

namespace Mmocraft

open Mmocraft.Lib Mmocraft.Game Mmocraft.Net

namespace Server

/-- The login server is told of the logouts: one request, with the player's username, for every
player whose connection went offline after the player had reached a live state, and no request for
a connection that never had such a player. -/
def LogoutNotified (s : Server) : Prop :=
  (∀ p, s.WentOffline p → s.log.count (.logout (s.owner p) (s.players p).username) = 1) ∧
  ∀ conn username, .logout conn username ∈ s.log → ∃ p, s.owner p = conn ∧ ReachedLive s.log p

/-- No run ever sends a logout request. -/
theorem not_logout_of_run {maxClients : Nat} {metadata : WorldMetadata} {blockMapping : List UInt8}
    {es : List Event} {s : Server}
    (hrun : run Server.step (Server.init maxClients metadata blockMapping) es = some s)
    (conn : Nat) (username : List UInt8) : .logout conn username ∉ s.log :=
  (consistent_of_run hrun).2.not_logout conn username

/-- **Logout notification.** A run meets it exactly when no connection went offline after its player
had reached a live state: the request that is due then is never sent. -/
theorem logoutNotified_iff {maxClients : Nat} {metadata : WorldMetadata} {blockMapping : List UInt8}
    {es : List Event} {s : Server}
    (hrun : run Server.step (Server.init maxClients metadata blockMapping) es = some s) :
    s.LogoutNotified ↔ ∀ p, ¬ s.WentOffline p := by
  have hnone := not_logout_of_run hrun
  constructor
  · intro h p hoffline
    have hone := h.1 p hoffline
    rw [List.count_eq_zero_of_not_mem (hnone _ _)] at hone
    omega
  · intro h
    refine ⟨fun p hoffline => absurd hoffline (h p), fun conn username hmem => ?_⟩
    exact absurd hmem (hnone conn username)

theorem logoutNotified_iff_guestSession :
    ∃ s, run Server.step small guestSession = some s ∧
      (s.LogoutNotified ↔ ∀ p, ¬ s.WentOffline p) := by
  obtain ⟨s, hs⟩ := Option.isSome_iff_exists.mp
    (show (run Server.step small guestSession).isSome = true by decide)
  exact ⟨s, hs, logoutNotified_iff hs⟩

/-- The player of that session was spawned and its connection went offline, without a logout. -/
theorem not_logoutNotified_guestSession :
    ∃ s, run Server.step small guestSession = some s ∧ .state 0 .spawned ∈ s.log ∧
      .offline 0 ∈ s.log ∧ ¬ s.LogoutNotified := by
  have hrun : ((run Server.step small guestSession).map fun s =>
      (decide (s.WentOffline 0), decide (.state 0 .spawned ∈ s.log), decide (.offline 0 ∈ s.log),
        s.log.count (.logout (s.owner 0) (s.players 0).username))) = some (true, true, true, 0) := by
    decide
  obtain ⟨s, hs, heq⟩ := Option.map_eq_some_iff.mp hrun
  simp only [Prod.mk.injEq, decide_eq_true_eq] at heq
  obtain ⟨hwent, hspawned, hoffline, hcount⟩ := heq
  refine ⟨s, hs, hspawned, hoffline, fun h => ?_⟩
  have hone := h.1 0 hwent
  omega

end Server

end Mmocraft
