import MarketRelay.Proofs.Relay.Traffic

/-!
# What holds of every session

A session that is listed takes frames, and it has logged on if it subscribes to anything.  This
holds of all sessions of a relay at all times, whatever its clients send and in whatever order the
steps are taken.

`Session.Orderly` is the invariant of a session, and `Relay.Orderly` that of all sessions together
with their numbering.  A step is `Session.after` on every session and possibly a fresh one, so there
are just two things to show: that a fresh session is orderly, and that `Session.after` keeps it so
(`Orderly.after`).  The latter rests on what a step leaves alone: only an end closes a queue
(`isClosed_queue_after`), only a logon changes how far a client got with it, and then for good
(`sameLogon_updated`, `auth_updated_of_authenticated`), and only a request of a client that has
logged on changes what it subscribes to (`subscriptions_updated`).
-/
namespace MarketRelay

/-! ## Sessions -/

namespace Session

/-- What holds of a session at all times. -/
structure Orderly (s : Session) : Prop where
  isOpen : s.isListed = true → s.queue.isClosed = false
  subscriber : s.isListed = true → s.subscriptions ≠ [] → s.isAuthenticated = true

theorem orderly_fresh (id : SessionId) (peer : SocketAddress) (now : Instant)
    (authenticated : Bool) (capacity : Nat) :
    (fresh id peer now authenticated capacity).Orderly where
  isOpen := fun _ => rfl
  subscriber := fun _ hne => absurd rfl hne

@[simp] theorem isListed_pushMessage (s : Session) (m : Option Message) :
    (s.pushMessage m).isListed = s.isListed := by
  cases m <;> rfl

@[simp] theorem closeReason_pushMessage (s : Session) (m : Option Message) :
    (s.pushMessage m).closeReason = s.closeReason := by
  cases m <;> rfl

/-- Only a session that was listed and that the step does not end is listed after it. -/
theorem isListed_after {r : Relay} {st : Step} {s : Session}
    (h : (s.after r st).isListed = true) : s.isListed = true ∧ s.ending r st = none := by
  rw [after] at h
  cases hending : s.ending r st with
  | none =>
      rw [hending, leaveFor, isListed_pushMessage, isListed_updated] at h
      exact ⟨h, rfl⟩
  | some reason =>
      rw [hending, leaveFor, isListed_leave] at h
      cases h

theorem isClosed_queue_after {r : Relay} {st : Step} {s : Session}
    (h : s.ending r st = none) : (s.after r st).queue.isClosed = s.queue.isClosed := by
  rw [after, h, leaveFor]
  have hupdated : (s.updated r st).queue.isClosed = s.queue.isClosed := by
    by_cases hdrain : st = .drain s.id
    · subst hdrain
      rw [updated_drain]
      rfl
    · rw [(sameWay_updated hdrain).queue]
  cases s.pushed r st with
  | none => exact hupdated
  | some m => exact (OutboundQueue.isClosed_push _ m.encode).trans hupdated

theorem isAuthenticated_iff {s : Session} : s.isAuthenticated = true ↔ s.auth = .authenticated := by
  simp [isAuthenticated]

theorem auth_authenticate_of_authenticated {s : Session} (h : s.auth = .authenticated)
    (username : String) (now : Instant) :
    (s.authenticate username now).1.auth = .authenticated := by
  unfold authenticate
  split
  · rfl
  · split
    · exact h
    · exact h
  · exact h

theorem sameLogon_updated (r : Relay) (st : Step) (s : Session) :
    s.SameLogon (s.updated r st) ∨
      ∃ request handledAt appliedAt,
        st = .message s.id (.logonRequest request) handledAt appliedAt ∧
          s.updated r st = s.noted r (.logonRequest request) handledAt appliedAt := by
  cases st with
  | message id m handledAt appliedAt =>
      by_cases hid : s.id = id
      · subst hid
        simp only [updated, if_true]
        cases m with
        | logonRequest request => exact Or.inr ⟨request, handledAt, appliedAt, rfl, rfl⟩
        | marketDataRequest request =>
            left
            simp only [noted]
            split
            · exact s.sameLogon_requested r request
            · exact .refl s
        | _ => exact Or.inl ⟨rfl, rfl⟩
      · left
        simp only [updated, if_neg hid]
        exact .refl s
  | sweep l now clock =>
      left
      simp only [updated]
      split <;> exact ⟨rfl, rfl⟩
  | drain id =>
      left
      simp only [updated]
      split <;> exact ⟨rfl, rfl⟩
  | _ => exact Or.inl (.refl s)

/-- A logon lasts as long as the session. -/
theorem auth_updated_of_authenticated {r : Relay} {st : Step} {s : Session}
    (h : s.auth = .authenticated) (hending : s.ending r st = none) :
    (s.updated r st).auth = .authenticated := by
  rcases sameLogon_updated r st s with hsame | ⟨request, handledAt, appliedAt, rfl, hnoted⟩
  · rw [hsame.auth]
    exact h
  · rw [hnoted]
    simp only [ending, if_true, endingBy, noted] at hending ⊢
    split
    · split
      · exact auth_authenticate_of_authenticated h request.username appliedAt
      · exact h
    · rename_i hrefused
      rw [if_neg hrefused] at hending
      cases hending

@[simp] theorem subscriptions_authenticate (s : Session) (username : String) (now : Instant) :
    (s.authenticate username now).1.subscriptions = s.subscriptions := by
  unfold authenticate
  split
  · rfl
  · split <;> rfl
  · rfl

theorem subscriptions_updated (r : Relay) (st : Step) (s : Session) :
    (s.updated r st).subscriptions = s.subscriptions ∨
      s.isAuthenticated = true ∧ ∃ request handledAt appliedAt,
        st = .message s.id (.marketDataRequest request) handledAt appliedAt ∧
          (s.updated r st).subscriptions = (s.requested r request).subscriptions := by
  cases st with
  | message id m handledAt appliedAt =>
      by_cases hid : s.id = id
      · subst hid
        simp only [updated, if_true]
        cases m with
        | logonRequest request =>
            left
            simp only [noted]
            split
            · split
              · exact s.subscriptions_authenticate request.username appliedAt
              · rfl
            · rfl
        | marketDataRequest request =>
            by_cases hauth : s.isAuthenticated = true
            · refine Or.inr ⟨hauth, request, handledAt, appliedAt, rfl, ?_⟩
              simp only [noted, if_pos hauth]
            · left
              simp only [noted, if_neg hauth]
        | _ => exact Or.inl rfl
      · left
        simp only [updated, if_neg hid]
  | sweep l now clock =>
      left
      simp only [updated]
      split <;> rfl
  | drain id =>
      left
      simp only [updated]
      split <;> rfl
  | _ => exact Or.inl rfl

theorem Orderly.after {r : Relay} {s : Session} (h : s.Orderly) (st : Step) :
    (s.after r st).Orderly where
  isOpen := by
    intro hlisted
    obtain ⟨hlisted, hending⟩ := isListed_after hlisted
    rw [isClosed_queue_after hending]
    exact h.isOpen hlisted
  subscriber := by
    intro hlisted hne
    obtain ⟨hlisted, hending⟩ := isListed_after hlisted
    rw [(s.sameClient_after r st).subscriptions] at hne
    rw [isAuthenticated_iff, (s.sameClient_after r st).auth]
    refine auth_updated_of_authenticated (isAuthenticated_iff.mp ?_) hending
    rcases subscriptions_updated r st s with hsame | ⟨hauth, -⟩
    · rw [hsame] at hne
      exact h.subscriber hlisted hne
    · exact hauth

end Session

/-! ## Relays -/

namespace Relay

/-- What holds of a relay at all times. -/
structure Orderly (r : Relay) : Prop where
  numbered : r.registry.Numbered
  sessions : ∀ s ∈ r.registry.sessions, s.Orderly

theorem orderly_ofConfig (c : Config) : (Relay.ofConfig c).Orderly where
  numbered := Registry.numbered_empty c.maxClients
  sessions := by
    intro s hs
    cases hs

theorem Orderly.step {r : Relay} (h : r.Orderly) (st : Step) : (r.step st).Orderly where
  numbered := numbered_step h.numbered st
  sessions := by
    intro s hs
    rw [sessions_step h.numbered, List.mem_append] at hs
    rcases hs with hold | hnew
    · obtain ⟨t, ht, rfl⟩ := List.mem_map.mp hold
      exact (h.sessions t ht).after st
    · cases st with
      | enlist peer now =>
          simp only [admitted] at hnew
          split at hnew
          · cases hnew
          · obtain rfl := List.mem_singleton.mp hnew
            exact Session.orderly_fresh _ _ _ _ _
      | _ => cases hnew

theorem Orderly.run {r : Relay} (h : r.Orderly) (steps : List Step) : (r.run steps).Orderly :=
  run_induction (P := Orderly) (fun _ st h => h.step st) h steps

theorem Orderly.session {r : Relay} (h : r.Orderly) {id : SessionId} {s : Session}
    (hs : r.session? id = some s) : s.Orderly :=
  h.sessions s ((Registry.session?_eq_some_iff h.numbered).mp hs).1

end Relay
end MarketRelay
