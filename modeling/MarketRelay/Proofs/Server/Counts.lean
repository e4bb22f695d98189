import MarketRelay.Proofs.Server.Deliveries

/-!
# Counts that fit in words

The number of the next session, the number of closed sessions and the number of frames that a queue
has evicted are natural numbers here.  As words of 64 bits they start anew at zero after the last
one.  This module shows that no run of fewer than 2⁶⁴ − 1 steps tells the two apart, so that what is
proved of the numbers is true of words for that long.

The argument is that a step adds at most one to each of them.

* A step admits at most one session (`Works.length_le`), and as many numbers are used up as there
  are sessions.  Of these sessions no more can have been closed than there are (`Balanced.listed`).
* A step pushes at most one frame on the queue of each session, which evicts at most one
  (`Session.Gets.dropped_le`); the queue of a session that was not there before has evicted nothing.

`countsUpTo_run` says so of all runs of a server at work, and `toNat_counts` says what it means for
words.  The metrics of a relay are words here, too, so they need no such bound.
-/
namespace MarketRelay

namespace Relay

variable {r r' : Relay} {required : Bool} {past : List SessionEvent}

/-- The counts of a relay that has come no further than `n`. -/
structure CountsUpTo (r : Relay) (n : Nat) : Prop where
  nextId : r.registry.nextId ≤ n + 1
  closedTotal : r.registry.closedTotal ≤ n
  dropped : ∀ s ∈ r.registry.sessions, s.queue.dropped ≤ n

theorem Works.length_le (hworks : Works r r') (h : r.registry.Numbered) :
    r'.registry.sessions.length ≤ r.registry.sessions.length + 1 := by
  have hmap : ∀ {f : Session → Session} {r' : Relay},
      r'.registry.sessions = r.registry.sessions.map f →
        r'.registry.sessions.length ≤ r.registry.sessions.length + 1 := by
    intro f r' hsessions
    rw [hsessions, List.length_map]
    exact Nat.le_succ _
  have hstep : ∀ st, r.admitted st = [] →
      (r.step st).registry.sessions.length ≤ r.registry.sessions.length + 1 := by
    intro st hnobody
    have hsessions := sessions_step h st
    rw [hnobody, List.append_nil] at hsessions
    exact hmap hsessions
  cases hworks with
  | same => exact Nat.le_succ _
  | count k hk => exact Nat.le_succ _
  | letIn peer now henlist =>
      obtain ⟨-, -, s, -, -, -, rfl⟩ := exists_eq_of_enlist henlist
      exact Nat.le_of_eq List.length_append
  | handle id m now =>
      obtain ⟨f, -, hsessions, -⟩ :=
        Interleaved.exists_handle_only (r.count .framesReceived) id m now
      exact hmap hsessions
  | apply id now e he => exact hmap (sessions_applyOne h id now e)
  | takeLeave id => exact hmap (sessions_shutDownSession h id)
  | stop => exact hstep .stop rfl
  | drain id => exact hstep (.drain id) rfl
  | sweep l now clock => exact hstep (.sweep l now clock) rfl
  | publish e elapsed => exact hstep (.publish e elapsed) rfl

/-- Where there are so many sessions and no queue has evicted more frames than that, no count has
come further. -/
theorem Balanced.countsUpTo (h : r.Balanced) (hnumbered : r.registry.Numbered) {n : Nat}
    (hlength : r.registry.sessions.length ≤ n)
    (hdropped : ∀ s ∈ r.registry.sessions, s.queue.dropped ≤ n) : r.CountsUpTo n where
  nextId := hnumbered.nextId ▸ Nat.succ_le_succ hlength
  closedTotal := by
    have hlisted := h.listed
    omega
  dropped := hdropped

end Relay

namespace Service

variable {c : Config} {s : Service} {n : Nat}

theorem Sound.countsUpTo_step (hsound : Sound c s) (h : s.relay.CountsUpTo n) (st : ServerStep) :
    (s.step st).relay.CountsUpTo (n + 1) := by
  have hnumbered := hsound.chronicled.numbered
  have hsound' := hsound.step st
  have hnumbered' := hsound'.chronicled.numbered
  have hlength : s.relay.registry.sessions.length ≤ n := by
    have hnext := h.nextId
    rw [hnumbered.nextId] at hnext
    exact Nat.le_of_succ_le_succ hnext
  have hgrown := (works_step hsound.answers st).length_le hnumbered
  refine hsound'.balanced.countsUpTo hnumbered' (by omega) fun u hu => ?_
  have hu' := (Registry.session?_eq_some_iff hnumbered').mpr ⟨hu, rfl⟩
  cases ht : s.relay.session? u.id with
  | none =>
      have hnew := (queue_step_of_none hsound ht st).2
      rw [Relay.queue_of_some hu'] at hnew
      exact hnew ▸ Nat.zero_le _
  | some t =>
      obtain ⟨u', hu'', hgets⟩ := gets_step hsound ht st
      obtain rfl := Option.some.inj (hu'.symm.trans hu'')
      have hbefore := h.dropped t ((Registry.session?_eq_some_iff hnumbered).mp ht).1
      exact Nat.le_trans hgets.dropped_le (Nat.succ_le_succ hbefore)

/-- **Counts keep step.**  After `n` steps of those who work at a server no count of its relay has
come further than `n`. -/
theorem countsUpTo_run (c : Config) (steps : List ServerStep) :
    ((ofConfig c).run steps).relay.CountsUpTo steps.length := by
  induction steps using List.reverseRecOn with
  | nil => exact ⟨Nat.le_refl 1, Nat.le_refl 0, fun _ hs => absurd hs List.not_mem_nil⟩
  | append_singleton steps st ih =>
      rw [run_append, run_cons, run_nil, List.length_append, List.length_singleton]
      exact ((sound_ofConfig c).run steps).countsUpTo_step ih st

/-- In runs that are not too long a word of 64 bits holds each of the counts, and the number of each
session. -/
theorem toNat_counts (c : Config) {steps : List ServerStep}
    (h : steps.length + 1 < UInt64.size) :
    let r := ((ofConfig c).run steps).relay
    (UInt64.ofNat r.registry.nextId).toNat = r.registry.nextId ∧
      (UInt64.ofNat r.registry.closedTotal).toNat = r.registry.closedTotal ∧
      ∀ s ∈ r.registry.sessions, (UInt64.ofNat s.id).toNat = s.id ∧
        (UInt64.ofNat s.queue.dropped).toNat = s.queue.dropped := by
  intro r
  have hcounts := countsUpTo_run c steps
  have hnumbered := ((sound_ofConfig c).run steps).chronicled.numbered
  have hword : ∀ n ≤ steps.length + 1, (UInt64.ofNat n).toNat = n := fun n hn =>
    UInt64.toNat_ofNat_of_lt' (Nat.lt_of_le_of_lt hn h)
  refine ⟨hword _ hcounts.nextId, hword _ (Nat.le_succ_of_le hcounts.closedTotal), fun s hs =>
    ⟨hword _ ?_, hword _ (Nat.le_succ_of_le (hcounts.dropped s hs))⟩⟩
  exact Nat.le_of_lt (Nat.lt_of_lt_of_le (hnumbered.id_lt_nextId hs) hcounts.nextId)

end Service
end MarketRelay
