import MarketRelay.Proofs.Relay.Counting
import Mathlib.Algebra.BigOperators.Group.List.Basic

/-!
# Frames that are evicted, and how many of them are counted

A frame that is pushed on a full queue evicts the oldest one, and the queue counts it.  The relay
counts it, too, whatever it pushed the frame for: an answer, an event, an acknowledgement or a
heartbeat.  Only a farewell is pushed without a look at what becomes of it.  So the relay's count
falls behind the counts of its queues by one for each session that is listed and has a full queue
when the relay is stopped, and by nothing else.

* `Session.count_dropped_tally`: this for one session and one step.
* `overlooks_step`: for the whole relay and one step, as `count_tally_add` has it.
* `messagesDropped_add_overlooked`: for runs, since `Overlooks` adds up along them.

The count of the relay is a word and those of its queues are numbers, so the equation of runs is one
of remainders; it is one of numbers as long as the evictions of all queues fit in a word.
-/
namespace MarketRelay

theorem OutboundQueue.count_dropped_tally (q : OutboundQueue) :
    q.tally.count .messagesDropped = q.evicts.toNat := by
  unfold tally evicts
  cases q.outcome <;> rfl

theorem OutboundQueue.count_dropped_acknowledgementTally (q : OutboundQueue) :
    q.acknowledgementTally.count .messagesDropped = q.evicts.toNat := by
  unfold acknowledgementTally
  cases q.evicts <;> rfl

/-! ## One session -/

namespace Session

/-- A step makes the queue of the session evict a frame. -/
def makesRoom (r : Relay) (st : Step) (s : Session) : Bool :=
  (s.pushed r st).isSome && s.queue.evicts

/-- A step makes the queue of the session evict a frame for a farewell. -/
def makesRoomForFarewell (st : Step) (s : Session) : Bool :=
  match st with
  | .stop => s.queue.isFull && s.isListed
  | _ => false

theorem dropped_after (r : Relay) (st : Step) (s : Session) :
    (s.after r st).queue.dropped = s.queue.dropped + (s.makesRoom r st).toNat := by
  unfold makesRoom
  refine queue_after_cases (P := fun q => q.dropped = _) ?_ ?_ ?_ ?_
  · intro q hq
    exact hq
  · intro _ hpushed
    rw [hpushed]
    rfl
  · intro _ hpushed
    rw [hpushed]
    rfl
  · intro m _ hpushed
    rw [hpushed, OutboundQueue.dropped_push]
    rfl

theorem count_dropped_tally {s : Session} (h : s.Orderly) (r : Relay) (st : Step) :
    (s.tally r st).count .messagesDropped + (s.makesRoomForFarewell st).toNat =
      (s.makesRoom r st).toNat := by
  rw [count_tally rfl]
  cases st with
  | message id m handledAt appliedAt =>
      simp only [frameTally, pushTally, makesRoom, makesRoomForFarewell]
      split
      · split <;> simp [*, OutboundQueue.count_dropped_tally,
          OutboundQueue.count_dropped_acknowledgementTally]
      · simp [*]
  | stop =>
      -- the queue of a listed session is open, so it evicts a frame just if it is full
      cases hlisted : s.isListed with
      | true =>
          simp [frameTally, pushTally, pushed, makesRoom, makesRoomForFarewell, hlisted,
            OutboundQueue.evicts_of_isOpen (h.isOpen hlisted)]
      | false => simp [frameTally, pushed, makesRoom, makesRoomForFarewell, hlisted]
  | _ =>
      simp only [frameTally, pushTally, makesRoom, makesRoomForFarewell]
      split <;> simp [*, OutboundQueue.count_dropped_tally]

end Session

/-! ## The balance -/

namespace Relay

variable {r r' r'' : Relay} {id : SessionId}

def evicted (r : Relay) : Nat := r.registry.sessions.foldr (fun s n => s.queue.dropped + n) 0

/-- From one state to a later one, the relay's count of evictions fell behind those of its queues by
`n`. -/
structure Overlooks (n : Nat) (r r' : Relay) : Prop where
  numbered : r'.registry.Numbered
  balance : ∃ counted, r'.evicted = r.evicted + counted + n ∧
    r'.metrics.get .messagesDropped =
      (r.metrics.get .messagesDropped + counted) % UInt64.size

theorem Overlooks.refl (h : r.registry.Numbered) : Overlooks 0 r r where
  numbered := h
  balance := ⟨0, rfl, (r.metrics.get_mod_size .messagesDropped).symm⟩

theorem Overlooks.trans {n n' : Nat} (h : Overlooks n r r') (h' : Overlooks n' r' r'') :
    Overlooks (n + n') r r'' where
  numbered := h'.numbered
  balance := by
    obtain ⟨counted, hevicted, hcount⟩ := h.balance
    obtain ⟨counted', hevicted', hcount'⟩ := h'.balance
    refine ⟨counted + counted', by omega, ?_⟩
    rw [hcount', hcount, Nat.mod_add_mod, Nat.add_assoc]

/-! ## Steps -/

/-- The number of frames that a step evicts and does not count: at a stop, one for each listed
session with a full queue. -/
def overlooked (r : Relay) : Step → Nat
  | .stop => r.registry.listed.countP (·.queue.isFull)
  | _ => 0

theorem evicted_step (h : r.registry.Numbered) (st : Step) :
    (r.step st).evicted = r.evicted + r.registry.sessions.countP (Session.makesRoom r st) := by
  have hsum : ∀ r : Relay, r.evicted = (r.registry.sessions.map (·.queue.dropped)).sum := by
    intro r
    rw [evicted, List.sum_eq_foldr, List.foldr_map]
  have hnew : ((r.admitted st).map (·.queue.dropped)).sum = 0 := by
    cases st with
    | enlist peer now =>
        simp only [admitted]
        split <;> rfl
    | _ => rfl
  rw [hsum, hsum, sessions_step h, List.map_append, List.sum_append, hnew, countP_eq_sum,
    ← List.sum_map_add, List.map_map, Nat.add_zero]
  exact congrArg List.sum (List.map_congr_left fun s _ => s.dropped_after r st)

theorem count_dropped_step (h : r.Orderly) (st : Step) :
    (r.tally st).count .messagesDropped + r.overlooked st =
      r.registry.sessions.countP (Session.makesRoom r st) := by
  have hoverlooked : r.overlooked st =
      r.registry.sessions.countP (Session.makesRoomForFarewell st) := by
    cases st with
    | stop => exact List.countP_filter
    | _ => exact (congrFun List.countP_false r.registry.sessions).symm
  rw [hoverlooked, countP_eq_sum, countP_eq_sum]
  exact count_tally_add (by decide) fun s hs => Session.count_dropped_tally (h.sessions s hs) r st

/-- A step overlooks frames only if it is a stop. -/
theorem overlooks_step (h : r.Orderly) (st : Step) :
    Overlooks (r.overlooked st) r (r.step st) where
  numbered := numbered_step h.numbered st
  balance := by
    refine ⟨(r.tally st).count .messagesDropped, ?_, grows_step h.numbered st .messagesDropped⟩
    rw [evicted_step h.numbered, ← count_dropped_step h, Nat.add_assoc]

/-! ## Runs -/

def overlookedIn : Relay → List Step → Nat
  | _, [] => 0
  | r, st :: steps => r.overlooked st + overlookedIn (r.step st) steps

theorem overlooks_run (h : r.Orderly) (steps : List Step) :
    Overlooks (overlookedIn r steps) r (r.run steps) := by
  induction steps generalizing r with
  | nil => exact .refl h.numbered
  | cons st steps ih => exact (overlooks_step h st).trans (ih (h.step st))

/-- In every run that is short enough for its evictions to fit in a word, the relay's count of
evictions is that of all its queues together, but for the frames that farewells evict. -/
theorem messagesDropped_add_overlooked (c : Config) (steps : List Step)
    (hshort : ((Relay.ofConfig c).run steps).evicted < UInt64.size) :
    ((Relay.ofConfig c).run steps).metrics.get .messagesDropped +
        overlookedIn (Relay.ofConfig c) steps =
      ((Relay.ofConfig c).run steps).evicted := by
  obtain ⟨counted, hevicted, hcount⟩ := (overlooks_run (orderly_ofConfig c) steps).balance
  have hnone : (Relay.ofConfig c).evicted = 0 := rfl
  have hzero : (Relay.ofConfig c).metrics.get .messagesDropped = 0 :=
    Metrics.get_empty .messagesDropped
  rw [hcount, hzero, Nat.zero_add, Nat.mod_eq_of_lt (by omega)]
  omega

/-- A client with room for one frame: its acknowledgement makes room for a trade, which is counted,
and the trade makes room for the farewell, which is not. -/
theorem messagesDropped_add_overlooked_farewell :
    let r := Relay.ofConfig { outboundQueueCapacity := 1 }
    let steps := [.enlist (.v4 127 0 0 1 50000) 0,
      .message 1 (.marketDataRequest ⟨.subscribe, 0, "BTC-USD", ""⟩) 5 6,
      .publish ⟨1, .trade ⟨⟨1⟩, ⟨2⟩, .sell, 7⟩⟩ 0, .stop]
    (r.run steps).evicted = 2 ∧ (r.run steps).metrics.get .messagesDropped = 1 ∧
      (r.run steps).metrics.get .messagesDropped + overlookedIn r steps =
        (r.run steps).evicted := by
  intro r steps
  have hevicted : (r.run steps).evicted = 2 := by decide +kernel
  have hshort : (r.run steps).evicted < UInt64.size := by
    rw [hevicted]
    decide
  exact ⟨hevicted, by decide +kernel,
    messagesDropped_add_overlooked { outboundQueueCapacity := 1 } steps hshort⟩

/-- A client whose acknowledgement still waits when the relay is stopped loses it, and the relay
counts no eviction. -/
theorem messagesDropped_ne_evicted :
    let c : Config := { outboundQueueCapacity := 1 }
    let q := (Relay.ofConfig c).run [.enlist (.v4 127 0 0 1 50000) 0,
      .message 1 (.marketDataRequest ⟨.subscribe, 0, "BTC-USD", ""⟩) 5 6, .stop]
    c.validate = .ok () ∧ q.metrics.get .messagesDropped = 0 ∧ q.evicted = 1 := by
  decide +kernel

end Relay
end MarketRelay
