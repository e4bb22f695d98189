import MarketRelay.Proofs.Relay.Counting
import Mathlib.Algebra.BigOperators.Group.List.Basic

/-!
# Frames that queues take, and how many of them are counted

A queue that is open takes what is pushed on it, and the relay counts a frame as queued if its queue
took it.  Two of the places where frames are pushed do not look at what becomes of them: a farewell
is never counted, and the acknowledgement of a subscription always is, also where the session has
ended, by a timeout or otherwise, while the request waited to be read.  So the relay's count is that
of all its queues together but for these.

* `Session.count_enqueued_tally`: this for one session and one step.
* `count_enqueued_step`: for all sessions and one step, as `count_tally_add` has it.
* `acceptedCount_eq`: what all queues take step by step is what they took in the end.  Sessions that
  are admitted on the way add nothing to the sum before they are there.
* `messagesEnqueued_add_farewells`: the equation for runs; it holds of the counter as long as the
  frames can be counted in a word.
-/
namespace MarketRelay

namespace Session

variable {r : Relay} {st : Step} {s : Session}

/-- The number of frames that the queue of the session takes in a step: one or none. -/
def intake (r : Relay) (st : Step) (s : Session) : Nat :=
  (OutboundQueue.newFrames s.queue (s.after r st).queue).length

/-- A step acknowledges a subscription of the session to a queue that takes no frames any more. -/
def subscribesInVain (r : Relay) (st : Step) (s : Session) : Bool :=
  match st with
  | .message id m _ _ => s.id == id && (s.acknowledged r m).isSome && s.queue.isClosed
  | _ => false

/-- A step takes leave of the session. -/
def isBidFarewell (st : Step) (s : Session) : Bool :=
  match st with
  | .stop => s.isListed
  | _ => false

theorem intake_eq (r : Relay) (st : Step) (s : Session) :
    s.intake r st = (!s.queue.isClosed && (s.pushed r st).isSome).toNat := by
  rw [intake, newFrames_after]
  cases s.queue.isClosed with
  | true => rfl
  | false => cases s.pushed r st <;> rfl

end Session

theorem OutboundQueue.count_enqueued_tally (q : OutboundQueue) :
    q.tally.count .messagesEnqueued = (!q.isClosed).toNat := by
  unfold tally outcome
  cases q.isClosed <;> cases q.isFull <;> rfl

theorem OutboundQueue.count_enqueued_acknowledgementTally (q : OutboundQueue) :
    q.acknowledgementTally.count .messagesEnqueued = 1 := by
  unfold acknowledgementTally
  cases q.evicts <;> rfl

theorem Session.count_enqueued_tally {s : Session} (h : s.Orderly) (r : Relay) (st : Step) :
    (s.tally r st).count .messagesEnqueued + (s.isBidFarewell st).toNat =
      s.intake r st + (s.subscribesInVain r st).toNat := by
  rw [count_tally rfl, intake_eq]
  cases st with
  | message id m handledAt appliedAt =>
      by_cases hid : s.id = id
      · simp only [frameTally, pushTally, pushed, subscribesInVain, isBidFarewell, if_pos hid,
          beq_iff_eq.mpr hid]
        cases hack : (s.acknowledged r m).isSome with
        | true =>
            cases hclosed : s.queue.isClosed <;>
              simp [isSome_reply_of_acknowledged hack,
                OutboundQueue.count_enqueued_acknowledgementTally]
        | false => cases s.reply r m <;> simp [OutboundQueue.count_enqueued_tally]
      · simp [frameTally, pushed, subscribesInVain, isBidFarewell, hid, beq_eq_false_iff_ne.mpr hid]
  | stop =>
      cases hlisted : s.isListed with
      | true => simp [frameTally, pushTally, pushed, subscribesInVain, isBidFarewell, hlisted,
          h.isOpen hlisted]
      | false => simp [frameTally, pushed, subscribesInVain, isBidFarewell, hlisted]
  | _ =>
      simp only [frameTally, pushTally, subscribesInVain, isBidFarewell]
      split <;> simp [*, OutboundQueue.count_enqueued_tally]

/-! ## One step -/

namespace Relay

variable {r : Relay} {st : Step}

/-- The number of frames that all queues together take in a step. -/
def intake (r : Relay) (st : Step) : Nat := (r.registry.sessions.map (Session.intake r st)).sum

/-- The number of acknowledgements in a step that no queue takes. -/
def acknowledgedInVain (r : Relay) (st : Step) : Nat :=
  r.registry.sessions.countP (Session.subscribesInVain r st)

def farewells (r : Relay) (st : Step) : Nat := r.registry.sessions.countP (Session.isBidFarewell st)

theorem count_enqueued_step (h : r.Orderly) (st : Step) :
    (r.tally st).count .messagesEnqueued + r.farewells st =
      r.intake st + r.acknowledgedInVain st := by
  rw [farewells, intake, acknowledgedInVain, countP_eq_sum, countP_eq_sum, ← List.sum_map_add]
  exact count_tally_add (by decide) fun s hs => Session.count_enqueued_tally (h.sessions s hs) r st

/-! ## Runs -/

def total (f : Relay → Step → Nat) : Relay → List Step → Nat
  | _, [] => 0
  | r, st :: steps => f r st + total f (r.step st) steps

def acceptedCount (r : Relay) (steps : List Step) : Nat :=
  ((r.run steps).registry.sessions.map fun s => (accepted s.id r steps).length).sum

theorem count_enqueued_run (h : r.Orderly) (steps : List Step) :
    (r.tallyIn steps).count .messagesEnqueued + total farewells r steps =
      total intake r steps + total acknowledgedInVain r steps := by
  induction steps generalizing r with
  | nil => rfl
  | cons st steps ih =>
      have hstep := count_enqueued_step h st
      have hrest := ih (h.step st)
      simp only [tallyIn, List.count_append, total]
      omega

theorem length_le_run (h : r.registry.Numbered) (steps : List Step) :
    r.registry.sessions.length ≤ (r.run steps).registry.sessions.length := by
  refine run_induction (P := fun r' => r'.registry.Numbered ∧
    r.registry.sessions.length ≤ r'.registry.sessions.length) ?_ ⟨h, Nat.le_refl _⟩ steps |>.2
  rintro r' st ⟨h, hle⟩
  refine ⟨numbered_step h st, Nat.le_trans hle ?_⟩
  rw [sessions_step h, List.length_append, List.length_map]
  exact Nat.le_add_right _ _

/-- Sessions that are admitted later add nothing to a sum over all sessions, if their numbers stand
for nothing so far. -/
theorem sum_sessions_run (h : r.registry.Numbered) (steps : List Step) (f : SessionId → Nat)
    (hf : ∀ id, r.session? id = none → f id = 0) :
    ((r.run steps).registry.sessions.map fun s => f s.id).sum =
      (r.registry.sessions.map fun s => f s.id).sum := by
  have hids : ∀ q : Registry, q.Numbered → q.sessions.map (fun s => f s.id) =
      (List.range' 1 q.sessions.length).map f := by
    intro q hq
    rw [← hq.ids, List.map_map]
    rfl
  obtain ⟨n, hn⟩ := Nat.exists_eq_add_of_le (length_le_run h steps)
  have hnew : ((List.range' (1 + r.registry.sessions.length) n).map f).sum = 0 := by
    refine List.sum_eq_zero fun x hx => ?_
    obtain ⟨id, hid, rfl⟩ := List.mem_map.mp hx
    refine hf id (Registry.session?_eq_none_iff.mpr fun s hs heq => ?_)
    have hold : s.id ∈ List.range' 1 r.registry.sessions.length :=
      h.ids ▸ List.mem_map_of_mem hs
    rw [heq, List.mem_range'_1] at hold
    rw [List.mem_range'_1] at hid
    omega
  rw [hids _ (numbered_run h steps), hids _ h, hn, ← List.range'_append_1, List.map_append,
    List.sum_append, hnew, Nat.add_zero]

theorem acceptedCount_eq (h : r.registry.Numbered) (steps : List Step) :
    r.acceptedCount steps = total intake r steps := by
  induction steps generalizing r with
  | nil => simp [acceptedCount, accepted, total]
  | cons st steps ih =>
      have hnow := sum_sessions_run h (st :: steps)
        (fun id => (OutboundQueue.newFrames (r.queue id) ((r.step st).queue id)).length)
        fun id hid => by rw [newFrames_step_of_none h hid]; rfl
      have hintake : (r.registry.sessions.map fun s =>
          (OutboundQueue.newFrames (r.queue s.id) ((r.step st).queue s.id)).length).sum =
            r.intake st := by
        refine congrArg List.sum (List.map_congr_left fun s hs => ?_)
        have hs := (Registry.session?_eq_some_iff h).mpr ⟨hs, rfl⟩
        rw [queue_of_some hs, queue_of_some (session?_step_of_some h hs st), Session.intake]
      rw [total, ← ih (numbered_step h st), ← hintake, ← hnow, acceptedCount, acceptedCount,
        run_cons, ← List.sum_map_add]
      simp only [accepted, List.length_append]

/-- In every run that is short enough for its frames to fit in a word, the relay's count of frames
that were queued is the number of frames that its queues took, but for the farewells, which it does
not count, and the acknowledgements to queues that were closed, which it does. -/
theorem messagesEnqueued_add_farewells (c : Config) (steps : List Step)
    (hshort : (Relay.ofConfig c).acceptedCount steps +
      total acknowledgedInVain (Relay.ofConfig c) steps < UInt64.size) :
    ((Relay.ofConfig c).run steps).metrics.get .messagesEnqueued +
        total farewells (Relay.ofConfig c) steps =
      (Relay.ofConfig c).acceptedCount steps +
        total acknowledgedInVain (Relay.ofConfig c) steps := by
  have horderly := orderly_ofConfig c
  have hgrows := grows_run horderly.numbered steps .messagesEnqueued
  have hzero : (Relay.ofConfig c).metrics.get .messagesEnqueued = 0 :=
    Metrics.get_empty .messagesEnqueued
  have hcount := count_enqueued_run horderly steps
  rw [← acceptedCount_eq horderly.numbered] at hcount
  rw [hgrows, hzero, Nat.zero_add, Nat.mod_eq_of_lt (by omega), hcount]

/-- A client that subscribes after it was dropped for its silence is acknowledged in vain, and the
trade that another client gets is counted together with that. -/
theorem messagesEnqueued_add_farewells_late_subscription :
    let r := Relay.ofConfig {}
    let l : Liveness := .ofConfig {}
    let subscribe (id : SessionId) : Step :=
      .message id (.marketDataRequest ⟨.subscribe, 0, "BTC-USD", ""⟩) 60000000002 60000000003
    let steps := [.enlist (.v4 127 0 0 1 50000) 0, .sweep l 60000000001 7,
      .enlist (.v4 127 0 0 1 50001) 60000000001, subscribe 1, subscribe 2,
      .publish ⟨1, .trade ⟨⟨1⟩, ⟨2⟩, .sell, 7⟩⟩ 0]
    r.acceptedCount steps = 2 ∧ total acknowledgedInVain r steps = 1 ∧
      (r.run steps).metrics.get .messagesEnqueued + total farewells r steps =
        r.acceptedCount steps + total acknowledgedInVain r steps := by
  intro r l subscribe steps
  have haccepted : r.acceptedCount steps = 2 := by decide +kernel
  have hvain : total acknowledgedInVain r steps = 1 := by decide +kernel
  have hshort : r.acceptedCount steps + total acknowledgedInVain r steps < UInt64.size := by
    rw [haccepted, hvain]
    decide
  exact ⟨haccepted, hvain, messagesEnqueued_add_farewells {} steps hshort⟩

/-- A client that was dropped for its silence while its subscription waited to be read: its queue
takes nothing, and the relay counts a frame. -/
theorem messagesEnqueued_ne_acceptedCount :
    let c : Config := {}
    let r := Relay.ofConfig c
    let steps := [.enlist (.v4 127 0 0 1 50000) 0, .sweep (.ofConfig c) 60000000001 7,
      .message 1 (.marketDataRequest ⟨.subscribe, 0, "BTC-USD", ""⟩) 60000000002 60000000003]
    c.validate = .ok () ∧ Step.stop ∉ steps ∧ r.acceptedCount steps = 0 ∧
      (r.run steps).metrics.get .messagesEnqueued = 1 := by
  decide +kernel

end Relay
end MarketRelay
