import MarketRelay.Proofs.Relay.Departure
import MarketRelay.Proofs.Relay.Heartbeats
import MarketRelay.Proofs.Relay.SnapshotAge
import MarketRelay.Proofs.Server.Work
import MarketRelay.Proofs.Session.Fates

/-!
# What heartbeats tell of losses

A heartbeat tells its client how many frames were evicted from its queue before the heartbeat was
queued.  To say which these are, the turns of a relay are seen as operations on the queue of one
session: of every frame that the queue took it is then known when it was taken and how it left.

* `explained_turn`, `explained_run`: what turns do to the queue of a session accounts for all that
  became of it.  The one is a case split on turns, the other an induction.
* `numDropped_of_mem_newFrames`: a heartbeat that a queue takes in a turn tells how many frames the
  queue has evicted by then.  The heartbeat is sent by a look that is a single turn, so nothing
  comes between counting and queuing.
* `evictions_le`: what was evicted in some turns is among the frames that the queue took in them.
* `toldLosses_accepted`: so of the losses told, in the order in which the heartbeats are queued,
  none is less than one before it.
* `heartbeats_tell_losses`: and since frames leave in the order in which they came, the same holds
  of the heartbeats that are handed over; a client that gets one has lost at least as many frames
  as it tells.

A heartbeat carries a word of 32 bits, in which the count of evictions is cut off at the largest
one, not taken modulo its size.
-/
namespace MarketRelay

/-! ## Heartbeats -/

theorem Message.eq_of_decode_encode_heartbeat {m : Message} {beat : Heartbeat}
    (h : decode defaultFrameLimit m.encode = .ok (.heartbeat beat)) : m = .heartbeat beat := by
  rw [decode_encode m.frameSize_le_defaultFrameLimit] at h
  cases m with
  | heartbeat beat' => exact Except.ok.inj h
  | _ => cases h

theorem Session.numDropped_of_pushed {r : Relay} {st : Step} {s : Session} {beat : Heartbeat}
    (h : s.pushed r st = some (.heartbeat beat)) : beat.numDroppedMessages = s.droppedCount := by
  have howed := s.heartbeats_pushed r st
  rw [h] at howed
  cases st with
  | sweep l now clock =>
      simp only [pushed] at h
      split at h
      · cases h
        rfl
      · cases h
  | _ => cases howed

theorem Session.toNat_droppedCount (s : Session) :
    s.droppedCount.toNat = min s.queue.dropped (UInt32.size - 1) := by
  rw [droppedCount, UInt32.toNat_ofNat']
  exact Nat.mod_eq_of_lt (Nat.lt_of_le_of_lt (Nat.min_le_right _ _) (by decide))

namespace Interleaved

variable {c : Config} {id : SessionId}

theorem numDropped_of_sends {turns : List Turn} {tn : Turn} {beat : Heartbeat}
    (h : ((ofConfig c).run turns).Sends id tn (.heartbeat beat)) :
    beat.numDroppedMessages.toNat =
      min (((ofConfig c).run turns).relay.queue id).dropped (UInt32.size - 1) := by
  cases h with
  | step hs hpushed =>
      rw [Session.numDropped_of_pushed hpushed, Session.toNat_droppedCount,
        Relay.queue_of_some hs]
  | apply hleft hmem =>
      obtain ⟨early, m, now, rest, -, rfl⟩ :=
        exists_handled_of_left (List.mem_of_getElem? hleft)
      cases (Relay.isAnswering_handle hmem).sends _ _ rfl

/-- A heartbeat that the queue of a session takes in a turn tells how many frames it has evicted. -/
theorem numDropped_of_mem_newFrames {turns : List Turn} {tn : Turn} {frame : List UInt8}
    {beat : Heartbeat}
    (hframe : frame ∈ OutboundQueue.newFrames (((ofConfig c).run turns).relay.queue id)
      ((((ofConfig c).run turns).turn tn).relay.queue id))
    (hbeat : Message.decode defaultFrameLimit frame = .ok (.heartbeat beat)) :
    beat.numDroppedMessages.toNat =
      min (((ofConfig c).run turns).relay.queue id).dropped (UInt32.size - 1) := by
  obtain ⟨m, rfl, hsends⟩ := exists_sends_of_mem_newFrames hframe
  obtain rfl := Message.eq_of_decode_encode_heartbeat hbeat
  exact numDropped_of_sends hsends

/-! ## Turns as operations -/

/-- What a turn does to the queue of a session. -/
def operationsOf (i : Interleaved) (id : SessionId) (tn : Turn) : List QueueOp :=
  if tn = .step (.drain id) then [.drain]
  else
    (OutboundQueue.newFrames (i.relay.queue id) ((i.turn tn).relay.queue id)).map .push ++
      if ((i.turn tn).relay.queue id).isClosed then [.close] else []

def operations (id : SessionId) : Interleaved → List Turn → List QueueOp
  | _, [] => []
  | i, tn :: turns => i.operationsOf id tn ++ operations id (i.turn tn) turns

theorem operations_append (id : SessionId) (i : Interleaved) (before after : List Turn) :
    operations id i (before ++ after) =
      operations id i before ++ operations id (i.run before) after :=
  append_of_cons (fun _ => rfl) (fun _ _ _ => rfl) i before after

end Interleaved

/-- Operations account for what became of a queue, for the frames that it took on the way, of which
there is at most one, and for those that it handed over. -/
structure OutboundQueue.Explained (q : OutboundQueue) (ops : List QueueOp) (q' : OutboundQueue)
    (handed : List (List UInt8)) : Prop where
  run : q.run ops = q'
  accepted : gather acceptedBy q ops = newFrames q q'
  handedOver : gather handedOverBy q ops = handed
  single : (newFrames q q').length ≤ 1

namespace OutboundQueue

theorem explained_drain (q : OutboundQueue) : Explained q [.drain] q.drain q.frames where
  run := rfl
  accepted := (newFrames_drain q).symm
  handedOver := List.append_nil _
  single := (newFrames_drain q).symm ▸ Nat.zero_le 1

theorem explained_none (q : OutboundQueue) : Explained q [] q [] where
  run := rfl
  accepted := (newFrames_of_frames_eq rfl rfl).symm
  handedOver := rfl
  single := (newFrames_of_frames_eq (q := q) rfl rfl).symm ▸ Nat.zero_le 1

theorem explained_push (q : OutboundQueue) (frame : List UInt8) :
    Explained q ((newFrames q (q.push frame)).map .push) (q.push frame) [] := by
  rw [newFrames_push]
  cases hclosed : q.isClosed with
  | true =>
      rw [push_of_isClosed hclosed]
      exact explained_none q
  | false =>
      have hnew : newFrames q (q.push frame) = [frame] := by
        rw [newFrames_push, hclosed]
        rfl
      constructor
      · rfl
      · rw [hnew, if_neg Bool.false_ne_true, List.map_singleton, gather, gather, acceptedBy,
          isAccepted_outcome, hclosed]
        rfl
      · rfl
      · rw [hnew]
        exact Nat.le_refl 1

theorem newFrames_of_close {q' p : OutboundQueue} (h : q' = p ∨ q' = p.close)
    (q : OutboundQueue) : newFrames q q' = newFrames q p := by
  rcases h with rfl | rfl <;> rfl

theorem Explained.close {q q' p : OutboundQueue} {ops : List QueueOp}
    {handed : List (List UInt8)} (h : Explained q ops p handed) (hq' : q' = p ∨ q' = p.close) :
    Explained q (ops ++ if q'.isClosed then [.close] else []) q' handed := by
  have hnew := newFrames_of_close hq' q
  cases hclosed : q'.isClosed with
  | true =>
      have hp : p.close = q' := by
        rcases hq' with rfl | rfl
        · rw [OutboundQueue.close, ← hclosed]
        · rfl
      constructor
      · rw [if_pos rfl, run_concat, h.run]
        exact hp
      · rw [if_pos rfl, gather_concat, h.accepted, hnew]
        exact List.append_nil _
      · rw [if_pos rfl, gather_concat, h.handedOver]
        exact List.append_nil _
      · exact hnew ▸ h.single
  | false =>
      have hp : q' = p := by
        rcases hq' with rfl | rfl
        · rfl
        · cases hclosed
      rw [if_neg Bool.false_ne_true, List.append_nil, hp]
      exact h

end OutboundQueue

theorem Session.explained_pushMessage (s : Session) (sent : Option Message) :
    s.queue.Explained ((OutboundQueue.newFrames s.queue (s.pushMessage sent).queue).map .push)
      (s.pushMessage sent).queue [] := by
  cases sent with
  | none =>
      rw [pushMessage, OutboundQueue.newFrames_of_frames_eq rfl rfl]
      exact s.queue.explained_none
  | some m => exact s.queue.explained_push m.encode

namespace Interleaved

variable {c : Config} {id : SessionId}

theorem not_sends_drain {id' : SessionId} {m : Message} {i : Interleaved} :
    ¬ i.Sends id (.step (.drain id')) m := by
  rintro ⟨-, hpushed⟩
  cases hpushed

theorem explained_turn_of_some {turns : List Turn} {s : Session}
    (hs : ((ofConfig c).run turns).relay.session? id = some s) (tn : Turn) :
    ∃ t, (((ofConfig c).run turns).turn tn).relay.session? id = some t ∧
      s.queue.Explained (((ofConfig c).run turns).operationsOf id tn) t.queue
        (((ofConfig c).run turns).handedOver id tn) := by
  obtain ⟨t, sent, reason, hs', ht, hsends, hending⟩ := session?_turn_of_some hs tn
  refine ⟨_, hs', ?_⟩
  rw [operationsOf, handedOver_of_some hs, Relay.queue_of_some hs, Relay.queue_of_some hs']
  by_cases hdrain : tn = .step (.drain id)
  · subst hdrain
    obtain rfl : reason = none := hending _ rfl
    obtain rfl : sent = none :=
      Option.eq_none_iff_forall_not_mem.mpr fun m hm => not_sends_drain (hsends m hm)
    rw [if_pos rfl] at ht
    rw [if_pos rfl, if_pos rfl, ht]
    exact s.queue.explained_drain
  · rw [if_neg hdrain] at ht
    rw [if_neg hdrain, if_neg hdrain]
    have hqueue : ((t.pushMessage sent).leaveFor reason).queue = (s.pushMessage sent).queue ∨
        ((t.pushMessage sent).leaveFor reason).queue = (s.pushMessage sent).queue.close := by
      rw [← Session.queue_pushMessage ht.queue]
      exact (t.pushMessage sent).queue_leaveFor reason
    rw [OutboundQueue.newFrames_of_close hqueue]
    exact (s.explained_pushMessage sent).close hqueue

/-- The queue of a session, or the one that it will have at first. -/
def queueOf (c : Config) (id : SessionId) (i : Interleaved) : OutboundQueue :=
  ((i.relay.session? id).map (·.queue)).getD (.empty c.outboundQueueCapacity)

theorem queueOf_of_some {i : Interleaved} {s : Session} (hs : i.relay.session? id = some s) :
    queueOf c id i = s.queue := by
  rw [queueOf, hs]
  rfl

theorem queueOf_of_none {i : Interleaved} (hs : i.relay.session? id = none) :
    queueOf c id i = .empty c.outboundQueueCapacity := by
  rw [queueOf, hs]
  rfl

theorem queueOf_eq (c : Config) (id : SessionId) (i : Interleaved) :
    (queueOf c id i).frames = (i.relay.queue id).frames ∧
      (queueOf c id i).dropped = (i.relay.queue id).dropped ∧
      (queueOf c id i).isClosed = (i.relay.queue id).isClosed := by
  cases hs : i.relay.session? id with
  | none =>
      rw [queueOf_of_none hs, Relay.queue_of_none hs]
      exact ⟨rfl, rfl, rfl⟩
  | some s =>
      rw [queueOf_of_some hs, Relay.queue_of_some hs]
      exact ⟨rfl, rfl, rfl⟩

theorem newFrames_queueOf (c : Config) (id : SessionId) (i j : Interleaved) :
    OutboundQueue.newFrames (queueOf c id i) (queueOf c id j) =
      OutboundQueue.newFrames (i.relay.queue id) (j.relay.queue id) := by
  obtain ⟨hframes, hdropped, -⟩ := queueOf_eq c id i
  obtain ⟨hframes', hdropped', -⟩ := queueOf_eq c id j
  simp only [OutboundQueue.newFrames, OutboundQueue.entered, OutboundQueue.size, hframes, hdropped,
    hframes', hdropped']

theorem handedOver_of_none {i : Interleaved} (hs : i.relay.session? id = none) (tn : Turn) :
    i.handedOver id tn = [] := by
  cases tn with
  | step st => exact Relay.handedOver_of_none hs st
  | _ => rfl

theorem explained_turn (c : Config) (id : SessionId) (turns : List Turn) (tn : Turn) :
    (queueOf c id ((ofConfig c).run turns)).Explained (((ofConfig c).run turns).operationsOf id tn)
      (queueOf c id (((ofConfig c).run turns).turn tn))
      (((ofConfig c).run turns).handedOver id tn) := by
  cases hs : ((ofConfig c).run turns).relay.session? id with
  | some s =>
      obtain ⟨t, ht, hexplained⟩ := explained_turn_of_some hs tn
      rw [queueOf_of_some hs, queueOf_of_some ht]
      exact hexplained
  | none =>
      have hempty : queueOf c id (((ofConfig c).run turns).turn tn) =
          .empty c.outboundQueueCapacity := by
        cases hs' : (((ofConfig c).run turns).turn tn).relay.session? id with
        | none => exact queueOf_of_none hs'
        | some s => exact (queueOf_of_some hs').trans (queue_turn_of_none hs hs')
      have hopen : ((((ofConfig c).run turns).turn tn).relay.queue id).isClosed = false := by
        rw [← (queueOf_eq c id _).2.2, hempty]
        rfl
      rw [handedOver_of_none hs, hempty, queueOf_of_none hs, operationsOf,
        newFrames_turn_of_none hs, hopen]
      split
      · exact (OutboundQueue.empty c.outboundQueueCapacity).explained_drain
      · exact (OutboundQueue.empty c.outboundQueueCapacity).explained_none

/-- What turns do to the queue of a session accounts for all that became of it. -/
theorem explained_run (c : Config) (id : SessionId) (turns : List Turn) :
    (OutboundQueue.empty c.outboundQueueCapacity).run (operations id (ofConfig c) turns) =
        queueOf c id ((ofConfig c).run turns) ∧
      OutboundQueue.gather OutboundQueue.acceptedBy (.empty c.outboundQueueCapacity)
        (operations id (ofConfig c) turns) = accepted id (ofConfig c) turns ∧
      OutboundQueue.gather OutboundQueue.handedOverBy (.empty c.outboundQueueCapacity)
        (operations id (ofConfig c) turns) = taken id (ofConfig c) turns := by
  induction turns using List.reverseRecOn with
  | nil => exact ⟨rfl, rfl, rfl⟩
  | append_singleton turns tn ih =>
      obtain ⟨hrun, haccepted, htaken⟩ := ih
      have hturn := explained_turn c id turns tn
      have hops : operations id (ofConfig c) (turns ++ [tn]) =
          operations id (ofConfig c) turns ++ ((ofConfig c).run turns).operationsOf id tn := by
        rw [operations_append, operations, operations, List.append_nil]
      rw [hops, OutboundQueue.run_append, OutboundQueue.gather_append,
        OutboundQueue.gather_append, hrun, haccepted, htaken, hturn.run, hturn.accepted,
        hturn.handedOver, newFrames_queueOf, accepted_append, taken_append, accepted, accepted,
        taken, taken, List.append_nil, List.append_nil, turn_run]
      exact ⟨rfl, rfl, rfl⟩

theorem length_accepted_le (c : Config) (id : SessionId) (turns : List Turn) :
    (accepted id (ofConfig c) turns).length ≤ turns.length := by
  induction turns using List.reverseRecOn with
  | nil => exact Nat.le_refl 0
  | append_singleton turns tn ih =>
      have hsingle := (explained_turn c id turns tn).single
      rw [newFrames_queueOf] at hsingle
      rw [accepted_append, accepted, accepted, List.append_nil, List.length_append,
        List.length_append, List.length_singleton]
      exact Nat.add_le_add ih hsingle

theorem exists_turn_of_accepted {turns : List Turn} {n : Nat} {frame : List UInt8}
    (h : (accepted id (ofConfig c) turns)[n]? = some frame) :
    ∃ before tn after, turns = before ++ tn :: after ∧
      (accepted id (ofConfig c) before).length = n ∧
      OutboundQueue.newFrames (((ofConfig c).run before).relay.queue id)
        ((((ofConfig c).run before).turn tn).relay.queue id) = [frame] := by
  induction turns using List.reverseRecOn with
  | nil => cases h
  | append_singleton turns tn ih =>
      rw [accepted_append, accepted, accepted, List.append_nil] at h
      by_cases hearlier : n < (accepted id (ofConfig c) turns).length
      · rw [List.getElem?_append_left hearlier] at h
        obtain ⟨before, tn', after, rfl, hlength, hnew⟩ := ih h
        exact ⟨before, tn', after ++ [tn], by simp, hlength, hnew⟩
      · have hsingle := (explained_turn c id turns tn).single
        rw [newFrames_queueOf] at hsingle
        rw [List.getElem?_append_right (Nat.not_lt.mp hearlier)] at h
        obtain ⟨hlt, hframe⟩ := List.getElem?_eq_some_iff.mp h
        obtain ⟨frame', hnew⟩ := List.length_eq_one_iff.mp
          (Nat.le_antisymm hsingle (Nat.zero_lt_of_lt hlt))
        refine ⟨turns, tn, [], rfl, ?_, ?_⟩
        · omega
        · rw [hnew]
          simp only [hnew, List.getElem_singleton] at hframe
          rw [hframe]

/-! ## Losses -/

def departures (c : Config) (id : SessionId) (turns : List Turn) : List Departure :=
  OutboundQueue.departures c.outboundQueueCapacity (operations id (ofConfig c) turns)

def evictions (c : Config) (id : SessionId) (turns : List Turn) : Nat :=
  (Departure.framesOf .evicted (departures c id turns)).length

/-- How many frames were lost as a frame tells it that is a heartbeat. -/
def toldLoss? (frame : List UInt8) : Option UInt32 :=
  match Message.decode defaultFrameLimit frame with
  | .ok (.heartbeat beat) => some beat.numDroppedMessages
  | _ => none

theorem evictions_eq_dropped (c : Config) (id : SessionId) (turns : List Turn) :
    evictions c id turns = (((ofConfig c).run turns).relay.queue id).dropped := by
  rw [evictions, departures, OutboundQueue.length_framesOf_departures_evicted,
    (explained_run c id turns).1, (queueOf_eq c id _).2.1]

theorem map_frame_departures (c : Config) (id : SessionId) (turns : List Turn) :
    (departures c id turns).map (·.frame) ++ (((ofConfig c).run turns).relay.queue id).frames =
      accepted id (ofConfig c) turns := by
  obtain ⟨hrun, haccepted, -⟩ := explained_run c id turns
  rw [← haccepted, ← OutboundQueue.fifo_run, hrun, (queueOf_eq c id _).1, departures]

/-- A turn evicts one frame at most, so that a 64-bit word holds the number of evictions for as many
turns as it can count. -/
theorem evictions_le_length (c : Config) (id : SessionId) (turns : List Turn) :
    evictions c id turns ≤ turns.length := by
  have hleft := congrArg List.length (map_frame_departures c id turns)
  rw [List.length_append, List.length_map] at hleft
  have hevicted : evictions c id turns ≤ (departures c id turns).length := by
    rw [evictions, Departure.framesOf, List.length_map]
    exact List.length_filter_le _ _
  have haccepted := length_accepted_le c id turns
  omega

theorem framesOf_departures_delivered (c : Config) (id : SessionId) (turns : List Turn) :
    Departure.framesOf .delivered (departures c id turns) = taken id (ofConfig c) turns := by
  rw [departures, OutboundQueue.framesOf_departures]
  exact (explained_run c id turns).2.2

theorem evictions_le (c : Config) (id : SessionId) (before after : List Turn) :
    evictions c id before ≤
      (Departure.framesOf .evicted ((departures c id (before ++ after)).take
        (accepted id (ofConfig c) before).length)).length := by
  have hle := OutboundQueue.dropped_le_evicted c.outboundQueueCapacity
    (operations id (ofConfig c) before) (operations id ((ofConfig c).run before) after)
  rw [(explained_run c id before).2.1, ← operations_append,
    ← OutboundQueue.length_framesOf_departures_evicted] at hle
  exact hle

theorem evictions_le_append (c : Config) (id : SessionId) (before after : List Turn) :
    evictions c id before ≤ evictions c id (before ++ after) :=
  Nat.le_trans (evictions_le c id before after)
    (((List.take_sublist _ _).filter _).map _).length_le

theorem toldLoss?_eq_some_iff {frame : List UInt8} {loss : UInt32} :
    toldLoss? frame = some loss ↔
      ∃ beat, Message.decode defaultFrameLimit frame = .ok (.heartbeat beat) ∧
        loss = beat.numDroppedMessages := by
  unfold toldLoss?
  split
  · next beat hbeat => simp [hbeat, eq_comm]
  · next hother =>
      refine iff_of_false nofun ?_
      rintro ⟨beat, hbeat, -⟩
      exact hother beat hbeat

theorem toNat_of_toldLoss? {turns : List Turn} {tn : Turn} {frame : List UInt8} {loss : UInt32}
    (hframe : frame ∈ OutboundQueue.newFrames (((ofConfig c).run turns).relay.queue id)
      ((((ofConfig c).run turns).turn tn).relay.queue id))
    (hloss : toldLoss? frame = some loss) :
    loss.toNat = min (evictions c id turns) (UInt32.size - 1) := by
  obtain ⟨beat, hbeat, rfl⟩ := toldLoss?_eq_some_iff.mp hloss
  rw [numDropped_of_mem_newFrames hframe hbeat, evictions_eq_dropped]

theorem toldLosses_accepted (c : Config) (id : SessionId) (turns : List Turn) :
    (∀ loss ∈ (accepted id (ofConfig c) turns).filterMap toldLoss?,
        loss.toNat ≤ min (evictions c id turns) (UInt32.size - 1)) ∧
      ((accepted id (ofConfig c) turns).filterMap toldLoss?).Pairwise (· ≤ ·) := by
  induction turns using List.reverseRecOn with
  | nil => exact ⟨nofun, .nil⟩
  | append_singleton turns tn ih =>
      obtain ⟨hle, hpairwise⟩ := ih
      rw [accepted_append, accepted, accepted, List.append_nil, List.filterMap_append]
      generalize hnew : OutboundQueue.newFrames (((ofConfig c).run turns).relay.queue id)
        ((((ofConfig c).run turns).turn tn).relay.queue id) = frames
      have htold : ∀ loss ∈ frames.filterMap toldLoss?,
          loss.toNat = min (evictions c id turns) (UInt32.size - 1) := by
        intro loss hloss
        obtain ⟨frame, hframe, hloss⟩ := List.mem_filterMap.mp hloss
        exact toNat_of_toldLoss? (hnew ▸ hframe) hloss
      have hgrown := evictions_le_append c id turns [tn]
      constructor
      · intro loss hloss
        rcases List.mem_append.mp hloss with hold | hfresh
        · have hbound := hle loss hold
          omega
        · have hequal := htold loss hfresh
          omega
      · refine List.pairwise_append.mpr ⟨hpairwise, ?_, ?_⟩
        · refine List.pairwise_of_forall_mem_list fun loss hloss loss' hloss' => ?_
          exact UInt32.le_iff_toNat_le.mpr (Nat.le_of_eq
            ((htold loss hloss).trans (htold loss' hloss').symm))
        · intro loss hloss loss' hloss'
          exact UInt32.le_iff_toNat_le.mpr (htold loss' hloss' ▸ hle loss hloss)

/-- What the heartbeats tell a client of its losses that it is handed over in turns. -/
structure HeartbeatsTellLosses (c : Config) (id : SessionId) (turns : List Turn) : Prop where
  /-- The queue went through the operations by which frames are said to have left it. -/
  run : (OutboundQueue.empty c.outboundQueueCapacity).run (operations id (ofConfig c) turns) =
    queueOf c id ((ofConfig c).run turns)
  /-- Frames leave the queue in the order in which it took them. -/
  fifo : (departures c id turns).map (·.frame) ++
    (((ofConfig c).run turns).relay.queue id).frames = accepted id (ofConfig c) turns
  delivered : Departure.framesOf .delivered (departures c id turns) = taken id (ofConfig c) turns
  evicted : evictions c id turns = (((ofConfig c).run turns).relay.queue id).dropped
  /-- Each tells how many frames were evicted before it was queued, as far as it can. -/
  told : ∀ n frame beat, (departures c id turns)[n]? = some ⟨frame, .delivered⟩ →
    Message.decode defaultFrameLimit frame = .ok (.heartbeat beat) →
    ∃ before tn after, turns = before ++ tn :: after ∧
      (accepted id (ofConfig c) before).length = n ∧
      OutboundQueue.newFrames (((ofConfig c).run before).relay.queue id)
        ((((ofConfig c).run before).turn tn).relay.queue id) = [frame] ∧
      beat.numDroppedMessages.toNat = min (evictions c id before) (UInt32.size - 1)
  /-- That many of the frames that were queued before it are lost. -/
  lost : ∀ n frame beat, (departures c id turns)[n]? = some ⟨frame, .delivered⟩ →
    Message.decode defaultFrameLimit frame = .ok (.heartbeat beat) →
    beat.numDroppedMessages.toNat ≤
      (Departure.framesOf .evicted ((departures c id turns).take n)).length
  ascending : ((taken id (ofConfig c) turns).filterMap toldLoss?).Pairwise (· ≤ ·)

/-- A heartbeat that left the queue was queued in some turn, and tells what was evicted before. -/
theorem exists_turn_of_departed {turns : List Turn} {n : Nat} {d : Departure} {beat : Heartbeat}
    (hd : (departures c id turns)[n]? = some d)
    (hbeat : Message.decode defaultFrameLimit d.frame = .ok (.heartbeat beat)) :
    ∃ before tn after, turns = before ++ tn :: after ∧
      (accepted id (ofConfig c) before).length = n ∧
      OutboundQueue.newFrames (((ofConfig c).run before).relay.queue id)
        ((((ofConfig c).run before).turn tn).relay.queue id) = [d.frame] ∧
      beat.numDroppedMessages.toNat = min (evictions c id before) (UInt32.size - 1) := by
  have haccepted : (accepted id (ofConfig c) turns)[n]? = some d.frame := by
    obtain ⟨hlt, -⟩ := List.getElem?_eq_some_iff.mp hd
    rw [← map_frame_departures, List.getElem?_append_left (by rwa [List.length_map]),
      List.getElem?_map, hd]
    rfl
  obtain ⟨before, tn, after, hturns, hlength, hnew⟩ := exists_turn_of_accepted haccepted
  refine ⟨before, tn, after, hturns, hlength, hnew, ?_⟩
  exact toNat_of_toldLoss? (hnew ▸ List.mem_singleton_self _)
    (toldLoss?_eq_some_iff.mpr ⟨beat, hbeat, rfl⟩)

/-- **Heartbeats do not tell of losses that are none.**  Whatever turns are taken, each heartbeat
that is handed over to a client tells how many frames its queue had evicted when the heartbeat was
queued, none tells fewer than one before it, and each tells at most as many as were queued before it
and never handed over. -/
theorem heartbeats_tell_losses (c : Config) (id : SessionId) (turns : List Turn) :
    HeartbeatsTellLosses c id turns where
  run := (explained_run c id turns).1
  fifo := map_frame_departures c id turns
  delivered := framesOf_departures_delivered c id turns
  evicted := evictions_eq_dropped c id turns
  told := by
    intro n frame beat hd hbeat
    exact exists_turn_of_departed hd hbeat
  lost := by
    intro n frame beat hd hbeat
    obtain ⟨before, tn, after, rfl, rfl, -, htold⟩ := exists_turn_of_departed hd hbeat
    have hle := evictions_le c id before (tn :: after)
    omega
  ascending := by
    have hsublist : (taken id (ofConfig c) turns).Sublist (accepted id (ofConfig c) turns) := by
      rw [← framesOf_departures_delivered, ← map_frame_departures]
      exact (List.filter_sublist.map _).trans (List.sublist_append_left _ _)
    exact (toldLosses_accepted c id turns).2.sublist (hsublist.filterMap toldLoss?)

/-- A queue with room for two frames: the heartbeat is queued after one frame was evicted, and in
the place of another one. -/
example :
    let trade := .step (.publish ⟨1, .trade ⟨⟨1⟩, ⟨2⟩, .sell, 7⟩⟩ 0)
    let turns := [.step (.enlist (.v4 127 0 0 1 50000) 0),
      .step (.message 1 (.marketDataRequest ⟨.subscribe, 0, "BTC-USD", ""⟩) 5 6), trade, trade,
      .step (.sweep ⟨7, 9⟩ 8 0), .step (.drain 1)]
    (departures { outboundQueueCapacity := 2 } 1 turns).map (·.fate) =
        [.evicted, .evicted, .delivered, .delivered] ∧
      (taken 1 (ofConfig { outboundQueueCapacity := 2 }) turns).filterMap toldLoss? = [1] := by
  decide +kernel

end Interleaved
end MarketRelay
