import MarketRelay.Proofs.Market.Follow
import MarketRelay.Proofs.Relay.Events
import MarketRelay.Proofs.Relay.FanOut
import Mathlib.Data.List.Induction

/-!
# Turns

Readers and feeds work side by side.  Between the handling of a message and what it leaves to do,
others may take any steps, handle messages of their own and do what those left to do.  A turn is a
step that is taken as a whole, or one half of a message; a whole message is the turn in which
nothing comes between its halves (`turn_handle_apply`).

What is left to do may be done at any later turn, in any order, once or not at all: `left` keeps it
with the session that it is for.  More than what the relay does is allowed by this, where each
reader has at most one message under way, so what holds of all turns holds of those.

* `session?_turn_of_some`: turns do to the way to a client just what steps do.  At most they hand
  over what waits, push one message and end the session.
* `snapshot_run`: the state of a market is that of the events that turns publish.
* `chronicled_run`: observers are told the story of each session.
* `exists_handled_of_left`: what is left to do was left by a message that was handled.
* `nextId_run_le`: a turn uses up one number at most.
-/
namespace MarketRelay

/-- What can happen to a relay where the handling of a message is one thing and what it leaves to do
another. -/
inductive Turn where
  | step (st : Step)
  | handle (id : SessionId) (m : Message) (now : Instant)
  /-- Does what one of the messages left to do, which are counted in order of their handling. -/
  | apply (place : Nat) (now : Instant)
deriving DecidableEq

def Turn.eventsOf (symbol : SymbolId) : Turn → List MarketEvent
  | .step st => st.eventsOf symbol
  | _ => []

/-- A relay, and what the messages that were handled have left to do for their sessions. -/
structure Interleaved where
  relay : Relay
  left : List (SessionId × List Effect)

namespace Interleaved

def ofConfig (c : Config) : Interleaved := ⟨.ofConfig c, []⟩

def turn (i : Interleaved) : Turn → Interleaved
  | .step st => { i with relay := i.relay.step st }
  | .handle id m now =>
    let (r, effects) := i.relay.handle id m now
    ⟨r, i.left ++ [(id, effects)]⟩
  | .apply place now =>
    match i.left[place]? with
    | none => i
    | some (id, effects) => ⟨(i.relay.apply id now effects).1, i.left.eraseIdx place⟩

def run (i : Interleaved) (turns : List Turn) : Interleaved := turns.foldl turn i

@[simp] theorem run_nil (i : Interleaved) : i.run [] = i := rfl

@[simp] theorem run_cons (i : Interleaved) (tn : Turn) (turns : List Turn) :
    i.run (tn :: turns) = (i.turn tn).run turns := rfl

theorem run_append (i : Interleaved) (before after : List Turn) :
    i.run (before ++ after) = (i.run before).run after :=
  List.foldl_append

theorem turn_run (i : Interleaved) (turns : List Turn) (tn : Turn) :
    (i.run turns).turn tn = i.run (turns ++ [tn]) := by
  rw [run_append, run_cons, run_nil]

/-- Where nothing comes between its halves, a message is dealt with as a whole. -/
theorem turn_handle_apply (i : Interleaved) (id : SessionId) (m : Message)
    (handledAt appliedAt : Instant) :
    (i.turn (.handle id m handledAt)).turn (.apply i.left.length appliedAt) =
      i.turn (.step (.message id m handledAt appliedAt)) := by
  simp [turn, Relay.step, List.eraseIdx_append_of_length_le]

theorem turn_induction {P : Relay → Prop} {i : Interleaved}
    (hstep : ∀ r st, P r → P (r.step st)) (hhandle : ∀ r id m now, P r → P (r.handle id m now).1)
    (happly : ∀ r id now effects, P r → P (r.apply id now effects).1) (h : P i.relay) (tn : Turn) :
    P (i.turn tn).relay := by
  cases tn with
  | step st => exact hstep i.relay st h
  | handle id m now => exact hhandle i.relay id m now h
  | apply place now =>
      simp only [turn]
      cases i.left[place]? with
      | none => exact h
      | some p => exact happly i.relay p.1 now p.2 h

theorem run_induction {P : Interleaved → Prop} (hturn : ∀ i tn, P i → P (i.turn tn))
    {i : Interleaved} (h : P i) (turns : List Turn) : P (i.run turns) :=
  Relay.foldl_induction hturn h turns

/-! ## Settings, snapshots, events -/

variable {i : Interleaved} {c : Config} {id : SessionId} {past : List SessionEvent}

@[simp] theorem config_turn (i : Interleaved) (tn : Turn) :
    (i.turn tn).relay.config = i.relay.config :=
  turn_induction (P := fun r => r.config = i.relay.config)
    (fun r st h => (r.config_step st).trans h)
    (fun r id m now h => (congrArg Prod.fst (r.backdrop_handle id m now)).trans h)
    (fun r id now effects h => (congrArg Prod.fst (r.backdrop_apply id now effects)).trans h) rfl tn

theorem nextId_run_le (i : Interleaved) (turns : List Turn) :
    (i.run turns).relay.registry.nextId ≤ i.relay.registry.nextId + turns.length := by
  induction turns generalizing i with
  | nil => exact Nat.le_refl _
  | cons tn turns ih =>
      have hturn : (i.turn tn).relay.registry.nextId ≤ i.relay.registry.nextId + 1 := by
        cases tn with
        | step st =>
            rw [turn, Relay.nextId_step]
            refine Nat.add_le_add_left ?_ _
            cases st with
            | enlist peer now =>
                rw [Relay.admitted]
                split
                · exact Nat.zero_le 1
                · exact Nat.le_refl 1
            | _ => exact Nat.zero_le 1
        | handle id m now =>
            have hkept := Relay.nextId_of_backdrop (i.relay.backdrop_handle id m now)
            exact Nat.le_succ_of_le (Nat.le_of_eq hkept)
        | apply place now =>
            simp only [turn]
            cases i.left[place]? with
            | none => exact Nat.le_succ _
            | some p =>
                have hkept := Relay.nextId_of_backdrop (i.relay.backdrop_apply p.1 now p.2)
                exact Nat.le_succ_of_le (Nat.le_of_eq hkept)
      calc ((i.turn tn).run turns).relay.registry.nextId
          ≤ (i.turn tn).relay.registry.nextId + turns.length := ih (i.turn tn)
        _ ≤ i.relay.registry.nextId + 1 + turns.length := Nat.add_le_add_right hturn _
        _ = i.relay.registry.nextId + (turns.length + 1) := by
            rw [Nat.add_assoc, Nat.add_comm 1]

theorem snapshot_turn (i : Interleaved) (tn : Turn) (symbol : SymbolId) :
    (i.turn tn).relay.snapshots.get symbol =
      (tn.eventsOf symbol).foldl (fun s e => s.apply e.occurrence)
        (i.relay.snapshots.get symbol) := by
  cases tn with
  | step st =>
      simp only [turn, Relay.snapshots_step]
      cases st with
      | publish e elapsed =>
          simp only [Relay.snapshotsAfter, Turn.eventsOf, Step.eventsOf, SnapshotCache.get_apply]
          split <;> rfl
      | _ => rfl
  | handle id m now =>
      exact congrArg (fun b => SnapshotCache.get b.2.1 symbol) (i.relay.backdrop_handle id m now)
  | apply place now =>
      simp only [turn]
      cases i.left[place]? with
      | none => rfl
      | some p =>
          exact congrArg (fun b => SnapshotCache.get b.2.1 symbol)
            (i.relay.backdrop_apply p.1 now p.2)

theorem snapshot_run (i : Interleaved) (turns : List Turn) (symbol : SymbolId) :
    (i.run turns).relay.snapshots.get symbol =
      (turns.flatMap (Turn.eventsOf symbol)).foldl (fun s e => s.apply e.occurrence)
        (i.relay.snapshots.get symbol) := by
  induction turns generalizing i with
  | nil => rfl
  | cons tn turns ih => rw [run_cons, ih, snapshot_turn, List.flatMap_cons, List.foldl_append]

theorem chronicled_turn (h : i.relay.registry.Chronicled i.relay.config.requireAuthentication past)
    (tn : Turn) :
    (i.turn tn).relay.registry.Chronicled i.relay.config.requireAuthentication past := by
  cases tn with
  | step st => exact Relay.chronicled_step h st
  | handle id m now => exact Relay.chronicled_handle h id m now
  | apply place now =>
      simp only [turn]
      cases i.left[place]? with
      | none => exact h
      | some p => exact Relay.chronicled_apply h p.1 now p.2

theorem chronicled_run (h : i.relay.registry.Chronicled i.relay.config.requireAuthentication past)
    (turns : List Turn) :
    (i.run turns).relay.registry.Chronicled i.relay.config.requireAuthentication past := by
  induction turns generalizing i with
  | nil => exact h
  | cons tn turns ih =>
      have hturn := chronicled_turn h tn
      rw [← config_turn i tn] at hturn ⊢
      exact ih hturn

@[simp] theorem config_run (i : Interleaved) (turns : List Turn) :
    (i.run turns).relay.config = i.relay.config :=
  run_induction (P := fun i' => i'.relay.config = i.relay.config)
    (fun i' tn h => (i'.config_turn tn).trans h) rfl turns

theorem chronicled_ofConfig (c : Config) (turns : List Turn) :
    ((ofConfig c).run turns).relay.registry.Chronicled c.requireAuthentication [] :=
  chronicled_run (i := ofConfig c) (Registry.chronicled_empty c.maxClients) turns

theorem chronicled_run_run (c : Config) (before after : List Turn) :
    (((ofConfig c).run before).run after).relay.registry.Chronicled c.requireAuthentication
      ((ofConfig c).run before).relay.registry.events := by
  have hbefore : ((ofConfig c).run before).relay.registry.Chronicled
      ((ofConfig c).run before).relay.config.requireAuthentication
      ((ofConfig c).run before).relay.registry.events := by
    rw [config_run]
    exact { chronicled_ofConfig c before with past := List.prefix_rfl }
  have hafter := chronicled_run hbefore after
  rwa [config_run] at hafter

/-! ## What is left to do -/

/-- What is left to do was left by a message of the session that was handled at some time. -/
theorem exists_handled_of_left {turns : List Turn} {effects : List Effect}
    (h : (id, effects) ∈ ((ofConfig c).run turns).left) :
    ∃ early m now rest, turns = early ++ .handle id m now :: rest ∧
      effects = (((ofConfig c).run early).relay.handle id m now).2 := by
  induction turns using List.reverseRecOn with
  | nil => cases h
  | append_singleton turns tn ih =>
      -- what was left before the turn was so for a reason that comes earlier
      have hearlier : (id, effects) ∈ ((ofConfig c).run turns).left →
          ∃ early m now rest, turns ++ [tn] = early ++ .handle id m now :: rest ∧
            effects = (((ofConfig c).run early).relay.handle id m now).2 := by
        intro hold
        obtain ⟨early, m, now, rest, rfl, heffects⟩ := ih hold
        exact ⟨early, m, now, rest ++ [tn], by simp, heffects⟩
      rw [run_append, run_cons, run_nil] at h
      cases tn with
      | step st => exact hearlier h
      | handle id' m now =>
          rcases List.mem_append.mp h with hold | hnew
          · exact hearlier hold
          · obtain ⟨rfl, rfl⟩ := Prod.mk.inj (List.mem_singleton.mp hnew)
            exact ⟨turns, m, now, [], rfl, rfl⟩
      | apply place now =>
          simp only [turn] at h
          split at h
          · exact hearlier h
          · exact hearlier (List.mem_of_mem_eraseIdx h)

theorem session_of_left {turns : List Turn} {effects : List Effect}
    (h : (id, effects) ∈ ((ofConfig c).run turns).left) : ∀ e ∈ effects, e.session = id := by
  obtain ⟨early, m, now, rest, -, rfl⟩ := exists_handled_of_left h
  exact fun _ => Relay.session_of_mem_effects

end Interleaved

/-! ## A turn as one session sees it -/

theorem Session.id_foldl_undergo (now : Instant) (s : Session) (effects : List Effect) :
    (effects.foldl (undergo now) s).id = s.id :=
  Relay.foldl_keeps Session.id (fun s e => s.id_undergo now e) s effects

/-- Whatever a message left to do, it is to push one message and to end the session, at most. -/
theorem Session.exists_foldl_undergo (s : Session) (now : Instant) (id : SessionId)
    (granted : Option String) (sent : Option Message) (reason : Option CloseReason) :
    ∃ t, s.SameWay t ∧
      ((granted.map (Effect.authenticate id)).toList ++ (sent.map (Effect.send id)).toList ++
        (reason.map (Effect.close id)).toList).foldl (Session.undergo now) s =
          (t.pushMessage sent).leaveFor reason := by
  have hrest : ∀ t : Session, ((sent.map (Effect.send id)).toList ++
      (reason.map (Effect.close id)).toList).foldl (Session.undergo now) t =
        (t.pushMessage sent).leaveFor reason := by
    intro t
    cases sent <;> cases reason <;> rfl
  cases granted with
  | none => exact ⟨s, .refl s, hrest s⟩
  | some username =>
      exact ⟨s.undergo now (.authenticate id username),
        s.sameWay_authenticate_of_listed username now, hrest _⟩

namespace Interleaved

variable {i : Interleaved} {c : Config} {id : SessionId}

/-- A turn pushes a message on the queue of a session. -/
inductive Sends (i : Interleaved) (id : SessionId) : Turn → Message → Prop
  | step {st : Step} {s : Session} {m : Message} (hs : i.relay.session? id = some s)
      (h : s.pushed i.relay st = some m) : Sends i id (.step st) m
  /-- The acknowledgement of a subscription. -/
  | handle {m : Message} {now : Instant} (symbol : SymbolId) :
      Sends i id (.handle id m now) (i.relay.snapshotMessage symbol)
  | apply {place : Nat} {now : Instant} {effects : List Effect} {m : Message}
      (h : i.left[place]? = some (id, effects)) (hm : .send id m ∈ effects) :
      Sends i id (.apply place now) m

theorem not_sends_close {id' : SessionId} {reason : CloseReason} {m : Message} :
    ¬ i.Sends id (.step (.close id' reason)) m := by
  rintro ⟨-, hpushed⟩
  cases hpushed

theorem exists_effects_of_left {turns : List Turn} {effects : List Effect}
    (h : (id, effects) ∈ ((ofConfig c).run turns).left) :
    ∃ granted sent reason, effects =
      (Option.map (Effect.authenticate id) granted).toList ++
        (Option.map (Effect.send id) sent).toList ++
        (Option.map (Effect.close id) reason).toList := by
  obtain ⟨early, m, now, rest, -, rfl⟩ := exists_handled_of_left h
  unfold Relay.handle
  cases hs : ((ofConfig c).run early).relay.session? id with
  | none => exact ⟨none, none, none, rfl⟩
  | some s =>
      obtain rfl := Registry.id_of_session? hs
      exact ⟨_, _, _, Relay.effects_handleMessage _ s m now⟩

theorem exists_handle_only (r : Relay) (id : SessionId) (m : Message) (now : Instant) :
    ∃ f : Session → Session, (∀ s, (f s).id = s.id) ∧
      (r.handle id m now).1.registry.sessions = r.registry.sessions.map (Session.only id f) ∧
      ∀ s, ∃ t sent, f s = t.pushMessage sent ∧ s.SameWay t ∧
        ∀ m, sent = some m → ∃ symbol, m = r.snapshotMessage symbol := by
  refine Relay.handle_cases (P := fun r' => ∃ f : Session → Session, (∀ s, (f s).id = s.id) ∧
    r'.registry.sessions = r.registry.sessions.map (Session.only id f) ∧
      ∀ s, ∃ t sent, f s = t.pushMessage sent ∧ s.SameWay t ∧
        ∀ m, sent = some m → ∃ symbol, m = r.snapshotMessage symbol) ?_ ?_
  · refine ⟨fun s => s, fun _ => rfl, ?_, fun s => ⟨s, none, rfl, .refl s, nofun⟩⟩
    exact (Relay.map_only_of_forall fun _ _ _ => rfl).symm
  · rintro s r' - rfl hhandled
    cases hhandled with
    | @subscribed symbol hack =>
        refine ⟨fun t => (t.subscribe symbol).1.push (r.snapshotMessage symbol).encode,
          fun _ => rfl, Relay.sessions_subscribe r s.id symbol, fun t => ?_⟩
        refine ⟨(t.subscribe symbol).1, some (r.snapshotMessage symbol), rfl, ?_, ?_⟩
        · constructor <;> rfl
        · rintro _ ⟨⟩
          exact ⟨symbol, rfl⟩
    | refused hm hrefused =>
        refine ⟨(·.reject), fun _ => rfl, Relay.sessions_modify r s.id (·.reject), fun t => ?_⟩
        exact ⟨t.reject, none, rfl, by constructor <;> rfl, nofun⟩
    | @noted f hack hway hlogon =>
        refine ⟨f, fun t => (hway t).id, Relay.sessions_modify r s.id f, fun t => ?_⟩
        exact ⟨f t, none, rfl, hway t, nofun⟩

/-- A turn does at most three things to the way to a client: it hands over what waits, pushes one
message and ends the session, which a step does just if it is so told. -/
theorem session?_turn_of_some {turns : List Turn} {s : Session}
    (hs : ((ofConfig c).run turns).relay.session? id = some s) (tn : Turn) :
    ∃ t sent reason,
      (((ofConfig c).run turns).turn tn).relay.session? id =
        some ((t.pushMessage sent).leaveFor reason) ∧
      (if tn = .step (.drain id) then t = s.drain else s.SameWay t) ∧
      (∀ m, sent = some m → ((ofConfig c).run turns).Sends id tn m) ∧
      ∀ st, tn = .step st → reason = s.ending ((ofConfig c).run turns).relay st := by
  have hnumbered := (chronicled_ofConfig c turns).numbered
  obtain rfl := Registry.id_of_session? hs
  cases tn with
  | step st =>
      refine ⟨s.updated _ st, s.pushed _ st, s.ending _ st,
        Relay.session?_step_of_some hnumbered hs st, ?_, fun m hm => .step hs hm, ?_⟩
      split
      · rename_i hdrain
        obtain rfl : st = .drain s.id := Turn.step.inj hdrain
        exact s.updated_drain _
      · rename_i hdrain
        exact Session.sameWay_updated fun heq => hdrain (congrArg Turn.step heq)
      · rintro _ ⟨⟩
        rfl
  | handle id' m now =>
      obtain ⟨f, hid, hsessions, hf⟩ :=
        exists_handle_only ((ofConfig c).run turns).relay id' m now
      have hs' := Relay.session?_of_map hsessions (Session.id_only hid) s.id
      rw [hs, Option.map_some] at hs'
      by_cases heq : s.id = id'
      · obtain ⟨t, sent, hsent, hway, hsends⟩ := hf s
        rw [Session.only_of_eq heq, hsent] at hs'
        refine ⟨t, sent, none, hs', hway, ?_, nofun⟩
        intro m' hm'
        obtain ⟨symbol, rfl⟩ := hsends m' hm'
        exact heq ▸ .handle symbol
      · rw [Session.only_of_ne heq] at hs'
        exact ⟨s, none, none, hs', .refl s, nofun, nofun⟩
  | apply place now =>
      simp only [turn]
      cases hleft : ((ofConfig c).run turns).left[place]? with
      | none => exact ⟨s, none, none, hs, .refl s, nofun, nofun⟩
      | some p =>
          obtain ⟨id', effects⟩ := p
          have hsessions :
              (((ofConfig c).run turns).relay.apply id' now effects).1.registry.sessions =
              ((ofConfig c).run turns).relay.registry.sessions.map
                (Session.only id' fun t => effects.foldl (Session.undergo now) t) :=
            Relay.sessions_apply hnumbered now (session_of_left (List.mem_of_getElem? hleft))
          have hs' := Relay.session?_of_map hsessions
            (Session.id_only fun t => Session.id_foldl_undergo now t effects) s.id
          rw [hs, Option.map_some] at hs'
          by_cases heq : s.id = id'
          · subst heq
            obtain ⟨granted, sent, reason, heffects⟩ :=
              exists_effects_of_left (List.mem_of_getElem? hleft)
            obtain ⟨t, hway, hfold⟩ := s.exists_foldl_undergo now s.id granted sent reason
            rw [← heffects] at hfold
            rw [Session.only_of_eq rfl, hfold] at hs'
            refine ⟨t, sent, reason, hs', hway, ?_, nofun⟩
            rintro m rfl
            exact .apply hleft (by simp [heffects])
          · rw [Session.only_of_ne heq] at hs'
            exact ⟨s, none, none, hs', .refl s, nofun, nofun⟩

end Interleaved
end MarketRelay
