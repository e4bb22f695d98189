import MarketRelay.Proofs.Relay.Reader

/-!
# Clients do not touch each other

Whatever a client sends, its reader has the relay take steps on its own session only, messages and a
last close.  What a message leaves to do is a list of effects, each of which names a session; that
it is always the session that sent the message is shown, not built in.

`OnlyTouches id` holds between two states of a relay if every other session and the snapshots are as
they were, and observers were told of that one session only.  It is reflexive and transitive, so it
is enough to look at one step.

* `onlyTouches_step`: a step on a session touches that session only.
* `dealWith_spec`, `read_spec`, `readAll_spec`: the same of the messages of one portion, of one
  portion and of all portions, each by induction on the list that the reader goes down.
* `conclude_spec`: a reader that ended leaves its session ended and unlisted, for the reason that
  the reader gives if nobody else had closed it before.
* `onlyTouches_reader`: all of it together, for a reader that starts with nothing read.
-/
namespace MarketRelay

/-! ## Events of one session -/

namespace SessionEvent

/-- Between two moments observers were told of one session only, if of any. -/
def TellsOnly (id : SessionId) (before after : List SessionEvent) : Prop :=
  ∃ told, after = before ++ told ∧ ∀ e ∈ told, e.session = id

theorem TellsOnly.refl (id : SessionId) (before : List SessionEvent) : TellsOnly id before before :=
  ⟨[], (List.append_nil before).symm, nofun⟩

theorem TellsOnly.one {id : SessionId} {e : SessionEvent} (h : e.session = id)
    (before : List SessionEvent) : TellsOnly id before (before ++ [e]) := by
  refine ⟨[e], rfl, ?_⟩
  intro e' he'
  rw [List.mem_singleton.mp he']
  exact h

theorem TellsOnly.trans {id : SessionId} {a b c : List SessionEvent} (h : TellsOnly id a b)
    (h' : TellsOnly id b c) : TellsOnly id a c := by
  obtain ⟨told, rfl, hid⟩ := h
  obtain ⟨told', rfl, hid'⟩ := h'
  refine ⟨told ++ told', List.append_assoc a told told', ?_⟩
  intro e he
  rcases List.mem_append.mp he with he | he
  · exact hid e he
  · exact hid' e he

end SessionEvent

open SessionEvent (TellsOnly)

theorem Registry.tellsOnly_authenticate (r : Registry) (id : SessionId) (username : String)
    (now : Instant) : TellsOnly id r.events (r.authenticate id username now).1.events := by
  unfold authenticate
  split
  · exact .refl id r.events
  · simp only
    split
    · exact .one rfl r.events
    · exact .refl id r.events

theorem Registry.tellsOnly_close (r : Registry) (id : SessionId) (reason : CloseReason) :
    TellsOnly id r.events (r.close id reason).1.events := by
  unfold close
  split
  · exact .refl id r.events
  · simp only
    split
    · exact .one rfl r.events
    · exact .refl id r.events

namespace Relay

variable {r : Relay} {id : SessionId}

theorem tellsOnly_close (r : Relay) (id : SessionId) (reason : CloseReason) :
    TellsOnly id r.registry.events (r.close id reason).1.registry.events := by
  rw [registry_close]
  exact r.registry.tellsOnly_close id reason

/-- Of an effect observers are told as of the session that it names. -/
theorem tellsOnly_applyOne (own : SessionId) (now : Instant) (r : Relay) (e : Effect) :
    TellsOnly e.session r.registry.events (applyOne own now r e).registry.events := by
  cases e with
  | send id m =>
      rw [applyOne, events_send]
      exact .refl id r.registry.events
  | authenticate id username => exact r.registry.tellsOnly_authenticate id username now
  | close id reason => exact r.tellsOnly_close id reason

theorem tellsOnly_apply (r : Relay) (now : Instant) {effects : List Effect}
    (hown : ∀ e ∈ effects, e.session = id) :
    TellsOnly id r.registry.events (r.apply id now effects).1.registry.events := by
  rw [apply_eq]
  induction effects generalizing r with
  | nil => exact .refl id r.registry.events
  | cons e rest ih =>
      have hone := tellsOnly_applyOne id now r e
      rw [hown e List.mem_cons_self] at hone
      exact hone.trans (ih (applyOne id now r e) fun e' he' => hown e' (List.mem_cons_of_mem e he'))

theorem tellsOnly_message (r : Relay) (id : SessionId) (m : Message)
    (handledAt appliedAt : Instant) :
    TellsOnly id r.registry.events
      (r.step (.message id m handledAt appliedAt)).registry.events := by
  have hown : ∀ e ∈ (r.handle id m handledAt).2, e.session = id := fun _ => session_of_mem_effects
  have happly := tellsOnly_apply (r.handle id m handledAt).1 appliedAt hown
  rw [events_handle] at happly
  exact happly

/-! ## One session -/

/-- Between two states nobody came or went, what concerns other sessions than one did not change and
neither did the snapshots, that one was not listed anew, and observers were told of it only. -/
structure OnlyTouches (id : SessionId) (r r' : Relay) : Prop where
  ids : r'.registry.sessions.map (·.id) = r.registry.sessions.map (·.id)
  session? : ∀ id', id' ≠ id → r'.session? id' = r.session? id'
  contains : ∀ id', id' ≠ id → r'.registry.contains id' = r.registry.contains id'
  listed : r'.registry.contains id = true → r.registry.contains id = true
  snapshots : r'.snapshots = r.snapshots
  events : TellsOnly id r.registry.events r'.registry.events

theorem OnlyTouches.refl (id : SessionId) (r : Relay) : OnlyTouches id r r :=
  ⟨rfl, fun _ _ => rfl, fun _ _ => rfl, fun h => h, rfl, .refl id r.registry.events⟩

theorem OnlyTouches.count (id : SessionId) (r : Relay) (k : Counter) :
    OnlyTouches id r (r.count k) :=
  ⟨rfl, fun _ _ => rfl, fun _ _ => rfl, fun h => h, rfl, .refl id r.registry.events⟩

theorem OnlyTouches.trans {r' r'' : Relay} (h : OnlyTouches id r r')
    (h' : OnlyTouches id r' r'') : OnlyTouches id r r'' where
  ids := h'.ids.trans h.ids
  session? id' hid := (h'.session? id' hid).trans (h.session? id' hid)
  contains id' hid := (h'.contains id' hid).trans (h.contains id' hid)
  listed hlisted := h.listed (h'.listed hlisted)
  snapshots := h'.snapshots.trans h.snapshots
  events := h.events.trans h'.events

theorem OnlyTouches.exists_session {r' : Relay} (h : OnlyTouches id r r') {s : Session}
    (hs : r.session? id = some s) : ∃ t, r'.session? id = some t := by
  have hmem : id ∈ r'.registry.sessions.map (·.id) := by
    rw [h.ids]
    exact List.mem_map.mpr ⟨s, List.mem_of_find?_eq_some hs, Registry.id_of_session? hs⟩
  obtain ⟨t, ht, hid⟩ := List.mem_map.mp hmem
  exact Option.isSome_iff_exists.mp (List.find?_isSome.mpr ⟨t, ht, by simpa using hid⟩)

/-- A step that a reader takes: a message of its client, or the end of its session. -/
inductive IsFor (id : SessionId) : Step → Prop
  | message (m : Message) (handledAt appliedAt : Instant) :
      IsFor id (.message id m handledAt appliedAt)
  | close (reason : CloseReason) : IsFor id (.close id reason)

theorem IsFor.after_eq {st : Step} (hst : IsFor id st) (r : Relay) {s : Session}
    (hid : s.id ≠ id) : s.after r st = s := by
  cases hst with
  | message m handledAt appliedAt => rw [Session.after_message, Session.only_of_ne hid]
  | close reason => rw [Session.after_close, Session.only_of_ne hid]

theorem IsFor.sessions_eq {st : Step} (hst : IsFor id st) (h : r.registry.Numbered) :
    (r.step st).registry.sessions = r.registry.sessions.map (Session.after r st) := by
  rw [sessions_step h]
  cases hst <;> exact List.append_nil _

theorem onlyTouches_step (h : r.registry.Numbered) {st : Step} (hst : IsFor id st) :
    OnlyTouches id r (r.step st) := by
  have hids : (r.step st).registry.sessions.map (·.id) = r.registry.sessions.map (·.id) := by
    rw [hst.sessions_eq h, List.map_map]
    exact List.map_congr_left fun s _ => s.id_after r st
  have hnew : ∀ id', r.session? id' = none → (r.step st).session? id' = none := by
    intro id' hnone
    refine Registry.session?_eq_none_iff.mpr fun t ht hid => ?_
    obtain ⟨s, hs, rfl⟩ := List.mem_map.mp (hst.sessions_eq h ▸ ht)
    exact Registry.session?_eq_none_iff.mp hnone s hs ((s.id_after r st).symm.trans hid)
  have hsession : ∀ id', id' ≠ id → (r.step st).session? id' = r.session? id' := by
    intro id' hid
    cases hs : r.session? id' with
    | none => exact hnew id' hs
    | some s =>
        obtain ⟨-, rfl⟩ := (Registry.session?_eq_some_iff h).mp hs
        rw [session?_step_of_some h hs, hst.after_eq r hid]
  refine ⟨hids, hsession, ?_, ?_, ?_, ?_⟩
  · intro id' hid
    rw [contains_eq (numbered_step h st), contains_eq h, hsession id' hid]
  · rw [contains_eq (numbered_step h st), contains_eq h]
    cases hs : r.session? id with
    | none => rw [hnew id hs]; exact nofun
    | some s =>
        rw [session?_step_of_some h hs]
        exact fun hlisted => (Session.isListed_after hlisted).1
  · rw [snapshots_step]
    cases hst <;> rfl
  · cases hst with
    | message m handledAt appliedAt => exact r.tellsOnly_message id m handledAt appliedAt
    | close reason => exact r.tellsOnly_close id reason

/-! ## Ends -/

/-- What a message leaves to do closes its session just when the message ends it. -/
theorem any_closes_handle {s : Session} (hs : r.session? id = some s) (m : Message)
    (now : Instant) : (r.handle id m now).2.any (·.closes id) = (s.endingBy r m).isSome := by
  obtain rfl := Registry.id_of_session? hs
  simp only [handle, hs, effects_handleMessage, List.any_append]
  cases Session.granted r m <;>
    cases (if (s.acknowledged r m).isSome then none else s.reply r m) <;>
      cases s.endingBy r m <;> simp [Effect.closes]

theorem snd_apply_handle {s : Session} (hs : r.session? id = some s) (m : Message)
    (handledAt appliedAt : Instant) :
    ((r.handle id m handledAt).1.apply id appliedAt (r.handle id m handledAt).2).2 =
      (s.endingBy r m).isSome := by
  rw [apply_eq]
  exact any_closes_handle hs m handledAt

theorem contains_step_of_ending (h : r.registry.Numbered) {s : Session}
    (hs : r.session? id = some s) {st : Step} (hending : (s.ending r st).isSome = true) :
    (r.step st).registry.contains id = false := by
  rw [contains_eq (numbered_step h st), session?_step_of_some h hs, Option.any_some]
  cases hlisted : (s.after r st).isListed with
  | false => rfl
  | true =>
      rw [(Session.isListed_after hlisted).2] at hending
      cases hending

/-! ## Readers -/

variable {c : Config} {s : Session}

/-- Dealing with frames of a session touches that session only, and it is not listed any more once
one of them ended it. -/
theorem dealWith_spec (h : Reachable c r) (hs : r.session? id = some s)
    (clock : Nat → Instant × Instant) (items : List StreamItem) :
    OnlyTouches id r (dealWith id clock r items).1 ∧
      ((dealWith id clock r items).2 = true →
        (dealWith id clock r items).1.registry.contains id = false) := by
  -- along the frames; the reader stops behind the first one that ended the session
  induction items generalizing r s clock with
  | nil => exact ⟨.refl id r, nofun⟩
  | cons item rest ih =>
      cases item with
      | unknown tag size =>
          obtain ⟨htouches, hover⟩ := ih (h.count .unknownFrames) hs clock
          exact ⟨(OnlyTouches.count id r .unknownFrames).trans htouches, hover⟩
      | message m =>
          have hr := h.count .framesReceived
          have hnumbered := hr.orderly.numbered
          have hfor : IsFor id (.message id m (clock 0).1 (clock 0).2) := .message m _ _
          have htouches := (OnlyTouches.count id r .framesReceived).trans
            (onlyTouches_step hnumbered hfor)
          have hclosed :=
            snd_apply_handle (r := r.count .framesReceived) hs m (clock 0).1 (clock 0).2
          have hid := Registry.id_of_session? hs
          have hover : (s.endingBy (r.count .framesReceived) m).isSome = true →
              ((r.count .framesReceived).step
                (.message id m (clock 0).1 (clock 0).2)).registry.contains id = false := by
            intro hending
            refine contains_step_of_ending hnumbered hs ?_
            simp only [Session.ending, if_pos hid]
            exact hending
          have hnext := hr.step (.message id m (clock 0).1 (clock 0).2)
          have hs' := session?_step_of_some hnumbered hs (.message id m (clock 0).1 (clock 0).2)
          simp only [step] at htouches hover hnext hs'
          simp only [dealWith]
          cases happly : ((r.count .framesReceived).handle id m (clock 0).1).1.apply id (clock 0).2
              ((r.count .framesReceived).handle id m (clock 0).1).2 with
          | mk r' closed =>
              rw [happly] at hclosed htouches hover hnext hs'
              cases closed with
              | true => exact ⟨htouches, fun _ => hover hclosed.symm⟩
              | false =>
                  obtain ⟨hrest, hover'⟩ := ih hnext hs' (fun n => clock (n + 1))
                  exact ⟨htouches.trans hrest, hover'⟩

theorem read_spec (h : Reachable c r) (hs : r.session? id = some s) (buffer : List UInt8)
    (p : Portion) :
    OnlyTouches id r (r.read id buffer p).1 ∧
      ((r.read id buffer p).2 = .ended .sessionOver →
        (r.read id buffer p).1.registry.contains id = false) := by
  rw [read]
  cases Stream.items r.config.maxMessageSize (buffer ++ p.bytes) with
  | mk items ending =>
      obtain ⟨htouches, hover⟩ := dealWith_spec h hs p.clock items
      simp only
      cases hdealt : dealWith id p.clock r items with
      | mk r' isOver =>
          rw [hdealt] at htouches hover
          cases isOver with
          | true => exact ⟨htouches, fun _ => hover rfl⟩
          | false =>
              cases ending with
              | pending rest =>
                  refine ⟨htouches, ?_⟩
                  intro hstate
                  cases hstate
              | failed error =>
                  refine ⟨htouches.trans (.count id r' .decodeErrors), ?_⟩
                  intro hstate
                  cases hstate

theorem readAll_spec (h : Reachable c r) (hs : r.session? id = some s) (buffer : List UInt8)
    (portions : List Portion) :
    OnlyTouches id r (readAll id r buffer portions).1 ∧
      ((readAll id r buffer portions).2 = .ended .sessionOver →
        (readAll id r buffer portions).1.registry.contains id = false) := by
  induction portions generalizing r s buffer with
  | nil => exact ⟨.refl id r, nofun⟩
  | cons p portions ih =>
      obtain ⟨htouches, hover⟩ := read_spec h hs buffer p
      have hreachable := h.read id buffer p
      obtain ⟨t, ht⟩ := htouches.exists_session hs
      rw [readAll]
      cases hp : r.read id buffer p with
      | mk r' state =>
          rw [hp] at htouches hover hreachable ht
          cases state with
          | waiting rest =>
              obtain ⟨hrest, hover'⟩ := ih hreachable ht rest
              exact ⟨htouches.trans hrest, hover'⟩
          | ended how => exact ⟨htouches, hover⟩

/-- A reader that ends leaves its session ended and unlisted; if it was listed until then, the
reason is the reader's. -/
theorem conclude_spec (h : Reachable c r) (hs : r.session? id = some s) {how : ReaderEnd}
    (hover : how = .sessionOver → r.registry.contains id = false) :
    OnlyTouches id r (r.conclude id (.ended how)) ∧
      (r.conclude id (.ended how)).registry.contains id = false ∧
      ∃ t, (r.conclude id (.ended how)).session? id = some t ∧ t.isClosed = true ∧
        ∀ reason, how.reason? = some reason → r.registry.contains id = true →
          t.closeReason = some reason := by
  have hnumbered := h.orderly.numbered
  have hid := Registry.id_of_session? hs
  cases hreason : how.reason? with
  | none =>
      have hunlisted : r.registry.contains id = false := by
        cases how with
        | sessionOver => exact hover rfl
        | _ => cases hreason
      simp only [conclude, hreason]
      refine ⟨.refl id r, hunlisted, s, hs, ?_, nofun⟩
      rw [contains_eq hnumbered, hs, Option.any_some] at hunlisted
      rw [h.isClosed_of_session? hs, hunlisted]
      rfl
  | some reason =>
      have hconclude : r.conclude id (.ended how) = r.step (.close id reason) := by
        simp only [conclude, hreason]
        rfl
      have hafter := session?_step_of_some hnumbered hs (.close id reason)
      have hunlisted : (r.step (.close id reason)).registry.contains id = false :=
        contains_step_of_ending hnumbered hs (by simp only [Session.ending, if_pos hid]; rfl)
      rw [hconclude]
      refine ⟨onlyTouches_step hnumbered (.close reason), hunlisted, _, hafter, ?_, ?_⟩
      · rw [contains_eq (numbered_step hnumbered _), hafter, Option.any_some] at hunlisted
        rw [(h.step _).isClosed_of_session? hafter, hunlisted]
        rfl
      · rintro reason' hsame hlisted
        cases hsame
        rw [contains_eq hnumbered, hs, Option.any_some] at hlisted
        have hopen : s.closeReason = none := by
          have hclosed := h.isClosed_of_session? hs
          rw [hlisted] at hclosed
          simpa [Session.isClosed] using hclosed
        rw [Session.after_close, Session.only_of_eq hid, Session.closeReason_leave hlisted, hopen]
        rfl

theorem contains_of_interrupt_over (h : Reachable c r) {state : ReaderState}
    (hover : state = .ended .sessionOver → r.registry.contains id = false)
    {last : Option Interruption} (hlast : r.interrupt id state last = .ended .sessionOver) :
    r.registry.contains id = false := by
  cases state with
  | waiting buffer =>
      cases last with
      | none => cases hlast
      | some last =>
          cases last with
          | cancellation =>
              simp only [interrupt] at hlast
              split at hlast
              · rename_i hclosed
                rw [contains_eq h.orderly.numbered]
                cases hs : r.session? id with
                | none => rfl
                | some s =>
                    rw [hs, Option.any_some, h.isCancelled_of_session? hs] at hclosed
                    simpa using hclosed
              · cases hlast
          | _ => cases hlast
  | ended how =>
      refine hover ?_
      cases last with
      | none => exact hlast
      | some last => cases last <;> exact hlast

/-- Whatever the client of a session sends, in whatever portions and at whatever moments, and
however its connection goes on, its reader touches this session only.  Once the reader has ended,
the session has ended, too, and is not listed; if it was listed until a frame was not of the wire
language, that is the reason. -/
theorem onlyTouches_reader (h : Reachable c r) (hs : r.session? id = some s)
    (buffer : List UInt8) (portions : List Portion) (last : Option Interruption) :
    let read := readAll id r buffer portions
    let state := read.1.interrupt id read.2 last
    let r' := read.1.conclude id state
    OnlyTouches id r r' ∧
      ∀ how, state = .ended how →
        r'.registry.contains id = false ∧
          ∃ t, r'.session? id = some t ∧ t.isClosed = true ∧
            ∀ e, how = .malformed e → read.1.registry.contains id = true →
              t.closeReason = some (.protocolViolation e.message) := by
  intro read state r'
  obtain ⟨htouches, hover⟩ := readAll_spec h hs buffer portions
  have hread := h.readAll id buffer portions
  obtain ⟨t, ht⟩ := htouches.exists_session hs
  cases hstate : state with
  | waiting rest =>
      have hr' : r' = read.1 := congrArg (read.1.conclude id) hstate
      rw [hr']
      exact ⟨htouches, nofun⟩
  | ended how =>
      have hr' : r' = read.1.conclude id (.ended how) := congrArg (read.1.conclude id) hstate
      have hover' : how = .sessionOver → read.1.registry.contains id = false := by
        rintro rfl
        exact contains_of_interrupt_over hread hover hstate
      obtain ⟨hend, hunlisted, t', ht', hclosed, hreason⟩ := conclude_spec hread ht hover'
      rw [hr']
      refine ⟨htouches.trans hend, ?_⟩
      rintro how' hsame
      cases hsame
      refine ⟨hunlisted, t', ht', hclosed, ?_⟩
      rintro e rfl hlisted
      exact hreason _ rfl hlisted

/-- A second client shows a sign of life, cut in two, subscribes, and sends a size that no frame
has: the first one, a subscriber itself, is as it was. -/
theorem onlyTouches_reader_refused :
    let ask : Message := .marketDataRequest ⟨.subscribe, 0, "BTC-USD", ""⟩
    let r := (Relay.ofConfig {}).run [.enlist (.v4 127 0 0 1 50000) 0,
      .enlist (.v4 127 0 0 1 50001) 0, .message 1 ask 1 1]
    let bytes := (Message.heartbeat ⟨0, 5⟩).encode ++ ask.encode ++ [3, 0, 1, 0, 0xff]
    let portions : List Portion :=
      [⟨bytes.take 9, fun n => (n + 2, n + 3)⟩, ⟨bytes.drop 9, fun n => (n + 7, n + 7)⟩]
    let read := readAll 2 r [] portions
    let e := DecodeError.sizeMismatch 3 5 4096
    let r' := read.1.conclude 2 (read.1.interrupt 2 read.2 none)
    Reachable {} r ∧ (∃ s, r.session? 2 = some s) ∧
      read.2 = .ended (.malformed e) ∧ read.1.registry.contains 2 = true ∧
      (read.1.session? 2).map (·.subscriptions) = some [1] ∧
      r'.session? 1 = r.session? 1 ∧ r'.registry.contains 1 = true ∧
      r'.registry.contains 2 = false ∧
      ∃ t, r'.session? 2 = some t ∧ t.closeReason = some (.protocolViolation e.message) := by
  intro ask r bytes portions read e r'
  have hr : Reachable {} r := Reachable.start.run _
  have hsome : (r.session? 2).isSome = true := by decide +kernel
  obtain ⟨s, hs⟩ := Option.isSome_iff_exists.mp hsome
  have hmalformed : read.2 = .ended (.malformed e) := by decide +kernel
  have hlisted : read.1.registry.contains 2 = true := by decide +kernel
  obtain ⟨htouches, hended⟩ := onlyTouches_reader hr hs [] portions none
  obtain ⟨hunlisted, t, ht, -, hreason⟩ := hended (.malformed e) (by
    rw [hmalformed]
    rfl)
  exact ⟨hr, ⟨s, hs⟩, hmalformed, hlisted, by decide +kernel, htouches.session? 1 (by decide),
    (htouches.contains 1 (by decide)).trans (by decide +kernel), hunlisted, t, ht,
    hreason e rfl hlisted⟩

end Relay
end MarketRelay
