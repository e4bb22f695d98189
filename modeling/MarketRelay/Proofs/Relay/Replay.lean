import MarketRelay.Proofs.Market.Follow
import MarketRelay.Proofs.Relay.Invariant
import Mathlib.Data.List.Induction
import Mathlib.Data.List.Infix

/-!
# Subscribers have the state of the relay

A subscription is acknowledged with the state of the symbol's market, and from then on every event
of the symbol goes to the subscriber.  So a client that starts from the acknowledgement and follows
what it gets has the state that the relay has, whatever else happens in between.

* `exists_request_of_adds`: a step that adds a symbol to the subscriptions of a session is a request
  to subscribe, and is acknowledged with the state of the market.  `LastAdds` marks the last of
  these in a run; there is one if the session subscribes in the end (`exists_lastAdds`, from the end
  of the run).
* `follow_pushed`: what a listed subscriber is sent in a step takes the state that it follows where
  the step takes the relay's.  An event of the symbol changes both alike, and whatever else is sent
  changes neither.
* `exists_follow`: the same of all steps behind the acknowledgement, by induction.  The session is
  listed all that time, or it would not be in the end (`isListed_of_contains_run`).
* `replay_eq_snapshot`: so the frames that the queue took tell the state that the relay has.  Where
  nothing was evicted they are the last of those that the client was handed over or has coming.
-/
namespace MarketRelay

/-! ## Symbols of a session -/

namespace Session

theorem isSubscribed_iff {s : Session} {symbol : SymbolId} :
    s.isSubscribed symbol = true ↔ symbol ∈ s.subscriptions := by
  simp [isSubscribed]

theorem isSubscribed_after (r : Relay) (st : Step) (s : Session) (symbol : SymbolId) :
    (s.after r st).isSubscribed symbol = (s.updated r st).isSubscribed symbol := by
  rw [isSubscribed, (s.sameClient_after r st).subscriptions, isSubscribed]

/-- A request that adds a symbol to the subscriptions of a session asks to subscribe to it, and is
answered with the state of its market. -/
theorem requestReply_of_adds {r : Relay} {request : MarketDataRequest} {s : Session}
    {symbol : SymbolId} (hbefore : s.isSubscribed symbol = false)
    (hafter : (s.requested r request).isSubscribed symbol = true) :
    request.action = .subscribe ∧ s.requestReply r request = some (r.snapshotMessage symbol) := by
  have hnot : symbol ∉ s.subscriptions := by
    rw [← isSubscribed_iff, hbefore]
    exact nofun
  unfold requested at hafter
  unfold requestReply
  cases hresolve : r.symbols.resolve request.symbolId request.symbol request.exchange with
  | none =>
      rw [hresolve] at hafter
      exact absurd (isSubscribed_iff.mp hafter) hnot
  | some symbol' =>
      cases haction : request.action with
      | subscribe =>
          simp only [hresolve, haction] at hafter ⊢
          by_cases hmay : r.maySubscribe s symbol' = true
          · rw [if_pos hmay] at hafter ⊢
            rcases SymbolSet.mem_insert.mp (isSubscribed_iff.mp hafter) with rfl | hmem
            · exact ⟨trivial, rfl⟩
            · exact absurd hmem hnot
          · rw [if_neg hmay] at hafter
            exact absurd (isSubscribed_iff.mp hafter) hnot
      | unsubscribe =>
          simp only [hresolve, haction] at hafter
          exact absurd (List.mem_of_mem_filter (isSubscribed_iff.mp hafter)) hnot
      | snapshot =>
          simp only [hresolve, haction] at hafter
          exact absurd (isSubscribed_iff.mp hafter) hnot

theorem exists_request_of_adds {r : Relay} {st : Step} {s : Session} {symbol : SymbolId}
    (hbefore : s.isSubscribed symbol = false) (hafter : (s.after r st).isSubscribed symbol = true) :
    (∃ request handledAt appliedAt,
      st = .message s.id (.marketDataRequest request) handledAt appliedAt ∧
        request.action = .subscribe) ∧
      s.pushed r st = some (r.snapshotMessage symbol) := by
  rw [isSubscribed_after, isSubscribed] at hafter
  rcases subscriptions_updated r st s with hsame | ⟨hauth, request, handledAt, appliedAt, rfl, heq⟩
  · rw [hsame] at hafter
    exact absurd (hbefore.symm.trans hafter) nofun
  · rw [heq] at hafter
    obtain ⟨haction, hreply⟩ := requestReply_of_adds hbefore hafter
    refine ⟨⟨request, handledAt, appliedAt, rfl, haction⟩, ?_⟩
    simp only [pushed, if_true, reply, if_pos hauth]
    exact hreply

theorem follow_snapshotMessage (r : Relay) (symbol symbol' : SymbolId) :
    (r.snapshots.get symbol).follow (r.snapshotMessage symbol') = r.snapshots.get symbol := by
  simp only [Relay.snapshotMessage, MarketDataSnapshot.follow, SnapshotCache.symbolId_get]
  split
  · rename_i heq
    rw [heq]
  · rfl

theorem follow_reply (r : Relay) (m : Message) (s : Session) (symbol : SymbolId) :
    (s.reply r m).toList.foldl MarketDataSnapshot.follow (r.snapshots.get symbol) =
      r.snapshots.get symbol := by
  cases m with
  | logonRequest request =>
      simp only [reply]
      split <;> rfl
  | marketDataRequest request =>
      simp only [reply, requestReply]
      split
      · split
        · rfl
        · split
          · split
            · exact follow_snapshotMessage r symbol _
            · rfl
          · rfl
          · exact follow_snapshotMessage r symbol _
      · rfl
  | _ => rfl

theorem follow_published {s : Session} {symbol : SymbolId} (h : s.Orderly)
    (hlisted : s.isListed = true) (hsubscribed : s.isSubscribed symbol = true)
    (c : SnapshotCache) (e : MarketEvent) :
    (if Relay.reaches e.symbolId s then some e.toMessage else none).toList.foldl
      MarketDataSnapshot.follow (c.get symbol) = (c.apply e).get symbol := by
  have hfollow : (c.get symbol).follow e.toMessage = (c.apply e).get symbol := by
    rw [MarketDataSnapshot.follow_toMessage, SnapshotCache.symbolId_get, SnapshotCache.get_apply]
  by_cases hreaches : Relay.reaches e.symbolId s = true
  · rw [if_pos hreaches]
    exact hfollow
  · have hother : e.symbolId ≠ symbol := by
      rintro rfl
      have hauth : s.isAuthenticated = true :=
        h.subscriber hlisted (List.ne_nil_of_mem (isSubscribed_iff.mp hsubscribed))
      exact hreaches (by simp [Relay.reaches, receives, hlisted, hauth, hsubscribed])
    rw [if_neg hreaches, SnapshotCache.get_apply, if_neg hother]
    rfl

/-- What a listed subscriber is sent in a step takes the state that it follows where the step takes
the relay's. -/
theorem follow_pushed {r : Relay} {s : Session} {symbol : SymbolId} (h : s.Orderly)
    (hlisted : s.isListed = true) (hsubscribed : s.isSubscribed symbol = true) (st : Step) :
    (s.pushed r st).toList.foldl MarketDataSnapshot.follow (r.snapshots.get symbol) =
      (r.snapshotsAfter st).get symbol := by
  cases st with
  | enlist peer now => rfl
  | message id m handledAt appliedAt =>
      by_cases hid : s.id = id
      · simp only [pushed, if_pos hid]
        exact follow_reply r m s symbol
      · simp only [pushed, if_neg hid]
        rfl
  | publish e elapsed => exact follow_published h hlisted hsubscribed r.snapshots e
  | sweep l now clock =>
      simp only [pushed]
      split <;> rfl
  | drain id => rfl
  | close id reason => rfl
  | stop =>
      simp only [pushed]
      split <;> rfl

end Session

/-! ## Runs -/

namespace Relay

/-- Whether a session, listed or not, subscribes to a symbol. -/
def isSubscribed (r : Relay) (id : SessionId) (symbol : SymbolId) : Bool :=
  (r.session? id).any (·.isSubscribed symbol)

/-- The step that stands between `before` and `after` in a run is the one that added a symbol to
the subscriptions of a session for the last time. -/
structure LastAdds (r : Relay) (id : SessionId) (symbol : SymbolId) (before : List Step)
    (st : Step) (after : List Step) : Prop where
  absent : (r.run before).isSubscribed id symbol = false
  kept : ∀ p, p <+: after → (r.run (before ++ st :: p)).isSubscribed id symbol = true

variable {r : Relay} {id : SessionId} {symbol : SymbolId}

theorem isSubscribed_of_some {s : Session} (hs : r.session? id = some s) :
    r.isSubscribed id symbol = s.isSubscribed symbol := by
  rw [isSubscribed, hs]
  rfl

theorem isListed_of_contains_run (h : r.registry.Numbered) {s : Session}
    (hs : r.session? id = some s) {steps : List Step}
    (hlisted : (r.run steps).registry.contains id = true) : s.isListed = true := by
  induction steps generalizing r s with
  | nil =>
      obtain ⟨t, ht, htlisted, htid⟩ := Registry.contains_iff.mp hlisted
      obtain ⟨hmem, hid⟩ := (Registry.session?_eq_some_iff h).mp hs
      rw [h.eq_of_id_eq hmem ht (hid.trans htid.symm)]
      exact htlisted
  | cons st steps ih =>
      have hafter := ih (numbered_step h st) (session?_step_of_some h hs st) hlisted
      exact (Session.isListed_after hafter).1

/-- A listed subscriber that follows what its queue takes has the state of the relay. -/
theorem exists_follow (h : r.Orderly) {s : Session} (hs : r.session? id = some s)
    {steps : List Step} (hlisted : (r.run steps).registry.contains id = true)
    (hkept : ∀ p, p <+: steps → (r.run p).isSubscribed id symbol = true) :
    ∃ ms : List Message, accepted id r steps = ms.map Message.encode ∧
      ms.foldl MarketDataSnapshot.follow (r.snapshots.get symbol) =
        (r.run steps).snapshots.get symbol := by
  induction steps generalizing r s with
  | nil => exact ⟨[], rfl, rfl⟩
  | cons st steps ih =>
      have hnow : s.isListed = true := isListed_of_contains_run h.numbered hs hlisted
      have hsubscribed : s.isSubscribed symbol = true := by
        rw [← isSubscribed_of_some hs]
        exact hkept [] (List.nil_prefix)
      have hlater : ∀ p, p <+: steps → ((r.step st).run p).isSubscribed id symbol = true :=
        fun p hp => hkept (st :: p) (List.prefix_cons_inj st |>.mpr hp)
      obtain ⟨ms, hms, hfollow⟩ :=
        ih (h.step st) (session?_step_of_some h.numbered hs st) hlisted hlater
      refine ⟨(s.pushed r st).toList ++ ms, ?_, ?_⟩
      · rw [accepted, newFrames_step_of_some h.numbered hs, (h.session hs).isOpen hnow, hms,
          List.map_append]
        cases s.pushed r st <;> rfl
      -- what is followed up to here is the state of the relay after the first step
      · rw [List.foldl_append, Session.follow_pushed (h.session hs) hnow hsubscribed,
          ← snapshots_step, hfollow]
        rfl

theorem exists_lastAdds (hstart : r.isSubscribed id symbol = false) {steps : List Step}
    (hend : (r.run steps).isSubscribed id symbol = true) :
    ∃ before st after, steps = before ++ st :: after ∧ r.LastAdds id symbol before st after := by
  -- from the end: a symbol that was there before the last step was added earlier, and kept since
  induction steps using List.reverseRecOn with
  | nil =>
      rw [run_nil, hstart] at hend
      cases hend
  | append_singleton steps st ih =>
      cases hbefore : (r.run steps).isSubscribed id symbol with
      | false =>
          refine ⟨steps, st, [], rfl, hbefore, ?_⟩
          intro p hp
          rw [List.prefix_nil.mp hp]
          exact hend
      | true =>
          obtain ⟨before, st', after, rfl, hadds⟩ := ih hbefore
          refine ⟨before, st', after ++ [st], by simp, hadds.absent, ?_⟩
          intro p hp
          rcases List.prefix_concat_iff.mp hp with rfl | hp
          · simpa using hend
          · exact hadds.kept p hp

/-- What added a symbol is a request to subscribe, and the queue took its acknowledgement. -/
theorem LastAdds.request {before : List Step} {st : Step} {after : List Step}
    (hadds : r.LastAdds id symbol before st after) (h : (r.run before).registry.Numbered) :
    ∃ s, (r.run before).session? id = some s ∧
      (∃ request handledAt appliedAt,
        st = .message id (.marketDataRequest request) handledAt appliedAt ∧
          request.action = .subscribe) ∧
      s.pushed (r.run before) st = some ((r.run before).snapshotMessage symbol) := by
  have hafter : ((r.run before).step st).isSubscribed id symbol = true := by
    have := hadds.kept [] List.nil_prefix
    rwa [run_append] at this
  cases hs : (r.run before).session? id with
  | none =>
      cases hs' : ((r.run before).step st).session? id with
      | none => simp [isSubscribed, hs'] at hafter
      | some s =>
          obtain ⟨peer, now, -, rfl⟩ := session?_step_of_none h hs hs'
          rw [isSubscribed_of_some hs'] at hafter
          cases hafter
  | some s =>
      obtain ⟨-, rfl⟩ := (Registry.session?_eq_some_iff h).mp hs
      have hbefore := hadds.absent
      rw [isSubscribed_of_some hs] at hbefore
      rw [isSubscribed_of_some (session?_step_of_some h hs st)] at hafter
      obtain ⟨hrequest, hpushed⟩ := Session.exists_request_of_adds hbefore hafter
      exact ⟨s, rfl, hrequest, hpushed⟩

theorem LastAdds.replay_accepted {before : List Step} {st : Step} {after : List Step}
    (hadds : r.LastAdds id symbol before st after) (h : (r.run before).Orderly)
    (hlisted : (r.run (before ++ st :: after)).registry.contains id = true) :
    accepted id (r.run before) [st] = [((r.run before).snapshotMessage symbol).encode] ∧
      MarketDataSnapshot.replay symbol (accepted id (r.run before) (st :: after)) =
        some ((r.run (before ++ st :: after)).snapshots.get symbol) := by
  obtain ⟨s, hs, ⟨request, handledAt, appliedAt, rfl, -⟩, hpushed⟩ := hadds.request h.numbered
  rw [run_append] at hlisted
  have hopen : s.queue.isClosed = false :=
    (h.session hs).isOpen (isListed_of_contains_run h.numbered hs hlisted)
  have hack : OutboundQueue.newFrames ((r.run before).queue id)
      (((r.run before).step (.message id (.marketDataRequest request) handledAt appliedAt)).queue
        id) = [((r.run before).snapshotMessage symbol).encode] := by
    rw [newFrames_step_of_some h.numbered hs, hopen, hpushed]
    rfl
  have hkept : ∀ p, p <+: after →
      (((r.run before).step
        (.message id (.marketDataRequest request) handledAt appliedAt)).run p).isSubscribed id
          symbol = true := by
    intro p hp
    have := hadds.kept p hp
    rwa [run_append] at this
  obtain ⟨ms, hms, hfollow⟩ := exists_follow (h.step _)
    (session?_step_of_some h.numbered hs _) hlisted hkept
  refine ⟨by rw [accepted, hack]; rfl, ?_⟩
  rw [accepted, hack, hms, run_append, run_cons, ← hfollow, snapshots_step]
  exact MarketDataSnapshot.replay_encode (SnapshotCache.symbolId_get _ _) ms

theorem exists_received_eq (r : Relay) (id : SessionId) (before : List Step) (st : Step) :
    ∃ earlier, r.received id (before ++ [st]) = earlier ++ accepted id (r.run before) [st] := by
  refine ⟨taken id r (before ++ [st]) ++ ((r.run (before ++ [st])).queue id).frames.take
    (((r.run (before ++ [st])).queue id).size -
      (((r.run (before ++ [st])).queue id).entered - ((r.run before).queue id).entered)), ?_⟩
  rw [accepted, accepted, List.append_nil, OutboundQueue.newFrames, received, List.append_assoc,
    run_append, run_cons, run_nil, List.take_append_drop]

/-- In every run, a session that is listed at its end and then subscribes to a symbol asked for it
at some time for the last time.  From the acknowledgement of that request on, the frames that its
queue took tell the state that the relay has of the symbol's market; and if none was evicted since,
these are the last ones of the frames that were handed over to the client or wait for it. -/
theorem replay_eq_snapshot (c : Config) (steps : List Step) (id : SessionId)
    (symbol : SymbolId) :
    let r := Relay.ofConfig c
    (r.run steps).registry.contains id = true → (r.run steps).isSubscribed id symbol = true →
      (∃ before request handledAt appliedAt after,
        let st := .message id (.marketDataRequest request) handledAt appliedAt
        steps = before ++ st :: after ∧ request.action = .subscribe ∧
          r.LastAdds id symbol before st after) ∧
      ∀ before st after, steps = before ++ st :: after → r.LastAdds id symbol before st after →
        ∃ start : MarketDataSnapshot,
          accepted id (r.run before) [st] = [(Message.marketDataSnapshot start).encode] ∧
          MarketDataSnapshot.replay symbol (accepted id (r.run before) (st :: after)) =
            some ((r.run steps).snapshots.get symbol) ∧
          (((r.run steps).queue id).dropped = ((r.run (before ++ [st])).queue id).dropped →
            ∃ earlier,
              r.received id (before ++ [st]) =
                earlier ++ accepted id (r.run before) [st] ∧
              r.received id steps = earlier ++ accepted id (r.run before) (st :: after)) := by
  intro r hlisted hsubscribed
  have hr : r.Orderly := orderly_ofConfig c
  refine ⟨?_, ?_⟩
  · obtain ⟨before, st, after, rfl, hadds⟩ := exists_lastAdds rfl hsubscribed
    obtain ⟨s, -, ⟨request, handledAt, appliedAt, rfl, haction⟩, -⟩ :=
      hadds.request (hr.run before).numbered
    exact ⟨before, request, handledAt, appliedAt, after, rfl, haction, hadds⟩
  · rintro before st after rfl hadds
    obtain ⟨hack, hreplay⟩ := hadds.replay_accepted (hr.run before) hlisted
    refine ⟨_, hack, hreplay, fun hdropped => ?_⟩
    obtain ⟨earlier, hearlier⟩ := exists_received_eq r id before st
    have hsplit : before ++ st :: after = before ++ [st] ++ after := by simp
    refine ⟨earlier, hearlier, ?_⟩
    rw [hsplit] at hdropped ⊢
    rw [received_append hr.numbered (before ++ [st]) hdropped, hearlier, List.append_assoc,
      run_append]
    simp only [accepted, run_cons, run_nil, List.append_nil]

/-- A client that subscribes after a trade, unsubscribes, subscribes again and is drained between a
quote and a trade; of its other symbol it is sent a trade, too. -/
theorem replay_eq_snapshot_resubscribed :
    let r := Relay.ofConfig {}
    let ask (action : RequestAction) (name : String) : Step :=
      .message 1 (.marketDataRequest ⟨action, 0, name, ""⟩) 5 6
    let trade (symbol : SymbolId) (time : Int64) : Step :=
      .publish ⟨symbol, .trade ⟨⟨0x4059000000000000⟩, ⟨0x8000000000000000⟩, .sell, time⟩⟩ 0
    let quote : Step := .publish ⟨1, .quote ⟨⟨1⟩, ⟨2⟩, ⟨3⟩, ⟨4⟩, 20⟩⟩ 0
    let before := [.enlist (.v4 127 0 0 1 50000) 0, trade 1 10, ask .subscribe "BTC-USD",
      ask .unsubscribe "BTC-USD", ask .subscribe "ETH-USD", trade 1 11]
    let after := [quote, .drain 1, trade 2 12, trade 1 13]
    let steps := before ++ ask .subscribe "BTC-USD" :: after
    (r.run steps).registry.contains 1 = true ∧ (r.run steps).isSubscribed 1 1 = true ∧
      r.LastAdds 1 1 before (ask .subscribe "BTC-USD") after ∧
      (accepted 1 (r.run before) (ask .subscribe "BTC-USD" :: after)).length = 4 ∧
      MarketDataSnapshot.replay 1 (accepted 1 (r.run before) (ask .subscribe "BTC-USD" :: after)) =
        some ⟨1, ⟨0x4059000000000000⟩, ⟨0x8000000000000000⟩, 13, ⟨1⟩, ⟨2⟩, ⟨3⟩, ⟨4⟩, 20⟩ := by
  intro r ask trade quote before after steps
  have hlisted : (r.run steps).registry.contains 1 = true := by decide +kernel
  have hsubscribed : (r.run steps).isSubscribed 1 1 = true := by decide +kernel
  have hkept : ∀ p ∈ after.inits,
      (r.run (before ++ ask .subscribe "BTC-USD" :: p)).isSubscribed 1 1 = true := by
    decide +kernel
  have hadds : r.LastAdds 1 1 before (ask .subscribe "BTC-USD") after :=
    ⟨by decide +kernel, fun p hp => hkept p ((List.mem_inits p after).mpr hp)⟩
  obtain ⟨_, -, hreplay, -⟩ :=
    (replay_eq_snapshot {} steps 1 1 hlisted hsubscribed).2 before _ after rfl hadds
  refine ⟨hlisted, hsubscribed, hadds, by decide +kernel, hreplay.trans ?_⟩
  decide +kernel

end Relay
end MarketRelay
