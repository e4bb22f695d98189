import MarketRelay.Proofs.Relay.Sink
import MarketRelay.Proofs.Server.Work

/-!
# Publishing by name and by number

A feed calls a symbol by its name and the owner of a server by its number.  Both ways in let the
same through and lead to the same, and what they refuse changes nothing: that is the main result,
`feed_agrees_with_broadcast`, about a server in any state whatsoever.

For a symbol of the table and something that happened to it there are two cases, which are those of
`PublishesAlike`.

* All values can be quoted.  Both ways publish, with the same report, and the two states after it
  differ at most in how long the publication took; where it took equally long they are the same.
* Some value cannot be quoted.  Both ways refuse it, and they name the same value as the culprit,
  the first one that is wrong.  Only the name of the field differs, since one way calls quantities
  sizes.

What is told of no symbol of the table is refused before its values are looked at.
-/
namespace MarketRelay.Service

open Relay (SameButLatency)

variable {s : Service} {name : String} {o : Occurrence} {e : MarketEvent} {elapsed : Nat}
  {report : PublishReport} {r : Relay}

theorem step_feed_of_eq {answer : Except FeedError PublishReport}
    (h : s.relay.feed name o elapsed = (r, answer)) :
    s.step (.feed name o elapsed) = s.withRelay r := by
  simp only [step, h]

theorem step_broadcast_of_eq {answer : Except RelayError PublishReport}
    (h : s.relay.broadcast e elapsed = (r, answer)) :
    s.step (.broadcast e elapsed) = s.withRelay r := by
  simp only [step, h]

/-- Something happened to a symbol: told under its name or under its number, it comes to the
same. -/
inductive PublishesAlike (s : Service) (symbol : SymbolEntry) (o : Occurrence)
    (elapsed elapsed' : Nat) : Prop
  | published (report : PublishReport) (r r' : Relay) (quotable : o.IsQuotable)
      (feed : s.relay.feed symbol.name o elapsed = (r, .ok report))
      (broadcast : s.relay.broadcast ⟨symbol.id, o⟩ elapsed' = (r', .ok report))
      (afterFeed : s.step (.feed symbol.name o elapsed) = s.withRelay r)
      (afterBroadcast : s.step (.broadcast ⟨symbol.id, o⟩ elapsed') = s.withRelay r')
      (same : SameButLatency r r') (eq : elapsed = elapsed' → r = r')
  /-- Both refuse the same value, which each calls by a name of its own. -/
  | refused (value : Binary64) (field field' : String) (mem : value ∈ o.values)
      (bad : ¬ value.IsQuotable)
      (feed : s.relay.feed symbol.name o elapsed = (s.relay, .error (.invalidValue field value)))
      (broadcast : s.relay.broadcast ⟨symbol.id, o⟩ elapsed' =
        (s.relay, .error (.feed (.invalidValue field' value))))

theorem publishesAlike {symbol : SymbolEntry} (hsymbol : symbol ∈ s.relay.symbols.entries)
    (o : Occurrence) (elapsed elapsed' : Nat) : s.PublishesAlike symbol o elapsed elapsed' := by
  by_cases ho : o.IsQuotable
  · let e : MarketEvent := ⟨symbol.id, o⟩
    have hfeed : s.relay.feed symbol.name o elapsed = (_, .ok _) :=
      Relay.feed_eq_ok_iff.mpr ⟨symbol, hsymbol, rfl, ho, Prod.eta (s.relay.publish e elapsed)⟩
    have hbroadcast : s.relay.broadcast e elapsed' = (_, .ok _) :=
      Relay.broadcast_eq_ok_iff.mpr
        ⟨List.mem_map_of_mem hsymbol, ho, Prod.eta (s.relay.publish e elapsed')⟩
    refine .published _ _ _ ho hfeed hbroadcast (step_feed_of_eq hfeed)
      (step_broadcast_of_eq hbroadcast) (Relay.sameButLatency_publish _ _ elapsed elapsed') ?_
    rintro rfl
    rfl
  · obtain ⟨value, hmem, hbad, herror⟩ := Occurrence.exists_checkAmounts_of_not_isQuotable ho
    obtain ⟨field, hfeed⟩ := herror "size"
    obtain ⟨field', hbroadcast⟩ := herror "quantity"
    exact .refused value field field' hmem hbad (Relay.feed_of_checkAmounts hsymbol hfeed)
      (Relay.broadcast_of_checkAmounts hsymbol hbroadcast)

theorem feed_refused (elapsed : Nat)
    (h : name ∉ s.relay.symbols.entries.map (·.name) ∨ ¬ o.IsQuotable) :
    ∃ error, s.relay.feed name o elapsed = (s.relay, .error error) := by
  cases hfeed : s.relay.feed name o elapsed with
  | mk r answer =>
      cases answer with
      | error error => exact ⟨error, by rw [Relay.feed_of_refused hfeed]⟩
      | ok report =>
          obtain ⟨symbol, hsymbol, rfl, ho, -⟩ := Relay.feed_eq_ok_iff.mp hfeed
          rcases h with hname | hbad
          · exact absurd (List.mem_map_of_mem hsymbol) hname
          · exact absurd ho hbad

theorem broadcast_refused (elapsed : Nat)
    (h : e.symbolId ∉ s.relay.symbols.entries.map (·.id) ∨ ¬ e.occurrence.IsQuotable) :
    ∃ error, s.relay.broadcast e elapsed = (s.relay, .error error) := by
  cases hbroadcast : s.relay.broadcast e elapsed with
  | mk r answer =>
      cases answer with
      | error error => exact ⟨error, by rw [Relay.broadcast_of_refused hbroadcast]⟩
      | ok report =>
          obtain ⟨hid, ho, -⟩ := Relay.broadcast_eq_ok_iff.mp hbroadcast
          rcases h with hnot | hbad
          · exact absurd hid hnot
          · exact absurd ho hbad

/-- **Publishing by name and by number agree.**  Whatever state a server is in, what is told of a
symbol of its table under the symbol's name and under its number is both times published, with the
same report and to the same effect but for the time that it took, or both times refused; it is
refused just if one of its values is not finite or below zero.  A name or a number that is not in
the table is refused, and what is refused changes nothing. -/
theorem feed_agrees_with_broadcast (s : Service) :
    (∀ symbol ∈ s.relay.symbols.entries, ∀ o elapsed elapsed',
      s.PublishesAlike symbol o elapsed elapsed') ∧
    (∀ name o elapsed,
      name ∉ s.relay.symbols.entries.map (·.name) ∨ ¬ o.IsQuotable →
        (∃ error, s.relay.feed name o elapsed = (s.relay, .error error)) ∧
          s.step (.feed name o elapsed) = s) ∧
    ∀ (e : MarketEvent) (elapsed : Nat),
      e.symbolId ∉ s.relay.symbols.entries.map (·.id) ∨ ¬ e.occurrence.IsQuotable →
        (∃ error, s.relay.broadcast e elapsed = (s.relay, .error error)) ∧
          s.step (.broadcast e elapsed) = s := by
  refine ⟨fun symbol hsymbol => publishesAlike hsymbol, ?_, ?_⟩
  · intro name o elapsed h
    obtain ⟨error, herror⟩ := feed_refused elapsed h
    exact ⟨⟨error, herror⟩, step_feed_of_eq herror⟩
  · intro e elapsed h
    obtain ⟨error, herror⟩ := broadcast_refused elapsed h
    exact ⟨⟨error, herror⟩, step_broadcast_of_eq herror⟩

/-- A client follows a symbol, and its queue is full. -/
def followed : Service :=
  (ofConfig { outboundQueueCapacity := 1 }).run [.accept (.v4 127 0 0 1 50000) 0,
    .decode 1 (Message.marketDataRequest ⟨.subscribe, 0, "BTC-USD", ""⟩).encode 1]

/-- A trade at negative zero is published both ways, evicting a frame; a quote whose size is NaN, a
name in the wrong case and the number of no symbol are refused. -/
theorem feed_agrees_with_broadcast_followed :
    let trade : Occurrence := .trade ⟨⟨0x8000000000000000⟩, ⟨1⟩, .buy, -5⟩
    let quote : Occurrence := .quote ⟨⟨1⟩, ⟨0x7FF8000000000000⟩, ⟨1⟩, ⟨1⟩, 7⟩
    (∃ report r r', followed.relay.feed "BTC-USD" trade 3 = (r, .ok report) ∧
        followed.relay.broadcast ⟨1, trade⟩ 4 = (r', .ok report) ∧ SameButLatency r r' ∧
        report = ⟨1, 1⟩) ∧
      (∃ error, followed.relay.feed "BTC-USD" quote 3 = (followed.relay, .error error)) ∧
      followed.step (.feed "BTC-USD" quote 3) = followed ∧
      followed.step (.feed "btc-usd" trade 3) = followed ∧
      followed.step (.broadcast ⟨0, trade⟩ 3) = followed := by
  intro trade quote
  obtain ⟨hsame, hfeed, hbroadcast⟩ := feed_agrees_with_broadcast followed
  have hquote := hfeed "BTC-USD" quote 3 (Or.inr (by decide))
  refine ⟨?_, hquote.1, hquote.2, (hfeed "btc-usd" trade 3 (Or.inl (by decide +kernel))).2,
    (hbroadcast ⟨0, trade⟩ 3 (Or.inl (by decide +kernel))).2⟩
  have hreport : (followed.relay.feed "BTC-USD" trade 3).2.toOption = some ⟨1, 1⟩ := by
    decide +kernel
  cases hsame ⟨1, "BTC-USD", ""⟩ (by decide +kernel) trade 3 4 with
  | published report r r' ho hfeed hbroadcast hafter hafter' heffect =>
      rw [hfeed] at hreport
      exact ⟨report, r, r', hfeed, hbroadcast, heffect, Option.some.inj hreport⟩
  | refused value field field' hmem hbad =>
      have htrade : trade.IsQuotable := by decide
      exact absurd (htrade value hmem) hbad

end MarketRelay.Service
