import MarketRelay.Proofs.Market.SymbolTable
import MarketRelay.Proofs.Relay.Invariant
import Mathlib.Data.List.Induction

/-!
# What sessions subscribe to

A request is resolved to a symbol of the table before anything is done about it, and a session that
has no room for one more symbol is refused it, unless it subscribes to it already.  So a session
subscribes to symbols of the table only, and to no more of them than the settings allow: to none at
all where they allow none.

This holds of sessions that have ended, too, since their clients' last requests may be dealt with
after the end; and of those that were refused a logon after they had been granted one, which keep
what they subscribed to.  So the invariant `SubscribesWithin` says nothing about lists and ends, and
a step has only three ways to change what it is about: to subscribe, to unsubscribe and to admit a
session.

That sets of symbols are in order is part of it.  Without that the check whether a symbol is there
already, and the insertion that leaves it out if it is, might not agree, and a full set could grow
(`SymbolSet.insert_of_mem`).
-/
namespace MarketRelay

/-! ## Sets of symbols -/

namespace SymbolSet

variable {id : SymbolId} {s : SymbolSet}

theorem pairwise_insert (h : s.Pairwise (· < ·)) : (insert id s).Pairwise (· < ·) := by
  induction s with
  | nil => exact List.pairwise_singleton _ id
  | cons x rest ih =>
      obtain ⟨hx, hrest⟩ := List.pairwise_cons.mp h
      unfold insert
      split
      · rename_i hlt
        refine List.pairwise_cons.mpr ⟨?_, h⟩
        intro y hy
        rcases List.mem_cons.mp hy with rfl | hy
        · exact hlt
        · exact UInt32.lt_trans hlt (hx y hy)
      · split
        · exact h
        · rename_i hnlt hne
          refine List.pairwise_cons.mpr ⟨?_, ih hrest⟩
          intro y hy
          rcases mem_insert.mp hy with rfl | hy
          · exact UInt32.lt_of_le_of_ne (UInt32.not_lt.mp hnlt) (Ne.symm hne)
          · exact hx y hy

theorem insert_of_mem (h : s.Pairwise (· < ·)) (hid : id ∈ s) : insert id s = s := by
  induction s with
  | nil => cases hid
  | cons x rest ih =>
      obtain ⟨hx, hrest⟩ := List.pairwise_cons.mp h
      unfold insert
      rcases List.mem_cons.mp hid with rfl | hmem
      · rw [if_neg (UInt32.lt_irrefl id), if_pos rfl]
      · have hlt := hx id hmem
        rw [if_neg (UInt32.lt_asymm hlt), if_neg (UInt32.ne_of_lt hlt).symm, ih hrest hmem]

theorem length_insert_le (id : SymbolId) (s : SymbolSet) :
    (insert id s).length ≤ s.length + 1 := by
  induction s with
  | nil => exact Nat.le_refl 1
  | cons x rest ih =>
      unfold insert
      split
      · exact Nat.le_refl _
      · split
        · exact Nat.le_succ _
        · exact Nat.succ_le_succ ih

end SymbolSet

/-! ## Sessions -/

namespace Session

/-- What holds of the subscriptions of a session wherever a relay runs with some settings. -/
structure SubscribesWithin (c : Config) (s : Session) : Prop where
  ordered : s.subscriptions.Pairwise (· < ·)
  served : ∀ symbol ∈ s.subscriptions, (SymbolTable.ofList c.symbols).contains symbol = true
  length_le : s.subscriptions.length ≤ c.maxSubscriptionsPerSession

variable {c : Config} {r : Relay} {s : Session} {symbol : SymbolId}

theorem subscribesWithin_fresh (c : Config) (id : SessionId) (peer : SocketAddress) (now : Instant)
    (authenticated : Bool) (capacity : Nat) :
    (fresh id peer now authenticated capacity).SubscribesWithin c where
  ordered := List.Pairwise.nil
  served := nofun
  length_le := Nat.zero_le _

theorem SubscribesWithin.subscribe (h : s.SubscribesWithin r.config)
    (hserved : r.symbols.contains symbol = true) (hmay : r.maySubscribe s symbol = true) :
    (s.subscribe symbol).1.SubscribesWithin r.config where
  ordered := SymbolSet.pairwise_insert h.ordered
  served := by
    intro x hx
    rcases SymbolSet.mem_insert.mp hx with rfl | hx
    · exact hserved
    · exact h.served x hx
  length_le := by
    rcases Bool.or_eq_true_iff.mp hmay with hheld | hroom
    · have hsame : SymbolSet.insert symbol s.subscriptions = s.subscriptions :=
        SymbolSet.insert_of_mem h.ordered (List.contains_iff_mem.mp hheld)
      rw [Session.subscribe, hsame]
      exact h.length_le
    · exact Nat.le_trans (SymbolSet.length_insert_le symbol s.subscriptions)
        (of_decide_eq_true hroom)

theorem SubscribesWithin.unsubscribe (h : s.SubscribesWithin c) (symbol : SymbolId) :
    (s.unsubscribe symbol).1.SubscribesWithin c where
  ordered := h.ordered.filter _
  served := fun x hx => h.served x (SymbolSet.mem_erase.mp hx).2
  length_le := Nat.le_trans (List.length_filter_le _ _) h.length_le

theorem SubscribesWithin.requested (h : s.SubscribesWithin r.config)
    (request : MarketDataRequest) : (s.requested r request).SubscribesWithin r.config := by
  unfold Session.requested
  split
  · exact h
  · rename_i symbol hresolve
    split
    · split
      · rename_i hmay
        exact h.subscribe (SymbolTable.contains_of_resolve hresolve) hmay
      · exact h
    · exact h.unsubscribe symbol
    · exact h

theorem SubscribesWithin.of_subscriptions_eq {t : Session} (h : s.SubscribesWithin c)
    (heq : t.subscriptions = s.subscriptions) : t.SubscribesWithin c where
  ordered := heq ▸ h.ordered
  served := heq ▸ h.served
  length_le := heq ▸ h.length_le

theorem SubscribesWithin.after (h : s.SubscribesWithin r.config) (st : Step) :
    (s.after r st).SubscribesWithin r.config := by
  have hclient := (s.sameClient_after r st).subscriptions
  rcases subscriptions_updated r st s with hsame | ⟨-, request, -, -, -, hrequested⟩
  · exact h.of_subscriptions_eq (hclient.trans hsame)
  · exact (h.requested request).of_subscriptions_eq (hclient.trans hrequested)

end Session

/-! ## Runs -/

namespace Relay

variable {c : Config} {id : SessionId} {s : Session}

theorem subscribesWithin_step {r : Relay} (h : r.registry.Numbered)
    (hs : ∀ s ∈ r.registry.sessions, s.SubscribesWithin r.config) (st : Step) :
    ∀ s ∈ (r.step st).registry.sessions, s.SubscribesWithin r.config := by
  intro t ht
  rw [sessions_step h, List.mem_append] at ht
  rcases ht with hold | hnew
  · obtain ⟨s, hmem, rfl⟩ := List.mem_map.mp hold
    exact (hs s hmem).after st
  · cases st with
    | enlist peer now =>
        simp only [admitted] at hnew
        split at hnew
        · cases hnew
        · obtain rfl := List.mem_singleton.mp hnew
          exact Session.subscribesWithin_fresh _ _ _ _ _ _
    | _ => cases hnew

theorem subscribesWithin_run {r : Relay} (h : r.registry.Numbered)
    (hs : ∀ s ∈ r.registry.sessions, s.SubscribesWithin r.config) (steps : List Step) :
    ∀ s ∈ (r.run steps).registry.sessions, s.SubscribesWithin r.config := by
  refine run_induction (P := fun r' => r'.registry.Numbered ∧ r'.config = r.config ∧
    ∀ s ∈ r'.registry.sessions, s.SubscribesWithin r.config) ?_ ⟨h, rfl, hs⟩ steps |>.2.2
  rintro r' st ⟨h, hconfig, hs⟩
  refine ⟨numbered_step h st, (config_step r' st).trans hconfig, ?_⟩
  rw [← hconfig] at hs ⊢
  exact subscribesWithin_step h hs st

/-- A session that subscribes to anything has logged on, or had at some time. -/
theorem exists_authenticated_of_subscriptions {r : Relay} (h : r.registry.Numbered)
    (hstart : ∀ s, r.session? id = some s → s.subscriptions = []) {steps : List Step}
    (hs : (r.run steps).session? id = some s) (hne : s.subscriptions ≠ []) :
    ∃ before, before <+: steps ∧
      ∃ t, (r.run before).session? id = some t ∧ t.isAuthenticated = true := by
  induction steps using List.reverseRecOn generalizing s with
  | nil => exact absurd (hstart s hs) hne
  | append_singleton steps st ih =>
      rw [run_append, run_cons, run_nil] at hs
      have hnumbered := numbered_run h steps
      cases hbefore : (r.run steps).session? id with
      | none =>
          obtain ⟨peer, now, -, rfl⟩ := session?_step_of_none hnumbered hbefore hs
          exact absurd rfl hne
      | some t =>
          obtain rfl : t.after (r.run steps) st = s :=
            Option.some.inj ((session?_step_of_some hnumbered hbefore st).symm.trans hs)
          rw [(t.sameClient_after _ st).subscriptions] at hne
          rcases Session.subscriptions_updated (r.run steps) st t with hsame | ⟨hauth, -⟩
          · rw [hsame] at hne
            obtain ⟨before, hprefix, hauth⟩ := ih hbefore hne
            exact ⟨before, hprefix.trans (List.prefix_append steps [st]), hauth⟩
          · exact ⟨steps, List.prefix_append steps [st], t, hbefore, hauth⟩

/-- Whatever its clients send, before and after their sessions have ended, every session of a relay
subscribes to symbols of the table only, each once, and to as many as the settings allow at most;
and to none unless it has logged on at some time. -/
theorem subscriptions_of_session (c : Config) (steps : List Step) {id : SessionId} {s : Session}
    (hs : ((ofConfig c).run steps).session? id = some s) :
    s.subscriptions.Nodup ∧
      (∀ symbol ∈ s.subscriptions, (ofConfig c).symbols.contains symbol = true) ∧
      s.subscriptions.length ≤ c.maxSubscriptionsPerSession ∧
      (s.subscriptions ≠ [] → ∃ before, before <+: steps ∧
        ∃ t, ((ofConfig c).run before).session? id = some t ∧ t.isAuthenticated = true) := by
  have hnumbered : (ofConfig c).registry.Numbered := Registry.numbered_empty c.maxClients
  have hnobody : ∀ t ∈ (ofConfig c).registry.sessions, t.SubscribesWithin c := by
    intro t ht
    cases ht
  have hwithin := subscribesWithin_run hnumbered hnobody steps s
    ((Registry.session?_eq_some_iff (numbered_run hnumbered steps)).mp hs).1
  refine ⟨hwithin.ordered.imp UInt32.ne_of_lt, hwithin.served, hwithin.length_le, ?_⟩
  refine exists_authenticated_of_subscriptions hnumbered ?_ hs
  intro t ht
  cases ht

/-- A client that asks for two symbols where there is room for one, and is refused a second logon,
keeps the one after the end of its session. -/
theorem subscriptions_of_session_full :
    let c : Config := { requireAuthentication := true, password := "open sesame"
                        maxSubscriptionsPerSession := 1 }
    let logon (password : String) : Step :=
      .message 1 (.logonRequest ⟨protocolVersion, "ali", password, 30, ""⟩) 1 1
    let ask (id : SymbolId) (name : String) : Step :=
      .message 1 (.marketDataRequest ⟨.subscribe, id, name, ""⟩) 2 2
    let steps : List Step := [.enlist (.v4 127 0 0 1 50000) 0, logon "open sesame",
      ask 0 "ETH-USD", ask 1 "", logon "open barley"]
    ∃ s, ((ofConfig c).run steps).session? 1 = some s ∧ s.subscriptions = [2] ∧
      s.isAuthenticated = false ∧ s.isListed = false ∧ s.subscriptions.length ≤ 1 ∧
      ∃ before, before <+: steps ∧
        ∃ t, ((ofConfig c).run before).session? 1 = some t ∧ t.isAuthenticated = true := by
  intro c logon ask steps
  have hfound : (((ofConfig c).run steps).session? 1).any (fun s => s.subscriptions == [2] &&
      !s.isAuthenticated && !s.isListed) = true := by decide +kernel
  simp only [Option.any_eq_true, Bool.and_eq_true, beq_iff_eq, Bool.not_eq_true'] at hfound
  obtain ⟨s, hs, ⟨hsubscriptions, hauth⟩, hlisted⟩ := hfound
  obtain ⟨-, -, hlength, hlogon⟩ := subscriptions_of_session c steps hs
  refine ⟨s, hs, hsubscriptions, hauth, hlisted, hlength, hlogon ?_⟩
  rw [hsubscriptions]
  exact nofun

end Relay
end MarketRelay
