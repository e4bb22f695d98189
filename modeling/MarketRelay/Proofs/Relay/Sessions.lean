import MarketRelay.Proofs.Relay.SessionView
import Mathlib.Data.List.Nodup

/-!
# The sessions of a relay

Sessions are numbered from one in the order of their admission (`Registry.Numbered`), so an
operation on a number concerns one session.  Each operation of a relay is a change of the list of
sessions, member by member, and so are operations one after another on all that are listed.

The lemmas `sessions_…` say for each operation which change that is, in the form
`sessions.map (Session.only id f)`: the session `id` becomes what `f` makes of it, and the others
stay.  An operation that meets no session, or one that is not listed where it has to be, is such a
change as well, one that leaves every session as it is.  What is read off a registry by number, with
`session?`, follows from these equations and from the numbering.

Beside the list of sessions there is what no operation on a session touches, the `backdrop` of the
relay: its settings, its snapshots, and the number of the next session.
-/
namespace MarketRelay

/-! ## Numbers -/

theorem Session.exists_split {sessions : List Session}
    (hnodup : (sessions.map (·.id)).Nodup) {s : Session} (hs : s ∈ sessions) :
    ∃ before after, sessions = before ++ s :: after ∧ ∀ t ∈ before ++ after, s.id ≠ t.id := by
  obtain ⟨before, after, rfl⟩ := List.append_of_mem hs
  rw [List.map_append, List.map_cons, List.nodup_middle, List.nodup_cons] at hnodup
  refine ⟨before, after, rfl, fun t ht hid => hnodup.1 ?_⟩
  rw [← List.map_append]
  exact List.mem_map.mpr ⟨t, ht, hid.symm⟩

theorem Session.snd_authenticate (s : Session) (username : String) (now : Instant) :
    (s.authenticate username now).2 = (s.auth == .unauthenticated) := by
  unfold authenticate
  cases s.auth <;> rfl

namespace Registry

/-- The sessions carry the numbers from one on, in order, and the first number behind them is the
next one. -/
structure Numbered (r : Registry) : Prop where
  ids : r.sessions.map (·.id) = List.range' 1 r.sessions.length
  nextId : r.nextId = r.sessions.length + 1

theorem numbered_empty (maxClients : Nat) : (Registry.empty maxClients).Numbered := ⟨rfl, rfl⟩

theorem Numbered.nodup {r : Registry} (h : r.Numbered) : (r.sessions.map (·.id)).Nodup := by
  rw [h.ids]
  exact List.nodup_range'

/-- A number belongs to one session. -/
theorem Numbered.eq_of_id_eq {r : Registry} (h : r.Numbered) {s t : Session}
    (hs : s ∈ r.sessions) (ht : t ∈ r.sessions) (hid : s.id = t.id) : s = t :=
  List.inj_on_of_nodup_map h.nodup hs ht hid

theorem Numbered.id_lt_nextId {r : Registry} (h : r.Numbered) {s : Session}
    (hs : s ∈ r.sessions) : s.id < r.nextId := by
  have hid : s.id ∈ r.sessions.map (·.id) := List.mem_map_of_mem hs
  rw [h.ids, List.mem_range'_1, Nat.add_comm] at hid
  rw [h.nextId]
  exact hid.2

theorem Numbered.map {r r' : Registry} {g : Session → Session} (h : r.Numbered)
    (hs : r'.sessions = r.sessions.map g) (hnext : r'.nextId = r.nextId)
    (hg : ∀ s, (g s).id = s.id) : r'.Numbered := by
  have hids : r'.sessions.map (·.id) = r.sessions.map (·.id) := by
    rw [hs, List.map_map]
    exact List.map_congr_left fun s _ => hg s
  have hlength : r'.sessions.length = r.sessions.length := by rw [hs, List.length_map]
  constructor
  · rw [hids, hlength]
    exact h.ids
  · rw [hnext, hlength]
    exact h.nextId

theorem id_of_session? {r : Registry} {id : SessionId} {s : Session}
    (hs : r.session? id = some s) : s.id = id := by
  simpa using List.find?_some hs

theorem session?_eq_some_iff {r : Registry} (h : r.Numbered) {id : SessionId} {s : Session} :
    r.session? id = some s ↔ s ∈ r.sessions ∧ s.id = id := by
  constructor
  · intro hs
    exact ⟨List.mem_of_find?_eq_some hs, id_of_session? hs⟩
  · rintro ⟨hs, rfl⟩
    obtain ⟨t, ht⟩ : ∃ t, r.session? s.id = some t :=
      Option.isSome_iff_exists.mp (List.find?_isSome.mpr ⟨s, hs, by simp⟩)
    rw [ht, h.eq_of_id_eq (List.mem_of_find?_eq_some ht) hs
      (id_of_session? ht)]

theorem session?_eq_none_iff {r : Registry} {id : SessionId} :
    r.session? id = none ↔ ∀ s ∈ r.sessions, s.id ≠ id := by
  simp [session?, List.find?_eq_none]

theorem contains_iff {r : Registry} {id : SessionId} :
    r.contains id = true ↔ ∃ s ∈ r.sessions, s.isListed = true ∧ s.id = id := by
  simp [contains, get?, listed]

theorem mem_ids_listed_iff {r : Registry} {id : SessionId} :
    id ∈ r.listed.map (·.id) ↔ r.contains id = true := by
  rw [contains_iff]
  simp [listed, and_assoc]

theorem Numbered.pairwise_listed {r : Registry} (h : r.Numbered) :
    (r.listed.map (·.id)).Pairwise (· < ·) := by
  have hids : (r.sessions.map (·.id)).Pairwise (· < ·) := by
    rw [h.ids]
    exact List.pairwise_lt_range'
  exact hids.sublist (List.filter_sublist.map _)

theorem Numbered.nodup_listed {r : Registry} (h : r.Numbered) : (r.listed.map (·.id)).Nodup :=
  h.pairwise_listed.imp Nat.ne_of_lt

theorem isListed_of_get?_eq_none {r : Registry} {id : SessionId} (h : r.get? id = none)
    {s : Session} (hs : s ∈ r.sessions) (hid : s.id = id) : s.isListed = false := by
  by_contra hlisted
  have hmem : s ∈ r.listed := List.mem_filter.mpr ⟨hs, by simpa using hlisted⟩
  exact List.find?_eq_none.mp h s hmem (by simpa using hid)

theorem mem_of_get?_eq_some {r : Registry} {id : SessionId} {s : Session}
    (h : r.get? id = some s) : s ∈ r.sessions ∧ s.isListed = true ∧ s.id = id := by
  obtain ⟨hmem, hlisted⟩ := List.mem_filter.mp (List.mem_of_find?_eq_some h)
  exact ⟨hmem, hlisted, by simpa using List.find?_some h⟩

theorem get?_eq {r : Registry} (h : r.Numbered) (id : SessionId) :
    r.get? id = (r.session? id).filter (·.isListed) := by
  ext s
  rw [Option.filter_eq_some_iff, session?_eq_some_iff h]
  constructor
  · intro hs
    obtain ⟨hmem, hlisted⟩ := List.mem_filter.mp (List.mem_of_find?_eq_some hs)
    exact ⟨⟨hmem, by simpa using List.find?_some hs⟩, hlisted⟩
  · rintro ⟨⟨hmem, rfl⟩, hlisted⟩
    obtain ⟨t, ht⟩ : ∃ t, r.get? s.id = some t :=
      Option.isSome_iff_exists.mp (contains_iff.mpr ⟨s, hmem, hlisted, rfl⟩)
    have htmem := List.mem_filter.mp (List.mem_of_find?_eq_some ht)
    rw [ht, h.eq_of_id_eq htmem.1 hmem (by simpa using List.find?_some ht)]

theorem contains_eq {r : Registry} (h : r.Numbered) (id : SessionId) :
    r.contains id = (r.session? id).any (·.isListed) := by
  rw [contains, get?_eq h, Option.isSome_filter]

theorem session?_of_map {r r' : Registry} {g : Session → Session}
    (hsessions : r'.sessions = r.sessions.map g) (hid : ∀ s, (g s).id = s.id)
    (id : SessionId) : r'.session? id = (r.session? id).map g := by
  rw [session?, session?, hsessions, List.find?_map]
  simp only [Function.comp_def, hid]

theorem Numbered.concat {r r' : Registry} {s : Session} (h : r.Numbered)
    (hsessions : r'.sessions = r.sessions ++ [s]) (hid : s.id = r.nextId)
    (hnext : r'.nextId = r.nextId + 1) : r'.Numbered := by
  constructor
  · rw [hsessions, List.map_append, h.ids, List.length_append, List.map_singleton, hid, h.nextId]
    simp [List.range'_concat, Nat.add_comm]
  · rw [hnext, hsessions, List.length_append, h.nextId, List.length_singleton]

theorem Numbered.session?_of_nextId_le {r : Registry} (h : r.Numbered) {id : SessionId}
    (hid : r.nextId ≤ id) : r.session? id = none :=
  session?_eq_none_iff.mpr fun _ hs heq => Nat.not_lt.mpr hid (heq ▸ h.id_lt_nextId hs)

/-- The sessions after one more was admitted. -/
theorem Numbered.session?_concat {r r' : Registry} {s : Session} (h : r.Numbered)
    (hsessions : r'.sessions = r.sessions ++ [s]) (hid : s.id = r.nextId) (id : SessionId) :
    r'.session? id = if id = r.nextId then some s else r.session? id := by
  rw [session?, hsessions, List.find?_append, ← session?, List.find?_singleton, hid]
  by_cases heq : id = r.nextId
  · rw [if_pos heq, h.session?_of_nextId_le (Nat.le_of_eq heq.symm), heq]
    simp
  · simp [heq, Ne.symm heq]

theorem snd_close (r : Registry) (id : SessionId) (reason : CloseReason) :
    (r.close id reason).2 = r.contains id := by
  unfold close contains
  cases r.get? id with
  | none => rfl
  | some s =>
      simp only
      split <;> rfl

theorem snd_authenticate (r : Registry) (id : SessionId) (username : String) (now : Instant) :
    (r.authenticate id username now).2 = (r.get? id).any (·.auth == .unauthenticated) := by
  unfold authenticate
  cases r.get? id with
  | none => rfl
  | some s =>
      simp only [Option.any_some, ← Session.snd_authenticate s username now]
      split
      · next h => exact h.symm
      · next h => exact (Bool.eq_false_iff.mpr h).symm

end Registry

/-! ## Changes of one session -/

namespace Session

/-- A change that concerns the session with one number only. -/
def only (id : SessionId) (f : Session → Session) (s : Session) : Session :=
  if s.id == id then f s else s

theorem only_of_eq {id : SessionId} {s : Session} (h : s.id = id) (f : Session → Session) :
    s.only id f = f s := by
  simp [only, h]

theorem only_of_ne {id : SessionId} {s : Session} (h : s.id ≠ id) (f : Session → Session) :
    s.only id f = s := by
  simp [only, h]

theorem id_only {id : SessionId} {f : Session → Session} (hf : ∀ s, (f s).id = s.id)
    (s : Session) : (s.only id f).id = s.id := by
  unfold only
  split
  · exact hf s
  · rfl

theorem only_only {id : SessionId} {f g : Session → Session} (hf : ∀ s, (f s).id = s.id)
    (s : Session) : (s.only id f).only id g = s.only id fun s => g (f s) := by
  by_cases h : s.id = id
  · rw [only_of_eq h, only_of_eq h, only_of_eq ((hf s).trans h)]
  · rw [only_of_ne h, only_of_ne h, only_of_ne h]

theorem leave_of_not_isListed {s : Session} (h : s.isListed = false) (reason : CloseReason) :
    s.leave reason = s := by
  simp [leave, h]

theorem leaveFor_of_not_isListed {s : Session} (h : s.isListed = false)
    (reason : Option CloseReason) : s.leaveFor reason = s := by
  cases reason with
  | none => rfl
  | some reason => exact leave_of_not_isListed h reason

end Session

/-- What happens to one session leaves the others as they are. -/
theorem Registry.session?_of_only {r r' : Registry} {id : SessionId} {f : Session → Session}
    (hsessions : r'.sessions = r.sessions.map (Session.only id f))
    (hf : ∀ s, (f s).id = s.id) (id' : SessionId) :
    r'.session? id' = if id' = id then (r.session? id').map f else r.session? id' := by
  rw [session?_of_map hsessions (Session.id_only hf)]
  cases hs : r.session? id' with
  | none => simp
  | some s =>
      have hid := id_of_session? hs
      rw [Option.map_some]
      split
      · next heq => rw [Session.only_of_eq (hid.trans heq), Option.map_some]
      · next hne => rw [Session.only_of_ne (hid.trans_ne hne)]

/-! ## Operations -/

namespace Relay

theorem map_only_congr {r : Registry} {id : SessionId} {f g : Session → Session}
    (h : ∀ s ∈ r.sessions, s.id = id → f s = g s) :
    r.sessions.map (Session.only id f) = r.sessions.map (Session.only id g) := by
  refine List.map_congr_left fun s hs => ?_
  by_cases hid : s.id = id
  · rw [Session.only_of_eq hid, Session.only_of_eq hid, h s hs hid]
  · rw [Session.only_of_ne hid, Session.only_of_ne hid]

theorem map_only_of_forall {r : Registry} {id : SessionId} {f : Session → Session}
    (h : ∀ s ∈ r.sessions, s.id = id → f s = s) :
    r.sessions.map (Session.only id f) = r.sessions := by
  refine (List.map_congr_left fun s hs => ?_).trans (List.map_id _)
  by_cases hid : s.id = id
  · exact (Session.only_of_eq hid f).trans (h s hs hid)
  · exact Session.only_of_ne hid f

theorem map_only_only {r : Registry} {id : SessionId} {f g : Session → Session}
    (hf : ∀ s, (f s).id = s.id) :
    (r.sessions.map (Session.only id f)).map (Session.only id g) =
      r.sessions.map (Session.only id fun s => g (f s)) := by
  rw [List.map_map]
  exact List.map_congr_left fun s _ => Session.only_only hf s

theorem session?_of_map {r r' : Relay} {g : Session → Session}
    (hsessions : r'.registry.sessions = r.registry.sessions.map g) (hid : ∀ s, (g s).id = s.id)
    (id : SessionId) : r'.session? id = (r.session? id).map g :=
  Registry.session?_of_map hsessions hid id

theorem session?_of_only {r r' : Relay} {id : SessionId} {f : Session → Session} {s : Session}
    (hsessions : r'.registry.sessions = r.registry.sessions.map (Session.only id f))
    (hf : ∀ s, (f s).id = s.id) (hs : r.session? id = some s) : r'.session? id = some (f s) :=
  (Registry.session?_of_only hsessions hf id).trans ((if_pos rfl).trans (congrArg (·.map f) hs))

theorem session?_of_only_of_ne {r r' : Relay} {id id' : SessionId} {f : Session → Session}
    (hsessions : r'.registry.sessions = r.registry.sessions.map (Session.only id f))
    (hf : ∀ s, (f s).id = s.id) (hne : id' ≠ id) : r'.session? id' = r.session? id' :=
  (Registry.session?_of_only hsessions hf id').trans (if_neg hne)

theorem contains_eq {r : Relay} (h : r.registry.Numbered) (id : SessionId) :
    r.registry.contains id = (r.session? id).any (·.isListed) :=
  Registry.contains_eq h id

theorem sessions_modify (r : Relay) (id : SessionId) (f : Session → Session) :
    (r.modify id f).registry.sessions = r.registry.sessions.map (Session.only id f) := rfl

theorem modify_self (r : Relay) (id : SessionId) : r.modify id (fun s => s) = r := by
  have hmap : r.registry.sessions.map (fun s => if s.id == id then s else s) =
      r.registry.sessions := map_only_of_forall fun _ _ _ => rfl
  rw [modify, Registry.modify, hmap]

theorem sessions_enqueue (r : Relay) (id : SessionId) (m : Message) :
    (r.enqueue id m).registry.sessions =
      r.registry.sessions.map (Session.only id (·.push m.encode)) := by
  unfold enqueue
  cases h : r.session? id with
  | none =>
      symm
      exact map_only_of_forall fun s hs hid =>
        absurd hid (Registry.session?_eq_none_iff.mp h s hs)
  | some s =>
      simp only
      split <;> rfl

theorem sessions_subscribe (r : Relay) (id : SessionId) (symbol : SymbolId) :
    (r.subscribe id symbol).1.registry.sessions =
      r.registry.sessions.map (Session.only id fun s =>
        (s.subscribe symbol).1.push (r.snapshotMessage symbol).encode) := by
  unfold subscribe
  cases hs : r.session? id with
  | none =>
      symm
      exact map_only_of_forall fun s hs' hid =>
        absurd hid (Registry.session?_eq_none_iff.mp hs s hs')
  | some s => rfl

theorem sessions_authenticate {r : Registry} (h : r.Numbered) (id : SessionId)
    (username : String) (now : Instant) :
    (r.authenticate id username now).1.sessions =
      r.sessions.map (Session.only id fun s =>
        if s.isListed then (s.authenticate username now).1 else s) := by
  unfold Registry.authenticate
  cases hget : r.get? id with
  | none =>
      symm
      refine map_only_of_forall fun s hs hid => if_neg ?_
      rw [Registry.isListed_of_get?_eq_none hget hs hid]
      exact Bool.false_ne_true
  | some t =>
      obtain ⟨ht, hlisted, htid⟩ := Registry.mem_of_get?_eq_some hget
      have hmap : (r.modify id fun s => (s.authenticate username now).1).sessions =
          r.sessions.map (Session.only id fun s =>
            if s.isListed then (s.authenticate username now).1 else s) :=
        map_only_congr fun s hs hid => by
          rw [h.eq_of_id_eq hs ht (hid.trans htid.symm), if_pos hlisted]
      simp only
      split
      · exact hmap
      · exact hmap

theorem sessions_closed {r : Registry} (h : r.Numbered) (id : SessionId) (reason : CloseReason) :
    (r.close id reason).1.sessions = r.sessions.map (Session.only id (·.leave reason)) := by
  unfold Registry.close
  cases hget : r.get? id with
  | none =>
      symm
      exact map_only_of_forall fun s hs hid =>
        Session.leave_of_not_isListed (Registry.isListed_of_get?_eq_none hget hs hid) reason
  | some t =>
      obtain ⟨ht, hlisted, htid⟩ := Registry.mem_of_get?_eq_some hget
      have hmap : (r.modify id fun s =>
            { (s.markClosed reason).1 with isListed := false }).sessions =
          r.sessions.map (Session.only id (·.leave reason)) :=
        map_only_congr fun s hs hid => by
          rw [h.eq_of_id_eq hs ht (hid.trans htid.symm), Session.leave, if_pos hlisted]
      simp only
      split
      · exact hmap
      · exact hmap

theorem registry_close (r : Relay) (id : SessionId) (reason : CloseReason) :
    (r.close id reason).1.registry = (r.registry.close id reason).1 := by
  unfold close
  simp only
  split
  · split <;> rfl
  · rfl

theorem sessions_close {r : Relay} (h : r.registry.Numbered) (id : SessionId)
    (reason : CloseReason) :
    (r.close id reason).1.registry.sessions =
      r.registry.sessions.map (Session.only id (·.leave reason)) := by
  rw [registry_close]
  exact sessions_closed h id reason

/-! ## What operations leave alone -/

/-- The settings and the snapshots of a relay, which are all that its sessions see of it, and the
number of its next session. -/
def backdrop (r : Relay) : Config × SnapshotCache × SessionId :=
  (r.config, r.snapshots, r.registry.nextId)

theorem nextId_of_backdrop {r r' : Relay} (h : r'.backdrop = r.backdrop) :
    r'.registry.nextId = r.registry.nextId :=
  congrArg (·.2.2) h

theorem nextId_authenticate (r : Registry) (id : SessionId) (username : String) (now : Instant) :
    (r.authenticate id username now).1.nextId = r.nextId := by
  unfold Registry.authenticate
  split
  · rfl
  · simp only
    split <;> rfl

theorem nextId_closed (r : Registry) (id : SessionId) (reason : CloseReason) :
    (r.close id reason).1.nextId = r.nextId := by
  unfold Registry.close
  split
  · rfl
  · simp only
    split <;> rfl

theorem backdrop_enqueue (r : Relay) (id : SessionId) (m : Message) :
    (r.enqueue id m).backdrop = r.backdrop := by
  unfold enqueue
  split
  · rfl
  · simp only
    split <;> rfl

theorem backdrop_subscribe (r : Relay) (id : SessionId) (symbol : SymbolId) :
    (r.subscribe id symbol).1.backdrop = r.backdrop := by
  unfold subscribe
  split <;> rfl

theorem backdrop_close (r : Relay) (id : SessionId) (reason : CloseReason) :
    (r.close id reason).1.backdrop = r.backdrop := by
  have hnext : (r.registry.close id reason).1.nextId = r.registry.nextId :=
    nextId_closed r.registry id reason
  unfold close backdrop
  simp only
  split
  · split <;> simp only [count, hnext]
  · simp only [hnext]

/-! ## One operation after another -/

theorem foldl_induction {α β : Type} {P : α → Prop} {op : α → β → α} (hop : ∀ a b, P a → P (op a b))
    {a : α} (h : P a) (bs : List β) : P (bs.foldl op a) := by
  induction bs generalizing a with
  | nil => exact h
  | cons b rest ih => exact ih (hop a b h)

theorem foldl_keeps {α β γ : Type} (f : α → γ) {op : α → β → α}
    (hop : ∀ a b, f (op a b) = f a) (a : α) (bs : List β) : f (bs.foldl op a) = f a :=
  foldl_induction (P := fun a' => f a' = f a) (fun a' b h => (hop a' b).trans h) rfl bs

/-- Changes of several sessions, done one after another, are done at each session by itself. -/
theorem foldl_map_only {α : Type} (number : α → SessionId) (f : α → Session → Session)
    (targets : List α) (sessions : List Session) :
    targets.foldl (fun ss t => ss.map (Session.only (number t) (f t))) sessions =
      sessions.map fun s => targets.foldl (fun s t => s.only (number t) (f t)) s := by
  induction targets generalizing sessions with
  | nil => exact (List.map_id sessions).symm
  | cons t rest ih => rw [List.foldl_cons, ih, List.map_map]; rfl

theorem foldl_only_of_notMem {f : Session → Session → Session} {targets : List Session}
    {s : Session} (h : ∀ t ∈ targets, s.id ≠ t.id) :
    targets.foldl (fun s t => s.only t.id (f t)) s = s := by
  induction targets with
  | nil => rfl
  | cons t rest ih =>
      rw [List.foldl_cons, Session.only_of_ne (h t List.mem_cons_self)]
      exact ih fun u hu => h u (List.mem_cons_of_mem t hu)

theorem foldl_only_of_mem {f : Session → Session → Session}
    (hf : ∀ t s, (f t s).id = s.id) {targets : List Session}
    (hnodup : (targets.map (·.id)).Nodup) {s : Session} (hs : s ∈ targets) :
    targets.foldl (fun s t => s.only t.id (f t)) s = f s s := by
  -- the targets before `s` leave it alone, and so do those after it
  obtain ⟨before, after, rfl, hne⟩ := Session.exists_split hnodup hs
  rw [List.foldl_append, List.foldl_cons,
    foldl_only_of_notMem fun t ht => hne t (List.mem_append_left after ht),
    Session.only_of_eq rfl]
  refine foldl_only_of_notMem fun t ht => ?_
  rw [hf]
  exact hne t (List.mem_append_right before ht)

/-- Operations on all listed sessions, one after another, change each of these by itself. -/
theorem sessions_foldl {α : Type} (relay : α → Relay) {op : α → Session → α}
    {f : Session → Session → Session} (hf : ∀ t s, (f t s).id = s.id)
    (hop : ∀ a t, (relay a).registry.Numbered →
      (relay (op a t)).registry.sessions =
        (relay a).registry.sessions.map (Session.only t.id (f t)))
    (hnext : ∀ a t, (relay (op a t)).registry.nextId = (relay a).registry.nextId)
    {a : α} (h : (relay a).registry.Numbered) :
    (relay ((relay a).registry.listed.foldl op a)).registry.sessions =
      (relay a).registry.sessions.map fun s => if s.isListed then f s s else s := by
  -- the operations see the relay as it is by then, but they change a session as they found it
  have hfold : ∀ (targets : List Session) (a : α), (relay a).registry.Numbered →
      (relay (targets.foldl op a)).registry.sessions =
        targets.foldl (fun ss t => ss.map (Session.only t.id (f t)))
          (relay a).registry.sessions := by
    intro targets
    induction targets with
    | nil => exact fun a _ => rfl
    | cons t rest ih =>
        intro a ha
        have ha' := ha.map (hop a t ha) (hnext a t) (Session.id_only (hf t))
        rw [List.foldl_cons, ih (op a t) ha', hop a t ha, List.foldl_cons]
  rw [hfold _ a h, foldl_map_only]
  refine List.map_congr_left fun s hs => ?_
  split
  · rename_i hlisted
    exact foldl_only_of_mem hf h.nodup_listed (List.mem_filter.mpr ⟨hs, hlisted⟩)
  · rename_i hlisted
    refine foldl_only_of_notMem fun t ht hid => hlisted ?_
    have ht := List.mem_filter.mp ht
    rw [h.eq_of_id_eq hs ht.1 hid]
    exact ht.2

end Relay
end MarketRelay
