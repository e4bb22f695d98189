import MarketRelay.Proofs.Relay.Sessions
import Mathlib.Data.Finmap
import Mathlib.Data.Finset.Sort

/-!
# A registry is a directory

All that can be seen of a registry is a finite map: the numbers of the listed sessions, and for each
of them how far its client got with its logon and what it subscribes to.  A directory is such a map
with two counts, of the sessions ever admitted and of those that left.

`Registry.Models` relates a registry to the directory that it stands for, and this is a simulation:

* `Models.view_eq`: the two look alike;
* `Models.answer`: an operation has the same answer on both, and leaves them related.  There is one
  lemma for each operation, by what it does to the map: it changes one account (`Models.of_only`),
  adds one (`Models.enlist`), or takes one or all of them out (`Models.close`, `Models.closeAll`);
* `answerAll_eq`: so all operations are answered alike, one after another, also where an operation
  is on a session that left long ago or never was.

What is known of directories by themselves, that the numbers add up (`Balanced.answer`) and that
they are given out in order (`range'_issued_answer`), is thereby known of registries.  A session
that left can still be touched by those who hold on to it; in the registry that shows nowhere
(`Models.view_touch`), since the map does not have it.
-/
namespace MarketRelay

/-! ## Operations -/

/-- What whoever holds on to a session may do to it, listed or not. -/
inductive Touch where
  | reject
  | subscribe (symbol : SymbolId)
  | unsubscribe (symbol : SymbolId)

def Touch.session (s : Session) : Touch → Session
  | .reject => s.reject
  | .subscribe symbol => (s.subscribe symbol).1
  | .unsubscribe symbol => (s.unsubscribe symbol).1

namespace Registry

/-- What can be asked of a registry. -/
inductive Operation where
  | enlist (peer : SocketAddress) (now : Instant) (authenticated : Bool) (capacity : Nat)
  | close (id : SessionId) (reason : CloseReason)
  | authenticate (id : SessionId) (username : String) (now : Instant)
  | touch (id : SessionId) (t : Touch)
  | closeAll (reason : CloseReason)

inductive Answer where
  | admitted (id : SessionId)
  | refused (e : CapacityExceeded)
  /-- Whether the operation did what was asked. -/
  | done (b : Bool)
  /-- The number of sessions that left. -/
  | closed (n : Nat)
  | nothing
deriving DecidableEq

def Answer.admitted? : Answer → Option SessionId
  | .admitted id => some id
  | _ => none

/-- The answer of a registry to an operation, and the registry after it. -/
def answer (r : Registry) : Operation → Answer × Registry
  | .enlist peer now authenticated capacity =>
    match r.enlist peer now authenticated capacity with
    | .ok (id, r') => (.admitted id, r')
    | .error e => (.refused e, r)
  | .close id reason =>
    let (r', closed) := r.close id reason
    (.done closed, r')
  | .authenticate id username now =>
    let (r', granted) := r.authenticate id username now
    (.done granted, r')
  | .touch id t => (.nothing, r.modify id fun s => t.session s)
  | .closeAll reason =>
    let (r', n) := r.closeAll reason
    (.closed n, r')

/-- The answers to operations, one after another, and what is left in the end. -/
def answerAll {σ : Type} (answer : σ → Operation → Answer × σ) :
    σ → List Operation → List Answer × σ
  | s, [] => ([], s)
  | s, op :: ops =>
    let (a, s') := answer s op
    let (as, s'') := answerAll answer s' ops
    (a :: as, s'')

end Registry

open Registry (Operation Answer answerAll)

/-! ## Directories -/

structure Account where
  auth : AuthState
  subscriptions : Finset SymbolId

namespace Account

def Receives (a : Account) (symbol : SymbolId) : Prop :=
  a.auth = .authenticated ∧ symbol ∈ a.subscriptions

instance (a : Account) (symbol : SymbolId) : Decidable (a.Receives symbol) :=
  inferInstanceAs (Decidable (_ ∧ _))

/-- The account of a session that somebody touched. -/
def touched (a : Account) : Touch → Account
  | .reject => { a with auth := .rejected }
  | .subscribe symbol => { a with subscriptions := insert symbol a.subscriptions }
  | .unsubscribe symbol => { a with subscriptions := a.subscriptions.erase symbol }

end Account

/-- The accounts of all listed sessions, and how many there ever were. -/
structure Directory where
  maxClients : Nat
  accounts : Finmap fun _ : SessionId => Account
  issued : Nat
  closed : Nat

namespace Directory

def empty (maxClients : Nat) : Directory := ⟨maxClients, ∅, 0, 0⟩

def size (d : Directory) : Nat := d.accounts.keys.card

/-- The directory with one account changed, if there is one. -/
def adjust (d : Directory) (id : SessionId) (f : Account → Account) : Directory :=
  match d.accounts.lookup id with
  | some a => { d with accounts := d.accounts.insert id (f a) }
  | none => d

/-- The answer of a directory to an operation, and the directory after it. -/
def answer (d : Directory) : Operation → Answer × Directory
  | .enlist _ _ authenticated _ =>
    if d.size < d.maxClients then
      (.admitted (d.issued + 1),
        { d with
          accounts := d.accounts.insert (d.issued + 1)
            ⟨if authenticated then .authenticated else .unauthenticated, ∅⟩
          issued := d.issued + 1 })
    else (.refused ⟨d.maxClients⟩, d)
  | .close id _ =>
    if id ∈ d.accounts then
      (.done true, { d with accounts := d.accounts.erase id, closed := d.closed + 1 })
    else (.done false, d)
  | .authenticate id _ _ =>
    match d.accounts.lookup id with
    | some a =>
      if a.auth = .unauthenticated then
        (.done true, d.adjust id ({ · with auth := .authenticated }))
      else (.done false, d)
    | none => (.done false, d)
  | .touch id t => (.nothing, d.adjust id (·.touched t))
  | .closeAll _ => (.closed d.size, { d with accounts := ∅, closed := d.closed + d.size })

def entries (d : Directory) : List (SessionId × Account) :=
  d.accounts.keys.sort.filterMap fun id => (d.accounts.lookup id).map (id, ·)

end Directory

/-! ## Views -/

/-- All that can be seen of a registry. -/
structure Registry.View where
  size : Nat
  authenticatedCount : Nat
  closedTotal : Nat
  sessions : List (SessionId × Account)
  subscribers : SymbolId → List SessionId

def Session.account (s : Session) : Account := ⟨s.auth, s.subscriptions.toFinset⟩

def Registry.view (r : Registry) : View where
  size := r.size
  authenticatedCount := r.authenticatedCount
  closedTotal := r.closedTotal
  sessions := r.listed.map fun s => (s.id, s.account)
  subscribers symbol := (r.subscribers symbol).map (·.id)

def Directory.view (d : Directory) : Registry.View where
  size := d.size
  authenticatedCount := d.entries.countP fun e => e.2.auth = .authenticated
  closedTotal := d.closed
  sessions := d.entries
  subscribers symbol := (d.entries.filter fun e => e.2.Receives symbol).map Prod.fst

namespace Registry

/-- A directory holds the accounts of the sessions that a registry lists, and its counts. -/
structure Models (r : Registry) (d : Directory) : Prop where
  numbered : r.Numbered
  isOpen : ∀ s ∈ r.sessions, s.isListed = true → s.isClosed = false
  maxClients : d.maxClients = r.maxClients
  issued : d.issued = r.sessions.length
  closed : d.closed = r.closedTotal
  accounts : ∀ id, d.accounts.lookup id = (r.get? id).map Session.account

variable {r : Registry} {d : Directory} {id : SessionId}

theorem models_empty (maxClients : Nat) :
    (Registry.empty maxClients).Models (.empty maxClients) where
  numbered := numbered_empty maxClients
  isOpen _ hs := absurd hs List.not_mem_nil
  maxClients := rfl
  issued := rfl
  closed := rfl
  accounts := fun id => Finmap.lookup_empty id

theorem Models.mem_iff (h : r.Models d) : id ∈ d.accounts ↔ r.contains id = true := by
  rw [← Finmap.lookup_isSome, h.accounts, Option.isSome_map]
  rfl

theorem get?_of_mem_listed (h : r.Numbered) {s : Session} (hs : s ∈ r.listed) :
    r.get? s.id = some s := by
  obtain ⟨hmem, hlisted⟩ := List.mem_filter.mp hs
  rw [get?_eq h, (session?_eq_some_iff h).mpr ⟨hmem, rfl⟩, Option.filter_some, if_pos hlisted]

/-- The numbers of the accounts in ascending order are those of the listed sessions as they stand in
the registry. -/
theorem Models.sort_keys (h : r.Models d) : d.accounts.keys.sort = r.listed.map (·.id) := by
  have hkeys : d.accounts.keys = (r.listed.map (·.id)).toFinset := by
    ext id
    rw [Finmap.mem_keys, h.mem_iff, List.mem_toFinset, mem_ids_listed_iff]
  rw [hkeys]
  refine (List.toFinset_sort _ h.numbered.nodup_listed).mpr ?_
  exact h.numbered.pairwise_listed.imp Nat.le_of_lt

theorem Models.entries_eq (h : r.Models d) :
    d.entries = r.listed.map fun s => (s.id, s.account) := by
  rw [Directory.entries, h.sort_keys, List.filterMap_map, ← List.filterMap_eq_map]
  refine List.filterMap_congr fun s hs => ?_
  simp only [Function.comp, h.accounts, get?_of_mem_listed h.numbered hs, Option.map_some]

theorem Models.size_eq (h : r.Models d) : d.size = r.size := by
  rw [Directory.size, ← Finset.length_sort (· ≤ ·), h.sort_keys, List.length_map]
  rfl

theorem receives_account (s : Session) (symbol : SymbolId) :
    s.account.Receives symbol ↔ s.receives symbol = true := by
  simp [Account.Receives, Session.account, Session.receives, Session.isAuthenticated,
    Session.isSubscribed]

theorem Models.view_eq (h : r.Models d) : r.view = d.view := by
  have hsubscribers : ∀ symbol, (r.subscribers symbol).map (·.id) =
      (d.entries.filter fun e => e.2.Receives symbol).map Prod.fst := by
    intro symbol
    rw [h.entries_eq, List.filter_map, List.map_map, subscribers]
    refine congrArg (List.map _) (List.filter_congr fun s _ => ?_)
    simp [receives_account]
  have hauthenticated : r.authenticatedCount =
      d.entries.countP fun e => e.2.auth = .authenticated := by
    rw [h.entries_eq, List.countP_map]
    rfl
  simp only [view, Directory.view, hauthenticated, hsubscribers, h.size_eq, h.closed, h.entries_eq]

end Registry

/-! ## Operations on directories -/

namespace Directory

variable {d : Directory} {id : SessionId}

theorem lookup_adjust (d : Directory) (id : SessionId) (f : Account → Account) (id' : SessionId) :
    (d.adjust id f).accounts.lookup id' =
      if id' = id then (d.accounts.lookup id).map f else d.accounts.lookup id' := by
  unfold adjust
  cases hid : d.accounts.lookup id with
  | none =>
      simp only
      split
      · rename_i heq
        rw [heq, hid, Option.map_none]
      · rfl
  | some a =>
      simp only
      split
      · rename_i heq
        rw [heq, Finmap.lookup_insert, Option.map_some]
      · rename_i hne
        exact Finmap.lookup_insert_of_ne _ hne

theorem adjust_eq (d : Directory) (id : SessionId) (f : Account → Account) :
    d.adjust id f = { d with accounts := (d.adjust id f).accounts } := by
  unfold adjust
  split <;> rfl

theorem keys_insert (m : Finmap fun _ : SessionId => Account) (id : SessionId) (a : Account) :
    (m.insert id a).keys = insert id m.keys := by
  ext id'
  rw [Finmap.mem_keys, Finmap.mem_insert, Finset.mem_insert, Finmap.mem_keys]

theorem keys_adjust (d : Directory) (id : SessionId) (f : Account → Account) :
    (d.adjust id f).accounts.keys = d.accounts.keys := by
  ext id'
  rw [Finmap.mem_keys, Finmap.mem_keys, ← Finmap.lookup_isSome, ← Finmap.lookup_isSome,
    lookup_adjust]
  split
  · rename_i heq
    rw [heq, Option.isSome_map]
  · rfl

/-- Every session that was ever admitted has an account or has left, and accounts are for these
sessions only and not too many. -/
structure Balanced (d : Directory) : Prop where
  size_le : d.size ≤ d.maxClients
  issued_eq : d.issued = d.size + d.closed
  le_issued : ∀ id ∈ d.accounts.keys, id ≤ d.issued

theorem balanced_empty (maxClients : Nat) : (empty maxClients).Balanced where
  size_le := Nat.zero_le _
  issued_eq := rfl
  le_issued := nofun

theorem Balanced.adjust (h : d.Balanced) (id : SessionId) (f : Account → Account) :
    (d.adjust id f).Balanced := by
  have hkeys := d.keys_adjust id f
  rw [adjust_eq] at hkeys ⊢
  constructor
  · rw [size, hkeys]
    exact h.size_le
  · rw [size, hkeys]
    exact h.issued_eq
  · rw [hkeys]
    exact h.le_issued

theorem Balanced.answer (h : d.Balanced) (op : Operation) : (d.answer op).2.Balanced := by
  have hle := h.size_le
  have heq := h.issued_eq
  cases op with
  | enlist peer now authenticated capacity =>
      simp only [Directory.answer]
      split
      · rename_i hroom
        have hnew : d.issued + 1 ∉ d.accounts.keys := fun hmem =>
          absurd (h.le_issued _ hmem) (Nat.not_succ_le_self _)
        have hsize : (d.accounts.insert (d.issued + 1)
            ⟨if authenticated then .authenticated else .unauthenticated, ∅⟩).keys.card =
              d.size + 1 := by
          rw [keys_insert, Finset.card_insert_of_notMem hnew]
          rfl
        refine ⟨?_, ?_, ?_⟩
        · rw [size, hsize]
          exact hroom
        · rw [size, hsize]
          simp only
          omega
        · intro id hid
          rw [keys_insert, Finset.mem_insert] at hid
          rcases hid with rfl | hid
          · exact Nat.le_refl _
          · exact Nat.le_succ_of_le (h.le_issued id hid)
      · exact h
  | close id reason =>
      simp only [Directory.answer]
      split
      · rename_i hid
        have hmem : id ∈ d.accounts.keys := Finmap.mem_keys.mpr hid
        have hpos : 0 < d.size := Finset.card_pos.mpr ⟨id, hmem⟩
        have hsize : (d.accounts.erase id).keys.card = d.size - 1 := by
          rw [Finmap.keys_erase, Finset.card_erase_of_mem hmem]
          rfl
        refine ⟨?_, ?_, ?_⟩
        · rw [size, hsize]
          simp only
          omega
        · rw [size, hsize]
          simp only
          omega
        · intro id' hid'
          rw [Finmap.keys_erase] at hid'
          exact h.le_issued id' (Finset.mem_of_mem_erase hid')
      · exact h
  | authenticate id username now =>
      simp only [Directory.answer]
      split
      · split
        · exact h.adjust id _
        · exact h
      · exact h
  | touch id t => exact h.adjust id _
  | closeAll reason =>
      refine ⟨Nat.zero_le _, ?_, nofun⟩
      simp only [Directory.answer, size, Finmap.keys_empty, Finset.card_empty]
      simp only [size] at heq
      omega

theorem maxClients_answer (d : Directory) (op : Operation) :
    (d.answer op).2.maxClients = d.maxClients := by
  have hadjust : ∀ id f, (d.adjust id f).maxClients = d.maxClients := by
    intro id f
    rw [adjust_eq]
  cases op with
  | authenticate id username now =>
      simp only [answer]
      split
      · split
        · exact hadjust id _
        · rfl
      · rfl
  | touch id t => exact hadjust id _
  | closeAll reason => rfl
  | _ =>
      simp only [answer]
      split <;> rfl

theorem range'_issued_answer (d : Directory) (op : Operation) :
    List.range' 1 d.issued ++ (d.answer op).1.admitted?.toList =
      List.range' 1 (d.answer op).2.issued := by
  cases op with
  | enlist peer now authenticated capacity =>
      simp only [answer]
      split
      · simp [Answer.admitted?, List.range'_concat, Nat.add_comm]
      · exact List.append_nil _
  | close id reason =>
      simp only [answer]
      split <;> exact List.append_nil _
  | authenticate id username now =>
      simp only [answer]
      split
      · split
        · rw [adjust_eq]
          exact List.append_nil _
        · exact List.append_nil _
      · exact List.append_nil _
  | touch id t =>
      simp only [answer]
      rw [adjust_eq]
      exact List.append_nil _
  | closeAll reason => exact List.append_nil _

end Directory

/-! ## One operation -/

namespace Registry

variable {r r' : Registry} {d : Directory} {id : SessionId}

theorem get?_of_only {f : Session → Session} (h : r.Numbered)
    (hsessions : r'.sessions = r.sessions.map (Session.only id f)) (hnext : r'.nextId = r.nextId)
    (hf : ∀ s : Session, s.SameWay (f s)) (id' : SessionId) :
    r'.get? id' = if id' = id then (r.get? id).map f else r.get? id' := by
  have hid : ∀ s, (f s).id = s.id := fun s => (hf s).id
  have h' : r'.Numbered := h.map hsessions hnext (Session.id_only hid)
  rw [get?_eq h', session?_of_only hsessions hid, get?_eq h, get?_eq h]
  by_cases heq : id' = id
  · subst heq
    rw [if_pos rfl, if_pos rfl]
    cases hs : r.session? id' with
    | none => rfl
    | some s => cases hlisted : s.isListed <;> simp [Option.filter_some, (hf s).isListed, hlisted]
  · rw [if_neg heq, if_neg heq]

theorem Models.of_only {f : Session → Session} {g : Account → Account}
    {accounts : Finmap fun _ : SessionId => Account} (h : r.Models d)
    (hsessions : r'.sessions = r.sessions.map (Session.only id f))
    (hf : ∀ s : Session, s.SameWay (f s)) (hmax : r'.maxClients = r.maxClients)
    (hnext : r'.nextId = r.nextId) (htotal : r'.closedTotal = r.closedTotal)
    (haccount : ∀ s, r.get? id = some s → (f s).account = g s.account)
    (haccounts : ∀ id', accounts.lookup id' =
      if id' = id then (d.accounts.lookup id).map g else d.accounts.lookup id') :
    r'.Models { d with accounts := accounts } where
  numbered := h.numbered.map hsessions hnext (Session.id_only fun s => (hf s).id)
  isOpen := by
    intro s hs hlisted
    rw [hsessions] at hs
    obtain ⟨t, ht, rfl⟩ := List.mem_map.mp hs
    have hway : t.SameWay (t.only id f) := by
      unfold Session.only
      split
      · exact hf t
      · exact .refl t
    rw [Session.isClosed, hway.closeReason]
    exact h.isOpen t ht (hway.isListed ▸ hlisted)
  maxClients := h.maxClients.trans hmax.symm
  issued := by
    rw [hsessions, List.length_map]
    exact h.issued
  closed := h.closed.trans htotal.symm
  accounts := by
    intro id'
    rw [haccounts, get?_of_only h.numbered hsessions hnext hf, h.accounts, h.accounts]
    split
    · cases hs : r.get? id with
      | none => rfl
      | some s => simp only [Option.map_some, haccount s hs]
    · rfl

theorem sameWay_touch (s : Session) (t : Touch) : s.SameWay (t.session s) := by
  cases t <;> constructor <;> rfl

theorem account_touch (s : Session) (t : Touch) : (t.session s).account = s.account.touched t := by
  cases t with
  | reject => rfl
  | subscribe symbol =>
      have hset : (SymbolSet.insert symbol s.subscriptions).toFinset =
          insert symbol s.subscriptions.toFinset := by
        ext x
        rw [List.mem_toFinset, SymbolSet.mem_insert, Finset.mem_insert, List.mem_toFinset]
      exact congrArg (Account.mk s.auth) hset
  | unsubscribe symbol =>
      have hset : (SymbolSet.erase symbol s.subscriptions).toFinset =
          s.subscriptions.toFinset.erase symbol := by
        ext x
        rw [List.mem_toFinset, SymbolSet.mem_erase, Finset.mem_erase, List.mem_toFinset]
      exact congrArg (Account.mk s.auth) hset

theorem Models.touch (h : r.Models d) (id : SessionId) (t : Touch) :
    (r.modify id fun s => t.session s).Models (d.adjust id (·.touched t)) := by
  rw [Directory.adjust_eq]
  exact h.of_only rfl (sameWay_touch · t) rfl rfl rfl (fun s _ => account_touch s t)
    (d.lookup_adjust id _)

theorem listed_of_get? (h : r.Numbered) {s : Session} (hs : r.get? id = some s) :
    r.session? id = some s ∧ s.isListed = true := by
  rw [get?_eq h] at hs
  exact Option.filter_eq_some_iff.mp hs

theorem account_authenticate (s : Session) (username : String) (now : Instant) :
    (s.authenticate username now).1.account =
      if s.auth = .unauthenticated then { s.account with auth := .authenticated }
      else s.account := by
  unfold Session.authenticate
  cases hauth : s.auth with
  | unauthenticated => rfl
  | authenticated =>
      simp only
      split <;> simp [Session.account, hauth]
  | rejected => rfl

theorem authenticate_eq (r : Registry) (id : SessionId) (username : String) (now : Instant) :
    ∃ sessions events, (r.authenticate id username now).1 =
      { r with sessions := sessions, events := events } := by
  unfold authenticate
  split
  · exact ⟨_, _, rfl⟩
  · simp only
    split <;> exact ⟨_, _, rfl⟩

theorem Models.authenticate (h : r.Models d) (id : SessionId) (username : String) (now : Instant) :
    .done (r.authenticate id username now).2 = (d.answer (.authenticate id username now)).1 ∧
      (r.authenticate id username now).1.Models (d.answer (.authenticate id username now)).2 := by
  have hsessions := Relay.sessions_authenticate h.numbered id username now
  obtain ⟨sessions, events, heq⟩ := r.authenticate_eq id username now
  have hmodels : ∀ {g : Account → Account} {accounts : Finmap fun _ : SessionId => Account},
      (∀ s, r.get? id = some s → (s.authenticate username now).1.account = g s.account) →
      (∀ id', accounts.lookup id' =
        if id' = id then (d.accounts.lookup id).map g else d.accounts.lookup id') →
      (r.authenticate id username now).1.Models { d with accounts := accounts } := by
    intro g accounts haccount haccounts
    refine h.of_only hsessions (fun s => s.sameWay_authenticate_of_listed username now)
      (by rw [heq]) (by rw [heq]) (by rw [heq]) ?_ haccounts
    intro s hs
    rw [if_pos (listed_of_get? h.numbered hs).2]
    exact haccount s hs
  -- an account that is not waiting for a logon stays as it is
  have hsame : (∀ s, r.get? id = some s → s.auth ≠ .unauthenticated) →
      (r.authenticate id username now).1.Models d := by
    intro hauth
    refine hmodels (g := fun a => a) (fun s hs => ?_) fun id' => ?_
    · rw [account_authenticate, if_neg (hauth s hs)]
    · split
      · rename_i heq
        rw [heq, Option.map_id']
      · rfl
  simp only [Directory.answer, h.accounts, snd_authenticate]
  cases hs : r.get? id with
  | none => exact ⟨rfl, hsame fun s hs' => absurd (hs.symm.trans hs') nofun⟩
  | some s =>
      simp only [Option.map_some, Option.any_some, Session.account]
      by_cases hauth : s.auth = .unauthenticated
      · rw [if_pos hauth, Directory.adjust_eq, hauth]
        refine ⟨rfl, hmodels (fun s' hs' => ?_) (d.lookup_adjust id _)⟩
        obtain rfl : s = s' := Option.some.inj (hs.symm.trans hs')
        rw [account_authenticate, if_pos hauth]
      · rw [if_neg hauth]
        refine ⟨by simpa using hauth, hsame fun s' hs' => ?_⟩
        obtain rfl : s = s' := Option.some.inj (hs.symm.trans hs')
        exact hauth

/-! ### Admissions and ends -/

theorem get?_of_concat {s : Session} (h : r.Numbered) (hsessions : r'.sessions = r.sessions ++ [s])
    (hnext : r'.nextId = r.nextId + 1) (hid : s.id = r.nextId) (hlisted : s.isListed = true)
    (id : SessionId) : r'.get? id = if id = r.nextId then some s else r.get? id := by
  rw [get?_eq (h.concat hsessions hid hnext), get?_eq h, h.session?_concat hsessions hid]
  split
  · rw [Option.filter_some, if_pos hlisted]
  · rfl

theorem Models.enlist (h : r.Models d) (peer : SocketAddress) (now : Instant)
    (authenticated : Bool) (capacity : Nat) :
    (r.answer (.enlist peer now authenticated capacity)).1 =
        (d.answer (.enlist peer now authenticated capacity)).1 ∧
      (r.answer (.enlist peer now authenticated capacity)).2.Models
        (d.answer (.enlist peer now authenticated capacity)).2 := by
  simp only [answer, Registry.enlist, Directory.answer, h.size_eq, h.maxClients]
  by_cases hfull : r.maxClients ≤ r.size
  · rw [if_pos hfull, if_neg (Nat.not_lt.mpr hfull)]
    exact ⟨rfl, h⟩
  · rw [if_neg hfull, if_pos (Nat.lt_of_not_le hfull)]
    have hissued : d.issued + 1 = r.nextId := by rw [h.issued, h.numbered.nextId]
    simp only [hissued]
    refine ⟨rfl, ?_⟩
    constructor
    case numbered => exact h.numbered.concat rfl rfl rfl
    case isOpen =>
      intro s hs hlisted
      rcases List.mem_append.mp hs with hold | hnew
      · exact h.isOpen s hold hlisted
      · obtain rfl := List.mem_singleton.mp hnew
        rfl
    case maxClients => rfl
    case issued => simp [tell, ← h.issued, hissued]
    case closed => exact h.closed
    case accounts =>
      intro id
      rw [get?_of_concat h.numbered rfl rfl rfl rfl]
      by_cases heq : id = r.nextId
      · rw [if_pos heq, heq]
        exact Finmap.lookup_insert _
      · rw [if_neg heq, ← h.accounts]
        exact Finmap.lookup_insert_of_ne _ heq

theorem get?_close (h : r.Numbered) (id : SessionId) (reason : CloseReason) (id' : SessionId) :
    (r.close id reason).1.get? id' = if id' = id then none else r.get? id' := by
  have hsessions := Relay.sessions_closed h id reason
  have hid : ∀ s : Session, (s.leave reason).id = s.id := fun s => (s.sameClient_leave reason).id
  have hclosed := h.map hsessions (Relay.nextId_closed r id reason) (Session.id_only hid)
  rw [get?_eq hclosed, session?_of_only hsessions hid, get?_eq h]
  split
  · refine Option.filter_eq_none_iff.mpr fun t ht => ?_
    obtain ⟨s, -, rfl⟩ := Option.map_eq_some_iff.mp ht
    exact Bool.eq_false_iff.mp (s.isListed_leave reason)
  · rfl

theorem Models.close (h : r.Models d) (hid : id ∈ d.accounts) (reason : CloseReason) :
    (r.close id reason).1.Models
      { d with accounts := d.accounts.erase id, closed := d.closed + 1 } := by
  obtain ⟨s, hs⟩ := Option.isSome_iff_exists.mp (h.mem_iff.mp hid)
  obtain ⟨hs', hlisted⟩ := listed_of_get? h.numbered hs
  have hsessions := Relay.sessions_closed h.numbered id reason
  have hopen : s.isClosed = false := h.isOpen s (List.mem_of_find?_eq_some hs') hlisted
  constructor
  case numbered =>
    exact h.numbered.map hsessions (Relay.nextId_closed r id reason)
      (Session.id_only fun s => (Session.sameClient_leave s reason).id)
  case isOpen =>
    intro t' ht' hlisted'
    rw [hsessions] at ht'
    obtain ⟨t, ht, rfl⟩ := List.mem_map.mp ht'
    by_cases hid' : t.id = id
    · rw [Session.only_of_eq hid', Session.isListed_leave] at hlisted'
      exact absurd hlisted' Bool.false_ne_true
    · rw [Session.only_of_ne hid'] at hlisted' ⊢
      exact h.isOpen t ht hlisted'
  case maxClients =>
    simpa [Registry.close, Session.markClosed, hs, hopen, tell, modify] using h.maxClients
  case issued =>
    rw [hsessions, List.length_map]
    exact h.issued
  case closed => simp [Registry.close, Session.markClosed, hs, hopen, tell, modify, h.closed]
  case accounts =>
    intro id'
    rw [get?_close h.numbered]
    split
    · rename_i heq
      rw [heq]
      exact Finmap.lookup_erase _ _
    · rename_i hne
      rw [← h.accounts]
      exact Finmap.lookup_erase_ne hne

/-- The accounts after several different sessions ended, one after another, and how many ends there
were. -/
theorem Models.foldl_closeNext {ids : List SessionId} (h : r.Models d) (hnodup : ids.Nodup)
    (hids : ∀ id ∈ ids, id ∈ d.accounts) (reason : CloseReason) (n : Nat) :
    (ids.foldl (closeNext reason) (r, n)).2 = n + ids.length ∧
      (ids.foldl (closeNext reason) (r, n)).1.Models
        { d with
          accounts := ids.foldl (fun accounts id => accounts.erase id) d.accounts
          closed := d.closed + ids.length } := by
  induction ids generalizing r d n with
  | nil => exact ⟨rfl, h⟩
  | cons id rest ih =>
      obtain ⟨hid, hnodup⟩ := List.nodup_cons.mp hnodup
      have hhere := hids id List.mem_cons_self
      have hstep : closeNext reason (r, n) id = ((r.close id reason).1, n + 1) := by
        simp only [closeNext, snd_close, h.mem_iff.mp hhere, Bool.toNat_true]
      have hrest := ih (h.close hhere reason) hnodup (fun id' hid' => Finmap.mem_erase.mpr
        ⟨fun heq => hid (heq ▸ hid'), hids id' (List.mem_cons_of_mem id hid')⟩) (n + 1)
      rw [List.foldl_cons, List.foldl_cons, hstep, List.length_cons, Nat.add_comm rest.length,
        ← Nat.add_assoc, ← Nat.add_assoc]
      exact hrest

theorem lookup_foldl_erase (ids : List SessionId) (accounts : Finmap fun _ : SessionId => Account)
    (id : SessionId) :
    (ids.foldl (fun accounts id => accounts.erase id) accounts).lookup id =
      if id ∈ ids then none else accounts.lookup id := by
  induction ids generalizing accounts with
  | nil => simp
  | cons id' rest ih =>
      rw [List.foldl_cons, ih]
      by_cases heq : id = id'
      · simp [← heq, Finmap.lookup_erase]
      · simp [heq, Finmap.lookup_erase_ne heq]

theorem Models.closeAll (h : r.Models d) (reason : CloseReason) :
    (r.closeAll reason).2 = d.size ∧
      (r.closeAll reason).1.Models { d with accounts := ∅, closed := d.closed + d.size } := by
  have hids : ∀ id, id ∈ r.listed.map (·.id) ↔ id ∈ d.accounts :=
    fun id => mem_ids_listed_iff.trans h.mem_iff.symm
  have hall := h.foldl_closeNext h.numbered.nodup_listed (fun id => (hids id).mp) reason 0
  have hempty : (r.listed.map (·.id)).foldl (fun accounts id => accounts.erase id) d.accounts =
      ∅ := by
    refine Finmap.ext_lookup fun id => ?_
    rw [lookup_foldl_erase, Finmap.lookup_empty]
    split
    · rfl
    · rename_i hid
      exact Finmap.lookup_eq_none.mpr ((hids id).not.mp hid)
  rw [hempty, List.length_map, Nat.zero_add] at hall
  rw [h.size_eq]
  exact hall

/-! ## One operation after another -/

/-- A registry answers as its directory does, and stays one with that directory. -/
theorem Models.answer (h : r.Models d) (op : Operation) :
    (r.answer op).1 = (d.answer op).1 ∧ (r.answer op).2.Models (d.answer op).2 := by
  cases op with
  | enlist peer now authenticated capacity => exact h.enlist peer now authenticated capacity
  | close id reason =>
      simp only [Registry.answer, Directory.answer, snd_close]
      by_cases hid : id ∈ d.accounts
      · rw [if_pos hid, h.mem_iff.mp hid]
        exact ⟨rfl, h.close hid reason⟩
      · have hcontains : r.contains id = false := Bool.eq_false_iff.mpr (h.mem_iff.not.mp hid)
        have hget : r.get? id = none := by simpa [contains] using hcontains
        rw [if_neg hid, hcontains, Registry.close, hget]
        exact ⟨rfl, h⟩
  | authenticate id username now => exact h.authenticate id username now
  | touch id t => exact ⟨rfl, h.touch id t⟩
  | closeAll reason => exact ⟨congrArg Answer.closed (h.closeAll reason).1, (h.closeAll reason).2⟩

theorem answerAll_answer (h : r.Models d) (hbalanced : d.Balanced) (ops : List Operation) :
    ∃ answers r' d',
      answerAll Registry.answer r ops = (answers, r') ∧
      answerAll Directory.answer d ops = (answers, d') ∧
      r'.Models d' ∧ d'.Balanced ∧ d'.maxClients = d.maxClients ∧
      List.range' 1 d.issued ++ answers.filterMap Answer.admitted? = List.range' 1 d'.issued := by
  induction ops generalizing r d with
  | nil => exact ⟨[], r, d, rfl, rfl, h, hbalanced, rfl, List.append_nil _⟩
  | cons op ops ih =>
      obtain ⟨hanswer, hmodels⟩ := h.answer op
      obtain ⟨answers, r', d', hr, hd, hmodels', hbalanced', hmax, hids⟩ :=
        ih hmodels (hbalanced.answer op)
      refine ⟨(d.answer op).1 :: answers, r', d', ?_, ?_, hmodels', hbalanced', ?_, ?_⟩
      · simp only [answerAll, hr, hanswer]
      · simp only [answerAll, hd]
      · rw [hmax, Directory.maxClients_answer]
      · rw [← hids, ← d.range'_issued_answer op, List.append_assoc]
        cases hadmitted : (d.answer op).1.admitted? with
        | none => simp [hadmitted]
        | some id => simp [hadmitted]

/-- What is done to a session that left the list cannot be seen in the registry. -/
theorem Models.view_touch (h : r.Models d) (hid : r.contains id = false) (t : Touch) :
    (r.answer (.touch id t)).2.view = r.view := by
  have hnone : d.accounts.lookup id = none :=
    Finmap.lookup_eq_none.mpr (h.mem_iff.not.mpr (Bool.eq_false_iff.mp hid))
  have htouch := h.touch id t
  rw [Directory.adjust, hnone] at htouch
  exact htouch.view_eq.trans h.view_eq.symm

/-- **A registry is a directory.**  Whatever is asked of a new registry and of a new directory, both
give the same answers and look alike afterwards.  No more sessions are listed than may be; those
ever admitted got the numbers from one on, in order, and each of them is listed or counted as one
that left.  The next client is admitted, under the next number, just if one more session may be
listed, and a refusal changes nothing.  Touching a session that is not listed shows nowhere. -/
theorem answerAll_eq (maxClients : Nat) (ops : List Operation) :
    ∃ answers r d,
      answerAll Registry.answer (.empty maxClients) ops = (answers, r) ∧
      answerAll Directory.answer (.empty maxClients) ops = (answers, d) ∧
      r.view = d.view ∧
      (∀ id, (r.get? id).map Session.account = d.accounts.lookup id) ∧
      r.size ≤ maxClients ∧
      answers.filterMap Answer.admitted? = List.range' 1 (r.size + r.closedTotal) ∧
      (∀ peer now authenticated capacity,
        if r.size < maxClients then
          (r.answer (.enlist peer now authenticated capacity)).1 =
            .admitted (r.size + r.closedTotal + 1)
        else r.answer (.enlist peer now authenticated capacity) = (.refused ⟨maxClients⟩, r)) ∧
      ∀ id t, r.contains id = false → (r.answer (.touch id t)).2.view = r.view := by
  obtain ⟨answers, r, d, hr, hd, h, hbalanced, hmax, hids⟩ :=
    answerAll_answer (models_empty maxClients) (Directory.balanced_empty maxClients) ops
  have hissued : d.issued = r.size + r.closedTotal := by
    rw [hbalanced.issued_eq, h.size_eq, h.closed]
  have hle : r.size ≤ maxClients := by
    have hle := hbalanced.size_le
    rwa [h.size_eq, hmax] at hle
  have hmax' : r.maxClients = maxClients := h.maxClients.symm.trans hmax
  refine ⟨answers, r, d, hr, hd, h.view_eq, fun id => (h.accounts id).symm, hle, ?_, ?_,
    fun id t hid => h.view_touch hid t⟩
  · rw [← hissued, ← hids]
    rfl
  · intro peer now authenticated capacity
    simp only [Registry.answer, Registry.enlist, hmax']
    by_cases hroom : r.size < maxClients
    · rw [if_pos hroom, if_neg (Nat.not_le.mpr hroom), ← hissued, h.issued, ← h.numbered.nextId]
      rfl
    · rw [if_neg hroom, if_pos (Nat.not_lt.mp hroom)]

end Registry
end MarketRelay
