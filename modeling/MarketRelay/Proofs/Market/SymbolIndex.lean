import MarketRelay.Proofs.Config.Validate
import Mathlib.Logic.Function.Basic

/-!
# Two indexes

A table of symbols can also be kept as two indexes, from numbers to entries and from names to
numbers, to which every new entry is added by hand (`SymbolIndex`).  What one of them finds could
then be missing in the other, or be something else there.  It is not: whatever list the indexes are
made of, they find what the table finds, and so they agree.

* `pairwise_ofList`: the entries of a table are in ascending order of numbers, an invariant of
  `insertIfNew`.
* `index_ofList`: what the indexes of a list find is what its table finds, number by number and
  name by name.  The induction is on the list from the end, and the step compares one insertion on
  either side (`get?_insertIfNew`, `idOf?_insertIfNew`).
* `resolve_index`: the two ways to understand a request agree, too.  With the indexes a number is
  looked for before its entry is looked up, which comes to nothing.
* `indexes_ofList`: all of it together, with what is kept of a list and what is not.
-/
namespace MarketRelay

structure SymbolIndex where
  byId : SymbolId → Option SymbolEntry
  byName : String → Option SymbolId

namespace SymbolIndex

def empty : SymbolIndex := ⟨fun _ => none, fun _ => none⟩

def insertIfNew (i : SymbolIndex) (e : SymbolEntry) : SymbolIndex :=
  if (i.byId e.id).isSome || (i.byName e.name).isSome then i
  else ⟨Function.update i.byId e.id (some e), Function.update i.byName e.name (some e.id)⟩

def ofList (entries : List SymbolEntry) : SymbolIndex := entries.foldl insertIfNew empty

/-- The number that a request means.  A name is looked up first, then the number for its entry; two
exchanges that are both given have to be the same. -/
def resolve (i : SymbolIndex) (id : SymbolId) (name exchange : String) : Option SymbolId := do
  let id ← if name = "" then (if (i.byId id).isSome then some id else none) else i.byName name
  let entry ← i.byId id
  if exchange ≠ "" ∧ entry.exchange ≠ "" ∧ entry.exchange ≠ exchange then none else some id

end SymbolIndex

namespace SymbolTable

variable {t : SymbolTable} {e : SymbolEntry}

/-! ## The order of a table -/

theorem pairwise_insertSorted {entries : List SymbolEntry}
    (h : entries.Pairwise fun a b => a.id < b.id) (hnew : ∀ k ∈ entries, k.id ≠ e.id) :
    (insertSorted e entries).Pairwise fun a b => a.id < b.id := by
  induction entries with
  | nil => exact List.pairwise_singleton _ e
  | cons x rest ih =>
      obtain ⟨hx, hrest⟩ := List.pairwise_cons.mp h
      unfold insertSorted
      split
      · rename_i hlt
        refine List.pairwise_cons.mpr ⟨?_, h⟩
        intro y hy
        rcases List.mem_cons.mp hy with rfl | hy
        · exact hlt
        · exact UInt32.lt_trans hlt (hx y hy)
      · rename_i hnlt
        refine List.pairwise_cons.mpr ⟨?_, ih hrest fun k hk => hnew k (List.mem_cons_of_mem x hk)⟩
        intro y hy
        rcases mem_insertSorted.mp hy with rfl | hy
        · exact UInt32.lt_of_le_of_ne (UInt32.not_lt.mp hnlt) (hnew x List.mem_cons_self)
        · exact hx y hy

theorem pairwise_insertIfNew (h : t.entries.Pairwise fun a b => a.id < b.id) (e : SymbolEntry) :
    (t.insertIfNew e).entries.Pairwise fun a b => a.id < b.id := by
  by_cases htaken : ∃ k ∈ t.entries, k.id = e.id ∨ k.name = e.name
  · rwa [insertIfNew_of_taken htaken]
  · rw [insertIfNew_of_new htaken]
    exact pairwise_insertSorted h fun k hk hid => htaken ⟨k, hk, .inl hid⟩

theorem pairwise_ofList (entries : List SymbolEntry) :
    (ofList entries).entries.Pairwise fun a b => a.id < b.id :=
  List.foldlRecOn (motive := fun t : SymbolTable => t.entries.Pairwise fun a b => a.id < b.id)
    entries insertIfNew List.Pairwise.nil fun _ h e _ => pairwise_insertIfNew h e

/-! ## Looking up -/

theorem get?_insertIfNew (h : SymbolEntry.Distinct t.entries)
    (hnew : ¬ ∃ k ∈ t.entries, k.id = e.id ∨ k.name = e.name) :
    (t.insertIfNew e).get? = Function.update t.get? e.id (some e) := by
  have hdistinct := distinct_insertIfNew h e
  rw [insertIfNew_of_new hnew] at hdistinct ⊢
  funext id
  ext k
  rw [get?_eq_some_iff hdistinct, mem_insertSorted]
  by_cases hid : id = e.id
  · subst hid
    rw [Function.update_self, Option.some.injEq]
    constructor
    · rintro ⟨rfl | hk, hkid⟩
      · rfl
      · exact absurd ⟨k, hk, .inl hkid⟩ hnew
    · rintro rfl
      exact ⟨.inl rfl, rfl⟩
  · rw [Function.update_of_ne hid, get?_eq_some_iff h]
    constructor
    · rintro ⟨rfl | hk, hkid⟩
      · exact absurd hkid.symm hid
      · exact ⟨hk, hkid⟩
    · rintro ⟨hk, hkid⟩
      exact ⟨.inr hk, hkid⟩

theorem idOf?_insertIfNew (h : SymbolEntry.Distinct t.entries)
    (hnew : ¬ ∃ k ∈ t.entries, k.id = e.id ∨ k.name = e.name) :
    (t.insertIfNew e).idOf? = Function.update t.idOf? e.name (some e.id) := by
  have hdistinct := distinct_insertIfNew h e
  rw [insertIfNew_of_new hnew] at hdistinct ⊢
  funext name
  ext id
  rw [idOf?_eq_some_iff hdistinct]
  by_cases hname : name = e.name
  · subst hname
    rw [Function.update_self, Option.some.injEq]
    constructor
    · rintro ⟨k, hk, hkname, rfl⟩
      rcases mem_insertSorted.mp hk with rfl | hk
      · rfl
      · exact absurd ⟨k, hk, .inr hkname⟩ hnew
    · rintro rfl
      exact ⟨e, mem_insertSorted.mpr (.inl rfl), rfl, rfl⟩
  · rw [Function.update_of_ne hname, idOf?_eq_some_iff h]
    constructor
    · rintro ⟨k, hk, rfl, rfl⟩
      rcases mem_insertSorted.mp hk with rfl | hk
      · exact absurd rfl hname
      · exact ⟨k, hk, rfl, rfl⟩
    · rintro ⟨k, hk, hkname, hkid⟩
      exact ⟨k, mem_insertSorted.mpr (.inr hk), hkname, hkid⟩

def index (t : SymbolTable) : SymbolIndex := ⟨t.get?, t.idOf?⟩

theorem index_insertIfNew (h : SymbolEntry.Distinct t.entries) (e : SymbolEntry) :
    (t.insertIfNew e).index = t.index.insertIfNew e := by
  by_cases htaken : ∃ k ∈ t.entries, k.id = e.id ∨ k.name = e.name
  · have hfound : ((t.index.byId e.id).isSome || (t.index.byName e.name).isSome) = true :=
      isTaken_iff.mpr htaken
    rw [SymbolIndex.insertIfNew, if_pos hfound, insertIfNew_of_taken htaken]
  · have hfound : ¬ ((t.index.byId e.id).isSome || (t.index.byName e.name).isSome) = true :=
      fun h => htaken (isTaken_iff.mp h)
    rw [SymbolIndex.insertIfNew, if_neg hfound, index, get?_insertIfNew h htaken,
      idOf?_insertIfNew h htaken]
    rfl

theorem index_ofList (entries : List SymbolEntry) :
    SymbolIndex.ofList entries = (ofList entries).index := by
  induction entries using List.reverseRecOn with
  | nil => rfl
  | append_singleton entries e ih =>
      have hstep : SymbolIndex.ofList (entries ++ [e]) =
          (SymbolIndex.ofList entries).insertIfNew e :=
        List.foldl_append
      rw [hstep, ih, ofList_concat, index_insertIfNew (distinct_ofList entries)]

theorem exchangesAgree_eq_false_iff {asked known : String} :
    exchangesAgree asked known = false ↔ asked ≠ "" ∧ known ≠ "" ∧ known ≠ asked := by
  simp [exchangesAgree, and_assoc]

theorem resolve_index (t : SymbolTable) (id : SymbolId) (name exchange : String) :
    t.index.resolve id name exchange = t.resolve id name exchange := by
  have hexchange : ∀ (known : String) (found : SymbolId),
      (if exchange ≠ "" ∧ known ≠ "" ∧ known ≠ exchange then none else some found) =
        if exchangesAgree exchange known then some found else none := by
    intro known found
    cases hagree : exchangesAgree exchange known with
    | false => exact if_pos (exchangesAgree_eq_false_iff.mp hagree)
    | true =>
        refine if_neg fun h => ?_
        rw [exchangesAgree_eq_false_iff.mpr h] at hagree
        cases hagree
  unfold SymbolIndex.resolve resolve
  simp only [hexchange, beq_iff_eq]
  by_cases hname : name = ""
  · rw [if_pos hname, if_pos hname]
    show ((if (t.get? id).isSome then some id else none).bind fun id => (t.get? id).bind _) =
      (t.get? id).bind _
    cases hget : t.get? id with
    | none => rfl
    | some e =>
        rw [if_pos Option.isSome_some, Option.bind_some, hget]
  · rw [if_neg hname, if_neg hname]
    rfl

theorem resolve_name (h : SymbolEntry.Distinct t.entries) (he : e ∈ t.entries) (hname : e.name ≠ "")
    (id : SymbolId) (exchange : String) :
    t.resolve e.id "" exchange = t.resolve id e.name exchange := by
  ext found
  rw [resolve_eq_some_iff h, resolve_eq_some_iff h]
  constructor
  · rintro ⟨k, hk, rfl, hmeant, hexchange⟩
    obtain rfl := h.eq_of_id_eq hk he (isMeant_empty_iff.mp hmeant)
    exact ⟨k, hk, rfl, (isMeant_iff_of_ne_empty hname).mpr rfl, hexchange⟩
  · rintro ⟨k, hk, rfl, hmeant, hexchange⟩
    obtain rfl := h.eq_of_name_eq hk he ((isMeant_iff_of_ne_empty hname).mp hmeant)
    exact ⟨k, hk, rfl, isMeant_empty_iff.mpr rfl, hexchange⟩

/-- The two ways to look symbols up in a table of a list of entries are each other's inverses. -/
structure Indexes (entries : List SymbolEntry) (t : SymbolTable) : Prop where
  /-- The table finds what two indexes kept by hand find, and resolves what they resolve. -/
  index : SymbolIndex.ofList entries = t.index
  resolve_index : ∀ id name exchange,
    (SymbolIndex.ofList entries).resolve id name exchange = t.resolve id name exchange
  idOf?_iff : ∀ name id, t.idOf? name = some id ↔ ∃ e, t.get? id = some e ∧ e.name = name
  /-- The table has just the entries that are to be kept, in strictly ascending order. -/
  kept : t.entries.Perm (SymbolEntry.kept entries)
  ordered : t.entries.Pairwise fun a b => a.id < b.id
  resolve_contains : ∀ id name exchange found,
    t.resolve id name exchange = some found → t.contains found = true
  resolve_name : ∀ e ∈ t.entries, e.name ≠ "" → ∀ id exchange,
    t.resolve e.id "" exchange = t.resolve id e.name exchange

theorem indexes_ofList :
    (∀ entries, Indexes entries (ofList entries)) ∧
      ∀ c : Config, c.validate = .ok () → (ofList c.symbols).entries.Perm c.symbols := by
  constructor
  · intro entries
    have hdistinct := distinct_ofList entries
    refine ⟨index_ofList entries, ?_, ?_, perm_kept entries, pairwise_ofList entries, ?_, ?_⟩
    · intro id name exchange
      rw [index_ofList, resolve_index]
    · intro name id
      rw [idOf?_eq_some_iff hdistinct]
      constructor
      · rintro ⟨e, he, hname, hid⟩
        exact ⟨e, (get?_eq_some_iff hdistinct).mpr ⟨he, hid⟩, hname⟩
      · rintro ⟨e, hget, hname⟩
        obtain ⟨he, hid⟩ := (get?_eq_some_iff hdistinct).mp hget
        exact ⟨e, he, hname, hid⟩
    · intro id name exchange found hfound
      exact contains_of_resolve hfound
    · intro e he hname id exchange
      exact resolve_name hdistinct he hname id exchange
  · intro c hc
    exact ofList_perm (Config.validate_eq_ok_iff.mp hc).distinct

/-- The second entry has the number of the first and is not kept, so the third may have its name.
It finds its place before the first. -/
theorem indexes_ofList_name_left_free :
    let entries : List SymbolEntry := [⟨2, "BTC-USD", ""⟩, ⟨2, "ETH-USD", ""⟩, ⟨1, "ETH-USD", "x"⟩]
    let c : Config := { symbols := [⟨2, "BTC-USD", ""⟩, ⟨1, "ETH-USD", "x"⟩] }
    (ofList entries).entries = [⟨1, "ETH-USD", "x"⟩, ⟨2, "BTC-USD", ""⟩] ∧
      Indexes entries (ofList entries) ∧
      c.validate = .ok () ∧ (ofList c.symbols).entries.Perm c.symbols := by
  intro entries c
  have hc : c.validate = .ok () := by decide +kernel
  exact ⟨by decide +kernel, indexes_ofList.1 entries, hc, indexes_ofList.2 c hc⟩

end SymbolTable
end MarketRelay
