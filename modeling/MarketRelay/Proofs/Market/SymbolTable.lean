import MarketRelay.Market.Symbol
import Mathlib.Data.List.Induction
import Mathlib.Data.List.Nodup
import Mathlib.Data.List.Perm.Basic

/-!
# Looking symbols up

A table takes of several entries with one number or one name the first, so its entries differ in
both.  Which entries of a list these are is said by `SymbolEntry.kept`, which goes by the list
alone: an entry is kept unless one that is kept before it has its number or its name.

* `perm_kept`: the entries of a table are those of its list that are kept.  They are in order of
  numbers there and in order of the list here, so this is a permutation.
* `distinct_ofList`: the entries of a table differ in number and in name, whatever list the table
  is made of.  With that, looking one up finds the only entry there is (`get?_eq_some_iff`,
  `idOf?_eq_some_iff`).
* `resolve_eq_some_iff`: a request is resolved to the entry that it means, if the exchanges agree;
  `IsMeant` says which one that is without going through the two lookups.
-/
namespace MarketRelay

/-- No two entries have one number or one name. -/
structure SymbolEntry.Distinct (entries : List SymbolEntry) : Prop where
  ids : (entries.map (·.id)).Nodup
  names : (entries.map (·.name)).Nodup

namespace SymbolEntry.Distinct

variable {entries entries' : List SymbolEntry} {e e' : SymbolEntry}

theorem perm (h : Distinct entries) (hperm : entries.Perm entries') : Distinct entries' where
  ids := (hperm.map _).nodup_iff.mp h.ids
  names := (hperm.map _).nodup_iff.mp h.names

theorem eq_of_id_eq (h : Distinct entries) (he : e ∈ entries) (he' : e' ∈ entries)
    (hid : e.id = e'.id) : e = e' :=
  List.inj_on_of_nodup_map h.ids he he' hid

theorem eq_of_name_eq (h : Distinct entries) (he : e ∈ entries) (he' : e' ∈ entries)
    (hname : e.name = e'.name) : e = e' :=
  List.inj_on_of_nodup_map h.names he he' hname

end SymbolEntry.Distinct

namespace SymbolEntry

variable {entries : List SymbolEntry} {e : SymbolEntry}

/-- The entries of a list that a table of them keeps: those whose number and whose name are in none
of the entries that are kept before them. -/
def kept (entries : List SymbolEntry) : List SymbolEntry :=
  entries.foldl (fun before e =>
    if ∃ k ∈ before, k.id = e.id ∨ k.name = e.name then before else before ++ [e]) []

theorem kept_concat (entries : List SymbolEntry) (e : SymbolEntry) :
    kept (entries ++ [e]) =
      if ∃ k ∈ kept entries, k.id = e.id ∨ k.name = e.name then kept entries
      else kept entries ++ [e] :=
  List.foldl_append

theorem kept_eq_self (h : Distinct entries) : kept entries = entries := by
  induction entries using List.reverseRecOn with
  | nil => rfl
  | append_singleton entries e ih =>
      have hids := h.ids
      have hnames := h.names
      rw [List.map_append, List.map_singleton, List.nodup_append] at hids hnames
      rw [kept_concat, ih ⟨hids.1, hnames.1⟩, if_neg]
      rintro ⟨k, hk, hid | hname⟩
      · exact hids.2.2 k.id (List.mem_map_of_mem hk) e.id List.mem_cons_self hid
      · exact hnames.2.2 k.name (List.mem_map_of_mem hk) e.name List.mem_cons_self hname

end SymbolEntry

namespace SymbolTable

variable {t : SymbolTable} {id id' : SymbolId} {name exchange : String} {e : SymbolEntry}

theorem contains_iff : t.contains id = true ↔ id ∈ t.entries.map (·.id) := by
  simp [contains, get?]

theorem isSome_idOf?_iff : (t.idOf? name).isSome = true ↔ name ∈ t.entries.map (·.name) := by
  simp [idOf?]

theorem get?_eq_some_iff (h : SymbolEntry.Distinct t.entries) :
    t.get? id = some e ↔ e ∈ t.entries ∧ e.id = id := by
  constructor
  · intro hget
    exact ⟨List.mem_of_find?_eq_some hget, by simpa using List.find?_some hget⟩
  · rintro ⟨he, rfl⟩
    obtain ⟨e', hget⟩ : ∃ e', t.get? e.id = some e' :=
      Option.isSome_iff_exists.mp (contains_iff.mpr (List.mem_map_of_mem he))
    have hid : e'.id = e.id := by simpa using List.find?_some hget
    rw [hget, h.eq_of_id_eq (List.mem_of_find?_eq_some hget) he hid]

theorem idOf?_eq_some_iff (h : SymbolEntry.Distinct t.entries) :
    t.idOf? name = some id ↔ ∃ e ∈ t.entries, e.name = name ∧ e.id = id := by
  constructor
  · intro hid
    obtain ⟨e, hfind, rfl⟩ := Option.map_eq_some_iff.mp hid
    exact ⟨e, List.mem_of_find?_eq_some hfind, by simpa using List.find?_some hfind, rfl⟩
  · rintro ⟨e, he, rfl, rfl⟩
    obtain ⟨e', hfind⟩ : ∃ e', t.entries.find? (fun e' => e'.name == e.name) = some e' :=
      Option.isSome_iff_exists.mp (List.find?_isSome.mpr ⟨e, he, by simp⟩)
    have hname : e'.name = e.name := by simpa using List.find?_some hfind
    rw [idOf?, hfind, h.eq_of_name_eq (List.mem_of_find?_eq_some hfind) he hname]
    rfl

/-- A request means an entry that it names, or that it numbers if it names none. -/
def IsMeant (id : SymbolId) (name : String) (e : SymbolEntry) : Prop :=
  name = "" ∧ e.id = id ∨ name ≠ "" ∧ e.name = name

theorem isMeant_empty_iff : IsMeant id "" e ↔ e.id = id := by
  simp [IsMeant]

theorem isMeant_iff_of_ne_empty (hname : name ≠ "") : IsMeant id name e ↔ e.name = name := by
  simp [IsMeant, hname]

theorem get?_bind_eq_some_iff (h : SymbolEntry.Distinct t.entries) :
    ((t.get? id).bind fun e => if exchangesAgree exchange e.exchange then some id else none) =
        some id' ↔
      ∃ e ∈ t.entries, e.id = id' ∧ e.id = id ∧ exchangesAgree exchange e.exchange = true := by
  rw [Option.bind_eq_some_iff]
  constructor
  · rintro ⟨e, hget, hagree⟩
    obtain ⟨he, rfl⟩ := (get?_eq_some_iff h).mp hget
    split at hagree
    · next hexchange => exact ⟨e, he, Option.some.inj hagree, rfl, hexchange⟩
    · cases hagree
  · rintro ⟨e, he, rfl, rfl, hexchange⟩
    exact ⟨e, (get?_eq_some_iff h).mpr ⟨he, rfl⟩, if_pos hexchange⟩

theorem resolve_eq_some_iff (h : SymbolEntry.Distinct t.entries) :
    t.resolve id name exchange = some id' ↔
      ∃ e ∈ t.entries, e.id = id' ∧ IsMeant id name e ∧
        exchangesAgree exchange e.exchange = true := by
  unfold resolve
  by_cases hname : name = ""
  · subst hname
    simp only [isMeant_empty_iff]
    exact get?_bind_eq_some_iff h
  · simp only [beq_iff_eq, if_neg hname, isMeant_iff_of_ne_empty hname]
    refine Option.bind_eq_some_iff.trans ?_
    constructor
    · rintro ⟨meant, hmeant, hget⟩
      obtain ⟨e, he, rfl, rfl, hexchange⟩ := (get?_bind_eq_some_iff h).mp hget
      obtain ⟨e', he', hname', hid⟩ := (idOf?_eq_some_iff h).mp hmeant
      rw [h.eq_of_id_eq he' he hid] at hname'
      exact ⟨e, he, rfl, hname', hexchange⟩
    · rintro ⟨e, he, rfl, hname', hexchange⟩
      exact ⟨e.id, (idOf?_eq_some_iff h).mpr ⟨e, he, hname', rfl⟩,
        (get?_bind_eq_some_iff h).mpr ⟨e, he, rfl, rfl, hexchange⟩⟩

theorem contains_of_resolve (h : t.resolve id name exchange = some id') :
    t.contains id' = true := by
  have hget : ∀ meant, ((t.get? meant).bind fun e =>
      if exchangesAgree exchange e.exchange then some meant else none) = some id' →
        t.contains id' = true := by
    intro meant hmeant
    obtain ⟨e, he, hagree⟩ := Option.bind_eq_some_iff.mp hmeant
    split at hagree
    · obtain rfl := Option.some.inj hagree
      rw [contains, he]
      rfl
    · cases hagree
  unfold resolve at h
  split at h
  · exact hget id h
  · obtain ⟨meant, -, hmeant⟩ := Option.bind_eq_some_iff.mp h
    exact hget meant hmeant

theorem insertSorted_perm (e : SymbolEntry) (entries : List SymbolEntry) :
    (insertSorted e entries).Perm (e :: entries) := by
  induction entries with
  | nil => exact List.Perm.refl _
  | cons x rest ih =>
      unfold insertSorted
      split
      · exact List.Perm.refl _
      · exact (ih.cons x).trans (List.Perm.swap e x rest)

theorem mem_insertSorted {k : SymbolEntry} {entries : List SymbolEntry} :
    k ∈ insertSorted e entries ↔ k = e ∨ k ∈ entries := by
  rw [(insertSorted_perm e entries).mem_iff, List.mem_cons]

theorem isTaken_iff :
    (t.contains e.id || (t.idOf? e.name).isSome) = true ↔
      ∃ k ∈ t.entries, k.id = e.id ∨ k.name = e.name := by
  rw [Bool.or_eq_true, contains_iff, isSome_idOf?_iff, List.mem_map, List.mem_map]
  constructor
  · rintro (⟨k, hk, hid⟩ | ⟨k, hk, hname⟩)
    · exact ⟨k, hk, .inl hid⟩
    · exact ⟨k, hk, .inr hname⟩
  · rintro ⟨k, hk, hid | hname⟩
    · exact .inl ⟨k, hk, hid⟩
    · exact .inr ⟨k, hk, hname⟩

theorem insertIfNew_of_taken (h : ∃ k ∈ t.entries, k.id = e.id ∨ k.name = e.name) :
    t.insertIfNew e = t := by
  rw [insertIfNew, if_pos (isTaken_iff.mpr h)]

theorem insertIfNew_of_new (h : ¬ ∃ k ∈ t.entries, k.id = e.id ∨ k.name = e.name) :
    t.insertIfNew e = ⟨insertSorted e t.entries⟩ := by
  rw [insertIfNew, if_neg fun htaken => h (isTaken_iff.mp htaken)]

theorem ofList_concat (entries : List SymbolEntry) (e : SymbolEntry) :
    ofList (entries ++ [e]) = (ofList entries).insertIfNew e :=
  List.foldl_append

theorem perm_kept (entries : List SymbolEntry) :
    (ofList entries).entries.Perm (SymbolEntry.kept entries) := by
  induction entries using List.reverseRecOn with
  | nil => exact List.Perm.refl _
  | append_singleton entries e ih =>
      have htaken : (∃ k ∈ (ofList entries).entries, k.id = e.id ∨ k.name = e.name) ↔
          ∃ k ∈ SymbolEntry.kept entries, k.id = e.id ∨ k.name = e.name :=
        exists_congr fun k => and_congr_left fun _ => ih.mem_iff
      rw [ofList_concat, SymbolEntry.kept_concat]
      by_cases hkept : ∃ k ∈ SymbolEntry.kept entries, k.id = e.id ∨ k.name = e.name
      · rw [if_pos hkept, insertIfNew_of_taken (htaken.mpr hkept)]
        exact ih
      · rw [if_neg hkept, insertIfNew_of_new fun h => hkept (htaken.mp h)]
        exact (insertSorted_perm e _).trans
          ((ih.cons e).trans (List.perm_append_singleton e _).symm)

theorem ofList_perm {entries : List SymbolEntry} (h : SymbolEntry.Distinct entries) :
    (ofList entries).entries.Perm entries := by
  have hperm := perm_kept entries
  rwa [SymbolEntry.kept_eq_self h] at hperm

theorem distinct_insertIfNew (h : SymbolEntry.Distinct t.entries) (e : SymbolEntry) :
    SymbolEntry.Distinct (t.insertIfNew e).entries := by
  by_cases htaken : ∃ k ∈ t.entries, k.id = e.id ∨ k.name = e.name
  · rwa [insertIfNew_of_taken htaken]
  · rw [insertIfNew_of_new htaken]
    have hid : e.id ∉ t.entries.map (·.id) := by
      intro hmem
      obtain ⟨k, hk, hid⟩ := List.mem_map.mp hmem
      exact htaken ⟨k, hk, .inl hid⟩
    have hname : e.name ∉ t.entries.map (·.name) := by
      intro hmem
      obtain ⟨k, hk, hname⟩ := List.mem_map.mp hmem
      exact htaken ⟨k, hk, .inr hname⟩
    have hcons : SymbolEntry.Distinct (e :: t.entries) :=
      ⟨List.nodup_cons.mpr ⟨hid, h.ids⟩, List.nodup_cons.mpr ⟨hname, h.names⟩⟩
    exact hcons.perm (insertSorted_perm e t.entries).symm

theorem distinct_ofList (entries : List SymbolEntry) :
    SymbolEntry.Distinct (ofList entries).entries := by
  have hempty : SymbolEntry.Distinct empty.entries := ⟨List.nodup_nil, List.nodup_nil⟩
  exact List.foldlRecOn (motive := fun t => SymbolEntry.Distinct t.entries) entries insertIfNew
    hempty fun _ h e _ => distinct_insertIfNew h e

theorem contains_id (he : e ∈ t.entries) : t.contains e.id = true :=
  contains_iff.mpr (List.mem_map_of_mem he)

end SymbolTable
end MarketRelay
