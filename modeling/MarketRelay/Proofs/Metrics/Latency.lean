import MarketRelay.Metrics.Latency
import MarketRelay.Proofs.Recent
import Mathlib.Data.List.Induction
import Mathlib.Data.List.Sort

/-!
# What a latency window answers

A window holds the last samples that it was given, as many as there is room for, and what it answers
depends on nothing else.

* `samples_recordAll`: a full window loses its oldest sample when it takes one more, so what it held
  before makes no difference once as many came as there is room for.  The induction is on the values
  from the end, and one step is `rtake_concat_of_pos`.
* `percentile_eq_of_perm`: percentiles are read off the sorted samples, and samples in another order
  are the same once they are sorted.
* `rank_lt`: the place that is read off is one of those that there are, however large the
  percentile is, so every percentile of a window with a sample is one of its samples.
* `forgets_and_ignores_order`: so a window answers as one that was given the recent values only, in
  any order.

A window with room for no sample is left out: it holds the last one all the same.
-/
namespace MarketRelay.LatencyWindow

variable {w w' : LatencyWindow} {p v : Nat}

def recordAll (w : LatencyWindow) (values : List Nat) : LatencyWindow := values.foldl record w

theorem recordAll_concat (w : LatencyWindow) (values : List Nat) (value : Nat) :
    w.recordAll (values ++ [value]) = (w.recordAll values).record value :=
  List.foldl_append

@[simp] theorem maxSamples_recordAll (w : LatencyWindow) (values : List Nat) :
    (w.recordAll values).maxSamples = w.maxSamples := by
  induction values using List.reverseRecOn with
  | nil => rfl
  | append_singleton values value ih => rw [recordAll_concat, ← ih]; rfl

theorem samples_recordAll {maxSamples : Nat} (h : 0 < maxSamples) (values : List Nat) :
    ((empty maxSamples).recordAll values).samples = values.rtake maxSamples := by
  induction values using List.reverseRecOn with
  | nil => exact (List.rtake_nil maxSamples).symm
  | append_singleton values value ih =>
      rw [recordAll_concat, ← rtake_concat_of_pos h, record, size, maxSamples_recordAll, ih]
      rfl

/-! ## Percentiles -/

theorem rank_lt {count : Nat} (h : 0 < count) : rank p count < count := by
  have hle : rank p count ≤ count - 1 := Nat.min_le_right _ _
  omega

theorem percentile_eq_none_iff : w.percentile p = none ↔ w.samples = [] := by
  rw [percentile, List.getElem?_eq_none_iff, List.length_mergeSort, ← List.length_eq_zero_iff]
  constructor
  · intro hle
    by_contra hne
    exact absurd (rank_lt (Nat.pos_of_ne_zero hne)) (Nat.not_lt.mpr hle)
  · intro hzero
    rw [hzero]
    exact Nat.zero_le _

theorem mem_of_percentile (h : w.percentile p = some v) : v ∈ w.samples :=
  List.mem_mergeSort.mp (List.mem_of_getElem? h)

theorem percentile_eq_of_perm (h : w.samples.Perm w'.samples) (p : Nat) :
    w.percentile p = w'.percentile p := by
  have hsorted : w.samples.mergeSort (· ≤ ·) = w'.samples.mergeSort (· ≤ ·) := by
    have hperm := (List.mergeSort_perm w.samples (· ≤ ·)).trans
      (h.trans (List.mergeSort_perm w'.samples (· ≤ ·)).symm)
    exact hperm.eq_of_sortedLE List.sortedLE_mergeSort List.sortedLE_mergeSort
  rw [percentile, percentile, hsorted, size, size, h.length_eq]

/-! ## What was recorded last -/

/-- The last values, as many of them as there is room for. -/
def recent (maxSamples : Nat) (values : List Nat) : List Nat :=
  values.rtake (min values.length maxSamples)

theorem recent_eq_rtake (maxSamples : Nat) (values : List Nat) :
    recent maxSamples values = values.rtake maxSamples := by
  rw [recent, List.rtake, List.rtake]
  congr 1
  omega

theorem recent_of_perm {maxSamples : Nat} {values values' : List Nat}
    (h : values'.Perm (recent maxSamples values)) : recent maxSamples values' = values' := by
  have hlength : values'.length ≤ maxSamples := by
    rw [h.length_eq, recent_eq_rtake, length_rtake]
    exact Nat.min_le_left _ _
  rw [recent, List.rtake, Nat.min_eq_left hlength, Nat.sub_self, List.drop_zero]

/-- What there is to know of a window with room for so many samples that was given values. -/
structure AnswersFor (w : LatencyWindow) (maxSamples : Nat) (values : List Nat) : Prop where
  size : w.size = min values.length maxSamples
  none : ∀ p, w.percentile p = none ↔ values = []
  /-- However large the percentile is, it is one of the recent values. -/
  some : values ≠ [] → ∀ p, ∃ v ∈ recent maxSamples values, w.percentile p = some v

theorem answersFor_recordAll {maxSamples : Nat} (h : 0 < maxSamples) (values : List Nat) :
    ((empty maxSamples).recordAll values).AnswersFor maxSamples values := by
  have hsamples := (samples_recordAll h values).trans (recent_eq_rtake maxSamples values).symm
  have hlength : ((empty maxSamples).recordAll values).samples.length =
      min values.length maxSamples := by
    rw [samples_recordAll h, length_rtake, Nat.min_comm]
  have hnone : ∀ p, ((empty maxSamples).recordAll values).percentile p = none ↔ values = [] := by
    intro p
    rw [percentile_eq_none_iff, ← List.length_eq_zero_iff, hlength, ← List.length_eq_zero_iff]
    omega
  constructor
  case size => exact hlength
  case none => exact hnone
  case some =>
    intro hne p
    obtain ⟨v, hv⟩ := Option.ne_none_iff_exists'.mp (mt (hnone p).mp hne)
    exact ⟨v, hsamples ▸ mem_of_percentile hv, hv⟩

/-- **Windows forget and ignore order.**  A window with room for a sample answers as one that was
given the recent values only, in any order. -/
theorem forgets_and_ignores_order {maxSamples : Nat} (h : 0 < maxSamples) (values : List Nat) :
    ((empty maxSamples).recordAll values).AnswersFor maxSamples values ∧
      ∀ values', values'.Perm (recent maxSamples values) →
        ((empty maxSamples).recordAll values').size =
            ((empty maxSamples).recordAll values).size ∧
          ∀ p, ((empty maxSamples).recordAll values').percentile p =
            ((empty maxSamples).recordAll values).percentile p := by
  refine ⟨answersFor_recordAll h values, fun values' hperm => ?_⟩
  have hsamples : ((empty maxSamples).recordAll values').samples.Perm
      ((empty maxSamples).recordAll values).samples := by
    rw [samples_recordAll h, samples_recordAll h, ← recent_eq_rtake, ← recent_eq_rtake,
      recent_of_perm hperm]
    exact hperm
  exact ⟨hsamples.length_eq, percentile_eq_of_perm hsamples⟩

/-- Of four values a window with room for three forgets the first, which was the smallest. -/
theorem forgets_and_ignores_order_four :
    let w := (empty 3).recordAll [10, 20, 40, 30]
    0 < 3 ∧ w.AnswersFor 3 [10, 20, 40, 30] ∧ ((empty 3).recordAll [40, 30, 20]).size = w.size ∧
      (∀ p, ((empty 3).recordAll [40, 30, 20]).percentile p = w.percentile p) ∧
      w.percentile 0 = some 20 ∧ w.percentile 400 = some 40 := by
  intro w
  have hroom : 0 < 3 := by decide
  obtain ⟨hanswers, hsame⟩ := forgets_and_ignores_order hroom [10, 20, 40, 30]
  obtain ⟨hsize, hpercentile⟩ := hsame [40, 30, 20] (by decide)
  have hread : ∀ p, w.percentile p = [20, 30, 40][rank p 3]? := by
    intro p
    have hsorted : w.samples.mergeSort (· ≤ ·) = [20, 30, 40] :=
      ((List.mergeSort_perm [20, 40, 30] _).trans (by decide)).eq_of_sortedLE
        List.sortedLE_mergeSort (by decide)
    rw [percentile, hsorted]
    rfl
  have hlowest : rank 0 3 = 0 := by decide +kernel
  have hbeyond : rank 400 3 = 2 := by decide +kernel
  refine ⟨hroom, hanswers, hsize, hpercentile, ?_, ?_⟩
  · rw [hread, hlowest]
    rfl
  · rw [hread, hbeyond]
    rfl

end MarketRelay.LatencyWindow
