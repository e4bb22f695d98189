import MarketRelay.Metrics.Counter

/-!
# What is counted

Counters are words, so they count up to the size of a word and start over.  Everything said of them
here holds whether they do or not.

`Grows ks m m'` says by how much the counters grew: each by as often as it stands in the list `ks`,
up to the size of a word.  A list fits how the relay counts, one counter after another, and it adds
up by itself: what grew twice grew by both lists (`Grows.trans`), in any order (`Grows.perm`).  Each
of the ways to record something has its list, so a function that records several things in turn has
theirs put together, and no proof about it has to look at a counter.
-/
namespace MarketRelay
namespace Metrics

theorem get_lt (m : Metrics) (k : Counter) : m.get k < UInt64.size := UInt64.toNat_lt _

theorem get_mod_size (m : Metrics) (k : Counter) : m.get k % UInt64.size = m.get k :=
  Nat.mod_eq_of_lt (m.get_lt k)

@[simp] theorem get_empty (k : Counter) : Metrics.empty.get k = 0 :=
  congrArg UInt64.toNat (Vector.getElem_replicate _)

theorem get_recordPublish (m : Metrics) (enqueued dropped latency : Nat) (k : Counter) :
    (m.recordPublish enqueued dropped latency).get k =
      match k with
      | .eventsPublished => (m.get k + 1) % UInt64.size
      | .messagesEnqueued => (m.get k + enqueued) % UInt64.size
      | .messagesDropped => (m.get k + dropped) % UInt64.size
      | _ => m.get k := by
  have hcounts : (m.recordPublish enqueued dropped latency).get k =
      (((m.incr .eventsPublished).add .messagesEnqueued enqueued).add .messagesDropped
        dropped).get k := rfl
  rw [hcounts]
  cases k <;> simp [incr]

/-! ## Growth -/

/-- Every counter grew by as many as it stands in a list. -/
def Grows (ks : List Counter) (m m' : Metrics) : Prop :=
  ∀ k, m'.get k = (m.get k + ks.count k) % UInt64.size

theorem Grows.refl (m : Metrics) : Grows [] m m := fun k => (m.get_mod_size k).symm

theorem Grows.trans {ks ks' : List Counter} {m m' m'' : Metrics} (h : Grows ks m m')
    (h' : Grows ks' m' m'') : Grows (ks ++ ks') m m'' := by
  intro k
  rw [h' k, h k, Nat.mod_add_mod, List.count_append, Nat.add_assoc]

theorem Grows.perm {ks ks' : List Counter} {m m' : Metrics} (h : Grows ks m m')
    (hperm : ks.Perm ks') : Grows ks' m m' := by
  intro k
  rw [h k, hperm.count_eq k]

theorem grows_add (m : Metrics) (c : Counter) (n : Nat) :
    Grows (List.replicate n c) m (m.add c n) := by
  intro k
  rw [get_add, List.count_replicate]
  by_cases hk : c = k
  · simp [hk]
  · simp [hk, get_mod_size]

theorem grows_incr (m : Metrics) (c : Counter) : Grows [c] m (m.incr c) := m.grows_add c 1

theorem grows_recordEnqueue (m : Metrics) (dropped : Bool) :
    Grows (.messagesEnqueued :: if dropped then [.messagesDropped] else []) m
      (m.recordEnqueue dropped) := by
  have hone := m.grows_incr .messagesEnqueued
  cases dropped with
  | true => exact hone.trans (grows_incr _ .messagesDropped)
  | false => exact hone

theorem grows_recordPublish (m : Metrics) (enqueued dropped latency : Nat) :
    Grows (.eventsPublished :: (List.replicate enqueued .messagesEnqueued ++
      List.replicate dropped .messagesDropped)) m (m.recordPublish enqueued dropped latency) :=
  (m.grows_incr .eventsPublished).trans ((grows_add _ _ enqueued).trans (grows_add _ _ dropped))

end Metrics
end MarketRelay
