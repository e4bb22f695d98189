import Mathlib.Data.List.DropRight

/-!
# The last of what came

A list that loses its oldest entry when it is full and takes one more holds, of all that it was
given, the last entries.  Outbound queues and latency windows are such lists.

`List.rtake` takes entries from the end, whatever came before.  What remains is one step: to keep
the last entries and make room for one more, if there is none, is to keep the last entries of all
(`rtake_concat_of_pos`).  There has to be room for at least one, or the newest entry would be the
one that is lost.
-/
namespace MarketRelay

variable {α : Type}

theorem length_rtake (n : Nat) (l : List α) : (l.rtake n).length = min n l.length := by
  rw [List.rtake, List.length_drop]
  omega

theorem rtake_concat_of_pos {n : Nat} (h : 0 < n) (l : List α) (a : α) :
    (if n ≤ (l.rtake n).length then (l.rtake n).drop 1 else l.rtake n) ++ [a] =
      (l ++ [a]).rtake n := by
  obtain ⟨m, rfl⟩ := Nat.exists_eq_succ_of_ne_zero (Nat.ne_of_gt h)
  rw [List.rtake_concat_succ]
  congr 1
  simp only [List.rtake, List.length_drop, List.drop_drop]
  split
  · congr 1
    omega
  · congr 1
    omega

end MarketRelay
