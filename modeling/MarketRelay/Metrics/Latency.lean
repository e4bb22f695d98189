/-!
# Latency windows

The last samples of a measurement, at most a given number of them, and their percentiles.

A window keeps its samples in the order in which they came, so that it knows which one to lose; a
percentile is read off the sorted samples.  It is always one of them: there is no point between two
samples, and of an empty window there is no percentile.

The place of a percentile among the sorted samples is computed in machine floats and cut to a whole
number, which is why it is a function of its own (`rank`) that nothing opens further.  Whatever
comes out of it is kept within the list.
-/
namespace MarketRelay

/-- The last samples of a measurement, the oldest first. -/
structure LatencyWindow where
  maxSamples : Nat
  samples : List Nat
deriving DecidableEq, Repr

namespace LatencyWindow

def empty (maxSamples : Nat) : LatencyWindow := ⟨maxSamples, []⟩

def size (w : LatencyWindow) : Nat := w.samples.length

/-- The window after one more sample: a full window loses its oldest one. -/
def record (w : LatencyWindow) (value : Nat) : LatencyWindow :=
  let kept := if w.maxSamples ≤ w.size then w.samples.drop 1 else w.samples
  { w with samples := kept ++ [value] }

/-- Where the percentile `p` stands among `count` sorted samples: that part of the last place,
computed in machine floats and cut to a whole number, and never beyond the last place. -/
def rank (p count : Nat) : Nat :=
  min (Float.ofNat p / 100.0 * Float.ofNat (count - 1)).toUInt64.toNat (count - 1)

def percentile (w : LatencyWindow) (p : Nat) : Option Nat :=
  (w.samples.mergeSort (· ≤ ·))[rank p w.size]?

end LatencyWindow
end MarketRelay
