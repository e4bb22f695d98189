/-!
# What is left of a text

Readers take something off the front of a text and hand back a shorter rest, which is what makes
them end.

A `Rest cs` is such a rest: characters, and a proof that they are fewer than those of `cs`.  A
reader that returns one can be called again on what is left without a word about termination where
it is called.  That the rest is really the end of `cs` is not kept, since no reader needs it.

Readers are put together from smaller ones, and so are their rests: what is left of a part is left
of the whole (`widen`, `within`), and what is left of what is left is left of the whole (`andThen`).
Skipping white space never makes a text longer, so it can stand before or behind any reader
(`ofSkip`, `skip`).
-/
namespace MarketRelay

def skip (p : Char → Bool) (cs : List Char) : List Char := cs.dropWhile p

theorem length_skip_le (p : Char → Bool) (cs : List Char) : (skip p cs).length ≤ cs.length :=
  (List.dropWhile_suffix p).length_le

theorem length_lt_of_skip_eq_cons {p : Char → Bool} {cs rest : List Char} {c : Char}
    (h : skip p cs = c :: rest) : rest.length < cs.length := by
  have := length_skip_le p cs
  rw [h, List.length_cons] at this
  omega

/-- What is left of `cs` once something was read off its front. -/
structure Rest (cs : List Char) where
  chars : List Char
  shorter : chars.length < cs.length

namespace Rest

/-! ## Rests of parts -/

/-- A rest of a part is a rest of the whole. -/
def widen {part whole : List Char} (r : Rest part) (h : part.length ≤ whole.length) : Rest whole :=
  ⟨r.chars, Nat.lt_of_lt_of_le r.shorter h⟩

def within {part whole : List Char} (r : Rest part) (h : part.length < whole.length) : Rest whole :=
  r.widen (Nat.le_of_lt h)

def andThen {cs : List Char} (r : Rest cs) (r' : Rest r.chars) : Rest cs := r'.within r.shorter

def behind {cs : List Char} (c : Char) (r : Rest cs) : Rest (c :: cs) :=
  r.within (Nat.lt_succ_self cs.length)

/-- A rest of what follows skipped characters. -/
def ofSkip {p : Char → Bool} {cs : List Char} (r : Rest (skip p cs)) : Rest cs :=
  r.widen (length_skip_le p cs)

/-! ## Rests of texts -/

def tail (c : Char) (cs : List Char) : Rest (c :: cs) := ⟨cs, Nat.lt_succ_self cs.length⟩

def after? (c : Char) : (cs : List Char) → Option (Rest cs)
  | [] => none
  | d :: cs => if d = c then some (tail d cs) else none

/-- What is left after a character behind others of a class. -/
def afterSkip? (p : Char → Bool) (c : Char) (cs : List Char) : Option (Rest cs) :=
  (after? c (skip p cs)).map ofSkip

def skip {cs : List Char} (p : Char → Bool) (r : Rest cs) : Rest cs :=
  ⟨MarketRelay.skip p r.chars, Nat.lt_of_le_of_lt (length_skip_le p r.chars) r.shorter⟩

end Rest
end MarketRelay
