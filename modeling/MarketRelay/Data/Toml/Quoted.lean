import MarketRelay.Text.Digit
import MarketRelay.Text.Rest

/-!
# Quoted texts of TOML

Texts between double quotes have escapes, texts between single quotes have none.  Three quotes make
either of them run over several lines.

* A line break right after three opening quotes does not count.
* Up to two quotes may stand right before the closing ones, and belong to the text.
* A backslash at the end of a line takes the line break and the blanks behind it away.
* An escape by number must name a character, so that it cannot be half of a pair of surrogates.
* Control characters have to be escaped, but for the tab and, in long texts, line breaks.

`quotedBody` reads all four forms, which differ in the two fields of a `QuoteForm`.  What it does
not go through character by character it skips, and it comes to an end because nothing that is
skipped makes the text longer: that is what the lemmas on lengths are for.
-/
namespace MarketRelay.Toml

structure QuoteForm where
  quote : Char
  isMultiLine : Bool

/-- Backslashes escape between double quotes. -/
def QuoteForm.hasEscapes (f : QuoteForm) : Bool := f.quote == '"'

/-- A character that stands for itself in a text or a comment. -/
def isPlainChar (c : Char) : Bool := c == '\t' || (0x20 ≤ c.toNat && c.toNat != 0x7F)

def letterEscape? : Char → Option Char
  | 'b' => some '\x08'
  | 't' => some '\t'
  | 'n' => some '\n'
  | 'f' => some '\x0c'
  | 'r' => some '\r'
  | '"' => some '"'
  | '\\' => some '\\'
  | _ => none

/-- The character of an escape by its number, in `count` digits. -/
def numberEscape? (count : Nat) (cs : List Char) : Option Char :=
  if (cs.take count).length = count then (Digit.number? 16 (cs.take count)).bind Digit.scalar?
  else none

/-- The character of an escape, behind its backslash, and the number of characters it takes. -/
def escape? : List Char → Option (Char × Nat)
  | [] => none
  | 'u' :: cs => (numberEscape? 4 cs).map (·, 5)
  | 'U' :: cs => (numberEscape? 8 cs).map (·, 9)
  | c :: _ => (letterEscape? c).map (·, 1)

def skipLines : List Char → List Char
  | ' ' :: cs => skipLines cs
  | '\t' :: cs => skipLines cs
  | '\n' :: cs => skipLines cs
  | '\r' :: '\n' :: cs => skipLines cs
  | cs => cs

theorem length_skipLines_le (cs : List Char) : (skipLines cs).length ≤ cs.length := by
  fun_induction skipLines cs <;> simp_all <;> omega

/-- The text after a line break at its head. -/
def dropBreak? : List Char → Option (List Char)
  | '\n' :: cs => some cs
  | '\r' :: '\n' :: cs => some cs
  | _ => none

theorem length_of_dropBreak? {cs rest : List Char} (h : dropBreak? cs = some rest) :
    rest.length < cs.length := by
  unfold dropBreak? at h
  split at h <;> cases h <;> simp only [List.length_cons] <;> omega

/-- The text after a backslash at the end of a line, and the blanks and line breaks behind it. -/
def dropContinuation? (cs : List Char) : Option (List Char) :=
  (dropBreak? (skip (fun c => c == ' ' || c == '\t') cs)).map skipLines

theorem length_of_dropContinuation? {cs rest : List Char} (h : dropContinuation? cs = some rest) :
    rest.length < cs.length := by
  unfold dropContinuation? at h
  obtain ⟨mid, hmid, rfl⟩ := Option.map_eq_some_iff.1 h
  have h1 := length_of_dropBreak? hmid
  have h2 := length_skip_le (fun c => c == ' ' || c == '\t') cs
  have h3 := length_skipLines_le mid
  omega

/-- The text up to its closing quotes, and what follows them; `acc` holds the characters before it
in reverse. -/
def quotedBody (f : QuoteForm) (acc : List Char) (cs : List Char) : Option (String × Rest cs) :=
  match cs with
  | [] => none
  | c :: rest =>
    if c = f.quote then
      let quotes := 1 + (rest.takeWhile (· == f.quote)).length
      if !f.isMultiLine then some (String.ofList acc.reverse, .tail c rest)
      else if quotes < 3 then
        (quotedBody f (c :: acc) rest).map fun (s, r) => (s, r.behind c)
      else
        let kept := min (quotes - 3) 2
        some (String.ofList (List.replicate kept f.quote ++ acc).reverse,
          ⟨rest.drop (2 + kept), by simp only [List.length_drop, List.length_cons]; omega⟩)
    else if c = '\\' && f.hasEscapes then
      match h : if f.isMultiLine then dropContinuation? rest else none with
      | some rest' =>
        have : rest'.length < rest.length := by
          split at h
          · exact length_of_dropContinuation? h
          · simp at h
        (quotedBody f acc rest').map fun (s, r) => (s, (r.within this).behind c)
      | none =>
        match escape? rest with
        | none => none
        | some (e, taken) =>
          (quotedBody f (e :: acc) (rest.drop taken)).map fun (s, r) =>
            (s, r.widen (by simp only [List.length_drop, List.length_cons]; omega))
    else if isPlainChar c then
      (quotedBody f (c :: acc) rest).map fun (s, r) => (s, r.behind c)
    else if f.isMultiLine then
      match h : dropBreak? (c :: rest) with
      | none => none
      | some rest' =>
        have hlt := length_of_dropBreak? h
        (quotedBody f ('\n' :: acc) rest').map fun (s, r) => (s, r.within hlt)
    else none
termination_by cs.length
decreasing_by all_goals (simp_all <;> omega)

def quotedLine? (quote : Char) (cs : List Char) : Option (String × Rest cs) :=
  quotedBody ⟨quote, false⟩ [] cs

def quotedLines? (quote : Char) (cs : List Char) : Option (String × Rest cs) :=
  match h : dropBreak? cs with
  | none => quotedBody ⟨quote, true⟩ [] cs
  | some rest =>
    (quotedBody ⟨quote, true⟩ [] rest).map fun (s, r) =>
      (s, r.within (length_of_dropBreak? h))

/-- A quoted text behind its first quote. -/
def quoted? (quote : Char) (cs : List Char) : Option (String × Rest cs) :=
  match cs with
  | a :: b :: rest =>
    if a = quote ∧ b = quote then
      (quotedLines? quote rest).map fun (s, r) => (s, (r.behind b).behind a)
    else quotedLine? quote (a :: b :: rest)
  | cs => quotedLine? quote cs

end MarketRelay.Toml
