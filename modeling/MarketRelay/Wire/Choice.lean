/-!
# Choices

The enumerations that travel in one byte: each value has a byte on the wire and a label in
written data.

An enumeration lists its values, and the value with a byte or a label is looked for in that list.
So a byte that no value has is refused for every enumeration in the same way, with the name of the
enumeration; that two values do not share a byte is left to whoever adds one.  No enumeration uses
the byte zero, which is what a field that was never written holds.
-/
namespace MarketRelay

/-- An enumeration with a byte and a label for each of its values. -/
class Choice (α : Type) where
  /-- The name of the enumeration, as messages about bad bytes give it. -/
  title : String
  /-- The values. -/
  all : List α
  /-- The byte of a value. -/
  code : α → UInt8
  /-- The written form of a value. -/
  label : α → String

namespace Choice

variable {α : Type} [Choice α]

def ofCode? (b : UInt8) : Option α := (all : List α).find? fun a => code a == b

def ofLabel? (s : String) : Option α := (all : List α).find? fun a => label a == s

end Choice

/-- The aggressor of a trade. -/
inductive Side where
  | buy
  | sell
deriving DecidableEq, Repr, Inhabited

instance : Choice Side where
  title := "Side"
  all := [.buy, .sell]
  code
    | .buy => 1
    | .sell => 2
  label
    | .buy => "Buy"
    | .sell => "Sell"

/-- How a logon was answered. -/
inductive LogonStatus where
  | success
  | rejected
deriving DecidableEq, Repr, Inhabited

instance : Choice LogonStatus where
  title := "LogonStatus"
  all := [.success, .rejected]
  code
    | .success => 1
    | .rejected => 2
  label
    | .success => "Success"
    | .rejected => "Rejected"

/-- What a market-data request asks for. -/
inductive RequestAction where
  | subscribe
  | unsubscribe
  | snapshot
deriving DecidableEq, Repr, Inhabited

instance : Choice RequestAction where
  title := "RequestAction"
  all := [.subscribe, .unsubscribe, .snapshot]
  code
    | .subscribe => 1
    | .unsubscribe => 2
    | .snapshot => 3
  label
    | .subscribe => "Subscribe"
    | .unsubscribe => "Unsubscribe"
    | .snapshot => "Snapshot"

end MarketRelay
