/-!
# Lines

A text is a row of lines, each ended by a line feed; a carriage return right before the line feed
belongs to the end.  The last line may go without its end, and an empty text has no line.

A carriage return anywhere else is a character like others, also the one at the end of a text that
has no line feed behind it.  So a line may hold carriage returns, but no line feed.
-/
namespace MarketRelay.Lines

/-- The lines of a text, without their ends. -/
def ofChars : List Char → List (List Char)
  | [] => []
  | '\n' :: cs => [] :: ofChars cs
  | '\r' :: '\n' :: cs => [] :: ofChars cs
  | c :: cs =>
    match ofChars cs with
    | [] => [[c]]
    | line :: lines => (c :: line) :: lines

def ofText (text : String) : List String := (ofChars text.toList).map String.ofList

end MarketRelay.Lines
