import MarketRelay.Text.Digit

/-!
# Network addresses

Internet addresses and sockets, their canonical text, and reading them.

The text of an address of eight groups leaves out leading zeros and has `::` in the place of its
longest run of at least two zero groups, the first one of several.  An address of the older kind
that is meant by the last two groups is written in its dotted form.

Reading is strict where a text could be taken for different addresses.

* There are no leading zeros in dotted numbers, and at most four hexadecimal digits to a group.
* There is at most one `::`, and it stands for at least one group.
* Dotted numbers stand for the last two groups only.
* Only ports and zones may have any number of leading zeros.

The functions that read something off the front of a text return what is left of it; those whose
names end in `ofText?` take the whole text and nothing less.
-/
namespace MarketRelay

inductive IpAddress where
  | v4 (a b c d : UInt8)
  | v6 (groups : Vector UInt16 8)
deriving DecidableEq

/-- An address and a port.  An address of groups may be meant in one zone of the network; zero is
none. -/
inductive SocketAddress where
  | v4 (a b c d : UInt8) (port : UInt16)
  | v6 (groups : Vector UInt16 8) (zone : UInt32) (port : UInt16)
deriving DecidableEq

namespace IpAddress

/-! ## Text -/

def dotted (a b c d : UInt8) : String := s!"{a}.{b}.{c}.{d}"

def groupText (g : UInt16) : String := String.ofList (Nat.toDigits 16 g.toNat)

def groupsText (gs : List UInt16) : String := ":".intercalate (gs.map groupText)

/-- The start and length of the longest run of zero groups, the first one of several: `at` is the
position of the head of the list, and `best` the longest run so far. -/
def longestZeros (position : Nat) (best : Nat × Nat) : List UInt16 → Nat × Nat
  | [] => best
  | g :: gs =>
    let run := ((g :: gs).takeWhile (· == 0)).length
    longestZeros (position + 1) (if best.2 < run then (position, run) else best) gs

/-- The text of eight groups: an address of the older kind in its dotted form, and the longest run
of at least two zero groups as `::`. -/
def v6Text (groups : Vector UInt16 8) : String :=
  match groups.toList with
  | [0, 0, 0, 0, 0, 0xFFFF, x, y] =>
    "::ffff:" ++ dotted (x >>> 8).toUInt8 x.toUInt8 (y >>> 8).toUInt8 y.toUInt8
  | gs =>
    let (start, run) := longestZeros 0 (0, 0) gs
    if run < 2 then groupsText gs
    else groupsText (gs.take start) ++ "::" ++ groupsText (gs.drop (start + run))

def text : IpAddress → String
  | .v4 a b c d => dotted a b c d
  | .v6 groups => v6Text groups

/-! ## Reading -/

/-- A number of one to `most` digits, all that are there. -/
def number? (base most : Nat) (leadingZero : Bool) (cs : List Char) : Option (Nat × List Char) :=
  let ds := cs.takeWhile (Digit.isOf base)
  if ds.isEmpty || most < ds.length || (!leadingZero && ds.head? == some '0' && ds.length ≠ 1) then
    none
  else some (Digit.number base ds, cs.dropWhile (Digit.isOf base))

def octet? (cs : List Char) : Option (UInt8 × List Char) := do
  let (n, rest) ← number? 10 3 false cs
  if n < 256 then some (UInt8.ofNat n, rest) else none

def expect? (c : Char) : List Char → Option (List Char)
  | [] => none
  | d :: rest => if d = c then some rest else none

/-- Four numbers with dots between them. -/
def dotted? (cs : List Char) : Option ((UInt8 × UInt8 × UInt8 × UInt8) × List Char) := do
  let (a, cs) ← octet? cs
  let (b, cs) ← octet? (← expect? '.' cs)
  let (c, cs) ← octet? (← expect? '.' cs)
  let (d, cs) ← octet? (← expect? '.' cs)
  return ((a, b, c, d), cs)

def group (high low : UInt8) : UInt16 := high.toUInt16 <<< 8 ||| low.toUInt16

/-- Up to `room` groups with colons between them, the last two possibly dotted: the groups, whether
they end in dotted numbers, and what follows them. -/
def groups (first : Bool) : (room : Nat) → List Char → List UInt16 × Bool × List Char
  | 0, cs => ([], false, cs)
  | room + 1, cs =>
    match if first then some cs else expect? ':' cs with
    | none => ([], false, cs)
    | some inner =>
      match if room = 0 then none else dotted? inner with
      | some ((a, b, c, d), rest) => ([group a b, group c d], true, rest)
      | none =>
        match number? 16 4 true inner with
        | none => ([], false, cs)
        | some (g, rest) =>
          let (gs, isDotted, rest) := groups false room rest
          (UInt16.ofNat g :: gs, isDotted, rest)

def eight? (gs : List UInt16) : Option (Vector UInt16 8) :=
  if h : gs.length = 8 then some ⟨gs.toArray, by simp [h]⟩ else none

/-- The groups of an address: eight of them, or fewer around one `::`. -/
def v6? (cs : List Char) : Option (Vector UInt16 8 × List Char) := do
  let (front, isDotted, rest) := groups true 8 cs
  if front.length = 8 then
    return (← eight? front, rest)
  else if isDotted then none
  else
    let rest ← expect? ':' (← expect? ':' rest)
    let (back, _, rest) := groups true (7 - front.length) rest
    let zeros := List.replicate (8 - front.length - back.length) 0
    return (← eight? (front ++ zeros ++ back), rest)

def read? (cs : List Char) : Option (IpAddress × List Char) :=
  match dotted? cs with
  | some ((a, b, c, d), rest) => some (.v4 a b c d, rest)
  | none => (v6? cs).map fun (groups, rest) => (.v6 groups, rest)

def ofText? (s : String) : Option IpAddress :=
  match read? s.toList with
  | some (ip, []) => some ip
  | _ => none

end IpAddress

namespace SocketAddress

def ofIp (ip : IpAddress) (port : UInt16) : SocketAddress :=
  match ip with
  | .v4 a b c d => .v4 a b c d port
  | .v6 groups => .v6 groups 0 port

/-- The text of a zone behind its address: nothing for none. -/
def zoneText (zone : UInt32) : String := if zone = 0 then "" else s!"%{zone}"

def text : SocketAddress → String
  | .v4 a b c d port => s!"{IpAddress.dotted a b c d}:{port}"
  | .v6 groups zone port => s!"[{IpAddress.v6Text groups}{zoneText zone}]:{port}"

/-- A number of any number of digits that is below a bound. -/
def below? (bound : Nat) (cs : List Char) : Option (Nat × List Char) := do
  let (n, rest) ← IpAddress.number? 10 cs.length true cs
  if n < bound then some (n, rest) else none

/-- A port after its colon, at the end of a text. -/
def port? (cs : List Char) : Option UInt16 := do
  let (n, rest) ← below? UInt16.size (← IpAddress.expect? ':' cs)
  if rest.isEmpty then some (UInt16.ofNat n) else none

/-- A zone after its percent sign, or none where there is no such sign. -/
def zone? (cs : List Char) : Option (UInt32 × List Char) :=
  match IpAddress.expect? '%' cs with
  | none => some (0, cs)
  | some cs => (below? UInt32.size cs).map fun (n, rest) => (UInt32.ofNat n, rest)

def ofText? (s : String) : Option SocketAddress :=
  match s.toList with
  | '[' :: cs => do
    let (groups, rest) ← IpAddress.v6? cs
    let (zone, rest) ← zone? rest
    return .v6 groups zone (← port? (← IpAddress.expect? ']' rest))
  | cs => do
    let ((a, b, c, d), rest) ← IpAddress.dotted? cs
    return .v4 a b c d (← port? rest)

end SocketAddress
end MarketRelay
