import MarketRelay.Text.Digit

/-!
# Command-line arguments

The options of the command and how a row of arguments is read.

An option stands in its long or its short form.  Its value, if it takes one, stands right behind it,
behind an equals sign, or is the next argument; a value that is an argument of its own does not
start with a hyphen.  Several short forms may stand behind one hyphen, and only the last of them may
take a value.  Behind two hyphens alone there are no options any more, and as the command takes
nothing else, what follows there is refused.

The order in which things are complained of is part of what a user sees, and the scan keeps it.

* That an option is repeated is noticed before its value is looked at.
* A value is looked at only when the next option begins (`Scan.settle`), or at the end, so an
  argument that is no option is complained of before a bad value in front of it.
* Help and the version are asked for by options too, and end the scan where they stand.

What is read is a record with one field for each option (`Arguments`), in which an option that was
not given has no value; what holds then is decided where the arguments are used.
-/
namespace MarketRelay.CommandLine

inductive CommandOption where
  | config
  | bindAddress
  | port
  | requireAuthentication
  | password
  | simulate
  | seed
  | tickMs
  | statusPort
  | help
  | version
deriving DecidableEq, Repr

namespace CommandOption

def all : List CommandOption :=
  [.config, .bindAddress, .port, .requireAuthentication, .password, .simulate, .seed, .tickMs,
    .statusPort, .help, .version]

/-- The long form of an option, without its hyphens. -/
def long : CommandOption → String
  | .config => "config"
  | .bindAddress => "bind-address"
  | .port => "port"
  | .requireAuthentication => "require-authentication"
  | .password => "password"
  | .simulate => "simulate"
  | .seed => "seed"
  | .tickMs => "tick-ms"
  | .statusPort => "status-port"
  | .help => "help"
  | .version => "version"

/-- The short form of an option, if it has one, without its hyphen. -/
def short? : CommandOption → Option Char
  | .config => some 'c'
  | .port => some 'p'
  | .help => some 'h'
  | .version => some 'V'
  | _ => none

/-- Whether an option goes with a value. -/
def takesValue : CommandOption → Bool
  | .requireAuthentication | .simulate | .help | .version => false
  | _ => true

def ofLong? (name : String) : Option CommandOption := all.find? fun o => o.long == name

def ofShort? (c : Char) : Option CommandOption := all.find? fun o => o.short? == some c

end CommandOption

/-- Why a row of arguments was not taken. -/
inductive UsageError where
  | unknownArgument (text : String)
  | missingValue (o : CommandOption)
  | invalidValue (o : CommandOption) (value : String)
  | repeated (o : CommandOption)
  | unexpectedValue (o : CommandOption) (value : String)
  | helpAsked
  | versionAsked
deriving DecidableEq, Repr

def usage : String :=
  let line := fun (o : CommandOption) =>
    let short := (o.short?.map fun c => s!"-{c}, ").getD ""
    let value := if o.takesValue then " <value>" else ""
    s!"  {short}--{o.long}{value}"
  "\n".intercalate ("Options:" :: CommandOption.all.map line)

/-- The name and the version of the command. -/
def versionLine : String := "dtc-server 0.1.0"

/-- The wording of a refusal, or what was asked for. -/
def UsageError.message : UsageError → String
  | .unknownArgument text => s!"unexpected argument '{text}'"
  | .missingValue o => s!"a value is required for '--{o.long}'"
  | .invalidValue o value => s!"invalid value '{value}' for '--{o.long}'"
  | .repeated o => s!"'--{o.long}' cannot be used multiple times"
  | .unexpectedValue o value => s!"unexpected value '{value}' for '--{o.long}'"
  | .helpAsked => usage
  | .versionAsked => versionLine

structure Arguments where
  configPath : Option String := none
  bindAddress : Option String := none
  port : Option UInt16 := none
  requireAuthentication : Bool := false
  password : Option String := none
  simulate : Bool := false
  seed : UInt64 := 42
  tickMs : UInt64 := 250
  statusPort : Option UInt16 := none
deriving DecidableEq, Repr

/-! ## Values -/

/-- An integer that may have a sign. -/
def signed? (s : String) : Option Int :=
  match s.toList with
  | '-' :: ds => (Digit.number? 10 ds).map fun n => -(n : Int)
  | '+' :: ds => (Digit.number? 10 ds).map Int.ofNat
  | ds => (Digit.number? 10 ds).map Int.ofNat

/-- A port: sixteen bits. -/
def port? (s : String) : Option UInt16 :=
  match signed? s with
  | some n => if 0 ≤ n ∧ n.toNat < UInt16.size then some (UInt16.ofNat n.toNat) else none
  | none => none

/-- A number of sixty-four bits; it has no minus, not even before zero. -/
def word? (s : String) : Option UInt64 :=
  match signed? s with
  | some n =>
    if 0 ≤ n ∧ n.toNat < UInt64.size ∧ s.front ≠ '-' then some (UInt64.ofNat n.toNat) else none
  | none => none

namespace Arguments

/-- The arguments with the value of an option, if the value is right for it. -/
def set? (a : Arguments) (o : CommandOption) (value : String) : Option Arguments :=
  match o with
  | .config => some { a with configPath := some value }
  | .bindAddress => some { a with bindAddress := some value }
  | .port => (port? value).map fun p => { a with port := some p }
  | .requireAuthentication => some { a with requireAuthentication := true }
  | .password => some { a with password := some value }
  | .simulate => some { a with simulate := true }
  | .seed => (word? value).map fun n => { a with seed := n }
  | .tickMs => (word? value).map fun n => { a with tickMs := n }
  | .statusPort => (port? value).map fun p => { a with statusPort := some p }
  | .help | .version => some a

end Arguments

/-! ## Reading -/

structure Scan where
  arguments : Arguments := {}
  /-- The options that were taken. -/
  seen : List CommandOption := []
  /-- The option that was begun, and its value once it is there. -/
  begun : Option (CommandOption × Option String) := none
deriving DecidableEq, Repr

namespace Scan

/-- Takes an option.  That it was repeated is noticed before its value is looked at; a path is never
empty. -/
def take (s : Scan) (o : CommandOption) (value : Option String) : Except UsageError Scan :=
  if o.takesValue && value.isNone then .error (.missingValue o)
  else if o = .help then .error .helpAsked
  else if o = .version then .error .versionAsked
  else if o ∈ s.seen then .error (.repeated o)
  else if o = .config ∧ value = some "" then .error (.missingValue o)
  else
    match s.arguments.set? o (value.getD "") with
    | some a => .ok { s with arguments := a, seen := o :: s.seen }
    | none => .error (.invalidValue o (value.getD ""))

/-- Takes the option that was begun, if there is one. -/
def settle (s : Scan) : Except UsageError Scan :=
  match s.begun with
  | none => .ok s
  | some (o, value) => ({ s with begun := none }).take o value

/-- Takes an option once the one before it is taken. -/
def settleAndTake (s : Scan) (o : CommandOption) (value : Option String) :
    Except UsageError Scan :=
  match s.settle with
  | .error e => .error e
  | .ok s => s.take o value

def begin (s : Scan) (o : CommandOption) : Except UsageError Scan :=
  match s.settle with
  | .error e => .error e
  | .ok s => .ok { s with begun := some (o, none) }

/-- An option in its long form, with what stands behind its equals sign, if there is one. -/
def readLong (s : Scan) (name : String) (value : Option String) : Except UsageError Scan :=
  match CommandOption.ofLong? name with
  | none => .error (.unknownArgument ("--" ++ name))
  | some o =>
    match value with
    | some v => if o.takesValue then s.settleAndTake o v else .error (.unexpectedValue o v)
    | none => if o.takesValue then s.begin o else s.settleAndTake o none

/-- What stands behind a short form: nothing, or a value with or without an equals sign. -/
def attached : List Char → Option String
  | [] => none
  | '=' :: cs => some (String.ofList cs)
  | cs => some (String.ofList cs)

/-- Options in their short forms, one behind the other; the last one may have its value behind. -/
def readShort (s : Scan) : List Char → Except UsageError Scan
  | [] => .ok s
  | c :: cs =>
    match CommandOption.ofShort? c with
    | none => .error (.unknownArgument ("-" ++ c.toString))
    | some o =>
      if o.takesValue then
        match attached cs with
        | some v => s.settleAndTake o v
        | none => s.begin o
      else
        match s.settleAndTake o none with
        | .error e => .error e
        | .ok s => s.readShort cs

/-- An argument that is no option: the value of the one that was begun. -/
def readValue (s : Scan) (text : String) : Except UsageError Scan :=
  match s.begun with
  | some (o, none) => .ok { s with begun := some (o, some text) }
  | _ => .error (.unknownArgument text)

def read (s : Scan) (argument : String) : Except UsageError Scan :=
  match argument.toList with
  | '-' :: '-' :: cs =>
    let name := cs.takeWhile (· != '=')
    let value := match cs.dropWhile (· != '=') with
      | [] => none
      | _ :: v => some (String.ofList v)
    s.readLong (String.ofList name) value
  | '-' :: c :: cs => s.readShort (c :: cs)
  | _ => s.readValue argument

/-- A row of arguments.  Behind two hyphens alone there are no options any more. -/
def readAll (s : Scan) : List String → Except UsageError Scan
  | [] => s.settle
  | argument :: rest =>
    if argument = "--" then
      match rest with
      | [] => s.settle
      | text :: _ => .error (.unknownArgument text)
    else
      match s.read argument with
      | .error e => .error e
      | .ok s => s.readAll rest

end Scan

/-- What a row of arguments says; a password that is not given there may come from the
environment. -/
def Arguments.ofList (arguments : List String) (environmentPassword : Option String) :
    Except UsageError Arguments :=
  match ({} : Scan).readAll arguments with
  | .error e => .error e
  | .ok s => .ok { s.arguments with password := s.arguments.password.or environmentPassword }

end MarketRelay.CommandLine
