import MarketRelay.CommandLine.Arguments
import MarketRelay.Config.Data
import MarketRelay.Feed.Market
import MarketRelay.Relay.Sink

/-!
# Setting up from the command line

What the command does with its arguments before anything runs, in this order.

* The configuration is that of the file that the arguments name, or the default one if they name
  none (`Arguments.load`).  A file that cannot be read or that is no configuration ends the command.
* What the arguments say is put in its place (`Arguments.override`), and only then is the result
  checked as a whole.  So an argument can mend a setting of the file that a relay cannot run with,
  and spoil one that it could.
* The simulated feed is set up if the arguments ask for it.  Its interval is given in milliseconds
  and is never zero, which no timer would take (`Arguments.feedSettings`).

Reading files is left to whoever calls, so that all of this is a function of texts.
-/
namespace MarketRelay.CommandLine

inductive SetupError where
  | usage (error : UsageError)
  | unreadable (path cause : String)
  | malformed (path : String)
  | invalid (error : ConfigError)
deriving DecidableEq, Repr

/-- The wording of a failure: what was tried, and what stood in the way, each with its cause. -/
def SetupError.message : SetupError → String
  | .usage error => error.message
  | .unreadable path cause => s!"loading {path}: cannot read {path}: {cause}: {cause}"
  | .malformed path => s!"loading {path}: not a configuration"
  | .invalid error => invalidConfiguration error.message

structure Setup where
  config : Config
  feed : SimulationSettings
  simulate : Bool
deriving DecidableEq, Repr

namespace Arguments

def override (a : Arguments) (c : Config) : Config :=
  { c with
    bindAddress := a.bindAddress.getD c.bindAddress
    port := a.port.getD c.port
    requireAuthentication := a.requireAuthentication || c.requireAuthentication
    password := a.password.getD c.password
    statusPort := a.statusPort.or c.statusPort }

/-- The configuration of the file that the arguments name, or the default one.  `readFile` gives the
text of a file, or why it cannot be read. -/
def load (a : Arguments) (readFile : String → Except String String) : Except SetupError Config :=
  match a.configPath with
  | none => .ok {}
  | some path =>
    match readFile path with
    | .error cause => .error (.unreadable path cause)
    | .ok text =>
      match Config.ofToml? text with
      | some c => .ok c
      | none => .error (.malformed path)

/-- The simulated feed of the arguments: there is some time between its ticks. -/
def feedSettings (a : Arguments) : SimulationSettings :=
  { seed := a.seed, tickIntervalMs := max a.tickMs.toNat 1 }

/-- What the arguments ask for, if a relay can run with it. -/
def setUp (a : Arguments) (readFile : String → Except String String) :
    Except SetupError Setup :=
  match a.load readFile with
  | .error e => .error e
  | .ok c =>
    let c := a.override c
    match c.validate with
    | .error e => .error (.invalid e)
    | .ok () => .ok ⟨c, a.feedSettings, a.simulate⟩

end Arguments

/-- What a row of arguments asks for, if a relay can run with it. -/
def setUp (arguments : List String) (environmentPassword : Option String)
    (readFile : String → Except String String) : Except SetupError Setup :=
  match Arguments.ofList arguments environmentPassword with
  | .error e => .error (.usage e)
  | .ok a => a.setUp readFile

end MarketRelay.CommandLine
