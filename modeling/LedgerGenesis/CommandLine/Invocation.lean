import LedgerGenesis.Text.DecimalDigit

/-! # Invocations

Arguments name a command, and options give it values. An option's name may be cut short as long as only
one option of the command begins so, and its value may follow in the same argument after an equals sign.
All arguments of a command are told apart before the first is obeyed; then they are taken from left to
right, so that a request for help stands if nothing before it is wrong. Arguments that nothing takes are
wrong only at the end. Two dashes end the options; joined to an option's name they are dropped, and leave
the option with no text.
-/
namespace LedgerGenesis.CommandLine

/-- An option that takes a value. -/
inductive Flag where
  | chain
  | output
  | config
  deriving DecidableEq

inductive Command where
  | buildSpec
  | checkFrozen
  | sampleConfig
  deriving DecidableEq

/-- What stands for an option that is given. -/
inductive Given where
  | text (t : Text)
  | nothing
  deriving DecidableEq

/-- A command with all that it is to be done with. -/
inductive Invocation where
  | buildSpec (chain : Given) (output config : Option Given)
  | checkFrozen (chain : Given) (config : Option Given)
  | sampleConfig (output : Given)
  deriving DecidableEq

/-- Why arguments make no invocation. -/
inductive Stop where
  | help
  | misuse
  deriving DecidableEq

/-- The status with which the arguments are answered. -/
def Stop.status : Stop → Nat
  | help => 0
  | misuse => 2

def Flag.name : Flag → String
  | chain => "--chain"
  | output => "--output"
  | config => "--config"

namespace Command

def name : Command → String
  | buildSpec => "build-spec"
  | checkFrozen => "check-frozen"
  | sampleConfig => "sample-config"

def ofName? (t : Text) : Option Command :=
  [buildSpec, checkFrozen, sampleConfig].find? fun c => Text.ofString c.name = t

def flags : Command → List Flag
  | buildSpec => [.chain, .output, .config]
  | checkFrozen => [.chain, .config]
  | sampleConfig => [.output]

end Command

/-- What an argument is where some flags are known. -/
inductive Word where
  | plain (t : Text)
  | flag (f : Flag) (value : Option Text)
  | help
  /-- Help with a value, which it does not take. -/
  | badHelp
  | unknown
  deriving DecidableEq

def dash : CodePoint := .char '-'

def equals : CodePoint := .char '='

/-- The argument after which none is an option. -/
def terminator : Text := [dash, dash]

def longHelp : Text := "--help"

def shortHelp : Text := "-h"

namespace Word

/-- Digits after a dash, with or without a point among or before them. A line break at the end is let pass. -/
def isNegativeNumber (t : Text) : Bool :=
  let isDigit (p : CodePoint) : Bool := p.digit?.isSome
  let body := t.drop 1
  let body := if body.getLast? = some (.char '\n') then body.dropLast else body
  let whole := body.takeWhile isDigit
  match body.dropWhile isDigit with
  | [] => !whole.isEmpty
  | p :: fraction => p = .char '.' && !fraction.isEmpty && fraction.all isDigit

/-- What stands before the first equals sign, and what after it. -/
def splitValue (t : Text) : Text × Option Text :=
  match t.dropWhile (· ≠ equals) with
  | [] => (t, none)
  | _ :: value => (t.takeWhile (· ≠ equals), some value)

/-- Long options that begin with a text; none stands for help. -/
def longOptions (flags : List Flag) (start : Text) : List (Option Flag) :=
  (none :: flags.map some).filter fun o =>
    start.isPrefixOf (match o with
      | some f => Text.ofString f.name
      | none => longHelp)

def ofLong (option : Option Flag) (value : Option Text) : Word :=
  match option with
  | some f => flag f value
  | none => if value.isNone then help else badHelp

/-- What follows the short option for help in its argument, perhaps behind an equals sign. It asks for help
if it is more of the same letter, of which there must be one behind the sign. -/
def readHelpTail (tail : Text) : Word :=
  let (letters, joined) := match tail with
    | p :: t => if p = equals then (t, true) else (tail, false)
    | [] => ([], false)
  if letters.all (· = .char 'h') && !(joined && letters.isEmpty) then help else badHelp

/-- An argument in the shape of an option that is none. -/
def ofStray (t : Text) : Word :=
  if isNegativeNumber t || t.contains (.char ' ') then plain t else unknown

def exactFlag? (flags : List Flag) (t : Text) : Option Flag :=
  flags.find? fun f => Text.ofString f.name = t

/-- An argument that starts with two dashes. -/
def readLong (flags : List Flag) (t : Text) : Except Stop Word :=
  let (name, value) := splitValue t
  match exactFlag? flags name with
  | some f => .ok (flag f value)
  | none =>
    match longOptions flags name with
    | [] => .ok (ofStray t)
    | [option] => .ok (ofLong option value)
    | _ => .error .misuse

/-- An argument that starts with one dash. -/
def readShort (t : Text) : Word :=
  if t.take 2 = shortHelp then readHelpTail (t.drop 2) else ofStray t

def read (flags : List Flag) (t : Text) : Except Stop Word :=
  match t with
  | p :: q :: _ =>
    if p ≠ dash then .ok (plain t)
    else if q = dash then readLong flags t
    else .ok (readShort t)
  | _ => .ok (plain t)

/-- The words of a command's arguments. The terminator and what follows it belong to no option. -/
def readAll (flags : List Flag) : List Text → Except Stop (List Word)
  | [] => .ok []
  | t :: ts =>
    if t = terminator then .ok [unknown]
    else do
      let w ← read flags t
      return w :: (← readAll flags ts)

end Word

/-- What a value joined to an option's name gives. -/
def Given.ofJoined (t : Text) : Given := if t = terminator then nothing else text t

/-- What was last given for each option, and whether arguments are left over. -/
structure Values where
  chain : Option Given := none
  output : Option Given := none
  config : Option Given := none
  surplus : Bool := false
  deriving DecidableEq

namespace Values

def set (v : Values) : Flag → Given → Values
  | .chain, g => { v with chain := some g }
  | .output, g => { v with output := some g }
  | .config, g => { v with config := some g }

def take (v : Values) : List Word → Except Stop Values
  | [] => .ok v
  | .flag f (some t) :: ws => (v.set f (.ofJoined t)).take ws
  | .flag f none :: .plain t :: ws => (v.set f (.text t)).take ws
  | .flag _ none :: _ => .error .misuse
  | .help :: _ => .error .help
  | .badHelp :: _ => .error .misuse
  | .plain _ :: ws => { v with surplus := true }.take ws
  | .unknown :: ws => { v with surplus := true }.take ws

end Values

namespace Invocation

def defaultChain : Text := "dev"

def defaultOutput : Text := "genesis_spec.json"

def ofValues (c : Command) (v : Values) : Except Stop Invocation :=
  match c, v.chain with
  | .buildSpec, chain => .ok (.buildSpec (chain.getD (.text defaultChain)) v.output v.config)
  | .checkFrozen, some chain => .ok (.checkFrozen chain v.config)
  | .checkFrozen, none => .error .misuse
  | .sampleConfig, _ => .ok (.sampleConfig (v.output.getD (.text defaultOutput)))

/-- The invocation of a command with its arguments. -/
def ofCommand (c : Command) (initial : Values) (arguments : List Text) : Except Stop Invocation := do
  let v ← initial.take (← Word.readAll c.flags arguments)
  if v.surplus then throw .misuse
  ofValues c v

/-- The first argument that is no option names the command, and the rest are the command's. -/
def ofArguments (v : Values) : List Text → Except Stop Invocation
  | [] => .error .misuse
  | t :: ts =>
    if t = terminator then .error .misuse
    else do
      match ← Word.read [] t with
      | .plain name =>
        match Command.ofName? name with
        | some c => ofCommand c v ts
        | none => .error .misuse
      | .help => .error .help
      | .unknown => ofArguments { v with surplus := true } ts
      | .badHelp | .flag .. => .error .misuse

def parse (arguments : List Text) : Except Stop Invocation := ofArguments {} arguments

end Invocation

end LedgerGenesis.CommandLine
