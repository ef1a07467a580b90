import Lockstep.Command.Output
import Lockstep.Loading.Simulation

/-!
The command that runs a layout against a puzzle. It exits with 0 if the puzzle is won, with 1 if
the run halts or does not get that far, and with 2 if it never starts.
-/
namespace Lockstep.RunCommand

def defaultLimit : Nat := 100000

def help : List String :=
  ["qpca-run - Run a node layout against a puzzle",
   "",
   "USAGE:",
   "    qpca-run --puzzle <FILE> (--layout <DIR> | --encoded <STRING>) [OPTIONS]",
   "",
   "OPTIONS:",
   "    --puzzle <FILE>       Puzzle descriptor (JSON)",
   "    --layout <DIR>        Directory of <slot>-<class>.qasm files",
   "    --encoded <STRING>    Encoded layout string",
   "    --config <FILE>       Simulation config (JSON)",
   "    --max-ticks <N>       Give up after N ticks (default " ++ Text.numeral defaultLimit ++ ")",
   "    -e, --encode          Print the encoded layout before running",
   "    -v, --verbose         Print every simulation event",
   "    -h, --help            Print this help message",
   "",
   "EXIT CODES:",
   "    0    Every test set passed",
   "    1    Halted or ran out of ticks",
   "    2    Invalid arguments or load error"]

/-- What the arguments have said so far; where one is repeated, the last counts. -/
structure Arguments where
  puzzle : Option String := none
  layout : Option String := none
  encoded : Option String := none
  settings : Option String := none
  limit : Option Nat := none
  encode : Bool := false
  verbose : Bool := false

inductive ArgumentError where
  | missingValue (option : String)
  | invalidTickCount (text : String)
  | unknown (argument : String)
  | noPuzzle
  | layoutChoice
  deriving Repr, DecidableEq

def ArgumentError.message : ArgumentError → String
  | missingValue option => option ++ " needs a value"
  | invalidTickCount text => "Invalid tick count: " ++ text
  | unknown argument => "Unknown argument: " ++ argument
  | noPuzzle => "No puzzle specified"
  | layoutChoice => "Specify exactly one of --layout or --encoded"

inductive LayoutSource where
  | directory (path : String)
  | code (text : String)

structure Job where
  puzzle : String
  layout : LayoutSource
  settings : Option String
  limit : Nat
  encode : Bool
  verbose : Bool

/-- Digits, behind a plus sign if there is one, for a number of 64 bits. -/
def tickCount? (text : String) : Option Nat :=
  (match text.toList with
    | '+' :: ds => Text.natural? ds
    | ds => Text.natural? ds).filter (· < UInt64.size)

/-- Takes in an option that has a value; `none` for any other argument. -/
def Arguments.withValue? (a : Arguments) (option value : String) :
    Option (Except ArgumentError Arguments) :=
  match option with
  | "--puzzle" => some (.ok { a with puzzle := some value })
  | "--layout" => some (.ok { a with layout := some value })
  | "--encoded" => some (.ok { a with encoded := some value })
  | "--config" => some (.ok { a with settings := some value })
  | "--max-ticks" =>
    some <|
      match tickCount? value with
      | some n => .ok { a with limit := some n }
      | none => .error (.invalidTickCount value)
  | _ => none

def takesValue (option : String) : Bool :=
  ["--puzzle", "--layout", "--encoded", "--config", "--max-ticks"].contains option

def Arguments.job (a : Arguments) : Except ArgumentError Job := do
  let some puzzle := a.puzzle | throw .noPuzzle
  let layout ←
    match a.layout, a.encoded with
    | some path, none => pure (.directory path)
    | none, some text => pure (.code text)
    | _, _ => throw .layoutChoice
  return {
    puzzle, layout
    settings := a.settings
    limit := a.limit.getD defaultLimit
    encode := a.encode
    verbose := a.verbose }

/-- Reads the arguments in order; `none` if one of them asks for help before any is wrong. -/
def Arguments.read (a : Arguments) : List String → Except ArgumentError (Option Job)
  | [] => a.job.map some
  | arg :: rest =>
    if arg = "-v" ∨ arg = "--verbose" then Arguments.read { a with verbose := true } rest
    else if arg = "-e" ∨ arg = "--encode" then Arguments.read { a with encode := true } rest
    else if arg = "-h" ∨ arg = "--help" then .ok none
    else
      match rest with
      | [] => .error (if takesValue arg then .missingValue arg else .unknown arg)
      | value :: rest =>
        match a.withValue? arg value with
        | none => .error (.unknown arg)
        | some (.error e) => .error e
        | some (.ok a) => a.read rest

def Job.simulation (job : Job) (files : Files) : Except LoadError Simulation := do
  let settings ←
    match job.settings with
    | some path => Settings.load files path
    | none => pure .headless
  let puzzle ← Puzzle.load files job.puzzle
  match job.layout with
  | .code text => (Simulation.ofCode puzzle settings text).mapError .layoutInvalid
  | .directory path => Simulation.ofDirectory files puzzle settings path

def inNode (slot : UInt8) : String := " (node " ++ Text.numeral slot.toNat ++ ")"

def outputAt (index : Nat) (value : Int) : String :=
  "  out[" ++ Text.numeral index ++ "] = " ++ Text.signedNumeral value

def eventLine : Event → String
  | .outputAccepted slot value index => outputAt index value ++ inNode slot
  | .outputMismatch slot index (some expected) actual =>
    outputAt index actual ++ ", expected " ++ Text.signedNumeral expected ++ inNode slot
  | .outputMismatch slot index none actual =>
    outputAt index actual ++ ", nothing expected" ++ inNode slot
  | .accWritten slot value =>
    "  node " ++ Text.numeral slot.toNat ++ " acc = " ++ Text.signedNumeral value
  | .runtimeError slot line message =>
    "  node " ++ Text.numeral slot.toNat ++ " line " ++ Text.numeral (line + 1) ++ ": " ++ message
  | .setPassed set => "set " ++ Text.numeral (set + 1) ++ " passed"
  | .won score => "won: " ++ score.text

def nodeErrorText (slot : UInt8) (e : NodeError) : String :=
  "node " ++ Text.numeral slot.toNat ++ ": " ++ e.text

def outcomeLine (sim : Simulation) : Outcome → String
  | .won score => "PASSED: " ++ score.text
  | .halted slot e =>
    "HALTED after " ++ Text.numeral sim.ticks ++ " ticks: " ++ nodeErrorText slot e
  | _ =>
    "INCOMPLETE after " ++ Text.numeral sim.ticks ++ " ticks: set "
      ++ Text.numeral (sim.setIndex + 1) ++ ", " ++ Text.numeral sim.output.size ++ " outputs"

def exitCode : Outcome → UInt8
  | .won _ => 0
  | _ => 1

def staticErrors (sim : Simulation) : List String :=
  sim.nodes.filterMap fun n =>
    (n.error.filter NodeError.isStatic).map (nodeErrorText n.slot)

def failed (chain : List String) : Output :=
  { exit := 2, stderr := ["Error: " ++ String.intercalate ": " chain] }

def Job.start (job : Job) (sim : Simulation) : Output :=
  match sim.start with
  | .error e => failed e.chain
  | .ok started =>
    match started.run job.limit with
    | (outcome, events, after) =>
      { exit := exitCode outcome
        stdout := (if job.verbose then events.toList.map eventLine else [])
          ++ [outcomeLine after outcome] }

def Job.encodeAndStart (job : Job) (sim : Simulation) : Output :=
  if job.encode then
    match sim.encodeLayout with
    | .error e => failed e.chain
    | .ok code =>
      let output := job.start sim
      { output with stdout := code :: output.stdout }
  else job.start sim

def Job.perform (job : Job) (files : Files) : Output :=
  match job.simulation files with
  | .error e => failed e.chain
  | .ok sim =>
    match staticErrors sim with
    | [] => job.encodeAndStart sim
    | errors =>
      let output := failed [Text.numeral errors.length ++ " node(s) failed to assemble"]
      { output with stderr := errors ++ output.stderr }

def run (files : Files) (arguments : List String) : Output :=
  match Arguments.read {} arguments with
  | .error e => { exit := 2, stderr := ["Error: " ++ e.message, ""] ++ help }
  | .ok none => { exit := 0, stderr := help }
  | .ok (some job) => job.perform files

end Lockstep.RunCommand
