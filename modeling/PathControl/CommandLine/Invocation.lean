import PathControl.CommandLine.Option
import PathControl.Path.Port
import PathControl.Time.DurationText

/-!
# Command lines

Reading of the arguments of the program. Arguments are taken one after the other at a level; a
command name opens the level below, whose arguments are read to their end first. An option that
takes a value may have it attached, or in the next argument. Such a value is looked at only when
the option is settled, which is when the next option comes or the level ends: an argument that has
no place at all is reported before a bad value in front of it.

An option may be given once per level. What is given behind a command counts before what is given
in front of it.
-/

namespace PathControl.CommandLine

open PathControl.Text

/-- Why a command line is not carried out: something is wrong with it, or it asks for a text
instead. -/
inductive Refusal where
  | displayHelp
  | displayVersion
  /-- There are no arguments at all. -/
  | nothingGiven
  | missingCommand
  | invalidCommand
  | unknownArgument
  /-- A value is missing, empty, or not one of the possible ones. -/
  | invalidValue
  /-- A value cannot be read, for a reason. -/
  | unreadableValue (reason : String)
  /-- An option is given twice. -/
  | conflict
  /-- An option that takes no value has one. -/
  | surplusValue
  deriving DecidableEq, Repr

namespace Refusal

/-- The name of a kind of refusal. -/
def name : Refusal → String
  | displayHelp => "DisplayHelp"
  | displayVersion => "DisplayVersion"
  | nothingGiven => "DisplayHelpOnMissingArgumentOrSubcommand"
  | missingCommand => "MissingSubcommand"
  | invalidCommand => "InvalidSubcommand"
  | unknownArgument => "UnknownArgument"
  | invalidValue => "InvalidValue"
  | unreadableValue _ => "ValueValidation"
  | conflict => "ArgumentConflict"
  | surplusValue => "TooManyValues"

/-- The reason that a refusal gives of its own. -/
def reason? : Refusal → Option String
  | unreadableValue reason => some reason
  | _ => none

end Refusal

/-- An answer of the reader. -/
abbrev Parsing (α : Type) : Type := ExceptT Refusal Checked α

/-- How log lines are written. -/
inductive LogFormat where
  | text
  | json
  deriving DecidableEq, Repr

namespace LogFormat

/-- The name of a format. -/
def name : LogFormat → String
  | text => "text"
  | json => "json"

/-- The format of a name. -/
def ofName? (s : String) : Option LogFormat :=
  if s = "text" then some .text else if s = "json" then some .json else none

end LogFormat

/-- What the options of a level say. -/
structure Arguments where
  config : Option String := none
  logLevel : Option String := none
  format : Option LogFormat := none
  noColor : Bool := false
  role : Option Role := none
  bind : Option Net.SocketAddress := none
  peer : Option Net.SocketAddress := none
  initialPath : Option PathId := none
  probeInterval : Option Duration := none
  duration : Option Duration := none
  sender : Bool := false
  output : Option String := none
  deriving DecidableEq, Repr

/-! ### Values -/

/-- A file name, which is not empty. -/
def readFileName (s : String) : Parsing String :=
  if s.isEmpty then throw .invalidValue else return s

/-- One of the possible values of an option. -/
def readChoice {α : Type} (choice : Option α) : Parsing α :=
  match choice with
  | some x => return x
  | none => throw .invalidValue

/-- A socket address. -/
def readSocketAddress (s : String) : Parsing Net.SocketAddress :=
  match Net.SocketAddress.ofText? s.toList with
  | some address => return address
  | none => throw (.unreadableValue "invalid socket address syntax")

/-- A path by its number. -/
def readPath (s : String) : Parsing PathId :=
  match number? 10 256 s.toList with
  | .error cause => throw (.unreadableValue cause.message)
  | .ok n =>
    match PathId.ofByte (UInt8.ofNat n) with
    | .ok path => return path
    | .error cause => throw (.unreadableValue cause.message)

/-- A duration. -/
def readDuration (s : String) : Parsing Duration := do
  match ← (Duration.ofText s).run with
  | .ok d => return d
  | .error cause => throw (.unreadableValue cause.message)

/-- Takes over an option with its value. Options without a value come with an empty one. -/
def Arguments.accept (a : Arguments) (flag : Flag) (value : String) : Parsing Arguments := do
  match flag with
  | .help => throw .displayHelp
  | .version => throw .displayVersion
  | .config => return { a with config := some (← readFileName value) }
  | .logLevel => return { a with logLevel := some value }
  | .format => return { a with format := some (← readChoice (LogFormat.ofName? value)) }
  | .noColor => return { a with noColor := true }
  | .role => return { a with role := some (← readChoice (Role.ofName? value)) }
  | .bind => return { a with bind := some (← readSocketAddress value) }
  | .peer => return { a with peer := some (← readSocketAddress value) }
  | .initialPath => return { a with initialPath := some (← readPath value) }
  | .probeInterval => return { a with probeInterval := some (← readDuration value) }
  | .duration => return { a with duration := some (← readDuration value) }
  | .sender => return { a with sender := true }
  | .output => return { a with output := some (← readFileName value) }

/-! ### Levels -/

/-- An option that is not settled yet. -/
structure Pending where
  flag : Flag
  /-- Its value, if it has come. -/
  value : Option String
  deriving DecidableEq, Repr

/-- A level as far as it has been read. -/
structure Scan where
  level : Level
  arguments : Arguments
  /-- Options settled so far. -/
  given : List Flag
  pending : Option Pending
  /-- Whether `--` has come, behind which nothing is an option. -/
  isOver : Bool
  deriving DecidableEq, Repr

namespace Scan

/-- A level before its first argument. -/
def start (level : Level) : Scan := ⟨level, {}, [], none, false⟩

/-- Settles an option with its value. -/
def settle (s : Scan) (flag : Flag) (value : String) : Parsing Scan := do
  if s.given.contains flag then throw .conflict
  let arguments ← s.arguments.accept flag value
  return { s with arguments, given := flag :: s.given }

/-- Settles the pending option, if there is one. -/
def settlePending (s : Scan) : Parsing Scan :=
  match s.pending with
  | none => return s
  | some ⟨_, none⟩ => throw .invalidValue
  | some ⟨flag, some value⟩ => { s with pending := none }.settle flag value

/-- An option whose value is known, or that takes none. -/
def takeSettled (s : Scan) (flag : Flag) (value : String) : Parsing Scan := do
  (← s.settlePending).settle flag value

/-- An option whose value is to come. -/
def takePending (s : Scan) (flag : Flag) : Parsing Scan := do
  return { ← s.settlePending with pending := some ⟨flag, none⟩ }

/-- An option by its long name, with what is attached to it. -/
def takeLong (s : Scan) (name : String) (attached : Option String) : Parsing Scan :=
  match Flag.ofLong? s.level name, attached with
  | none, _ => throw .unknownArgument
  | some flag, some value =>
    if flag.takesValue then s.takeSettled flag value else throw .surplusValue
  | some flag, none => if flag.takesValue then s.takePending flag else s.takeSettled flag ""

/-- Options by their letters. What follows the letter of an option with a value is that value; an
equals sign in front of it does not count. -/
def takeLetters (s : Scan) : List Char → Parsing Scan
  | [] => return s
  | c :: cs =>
    match Flag.ofLetter? s.level c with
    | none => throw .unknownArgument
    | some flag =>
      if flag.takesValue then
        match cs with
        | [] => s.takePending flag
        | '=' :: value => s.takeSettled flag (String.ofList value)
        | value => s.takeSettled flag (String.ofList value)
      else do
        let s ← s.takeSettled flag ""
        s.takeLetters cs

/-- The pending option that waits for its value. -/
def awaiting? (s : Scan) : Option Flag :=
  match s.pending with
  | some ⟨flag, none⟩ => if s.isOver then none else some flag
  | _ => none

/-- Whether a name is that of a command. -/
def isCommand (name : String) : Bool := name == "help" || (Level.ofCommand? name).isSome

/-- Why an argument that is no option has no place at a level. -/
def misplaced (s : Scan) (arg : String) : Refusal :=
  match s.level with
  | .top => if s.isOver && isCommand arg then .unknownArgument else .invalidCommand
  | _ => .unknownArgument

/-- Takes an argument that is neither a command nor `--`. -/
def take (s : Scan) (arg : String) : Parsing Scan :=
  match s.isOver, arg.toList with
  | false, '-' :: '-' :: cs =>
    let name := cs.takeWhile (· ≠ '=')
    let attached :=
      if name.length < cs.length then some (String.ofList (cs.drop (name.length + 1))) else none
    s.takeLong (String.ofList name) attached
  | false, '-' :: c :: cs => s.takeLetters (c :: cs)
  | _, _ =>
    match s.awaiting? with
    | some flag => return { s with pending := some ⟨flag, some arg⟩ }
    | none => throw (s.misplaced arg)

/-- The level that an argument opens, if it is a command. -/
def opened? (s : Scan) (arg : String) : Option Level :=
  if s.level = .top ∧ !s.isOver ∧ s.awaiting?.isNone then Level.ofCommand? arg else none

/-- Whether an argument is the command that asks for help. -/
def asksForHelp (s : Scan) (arg : String) : Bool :=
  s.level == .top && !s.isOver && s.awaiting?.isNone && arg == "help"

/-- What the command that asks for help is refused with, given the arguments behind it: at most
the name of one command may follow. -/
def helpFor : List String → Refusal
  | [] => .displayHelp
  | [name] => if isCommand name then .displayHelp else .invalidCommand
  | _ => .invalidCommand

/-- Reads arguments up to the end or to a command. The answer has the level that the command opens
and the arguments behind it. -/
def run (s : Scan) : List String → Parsing (Scan × Option (Level × List String))
  | [] => return (s, none)
  | arg :: args => do
    if s.asksForHelp arg then throw (helpFor args)
    match s.opened? arg with
    | some level => return (s, some (level, args))
    | none =>
      if arg = "--" ∧ !s.isOver then Scan.run { s with isOver := true } args
      else Scan.run (← s.take arg) args

end Scan

/-! ### Invocations -/

/-- Arguments of the command that runs an endpoint. -/
structure RunArguments where
  role : Option Role
  bind : Option Net.SocketAddress
  peer : Option Net.SocketAddress
  initialPath : Option PathId
  probeInterval : Option Duration
  /-- How long to run; until interrupted if absent. -/
  duration : Option Duration
  deriving DecidableEq, Repr

/-- A command with its arguments. -/
inductive Command where
  | run (arguments : RunArguments)
  /-- Print the reference settings, of the sender or the receiver, or write them to a file. -/
  | config (sender : Bool) (output : Option String)
  deriving DecidableEq, Repr

/-- What a command line asks for. -/
structure Invocation where
  /-- Name of the settings file. -/
  config : Option String
  logLevel : Option String
  format : Option LogFormat
  noColor : Bool
  command : Command
  deriving DecidableEq, Repr

/-- The command of a level. -/
def Command.ofArguments (level : Level) (a : Arguments) : Command :=
  match level with
  | .config => .config a.sender a.output
  | _ => .run
    { role := a.role, bind := a.bind, peer := a.peer, initialPath := a.initialPath,
      probeInterval := a.probeInterval, duration := a.duration }

/-- Joins what is given in front of a command and behind it. -/
def Invocation.ofArguments (level : Level) (top below : Arguments) : Invocation where
  config := below.config.or top.config
  logLevel := below.logLevel.or top.logLevel
  format := below.format.or top.format
  noColor := below.noColor || top.noColor
  command := .ofArguments level below

/-- The invocation of some arguments. -/
def Invocation.ofArgs (args : List String) : Parsing Invocation := do
  let (top, below) ← (Scan.start .top).run args
  match below with
  | none =>
    let top ← top.settlePending
    throw (if top.given.isEmpty then .nothingGiven else .missingCommand)
  | some (level, args) =>
    let (below, _) ← (Scan.start level).run args
    let below ← below.settlePending
    let top ← top.settlePending
    return .ofArguments level top.arguments below.arguments

end PathControl.CommandLine
