/-!
# Options

The options of the program, and the levels at which they may stand: in front of a command, or
behind it. Some options are common to all levels.
-/

namespace PathControl.CommandLine

/-- Where in a command line an argument stands. -/
inductive Level where
  /-- In front of any command. -/
  | top
  /-- Behind `run`. -/
  | run
  /-- Behind `config`. -/
  | config
  deriving DecidableEq, Repr

/-- An option of the program. -/
inductive Flag where
  | help
  | version
  | config
  | logLevel
  | format
  | noColor
  | role
  | bind
  | peer
  | initialPath
  | probeInterval
  | duration
  | sender
  | output
  deriving DecidableEq, Repr

namespace Flag

/-- The long name of an option. -/
def long : Flag → String
  | help => "help"
  | version => "version"
  | config => "config"
  | logLevel => "log-level"
  | format => "format"
  | noColor => "no-color"
  | role => "role"
  | bind => "bind"
  | peer => "peer"
  | initialPath => "initial-path"
  | probeInterval => "probe-interval"
  | duration => "duration"
  | sender => "sender"
  | output => "output"

/-- The letter of an option, if it has one. -/
def letter? : Flag → Option Char
  | help => some 'h'
  | version => some 'V'
  | config => some 'c'
  | logLevel => some 'l'
  | role => some 'r'
  | bind => some 'b'
  | peer => some 'p'
  | output => some 'o'
  | _ => none

/-- Whether an option has a value. -/
def takesValue : Flag → Bool
  | help | version | noColor | sender => false
  | _ => true

/-- The options that may stand anywhere. -/
def common : List Flag := [help, version, config, logLevel, format, noColor]

/-- The options that may stand at a level. -/
def allowed : Level → List Flag
  | .top => common
  | .run => common ++ [role, bind, peer, initialPath, probeInterval, duration]
  | .config => common ++ [sender, output]

/-- The option of a long name at a level. -/
def ofLong? (level : Level) (name : String) : Option Flag :=
  (allowed level).find? fun f => f.long == name

/-- The option of a letter at a level. -/
def ofLetter? (level : Level) (letter : Char) : Option Flag :=
  (allowed level).find? fun f => f.letter? == some letter

end Flag

namespace Level

/-- The command that opens a level. -/
def ofCommand? (name : String) : Option Level :=
  if name = "run" then some .run else if name = "config" then some .config else none

end Level

end PathControl.CommandLine
