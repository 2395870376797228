import PathControl.CommandLine.Files
import PathControl.CommandLine.Invocation
import PathControl.Session.Timed
import PathControl.Settings.Text

/-!
# Launching

What the program does for its arguments: it reads its settings, overrides them by options, and runs
an endpoint or shows the reference settings. All of it is a function of the arguments and of what
the files allow, `launch`; its answer lists the lines printed, the file written and the error that
ended the run.

The endpoint runs over an interface on which nothing arrives. What it sends is taken if the peer is
known, and lost otherwise. Its socket is bound to an address that every machine has; other addresses
are taken for those of other machines.
-/

namespace PathControl.CommandLine

open PathControl.Transport

/-- The name that the program goes by. -/
def programName : String := "repath"

/-- The version of the program. -/
def programVersion : String := "0.1.0"

/-- How a run of the program ends. -/
inductive Ending where
  | success
  /-- The command line is refused. -/
  | refused (refusal : Refusal)
  | failed (cause : Error)
  | fault
  deriving DecidableEq, Repr

/-- What a run of the program leaves. -/
structure Conclusion where
  /-- Printed text. -/
  output : String
  /-- A file written, by its name, with its content. -/
  written : Option (String × String)
  ending : Ending
  deriving DecidableEq, Repr

/-- What the standard output holds after a run, a file written to it included. -/
def Conclusion.printed (c : Conclusion) : String :=
  match c.written with
  | some (name, text) => if name = Files.outputDevice then text ++ c.output else c.output
  | none => c.output

namespace Ending

/-- The exit status of a run. Asking for a text is no error. -/
def status : Ending → Nat
  | success => 0
  | refused .displayHelp => 0
  | refused .displayVersion => 0
  | refused _ => 2
  | failed _ => 1
  | fault => 101

end Ending

/-! ### Texts -/

/-- A text followed by spaces up to a width. -/
def padRight (width : Nat) (s : String) : String :=
  s ++ String.ofList (List.replicate (width - s.length) ' ')

/-- Lines, each with a line end. -/
def lines (ls : List String) : String := String.join (ls.map (· ++ "\n"))

/-- What is printed before an endpoint starts. -/
def banner (s : Settings) : List String :=
  let rule := String.ofList (List.replicate 42 '═')
  ["╔" ++ rule ++ "╗",
    "║     REPATH " ++ padRight 8 s.role.name.toUpper ++ "                      ║",
    "║     Version " ++ padRight 8 programVersion ++ "                     ║",
    "╚" ++ rule ++ "╝",
    "",
    "  Initial path: " ++ s.tuning.initialPath.name,
    s!"  Control port: {s.addressing.controlPort.toNat}",
    s!"  Path ports: {s.addressing.basePort.toNat}-{s.addressing.lastPathPort}"]

/-- What is printed once the socket is bound. The port is shown as `port`. -/
def listening (address : Net.SocketAddress) (port : String) : List String :=
  let host := address.text.toList.reverse.dropWhile Text.isDigit
  ["  Listening on: " ++ String.ofList host.reverse ++ port, ""]

/-- What is printed when the endpoint has ended. -/
def farewell (e : Endpoint) (counters : String) : List String :=
  ["", "→ Shutting down...", "Final: " ++ counters,
    "  Active path: " ++ e.control.active.path.name ++
      s!" ({e.control.active.switches.toNat} switches)"]

/-- How the program is used. -/
def usage : List String :=
  ["Delay-driven path selection between two endpoints joined by four paths",
    "",
    "Usage: " ++ programName ++ " [OPTIONS] <COMMAND>",
    "",
    "Commands:",
    "  run     Run one endpoint until interrupted",
    "  config  Print an example configuration",
    "  help    Print this message or the help of the given subcommand(s)"]

/-! ### Running an endpoint -/

/-- An interface on which nothing arrives. It takes what is sent if `hasPeer`, and nothing
otherwise. -/
def silent (hasPeer : Bool) : Nic Unit where
  rxBurst _ pool _ := { nic := (), pool, frames := [], failure := none }
  txBurst _ frames := { nic := (), taken := if hasPeer then frames.length else 0, failure := none }

/-- Settings with the options of `run` in place. -/
def RunArguments.override (a : RunArguments) (s : Settings) : Settings :=
  { s with
    role := a.role.getD s.role
    socket := { bind := a.bind.getD s.socket.bind, peer := a.peer.or s.socket.peer }
    tuning := { s.tuning with
      initialPath := a.initialPath.getD s.tuning.initialPath
      probeInterval := a.probeInterval.getD s.tuning.probeInterval } }

/-- Runs an endpoint for as long as the options say, and not at all if they do not say. -/
def runEndpoint (port : String) (a : RunArguments) (given : Settings) : Conclusion :=
  let settings := a.override given
  let opening := banner settings
  match (Station.new settings 0).run with
  | .error _ => ⟨lines opening, none, .fault⟩
  | .ok (.error cause) => ⟨lines opening, none, .failed cause⟩
  | .ok (.ok station) =>
    let address := settings.socket.bind
    if address.isLocal then
      let opening := opening ++ listening address port
      let ended : Checked (Station × String) := do
        let nic := silent settings.socket.peer.isSome
        let (station, _) ← station.runFor nic 0 () (a.duration.getD .zero).wholeMillis
        return (station, ← station.endpoint.traffic.stats.summary)
      match ended with
      | .ok (station, counters) =>
        ⟨lines (opening ++ farewell station.endpoint counters), none, .success⟩
      | .error _ => ⟨lines opening, none, .fault⟩
    else
      let reason := "Cannot assign requested address (os error 99)"
      ⟨lines opening, none, .failed (.transport (.bindFailed address reason))⟩

/-! ### The program -/

/-- Shows the reference settings, or writes them to a file. -/
def showReference (files : Files) (sender : Bool) (output : Option String) : Conclusion :=
  let settings := if sender then Settings.reference.reversed .sender else Settings.reference
  match settings.toText.run, output with
  | .error _, _ => ⟨"", none, .fault⟩
  | .ok (.error cause), _ => ⟨"", none, .failed cause⟩
  | .ok (.ok text), none => ⟨lines [text], none, .success⟩
  | .ok (.ok text), some name =>
    if files.canWrite name then
      ⟨lines ["✓ Configuration written to " ++ name], some (name, text), .success⟩
    else ⟨"", none, .failed (.io ("cannot write " ++ name))⟩

/-- The settings that an invocation starts from. -/
def startingSettings (files : Files) (i : Invocation) : Settings.Reading Settings := do
  let settings ← match i.config with
    | some name => Settings.ofFile (files.content? name)
    | none => pure Settings.standard
  return { settings with
    log := {
      level := i.logLevel.getD settings.log.level
      format := (i.format.map LogFormat.name).getD settings.log.format
      color := settings.log.color && !i.noColor } }

/-- Carries out an invocation. -/
def Invocation.perform (files : Files) (port : String) (i : Invocation) : Conclusion :=
  match (startingSettings files i).run with
  | .error _ => ⟨"", none, .fault⟩
  | .ok (.error cause) => ⟨"", none, .failed cause⟩
  | .ok (.ok settings) =>
    match i.command with
    | .run arguments => runEndpoint port arguments settings
    | .config sender output => showReference files sender output

/-- The name that the program shows with its version: that of the command follows behind a
hyphen, where the version is asked for behind one. -/
def versionText (args : List String) : String :=
  let command := match (Scan.start .top).run args with
    | .ok (.ok (_, some (.run, _))) => "-run"
    | .ok (.ok (_, some (.config, _))) => "-config"
    | _ => ""
  programName ++ command ++ " " ++ programVersion

/-- What the program does for some arguments, given what the files allow and the text that stands
for the port that a socket is bound to. -/
def launch (files : Files) (port : String) (args : List String) : Conclusion :=
  match (Invocation.ofArgs args).run with
  | .error _ => ⟨"", none, .fault⟩
  | .ok (.ok invocation) => invocation.perform files port
  | .ok (.error refusal) =>
    let output := match refusal with
      | .displayHelp => lines usage
      | .displayVersion => lines [versionText args]
      | _ => ""
    ⟨output, none, .refused refusal⟩

end PathControl.CommandLine
