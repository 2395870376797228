import PathControl.CommandLine.Invocation
import PathControl.Report.Record

/-!
# Records of command lines

How the reading of a command line is recorded: what it asks for, or why it is refused.
-/

namespace PathControl

open PathControl.CommandLine

instance : HasFields Refusal where
  fields r :=
    ("error", record r.name) ::
      r.reason?.toList.map fun reason => ("message", record reason)

instance : HasFields RunArguments where
  fields a :=
    [("role", record (a.role.map fun r =>
        Record.fields [("name", record r), ("probes", record r.emitsProbes)])),
      ("bind", record a.bind), ("peer", record a.peer), ("initial_path", record a.initialPath),
      ("probe_interval", record a.probeInterval), ("duration", record a.duration)]

/-- A command is one field, named for it. -/
instance : HasFields Command where
  fields
    | .run arguments => [("run", record arguments)]
    | .config sender output =>
      [("config", .fields [("sender", record sender), ("output", record output)])]

instance : HasFields Invocation where
  fields i :=
    [("config", record i.config), ("log_level", record i.logLevel),
      ("format", record (i.format.map LogFormat.name)), ("no_color", record i.noColor),
      ("command", record i.command)]

end PathControl
