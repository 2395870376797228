import PathControl.CommandLine.Launch

/-!
# The program

Reads the settings file that the arguments name, carries the arguments out, and writes and prints
what comes of it.
-/

namespace PathControl

open PathControl.CommandLine

/-- The content of the settings file that some arguments name, if it can be read. -/
def readNamedFile (args : List String) : IO (Option ByteArray) := do
  match (Invocation.ofArgs args).run with
  | .ok (.ok { config := some name, .. }) =>
    try
      return some (← IO.FS.readBinFile name)
    catch _ =>
      return none
  | _ => return none

/-- Writes the file of a run. The answer is false if that failed. -/
def writePlanned (c : Conclusion) : IO Bool := do
  let some (name, text) := c.written | return true
  try
    IO.FS.writeFile name text
    return true
  catch _ =>
    return false

/-- The milliseconds that some arguments ask an endpoint to run for. -/
def runningTime (args : List String) : Option UInt32 :=
  match (Invocation.ofArgs args).run with
  | .ok (.ok { command := .run { duration := some d, .. }, .. }) =>
    some (UInt32.ofNat d.wholeMillis)
  | _ => none

/-- Runs the program. -/
def program (args : List String) : IO UInt32 := do
  let content ← readNamedFile args
  let planned := launch ⟨fun _ => content, fun _ => true⟩ "0" args
  let canWrite ← writePlanned planned
  let conclusion := launch ⟨fun _ => content, fun _ => canWrite⟩ "0" args
  if conclusion.ending = .success then
    if let some millis := runningTime args then IO.sleep millis
  IO.print conclusion.output
  match conclusion.ending with
  | .failed cause => IO.eprintln ("Error: " ++ cause.message)
  | .refused refusal =>
    if conclusion.ending.status ≠ 0 then
      IO.eprintln ("error: " ++ (refusal.reason?.getD refusal.name))
  | _ => pure ()
  return UInt32.ofNat conclusion.ending.status

end PathControl

/-- The entry point. -/
def main (args : List String) : IO UInt32 := PathControl.program args
