import PathControl.Text.Digits

/-!
# Files

What the program may do with files, as far as its answer depends on it: which names it can read,
with what content, and which it can write.
-/

namespace PathControl.CommandLine

/-- What the program may do with files, by their names. -/
structure Files where
  /-- The content of a file that can be read. -/
  content? : String → Option ByteArray
  /-- Whether a file can be written. -/
  canWrite : String → Bool

namespace Files

/-- The device that the printed text goes to. -/
def outputDevice : String := "/dev/stdout"

/-- The device that reads as an empty file. -/
def nullDevice : String := "/dev/null"

/-- The devices that take whatever is written. -/
def sinks : List String := [nullDevice, outputDevice, "/dev/stderr"]

/-- The greatest number of bytes in the name of a file. -/
def nameLimit : Nat := 255

/-- Whether a name is that of a file in the working directory, which may be named in front. -/
def isPlain (name : String) : Bool :=
  match (Text.splitOn '/' name.toList).dropWhile (· == ['.']) with
  | [file] => !([[], ['.', '.']].contains file) && (String.ofList file).utf8ByteSize ≤ nameLimit
  | _ => false

/-- The files of a working directory without directories in it, and the devices. -/
def inWorkingDirectory (content? : String → Option ByteArray) : Files where
  content? name := if name = nullDevice then some .empty else content? name
  canWrite name := isPlain name || sinks.contains name

end Files

end PathControl.CommandLine
