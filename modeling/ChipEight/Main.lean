import ChipEight.Command.Perform

/-!
# The program

Reads what a command needs, lets `Command.report` decide and writes the lines it gives back. The
level of the log is taken from the environment and is `info` unless it names another.
-/
namespace ChipEight.Program

/-- The variable that names the level. It is this program's own: the one that is common among
logging programs is named for their tools, and would set the level of all of them at once. -/
def levelVariable : String := "CHIP8_LOG"

/-- The refusal behind a failed system call. Some calls report their number negated. -/
def fileError : IO.Error → Command.FileError
  | .noFileOrDirectory .. => .notFound
  | .inappropriateType _ 21 _ => .isDirectory
  | .permissionDenied _ code details | .inappropriateType _ code details
  | .resourceExhausted _ code details | .invalidArgument _ code details =>
    .system details.capitalize (if code < 0x80000000 then code else 0 - code).toNat
  | e => .system (toString e) 0

def readFile (name : String) : IO (Except Command.FileError ByteArray) := do
  try return .ok (← IO.FS.readBinFile name)
  catch e => return .error (fileError e)

def readFiles (args : List String) : IO Command.Files := do
  let names := (Command.ofArgs? args).elim [] Command.fileNames
  let contents ← names.mapM fun name => return (name, ← readFile name)
  return fun name => (contents.lookup name).getD (.error .notFound)

def entropy : IO Random.Key := do
  let bytes ← IO.getRandomBytes 32
  let word (i : Nat) : Nat :=
    (List.range 4).foldl (fun n k => 256 * n + (bytes.toList.getD (4 * i + k) 0).toNat) 0
  return Vector.ofFn fun i => UInt32.ofNat (word i)

def filter : IO Log.Filter := do
  return ((← IO.getEnv levelVariable).bind Log.Filter.ofName?).getD (some .info)

end ChipEight.Program

def main (args : List String) : IO UInt32 := do
  let report := ChipEight.Command.report (← ChipEight.Program.readFiles args)
    (← ChipEight.Program.entropy) args
  for line in report.lines (← ChipEight.Program.filter) do
    IO.println line
  return report.code
