import ChipEight.RunConfig

/-!
# Commands and their reports

The first argument is the command, the second the program file, and a run may name a configuration
file. Further arguments are ignored; fewer are a wrong usage. A command fails because a file cannot
be read, a configuration does not fit or the machine refuses. What it writes and the code it ends
with are its report, in which the filter of the log decides which records become lines; everything
else is always written.
-/
namespace ChipEight

inductive Command
  | run (rom : String) (config : Option String)
  | dump (rom : String)
deriving DecidableEq

namespace Command

/-- The command of the arguments; arguments that it does not need are ignored. -/
def ofArgs? : List String → Option Command
  | "run" :: rom :: rest => some (.run rom rest.head?)
  | "dump" :: rom :: _ => some (.dump rom)
  | _ => none

def fileNames : Command → List String
  | .run rom config => config.toList ++ [rom]
  | .dump rom => [rom]

def version : String := "0.4.0"

def usage : List String := [
  "Chip8 v" ++ version,
  "",
  "usage: chip8 CMD FILE [CONFIG]",
  "",
  "commands:",
  "    run     Run the target ROM file headless, then print the screen",
  "    dump    Print the program loaded in memory as hexadecimal instructions",
  "",
  "options:",
  "    CONFIG  YAML file with clock_frequency, frames, seed and scripted keys",
  "",
  "examples:",
  "    chip8 run maze.rom",
  "    chip8 run breakout.rom breakout.yaml",
  "    chip8 dump breakout.rom",
  ""]

inductive FileError
  | notFound
  | isDirectory
  | system (description : String) (code : Nat)
deriving DecidableEq

def FileError.message : FileError → String
  | .notFound => "No such file or directory (os error 2)"
  | .isDirectory => "Is a directory (os error 21)"
  | .system description code => description ++ " (os error " ++ toString code ++ ")"

abbrev Files := String → Except FileError ByteArray

inductive Error
  | file (cause : FileError)
  | encoding
  | config (cause : RunConfig.Error)
  | machine (cause : Machine.Error)

def Error.message (e : Error) : String :=
  "application error: " ++ match e with
    | .file cause => cause.message
    | .encoding => "stream did not contain valid UTF-8"
    | .config cause => "invalid run configuration: " ++ cause.message
    | .machine cause => cause.message

inductive Event
  | starting
  /-- The run ended in a wait for a key. -/
  | waiting
  | complete (frames presented lit : Nat)
  /-- The last word of a program lacks a byte. -/
  | oddProgram
  | failed (cause : Error)

namespace Event

def level : Event → Log.Level
  | .starting | .complete .. => .info
  | .waiting | .oddProgram => .warn
  | .failed _ => .error

def text : Event → String
  | .starting => "running bytecode interpreter"
  | .waiting => "stopped while waiting for a key press"
  | .complete frames presented lit =>
    s!"ran {frames} frames, presented {presented}, {lit} pixels lit"
  | .oddProgram => "program has an odd number of bytes"
  | .failed cause => cause.message

def record (e : Event) : Log.Record := ⟨e.level, .command, e.text⟩

end Event

inductive Output
  | record (r : Log.Record)
  | screen (s : Screen)
  | text (lines : List String)
deriving DecidableEq

/-- The lines of a piece of output, records only as far as the filter lets them through. -/
def Output.lines (filter : Log.Filter) : Output → List String
  | .record r => if filter.shows r.level then [r.line] else []
  | .screen s => s.lines ++ [""]
  | .text lines => lines

/-- What a command writes, in order, and its exit code. -/
structure Report where
  outputs : List Output
  code : UInt32
deriving DecidableEq

def Report.lines (r : Report) (filter : Log.Filter) : List String :=
  r.outputs.flatMap (Output.lines filter)

def usageCode : UInt32 := 64

def usageReport : Report := ⟨[.text usage], usageCode⟩

/-- The report of a command that fails after some output. -/
def failure (before : List Output) (cause : Error) : Report :=
  ⟨before ++ [.record (Event.failed cause).record], 1⟩

end Command

end ChipEight
