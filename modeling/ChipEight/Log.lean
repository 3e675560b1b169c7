/-!
# Log records

A record is a line of text with a level and the part of the program it comes from. A filter lets
through the records up to a level.
-/
namespace ChipEight

namespace Text

def column (width : Nat) (text : String) : String :=
  text ++ String.ofList (List.replicate (width - text.length) ' ')

end Text

namespace Log

/-- How important a record is, most important first. -/
inductive Level
  | error
  | warn
  | info
  | debug
  | trace
deriving DecidableEq

namespace Level

def name : Level → String
  | .error => "ERROR"
  | .warn => "WARN"
  | .info => "INFO"
  | .debug => "DEBUG"
  | .trace => "TRACE"

def rank : Level → Nat
  | .error => 1
  | .warn => 2
  | .info => 3
  | .debug => 4
  | .trace => 5

end Level

/-- The least important level that is shown, or none when nothing is. -/
abbrev Filter := Option Level

namespace Filter

def ofName? (name : String) : Option Filter :=
  match name.toLower with
  | "off" => some none
  | "error" => some (some .error)
  | "warn" => some (some .warn)
  | "info" => some (some .info)
  | "debug" => some (some .debug)
  | "trace" => some (some .trace)
  | _ => none

def shows (filter : Filter) (level : Level) : Bool :=
  match filter with
  | none => false
  | some last => level.rank ≤ last.rank

end Filter

inductive Source
  | command
  | headless
  | machine
deriving DecidableEq

def Source.name : Source → String
  | .command => "chip8"
  | .headless => "chip8::headless"
  | .machine => "chip8::vm"

structure Record where
  level : Level
  source : Source
  text : String
deriving DecidableEq

namespace Record

def brief (r : Record) : String := r.level.name ++ " " ++ r.text

/-- Level in five columns, source and text. -/
def line (r : Record) : String :=
  Text.column 5 r.level.name ++ " [" ++ r.source.name ++ "] " ++ r.text

end Record

end Log

end ChipEight
