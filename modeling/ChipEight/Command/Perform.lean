import ChipEight.Command.Report
import ChipEight.Headless.Session

/-!
# Carrying out commands

A program is run headless and its last screen printed, or it is listed as hexadecimal words. A
command is a function of the files it can read; of several failures the first in the order
configuration, program file, program size and execution is reported.
-/
namespace ChipEight.Command

def readConfig (files : Files) : Option String → Except Error RunConfig
  | none => .ok .default
  | some name =>
    match files name with
    | .error cause => .error (.file cause)
    | .ok bytes =>
      match String.fromUTF8? bytes with
      | none => .error .encoding
      | some text => (RunConfig.read text).mapError .config

def readProgram (files : Files) (name : String) : Except Error (List UInt8) :=
  match files name with
  | .error cause => .error (.file cause)
  | .ok bytes => .ok bytes.toList

def noted (events : List Machine.Event) : List Output := events.map fun e => .record e.record

/-- The end of a run after its last frame. A tone that still plays is switched off. -/
def endOfRun (config : RunConfig) (s : Headless.Session) : List Output :=
  let waiting := if s.machine.processor.waiting then [Event.waiting.record] else []
  let silenced := (s.buzzer.turn false).2.map Headless.Event.record
  let complete := Event.complete config.frames s.capture.presented s.capture.lit
  (waiting ++ silenced ++ [complete.record]).map .record ++ [.screen s.machine.processor.screen]

def runFrames (before : List Output) (config : RunConfig) (machine : Machine) : Report :=
  let s := Headless.Session.frames config.frames 0 (.start config machine)
  let before := before ++ s.records.toList.map Output.record
  match s.fault with
  | some fault => failure (before ++ [.screen s.machine.processor.screen]) (.machine (.fault fault))
  | none => ⟨before ++ endOfRun config s, 0⟩

/-- Runs a program: configuration, program, size, frames, in this order. -/
def runProgram (files : Files) (entropy : Random.Key) (rom : String) (config : Option String) :
    Report :=
  let starting : List Output := [.record Event.starting.record]
  match readConfig files config with
  | .error cause => failure starting cause
  | .ok config =>
    match readProgram files rom with
    | .error cause => failure starting cause
    | .ok program =>
      let loading := (Machine.new config.machine entropy).load program
      let before := starting ++ noted loading.events
      match loading.result with
      | .error cause => failure before (.machine cause)
      | .ok () => runFrames before config loading.machine

/-- Lists a program, the last half word filled up. -/
def listProgram (files : Files) (entropy : Random.Key) (rom : String) : Report :=
  match readProgram files rom with
  | .error cause => failure [] cause
  | .ok program =>
    let loading := (Machine.new .default entropy).load program
    let before := noted loading.events
    match loading.result with
    | .error cause => failure before (.machine cause)
    | .ok () =>
      let size := program.length
      let odd : List Output := if size % 2 = 1 then [.record Event.oddProgram.record] else []
      let listing := loading.machine.processor.memory.listing (size + size % 2)
      ⟨before ++ odd ++ [.text listing], 0⟩

def perform (files : Files) (entropy : Random.Key) : Command → Report
  | .run rom config => runProgram files entropy rom config
  | .dump rom => listProgram files entropy rom

def report (files : Files) (entropy : Random.Key) (args : List String) : Report :=
  match ofArgs? args with
  | some command => command.perform files entropy
  | none => usageReport

end ChipEight.Command
