import ChipEight.Machine.Step
import ChipEight.RunConfig

/-!
# Headless sessions

A session runs a machine frame by frame without a window. A frame applies the key script, makes the
steps that are due at the configured rate, makes the timer ticks of one frame and presents the
screen if it changed. A wait for a key ends the steps of a frame; a fault ends the session within
the frame, before ticks and screen. Decoded instructions are not noted.
-/
namespace ChipEight.Headless

/-- A machine with its devices, the rate of its steps, the records so far and the fault that ended
the run. -/
structure Session where
  machine : Machine
  pace : Clock
  script : Script
  buzzer : Buzzer
  capture : Capture
  records : Array Log.Record
  fault : Option Fault

namespace Session

def frameTime : Duration := Clock.timerPeriod

def start (config : RunConfig) (machine : Machine) : Session where
  machine := machine
  pace := .ofPeriod config.frequency.period
  script := .ofEvents config.keys
  buzzer := .silent
  capture := .empty
  records := #[]
  fault := none

def noteDevices (s : Session) (events : List Event) : Session :=
  { s with records := s.records ++ (events.map Event.record).toArray }

/-- Notes the events of the machine that the log of a session shows. -/
def noteMachine (s : Session) (events : Array Machine.Event) : Session :=
  { s with records := s.records ++ (events.filter (·.level ≠ .trace)).map Machine.Event.record }

def playKeys (s : Session) (frame : Nat) : Session :=
  let (script, events) := s.script.advance frame
  { s with script }.noteDevices events

def makeSteps (s : Session) : Session :=
  let (due, pace) := s.pace.elapse frameTime
  let outcome := s.machine.run due.toNat s.script.keypad
  let fault := match outcome.result with
    | .error fault => some fault
    | .ok _ => none
  { s with machine := outcome.machine, pace, fault }.noteMachine outcome.events

def makeTicks (s : Session) : Session :=
  let elapsed := s.machine.elapse frameTime
  let (buzzer, events) := s.buzzer.calls elapsed.calls
  { s with machine := elapsed.machine, buzzer }.noteDevices events

def present (s : Session) : Session :=
  let (drawn, machine) := s.machine.takeDrawn
  let capture := if drawn then s.capture.present machine.processor.screen else s.capture
  { s with machine, capture }

def frame (s : Session) (frame : Nat) : Session :=
  let s := (s.playKeys frame).makeSteps
  if s.fault.isSome then s else s.makeTicks.present

/-- A number of frames from a given one on, as long as there is no fault. -/
def frames : Nat → Nat → Session → Session
  | 0, _, s => s
  | n + 1, next, s => if s.fault.isSome then s else frames n (next + 1) (s.frame next)

end Session

end ChipEight.Headless
