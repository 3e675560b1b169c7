import ChipEight.Main
import ChipEight.Machine.Config
import ChipEight.Document.Printer
import ChipEight.Document.Reader
import ChipEight.Machine.History
import ChipEight.Machine.Readings
import ChipEight.InPlace.Request
import ChipEight.InPlace.Trace
import ChipEight.InPlace.Dump
import ChipEight.InPlace.Keys
import ChipEight.InPlace.Stopwatch
import ChipEight.InPlace.FrameLoop
import ChipEight.Proofs.InPlace.Safety
import ChipEight.Proofs.InPlace.Stopwatch
import ChipEight.Proofs.InPlace.Trace
import ChipEight.Proofs.InPlace.Dump
import ChipEight.Proofs.InstructionTable
import ChipEight.Proofs.Faults
import ChipEight.Proofs.Halt
import ChipEight.Proofs.Arithmetic
import ChipEight.Proofs.Effects
import ChipEight.Proofs.Course
import ChipEight.Proofs.Drawing
import ChipEight.Proofs.Painting
import ChipEight.Proofs.Draws
import ChipEight.Proofs.RegisterBlock
import ChipEight.Proofs.Calls
import ChipEight.Proofs.Keypad
import ChipEight.Proofs.KeyWait
import ChipEight.Proofs.Clock
import ChipEight.Proofs.Pace
import ChipEight.Proofs.Buzzer
import ChipEight.Proofs.Countdown
import ChipEight.Proofs.Interleaving
import ChipEight.Proofs.FreshStart
import ChipEight.Proofs.FreedSlots
import ChipEight.Proofs.Dump
import ChipEight.Proofs.Records
import ChipEight.Proofs.Script
import ChipEight.Proofs.Transcript
import ChipEight.Proofs.Schedule
import ChipEight.Proofs.Presented
import ChipEight.Proofs.Outcome
import ChipEight.Proofs.RunConfig
