import ChipEight.InPlace.Trace
import ChipEight.Proofs.InPlace.Request
import ChipEight.Proofs.Words

/-!
# Traces in place

Writing records does not change what work in place does. The name in the arm of a word is that of
the instruction that it decodes to, so a step writes one record for a word that decodes, and all its
records are those of the machine behind.
-/
namespace ChipEight.InPlace.Noted

open Machine (Event)

variable {α β : Type} {o : Opcode}

theorem run_bind (w : Noted α) (k : α → Noted β) (s : State) :
    (w >>= k).run s = andThen (w.run s) k := rfl

theorem andThen_done (log : List Log.Record) (a : α) (s : State) (k : α → Noted β) :
    andThen (log, .done a s) k = (log ++ ((k a).run s).1, ((k a).run s).2) := rfl

theorem andThen_fault (log : List Log.Record) (f : Fault) (s : State) (k : α → Noted β) :
    andThen (log, .fault f s) k = (log, .fault f s) := rfl

theorem run_pure (a : α) (s : State) : (pure a : Noted α).run s = ([], .done a s) := rfl

theorem run_quietly (w : Work α) (s : State) : (quietly w).run s = ([], w.run s) := rfl

/-- A digit needs no more room than one. -/
theorem natural_digit (d : Fin 16) : Text.Hex.natural d = Event.operand d := by
  revert d
  decide

theorem traceRecord_mnemonic (pc : UInt16) (o : Opcode) (i : Instruction) :
    traceRecord pc o i.mnemonic = (Event.decoded pc o i).record := by
  rw [traceRecord, natural_digit, natural_digit]
  rfl

/-- The record of the instruction of a word, or none. -/
def traces (pc : UInt16) (o : Opcode) : Option Instruction → List Log.Record
  | none => []
  | some i => [(Event.decoded pc o i).record]

theorem map_traceRecord (pc : UInt16) (o : Opcode) (i : Option Instruction) :
    ((i.map Instruction.mnemonic).map (traceRecord pc o)).toList = traces pc o i := by
  cases i with
  | none => rfl
  | some i => exact congrArg ([·]) (traceRecord_mnemonic pc o i)

/-- A word does in place what it does without a log, and is traced if it decodes. -/
theorem execute_eq {m : Machine} (hpc : m.processor.pc.toNat + 2 ≤ 4096) (o : Opcode) :
    (execute m.processor.pc o).run (moved m) =
      (traces m.processor.pc o o.decode?, reply m o o.decode?) := by
  obtain ⟨work, hfound, hwork⟩ := finds_arm hpc o
  rw [execute, run_bind, run_quietly, hfound, andThen_done, run_bind, map_traceRecord]
  show ([] ++ (traces m.processor.pc o o.decode? ++ []), work.run (moved m)) = _
  rw [List.nil_append, List.append_nil, hwork]

/-- The warning of a fault comes behind the trace, and putting the program counter back undoes what
the faulting instruction did. -/
theorem warned_reply (m : Machine) (o : Opcode) :
    warned m.processor.pc (traces m.processor.pc o o.decode?, reply m o o.decode?) =
      ((m.carried o).records, (m.carried o).inPlace) := by
  rw [Machine.carried]
  cases o.decode? with
  | none => rfl
  | some i =>
    change warned _ (_, answer m i) = ((m.perform o i).records, (m.perform o i).inPlace)
    simp only [answer, Machine.perform]
    cases m.processor.execute m.random i with
    | error cause => rfl
    | ok next => rfl

theorem carryOut_eq (m : Machine) (h : m.processor.opcode? = some o) :
    (carryOut m.processor.pc o).run m.inPlace =
      ((m.carried o).records, (m.carried o).inPlace) := by
  have hpc : m.processor.pc.toNat + 2 ≤ 4096 := Memory.le_of_opcode? h
  have hforward : forward.run m.inPlace = .done () (moved m) := forward_image m (by omega)
  rw [carryOut, run_bind, run_quietly, hforward, andThen_done, List.nil_append]
  show warned m.processor.pc ((execute m.processor.pc o).run (moved m)) = _
  rw [execute_eq hpc, warned_reply]

/-- A step in place writes the records of the step of the machine, and ends as it does. -/
theorem step_eq (m : Machine) (pad : Keypad) :
    (step pad).run m.inPlace = ((m.step pad).records, (m.step pad).inPlace) := by
  have hfetch : fetch? { m.inPlace with keys := .ofKeypad pad } =
      (m.sample pad).processor.opcode? := fetch?_inPlace (m.sample pad)
  rw [step, run_bind, run_quietly, Work.run_change, andThen_done, run_bind, run_quietly,
    Work.run_state, andThen_done, List.nil_append, List.nil_append]
  cases h : (m.sample pad).processor.opcode? with
  | none =>
    simp only [hfetch, h, Machine.step]
    rfl
  | some o =>
    simp only [hfetch, h, Machine.step]
    exact carryOut_eq (m.sample pad) h

/-- The records of a batch in place are those of its steps, one after another. -/
theorem batch_eq (pad : Keypad) (n : Nat) {last : Machine.Outcome} {flow : Flow}
    (h : last.result = .ok flow) (hgo : flow ≠ .awaitKey) :
    (batch pad flow n).run last.machine.inPlace =
      ((Machine.batchStarts pad n last.machine).flatMap fun m => (m.step pad).records,
        (last.steps pad n).inPlace) := by
  induction n generalizing last flow with
  | zero => rw [batch, run_pure, Machine.Outcome.steps, Machine.Outcome.inPlace, h]; rfl
  | succ n ih =>
    have hlast : last.stopped = false := by
      simp [Machine.Outcome.stopped, h, hgo]
    have hstopped : (last.step pad).stopped = (last.machine.step pad).stopped := rfl
    have hinPlace : (last.step pad).inPlace = (last.machine.step pad).inPlace := rfl
    rw [batch, run_bind, step_eq, Machine.Outcome.steps_succ pad n hlast, Machine.batchStarts,
      ← hinPlace, Machine.Outcome.inPlace]
    cases hr : (last.step pad).result with
    | error fault =>
      have hend : (last.step pad).stopped = true := by simp [Machine.Outcome.stopped, hr]
      simp only [andThen_fault, Machine.Outcome.steps_of_stopped pad n hend,
        Machine.Outcome.inPlace, hr, ← hstopped, hend, if_true, List.flatMap_singleton]
    | ok flow =>
      by_cases hwait : flow = .awaitKey
      · have hend : (last.step pad).stopped = true := by
          simp [Machine.Outcome.stopped, hr, hwait]
        simp only [andThen_done, Machine.Outcome.steps_of_stopped pad n hend,
          Machine.Outcome.inPlace, hr, ← hstopped, hend, if_true, List.flatMap_singleton, hwait,
          run_pure, List.append_nil]
      · have hend : (last.step pad).stopped = false := by
          simp [Machine.Outcome.stopped, hr, hwait]
        have hrest := ih hr hwait
        simp only [andThen_done, ← hstopped, hend, Bool.false_eq_true, if_false, if_neg hwait,
          hrest, List.flatMap_cons]
        rfl

end ChipEight.InPlace.Noted
