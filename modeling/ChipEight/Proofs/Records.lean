import ChipEight.Proofs.InPlace.Trace
import ChipEight.Proofs.Refusal

/-!
# What steps write down

A step without a word writes nothing. Any other traces its word if that stands for an instruction,
and then warns of the fault if there is one. A batch writes what its steps write.
-/
namespace ChipEight.Machine

open InPlace.Noted (traceRecord faultRecord traceRecord_mnemonic)

variable {m : Machine} {pad : Keypad}

/-- The ends of a step, with what is written. -/
inductive Wrote (m : Machine) : Except Fault Flow → List Log.Record → Prop
  | unfetched {fault : Fault} (hfetch : m.processor.opcode? = none) : Wrote m (.error fault) []
  | unknown {o : Opcode} (hfetch : m.processor.opcode? = some o) (hdecode : o.decode? = none) :
      Wrote m (.error ⟨m.processor.pc, .unknownOpcode o⟩)
        [faultRecord ⟨m.processor.pc, .unknownOpcode o⟩]
  | refused {o : Opcode} {i : Instruction} {cause : Fault.Cause}
      (hfetch : m.processor.opcode? = some o) (hdecode : o.decode? = some i)
      (hknown : ∀ w, cause ≠ .unknownOpcode w) :
      Wrote m (.error ⟨m.processor.pc, cause⟩)
        [traceRecord m.processor.pc o i.mnemonic, faultRecord ⟨m.processor.pc, cause⟩]
  | executed {o : Opcode} {i : Instruction} {flow : Flow}
      (hfetch : m.processor.opcode? = some o) (hdecode : o.decode? = some i) :
      Wrote m (.ok flow) [traceRecord m.processor.pc o i.mnemonic]

theorem wrote (m : Machine) (pad : Keypad) : m.Wrote (m.step pad).result (m.step pad).records := by
  have hsampled : (m.sample pad).processor.opcode? = m.processor.opcode? := rfl
  simp only [step, hsampled]
  cases hfetch : m.processor.opcode? with
  | none => exact .unfetched hfetch
  | some o =>
    dsimp only
    cases hdecode : o.decode? with
    | none => exact .unknown hfetch hdecode
    | some i =>
      have hrandom : (m.sample pad).random = m.random := rfl
      simp only [perform, hrandom]
      cases hexecute : (m.sample pad).processor.execute m.random i with
      | error cause =>
        have hknown := (Processor.refusal_execute hexecute).ne_unknownOpcode
        have hrefused : m.Wrote _ _ := .refused hfetch hdecode hknown
        rw [traceRecord_mnemonic] at hrefused
        exact hrefused
      | ok reached =>
        have hexecuted : m.Wrote (.ok reached.2) _ := .executed hfetch hdecode
        rw [traceRecord_mnemonic] at hexecuted
        exact hexecuted

/-- The result of a step on a word that stands for no instruction. -/
def unknownResult : Except Fault Flow → Bool
  | .error ⟨_, .unknownOpcode _⟩ => true
  | _ => false

def warnings : Except Fault Flow → List Log.Record
  | .ok _ => []
  | .error fault => [faultRecord fault]

/-- The records of a step that ends with a result: nothing without a word, else a trace of the word
unless it is unknown, and a warning if the step failed. -/
def stepRecords (m : Machine) (name : String) (result : Except Fault Flow) : List Log.Record :=
  match m.processor.opcode? with
  | none => []
  | some o =>
    (if unknownResult result then [] else [traceRecord m.processor.pc o name]) ++ warnings result

variable {result : Except Fault Flow} {records : List Log.Record}

theorem unknownResult_of_known {pc : UInt16} {cause : Fault.Cause}
    (h : ∀ w, cause ≠ .unknownOpcode w) : unknownResult (.error ⟨pc, cause⟩) = false := by
  cases cause with
  | unknownOpcode w => exact absurd rfl (h w)
  | _ => rfl

theorem Wrote.exists_eq (h : m.Wrote result records) :
    ∃ name, records = m.stepRecords name result := by
  cases h with
  | unfetched hfetch => exact ⟨"", by rw [stepRecords, hfetch]⟩
  | unknown hfetch => exact ⟨"", by rw [stepRecords, hfetch]; rfl⟩
  | @refused o i cause hfetch hdecode hknown =>
    refine ⟨i.mnemonic, ?_⟩
    simp only [stepRecords, hfetch, unknownResult_of_known hknown, Bool.false_eq_true, if_false]
    rfl
  | @executed o i flow hfetch hdecode =>
    refine ⟨i.mnemonic, ?_⟩
    simp only [stepRecords, hfetch]
    rfl

/-- A step traces once if it decodes its word, and otherwise not at all. -/
theorem Wrote.countP_trace (h : m.Wrote result records) :
    records.countP (fun r => r.level = .trace) = if m.decodes then 1 else 0 := by
  cases h with
  | unfetched hfetch => simp [decodes, hfetch]
  | unknown hfetch hdecode => simp [decodes, hfetch, hdecode, faultRecord]
  | refused hfetch hdecode => simp [decodes, hfetch, hdecode, faultRecord, traceRecord]
  | executed hfetch hdecode => simp [decodes, hfetch, hdecode, traceRecord]

section Batch

theorem records_step (last : Outcome) (pad : Keypad) :
    (last.step pad).records = last.records ++ (last.machine.step pad).records := by
  simp [Outcome.records, Outcome.step]

theorem records_steps (pad : Keypad) (n : Nat) {last : Outcome} (h : last.stopped = false) :
    (last.steps pad n).records =
      last.records ++ (batchStarts pad n last.machine).flatMap fun m => (m.step pad).records := by
  induction n generalizing last with
  | zero => exact (List.append_nil _).symm
  | succ n ih =>
    have hstopped : (last.step pad).stopped = (last.machine.step pad).stopped := rfl
    rw [Outcome.steps_succ pad n h, batchStarts]
    cases hend : (last.step pad).stopped with
    | true =>
      rw [Outcome.steps_of_stopped pad n hend, records_step]
      simp [← hstopped, hend]
    | false =>
      rw [← hstopped, hend, if_neg Bool.false_ne_true, ih hend, records_step, List.append_assoc]
      rfl

theorem records_run (m : Machine) (pad : Keypad) (n : Nat) :
    (m.run n pad).records = (batchStarts pad n m).flatMap fun m => (m.step pad).records :=
  records_steps pad n rfl

theorem map_result_batchStarts (m : Machine) (pad : Keypad) (n : Nat) :
    (batchStarts pad n m).map (fun m => (m.step pad).result) = batchResults pad n m := by
  induction n generalizing m with
  | zero => rfl
  | succ n ih =>
    rw [batchStarts, batchResults]
    cases hend : (m.step pad).stopped with
    | true => rfl
    | false => simp [ih]

theorem countP_trace_flatMap (pad : Keypad) (starts : List Machine) :
    (starts.flatMap fun m => (m.step pad).records).countP (fun r => r.level = .trace) =
      starts.countP decodes := by
  induction starts with
  | nil => rfl
  | cons m rest ih =>
    rw [List.flatMap_cons, List.countP_append, ih, (m.wrote pad).countP_trace, List.countP_cons,
      Nat.add_comm]

end Batch

end ChipEight.Machine
