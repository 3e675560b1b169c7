import ChipEight.Proofs.Bounds
import ChipEight.Proofs.Request
import ChipEight.Proofs.Words

/-!
# Calls and returns

A return goes back behind the call that it belongs to, whatever the program did in between: other
calls and returns, faults, waits and writes to its own instructions. As long as the call stack stays
deeper than before the call, the addresses that were live right after it are frozen; the step that
takes the stack down to its old depth can only be a return, and it finds the frozen address on top.
-/
namespace ChipEight

theorem CallStack.length_live (s : CallStack) : s.live.length = s.depth := by
  have hdepth := s.depth.isLt
  rw [live, List.length_take, Vector.length_toList]
  omega

/-- An instruction keeps the live addresses, adds the one behind it, or goes to the last one. -/
theorem Processor.Control.live {p : Processor} {i : Instruction} {flow : Flow} {pc : UInt16}
    {stack : CallStack} (h : p.Control i flow pc stack) :
    stack.live = p.stack.live ∨ stack.live = p.stack.live ++ [p.pc + 2] ∨
      (i = .ret ∧ flow = .jump ∧ p.stack.live = stack.live ++ [pc]) := by
  cases h with
  | straight | skip | jump | jumpFrom | key | wait => exact .inl rfl
  | call target hpush => exact .inr (.inl (CallStack.live_push? hpush))
  | ret hpop => exact .inr (.inr ⟨rfl, rfl, CallStack.live_pop? hpop⟩)

namespace Machine

/-- The addresses that the program can still return to, bottom first. -/
def returns (m : Machine) : List UInt16 := m.processor.stack.live

def depth (m : Machine) : Nat := m.processor.stack.depth

/-- The request makes a step or none, and does not start over. -/
def Request.GoesOn (request : Request) : Prop := request.Pauses ∨ ∃ pad, request = .step pad

/-- The machines that requests lead to while more than `depth` addresses stay on the stack. -/
inductive Deeper (depth : Nat) (m : Machine) : Machine → Prop
  | refl : Deeper depth m m
  | serve {n k : Machine} {request : Request} (hn : Deeper depth m n) (hgoes : request.GoesOn)
      (h : n.serve request = .ok k) (hdepth : depth < k.depth) : Deeper depth m k

variable {m n k : Machine} {pad : Keypad} {frame : List UInt16} {request : Request}

theorem length_returns (m : Machine) : m.returns.length = m.depth := m.processor.stack.length_live

theorem Paused.returns (h : m.Paused n) : n.returns = m.returns := by
  obtain ⟨_, _, _, _⟩ := h
  rfl

/-- A step keeps the live addresses, adds one, or takes the last one as its target. -/
theorem returns_step (m : Machine) (pad : Keypad) :
    (m.step pad).machine.returns = m.returns ∨
      (∃ address, (m.step pad).machine.returns = m.returns ++ [address]) ∨
      (m.processor.opcode? = some ⟨0x00EE⟩ ∧ (m.step pad).result = .ok .jump ∧
        m.returns = (m.step pad).machine.returns ++ [(m.step pad).machine.processor.pc]) := by
  have hs := m.stepped pad
  generalize (m.step pad).result = r at hs ⊢
  generalize (m.step pad).machine = n at hs ⊢
  cases hs with
  | unfetched | unknown | refused => exact .inl rfl
  | @executed o i p flow hfetch hdecode hexecute =>
    rcases (Processor.control_execute hexecute).live with hkeep | hadd | ⟨hi, hflow, htake⟩
    · exact .inl hkeep
    · exact .inr (.inl ⟨_, hadd⟩)
    · subst hi
      have hword : o = ⟨0x00EE⟩ := Opcode.ext (Opcode.decode?_of_ret hdecode)
      rw [hword] at hfetch
      exact .inr (.inr ⟨hfetch, congrArg Except.ok hflow, htake⟩)

theorem depth_step (m : Machine) (pad : Keypad) :
    (m.step pad).machine.depth ≤ m.depth + 1 ∧ m.depth ≤ (m.step pad).machine.depth + 1 := by
  have hbefore := m.length_returns
  have hafter := (m.step pad).machine.length_returns
  rcases m.returns_step pad with hkeep | ⟨_, hadd⟩ | ⟨_, _, htake⟩
  · rw [hkeep] at hafter
    omega
  · rw [hadd, List.length_append, List.length_singleton] at hafter
    omega
  · rw [htake, List.length_append, List.length_singleton] at hbefore
    omega

/-- A call that is carried out adds the address behind it. -/
theorem returns_call {o : Opcode} {flow : Flow} (hfetch : m.processor.opcode? = some o)
    (hcall : o.family.val = 0x2) (hok : (m.step pad).result = .ok flow) :
    (m.step pad).machine.returns = m.returns ++ [m.processor.pc + 2] := by
  have hdecode := Opcode.decode?_of_call_family hcall
  have hs := m.stepped pad
  rw [hok] at hs
  generalize (m.step pad).machine = n at hs ⊢
  cases hs with
  | @executed _ i p _ hfetched hdecoded hexecute =>
    rw [hfetch] at hfetched
    cases hfetched
    rw [hdecode] at hdecoded
    cases hdecoded
    have henter : (m.sample pad).processor.enter o.nnn = .ok (p, flow) := hexecute
    rw [Processor.enter] at henter
    split at henter
    case h_1 stack hpush =>
      cases henter
      exact CallStack.live_push? hpush
    case h_2 => cases henter

/-- The step lemma: as long as the stack stays as deep as a frozen part of it, that part stays. -/
theorem frozen_serve (h : n.serve request = .ok k) (hgoes : request.GoesOn)
    (hframe : frame <+: n.returns) (hdepth : frame.length ≤ k.depth) : frame <+: k.returns := by
  rcases hgoes with hpauses | ⟨pad, rfl⟩
  · rw [(paused_serve h hpauses).returns]
    exact hframe
  · cases h
    rw [← length_returns] at hdepth
    rcases n.returns_step pad with hkeep | ⟨address, hadd⟩ | ⟨_, _, htake⟩
    · rw [hkeep]
      exact hframe
    · rw [hadd]
      exact hframe.trans (List.prefix_append _ _)
    · rw [htake] at hframe
      exact List.prefix_of_prefix_length_le hframe (List.prefix_append _ _) hdepth

/-- The run lemma. -/
theorem Deeper.frozen {depth : Nat} (h : Deeper depth m n) (hframe : frame <+: m.returns)
    (hlength : frame.length = depth + 1) : frame <+: n.returns := by
  induction h with
  | refl => exact hframe
  | serve hn hgoes h hdepth ih => exact frozen_serve h hgoes ih (by omega)

/-- What takes the stack down to where it was before a frozen call is the return to that call. -/
theorem return_of_frozen {base : List UInt16} {address : UInt16} (h : n.serve request = .ok k)
    (hgoes : request.GoesOn) (hframe : base ++ [address] <+: n.returns)
    (hdepth : k.depth = base.length) :
    (∃ pad, request = .step pad ∧ n.processor.opcode? = some ⟨0x00EE⟩ ∧
      (n.step pad).result = .ok .jump) ∧
    k.processor.pc = address ∧ k.returns = base := by
  have hlength := hframe.length_le
  rw [List.length_append, List.length_singleton] at hlength
  have hafter := k.length_returns
  rcases hgoes with hpauses | ⟨pad, rfl⟩
  · rw [(paused_serve h hpauses).returns] at hafter
    omega
  · cases h
    rcases n.returns_step pad with hkeep | ⟨_, hadd⟩ | ⟨hfetch, hresult, htake⟩
    · rw [hkeep] at hafter
      omega
    · rw [hadd, List.length_append] at hafter
      omega
    · have hwhole : base ++ [address] = n.returns := by
        apply hframe.eq_of_length
        rw [htake, List.length_append, List.length_append, hafter, hdepth]
        rfl
      obtain ⟨hbase, haddress⟩ := List.append_inj' (hwhole.trans htake) rfl
      exact ⟨⟨pad, rfl, hfetch, hresult⟩, (List.cons.inj haddress).1.symm, hbase.symm⟩

/-- A step changes the depth of the call stack by one at most. After a call is carried out, whatever
requests go on with the program while the stack stays deeper than before: the first one that takes
it back to its old depth is a step, that step carries out `00EE`, the program counter is behind the
call, and the live addresses are those from before it. -/
theorem calls_nest (m : Machine) (pad : Keypad) :
    ((m.step pad).machine.depth ≤ m.depth + 1 ∧ m.depth ≤ (m.step pad).machine.depth + 1) ∧
    ∀ o flow, m.processor.opcode? = some o → o.family.val = 0x2 →
      (m.step pad).result = .ok flow →
      ∀ n, Deeper m.depth (m.step pad).machine n →
        ∀ request k, request.GoesOn → n.serve request = .ok k → k.depth = m.depth →
          (∃ last, request = .step last ∧ n.processor.opcode? = some ⟨0x00EE⟩ ∧
            (n.step last).result = .ok .jump) ∧
          k.processor.pc.toNat = m.processor.pc.toNat + 2 ∧ k.returns = m.returns := by
  refine ⟨m.depth_step pad, ?_⟩
  intro o flow hfetch hcall hok n hdeeper request k hgoes hserve hback
  have hcalled := returns_call hfetch hcall hok
  have hframe : m.returns ++ [m.processor.pc + 2] <+: n.returns := by
    apply hdeeper.frozen
    · exact ⟨[], by rw [List.append_nil, hcalled]⟩
    · rw [List.length_append, length_returns, List.length_singleton]
  obtain ⟨hreturn, hpc, hreturns⟩ :=
    return_of_frozen hserve hgoes hframe (hback.trans m.length_returns.symm)
  have hin : m.processor.pc.toNat + 2 ≤ 4096 := Memory.le_of_opcode? hfetch
  refine ⟨hreturn, ?_, hreturns⟩
  rw [hpc, Processor.toNat_add_two hin]

section Nested

/-- A call whose subroutine makes a call of its own. -/
def nested : List UInt8 := [0x22, 0x04, 0x00, 0x00, 0x22, 0x08, 0x00, 0xEE, 0x00, 0xEE]

/-- The machine at an address of the program. -/
def nesting (pc : UInt16) (stack : CallStack) (keys : KeySet) : Machine :=
  ⟨{ Processor.initial with pc, stack, keys, memory := Memory.initial.store 512 nested },
    .timers, .ofSeed 0, .default⟩

def outerSlots : Vector UInt16 16 := CallStack.empty.slots.set 0 0x202

def innerSlots : Vector UInt16 16 := outerSlots.set 1 0x206

theorem loaded_nested : loaded nested = nesting 0x200 .empty .empty := by
  rw [loaded_of_fits (by decide)]
  rfl

theorem opcode?_nesting {i : Nat} (hi : i + 1 < nested.length) :
    (Memory.initial.store 512 nested).opcode? (512 + i) = some (.ofBytes nested[i] nested[i + 1]) :=
  opcode?_store _ (by decide) hi

variable (keys : KeySet) (pad : Keypad)

theorem step_outer_call :
    ((nesting 0x200 .empty keys).step pad).machine =
        nesting 0x204 ⟨outerSlots, 1⟩ (.ofKeypad pad) ∧
      ((nesting 0x200 .empty keys).step pad).result = .ok .jump :=
  step_of_execute (m := nesting 0x200 .empty keys) (opcode?_nesting (i := 0) (by decide)) rfl rfl

theorem step_inner_call :
    ((nesting 0x204 ⟨outerSlots, 1⟩ keys).step pad).machine =
      nesting 0x208 ⟨innerSlots, 2⟩ (.ofKeypad pad) :=
  (step_of_execute (m := nesting 0x204 ⟨outerSlots, 1⟩ keys)
    (opcode?_nesting (i := 4) (by decide)) rfl rfl).1

theorem step_inner_return :
    ((nesting 0x208 ⟨innerSlots, 2⟩ keys).step pad).machine =
      nesting 0x206 ⟨innerSlots, 1⟩ (.ofKeypad pad) :=
  (step_of_execute (m := nesting 0x208 ⟨innerSlots, 2⟩ keys)
    (opcode?_nesting (i := 8) (by decide)) rfl rfl).1

theorem step_outer_return :
    ((nesting 0x206 ⟨innerSlots, 1⟩ keys).step pad).machine =
      nesting 0x202 ⟨innerSlots, 0⟩ (.ofKeypad pad) :=
  (step_of_execute (m := nesting 0x206 ⟨innerSlots, 1⟩ keys)
    (opcode?_nesting (i := 6) (by decide)) rfl rfl).1

/-- A tick right after the outer call, then the inner call and its return. -/
theorem deeper_nesting :
    Deeper 0 (nesting 0x204 ⟨outerSlots, 1⟩ (.ofKeypad pad))
      (nesting 0x206 ⟨innerSlots, 1⟩ (.ofKeypad pad)) := by
  have htick : Request.GoesOn .tick := .inl trivial
  have hstep : Request.GoesOn (.step pad) := .inr ⟨pad, rfl⟩
  have hidle : (nesting 0x204 ⟨outerSlots, 1⟩ (.ofKeypad pad)).serve .tick =
      .ok (nesting 0x204 ⟨outerSlots, 1⟩ (.ofKeypad pad)) := by
    rw [serve, tick_of_idle _ rfl]
  have hticked := Deeper.refl.serve htick hidle (Nat.succ_pos 0)
  have hcalled := hticked.serve hstep (congrArg Except.ok (step_inner_call _ pad)) (Nat.succ_pos 1)
  exact hcalled.serve hstep (congrArg Except.ok (step_inner_return _ pad)) (Nat.succ_pos 0)

theorem nested_calls_return :
    ∃ n, Deeper 0 ((loaded nested).step fun _ => false).machine n ∧
      (n.step fun _ => false).machine.depth = 0 ∧
      n.processor.opcode? = some ⟨0x00EE⟩ ∧
      (n.step fun _ => false).machine.processor.pc.toNat = 0x202 ∧
      (n.step fun _ => false).machine.returns = [] := by
  obtain ⟨hcalled, hok⟩ := step_outer_call .empty fun _ => false
  have hdeeper := deeper_nesting fun _ => false
  rw [← hcalled] at hdeeper
  have hback : (step (nesting 0x206 ⟨innerSlots, 1⟩ (.ofKeypad fun _ => false))
      fun _ => false).machine.depth = 0 := by
    rw [step_outer_return]
    rfl
  obtain ⟨_, hnests⟩ := calls_nest (nesting 0x200 .empty .empty) fun _ => false
  obtain ⟨⟨_, _, hfetch, _⟩, hpc, hreturns⟩ :=
    hnests ⟨0x2204⟩ .jump (opcode?_nesting (i := 0) (by decide)) rfl hok _ hdeeper
      (.step fun _ => false) _ (.inr ⟨_, rfl⟩) rfl hback
  rw [loaded_nested]
  exact ⟨_, hdeeper, hback, hfetch, hpc, hreturns⟩

end Nested

end Machine

end ChipEight
