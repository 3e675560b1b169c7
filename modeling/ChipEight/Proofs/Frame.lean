import ChipEight.Processor.Execute
import ChipEight.Proofs.Words

/-!
# What an instruction leaves alone

Every part of the processor is changed by a few instructions only, which `Leaves` lists part by
part, and these stand in a few words only. A refused instruction is not carried out, so it leaves
everything.
-/
namespace ChipEight

/-- The operation writes the flag register besides its result. -/
def Operation.setsFlag : Operation → Bool
  | .copy | .or | .and | .xor => false
  | .add | .subtract | .shiftRight | .subtractFrom | .shiftLeft => true

namespace Instruction

/-- The instruction changes the screen. -/
def paints : Instruction → Bool
  | .clear | .draw .. => true
  | _ => false

/-- The instruction sets the index register or moves it. -/
def movesIndex : Instruction → Bool
  | .setIndex _ | .addIndex _ | .glyph _ | .store _ | .load _ => true
  | _ => false

/-- The instruction writes register `r`. -/
def Writes (r : Register) : Instruction → Prop
  | .setByte x _ | .addByte x _ | .random x _ | .readDelay x | .awaitKey x => r = x
  | .operate operation x _ => r = x ∨ operation.setsFlag = true ∧ r = Register.flag
  | .draw .. => r = Register.flag
  | .load x => r ≤ x
  | _ => False

end Instruction

namespace Opcode

/-- The word sets the index register or moves it. -/
def MovesIndex (o : Opcode) : Prop :=
  o.family.val = 0xA ∨ o.Transfers 0x1E ∨ o.Transfers 0x29 ∨ o.Transfers 0x55 ∨ o.Transfers 0x65

/-- What an instruction does not do because its word is none of those that it takes. -/
structure Spares (o : Opcode) (i : Instruction) : Prop where
  draws : o.family.val ≠ 0xC → i.draws = 0 := by exact fun _ => rfl
  paints : o.word ≠ 0x00E0 → o.family.val ≠ 0xD → i.paints = false := by exact fun _ _ => rfl
  movesIndex : ¬ o.MovesIndex → i.movesIndex = false := by exact fun _ => rfl

theorem StandsFor.spares {o : Opcode} {i : Instruction} (h : o.StandsFor i) : o.Spares i := by
  cases i with
  | random => exact { draws := fun hfamily => absurd h.1 hfamily }
  | clear => exact { paints := fun hclear _ => absurd h hclear }
  | draw => exact { paints := fun _ hdraw => absurd h.1 hdraw }
  | setIndex => exact { movesIndex := fun hindex => absurd (.inl h.1) hindex }
  | addIndex => exact { movesIndex := fun hindex => absurd (.inr (.inl h.1)) hindex }
  | glyph => exact { movesIndex := fun hindex => absurd (.inr (.inr (.inl h.1))) hindex }
  | store => exact { movesIndex := fun hindex => absurd (.inr (.inr (.inr (.inl h.1)))) hindex }
  | load => exact { movesIndex := fun hindex => absurd (.inr (.inr (.inr (.inr h.1)))) hindex }
  | _ => exact {}

end Opcode

namespace Processor

theorem of_guarded {ε α : Type} {c : Prop} [Decidable c] {a b : α} {e : ε}
    (h : (if c then Except.ok a else .error e) = .ok b) : c ∧ a = b := by
  split at h
  case isTrue hc => exact ⟨hc, Except.ok.inj h⟩
  case isFalse => cases h

/-- What instruction `i` leaves alone on its way from `p` to `q`. -/
structure Leaves (p q : Processor) (i : Instruction) : Prop where
  screen : q.drawn = false → p.drawn = false ∧ q.screen = p.screen := by exact fun h => ⟨h, rfl⟩
  unpainted : i.paints = false → q.screen = p.screen := by exact fun _ => rfl
  drawn : i.paints = false → q.drawn = p.drawn := by exact fun _ => rfl
  waiting : (∀ x, i ≠ .awaitKey x) → q.waiting = p.waiting := by exact fun _ => rfl
  memory : (∀ x, i ≠ .decimal x) → (∀ x, i ≠ .store x) → q.memory = p.memory := by
    exact fun _ _ => rfl
  stack : (∀ target, i ≠ .call target) → i ≠ .ret → q.stack = p.stack := by exact fun _ _ => rfl
  delay : (∀ x, i ≠ .setDelay x) → q.delay = p.delay := by exact fun _ => rfl
  sound : (∀ x, i ≠ .setSound x) → q.sound = p.sound := by exact fun _ => rfl
  index : i.movesIndex = false → q.index = p.index := by exact fun _ => rfl
  keys : q.keys = p.keys := by exact rfl
  registers : ∀ r, ¬ i.Writes r → q.v r = p.v r := by exact fun _ _ => rfl

variable {p q : Processor} {i : Instruction} {flow : Flow}

theorem exists_of_leave (h : p.leave = .ok (q, flow)) :
    ∃ address stack, p.stack.pop? = some (address, stack) ∧
      q = { p with stack, pc := address } := by
  rw [leave] at h
  split at h
  case h_1 address stack hpop =>
    cases h
    exact ⟨address, stack, hpop, rfl⟩
  case h_2 => cases h

theorem exists_of_enter {target : Target} (h : p.enter target = .ok (q, flow)) :
    ∃ stack, p.stack.push? (p.pc + 2) = some stack ∧
      q = { p with stack, pc := UInt16.ofNat target } := by
  rw [enter] at h
  split at h
  case h_1 stack hpush =>
    cases h
    exact ⟨stack, hpush, rfl⟩
  case h_2 => cases h

theorem exists_of_drawSprite {x y : Register} {rows : Nat}
    (h : p.drawSprite x y rows = .ok (q, flow)) :
    ∃ screen erased, p.screen.draw (p.sprite x y rows) = .ok (screen, erased) ∧
      q = { p.advance with screen, drawn := true, registers := p.registers.setFlag erased } := by
  rw [drawSprite] at h
  split at h
  · split at h
    case h_1 => cases h
    case h_2 screen erased hdraw =>
      cases h
      exact ⟨screen, erased, hdraw, rfl⟩
  · cases h

theorem v_setRegister_of_ne {x r : Register} (b : UInt8) (h : r ≠ x) :
    (p.setRegister x b).v r = p.v r := by
  show (p.registers.write x b).get r = _
  rw [Registers.get_write, if_neg h]
  rfl

theorem v_writeResult_of_ne {x r : Register} {result : UInt8 × Option Bool} (hr : r ≠ x)
    (h : result.2 = none ∨ r ≠ Register.flag) : (p.writeResult x result).v r = p.v r := by
  obtain ⟨b, flag⟩ := result
  cases flag with
  | none => exact v_setRegister_of_ne b hr
  | some flag =>
    show ((p.registers.write x b).setFlag flag).get r = _
    rw [Registers.get_setFlag, if_neg (h.resolve_left nofun), Registers.get_write, if_neg hr]
    rfl

theorem v_loaded_of_lt {x r : Register} (bytes : List UInt8) (h : ¬ r ≤ x) :
    (p.registers.replaceUpTo x bytes).get r = p.v r := by
  rw [Registers.get_replaceUpTo, if_neg h]
  rfl

theorem leaves_awaitKey (x : Register) : p.Leaves (p.awaitKey x).1 (.awaitKey x) := by
  rw [awaitKey]
  split
  · exact {
      waiting := fun hother => absurd rfl (hother x)
      registers := fun r hr => v_setRegister_of_ne (p := p.advance) _ hr }
  · exact { waiting := fun hother => absurd rfl (hother x) }

theorem leaves_operate (operation : Operation) (x y : Register) :
    p.Leaves (p.advance.writeResult x (operation.apply (p.v x) (p.v y)))
      (.operate operation x y) := by
  cases operation with
  | copy | or | and | xor =>
    exact {
      registers := fun r hr =>
        v_writeResult_of_ne (p := p.advance) (fun h => hr (.inl h)) (.inl rfl) }
  | _ =>
    exact {
      registers := fun r hr =>
        v_writeResult_of_ne (p := p.advance) (fun h => hr (.inl h))
          (.inr fun h => hr (.inr ⟨rfl, h⟩)) }

theorem leaves_execute {random : Random.Stream} (h : p.execute random i = .ok (q, flow)) :
    p.Leaves q i := by
  cases i with
  | clear =>
    cases h
    exact { screen := nofun, unpainted := nofun, drawn := nofun }
  | draw x y rows =>
    obtain ⟨screen, erased, -, rfl⟩ := exists_of_drawSprite h
    exact {
      screen := nofun, unpainted := nofun, drawn := nofun
      registers := fun r hr => v_setRegister_of_ne (p := p.advance) erased.toUInt8 hr }
  | ret =>
    obtain ⟨address, stack, -, rfl⟩ := exists_of_leave h
    exact { stack := fun _ hother => absurd rfl hother }
  | call target =>
    obtain ⟨stack, -, rfl⟩ := exists_of_enter h
    exact { stack := fun hother _ => absurd rfl (hother target) }
  | decimal x =>
    cases (of_guarded h).2
    exact { memory := fun hother _ => absurd rfl (hother x) }
  | store x =>
    cases (of_guarded h).2
    exact { memory := fun _ hother => absurd rfl (hother x), index := nofun }
  | load x =>
    cases (of_guarded h).2
    exact { index := nofun, registers := fun r hr => v_loaded_of_lt _ hr }
  | awaitKey x =>
    have hawait : p.awaitKey x = (q, flow) := Except.ok.inj h
    have hleaves := p.leaves_awaitKey x
    rwa [hawait] at hleaves
  | operate operation x y =>
    cases h
    exact leaves_operate operation x y
  | setByte x | addByte x | random x | readDelay x =>
    cases h
    exact { registers := fun r hr => v_setRegister_of_ne (p := p.advance) _ hr }
  | setDelay x =>
    cases h
    exact { delay := fun hother => absurd rfl (hother x) }
  | setSound x =>
    cases h
    exact { sound := fun hother => absurd rfl (hother x) }
  | setIndex | addIndex | glyph =>
    cases h
    exact { index := nofun }
  | jump | skip | jumpFrom =>
    cases h
    exact {}

end Processor

end ChipEight
