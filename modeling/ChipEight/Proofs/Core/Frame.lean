import ChipEight.Core.Execute
import ChipEight.Proofs.Memory.Access

namespace ChipEight

namespace Request

/-- Whatever the devices answer, a core that the request ends in satisfies `P`. -/
def Leaves (P : Core → Prop) : Request → Prop
  | .done core => P core
  | .fail _ => True
  | .clearScreen core => P core
  | .draw _ _ _ resume => ∀ hit, P (resume hit)
  | .testKey _ resume => ∀ down, P (resume down)
  | .awaitKey resume => ∀ key core, resume key = .ok core → P core
  | .randomByte resume => ∀ b, P (resume b)

theorem Leaves.imp {P Q : Core → Prop} {r : Request} (h : r.Leaves P)
    (himp : ∀ core, P core → Q core) : r.Leaves Q := by
  cases r with
  | done core => exact himp core h
  | fail fault => trivial
  | clearScreen core => exact himp core h
  | draw x y sprite resume => exact fun hit => himp _ (h hit)
  | testKey key resume => exact fun down => himp _ (h down)
  | awaitKey resume => exact fun key core hc => himp core (h key core hc)
  | randomByte resume => exact fun b => himp _ (h b)

theorem leaves_ofExcept {P : Core → Prop} {result : Except Fault Core} :
    (ofExcept result).Leaves P ↔ ∀ core, result = .ok core → P core := by
  cases result with
  | error fault => simp [ofExcept, Leaves]
  | ok core => simp [ofExcept, Leaves]

end Request

namespace Core

theorem call_eq_ok_iff {c c' : Core} {target : UInt16} :
    c.call target = .ok c' ↔
      ∃ h : c.sp.toNat < stackDepth,
        c' = { c with stack := c.stack.set c.sp.toNat c.pc, sp := c.sp + 1, pc := target } := by
  by_cases h : c.sp.toNat < stackDepth <;> simp [call, h, eq_comm]

theorem ret_eq_ok_iff {c c' : Core} :
    c.ret = .ok c' ↔
      ∃ depth target, c.sp.toNat = depth + 1 ∧ c.stack[depth]? = some target ∧
        c' = { c with sp := c.sp - 1, pc := target } := by
  by_cases hz : c.sp = 0
  · simp [ret, returnAddress?, hz]
  · have hpos : c.sp.toNat ≠ 0 := fun h => hz (UInt16.toNat_inj.1 h)
    obtain ⟨depth, hdepth⟩ := Nat.exists_eq_add_one_of_ne_zero hpos
    cases ht : c.stack[depth]? with
    | none => simp [ret, returnAddress?, hz, hdepth, ht]
    | some target => simp [ret, returnAddress?, hz, hdepth, ht, eq_comm]

theorem storeAtIndex_eq_ok_iff {c c' : Core} {bytes : List UInt8} :
    c.storeAtIndex bytes = .ok c' ↔
      ∃ memory, c.memory.writeAll c.i.toNat bytes = .ok memory ∧ c' = { c with memory } := by
  unfold storeAtIndex
  cases c.memory.writeAll c.i.toNat bytes with
  | error fault => simp [bind, Except.bind]
  | ok memory => simp [bind, Except.bind, pure, Except.pure, eq_comm]

theorem loadRegisters_eq_ok_iff {c c' : Core} {x : Register} :
    c.loadRegisters x = .ok c' ↔
      ∃ bytes, c.memory.slice c.i.toNat (x.val + 1) = .ok bytes ∧ c' = c.setRegisters bytes := by
  unfold loadRegisters
  cases c.memory.slice c.i.toNat (x.val + 1) with
  | error fault => simp [bind, Except.bind]
  | ok bytes => simp [bind, Except.bind, pure, Except.pure, eq_comm]

theorem acceptKey_eq_ok_iff {c c' : Core} {x : Register} {key : UInt8} :
    c.acceptKey x key = .ok c' ↔ key ≤ 0xF ∧ c' = c.setV x key := by
  unfold acceptKey
  split
  next h => simp [h, eq_comm]
  next h => simp [h]

theorem leaves_storeAtIndex {P : Core → Prop} {c : Core} {bytes : List UInt8}
    (h : ∀ memory, c.memory.writeAll c.i.toNat bytes = .ok memory → P { c with memory }) :
    (Request.ofExcept (c.storeAtIndex bytes)).Leaves P := by
  refine Request.leaves_ofExcept.2 fun c' hc => ?_
  obtain ⟨memory, hwrite, rfl⟩ := storeAtIndex_eq_ok_iff.1 hc
  exact h memory hwrite

theorem leaves_loadRegisters {P : Core → Prop} {c : Core} {x : Register}
    (h : ∀ bytes, P (c.setRegisters bytes)) :
    (Request.ofExcept (c.loadRegisters x)).Leaves P := by
  refine Request.leaves_ofExcept.2 fun c' hc => ?_
  obtain ⟨bytes, _, rfl⟩ := loadRegisters_eq_ok_iff.1 hc
  exact h bytes

theorem leaves_awaitKey {P : Core → Prop} {c : Core} {x : Register}
    (h : ∀ key, P (c.setV x key)) : (c.execute (.awaitKey x)).Leaves P := by
  intro key c' hc
  obtain ⟨_, rfl⟩ := acceptKey_eq_ok_iff.1 hc
  exact h key

theorem leaves_draw {P : Core → Prop} {c : Core} {x y : Register} {n : UInt8}
    (h : ∀ hit : Bool, P (c.setV .flag hit.toUInt8)) : (c.execute (.draw x y n)).Leaves P := by
  simp only [execute]
  split
  · exact h
  · trivial

/-- What executing an instruction cannot have changed from one core to another. -/
structure Framed (instruction : Instruction) (c c' : Core) : Prop where
  stack : instruction ≠ .ret → (∀ nnn, instruction ≠ .call nnn) → c'.sp = c.sp ∧ c'.stack = c.stack
  delay : (∀ x, instruction ≠ .setDelay x) → c'.delay = c.delay
  sound : (∀ x, instruction ≠ .setSound x) → c'.sound = c.sound
  memory : (∀ x, instruction ≠ .storeDecimal x) → (∀ x, instruction ≠ .storeRegisters x) →
    c'.memory = c.memory

theorem Framed.of_eq {c c' : Core} (instruction : Instruction)
    (h : c' = { c with v := c'.v, i := c'.i, pc := c'.pc }) : c.Framed instruction c' := by
  rw [h]
  exact ⟨fun _ _ => ⟨rfl, rfl⟩, fun _ => rfl, fun _ => rfl, fun _ _ => rfl⟩

theorem Framed.skipIf (c : Core) (instruction : Instruction) (condition : Bool) :
    c.Framed instruction (c.skipIf condition) := by
  cases condition <;> exact .of_eq instruction rfl

theorem Framed.setRegisters (c : Core) (instruction : Instruction) (bytes : List UInt8) :
    c.Framed instruction (c.setRegisters bytes) := by
  unfold Core.setRegisters
  generalize Vector.ofFn _ = v
  exact .of_eq instruction rfl

theorem framed_execute (c : Core) (instruction : Instruction) :
    (c.execute instruction).Leaves (c.Framed instruction) := by
  cases instruction with
  | ret =>
    refine Request.leaves_ofExcept.2 fun c' h => ?_
    obtain ⟨_, _, _, _, rfl⟩ := ret_eq_ok_iff.1 h
    exact ⟨fun hne => absurd rfl hne, fun _ => rfl, fun _ => rfl, fun _ _ => rfl⟩
  | call nnn =>
    refine Request.leaves_ofExcept.2 fun c' h => ?_
    obtain ⟨_, rfl⟩ := call_eq_ok_iff.1 h
    exact ⟨fun _ hne => absurd rfl (hne nnn), fun _ => rfl, fun _ => rfl, fun _ _ => rfl⟩
  | skipEqByte x kk => exact .skipIf c _ _
  | skipNeByte x kk => exact .skipIf c _ _
  | skipEq x y => exact .skipIf c _ _
  | skipNe x y => exact .skipIf c _ _
  | skipKeyDown x => exact fun down => .skipIf c _ down
  | skipKeyUp x => exact fun down => .skipIf c _ !down
  | random x kk => exact fun b => .of_eq _ rfl
  | draw x y n => exact leaves_draw fun hit => .of_eq _ rfl
  | awaitKey x => exact leaves_awaitKey fun key => .of_eq _ rfl
  | setDelay x =>
    exact ⟨fun _ _ => ⟨rfl, rfl⟩, fun hne => absurd rfl (hne x), fun _ => rfl, fun _ _ => rfl⟩
  | setSound x =>
    exact ⟨fun _ _ => ⟨rfl, rfl⟩, fun _ => rfl, fun hne => absurd rfl (hne x), fun _ _ => rfl⟩
  | storeDecimal x =>
    refine leaves_storeAtIndex fun memory _ => ?_
    exact ⟨fun _ _ => ⟨rfl, rfl⟩, fun _ => rfl, fun _ => rfl, fun hne _ => absurd rfl (hne x)⟩
  | storeRegisters x =>
    refine leaves_storeAtIndex fun memory _ => ?_
    exact ⟨fun _ _ => ⟨rfl, rfl⟩, fun _ => rfl, fun _ => rfl, fun _ hne => absurd rfl (hne x)⟩
  | loadRegisters x => exact leaves_loadRegisters fun bytes => .setRegisters c _ bytes
  | _ => exact .of_eq _ rfl

theorem size_memory_execute (c : Core) (instruction : Instruction) :
    (c.execute instruction).Leaves (·.memory.size = c.memory.size) := by
  cases instruction with
  | storeDecimal x => exact leaves_storeAtIndex fun memory hwrite => Memory.size_of_writeAll hwrite
  | storeRegisters x => exact leaves_storeAtIndex fun memory hwrite => Memory.size_of_writeAll hwrite
  | _ =>
    refine (c.framed_execute _).imp fun c' hframed => ?_
    exact congrArg Memory.size (hframed.memory nofun nofun)

end Core

end ChipEight
