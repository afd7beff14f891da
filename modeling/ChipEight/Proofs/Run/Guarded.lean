import ChipEight.Keypad.Script
import ChipEight.Proofs.Core.Guarded
import ChipEight.Proofs.Machine.CallStack
import ChipEight.Proofs.Run.Reach
import ChipEight.Proofs.Run.Unfolding

namespace ChipEight

open Guarded

namespace Sprite

def guardedRowDots (x y : Nat) (row : UInt8) : Guarded (List Dot) :=
  (List.range 8).mapM fun k => do
    let across ← below longBound (x + k)
    let across ← remainder across Display.width
    let shift ← minus 7 k
    let shift ← below 8 shift
    return ⟨across, y, row.toNat >>> shift % 2 = 1⟩

def guardedDots (x y : Nat) (rows : List UInt8) : Guarded (List Dot) := do
  let lines ← rows.zipIdx.mapM fun (row, k) => do
    let down ← below longBound (y + k)
    let down ← remainder down Display.height
    guardedRowDots x down row
  return lines.flatten

theorem rowDots_eq_map (x y : Nat) (row : UInt8) :
    rowDots x y row = (List.range 8).map fun k =>
      ⟨(x + k) % Display.width, y % Display.height, row.toNat >>> (7 - k) % 2 = 1⟩ := by
  refine List.ext_getElem (by simp [rowDots, bits]) fun k hk _ => ?_
  simp [rowDots, bits, Nat.testBit_eq_decide_div_mod_eq, Nat.shiftRight_eq_div_pow]

theorem guardedRowDots_eq_ok {x : Nat} (h : x + 8 ≤ longBound) (y : Nat) (row : UInt8) :
    guardedRowDots x (y % Display.height) row = .ok (rowDots x y row) := by
  rw [rowDots_eq_map]
  refine mapM_eq_ok fun k hk => ?_
  have hlt : k < 8 := List.mem_range.1 hk
  rw [below_eq_ok (by omega), ok_bind, remainder_eq_ok _ (by decide), ok_bind,
    minus_eq_ok (by omega), ok_bind, below_eq_ok (by omega)]
  rfl

theorem guardedDots_eq_ok {x y : Nat} {rows : List UInt8} (hx : x + 8 ≤ longBound)
    (hy : y + rows.length ≤ longBound) : guardedDots x y rows = .ok (dots x y rows) := by
  have hlines : rows.zipIdx.mapM (fun (row, k) => do
      let down ← below longBound (y + k)
      let down ← remainder down Display.height
      guardedRowDots x down row) = .ok (rows.zipIdx.map fun (row, k) => rowDots x (y + k) row) := by
    refine mapM_eq_ok ?_
    rintro ⟨row, k⟩ hmem
    have hlt := List.snd_lt_of_mem_zipIdx hmem
    simp only
    rw [below_eq_ok (by omega), ok_bind, remainder_eq_ok _ (by decide), ok_bind]
    exact guardedRowDots_eq_ok hx (y + k) row
  rw [guardedDots, hlines, dots, List.mapIdx_eq_zipIdx_map]
  rfl

end Sprite

def KeyScript.guardedSetHeld (k : KeyScript) (key : UInt8) (down : Bool) : Guarded KeyScript := do
  let held ← put k.held (key &&& 0xF).toNat down
  return { k with held }

theorem KeyScript.guardedSetHeld_eq_ok (k : KeyScript) (key : UInt8) (down : Bool) :
    k.guardedSetHeld key down = .ok (k.setHeld key down) := by
  have hplace : (key &&& 0xF).toNat = (place key).val := by
    rw [UInt8.toNat_and]
    exact Nat.and_two_pow_sub_one_eq_mod _ 4
  rw [guardedSetHeld, hplace, put_eq_ok (place key).isLt]
  rfl

def Picture.guardedSetPixel (p : Picture) (x y : Nat) (on : Bool) : Guarded (Bool × Picture) := do
  let down ← remainder y Display.height
  let across ← remainder x Display.width
  let lit ← get p.dots.toList (down * Display.width + across)
  let dots ← put p.dots (down * Display.width + across) (lit ^^ on)
  return (on && lit, ⟨dots⟩)

theorem Picture.guardedSetPixel_eq_ok (p : Picture) (x y : Nat) (on : Bool) :
    p.guardedSetPixel x y on = .ok (p.setPixel x y on) := by
  have hplace : y % Display.height * Display.width + x % Display.width = (place x y).val := rfl
  have hlit : get p.dots.toList (place x y).val = .ok (p.pixel x y) :=
    get_eq_ok (by simp [pixel])
  rw [guardedSetPixel, remainder_eq_ok _ (by decide), ok_bind, remainder_eq_ok _ (by decide),
    ok_bind, hplace, hlit, ok_bind, put_eq_ok (place x y).isLt]
  rfl

namespace ByteTape

def guardedNext (t : ByteTape) : Guarded (UInt8 × ByteTape) :=
  if t.bytes.size = 0 then return (0, t)
  else do
    let b ← get t.bytes.toList t.position
    let position ← remainder (t.position + 1) t.bytes.size
    return (b, { t with position })

def guardedTake (t : ByteTape) : Nat → Guarded (List UInt8)
  | 0 => return []
  | count + 1 => do
    let (b, t) ← t.guardedNext
    let bs ← t.guardedTake count
    return b :: bs

/-- The place of the next byte is on the tape, unless the tape is empty. -/
def OnTape (t : ByteTape) : Prop := t.position < t.bytes.size ∨ t.bytes.size = 0

theorem OnTape.next {t : ByteTape} (h : t.OnTape) : t.next.2.OnTape := by
  unfold ByteTape.next
  cases hb : t.bytes[t.position]? with
  | none => exact h
  | some b =>
    obtain ⟨hlt, _⟩ := Array.getElem?_eq_some_iff.1 hb
    exact .inl (Nat.mod_lt _ (Nat.zero_lt_of_lt hlt))

theorem guardedNext_eq_ok {t : ByteTape} (h : t.OnTape) : t.guardedNext = .ok t.next := by
  unfold guardedNext ByteTape.next
  obtain hlt | hempty := h
  · have hb := Array.getElem?_eq_getElem hlt
    have hget : get t.bytes.toList t.position = .ok t.bytes[t.position] :=
      get_eq_ok (by rw [Array.getElem?_toList, hb])
    have hpos : 0 < t.bytes.size := Nat.zero_lt_of_lt hlt
    rw [if_neg (Nat.ne_of_gt hpos), hget, ok_bind, remainder_eq_ok _ hpos, hb]
    rfl
  · rw [if_pos hempty, Array.getElem?_eq_none (by omega)]
    rfl

theorem guardedTake_eq_ok {t : ByteTape} (h : t.OnTape) (count : Nat) :
    t.guardedTake count = .ok (t.take count) := by
  induction count generalizing t with
  | zero => rfl
  | succ count ih =>
    simp only [guardedTake, guardedNext_eq_ok h, ok_bind, ih h.next]
    rfl

theorem onTape_ofBytes (bytes : List UInt8) : (ofBytes bytes).OnTape := by
  cases bytes with
  | nil => exact .inr rfl
  | cons b bytes => exact .inl (Nat.succ_pos _)

end ByteTape

namespace Request

/-- What is drawn is drawn where there is room to count on from. -/
def Drawable : Request → Prop
  | .draw x y sprite _ => x + 8 ≤ longBound ∧ y + sprite.length ≤ longBound
  | _ => True

theorem drawable_ofExcept (result : Except Fault Core) : (ofExcept result).Drawable := by
  cases result with
  | error fault => trivial
  | ok core => trivial

end Request

theorem Core.execute_drawable (c : Core) (instruction : Instruction) :
    (c.execute instruction).Drawable := by
  cases instruction with
  | draw x y n =>
    simp only [Core.execute]
    cases hs : c.memory.slice c.i.toNat n.toNat with
    | error fault => trivial
    | ok sprite =>
      have hx := (c.getV x).toNat_lt
      have hy := (c.getV y).toNat_lt
      have hn := n.toNat_lt
      have hlen := Memory.length_of_slice hs
      simp only [Request.Drawable, longBound]
      omega
  | ret => exact Request.drawable_ofExcept _
  | call nnn => exact Request.drawable_ofExcept _
  | storeDecimal x => exact Request.drawable_ofExcept _
  | storeRegisters x => exact Request.drawable_ofExcept _
  | loadRegisters x => exact Request.drawable_ofExcept _
  | _ => trivial

def Pacing.guardedFrameDue (p : Pacing) (frameTime stepsPerFrame : Nat) (clock : Nat → Nat)
    (steps : Nat) : Guarded Bool :=
  if p.fastForward then do
    let rest ← remainder steps stepsPerFrame
    return rest = 0
  else return frameTime ≤ clock steps

theorem Pacing.guardedFrameDue_eq_ok (p : Pacing) (clock : Nat → Nat) (steps : Nat) :
    p.guardedFrameDue p.frameTime p.stepsPerFrame clock steps =
      .ok (decide (p.FrameDue clock steps)) := by
  have hpos : 0 < p.stepsPerFrame := Nat.lt_of_lt_of_le Nat.zero_lt_one (Nat.le_max_left _ _)
  unfold guardedFrameDue
  by_cases hfast : p.fastForward = true
  · have hdue : p.FrameDue clock steps ↔ steps % p.stepsPerFrame = 0 := by
      rw [FrameDue, if_pos hfast]
    rw [if_pos hfast, remainder_eq_ok _ hpos, ok_bind]
    exact congrArg Except.ok (decide_eq_decide.2 hdue.symm)
  · have hdue : p.FrameDue clock steps ↔ p.frameTime ≤ clock steps := by
      rw [FrameDue, if_neg hfast]
    rw [if_neg hfast]
    exact congrArg Except.ok (decide_eq_decide.2 hdue.symm)

namespace Machine

variable {δ κ ρ : Type}

def guardedBoot (config : Config) (display : δ) (keypad : κ) (random : ρ) (journal : Journal) :
    Guarded (Except Fault (Machine δ κ ρ)) := do
  let written ←
    (Memory.zeroed config.memorySize).guardedWriteAll Font.address.toNat Font.spriteSheet
  return written.map fun memory =>
    { config, display, keypad, random, frames := 0
      core := ⟨.replicate 16 0, 0, config.programStart, 0, .replicate stackDepth 0, 0, 0, memory⟩
      journal := journal.note (.loaded Font.spriteSheet.length Font.address.toNat) }

def guardedLoad (m : Machine δ κ ρ) (source : ByteSource) (offset : UInt16) :
    Guarded (Except Fault Nat × Machine δ κ ρ) := do
  match ← m.core.memory.guardedLoad source offset.toNat with
  | .ok (count, memory) =>
    return (.ok count,
      { m with core := { m.core with memory } }.note (.loaded count offset.toNat))
  | .error fault => return (.error fault, m)

section Operations

variable [Display δ] [Keypad κ] [RandomSource ρ]

def guardedServe (m : Machine δ κ ρ) : Request → Guarded (Except Fault Unit × Machine δ κ ρ)
  | .draw x y sprite resume => do
    let dots ← Sprite.guardedDots x y sprite
    let (hit, display) := Display.drawDots m.display dots
    return (.ok (), { m with core := resume hit, display })
  | request => return m.serve request

def guardedExecute (m : Machine δ κ ρ) (pc : UInt16) (word : Word) :
    Guarded (Except Fault Unit × Machine δ κ ρ) := do
  match ← Instruction.guardedDecode word with
  | some instruction =>
    let request ← m.core.guardedExecute instruction
    (m.note (.executing pc word instruction)).guardedServe request
  | none => return m.execute pc word

def guardedStep (m : Machine δ κ ρ) : Guarded (Except Fault Unit × Machine δ κ ρ) := do
  match ← m.core.guardedFetch with
  | .error fault => return (.error fault, m)
  | .ok word =>
    let pc := m.core.pc
    let (result, m) ← { m with core := m.core.advance }.guardedExecute pc word
    return (result.mapError (.instruction pc word), m)

def guardedTurn (m : Machine δ κ ρ) (p : Pacing) (steps : Nat) :
    Guarded (Option (Except Fault Outcome) × Machine δ κ ρ) :=
  if p.Exhausted steps then
    let (result, m) := m.finish (.stepLimit steps)
    return (some result, m)
  else do
    let pc := m.core.pc
    match ← m.guardedStep with
    | (.error fault, m) => return (some (.error fault), m)
    | (.ok (), m) =>
      if m.core.pc = pc then
        let (result, m) := (m.note (.halted pc (steps + 1))).finish (.halted (steps + 1))
        return (some result, m)
      else return (none, m)

def guardedRunWithin (p : Pacing) (frameTime stepsPerFrame : Nat) (clock : Nat → Nat) :
    Nat → Nat → Machine δ κ ρ → Guarded (Option (Except Fault Outcome) × Machine δ κ ρ)
  | 0, _, m => return (none, m)
  | fuel + 1, steps, m => do
    match ← m.guardedTurn p steps with
    | (some result, m) => return (some result, m)
    | (none, m) =>
      let due ← p.guardedFrameDue frameTime stepsPerFrame clock (steps + 1)
      if due then
        match m.frame with
        | (.error fault, m) => return (some (.error fault), m)
        | (.ok (), m) => guardedRunWithin p frameTime stepsPerFrame clock fuel (steps + 1) m
      else guardedRunWithin p frameTime stepsPerFrame clock fuel (steps + 1) m

def guardedRun (m : Machine δ κ ρ) (p : Pacing) (clock : Nat → Nat) :
    Guarded (Option (Except Fault Outcome) × Machine δ κ ρ) := do
  let _stepTime ← quotient 1000000000 (Pacing.perSecond p.clockSpeed)
  let frameTime ← quotient 1000000000 (Pacing.perSecond p.timerSpeed)
  let rate ← quotient p.clockSpeed.toNat (Pacing.perSecond p.timerSpeed)
  guardedRunWithin p frameTime (max 1 rate) clock longestRun 0 m

end Operations

theorem guardedBoot_eq_ok (config : Config) (display : δ) (keypad : κ) (random : ρ)
    (journal : Journal) :
    guardedBoot config display keypad random journal =
      .ok (boot config display keypad random journal) := by
  rw [guardedBoot, Memory.guardedWriteAll_eq_ok, ok_bind, boot, Core.boot]
  cases (Memory.zeroed config.memorySize).writeAll Font.address.toNat Font.spriteSheet with
  | error fault => rfl
  | ok memory => rfl

theorem guardedLoad_eq_ok (m : Machine δ κ ρ) (source : ByteSource) (offset : UInt16) :
    m.guardedLoad source offset = .ok (m.load source offset) := by
  rw [guardedLoad, Memory.guardedLoad_eq_ok, ok_bind, load]
  cases m.core.memory.load source offset.toNat with
  | error fault => rfl
  | ok loaded => rfl

variable [Display δ] [Keypad κ] [RandomSource ρ] {m : Machine δ κ ρ}

theorem guardedServe_eq_ok (m : Machine δ κ ρ) {request : Request} (h : request.Drawable) :
    m.guardedServe request = .ok (m.serve request) := by
  cases request with
  | draw x y sprite resume =>
    rw [guardedServe, Sprite.guardedDots_eq_ok h.1 h.2]
    rfl
  | _ => rfl

theorem guardedExecute_eq_ok (h : m.core.sp.toNat ≤ stackDepth) (pc : UInt16) (word : Word) :
    m.guardedExecute pc word = .ok (m.execute pc word) := by
  rw [guardedExecute, Instruction.guardedDecode_eq_ok, ok_bind]
  cases hd : Instruction.decode word with
  | none => rfl
  | some instruction =>
    simp only [Core.guardedExecute_eq_ok _ h hd, ok_bind,
      guardedServe_eq_ok _ (m.core.execute_drawable instruction), execute, hd]

theorem guardedStep_eq_ok (h : m.core.sp.toNat ≤ stackDepth) : m.guardedStep = .ok m.step := by
  rw [guardedStep, Core.guardedFetch, Memory.guardedWord_eq_ok, ok_bind, step, Core.fetch]
  cases m.core.memory.word m.core.pc.toNat with
  | error fault => rfl
  | ok word =>
    have hadvanced : { m with core := m.core.advance }.core.sp.toNat ≤ stackDepth := h
    simp only [guardedExecute_eq_ok hadvanced, ok_bind]
    rfl

theorem guardedTurn_eq_ok (h : m.core.sp.toNat ≤ stackDepth) (p : Pacing) (steps : Nat) :
    m.guardedTurn p steps = .ok (m.turn p steps) := by
  unfold guardedTurn turn
  by_cases hlimit : p.Exhausted steps
  · simp only [if_pos hlimit]
    rfl
  · simp only [if_neg hlimit, guardedStep_eq_ok h, ok_bind]
    rcases m.step with ⟨fault | _, x⟩
    · rfl
    · by_cases hpc : x.core.pc = m.core.pc
      · simp only [if_pos hpc]
        rfl
      · simp only [if_neg hpc]
        rfl

theorem sp_step (h : m.core.sp.toNat ≤ stackDepth) : m.step.2.core.sp.toNat ≤ stackDepth :=
  (tracks_step ⟨h, rfl⟩).1

theorem guardedRunWithin_eq_ok (p : Pacing) (clock : Nat → Nat) (fuel steps : Nat)
    (h : m.core.sp.toNat ≤ stackDepth) :
    guardedRunWithin p p.frameTime p.stepsPerFrame clock fuel steps m =
      .ok (runWithin p clock fuel steps m) := by
  induction fuel generalizing steps m with
  | zero => rfl
  | succ fuel ih =>
    rw [guardedRunWithin, guardedTurn_eq_ok h, ok_bind, runWithin]
    rcases hturn : m.turn p steps with ⟨_ | result, x⟩
    · obtain ⟨_, hstep, _⟩ := turn_eq_none hturn
      have hx : x.core.sp.toNat ≤ stackDepth := by
        have hleft := sp_step h
        rwa [hstep] at hleft
      simp only [Pacing.guardedFrameDue_eq_ok, ok_bind, decide_eq_true_eq]
      by_cases hdue : p.FrameDue clock (steps + 1)
      · simp only [if_pos hdue]
        rcases hframe : x.frame with ⟨fault | _, y⟩
        · rfl
        · have hticked : y.core = x.core.tick := (congrArg (·.2.core) hframe).symm
          exact ih (steps + 1) (hticked ▸ hx)
      · simp only [if_neg hdue]
        exact ih (steps + 1) hx
    · rfl

theorem guardedRun_eq_ok (h : m.core.sp.toNat ≤ stackDepth) (p : Pacing) (clock : Nat → Nat) :
    m.guardedRun p clock = .ok (m.run p clock) := by
  have hpos (speed : UInt32) : 0 < Pacing.perSecond speed :=
    Nat.lt_of_lt_of_le Nat.zero_lt_one (Nat.le_max_left _ _)
  simp only [guardedRun, quotient_eq_ok _ (hpos _), ok_bind]
  exact guardedRunWithin_eq_ok p clock longestRun 0 h

/-- The machine can be used in any way: what is done next is defined. Ticks and frames are left out,
for they neither look anything up nor calculate: a timer at zero stays there. -/
structure Defined (m : Machine δ κ ρ) : Prop where
  step : m.guardedStep = .ok m.step
  load (source : ByteSource) (offset : UInt16) :
    m.guardedLoad source offset = .ok (m.load source offset)
  read (address : Nat) : m.core.memory.guardedRead address = .ok (m.core.memory.read address)
  word (address : Nat) : m.core.memory.guardedWord address = .ok (m.core.memory.word address)
  run (p : Pacing) (clock : Nat → Nat) : m.guardedRun p clock = .ok (m.run p clock)
  /-- In a run with a limit, the next instruction can always be counted in 64 bits. -/
  count {p : Pacing} {clock : Nat → Nat} {steps : Nat} {x : Machine δ κ ρ} :
    m.Reaches p clock steps x → p.maxSteps.isSome → ¬ p.Exhausted steps → steps + 1 < longBound

theorem defined_of_sp (h : m.core.sp.toNat ≤ stackDepth) : m.Defined where
  step := guardedStep_eq_ok h
  load := guardedLoad_eq_ok m
  read := m.core.memory.guardedRead_eq_ok
  word := m.core.memory.guardedWord_eq_ok
  run := guardedRun_eq_ok h
  count := by
    intro p clock steps x _ hmax hlimit
    obtain ⟨max, hsome⟩ := Option.isSome_iff_exists.1 hmax
    have hlt : steps < max.toNat := Nat.not_le.1 fun hle => hlimit ⟨max, hsome, hle⟩
    exact Nat.lt_of_le_of_lt hlt max.toNat_lt

theorem sp_pursue {config : Config} {display : δ} {keypad : κ} {random : ρ} {journal : Journal}
    (hboot : boot config display keypad random journal = .ok m) (deeds : List (Deed δ κ)) :
    (m.pursue deeds).core.sp.toNat ≤ stackDepth := by
  rw [(m.perform_history deeds).core]
  exact (tracks_perform (tracks_boot hboot) (m.history deeds)).1

theorem size_memory_pursue (m : Machine δ κ ρ) (deeds : List (Deed δ κ)) :
    (m.pursue deeds).core.memory.size = m.core.memory.size := by
  rw [(m.perform_history deeds).core]
  exact m.size_memory_perform (m.history deeds)

/-- A machine that has room for the font boots, and whatever has then been done to it, in any order
and whether or not it failed, nothing that can be done next is undefined. Nor are the keypad, the
picture and the tape, which keep tables of their own. A run without a limit would have to come to
2 ^ 64 instructions for its count to be too large. -/
theorem always_defined (config : Config) (h : 80 ≤ config.memorySize.toNat) (display : δ)
    (keypad : κ) (random : ρ) (journal : Journal) :
    guardedBoot config display keypad random journal =
        .ok (boot config display keypad random journal) ∧
      (∃ booted : Machine δ κ ρ, boot config display keypad random journal = .ok booted ∧
        ∀ deeds,
          (booted.pursue deeds).core.sp.toNat ≤ 16 ∧
            (booted.pursue deeds).core.memory.size = config.memorySize.toNat ∧
            (booted.pursue deeds).Defined) ∧
      (∀ (k : KeyScript) key down, k.guardedSetHeld key down = .ok (k.setHeld key down)) ∧
      (∀ (p : Picture) x y on, p.guardedSetPixel x y on = .ok (p.setPixel x y on)) ∧
      ∀ bytes count,
        (ByteTape.ofBytes bytes).guardedTake count = .ok ((ByteTape.ofBytes bytes).take count) := by
  obtain ⟨booted, hboot⟩ := exists_boot config h display keypad random journal
  refine ⟨guardedBoot_eq_ok .., ⟨booted, hboot, fun deeds => ?_⟩,
    KeyScript.guardedSetHeld_eq_ok, Picture.guardedSetPixel_eq_ok,
    fun bytes => ByteTape.guardedTake_eq_ok (ByteTape.onTape_ofBytes bytes)⟩
  have hsp := sp_pursue hboot deeds
  exact ⟨hsp, (size_memory_pursue booted deeds).trans (size_memory_of_boot hboot),
    defined_of_sp hsp⟩

/-- A return with no call open fails, which is not undefined, and so does the step after it. -/
theorem always_defined_return :
    ∃ booted : Machine Picture NoKeypad ByteTape,
      boot ⟨96, 0x50, true⟩ .blank ⟨⟩ (.ofBytes []) (.start none) = .ok booted ∧
        (booted.pursue [.act (.load (.ofBytes [0x00, 0xEE]) 0x50)]).step.1.isOk = false ∧
        (booted.pursue [.act (.load (.ofBytes [0x00, 0xEE]) 0x50), .act .step]).Defined := by
  obtain ⟨_, ⟨booted, hboot, hdefined⟩, _⟩ :=
    always_defined ⟨96, 0x50, true⟩ (by decide) Picture.blank NoKeypad.mk
      (ByteTape.ofBytes []) (.start none)
  obtain rfl : fresh Picture.blank NoKeypad.mk (ByteTape.ofBytes []) = booted :=
    Except.ok.inj ((boot_fresh _ _ _).symm.trans hboot)
  exact ⟨_, hboot, by decide +kernel, (hdefined _).2.2⟩

end Machine

end ChipEight
