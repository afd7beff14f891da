import ChipEight.Proofs.Machine.Step

namespace ChipEight

namespace Core

theorem boot_eq_ok_iff {memorySize : UInt64} {start : UInt16} {c : Core} :
    Core.boot memorySize start = .ok c ↔
      ∃ memory,
        (Memory.zeroed memorySize).writeAll Font.address.toNat Font.spriteSheet = .ok memory ∧
        c = ⟨.replicate 16 0, 0, start, 0, .replicate stackDepth 0, 0, 0, memory⟩ := by
  unfold Core.boot
  cases (Memory.zeroed memorySize).writeAll Font.address.toNat Font.spriteSheet with
  | error fault => simp [bind, Except.bind]
  | ok memory => simp [bind, Except.bind, pure, Except.pure, eq_comm]

theorem boot_eq_error_iff {memorySize : UInt64} {start : UInt16} {fault : Fault} :
    boot memorySize start = .error fault ↔
      memorySize.toNat < 80 ∧ fault = .outOfBounds 0 80 memorySize.toNat := by
  have hwrite : (Memory.zeroed memorySize).writeAll Font.address.toNat Font.spriteSheet =
      .error fault ↔ memorySize.toNat < 80 ∧ fault = .outOfBounds 0 80 memorySize.toNat := by
    rw [Memory.writeAll_eq_error_iff, Memory.size_zeroed]
    exact Iff.rfl
  rw [← hwrite, boot]
  cases (Memory.zeroed memorySize).writeAll Font.address.toNat Font.spriteSheet with
  | error fault => simp [bind, Except.bind]
  | ok memory => simp [bind, Except.bind, pure, Except.pure]

variable {memorySize : UInt64} {start : UInt16} {c : Core}

theorem exists_boot (h : 80 ≤ memorySize.toNat) (start : UInt16) :
    ∃ c, boot memorySize start = .ok c := by
  have hfits : (Memory.zeroed memorySize).Fits Font.address.toNat Font.spriteSheet.length := by
    rw [Memory.fits_iff, Memory.size_zeroed]
    exact h
  exact ⟨_, boot_eq_ok_iff.2 ⟨_, Memory.writeAll_eq_ok_iff.2 ⟨hfits, rfl⟩, rfl⟩⟩

theorem size_memory_boot (h : boot memorySize start = .ok c) :
    c.memory.size = memorySize.toNat := by
  obtain ⟨memory, hwrite, rfl⟩ := boot_eq_ok_iff.1 h
  exact (Memory.size_of_writeAll hwrite).trans (Memory.size_zeroed memorySize)

end Core

inductive Action (δ κ : Type)
  | step
  | tick
  | render
  | load (source : ByteSource) (offset : UInt16)
  /-- The keypad is used past the machine, or exchanged. -/
  | keypad (use : κ → κ)
  | display (use : δ → δ)

namespace Machine

variable {δ κ ρ : Type}

theorem boot_eq_ok_iff {config : Config} {display : δ} {keypad : κ} {random : ρ}
    {journal : Journal} {m : Machine δ κ ρ} :
    boot config display keypad random journal = .ok m ↔
      ∃ core, Core.boot config.memorySize config.programStart = .ok core ∧
        m = ⟨config, core, display, keypad, random,
          journal.note (.loaded Font.spriteSheet.length Font.address.toNat), 0⟩ := by
  unfold boot
  cases Core.boot config.memorySize config.programStart with
  | error fault => simp [bind, Except.bind]
  | ok core => simp [bind, Except.bind, pure, Except.pure, eq_comm]

theorem boot_eq_error_iff {config : Config} {display : δ} {keypad : κ} {random : ρ}
    {journal : Journal} {fault : Fault} :
    (boot config display keypad random journal : Except Fault (Machine δ κ ρ)) = .error fault ↔
      config.memorySize.toNat < 80 ∧ fault = .outOfBounds 0 80 config.memorySize.toNat := by
  have hcore : Core.boot config.memorySize config.programStart = .error fault ↔
      config.memorySize.toNat < 80 ∧ fault = .outOfBounds 0 80 config.memorySize.toNat :=
    Core.boot_eq_error_iff
  rw [← hcore, boot]
  cases Core.boot config.memorySize config.programStart with
  | error fault => simp [bind, Except.bind]
  | ok core => simp [bind, Except.bind, pure, Except.pure]

theorem exists_boot (config : Config) (h : 80 ≤ config.memorySize.toNat) (display : δ)
    (keypad : κ) (random : ρ) (journal : Journal) :
    ∃ m : Machine δ κ ρ, boot config display keypad random journal = .ok m := by
  obtain ⟨core, hcore⟩ := Core.exists_boot h config.programStart
  exact ⟨_, boot_eq_ok_iff.2 ⟨core, hcore, rfl⟩⟩

section Booted

variable {config : Config} {display : δ} {keypad : κ} {random : ρ} {journal : Journal}
  {m : Machine δ κ ρ}

theorem config_of_boot (h : boot config display keypad random journal = .ok m) :
    m.config = config := by
  obtain ⟨core, _, rfl⟩ := boot_eq_ok_iff.1 h
  rfl

theorem size_memory_of_boot (h : boot config display keypad random journal = .ok m) :
    m.core.memory.size = config.memorySize.toNat := by
  obtain ⟨core, hcore, rfl⟩ := boot_eq_ok_iff.1 h
  exact Core.size_memory_boot hcore

end Booted

/-- A machine with 96 bytes of memory that has just been booted. Sixteen of them, from 0x50 on, are
free for a program. -/
def fresh (display : δ) (keypad : κ) (random : ρ) : Machine δ κ ρ where
  config := ⟨96, 0x50, true⟩
  core := ⟨.replicate 16 0, 0, 0x50, 0, .replicate stackDepth 0, 0, 0,
    (Memory.zeroed 96).put 0 Font.spriteSheet⟩
  display
  keypad
  random
  journal := .start none
  frames := 0

theorem boot_fresh (display : δ) (keypad : κ) (random : ρ) :
    boot ⟨96, 0x50, true⟩ display keypad random (.start none) =
      .ok (fresh display keypad random) := by
  have hmemory := Memory.writeAll_eq_ok_iff.2
    ⟨show (Memory.zeroed 96).Fits 0 Font.spriteSheet.length by decide, rfl⟩
  exact boot_eq_ok_iff.2 ⟨_, Core.boot_eq_ok_iff.2 ⟨_, hmemory, rfl⟩, rfl⟩

theorem exists_load_eq (m : Machine δ κ ρ) (source : ByteSource) (offset : UInt16) :
    ∃ memory journal,
      (m.load source offset).2 = { m with core := { m.core with memory }, journal } := by
  cases h : m.core.memory.load source offset.toNat with
  | error fault => exact ⟨m.core.memory, m.journal, by simp [load, h]⟩
  | ok loaded =>
    refine ⟨loaded.2, m.journal.note (.loaded loaded.1 offset.toNat), ?_⟩
    simp [load, h, note]

theorem fst_load {m : Machine δ κ ρ} {bytes : List UInt8} {offset : UInt16}
    (h : m.core.memory.Fits offset.toNat bytes.length) :
    (m.load (.ofBytes bytes) offset).1 = .ok bytes.length := by
  simp [load, Memory.load_ofBytes h]

theorem size_memory_load (m : Machine δ κ ρ) (source : ByteSource) (offset : UInt16) :
    (m.load source offset).2.core.memory.size = m.core.memory.size := by
  cases hl : m.core.memory.load source offset.toNat with
  | error fault => simp [load, hl]
  | ok loaded => simpa [load, hl, note] using Memory.size_of_load hl

variable [Display δ] [Keypad κ] [RandomSource ρ]

def act (m : Machine δ κ ρ) : Action δ κ → Machine δ κ ρ
  | .step => m.step.2
  | .tick => m.tick
  | .render => m.render.2
  | .load source offset => (m.load source offset).2
  | .keypad use => { m with keypad := use m.keypad }
  | .display use => { m with display := use m.display }

def perform (m : Machine δ κ ρ) (actions : List (Action δ κ)) : Machine δ κ ρ :=
  actions.foldl act m

theorem perform_append (m : Machine δ κ ρ) (first second : List (Action δ κ)) :
    m.perform (first ++ second) = (m.perform first).perform second :=
  List.foldl_append

theorem size_memory_perform (m : Machine δ κ ρ) (actions : List (Action δ κ)) :
    (m.perform actions).core.memory.size = m.core.memory.size := by
  induction actions generalizing m with
  | nil => rfl
  | cons action actions ih =>
    refine (ih (m.act action)).trans ?_
    cases action with
    | step => exact size_memory_step m
    | load source offset => exact size_memory_load m source offset
    | _ => rfl

end Machine

end ChipEight
