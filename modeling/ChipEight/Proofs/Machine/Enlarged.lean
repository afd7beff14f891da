import ChipEight.Proofs.Core.Widened
import ChipEight.Proofs.Machine.Action
import ChipEight.Proofs.Machine.Recast

namespace ChipEight

namespace Memory

variable {m : Memory} {source : ByteSource} {bytes : List UInt8} {offset : Nat}

theorem load_widen (size : UInt64)
    (h : ∀ fault, m.load source offset = .error fault → ¬ fault.IsOutOfBounds) :
    (m.widen size).load source offset =
      (m.load source offset).map fun loaded => (loaded.1, loaded.2.widen size) := by
  cases hs : source.drain with
  | error fault => rw [load_of_drain_error hs, load_of_drain_error hs, Except.map]
  | ok bytes =>
    rw [load_of_drain hs, load_of_drain hs]
    have hfits : m.Fits offset bytes.length := by
      refine Decidable.byContradiction fun hover => ?_
      have hwrite := writeAll_eq_error_iff.2 ⟨not_fits_iff.1 hover, rfl⟩
      refine h (.outOfBounds offset bytes.length m.size) ?_ ⟨_, _, _, rfl⟩
      rw [load_of_drain hs, hwrite, Except.map]
    rw [writeAll_widen hfits]
    cases m.writeAll offset bytes with
    | error fault => rfl
    | ok m' => rfl

end Memory

namespace Core

variable {less more : UInt64} {start : UInt16} {c : Core}

theorem boot_widen (hle : less.toNat ≤ more.toNat) (h : boot less start = .ok c) :
    boot more start = .ok (c.widen more) := by
  obtain ⟨memory, hwrite, rfl⟩ := boot_eq_ok_iff.1 h
  refine boot_eq_ok_iff.2 ⟨memory.widen more, ?_, rfl⟩
  rw [← Memory.zeroed_widen hle, Memory.writeAll_widen (Memory.writeAll_eq_ok_iff.1 hwrite).1, hwrite]
  rfl

end Core

namespace Machine

variable {δ κ ρ : Type}

/-- The machine with zeros behind its memory, up to `size` bytes. -/
def widen (m : Machine δ κ ρ) (size : UInt64) : Machine δ κ ρ :=
  m.recast { m.config with memorySize := size } (·.widen size) id m.journal

theorem boot_widen {config : Config} {display : δ} {keypad : κ} {random : ρ} {journal : Journal}
    {m : Machine δ κ ρ} {size : UInt64} (hle : config.memorySize.toNat ≤ size.toNat)
    (h : boot config display keypad random journal = .ok m) :
    boot { config with memorySize := size } display keypad random journal =
      .ok (m.widen size) := by
  obtain ⟨core, hcore, rfl⟩ := boot_eq_ok_iff.1 h
  exact boot_eq_ok_iff.2 ⟨core.widen size, Core.boot_widen hle hcore, rfl⟩

/-- The one machine has `less` bytes of memory and the other one `more`; the additional ones are
zero, and everything else is equal. -/
structure Extends (less more : Nat) (small large : Machine δ κ ρ) : Prop where
  core : large.core = { small.core with memory := large.core.memory }
  display : large.display = small.display
  keypad : large.keypad = small.keypad
  random : large.random = small.random
  size : small.core.memory.size = less
  size_large : large.core.memory.size = more
  shared {address : Nat} (h : address < less) :
    large.core.memory.byte? address = small.core.memory.byte? address
  zero {address : Nat} (hle : less ≤ address) (hlt : address < more) :
    large.core.memory.byte? address = some 0

theorem extends_widen {m : Machine δ κ ρ} {less : Nat} {size : UInt64}
    (hsize : m.core.memory.size = less) (hle : less ≤ size.toNat) :
    Extends less size.toNat m (m.widen size) := by
  subst hsize
  refine ⟨rfl, rfl, rfl, rfl, rfl, Memory.size_widen hle, ?_, ?_⟩
  · exact Memory.byte?_widen
  · exact Memory.byte?_widen_of_le

variable [Display δ] [Keypad κ] [RandomSource ρ]

/-- The action fails because it reaches past the end of memory. -/
def Overruns (m : Machine δ κ ρ) : Action δ κ → Prop
  | .step => ∃ fault, m.step.1 = .error fault ∧ fault.IsOutOfBounds
  | .load source offset =>
    ∃ fault, (m.load source offset).1 = .error fault ∧ fault.IsOutOfBounds
  | _ => False

def StaysInBounds (m : Machine δ κ ρ) : List (Action δ κ) → Prop
  | [] => True
  | action :: rest => ¬ m.Overruns action ∧ (m.act action).StaysInBounds rest

theorem not_overruns_of_ok {m : Machine δ κ ρ} (h : m.step.1 = .ok ()) : ¬ m.Overruns .step := by
  rintro ⟨fault, hfails, _⟩
  cases h.symm.trans hfails

theorem seenThrough_widen {m : Machine δ κ ρ} (size : UInt64) (h : ¬ m.Overruns .step) :
    m.core.SeenThrough (·.widen size) where
  fetch := by
    cases hf : m.core.fetch with
    | error fault =>
      obtain ⟨_, rfl⟩ := Memory.word_eq_error_iff.1 hf
      exact absurd ⟨.outOfBounds m.core.pc.toNat 2 m.core.memory.size,
        congrArg Prod.fst (step_of_fetch_error hf), _, _, _, rfl⟩ h
    | ok word => exact Memory.word_widen hf
  pc := rfl
  advance := rfl
  execute := by
    intro word instruction hf hd
    refine (m.core.advance.widen_execute size instruction).resolve_left ?_
    rintro ⟨fault, hfail, houtside⟩
    refine h ⟨.instruction m.core.pc word fault, ?_, houtside⟩
    rw [step_of_decode hf hd, served, hfail]
    rfl

theorem step_widen {m : Machine δ κ ρ} (size : UInt64) (h : ¬ m.Overruns .step) :
    (m.widen size).step = m.step.map id (·.widen size) := by
  refine (step_recast { m.config with memorySize := size }
    (seenThrough_widen size h) (fun _ _ => Request.mirrored_id m.display _)
    fun _ _ _ => rfl).trans (Prod.ext rfl ?_)
  simp only [Prod.map, widen, config_step, id]

theorem load_widen {m : Machine δ κ ρ} (size : UInt64) {source : ByteSource} {offset : UInt16}
    (h : ¬ m.Overruns (.load source offset)) :
    (m.widen size).load source offset = (m.load source offset).map id (·.widen size) := by
  have hinside (fault : Fault) (hf : m.core.memory.load source offset.toNat = .error fault) :
      ¬ fault.IsOutOfBounds := by
    intro houtside
    exact h ⟨fault, by simp [load, hf], houtside⟩
  have hload : (m.widen size).core.memory.load source offset.toNat =
      (m.core.memory.load source offset.toNat).map fun loaded =>
        (loaded.1, loaded.2.widen size) :=
    Memory.load_widen size hinside
  unfold load
  rw [hload]
  cases m.core.memory.load source offset.toNat with
  | error fault => rfl
  | ok loaded => rfl

theorem act_widen {m : Machine δ κ ρ} (size : UInt64) {action : Action δ κ}
    (h : ¬ m.Overruns action) : (m.widen size).act action = (m.act action).widen size := by
  cases action with
  | step => exact congrArg Prod.snd (step_widen size h)
  | load source offset => exact congrArg Prod.snd (load_widen size h)
  | _ => rfl

theorem perform_widen {m : Machine δ κ ρ} (size : UInt64) {actions : List (Action δ κ)}
    (h : m.StaysInBounds actions) :
    (m.widen size).perform actions = (m.perform actions).widen size := by
  induction actions generalizing m with
  | nil => rfl
  | cons action actions ih =>
    obtain ⟨hfirst, hrest⟩ := h
    exact (congrArg (perform · actions) (act_widen size hfirst)).trans (ih hrest)

/-- A program that never reaches past the end of its memory takes the same course on a machine with
more memory, and leaves what there is more as it was. -/
theorem enlarged_agrees {less more : UInt64} (hless : 80 ≤ less.toNat)
    (hle : less.toNat ≤ more.toNat) {start : UInt16} {program : List UInt8}
    (hfits : start.toNat + program.length ≤ less.toNat) (strict : Bool) (display : δ) (keypad : κ)
    (random : ρ) (journal : Journal) :
    ∃ booted booted' small large : Machine δ κ ρ,
      boot ⟨less, start, strict⟩ display keypad random journal = .ok booted ∧
      boot ⟨more, start, strict⟩ display keypad random journal = .ok booted' ∧
      booted.loadProgram (.ofBytes program) = (.ok program.length, small) ∧
      booted'.loadProgram (.ofBytes program) = (.ok program.length, large) ∧
      ∀ actions, small.StaysInBounds actions →
        Extends less.toNat more.toNat (small.perform actions) (large.perform actions) ∧
        (¬ (small.perform actions).Overruns .step →
          (large.perform actions).step.1 = (small.perform actions).step.1) := by
  obtain ⟨booted, hboot⟩ := exists_boot ⟨less, start, strict⟩ hless display keypad random journal
  have hsize := size_memory_of_boot hboot
  have hload : (booted.loadProgram (.ofBytes program)).1 = .ok program.length := by
    refine fst_load ?_
    rwa [Memory.fits_iff, hsize, config_of_boot hboot]
  have hinside : ¬ booted.Overruns (.load (.ofBytes program) booted.config.programStart) := by
    rintro ⟨fault, hfails, _⟩
    cases hload.symm.trans hfails
  have hlarge : (booted.widen more).loadProgram (.ofBytes program) =
      (booted.loadProgram (.ofBytes program)).map id (·.widen more) := load_widen more hinside
  refine ⟨booted, booted.widen more, (booted.loadProgram (.ofBytes program)).2,
    (booted.loadProgram (.ofBytes program)).2.widen more, hboot, boot_widen hle hboot,
    Prod.ext hload rfl, hlarge.trans (Prod.ext hload rfl), fun actions h => ?_⟩
  rw [perform_widen more h]
  refine ⟨extends_widen ?_ hle, fun hover => ?_⟩
  · rw [size_memory_perform]
    exact (size_memory_load booted _ _).trans hsize
  · rw [step_widen more hover]
    rfl

/-- The program stores V0 over the first byte of the font. -/
theorem enlarged_agrees_storing :
    80 ≤ (96 : UInt64).toNat ∧ (96 : UInt64).toNat ≤ (4096 : UInt64).toNat ∧
      (0x50 : UInt16).toNat + 4 ≤ (96 : UInt64).toNat ∧
      ∃ booted booted' small large : Machine Picture NoKeypad ByteTape,
        boot ⟨96, 0x50, true⟩ .blank ⟨⟩ (.ofBytes []) (.start none) = .ok booted ∧
        boot ⟨4096, 0x50, true⟩ .blank ⟨⟩ (.ofBytes []) (.start none) = .ok booted' ∧
        booted.loadProgram (.ofBytes [0x60, 0x2A, 0xF0, 0x55]) = (.ok 4, small) ∧
        booted'.loadProgram (.ofBytes [0x60, 0x2A, 0xF0, 0x55]) = (.ok 4, large) ∧
        small.StaysInBounds [.step, .tick, .step] ∧
        (large.perform [.step, .tick, .step]).core.memory.byte? 0 = some 0x2A ∧
        (large.perform [.step, .tick, .step]).core.memory.byte? 4095 = some 0 := by
  have hfits : (0x50 : UInt16).toNat + [0x60, 0x2A, 0xF0, (0x55 : UInt8)].length ≤
      (96 : UInt64).toNat := by decide
  obtain ⟨booted, booted', small, large, hboot, hboot', hload, hload', hsame⟩ :=
    enlarged_agrees (by decide : 80 ≤ (96 : UInt64).toNat)
      (by decide : (96 : UInt64).toNat ≤ (4096 : UInt64).toNat) hfits true Picture.blank
      NoKeypad.mk (ByteTape.ofBytes []) (.start none)
  obtain rfl : fresh _ _ _ = booted := Except.ok.inj ((boot_fresh _ _ _).symm.trans hboot)
  obtain rfl : _ = small := congrArg Prod.snd hload
  have hinside : ((fresh Picture.blank NoKeypad.mk (ByteTape.ofBytes [])).loadProgram
      (.ofBytes [0x60, 0x2A, 0xF0, 0x55])).2.StaysInBounds [.step, .tick, .step] :=
    ⟨not_overruns_of_ok (isOk_step_iff.1 (by decide +kernel)), id,
      not_overruns_of_ok (isOk_step_iff.1 (by decide +kernel)), trivial⟩
  obtain ⟨hextends, _⟩ := hsame _ hinside
  refine ⟨by decide, by decide, by decide, _, _, _, _, hboot, hboot', hload, hload', hinside, ?_,
    hextends.zero (by decide) (by decide)⟩
  rw [hextends.shared (by decide)]
  decide +kernel

end Machine

end ChipEight
