import ChipEight.Session
import ChipEight.Proofs.Machine.Action
import ChipEight.Proofs.Machine.Failure

namespace ChipEight

namespace Session

variable {ρ : Type}

/-- What can stand in the way of a session, each with its rank in the order in which it is found
out: a key script that is refused, a memory that the font does not fit into, a file that cannot be
opened or read, and a program that does not fit. -/
inductive Obstacle (o : Options) (rom : Except IoError ByteSource) : Nat → SessionError → Prop
  | keyScript {c : Char} : Layout.keys o.keys.toList = .error c → Obstacle o rom 1 (.keyScript c)
  | font : o.memorySize.toNat < 80 →
      Obstacle o rom 2 (.machine (.outOfBounds 0 80 o.memorySize.toNat))
  | notOpened {error : IoError} : rom = .error error → Obstacle o rom 3 (.unavailable error)
  | notRead {source : ByteSource} {error : IoError} : rom = .ok source →
      source.failure = some error → Obstacle o rom 3 (.machine (.io error))
  | program {source : ByteSource} : rom = .ok source →
      o.memorySize.toNat < o.start.toNat + source.bytes.length →
      Obstacle o rom 4
        (.machine (.outOfBounds o.start.toNat source.bytes.length o.memorySize.toNat))

/-- The first obstacle has this error. -/
def Obstructed (o : Options) (rom : Except IoError ByteSource) (error : SessionError) : Prop :=
  ∃ rank, Obstacle o rom rank error ∧
    ∀ earlier < rank, ∀ other, ¬ Obstacle o rom earlier other

def atRest (o : Options) (keys : List UInt8) (screen : Screen) (random : ρ) (memory : Memory)
    (journal : Journal) : Machine Screen KeyScript ρ where
  config := o.config
  core := ⟨.replicate 16 0, 0, o.start, 0, .replicate stackDepth 0, 0, 0, memory⟩
  display := screen
  keypad := .ofPresses keys
  random := random
  journal := journal
  frames := 0

/-- The machine is at rest and has the program in memory: its bytes from the start address on, the
font before and behind them, and zeros everywhere else. -/
structure Loaded (o : Options) (program : List UInt8) (screen : Screen) (random : ρ)
    (m : Machine Screen KeyScript ρ) : Prop where
  rests : ∃ keys, Layout.keys o.keys.toList = .ok keys ∧
    m = atRest o keys screen random m.core.memory m.journal
  size_eq : m.core.memory.size = o.memorySize.toNat
  program_eq : ∀ k < program.length, m.core.memory.byte? (o.start.toNat + k) = program[k]?
  font_eq : ∀ k < 80, k < o.start.toNat ∨ o.start.toNat + program.length ≤ k →
    m.core.memory.byte? k = Font.spriteSheet[k]?
  zero : ∀ k, 80 ≤ k → k < o.memorySize.toNat →
    k < o.start.toNat ∨ o.start.toNat + program.length ≤ k → m.core.memory.byte? k = some 0

theorem Loaded.display_eq {o : Options} {program : List UInt8} {screen : Screen} {random : ρ}
    {m : Machine Screen KeyScript ρ} (h : Loaded o program screen random m) :
    m.display = screen := by
  obtain ⟨_, _, hrests⟩ := h.rests
  rw [hrests, atRest]

theorem Obstructed.unique {o : Options} {rom : Except IoError ByteSource}
    {error error' : SessionError} (h : Obstructed o rom error) (h' : Obstructed o rom error') :
    error = error' := by
  obtain ⟨rank, hobstacle, hfirst⟩ := h
  obtain ⟨rank', hobstacle', hfirst'⟩ := h'
  rcases Nat.lt_trichotomy rank rank' with hlt | rfl | hlt
  · exact absurd hobstacle (hfirst' rank hlt error)
  · cases hobstacle <;> cases hobstacle' <;> simp_all
  · exact absurd hobstacle' (hfirst rank' hlt error')

theorem Obstacle.obstructed {o : Options} {rom : Except IoError ByteSource} {rank : Nat}
    {error : SessionError} (h : Obstacle o rom rank error)
    (hkeys : 1 < rank → ∃ keys, Layout.keys o.keys.toList = .ok keys)
    (hfont : 2 < rank → 80 ≤ o.memorySize.toNat)
    (hread : 3 < rank → ∃ source, rom = .ok source ∧ source.failure = none) :
    Obstructed o rom error := by
  refine ⟨rank, h, ?_⟩
  intro earlier hlt other hother
  cases hother with
  | keyScript hrefused =>
    obtain ⟨keys, hok⟩ := hkeys hlt
    cases hrefused.symm.trans hok
  | font hsmall => exact absurd hsmall (Nat.not_lt.2 (hfont hlt))
  | notOpened hrom =>
    obtain ⟨source, hok, _⟩ := hread hlt
    cases hrom.symm.trans hok
  | notRead hrom hfailure =>
    obtain ⟨source, hok, hnone⟩ := hread hlt
    cases hrom.symm.trans hok
    cases hfailure.symm.trans hnone
  | program hrom hshort => cases h <;> omega

theorem not_obstacle {o : Options} {source : ByteSource} {keys : List UInt8}
    (hkeys : Layout.keys o.keys.toList = .ok keys) (hfont : 80 ≤ o.memorySize.toNat)
    (hread : source.failure = none)
    (hfits : o.start.toNat + source.bytes.length ≤ o.memorySize.toNat) (rank : Nat)
    (error : SessionError) : ¬ Obstacle o (.ok source) rank error := by
  intro h
  cases h with
  | keyScript hrefused => cases hrefused.symm.trans hkeys
  | font hsmall => exact absurd hsmall (Nat.not_lt.2 hfont)
  | notOpened hrom => cases hrom
  | notRead hrom hfailure =>
    cases hrom
    cases hfailure.symm.trans hread
  | program hrom hshort =>
    cases hrom
    exact absurd hshort (Nat.not_lt.2 hfits)

def fontImage (size : UInt64) : Memory := (Memory.zeroed size).put 0 Font.spriteSheet

def programImage (size : UInt64) (start : Nat) (program : List UInt8) : Memory :=
  (fontImage size).put start program

@[simp] theorem size_fontImage (size : UInt64) : (fontImage size).size = size.toNat := by
  simp [fontImage]

@[simp] theorem size_programImage (size : UInt64) (start : Nat) (program : List UInt8) :
    (programImage size start program).size = size.toNat := by
  simp [programImage]

theorem byte?_programImage (size : UInt64) (start k : Nat) (program : List UInt8) :
    (programImage size start program).byte? k =
      if start ≤ k ∧ k < start + program.length ∧ k < size.toNat then program[k - start]?
      else if k < 80 ∧ k < size.toNat then Font.spriteSheet[k]?
      else if k < size.toNat then some 0 else none := by
  have hlength : Font.spriteSheet.length = 80 := rfl
  simp only [programImage, fontImage, Memory.zeroed, Memory.put, Memory.byte?, Memory.getElem?_overlay, Memory.size_overlay,
    Array.size_replicate, Array.getElem?_replicate, Nat.zero_le, true_and, Nat.zero_add, hlength,
    Nat.sub_zero]

section AtRest

variable {o : Options} {program : List UInt8} {source : ByteSource} (keys : List UInt8)
  (screen : Screen) (random : ρ) (journal : Journal)

theorem exists_boot_atRest (h : 80 ≤ o.memorySize.toNat) :
    ∃ left, Machine.boot o.config screen (.ofPresses keys) random journal =
      .ok (atRest o keys screen random (fontImage o.memorySize) left) := by
  obtain ⟨m, hboot⟩ :=
    Machine.exists_boot o.config h screen (KeyScript.ofPresses keys) random journal
  obtain ⟨core, hcore, rfl⟩ := Machine.boot_eq_ok_iff.1 hboot
  obtain ⟨memory, hwrite, rfl⟩ := Core.boot_eq_ok_iff.1 hcore
  obtain ⟨_, rfl⟩ := Memory.writeAll_eq_ok_iff.1 hwrite
  exact ⟨_, hboot⟩

theorem loadProgram_of_failure {m : Machine Screen KeyScript ρ} {error : IoError}
    (h : source.failure = some error) :
    m.loadProgram source = (.error (.io error), m) := by
  have hdrain := ByteSource.drain_of_failure h
  rw [Machine.loadProgram, Machine.load, Memory.load_of_drain_error hdrain]

theorem loadProgram_of_lt (h : source.failure = none)
    (hlt : o.memorySize.toNat < o.start.toNat + source.bytes.length) :
    (atRest o keys screen random (fontImage o.memorySize) journal).loadProgram source =
      (.error (.outOfBounds o.start.toNat source.bytes.length o.memorySize.toNat),
        atRest o keys screen random (fontImage o.memorySize) journal) := by
  have hdrain := ByteSource.drain_of_no_failure h
  have hwrite : (fontImage o.memorySize).writeAll o.start.toNat source.bytes =
      .error (.outOfBounds o.start.toNat source.bytes.length o.memorySize.toNat) :=
    Memory.writeAll_eq_error_iff.2 (by rw [size_fontImage]; exact ⟨hlt, rfl⟩)
  have hload : (fontImage o.memorySize).load source o.start.toNat =
      .error (.outOfBounds o.start.toNat source.bytes.length o.memorySize.toNat) := by
    rw [Memory.load_of_drain hdrain, hwrite]
    rfl
  simp only [Machine.loadProgram, Machine.load, atRest, Options.config, hload]

theorem exists_loadProgram (h : source.failure = none)
    (hle : o.start.toNat + source.bytes.length ≤ o.memorySize.toNat) :
    ∃ left,
      (atRest o keys screen random (fontImage o.memorySize) journal).loadProgram source =
        (.ok source.bytes.length, atRest o keys screen random
          (programImage o.memorySize o.start.toNat source.bytes) left) := by
  have hdrain := ByteSource.drain_of_no_failure h
  have hfits : (fontImage o.memorySize).Fits o.start.toNat source.bytes.length := by
    rw [Memory.fits_iff, size_fontImage]
    exact hle
  have hload : (fontImage o.memorySize).load source o.start.toNat =
      .ok (source.bytes.length, programImage o.memorySize o.start.toNat source.bytes) := by
    rw [Memory.load_of_drain hdrain, Memory.writeAll_eq_ok_iff.2 ⟨hfits, rfl⟩]
    rfl
  simp only [Machine.loadProgram, Machine.load, atRest, Options.config, hload]
  exact ⟨_, rfl⟩

theorem loaded_atRest (hkeys : Layout.keys o.keys.toList = .ok keys)
    (hfont : 80 ≤ o.memorySize.toNat)
    (hfits : o.start.toNat + program.length ≤ o.memorySize.toNat) :
    Loaded o program screen random (atRest o keys screen random
      (programImage o.memorySize o.start.toNat program) journal) := by
  constructor
  case rests => exact ⟨keys, hkeys, rfl⟩
  case size_eq => exact size_programImage _ _ _
  case program_eq =>
    intro k hk
    rw [atRest, byte?_programImage, if_pos (by omega), Nat.add_sub_cancel_left]
  case font_eq =>
    intro k hk houtside
    rw [atRest, byte?_programImage, if_neg (by omega), if_pos (by omega)]
  case zero =>
    intro k hle hlt houtside
    rw [atRest, byte?_programImage, if_neg (by omega), if_neg (by omega), if_pos hlt]

end AtRest

/-- A session that does not get ready has the error of the first obstacle, and its screen is as it
was. One that does has met no obstacle, and its program is loaded. -/
theorem ready_cases (o : Options) (rom : Except IoError ByteSource) (screen : Screen) (random : ρ) :
    (∃ error journal, ready o rom screen random = .error ⟨.error error, screen, journal⟩ ∧
      Obstructed o rom error) ∨
    ∃ source m, ready o rom screen random = .ok m ∧ rom = .ok source ∧
      (∀ rank error, ¬ Obstacle o rom rank error) ∧ Loaded o source.bytes screen random m := by
  cases hkeys : Layout.keys o.keys.toList with
  | error c =>
    have hready : ready o rom screen random =
        .error ⟨.error (.keyScript c), screen, .start o.logLevel⟩ := by
      simp only [ready, hkeys]
    exact .inl ⟨_, _, hready, (Obstacle.keyScript hkeys).obstructed (by omega) (by omega)
      (by omega)⟩
  | ok keys =>
    by_cases hfont : 80 ≤ o.memorySize.toNat
    case neg =>
      have hsmall := Nat.not_le.1 hfont
      have hboot : Machine.boot o.config screen (KeyScript.ofPresses keys) random
          (.start o.logLevel) = .error (.outOfBounds 0 80 o.memorySize.toNat) :=
        Machine.boot_eq_error_iff.2 ⟨hsmall, rfl⟩
      have hready : ready o rom screen random =
          .error ⟨.error (.machine (.outOfBounds 0 80 o.memorySize.toNat)), screen,
            .start o.logLevel⟩ := by
        simp only [ready, hkeys, hboot]
      exact .inl ⟨_, _, hready, (Obstacle.font hsmall).obstructed (fun _ => ⟨keys, hkeys⟩)
        (by omega) (by omega)⟩
    case pos =>
      obtain ⟨journal, hboot⟩ := exists_boot_atRest keys screen random (.start o.logLevel) hfont
      cases rom with
      | error error =>
        have hready : ready o (.error error) screen random =
            .error ⟨.error (.unavailable error), screen, journal⟩ := by
          simp only [ready, hkeys, hboot, atRest]
        exact .inl ⟨_, _, hready, (Obstacle.notOpened rfl).obstructed (fun _ => ⟨keys, hkeys⟩)
          (fun _ => hfont) (by omega)⟩
      | ok source =>
        cases hread : source.failure with
        | some error =>
          have hready : ready o (.ok source) screen random =
              .error ⟨.error (.machine (.io error)), screen, journal⟩ := by
            simp only [ready, hkeys, hboot, loadProgram_of_failure hread, atRest]
          exact .inl ⟨_, _, hready, (Obstacle.notRead rfl hread).obstructed
            (fun _ => ⟨keys, hkeys⟩) (fun _ => hfont) (by omega)⟩
        | none =>
          by_cases hfits : o.start.toNat + source.bytes.length ≤ o.memorySize.toNat
          case neg =>
            have hshort := Nat.not_le.1 hfits
            have hload := loadProgram_of_lt keys screen random journal hread hshort
            have hready : ready o (.ok source) screen random =
                .error ⟨.error (.machine (.outOfBounds o.start.toNat source.bytes.length
                  o.memorySize.toNat)), screen, journal⟩ := by
              simp only [ready, hkeys, hboot, hload]
              rfl
            exact .inl ⟨_, _, hready, (Obstacle.program rfl hshort).obstructed
              (fun _ => ⟨keys, hkeys⟩) (fun _ => hfont) (fun _ => ⟨source, rfl, hread⟩)⟩
          case pos =>
            obtain ⟨left, hload⟩ := exists_loadProgram keys screen random journal hread hfits
            have hloaded := loaded_atRest keys screen random
              ((left.note (.romLoaded o.rom source.bytes.length)).note o.pacing.notice) hkeys hfont
              hfits
            refine .inr ⟨source, _, ?_, rfl, not_obstacle hkeys hfont hread hfits, hloaded⟩
            simp only [ready, hkeys, hboot, hload]
            rfl

section Outcome

variable {o : Options} {rom : Except IoError ByteSource} {screen : Screen} {random : ρ}

theorem ready_fails_iff {error : SessionError} :
    (∃ s, ready o rom screen random = .error s ∧ s.result = .error error) ↔
      Obstructed o rom error := by
  rcases ready_cases o rom screen random with
    ⟨first, journal, hready, hobstructed⟩ | ⟨_, m, hready, _, hclear, _⟩
  · rw [hready]
    constructor
    · rintro ⟨s, hs, herror⟩
      cases hs
      cases herror
      exact hobstructed
    · intro h
      obtain rfl := h.unique hobstructed
      exact ⟨_, rfl, rfl⟩
  · rw [hready]
    constructor
    · rintro ⟨s, hs, _⟩
      cases hs
    · rintro ⟨rank, hobstacle, _⟩
      exact absurd hobstacle (hclear rank error)

theorem screen_of_ready {s : Session} (h : ready o rom screen random = .error s) :
    s.screen = screen := by
  rcases ready_cases o rom screen random with ⟨_, _, hready, _⟩ | ⟨_, _, hready, _⟩
  · cases h.symm.trans hready
    rfl
  · cases h.symm.trans hready

theorem loaded_of_ready {m : Machine Screen KeyScript ρ} (h : ready o rom screen random = .ok m) :
    ∃ source, rom = .ok source ∧ Loaded o source.bytes screen random m := by
  rcases ready_cases o rom screen random with ⟨_, _, hready, _⟩ | ⟨source, _, hready, hrom, _, hm⟩
  · cases h.symm.trans hready
  · cases h.symm.trans hready
    exact ⟨source, hrom, hm⟩

theorem exists_ready (h : ∀ error, ¬ Obstructed o rom error) :
    ∃ m, ready o rom screen random = .ok m := by
  rcases ready_cases o rom screen random with ⟨error, _, _, hobstructed⟩ | ⟨_, m, hready, _⟩
  · exact absurd hobstructed (h error)
  · exact ⟨m, hready⟩

end Outcome

end Session

end ChipEight
