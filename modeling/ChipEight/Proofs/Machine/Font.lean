import ChipEight.Proofs.Display.Blit
import ChipEight.Proofs.Display.Unfailing
import ChipEight.Proofs.Machine.Action
import ChipEight.Proofs.Machine.Transfer

namespace ChipEight

namespace Font

theorem toNat_glyph (digit : UInt8) : (glyph digit).toNat = 5 * digit.toNat := by
  have hlt := digit.toNat_lt
  simp only [glyph, address, glyphSize, UInt16.toNat_add, UInt16.toNat_mul, UInt8.toNat_toUInt16,
    UInt16.reduceToNat]
  omega

def rows (digit : UInt8) : List UInt8 := (spriteSheet.drop (5 * digit.toNat)).take 5

end Font

def Instruction.Stores : Instruction → Prop
  | .storeDecimal _ | .storeRegisters _ => True
  | _ => False

namespace Core

/-- The font is in memory where it belongs. -/
def HoldsFont (c : Core) : Prop := c.memory.slice 0 80 = .ok Font.spriteSheet

variable {c c' : Core}

theorem HoldsFont.of_byte? (h : c.HoldsFont) (hsize : c'.memory.size = c.memory.size)
    (hbytes : ∀ k < 80, c'.memory.byte? k = c.memory.byte? k) : c'.HoldsFont := by
  have hfits : c.memory.Fits 0 80 := (Memory.slice_eq_ok_iff.1 h).1
  apply Memory.slice_eq_ok_of_getElem?
  · rw [Memory.fits_iff, hsize]
    exact Memory.fits_iff.1 hfits
  · rfl
  · intro k hk
    rw [Nat.zero_add, hbytes k hk, Memory.getElem?_of_slice h hk, Nat.zero_add]

theorem HoldsFont.of_writeAll (h : c.HoldsFont) {memory : Memory} {address : Nat}
    {bytes : List UInt8} (hwrite : c.memory.writeAll address bytes = .ok memory)
    (hbehind : 0 < bytes.length → 80 ≤ address) : { c with memory }.HoldsFont := by
  apply h.of_byte? (Memory.size_of_writeAll hwrite)
  intro k hk
  rw [Memory.byte?_of_writeAll hwrite, if_neg (by omega)]

theorem holdsFont_boot {memorySize : UInt64} {start : UInt16} (h : boot memorySize start = .ok c) :
    c.HoldsFont := by
  obtain ⟨memory, hwrite, rfl⟩ := boot_eq_ok_iff.1 h
  exact Memory.slice_of_writeAll hwrite

theorem holdsFont_execute (h : c.HoldsFont) {instruction : Instruction}
    (hbehind : instruction.Stores → 80 ≤ c.i.toNat) :
    (c.execute instruction).Leaves HoldsFont := by
  have hstore (bytes : List UInt8) (hi : 80 ≤ c.i.toNat) :
      (Request.ofExcept (c.storeAtIndex bytes)).Leaves HoldsFont := by
    apply leaves_storeAtIndex
    intro memory hwrite
    exact h.of_writeAll hwrite fun _ => hi
  cases instruction with
  | storeDecimal x => exact hstore _ (hbehind trivial)
  | storeRegisters x => exact hstore _ (hbehind trivial)
  | _ =>
    apply (c.framed_execute _).imp
    intro c' hframed
    have hmemory := hframed.memory nofun nofun
    apply h.of_byte? (congrArg Memory.size hmemory)
    intro k _
    rw [hmemory]

theorem HoldsFont.slice_glyph (h : c.HoldsFont) {digit : UInt8} (hdigit : digit ≤ 0xF) :
    c.memory.slice (Font.glyph digit).toNat 5 = .ok (Font.rows digit) := by
  have hle : digit.toNat ≤ 15 := UInt8.le_iff_toNat_le.1 hdigit
  have hpart := Memory.slice_of_slice h (show 5 * digit.toNat + 5 ≤ 80 by omega)
  rw [Nat.zero_add] at hpart
  rw [Font.toNat_glyph]
  exact hpart

end Core

open Display (drawSprite)
open Sprite (Blits blits_drawSprite)

theorem DrawingView.blits {δ : Type} [Display δ] {view : δ → Picture} (h : DrawingView view) (d : δ)
    (x y : Nat) (rows : List UInt8) :
    Blits (view d) x y rows (drawSprite d x y rows).1 (view (drawSprite d x y rows).2) := by
  have hblits := blits_drawSprite (view d) x y rows
  rw [drawSprite, h.drawDots] at hblits
  exact hblits

namespace Machine

variable {δ κ ρ : Type} [Display δ] [Keypad κ] [RandomSource ρ]

/-- What the action writes to memory, if anything, it does not write to the font. -/
def SparesFont (m : Machine δ κ ρ) : Action δ κ → Prop
  | .step => ∀ instruction, m.next? = some instruction → instruction.Stores →
      m.step.1 = .ok () → 80 ≤ m.core.i.toNat
  | .load source offset => ∀ count, (m.load source offset).1 = .ok count → 0 < count →
      80 ≤ offset.toNat
  | _ => True

def SparesFontThroughout (m : Machine δ κ ρ) : List (Action δ κ) → Prop
  | [] => True
  | action :: rest => m.SparesFont action ∧ (m.act action).SparesFontThroughout rest

variable {m : Machine δ κ ρ}

theorem holdsFont_step (h : m.core.HoldsFont) (hspares : m.SparesFont .step) :
    m.step.2.core.HoldsFont := by
  have hkept (hcore : m.step.2.core = m.core ∨ m.step.2.core = m.core.advance) :
      m.step.2.core.HoldsFont := by
    obtain he | he := hcore
    · exact he ▸ h
    · exact he ▸ h
  cases hs : m.step.1 with
  | error fault => exact hkept (core_step_of_error hs)
  | ok _ =>
    cases hn : m.next? with
    | none => exact hkept (core_step_of_next?_eq_none hn)
    | some instruction =>
      have hadvance : m.core.advance.HoldsFont := h
      apply core_step_of_ok hn _ hs
      apply Core.holdsFont_execute hadvance
      intro hstores
      exact hspares instruction hn hstores hs

omit [Display δ] [Keypad κ] [RandomSource ρ] in
theorem holdsFont_load (h : m.core.HoldsFont) {source : ByteSource} {offset : UInt16}
    (hspares : ∀ count, (m.load source offset).1 = .ok count → 0 < count → 80 ≤ offset.toNat) :
    (m.load source offset).2.core.HoldsFont := by
  cases hl : m.core.memory.load source offset.toNat with
  | error fault => simpa only [load, hl] using h
  | ok loaded =>
    obtain ⟨bytes, _, hcount, hwrite⟩ := Memory.load_eq_ok_iff.1 hl
    simp only [load, hl, note] at hspares ⊢
    apply h.of_writeAll hwrite
    rw [← hcount]
    exact hspares _ rfl

theorem holdsFont_act (h : m.core.HoldsFont) {action : Action δ κ} (hspares : m.SparesFont action) :
    (m.act action).core.HoldsFont := by
  cases action with
  | step => exact holdsFont_step h hspares
  | load source offset => exact holdsFont_load h hspares
  | _ => exact h

theorem holdsFont_perform {actions : List (Action δ κ)} (h : m.core.HoldsFont)
    (hspares : m.SparesFontThroughout actions) : (m.perform actions).core.HoldsFont := by
  induction actions generalizing m with
  | nil => exact h
  | cons action actions ih => exact ih (holdsFont_act h hspares.1) hspares.2

theorem SparesFontThroughout.of_append {before after : List (Action δ κ)}
    (h : m.SparesFontThroughout (before ++ after)) : m.SparesFontThroughout before := by
  induction before generalizing m with
  | nil => trivial
  | cons action before ih => exact ⟨h.1, ih h.2⟩

/-- The machine has pointed the index at `i` and drawn the sprite at the place in Vx and Vy, which
flips its pixels. VF tells of a hit, and nothing else has changed but `pc`, beside what was noted
down. -/
structure HasDrawn (m drawn : Machine δ κ ρ) (i : UInt16) (x y : Register) (sprite : List UInt8)
    (hit : Bool) : Prop where
  draws : drawSprite m.display (m.core.getV x).toNat (m.core.getV y).toNat sprite =
    (hit, drawn.display)
  drawn_eq : ∃ pc journal, drawn =
    { m with
      core := { m.core with pc, i }.setV .flag (if hit then 1 else 0)
      display := drawn.display
      journal }
  blits : ∀ view : δ → Picture, DrawingView view →
    Blits (view m.display) (m.core.getV x).toNat (m.core.getV y).toNat sprite hit
      (view drawn.display)

theorem execute_loadGlyph (m : Machine δ κ ρ) (x : Register) (pc : UInt16) :
    ∃ journal, m.execute pc (.transfer x 0x29) =
      (.ok (), { m with core := { m.core with i := Font.glyph (m.core.getV x) }, journal }) := by
  have hrequest : m.core.execute (.loadGlyph x) =
      .ofExcept (.ok { m.core with i := Font.glyph (m.core.getV x) }) := rfl
  exact ⟨_, (execute_eq_ok_iff (Instruction.decode_transfer x 0x29) hrequest).2 ⟨_, rfl, rfl⟩⟩

theorem execute_draw {word : Word} {x y : Register} {n : UInt8} {sprite : List UInt8}
    (hd : Instruction.decode word = some (.draw x y n))
    (hs : m.core.memory.slice m.core.i.toNat n.toNat = .ok sprite) (pc : UInt16) :
    ∃ hit display journal,
      drawSprite m.display (m.core.getV x).toNat (m.core.getV y).toNat sprite = (hit, display) ∧
      m.execute pc word =
        (.ok (), { m with core := m.core.setV .flag (if hit then 1 else 0), display, journal }) := by
  have hrequest : m.core.execute (.draw x y n) =
      .draw (m.core.getV x).toNat (m.core.getV y).toNat sprite
        fun hit => m.core.setV .flag hit.toUInt8 := by
    simp only [Core.execute, hs]
  refine ⟨_, _, m.journal.note (.executing pc word (.draw x y n)), rfl, ?_⟩
  simp only [execute, hd, hrequest]
  rfl

theorem exists_hasDrawn_glyph (h : m.core.HoldsFont) {digit : UInt8} (hdigit : digit ≤ 0xF)
    {a b : Register} {word : Word}
    (hword : word.bits.toNat = 0xD005 + 0x100 * a.val + 0x10 * b.val) (p pc : UInt16)
    (j : Journal) :
    ∃ drawn hit,
      { m with core := { m.core with pc := p, i := Font.glyph digit }, journal := j }.execute pc
        word = (.ok (), drawn) ∧
      m.HasDrawn drawn (Font.glyph digit) a b (Font.rows digit) hit := by
  have hd : Instruction.decode word = some (.draw a b 5) := by
    apply Instruction.decode_of_draw (by decide)
    change word.bits.toNat = 0xD000 + 0x100 * a.val + 0x10 * b.val + 5
    omega
  obtain ⟨hit, display, journal, hcalled, hdraw⟩ := execute_draw
    (m := { m with core := { m.core with pc := p, i := Font.glyph digit }, journal := j }) hd
    (h.slice_glyph hdigit) pc
  have hdraws : drawSprite m.display (m.core.getV a).toNat (m.core.getV b).toNat
      (Font.rows digit) = (hit, display) := hcalled
  refine ⟨_, hit, hdraw, hdraws, ⟨p, journal, rfl⟩, ?_⟩
  intro view hview
  have hblits := hview.blits m.display (m.core.getV a).toNat (m.core.getV b).toNat
    (Font.rows digit)
  rw [hdraws] at hblits
  exact hblits

/-- A core can be booted exactly on 80 bytes of memory or more. Whatever is then done to the machine,
the font is in the first 80 bytes in every state that is reached, provided that no load of at least
one byte that succeeds starts below 80, and that no `Fx33` and no `Fx55` succeeds with an index below
80. Where the font is, `Fx29` with a digit in Vx and a following `Dab5`, wherever `pc` is by then,
succeed, and draw just the five rows of the digit's glyph at (Va, Vb). -/
theorem font_stays_usable :
    (∀ memorySize start,
      ((∃ c, Core.boot memorySize start = .ok c) ↔ 80 ≤ memorySize.toNat) ∧
      ∀ fault, Core.boot memorySize start = .error fault ↔
        memorySize.toNat < 80 ∧ fault = .outOfBounds 0 80 memorySize.toNat) ∧
    (∀ config display keypad random journal (booted : Machine δ κ ρ),
      boot config display keypad random journal = .ok booted →
      ∀ actions, booted.SparesFontThroughout actions →
      ∀ before, before <+: actions → (booted.perform before).core.HoldsFont) ∧
    ∀ m : Machine δ κ ρ, m.core.HoldsFont →
      ∀ x : Register, m.core.getV x ≤ 0xF → ∀ pc, ∃ pointed,
        m.execute pc (.transfer x 0x29) = (.ok (), pointed) ∧
        ∀ (a b : Register) (word : Word),
          word.bits.toNat = 0xD005 + 0x100 * a.val + 0x10 * b.val →
          ∀ p pc', ∃ drawn hit,
            { pointed with core := { pointed.core with pc := p } }.execute pc' word =
              (.ok (), drawn) ∧
            m.HasDrawn drawn (Font.glyph (m.core.getV x)) a b (Font.rows (m.core.getV x)) hit := by
  refine ⟨fun memorySize start => ⟨?_, fun fault => Core.boot_eq_error_iff⟩, ?_, ?_⟩
  · constructor
    · rintro ⟨c, hc⟩
      apply Nat.not_lt.1
      intro hsmall
      cases hc.symm.trans (Core.boot_eq_error_iff.2 ⟨hsmall, rfl⟩)
    · intro hlarge
      exact Core.exists_boot hlarge start
  · rintro config display keypad random journal booted hboot actions hspares before ⟨after, rfl⟩
    obtain ⟨core, hcore, rfl⟩ := boot_eq_ok_iff.1 hboot
    exact holdsFont_perform (Core.holdsFont_boot hcore) hspares.of_append
  · intro m h x hdigit pc
    obtain ⟨journal, hpoint⟩ := m.execute_loadGlyph x pc
    refine ⟨_, hpoint, ?_⟩
    intro a b word hword p pc'
    exact exists_hasDrawn_glyph h hdigit hword p pc' journal

/-- V0 is set to 7, and its three digits are stored at 0x5A, behind the program. -/
def storing : List (Action Picture NoKeypad) :=
  [.load (.ofBytes [0x60, 0x07, 0xA0, 0x5A, 0xF0, 0x33]) 0x50, .step, .step, .step]

def hasStored : Machine Picture NoKeypad ByteTape :=
  (fresh .blank ⟨⟩ (.ofBytes [])).perform storing

/-- After the digits have been stored, the rows of the 7 are drawn in the corner. -/
theorem font_stays_usable_seven :
    (fresh Picture.blank NoKeypad.mk (ByteTape.ofBytes [])).SparesFontThroughout storing ∧
      hasStored.core.HoldsFont ∧ hasStored.core.getV 0 = 7 ∧
      ∃ pointed drawn,
        hasStored.execute 0 (.transfer 0 0x29) = (.ok (), pointed) ∧
        pointed.execute 0 ⟨0xD115⟩ = (.ok (), drawn) ∧
        drawn.display = (drawSprite hasStored.display 0 0 [0xF0, 0x10, 0x20, 0x40, 0x40]).2 := by
  obtain ⟨_, hholds, hdraws⟩ := @font_stays_usable Picture NoKeypad ByteTape _ _ _
  have hspares : (fresh Picture.blank NoKeypad.mk (ByteTape.ofBytes [])).SparesFontThroughout
      storing := by
    refine ⟨fun _ _ _ => by decide, ?_, ?_, fun _ _ _ _ => by decide +kernel, trivial⟩
    · intro instruction hn hstores _
      obtain rfl : instruction = .loadByte 0 7 :=
        Option.some.inj (hn.symm.trans (by decide +kernel))
      exact hstores.elim
    · intro instruction hn hstores _
      obtain rfl : instruction = .loadIndex 0x5A :=
        Option.some.inj (hn.symm.trans (by decide +kernel))
      exact hstores.elim
  have hfont : hasStored.core.HoldsFont :=
    hholds _ _ _ _ _ _ (boot_fresh _ _ _) storing hspares storing (List.prefix_refl _)
  have hseven : hasStored.core.getV 0 = 7 := by decide +kernel
  have hcorner : hasStored.core.getV 1 = 0 := by decide +kernel
  have hdigit : hasStored.core.getV 0 ≤ 0xF := by
    rw [hseven]
    decide
  obtain ⟨pointed, hpoint, hall⟩ := hdraws hasStored hfont 0 hdigit 0
  obtain ⟨drawn, hit, hdraw, hdrawn⟩ := hall 1 1 ⟨0xD115⟩ (by decide) pointed.core.pc 0
  have hrows : Font.rows 7 = [0xF0, 0x10, 0x20, 0x40, 0x40] := by decide
  have hcalled := hdrawn.draws
  rw [hseven, hcorner, hrows, UInt8.toNat_zero] at hcalled
  refine ⟨hspares, hfont, hseven, pointed, drawn, hpoint, hdraw, ?_⟩
  rw [hcalled]

end Machine

end ChipEight
