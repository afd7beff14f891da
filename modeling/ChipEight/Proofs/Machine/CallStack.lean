import ChipEight.Proofs.Machine.Action
import ChipEight.Proofs.Machine.Failure

namespace ChipEight

namespace Core

theorem length_calls {c : Core} (hsp : c.sp.toNat ≤ stackDepth) : c.calls.length = c.sp.toNat := by
  simp [calls, Nat.min_eq_left hsp]

theorem calls_call {c c' : Core} {target : UInt16} (h : c.call target = .ok c') :
    c'.sp.toNat ≤ stackDepth ∧ c'.calls = c.calls ++ [c.pc] := by
  obtain ⟨hlt, rfl⟩ := call_eq_ok_iff.1 h
  have hnext : (c.sp + 1).toNat = c.sp.toNat + 1 := by
    have : stackDepth = 16 := rfl
    rw [UInt16.toNat_add, UInt16.toNat_one]
    omega
  have hlen : c.sp.toNat < c.stack.toList.length := by simpa using hlt
  refine ⟨by rw [hnext]; exact hlt, ?_⟩
  simp only [calls, hnext, Vector.toList_set, List.take_add_one]
  rw [List.take_set_of_le (Nat.le_refl _), List.getElem?_set_self hlen]
  rfl

theorem calls_ret {c c' : Core} (hsp : c.sp.toNat ≤ stackDepth) (h : c.ret = .ok c') :
    c'.sp.toNat ≤ stackDepth ∧ c.calls = c'.calls ++ [c'.pc] := by
  obtain ⟨depth, target, hdepth, htarget, rfl⟩ := ret_eq_ok_iff.1 h
  have hprev : (c.sp - 1).toNat = depth := by
    have hone : (1 : UInt16) ≤ c.sp := UInt16.le_iff_toNat_le.2 (hdepth ▸ Nat.le_add_left 1 depth)
    rw [UInt16.toNat_sub_of_le _ _ hone, UInt16.toNat_one, hdepth, Nat.add_sub_cancel]
  refine ⟨by rw [hprev]; omega, ?_⟩
  simp only [calls, hprev, hdepth]
  rw [List.take_add_one, Vector.getElem?_toList, htarget]
  rfl

/-- The stack holds just the return addresses in `opened`, and `sp` counts them. -/
def Tracks (c : Core) (opened : List UInt16) : Prop :=
  c.sp.toNat ≤ stackDepth ∧ c.calls = opened

theorem Tracks.congr {c c' : Core} {opened : List UInt16} (h : c.Tracks opened)
    (hsp : c'.sp = c.sp) (hstack : c'.stack = c.stack) : c'.Tracks opened := by
  unfold Tracks calls at *
  rwa [hsp, hstack]

theorem Tracks.length {c : Core} {opened : List UInt16} (h : c.Tracks opened) :
    opened.length = c.sp.toNat := by
  rw [← h.2, length_calls h.1]

end Core

namespace Machine

variable {δ κ ρ : Type} [Display δ] [Keypad κ] [RandomSource ρ]

/-- The return addresses that are open after an action, from those that were open before it. -/
def opened (m : Machine δ κ ρ) (before : List UInt16) : Action δ κ → List UInt16
  | .step =>
    match m.step.1, m.next? with
    | .ok (), some (.call _) => before ++ [m.core.pc + 2]
    | .ok (), some .ret => before.dropLast
    | _, _ => before
  | _ => before

def replay (m : Machine δ κ ρ) (before : List UInt16) : List (Action δ κ) → List UInt16
  | [] => before
  | action :: rest => (m.act action).replay (m.opened before action) rest

theorem tracks_step {m : Machine δ κ ρ} {before : List UInt16} (h : m.core.Tracks before) :
    m.step.2.core.Tracks (m.opened before .step) := by
  have hadvance : m.core.advance.Tracks before := h.congr rfl rfl
  cases hs : m.step.1 with
  | error fault =>
    simp only [opened, hs]
    obtain he | he := core_step_of_error hs <;> rwa [he]
  | ok _ =>
    cases hn : m.next? with
    | none =>
      simp only [opened, hs, hn]
      obtain he | he := core_step_of_next?_eq_none hn <;> rwa [he]
    | some instruction =>
      have hkeep (hret : instruction ≠ .ret) (hcall : ∀ nnn, instruction ≠ .call nnn) :
          m.step.2.core.Tracks before := by
        have hf := core_step_of_ok hn (m.core.advance.framed_execute instruction) hs
        obtain ⟨hsp, hstack⟩ := hf.stack hret hcall
        exact hadvance.congr hsp hstack
      cases instruction with
      | call nnn =>
        have hopened : m.opened before .step = before ++ [m.core.pc + 2] := by
          simp only [opened, hs, hn]
        rw [hopened]
        refine core_step_of_ok (P := (Core.Tracks · _)) hn
          (Request.leaves_ofExcept.2 fun c' hc => ?_) hs
        obtain ⟨hle, hcalls⟩ := Core.calls_call hc
        exact ⟨hle, by rw [hcalls, hadvance.2]; rfl⟩
      | ret =>
        have hopened : m.opened before .step = before.dropLast := by simp only [opened, hs, hn]
        rw [hopened]
        refine core_step_of_ok (P := (Core.Tracks · _)) hn
          (Request.leaves_ofExcept.2 fun c' hc => ?_) hs
        obtain ⟨hle, hcalls⟩ := Core.calls_ret hadvance.1 hc
        exact ⟨hle, by rw [← hadvance.2, hcalls, List.dropLast_concat]⟩
      | _ =>
        simp only [opened, hs, hn]
        exact hkeep nofun nofun

theorem tracks_act {m : Machine δ κ ρ} {before : List UInt16} (h : m.core.Tracks before)
    (action : Action δ κ) : (m.act action).core.Tracks (m.opened before action) := by
  cases action with
  | step => exact tracks_step h
  | tick => exact h.congr rfl rfl
  | render => exact h
  | load source offset =>
    obtain ⟨memory, journal, he⟩ := m.exists_load_eq source offset
    exact h.congr (by simp [act, he]) (by simp [act, he])
  | keypad use => exact h
  | display use => exact h

theorem tracks_perform {m : Machine δ κ ρ} {before : List UInt16} (h : m.core.Tracks before)
    (actions : List (Action δ κ)) : (m.perform actions).core.Tracks (m.replay before actions) := by
  induction actions generalizing m before with
  | nil => exact h
  | cons action actions ih => exact ih (tracks_act h action)

omit [Display δ] [Keypad κ] [RandomSource ρ] in
theorem tracks_boot {config : Config} {display : δ} {keypad : κ} {random : ρ} {journal : Journal}
    {m : Machine δ κ ρ} (h : boot config display keypad random journal = .ok m) :
    m.core.Tracks [] := by
  obtain ⟨core, hcore, rfl⟩ := boot_eq_ok_iff.1 h
  obtain ⟨memory, _, rfl⟩ := Core.boot_eq_ok_iff.1 hcore
  exact ⟨Nat.zero_le _, rfl⟩

theorem call_fails_iff {m : Machine δ κ ρ} {opened : List UInt16} (h : m.core.Tracks opened)
    {nnn : UInt16} (hn : m.next? = some (.call nnn)) :
    (∃ fault, m.step.1 = .error fault) ↔ opened.length = 16 := by
  rw [step_fails_iff_refuses h.1 hn, h.length]
  constructor
  · rintro ⟨fault, hr⟩
    cases hr with
    | allCallsOpen _ hfull => exact hfull
    | outOfBounds hw hlt => cases hw
  · intro hfull
    exact ⟨_, .allCallsOpen nnn hfull⟩

theorem ret_fails_iff {m : Machine δ κ ρ} {opened : List UInt16} (h : m.core.Tracks opened)
    (hn : m.next? = some .ret) :
    (∃ fault, m.step.1 = .error fault) ↔ opened = [] := by
  rw [step_fails_iff_refuses h.1 hn, ← List.length_eq_zero_iff, h.length]
  constructor
  · rintro ⟨fault, hr⟩
    cases hr with
    | noCallOpen hz => simp [hz]
    | outOfBounds hw hlt => cases hw
  · intro hz
    exact ⟨_, .noCallOpen (UInt16.toNat_inj.1 hz)⟩

theorem pc_step_of_ret {m : Machine δ κ ρ} {opened : List UInt16} (h : m.core.Tracks opened)
    (hn : m.next? = some .ret) (hs : m.step.1 = .ok ()) :
    opened.getLast? = some m.step.2.core.pc := by
  refine core_step_of_ok (P := (opened.getLast? = some ·.pc)) hn
    (Request.leaves_ofExcept.2 fun c' hc => ?_) hs
  obtain ⟨_, hcalls⟩ := Core.calls_ret h.1 hc
  have hopened : opened = c'.calls ++ [c'.pc] := h.2.symm.trans hcalls
  rw [hopened, List.getLast?_concat]

/-- At every point of every history the stack holds the return addresses that are open, the
innermost last: a return goes to the last of them, a call fails if there are sixteen, and a return
fails if there is none. -/
theorem stack_eq_replay {config : Config} {display : δ} {keypad : κ} {random : ρ}
    {journal : Journal} {booted : Machine δ κ ρ}
    (hboot : boot config display keypad random journal = .ok booted)
    (actions : List (Action δ κ)) :
    let m := booted.perform actions
    let opened := booted.replay [] actions
    m.core.sp.toNat = opened.length ∧ opened.length ≤ 16 ∧
      m.core.stack.toList.take opened.length = opened ∧
      (m.next? = some .ret → m.step.1 = .ok () → opened.getLast? = some m.step.2.core.pc) ∧
      (∀ nnn, m.next? = some (.call nnn) →
        ((∃ fault, m.step.1 = .error fault) ↔ opened.length = 16)) ∧
      (m.next? = some .ret → ((∃ fault, m.step.1 = .error fault) ↔ opened = [])) := by
  intro m opened
  have htracks : m.core.Tracks opened := tracks_perform (tracks_boot hboot) actions
  refine ⟨htracks.length.symm, ?_, ?_, pc_step_of_ret htracks, fun nnn => call_fails_iff htracks,
    ret_fails_iff htracks⟩
  · rw [htracks.length]
    exact htracks.1
  · rw [htracks.length]
    exact htracks.2

/-- A call at 0x50 opens 0x52, and the return that follows goes there. -/
theorem stack_eq_replay_call :
    ∃ (booted : Machine Picture NoKeypad ByteTape) (actions : List (Action Picture NoKeypad)),
      boot ⟨96, 0x50, true⟩ .blank ⟨⟩ (.ofBytes []) (.start none) = .ok booted ∧
        booted.replay [] actions = [0x52] ∧
        (booted.perform actions).core.stack.toList.take 1 = [0x52] ∧
        (booted.perform actions).step.2.core.pc = 0x52 := by
  refine ⟨fresh .blank ⟨⟩ (.ofBytes []),
    [.load (.ofBytes [0x20, 0x54, 0, 0, 0x00, 0xEE]) 0x50, .step], boot_fresh _ _ _, ?_⟩
  obtain ⟨_, _, hstack, hret, _, hempty⟩ :=
    stack_eq_replay (boot_fresh Picture.blank NoKeypad.mk (ByteTape.ofBytes []))
      [.load (.ofBytes [0x20, 0x54, 0, 0, 0x00, 0xEE]) 0x50, .step]
  generalize hm : (fresh Picture.blank NoKeypad.mk (ByteTape.ofBytes [])).perform
    [.load (.ofBytes [0x20, 0x54, 0, 0, 0x00, 0xEE]) 0x50, .step] = m at *
  have hopened : (fresh Picture.blank NoKeypad.mk (ByteTape.ofBytes [])).replay []
      [.load (.ofBytes [0x20, 0x54, 0, 0, 0x00, 0xEE]) 0x50, .step] = [0x52] := by
    decide +kernel
  have hnext : m.next? = some .ret := by
    subst hm
    decide +kernel
  have hok : m.step.1 = .ok () := by
    cases h : m.step.1 with
    | ok _ => rfl
    | error fault => simpa [hopened] using (hempty hnext).1 ⟨fault, h⟩
  have hpc := hret hnext hok
  rw [hopened, List.length_singleton] at hstack
  rw [hopened, List.getLast?_singleton] at hpc
  exact ⟨hopened, hstack, (Option.some.inj hpc).symm⟩

end Machine

end ChipEight
