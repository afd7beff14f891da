import ChipEight.Proofs.Machine.Timers
import ChipEight.Proofs.Run.Unfolding

namespace ChipEight

namespace Machine

variable {δ κ ρ : Type} [Display δ] [Keypad κ] [RandomSource ρ]

/-- Whatever has been done to a machine since it was booted, each timer is at `s - t`, or at zero,
if it was last set to `s`, `t` ticks ago; a tone sounds as long as the sound timer has not run out;
and an instruction that reads the delay timer puts just this into its register. The history counts
what is done in a run, and the machine that takes a step of it is the one that the actions before
the step lead to. -/
theorem timers_run_down {config : Config} {display : δ} {keypad : κ} {random : ρ}
    {journal : Journal} {booted : Machine δ κ ρ}
    (hboot : boot config display keypad random journal = .ok booted) (deeds : List (Deed δ κ)) :
    let history := booted.history deeds
    let m := booted.pursue deeds
    SameButJournal (booted.perform history) m ∧
      (∀ timer, (∃ s t, booted.LastSet timer history s t) ∧
        ∀ s t, booted.LastSet timer history s t → (timer.value m.core).toNat = s.toNat - t) ∧
      (m.core.soundActive = true ↔ 0 < (Timer.sound.value m.core).toNat) ∧
      ∀ before x, before ++ [.step] <+: history →
        (booted.perform before).next? = some (.readDelay x) →
          (booted.perform before).step.1 = .ok () ∧
            ∀ s t, booted.LastSet .delay before s t →
              ((booted.perform before).step.2.core.getV x).toNat = s.toNat - t := by
  intro history m
  have hsame : SameButJournal (booted.perform history) m := perform_history booted deeds
  refine ⟨hsame, fun timer => ⟨exists_lastSet booted timer history, fun s t hlast => ?_⟩, ?_, ?_⟩
  · rw [hsame.core]
    exact value_of_lastSet (value_boot hboot) hlast
  · exact decide_eq_true_iff.trans UInt8.lt_iff_toNat_lt
  · intro before x _ hn
    obtain ⟨hok, hread⟩ := step_of_readDelay hn
    refine ⟨hok, fun s t hlast => ?_⟩
    rw [hread]
    have hzero : Timer.delay.value booted.core = 0 := value_boot hboot
    exact value_of_lastSet hzero hlast

/-- V0 is set to 5 and the delay timer to V0; two ticks later it is read into V1. -/
def delayRead : List (Action Picture NoKeypad) :=
  [.load (.ofBytes [0x60, 0x05, 0xF0, 0x15, 0xF1, 0x07]) 0x50, .step, .step, .tick, .tick, .step]

theorem timers_run_down_read :
    ∃ booted : Machine Picture NoKeypad ByteTape,
      boot ⟨96, 0x50, true⟩ .blank ⟨⟩ (.ofBytes []) (.start none) = .ok booted ∧
        booted.LastSet .delay delayRead 5 2 ∧
        (booted.pursue (delayRead.map .act)).core.delay.toNat = 3 ∧
        ((booted.perform (delayRead.take 5)).step.2.core.getV 1).toNat = 3 := by
  refine ⟨fresh .blank ⟨⟩ (.ofBytes []), boot_fresh _ _ _, ?_⟩
  obtain ⟨_, hvalue, _, hread⟩ :=
    timers_run_down (boot_fresh Picture.blank NoKeypad.mk (ByteTape.ofBytes []))
      (delayRead.map .act)
  have hset : ((fresh Picture.blank NoKeypad.mk (ByteTape.ofBytes [])).perform
      (delayRead.take 2)).Sets .delay 5 :=
    ⟨isOk_step_iff.1 (by decide +kernel), 0, by decide +kernel, by decide +kernel⟩
  have hnext : ((fresh Picture.blank NoKeypad.mk (ByteTape.ofBytes [])).perform
      (delayRead.take 5)).next? = some (.readDelay 1) := by
    decide +kernel
  -- The two ticks cannot set the timer, nor does the step that reads it.
  have hticks : ((fresh Picture.blank NoKeypad.mk (ByteTape.ofBytes [])).perform
      (delayRead.take 3)).NeverSets .delay [.tick, .tick] :=
    neverSets_cons.2 ⟨nofun, neverSets_cons.2 ⟨nofun, fun before h => by simp at h⟩⟩
  have hsince : ((fresh Picture.blank NoKeypad.mk (ByteTape.ofBytes [])).perform
      (delayRead.take 3)).NeverSets .delay [.tick, .tick, .step] := by
    refine neverSets_cons.2 ⟨nofun, neverSets_cons.2 ⟨nofun, neverSets_cons.2 ⟨?_, ?_⟩⟩⟩
    · rintro - s ⟨_, x, hn, _⟩
      cases hnext.symm.trans hn
    · exact fun before h => by simp at h
  have hlast : (fresh Picture.blank NoKeypad.mk (ByteTape.ofBytes [])).LastSet .delay
      delayRead 5 2 := .set (delayRead.take 2) hset hsince
  exact ⟨hlast, (hvalue .delay).2 5 2 hlast,
    (hread (delayRead.take 5) 1 (List.prefix_refl _) hnext).2 5 2
      (.set (delayRead.take 2) hset hticks)⟩

end Machine

end ChipEight
