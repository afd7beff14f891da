import ChipEight.Proofs.Core.Transfer
import ChipEight.Proofs.Instruction.Fields
import ChipEight.Proofs.Machine.Step

namespace ChipEight.Machine

variable {δ κ ρ : Type} {m m' : Machine δ κ ρ} {x : Register}

/-- The machine has changed nothing but the `len` bytes at the index, beside what it noted down. -/
def StoresAtIndex (m m' : Machine δ κ ρ) (len : Nat) : Prop :=
  ∃ memory journal, m' = { m with core := { m.core with memory }, journal } ∧
    memory.size = m.core.memory.size ∧
    ∀ k, k < m.core.i.toNat ∨ m.core.i.toNat + len ≤ k → memory.byte? k = m.core.memory.byte? k

/-- The machine has changed nothing but the registers up to Vx, beside what it noted down. -/
def LoadsUpTo (m m' : Machine δ κ ρ) (x : Register) : Prop :=
  (∃ v journal, m' = { m with core := { m.core with v }, journal }) ∧
    ∀ r : Register, x < r → m'.core.getV r = m.core.getV r

variable [Display δ] [Keypad κ] [RandomSource ρ]

theorem execute_eq_ok_iff {pc : UInt16} {word : Word} {instruction : Instruction}
    (hd : Instruction.decode word = some instruction) {result : Except Fault Core}
    (hrequest : m.core.execute instruction = .ofExcept result) :
    m.execute pc word = (.ok (), m') ↔
      ∃ core, result = .ok core ∧
        m' = { m with core, journal := m.journal.note (.executing pc word instruction) } := by
  simp only [execute, hd, hrequest]
  cases result with
  | error fault => simp [Request.ofExcept, serve]
  | ok core => simp [Request.ofExcept, serve, note, eq_comm]

theorem storesAtIndex_of_execute {pc : UInt16} {word : Word} {instruction : Instruction}
    {bytes : List UInt8} (hd : Instruction.decode word = some instruction)
    (hrequest : m.core.execute instruction = .ofExcept (m.core.storeAtIndex bytes))
    (h : m.execute pc word = (.ok (), m')) :
    m.core.storeAtIndex bytes = .ok m'.core ∧ m.StoresAtIndex m' bytes.length := by
  obtain ⟨core, hstore, rfl⟩ := (execute_eq_ok_iff hd hrequest).1 h
  refine ⟨hstore, ?_⟩
  obtain ⟨memory, hwrite, rfl⟩ := Core.storeAtIndex_eq_ok_iff.1 hstore
  refine ⟨memory, _, rfl, Memory.size_of_writeAll hwrite, fun k hk => ?_⟩
  rw [Memory.byte?_of_writeAll hwrite, if_neg (by omega)]

theorem loadsUpTo_of_execute {pc : UInt16} (h : m.execute pc (.transfer x 0x65) = (.ok (), m')) :
    m.core.loadRegisters x = .ok m'.core ∧ m.LoadsUpTo m' x := by
  obtain ⟨core, hload, rfl⟩ := (execute_eq_ok_iff (Instruction.decode_transfer x 0x65) rfl).1 h
  refine ⟨hload, ?_⟩
  obtain ⟨bytes, hslice, rfl⟩ := Core.loadRegisters_eq_ok_iff.1 hload
  have hlen := Memory.length_of_slice hslice
  exact ⟨⟨_, _, rfl⟩, fun r hr => m.core.getV_setRegisters_of_le (hlen ▸ hr)⟩

theorem execute_load_of_storeAtIndex {bytes : List UInt8} {c : Core}
    (hstore : c.storeAtIndex bytes = .ok m.core) (hlen : bytes.length = x.val + 1)
    (v : Vector UInt8 16) (pc : UInt16) :
    ∃ loaded,
      { m with core := { m.core with v } }.execute pc (.transfer x 0x65) = (.ok (), loaded) ∧
      LoadsUpTo { m with core := { m.core with v } } loaded x ∧
      ∀ r ≤ x, bytes[r.val]? = some (loaded.core.getV r) := by
  have hload := Core.loadRegisters_of_storeAtIndex hstore hlen v
  have hexecute : { m with core := { m.core with v } }.execute pc (.transfer x 0x65) =
      (.ok (), _) :=
    (execute_eq_ok_iff (Instruction.decode_transfer x 0x65) rfl).2 ⟨_, hload, rfl⟩
  refine ⟨_, hexecute, (loadsUpTo_of_execute hexecute).2, fun r hr => ?_⟩
  have hlt : r.val < bytes.length := hlen ▸ Nat.lt_succ_of_le hr
  rw [Core.getV_setRegisters, List.getElem?_eq_getElem hlt, Option.getD_some]

theorem execute_store_of_loadRegisters {c : Core} (hload : c.loadRegisters x = .ok m.core)
    (pc : UInt16) : ∃ journal, m.execute pc (.transfer x 0x55) = (.ok (), { m with journal }) := by
  have hstore := Core.storeAtIndex_of_loadRegisters hload
  exact ⟨_, (execute_eq_ok_iff (Instruction.decode_transfer x 0x55) rfl).2 ⟨_, hstore, rfl⟩⟩

/-- The words that copy between registers and memory, if they succeed. `Fx55` changes nothing but
the bytes at the index, one for each register up to Vx; from there `Fx65` restores these registers,
whatever all of them hold by then, and changes nothing else. `Fx65` changes nothing but the
registers up to Vx, and a following `Fx55` changes nothing at all. `Fx33` changes nothing but three
bytes at the index; from there `F265` loads the decimal digits of what Vx held, also if Vx is itself
among the registers loaded. -/
theorem transfer_exact (m : Machine δ κ ρ) (x : Register) (pc pc' : UInt16) :
    (∀ stored, m.execute pc (.transfer x 0x55) = (.ok (), stored) →
      m.StoresAtIndex stored (x.val + 1) ∧
      ∀ v, ∃ loaded,
        { stored with core := { stored.core with v } }.execute pc' (.transfer x 0x65) =
          (.ok (), loaded) ∧
        LoadsUpTo { stored with core := { stored.core with v } } loaded x ∧
        ∀ r ≤ x, loaded.core.getV r = m.core.getV r) ∧
    (∀ loaded, m.execute pc (.transfer x 0x65) = (.ok (), loaded) →
      m.LoadsUpTo loaded x ∧
      ∃ journal, loaded.execute pc' (.transfer x 0x55) = (.ok (), { loaded with journal })) ∧
    ∀ stored, m.execute pc (.transfer x 0x33) = (.ok (), stored) →
      m.StoresAtIndex stored 3 ∧
      ∃ loaded, stored.execute pc' (.transfer 2 0x65) = (.ok (), loaded) ∧
        stored.LoadsUpTo loaded 2 ∧
        loaded.core.getV 0 ≤ 9 ∧ loaded.core.getV 1 ≤ 9 ∧ loaded.core.getV 2 ≤ 9 ∧
        100 * (loaded.core.getV 0).toNat + 10 * (loaded.core.getV 1).toNat +
          (loaded.core.getV 2).toNat = (m.core.getV x).toNat := by
  refine ⟨fun stored h => ?_, fun loaded h => ?_, fun stored h => ?_⟩
  · obtain ⟨hstore, hstores⟩ :=
      storesAtIndex_of_execute (Instruction.decode_transfer x 0x55) rfl h
    have hlen := m.core.length_registersTo x
    refine ⟨hlen ▸ hstores, fun v => ?_⟩
    obtain ⟨loaded, hexecute, hloads, hbytes⟩ := execute_load_of_storeAtIndex hstore hlen v pc'
    refine ⟨loaded, hexecute, hloads, fun r hr => ?_⟩
    have hbyte := (m.core.getElem?_registersTo hr).symm.trans (hbytes r hr)
    exact (Option.some.inj hbyte).symm
  · obtain ⟨hload, hloads⟩ := loadsUpTo_of_execute h
    exact ⟨hloads, execute_store_of_loadRegisters hload pc'⟩
  · obtain ⟨hstore, hstores⟩ :=
      storesAtIndex_of_execute (Instruction.decode_transfer x 0x33) rfl h
    obtain ⟨hundreds, tens, ones, hdigits, hh, ht, ho, hsum⟩ :=
      Core.decimalDigits_eq (m.core.getV x)
    rw [hdigits] at hstore hstores
    obtain ⟨loaded, hexecute, hloads, hbytes⟩ :=
      execute_load_of_storeAtIndex (x := 2) hstore rfl stored.core.v pc'
    obtain rfl := Option.some.inj (hbytes 0 (by decide))
    obtain rfl := Option.some.inj (hbytes 1 (by decide))
    obtain rfl := Option.some.inj (hbytes 2 (by decide))
    exact ⟨hstores, loaded, hexecute, hloads, hh, ht, ho, hsum⟩

/-- Three bytes of memory, 7, 8 and 9, and V2 holding 234. -/
def threeBytes : Machine Picture NoKeypad ByteTape :=
  let m := ofBytes [7, 8, 9]
  { m with core := m.core.setV 2 234 }

/-- All three words succeed where memory just suffices, and V2 is overwritten by its own last digit. -/
theorem transfer_exact_at_end :
    (∃ stored, threeBytes.execute 0 (.transfer 2 0x55) = (.ok (), stored) ∧
      threeBytes.StoresAtIndex stored 3) ∧
    (∃ loaded, threeBytes.execute 0 (.transfer 2 0x65) = (.ok (), loaded) ∧
      ∃ journal, loaded.execute 0 (.transfer 2 0x55) = (.ok (), { loaded with journal })) ∧
    ∃ stored, threeBytes.execute 0 (.transfer 2 0x33) = (.ok (), stored) ∧
      ∃ loaded, stored.execute 0 (.transfer 2 0x65) = (.ok (), loaded) ∧
        100 * (loaded.core.getV 0).toNat + 10 * (loaded.core.getV 1).toNat +
          (loaded.core.getV 2).toNat = 234 := by
  obtain ⟨hstore, hload, hdigits⟩ := transfer_exact threeBytes 2 0 0
  have hstored : threeBytes.execute 0 (.transfer 2 0x55) = (.ok (), _) := rfl
  have hloaded : threeBytes.execute 0 (.transfer 2 0x65) = (.ok (), _) := rfl
  have hdecimal : threeBytes.execute 0 (.transfer 2 0x33) = (.ok (), _) := rfl
  obtain ⟨_, loaded, hexecute, _, _, _, _, hsum⟩ := hdigits _ hdecimal
  exact ⟨⟨_, hstored, (hstore _ hstored).1⟩, ⟨_, hloaded, (hload _ hloaded).2⟩,
    _, hdecimal, loaded, hexecute, hsum⟩

end ChipEight.Machine
