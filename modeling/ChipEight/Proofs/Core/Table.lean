import ChipEight.Core.Table
import ChipEight.Proofs.Text.Escape

namespace ChipEight.Core

open Text (Plain)

def subjects : List String :=
  (List.finRange 16).map (fun r : Register => "V" ++ Numeral.hex 1 r) ++
    ["I", "DT", "ST", "PC", "PC+1", "SP"]

theorem map_subject_rows (c : Core) : c.rows.map Row.subject = subjects := by
  rw [rows, List.map_append, List.map_map]
  rfl

theorem subject_of_mem_rows {c : Core} {r : Row} (h : r ∈ c.rows) : r.subject ∈ subjects := by
  rw [← map_subject_rows c]
  exact List.mem_map_of_mem h

section Characters

variable {d : Char}

theorem Row.not_mem_cells {r : Row} (hd : Numeral.charValue? d = none) (hdash : d ≠ '-')
    (h : d ∉ r.subject.toList) : ∀ cell ∈ r.cells, d ∉ cell.toList := by
  have habsent : d ∉ absent.toList := by
    have hdashes : absent.toList = .replicate 3 '-' := rfl
    intro hmem
    rw [hdashes] at hmem
    exact hdash (List.eq_of_mem_replicate hmem)
  have hreferenced : d ∉ ((r.referenced.map (Numeral.address 2)).getD absent).toList ∧
      d ∉ ((r.referenced.map Numeral.decimal).getD absent).toList := by
    cases r.referenced with
    | none => exact ⟨habsent, habsent⟩
    | some n => exact ⟨Numeral.not_mem_address hd 2 n, Numeral.not_mem_decimal hd n⟩
  intro cell hcell
  simp only [cells, List.mem_cons, List.not_mem_nil, or_false] at hcell
  rcases hcell with rfl | rfl | rfl | rfl | rfl
  · exact h
  · exact Numeral.not_mem_address hd 2 r.value
  · exact Numeral.not_mem_decimal hd r.value
  · exact hreferenced.1
  · exact hreferenced.2

theorem toList_cellText (width : Nat) (cell : String) :
    (cellText width cell).toList =
      ' ' :: (cell.toList ++ ' ' :: .replicate (width - cell.length) ' ') := by
  rw [cellText, String.toList_append, String.toList_append, String.toList_append,
    Text.toList_pushn, List.append_assoc, ← List.replicate_succ, List.replicate_succ']
  simp

theorem not_mem_cellText (hblank : d ≠ ' ') (width : Nat) {cell : String} (h : d ∉ cell.toList) :
    d ∉ (cellText width cell).toList := by
  rw [toList_cellText]
  intro hmem
  rcases List.mem_cons.1 hmem with rfl | hmem
  · exact hblank rfl
  · rw [← List.replicate_succ] at hmem
    rcases List.mem_append.1 hmem with hmem | hmem
    · exact h hmem
    · exact hblank (List.eq_of_mem_replicate hmem)

theorem not_mem_lineText (hblank : d ≠ ' ') (hbar : d ≠ '|') {cells : List String}
    (h : ∀ cell ∈ cells, d ∉ cell.toList) : d ∉ (lineText cells).toList := by
  have hends : d ∉ "|".toList := by
    intro hmem
    exact hbar (List.mem_singleton.1 hmem)
  have htexts : ∀ text ∈ header.zipWith (fun title cell => cellText title.length cell) cells,
      d ∉ text.toList := by
    intro text htext
    rw [← List.map_uncurry_zip_eq_zipWith] at htext
    obtain ⟨⟨title, cell⟩, hmem, rfl⟩ := List.mem_map.1 htext
    exact not_mem_cellText hblank _ (h cell (List.of_mem_zip hmem).2)
  simp only [lineText, String.toList_append, List.mem_append, not_or]
  exact ⟨⟨hends, Text.not_mem_intercalate hends htexts⟩, hends⟩

/-- What the table has besides letters and digits. -/
def frame : List Char := "|+-= ()".toList

theorem not_mem_of_mem_tableLines {c : Core} (hd : Numeral.charValue? d = none) (hframe : d ∉ frame)
    {line : String} (h : line ∈ c.tableLines) : d ∉ line.toList := by
  have hnames : ∀ name ∈ border :: divider :: (header ++ subjects),
      name.toList.all fun c => c ∈ frame ∨ (Numeral.charValue? c).isSome := by decide +kernel
  have hname {name : String} (hname : name ∈ border :: divider :: (header ++ subjects)) :
      d ∉ name.toList := by
    intro hmem
    rcases of_decide_eq_true (List.all_eq_true.1 (hnames name hname) d hmem) with hin | hsome
    · exact hframe hin
    · rw [hd] at hsome
      cases hsome
  have hne {e : Char} (he : e ∈ frame) : d ≠ e := by
    rintro rfl
    exact hframe he
  have hline {cells : List String} (hcells : ∀ cell ∈ cells, d ∉ cell.toList) :
      d ∉ (lineText cells).toList :=
    not_mem_lineText (hne (by decide)) (hne (by decide)) hcells
  simp only [tableLines, List.mem_cons, List.mem_append, List.mem_map, List.not_mem_nil,
    or_false] at h
  rcases h with (rfl | rfl | rfl | ⟨r, hr, rfl⟩) | rfl
  · exact hname (by simp)
  · exact hline fun title htitle => hname (by simp [htitle])
  · exact hname (by simp)
  · exact hline (Row.not_mem_cells hd (hne (by decide)) (hname (by simp [subject_of_mem_rows hr])))
  · exact hname (by simp)

end Characters

theorem plain_table (c : Core) : Plain c.table.toList := by
  have hnewline : Plain "\n".toList := by decide
  exact Text.not_mem_intercalate hnewline fun line hline =>
    not_mem_of_mem_tableLines (by decide) (by decide) hline

end ChipEight.Core
