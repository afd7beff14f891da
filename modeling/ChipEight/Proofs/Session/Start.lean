import ChipEight.Proofs.Core.Table
import ChipEight.Proofs.Display.Transcript
import ChipEight.Proofs.Run.Drawn
import ChipEight.Proofs.Session.Ready

namespace ChipEight.Session

open Terminal (hideCursor clearScreen showCursor)
open Text (Skips occurrences)

variable {ρ : Type}

def greeting (o : Options) : List Char :=
  if o.debugDisplay then [] else "\x1b[?25l".toList ++ "\x1b[2J".toList

def epilogue (o : Options) (core : Core) : List Char :=
  if o.dump then ("\r\n" ++ core.table ++ "\n").toList else []

def farewell (o : Options) : List Char := if o.debugDisplay then [] else "\x1b[?25h".toList

theorem exists_openScreen (o : Options) :
    ∃ screen, openScreen o .unlimited = .ok screen ∧ screen.Holds (greeting o) ∧
      screen.farewell = farewell o := by
  cases hdebug : o.debugDisplay with
  | true =>
    refine ⟨.grid (.start .unlimited), by simp [openScreen, hdebug], ?_, ?_⟩
    · rw [greeting, if_pos hdebug]
      exact ⟨_, rfl, Writer.holds_unlimited⟩
    · rw [farewell, if_pos hdebug]
      rfl
  | false =>
    have hnot : ¬ o.debugDisplay = true := by simp [hdebug]
    refine ⟨.terminal ⟨.blank, (Writer.unlimited.write (hideCursor ++ clearScreen)).2, true⟩, ?_, ?_,
      ?_⟩
    · rw [openScreen, if_neg hnot]
      rfl
    · rw [greeting, if_neg hnot]
      exact ⟨_, rfl, Writer.holds_unlimited.write _⟩
    · rw [farewell, if_neg hnot]
      rfl

theorem skips_epilogue (o : Options) (core : Core) : Skips showCursor (epilogue o core) := by
  have hbefore : Text.Plain "\r\n".toList := by decide
  have hafter : Text.Plain "\n".toList := by decide
  rw [epilogue, String.toList_append, String.toList_append]
  split
  next => exact Terminal.skips_of_plain ((hbefore.append core.plain_table).append hafter)
  next => exact .nil

theorem holds_conclude {m : Machine Screen KeyScript ρ} {text : List Char}
    (h : m.display.Holds text) (o : Options) (result : Except Fault Outcome) :
    (conclude o result m).close.screen.Holds
      (text ++ epilogue o m.core ++ m.display.farewell) := by
  cases hdump : o.dump with
  | true =>
    have hprint := (h.print (dump m.core)).close
    rw [Screen.farewell_print] at hprint
    simp only [close, conclude, epilogue, hdump, if_true]
    exact hprint
  | false =>
    simp only [close, conclude, epilogue, hdump, Bool.false_eq_true, if_false, List.append_nil]
    exact h.close

variable [RandomSource ρ] {o : Options} {rom : Except IoError ByteSource} {screen : Screen}
  {random : ρ} {clock : Nat → Nat}

theorem start_of_ready_error {s : Session} (h : ready o rom screen random = .error s) :
    start o rom screen random clock = some s.close := by
  simp only [start, h]

theorem start_of_run {m m' : Machine Screen KeyScript ρ} {result : Except Fault Outcome}
    (h : ready o rom screen random = .ok m) (hrun : m.run o.pacing clock = (some result, m')) :
    start o rom screen random clock = some (conclude o result m').close := by
  simp only [start, h, hrun]

theorem start_of_run_none {m m' : Machine Screen KeyScript ρ}
    (h : ready o rom screen random = .ok m) (hrun : m.run o.pacing clock = (none, m')) :
    start o rom screen random clock = none := by
  simp only [start, h, hrun]

theorem holds_run {m m' : Machine Screen KeyScript ρ} {end? : Option (Except Fault Outcome)}
    (h : ready o rom screen random = .ok m) (hrun : m.run o.pacing clock = (end?, m'))
    {text : List Char} (hscreen : screen.Holds text) :
    ∃ more, Skips showCursor more ∧ m'.display.Holds (text ++ more) ∧
      m'.display.farewell = screen.farewell := by
  obtain ⟨_, _, hloaded⟩ := loaded_of_ready h
  have hdraw : m'.display = Display.draw screen (m.runStrokes o.pacing clock) := by
    have hdisplay := m.display_run o.pacing clock
    rwa [hrun, hloaded.display_eq] at hdisplay
  obtain ⟨more, hskips, hholds⟩ := hscreen.draw (m.runStrokes o.pacing clock)
  rw [hdraw]
  exact ⟨more, hskips, hholds, screen.farewell_draw _⟩

theorem holds_start {s : Session} (h : start o rom screen random clock = some s)
    {text : List Char} (hscreen : screen.Holds text) :
    ∃ more, Skips showCursor more ∧ s.screen.Holds (text ++ more ++ screen.farewell) := by
  rcases ready_cases o rom screen random with ⟨error, journal, hready, _⟩ | ⟨_, m, hready, _⟩
  · rw [start_of_ready_error hready] at h
    cases h
    exact ⟨[], .nil, by rw [List.append_nil]; exact hscreen.close⟩
  · rcases hrun : m.run o.pacing clock with ⟨_ | result, m'⟩
    · rw [start_of_run_none hready hrun] at h
      cases h
    · obtain ⟨more, hskips, hholds, hfarewell⟩ := holds_run hready hrun hscreen
      rw [start_of_run hready hrun] at h
      cases h
      have hsession := holds_conclude hholds o result
      rw [hfarewell, List.append_assoc text] at hsession
      exact ⟨more ++ epilogue o m'.core, hskips.append (skips_epilogue o m'.core), hsession⟩

/-- The output of a session on a terminal. -/
structure CursorRestored (output : List Char) : Prop where
  begins : "\x1b[?25l".toList ++ "\x1b[2J".toList <+: output
  ends : "\x1b[?25h".toList <:+ output
  once : occurrences "\x1b[?25h".toList output = 1

theorem cursorRestored {more : List Char} (h : Skips showCursor more) :
    CursorRestored (hideCursor ++ clearScreen ++ more ++ showCursor) := by
  have hskips : Skips showCursor (hideCursor ++ clearScreen ++ more) :=
    (Terminal.skips_hideCursor.append Terminal.skips_clearScreen).append h
  constructor
  case begins =>
    rw [List.append_assoc]
    exact List.prefix_append _ _
  case ends => exact List.suffix_append _ _
  case once => exact (hskips showCursor).trans rfl

/-- The screen can be opened. Then the session either fails before the first instruction, which it
does exactly if there is an obstacle, with the error of the first one; or the machine with the
program loaded is run, and the session ends when the run does, with the result of the run and with
the register table below the picture if it was asked for. In any case a terminal's cursor is shown
again at the end and not before. -/
theorem start_all_or_nothing (o : Options) (rom : Except IoError ByteSource) (random : ρ)
    (clock : Nat → Nat) :
    ∃ screen, openScreen o .unlimited = .ok screen ∧
      (∀ error, (∃ s, ready o rom screen random = .error s ∧ s.result = .error error) ↔
        Obstructed o rom error) ∧
      (∀ s, ready o rom screen random = .error s →
        s.screen = screen ∧ start o rom screen random clock = some s.close) ∧
      (∀ m, ready o rom screen random = .ok m →
        (∃ source, rom = .ok source ∧ Loaded o source.bytes screen random m) ∧
          match m.run o.pacing clock with
          | (some result, m') =>
            ∃ s, start o rom screen random clock = some s ∧ s.result = result.mapError .machine ∧
              s.screen.text.toList = m'.display.text.toList ++
                (if o.dump then ("\r\n" ++ m'.core.table ++ "\n").toList else []) ++
                (if o.debugDisplay then [] else "\x1b[?25h".toList)
          | (none, _) => start o rom screen random clock = none) ∧
      (o.debugDisplay = false → ∀ s, start o rom screen random clock = some s →
        CursorRestored s.screen.text.toList) := by
  obtain ⟨screen, hopen, hgreeting, hfarewell⟩ := exists_openScreen o
  refine ⟨screen, hopen, ?_, ?_, ?_, ?_⟩
  · exact fun error => ready_fails_iff
  · exact fun s hs => ⟨screen_of_ready hs, start_of_ready_error hs⟩
  · intro m hm
    refine ⟨loaded_of_ready hm, ?_⟩
    rcases hrun : m.run o.pacing clock with ⟨_ | result, m'⟩
    · exact start_of_run_none hm hrun
    · obtain ⟨more, _, hholds, hsame⟩ := holds_run hm hrun hgreeting
      refine ⟨_, start_of_run hm hrun, rfl, ?_⟩
      rw [(holds_conclude hholds o result).text_eq, hholds.text_eq, hsame, hfarewell]
      rfl
  · intro hterminal s hs
    obtain ⟨more, hskips, hholds⟩ := holds_start hs hgreeting
    have hnot : ¬ o.debugDisplay = true := by simp [hterminal]
    rw [hholds.text_eq, hfarewell, greeting, farewell, if_neg hnot, if_neg hnot]
    exact cursorRestored hskips

/-- Options for a memory that the font fills; programs start behind its end. -/
def fontOnly : Options := { Options.standard with memorySize := 80, start := 80, dump := true }

/-- Without a file nothing is run. An empty program is, but there is no instruction to be executed,
and the session ends with that fault once the register table has been printed. -/
theorem start_all_or_nothing_fontOnly :
    (∃ s screen, start fontOnly (.error .noSuchFile) screen (ByteTape.ofBytes []) (fun _ => 0) =
        some s ∧
      s.result = .error (.unavailable .noSuchFile) ∧ CursorRestored s.screen.text.toList) ∧
    ∃ s screen, start fontOnly (.ok (.ofBytes [])) screen (ByteTape.ofBytes []) (fun _ => 0) =
        some s ∧
      s.result = .error (.machine (.outOfBounds 80 2 80)) ∧
      CursorRestored s.screen.text.toList ∧
      ∃ (frames : List Char) (core : Core), core.pc = 80 ∧ s.screen.text.toList =
        frames ++ ("\r\n" ++ core.table ++ "\n").toList ++ "\x1b[?25h".toList := by
  constructor
  · obtain ⟨screen, _, hfails, hleft, _, hcursor⟩ :=
      start_all_or_nothing fontOnly (.error .noSuchFile) (ByteTape.ofBytes []) fun _ => 0
    have hobstructed : Obstructed fontOnly (.error .noSuchFile) (.unavailable .noSuchFile) :=
      (Obstacle.notOpened rfl).obstructed (fun _ => ⟨[], rfl⟩) (fun _ => by decide) (by omega)
    obtain ⟨s, hs, herror⟩ := (hfails _).2 hobstructed
    have hstart := (hleft s hs).2
    exact ⟨s.close, screen, hstart, herror, hcursor rfl s.close hstart⟩
  · obtain ⟨screen, _, hfails, _, hruns, hcursor⟩ :=
      start_all_or_nothing fontOnly (.ok (.ofBytes [])) (ByteTape.ofBytes []) fun _ => 0
    have hkeys : Layout.keys fontOnly.keys.toList = .ok [] := rfl
    have hclear (error : SessionError) : ¬ Obstructed fontOnly (.ok (.ofBytes [])) error := by
      rintro ⟨rank, hobstacle, _⟩
      exact not_obstacle hkeys (by decide) rfl (by decide) rank error hobstacle
    obtain ⟨m, hm⟩ : ∃ m, ready fontOnly (.ok (.ofBytes [])) screen (ByteTape.ofBytes []) = .ok m :=
      exists_ready hclear
    obtain ⟨⟨source, _, hloaded⟩, hends⟩ := hruns m hm
    obtain ⟨_, _, hrests⟩ := hloaded.rests
    have hpc : m.core.pc = 80 := by rw [hrests]; rfl
    have hfetch : m.core.fetch = .error (.outOfBounds 80 2 80) := by
      rw [Core.fetch, hpc, Memory.word_eq_error_iff, hloaded.size_eq]
      exact ⟨by decide, rfl⟩
    have hstep : m.step = (.error (.outOfBounds 80 2 80), m) := Machine.step_of_fetch_error hfetch
    have hturn : m.turn fontOnly.pacing 0 = (some (.error (.outOfBounds 80 2 80)), m.step.2) :=
      Machine.turn_of_error (by decide) (by rw [hstep])
    have hrun : m.run fontOnly.pacing (fun _ => 0) =
        (some (.error (.outOfBounds 80 2 80)), m.step.2) :=
      Machine.runWithin_of_turn hturn
    rw [hrun] at hends
    obtain ⟨s, hstart, herror, htext⟩ := hends
    refine ⟨s, screen, hstart, herror, hcursor rfl s hstart, m.step.2.display.text.toList,
      m.step.2.core, ?_, htext⟩
    rw [hstep]
    exact hpc

end ChipEight.Session
