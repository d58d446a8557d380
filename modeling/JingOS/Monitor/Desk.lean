import JingOS.Monitor.Keys
import JingOS.Monitor.Recall
import JingOS.Monitor.Safety

/-!
# What a key does, and what it prints

Between two commands the monitor is a text with a cursor, a list of earlier texts, a mode, and
the number of cells that were drawn. A key changes these and prints a text; nothing else in the
machine changes. That is the `Desk`, and `Desk.key` says it for each key but Enter.

* `World.shown` — the state after a text was printed;
* `Desk.key` — the abstract machine: the next desk, and the text that is printed;
* `key_replies` — `handle_key_event` is that machine.
-/

namespace JingOS.Monitor

open Ascii Checked Hoare Text
open JingOS.Framebuffer JingOS.Keyboard

/-! ## Printing -/

/-- The state after `text` was printed on both consoles. -/
def World.shown (boot : Boot) (w : World) (text : String) : World :=
  { w with
    serial := w.serial ++ text
    writer := w.writer.map fun writer => (writer.writeStr boot.font text).toOption.getD writer }

section

variable {boot : Boot} {w : World}

variable (boot) in
/-- A writer in order takes every text. -/
theorem writeStr_toOption {writer : FrameBufferWriter} (h : writer.Inv) (text : String) :
    ∃ writer', writer.writeStr boot.font text = .ok writer' ∧ writer'.Inv ∧
      (writer.writeStr boot.font text).toOption.getD writer = writer' := by
  rcases FrameBufferWriter.writeStr_returns boot.font h text with ⟨writer', heq, hinv⟩
  exact ⟨writer', heq, hinv, by rw [heq]; rfl⟩

theorem World.Inv.shown (h : w.Inv) (text : String) : (w.shown boot text).Inv := by
  refine ⟨?_, h.history, h.cursor⟩
  intro writer' hwriter'
  rcases Option.map_eq_some_iff.mp hwriter' with ⟨writer, hwriter, rfl⟩
  rcases writeStr_toOption boot (h.writer writer hwriter) text with
    ⟨writer', -, hinv, heq⟩
  rw [heq]
  exact hinv

theorem writeStr_append (font : Font) (writer : FrameBufferWriter) (text text' : String) :
    writer.writeStr font (text ++ text') =
      writer.writeStr font text >>= fun writer => writer.writeStr font text' := by
  unfold FrameBufferWriter.writeStr
  rw [String.toList_append, List.foldlM_append]

/-- Printing piece by piece is printing the whole. -/
theorem shown_shown (h : w.Inv) (text text' : String) :
    (w.shown boot text).shown boot text' = w.shown boot (text ++ text') := by
  unfold World.shown
  simp only [String.append_assoc, Option.map_map]
  congr 1
  cases hwriter : w.writer with
  | none => rfl
  | some writer =>
    rcases writeStr_toOption boot (h.writer writer hwriter) text with
      ⟨writer', hwrite, hinv, heq⟩
    rcases writeStr_toOption boot hinv text' with ⟨writer'', hwrite', -, heq'⟩
    simp only [Option.map_some, Function.comp_apply, heq, heq']
    rw [writeStr_append, hwrite]
    change some writer'' = some ((writer'.writeStr boot.font text').toOption.getD writer)
    rw [hwrite']
    rfl

theorem shown_empty (w : World) : w.shown boot "" = w := by
  unfold World.shown
  have hwriter : (w.writer.map fun writer =>
      (writer.writeStr boot.font "").toOption.getD writer) = w.writer := by
    cases w.writer <;> rfl
  rw [hwriter, String.append_empty]

theorem print_run (h : w.Inv) (text : String) :
    (print boot text).run w = .ok () { w with writer := w.writer.map fun writer =>
      (writer.writeStr boot.font text).toOption.getD writer } := by
  unfold print
  rw [run_get_bind]
  cases hwriter : w.writer with
  | none =>
    simp only [Option.map_none]
    rw [← hwriter]
    rfl
  | some writer =>
    rcases writeStr_toOption boot (h.writer writer hwriter) text with
      ⟨writer', hwrite, -, heq⟩
    simp only [Option.map_some, heq]
    rw [hwrite]
    rfl

theorem consolePrint_run (h : w.Inv) (text : String) :
    (consolePrint boot text).run w = .ok () (w.shown boot text) :=
  print_run (w := { w with serial := w.serial ++ text }) ⟨h.writer, h.history, h.cursor⟩ text

/-- A line of output, on both consoles. -/
theorem consolePrintln_run (h : w.Inv) (text : String) :
    (consolePrintln boot text).run w = .ok () (w.shown boot (text ++ "\n")) := by
  have hprint := @print_run boot { w with serial := w.serial ++ text ++ "\n" }
    ⟨h.writer, h.history, h.cursor⟩ (text ++ "\n")
  unfold World.shown
  rw [← String.append_assoc]
  exact hprint

theorem printBlanks_run (h : w.Inv) (count : ℕ) :
    (printBlanks boot count).run w =
      .ok () (w.shown boot (String.ofList (List.replicate count ' '))) := by
  induction count generalizing w with
  | zero =>
    rw [List.replicate_zero, String.ofList_nil, shown_empty]
    rfl
  | succ count ih =>
    unfold printBlanks
    rw [run_bind_ok (consolePrint_run h " "), ih (h.shown " "), shown_shown h]
    congr 2
    rw [List.replicate_succ, ← List.singleton_append, String.ofList_append]

/-- The matches are printed in the order of the table. -/
theorem printMatches_run (h : w.Inv) (text : String) (names : List String) :
    (printMatches boot text names).run w = .ok () (w.shown boot
      (String.join ((names.filter (startsWith · text)).map (" " ++ ·)))) := by
  induction names generalizing w with
  | nil =>
    rw [List.filter_nil, List.map_nil, String.join_nil, shown_empty]
    rfl
  | cons name names ih =>
    unfold printMatches
    by_cases hname : startsWith name text
    · rw [if_pos hname, run_bind_ok (consolePrint_run h _), ih (h.shown _), shown_shown h,
        List.filter_cons_of_pos (p := (startsWith · text)) hname, List.map_cons, String.join_cons]
    · rw [if_neg hname, List.filter_cons_of_neg (p := (startsWith · text)) hname]
      exact ih h

end

/-! ## The desk -/

/-- All that the keys work on: the line, the history, the mode and what is drawn. -/
structure Desk where
  editor : Editor
  recalled : Recall
  overwriteMode : Bool
  renderedLen : ℕ
  /-- How often the line was drawn. -/
  redraws : ℕ

namespace Desk

/-- The line is drawn: its cells are the ones to erase next time. -/
def drawn (d : Desk) : Desk :=
  { d with
    renderedLen := monitorPrompt.length + d.editor.text.length
    redraws := d.redraws + 1 }

/-- What drawing the line prints: the line, blanks over the rest of what was drawn before, and
the line up to the cursor once more. -/
def drawing (d : Desk) : String :=
  "\r" ++ monitorPrompt ++ asciiText d.editor.text ++
    String.ofList (List.replicate
      (d.renderedLen - (monitorPrompt.length + d.editor.text.length)) ' ') ++
    ("\r" ++ monitorPrompt ++ asciiText d.editor.before)

/-- A text in the editor, with the cursor behind it. -/
def load (d : Desk) (text : List UInt8) : Desk :=
  { d with editor := { text, cursor := text.length } }

/-- A change of the text. -/
def edit (d : Desk) (op : LineOp) (refused : String) : Desk × String :=
  match d.editor.step op with
  | none => (d, refused)
  | some editor =>
    let d := { d with editor, recalled := d.recalled.reset }
    (d.drawn, d.drawing)

/-- A movement of the cursor. -/
def move (d : Desk) (op : LineOp) : Desk × String :=
  match d.editor.step op with
  | none => (d, "")
  | some editor =>
    let d := { d with editor }
    (d.drawn, d.drawing)

/-- The commands that begin with the text. -/
def candidates (d : Desk) : List String :=
  commandNames.filter (startsWith · (asciiText d.editor.text))

/-- Several candidates are listed on a line of their own. -/
def list (d : Desk) (candidates : List String) : Desk × String :=
  (d.drawn, "\n" ++ ("matches:" ++ (String.join (candidates.map (" " ++ ·)) ++
    ("\n" ++ d.drawing))))

/-- Completion: of one candidate the rest is appended. -/
def complete (d : Desk) : Desk × String :=
  let text := asciiText d.editor.text
  if text.toList.contains ' ' ∨ d.editor.after ≠ [] then (d, "")
  else
    match d.candidates with
    | [] => (d, "")
    | [command] =>
      if command.length > text.length then d.move (.appendStr (suffixOf command text)) else (d, "")
    | candidates => d.list candidates

/-- The next older text. -/
def older (d : Desk) : Desk × String :=
  if d.recalled.lines = [] then (d, "")
  else
    let d := { d with recalled := d.recalled.previous }.load (d.recalled.previous.shown.getD [])
    (d.drawn, d.drawing)

/-- The next newer text; beyond the newest, and when none is browsed, the line is empty. -/
def newer (d : Desk) : Desk × String :=
  let d := { d with recalled := d.recalled.next }.load (d.recalled.next.shown.getD [])
  (d.drawn, d.drawing)

/-- The other mode, with a line that says so. -/
def toggle (d : Desk) : Desk × String :=
  let d := { d with overwriteMode := !d.overwriteMode }
  (d.drawn, "\n" ++ (editModeLine d.overwriteMode ++ "\n" ++ d.drawing))

/-- What a key other than Enter does, and what it prints. -/
def key (d : Desk) (scancode : UInt8) : KeyEvent → Desk × String
  | .char c => d.edit (.insertOrOverwriteChar c d.overwriteMode) "<FULL>"
  | .ctrl c => (d, s!"<C-{c}>")
  | .alt c => (d, s!"<M-{c}>")
  | .ctrlAlt c => (d, s!"<C-M-{c}>")
  | .enter => (d, "")
  | .tab => d.complete
  | .backspace => d.edit .backspace ""
  | .arrowUp => d.older
  | .arrowDown => d.newer
  | .arrowLeft => d.move .moveLeft
  | .arrowRight => d.move .moveRight
  | .wordLeft => d.move .moveWordLeft
  | .wordRight => d.move .moveWordRight
  | .insert => d.toggle
  | .delete => d.edit .delete ""
  | .wordDeleteLeft => d.edit .deleteWordLeft ""
  | .wordDeleteRight => d.edit .deleteWordRight ""
  | .home => d.move .moveHome
  | .end => d.move .moveEnd
  | .pageUp => (d, "<PGUP>")
  | .pageDown => (d, "<PGDN>")
  | .function number => (d, s!"<F{number}>")
  | .escape => (d, "<ESC>" ++ "\n")
  | .unknown code =>
    (d, s!"<SC:{hexPadded code.toNat 4} RAW:{hexPadded scancode.toNat 4}>" ++ "\n")

/-- The names of the commands are short, printable, and without blanks. -/
theorem commandNames_printable : ∀ command ∈ commandNames, command.length ≤ inputLineMax ∧
    ∀ c ∈ command.toList, 0x20 < c.toNat ∧ c.toNat ≤ 0x7e := by
  have hall : (commandNames.all fun command => decide (command.length ≤ inputLineMax) &&
      command.toList.all fun c => decide (0x20 < c.toNat) && decide (c.toNat ≤ 0x7e)) = true := by
    decide
  intro command hcommand
  have hcommand := List.all_eq_true.mp hall command hcommand
  rw [Bool.and_eq_true, decide_eq_true_eq, List.all_eq_true] at hcommand
  refine ⟨hcommand.1, ?_⟩
  intro c hc
  have hc := hcommand.2 c hc
  rw [Bool.and_eq_true, decide_eq_true_eq, decide_eq_true_eq] at hc
  exact hc

theorem length_asciiText (bytes : List UInt8) : (asciiText bytes).length = bytes.length := by
  rw [← String.length_toList, toList_asciiText, List.length_map]

/-- The rest of a command always fits the line. -/
theorem step_suffixOf {e : Editor} (hcursor : e.cursor ≤ e.text.length) {command : String}
    (h : command ∈ commandNames) (hlonger : command.length > (asciiText e.text).length) :
    ∃ source : List UInt8, (∀ byte ∈ source, 0x20 < byte ∧ byte ≤ 0x7e) ∧
      source.length = command.length - e.text.length ∧
      e.step (.appendStr (suffixOf command (asciiText e.text))) = some (e.splice source) := by
  rcases commandNames_printable command h with ⟨hlength, hprintable⟩
  rw [length_asciiText] at hlonger
  -- what is left of the name is ASCII, and one byte for each character
  let rest := command.toList.drop e.text.length
  have hrest : ∀ c ∈ rest, 0x20 < c.toNat ∧ c.toNat ≤ 0x7e :=
    fun c hc => hprintable c (List.mem_of_mem_drop hc)
  have hascii : ∀ c ∈ rest, c.toNat < 128 := fun c hc => Nat.lt_succ_of_le
    ((hrest c hc).2.trans (by decide))
  have hbytes : textBytes (suffixOf command (asciiText e.text)) = rest.map charByte := by
    unfold suffixOf
    rw [length_asciiText]
    exact textBytes_ofList hascii
  have hsource : ∀ byte ∈ rest.map charByte, 0x20 < byte ∧ byte ≤ 0x7e := by
    intro byte hbyte
    rcases List.mem_map.mp hbyte with ⟨c, hc, rfl⟩
    have hc := hrest c hc
    have hbyte : (charByte c).toNat = c.toNat :=
      UInt8.toNat_ofNat_of_lt' (Nat.lt_of_le_of_lt hc.2 (by decide))
    rw [UInt8.lt_iff_toNat_lt, UInt8.le_iff_toNat_le, hbyte]
    exact hc
  have hcount : (rest.map charByte).length = command.length - e.text.length := by
    rw [List.length_map, List.length_drop, String.length_toList]
  refine ⟨rest.map charByte, hsource, hcount, ?_⟩
  unfold Editor.step Editor.insertion
  simp only [hbytes]
  have hall : (rest.map charByte).all isAscii = true := by
    rw [List.all_eq_true]
    intro byte hbyte
    exact decide_eq_true (UInt8.lt_of_le_of_lt (hsource byte hbyte).2 (by decide))
  -- no command name is longer than the line may be
  have hfits : (e.splice (rest.map charByte)).text.length ≤ inputLineMax := by
    rw [Editor.length_splice hcursor, hcount]
    omega
  rw [if_pos ⟨hall, hfits⟩]

theorem mem_commandNames_of_candidates {d : Desk} {command : String}
    (h : d.candidates = [command]) : command ∈ commandNames := by
  have hmem : command ∈ d.candidates := by
    rw [h]
    exact List.mem_singleton_self _
  exact List.mem_of_mem_filter hmem

/-- The three ends of completion. -/
theorem complete_cases (d : Desk) :
    d.complete = (d, "") ∨
      (∃ command ∈ commandNames,
        ¬ ((asciiText d.editor.text).toList.contains ' ' ∨ d.editor.after ≠ []) ∧
        d.candidates = [command] ∧ command.length > (asciiText d.editor.text).length ∧
        d.complete = d.move (.appendStr (suffixOf command (asciiText d.editor.text)))) ∨
      d.complete = d.list d.candidates := by
  unfold complete
  by_cases hskip : (asciiText d.editor.text).toList.contains ' ' ∨ d.editor.after ≠ []
  · exact .inl (if_pos hskip)
  rw [if_neg hskip]
  rcases hcandidates : d.candidates with _ | ⟨command, _ | ⟨command', rest⟩⟩
  · exact .inl rfl
  · have hcommand := mem_commandNames_of_candidates hcandidates
    by_cases hlonger : command.length > (asciiText d.editor.text).length
    · exact .inr (.inl ⟨command, hcommand, hskip, rfl, hlonger, if_pos hlonger⟩)
    · exact .inl (if_neg hlonger)
  · exact .inr (.inr rfl)

end Desk

/-! ## The loop at the desk -/

namespace Loop

structure WellFormed (s : Loop) : Prop where
  world : s.world.Inv
  history : s.world.history.WellFormed
  line : s.line.WellFormed

/-- What the loop's variables stand for. -/
def desk (s : Loop) : Desk :=
  { editor := s.line.editor, recalled := s.world.history.recalled, overwriteMode := s.overwriteMode,
    renderedLen := s.renderedLen, redraws := s.redraws }

end Loop

/-- A program has printed `out` and left `d` on the desk; of the rest only the history differs. -/
structure Answers (boot : Boot) (s : Loop) (d : Desk) (out : String) (s' : Loop) : Prop where
  wellFormed : s'.WellFormed
  desk : s'.desk = d
  world : s'.world = { s.world.shown boot out with history := s'.world.history }
  calls : s'.calls = s.calls

/-- The program returns `a`, leaves `d` on the desk and prints `out`. -/
def Replies {α : Type} (boot : Boot) (x : LoopM α) (s : Loop) (a : α) (d : Desk) (out : String) :
    Prop :=
  ∃ s', x.run s = .ok a s' ∧ Answers boot s d out s'

section

variable {boot : Boot} {s : Loop} {α β : Type}

theorem Answers.refl (h : s.WellFormed) : Answers boot s s.desk "" s where
  wellFormed := h
  desk := rfl
  world := by rw [shown_empty]
  calls := rfl

/-- One answer after the other. -/
theorem Answers.trans {s₁ s₂ : Loop} {d d' : Desk} {out out' : String} (hs : s.WellFormed)
    (h : Answers boot s d out s₁) (h' : Answers boot s₁ d' out' s₂) :
    Answers boot s d' (out ++ out') s₂ where
  wellFormed := h'.wellFormed
  desk := h'.desk
  world := by
    rw [h'.world, ← shown_shown hs.world, h.world]
    rfl
  calls := h'.calls.trans h.calls

variable (boot) in
theorem Replies.pure (h : s.WellFormed) (a : α) : Replies boot (pure a) s a s.desk "" :=
  ⟨s, rfl, Answers.refl h⟩

/-- One program after the other, with both of their texts. -/
theorem Replies.bind {x : LoopM α} {f : α → LoopM β} {a : α} {b : β} {d d' : Desk}
    {out out' : String} (hs : s.WellFormed) (hx : Replies boot x s a d out)
    (hf : ∀ s₁, s₁.WellFormed → s₁.desk = d → Replies boot (f a) s₁ b d' out') :
    Replies boot (x >>= f) s b d' (out ++ out') := by
  rcases hx with ⟨s₁, hrun, h⟩
  rcases hf s₁ h.wellFormed h.desk with ⟨s₂, hrun', h'⟩
  exact ⟨s₂, by rw [run_bind_ok hrun, hrun'], h.trans hs h'⟩

/-- The first part prints nothing. -/
theorem Replies.quiet {x : LoopM α} {f : α → LoopM β} {a : α} {b : β} {d d' : Desk}
    {out : String} (hs : s.WellFormed) (hx : Replies boot x s a d "")
    (hf : ∀ s₁, s₁.WellFormed → s₁.desk = d → Replies boot (f a) s₁ b d' out) :
    Replies boot (x >>= f) s b d' out := by
  have hbind := Replies.bind hs hx hf
  rwa [String.empty_append] at hbind

theorem Replies.get {f : Loop → LoopM β} {b : β} {d : Desk} {out : String}
    (h : Replies boot (f s) s b d out) : Replies boot (get >>= f) s b d out := by
  unfold Replies
  rw [run_get_bind]
  exact h

theorem Replies.lift {x : Checked α} {a : α} (hx : x = .ok a) {f : α → LoopM β} {b : β} {d : Desk}
    {out : String} (h : Replies boot (f a) s b d out) :
    Replies boot (Hoare.lift Stop.panic x >>= f) s b d out := by
  unfold Replies
  rw [run_lift_bind hx]
  exact h

theorem inWorld_ok {x : MonitorM α} {a : α} {w : World} (h : x.run s.world = .ok a w) :
    (inWorld x).run s = .ok a { s with world := w } := by
  unfold EStateM.run inWorld
  rw [show x s.world = .ok a w from h]

theorem inWorld_error {x : MonitorM α} {stop : Stop} {w : World}
    (h : x.run s.world = .error stop w) :
    (inWorld x).run s = .error stop { s with world := w } := by
  unfold EStateM.run inWorld
  rw [show x s.world = .error stop w from h]

/-- Printing, in the loop. -/
theorem inWorld_replies {x : MonitorM Unit} {out : String} (h : s.WellFormed)
    (hx : x.run s.world = .ok () (s.world.shown boot out)) :
    Replies boot (inWorld x) s () s.desk out := by
  refine ⟨{ s with world := s.world.shown boot out }, ?_, ?_⟩
  · exact inWorld_ok hx
  · exact ⟨⟨h.world.shown out, h.history, h.line⟩, rfl, rfl, rfl⟩

variable (boot) in
theorem print_replies (h : s.WellFormed) (text : String) :
    Replies boot (inWorld (consolePrint boot text)) s () s.desk text :=
  inWorld_replies h (consolePrint_run h.world text)

variable (boot) in
theorem println_replies (h : s.WellFormed) (text : String) :
    Replies boot (inWorld (consolePrintln boot text)) s () s.desk (text ++ "\n") :=
  inWorld_replies h (consolePrintln_run h.world text)

variable (boot) in
/-- An operation on the line, as the editor's. -/
theorem onLine_replies (h : s.WellFormed) (op : LineOp) :
    Replies boot (onLine (·.exec op)) s (s.desk.editor.step op).isSome
      { s.desk with editor := (s.desk.editor.step op).getD s.desk.editor } "" := by
  rcases InputLine.exec_refines h.line op with ⟨⟨done, line⟩, hexec, hwf, hdone, heditor⟩
  refine ⟨{ s with line }, ?_, ⟨⟨h.world, h.history, hwf⟩, ?_, ?_, rfl⟩⟩
  · unfold onLine
    rw [run_get_bind, run_lift_bind hexec]
    change EStateM.Result.ok done _ = .ok (s.line.editor.step op).isSome _
    rw [← hdone]
  · unfold Loop.desk
    rw [heditor]
  · rw [shown_empty]

theorem resetBrowsing_replies (h : s.WellFormed) :
    Replies boot resetBrowsing s () { s.desk with recalled := s.desk.recalled.reset } "" := by
  refine ⟨{ s with world := { s.world with history := s.world.history.resetBrowsing } }, rfl, ?_⟩
  have hwf := CommandHistory.resetBrowsing_wellFormed h.history
  refine ⟨⟨⟨h.world.writer, hwf.toInv, h.world.cursor⟩, hwf, h.line⟩, rfl, ?_, rfl⟩
  rw [shown_empty]

variable (boot) in
/-- Drawing the line. -/
theorem redraw_replies (h : s.WellFormed) :
    Replies boot (redrawPromptWithLine boot) s () s.desk.drawn s.desk.drawing := by
  have hlen := h.line.lenLe
  have htext := InputLine.length_text h.line
  have hprompt : monitorPrompt.length = 8 := by decide
  have hmax : inputLineMax = 128 := rfl
  have hvisible : add monitorPrompt.length s.line.len =
      .ok (monitorPrompt.length + s.line.len) := add_eq (by omega)
  -- the three texts, one after the other
  let w₁ := s.world.shown boot ("\r" ++ monitorPrompt ++ asciiText s.line.editor.text)
  let w₂ := w₁.shown boot (String.ofList (List.replicate
    (s.renderedLen - (monitorPrompt.length + s.line.len)) ' '))
  let w₃ := w₂.shown boot ("\r" ++ monitorPrompt ++ asciiText s.line.editor.before)
  have h₁ : w₁.Inv := h.world.shown _
  have h₂ : w₂.Inv := h₁.shown _
  have hw₃ : w₃ = s.world.shown boot s.desk.drawing := by
    change (w₁.shown boot _).shown boot _ = _
    rw [shown_shown h₁, shown_shown h.world, ← String.append_assoc]
    unfold Desk.drawing
    rw [show s.desk.editor.text.length = s.line.len from htext]
    rfl
  refine ⟨{ s with world := w₃, renderedLen := monitorPrompt.length + s.line.len,
                   redraws := s.redraws + 1 }, ?_, ?_⟩
  · unfold redrawPromptWithLine
    rw [run_get_bind, run_lift_bind hvisible, run_lift_bind (InputLine.asStr_eq h.line),
      run_bind_ok (inWorld_ok (consolePrint_run h.world _)),
      run_bind_ok (inWorld_ok (printBlanks_run h₁ _)),
      run_lift_bind (InputLine.asPrefixStr_eq h.line),
      run_bind_ok (inWorld_ok (consolePrint_run h₂ _))]
    rfl
  · refine ⟨⟨h₂.shown _, h.history, h.line⟩, ?_, hw₃, rfl⟩
    unfold Loop.desk Desk.drawn
    simp only
    rw [htext]
    rfl

theorem stay_replies {x : LoopM Unit} {d : Desk} {out : String}
    (hx : Replies boot x s () d out) : Replies boot (stay x) s false d out := by
  rcases hx with ⟨s', hrun, h⟩
  exact ⟨s', by rw [stay, run_bind_ok hrun]; rfl, h⟩

/-- A key that changes the text, for each of the operations on it. -/
theorem editKey_replies (h : s.WellFormed) (op : LineOp) {refused : MonitorM Unit} {text : String}
    (hrefused : ∀ s : Loop, s.WellFormed → Replies boot (inWorld refused) s () s.desk text) :
    Replies boot (editKey boot (·.exec op) refused) s () (s.desk.edit op text).1
      (s.desk.edit op text).2 := by
  have hline := onLine_replies boot h op
  unfold editKey Desk.edit
  cases hstep : s.desk.editor.step op with
  | none =>
    rw [hstep] at hline
    refine hline.quiet h fun s₁ hs₁ hdesk => ?_
    have hrefused₁ := hrefused s₁ hs₁
    rw [hdesk] at hrefused₁
    exact hrefused₁
  | some editor =>
    rw [hstep] at hline
    refine hline.quiet h fun s₁ hs₁ hdesk => ?_
    refine (resetBrowsing_replies hs₁).quiet hs₁ fun s₂ hs₂ hdesk₂ => ?_
    have hredraw := redraw_replies boot hs₂
    rw [hdesk₂, hdesk] at hredraw
    exact hredraw

/-- A key that moves the cursor. -/
theorem moveKey_replies (h : s.WellFormed) (op : LineOp) :
    Replies boot (moveKey boot (·.exec op)) s () (s.desk.move op).1 (s.desk.move op).2 := by
  have hline := onLine_replies boot h op
  unfold moveKey Desk.move
  cases hstep : s.desk.editor.step op with
  | none =>
    rw [hstep] at hline
    refine hline.quiet h fun s₁ hs₁ hdesk => ?_
    have hpure := Replies.pure boot hs₁ ()
    rw [hdesk] at hpure
    exact hpure
  | some editor =>
    rw [hstep] at hline
    refine hline.quiet h fun s₁ hs₁ hdesk => ?_
    have hredraw := redraw_replies boot hs₁
    rw [hdesk] at hredraw
    exact hredraw

/-! ### History -/

theorem onHistory_run {operation : CommandHistory → Checked (α × CommandHistory)} {a : α}
    {history : CommandHistory} (hrun : operation s.world.history = .ok (a, history)) :
    (onHistory operation).run s = .ok a { s with world := { s.world with history } } := by
  unfold onHistory
  rw [run_get_bind, run_lift_bind hrun]
  rfl

variable (boot) in
/-- An operation of the history, as the list's. -/
theorem onHistory_replies (h : s.WellFormed)
    {operation : CommandHistory → Checked (α × CommandHistory)} {a : α} {history : CommandHistory}
    (hrun : operation s.world.history = .ok (a, history)) (hwf : history.WellFormed) :
    Replies boot (onHistory operation) s a { s.desk with recalled := history.recalled } "" := by
  refine ⟨{ s with world := { s.world with history } }, onHistory_run hrun, ?_⟩
  refine ⟨⟨⟨h.world.writer, hwf.toInv, h.world.cursor⟩, hwf, h.line⟩, rfl, ?_, rfl⟩
  rw [shown_empty]

/-- An entry always fits the line. -/
theorem recallEntry_replies (h : s.WellFormed) {entry : HistoryEntry} (hentry : entry.WellFormed) :
    Replies boot (recallEntry entry) s () (s.desk.load entry.text) "" := by
  have hbytes := textBytes_asciiText hentry.ascii
  have hle : entry.text.length ≤ inputLineMax := by
    unfold HistoryEntry.text
    exact (List.length_take_le _ _).trans hentry.lenLe
  have hall : entry.text.all isAscii = true := by
    rw [List.all_eq_true]
    intro byte hbyte
    exact decide_eq_true (hentry.ascii byte hbyte)
  have hstep : s.desk.editor.step (.setFromStr (asciiText entry.text)) =
      some { text := entry.text, cursor := entry.text.length } := by
    unfold Editor.step Editor.insertion
    simp only [hbytes]
    rw [if_pos ⟨hall, hle⟩]
  have hline := onLine_replies boot h (.setFromStr (asciiText entry.text))
  rw [hstep] at hline
  rcases hline with ⟨s', hrun, hanswers⟩
  change EStateM.run (onLine (·.setFromStr (asciiText entry.text))) s = _ at hrun
  refine ⟨s', ?_, hanswers⟩
  unfold recallEntry
  rw [run_lift_bind (HistoryEntry.asStr_eq hentry), run_bind_ok hrun]
  rfl

theorem clearLine_replies (h : s.WellFormed) :
    Replies boot clearLine s () (s.desk.load []) "" := by
  refine ⟨{ s with line := s.line.clear }, rfl, ⟨⟨h.world, h.history, ?_⟩, rfl, ?_, rfl⟩⟩
  · exact ⟨h.line.size, Nat.le_refl _, Nat.zero_le _, by simp [InputLine.clear]⟩
  · rw [shown_empty]

/-- While there are entries, the one that is browsed is shown. -/
theorem shown_previous {r : Recall} (hlines : r.lines ≠ []) :
    ∃ text, r.previous.shown = some text := by
  have hpos : 0 < r.lines.length := List.length_pos_iff.mpr hlines
  unfold Recall.previous
  rw [if_neg hlines]
  unfold Recall.shown
  simp only [Option.bind_some]
  cases hr : r.age with
  | none => exact ⟨_, List.getElem?_eq_getElem hpos⟩
  | some age =>
    have hlt : min (age + 1) (r.lines.length - 1) < r.lines.length := by omega
    exact ⟨_, List.getElem?_eq_getElem hlt⟩

/-- The arrow up: the line that is one older, drawn. -/
theorem arrowUp_replies (h : s.WellFormed) :
    Replies boot (arrowUpKey boot) s () s.desk.older.1 s.desk.older.2 := by
  rcases CommandHistory.previous_recall h.history with
    ⟨⟨entry, history⟩, hrun, hwf, hrecall, htext, hentry⟩
  change history.recalled = s.desk.recalled.previous at hrecall
  change entry.map HistoryEntry.text =
    if s.desk.recalled.lines = [] then none else s.desk.recalled.previous.shown at htext
  have hhistory := onHistory_replies boot h hrun hwf
  rw [hrecall] at hhistory
  unfold Desk.older
  refine hhistory.quiet h fun s₁ hs₁ hdesk => ?_
  by_cases hlines : s.desk.recalled.lines = []
  · -- nothing is kept: the history stays as it is
    rw [if_pos hlines] at htext ⊢
    have hprevious : s.desk.recalled.previous = s.desk.recalled := if_pos hlines
    rw [hprevious] at hdesk
    cases entry with
    | some entry => exact absurd htext (by simp)
    | none =>
      have hpure := Replies.pure boot hs₁ ()
      rw [hdesk] at hpure
      exact hpure
  · rw [if_neg hlines] at htext ⊢
    -- the entry that is shown is loaded, and the line is drawn
    rcases shown_previous hlines with ⟨text, hshown⟩
    rw [hshown] at htext ⊢
    cases entry with
    | none => exact absurd htext (by simp)
    | some entry =>
      rw [Option.map_some, Option.some_inj] at htext
      refine (recallEntry_replies hs₁ (hentry entry rfl)).quiet hs₁ fun s₂ hs₂ hdesk₂ => ?_
      have hredraw := redraw_replies boot hs₂
      rw [hdesk₂, hdesk, htext] at hredraw
      exact hredraw

/-- The arrow down: the line that is one newer, or an empty one. -/
theorem arrowDown_replies (h : s.WellFormed) :
    Replies boot (arrowDownKey boot) s () s.desk.newer.1 s.desk.newer.2 := by
  rcases CommandHistory.next_recall h.history with
    ⟨⟨entry, history⟩, hrun, hwf, hrecall, htext, hentry⟩
  change history.recalled = s.desk.recalled.next at hrecall
  change entry.map HistoryEntry.text = s.desk.recalled.next.shown at htext
  have hhistory := onHistory_replies boot h hrun hwf
  rw [hrecall] at hhistory
  unfold Desk.newer
  rw [← htext]
  refine hhistory.quiet h fun s₁ hs₁ hdesk => ?_
  cases entry with
  | none =>
    -- beyond the newest entry the line is empty
    refine (clearLine_replies hs₁).quiet hs₁ fun s₂ hs₂ hdesk₂ => ?_
    have hredraw := redraw_replies boot hs₂
    rw [hdesk₂, hdesk] at hredraw
    exact hredraw
  | some entry =>
    refine (recallEntry_replies hs₁ (hentry entry rfl)).quiet hs₁ fun s₂ hs₂ hdesk₂ => ?_
    have hredraw := redraw_replies boot hs₂
    rw [hdesk₂, hdesk] at hredraw
    exact hredraw

theorem toggle_replies (h : s.WellFormed) :
    Replies boot (insertKey boot) s () s.desk.toggle.1 s.desk.toggle.2 := by
  have hmode : Replies boot (modify fun s : Loop => { s with overwriteMode := !s.overwriteMode }) s
      PUnit.unit { s.desk with overwriteMode := !s.desk.overwriteMode } "" :=
    ⟨{ s with overwriteMode := !s.overwriteMode }, rfl,
      ⟨⟨h.world, h.history, h.line⟩, rfl, by rw [shown_empty], rfl⟩⟩
  refine hmode.quiet h fun s₁ hs₁ hdesk => ?_
  refine Replies.bind hs₁ (println_replies boot hs₁ "") fun s₂ hs₂ hdesk₂ => ?_
  have hmode₂ : s₂.overwriteMode = !s.desk.overwriteMode := by
    change s₂.desk.overwriteMode = _
    rw [hdesk₂, hdesk]
  refine Replies.get ?_
  rw [hmode₂]
  refine Replies.bind hs₂ (println_replies boot hs₂ _) fun s₃ hs₃ hdesk₃ => ?_
  have hredraw := redraw_replies boot hs₃
  rw [hdesk₃, hdesk₂, hdesk] at hredraw
  exact hredraw

/-! ### Completion -/

/-- The first loop counts the candidates and keeps the first of them. -/
theorem foldl_matchLoop (text : String) (names : List String) (found : ℕ × String) :
    names.foldl (matchLoop text) found =
      (found.1 + (names.filter (startsWith · text)).length,
       if found.1 = 0 then (names.filter (startsWith · text)).headD found.2 else found.2) := by
  induction names generalizing found with
  | nil => simp
  | cons name names ih =>
    rw [List.foldl_cons, ih]
    unfold matchLoop
    by_cases hname : startsWith name text
    · rw [List.filter_cons_of_pos (p := (startsWith · text)) hname, if_pos hname]
      simp only [List.length_cons, List.headD_cons, Nat.add_eq_right, Nat.add_eq_zero_iff,
        Nat.one_ne_zero, and_false, if_false]
      rw [Nat.add_assoc, Nat.add_comm 1]
    · rw [List.filter_cons_of_neg (p := (startsWith · text)) hname, if_neg hname]

variable (boot) in
theorem completeWith_replies (h : s.WellFormed) (command : String) :
    Replies boot (completeWith boot command (asciiText s.desk.editor.text)) s ()
      (if command.length > (asciiText s.desk.editor.text).length then
        s.desk.move (.appendStr (suffixOf command (asciiText s.desk.editor.text)))
        else (s.desk, "")).1
      (if command.length > (asciiText s.desk.editor.text).length then
        s.desk.move (.appendStr (suffixOf command (asciiText s.desk.editor.text)))
        else (s.desk, "")).2 := by
  unfold completeWith
  by_cases hlonger : command.length > (asciiText s.desk.editor.text).length
  · rw [if_pos hlonger, if_pos hlonger]
    exact moveKey_replies h (.appendStr (suffixOf command (asciiText s.desk.editor.text)))
  · rw [if_neg hlonger, if_neg hlonger]
    exact Replies.pure boot h ()

variable (boot) in
/-- Several matches: the list, and the line again. -/
theorem listMatches_replies (h : s.WellFormed) :
    Replies boot (listMatches boot (asciiText s.desk.editor.text)) s ()
      (s.desk.list s.desk.candidates).1 (s.desk.list s.desk.candidates).2 := by
  unfold listMatches Desk.list
  refine Replies.bind h (println_replies boot h "") fun s₁ hs₁ hdesk₁ => ?_
  refine Replies.bind hs₁ (print_replies boot hs₁ "matches:") fun s₂ hs₂ hdesk₂ => ?_
  refine Replies.bind hs₂ (inWorld_replies hs₂ (printMatches_run hs₂.world
    (asciiText s.desk.editor.text) commandNames)) fun s₃ hs₃ hdesk₃ => ?_
  refine Replies.bind hs₃ (println_replies boot hs₃ "") fun s₄ hs₄ hdesk₄ => ?_
  have hredraw := redraw_replies boot hs₄
  rw [hdesk₄, hdesk₃, hdesk₂, hdesk₁] at hredraw
  exact hredraw

/-- The loop of completion ends in one of three arms, by the number of candidates. -/
theorem complete_replies (h : s.WellFormed) :
    Replies boot (completeCommand boot) s () s.desk.complete.1 s.desk.complete.2 := by
  have htext : s.line.asStr = .ok (asciiText s.desk.editor.text) := InputLine.asStr_eq h.line
  -- the cursor is at the end exactly if nothing is behind it
  have hend : (!s.line.isCursorAtEnd) = true ↔ s.desk.editor.after ≠ [] := by
    have hcursor := h.line.cursorLe
    change _ ↔ ¬ s.line.editor.after = []
    rw [InputLine.after_editor_eq_nil h.line, InputLine.isCursorAtEnd, Bool.not_eq_true',
      beq_eq_false_iff_ne]
    omega
  have hpure : Replies boot (pure ()) s () s.desk "" := Replies.pure boot h ()
  have hone := completeWith_replies boot h
  have hmany := listMatches_replies boot h
  have hloop : commandNames.foldl (matchLoop (asciiText s.desk.editor.text)) (0, "") =
      (s.desk.candidates.length, s.desk.candidates.headD "") := by
    rw [foldl_matchLoop, Nat.zero_add]
    rfl
  unfold completeCommand Desk.complete
  refine Replies.get (Replies.lift htext ?_)
  generalize asciiText s.desk.editor.text = text at *
  rw [hloop]
  dsimp only
  by_cases hskip : text.toList.contains ' ' ∨ s.desk.editor.after ≠ []
  · rw [if_pos hskip, if_pos (by rw [Bool.or_eq_true, hend]; exact hskip)]
    exact hpure
  · rw [if_neg hskip, if_neg (by rw [Bool.or_eq_true, hend]; exact hskip)]
    generalize s.desk.candidates = candidates at *
    -- no candidate, one, or several
    cases candidates with
    | nil => exact hpure
    | cons command rest =>
      cases rest with
      | nil => exact hone command
      | cons command' rest => exact hmany

variable (boot) in
/-- **Step.** A key does to the monitor what it does to the desk. -/
theorem key_replies (h : s.WellFormed) (scancode : UInt8) {event : KeyEvent}
    (hevent : event ≠ .enter) :
    Replies boot (handleKeyEvent boot scancode event) s (decide (event = .escape))
      (s.desk.key scancode event).1 (s.desk.key scancode event).2 := by
  -- an edit that is refused prints nothing, unless the line is full
  have hquiet : ∀ s : Loop, s.WellFormed → Replies boot (inWorld (pure ())) s () s.desk "" := by
    intro s hs
    refine inWorld_replies hs ?_
    rw [shown_empty]
    rfl
  have hfull : ∀ s : Loop, s.WellFormed →
      Replies boot (inWorld (consolePrint boot "<FULL>")) s () s.desk "<FULL>" :=
    fun s hs => print_replies boot hs _
  cases event with
  | char c => exact stay_replies (editKey_replies h (.insertOrOverwriteChar c s.overwriteMode) hfull)
  | ctrl c => exact stay_replies (print_replies boot h _)
  | alt c => exact stay_replies (print_replies boot h _)
  | ctrlAlt c => exact stay_replies (print_replies boot h _)
  | enter => exact absurd rfl hevent
  | backspace => exact stay_replies (editKey_replies h .backspace hquiet)
  | tab => exact stay_replies (complete_replies h)
  | escape =>
    rcases println_replies boot h "<ESC>" with ⟨s', hrun, hanswers⟩
    exact ⟨s', by rw [handleKeyEvent, run_bind_ok hrun]; rfl, hanswers⟩
  | arrowUp => exact stay_replies (arrowUp_replies h)
  | arrowDown => exact stay_replies (arrowDown_replies h)
  | arrowLeft => exact stay_replies (moveKey_replies h .moveLeft)
  | arrowRight => exact stay_replies (moveKey_replies h .moveRight)
  | wordLeft => exact stay_replies (moveKey_replies h .moveWordLeft)
  | wordRight => exact stay_replies (moveKey_replies h .moveWordRight)
  | insert => exact stay_replies (toggle_replies h)
  | delete => exact stay_replies (editKey_replies h .delete hquiet)
  | wordDeleteLeft => exact stay_replies (editKey_replies h .deleteWordLeft hquiet)
  | wordDeleteRight => exact stay_replies (editKey_replies h .deleteWordRight hquiet)
  | home => exact stay_replies (moveKey_replies h .moveHome)
  | «end» => exact stay_replies (moveKey_replies h .moveEnd)
  | pageUp => exact stay_replies (print_replies boot h _)
  | pageDown => exact stay_replies (print_replies boot h _)
  | function number => exact stay_replies (print_replies boot h _)
  | unknown code => exact stay_replies (println_replies boot h _)

end

end JingOS.Monitor
