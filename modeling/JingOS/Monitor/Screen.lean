import JingOS.Framebuffer.Console
import JingOS.Monitor.Footprint
import JingOS.Monitor.Printable

/-!
# The line on the screen

Drawing the line writes it over the row, with blanks over as much of the rest as was drawn
before. That is all of the rest as long as the row holds nothing behind `rendered_len`. The keys
that print a marker of their own do not count it there: a marker that reaches beyond is not
erased again.

* `Desk.Shown`, `LineShown` — the row is the prompt, the line, and blanks;
* `Desk.Clean` — nothing is written behind the cells that count as drawn;
* `screen_shows_line` — after every drawing the line is shown, as long as markers stay inside.
-/

namespace JingOS.Monitor

open Ascii Checked Hoare Text
open JingOS.Framebuffer JingOS.Framebuffer.FrameBufferWriter JingOS.Keyboard

/-! ## Drawing -/

/-- A cell that looks empty. -/
def BlankCell (cell : Option Char) : Prop := cell = none ∨ cell = some ' '

namespace Desk

/-- The characters of the prompt and the line. -/
def visible (d : Desk) : List Char := monitorPrompt.toList ++ d.editor.text.map byteChar

/-- The row of the cursor is the prompt, the line and blanks, with the cursor at its place. -/
structure Shown (d : Desk) (g : TextGrid) : Prop where
  text : ∀ c < d.visible.length, g.cells g.row c = d.visible[c]?
  rest : ∀ c, d.visible.length ≤ c → BlankCell (g.cells g.row c)
  column : g.column = monitorPrompt.length + d.editor.cursor

/-- Nothing is written behind the cells that count as drawn, and nothing below. -/
structure Clean (d : Desk) (g : TextGrid) : Prop where
  rows : 0 < g.rows
  columns : monitorPrompt.length + inputLineMax < g.columns
  below : g.BlankBelow
  drawn : d.renderedLen ≤ monitorPrompt.length + inputLineMax
  behind : ∀ c, d.renderedLen ≤ c → BlankCell (g.cells g.row c)

/-- A line as the monitor has it. -/
structure Sound (d : Desk) : Prop where
  text : PrintableText d.editor.text
  length : d.editor.text.length ≤ inputLineMax
  cursor : d.editor.cursor ≤ d.editor.text.length

variable {d : Desk} {g : TextGrid}

theorem length_visible (d : Desk) :
    d.visible.length = monitorPrompt.length + d.editor.text.length := by
  unfold visible
  rw [List.length_append, List.length_map, String.length_toList]

theorem prompt_printable : PrintableString monitorPrompt := by decide

/-- What the first part of a drawing writes over the row: the line and the blanks. -/
def drawnRow (d : Desk) : String :=
  monitorPrompt ++ asciiText d.editor.text ++
    String.ofList (List.replicate (d.renderedLen - d.visible.length) ' ')

/-- What the second part writes: the line up to the cursor. -/
def drawnFront (d : Desk) : String := monitorPrompt ++ asciiText d.editor.before

theorem drawing_eq (d : Desk) : d.drawing = ("\r" ++ d.drawnRow) ++ ("\r" ++ d.drawnFront) := by
  unfold drawing drawnRow drawnFront
  rw [← length_visible]
  simp only [String.append_assoc]

theorem toList_drawnRow (d : Desk) :
    d.drawnRow.toList = d.visible ++ List.replicate (d.renderedLen - d.visible.length) ' ' := by
  simp [drawnRow, visible]

theorem toList_drawnFront (d : Desk) :
    d.drawnFront.toList = monitorPrompt.toList ++ d.editor.before.map byteChar := by
  simp [drawnFront]

/-- The second part writes what is there already, and so only moves the cursor. -/
theorem drawnFront_beginning (d : Desk) : d.drawnFront.toList <+: d.drawnRow.toList := by
  rw [toList_drawnRow, toList_drawnFront, visible, List.append_assoc]
  refine (List.prefix_append_right_inj _).mpr ?_
  exact ((List.take_prefix _ _).map _).trans (List.prefix_append _ _)

theorem drawnRow_printable (hd : d.Sound) : PrintableString d.drawnRow := by
  refine (prompt_printable.append hd.text.chars).append ?_
  intro c hc
  rw [String.toList_ofList] at hc
  rw [List.eq_of_mem_replicate hc]
  decide

theorem length_drawnFront (hd : d.Sound) :
    d.drawnFront.length = monitorPrompt.length + d.editor.cursor := by
  rw [← String.length_toList, toList_drawnFront, List.length_append, List.length_map,
    String.length_toList, Editor.before, List.length_take_of_le hd.cursor]

/-- The row is wide enough for both. -/
theorem drawn_fits (h : d.Clean g) (hd : d.Sound) :
    d.drawnRow.length ≤ g.columns ∧ d.drawnFront.length ≤ g.columns := by
  have hcolumns := h.columns
  have hdrawn := h.drawn
  have hlength := hd.length
  have hcursor := hd.cursor
  have hvisible := d.length_visible
  constructor
  · rw [← String.length_toList, toList_drawnRow, List.length_append, List.length_replicate]
    omega
  · rw [length_drawnFront hd]
    omega

/-- Drawing is writing over the row from its start. -/
theorem write_drawing (h : d.Clean g) (hd : d.Sound) :
    write g d.drawing = { g with
      cells := fun r => if r = g.row then
          TextGrid.overlay (g.cells r) 0
            (d.visible ++ List.replicate (d.renderedLen - d.visible.length) ' ')
        else g.cells r
      column := monitorPrompt.length + d.editor.cursor } := by
  have hrow : PrintableString d.drawnRow := drawnRow_printable hd
  have hbegin := d.drawnFront_beginning
  have hfront : PrintableString d.drawnFront :=
    fun c hc => hrow c (List.IsPrefix.subset hbegin hc)
  rcases drawn_fits h hd with ⟨hrowFits, hfrontFits⟩
  rw [drawing_eq, write_append, write_return_over h.rows hrow hrowFits]
  refine (write_return_over ?_ hfront ?_).trans ?_
  · exact h.rows
  · exact hfrontFits
  simp only [TextGrid.mk.injEq, true_and]
  refine ⟨?_, length_drawnFront hd⟩
  funext r
  by_cases hr : r = g.row
  · simp only [if_pos hr]
    rw [TextGrid.overlay_overlay hbegin, toList_drawnRow]
  · simp only [if_neg hr]

/-- Drawing shows the line, and leaves nothing behind it. -/
theorem drawing_shown (h : d.Clean g) (hd : d.Sound) :
    d.drawn.Clean (write g d.drawing) ∧ d.drawn.Shown (write g d.drawing) := by
  have hlength := hd.length
  have hvisible := d.length_visible
  rw [write_drawing h hd]
  -- behind the line is what was drawn before, now blank, and then what was clean already
  have hrest : ∀ c, d.visible.length ≤ c → BlankCell (TextGrid.overlay (g.cells g.row) 0
      (d.visible ++ List.replicate (d.renderedLen - d.visible.length) ' ') c) := by
    intro c hc
    unfold TextGrid.overlay
    rw [Nat.zero_add, Nat.sub_zero, List.length_append, List.length_replicate]
    by_cases hblank : c < d.renderedLen
    · rw [if_pos (by omega), List.getElem?_append_right hc,
        List.getElem?_replicate_of_lt (by omega)]
      exact .inr rfl
    · rw [if_neg (by omega)]
      exact h.behind c (by omega)
  refine ⟨⟨h.rows, h.columns, ?_, ?_, ?_⟩, ⟨?_, ?_, rfl⟩⟩
  · intro r c hr
    change (if r = g.row then _ else g.cells r) c = none
    rw [if_neg (Nat.ne_of_gt hr)]
    exact h.below r c hr
  · change monitorPrompt.length + d.editor.text.length ≤ _
    omega
  · intro c hc
    change BlankCell ((if g.row = g.row then _ else g.cells g.row) c)
    rw [if_pos rfl]
    refine hrest c ?_
    rw [hvisible]
    exact hc
  · intro c hc
    change c < d.visible.length at hc
    change (if g.row = g.row then _ else g.cells g.row) c = d.visible[c]?
    rw [if_pos rfl]
    unfold TextGrid.overlay
    rw [Nat.zero_add, Nat.sub_zero, if_pos ⟨Nat.zero_le _, by rw [List.length_append]; omega⟩,
      List.getElem?_append_left hc]
  · intro c hc
    change d.visible.length ≤ c at hc
    change BlankCell ((if g.row = g.row then _ else g.cells g.row) c)
    rw [if_pos rfl]
    exact hrest c hc

/-! ## What a key prints -/

/-- The text that a key prints on the line without drawing it. -/
def marker (d : Desk) : KeyEvent → Option String
  | .char c =>
    if (d.editor.step (.insertOrOverwriteChar c d.overwriteMode)).isNone then some "<FULL>" else none
  | .ctrl c => some s!"<C-{c}>"
  | .alt c => some s!"<M-{c}>"
  | .ctrlAlt c => some s!"<C-M-{c}>"
  | .pageUp => some "<PGUP>"
  | .pageDown => some "<PGDN>"
  | .function number => some s!"<F{number}>"
  | _ => none

/-- After a key the row is clean, and shows the line if the key has drawn it. -/
structure Draws (d : Desk) (g : TextGrid) (result : Desk × String) : Prop where
  clean : result.1.Clean (write g result.2)
  shown : d.redraws < result.1.redraws → result.1.Shown (write g result.2)

/-- Nothing is printed. -/
theorem draws_nothing (h : d.Clean g) : d.Draws g (d, "") :=
  ⟨h, fun hlt => absurd hlt (Nat.lt_irrefl _)⟩

/-- A marker inside the cells that count as drawn. -/
theorem draws_marker (h : d.Clean g) {text : String} (htext : PrintableString text)
    (hinside : g.column + text.length ≤ d.renderedLen) : d.Draws g (d, text) := by
  have hcolumns := h.columns
  have hdrawn := h.drawn
  refine ⟨?_, fun hlt => absurd hlt (Nat.lt_irrefl _)⟩
  change d.Clean (write g text)
  rw [write_over h.rows htext (by omega)]
  refine ⟨h.rows, h.columns, ?_, h.drawn, ?_⟩
  · intro r c hr
    change (if r = g.row then _ else g.cells r) c = none
    rw [if_neg (Nat.ne_of_gt hr)]
    exact h.below r c hr
  · intro c hc
    change BlankCell ((if g.row = g.row then _ else g.cells g.row) c)
    rw [if_pos rfl]
    unfold TextGrid.overlay
    rw [String.length_toList, if_neg (by omega)]
    exact h.behind c hc

/-- The line is drawn in place of the old one. -/
theorem draws_drawing (h : d.Clean g) {d' : Desk} (hd' : d'.Sound)
    (hrendered : d'.renderedLen = d.renderedLen) : d.Draws g (d'.drawn, d'.drawing) := by
  have h' : d'.Clean g := by
    refine ⟨h.rows, h.columns, h.below, ?_, ?_⟩
    · rw [hrendered]
      exact h.drawn
    · rw [hrendered]
      exact h.behind
  exact ⟨(drawing_shown h' hd').1, fun _ => (drawing_shown h' hd').2⟩

/-- A whole line of text: the row behind it is a fresh one. -/
theorem clean_of_line (h : d.Clean g) {text : String} (htext : '\x08' ∉ text.toList) :
    d.Clean (write g (text ++ "\n")) := by
  have hfresh := write_line_fresh htext h.below
  rcases write_size g (text ++ "\n") with ⟨hrows, hcolumns⟩
  refine ⟨by rw [hrows]; exact h.rows, by rw [hcolumns]; exact h.columns, hfresh.blankBelow,
    h.drawn, ?_⟩
  intro c _
  exact .inl (hfresh.cells _ c (Nat.le_refl _))

theorem draws_line (h : d.Clean g) {text : String} (htext : '\x08' ∉ text.toList) :
    d.Draws g (d, text ++ "\n") :=
  ⟨clean_of_line h htext, fun hlt => absurd hlt (Nat.lt_irrefl _)⟩

/-- Lines of text, and the line drawn below them. -/
theorem draws_below (h : d.Clean g) {text : String} (htext : '\x08' ∉ text.toList) {d' : Desk}
    (hd' : d'.Sound) (hrendered : d'.renderedLen = d.renderedLen) :
    d.Draws g (d'.drawn, text ++ "\n" ++ d'.drawing) := by
  rcases draws_drawing (clean_of_line h htext) hd' hrendered with ⟨hclean, hshown⟩
  constructor
  · change d'.drawn.Clean (write g (text ++ "\n" ++ d'.drawing))
    rw [write_append]
    exact hclean
  · intro hlt
    change d'.drawn.Shown (write g (text ++ "\n" ++ d'.drawing))
    rw [write_append]
    exact hshown hlt

/-- An edit draws the line, or is refused. -/
theorem edit_draws (h : d.Clean g) {op : LineOp} {refused : String}
    (hnew : (d.edit op refused).1.Sound)
    (hrefused : d.editor.step op = none → d.Draws g (d, refused)) :
    d.Draws g (d.edit op refused) := by
  unfold edit at hnew ⊢
  cases hstep : d.editor.step op with
  | none => exact hrefused hstep
  | some editor =>
    rw [hstep] at hnew
    exact draws_drawing h ⟨hnew.text, hnew.length, hnew.cursor⟩ rfl

theorem move_draws (h : d.Clean g) {op : LineOp} (hnew : (d.move op).1.Sound) :
    d.Draws g (d.move op) := by
  unfold move at hnew ⊢
  cases hstep : d.editor.step op with
  | none => exact draws_nothing h
  | some editor =>
    rw [hstep] at hnew
    exact draws_drawing h ⟨hnew.text, hnew.length, hnew.cursor⟩ rfl

/-- A text whose lines are printable. -/
theorem not_mem_of_printable {text : String} (h : PrintableString text) : '\x08' ∉ text.toList :=
  fun hmem => absurd (h _ hmem) (by decide)

theorem not_mem_newline_append {text : String} (h : PrintableString text) :
    '\x08' ∉ ("\n" ++ text).toList := by
  rw [String.toList_append, List.mem_append, not_or]
  exact ⟨by decide, not_mem_of_printable h⟩

/-- The names of the commands are printable. -/
theorem candidates_printable (d : Desk) :
    PrintableString (String.join (d.candidates.map (" " ++ ·))) := by
  have hnames : ∀ command ∈ d.candidates, PrintableString command := by
    intro command hcommand c hc
    have hc := (commandNames_printable command (List.mem_of_mem_filter hcommand)).2 c hc
    exact ⟨Nat.le_of_lt hc.1, hc.2⟩
  generalize d.candidates = candidates at hnames ⊢
  induction candidates with
  | nil => decide
  | cons command rest ih =>
    rw [List.map_cons, String.join_cons]
    refine (PrintableString.append ?_ (hnames command List.mem_cons_self)).append ?_
    · decide
    · exact ih fun command hcommand => hnames command (List.mem_cons_of_mem _ hcommand)

/-- Tab leaves a clean row, with a list of matches or without. -/
theorem complete_draws (h : d.Clean g) (hnew : d.complete.1.Sound) : d.Draws g d.complete := by
  rcases d.complete_cases with heq | ⟨command, _, _, _, _, heq⟩ | heq
  · rw [heq]
    exact draws_nothing h
  · rw [heq] at hnew ⊢
    exact move_draws h hnew
  · rw [heq] at hnew ⊢
    have htext : PrintableString ("matches:" ++ String.join (d.candidates.map (" " ++ ·))) :=
      PrintableString.append (by decide) d.candidates_printable
    have hd : d.Sound := ⟨hnew.text, hnew.length, hnew.cursor⟩
    have hdraws := draws_below h (not_mem_newline_append htext) hd rfl
    unfold list
    simp only [String.append_assoc] at hdraws ⊢
    exact hdraws

theorem digit_printable : ∀ digit < 16, PrintableChar digit.digitChar := by decide

/-- The numbers in the markers. -/
theorem number_printable (number : UInt8) : PrintableString s!"<F{number}>" := by
  have hdigits : PrintableString (toString number) := by
    intro c hc
    rw [show (toString number).toList = Nat.toDigits 10 number.toNat from String.toList_ofList] at hc
    exact forall_mem_toDigits (by decide) (fun digit hdigit => digit_printable digit (by omega)) _ c hc
  exact (PrintableString.append (by decide) hdigits).append (by decide)

theorem code_printable (code : UInt8) : PrintableString (hexPadded code.toNat 4) :=
  forall_mem_hexPadded (by decide) digit_printable _ _

theorem bracketed_printable {c : Char} (hc : PrintableChar c) {left : String}
    (hleft : PrintableString left) : PrintableString (left ++ toString c ++ ">") :=
  (hleft.append (PrintableString.singleton hc)).append (by decide)

theorem toggle_draws (h : d.Clean g) (hnew : d.toggle.1.Sound) : d.Draws g d.toggle := by
  have htext : PrintableString (editModeLine !d.overwriteMode) := by
    cases d.overwriteMode <;> decide
  have hd : Sound { d with overwriteMode := !d.overwriteMode } :=
    ⟨hnew.text, hnew.length, hnew.cursor⟩
  have hdraws := draws_below h (not_mem_newline_append htext) hd rfl
  unfold toggle
  simp only [String.append_assoc] at hdraws ⊢
  exact hdraws

/-- What a key prints leaves the row clean, if a marker stays inside the cells that count as
drawn; and a key that draws shows the line. -/
theorem key_draws (h : d.Clean g) (scancode : UInt8) {event : KeyEvent}
    (hevent : KeyPrintable event) (henter : event ≠ .enter) (hescape : event ≠ .escape)
    (hnew : (d.key scancode event).1.Sound)
    (hinside : ∀ text ∈ d.marker event, g.column + text.length ≤ d.renderedLen) :
    d.Draws g (d.key scancode event) := by
  have hquiet : ∀ op, d.editor.step op = none → d.Draws g (d, "") := fun _ _ => draws_nothing h
  cases event with
  | char c =>
    refine edit_draws h hnew fun hfull => draws_marker h (by decide) (hinside _ ?_)
    unfold marker
    simp only [hfull, Option.isNone_none, if_true, Option.mem_some_iff]
  | ctrl c => exact draws_marker h (bracketed_printable hevent (by decide)) (hinside _ rfl)
  | alt c => exact draws_marker h (bracketed_printable hevent (by decide)) (hinside _ rfl)
  | ctrlAlt c => exact draws_marker h (bracketed_printable hevent (by decide)) (hinside _ rfl)
  | enter => exact absurd rfl henter
  | backspace => exact edit_draws h hnew (hquiet _)
  | tab => exact complete_draws h hnew
  | escape => exact absurd rfl hescape
  | arrowUp =>
    change d.older.1.Sound at hnew
    change d.Draws g d.older
    unfold older at hnew ⊢
    -- without a history nothing is drawn
    split
    · exact draws_nothing h
    · next hlines =>
      rw [if_neg hlines] at hnew
      exact draws_drawing h ⟨hnew.text, hnew.length, hnew.cursor⟩ rfl
  | arrowDown => exact draws_drawing h ⟨hnew.text, hnew.length, hnew.cursor⟩ rfl
  | arrowLeft => exact move_draws h hnew
  | arrowRight => exact move_draws h hnew
  | wordLeft => exact move_draws h hnew
  | wordRight => exact move_draws h hnew
  | insert => exact toggle_draws h hnew
  | delete => exact edit_draws h hnew (hquiet _)
  | wordDeleteLeft => exact edit_draws h hnew (hquiet _)
  | wordDeleteRight => exact edit_draws h hnew (hquiet _)
  | home => exact move_draws h hnew
  | «end» => exact move_draws h hnew
  | pageUp => exact draws_marker h (by decide) (hinside _ rfl)
  | pageDown => exact draws_marker h (by decide) (hinside _ rfl)
  | function number => exact draws_marker h (number_printable number) (hinside _ rfl)
  | unknown code =>
    refine draws_line h (not_mem_of_printable ?_)
    refine PrintableString.append (PrintableString.append (PrintableString.append
      (PrintableString.append ?_ (code_printable code)) ?_) (code_printable scancode)) ?_
    · decide
    · decide
    · decide

/-- A key that draws prints no marker. -/
theorem marker_eq_none (scancode : UInt8) {event : KeyEvent}
    (hlt : d.redraws < (d.key scancode event).1.redraws) : d.marker event = none := by
  cases event with
  | char c =>
    change d.redraws < (d.edit (.insertOrOverwriteChar c d.overwriteMode) "<FULL>").1.redraws at hlt
    unfold edit at hlt
    unfold marker
    cases hstep : d.editor.step (.insertOrOverwriteChar c d.overwriteMode) with
    | none =>
      rw [hstep] at hlt
      exact absurd hlt (Nat.lt_irrefl _)
    | some editor => simp only [hstep, Option.isNone_some, Bool.false_eq_true, if_false]
  | ctrl c => exact absurd hlt (Nat.lt_irrefl _)
  | alt c => exact absurd hlt (Nat.lt_irrefl _)
  | ctrlAlt c => exact absurd hlt (Nat.lt_irrefl _)
  | pageUp => exact absurd hlt (Nat.lt_irrefl _)
  | pageDown => exact absurd hlt (Nat.lt_irrefl _)
  | function number => exact absurd hlt (Nat.lt_irrefl _)
  | _ => rfl

end Desk

/-! ## The keys since the last prompt -/

/-- The console of the monitor shows the grid. -/
def Loop.Screen (boot : Boot) (info : FrameBufferInfo) (length : ℕ) (s : Loop) (g : TextGrid) :
    Prop :=
  ∃ writer, s.world.writer = some writer ∧ Shows boot.font info length writer g

/-- The row of the cursor is the prompt, the line's text and blanks, and the cursor is at its place
in the line. -/
def LineShown (s : Loop) (g : TextGrid) : Prop :=
  ∃ text, s.line.asStr = .ok text ∧
    (∀ c < (monitorPrompt ++ text).length,
      g.cells g.row c = (monitorPrompt ++ text).toList[c]?) ∧
    (∀ c, (monitorPrompt ++ text).length ≤ c → BlankCell (g.cells g.row c)) ∧
    g.column = monitorPrompt.length + s.line.cursor

/-- The prompt was just printed, at the start of a fresh row of a wide enough console. -/
structure Prompted (boot : Boot) (info : FrameBufferInfo) (length : ℕ) (s : Loop) (g : TextGrid) :
    Prop where
  line : s.line.len = 0
  rendered : s.renderedLen = monitorPrompt.length
  fits : Fits info length
  rows : 0 < g.rows
  columns : monitorPrompt.length + inputLineMax < g.columns
  screen : s.Screen boot info length g
  row : ∃ g' : TextGrid, g'.Fresh ∧ g = write g' monitorPrompt

/-- `handle_key_event` for a key that stays in the line, with all that it prints. -/
structure Pressed (boot : Boot) (s : Loop) (scancode : UInt8) (event : KeyEvent) (out : String)
    (s' : Loop) : Prop where
  emitted : (LoopEvent.key scancode event).Emitted
  noEnter : event ≠ .enter
  noEscape : event ≠ .escape
  run : (handleKeyEvent boot scancode event).run s = .ok false s'
  prints : s'.world.serial = s.world.serial ++ out

/-- The keys since a prompt, each of them `allowed`, with what the console holds after them. -/
inductive Edits (boot : Boot) (allowed : Loop → TextGrid → KeyEvent → Prop) (s₀ : Loop)
    (g₀ : TextGrid) : Loop → TextGrid → Prop where
  | start : Edits boot allowed s₀ g₀ s₀ g₀
  | press {s s' : Loop} {g : TextGrid} {scancode : UInt8} {event : KeyEvent} {out : String}
      (h : Edits boot allowed s₀ g₀ s g) (hallowed : allowed s g event)
      (hpressed : Pressed boot s scancode event out s') : Edits boot allowed s₀ g₀ s' (write g out)

/-- A marker stays inside the cells that count as drawn. -/
def MarkerInside (s : Loop) (g : TextGrid) (event : KeyEvent) : Prop :=
  ∀ text ∈ s.desk.marker event, g.column + text.length ≤ s.renderedLen

/-- The invariant between two keys. -/
structure Tidy (boot : Boot) (info : FrameBufferInfo) (length : ℕ) (s : Loop) (g : TextGrid) :
    Prop where
  wellFormed : s.WellFormed
  printable : s.desk.Printable
  clean : s.desk.Clean g
  screen : s.Screen boot info length g

section

variable {boot : Boot} {info : FrameBufferInfo} {length : ℕ} {s s' : Loop} {g : TextGrid}

/-- What is printed is written on the grid. -/
theorem shown_shows {w : World} {writer : FrameBufferWriter} (hfits : Fits info length)
    (hwriter : w.writer = some writer) (hshows : Shows boot.font info length writer g)
    (text : String) :
    ∃ writer', (w.shown boot text).writer = some writer' ∧
      Shows boot.font info length writer' (write g text) := by
  rcases writeStr_shows hfits hshows text with ⟨writer', hwrite, hshows'⟩
  refine ⟨writer', ?_, hshows'⟩
  change w.writer.map _ = _
  rw [hwriter, Option.map_some, hwrite]
  rfl

theorem desk_sound (h : s.WellFormed) (hprintable : s.desk.Printable) : s.desk.Sound where
  text := hprintable.text
  length := by
    change s.line.editor.text.length ≤ _
    rw [InputLine.length_text h.line]
    exact h.line.lenLe
  cursor := InputLine.cursor_le_text h.line

/-- What the desk shows is the line of the monitor. -/
theorem lineShown_of_desk (h : s.WellFormed) (hshown : s.desk.Shown g) : LineShown s g := by
  have hvisible : (monitorPrompt ++ asciiText s.desk.editor.text).toList = s.desk.visible := by
    rw [String.toList_append, toList_asciiText]
    rfl
  refine ⟨asciiText s.desk.editor.text, InputLine.asStr_eq h.line, ?_, ?_, hshown.column⟩
  · rw [← String.length_toList, hvisible]
    exact hshown.text
  · rw [← String.length_toList, hvisible]
    exact hshown.rest

/-- A fresh row with the prompt on it. -/
theorem Prompted.tidy (h : Prompted boot info length s g) (hwf : s.WellFormed)
    (hprintable : s.desk.Printable) : Tidy boot info length s g := by
  refine ⟨hwf, hprintable, ?_, h.screen⟩
  rcases h.row with ⟨g', hfresh, hg⟩
  have hcolumns := h.columns
  have hrows := h.rows
  have hrendered := h.rendered
  have hbelow : g.BlankBelow := by
    rw [hg]
    exact write_blankBelow (Desk.not_mem_of_printable Desk.prompt_printable) hfresh.blankBelow
  refine ⟨hrows, hcolumns, hbelow, ?_, ?_⟩
  · change s.renderedLen ≤ _
    omega
  · intro c hc
    change s.renderedLen ≤ c at hc
    rw [hg, (write_size g' monitorPrompt).1] at hrows
    rw [hg, (write_size g' monitorPrompt).2] at hcolumns
    have hfits : g'.column + monitorPrompt.length ≤ g'.columns := by
      rw [hfresh.column]
      omega
    rw [hg, write_over hrows Desk.prompt_printable hfits]
    change BlankCell ((if g'.row = g'.row then _ else g'.cells g'.row) c)
    rw [if_pos rfl, hfresh.column]
    unfold TextGrid.overlay
    rw [String.length_toList, if_neg (by omega)]
    exact .inl (hfresh.cells _ c (Nat.le_refl _))

theorem Pressed.answers (h : s.WellFormed) {scancode : UInt8} {event : KeyEvent} {out : String}
    (hpressed : Pressed boot s scancode event out s') :
    Answers boot s (s.desk.key scancode event).1 (s.desk.key scancode event).2 s' := by
  rcases key_replies boot h scancode hpressed.noEnter with ⟨s'', hrun, hanswers⟩
  rw [hpressed.run, EStateM.Result.ok.injEq] at hrun
  rw [hrun.2]
  exact hanswers

/-- One key: the row stays clean, and the line is shown if it was drawn. -/
theorem Pressed.tidy (hfits : Fits info length) (h : Tidy boot info length s g) {scancode : UInt8}
    {event : KeyEvent} {out : String} (hpressed : Pressed boot s scancode event out s')
    (hinside : MarkerInside s g event) :
    Tidy boot info length s' (write g out) ∧
      (s.redraws < s'.redraws → s'.desk.Shown (write g out)) := by
  have hkey := hpressed.emitted.printable
  have hanswers := hpressed.answers h.wellFormed
  -- what was printed is what the key prints
  have hout : out = (s.desk.key scancode event).2 := by
    have hserial := hpressed.prints
    rw [hanswers.world] at hserial
    exact (String.append_right_inj _).mp hserial.symm
  have hprintable : s'.desk.Printable := by
    rw [hanswers.desk]
    exact Desk.key_printable h.printable (InputLine.cursor_le_text h.wellFormed.line) scancode hkey
  have hsound : (s.desk.key scancode event).1.Sound := by
    rw [← hanswers.desk]
    exact desk_sound hanswers.wellFormed hprintable
  have hdraws := Desk.key_draws h.clean scancode hkey hpressed.noEnter hpressed.noEscape hsound
    hinside
  rw [← hout] at hanswers
  have hscreen : s'.Screen boot info length (write g out) := by
    rcases h.screen with ⟨writer, hwriter, hshows⟩
    unfold Loop.Screen
    rw [hanswers.world]
    exact shown_shows hfits hwriter hshows out
  rcases hdraws with ⟨hclean, hshown⟩
  rw [← hout, ← hanswers.desk] at hclean hshown
  exact ⟨⟨hanswers.wellFormed, hprintable, hclean, hscreen⟩, hshown⟩

/-- The invariant, over all keys since the prompt. -/
theorem Edits.tidy {s₀ : Loop} {g₀ : TextGrid} (hfits : Fits info length)
    (h₀ : Tidy boot info length s₀ g₀) (hedits : Edits boot MarkerInside s₀ g₀ s g) :
    Tidy boot info length s g := by
  induction hedits with
  | start => exact h₀
  | press _ hallowed hpressed ih => exact (hpressed.tidy hfits ih hallowed).1

/-- **The line on the screen.** As long as no marker is printed past the cells that count as
drawn, the console shows the line after every key that draws it. -/
theorem screen_shows_line (hboot : boot.Successful) {s₀ : Loop} {g₀ : TextGrid}
    (hs₀ : Loop.Reachable boot (fun _ event => event.Emitted) s₀)
    (hprompted : Prompted boot info length s₀ g₀) (hedits : Edits boot MarkerInside s₀ g₀ s g)
    {scancode : UInt8} {event : KeyEvent} {out : String}
    (hpressed : Pressed boot s scancode event out s') (hredraws : s.redraws < s'.redraws) :
    s'.Screen boot info length (write g out) ∧ LineShown s' (write g out) := by
  rcases reachable_printable hboot hs₀ with ⟨hwf, hprintable⟩
  have htidy := hedits.tidy hprompted.fits (hprompted.tidy hwf hprintable)
  have hinside : MarkerInside s g event := by
    change s.desk.redraws < s'.desk.redraws at hredraws
    rw [(hpressed.answers htidy.wellFormed).desk] at hredraws
    intro text htext
    rw [Desk.marker_eq_none scancode hredraws] at htext
    cases htext
  rcases hpressed.tidy hprompted.fits htidy hinside with ⟨htidy', hshown⟩
  exact ⟨htidy'.screen, lineShown_of_desk htidy'.wellFormed (hshown hredraws)⟩

/-! ## A marker that stays -/

/-- The banner ends in a prompt on a fresh row. -/
theorem entered_prompted {w : World} {writer : FrameBufferWriter} (hwriter : w.writer = some writer)
    (hfits : Fits info length) (hshows : Shows boot.font info length writer g)
    (hbelow : g.BlankBelow) (hrows : 0 < g.rows)
    (hcolumns : monitorPrompt.length + inputLineMax < g.columns) :
    Prompted boot info length (Loop.fresh (w.entered boot)) (write g banner) := by
  refine ⟨rfl, rfl, hfits, ?_, ?_, ?_, ?_⟩
  · rwa [(write_size g banner).1]
  · rwa [(write_size g banner).2]
  · exact shown_shows hfits hwriter hshows banner
  · let lines := "\n" ++ "[[JINGOS_MONITOR_READY]]\n" ++
      "jingos monitor ready. type 'help' for commands."
    refine ⟨write g (lines ++ "\n"), write_line_fresh (by decide) hbelow, ?_⟩
    rw [← write_append]
    rfl

/-- Behind a command that prints on both consoles, whole lines without a backspace, the prompt of
Enter is on a fresh row, too. -/
theorem enterKey_prompted (hboot : boot.Successful) (h : s.WellFormed) (hfits : Fits info length)
    (hscreen : s.Screen boot info length g) (hbelow : g.BlankBelow) (hrows : 0 < g.rows)
    (hcolumns : monitorPrompt.length + inputLineMax < g.columns)
    (htogether : (accessOfLine (asciiText s.desk.editor.text)).Together)
    (hrun : (enterKey boot).run s = .ok false s') {lines : String} (hlines : '\x08' ∉ lines.toList)
    (hserial : s'.world.serial = s.world.serial ++ (lines ++ "\n" ++ monitorPrompt)) :
    Prompted boot info length s' (write g (lines ++ "\n" ++ monitorPrompt)) := by
  rcases enterKey_run hboot h with ⟨history, hhistory, _, henter⟩
  let call := s.call boot history
  have hinv : call.world.Inv := Loop.call_inv boot h hhistory
  have hcall : Mirrored boot call.world (endState call.result) :=
    (moves_mirrored htogether hinv (executeCommand_moves boot call.text call.world)).2
  cases hresult : call.result with
  | error stop w =>
    rw [show (s.call boot history).result = _ from hresult] at henter
    rw [henter.1] at hrun
    cases hrun
  | ok left w =>
    rw [show (s.call boot history).result = _ from hresult] at henter
    rcases henter with ⟨s'', hrun', hwf', hdesk, _, hworld⟩
    rw [hrun'] at hrun
    cases hrun
    -- the line feed of Enter, the command and the prompt, each on both consoles
    have hfeed : Mirrored boot s.world call.world := ⟨"\n", rfl, rfl⟩
    have hprompt : Mirrored boot w s'.world := by
      rw [hworld]
      exact ⟨monitorPrompt, rfl, rfl⟩
    rw [hresult] at hcall
    have hall : Mirrored boot s.world s'.world :=
      (hfeed.trans h.world hcall).trans h.world hprompt
    rcases hall with ⟨text, htext, hwriter⟩
    rw [hserial] at htext
    have hout := (String.append_right_inj _).mp htext
    subst hout
    refine ⟨?_, ?_, hfits, ?_, ?_, ?_, write g (lines ++ "\n"), write_line_fresh hlines hbelow,
      write_append ..⟩
    · have hempty : s'.line.editor.text.length = 0 := congrArg (·.editor.text.length) hdesk
      rwa [InputLine.length_text hwf'.line] at hempty
    · exact congrArg Desk.renderedLen hdesk
    · rwa [(write_size g _).1]
    · rwa [(write_size g _).2]
    · rcases hscreen with ⟨writer, hsome, hshows⟩
      rcases shown_shows hfits hsome hshows (lines ++ "\n" ++ monitorPrompt) with
        ⟨writer', hsome', hshows'⟩
      exact ⟨writer', hwriter.trans hsome', hshows'⟩

theorem helpText_printable : PrintableString helpText := by
  unfold helpText
  -- piece by piece, as it is put together
  refine .append (.append (.append (.append (.append ?_ ?_) ?_) ?_) ?_) ?_ <;>
    exact .ofList rfl

/-- So it is behind `help`. -/
theorem help_prompted (hboot : boot.Successful) (h : s.WellFormed) (hfits : Fits info length)
    (hscreen : s.Screen boot info length g) (hbelow : g.BlankBelow) (hrows : 0 < g.rows)
    (hcolumns : monitorPrompt.length + inputLineMax < g.columns)
    (hhelp : splitWhitespace (asciiText s.desk.editor.text) = ["help"]) :
    ∃ s', (enterKey boot).run s = .ok false s' ∧
      Prompted boot info length s' (write g ("\n" ++ helpText ++ "\n" ++ monitorPrompt)) := by
  rcases enterKey_run hboot h with ⟨history, hhistory, _, henter⟩
  let call := s.call boot history
  have hinv : call.world.Inv := Loop.call_inv boot h hhistory
  have hcommand : call.result = .ok false (call.world.shown boot (helpText ++ "\n")) := by
    change (executeCommand boot (asciiText s.desk.editor.text)).run call.world = _
    unfold executeCommand
    rw [hhelp]
    simp only
    rw [if_neg (by decide)]
    exact run_bind_ok (consolePrintln_run hinv helpText)
  rw [show (s.call boot history).result = _ from hcommand] at henter
  rcases henter with ⟨s', hrun, _, _, _, hworld⟩
  refine ⟨s', hrun, enterKey_prompted hboot h hfits hscreen hbelow hrows hcolumns ?_ hrun
    (Desk.not_mem_newline_append helpText_printable) ?_⟩
  · rw [accessOfLine, hhelp]
    exact ⟨rfl, rfl⟩
  · rw [hworld]
    change s.world.serial ++ "\n" ++ (helpText ++ "\n") ++ monitorPrompt = _
    simp only [String.append_assoc]

variable (boot) in
/-- A key that stays in the line always returns. -/
theorem pressed_exists (h : s.WellFormed) {scancode : UInt8} {event : KeyEvent}
    (hemitted : (LoopEvent.key scancode event).Emitted) (henter : event ≠ .enter)
    (hescape : event ≠ .escape) :
    ∃ s', Pressed boot s scancode event (s.desk.key scancode event).2 s' ∧ s'.WellFormed ∧
      s'.desk = (s.desk.key scancode event).1 := by
  rcases key_replies boot h scancode henter with ⟨s', hrun, hanswers⟩
  rw [decide_eq_false hescape] at hrun
  refine ⟨s', ⟨hemitted, henter, hescape, hrun, ?_⟩, hanswers.wellFormed, hanswers.desk⟩
  rw [hanswers.world]
  rfl

end

/-- A machine with a screen of one row and 137 columns. -/
def wideInfo : FrameBufferInfo :=
  { width := 1096, height := 8, pixelFormat := .u8, bytesPerPixel := 1, stride := 1096 }

/-- Its font has a glyph for each ASCII character, a lit one except for the blank. -/
def wideBoot : Boot :=
  { sampleBoot with
    font := fun c => if c = ' ' then some blank else if c.toNat < 128 then some fun _ => charByte c
      else none }

def wideWorld : World :=
  { sampleWorld with
    writer := some (FrameBufferWriter.new (List.replicate 8768 0) wideInfo).clear }

theorem wideBoot_successful : wideBoot.Successful where
  mapped := sampleBoot_successful.mapped
  heap := sampleBoot_successful.heap
  regions := sampleBoot_successful.regions
  stack := sampleBoot_successful.stack
  code := sampleBoot_successful.code

theorem wideInfo_fits : Fits wideInfo 8768 := by
  constructor <;> decide

theorem wideWorld_booted : Booted wideBoot wideWorld where
  console := by
    intro writer hwriter
    have hclear : some (FrameBufferWriter.new (List.replicate 8768 0) wideInfo).clear =
        some writer := hwriter
    refine ⟨List.replicate 8768 0, wideInfo, "", ?_, ?_⟩
    · rw [List.length_replicate]
      exact wideInfo_fits
    · rw [← Option.some_inj.mp hclear]
      rfl
  tasks := rfl
  history := rfl
  session := rfl
  context := rfl
  memorySummary := rfl

/-- The machine at its first prompt. -/
theorem wide_prompted :
    Loop.Reachable wideBoot (fun _ event => event.Emitted)
        (Loop.fresh (wideWorld.entered wideBoot)) ∧
      (Loop.fresh (wideWorld.entered wideBoot)).WellFormed ∧
      Prompted wideBoot wideInfo 8768 (Loop.fresh (wideWorld.entered wideBoot))
        (write (TextGrid.blank 1 137) banner) := by
  refine ⟨?_, entered_wellFormed wideWorld_booted.inv, ?_⟩
  · exact .entered wideWorld_booted (startInputLoop_run wideWorld_booted.inv)
  · have hshows : Shows wideBoot.font wideInfo 8768
        (FrameBufferWriter.new (List.replicate 8768 0) wideInfo).clear (TextGrid.blank 1 137) :=
      clear_shows _ rfl (List.length_replicate ..)
    have hbelow : (TextGrid.blank 1 137).BlankBelow := (TextGrid.blank_fresh 1 137).blankBelow
    exact entered_prompted rfl wideInfo_fits hshows hbelow (by decide) (by decide)

theorem screen_shows_line_ab : ∃ s₀ s s' : Loop, ∃ g₀ g : TextGrid, ∃ out : String,
    Prompted wideBoot wideInfo 8768 s₀ g₀ ∧ Edits wideBoot MarkerInside s₀ g₀ s g ∧
      Pressed wideBoot s 0x62 (.char 'b') out s' ∧ s'.line.asStr = .ok "ab" ∧
      s'.Screen wideBoot wideInfo 8768 (write g out) ∧ LineShown s' (write g out) := by
  rcases wide_prompted with ⟨hs₀, hwf₀, hprompted⟩
  have ha : (LoopEvent.key 0x61 (.char 'a')).Emitted := .inr rfl
  have hb : (LoopEvent.key 0x62 (.char 'b')).Emitted := .inr rfl
  rcases pressed_exists wideBoot hwf₀ ha (by decide) (by decide) with
    ⟨s₁, hpressed₁, hwf₁, hdesk₁⟩
  rcases pressed_exists wideBoot hwf₁ hb (by decide) (by decide) with
    ⟨s₂, hpressed₂, hwf₂, hdesk₂⟩
  have hinside : MarkerInside (Loop.fresh (wideWorld.entered wideBoot))
      (write (TextGrid.blank 1 137) banner) (.char 'a') := by
    intro text htext
    rw [Desk.marker_eq_none 0x61 (by decide)] at htext
    cases htext
  have hredraws : s₁.redraws < s₂.redraws := by
    change s₁.desk.redraws < s₂.desk.redraws
    rw [hdesk₂, hdesk₁]
    decide
  have hline : s₂.line.asStr = .ok (asciiText s₂.desk.editor.text) := InputLine.asStr_eq hwf₂.line
  rw [hdesk₂, hdesk₁] at hline
  have hedits := Edits.press .start hinside hpressed₁
  exact ⟨_, _, _, _, _, _, hprompted, hedits, hpressed₂, hline,
    screen_shows_line wideBoot_successful hs₀ hprompted hedits hpressed₂ hredraws⟩

/-- After `a`, Ctrl+X and `b` a part of the marker stands behind the line. -/
theorem control_leaves_marker : ∃ s₀ s s' : Loop, ∃ g₀ g : TextGrid, ∃ out : String,
    Loop.Reachable wideBoot (fun _ event => event.Emitted) s₀ ∧
      Prompted wideBoot wideInfo 8768 s₀ g₀ ∧ Edits wideBoot (fun _ _ _ => True) s₀ g₀ s g ∧
      Pressed wideBoot s 0x62 (.char 'b') out s' ∧ s.redraws < s'.redraws ∧
      s'.line.asStr = .ok "ab" ∧
      (List.range 14).map ((write g out).cells (write g out).row) =
        "jingos> abC-x>".toList.map some ∧
      ¬ LineShown s' (write g out) := by
  rcases wide_prompted with ⟨hs₀, hwf₀, hprompted⟩
  have ha : (LoopEvent.key 0x61 (.char 'a')).Emitted := .inr rfl
  have hb : (LoopEvent.key 0x62 (.char 'b')).Emitted := .inr rfl
  have hcontrol : (LoopEvent.key 0x2d (.ctrl 'x')).Emitted :=
    .inl ⟨{ KeyboardDecoder.new with leftCtrl := true }, by decide⟩
  rcases pressed_exists wideBoot hwf₀ ha (by decide) (by decide) with
    ⟨s₁, hpressed₁, hwf₁, hdesk₁⟩
  rcases pressed_exists wideBoot hwf₁ hcontrol (by decide) (by decide) with
    ⟨s₂, hpressed₂, hwf₂, hdesk₂⟩
  rcases pressed_exists wideBoot hwf₂ hb (by decide) (by decide) with
    ⟨s₃, hpressed₃, hwf₃, hdesk₃⟩
  rw [hdesk₁] at hpressed₂ hdesk₂
  rw [hdesk₂] at hpressed₃ hdesk₃
  have hredraws : s₂.redraws < s₃.redraws := by
    change s₂.desk.redraws < s₃.desk.redraws
    rw [hdesk₃, hdesk₂]
    decide
  have hline : s₃.line.asStr = .ok (asciiText s₃.desk.editor.text) := InputLine.asStr_eq hwf₃.line
  rw [hdesk₃] at hline
  have hedits₁ : Edits wideBoot (fun _ _ _ => True) _ (write (TextGrid.blank 1 137) banner) _ _ :=
    .press .start trivial hpressed₁
  have hedits₂ := hedits₁.press trivial hpressed₂
  refine ⟨_, _, _, _, _, _, hs₀, hprompted, hedits₂, hpressed₃, hredraws, hline,
    (and_iff_left_of_imp ?_).mpr ?_⟩
  · rintro hcells ⟨text, htext, _, hrest, _⟩
    rw [hline, Except.ok.injEq] at htext
    subst htext
    -- the first cell behind `jingos> ab`
    have hten := congrArg (·[10]?) hcells
    rw [List.getElem?_map, List.getElem?_range (by decide), Option.map_some] at hten
    rcases hrest 10 (by decide) with hblank | hblank
    · rw [hblank] at hten
      exact absurd hten (by decide)
    · rw [hblank] at hten
      exact absurd hten (by decide)
  · decide +kernel

end JingOS.Monitor
