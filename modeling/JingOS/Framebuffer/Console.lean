import JingOS.Framebuffer.Pixels
import JingOS.Lib.TextGrid

/-!
# The console is a grid of characters

The second layer: the image in the buffer is that of a text grid, on which the characters of
the text act one by one.

* `gridImage`, `render` — the pixels of a grid, and the bytes of a buffer that shows it;
* `feed` — what a character does to the grid;
* `Shows` — the simulation: the buffer is the rendering of the grid, and the cursor is its own;
* `console_refines_grid` — every sequence of `clear` and `write_str` keeps it.
-/

namespace JingOS.Framebuffer

open Checked FrameBufferWriter

/-! ## The rendering of a grid -/

/-- The pixels of a cell. -/
def cellGlyph (font : Font) : Option Char → Glyph
  | some character => (font character).getD blank
  | none => blank

/-- The pixels of a grid: those of its cells, and none beside them. -/
def gridImage (font : Font) (g : TextGrid) : Image := fun x y =>
  if x / charWidth < g.columns ∧ y / charHeight < g.rows then
    bitSet (cellGlyph font (g.cells (y / charHeight) (x / charWidth))
      ⟨y % charHeight, Nat.mod_lt _ (by decide)⟩) (x % charWidth)
  else false

/-- A buffer of `length` bytes that shows the grid. -/
def render (font : Font) (info : FrameBufferInfo) (length : ℕ) (g : TextGrid) : List UInt8 :=
  (List.range length).map (imageByte info (gridImage font g))

/-- What one character of a text does to the grid. -/
def feed (g : TextGrid) (character : Char) : TextGrid :=
  if character = '\n' then g.newLine
  else if character = '\r' then g.carriageReturn
  else if character = '\x08' then g.backspace
  else if character = '\t' then (List.replicate 4 ' ').foldl TextGrid.put g
  else g.put (if character.toNat < 128 then character else '?')

/-- A text on the grid. -/
def write (g : TextGrid) (text : String) : TextGrid := text.toList.foldl feed g

theorem bitSet_zero (x : ℕ) : bitSet 0 x = false := by simp [bitSet]

/-- A blank cell is dark. -/
theorem gridImage_of_none {font : Font} {g : TextGrid} {x y : ℕ}
    (h : g.cells (y / charHeight) (x / charWidth) = none) : gridImage font g x y = false := by
  unfold gridImage
  split
  · rw [h]
    exact bitSet_zero _
  · rfl

/-- A cell changes its own 64 pixels. -/
theorem gridImage_setCell (font : Font) {g : TextGrid} (hcolumn : g.column < g.columns)
    (hrow : g.row < g.rows) (cell : Option Char) :
    gridImage font (g.setCell cell) =
      (gridImage font g).stamp (g.column * charWidth) (g.row * charHeight)
        (cellGlyph font cell) := by
  funext x y
  unfold gridImage Image.stamp TextGrid.setCell charWidth charHeight
  simp only
  by_cases hcell : y / 8 = g.row ∧ x / 8 = g.column
  · rw [if_pos hcell, if_pos (by omega), dif_pos (by omega)]
    have hx : x % 8 = x - g.column * 8 := by omega
    have hy : (⟨y % 8, Nat.mod_lt _ (by decide)⟩ : Fin 8) = ⟨y - g.row * 8, by omega⟩ :=
      Fin.ext (by simp only; omega)
    rw [hx, hy]
  · rw [if_neg hcell, dif_neg (by omega)]

/-- A scrolled grid is the image, one row of text further up. -/
theorem gridImage_scroll (font : Font) (g : TextGrid) :
    gridImage font g.scroll = fun x y => gridImage font g x (y + charHeight) := by
  funext x y
  unfold gridImage TextGrid.scroll charWidth charHeight
  simp only [Nat.add_mod_right, show (y + 8) / 8 = y / 8 + 1 by omega]
  by_cases hlast : y / 8 + 1 < g.rows
  · by_cases hcolumn : x / 8 < g.columns
    · rw [if_pos hlast, if_pos ⟨hcolumn, by omega⟩, if_pos ⟨hcolumn, hlast⟩]
    · rw [if_neg (by omega), if_neg (by omega)]
  · rw [if_neg hlast, if_neg (c := _ ∧ y / 8 + 1 < g.rows) (by omega)]
    split
    · exact bitSet_zero _
    · rfl

/-! ## The simulation -/

/-- The writer shows the grid. -/
structure Shows (font : Font) (info : FrameBufferInfo) (length : ℕ) (w : FrameBufferWriter)
    (g : TextGrid) : Prop where
  sameInfo : w.info = info
  sameLength : w.buffer.length = length
  rows : g.rows = info.height / charHeight
  columns : g.columns = info.width / charWidth
  row : w.row = g.row
  column : w.column = g.column
  wellFormed : g.WellFormed
  renders : w.Renders (gridImage font g)

section

variable {font : Font} {info : FrameBufferInfo} {length : ℕ} {w : FrameBufferWriter}
  {g : TextGrid}

theorem Shows.fits (h : Shows font info length w g) (hfits : Fits info length) :
    Fits w.info w.buffer.length := by
  rw [h.sameInfo, h.sameLength]
  exact hfits

theorem Shows.maxRows (h : Shows font info length w g) : w.maxRows = g.rows := by
  unfold FrameBufferWriter.maxRows
  rw [h.sameInfo, h.rows]

theorem Shows.maxColumns (h : Shows font info length w g) : w.maxColumns = g.columns := by
  unfold FrameBufferWriter.maxColumns
  rw [h.sameInfo, h.columns]

/-- What is lit is on the screen. -/
theorem Shows.screen (h : Shows font info length w g) {x y : ℕ}
    (hlit : gridImage font g x y = true) : x < w.info.width ∧ y < w.info.height := by
  have hrows := h.rows
  have hcolumns := h.columns
  rw [h.sameInfo]
  unfold gridImage at hlit
  unfold charWidth charHeight at *
  split at hlit
  · next hcell => omega
  · exact absurd hlit (by decide)

/-- A writer with the pixels of one grid and the cursor of another. -/
theorem Shows.of_place {w' : FrameBufferWriter} {g' : TextGrid}
    (h : Shows font info length w g) (hplace : SamePlace w w') (hrows : g'.rows = g.rows)
    (hcolumns : g'.columns = g.columns) (hrow : g'.row = g.row) (hcolumn : g'.column = g.column)
    (hrenders : w'.Renders (gridImage font g')) : Shows font info length w' g' where
  sameInfo := hplace.info.trans h.sameInfo
  sameLength := hplace.length.trans h.sameLength
  rows := hrows.trans h.rows
  columns := hcolumns.trans h.columns
  row := by rw [hplace.row, h.row, hrow]
  column := by rw [hplace.column, h.column, hcolumn]
  wellFormed := by
    refine ⟨?_, ?_⟩
    · rw [hcolumn, hcolumns]
      exact h.wellFormed.columnLe
    · rw [hrow, hrows]
      exact h.wellFormed.rowLe
  renders := hrenders

/-- Moving the cursor, on both sides, changes no pixel. -/
theorem Shows.move (h : Shows font info length w g) (row column : ℕ)
    (hcolumn : column ≤ g.columns) (hrow : row ≤ g.rows - 1) :
    Shows font info length { w with row, column } { g with row, column } :=
  ⟨h.sameInfo, h.sameLength, h.rows, h.columns, rfl, rfl, ⟨hcolumn, hrow⟩, h.renders⟩

theorem clear_shows (font : Font) (hinfo : w.info = info) (hlength : w.buffer.length = length) :
    Shows font info length w.clear
      (TextGrid.blank (info.height / charHeight) (info.width / charWidth)) where
  sameInfo := hinfo
  sameLength := by rw [clear, List.length_replicate, hlength]
  rows := rfl
  columns := rfl
  row := rfl
  column := rfl
  wellFormed := TextGrid.blank_wellFormed _ _
  renders := zeros_render fun _ _ => gridImage_of_none rfl

/-- The row below, or the last one behind a scroll. -/
theorem newLine_shows (hfits : Fits info length) (h : Shows font info length w g) :
    Returns w.newLine fun w' => Shows font info length w' g.newLine := by
  have hrows := h.rows
  have hheight := hfits.heightLt
  have hle := h.wellFormed.rowLe
  have hrow := h.row
  have hmax := h.maxRows
  unfold charHeight at hrows
  unfold FrameBufferWriter.newLine TextGrid.newLine
  rw [add_eq (by omega)]
  simp only [bind, Except.bind]
  change Returns (if w.row + 1 ≥ w.maxRows then _ else _) _
  by_cases hlast : g.row + 1 < g.rows
  · rw [if_pos hlast, if_neg (by omega), hrow]
    exact Returns.pure (h.move _ _ (Nat.zero_le _) (by omega))
  · rw [if_neg hlast, if_pos (by omega)]
    -- on the last row the screen scrolls, and the cursor stays there
    refine (scrollOneRow_renders (w := { w with column := 0, row := w.row + 1 }) (h.fits hfits)
      h.renders fun x y => h.screen).bind ?_
    rintro w' ⟨hplace, hrenders⟩
    rw [← gridImage_scroll] at hrenders
    have hshows : Shows font info length { w' with row := g.rows - 1 }
        { g.scroll with row := g.rows - 1, column := 0 } :=
      ⟨hplace.info.trans h.sameInfo, hplace.length.trans h.sameLength, h.rows, h.columns, rfl,
        hplace.column, ⟨Nat.zero_le _, Nat.le_refl _⟩, hrenders⟩
    have hmax' : w'.maxRows = g.rows := by
      unfold FrameBufferWriter.maxRows
      rw [hplace.info]
      exact hmax
    rw [hmax']
    exact Returns.pure hshows

/-- Drawing a glyph at the cursor is setting the cell there. -/
theorem drawCell_shows (hfits : Fits info length) (h : Shows font info length w g)
    (hcolumn : g.column < g.columns) (hrow : g.row < g.rows) (cell : Option Char) :
    mul w.column charWidth = .ok (g.column * charWidth) ∧
    mul w.row charHeight = .ok (g.row * charHeight) ∧
    Returns (w.drawGlyph (g.column * charWidth) (g.row * charHeight) (cellGlyph font cell))
      fun w' => Shows font info length w' (g.setCell cell) := by
  have hrows := h.rows
  have hcolumns := h.columns
  have hinfo := h.sameInfo
  have hcell := cell_lt (h.fits hfits) (by rw [h.column, h.maxColumns]; exact hcolumn)
    (by rw [h.row, h.maxRows]; exact hrow)
  rw [h.column, h.row] at hcell ⊢
  refine ⟨mul_eq (by omega), mul_eq (by omega), ?_⟩
  unfold charWidth at hcell hcolumns
  unfold charHeight at hcell hrows
  refine (drawGlyph_renders (h.fits hfits) h.renders (by rw [hinfo]; omega)
    (by rw [hinfo]; omega) hcell (cellGlyph font cell)).mono ?_
  rintro w' ⟨hplace, hrenders⟩
  refine h.of_place hplace rfl rfl rfl rfl ?_
  rw [gridImage_setCell font hcolumn hrow]
  exact hrenders

/-- A character with its wrap, on both. -/
theorem writeRenderable_shows (hfits : Fits info length) (h : Shows font info length w g)
    (character : Char) :
    Returns (writeRenderable font w character) fun w' =>
      Shows font info length w' (g.put character) := by
  unfold writeRenderable TextGrid.put
  rw [h.maxColumns, h.maxRows, h.column]
  by_cases hempty : g.columns = 0 ∨ g.rows = 0
  · rw [if_pos hempty, if_pos (TextGrid.isEmpty_iff.mpr hempty)]
    exact Returns.pure h
  · rw [if_neg hempty, if_neg (mt TextGrid.isEmpty_iff.mp hempty)]
    -- the wrap that was put off when the row became full
    have hwrap : Returns (if g.column ≥ g.columns then w.newLine else pure w) fun w' =>
        Shows font info length w' g.wrap := by
      unfold TextGrid.wrap
      by_cases hcolumn : g.column < g.columns
      · rw [if_pos hcolumn, if_neg (by omega)]
        exact Returns.pure h
      · rw [if_neg hcolumn, if_pos (by omega)]
        exact newLine_shows hfits h
    refine hwrap.bind fun w₁ h₁ => ?_
    have hcolumn : g.wrap.column < g.wrap.columns := by
      rw [TextGrid.wrap_columns]
      exact TextGrid.wrap_column_lt fun hzero => hempty (.inl hzero)
    have hrow : g.wrap.row < g.wrap.rows := by
      rw [TextGrid.wrap_rows]
      exact TextGrid.wrap_row_lt h.wellFormed fun hzero => hempty (.inr hzero)
    rw [if_neg (by rw [h₁.row, h₁.maxRows]; omega), pure_bind]
    rcases drawCell_shows hfits h₁ hcolumn hrow (some character) with ⟨hx, hy, hdraw⟩
    rw [hx, hy]
    refine hdraw.bind fun w₂ h₂ => ?_
    have hlt := h₁.fits hfits |>.textRowLt
    have hwidth := (cell_lt (h₁.fits hfits) (by rw [h₁.column, h₁.maxColumns]; exact hcolumn)
      (by rw [h₁.row, h₁.maxRows]; exact hrow)).1
    rw [h₁.column] at hwidth
    unfold charWidth at hwidth
    have hcolumn₂ : w₂.column = g.wrap.column := h₂.column
    rw [add_eq (by omega), hcolumn₂]
    exact Returns.pure ⟨h₂.sameInfo, h₂.sameLength, h₂.rows, h₂.columns, h₂.row, rfl,
      ⟨hcolumn, h₂.wellFormed.rowLe⟩, h₂.renders⟩

theorem erase_shows (hfits : Fits info length) (h : Shows font info length w g)
    (hcolumn : g.column < g.columns) (hrow : g.row < g.rows) :
    Returns (backspace.erase w) fun w' => Shows font info length w' (g.setCell none) := by
  rcases drawCell_shows hfits h hcolumn hrow none with ⟨hx, hy, hdraw⟩
  unfold backspace.erase
  rw [hx, hy]
  exact hdraw

/-- A backspace, on both. -/
theorem backspace_shows (hfits : Fits info length) (h : Shows font info length w g) :
    Returns w.backspace fun w' => Shows font info length w' g.backspace := by
  have hcolumnLe := h.wellFormed.columnLe
  have hrowLe := h.wellFormed.rowLe
  unfold FrameBufferWriter.backspace TextGrid.backspace
  rw [h.maxColumns, h.maxRows, h.column, h.row]
  by_cases hempty : g.columns = 0 ∨ g.rows = 0
  · rw [if_pos hempty, if_pos (TextGrid.isEmpty_iff.mpr hempty)]
    exact Returns.pure h
  · rw [if_neg hempty, if_neg (mt TextGrid.isEmpty_iff.mp hempty)]
    by_cases hcolumn : 0 < g.column
    · rw [if_pos hcolumn, if_pos hcolumn, sub_eq hcolumn]
      refine erase_shows hfits (h.move g.row (g.column - 1) (by omega) hrowLe)
        ?_ ?_
      · change g.column - 1 < g.columns
        omega
      · change g.row < g.rows
        omega
    · rw [if_neg hcolumn, if_neg hcolumn]
      by_cases hrow : 0 < g.row
      · -- over the start of the row, to the last cell of the one above
        rw [if_pos hrow, if_pos hrow, sub_eq hrow]
        refine erase_shows hfits (h.move (g.row - 1) (g.columns - 1)
          (by omega) (by omega)) ?_ ?_
        · change g.columns - 1 < g.columns
          omega
        · change g.row - 1 < g.rows
          omega
      · rw [if_neg hrow, if_neg hrow]
        -- in the first cell there is nothing to erase
        exact Returns.pure h

/-- What holds of one character holds of a text. -/
theorem foldlM_shows {f : FrameBufferWriter → Char → Checked FrameBufferWriter}
    {step : TextGrid → Char → TextGrid}
    (hstep : ∀ w g c, Shows font info length w g →
      Returns (f w c) fun w' => Shows font info length w' (step g c)) (text : List Char) :
    ∀ {w g}, Shows font info length w g →
      Returns (text.foldlM f w) fun w' => Shows font info length w' (text.foldl step g) := by
  induction text with
  | nil =>
    intro w g h
    exact Returns.pure h
  | cons c text ih =>
    intro w g h
    rw [List.foldlM_cons]
    exact (hstep w g c h).bind fun w' h' => ih h'

/-- The writer and the grid take the same character. -/
theorem writeChar_shows (hfits : Fits info length) (h : Shows font info length w g)
    (character : Char) :
    Returns (writeChar font w character) fun w' =>
      Shows font info length w' (feed g character) := by
  unfold writeChar feed
  by_cases hnewline : character = '\n'
  · rw [if_pos hnewline, if_pos hnewline]
    exact newLine_shows hfits h
  rw [if_neg hnewline, if_neg hnewline]
  by_cases hreturn : character = '\r'
  · rw [if_pos hreturn, if_pos hreturn]
    exact Returns.pure ⟨h.sameInfo, h.sameLength, h.rows, h.columns, h.row, rfl,
      ⟨Nat.zero_le _, h.wellFormed.rowLe⟩, h.renders⟩
  rw [if_neg hreturn, if_neg hreturn]
  by_cases hback : character = '\x08'
  · rw [if_pos hback, if_pos hback]
    exact backspace_shows hfits h
  rw [if_neg hback, if_neg hback]
  by_cases htab : character = '\t'
  · rw [if_pos htab, if_pos htab]
    exact foldlM_shows (fun _ _ c h => writeRenderable_shows hfits h c) _ h
  rw [if_neg htab, if_neg htab]
  exact writeRenderable_shows hfits h _

theorem writeStr_shows (hfits : Fits info length) (h : Shows font info length w g)
    (text : String) :
    Returns (writeStr font w text) fun w' => Shows font info length w' (write g text) :=
  foldlM_shows (fun _ _ c h => writeChar_shows hfits h c) text.toList h

end

/-! ## Texts on the grid -/

section

variable {g : TextGrid}

theorem write_append (g : TextGrid) (text text' : String) :
    write g (text ++ text') = write (write g text) text' := by
  unfold write
  rw [String.toList_append, List.foldl_append]

/-- What every character keeps, a text keeps. -/
theorem write_keeps {P : TextGrid → Prop} {text : String}
    (hfeed : ∀ g, ∀ c ∈ text.toList, P g → P (feed g c)) (h : P g) : P (write g text) := by
  unfold write
  generalize text.toList = characters at hfeed
  induction characters generalizing g with
  | nil => exact h
  | cons c characters ih =>
    refine ih (hfeed g c List.mem_cons_self h) ?_
    exact fun g c hc => hfeed g c (List.mem_cons_of_mem _ hc)

/-- What the four parts of a step keep is kept by a step. -/
theorem feed_keeps {P : TextGrid → Prop} (hnewLine : P g → P g.newLine)
    (hreturn : P g → P g.carriageReturn) (hback : P g → P g.backspace)
    (hput : ∀ g c, P g → P (TextGrid.put g c)) (c : Char) (h : P g) : P (feed g c) := by
  unfold feed
  split
  · exact hnewLine h
  split
  · exact hreturn h
  split
  · exact hback h
  split
  · exact hput _ _ (hput _ _ (hput _ _ (hput _ _ h)))
  · exact hput _ _ h

/-- Writing does not change the size. -/
theorem write_size (g : TextGrid) (text : String) :
    (write g text).rows = g.rows ∧ (write g text).columns = g.columns := by
  have hback : ∀ g : TextGrid, g.backspace.rows = g.rows ∧ g.backspace.columns = g.columns := by
    intro g
    unfold TextGrid.backspace
    split
    · exact ⟨rfl, rfl⟩
    split
    · exact ⟨rfl, rfl⟩
    split <;> exact ⟨rfl, rfl⟩
  refine write_keeps (P := fun g' => g'.rows = g.rows ∧ g'.columns = g.columns) ?_ ⟨rfl, rfl⟩
  intro g' c _ h
  refine feed_keeps (P := fun g' => g'.rows = g.rows ∧ g'.columns = g.columns) ?_ id ?_ ?_ c h
  · intro h
    rwa [TextGrid.newLine_rows, TextGrid.newLine_columns]
  · intro h
    rwa [(hback g').1, (hback g').2]
  · intro g' c h
    rwa [TextGrid.put_rows, TextGrid.put_columns]

/-- A text without a backspace leaves nothing below the cursor. -/
theorem write_blankBelow {text : String} (htext : '\x08' ∉ text.toList) (h : g.BlankBelow) :
    (write g text).BlankBelow := by
  refine write_keeps ?_ h
  intro g c hc h
  unfold feed
  split
  · exact (TextGrid.newLine_fresh h).blankBelow
  split
  · exact h
  split
  · next hback =>
    rw [hback] at hc
    exact absurd hc htext
  split
  · exact TextGrid.put_blankBelow (TextGrid.put_blankBelow (TextGrid.put_blankBelow
      (TextGrid.put_blankBelow h _) _) _) _
  · exact TextGrid.put_blankBelow h _

/-- Behind a line feed the row is a fresh one. -/
theorem write_line_fresh {text : String} (htext : '\x08' ∉ text.toList) (h : g.BlankBelow) :
    (write g (text ++ "\n")).Fresh := by
  rw [write_append]
  exact TextGrid.newLine_fresh (write_blankBelow htext h)

/-- Printable characters are put one after the other. -/
theorem write_printable (g : TextGrid) {text : String}
    (htext : ∀ c ∈ text.toList, 0x20 ≤ c.toNat ∧ c.toNat ≤ 0x7e) :
    write g text = text.toList.foldl TextGrid.put g := by
  unfold write
  generalize text.toList = characters at htext
  induction characters generalizing g with
  | nil => rfl
  | cons c characters ih =>
    have hc := htext c List.mem_cons_self
    have hne : ∀ control : Char, control.toNat < 0x20 → c ≠ control := by
      rintro control hcontrol rfl
      omega
    have hfeed : feed g c = g.put c := by
      unfold feed
      rw [if_neg (hne _ (by decide)), if_neg (hne _ (by decide)), if_neg (hne _ (by decide)),
        if_neg (hne _ (by decide)), if_pos (by omega)]
    rw [List.foldl_cons, List.foldl_cons, hfeed]
    exact ih _ fun c hc => htext c (List.mem_cons_of_mem _ hc)

/-- A printable text that fits the row. -/
theorem write_over (hrows : 0 < g.rows) {text : String}
    (htext : ∀ c ∈ text.toList, 0x20 ≤ c.toNat ∧ c.toNat ≤ 0x7e)
    (hfits : g.column + text.length ≤ g.columns) :
    write g text = { g with
      cells := fun r => if r = g.row then TextGrid.overlay (g.cells r) g.column text.toList
        else g.cells r
      column := g.column + text.length } := by
  rw [← String.length_toList] at hfits ⊢
  rw [write_printable g htext]
  exact TextGrid.foldl_put hrows hfits

/-- The same from the start of the row. -/
theorem write_return_over (hrows : 0 < g.rows) {text : String}
    (htext : ∀ c ∈ text.toList, 0x20 ≤ c.toNat ∧ c.toNat ≤ 0x7e)
    (hfits : text.length ≤ g.columns) :
    write g ("\r" ++ text) = { g with
      cells := fun r => if r = g.row then TextGrid.overlay (g.cells r) 0 text.toList else g.cells r
      column := text.length } := by
  have hstart : 0 + text.length = text.length := Nat.zero_add _
  have hwrite := write_over (g := g.carriageReturn) hrows htext (hstart.trans_le hfits)
  rw [write_append]
  refine hwrite.trans ?_
  change TextGrid.mk _ _ _ _ (0 + text.length) = _
  rw [hstart]
  rfl

end

/-! ## Every run of the console -/

/-- The calls that the console takes. -/
inductive ConsoleOp where
  | clear
  | writeStr (text : String)

/-- A call of the writer. -/
def ConsoleOp.exec (font : Font) (w : FrameBufferWriter) : ConsoleOp → Checked FrameBufferWriter
  | .clear => pure w.clear
  | .writeStr text => w.writeStr font text

/-- The same call on the grid. -/
def ConsoleOp.onGrid (g : TextGrid) : ConsoleOp → TextGrid
  | .clear => TextGrid.blank g.rows g.columns
  | .writeStr text => write g text

theorem exec_shows {font : Font} {info : FrameBufferInfo} {length : ℕ} {w : FrameBufferWriter}
    {g : TextGrid} (hfits : Fits info length) (h : Shows font info length w g) (op : ConsoleOp) :
    Returns (op.exec font w) fun w' => Shows font info length w' (op.onGrid g) := by
  cases op with
  | clear =>
    have hclear := clear_shows font h.sameInfo h.sameLength
    rw [← h.rows, ← h.columns] at hclear
    exact Returns.pure hclear
  | writeStr text => exact writeStr_shows hfits h text

/-- **Run.** All calls of the writer. -/
theorem run_shows {font : Font} {info : FrameBufferInfo} {length : ℕ} (hfits : Fits info length)
    (ops : List ConsoleOp) : ∀ {w g}, Shows font info length w g →
    Returns (ops.foldlM (fun w op => op.exec font w) w) fun w' =>
      Shows font info length w' (ops.foldl ConsoleOp.onGrid g) := by
  induction ops with
  | nil =>
    intro w g h
    exact Returns.pure h
  | cons op ops ih =>
    intro w g h
    rw [List.foldlM_cons]
    exact (exec_shows hfits h op).bind fun w' h' => ih h'

/-- The buffer of a writer is decided by the grid it shows. -/
theorem Shows.buffer {font : Font} {info : FrameBufferInfo} {length : ℕ} {w : FrameBufferWriter}
    {g : TextGrid} (h : Shows font info length w g) : w.buffer = render font info length g := by
  apply List.ext_getElem?
  intro i
  unfold render
  rw [List.getElem?_map]
  by_cases hi : i < length
  · rw [h.renders i (by rw [h.sameLength]; exact hi), List.getElem?_range hi, h.sameInfo]
    rfl
  · rw [List.getElem?_eq_none (by rw [h.sameLength]; omega), List.getElem?_eq_none (by simpa using hi)]
    rfl

/-- In the cell at `(row, column)` the pixel at `(x, y)` is lit when bit `x` of byte `y` of the
cell's bitmap is set. -/
theorem gridImage_cell (font : Font) {g : TextGrid} {row column : ℕ} (hrow : row < g.rows)
    (hcolumn : column < g.columns) (x y : Fin 8) :
    gridImage font g (8 * column + x) (8 * row + y) =
      bitSet (cellGlyph font (g.cells row column) y) x := by
  have hx : (8 * column + x.val) / 8 = column ∧ (8 * column + x.val) % 8 = x := by omega
  have hy : (8 * row + y.val) / 8 = row ∧ (8 * row + y.val) % 8 = y := by omega
  unfold gridImage charWidth charHeight
  simp only [hx.1, hy.1, hx.2, hy.2, hrow, hcolumn, and_self, if_true]

/-- The bytes of a pixel that lies in a cell. -/
theorem Shows.pixel {font : Font} {info : FrameBufferInfo} {length : ℕ} {w : FrameBufferWriter}
    {g : TextGrid} (hfits : Fits info length) (h : Shows font info length w g) {row column : ℕ}
    (hrow : row < g.rows) (hcolumn : column < g.columns) (x y : Fin 8) {channel : ℕ}
    (hchannel : channel < info.bytesPerPixel) :
    w.buffer[((8 * row + y) * info.stride + (8 * column + x)) * info.bytesPerPixel + channel]? =
      some (if channel < colorBytes info.pixelFormat ∧
        bitSet (cellGlyph font (g.cells row column) y) x then 0xff else 0x00) := by
  have hrows := h.rows
  have hcolumns := h.columns
  unfold charHeight at hrows
  unfold charWidth at hcolumns
  have hwidth : 8 * column + x < info.width := by omega
  have hheight : 8 * row + y < info.height := by omega
  have hstride : 8 * column + x.val < info.stride := hwidth.trans_le hfits.widthLe
  have hin := hfits.pixel hwidth hheight
  rcases @pixel_byte info (8 * column + x) (8 * row + y) channel hstride hchannel with
    ⟨hmod, hx, hy⟩
  rw [h.renders _ (by rw [h.sameLength]; omega), h.sameInfo, imageByte, hmod, hx, hy,
    gridImage_cell font hrow hcolumn]

/-- The console refines a grid of characters. From the cleared screen, whatever is cleared and
written: nothing is out of range, the buffer is the rendering of the grid on which the same
characters acted, so that every pixel of a cell is lit exactly when its bit of the bitmap is set,
every byte that belongs to no cell is zero, and the cursor is on the grid. -/
theorem console_refines_grid (font : Font) {info : FrameBufferInfo} {buffer : List UInt8}
    (hfits : Fits info buffer.length) (ops : List ConsoleOp) :
    ∃ w, ops.foldlM (fun w op => op.exec font w) (FrameBufferWriter.new buffer info).clear =
        .ok w ∧
      ∃ g, g = ops.foldl ConsoleOp.onGrid (TextGrid.blank (info.height / 8) (info.width / 8)) ∧
        w.buffer = render font info buffer.length g ∧
        g.rows = info.height / 8 ∧ g.columns = info.width / 8 ∧
        w.row = g.row ∧ w.column = g.column ∧
        (∀ row < g.rows, ∀ column < g.columns, ∀ x y : Fin 8, ∀ channel < info.bytesPerPixel,
          w.buffer[((8 * row + y) * info.stride + (8 * column + x)) * info.bytesPerPixel +
              channel]? =
            some (if channel < colorBytes info.pixelFormat ∧
              (cellGlyph font (g.cells row column) y).toNat / 2 ^ x.val % 2 = 1 then 0xff
              else 0x00)) ∧
        (∀ i < buffer.length, ¬ (i / info.bytesPerPixel % info.stride / 8 < g.columns ∧
          i / info.bytesPerPixel / info.stride / 8 < g.rows) → w.buffer[i]? = some 0) ∧
        (8 ≤ info.width → 8 ≤ info.height →
          w.column ≤ info.width / 8 ∧ w.row < info.height / 8) := by
  have hclear : Shows font info buffer.length (FrameBufferWriter.new buffer info).clear
      (TextGrid.blank (info.height / 8) (info.width / 8)) := clear_shows _ rfl rfl
  rcases run_shows hfits ops hclear with ⟨w, hrun, h⟩
  refine ⟨w, hrun, _, rfl, h.buffer, h.rows, h.columns, h.row, h.column, ?_, ?_, ?_⟩
  · intro row hrow column hcolumn x y channel hchannel
    rw [h.pixel hfits hrow hcolumn x y hchannel]
    simp only [bitSet, decide_eq_true_eq]
  · intro i hi hbeside
    -- a pixel beside the cells is a pixel of no glyph
    have hdark : gridImage font (ops.foldl ConsoleOp.onGrid (TextGrid.blank (info.height / 8)
        (info.width / 8))) (i / info.bytesPerPixel % info.stride)
        (i / info.bytesPerPixel / info.stride) = false := if_neg hbeside
    rw [h.renders i (by rw [h.sameLength]; exact hi), h.sameInfo, imageByte, hdark]
    simp
  · intro hwidth hheight
    have hcolumn := h.wellFormed.columnLe
    have hrow := h.wellFormed.rowLe
    have hrows := h.rows
    have hcolumns := h.columns
    unfold charWidth at hcolumns
    unfold charHeight at hrows
    rw [h.row, h.column]
    omega

/-- A screen of two rows of two cells, four bytes a pixel, with a margin on every side. -/
def smallScreen : FrameBufferInfo :=
  { width := 17, height := 18, pixelFormat := .bgr, bytesPerPixel := 4, stride := 20 }

/-- The letter A of the font. -/
def fontOfA : Font := fun character =>
  if character = 'A' then some (fun y => [0x0C, 0x1E, 0x33, 0x33, 0x3F, 0x33, 0x33, 0x00].get y)
  else none

/-- The first row of the letter has its bits 2 and 3 set: so much is lit of the pixels 2 and 4 of the
first line, and of pixel 2 of the first line of the second row. -/
theorem console_refines_grid_small :
    ∃ w, [ConsoleOp.writeStr "A\nA"].foldlM (fun w op => op.exec fontOfA w)
        (FrameBufferWriter.new (List.replicate 1500 7) smallScreen).clear = .ok w ∧
      w.row = 1 ∧ w.column = 1 ∧
      w.buffer[8]? = some 0xff ∧ w.buffer[11]? = some 0x00 ∧ w.buffer[16]? = some 0x00 ∧
      w.buffer[648]? = some 0xff := by
  have hfits : Fits smallScreen (List.replicate 1500 (7 : UInt8)).length := by
    rw [List.length_replicate]
    exact ⟨by decide, by decide, by decide, by decide, by decide, by decide⟩
  rcases console_refines_grid fontOfA hfits [ConsoleOp.writeStr "A\nA"] with
    ⟨w, hrun, g, hg, -, -, -, hrow, hcolumn, hpixels, -, -⟩
  subst hg
  have hfirst := hpixels 0 (by decide) 0 (by decide)
  have hsecond := hpixels 1 (by decide) 0 (by decide) 2 0 0 (by decide)
  exact ⟨w, hrun, hrow.trans (by decide), hcolumn.trans (by decide),
    (hfirst 2 0 0 (by decide)).trans (by decide), (hfirst 2 0 3 (by decide)).trans (by decide),
    (hfirst 4 0 0 (by decide)).trans (by decide), hsecond.trans (by decide)⟩

end JingOS.Framebuffer
