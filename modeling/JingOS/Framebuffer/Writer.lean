import JingOS.Lib.Checked
import Mathlib.Data.Nat.Basic
import Mathlib.Order.Basic

/-!
# The framebuffer console (`kernel/src/framebuffer.rs`)

A text console over a raw pixel buffer. Every addition, multiplication and access of the
source is a checked one here, so that the model panics where the code does.

* `Inv` — the buffer is as large as its description says, and the cursor is on the grid;
* `writeStr_returns`, `clear_inv` — under `Inv` no text makes the writer panic.
-/

namespace JingOS.Framebuffer

open Checked

/-- `CHAR_WIDTH`. -/
def charWidth : ℕ := 8

/-- `CHAR_HEIGHT`. -/
def charHeight : ℕ := 8

/-- `PixelFormat`; `other` stands for the variants that the kernel does not tell apart. -/
inductive PixelFormat where
  | rgb
  | bgr
  | u8
  | other
deriving DecidableEq, Repr

/-- The part of `FrameBufferInfo` that is read. -/
structure FrameBufferInfo where
  width : ℕ
  height : ℕ
  pixelFormat : PixelFormat
  bytesPerPixel : ℕ
  stride : ℕ
deriving DecidableEq, Repr

/-- The rows of a character, a bit for each pixel. -/
abbrev Glyph := Fin 8 → UInt8

/-- `[0; 8]`. -/
def blank : Glyph := fun _ => 0

/-- `font8x8::BASIC_FONTS`. -/
abbrev Font := Char → Option Glyph

structure FrameBufferWriter where
  buffer : List UInt8
  info : FrameBufferInfo
  column : ℕ
  row : ℕ

namespace FrameBufferWriter

/-- The writer of a buffer, with the cursor in the corner. -/
def new (buffer : List UInt8) (info : FrameBufferInfo) : FrameBufferWriter :=
  { buffer, info, column := 0, row := 0 }

/-- All pixels dark, and the cursor in the corner. -/
def clear (w : FrameBufferWriter) : FrameBufferWriter :=
  { w with buffer := List.replicate w.buffer.length 0, column := 0, row := 0 }

def maxColumns (w : FrameBufferWriter) : ℕ := w.info.width / charWidth

def maxRows (w : FrameBufferWriter) : ℕ := w.info.height / charHeight

/-- The arms of `set_pixel` for `Rgb` and for `Bgr`: the same bytes, for the colours are
black and white. -/
def paintColor (bytesPerPixel : ℕ) (pixel : List UInt8) (color : UInt8) : Checked (List UInt8) := do
  let pixel ← store pixel 0 color
  let pixel ← (if bytesPerPixel > 1 then store pixel 1 color else pure pixel)
  let pixel ← (if bytesPerPixel > 2 then store pixel 2 color else pure pixel)
  if bytesPerPixel > 3 then store pixel 3 0x00 else pure pixel

/-- The `match` of `set_pixel` on the pixel format. -/
def paintPixel (info : FrameBufferInfo) (pixel : List UInt8) (color : UInt8) :
    Checked (List UInt8) :=
  match info.pixelFormat with
  | .rgb => paintColor info.bytesPerPixel pixel color
  | .bgr => paintColor info.bytesPerPixel pixel color
  | .u8 => store pixel 0 color
  | .other => pure (List.replicate pixel.length 0x00)

/-- A pixel beside the screen is skipped; the others take all bytes of their pixel. -/
def setPixel (w : FrameBufferWriter) (x y : ℕ) (on : Bool) : Checked FrameBufferWriter :=
  if x ≥ w.info.width ∨ y ≥ w.info.height then pure w
  else do
    let bytesPerPixel := w.info.bytesPerPixel
    let offset ← mul (← add (← mul y w.info.stride) x) bytesPerPixel
    let stop ← add offset bytesPerPixel
    -- a pixel beyond the buffer is not drawn
    if stop > w.buffer.length then pure w
    else do
      let color : UInt8 := if on then 0xff else 0x00
      let pixel ← paintPixel w.info (← slice w.buffer offset stop) color
      pure { w with buffer := w.buffer.take offset ++ pixel ++ w.buffer.drop stop }

/-- `row_bits & (1 << glyph_x) != 0`. -/
def bitOn (rowBits : UInt8) (glyphX : ℕ) : Bool := rowBits.toNat.testBit glyphX

/-- The pixels of a glyph in the order of the two loops of `draw_glyph`. -/
def glyphPixels : List (Fin 8 × Fin 8) :=
  (List.finRange 8).flatMap fun glyphY => (List.finRange 8).map fun glyphX => (glyphY, glyphX)

/-- The body of the loops of `draw_glyph`. -/
def drawPixel (originX originY : ℕ) (glyph : Glyph) (w : FrameBufferWriter)
    (pixel : Fin 8 × Fin 8) : Checked FrameBufferWriter := do
  let x ← add originX pixel.2
  let y ← add originY pixel.1
  w.setPixel x y (bitOn (glyph pixel.1) pixel.2)

def drawGlyph (w : FrameBufferWriter) (originX originY : ℕ) (glyph : Glyph) :
    Checked FrameBufferWriter :=
  glyphPixels.foldlM (drawPixel originX originY glyph) w

/-- The buffer moves up by one row of text, and the last row becomes dark. -/
def scrollOneRow (w : FrameBufferWriter) : Checked FrameBufferWriter := do
  let rowBytes ← mul w.info.stride w.info.bytesPerPixel
  let charRowBytes ← mul rowBytes charHeight
  if charRowBytes = 0 ∨ charRowBytes ≥ w.buffer.length then
    pure { w with buffer := List.replicate w.buffer.length 0 }
  else do
    -- `copy_within` checks that the range lies in the buffer
    let moved ← slice w.buffer charRowBytes w.buffer.length
    let start ← sub w.buffer.length charRowBytes
    let rest ← slice w.buffer start w.buffer.length
    pure { w with buffer := moved ++ List.replicate rest.length 0 }

/-- The next row, or the last one again with all others moved up. -/
def newLine (w : FrameBufferWriter) : Checked FrameBufferWriter := do
  let row ← add w.row 1
  let w := { w with column := 0, row }
  if w.row ≥ w.maxRows then do
    let w ← w.scrollOneRow
    pure { w with row := w.maxRows - 1 }
  else pure w

/-- The second `if` of `write_renderable`. -/
def scrollToLastRow (w : FrameBufferWriter) : Checked FrameBufferWriter := do
  let w ← w.scrollOneRow
  let row ← sub w.maxRows 1
  pure { w with row }

/-- A character at the cursor, on a screen that has room for one at all. -/
def writeRenderable (font : Font) (w : FrameBufferWriter) (character : Char) :
    Checked FrameBufferWriter :=
  if w.maxColumns = 0 ∨ w.maxRows = 0 then pure w
  else do
    -- the wrap is deferred: a full row is left only for the next character
    let w ← (if w.column ≥ w.maxColumns then w.newLine else pure w)
    let w ← (if w.row ≥ w.maxRows then w.scrollToLastRow else pure w)
    let glyph := (font character).getD blank
    let pixelX ← mul w.column charWidth
    let pixelY ← mul w.row charHeight
    let w ← w.drawGlyph pixelX pixelY glyph
    let column ← add w.column 1
    pure { w with column }

/-- One cell back, to the end of the row above if need be, and that cell is erased. -/
def backspace (w : FrameBufferWriter) : Checked FrameBufferWriter :=
  if w.maxColumns = 0 ∨ w.maxRows = 0 then pure w
  else if w.column > 0 then do
    let column ← sub w.column 1
    erase { w with column }
  else if w.row > 0 then do
    let row ← sub w.row 1
    -- back over the start of a row, to the last cell of the one above
    erase { w with row, column := w.maxColumns - 1 }
  else pure w
where
  /-- The end of `backspace`, at the new position. -/
  erase (w : FrameBufferWriter) : Checked FrameBufferWriter := do
    let pixelX ← mul w.column charWidth
    let pixelY ← mul w.row charHeight
    w.drawGlyph pixelX pixelY blank

/-- The body of the loop of `write_str`. -/
def writeChar (font : Font) (w : FrameBufferWriter) (character : Char) :
    Checked FrameBufferWriter :=
  if character = '\n' then w.newLine
  else if character = '\r' then pure { w with column := 0 }
  else if character = '\x08' then w.backspace
  else if character = '\t' then
    (List.replicate 4 ' ').foldlM (writeRenderable font) w
  else writeRenderable font w (if character.toNat < 128 then character else '?')

def writeStr (font : Font) (w : FrameBufferWriter) (text : String) : Checked FrameBufferWriter :=
  text.toList.foldlM (writeChar font) w

/-! ## The invariant -/

/-- What the bootloader promises of a framebuffer of `length` bytes: the description fits the
buffer, and a row of characters can be measured in bytes. -/
structure Fits (info : FrameBufferInfo) (length : ℕ) : Prop where
  bytesPos : 0 < info.bytesPerPixel
  widthLe : info.width ≤ info.stride
  heightLt : info.height < 2 ^ 64
  sizeLe : info.stride * info.height * info.bytesPerPixel ≤ length
  lengthLt : length < 2 ^ 64
  textRowLt : info.stride * info.bytesPerPixel * charHeight < 2 ^ 64

structure Inv (w : FrameBufferWriter) : Prop where
  fits : Fits w.info w.buffer.length
  columnLe : w.column ≤ w.maxColumns
  /-- On a screen too low for one row of text the row stays 0. -/
  rowLe : w.row ≤ w.maxRows - 1

/-- Only the pixels differ, and there are as many as before. -/
structure SamePlace (w w' : FrameBufferWriter) : Prop where
  info : w'.info = w.info
  length : w'.buffer.length = w.buffer.length
  column : w'.column = w.column
  row : w'.row = w.row

theorem SamePlace.refl (w : FrameBufferWriter) : SamePlace w w := ⟨rfl, rfl, rfl, rfl⟩

theorem SamePlace.trans {w₁ w₂ w₃ : FrameBufferWriter} (h : SamePlace w₁ w₂)
    (h' : SamePlace w₂ w₃) : SamePlace w₁ w₃ :=
  ⟨h'.info.trans h.info, h'.length.trans h.length, h'.column.trans h.column, h'.row.trans h.row⟩

theorem SamePlace.fits {w w' : FrameBufferWriter} (h : SamePlace w w')
    (hfits : Fits w.info w.buffer.length) : Fits w'.info w'.buffer.length := by
  rw [h.info, h.length]
  exact hfits

/-- The invariant is about the place and the length only. -/
theorem SamePlace.inv {w w' : FrameBufferWriter} (h : SamePlace w w') (hinv : Inv w) : Inv w' where
  fits := h.fits hinv.fits
  columnLe := by
    unfold maxColumns
    rw [h.column, h.info]
    exact hinv.columnLe
  rowLe := by
    unfold maxRows
    rw [h.row, h.info]
    exact hinv.rowLe

theorem new_inv {buffer : List UInt8} {info : FrameBufferInfo} (h : Fits info buffer.length) :
    Inv (new buffer info) :=
  ⟨h, Nat.zero_le _, Nat.zero_le _⟩

theorem clear_inv {w : FrameBufferWriter} (h : Inv w) : Inv w.clear where
  fits := by
    rw [clear, List.length_replicate]
    exact h.fits
  columnLe := Nat.zero_le _
  rowLe := Nat.zero_le _

/-! ## Pixels -/

theorem store_returns {xs : List UInt8} {i : ℕ} (h : i < xs.length) (x : UInt8) :
    Returns (store xs i x) fun ys => ys.length = xs.length :=
  ⟨_, store_eq h x, List.length_set⟩

theorem storeIf_returns {xs : List UInt8} {i n : ℕ} (h : n ≤ xs.length) (x : UInt8) :
    Returns (if n > i then store xs i x else pure xs) fun ys => ys.length = xs.length := by
  split
  · exact store_returns (by omega) x
  · exact Returns.pure rfl

theorem paintColor_returns {pixel : List UInt8} (h : 0 < pixel.length) (color : UInt8) :
    Returns (paintColor pixel.length pixel color) fun painted => painted.length = pixel.length := by
  unfold paintColor
  refine (store_returns h color).bind fun p₁ h₁ => ?_
  refine (storeIf_returns (Nat.le_of_eq h₁.symm) color).bind fun p₂ h₂ => ?_
  refine (storeIf_returns (Nat.le_of_eq (h₂.trans h₁).symm) color).bind fun p₃ h₃ => ?_
  have hlen : p₃.length = pixel.length := h₃.trans (h₂.trans h₁)
  exact (storeIf_returns (Nat.le_of_eq hlen.symm) 0x00).mono fun p₄ h₄ => h₄.trans hlen

theorem paintPixel_returns {info : FrameBufferInfo} {pixel : List UInt8}
    (hpos : 0 < info.bytesPerPixel) (hlen : pixel.length = info.bytesPerPixel) (color : UInt8) :
    Returns (paintPixel info pixel color) fun painted => painted.length = pixel.length := by
  unfold paintPixel
  rw [← hlen] at hpos ⊢
  split
  · exact paintColor_returns hpos color
  · exact paintColor_returns hpos color
  · exact store_returns hpos color
  · exact Returns.pure List.length_replicate

/-- The pixel at `(x, y)` lies in the buffer. -/
theorem Fits.pixel {info : FrameBufferInfo} {length x y : ℕ} (h : Fits info length)
    (hx : x < info.width) (hy : y < info.height) :
    (y * info.stride + x) * info.bytesPerPixel + info.bytesPerPixel ≤ length := by
  have hrow : y * info.stride + x + 1 ≤ info.stride * info.height := by
    have hwidth := h.widthLe
    have hmul : info.stride * (y + 1) ≤ info.stride * info.height := Nat.mul_le_mul_left _ hy
    rw [Nat.mul_add, Nat.mul_comm info.stride y] at hmul
    omega
  calc (y * info.stride + x) * info.bytesPerPixel + info.bytesPerPixel
      = (y * info.stride + x + 1) * info.bytesPerPixel := by rw [Nat.add_mul _ 1, Nat.one_mul]
    _ ≤ info.stride * info.height * info.bytesPerPixel := Nat.mul_le_mul_right _ hrow
    _ ≤ length := h.sizeLe

/-- On the screen: every product and sum on the way is below the length of the buffer. -/
theorem setPixel_eq {w : FrameBufferWriter} (h : Fits w.info w.buffer.length) {x y : ℕ}
    (hx : x < w.info.width) (hy : y < w.info.height) (on : Bool) :
    w.setPixel x y on = (do
      let offset := (y * w.info.stride + x) * w.info.bytesPerPixel
      let stop := offset + w.info.bytesPerPixel
      let pixel ← paintPixel w.info ((w.buffer.take stop).drop offset) (if on then 0xff else 0x00)
      pure { w with buffer := w.buffer.take offset ++ pixel ++ w.buffer.drop stop }) := by
  have hin := h.pixel hx hy
  have hpos := h.bytesPos
  have hlt := h.lengthLt
  have hscale : y * w.info.stride + x ≤ (y * w.info.stride + x) * w.info.bytesPerPixel :=
    Nat.le_mul_of_pos_right _ hpos
  unfold setPixel
  rw [if_neg (by omega)]
  simp only [mul_eq (a := y) (b := w.info.stride) (by omega), ok_bind,
    add_eq (a := y * w.info.stride) (b := x) (by omega),
    mul_eq (a := y * w.info.stride + x) (b := w.info.bytesPerPixel) (by omega),
    add_eq (a := (y * w.info.stride + x) * w.info.bytesPerPixel) (b := w.info.bytesPerPixel)
      (by omega)]
  rw [if_neg (by omega), slice_eq (by omega) hin]
  rfl

/-- The bytes of a pixel on the screen. -/
theorem length_pixel {w : FrameBufferWriter} (h : Fits w.info w.buffer.length) {x y : ℕ}
    (hx : x < w.info.width) (hy : y < w.info.height) :
    ((w.buffer.take ((y * w.info.stride + x) * w.info.bytesPerPixel +
      w.info.bytesPerPixel)).drop ((y * w.info.stride + x) * w.info.bytesPerPixel)).length =
      w.info.bytesPerPixel := by
  have hin := h.pixel hx hy
  rw [List.length_drop, List.length_take]
  omega

/-- The bytes of a pixel are inside of the buffer. -/
theorem setPixel_returns {w : FrameBufferWriter} (h : Fits w.info w.buffer.length) (x y : ℕ)
    (on : Bool) : Returns (w.setPixel x y on) (SamePlace w) := by
  by_cases hout : x ≥ w.info.width ∨ y ≥ w.info.height
  · unfold setPixel
    rw [if_pos hout]
    exact Returns.pure (SamePlace.refl w)
  · have hx : x < w.info.width := by omega
    have hy : y < w.info.height := by omega
    have hin := h.pixel hx hy
    -- the pixel's bytes are replaced by as many
    have hlen := length_pixel h hx hy
    rw [setPixel_eq h hx hy]
    refine (paintPixel_returns h.bytesPos hlen _).bind fun painted hpainted => ?_
    refine Returns.pure ⟨rfl, ?_, rfl, rfl⟩
    rw [hlen] at hpainted
    simp only [List.length_append, List.length_take, List.length_drop, hpainted]
    omega

/-- The additions of `draw_glyph` do not overflow when its last pixel is within the words. -/
theorem drawGlyph_returns {w : FrameBufferWriter} (h : Fits w.info w.buffer.length)
    {originX originY : ℕ} (hx : originX + 8 ≤ 2 ^ 64) (hy : originY + 8 ≤ 2 ^ 64) (glyph : Glyph) :
    Returns (w.drawGlyph originX originY glyph) (SamePlace w) := by
  unfold drawGlyph
  refine Returns.foldlM (fun w' pixel _ hw' => ?_) (SamePlace.refl w)
  have hpx := pixel.2.isLt
  have hpy := pixel.1.isLt
  simp only [drawPixel, bind, Except.bind, add_eq (a := originX) (b := pixel.2) (by omega),
    add_eq (a := originY) (b := pixel.1) (by omega)]
  exact (setPixel_returns (hw'.fits h) _ _ _).mono fun _ => hw'.trans

/-! ## Lines -/

/-- The bytes of a row of text are few enough to be counted, and so what is moved is in the buffer. -/
theorem scrollOneRow_eq {w : FrameBufferWriter} (h : Fits w.info w.buffer.length) :
    w.scrollOneRow =
      let charRowBytes := w.info.stride * w.info.bytesPerPixel * charHeight
      .ok { w with buffer :=
        if charRowBytes = 0 ∨ charRowBytes ≥ w.buffer.length then List.replicate w.buffer.length 0
        else w.buffer.drop charRowBytes ++ List.replicate charRowBytes 0 } := by
  have hbytes := h.textRowLt
  have hrow : w.info.stride * w.info.bytesPerPixel ≤
      w.info.stride * w.info.bytesPerPixel * charHeight := Nat.le_mul_of_pos_right _ (by decide)
  unfold scrollOneRow
  simp only [ok_bind, mul_eq (a := w.info.stride) (b := w.info.bytesPerPixel) (by omega),
    mul_eq hbytes]
  split
  · rfl
  · next hscroll =>
    rw [slice_eq (by omega) le_rfl, ok_bind, sub_eq (by omega), ok_bind,
      slice_eq (by omega) le_rfl, ok_bind, List.take_length, List.length_drop,
      Nat.sub_sub_self (by omega)]
    rfl

theorem scrollOneRow_returns {w : FrameBufferWriter} (h : Fits w.info w.buffer.length) :
    Returns w.scrollOneRow (SamePlace w) := by
  rw [scrollOneRow_eq h]
  refine Returns.ok ⟨rfl, ?_, rfl, rfl⟩
  simp only
  split
  · exact List.length_replicate
  · next hscroll =>
    rw [List.length_append, List.length_drop, List.length_replicate]
    omega

/-- After `new_line` the cursor is at the start of a row of the screen. -/
theorem newLine_returns {w : FrameBufferWriter} (h : Inv w) :
    Returns w.newLine fun w' => Inv w' ∧ w'.info = w.info ∧ w'.column = 0 := by
  have hrows : w.maxRows ≤ w.info.height := Nat.div_le_self _ _
  have hheight := h.fits.heightLt
  have hrow := h.rowLe
  unfold newLine
  simp only [bind, Except.bind, add_eq (a := w.row) (b := 1) (by omega)]
  split
  · -- the new row is below the screen: everything moves up by one
    refine (scrollOneRow_returns (w := { w with column := 0, row := w.row + 1 }) h.fits).bind
      fun w' hw' => Returns.pure ⟨⟨hw'.fits h.fits, ?_, le_rfl⟩, hw'.info, hw'.column⟩
    rw [hw'.column]
    exact Nat.zero_le _
  · next hbelow =>
    have hroom : w.row + 1 ≤ w.maxRows - 1 := Nat.le_sub_one_of_lt (Nat.lt_of_not_le hbelow)
    exact Returns.pure ⟨⟨h.fits, Nat.zero_le _, hroom⟩, rfl, rfl⟩

/-- A cell of the grid lies on the screen. -/
theorem cell_lt {w : FrameBufferWriter} (h : Fits w.info w.buffer.length)
    (hcolumn : w.column < w.maxColumns) (hrow : w.row < w.maxRows) :
    w.column * charWidth + 8 ≤ 2 ^ 64 ∧ w.row * charHeight + 8 ≤ 2 ^ 64 := by
  have hwidth : w.info.width < 2 ^ 64 := by
    have hpos := h.bytesPos
    have hstride : w.info.stride ≤ w.info.stride * w.info.bytesPerPixel * charHeight :=
      (Nat.le_mul_of_pos_right _ hpos).trans (Nat.le_mul_of_pos_right _ (by decide))
    exact lt_of_le_of_lt (h.widthLe.trans hstride) h.textRowLt
  have hheight := h.heightLt
  unfold maxColumns charWidth at hcolumn
  unfold maxRows charHeight at hrow
  unfold charWidth charHeight
  omega

/-- The cursor stays on the screen, and so does the glyph. -/
theorem writeRenderable_returns (font : Font) {w : FrameBufferWriter} (h : Inv w)
    (character : Char) : Returns (writeRenderable font w character) Inv := by
  unfold writeRenderable
  split
  · exact Returns.pure h
  · next hgrid =>
    -- the deferred wrap leaves the cursor on a column of the screen
    have hwrap : Returns (if w.column ≥ w.maxColumns then w.newLine else pure w)
        fun w' => Inv w' ∧ w'.info = w.info ∧ w'.column < w'.maxColumns := by
      split
      · refine (newLine_returns h).mono fun w' hw' => ⟨hw'.1, hw'.2.1, ?_⟩
        rw [hw'.2.2, maxColumns, hw'.2.1]
        exact Nat.pos_of_ne_zero fun hzero => hgrid (.inl hzero)
      · next hcolumn => exact Returns.pure ⟨h, rfl, Nat.lt_of_not_le hcolumn⟩
    refine hwrap.bind fun w₁ hw₁ => ?_
    obtain ⟨hinv, hinfo, hcolumn⟩ := hw₁
    have hrows : 0 < w₁.maxRows := by
      rw [maxRows, hinfo]
      exact Nat.pos_of_ne_zero fun hzero => hgrid (.inr hzero)
    have hrow : w₁.row < w₁.maxRows := by
      have := hinv.rowLe
      omega
    -- so the second scroll of the source is never taken
    rw [if_neg (Nat.not_le.mpr hrow)]
    have hcell := cell_lt hinv.fits hcolumn hrow
    simp only [pure_bind, mul_eq (a := w₁.column) (b := charWidth) (by omega),
      mul_eq (a := w₁.row) (b := charHeight) (by omega)]
    refine (drawGlyph_returns hinv.fits hcell.1 hcell.2 _).bind fun w₂ hw₂ => ?_
    have hinv₂ := hw₂.inv hinv
    have hcolumn₂ : w₂.column < w₂.maxColumns := by
      rw [hw₂.column, maxColumns, hw₂.info]
      exact hcolumn
    have hcell₂ := cell_lt hinv₂.fits hcolumn₂ (by rw [hw₂.row, maxRows, hw₂.info]; exact hrow)
    rw [add_eq (by unfold charWidth at hcell₂; omega)]
    exact Returns.pure ⟨hinv₂.fits, hcolumn₂, hinv₂.rowLe⟩

theorem erase_returns {w : FrameBufferWriter} (h : Inv w) (hcolumn : w.column < w.maxColumns)
    (hrow : w.row < w.maxRows) : Returns (backspace.erase w) Inv := by
  have hcell := cell_lt h.fits hcolumn hrow
  unfold backspace.erase
  simp only [bind, Except.bind, mul_eq (a := w.column) (b := charWidth) (by omega),
    mul_eq (a := w.row) (b := charHeight) (by omega)]
  exact (drawGlyph_returns h.fits hcell.1 hcell.2 blank).mono fun _ hw => hw.inv h

theorem backspace_returns {w : FrameBufferWriter} (h : Inv w) : Returns w.backspace Inv := by
  have hcolumnLe := h.columnLe
  have hrowLe := h.rowLe
  unfold backspace
  split
  · exact Returns.pure h
  · next hgrid =>
    split
    · next hcolumn =>
      simp only [bind, Except.bind, sub_eq (a := w.column) (b := 1) (by omega)]
      have hlt : w.column - 1 < w.maxColumns := by omega
      exact erase_returns (w := { w with column := w.column - 1 })
        ⟨h.fits, hlt.le, h.rowLe⟩ hlt (by change w.row < w.maxRows; omega)
    · split
      · next hrow =>
        simp only [bind, Except.bind, sub_eq (a := w.row) (b := 1) (by omega)]
        have hlt : w.maxColumns - 1 < w.maxColumns := by omega
        have hup : w.row - 1 ≤ w.maxRows - 1 := by omega
        exact erase_returns (w := { w with row := w.row - 1, column := w.maxColumns - 1 })
          ⟨h.fits, hlt.le, hup⟩ hlt (by change w.row - 1 < w.maxRows; omega)
      · exact Returns.pure h

theorem writeChar_returns (font : Font) {w : FrameBufferWriter} (h : Inv w) (character : Char) :
    Returns (writeChar font w character) Inv := by
  unfold writeChar
  split
  · exact (newLine_returns h).mono fun _ hw => hw.1
  · split
    · exact Returns.pure ⟨h.fits, Nat.zero_le _, h.rowLe⟩
    · split
      · exact backspace_returns h
      · split
        · exact Returns.foldlM (fun _ space _ hw => writeRenderable_returns font hw space) h
        · exact writeRenderable_returns font h _

/-- No text makes the console panic. -/
theorem writeStr_returns (font : Font) {w : FrameBufferWriter} (h : Inv w) (text : String) :
    Returns (writeStr font w text) Inv :=
  Returns.foldlM (fun _ character _ hw => writeChar_returns font hw character) h

end FrameBufferWriter

end JingOS.Framebuffer
