import Mathlib.Data.Nat.Basic
import Mathlib.Tactic.Common

/-!
# A grid of character cells with a cursor

What a text console is: `rows` by `columns` cells, each with a character or blank, and a place
where the next character goes. The column may be one beyond the last: a full row is left only
when another character comes.

* `put`, `newLine`, `carriageReturn`, `backspace` — the operations;
* `WellFormed` — the cursor is on the grid, and nothing is written beside it;
* `BlankBelow`, `Fresh` — nothing is written below the cursor, or not even in its row;
* `foldl_put` — a text that fits the row is written over it.
-/

/-- Cells by row and column; `none` is a cell in which nothing is written. -/
structure TextGrid where
  rows : ℕ
  columns : ℕ
  cells : ℕ → ℕ → Option Char
  row : ℕ
  column : ℕ

namespace TextGrid

/-- A grid in which nothing is written. -/
def blank (rows columns : ℕ) : TextGrid :=
  { rows, columns, cells := fun _ _ => none, row := 0, column := 0 }

/-- Is there no cell at all? -/
def isEmpty (g : TextGrid) : Bool := g.columns == 0 || g.rows == 0

/-- Replace the cell at the cursor. -/
def setCell (g : TextGrid) (cell : Option Char) : TextGrid :=
  { g with cells := fun r c => if r = g.row ∧ c = g.column then cell else g.cells r c }

/-- Every row moves up by one, and the last is blank. -/
def scroll (g : TextGrid) : TextGrid :=
  { g with cells := fun r c => if r + 1 < g.rows then g.cells (r + 1) c else none }

/-- To the start of the next row; below the last one, the grid scrolls. -/
def newLine (g : TextGrid) : TextGrid :=
  if g.row + 1 < g.rows then { g with row := g.row + 1, column := 0 }
  else { g.scroll with row := g.rows - 1, column := 0 }

/-- Back to the first column. -/
def carriageReturn (g : TextGrid) : TextGrid := { g with column := 0 }

/-- Behind a full row, go to the next. -/
def wrap (g : TextGrid) : TextGrid := if g.column < g.columns then g else g.newLine

/-- Write a character and go on. -/
def put (g : TextGrid) (character : Char) : TextGrid :=
  if g.isEmpty then g
  else
    let g := g.wrap.setCell (some character)
    { g with column := g.column + 1 }

/-- Go back by one cell, also over the start of a row, and blank it. -/
def backspace (g : TextGrid) : TextGrid :=
  if g.isEmpty then g
  else if 0 < g.column then { g with column := g.column - 1 }.setCell none
  else if 0 < g.row then
    { g with row := g.row - 1, column := g.columns - 1 }.setCell none
  else g

/-! ## The cursor stays on the grid -/

structure WellFormed (g : TextGrid) : Prop where
  columnLe : g.column ≤ g.columns
  /-- Without rows, the row is 0. -/
  rowLe : g.row ≤ g.rows - 1

variable {g : TextGrid}

theorem blank_wellFormed (rows columns : ℕ) : (blank rows columns).WellFormed :=
  ⟨Nat.zero_le _, Nat.zero_le _⟩

theorem isEmpty_iff : g.isEmpty = true ↔ g.columns = 0 ∨ g.rows = 0 := by
  unfold isEmpty
  rw [Bool.or_eq_true, beq_iff_eq, beq_iff_eq]

theorem newLine_rows (g : TextGrid) : g.newLine.rows = g.rows := by
  unfold newLine
  split <;> rfl

theorem newLine_columns (g : TextGrid) : g.newLine.columns = g.columns := by
  unfold newLine
  split <;> rfl

theorem newLine_column (g : TextGrid) : g.newLine.column = 0 := by
  unfold newLine
  split <;> rfl

theorem newLine_wellFormed (g : TextGrid) : g.newLine.WellFormed := by
  unfold newLine
  split
  · next hlt => exact ⟨Nat.zero_le _, Nat.le_sub_one_of_lt hlt⟩
  · exact ⟨Nat.zero_le _, Nat.le_refl _⟩

theorem wrap_wellFormed (h : g.WellFormed) : g.wrap.WellFormed := by
  unfold wrap
  split
  · exact h
  · exact newLine_wellFormed g

theorem wrap_rows (g : TextGrid) : g.wrap.rows = g.rows := by
  unfold wrap
  split
  · rfl
  · exact newLine_rows g

theorem wrap_columns (g : TextGrid) : g.wrap.columns = g.columns := by
  unfold wrap
  split
  · rfl
  · exact newLine_columns g

/-- After a wrap there is room for a character. -/
theorem wrap_column_lt (h : g.columns ≠ 0) : g.wrap.column < g.columns := by
  unfold wrap
  split
  · next hlt => exact hlt
  · rw [newLine_column]
    exact Nat.pos_of_ne_zero h

theorem wrap_row_lt (hwf : g.WellFormed) (h : g.rows ≠ 0) : g.wrap.row < g.rows := by
  have hle := (wrap_wellFormed hwf).rowLe
  rw [wrap_rows] at hle
  omega

theorem put_rows (g : TextGrid) (character : Char) : (g.put character).rows = g.rows := by
  unfold put
  split
  · rfl
  · exact wrap_rows g

theorem put_columns (g : TextGrid) (character : Char) : (g.put character).columns = g.columns := by
  unfold put
  split
  · rfl
  · exact wrap_columns g

/-! ## Below the cursor -/

/-- Nothing is written below the row of the cursor. -/
def BlankBelow (g : TextGrid) : Prop := ∀ r c, g.row < r → g.cells r c = none

/-- The cursor is at the start of a row in which nothing is written yet. -/
structure Fresh (g : TextGrid) : Prop where
  column : g.column = 0
  cells : ∀ r c, g.row ≤ r → g.cells r c = none

theorem Fresh.blankBelow (h : g.Fresh) : g.BlankBelow :=
  fun r c hr => h.cells r c (Nat.le_of_lt hr)

theorem blank_fresh (rows columns : ℕ) : (blank rows columns).Fresh := ⟨rfl, fun _ _ _ => rfl⟩

/-- A new row is a fresh one; where the grid scrolls, it is the one that comes in. -/
theorem newLine_fresh (h : g.BlankBelow) : g.newLine.Fresh := by
  unfold newLine
  by_cases hnext : g.row + 1 < g.rows
  · rw [if_pos hnext]
    exact ⟨rfl, fun r c hr => h r c hr⟩
  · rw [if_neg hnext]
    refine ⟨rfl, ?_⟩
    intro r c hr
    change g.rows - 1 ≤ r at hr
    exact if_neg (by omega)

theorem wrap_blankBelow (h : g.BlankBelow) : g.wrap.BlankBelow := by
  unfold wrap
  split
  · exact h
  · exact (newLine_fresh h).blankBelow

theorem put_blankBelow (h : g.BlankBelow) (character : Char) : (g.put character).BlankBelow := by
  unfold put
  split
  · exact h
  · intro r c hr
    change g.wrap.row < r at hr
    change (if r = g.wrap.row ∧ c = g.wrap.column then some character else g.wrap.cells r c) = none
    rw [if_neg (by omega)]
    exact wrap_blankBelow h r c hr

/-! ## Inside a row -/

/-- A row with a text written over it. -/
def overlay (cells : ℕ → Option Char) (start : ℕ) (text : List Char) : ℕ → Option Char := fun c =>
  if start ≤ c ∧ c < start + text.length then text[c - start]? else cells c

theorem overlay_nil (cells : ℕ → Option Char) (start : ℕ) : overlay cells start [] = cells := by
  funext c
  exact if_neg (by rw [List.length_nil]; omega)

/-- Character after character. -/
theorem overlay_cons (cells : ℕ → Option Char) (start : ℕ) (character : Char) (text : List Char) :
    overlay (fun c => if c = start then some character else cells c) (start + 1) text =
      overlay cells start (character :: text) := by
  funext c
  unfold overlay
  dsimp only
  rw [List.length_cons]
  by_cases hstart : c = start
  · subst hstart
    rw [if_neg (by omega), if_pos rfl, if_pos (by omega), Nat.sub_self]
    rfl
  · by_cases hin : start + 1 ≤ c ∧ c < start + 1 + text.length
    · rw [if_pos hin, if_pos (by omega), show c - start = c - (start + 1) + 1 by omega]
      rfl
    · rw [if_neg hin, if_neg hstart, if_neg (by omega)]

/-- Writing the beginning of a text once more changes nothing. -/
theorem overlay_overlay {text text' : List Char} (h : text' <+: text) (cells : ℕ → Option Char)
    (start : ℕ) : overlay (overlay cells start text) start text' = overlay cells start text := by
  funext c
  unfold overlay
  by_cases hc : start ≤ c ∧ c < start + text'.length
  · have hle := h.length_le
    rw [if_pos hc, if_pos (by omega)]
    rcases h with ⟨rest, rfl⟩
    rw [List.getElem?_append_left (by omega)]
  · rw [if_neg hc]

/-- A text that fits the row is written over it, and nothing else changes. -/
theorem foldl_put (hrows : 0 < g.rows) {text : List Char}
    (hfits : g.column + text.length ≤ g.columns) :
    text.foldl put g = { g with
      cells := fun r => if r = g.row then overlay (g.cells r) g.column text else g.cells r
      column := g.column + text.length } := by
  induction text generalizing g with
  | nil =>
    simp only [overlay_nil, ite_self]
    rfl
  | cons character text ih =>
    rw [List.length_cons] at hfits
    -- one character goes to the cursor, since the row has room for it
    have hput : g.put character = { g with
        cells := fun r c => if r = g.row ∧ c = g.column then some character else g.cells r c
        column := g.column + 1 } := by
      have hempty : ¬ g.isEmpty = true := by
        rw [isEmpty_iff]
        omega
      have hwrap : g.wrap = g := if_pos (by omega)
      unfold put
      rw [if_neg hempty, hwrap]
      rfl
    rw [List.foldl_cons, hput]
    refine (ih ?_ ?_).trans ?_
    · exact hrows
    · change g.column + 1 + text.length ≤ g.columns
      omega
    simp only [mk.injEq, true_and, List.length_cons]
    refine ⟨?_, by omega⟩
    funext r
    by_cases hr : r = g.row
    · subst hr
      simp only [true_and, if_true]
      exact overlay_cons _ _ _ _
    · simp only [hr, false_and, if_false]

end TextGrid
