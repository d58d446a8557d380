import JingOS.Monitor.Keeping

/-!
# Words

The cursor goes from word to word: over the gap in front of it and over the word behind the gap,
or over symbols where it stands before neither. The deletions of a word take out what the cursor
would have gone over, and that is what as many deletions of a single byte take out.

* `wordRun` — what the cursor goes over, as a part of the text ahead;
* `Editor.wordLeft_eq`, `Editor.wordRight_eq` — the boundaries are its ends;
* `Editor.run_backspaces`, `Editor.run_deletes` — many small deletions are one;
* `word_motion` — the boundaries, the motions and the deletions of a line.
-/

namespace JingOS.Monitor

open Ascii Checked

/-- Of the bytes ahead, in the direction of the motion, those that one step goes over: all blanks
that come first and then all bytes of a word, or all symbols if there are neither. -/
def wordRun (ahead : List UInt8) : List UInt8 :=
  let gap := ahead.takeWhile isAsciiWhitespace
  let word := (ahead.dropWhile isAsciiWhitespace).takeWhile InputLine.isWordByte
  if gap ++ word = [] then ahead.takeWhile InputLine.isSymbolByte else gap ++ word

/-- What a step leaves ahead. -/
def wordRest (ahead : List UInt8) : List UInt8 :=
  let rest := (ahead.dropWhile isAsciiWhitespace).dropWhile InputLine.isWordByte
  if rest.length = ahead.length then ahead.dropWhile InputLine.isSymbolByte else rest

/-- The word that is passed and the rest are all that is ahead. -/
theorem wordRun_append_wordRest (ahead : List UInt8) : wordRun ahead ++ wordRest ahead = ahead := by
  have hsplit : ahead.takeWhile isAsciiWhitespace ++
      (ahead.dropWhile isAsciiWhitespace).takeWhile InputLine.isWordByte ++
      (ahead.dropWhile isAsciiWhitespace).dropWhile InputLine.isWordByte = ahead := by
    rw [List.append_assoc, List.takeWhile_append_dropWhile, List.takeWhile_append_dropWhile]
  have hlength := congrArg List.length hsplit
  rw [List.length_append] at hlength
  unfold wordRun wordRest
  simp only
  by_cases hrun : ahead.takeWhile isAsciiWhitespace ++
      (ahead.dropWhile isAsciiWhitespace).takeWhile InputLine.isWordByte = []
  · rw [hrun, List.length_nil, Nat.zero_add] at hlength
    rw [if_pos hrun, if_pos hlength, List.takeWhile_append_dropWhile]
  · have hpos := List.length_pos_iff.mpr hrun
    rw [if_neg hrun, if_neg (by omega)]
    exact hsplit

/-! ## Boundaries -/

namespace Editor

variable {e : Editor}

/-- One word to the left begins where the way back over it ends. -/
theorem wordLeft_eq (h : e.cursor ≤ e.text.length) :
    e.wordLeft = (wordRest e.before.reverse).length := by
  have hback : ∀ (p : UInt8 → Bool) (bytes : List UInt8),
      (bytes.rdropWhile p).reverse = bytes.reverse.dropWhile p :=
    fun p bytes => List.reverse_reverse _
  unfold wordLeft wordRest
  simp only
  rw [← hback, ← hback, ← hback, List.length_reverse, List.length_reverse, length_before h]
  split
  · rw [List.length_reverse]
  · rw [List.length_reverse]

theorem wordLeft_add (h : e.cursor ≤ e.text.length) :
    e.wordLeft + (wordRun e.before.reverse).length = e.cursor := by
  have hsplit := congrArg List.length (wordRun_append_wordRest e.before.reverse)
  rw [List.length_append, List.length_reverse, length_before h] at hsplit
  rw [wordLeft_eq h, Nat.add_comm]
  exact hsplit

/-- What lies between, read backwards. -/
theorem between_wordLeft (h : e.cursor ≤ e.text.length) :
    (e.before.drop e.wordLeft).reverse = wordRun e.before.reverse := by
  have hsuffix : (wordRun e.before.reverse).reverse <:+ e.before := by
    rw [← List.reverse_prefix, List.reverse_reverse]
    exact ⟨_, wordRun_append_wordRest e.before.reverse⟩
  have hdrop := List.suffix_iff_eq_drop.mp hsuffix
  have hadd := wordLeft_add h
  rw [length_before h, List.length_reverse] at hdrop
  rw [show e.wordLeft = e.cursor - (wordRun e.before.reverse).length by omega, ← hdrop,
    List.reverse_reverse]

theorem wordRight_eq (e : Editor) : e.wordRight = e.text.length - (wordRest e.after).length := by
  unfold wordRight wordRest
  simp only
  split
  · rfl
  · rfl

theorem wordRight_add (h : e.cursor ≤ e.text.length) :
    e.wordRight = e.cursor + (wordRun e.after).length := by
  have hsplit := congrArg List.length (wordRun_append_wordRest e.after)
  rw [List.length_append, length_after] at hsplit
  rw [wordRight_eq]
  omega

theorem between_wordRight (h : e.cursor ≤ e.text.length) :
    (e.text.take e.wordRight).drop e.cursor = wordRun e.after := by
  have hprefix : wordRun e.after <+: e.after := ⟨_, wordRun_append_wordRest e.after⟩
  rw [wordRight_add h, List.drop_take, Nat.add_sub_cancel_left]
  exact (List.prefix_iff_eq_take.mp hprefix).symm

/-! ## Deletions -/

theorem run_replicate_succ (op : LineOp) (count : ℕ) :
    e.run (List.replicate (count + 1) op) = ((e.step op).getD e).run (List.replicate count op) :=
  rfl

/-- Nothing is cut. -/
theorem cut_self (e : Editor) : e.cut e.cursor e.cursor = e := by
  unfold cut
  rw [List.take_append_drop]

/-- What stands before a cut is cut too. -/
theorem cut_cut_before {start mid stop : ℕ} (hstart : start ≤ mid) (hmid : mid ≤ e.text.length) :
    (e.cut mid stop).cut start mid = e.cut start stop := by
  have hlength : (e.text.take mid).length = mid := List.length_take_of_le hmid
  unfold cut
  simp only
  rw [List.take_append_of_le_length (by omega), List.take_take, Nat.min_eq_left hstart,
    List.drop_left' hlength]

/-- What stands behind a cut is cut too. -/
theorem cut_cut_behind {start mid count : ℕ} (hstart : start ≤ e.text.length) :
    (e.cut start mid).cut start (start + count) = e.cut start (mid + count) := by
  have hlength : (e.text.take start).length = start := List.length_take_of_le hstart
  unfold cut
  simp only
  rw [List.take_left' hlength, ← List.drop_drop, List.drop_left' hlength, List.drop_drop]

/-- Backspaces cut what stands before the cursor, from its end. -/
theorem run_backspaces {count : ℕ} (h : e.cursor ≤ e.text.length) (hcount : count ≤ e.cursor) :
    e.run (List.replicate count .backspace) = e.cut (e.cursor - count) e.cursor := by
  induction count generalizing e with
  | zero => exact (cut_self e).symm
  | succ count ih =>
    have hstep : e.step .backspace = some (e.cut (e.cursor - 1) e.cursor) :=
      if_neg (by omega : ¬ e.cursor = 0)
    have hlength : (e.cut (e.cursor - 1) e.cursor).text.length = e.text.length - 1 := by
      simp only [cut, List.length_append, List.length_take, List.length_drop]
      omega
    have hrun := @ih (e.cut (e.cursor - 1) e.cursor)
      (by rw [hlength]; exact Nat.sub_le_sub_right h 1) (Nat.le_sub_of_add_le hcount)
    rw [run_replicate_succ, hstep, Option.getD_some, hrun]
    change (e.cut (e.cursor - 1) e.cursor).cut (e.cursor - 1 - count) (e.cursor - 1) = _
    rw [cut_cut_before (by omega) (by omega), Nat.sub_sub, Nat.add_comm 1]

/-- Deletions cut what stands behind the cursor, from its beginning. -/
theorem run_deletes {count : ℕ} (hcount : e.cursor + count ≤ e.text.length) :
    e.run (List.replicate count .delete) = e.cut e.cursor (e.cursor + count) := by
  induction count generalizing e with
  | zero => exact (cut_self e).symm
  | succ count ih =>
    have hafter : ¬ e.after = [] := by
      rw [after_eq_nil_iff]
      omega
    have hstep : e.step .delete = some (e.cut e.cursor (e.cursor + 1)) := if_neg hafter
    have hlength : (e.cut e.cursor (e.cursor + 1)).text.length = e.text.length - 1 := by
      simp only [cut, List.length_append, List.length_take, List.length_drop]
      omega
    have hrun := @ih (e.cut e.cursor (e.cursor + 1))
      (by rw [hlength]; exact Nat.le_sub_of_add_le hcount)
    rw [run_replicate_succ, hstep, Option.getD_some, hrun]
    change (e.cut e.cursor (e.cursor + 1)).cut e.cursor (e.cursor + count) = _
    rw [cut_cut_behind (by omega), Nat.add_assoc, Nat.add_comm 1]

/-- At the start of the text the boundary is the cursor. -/
theorem wordLeft_of_cursor_eq_zero (h : e.cursor = 0) : e.wordLeft = e.cursor := by
  have hle := wordLeft_le (show e.cursor ≤ e.text.length by omega)
  omega

theorem wordRight_of_after_eq_nil (h : e.cursor ≤ e.text.length) (hafter : e.after = []) :
    e.wordRight = e.cursor := by
  rw [wordRight_add h, hafter]
  rfl

theorem run_moveWordLeft (e : Editor) : e.run [.moveWordLeft] = { e with cursor := e.wordLeft } := by
  change (if e.cursor = 0 then none else some { e with cursor := e.wordLeft }).getD e = _
  by_cases hzero : e.cursor = 0
  · rw [if_pos hzero, wordLeft_of_cursor_eq_zero hzero]
    rfl
  · rw [if_neg hzero]
    rfl

theorem run_deleteWordLeft (e : Editor) : e.run [.deleteWordLeft] = e.cut e.wordLeft e.cursor := by
  change (if e.cursor = 0 then none else some (e.cut e.wordLeft e.cursor)).getD e = _
  by_cases hzero : e.cursor = 0
  · rw [if_pos hzero, wordLeft_of_cursor_eq_zero hzero, cut_self]
    rfl
  · rw [if_neg hzero]
    rfl

theorem run_deleteWordRight (h : e.cursor ≤ e.text.length) :
    e.run [.deleteWordRight] = e.cut e.cursor e.wordRight := by
  change (if e.after = [] then none else some (e.cut e.cursor e.wordRight)).getD e = _
  by_cases hafter : e.after = []
  · rw [if_pos hafter, wordRight_of_after_eq_nil h hafter, cut_self]
    rfl
  · rw [if_neg hafter]
    rfl

end Editor

/-! ## The line -/

/-- Both ways lead to a line with the same text and the same cursor. -/
def SameLine (x y : Checked InputLine) : Prop :=
  ∃ line line', x = .ok line ∧ y = .ok line' ∧ line.editor = line'.editor

section

variable {line : InputLine}

theorem sameLine_of_run (h : line.WellFormed) {ops ops' : List LineOp}
    (heq : line.editor.run ops = line.editor.run ops') :
    SameLine (line.run ops) (line.run ops') := by
  rcases run_refines h ops with ⟨line₁, hrun₁, _, heditor₁⟩
  rcases run_refines h ops' with ⟨line₂, hrun₂, _, heditor₂⟩
  exact ⟨line₁, line₂, hrun₁, hrun₂, heditor₁.trans (heq.trans heditor₂.symm)⟩

/-- Behind the last byte the boundary is the cursor, as everywhere else it is that of the editor. -/
theorem nextWordBoundary_eq_wordRight (h : line.WellFormed) :
    line.nextWordBoundary = .ok line.editor.wordRight := by
  rw [InputLine.nextWordBoundary_eq h]
  by_cases hend : line.len ≤ line.cursor
  · have hafter := (InputLine.after_editor_eq_nil h).mpr hend
    rw [if_pos hend, Editor.wordRight_of_after_eq_nil (InputLine.cursor_le_text h) hafter]
    exact congrArg Except.ok (Nat.le_antisymm hend h.cursorLe)
  · rw [if_neg hend]

/-- **Words.** In every line that the editor can have made, both boundaries lie ahead of the cursor,
where the loops have found them, unless there is nothing ahead; what lies between is a gap and a
word, or symbols; and a word is deleted as by single deletions. -/
theorem word_motion (h : line.Built) :
    ∃ previous next, line.previousWordBoundary = .ok previous ∧ line.nextWordBoundary = .ok next ∧
      (line.cursor = 0 → previous = 0) ∧
      (line.cursor ≠ 0 → previous < line.cursor ∧ line.scannedBack = .ok previous) ∧
      (line.cursor = line.len → next = line.len) ∧
      (line.cursor ≠ line.len →
        line.cursor < next ∧ next ≤ line.len ∧ line.scannedForward = .ok next) ∧
      ((line.bytes.take line.cursor).drop previous).reverse =
        wordRun (line.bytes.take line.cursor).reverse ∧
      (line.bytes.take next).drop line.cursor =
        wordRun ((line.bytes.take line.len).drop line.cursor) ∧
      SameLine (line.run [.deleteWordLeft])
        (line.run (List.replicate (line.cursor - previous) .backspace)) ∧
      SameLine (line.run [.deleteWordRight])
        (line.run (List.replicate (next - line.cursor) .delete)) ∧
      ∃ deleted moved, line.run [.deleteWordLeft] = .ok deleted ∧
        line.run [.moveWordLeft] = .ok moved ∧ deleted.cursor = moved.cursor := by
  have hwf : line.WellFormed := h.wellFormed
  have hcursor : line.editor.cursor ≤ line.editor.text.length := InputLine.cursor_le_text hwf
  have hlen : line.editor.text.length = line.len := InputLine.length_text hwf
  have hleft : line.editor.wordLeft ≤ line.cursor := Editor.wordLeft_le hcursor
  have hright : line.editor.wordRight ≤ line.len := hlen ▸ line.editor.wordRight_le
  -- the two boundaries, one on each side of the cursor
  have hahead : line.cursor ≤ line.editor.wordRight := by
    rw [Editor.wordRight_add hcursor]
    exact Nat.le_add_right _ _
  refine ⟨line.editor.wordLeft, line.editor.wordRight, InputLine.previousWordBoundary_eq hwf,
    nextWordBoundary_eq_wordRight hwf, ?_, ?_, ?_, ?_, ?_, ?_, ?_, ?_, ?_⟩
  · intro hzero
    omega
  · intro hne
    exact ⟨Editor.wordLeft_lt hcursor hne, InputLine.scannedBack_eq hwf⟩
  · intro hend
    omega
  · intro hne
    have hafter : line.editor.after ≠ [] := by
      rw [Ne, InputLine.after_editor_eq_nil hwf]
      have hle := hwf.cursorLe
      omega
    exact ⟨Editor.lt_wordRight hafter, hright, InputLine.scannedForward_eq hwf⟩
  · rw [← InputLine.before_editor hwf]
    exact Editor.between_wordLeft hcursor
  · have hbetween := Editor.between_wordRight hcursor
    change ((line.bytes.take line.len).take _).drop line.cursor = _ at hbetween
    rw [List.take_take, Nat.min_eq_left hright] at hbetween
    exact hbetween
  -- deleting to the boundary takes as many backspaces as there are bytes
  · apply sameLine_of_run hwf
    have hcount : line.cursor - line.editor.wordLeft ≤ line.editor.cursor := Nat.sub_le _ _
    rw [Editor.run_deleteWordLeft, Editor.run_backspaces hcursor hcount]
    congr 1
    change _ = line.cursor - _
    omega
  · apply sameLine_of_run hwf
    have hsum : line.editor.cursor + (line.editor.wordRight - line.cursor) =
        line.editor.wordRight := Nat.add_sub_cancel' hahead
    rw [Editor.run_deleteWordRight hcursor, Editor.run_deletes (by rw [hsum, hlen]; exact hright),
      hsum]
  -- both end at the boundary
  · rcases run_refines hwf [.deleteWordLeft] with ⟨deleted, hdeleted, _, heditor⟩
    rcases run_refines hwf [.moveWordLeft] with ⟨moved, hmoved, _, heditor'⟩
    rw [Editor.run_deleteWordLeft] at heditor
    rw [Editor.run_moveWordLeft] at heditor'
    refine ⟨deleted, moved, hdeleted, hmoved, ?_⟩
    exact (congrArg Editor.cursor heditor).trans (congrArg Editor.cursor heditor').symm

end

/-- The text `a ++b` with the cursor behind the symbols: to the left are the symbols, to the right
is the word, and each deletion is that of its bytes. -/
theorem word_motion_mixed : ∃ line : InputLine, line.Built ∧
    line.editor = ⟨[0x61, 0x20, 0x2b, 0x2b, 0x62], 4⟩ ∧
    line.previousWordBoundary = .ok 2 ∧ line.nextWordBoundary = .ok 5 ∧
    SameLine (line.run [.deleteWordLeft]) (line.run [.backspace, .backspace]) ∧
    SameLine (line.run [.deleteWordRight]) (line.run [.delete]) := by
  rcases run_refines InputLine.new_wellFormed [.setFromStr "a ++b", .moveLeft] with
    ⟨line, hrun, hwf, heditor⟩
  have hline : line.editor = ⟨[0x61, 0x20, 0x2b, 0x2b, 0x62], 4⟩ := by
    rw [heditor]
    decide
  have hcursor : line.cursor = 4 := congrArg Editor.cursor hline
  have hprevious := InputLine.previousWordBoundary_eq hwf
  have hnext := nextWordBoundary_eq_wordRight hwf
  rw [hline] at hprevious hnext
  refine ⟨line, ⟨_, hrun⟩, hline, hprevious, hnext, ?_⟩
  rcases word_motion ⟨_, hrun⟩ with
    ⟨previous, next, hprevious', hnext', _, _, _, _, _, _, hleft, hright, _⟩
  rw [hprevious] at hprevious'
  rw [hnext] at hnext'
  cases hprevious'
  cases hnext'
  rw [hcursor] at hleft hright
  exact ⟨hleft, hright⟩

end JingOS.Monitor
