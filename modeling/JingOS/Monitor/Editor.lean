import JingOS.Monitor.Line
import Mathlib.Data.List.DropRight

/-!
# The input line is a text with a cursor

The buffer of a line is shifted in place, byte by byte, and keeps stale bytes behind `len`.
Above it stands what an editor is: a list of bytes and a position in it, with one list
operation for each operation of the line.

* `Editor`, `Editor.step` — the abstract editor: splice, cut, and move;
* `InputLine.WellFormed` — the cursor is inside the text, the text inside the buffer, and all
  of it is ASCII;
* `exec_refines` — one operation of the line is that of the editor;
* `line_refines_editor` — so is every run of them.
-/

namespace JingOS.Monitor

open Checked Ascii

/-! ## The abstract editor -/

/-- A text, and a position in it. -/
structure Editor where
  text : List UInt8
  cursor : ℕ
deriving DecidableEq, Repr

/-- The operations of a line. -/
inductive LineOp where
  | insertChar (character : Char)
  | insertOrOverwriteChar (character : Char) (overwriteMode : Bool)
  | appendStr (text : String)
  | setFromStr (text : String)
  | backspace
  | delete
  | moveLeft
  | moveRight
  | moveHome
  | moveEnd
  | moveWordLeft
  | moveWordRight
  | deleteWordLeft
  | deleteWordRight
  | clear

namespace Editor

def empty : Editor := { text := [], cursor := 0 }

/-- The text before the cursor. -/
def before (e : Editor) : List UInt8 := e.text.take e.cursor

/-- The text from the cursor on. -/
def after (e : Editor) : List UInt8 := e.text.drop e.cursor

/-- Put bytes in at the cursor, and go behind them. -/
def splice (e : Editor) (source : List UInt8) : Editor :=
  { text := e.before ++ source ++ e.after, cursor := e.cursor + source.length }

/-- Replace the byte at the cursor, and go behind it. -/
def overwrite (e : Editor) (byte : UInt8) : Editor :=
  { text := e.before ++ byte :: e.after.tail, cursor := e.cursor + 1 }

/-- Take out the bytes from `start` to `stop`, and go there. -/
def cut (e : Editor) (start stop : ℕ) : Editor :=
  { text := e.text.take start ++ e.text.drop stop, cursor := start }

/-- Where one word to the left begins: before the gap and the word that the cursor stands
behind, or before the symbols where it stands behind neither. -/
def wordLeft (e : Editor) : ℕ :=
  let rest := (e.before.rdropWhile isAsciiWhitespace).rdropWhile InputLine.isWordByte
  if rest.length = e.cursor then (e.before.rdropWhile InputLine.isSymbolByte).length
  else rest.length

/-- Where one word to the right ends. -/
def wordRight (e : Editor) : ℕ :=
  let rest := (e.after.dropWhile isAsciiWhitespace).dropWhile InputLine.isWordByte
  if rest.length = e.after.length then
    e.text.length - (e.after.dropWhile InputLine.isSymbolByte).length
  else e.text.length - rest.length

/-- What an inserting operation puts in: whether that is ASCII, and the result. -/
def insertion (e : Editor) : LineOp → Option (Bool × Editor)
  | .insertChar c => some (isAsciiChar c, e.splice [charByte c])
  | .insertOrOverwriteChar c overwriteMode =>
    some (isAsciiChar c, if overwriteMode && e.cursor < e.text.length then
      e.overwrite (charByte c) else e.splice [charByte c])
  | .appendStr text => some ((textBytes text).all isAscii, e.splice (textBytes text))
  | .setFromStr text =>
    some ((textBytes text).all isAscii,
      { text := textBytes text, cursor := (textBytes text).length })
  | _ => none

/-- The text and the cursor after an operation that is not refused. -/
def step (e : Editor) (op : LineOp) : Option Editor :=
  match e.insertion op with
  | some (ascii, result) =>
    if ascii ∧ result.text.length ≤ inputLineMax then some result else none
  | none =>
    match op with
    | .backspace => if e.cursor = 0 then none else some (e.cut (e.cursor - 1) e.cursor)
    | .delete => if e.after = [] then none else some (e.cut e.cursor (e.cursor + 1))
    | .moveLeft => if e.cursor = 0 then none else some { e with cursor := e.cursor - 1 }
    | .moveRight => if e.after = [] then none else some { e with cursor := e.cursor + 1 }
    | .moveHome => if e.cursor = 0 then none else some { e with cursor := 0 }
    | .moveEnd => if e.after = [] then none else some { e with cursor := e.text.length }
    | .moveWordLeft => if e.cursor = 0 then none else some { e with cursor := e.wordLeft }
    | .moveWordRight => if e.after = [] then none else some { e with cursor := e.wordRight }
    | .deleteWordLeft => if e.cursor = 0 then none else some (e.cut e.wordLeft e.cursor)
    | .deleteWordRight => if e.after = [] then none else some (e.cut e.cursor e.wordRight)
    | _ => some empty

/-- A run of operations; one that is refused changes nothing. -/
def run (e : Editor) : List LineOp → Editor
  | [] => e
  | op :: ops => ((e.step op).getD e).run ops

end Editor

namespace InputLine

/-- One operation of the line. `clear` returns nothing. -/
def exec (line : InputLine) : LineOp → Checked (Bool × InputLine)
  | .insertChar c => line.insertChar c
  | .insertOrOverwriteChar c overwriteMode => line.insertOrOverwriteChar c overwriteMode
  | .appendStr text => line.appendStr text
  | .setFromStr text => line.setFromStr text
  | .backspace => line.backspace
  | .delete => line.delete
  | .moveLeft => line.moveLeft
  | .moveRight => line.moveRight
  | .moveHome => line.moveHome
  | .moveEnd => line.moveEnd
  | .moveWordLeft => line.moveWordLeft
  | .moveWordRight => line.moveWordRight
  | .deleteWordLeft => line.deleteWordLeft
  | .deleteWordRight => line.deleteWordRight
  | .clear => pure (true, line.clear)

/-- A run of operations. -/
def run (line : InputLine) : List LineOp → Checked InputLine
  | [] => pure line
  | op :: ops => do
    let (_, line) ← line.exec op
    line.run ops

/-- What the buffer stands for. -/
def editor (line : InputLine) : Editor :=
  { text := line.bytes.take line.len, cursor := line.cursor }

structure WellFormed (line : InputLine) : Prop where
  size : line.bytes.length = inputLineMax
  cursorLe : line.cursor ≤ line.len
  lenLe : line.len ≤ inputLineMax
  ascii : ∀ byte ∈ line.bytes.take line.len, byte < 0x80

theorem WellFormed.inv {line : InputLine} (h : line.WellFormed) : line.Inv := ⟨h.size, h.lenLe⟩

theorem new_wellFormed : WellFormed new :=
  ⟨List.length_replicate, Nat.le_refl _, Nat.zero_le _, by simp [new]⟩

/-! ## The loops that shift -/

/-- The bytes from `start` on move up by `offset`; the others stay. -/
theorem shiftUp_eq {start offset count : ℕ} : ∀ {bytes : List UInt8},
    start + count + offset ≤ bytes.length → bytes.length < 2 ^ 64 →
    ∃ bytes', shiftUp bytes start offset count = .ok bytes' ∧ bytes'.length = bytes.length ∧
      ∀ i : ℕ, bytes'[i]? = if start + offset ≤ i ∧ i < start + count + offset then
        bytes[i - offset]? else bytes[i]? := by
  induction count with
  | zero =>
    intro bytes hsize hlt
    refine ⟨bytes, rfl, rfl, fun i => ?_⟩
    rw [if_neg (by omega)]
  | succ count ih =>
    intro bytes hsize hlt
    have hindex : start + count < bytes.length := by omega
    -- the byte with the highest index goes first, so no source is overwritten
    obtain ⟨bytes', heq, hlen, hget⟩ :=
      @ih (bytes.set (start + count + offset) (bytes.get ⟨start + count, hindex⟩))
        (by rw [List.length_set]; omega) (by rw [List.length_set]; exact hlt)
    refine ⟨bytes', ?_, by rw [hlen, List.length_set], fun i => ?_⟩
    · rw [shiftUp, index, List.getElem?_eq_getElem hindex]
      simp only [bind, Except.bind]
      rw [add_eq (by omega)]
      simp only
      rw [store_eq (by omega)]
      exact heq
    · rw [hget i]
      rcases Nat.lt_trichotomy i (start + count + offset) with hi | rfl | hi
      · by_cases hlow : start + offset ≤ i
        · rw [if_pos ⟨hlow, hi⟩, if_pos ⟨hlow, by omega⟩, List.getElem?_set_ne (by omega)]
        · rw [if_neg (by omega), if_neg (by omega), List.getElem?_set_ne (by omega)]
      · rw [if_neg (by omega), if_pos (by omega), List.getElem?_set_self (by omega),
          Nat.add_sub_cancel]
        exact (List.getElem?_eq_getElem hindex).symm
      · rw [if_neg (by omega), if_neg (by omega), List.getElem?_set_ne (by omega)]

/-- The bytes from `start` on move down by `offset`; the others stay. -/
theorem shiftDown_eq {offset count : ℕ} : ∀ {bytes : List UInt8} {start : ℕ},
    offset ≤ start → start + count ≤ bytes.length →
    ∃ bytes', shiftDown bytes offset start count = .ok bytes' ∧ bytes'.length = bytes.length ∧
      ∀ i : ℕ, bytes'[i]? = if start - offset ≤ i ∧ i < start + count - offset then
        bytes[i + offset]? else bytes[i]? := by
  induction count with
  | zero =>
    intro bytes start hoffset hsize
    refine ⟨bytes, rfl, rfl, fun i => ?_⟩
    rw [if_neg (by omega)]
  | succ count ih =>
    intro bytes start hoffset hsize
    have hindex : start < bytes.length := by omega
    -- the first byte is moved, and the others by the induction hypothesis
    obtain ⟨bytes', heq, hlen, hget⟩ :=
      @ih (bytes.set (start - offset) (bytes.get ⟨start, hindex⟩)) (start + 1)
        (by omega) (by rw [List.length_set]; omega)
    refine ⟨bytes', ?_, by rw [hlen, List.length_set], fun i => ?_⟩
    · rw [shiftDown, index, List.getElem?_eq_getElem hindex]
      simp only [bind, Except.bind]
      rw [sub_eq hoffset]
      simp only
      rw [store_eq (by omega)]
      exact heq
    · rw [hget i]
      -- below the place that was written, there, and above it
      rcases Nat.lt_trichotomy i (start - offset) with hi | rfl | hi
      · rw [if_neg (by omega), if_neg (by omega), List.getElem?_set_ne (by omega)]
      · rw [if_neg (by omega), if_pos (by omega), List.getElem?_set_self (by omega),
          Nat.sub_add_cancel hoffset]
        exact (List.getElem?_eq_getElem hindex).symm
      · by_cases hhigh : i < start + (count + 1) - offset
        · rw [if_pos (by omega), if_pos (by omega), List.getElem?_set_ne (by omega)]
        · rw [if_neg (by omega), if_neg (by omega), List.getElem?_set_ne (by omega)]

/-- Texts begin alike when they have the same bytes there. -/
theorem take_congr {bytes bytes' : List UInt8} {count : ℕ}
    (h : ∀ i < count, bytes'[i]? = bytes[i]?) : bytes'.take count = bytes.take count := by
  apply List.ext_getElem?
  intro i
  rw [List.getElem?_take, List.getElem?_take]
  by_cases hi : i < count
  · rw [if_pos hi, if_pos hi, h i hi]
  · rw [if_neg hi, if_neg hi]

/-- Room made at `start`, and filled. -/
theorem shiftUp_filled {bytes bytes' : List UInt8} (source : List UInt8) {start count : ℕ}
    (hsize : start + count + source.length ≤ bytes.length) (hlen : bytes'.length = bytes.length)
    (hget : ∀ i : ℕ, bytes'[i]? =
      if start + source.length ≤ i ∧ i < start + count + source.length then
        bytes[i - source.length]? else bytes[i]?) :
    (bytes'.take start ++ source ++ bytes'.drop (start + source.length)).take
      (start + count + source.length) =
      bytes.take start ++ source ++ (bytes.drop start).take count := by
  -- in front of the gap nothing has moved
  have hstart : bytes'.take start = bytes.take start := by
    apply take_congr
    intro i hi
    rw [hget, if_neg (by omega)]
  -- behind it are the bytes from before, moved by its length
  have hrest : (bytes'.drop (start + source.length)).take count =
      (bytes.drop start).take count := by
    apply take_congr
    intro i hi
    rw [List.getElem?_drop, List.getElem?_drop, hget, if_pos (by omega)]
    congr 1
    omega
  have hlength : (bytes.take start ++ source).length = start + source.length := by
    rw [List.length_append, List.length_take]
    omega
  rw [hstart, List.take_append, hlength, List.take_of_length_le (by omega), ← hrest]
  congr 2
  omega

/-- The gap before `start` closed. -/
theorem shiftDown_closed {bytes bytes' : List UInt8} {start offset count : ℕ}
    (hoffset : offset ≤ start) (hget : ∀ i : ℕ, bytes'[i]? =
      if start - offset ≤ i ∧ i < start + count - offset then bytes[i + offset]?
      else bytes[i]?) :
    bytes'.take (start + count - offset) =
      bytes.take (start - offset) ++ (bytes.drop start).take count := by
  have hstart : bytes'.take (start - offset) = bytes.take (start - offset) := by
    apply take_congr
    intro i hi
    rw [hget, if_neg (by omega)]
  have hrest : (bytes'.drop (start - offset)).take count = (bytes.drop start).take count := by
    apply take_congr
    intro i hi
    rw [List.getElem?_drop, List.getElem?_drop, hget, if_pos (by omega)]
    congr 1
    omega
  rw [show start + count - offset = (start - offset) + count by omega, List.take_add, hstart,
    hrest]

/-! ## The loops that look for a word -/

/-- The scan backward ends where the bytes with `p` in front of the position begin. -/
theorem skipBack_eq (p : UInt8 → Bool) {bytes : List UInt8} : ∀ {position : ℕ},
    position ≤ bytes.length →
    skipBack p bytes position = .ok ((bytes.take position).rdropWhile p).length := by
  intro position
  induction position with
  | zero =>
    intro _
    rw [List.take_zero, List.rdropWhile_nil]
    rfl
  | succ position ih =>
    intro hle
    have hlt : position < bytes.length := hle
    rw [skipBack, index, List.getElem?_eq_getElem hlt, List.take_succ_eq_append_getElem hlt,
      List.rdropWhile_concat]
    simp only [bind, Except.bind]
    by_cases hp : p bytes[position]
    · rw [if_pos hp, if_pos hp, ih (by omega)]
    · rw [if_neg hp, if_neg hp, List.length_append, List.length_take_of_le (by omega)]
      rfl

/-- The scan forward ends behind the bytes with `p` from the position on. -/
theorem skipForward_eq (p : UInt8 → Bool) {bytes : List UInt8} {len : ℕ}
    (hlen : len ≤ bytes.length) : ∀ {left position : ℕ}, position + left = len →
    skipForward p bytes position left =
      .ok (len - (((bytes.take len).drop position).dropWhile p).length) := by
  intro left
  induction left with
  | zero =>
    intro position hpos
    rw [skipForward, List.drop_of_length_le (by rw [List.length_take]; omega),
      List.dropWhile_nil]
    change Except.ok position = Except.ok (len - 0)
    rw [Nat.sub_zero, ← hpos, Nat.add_zero]
  | succ left ih =>
    intro position hpos
    have hlt : position < bytes.length := by omega
    have htake : position < (bytes.take len).length := by rw [List.length_take]; omega
    rw [skipForward, index, List.getElem?_eq_getElem hlt, List.drop_eq_getElem_cons htake,
      List.dropWhile_cons, List.getElem_take]
    simp only [bind, Except.bind]
    -- the scan goes on while `p` holds, and ends at the first byte where it does not
    by_cases hp : p bytes[position]
    · rw [if_pos hp, if_pos hp, ih (by omega)]
    · rw [if_neg hp, if_neg hp, List.length_cons, List.length_drop, List.length_take]
      change Except.ok position = _
      congr 1
      omega

/-- Every byte is of a gap, of a word, or a symbol. -/
theorem isSymbolByte_of_not {byte : UInt8} (hgap : ¬ isAsciiWhitespace byte)
    (hword : ¬ isWordByte byte) : isSymbolByte byte := by
  simp [isSymbolByte, hgap, hword]


end InputLine

namespace Editor

variable {e : Editor}

theorem length_before (h : e.cursor ≤ e.text.length) : e.before.length = e.cursor :=
  List.length_take_of_le h

theorem length_after (e : Editor) : e.after.length = e.text.length - e.cursor := List.length_drop

theorem after_eq_nil_iff : e.after = [] ↔ e.text.length ≤ e.cursor := List.drop_eq_nil_iff

theorem length_splice (h : e.cursor ≤ e.text.length) (source : List UInt8) :
    (e.splice source).text.length = e.text.length + source.length := by
  have hbefore := length_before h
  have hafter := length_after e
  simp only [splice, List.length_append]
  omega

theorem overwrite_text (h : e.cursor < e.text.length) (byte : UInt8) :
    (e.overwrite byte).text = e.text.set e.cursor byte := by
  rw [List.set_eq_take_append_cons_drop, if_pos h]
  unfold overwrite before after
  rw [List.tail_drop]

theorem wordLeft_le (h : e.cursor ≤ e.text.length) : e.wordLeft ≤ e.cursor := by
  have hsymbol := (List.rdropWhile_prefix InputLine.isSymbolByte (l := e.before)).length_le
  have hgap := (List.rdropWhile_prefix isAsciiWhitespace (l := e.before)).length_le
  have hword := (List.rdropWhile_prefix InputLine.isWordByte
    (l := e.before.rdropWhile isAsciiWhitespace)).length_le
  rw [length_before h] at hsymbol hgap
  unfold wordLeft
  dsimp only
  split
  · exact hsymbol
  · exact hword.trans hgap

/-- There is always something to skip, whatever byte stands before the cursor. -/
theorem wordLeft_lt (h : e.cursor ≤ e.text.length) (hne : e.cursor ≠ 0) :
    e.wordLeft < e.cursor := by
  refine lt_of_le_of_ne (wordLeft_le h) ?_
  intro heq
  have hlen := length_before h
  have hnil : e.before ≠ [] := by
    intro hnil
    rw [hnil] at hlen
    exact hne hlen.symm
  unfold wordLeft at heq
  dsimp only at heq
  split at heq
  · next hrest =>
    -- nothing was skipped in any of the three rounds
    have hgap := List.rdropWhile_prefix isAsciiWhitespace (l := e.before)
    have hword := List.rdropWhile_prefix InputLine.isWordByte
      (l := e.before.rdropWhile isAsciiWhitespace)
    have hsymbol := List.rdropWhile_prefix InputLine.isSymbolByte (l := e.before)
    have hgapEq := hgap.eq_of_length_le (by rw [hlen, ← hrest]; exact hword.length_le)
    rw [hgapEq] at hrest
    have hwordEq := (List.rdropWhile_prefix InputLine.isWordByte (l := e.before)).eq_of_length
      (hrest.trans hlen.symm)
    have hsymbolEq := hsymbol.eq_of_length (heq.trans hlen.symm)
    rw [List.rdropWhile_eq_self_iff] at hgapEq hwordEq hsymbolEq
    exact hsymbolEq hnil (InputLine.isSymbolByte_of_not (hgapEq hnil) (hwordEq hnil))
  · next hrest => exact hrest heq

theorem wordRight_le (e : Editor) : e.wordRight ≤ e.text.length := by
  unfold wordRight
  dsimp only
  split
  · exact Nat.sub_le _ _
  · exact Nat.sub_le _ _

/-- Before the end there is always something to pass. -/
theorem lt_wordRight (h : e.after ≠ []) : e.cursor < e.wordRight := by
  have hpos : 0 < e.after.length := List.length_pos_iff.mpr h
  have hlen := length_after e
  have hgap := List.dropWhile_suffix isAsciiWhitespace (l := e.after)
  have hword := List.dropWhile_suffix InputLine.isWordByte
    (l := e.after.dropWhile isAsciiWhitespace)
  have hsymbol := List.dropWhile_suffix InputLine.isSymbolByte (l := e.after)
  have hgapLe := hgap.length_le
  have hwordLe := hword.length_le
  have hsymbolLe := hsymbol.length_le
  unfold wordRight
  dsimp only
  split
  · next hrest =>
    have hgapEq := hgap.eq_of_length_le (by omega)
    rw [hgapEq] at hrest
    have hwordEq := (List.dropWhile_suffix InputLine.isWordByte (l := e.after)).eq_of_length hrest
    have hne : (e.after.dropWhile InputLine.isSymbolByte).length ≠ e.after.length := by
      intro heq
      have hsymbolEq := hsymbol.eq_of_length heq
      rw [List.dropWhile_eq_self_iff] at hgapEq hwordEq hsymbolEq
      exact hsymbolEq hpos (InputLine.isSymbolByte_of_not (hgapEq hpos) (hwordEq hpos))
    omega
  · next hrest => omega

end Editor

namespace InputLine

variable {line : InputLine}

theorem before_editor (h : line.WellFormed) : line.editor.before = line.bytes.take line.cursor := by
  change (line.bytes.take line.len).take line.cursor = _
  rw [List.take_take, Nat.min_eq_left h.cursorLe]

theorem length_text (h : line.WellFormed) : line.editor.text.length = line.len := by
  have hsize := h.size
  have hle := h.lenLe
  exact List.length_take_of_le (by omega)

theorem cursor_le_text (h : line.WellFormed) : line.editor.cursor ≤ line.editor.text.length := by
  rw [length_text h]
  exact h.cursorLe

theorem after_editor_eq_nil (h : line.WellFormed) :
    line.editor.after = [] ↔ line.len ≤ line.cursor := by
  rw [Editor.after_eq_nil_iff, length_text h]
  rfl

/-- Looking on from where an earlier look stopped. -/
theorem skipBack_again (p : UInt8 → Bool) {bytes rest : List UInt8} {position : ℕ}
    (hrest : rest <+: bytes.take position) :
    skipBack p bytes rest.length = .ok (rest.rdropWhile p).length := by
  have hpre : rest <+: bytes := hrest.trans (List.take_prefix _ _)
  rw [skipBack_eq p hpre.length_le, ← List.prefix_iff_eq_take.mp hpre]

/-- Where the loops of `previous_word_boundary` stop, before its last resort. -/
def scannedBack (line : InputLine) : Checked ℕ := do
  let position ← skipBack isAsciiWhitespace line.bytes line.cursor
  let position ← skipBack isWordByte line.bytes position
  if position = line.cursor then skipBack isSymbolByte line.bytes position else pure position

/-- The search back is the scan, and the last resort where the scan has not moved. -/
theorem previousWordBoundary_scan (hne : line.cursor ≠ 0) :
    line.previousWordBoundary = line.scannedBack >>= fun position =>
      if position = line.cursor then pure (position - 1) else pure position := by
  unfold previousWordBoundary scannedBack
  rw [if_neg hne, bind_assoc]
  congr 1
  funext position
  rw [bind_assoc]

theorem scannedBack_eq (h : line.WellFormed) : line.scannedBack = .ok line.editor.wordLeft := by
  have hsize := h.size
  have hcursor := h.cursorLe
  have hlen := h.lenLe
  unfold scannedBack
  rw [skipBack_eq _ (by omega)]
  simp only [bind, Except.bind]
  rw [skipBack_again isWordByte (List.rdropWhile_prefix _ _)]
  unfold Editor.wordLeft
  rw [before_editor h]
  simp only
  by_cases hrest : (((line.bytes.take line.cursor).rdropWhile isAsciiWhitespace).rdropWhile
      isWordByte).length = line.cursor
  · rw [if_pos hrest, hrest, skipBack_eq _ (by omega)]
    exact congrArg Except.ok (if_pos rfl).symm
  · rw [if_neg hrest]
    exact congrArg Except.ok (if_neg hrest).symm

/-- The boundary to the left, in the text alone. -/
theorem previousWordBoundary_eq (h : line.WellFormed) :
    line.previousWordBoundary = .ok line.editor.wordLeft := by
  by_cases hzero : line.cursor = 0
  · have hle := Editor.wordLeft_le (cursor_le_text h)
    change _ ≤ line.cursor at hle
    rw [hzero, Nat.le_zero] at hle
    rw [hle, previousWordBoundary, if_pos hzero]
    rfl
  · -- the loops have left the cursor, so there is no need for the last resort
    have hlt := Editor.wordLeft_lt (cursor_le_text h) hzero
    change _ < line.cursor at hlt
    rw [previousWordBoundary_scan hzero, scannedBack_eq h, Checked.ok_bind,
      if_neg (Nat.ne_of_lt hlt)]
    rfl

theorem skipForward_again (p : UInt8 → Bool) {bytes rest : List UInt8} {len : ℕ}
    (hlen : len ≤ bytes.length) (hrest : rest <:+ bytes.take len) :
    skipForward p bytes (len - rest.length) (len - (len - rest.length)) =
      .ok (len - (rest.dropWhile p).length) := by
  have hle := hrest.length_le
  rw [List.length_take_of_le hlen] at hle
  have hdrop := List.suffix_iff_eq_drop.mp hrest
  rw [List.length_take_of_le hlen] at hdrop
  rw [skipForward_eq p hlen (by omega), ← hdrop]

/-- Where the loops of `next_word_boundary` stop, before its last resort. -/
def scannedForward (line : InputLine) : Checked ℕ := do
  let position ← skipForward isAsciiWhitespace line.bytes line.cursor (line.len - line.cursor)
  let position ← skipForward isWordByte line.bytes position (line.len - position)
  if position = line.cursor then skipForward isSymbolByte line.bytes position (line.len - position)
    else pure position

/-- The search forward in the same way. -/
theorem nextWordBoundary_scan (hlt : line.cursor < line.len) :
    line.nextWordBoundary = line.scannedForward >>= fun position =>
      if position = line.cursor then do
        let next ← add position 1
        pure (min next line.len)
      else pure position := by
  unfold nextWordBoundary scannedForward
  rw [if_neg (Nat.not_le.mpr hlt), bind_assoc]
  congr 1
  funext position
  rw [bind_assoc]

theorem scannedForward_eq (h : line.WellFormed) :
    line.scannedForward = .ok line.editor.wordRight := by
  have hsize := h.size
  have hcursor := h.cursorLe
  have hlen := h.lenLe
  have hfit : line.len ≤ line.bytes.length := by omega
  have htext := length_text h
  have hafterLen := Editor.length_after line.editor
  change line.editor.after.length = _ - line.cursor at hafterLen
  -- both scans run over a suffix of the text
  have hsuffix : line.editor.after <:+ line.bytes.take line.len := List.drop_suffix _ _
  have hgap := List.dropWhile_suffix isAsciiWhitespace (l := line.editor.after)
  have hword := List.dropWhile_suffix isWordByte
    (l := line.editor.after.dropWhile isAsciiWhitespace)
  have hgapLe := hgap.length_le
  have hwordLe := hword.length_le
  unfold scannedForward
  rw [skipForward_eq _ hfit (by omega)]
  simp only [bind, Except.bind]
  rw [show (line.bytes.take line.len).drop line.cursor = line.editor.after from rfl,
    skipForward_again isWordByte hfit (hgap.trans hsuffix)]
  unfold Editor.wordRight
  simp only
  rw [htext]
  by_cases hrest : ((line.editor.after.dropWhile isAsciiWhitespace).dropWhile
      isWordByte).length = line.editor.after.length
  -- neither scan has moved: the last resort goes to the end of the symbols
  · rw [if_pos hrest, hrest, if_pos (by omega), skipForward_again _ hfit hsuffix]
  · rw [if_neg hrest, if_neg (by omega)]
    rfl

/-- The boundary to the right. -/
theorem nextWordBoundary_eq (h : line.WellFormed) :
    line.nextWordBoundary = .ok (if line.len ≤ line.cursor then line.len
      else line.editor.wordRight) := by
  by_cases hlt : line.cursor < line.len
  · have hafter : line.editor.after ≠ [] :=
      fun hnil => Nat.not_le.mpr hlt ((after_editor_eq_nil h).mp hnil)
    have hgt := Editor.lt_wordRight hafter
    change line.cursor < _ at hgt
    rw [nextWordBoundary_scan hlt, scannedForward_eq h, Checked.ok_bind,
      if_neg (Nat.ne_of_gt hgt), if_neg (Nat.not_le.mpr hlt)]
    rfl
  · rw [if_pos (Nat.not_lt.mp hlt), nextWordBoundary, if_pos (Nat.not_lt.mp hlt)]
    rfl

/-! ## The operations -/

/-- The line does what the editor does, and says so. -/
def Refines (line : InputLine) (x : Checked (Bool × InputLine)) (spec : Option Editor) : Prop :=
  Returns x fun result =>
    result.2.WellFormed ∧ result.1 = spec.isSome ∧ result.2.editor = spec.getD line.editor

theorem Refines.refused (h : line.WellFormed) : Refines line (pure (false, line)) none :=
  Returns.pure ⟨h, rfl, rfl⟩

theorem Refines.done {line' : InputLine} (h : line'.WellFormed) :
    Refines line (pure (true, line')) (some line'.editor) :=
  Returns.pure ⟨h, rfl, rfl⟩

/-- The guard of the inserting operations. -/
theorem guard_iff {ascii : Bool} {full : Prop} [Decidable full] :
    (!ascii || decide full) = true ↔ ¬ (ascii ∧ ¬ full) := by
  cases ascii <;> simp

/-- Moving the cursor inside the text. -/
theorem moved_wellFormed (h : line.WellFormed) {cursor : ℕ} (hcursor : cursor ≤ line.len) :
    WellFormed { line with cursor } :=
  ⟨h.size, hcursor, h.lenLe, h.ascii⟩

/-- Making room at the cursor and filling it is splicing. -/
theorem spliced (h : line.WellFormed) {source : List UInt8}
    (hascii : ∀ byte ∈ source, byte < 0x80) (hfit : line.len + source.length ≤ inputLineMax) :
    ∃ bytes, shiftUp line.bytes line.cursor source.length (line.len - line.cursor) = .ok bytes ∧
      bytes.length = inputLineMax ∧
      ∃ line' : InputLine, line' =
          { bytes := bytes.take line.cursor ++ source ++ bytes.drop (line.cursor + source.length)
            len := line.len + source.length
            cursor := line.cursor + source.length } ∧
        line'.WellFormed ∧ line'.editor = line.editor.splice source := by
  have hsize := h.size
  have hcursor := h.cursorLe
  have hmax : inputLineMax = 128 := rfl
  have hcount : line.cursor + (line.len - line.cursor) = line.len := by omega
  obtain ⟨bytes, heq, hlen, hget⟩ := @shiftUp_eq line.cursor source.length
    (line.len - line.cursor) line.bytes (by omega) (by omega)
  refine ⟨bytes, heq, hlen.trans hsize, _, rfl, ?_⟩
  have htext := shiftUp_filled source (by omega) hlen hget
  rw [hcount, ← List.drop_take, ← before_editor h] at htext
  refine ⟨⟨?_, ?_, hfit, ?_⟩, ?_⟩
  · simp only [List.length_append, List.length_take, List.length_drop]
    omega
  · change line.cursor + _ ≤ line.len + _
    omega
  · intro byte hbyte
    change byte ∈ List.take _ _ at hbyte
    rw [htext, List.mem_append, List.mem_append] at hbyte
    rcases hbyte with (hbyte | hbyte) | hbyte
    · exact h.ascii byte (List.mem_of_mem_take hbyte)
    · exact hascii byte hbyte
    · exact h.ascii byte (List.mem_of_mem_drop hbyte)
  · unfold editor Editor.splice
    simp only
    rw [htext]
    rfl

/-- Closing the gap is cutting. -/
theorem closed (h : line.WellFormed) (start offset : ℕ) (hstop : start + offset ≤ line.len) :
    ∃ bytes, shiftDown line.bytes offset (start + offset) (line.len - (start + offset)) =
        .ok bytes ∧
      ∃ line' : InputLine, line' = { bytes, len := line.len - offset, cursor := start } ∧
        line'.WellFormed ∧ line'.editor = line.editor.cut start (start + offset) := by
  have hsize := h.size
  have hle := h.lenLe
  obtain ⟨bytes, heq, hlen, hget⟩ := @shiftDown_eq offset (line.len - (start + offset)) line.bytes
    (start + offset) (by omega) (by omega)
  refine ⟨bytes, heq, _, rfl, ?_⟩
  have htext := shiftDown_closed (by omega) hget
  rw [Nat.add_sub_cancel, show start + offset + (line.len - (start + offset)) - offset =
    line.len - offset by omega, ← List.drop_take] at htext
  have hstart : line.bytes.take start = line.editor.text.take start := by
    change _ = (line.bytes.take line.len).take start
    rw [List.take_take, Nat.min_eq_left (by omega)]
  refine ⟨⟨hlen.trans hsize, ?_, ?_, ?_⟩, ?_⟩
  · change start ≤ line.len - offset
    omega
  · exact (Nat.sub_le _ _).trans hle
  · intro byte hbyte
    change byte ∈ List.take _ _ at hbyte
    rw [htext, hstart, List.mem_append] at hbyte
    rcases hbyte with hbyte | hbyte
    · exact h.ascii byte (List.mem_of_mem_take hbyte)
    · exact h.ascii byte (List.mem_of_mem_drop hbyte)
  · unfold editor Editor.cut
    simp only
    rw [htext, hstart]
    rfl

/-- A byte is inserted at the cursor, if it is ASCII and fits. -/
theorem insertChar_refines (h : line.WellFormed) (c : Char) :
    Refines line (line.insertChar c) (line.editor.step (.insertChar c)) := by
  have hsize := h.size
  have hcursor := h.cursorLe
  have hmax : inputLineMax = 128 := rfl
  have hlength := Editor.length_splice (cursor_le_text h) [charByte c]
  rw [length_text h, List.length_singleton] at hlength
  change Refines line _ (if isAsciiChar c ∧ (line.editor.splice [charByte c]).text.length ≤
    inputLineMax then _ else none)
  unfold insertChar
  by_cases hguard : isAsciiChar c ∧ line.len + 1 ≤ inputLineMax
  · have hascii : ∀ byte ∈ [charByte c], byte < 0x80 := by
      intro byte hbyte
      rw [List.mem_singleton.mp hbyte]
      exact charByte_lt (of_decide_eq_true hguard.1)
    rcases spliced h hascii hguard.2 with ⟨bytes, hshift, hlen, line', hline', hwf, heditor⟩
    have haccepted := mt guard_iff.mp (not_not_intro ⟨hguard.1, Nat.not_le.mpr
      (show line.len < line.bytes.length by omega)⟩)
    rw [hlength, if_pos hguard, if_neg haccepted, ← heditor]
    change shiftUp _ _ 1 _ = _ at hshift
    rw [hshift]
    simp only [bind, Except.bind]
    rw [store_eq (by omega), add_eq (by omega), add_eq (by omega)]
    simp only
    rw [List.set_eq_take_append_cons_drop, if_pos (by omega), List.append_cons]
    rw [List.length_singleton] at hline'
    rw [← hline']
    exact Refines.done hwf
  · have hrefused : ¬ (isAsciiChar c ∧ ¬ line.len ≥ line.bytes.length) := by
      rintro ⟨hc, hroom⟩
      exact hguard ⟨hc, by omega⟩
    rw [hlength, if_neg hguard, if_pos (guard_iff.mpr hrefused)]
    exact Refines.refused h

/-- Overwriting inside the text. -/
theorem overwrite_refines (h : line.WellFormed) {c : Char} (hc : isAsciiChar c)
    (hlt : line.cursor < line.len) :
    Refines line (do
        let bytes ← store line.bytes line.cursor (charByte c)
        let cursor ← add line.cursor 1
        pure (true, { line with bytes, cursor }))
      (some (line.editor.overwrite (charByte c))) := by
  have hsize := h.size
  have hle := h.lenLe
  have hmax : inputLineMax = 128 := rfl
  have htext : (line.editor.overwrite (charByte c)).text = line.editor.text.set line.cursor
      (charByte c) := Editor.overwrite_text (by rw [length_text h]; exact hlt) _
  -- the byte stands inside the text, so writing it and cutting the buffer commute
  have hset : (line.bytes.set line.cursor (charByte c)).take line.len =
      (line.editor.overwrite (charByte c)).text := by
    rw [htext, List.take_set]
    rfl
  have hwf : WellFormed { line with
      bytes := line.bytes.set line.cursor (charByte c), cursor := line.cursor + 1 } := by
    refine ⟨?_, hlt, hle, ?_⟩
    · rw [List.length_set]
      exact hsize
    · intro byte hbyte
      change byte ∈ List.take _ _ at hbyte
      rw [hset, htext] at hbyte
      rcases List.mem_or_eq_of_mem_set hbyte with hbyte | rfl
      · exact h.ascii byte hbyte
      · exact charByte_lt (of_decide_eq_true hc)
  have heditor : line.editor.overwrite (charByte c) = editor { line with
      bytes := line.bytes.set line.cursor (charByte c), cursor := line.cursor + 1 } := by
    unfold editor
    simp only
    rw [hset]
    rfl
  rw [store_eq (by omega), Checked.ok_bind, add_eq (by omega), Checked.ok_bind, heditor]
  exact Refines.done hwf

/-- In overwrite mode a byte is replaced, except at the end, where it is inserted. -/
theorem insertOrOverwriteChar_refines (h : line.WellFormed) (c : Char) (overwriteMode : Bool) :
    Refines line (line.insertOrOverwriteChar c overwriteMode)
      (line.editor.step (.insertOrOverwriteChar c overwriteMode)) := by
  have htext := length_text h
  unfold insertOrOverwriteChar
  by_cases hc : isAsciiChar c
  · rw [if_neg (by simp [hc])]
    by_cases hover : overwriteMode && decide (line.cursor < line.len)
    · rw [if_pos hover]
      rw [Bool.and_eq_true, decide_eq_true_eq] at hover
      have hlt : line.editor.cursor < line.editor.text.length := by
        rw [htext]
        exact hover.2
      have hstep : line.editor.step (.insertOrOverwriteChar c overwriteMode) =
          some (line.editor.overwrite (charByte c)) := by
        have hlength : (line.editor.overwrite (charByte c)).text.length ≤ inputLineMax := by
          rw [Editor.overwrite_text hlt, List.length_set, htext]
          exact h.lenLe
        simp only [Editor.step, Editor.insertion, hover.1, hlt, hc, hlength, decide_true,
          Bool.and_self, if_true, and_self]
      rw [hstep]
      exact overwrite_refines h hc hover.2
    · -- in insert mode, or at the end of the text
      have hstep : line.editor.step (.insertOrOverwriteChar c overwriteMode) =
          line.editor.step (.insertChar c) := by
        have hover' : ¬ (overwriteMode && decide (line.editor.cursor < line.editor.text.length)) := by
          rw [htext]
          exact hover
        simp only [Editor.step, Editor.insertion, hover', Bool.false_eq_true, if_false]
      rw [if_neg hover, hstep]
      exact insertChar_refines h c
  · have hstep : line.editor.step (.insertOrOverwriteChar c overwriteMode) = none := by
      simp only [Editor.step, Editor.insertion, hc, Bool.false_eq_true, false_and, if_false]
    rw [if_pos (by simp [hc]), hstep]
    exact Refines.refused h

/-- A text is inserted at the cursor as a whole, or not at all. -/
theorem appendStr_refines (h : line.WellFormed) (text : String) :
    Refines line (line.appendStr text) (line.editor.step (.appendStr text)) := by
  have hsize := h.size
  have hcursor := h.cursorLe
  have hmax : inputLineMax = 128 := rfl
  have hlength := Editor.length_splice (cursor_le_text h) (textBytes text)
  rw [length_text h] at hlength
  change Refines line _ (if (textBytes text).all isAscii ∧
    (line.editor.splice (textBytes text)).text.length ≤ inputLineMax then _ else none)
  unfold appendStr
  by_cases hguard : (textBytes text).all isAscii ∧
      line.len + (textBytes text).length ≤ inputLineMax
  · have hascii : ∀ byte ∈ textBytes text, byte < 0x80 := by
      intro byte hbyte
      exact of_decide_eq_true (List.all_eq_true.mp hguard.1 byte hbyte)
    rcases spliced h hascii hguard.2 with ⟨bytes, hshift, hlen, line', hline', hwf, heditor⟩
    -- the code refuses by a guard of its own, which is the same
    have haccepted := mt guard_iff.mp (not_not_intro ⟨hguard.1, Nat.not_lt.mpr
      (show line.len + (textBytes text).length ≤ line.bytes.length by omega)⟩)
    rw [hlength, if_pos hguard, if_neg haccepted, ← heditor, hshift]
    simp only [bind, Except.bind]
    rw [copyIn, add_eq (by omega)]
    simp only [bind, Except.bind]
    rw [slice_eq (by omega) (by omega)]
    simp only [pure, Except.pure]
    rw [add_eq (by omega)]
    simp only
    rw [← hline']
    exact Refines.done hwf
  · have hrefused : ¬ ((textBytes text).all isAscii ∧
        ¬ line.len + (textBytes text).length > line.bytes.length) := by
      rintro ⟨hc, hroom⟩
      exact hguard ⟨hc, by omega⟩
    rw [hlength, if_neg hguard, if_pos (guard_iff.mpr hrefused)]
    exact Refines.refused h

/-- A text becomes the line as a whole, or not at all. -/
theorem setFromStr_refines (h : line.WellFormed) (text : String) :
    Refines line (line.setFromStr text) (line.editor.step (.setFromStr text)) := by
  have hsize := h.size
  have hmax : inputLineMax = 128 := rfl
  change Refines line _ (if (textBytes text).all isAscii ∧ (textBytes text).length ≤ inputLineMax
    then _ else none)
  unfold setFromStr
  by_cases hguard : (textBytes text).all isAscii ∧ (textBytes text).length ≤ inputLineMax
  · have hascii : ∀ byte ∈ textBytes text, byte < 0x80 := by
      intro byte hbyte
      exact of_decide_eq_true (List.all_eq_true.mp hguard.1 byte hbyte)
    have haccepted := mt guard_iff.mp (not_not_intro ⟨hguard.1, Nat.not_lt.mpr
      (show (textBytes text).length ≤ line.bytes.length by omega)⟩)
    rw [if_pos hguard, if_neg haccepted]
    unfold copyIn
    rw [add_eq (by omega)]
    simp only [bind, Except.bind]
    rw [slice_eq (Nat.zero_le _) (by simp only [clear]; omega)]
    simp only [pure, Except.pure, List.take_zero, List.nil_append, Nat.zero_add, clear]
    -- the text is copied to the front, and the rest of the bytes does not count
    have htake : (textBytes text ++ line.bytes.drop (textBytes text).length).take
        (textBytes text).length = textBytes text := List.take_left
    have hwf : WellFormed
        { bytes := textBytes text ++ line.bytes.drop (textBytes text).length
          len := (textBytes text).length, cursor := (textBytes text).length } := by
      refine ⟨?_, Nat.le_refl _, hguard.2, ?_⟩
      · simp only [List.length_append, List.length_drop]
        omega
      · intro byte hbyte
        change byte ∈ List.take _ _ at hbyte
        rw [htake] at hbyte
        exact hascii byte hbyte
    refine Returns.ok ⟨hwf, rfl, ?_⟩
    unfold editor
    simp only
    rw [htake]
    rfl
  · have hrefused : ¬ ((textBytes text).all isAscii ∧
        ¬ (textBytes text).length > line.bytes.length) := by
      rintro ⟨hc, hroom⟩
      exact hguard ⟨hc, by omega⟩
    rw [if_neg hguard, if_pos (guard_iff.mpr hrefused)]
    exact Refines.refused h

/-- The byte before the cursor is cut out. -/
theorem backspace_refines (h : line.WellFormed) :
    Refines line line.backspace (line.editor.step .backspace) := by
  have hcursor := h.cursorLe
  change Refines line _ (if line.cursor = 0 then none else some (line.editor.cut (line.cursor - 1)
    line.cursor))
  unfold backspace
  by_cases hzero : line.cursor = 0
  · rw [if_pos hzero, if_pos hzero]
    exact Refines.refused h
  · rw [if_neg hzero, if_neg hzero, sub_eq (by omega)]
    simp only [bind, Except.bind]
    have hone : line.cursor - 1 + 1 = line.cursor := by omega
    rcases closed h (line.cursor - 1) 1 (by omega) with
      ⟨bytes, hshift, line', rfl, hwf, heditor⟩
    rw [hone] at heditor
    rw [hshift, sub_eq (by omega)]
    simp only
    rw [← heditor]
    exact Refines.done hwf

/-- The byte at the cursor is cut out. -/
theorem delete_refines (h : line.WellFormed) :
    Refines line line.delete (line.editor.step .delete) := by
  change Refines line _ (if line.editor.after = [] then none else
    some (line.editor.cut line.cursor (line.cursor + 1)))
  unfold delete
  by_cases hend : line.len ≤ line.cursor
  · rw [if_pos hend, if_pos ((after_editor_eq_nil h).mpr hend)]
    exact Refines.refused h
  · rcases closed h line.cursor 1 (by omega) with
      ⟨bytes, hshift, line', rfl, hwf, heditor⟩
    rw [if_neg hend, if_neg (mt (after_editor_eq_nil h).mp hend), hshift, sub_eq (by omega)]
    simp only [bind, Except.bind]
    rw [← heditor]
    exact Refines.done hwf

/-- `delete_range` on a range that is not empty. The cursor goes to its start where it was
inside; only a cursor behind the new end is moved. -/
theorem deleteRange_eq (h : line.WellFormed) {start stop : ℕ} (hlt : start < stop)
    (hstop : stop ≤ line.len) :
    ∃ bytes, line.deleteRange start stop =
        .ok { bytes, len := line.len - (stop - start),
              cursor := if line.cursor > line.len - (stop - start) then
                line.len - (stop - start) else line.cursor } ∧
      ∃ line' : InputLine, line' = { bytes, len := line.len - (stop - start), cursor := start } ∧
        line'.WellFormed ∧ line'.editor = line.editor.cut start stop := by
  have hadd : start + (stop - start) = stop := by omega
  rcases closed h start (stop - start) (by omega) with
    ⟨bytes, hshift, line', hline', hwf, heditor⟩
  rw [hadd] at hshift heditor
  refine ⟨bytes, ?_, line', hline', hwf, heditor⟩
  unfold deleteRange
  simp only
  rw [if_neg (by omega), hshift, sub_eq (by omega)]
  rfl

/-- Everything back to the boundary is cut out. -/
theorem deleteWordLeft_refines (h : line.WellFormed) :
    Refines line line.deleteWordLeft (line.editor.step .deleteWordLeft) := by
  have hcursor := h.cursorLe
  change Refines line _ (if line.cursor = 0 then none else
    some (line.editor.cut line.editor.wordLeft line.cursor))
  unfold deleteWordLeft
  rw [previousWordBoundary_eq h]
  simp only [bind, Except.bind]
  by_cases hzero : line.cursor = 0
  · have hle := Editor.wordLeft_le (cursor_le_text h)
    change _ ≤ line.cursor at hle
    rw [if_pos (by omega), if_pos hzero]
    exact Refines.refused h
  · have hlt := Editor.wordLeft_lt (cursor_le_text h) hzero
    change _ < line.cursor at hlt
    rcases deleteRange_eq h hlt hcursor with ⟨bytes, hrange, line', rfl, hwf, heditor⟩
    rw [if_neg (Nat.ne_of_lt hlt), if_neg hzero, hrange, ← heditor]
    exact Refines.done hwf

/-- Everything up to the boundary is cut out. -/
theorem deleteWordRight_refines (h : line.WellFormed) :
    Refines line line.deleteWordRight (line.editor.step .deleteWordRight) := by
  have hcursor := h.cursorLe
  change Refines line _ (if line.editor.after = [] then none else
    some (line.editor.cut line.cursor line.editor.wordRight))
  unfold deleteWordRight
  rw [nextWordBoundary_eq h]
  simp only [bind, Except.bind]
  by_cases hend : line.len ≤ line.cursor
  · rw [if_pos ((after_editor_eq_nil h).mpr hend), if_pos hend, if_pos (by omega)]
    exact Refines.refused h
  · have hafter := mt (after_editor_eq_nil h).mp hend
    have hlt := Editor.lt_wordRight hafter
    have hle := Editor.wordRight_le line.editor
    change line.cursor < _ at hlt
    rw [length_text h] at hle
    rcases deleteRange_eq h hlt hle with ⟨bytes, hrange, line', hline', hwf, heditor⟩
    rw [if_neg hafter, if_neg hend, if_neg (Nat.ne_of_gt hlt), hrange, if_neg (by omega),
      ← hline', ← heditor]
    exact Refines.done hwf

/-- A movement that is refused where `stuck` holds, and goes to `target` otherwise. -/
theorem move_refines (h : line.WellFormed) (stuck : Prop) [Decidable stuck] (target : ℕ)
    (htarget : ¬ stuck → target ≤ line.len) {x : Checked (Bool × InputLine)}
    (hx : x = .ok (if stuck then (false, line) else (true, { line with cursor := target }))) :
    Refines line x (if stuck then none else some { line.editor with cursor := target }) := by
  rw [hx]
  by_cases hstuck : stuck
  · rw [if_pos hstuck, if_pos hstuck]
    exact Refines.refused h
  · rw [if_neg hstuck, if_neg hstuck]
    exact Refines.done (moved_wellFormed h (htarget hstuck))

theorem moveLeft_refines (h : line.WellFormed) :
    Refines line line.moveLeft (line.editor.step .moveLeft) := by
  have hcursor := h.cursorLe
  refine move_refines h (line.cursor = 0) (line.cursor - 1)
    (fun _ => by omega) ?_
  unfold moveLeft
  split
  · rfl
  · next hzero =>
    rw [sub_eq (by omega)]
    rfl

theorem moveRight_refines (h : line.WellFormed) :
    Refines line line.moveRight (line.editor.step .moveRight) := by
  have hle := h.lenLe
  have hmax : inputLineMax = 128 := rfl
  have hafter := after_editor_eq_nil h
  refine move_refines h (line.editor.after = []) (line.cursor + 1)
    (fun hne => ?_) ?_
  · rw [hafter] at hne
    omega
  · unfold moveRight
    by_cases hend : line.len ≤ line.cursor
    · rw [if_pos hend, if_pos (hafter.mpr hend)]
      rfl
    · rw [if_neg hend, if_neg (mt hafter.mp hend), add_eq (by omega)]
      rfl

theorem moveHome_refines (h : line.WellFormed) :
    Refines line line.moveHome (line.editor.step .moveHome) := by
  refine move_refines h (line.cursor = 0) 0 (fun _ => Nat.zero_le _) ?_
  unfold moveHome
  split <;> rfl

theorem moveEnd_refines (h : line.WellFormed) :
    Refines line line.moveEnd (line.editor.step .moveEnd) := by
  have hcursor := h.cursorLe
  have hafter := after_editor_eq_nil h
  have hmove := move_refines h (line.editor.after = []) line.len
    (x := line.moveEnd) (fun _ => Nat.le_refl _) ?_
  · rw [← length_text h] at hmove
    exact hmove
  · unfold moveEnd
    by_cases hend : line.len ≤ line.cursor
    · rw [if_pos (by omega), if_pos (hafter.mpr hend)]
      rfl
    · rw [if_neg (by omega), if_neg (mt hafter.mp hend)]
      rfl

theorem moveWordLeft_refines (h : line.WellFormed) :
    Refines line line.moveWordLeft (line.editor.step .moveWordLeft) := by
  have hcursor := h.cursorLe
  have hle := Editor.wordLeft_le (cursor_le_text h)
  change _ ≤ line.cursor at hle
  refine move_refines h (line.cursor = 0) line.editor.wordLeft
    (fun _ => hle.trans hcursor) ?_
  unfold moveWordLeft
  rw [previousWordBoundary_eq h]
  simp only [bind, Except.bind]
  by_cases hzero : line.cursor = 0
  · rw [if_pos (by omega), if_pos hzero]
    rfl
  · have hlt := Editor.wordLeft_lt (cursor_le_text h) hzero
    change _ < line.cursor at hlt
    rw [if_neg (Nat.ne_of_lt hlt), if_neg hzero]
    rfl

theorem moveWordRight_refines (h : line.WellFormed) :
    Refines line line.moveWordRight (line.editor.step .moveWordRight) := by
  have hcursor := h.cursorLe
  have hafter := after_editor_eq_nil h
  have hle := Editor.wordRight_le line.editor
  rw [length_text h] at hle
  refine move_refines h (line.editor.after = []) line.editor.wordRight
    (fun _ => hle) ?_
  unfold moveWordRight
  rw [nextWordBoundary_eq h]
  simp only [bind, Except.bind]
  by_cases hend : line.len ≤ line.cursor
  · rw [if_pos (hafter.mpr hend), if_pos hend, if_pos (by omega)]
    rfl
  · have hlt := Editor.lt_wordRight (mt hafter.mp hend)
    change line.cursor < _ at hlt
    rw [if_neg (mt hafter.mp hend), if_neg hend, if_neg (Nat.ne_of_gt hlt)]
    rfl

theorem clear_refines (h : line.WellFormed) :
    Refines line (pure (true, line.clear)) (line.editor.step .clear) :=
  Refines.done ⟨h.size, Nat.le_refl _, Nat.zero_le _, by simp [clear]⟩

/-- One operation: the line and the editor move together. -/
theorem exec_refines (h : line.WellFormed) (op : LineOp) :
    Refines line (line.exec op) (line.editor.step op) := by
  cases op with
  | insertChar c => exact insertChar_refines h c
  | insertOrOverwriteChar c overwriteMode => exact insertOrOverwriteChar_refines h c overwriteMode
  | appendStr text => exact appendStr_refines h text
  | setFromStr text => exact setFromStr_refines h text
  | backspace => exact backspace_refines h
  | delete => exact delete_refines h
  | moveLeft => exact moveLeft_refines h
  | moveRight => exact moveRight_refines h
  | moveHome => exact moveHome_refines h
  | moveEnd => exact moveEnd_refines h
  | moveWordLeft => exact moveWordLeft_refines h
  | moveWordRight => exact moveWordRight_refines h
  | deleteWordLeft => exact deleteWordLeft_refines h
  | deleteWordRight => exact deleteWordRight_refines h
  | clear => exact clear_refines h

/-! ## Reading the text -/

theorem textOf_eq {bytes : List UInt8} {len : ℕ} (hlen : len ≤ bytes.length)
    (hascii : ∀ byte ∈ bytes.take len, byte < 0x80) :
    textOf bytes len = .ok (asciiText (bytes.take len)) := by
  unfold textOf
  rw [slice_eq (Nat.zero_le _) hlen, List.drop_zero]
  simp only [bind, Except.bind]
  rw [fromUTF8_asciiText hascii]
  rfl

theorem asStr_eq (h : line.WellFormed) : line.asStr = .ok (asciiText line.editor.text) :=
  textOf_eq (by rw [h.size]; exact h.lenLe) h.ascii

theorem asPrefixStr_eq (h : line.WellFormed) :
    line.asPrefixStr = .ok (asciiText line.editor.before) := by
  have hsize := h.size
  have hcursor := h.cursorLe
  have hlen := h.lenLe
  have hbefore := before_editor h
  rw [hbefore]
  refine textOf_eq (by omega) ?_
  rw [← hbefore]
  intro byte hbyte
  exact h.ascii byte (List.mem_of_mem_take hbyte)

end InputLine

/-! ## Every run -/

/-- A run of the line stays well formed, and ends where the editor's ends. -/
theorem run_refines {line : InputLine} (h : line.WellFormed) (ops : List LineOp) :
    Returns (line.run ops) fun line' =>
      line'.WellFormed ∧ line'.editor = line.editor.run ops := by
  induction ops generalizing line with
  | nil => exact Returns.pure ⟨h, rfl⟩
  | cons op ops ih =>
    refine (InputLine.exec_refines h op).bind ?_
    rintro ⟨reply, line'⟩ ⟨hwf, -, heditor⟩
    have hrun := ih hwf
    rw [heditor] at hrun
    exact hrun

/-- An insertion is refused exactly where it is not ASCII or does not fit. -/
theorem step_insertion {e result : Editor} {op : LineOp} {ascii : Bool}
    (h : e.insertion op = some (ascii, result)) :
    (e.step op).isSome = false ↔ ascii = false ∨ inputLineMax < result.text.length := by
  unfold Editor.step
  rw [h]
  simp only
  by_cases hguard : ascii ∧ result.text.length ≤ inputLineMax
  · rw [if_pos hguard]
    have hle := Nat.not_lt.mpr hguard.2
    simp [hguard.1, hle]
  · rw [if_neg hguard]
    cases ascii with
    | false => simp
    | true => simpa using hguard

/-- In every state that operations lead to from the new line, the buffer holds the text and the
cursor of the editor, reading it gives the text, and whatever operation comes next returns, does
what the editor does, and reports that it changed nothing exactly where it did not. -/
theorem line_refines_editor (ops : List LineOp) :
    ∃ line, InputLine.new.run ops = .ok line ∧
      line.cursor ≤ line.len ∧ line.len ≤ 128 ∧
      (∀ byte ∈ line.bytes.take line.len, byte < 0x80) ∧
      line.editor = Editor.empty.run ops ∧
      Returns line.asStr (fun text => textBytes text = line.editor.text) ∧
      Returns line.asPrefixStr (fun text => textBytes text = line.editor.text.take line.cursor) ∧
      ∀ op, ∃ reply line', line.exec op = .ok (reply, line') ∧
        reply = (line.editor.step op).isSome ∧
        line'.editor = (line.editor.step op).getD line.editor ∧
        (reply = false → line'.editor = line.editor) ∧
        (∀ ascii result, line.editor.insertion op = some (ascii, result) →
          (reply = false ↔ ascii = false ∨ 128 < result.text.length)) := by
  rcases run_refines InputLine.new_wellFormed ops with ⟨line, hrun, hwf, heditor⟩
  refine ⟨line, hrun, hwf.cursorLe, hwf.lenLe, hwf.ascii, heditor, ?_, ?_, ?_⟩
  · rw [InputLine.asStr_eq hwf]
    exact Returns.ok (textBytes_asciiText hwf.ascii)
  · rw [InputLine.asPrefixStr_eq hwf]
    refine Returns.ok (textBytes_asciiText ?_)
    intro byte hbyte
    exact hwf.ascii byte (List.mem_of_mem_take hbyte)
  · intro op
    rcases InputLine.exec_refines hwf op with ⟨⟨reply, line'⟩, hexec, -, hreply, hnext⟩
    refine ⟨reply, line', hexec, hreply, hnext, ?_, ?_⟩
    -- a refusal leaves the text and the cursor
    · intro hfalse
      change reply = _ at hreply
      rw [hfalse, eq_comm, Option.isSome_eq_false_iff, Option.isNone_iff_eq_none] at hreply
      change line'.editor = _ at hnext
      rw [hnext, hreply]
      rfl
    · intro ascii result hinsertion
      change reply = _ at hreply
      rw [hreply]
      exact step_insertion hinsertion

end JingOS.Monitor
