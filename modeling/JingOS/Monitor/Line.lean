import JingOS.Lib.Ascii
import JingOS.Lib.Checked

/-!
# The input line (`kernel/src/main.rs`)

A line is a buffer of 128 bytes of which the first `len` are in use, and a cursor. Every
operation works on the buffer in place: it shifts bytes up or down one by one, and leaves what
lies behind `len` as it is. All accesses are checked, as in the code. An operation returns what
it returns in the source, together with the line.
-/

namespace JingOS.Monitor

open Checked Ascii

/-- `INPUT_LINE_MAX`. -/
def inputLineMax : ℕ := 128

/-- `core::str::from_utf8(&bytes[..len]).unwrap_or("")`. -/
def textOf (bytes : List UInt8) (len : ℕ) : Checked String := do
  let used ← slice bytes 0 len
  pure ((String.fromUTF8? ⟨used.toArray⟩).getD "")

/-- The line that is edited: an array, how much of it counts, and the cursor. -/
structure InputLine where
  bytes : List UInt8
  len : ℕ
  cursor : ℕ
deriving DecidableEq, Repr

namespace InputLine

def new : InputLine := { bytes := List.replicate inputLineMax 0, len := 0, cursor := 0 }

def asStr (line : InputLine) : Checked String := textOf line.bytes line.len

def asPrefixStr (line : InputLine) : Checked String := textOf line.bytes line.cursor

def isEmpty (line : InputLine) : Bool := line.len == 0

def isCursorAtEnd (line : InputLine) : Bool := line.cursor == line.len

/-- The bytes stay where they are and no longer count. -/
def clear (line : InputLine) : InputLine := { line with len := 0, cursor := 0 }

/-! ## Shifting -/

/-- `for index in (start..start + count).rev() { bytes[index + by] = bytes[index] }`. -/
def shiftUp (bytes : List UInt8) (start offset : ℕ) : ℕ → Checked (List UInt8)
  | 0 => pure bytes
  | count + 1 => do
    -- the highest index comes first
    let byte ← index bytes (start + count)
    let target ← add (start + count) offset
    let bytes ← store bytes target byte
    shiftUp bytes start offset count

/-- `for index in start..start + count { bytes[index - by] = bytes[index] }`. -/
def shiftDown (bytes : List UInt8) (offset : ℕ) : ℕ → ℕ → Checked (List UInt8)
  | _, 0 => pure bytes
  | start, count + 1 => do
    let byte ← index bytes start
    let target ← sub start offset
    let bytes ← store bytes target byte
    shiftDown bytes offset (start + 1) count

/-- `bytes[start..start + source.len()].copy_from_slice(source)`. -/
def copyIn (bytes : List UInt8) (start : ℕ) (source : List UInt8) : Checked (List UInt8) := do
  let stop ← add start source.length
  let _ ← slice bytes start stop
  pure (bytes.take start ++ source ++ bytes.drop stop)

/-! ## Inserting -/

/-- An ASCII character at the cursor, if there is room. -/
def insertChar (line : InputLine) (character : Char) : Checked (Bool × InputLine) :=
  if !isAsciiChar character || line.len ≥ line.bytes.length then pure (false, line)
  else do
    let bytes ← shiftUp line.bytes line.cursor 1 (line.len - line.cursor)
    let bytes ← store bytes line.cursor (charByte character)
    let len ← add line.len 1
    let cursor ← add line.cursor 1
    pure (true, { bytes, len, cursor })

/-- The character replaces the one at the cursor, or is inserted. -/
def insertOrOverwriteChar (line : InputLine) (character : Char) (overwriteMode : Bool) :
    Checked (Bool × InputLine) :=
  if !isAsciiChar character then pure (false, line)
  else if overwriteMode && line.cursor < line.len then do
    let bytes ← store line.bytes line.cursor (charByte character)
    let cursor ← add line.cursor 1
    pure (true, { line with bytes, cursor })
  else line.insertChar character

/-- `append_str`. A `&str` has at most `isize::MAX` bytes, so the sum does not overflow. -/
def appendStr (line : InputLine) (text : String) : Checked (Bool × InputLine) :=
  let source := textBytes text
  if !source.all isAscii || line.len + source.length > line.bytes.length then pure (false, line)
  else do
    let bytes ← shiftUp line.bytes line.cursor source.length (line.len - line.cursor)
    let bytes ← copyIn bytes line.cursor source
    let len ← add line.len source.length
    let cursor ← add line.cursor source.length
    pure (true, { bytes, len, cursor })

/-- The line becomes the text, which has to be ASCII and to fit. -/
def setFromStr (line : InputLine) (text : String) : Checked (Bool × InputLine) :=
  let source := textBytes text
  if !source.all isAscii || source.length > line.bytes.length then pure (false, line)
  else do
    let line := line.clear
    let bytes ← copyIn line.bytes 0 source
    pure (true, { bytes, len := source.length, cursor := source.length })

/-! ## Removing -/

/-- Without the byte before the cursor. -/
def backspace (line : InputLine) : Checked (Bool × InputLine) :=
  if line.cursor = 0 then pure (false, line)
  else do
    let removed ← sub line.cursor 1
    let bytes ← shiftDown line.bytes 1 (removed + 1) (line.len - (removed + 1))
    let len ← sub line.len 1
    let cursor ← sub line.cursor 1
    pure (true, { bytes, len, cursor })

/-- Without the byte at the cursor. -/
def delete (line : InputLine) : Checked (Bool × InputLine) :=
  if line.cursor ≥ line.len then pure (false, line)
  else do
    let bytes ← shiftDown line.bytes 1 (line.cursor + 1) (line.len - (line.cursor + 1))
    let len ← sub line.len 1
    pure (true, { line with bytes, len })

/-- Without the bytes between two places. -/
def deleteRange (line : InputLine) (start stop : ℕ) : Checked InputLine :=
  let removed := stop - start
  if removed = 0 then pure line
  else do
    let bytes ← shiftDown line.bytes removed stop (line.len - stop)
    let len ← sub line.len removed
    pure { bytes, len, cursor := if line.cursor > len then len else line.cursor }

/-! ## Words -/

/-- A letter, a digit or an underscore. -/
def isWordByte (byte : UInt8) : Bool := isAsciiAlphanumeric byte || byte == 0x5F

/-- A byte of neither a word nor a gap. -/
def isSymbolByte (byte : UInt8) : Bool := !isAsciiWhitespace byte && !isWordByte byte

/-- `while position > 0 && p(bytes[position - 1]) { position -= 1 }`. -/
def skipBack (p : UInt8 → Bool) (bytes : List UInt8) : ℕ → Checked ℕ
  | 0 => pure 0
  | position + 1 => do
    let byte ← index bytes position
    if p byte then skipBack p bytes position else pure (position + 1)

/-- `while position < len && p(bytes[position]) { position += 1 }`, with the number of bytes
that are left. -/
def skipForward (p : UInt8 → Bool) (bytes : List UInt8) : ℕ → ℕ → Checked ℕ
  | position, 0 => pure position
  | position, left + 1 => do
    let byte ← index bytes position
    if p byte then skipForward p bytes (position + 1) left else pure position

/-- Back over white space, then over a word, else over symbols. -/
def previousWordBoundary (line : InputLine) : Checked ℕ :=
  if line.cursor = 0 then pure 0
  else do
    let position ← skipBack isAsciiWhitespace line.bytes line.cursor
    let position ← skipBack isWordByte line.bytes position
    -- symbols are skipped only where there was neither a gap nor a word
    let position ← (if position = line.cursor then skipBack isSymbolByte line.bytes position
      else pure position)
    if position = line.cursor then pure (position - 1) else pure position

/-- Forward over white space, then over a word, else over symbols. -/
def nextWordBoundary (line : InputLine) : Checked ℕ :=
  if line.cursor ≥ line.len then pure line.len
  else do
    let position ← skipForward isAsciiWhitespace line.bytes line.cursor (line.len - line.cursor)
    let position ← skipForward isWordByte line.bytes position (line.len - position)
    let position ← (if position = line.cursor then
      skipForward isSymbolByte line.bytes position (line.len - position) else pure position)
    if position = line.cursor then do
      let next ← add position 1
      pure (min next line.len)
    else pure position

/-- Without what lies between the boundary and the cursor. -/
def deleteWordLeft (line : InputLine) : Checked (Bool × InputLine) := do
  let start ← line.previousWordBoundary
  if start = line.cursor then pure (false, line)
  else do
    let line ← line.deleteRange start line.cursor
    pure (true, { line with cursor := start })

/-- Without what lies between the cursor and the boundary. -/
def deleteWordRight (line : InputLine) : Checked (Bool × InputLine) := do
  let stop ← line.nextWordBoundary
  if stop = line.cursor then pure (false, line)
  else do
    let line ← line.deleteRange line.cursor stop
    pure (true, line)

/-! ## Moving -/

def moveLeft (line : InputLine) : Checked (Bool × InputLine) :=
  if line.cursor = 0 then pure (false, line)
  else do
    let cursor ← sub line.cursor 1
    pure (true, { line with cursor })

def moveRight (line : InputLine) : Checked (Bool × InputLine) :=
  if line.cursor ≥ line.len then pure (false, line)
  else do
    let cursor ← add line.cursor 1
    pure (true, { line with cursor })

def moveHome (line : InputLine) : Checked (Bool × InputLine) :=
  if line.cursor = 0 then pure (false, line) else pure (true, { line with cursor := 0 })

def moveEnd (line : InputLine) : Checked (Bool × InputLine) :=
  if line.cursor = line.len then pure (false, line)
  else pure (true, { line with cursor := line.len })

def moveWordLeft (line : InputLine) : Checked (Bool × InputLine) := do
  let previous ← line.previousWordBoundary
  if previous = line.cursor then pure (false, line)
  else pure (true, { line with cursor := previous })

def moveWordRight (line : InputLine) : Checked (Bool × InputLine) := do
  let next ← line.nextWordBoundary
  if next = line.cursor then pure (false, line) else pure (true, { line with cursor := next })

/-! ## The size of the buffer -/

/-- The buffer has its size, and no more of it is in use. -/
structure Inv (line : InputLine) : Prop where
  size : line.bytes.length = inputLineMax
  lenLe : line.len ≤ inputLineMax

theorem new_inv : Inv new := ⟨List.length_replicate, by decide⟩

end InputLine

theorem textOf_returns {bytes : List UInt8} {len : ℕ} (h : len ≤ bytes.length) :
    Returns (textOf bytes len) fun _ => True := by
  unfold textOf
  rw [slice_eq (Nat.zero_le _) h]
  exact Returns.pure trivial

theorem InputLine.asStr_returns {line : InputLine} (h : line.Inv) :
    Returns line.asStr fun _ => True :=
  textOf_returns (by rw [h.size]; exact h.lenLe)

end JingOS.Monitor
