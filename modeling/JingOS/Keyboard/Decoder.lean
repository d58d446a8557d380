import JingOS.Lib.Mealy
import Mathlib.Data.UInt

/-!
# The keyboard decoder (`kernel/src/keyboard.rs`)

A machine that reads scancodes of set 1, one byte at a time, and emits key events. The byte
`0xE0` announces an extended key; eight flags remember the announcement, the modifiers that are
down and the state of caps lock.
-/

namespace JingOS.Keyboard

/-- What the decoder can report of a key. -/
inductive KeyEvent where
  | char (character : Char)
  | ctrl (character : Char)
  | alt (character : Char)
  | ctrlAlt (character : Char)
  | enter
  | backspace
  | tab
  | escape
  | arrowUp
  | arrowDown
  | arrowLeft
  | arrowRight
  | wordLeft
  | wordRight
  | insert
  | delete
  | wordDeleteLeft
  | wordDeleteRight
  | home
  | «end»
  | pageUp
  | pageDown
  | function (number : UInt8)
  | unknown (code : UInt8)
deriving DecidableEq, Repr

/-- The `match` of `decode_letter`. -/
def letterTable : List (UInt8 × Char) :=
  [(0x1E, 'a'), (0x30, 'b'), (0x2E, 'c'), (0x20, 'd'), (0x12, 'e'), (0x21, 'f'), (0x22, 'g'),
   (0x23, 'h'), (0x17, 'i'), (0x24, 'j'), (0x25, 'k'), (0x26, 'l'), (0x32, 'm'), (0x31, 'n'),
   (0x18, 'o'), (0x19, 'p'), (0x10, 'q'), (0x13, 'r'), (0x1F, 's'), (0x14, 't'), (0x16, 'u'),
   (0x2F, 'v'), (0x11, 'w'), (0x2D, 'x'), (0x15, 'y'), (0x2C, 'z')]

def decodeLetter (code : UInt8) : Option Char := letterTable.lookup code

/-- The `match` of `decode_symbol_pair`. -/
def symbolTable : List (UInt8 × Char × Char) :=
  [(0x02, '1', '!'), (0x03, '2', '@'), (0x04, '3', '#'), (0x05, '4', '$'), (0x06, '5', '%'),
   (0x07, '6', '^'), (0x08, '7', '&'), (0x09, '8', '*'), (0x0A, '9', '('), (0x0B, '0', ')'),
   (0x39, ' ', ' '), (0x0C, '-', '_'), (0x0D, '=', '+'), (0x1A, '[', '{'), (0x1B, ']', '}'),
   (0x27, ';', ':'), (0x28, '\'', '"'), (0x29, '\x60', '~'), (0x2B, '\\', '|'), (0x33, ',', '<'),
   (0x34, '.', '>'), (0x35, '/', '?')]

def decodeSymbolPair (code : UInt8) : Option (Char × Char) := symbolTable.lookup code

/-- The modifiers that are down, Caps Lock, and whether `0xE0` has come. -/
structure KeyboardDecoder where
  extended : Bool
  leftShift : Bool
  rightShift : Bool
  leftCtrl : Bool
  rightCtrl : Bool
  leftAlt : Bool
  rightAlt : Bool
  capsLock : Bool
deriving DecidableEq, Repr

namespace KeyboardDecoder

def new : KeyboardDecoder :=
  { extended := false, leftShift := false, rightShift := false, leftCtrl := false,
    rightCtrl := false, leftAlt := false, rightAlt := false, capsLock := false }

def shiftActive (d : KeyboardDecoder) : Bool := d.leftShift || d.rightShift

def ctrlActive (d : KeyboardDecoder) : Bool := d.leftCtrl || d.rightCtrl

def altActive (d : KeyboardDecoder) : Bool := d.leftAlt || d.rightAlt

/-- A character is one for itself, or with Ctrl, Alt or both. -/
def classifyChar (d : KeyboardDecoder) (character : Char) : KeyEvent :=
  match d.ctrlActive, d.altActive with
  | true, true => .ctrlAlt character
  | true, false => .ctrl character
  | false, true => .alt character
  | false, false => .char character

/-- `scancode & 0x80 != 0`. -/
def released (scancode : UInt8) : Bool := scancode &&& 0x80 != 0

/-- `scancode & 0x7f`. -/
def codeOf (scancode : UInt8) : UInt8 := scancode &&& 0x7f

/-- The last `match` of `feed`. -/
def decodeSpecial (d : KeyboardDecoder) (scancode code : UInt8) : KeyEvent :=
  if code = 0x1C then .enter
  else if code = 0x0E then if d.ctrlActive then .wordDeleteLeft else .backspace
  else if code = 0x0F then .tab
  else if code = 0x01 then .escape
  else if 0x3B ≤ code ∧ code ≤ 0x44 then .function (code - 0x3A)
  else if code = 0x57 then .function 11
  else if code = 0x58 then .function 12
  else .unknown scancode

/-- The end of `feed`: a plain key that is no modifier has been pressed. -/
def decodePressed (d : KeyboardDecoder) (scancode code : UInt8) : KeyEvent :=
  match decodeLetter code with
  | some letter =>
    let upper := d.shiftActive ^^ d.capsLock
    d.classifyChar (if upper then letter.toUpper else letter)
  | none =>
    match decodeSymbolPair code with
    | some (normal, shifted) => d.classifyChar (if d.shiftActive then shifted else normal)
    | none => d.decodeSpecial scancode code

/-- The last `match` of `decode_extended`. -/
def decodeExtendedPressed (d : KeyboardDecoder) (scancode code : UInt8) : KeyEvent :=
  if code = 0x48 then .arrowUp
  else if code = 0x50 then .arrowDown
  else if code = 0x4B then if d.ctrlActive then .wordLeft else .arrowLeft
  else if code = 0x4D then if d.ctrlActive then .wordRight else .arrowRight
  else if code = 0x52 then .insert
  else if code = 0x53 then if d.ctrlActive then .wordDeleteRight else .delete
  else if code = 0x47 then .home
  else if code = 0x4F then .end
  else if code = 0x49 then .pageUp
  else if code = 0x51 then .pageDown
  else .unknown scancode

/-- The byte behind an `0xE0`. -/
def decodeExtended (d : KeyboardDecoder) (scancode : UInt8) : Option KeyEvent × KeyboardDecoder :=
  let released := released scancode
  let code := codeOf scancode
  if code = 0x1D then (none, { d with rightCtrl := !released })
  else if code = 0x38 then (none, { d with rightAlt := !released })
  else if released then (none, d)
  else (some (d.decodeExtendedPressed scancode code), d)

/-- The part of `feed` for a byte that stands alone. -/
def decodePlain (d : KeyboardDecoder) (scancode : UInt8) : Option KeyEvent × KeyboardDecoder :=
  let released := released scancode
  let code := codeOf scancode
  if code = 0x2A then (none, { d with leftShift := !released })
  else if code = 0x36 then (none, { d with rightShift := !released })
  else if code = 0x1D then (none, { d with leftCtrl := !released })
  else if code = 0x38 then (none, { d with leftAlt := !released })
  else if code = 0x3A then
    (none, if released then d else { d with capsLock := !d.capsLock })
  else if released then (none, d)
  else (some (d.decodePressed scancode code), d)

/-- One byte of the keyboard. -/
def feed (d : KeyboardDecoder) (scancode : UInt8) : Option KeyEvent × KeyboardDecoder :=
  if scancode = 0xE0 then (none, { d with extended := true })
  else if d.extended then { d with extended := false }.decodeExtended scancode
  else d.decodePlain scancode

end KeyboardDecoder

/-- The decoder on a stream of bytes. -/
def decoder : Mealy KeyboardDecoder UInt8 (Option KeyEvent) := ⟨KeyboardDecoder.feed⟩

@[simp] theorem decoder_next (d : KeyboardDecoder) (scancode : UInt8) :
    decoder.next d scancode = d.feed scancode := rfl

/-- The events that a stream of bytes gives rise to. -/
def events (d : KeyboardDecoder) (scancodes : List UInt8) : List KeyEvent :=
  (decoder.trace d scancodes).filterMap (·.2)

end JingOS.Keyboard
