import JingOS.Keyboard.Tracking
import JingOS.Lib.Ascii

/-!
# The keys of a text

Every printable ASCII character has a key on the US layout, with shift or without it, and caps
lock exchanges the two for letters. Pressing and releasing these keys in turn gives the text back.

* `keyFor`, `strokes` — the key of a character, and what the keyboard sends for it;
* `typed_decodes` — the decoder inverts `typed`, for every text and both states of caps lock.
-/

namespace JingOS.Keyboard

open Ascii

/-- The key of a row that gives the character, and whether shift gives it. -/
def KeyRow.keyFor (row : KeyRow) (character : Char) : Option (UInt8 × Bool) :=
  if character ∈ row.plain then some (row.first + UInt8.ofNat (row.plain.idxOf character), false)
  else if character ∈ row.shifted then
    some (row.first + UInt8.ofNat (row.shifted.idxOf character), true)
  else none

/-- The code of the key for a character, and whether shift is held with it: for a letter caps lock
exchanges the two. -/
def keyFor (capsLock : Bool) (character : Char) : Option (UInt8 × Bool) :=
  (usLayout.findSome? (·.keyFor character)).map fun (code, shift) =>
    (code, if character.isAlpha then shift ^^ capsLock else shift)

/-- A key goes down and up, with the left shift key around it when shift is held. -/
def press (code : UInt8) (shift : Bool) : List UInt8 :=
  if shift then [0x2A, code, code ||| 0x80, 0xAA] else [code, code ||| 0x80]

/-- What the keyboard sends for a character; nothing for one without a key. -/
def strokes (capsLock : Bool) (byte : UInt8) : List UInt8 :=
  match keyFor capsLock (byteChar byte) with
  | some (code, shift) => press code shift
  | none => []

/-- What the keyboard sends for a text. -/
def typed (capsLock : Bool) (text : List UInt8) : List UInt8 := text.flatMap (strokes capsLock)

/-- No key is down, and no announcement is pending. -/
def idleDecoder (capsLock : Bool) : KeyboardDecoder := { KeyboardDecoder.new with capsLock }

/-! ## The events of a stream -/

theorem events_cons (d : KeyboardDecoder) (scancode : UInt8) (rest : List UInt8) :
    events d (scancode :: rest) = (d.feed scancode).1.toList ++ events (d.feed scancode).2 rest := by
  unfold events
  rw [Mealy.trace_cons, List.filterMap_cons, decoder_next]
  cases (d.feed scancode).1 <;> rfl

theorem events_append (d : KeyboardDecoder) (front back : List UInt8) :
    events d (front ++ back) = events d front ++ events (decoder.run d front) back := by
  unfold events
  rw [Mealy.trace_append, List.filterMap_append]

/-! ## One character -/

/-- Between space and tilde. -/
def Printable (byte : UInt8) : Prop := 0x20 ≤ byte ∧ byte ≤ 0x7E

instance (byte : UInt8) : Decidable (Printable byte) := inferInstanceAs (Decidable (_ ∧ _))

/-- There are 95 of them. -/
theorem printable_index {byte : UInt8} (h : Printable byte) :
    ∃ i < 95, byte = UInt8.ofNat (0x20 + i) := by
  rcases h with ⟨hlow, hhigh⟩
  rw [UInt8.le_iff_toNat_le] at hlow hhigh
  have hlow' : 32 ≤ byte.toNat := hlow
  have hhigh' : byte.toNat ≤ 126 := hhigh
  refine ⟨byte.toNat - 32, by omega, ?_⟩
  rw [show 0x20 + (byte.toNat - 32) = byte.toNat by omega, UInt8.ofNat_toNat]

/-- The strokes of a character are that character, and leave no key down. -/
theorem strokes_decode {byte : UInt8} (h : Printable byte) (capsLock : Bool) :
    events (idleDecoder capsLock) (strokes capsLock byte) = [.char (byteChar byte)] ∧
      decoder.run (idleDecoder capsLock) (strokes capsLock byte) = idleDecoder capsLock := by
  have hall : ∀ capsLock : Bool, ∀ i < 95,
      events (idleDecoder capsLock) (strokes capsLock (UInt8.ofNat (0x20 + i))) =
          [.char (byteChar (UInt8.ofNat (0x20 + i)))] ∧
        decoder.run (idleDecoder capsLock) (strokes capsLock (UInt8.ofNat (0x20 + i))) =
          idleDecoder capsLock := by
    decide +kernel
  rcases printable_index h with ⟨i, hi, rfl⟩
  exact hall capsLock i hi

/-! ## A text -/

/-- For every printable text the decoder makes of the strokes exactly its characters, in either
state of caps lock, and is idle again. -/
theorem typed_decodes (capsLock : Bool) {text : List UInt8} (h : ∀ byte ∈ text, Printable byte) :
    events (idleDecoder capsLock) (typed capsLock text) =
        text.map (fun byte => .char (byteChar byte)) ∧
      decoder.run (idleDecoder capsLock) (typed capsLock text) = idleDecoder capsLock := by
  induction text with
  | nil => exact ⟨rfl, rfl⟩
  | cons byte text ih =>
    rcases strokes_decode (h byte List.mem_cons_self) capsLock with ⟨hevents, hrun⟩
    rcases ih fun b hb => h b (List.mem_cons_of_mem _ hb) with ⟨hevents', hrun'⟩
    unfold typed at hevents' hrun' ⊢
    rw [List.flatMap_cons, events_append, Mealy.run_append, hrun, hevents, hevents', hrun']
    exact ⟨rfl, rfl⟩

example : events (idleDecoder true) (typed true [0x61, 0x42, 0x21]) =
    [.char 'a', .char 'B', .char '!'] := by decide

end JingOS.Keyboard
