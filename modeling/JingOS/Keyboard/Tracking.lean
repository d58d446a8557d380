import JingOS.Keyboard.Decoder
import Mathlib.Data.List.Basic

/-!
# The decoder tracks the keyboard

What a keyboard does is a list of transitions: a plain or an extended key goes down or up. Its
state at any moment can be read off that list, and so can the event that the next transition
stands for. Here the decoder's flags and the events it emits are compared with the list.

* `held`, `capsOn` — the keyboard as its transitions have left it;
* `Meaning` — what a key stands for, before the modifiers are looked at;
* `feed_transition` — one transition moves the decoder along with the keyboard;
* `decoder_tracks_keyboard` — and so does every list of them.
-/

namespace JingOS.Keyboard

/-! ## The keyboard -/

/-- A key of the keyboard. The code `0x60` is not a key's: its release would be the byte that
announces an extended key. -/
@[ext] structure Key where
  extended : Bool
  code : UInt8
  make : code < 0x80
  notAnnouncement : code ≠ 0x60
deriving DecidableEq

/-- A key goes down or up. -/
structure Transition where
  key : Key
  down : Bool
deriving DecidableEq

/-- Scancode set 1, without the announcement. -/
def Transition.scancode (t : Transition) : UInt8 :=
  if t.down then t.key.code else t.key.code ||| 0x80

/-- Scancode set 1. -/
def Transition.encode (t : Transition) : List UInt8 :=
  if t.key.extended then [0xE0, t.scancode] else [t.scancode]

def leftShiftKey : Key := ⟨false, 0x2A, by decide, by decide⟩

def rightShiftKey : Key := ⟨false, 0x36, by decide, by decide⟩

def leftCtrlKey : Key := ⟨false, 0x1D, by decide, by decide⟩

def rightCtrlKey : Key := ⟨true, 0x1D, by decide, by decide⟩

def leftAltKey : Key := ⟨false, 0x38, by decide, by decide⟩

def rightAltKey : Key := ⟨true, 0x38, by decide, by decide⟩

def capsLockKey : Key := ⟨false, 0x3A, by decide, by decide⟩

/-- The keys that change the meaning of others. -/
def Key.isModifier (key : Key) : Bool :=
  [leftShiftKey, rightShiftKey, leftCtrlKey, rightCtrlKey, leftAltKey, rightAltKey,
    capsLockKey].contains key

/-- The last transition of the key was a press. -/
def held (past : List Transition) (key : Key) : Bool :=
  ((past.filter (·.key = key)).getLast?).any (·.down)

/-- Caps lock has been pressed an odd number of times. -/
def capsOn (past : List Transition) : Bool :=
  (past.countP fun t => t.key = capsLockKey && t.down) % 2 == 1

/-- The decoder that agrees with the keyboard after a whole number of transitions. -/
def tracked (past : List Transition) : KeyboardDecoder where
  extended := false
  leftShift := held past leftShiftKey
  rightShift := held past rightShiftKey
  leftCtrl := held past leftCtrlKey
  rightCtrl := held past rightCtrlKey
  leftAlt := held past leftAltKey
  rightAlt := held past rightAltKey
  capsLock := capsOn past

/-! ## The key table -/

/-- What a key stands for. -/
inductive Meaning where
  | letter (lower : Char)
  | symbol (normal shifted : Char)
  | fixed (event : KeyEvent)
  /-- An editing key with a variant for whole words. -/
  | editing (event wordEvent : KeyEvent)
deriving DecidableEq

/-- A row of a keyboard: the code of its first key, and what its keys give without shift and with
it. The codes of a row are consecutive. -/
structure KeyRow where
  first : UInt8
  plain : List Char
  shifted : List Char

/-- The US layout. -/
def usLayout : List KeyRow :=
  [⟨0x02, ['1', '2', '3', '4', '5', '6', '7', '8', '9', '0', '-', '='],
     ['!', '@', '#', '$', '%', '^', '&', '*', '(', ')', '_', '+']⟩,
   ⟨0x10, ['q', 'w', 'e', 'r', 't', 'y', 'u', 'i', 'o', 'p', '[', ']'],
     ['Q', 'W', 'E', 'R', 'T', 'Y', 'U', 'I', 'O', 'P', '{', '}']⟩,
   ⟨0x1E, ['a', 's', 'd', 'f', 'g', 'h', 'j', 'k', 'l', ';', '\'', '\x60'],
     ['A', 'S', 'D', 'F', 'G', 'H', 'J', 'K', 'L', ':', '"', '~']⟩,
   ⟨0x2B, ['\\', 'z', 'x', 'c', 'v', 'b', 'n', 'm', ',', '.', '/'],
     ['|', 'Z', 'X', 'C', 'V', 'B', 'N', 'M', '<', '>', '?']⟩,
   ⟨0x39, [' '], [' ']⟩]

/-- What the key of this code gives, without shift and with it. -/
def layoutKey (code : UInt8) : Option (Char × Char) :=
  usLayout.findSome? fun row =>
    if row.first ≤ code then (row.plain.zip row.shifted)[(code - row.first).toNat]? else none

/-- The keys without the prefix. -/
def plainMeaning (code : UInt8) : Meaning :=
  match layoutKey code with
  | some (normal, shifted) => if normal.isAlpha then .letter normal else .symbol normal shifted
  | none =>
    if code = 0x1C then .fixed .enter
    else if code = 0x0E then .editing .backspace .wordDeleteLeft
    else if code = 0x0F then .fixed .tab
    else if code = 0x01 then .fixed .escape
    else if 0x3B ≤ code ∧ code ≤ 0x44 then .fixed (.function (code - 0x3A))
    else if code = 0x57 then .fixed (.function 11)
    else if code = 0x58 then .fixed (.function 12)
    else .fixed (.unknown code)

/-- The keys behind the prefix. -/
def extendedMeaning (code : UInt8) : Meaning :=
  if code = 0x48 then .fixed .arrowUp
  else if code = 0x50 then .fixed .arrowDown
  else if code = 0x4B then .editing .arrowLeft .wordLeft
  else if code = 0x4D then .editing .arrowRight .wordRight
  else if code = 0x52 then .fixed .insert
  else if code = 0x53 then .editing .delete .wordDeleteRight
  else if code = 0x47 then .fixed .home
  else if code = 0x4F then .fixed .end
  else if code = 0x49 then .fixed .pageUp
  else if code = 0x51 then .fixed .pageDown
  else .fixed (.unknown code)

def Key.meaning (key : Key) : Meaning :=
  if key.extended then extendedMeaning key.code else plainMeaning key.code

/-- The modifiers in force; either side's key counts. -/
structure Modifiers where
  shift : Bool
  ctrl : Bool
  alt : Bool
  caps : Bool
deriving DecidableEq

/-- The modifiers after these transitions. -/
def modifiers (past : List Transition) : Modifiers where
  shift := held past leftShiftKey || held past rightShiftKey
  ctrl := held past leftCtrlKey || held past rightCtrlKey
  alt := held past leftAltKey || held past rightAltKey
  caps := capsOn past

/-- The class of a character. -/
def Modifiers.classify (m : Modifiers) (character : Char) : KeyEvent :=
  if m.ctrl then if m.alt then .ctrlAlt character else .ctrl character
  else if m.alt then .alt character else .char character

/-- The event of a press under the modifiers: shift and caps lock undo each other for letters,
and caps lock does not count for symbols. -/
def Meaning.event (m : Modifiers) : Meaning → KeyEvent
  | .letter lower => m.classify (if m.shift ^^ m.caps then lower.toUpper else lower)
  | .symbol normal shifted => m.classify (if m.shift then shifted else normal)
  | .fixed event => event
  | .editing event wordEvent => if m.ctrl then wordEvent else event

/-- The event of the next transition. -/
def eventOf (past : List Transition) (t : Transition) : Option KeyEvent :=
  if t.down && !t.key.isModifier then some (t.key.meaning.event (modifiers past)) else none

/-! ## Bytes -/

theorem forall_make {P : UInt8 → Prop} (h : ∀ n < 128, P (UInt8.ofNat n)) {code : UInt8}
    (hcode : code < 0x80) : P code := by
  have hbyte := h code.toNat hcode
  rwa [UInt8.ofNat_toNat] at hbyte

theorem released_make {code : UInt8} (h : code < 0x80) : KeyboardDecoder.released code = false :=
  forall_make (P := fun code => KeyboardDecoder.released code = false) (by decide +kernel) h

theorem released_break {code : UInt8} (h : code < 0x80) :
    KeyboardDecoder.released (code ||| 0x80) = true :=
  forall_make (P := fun code => KeyboardDecoder.released (code ||| 0x80) = true)
    (by decide +kernel) h

theorem codeOf_make {code : UInt8} (h : code < 0x80) : KeyboardDecoder.codeOf code = code :=
  forall_make (P := fun code => KeyboardDecoder.codeOf code = code) (by decide +kernel) h

theorem codeOf_break {code : UInt8} (h : code < 0x80) :
    KeyboardDecoder.codeOf (code ||| 0x80) = code :=
  forall_make (P := fun code => KeyboardDecoder.codeOf (code ||| 0x80) = code)
    (by decide +kernel) h

theorem not_announcement {code : UInt8} (h : code < 0x80) (hne : code ≠ 0x60) :
    code ≠ 0xE0 ∧ code ||| 0x80 ≠ 0xE0 :=
  forall_make (P := fun code => code ≠ 0x60 → code ≠ 0xE0 ∧ code ||| 0x80 ≠ 0xE0)
    (by decide +kernel) h hne

namespace Transition

variable (t : Transition)

theorem released_scancode : KeyboardDecoder.released t.scancode = !t.down := by
  unfold scancode
  cases t.down with
  | true => exact released_make t.key.make
  | false => exact released_break t.key.make

theorem codeOf_scancode : KeyboardDecoder.codeOf t.scancode = t.key.code := by
  unfold scancode
  split
  · exact codeOf_make t.key.make
  · exact codeOf_break t.key.make

theorem scancode_ne : t.scancode ≠ 0xE0 := by
  rcases not_announcement t.key.make t.key.notAnnouncement with ⟨hmake, hbreak⟩
  unfold scancode
  split
  · exact hmake
  · exact hbreak

end Transition

/-! ## One more transition -/

/-- What a transition does to the keys that are down. -/
theorem held_concat (past : List Transition) (t : Transition) (key : Key) :
    held (past ++ [t]) key = if t.key = key then t.down else held past key := by
  unfold held
  rw [List.filter_append]
  by_cases hkey : t.key = key
  · simp [hkey]
  · simp [hkey]

/-- What it does to Caps Lock. -/
theorem capsOn_concat (past : List Transition) (t : Transition) :
    capsOn (past ++ [t]) =
      if t.key = capsLockKey then capsOn past ^^ t.down else capsOn past := by
  unfold capsOn
  rw [List.countP_append, List.countP_singleton]
  by_cases hkey : t.key = capsLockKey
  · rcases Nat.mod_two_eq_zero_or_one (past.countP fun t => t.key = capsLockKey && t.down) with
      heven | hodd
    · cases t.down <;> simp [hkey, Nat.add_mod, heven]
    · cases t.down <;> simp [hkey, Nat.add_mod, hodd]
  · simp [hkey]

/-- A transition changes the flag of its own key. -/
theorem tracked_concat (past : List Transition) (t : Transition) :
    tracked (past ++ [t]) =
      if t.key = leftShiftKey then { tracked past with leftShift := t.down }
      else if t.key = rightShiftKey then { tracked past with rightShift := t.down }
      else if t.key = leftCtrlKey then { tracked past with leftCtrl := t.down }
      else if t.key = leftAltKey then { tracked past with leftAlt := t.down }
      else if t.key = capsLockKey then { tracked past with capsLock := capsOn past ^^ t.down }
      else if t.key = rightCtrlKey then { tracked past with rightCtrl := t.down }
      else if t.key = rightAltKey then { tracked past with rightAlt := t.down }
      else tracked past := by
  rcases t with ⟨key, down⟩
  simp only [tracked, held_concat, capsOn_concat]
  -- a key that is one of them is none of the others
  by_cases h₁ : key = leftShiftKey
  · rw [h₁]
    rfl
  by_cases h₂ : key = rightShiftKey
  · rw [h₂]
    rfl
  by_cases h₃ : key = leftCtrlKey
  · rw [h₃]
    rfl
  by_cases h₄ : key = leftAltKey
  · rw [h₄]
    rfl
  by_cases h₅ : key = capsLockKey
  · rw [h₅]
    rfl
  by_cases h₆ : key = rightCtrlKey
  · rw [h₆]
    rfl
  by_cases h₇ : key = rightAltKey
  · rw [h₇]
    rfl
  simp only [h₁, h₂, h₃, h₄, h₅, h₆, h₇, if_false]

theorem tracked_concat_other {past : List Transition} {t : Transition}
    (h : t.key.isModifier = false) : tracked (past ++ [t]) = tracked past := by
  simp only [Key.isModifier, List.contains_cons, List.contains_nil, Bool.or_false,
    Bool.or_eq_false_iff, beq_eq_false_iff_ne] at h
  rcases h with ⟨h₁, h₂, h₃, h₄, h₅, h₆, h₇⟩
  rw [tracked_concat]
  simp only [h₁, h₂, h₃, h₄, h₅, h₆, h₇, if_false]

/-! ## The decoder's classes and the key table -/

section Events

variable (past : List Transition)

/-- The flags of the decoder are the modifiers that are down. -/
theorem classifyChar_tracked (character : Char) :
    (tracked past).classifyChar character = (modifiers past).classify character := by
  unfold KeyboardDecoder.classifyChar Modifiers.classify
  have hctrl : (tracked past).ctrlActive = (modifiers past).ctrl := rfl
  have halt : (tracked past).altActive = (modifiers past).alt := rfl
  rw [hctrl, halt]
  cases (modifiers past).ctrl <;> cases (modifiers past).alt <;> rfl

/-- The tables of the decoder are the layout. -/
theorem tables_layout (code : UInt8) :
    decodeLetter code = ((layoutKey code).filter (·.1.isAlpha)).map (·.1) ∧
      decodeSymbolPair code = (layoutKey code).filter (!·.1.isAlpha) := by
  have hall : ∀ n < 256,
      decodeLetter (UInt8.ofNat n) =
          ((layoutKey (UInt8.ofNat n)).filter (·.1.isAlpha)).map (·.1) ∧
        decodeSymbolPair (UInt8.ofNat n) =
          (layoutKey (UInt8.ofNat n)).filter (!·.1.isAlpha) := by decide +kernel
  have hcode := hall code.toNat code.toNat_lt
  rwa [UInt8.ofNat_toNat] at hcode

/-- The keys without the prefix, under these modifiers. -/
theorem decodePressed_tracked (code : UInt8) :
    (tracked past).decodePressed code code = (plainMeaning code).event (modifiers past) := by
  have hshift : (tracked past).shiftActive = (modifiers past).shift := rfl
  have hcaps : (tracked past).capsLock = (modifiers past).caps := rfl
  have hctrl : (tracked past).ctrlActive = (modifiers past).ctrl := rfl
  rcases tables_layout code with ⟨hletter, hsymbol⟩
  unfold KeyboardDecoder.decodePressed plainMeaning
  rw [hletter, hsymbol]
  -- a letter, a symbol, or one of the keys with an event of its own
  cases layoutKey code with
  | some pair =>
    rcases pair with ⟨normal, shifted⟩
    cases halpha : normal.isAlpha with
    | true => simp [Option.filter, halpha, Meaning.event, classifyChar_tracked, hshift, hcaps]
    | false => simp [Option.filter, halpha, Meaning.event, classifyChar_tracked, hshift]
  | none =>
    simp only [Option.filter_none, Option.map_none, KeyboardDecoder.decodeSpecial, hctrl,
      apply_ite (Meaning.event (modifiers past))]
    simp only [Meaning.event]

/-- The keys behind the prefix. -/
theorem decodeExtendedPressed_tracked (code : UInt8) :
    (tracked past).decodeExtendedPressed code code =
      (extendedMeaning code).event (modifiers past) := by
  have hctrl : (tracked past).ctrlActive = (modifiers past).ctrl := rfl
  simp only [KeyboardDecoder.decodeExtendedPressed, extendedMeaning, hctrl,
    apply_ite (Meaning.event (modifiers past))]
  simp only [Meaning.event]

end Events

/-! ## The decoder along with the keyboard -/

/-- The event of a transition of a key that is no modifier. -/
theorem eventOf_other (past : List Transition) {t : Transition} (h : t.key.isModifier = false) :
    eventOf past t = if t.down then some (t.key.meaning.event (modifiers past)) else none := by
  simp [eventOf, h]

theorem eventOf_modifier (past : List Transition) {t : Transition} (h : t.key.isModifier = true) :
    eventOf past t = none := by
  simp [eventOf, h]

/-- The step of the tracking for a byte without the prefix. -/
theorem decodePlain_tracked (past : List Transition) {t : Transition}
    (hplain : t.key.extended = false) :
    (tracked past).decodePlain t.scancode = (eventOf past t, tracked (past ++ [t])) := by
  rcases t with ⟨⟨extended, code, hmake, hne⟩, down⟩
  simp only at hplain
  subst hplain
  unfold KeyboardDecoder.decodePlain
  simp only [Transition.released_scancode, Transition.codeOf_scancode, Bool.not_not]
  -- one case for each modifier on the plain codes
  by_cases h₁ : code = 0x2A
  · subst h₁
    rw [eventOf_modifier past rfl, tracked_concat]
    rfl
  by_cases h₂ : code = 0x36
  · subst h₂
    rw [eventOf_modifier past rfl, tracked_concat]
    rfl
  by_cases h₃ : code = 0x1D
  · subst h₃
    rw [eventOf_modifier past rfl, tracked_concat]
    rfl
  by_cases h₄ : code = 0x38
  · subst h₄
    rw [eventOf_modifier past rfl, tracked_concat]
    rfl
  by_cases h₅ : code = 0x3A
  · -- caps lock changes with a press only
    subst h₅
    rw [eventOf_modifier past rfl, tracked_concat]
    cases down <;> simp [leftShiftKey, rightShiftKey, leftCtrlKey, leftAltKey, capsLockKey, tracked]
  have hother : Key.isModifier ⟨false, code, hmake, hne⟩ = false := by
    simp [Key.isModifier, leftShiftKey, rightShiftKey, leftCtrlKey, rightCtrlKey, leftAltKey,
      rightAltKey, capsLockKey, h₁, h₂, h₃, h₄, h₅]
  rw [eventOf_other past hother, tracked_concat_other hother]
  simp only [h₁, h₂, h₃, h₄, h₅, if_false]
  cases down with
  | false => rfl
  | true =>
    have hpressed := decodePressed_tracked past code
    simp only [Bool.not_true, Bool.false_eq_true, if_false, if_true, Key.meaning]
    exact congrArg (fun event => (some event, tracked past)) hpressed

/-- The step for the byte behind the prefix. -/
theorem decodeExtended_tracked (past : List Transition) {t : Transition}
    (hextended : t.key.extended = true) :
    (tracked past).decodeExtended t.scancode = (eventOf past t, tracked (past ++ [t])) := by
  rcases t with ⟨⟨extended, code, hmake, hne⟩, down⟩
  simp only at hextended
  subst hextended
  unfold KeyboardDecoder.decodeExtended
  simp only [Transition.released_scancode, Transition.codeOf_scancode, Bool.not_not]
  by_cases h₁ : code = 0x1D
  · subst h₁
    rw [eventOf_modifier past rfl, tracked_concat]
    rfl
  by_cases h₂ : code = 0x38
  · subst h₂
    rw [eventOf_modifier past rfl, tracked_concat]
    rfl
  -- the codes of the other modifiers are other keys here
  have hother : Key.isModifier ⟨true, code, hmake, hne⟩ = false := by
    simp [Key.isModifier, leftShiftKey, rightShiftKey, leftCtrlKey, rightCtrlKey, leftAltKey,
      rightAltKey, capsLockKey, h₁, h₂]
  rw [eventOf_other past hother, tracked_concat_other hother]
  simp only [h₁, h₂, if_false]
  cases down with
  | false => rfl
  | true =>
    have hpressed := decodeExtendedPressed_tracked past code
    simp only [Bool.not_true, Bool.false_eq_true, if_false, if_true, Key.meaning]
    exact congrArg (fun event => (some event, tracked past)) hpressed

/-- The bytes of one transition: its event, and the decoder in step again. -/
theorem feed_transition (past : List Transition) (t : Transition) :
    events (tracked past) t.encode = (eventOf past t).toList ∧
      decoder.run (tracked past) t.encode = tracked (past ++ [t]) := by
  have hne := t.scancode_ne
  cases hkey : t.key.extended with
  | false =>
    have hfeed : (tracked past).feed t.scancode = (eventOf past t, tracked (past ++ [t])) := by
      rw [KeyboardDecoder.feed, if_neg hne]
      exact decodePlain_tracked past hkey
    simp only [Transition.encode, hkey, events, Mealy.trace_cons, Mealy.trace_nil, Mealy.run_cons,
      Mealy.run_nil, decoder_next, hfeed, Bool.false_eq_true, if_false]
    cases eventOf past t <;> simp
  | true =>
    -- the announcement is remembered for exactly one byte
    have hfeed : ({ tracked past with extended := true }.feed t.scancode) =
        (eventOf past t, tracked (past ++ [t])) := by
      rw [KeyboardDecoder.feed, if_neg hne]
      exact decodeExtended_tracked past hkey
    have hannounced : (tracked past).feed 0xE0 = (none, { tracked past with extended := true }) :=
      rfl
    simp only [Transition.encode, hkey, events, Mealy.trace_cons, Mealy.trace_nil, Mealy.run_cons,
      Mealy.run_nil, decoder_next, hannounced, hfeed, if_true]
    cases eventOf past t <;> simp

/-- The bytes of a list of transitions. -/
def encodeAll (ts : List Transition) : List UInt8 := ts.flatMap Transition.encode

/-- **Run.** The decoder behind the bytes of some transitions. -/
theorem run_encodeAll (ts past : List Transition) :
    decoder.run (tracked past) (encodeAll ts) = tracked (past ++ ts) := by
  induction ts generalizing past with
  | nil => simp [encodeAll]
  | cons t ts ih =>
    have hstep := (feed_transition past t).2
    unfold encodeAll at ih ⊢
    rw [List.flatMap_cons, Mealy.run_append, hstep, ih, List.append_assoc, List.singleton_append]

/-- **Decoding.** After every list of transitions the decoder is not in the middle of a key,
its modifier flags say which of the modifiers are down and whether caps lock is on; and the
next transition gives the event of its key under these modifiers, or none. -/
theorem decoder_tracks_keyboard (past : List Transition) :
    decoder.run KeyboardDecoder.new (encodeAll past) = tracked past ∧
      ∀ t, events (decoder.run KeyboardDecoder.new (encodeAll past)) t.encode =
        (eventOf past t).toList := by
  have hrun : decoder.run KeyboardDecoder.new (encodeAll past) = tracked past :=
    run_encodeAll past []
  refine ⟨hrun, ?_⟩
  intro t
  rw [hrun]
  exact (feed_transition past t).1

end JingOS.Keyboard
