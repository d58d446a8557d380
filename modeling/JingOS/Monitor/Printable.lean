import JingOS.Monitor.Rounds

/-!
# What is typed is printable

The decoder of the keyboard and the serial port make characters from 0x20 to 0x7E only, and so
every text of the monitor consists of such bytes: the line, and the lines that are kept.

* `LoopEvent.Emitted` — the keys that the two sources can give;
* `Desk.Printable` — the invariant.
-/

namespace JingOS.Monitor

open Ascii Checked Hoare Text
open JingOS.Keyboard JingOS.Keyboard.KeyboardDecoder

/-! ## Keys -/

/-- A character on the screen. -/
def PrintableChar (c : Char) : Prop := 0x20 ≤ c.toNat ∧ c.toNat ≤ 0x7e

instance (c : Char) : Decidable (PrintableChar c) := inferInstanceAs (Decidable (_ ∧ _))

/-- A text of such characters. -/
def PrintableString (text : String) : Prop := ∀ c ∈ text.toList, PrintableChar c

instance (text : String) : Decidable (PrintableString text) :=
  decidable_of_iff (text.toList.all fun c => decide (PrintableChar c)) (by
    simp only [PrintableString, List.all_eq_true, decide_eq_true_eq])

theorem PrintableString.append {text text' : String} (h : PrintableString text)
    (h' : PrintableString text') : PrintableString (text ++ text') := by
  intro c hc
  rw [String.toList_append] at hc
  rcases List.mem_append.mp hc with hc | hc
  · exact h c hc
  · exact h' c hc

theorem PrintableString.singleton {c : Char} (h : PrintableChar c) :
    PrintableString (String.singleton c) := by
  intro c' hc'
  rw [String.toList_singleton, List.mem_singleton] at hc'
  rw [hc']
  exact h

theorem PrintableString.ofList {chars : List Char}
    (h : (chars.all fun c => decide (PrintableChar c)) = true) :
    PrintableString (String.ofList chars) := by
  intro c hc
  rw [String.toList_ofList] at hc
  exact of_decide_eq_true (List.all_eq_true.mp h c hc)

/-- The characters of a key. -/
def KeyPrintable : KeyEvent → Prop
  | .char c => PrintableChar c
  | .ctrl c => PrintableChar c
  | .alt c => PrintableChar c
  | .ctrlAlt c => PrintableChar c
  | _ => True

/-- A round with a key of the keyboard or of the serial port. -/
def LoopEvent.Emitted : LoopEvent → Prop
  | .key scancode event =>
    (∃ d : KeyboardDecoder, (d.feed scancode).1 = some event) ∨
      serialByteToKeyEvent scancode = some event
  | .tick _ => True

theorem mem_of_lookup {α : Type} {table : List (UInt8 × α)} {code : UInt8} {a : α}
    (h : table.lookup code = some a) : (code, a) ∈ table := by
  rcases List.lookup_eq_some_iff.mp h with ⟨front, back, rfl, _⟩
  exact List.mem_append_right _ List.mem_cons_self

theorem letter_printable {code : UInt8} {letter : Char} (h : decodeLetter code = some letter) :
    PrintableChar letter ∧ PrintableChar letter.toUpper := by
  have hall : (letterTable.all fun row =>
      decide (PrintableChar row.2) && decide (PrintableChar row.2.toUpper)) = true := by decide
  have hrow := List.all_eq_true.mp hall _ (mem_of_lookup h)
  rw [Bool.and_eq_true, decide_eq_true_eq, decide_eq_true_eq] at hrow
  exact hrow

theorem symbol_printable {code : UInt8} {pair : Char × Char} (h : decodeSymbolPair code = some pair) :
    PrintableChar pair.1 ∧ PrintableChar pair.2 := by
  have hall : (symbolTable.all fun row =>
      decide (PrintableChar row.2.1) && decide (PrintableChar row.2.2)) = true := by decide
  have hrow := List.all_eq_true.mp hall _ (mem_of_lookup h)
  rw [Bool.and_eq_true, decide_eq_true_eq, decide_eq_true_eq] at hrow
  exact hrow

theorem classifyChar_printable (d : KeyboardDecoder) {c : Char} (h : PrintableChar c) :
    KeyPrintable (d.classifyChar c) := by
  unfold classifyChar
  split <;> exact h

theorem KeyPrintable.ite {p : Prop} [Decidable p] {event event' : KeyEvent}
    (h : KeyPrintable event) (h' : KeyPrintable event') :
    KeyPrintable (if p then event else event') := by
  split
  · exact h
  · exact h'

/-- The other keys have no character. -/
theorem decodeSpecial_printable (d : KeyboardDecoder) (scancode code : UInt8) :
    KeyPrintable (d.decodeSpecial scancode code) :=
  .ite trivial <| .ite (.ite trivial trivial) <| .ite trivial <| .ite trivial <|
    .ite trivial <| .ite trivial <| .ite trivial trivial

theorem decodeExtendedPressed_printable (d : KeyboardDecoder) (scancode code : UInt8) :
    KeyPrintable (d.decodeExtendedPressed scancode code) :=
  .ite trivial <| .ite trivial <| .ite (.ite trivial trivial) <| .ite (.ite trivial trivial) <|
    .ite trivial <| .ite (.ite trivial trivial) <| .ite trivial <| .ite trivial <|
      .ite trivial <| .ite trivial trivial

theorem decodePressed_printable (d : KeyboardDecoder) (scancode code : UInt8) :
    KeyPrintable (d.decodePressed scancode code) := by
  unfold decodePressed
  split
  · next letter hletter =>
    rcases letter_printable hletter with ⟨hlower, hupper⟩
    apply classifyChar_printable
    split
    · exact hupper
    · exact hlower
  · split
    · next normal shifted hpair =>
      rcases symbol_printable hpair with ⟨hnormal, hshifted⟩
      apply classifyChar_printable
      split
      · exact hshifted
      · exact hnormal
    · exact decodeSpecial_printable d scancode code

/-- The decoder makes printable characters only. -/
theorem feed_printable {d : KeyboardDecoder} {scancode : UInt8} {event : KeyEvent}
    (h : (d.feed scancode).1 = some event) : KeyPrintable event := by
  unfold feed at h
  split at h
  · cases h
  split at h
  · unfold decodeExtended at h
    dsimp only at h
    split_ifs at h
    cases h
    exact decodeExtendedPressed_printable _ _ _
  · unfold decodePlain at h
    dsimp only at h
    split_ifs at h
    all_goals cases h
    exact decodePressed_printable d _ _

theorem serialByteToKeyEvent_keyPrintable {byte : UInt8} {event : KeyEvent}
    (h : serialByteToKeyEvent byte = some event) : KeyPrintable event := by
  unfold serialByteToKeyEvent at h
  split_ifs at h with _ _ _ _ hbyte
  all_goals cases h
  all_goals try exact trivial
  change PrintableChar (byteChar byte)
  have hlt : byte < 0x80 := UInt8.lt_of_le_of_lt hbyte.2 (by decide)
  unfold PrintableChar
  rw [toNat_byteChar hlt]
  exact ⟨UInt8.le_iff_toNat_le.mp hbyte.1, UInt8.le_iff_toNat_le.mp hbyte.2⟩

theorem LoopEvent.Emitted.printable {scancode : UInt8} {event : KeyEvent}
    (h : (LoopEvent.key scancode event).Emitted) : KeyPrintable event := by
  rcases h with ⟨d, hfeed⟩ | hserial
  · exact feed_printable hfeed
  · exact serialByteToKeyEvent_keyPrintable hserial

/-! ## Texts -/

/-- A text of such bytes. -/
def PrintableText (text : List UInt8) : Prop := ∀ byte ∈ text, 0x20 ≤ byte ∧ byte ≤ 0x7E

theorem PrintableText.append {text text' : List UInt8} (h : PrintableText text)
    (h' : PrintableText text') : PrintableText (text ++ text') := by
  intro byte hbyte
  rcases List.mem_append.mp hbyte with hbyte | hbyte
  · exact h byte hbyte
  · exact h' byte hbyte

theorem PrintableText.of_subset {text text' : List UInt8} (h : PrintableText text)
    (hsubset : text' ⊆ text) : PrintableText text' := fun byte hbyte => h byte (hsubset hbyte)

theorem charByte_printable {c : Char} (h : PrintableChar c) : PrintableText [charByte c] := by
  intro byte hbyte
  rw [List.mem_singleton] at hbyte
  subst hbyte
  have hbyte : (charByte c).toNat = c.toNat :=
    UInt8.toNat_ofNat_of_lt' (Nat.lt_of_le_of_lt h.2 (by decide))
  rw [UInt8.le_iff_toNat_le, UInt8.le_iff_toNat_le, hbyte]
  exact h

/-- The characters of a printable text. -/
theorem PrintableText.chars {text : List UInt8} (h : PrintableText text) :
    PrintableString (asciiText text) := by
  intro c hc
  rw [toList_asciiText] at hc
  rcases List.mem_map.mp hc with ⟨byte, hbyte, rfl⟩
  have hlt : byte < 0x80 := UInt8.lt_of_le_of_lt (h byte hbyte).2 (by decide)
  unfold PrintableChar
  rw [toNat_byteChar hlt]
  exact ⟨UInt8.le_iff_toNat_le.mp (h byte hbyte).1, UInt8.le_iff_toNat_le.mp (h byte hbyte).2⟩

namespace Editor

variable {e : Editor}

theorem splice_printable (h : PrintableText e.text) {source : List UInt8}
    (hsource : PrintableText source) : PrintableText (e.splice source).text :=
  ((h.of_subset (List.take_subset _ _)).append hsource).append (h.of_subset (List.drop_subset _ _))

theorem overwrite_printable (h : PrintableText e.text) {byte : UInt8}
    (hbyte : PrintableText [byte]) : PrintableText (e.overwrite byte).text := by
  have hrest : PrintableText e.after.tail :=
    (h.of_subset (List.drop_subset _ _)).of_subset (List.tail_subset _)
  exact (h.of_subset (List.take_subset _ _)).append (hbyte.append hrest)

theorem cut_printable (h : PrintableText e.text) (start stop : ℕ) :
    PrintableText (e.cut start stop).text :=
  (h.of_subset (List.take_subset _ _)).append (h.of_subset (List.drop_subset _ _))

end Editor

/-! ## The desk -/

namespace Desk

structure Printable (d : Desk) : Prop where
  text : PrintableText d.editor.text
  lines : ∀ line ∈ d.recalled.lines, PrintableText line

variable {d : Desk}

theorem edit_printable (h : d.Printable) {op : LineOp} {refused : String}
    (hop : ∀ editor ∈ d.editor.step op, PrintableText editor.text) :
    (d.edit op refused).1.Printable := by
  unfold edit
  cases hstep : d.editor.step op with
  | none => exact h
  | some editor => exact ⟨hop editor hstep, h.lines⟩

theorem move_printable (h : d.Printable) {op : LineOp}
    (hop : ∀ editor ∈ d.editor.step op, PrintableText editor.text) : (d.move op).1.Printable := by
  unfold move
  cases hstep : d.editor.step op with
  | none => exact h
  | some editor => exact ⟨hop editor hstep, h.lines⟩

/-- An operation that is refused in one case, and has a printable result in the other. -/
theorem guarded_printable {e : Editor} {op : LineOp} {refused : Prop} [Decidable refused]
    {result : Editor} (hstep : e.step op = if refused then none else some result)
    (hresult : PrintableText result.text) : ∀ editor ∈ e.step op, PrintableText editor.text := by
  intro editor heditor
  rw [hstep] at heditor
  by_cases hrefused : refused
  · rw [if_pos hrefused] at heditor
    cases heditor
  · rw [if_neg hrefused] at heditor
    cases heditor
    exact hresult

theorem insert_printable (h : d.Printable) {c : Char} (hc : PrintableChar c) (mode : Bool) :
    ∀ editor ∈ d.editor.step (.insertOrOverwriteChar c mode), PrintableText editor.text := by
  intro editor heditor
  unfold Editor.step Editor.insertion at heditor
  dsimp only at heditor
  split_ifs at heditor
  · cases heditor
    exact Editor.overwrite_printable h.text (charByte_printable hc)
  · cases heditor
  · cases heditor
    exact Editor.splice_printable h.text (charByte_printable hc)
  · cases heditor

theorem complete_printable (h : d.Printable) (hcursor : d.editor.cursor ≤ d.editor.text.length) :
    d.complete.1.Printable := by
  rcases d.complete_cases with heq | ⟨command, hcommand, _, _, hlonger, heq⟩ | heq
  · rw [heq]
    exact h
  · rw [heq]
    rcases step_suffixOf hcursor hcommand hlonger with ⟨source, hsource, _, hstep⟩
    apply move_printable h
    rw [hstep]
    rintro _ ⟨⟩
    refine Editor.splice_printable h.text fun byte hbyte => ?_
    exact ⟨UInt8.le_of_lt (hsource byte hbyte).1, (hsource byte hbyte).2⟩
  · rw [heq]
    exact ⟨h.text, h.lines⟩

/-- What is recalled was kept. -/
theorem load_printable (h : d.Printable) {recalled : Recall} (hlines : recalled.lines = d.recalled.lines) :
    ({ d with recalled }.load (recalled.shown.getD [])).drawn.Printable := by
  refine ⟨?_, ?_⟩
  · change PrintableText (recalled.shown.getD [])
    cases hshown : recalled.shown with
    | none => exact fun _ hbyte => absurd hbyte List.not_mem_nil
    | some text =>
      apply h.lines
      rw [← hlines]
      unfold Recall.shown at hshown
      rcases Option.bind_eq_some_iff.mp hshown with ⟨age, _, hage⟩
      exact List.mem_of_getElem? hage
  · change ∀ line ∈ recalled.lines, PrintableText line
    rw [hlines]
    exact h.lines

/-- **Step.** A key keeps the texts printable. -/
theorem key_printable (h : d.Printable) (hcursor : d.editor.cursor ≤ d.editor.text.length)
    (scancode : UInt8) {event : KeyEvent} (hevent : KeyPrintable event) :
    (d.key scancode event).1.Printable := by
  have hsame : ∀ {cursor : ℕ}, PrintableText { d.editor with cursor }.text := h.text
  have hcut : ∀ {start stop : ℕ}, PrintableText (d.editor.cut start stop).text :=
    Editor.cut_printable h.text _ _
  cases event with
  | char c => exact edit_printable h (insert_printable h hevent _)
  | ctrl c => exact h
  | alt c => exact h
  | ctrlAlt c => exact h
  | enter => exact h
  | backspace => exact edit_printable h (guarded_printable rfl hcut)
  | tab => exact complete_printable h hcursor
  | escape => exact h
  | arrowUp =>
    change d.older.1.Printable
    unfold older
    split
    · exact h
    · refine load_printable h ?_
      unfold Recall.previous
      split <;> rfl
  | arrowDown =>
    refine load_printable h ?_
    unfold Recall.next
    split <;> rfl
  | arrowLeft => exact move_printable h (guarded_printable rfl hsame)
  | arrowRight => exact move_printable h (guarded_printable rfl hsame)
  | wordLeft => exact move_printable h (guarded_printable rfl hsame)
  | wordRight => exact move_printable h (guarded_printable rfl hsame)
  | insert => exact ⟨h.text, h.lines⟩
  | delete => exact edit_printable h (guarded_printable rfl hcut)
  | wordDeleteLeft => exact edit_printable h (guarded_printable rfl hcut)
  | wordDeleteRight => exact edit_printable h (guarded_printable rfl hcut)
  | home => exact move_printable h (guarded_printable rfl hsame)
  | «end» => exact move_printable h (guarded_printable rfl hsame)
  | pageUp => exact h
  | pageDown => exact h
  | function number => exact h
  | unknown code => exact h

/-- So does an event with what follows it. -/
theorem after_printable (h : d.Printable) (hcursor : d.editor.cursor ≤ d.editor.text.length)
    (left : Bool) {event : LoopEvent} (hevent : event.Emitted) : (d.after left event).Printable := by
  cases event with
  | tick now => exact h
  | key scancode event =>
    by_cases henter : event = .enter
    · subst henter
      have hlines : ∀ line ∈ (d.recalled.push d.editor.text).lines, PrintableText line := by
        unfold Recall.push
        split
        · exact h.lines
        split
        · exact h.lines
        · intro line hline
          rcases List.mem_cons.mp (List.mem_of_mem_take hline) with rfl | hline
          · exact h.text
          · exact h.lines line hline
      have hempty : PrintableText [] := fun _ hbyte => absurd hbyte List.not_mem_nil
      cases left
      · exact ⟨hempty, hlines⟩
      · exact ⟨hempty, hlines⟩
    · rw [after_key _ _ _ henter]
      exact key_printable h hcursor scancode hevent.printable

end Desk

/-- Only printable texts come up in a run with the keys of the machine. -/
theorem reachable_printable {boot : Boot} (hboot : boot.Successful) {s : Loop}
    (hs : Loop.Reachable boot (fun _ event => event.Emitted) s) :
    s.WellFormed ∧ s.desk.Printable := by
  refine hs.induct hboot (fun w => ⟨?_, ?_⟩) ?_
  · exact fun _ hbyte => absurd hbyte List.not_mem_nil
  · exact fun _ hline => absurd hline List.not_mem_nil
  · intro s event hwf h hevent
    exact Desk.after_printable h (InputLine.cursor_le_text hwf.line) false hevent

end JingOS.Monitor
