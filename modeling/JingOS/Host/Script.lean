import JingOS.Lib.Ascii
import JingOS.Lib.Text
import JingOS.Lib.U64

/-!
# Serial scripts (`src/main.rs`)

The runner on the host reads a script and sends it to the serial port of the guest. A line of
the script is a list of characters here; `exit(1)`, with the message before it, is an error.

* `loadSerialScript` — the actions of a script;
* `ScriptText` — a line that stands for itself;
* `loadSerialScript_eq` — a script of such lines sends each of them, with a carriage return.
-/

namespace JingOS.Host

open Ascii Text

/-- `SerialScriptAction`. -/
inductive SerialScriptAction where
  | send (bytes : List UInt8)
  | sleepMs (milliseconds : UInt64)
deriving DecidableEq, Repr

/-- `parse_sleep_directive`. -/
def parseSleepDirective (path : String) (lineNumber : ℕ) (directive : String) (value : List Char)
    (scaleMs : UInt64) : Except String SerialScriptAction :=
  let shown := String.ofList value
  match fromStrRadix shown 10 with
  | some number => pure (.sleepMs (U64.saturatingMul number scaleMs))
  | none => .error
      s!"invalid sleep value in `{path}` at line {lineNumber} for `{directive}`: {shown}"

/-- The loop of `strip_inline_comment`: the text before the first `#` that stands at the beginning
or behind white space. It looks at bytes; a `#` is one byte, and the last byte of a character
that has several is not white space. -/
def beforeComment (previous : Option Char) : List Char → Option (List Char)
  | [] => none
  | c :: rest =>
    if c = '#' ∧ previous.all fun p => isAsciiChar p && isAsciiWhitespace (charByte p) then some []
    else (beforeComment (some c) rest).map (c :: ·)

/-- Without the comment and what is blank before it. -/
def stripInlineComment (line : List Char) : List Char :=
  match beforeComment none line with
  | some front => trimEnd front
  | none => line

/-- Where there is no carriage return, the line feeds become some. -/
def normalizeRawScriptBytes (bytes : List UInt8) : List UInt8 :=
  if bytes.contains 0x0D then bytes
  else bytes.map fun byte => if byte = 0x0A then 0x0D else byte

/-- The directives, in the order in which they are tried, each with its scale. -/
def sleepDirectives : List (String × UInt64) := [("sleep", 1), ("sleep_ms", 1), ("sleep_s", 1000)]

/-- One directive: what follows its name and a blank is the value. -/
def sleepDirective (path : String) (lineNumber : ℕ) (line : List Char)
    (directive : String × UInt64) : Option (Except String SerialScriptAction) :=
  ((directive.1 ++ " ").toList.isPrefixOf? line).map fun value =>
    parseSleepDirective path lineNumber directive.1 (trim value) directive.2

/-- The body of the loop of `load_serial_script`: a comment or an empty line is no action. -/
def lineAction (path : String) (lineNumber : ℕ) (rawLine : List Char) :
    Except String (Option SerialScriptAction) :=
  let trimmedLine := trim rawLine
  if trimmedLine.isEmpty || trimmedLine.head? == some '#' then pure none
  else
    let line := trim (stripInlineComment trimmedLine)
    if line.isEmpty then pure none
    else
      match sleepDirectives.findSome? (sleepDirective path lineNumber line) with
      | some action => some <$> action
      | none => pure (some (.send (textBytes (String.ofList line) ++ [0x0D])))

/-- The loop of `load_serial_script`. -/
def scriptLoop (path : String) : ℕ → List (List Char) → Except String (List SerialScriptAction)
  | _, [] => pure []
  | lineNumber, rawLine :: rest => do
    let action ← lineAction path lineNumber rawLine
    let actions ← scriptLoop path (lineNumber + 1) rest
    pure (action.toList ++ actions)

/-- `load_serial_script`; `content` is what reading the file gives. -/
def loadSerialScript (path : String) (content : Except String (List UInt8)) :
    Except String (List SerialScriptAction) :=
  match content with
  | .error error => .error s!"failed to read serial script `{path}`: {error}"
  | .ok bytes =>
    match String.fromUTF8? ⟨bytes.toArray⟩ with
    -- what is no text is sent as it is
    | none => pure [.send (normalizeRawScriptBytes bytes)]
    | some text => do
      let actions ← scriptLoop path 1 (lines text.toList)
      if actions.isEmpty then .error s!"serial script `{path}` has no executable actions"
      else pure actions

/-! ## Lines that stand for themselves -/

/-- A command of a script: printable ASCII without blanks at its ends, without a comment, and not
a directive. -/
structure ScriptText (text : List UInt8) : Prop where
  ne_nil : text ≠ []
  printable : ∀ byte ∈ text, 0x20 ≤ byte ∧ byte ≤ 0x7E
  head : text.head? ≠ some 0x20
  last : text.getLast? ≠ some 0x20
  noComment : text.head? ≠ some 0x23 ∧ ¬ [0x20, 0x23] <:+: text
  noDirective : ∀ directive ∈ ["sleep ", "sleep_ms ", "sleep_s "], ¬ textBytes directive <+: text

theorem ScriptText.ascii {text : List UInt8} (h : ScriptText text) : ∀ byte ∈ text, byte < 0x80 :=
  fun byte hbyte => UInt8.lt_of_le_of_lt (h.printable byte hbyte).2 (by decide)

/-- The file of a script: its texts, joined by newlines. -/
def scriptFile (texts : List (List UInt8)) : List UInt8 := [0x0A].intercalate texts

/-- The bytes that a script sends. -/
def sentBytes (actions : List SerialScriptAction) : List UInt8 :=
  actions.flatMap fun
    | .send bytes => bytes
    | .sleepMs _ => []

/-- The only printable byte that is white space is the blank. -/
theorem eq_blank {byte : UInt8} (h : 0x20 ≤ byte) (hspace : isAsciiWhitespace byte = true) :
    byte = 0x20 := by
  unfold isAsciiWhitespace at hspace
  simp only [Bool.or_eq_true, beq_iff_eq] at hspace
  rcases hspace with (((rfl | rfl) | rfl) | rfl) | rfl
  · rfl
  all_goals exact absurd h (by decide)

theorem lt_of_printable {byte : UInt8} (h : 0x20 ≤ byte ∧ byte ≤ 0x7E) : byte < 0x80 :=
  UInt8.lt_of_le_of_lt h.2 (by decide)

/-- A mark that is not at the beginning, and not behind a blank, begins no comment. -/
theorem beforeComment_eq_none {text : List UInt8}
    (hprintable : ∀ byte ∈ text, 0x20 ≤ byte ∧ byte ≤ 0x7E)
    (hcomment : ¬ [0x20, 0x23] <:+: text) {previous : Option UInt8}
    (hprevious : ∀ byte ∈ previous, 0x20 ≤ byte ∧ byte ≤ 0x7E)
    (hstart : text.head? = some 0x23 → previous ≠ none ∧ previous ≠ some 0x20) :
    beforeComment (previous.map byteChar) (text.map byteChar) = none := by
  induction text generalizing previous with
  | nil => rfl
  | cons byte rest ih =>
    have hbyte := hprintable byte List.mem_cons_self
    have hmark : ¬ (byteChar byte = '#' ∧ (previous.map byteChar).all fun p =>
        isAsciiChar p && isAsciiWhitespace (charByte p)) := by
      rintro ⟨hmark, hspace⟩
      have hbyte' : byte = 0x23 := by
        rw [← charByte_byteChar (lt_of_printable hbyte), hmark]
        rfl
      rcases hstart (congrArg some hbyte') with ⟨hsome, hblank⟩
      rcases Option.ne_none_iff_exists'.mp hsome with ⟨p, rfl⟩
      have hp := hprevious p rfl
      rw [Option.map_some, Option.all_some, Bool.and_eq_true,
        charByte_byteChar (lt_of_printable hp)] at hspace
      exact hblank (congrArg some (eq_blank hp.1 hspace.2))
    rw [List.map_cons, beforeComment, if_neg hmark, Option.map_eq_none_iff]
    change beforeComment ((some byte).map byteChar) (rest.map byteChar) = none
    refine ih (fun c hc => hprintable c (List.mem_cons_of_mem _ hc)) ?_ ?_ ?_
    · exact fun hinside => hcomment (hinside.trans (List.suffix_cons byte rest).isInfix)
    · rintro _ ⟨⟩
      exact hbyte
    · intro hhead
      refine ⟨by simp, ?_⟩
      rintro ⟨⟩
      -- a blank and a mark behind it
      rcases rest with _ | ⟨mark, rest⟩
      · cases hhead
      · cases hhead
        exact hcomment ⟨[], rest, rfl⟩

/-- A text is not trimmed, and holds no line feed and no carriage return. -/
theorem isUnicodeWhitespace_byteChar {byte : UInt8} (h : 0x20 ≤ byte ∧ byte ≤ 0x7E)
    (hblank : byte ≠ 0x20) : isUnicodeWhitespace (byteChar byte) = false := by
  have hne : (byteChar byte == ' ') = false := by
    rw [beq_eq_false_iff_ne]
    intro heq
    apply hblank
    rw [← charByte_byteChar (lt_of_printable h), heq]
    rfl
  have hbyte := toNat_byteChar (lt_of_printable h)
  have hle : 0x20 ≤ byte.toNat := UInt8.le_iff_toNat_le.mp h.1
  have hge : byte.toNat ≤ 0x7E := UInt8.le_iff_toNat_le.mp h.2
  unfold isUnicodeWhitespace isWhitespace
  rw [hne, hbyte]
  simp only [Bool.false_or, Bool.or_eq_false_iff, Bool.and_eq_false_iff, decide_eq_false_iff_not,
    beq_eq_false_iff_ne]
  omega

theorem trim_text {text : List UInt8} (h : ScriptText text) :
    trim (text.map byteChar) = text.map byteChar := by
  have hspace : ∀ byte ∈ text, byte ≠ 0x20 → isUnicodeWhitespace (byteChar byte) = false :=
    fun byte hbyte hne => isUnicodeWhitespace_byteChar (h.printable byte hbyte) hne
  apply trim_eq_self
  · intro c hc
    rw [List.head?_map] at hc
    rcases Option.map_eq_some_iff.mp hc with ⟨byte, hbyte, rfl⟩
    refine hspace byte (List.mem_of_mem_head? hbyte) ?_
    rintro rfl
    exact h.head hbyte
  · intro c hc
    rw [List.getLast?_map] at hc
    rcases Option.map_eq_some_iff.mp hc with ⟨byte, hbyte, rfl⟩
    refine hspace byte (List.mem_of_getLast? hbyte) ?_
    rintro rfl
    exact h.last hbyte

theorem of_isPrefixOf?_eq_some {start line rest : List Char} (h : start.isPrefixOf? line = some rest) :
    start ++ rest = line := by
  induction start generalizing line with
  | nil =>
    cases h
    rfl
  | cons c start ih =>
    cases line with
    | nil => cases h
    | cons c' line =>
      rw [List.isPrefixOf?] at h
      by_cases hc : c == c'
      · rw [if_pos hc] at h
        rw [List.cons_append, ih h, beq_iff_eq.mp hc]
      · rw [if_neg hc] at h
        cases h

/-- A text of a script is no directive. -/
theorem findSome?_sleepDirective {text : List UInt8} (h : ScriptText text) (path : String)
    (lineNumber : ℕ) :
    sleepDirectives.findSome? (sleepDirective path lineNumber (text.map byteChar)) = none := by
  have hnone : ∀ directive ∈ ["sleep ", "sleep_ms ", "sleep_s "],
      directive.toList.isPrefixOf? (text.map byteChar) = none := by
    intro directive hdirective
    have hascii : ∀ c ∈ directive.toList, c.toNat < 128 := by
      have hall : (["sleep ", "sleep_ms ", "sleep_s "].all fun directive =>
          directive.toList.all fun c => c.toNat < 128) = true := by decide
      intro c hc
      exact of_decide_eq_true
        (List.all_eq_true.mp (List.all_eq_true.mp hall directive hdirective) c hc)
    rw [Option.eq_none_iff_forall_not_mem]
    intro rest hrest
    have happend := congrArg (List.map charByte) (of_isPrefixOf?_eq_some hrest)
    rw [List.map_append, ← textBytes_eq hascii, map_charByte_map_byteChar h.ascii] at happend
    exact h.noDirective directive hdirective ⟨_, happend⟩
  rw [List.findSome?_eq_none_iff]
  intro directive hdirective
  unfold sleepDirective
  rw [Option.map_eq_none_iff]
  apply hnone
  simp only [sleepDirectives, List.mem_cons, List.not_mem_nil, or_false] at hdirective
  rcases hdirective with rfl | rfl | rfl <;> decide

/-- The action of a text: it is sent, with a carriage return. -/
theorem lineAction_eq {text : List UInt8} (h : ScriptText text) (path : String) (lineNumber : ℕ) :
    lineAction path lineNumber (text.map byteChar) = .ok (some (.send (text ++ [0x0D]))) := by
  -- nothing is trimmed, and there is no comment, neither in front nor within
  have htrim := trim_text h
  have hnonempty : (text.map byteChar).isEmpty = false := by
    rw [List.isEmpty_eq_false_iff, ne_eq, List.map_eq_nil_iff]
    exact h.ne_nil
  have hhead : ((text.map byteChar).head? == some '#') = false := by
    rw [beq_eq_false_iff_ne, List.head?_map]
    intro hmark
    rcases Option.map_eq_some_iff.mp hmark with ⟨byte, hbyte, hchar⟩
    apply h.noComment.1
    rw [hbyte, ← charByte_byteChar (h.ascii byte (List.mem_of_mem_head? hbyte)), hchar]
    rfl
  have hcomment : stripInlineComment (text.map byteChar) = text.map byteChar := by
    have hnone : beforeComment (none.map byteChar) (text.map byteChar) = none :=
      beforeComment_eq_none h.printable h.noComment.2 (by simp) fun hmark =>
        absurd hmark h.noComment.1
    unfold stripInlineComment
    rw [Option.map_none] at hnone
    rw [hnone]
  have hbytes : textBytes (String.ofList (text.map byteChar)) = text := textBytes_asciiText h.ascii
  unfold lineAction
  simp only [htrim, hcomment, hnonempty, hhead, findSome?_sleepDirective h, hbytes, Bool.or_self,
    Bool.false_eq_true, if_false]
  rfl

/-- Each line is sent. -/
theorem scriptLoop_eq {texts : List (List UInt8)} (h : ∀ text ∈ texts, ScriptText text)
    (path : String) (lineNumber : ℕ) :
    scriptLoop path lineNumber (texts.map (List.map byteChar)) =
      .ok (texts.map fun text => .send (text ++ [0x0D])) := by
  induction texts generalizing lineNumber with
  | nil => rfl
  | cons text texts ih =>
    rw [List.map_cons, scriptLoop, lineAction_eq (h text List.mem_cons_self),
      ih fun text htext => h text (List.mem_cons_of_mem _ htext)]
    rfl

theorem map_scriptFile (texts : List (List UInt8)) :
    (scriptFile texts).map byteChar = ['\n'].intercalate (texts.map (List.map byteChar)) := by
  unfold scriptFile
  induction texts with
  | nil => rfl
  | cons text texts ih =>
    cases texts with
    | nil => simp
    | cons text' texts =>
      rw [List.intercalate_cons_cons, List.map_append, List.map_append, ih]
      exact List.intercalate_cons_cons.symm

/-- A byte of the file is a line feed or one of a text. -/
theorem mem_scriptFile {texts : List (List UInt8)} {byte : UInt8} (h : byte ∈ scriptFile texts) :
    byte = 0x0A ∨ ∃ text ∈ texts, byte ∈ text := by
  unfold scriptFile at h
  induction texts with
  | nil => cases h
  | cons text texts ih =>
    cases texts with
    | nil =>
      rw [List.intercalate_singleton] at h
      exact .inr ⟨text, List.mem_cons_self, h⟩
    | cons text' texts =>
      rw [List.intercalate_cons_cons, List.mem_append, List.mem_append, List.mem_singleton] at h
      rcases h with (h | h) | h
      · exact .inr ⟨text, List.mem_cons_self, h⟩
      · exact .inl h
      · rcases ih h with hfeed | ⟨text'', htext, hmem⟩
        · exact .inl hfeed
        · exact .inr ⟨text'', List.mem_cons_of_mem _ htext, hmem⟩

/-- No control character stands in a text. -/
theorem not_mem_map_byteChar {text : List UInt8} (h : ScriptText text) {c : Char}
    (hc : c.toNat < 0x20) : c ∉ text.map byteChar := by
  intro hmem
  rcases List.mem_map.mp hmem with ⟨byte, hbyte, rfl⟩
  rw [toNat_byteChar (h.ascii byte hbyte)] at hc
  have hle : 0x20 ≤ byte.toNat := UInt8.le_iff_toNat_le.mp (h.printable byte hbyte).1
  omega

/-- A script of texts that stand for themselves sends them one by one. -/
theorem loadSerialScript_eq {texts : List (List UInt8)} (hne : texts ≠ [])
    (h : ∀ text ∈ texts, ScriptText text) (path : String) :
    loadSerialScript path (.ok (scriptFile texts)) =
      .ok (texts.map fun text => .send (text ++ [0x0D])) := by
  -- the file is ASCII, and its lines hold no control character
  have hascii : ∀ byte ∈ scriptFile texts, byte < 0x80 := by
    intro byte hbyte
    rcases mem_scriptFile hbyte with rfl | ⟨text, htext, hmem⟩
    · decide
    · exact (h text htext).ascii byte hmem
  have hchars : ∀ {c : Char}, c.toNat < 0x20 → ∀ line ∈ texts.map (List.map byteChar), c ∉ line := by
    intro c hc line hline
    rcases List.mem_map.mp hline with ⟨text, htext, rfl⟩
    exact not_mem_map_byteChar (h text htext) hc
  have hlines : lines ((scriptFile texts).map byteChar) = texts.map (List.map byteChar) := by
    rw [map_scriptFile]
    refine lines_intercalate ?_ (hchars (by decide)) (hchars (by decide)) ?_
    · rw [ne_eq, List.map_eq_nil_iff]
      exact hne
    · intro line hline
      rcases List.mem_map.mp hline with ⟨text, htext, rfl⟩
      rw [ne_eq, List.map_eq_nil_iff]
      exact (h text htext).ne_nil
  have hactions : (texts.map fun text => SerialScriptAction.send (text ++ [0x0D])).isEmpty = false := by
    rw [List.isEmpty_eq_false_iff, ne_eq, List.map_eq_nil_iff]
    exact hne
  unfold loadSerialScript
  simp only [fromUTF8_asciiText hascii, toList_asciiText, hlines, scriptLoop_eq h, bind,
    Except.bind, hactions, Bool.false_eq_true, if_false]
  rfl

end JingOS.Host
