import JingOS.Host.Script

/-!
# Laws of the script parser

A script is read line by line, and what a line does depends on its text alone: the part between
the blanks and the comment. The laws of the parser are laws of that part.

* `scriptLine` — the part of a line that counts;
* `scriptLine_comment`, `scriptLine_scriptLine` — it has no comment, and is what it is made of;
* `beforeComment_bytes` — the comment as the code looks for it, byte by byte;
* `script_laws` — scripts one behind the other, comments, and what is sent.
-/

namespace JingOS.Host

open Ascii Text

/-! ## Comments -/

section Comments

variable {previous : Option Char} {line front : List Char}

/-- A comment that begins in the first part is the comment of the whole. -/
theorem beforeComment_append_of_some (h : beforeComment previous line = some front)
    (rest : List Char) : beforeComment previous (line ++ rest) = some front := by
  induction line generalizing previous front with
  | nil => cases h
  | cons c line ih =>
    rw [List.cons_append, beforeComment]
    rw [beforeComment] at h
    split at h
    · next hmark =>
      rw [if_pos hmark]
      exact h
    · next hmark =>
      rcases Option.map_eq_some_iff.mp h with ⟨front, hfront, rfl⟩
      rw [if_neg hmark, ih hfront]
      rfl

/-- Otherwise it is looked for in the second part. -/
theorem beforeComment_append_of_none (h : beforeComment previous line = none) (rest : List Char) :
    beforeComment previous (line ++ rest) =
      (beforeComment (line.getLast?.or previous) rest).map (line ++ ·) := by
  induction line generalizing previous with
  | nil => exact Option.map_id'.symm
  | cons c line ih =>
    rw [List.cons_append, beforeComment]
    rw [beforeComment] at h
    split at h
    · cases h
    · next hmark =>
      rw [if_neg hmark, ih (Option.map_eq_none_iff.mp h), Option.map_map, List.getLast?_cons,
        Option.or_some]
      rfl

theorem beforeComment_of_not_mem (h : '#' ∉ line) : beforeComment previous line = none := by
  induction line generalizing previous with
  | nil => rfl
  | cons c line ih =>
    rw [List.mem_cons, not_or] at h
    rw [beforeComment, if_neg (fun hmark => h.1 hmark.1.symm), ih h.2]
    rfl

/-- What stands before the comment is a beginning of the line, and has none. -/
theorem beforeComment_front (h : beforeComment previous line = some front) :
    front <+: line ∧ beforeComment previous front = none := by
  induction line generalizing previous front with
  | nil => cases h
  | cons c line ih =>
    rw [beforeComment] at h
    split at h
    · cases h
      exact ⟨List.nil_prefix, rfl⟩
    · next hmark =>
      rcases Option.map_eq_some_iff.mp h with ⟨front, hfront, rfl⟩
      rcases ih hfront with ⟨hpre, hnone⟩
      refine ⟨List.cons_prefix_cons.mpr ⟨rfl, hpre⟩, ?_⟩
      rw [beforeComment, if_neg hmark, hnone]
      rfl

theorem beforeComment_of_beginning (h : beforeComment previous line = none) (hpre : front <+: line) :
    beforeComment previous front = none := by
  rcases hpre with ⟨rest, rfl⟩
  cases hfront : beforeComment previous front with
  | none => rfl
  | some found =>
    rw [beforeComment_append_of_some hfront] at h
    cases h

/-- Stripping leaves a beginning of the line, without a comment. -/
theorem stripInlineComment_beginning (line : List Char) :
    stripInlineComment line <+: line ∧ beforeComment none (stripInlineComment line) = none := by
  unfold stripInlineComment
  cases hcomment : beforeComment none line with
  | none => exact ⟨List.prefix_rfl, hcomment⟩
  | some front =>
    rcases beforeComment_front hcomment with ⟨hpre, hnone⟩
    exact ⟨(trimEnd_beginning front).trans hpre, beforeComment_of_beginning hnone (trimEnd_beginning front)⟩

/-- A comment behind a line that is trimmed at its end goes without a trace. -/
theorem stripInlineComment_append (hline : trimEnd line = line) {gap : List Char}
    (hgap : ∀ c ∈ gap, isUnicodeWhitespace c = true) (comment : List Char) :
    stripInlineComment (line ++ gap ++ ' ' :: '#' :: comment) = stripInlineComment line := by
  unfold stripInlineComment
  cases hcomment : beforeComment none line with
  | some front =>
    -- the line has a comment of its own, which is found first
    rw [List.append_assoc, beforeComment_append_of_some hcomment]
  | none =>
    -- white space is no mark, so that the new comment is the first one
    have hmark : '#' ∉ gap := by
      intro hmem
      have hspace := hgap _ hmem
      revert hspace
      decide
    have hnone : beforeComment none (line ++ gap) = none := by
      rw [beforeComment_append_of_none hcomment, beforeComment_of_not_mem hmark]
      rfl
    have hblank : ∀ c ∈ gap ++ [' '], isUnicodeWhitespace c = true := by
      intro c hc
      rcases List.mem_append.mp hc with hc | hc
      · exact hgap c hc
      · rw [List.mem_singleton.mp hc]
        rfl
    rw [beforeComment_append_of_none hnone]
    change trimEnd (line ++ gap ++ [' ']) = line
    rw [List.append_assoc, trimEnd_append, if_pos (trimEnd_eq_nil hblank)]
    exact hline

end Comments

/-! ## Bytes -/

/-- The loop of `strip_inline_comment` as it stands, over the bytes of the line. -/
def beforeCommentBytes (previous : Option UInt8) : List UInt8 → Option (List UInt8)
  | [] => none
  | byte :: rest =>
    if byte = 0x23 ∧ previous.all isAsciiWhitespace then some []
    else (beforeCommentBytes (some byte) rest).map (byte :: ·)

/-- A byte that is not ASCII is neither a mark nor white space. -/
theorem of_high {byte : UInt8} (h : 0x80 ≤ byte) :
    byte ≠ 0x23 ∧ isAsciiWhitespace byte = false := by
  constructor
  · rintro rfl
    exact absurd h (by decide)
  · rw [Bool.eq_false_iff]
    intro hspace
    unfold isAsciiWhitespace at hspace
    simp only [Bool.or_eq_true, beq_iff_eq] at hspace
    rcases hspace with (((rfl | rfl) | rfl) | rfl) | rfl
    all_goals exact absurd h (by decide)

/-- The bytes of a character that is not ASCII are passed. -/
theorem beforeCommentBytes_high {bytes : List UInt8} (h : ∀ byte ∈ bytes, 0x80 ≤ byte)
    (hne : bytes ≠ []) (rest : List UInt8) :
    ∃ last, isAsciiWhitespace last = false ∧ ∀ previous,
      beforeCommentBytes previous (bytes ++ rest) =
        (beforeCommentBytes (some last) rest).map (bytes ++ ·) := by
  induction bytes with
  | nil => exact absurd rfl hne
  | cons byte bytes ih =>
    rw [List.forall_mem_cons] at h
    rcases of_high h.1 with ⟨hmark, hspace⟩
    have hpass : ∀ previous, beforeCommentBytes previous (byte :: (bytes ++ rest)) =
        (beforeCommentBytes (some byte) (bytes ++ rest)).map (byte :: ·) :=
      fun previous => if_neg fun hcomment => hmark hcomment.1
    rcases bytes with _ | ⟨byte', bytes⟩
    · exact ⟨byte, hspace, hpass⟩
    · rcases ih h.2 (List.cons_ne_nil _ _) with ⟨last, hlast, hrest⟩
      refine ⟨last, hlast, ?_⟩
      intro previous
      rw [List.cons_append, hpass, hrest, Option.map_map]
      rfl

theorem charByte_eq_mark {c : Char} (hc : c.toNat < 128) : charByte c = 0x23 ↔ c = '#' := by
  constructor
  · intro heq
    rw [← byteChar_charByte hc, heq]
    rfl
  · rintro rfl
    rfl

/-- The loop over characters is the loop over bytes: no byte of a longer character is taken for a
mark or for white space. -/
theorem beforeComment_bytes (line : List Char) {previous : Option Char} {byte : Option UInt8}
    (h : byte.all isAsciiWhitespace =
      previous.all fun p => isAsciiChar p && isAsciiWhitespace (charByte p)) :
    beforeCommentBytes byte (line.flatMap String.utf8EncodeChar) =
      (beforeComment previous line).map (·.flatMap String.utf8EncodeChar) := by
  induction line generalizing previous byte with
  | nil => rfl
  | cons c line ih =>
    rw [List.flatMap_cons, beforeComment]
    by_cases hc : c.toNat < 128
    -- an ASCII character is one byte, which is a mark or white space as the character is
    · have hmark : charByte c = 0x23 ↔ c = '#' := charByte_eq_mark hc
      have hnext : (some (charByte c)).all isAsciiWhitespace =
          (some c).all fun p => isAsciiChar p && isAsciiWhitespace (charByte p) := by
        rw [Option.all_some, Option.all_some, isAsciiChar, decide_eq_true hc, Bool.true_and]
      rw [utf8EncodeChar_eq hc, List.singleton_append, beforeCommentBytes, h, ih hnext]
      by_cases hcomment : c = '#' ∧ (previous.all fun p =>
          isAsciiChar p && isAsciiWhitespace (charByte p)) = true
      · rw [if_pos hcomment, if_pos ⟨hmark.mpr hcomment.1, hcomment.2⟩]
        rfl
      · rw [if_neg hcomment, if_neg fun hbyte => hcomment ⟨hmark.mp hbyte.1, hbyte.2⟩,
          Option.map_map, Option.map_map]
        congr 1
        funext front
        change _ = String.utf8EncodeChar c ++ _
        rw [utf8EncodeChar_eq hc]
        rfl
    -- another one has only bytes from 0x80 on, which the scan passes by
    · have hne : String.utf8EncodeChar c ≠ [] := by
        rw [← List.length_pos_iff, String.length_utf8EncodeChar]
        exact c.utf8Size_pos
      have hhigh : ∀ byte ∈ String.utf8EncodeChar c, 0x80 ≤ byte :=
        fun byte hbyte => le_of_mem_utf8EncodeChar (Nat.not_lt.mp hc) hbyte
      rcases beforeCommentBytes_high hhigh hne (line.flatMap String.utf8EncodeChar) with
        ⟨last, hlast, hpass⟩
      have hnext : (some last).all isAsciiWhitespace =
          (some c).all fun p => isAsciiChar p && isAsciiWhitespace (charByte p) := by
        rw [Option.all_some, Option.all_some, isAsciiChar, decide_eq_false hc, Bool.false_and]
        exact hlast
      have hcomment : ¬ (c = '#' ∧ (previous.all fun p =>
          isAsciiChar p && isAsciiWhitespace (charByte p)) = true) := by
        rintro ⟨rfl, _⟩
        exact hc (by decide)
      rw [hpass, ih hnext, if_neg hcomment, Option.map_map, Option.map_map]
      rfl

/-- Bytes without a comment: no mark at the beginning, and none behind white space. -/
theorem no_mark {previous : Option UInt8} {bytes : List UInt8}
    (h : beforeCommentBytes previous bytes = none) :
    (bytes.head? = some 0x23 → previous.all isAsciiWhitespace = false) ∧
      ∀ space, isAsciiWhitespace space = true → ¬ [space, 0x23] <:+: bytes := by
  induction bytes generalizing previous with
  | nil =>
    constructor
    · intro hmark
      cases hmark
    · intro space _ hinfix
      cases List.infix_nil.mp hinfix
  | cons byte rest ih =>
    rw [beforeCommentBytes] at h
    split at h
    · cases h
    · next hcomment =>
      rcases ih (Option.map_eq_none_iff.mp h) with ⟨hhead, hrest⟩
      constructor
      · intro hmark
        cases hmark
        rw [← Bool.not_eq_true]
        exact fun hspace => hcomment ⟨rfl, hspace⟩
      · intro space hspace hinfix
        -- the pair is at the front, or it is in the rest
        rcases List.infix_cons_iff.mp hinfix with hpre | hinfix
        · rw [List.cons_prefix_cons] at hpre
          rcases hpre with ⟨rfl, ⟨back, hback⟩⟩
          have hnot := hhead (by rw [← hback]; rfl)
          rw [Option.all_some, hspace] at hnot
          cases hnot
        · exact hrest space hspace hinfix

/-! ## The part of a line that counts -/

/-- The variable `line` in the loop of `load_serial_script`; empty where the loop goes on before. -/
def scriptLine (rawLine : List Char) : List Char :=
  let trimmedLine := trim rawLine
  if trimmedLine.isEmpty || trimmedLine.head? == some '#' then []
  else trim (stripInlineComment trimmedLine)

/-- The loop's body behind that. -/
def partAction (path : String) (lineNumber : ℕ) (line : List Char) :
    Except String (Option SerialScriptAction) :=
  if line.isEmpty then pure none
  else
    match sleepDirectives.findSome? (sleepDirective path lineNumber line) with
    | some action => some <$> action
    | none => pure (some (.send (textBytes (String.ofList line) ++ [0x0D])))

section ScriptLine

variable {rawLine : List Char}

/-- A line is trimmed and freed of its comment, and only then read. -/
theorem lineAction_scriptLine (path : String) (lineNumber : ℕ) (rawLine : List Char) :
    lineAction path lineNumber rawLine = partAction path lineNumber (scriptLine rawLine) := by
  unfold lineAction scriptLine
  simp only
  by_cases hskip : ((trim rawLine).isEmpty || (trim rawLine).head? == some '#') = true
  · rw [if_pos hskip, if_pos hskip]
    rfl
  · rw [if_neg hskip, if_neg hskip]
    rfl

theorem scriptLine_of_trim_eq {rawLine' : List Char} (h : trim rawLine = trim rawLine') :
    scriptLine rawLine = scriptLine rawLine' := by
  unfold scriptLine
  rw [h]

/-- It is a beginning of the trimmed line, trimmed itself, and without a comment. -/
theorem scriptLine_spec (rawLine : List Char) :
    scriptLine rawLine <+: trim rawLine ∧ trim (scriptLine rawLine) = scriptLine rawLine ∧
      beforeComment none (scriptLine rawLine) = none := by
  unfold scriptLine
  simp only
  split
  · exact ⟨List.nil_prefix, rfl, rfl⟩
  · rcases stripInlineComment_beginning (trim rawLine) with ⟨hpre, hnone⟩
    have htrim : trim (stripInlineComment (trim rawLine)) <+: stripInlineComment (trim rawLine) := by
      rw [trim_of_beginning hpre]
      exact trimEnd_beginning _
    exact ⟨htrim.trans hpre, trim_trim _, beforeComment_of_beginning hnone htrim⟩

/-- Of the part itself nothing is cut off. -/
theorem scriptLine_scriptLine (rawLine : List Char) :
    scriptLine (scriptLine rawLine) = scriptLine rawLine := by
  rcases scriptLine_spec rawLine with ⟨_, htrim, hnone⟩
  generalize scriptLine rawLine = line at *
  have hhead : line.head? ≠ some '#' := by
    intro hmark
    cases line with
    | nil => cases hmark
    | cons c rest =>
      cases hmark
      cases hnone
  have hstrip : stripInlineComment line = line := by
    unfold stripInlineComment
    rw [hnone]
  unfold scriptLine
  simp only [htrim, hstrip]
  split
  · next hskip =>
    rw [Bool.or_eq_true, List.isEmpty_iff, beq_iff_eq] at hskip
    exact (hskip.resolve_right hhead).symm
  · rfl

/-- Trimming a line with a comment: all that is trimmed at the end is inside the comment. -/
theorem trim_comment (h : rawLine.dropWhile isUnicodeWhitespace ≠ []) (comment : List Char) :
    ∃ gap, (∀ c ∈ gap, isUnicodeWhitespace c = true) ∧
      trim (rawLine ++ ' ' :: '#' :: comment) =
        trim rawLine ++ gap ++ ' ' :: '#' :: trimEnd comment := by
  have hback : trimEnd (' ' :: '#' :: comment) = ' ' :: '#' :: trimEnd comment := by
    rw [← List.singleton_append, trimEnd_append, trimEnd_cons (by decide),
      if_neg (List.cons_ne_nil _ _), List.singleton_append]
  refine ⟨(rawLine.dropWhile isUnicodeWhitespace).rtakeWhile isUnicodeWhitespace,
    fun c hc => List.mem_rtakeWhile_imp hc, ?_⟩
  have hsplit : trim rawLine ++
      (rawLine.dropWhile isUnicodeWhitespace).rtakeWhile isUnicodeWhitespace =
      rawLine.dropWhile isUnicodeWhitespace := List.rdropWhile_append_rtakeWhile
  rw [hsplit, trim, List.dropWhile_append, if_neg (mt List.isEmpty_iff.mp h), trimEnd_append, hback,
    if_neg (List.cons_ne_nil _ _)]

/-- A line that is not blank has something left when it is trimmed. -/
theorem trim_ne_nil (h : rawLine.dropWhile isUnicodeWhitespace ≠ []) : trim rawLine ≠ [] := by
  rcases List.exists_cons_of_ne_nil h with ⟨c, rest, hcons⟩
  have hc := List.head?_dropWhile_not isUnicodeWhitespace rawLine
  rw [hcons] at hc
  rw [trim, hcons, trimEnd_cons hc]
  exact List.cons_ne_nil _ _

/-- A comment is not part of it. -/
theorem scriptLine_comment (rawLine comment : List Char) :
    scriptLine (rawLine ++ ' ' :: '#' :: comment) = scriptLine rawLine := by
  by_cases hblank : rawLine.dropWhile isUnicodeWhitespace = []
  · -- nothing but the comment is left, and without it nothing at all
    have htrim : trim rawLine = [] := by
      rw [trim, hblank]
      rfl
    have htrim' : trim (rawLine ++ ' ' :: '#' :: comment) = '#' :: trimEnd comment := by
      rw [trim, List.dropWhile_append, if_pos (List.isEmpty_iff.mpr hblank)]
      exact trimEnd_cons (by decide) comment
    unfold scriptLine
    simp only [htrim, htrim']
    rfl
  · rcases trim_comment hblank comment with ⟨gap, hgap, htrim⟩
    -- behind the line there is white space and the comment, as far as trimming leaves them
    have hne := trim_ne_nil hblank
    have htrimEnd : trimEnd (trim rawLine) = trim rawLine := List.rdropWhile_idempotent _ _
    have hstart : (trim rawLine ++ gap ++ ' ' :: '#' :: trimEnd comment).isEmpty =
          (trim rawLine).isEmpty ∧
        (trim rawLine ++ gap ++ ' ' :: '#' :: trimEnd comment).head? = (trim rawLine).head? := by
      rcases List.exists_cons_of_ne_nil hne with ⟨c, rest, hcons⟩
      rw [hcons]
      exact ⟨rfl, rfl⟩
    unfold scriptLine
    simp only [htrim, hstart]
    rw [stripInlineComment_append htrimEnd hgap]

end ScriptLine

/-! ## Actions -/

section Actions

variable {path : String} {line : List Char}

/-- The directive of a line, with its value. -/
def directiveOf (line : List Char) : Option ((String × UInt64) × List Char) :=
  sleepDirectives.findSome? fun directive =>
    ((directive.1 ++ " ").toList.isPrefixOf? line).map fun value => (directive, trim value)

/-- The directive of the line, with its value read as a pause. -/
theorem findSome?_directiveOf (path : String) (lineNumber : ℕ) (line : List Char) :
    sleepDirectives.findSome? (sleepDirective path lineNumber line) =
      (directiveOf line).map fun found =>
        parseSleepDirective path lineNumber found.1.1 found.2 found.1.2 := by
  unfold directiveOf
  rw [List.map_findSome?]
  congr 1
  funext directive
  rw [Function.comp_apply, Option.map_map]
  rfl

theorem partAction_of_none (hne : line ≠ []) (h : directiveOf line = none) (lineNumber : ℕ) :
    partAction path lineNumber line =
      .ok (some (.send (textBytes (String.ofList line) ++ [0x0D]))) := by
  unfold partAction
  rw [if_neg (mt List.isEmpty_iff.mp hne), findSome?_directiveOf, h]
  rfl

theorem partAction_of_some {directive : String × UInt64} {value : List Char}
    (h : directiveOf line = some (directive, value)) (lineNumber : ℕ) :
    partAction path lineNumber line =
      some <$> parseSleepDirective path lineNumber directive.1 value directive.2 := by
  have hne : line ≠ [] := by
    rintro rfl
    cases h
  unfold partAction
  rw [if_neg (mt List.isEmpty_iff.mp hne), findSome?_directiveOf, h]
  rfl

/-- A directive, if its value can be read. -/
theorem partAction_directive {directive : String × UInt64} {value : List Char} {number : UInt64}
    (h : directiveOf line = some (directive, value))
    (hnumber : fromStrRadix (String.ofList value) 10 = some number) (lineNumber : ℕ) :
    partAction path lineNumber line =
      .ok (some (.sleepMs (U64.saturatingMul number directive.2))) := by
  rw [partAction_of_some h, parseSleepDirective, hnumber]
  rfl

/-- And if not. -/
theorem partAction_refused {directive : String × UInt64} {value : List Char}
    (h : directiveOf line = some (directive, value))
    (hnumber : fromStrRadix (String.ofList value) 10 = none) (lineNumber : ℕ) :
    ∃ message, partAction path lineNumber line = .error message := by
  rw [partAction_of_some h, parseSleepDirective, hnumber]
  exact ⟨_, rfl⟩

/-- The kinds of lines. -/
theorem partAction_cases (path : String) (line : List Char) :
    line = [] ∨ (line ≠ [] ∧ directiveOf line = none) ∨
      (∃ directive value number, directiveOf line = some (directive, value) ∧
        fromStrRadix (String.ofList value) 10 = some number) ∨
      ∀ lineNumber, ∃ message, partAction path lineNumber line = .error message := by
  by_cases hempty : line = []
  · exact .inl hempty
  · cases hdirective : directiveOf line with
    | none => exact .inr (.inl ⟨hempty, rfl⟩)
    | some found =>
      cases hnumber : fromStrRadix (String.ofList found.2) 10 with
      | none => exact .inr (.inr (.inr (partAction_refused hdirective hnumber)))
      | some number => exact .inr (.inr (.inl ⟨found.1, found.2, number, rfl, hnumber⟩))

/-- A line that is read gives the same action everywhere in the script. -/
theorem partAction_lineNumber {lineNumber : ℕ} {action : Option SerialScriptAction}
    (h : partAction path lineNumber line = .ok action) (lineNumber' : ℕ) :
    partAction path lineNumber' line = .ok action := by
  rcases partAction_cases path line with rfl | ⟨hne, hnone⟩ | ⟨_, _, _, hdirective, hnumber⟩ | herror
  · exact h
  · rw [partAction_of_none hne hnone] at h ⊢
    exact h
  · rw [partAction_directive hdirective hnumber] at h ⊢
    exact h
  · rcases herror lineNumber with ⟨message, herror⟩
    rw [herror] at h
    cases h

/-- What is sent is the part, with a carriage return. -/
theorem partAction_send {lineNumber : ℕ} {bytes : List UInt8}
    (h : partAction path lineNumber line = .ok (some (.send bytes))) :
    line ≠ [] ∧ bytes = textBytes (String.ofList line) ++ [0x0D] := by
  rcases partAction_cases path line with rfl | ⟨hne, hnone⟩ | ⟨_, _, _, hdirective, hnumber⟩ | herror
  · cases h
  · rw [partAction_of_none hne hnone] at h
    cases h
    exact ⟨hne, rfl⟩
  · rw [partAction_directive hdirective hnumber] at h
    cases h
  · rcases herror lineNumber with ⟨message, herror⟩
    rw [herror] at h
    cases h

end Actions

/-! ## Scripts -/

/-- The actions that `load_serial_script` builds of a text, before it looks whether there are
any. -/
def scriptActions (path text : String) : Except String (List SerialScriptAction) :=
  scriptLoop path 1 (lines text.toList)

/-- A file that is text is read line by line. -/
theorem loadSerialScript_text (path text : String) :
    loadSerialScript path (.ok (textBytes text)) = (do
      let actions ← scriptActions path text
      if actions.isEmpty then .error s!"serial script `{path}` has no executable actions"
      else pure actions) := by
  have htext : String.fromUTF8? ⟨(textBytes text).toArray⟩ = some text := by
    have hbytes : (⟨(textBytes text).toArray⟩ : ByteArray) = text.toByteArray := by
      apply ByteArray.ext
      exact Array.toArray_toList
    rw [hbytes, String.fromUTF8?, dif_pos text.isValidUTF8]
    rfl
  unfold loadSerialScript
  simp only [htext]
  rfl

section Scripts

variable {path : String} {lineNumber : ℕ}

/-- A script in two parts, the second with its own line numbers. -/
theorem scriptLoop_append (front back : List (List Char)) :
    scriptLoop path lineNumber (front ++ back) = (do
      let actions ← scriptLoop path lineNumber front
      let actions' ← scriptLoop path (lineNumber + front.length) back
      pure (actions ++ actions')) := by
  induction front generalizing lineNumber with
  | nil => simp [scriptLoop]
  | cons rawLine front ih =>
    rw [List.cons_append, scriptLoop, scriptLoop, ih, List.length_cons, Nat.add_assoc,
      Nat.add_comm 1]
    simp only [bind_assoc, pure_bind, List.append_assoc]

/-- The loop sees of a line only the part that counts. -/
theorem scriptLoop_congr {front back : List (List Char)}
    (h : front.map scriptLine = back.map scriptLine) :
    scriptLoop path lineNumber front = scriptLoop path lineNumber back := by
  induction front generalizing back lineNumber with
  | nil => rw [List.map_eq_nil_iff.mp h.symm]
  | cons rawLine front ih =>
    rcases back with _ | ⟨rawLine', back⟩
    · cases h
    · rw [List.map_cons, List.map_cons, List.cons.injEq] at h
      rw [scriptLoop, scriptLoop, lineAction_scriptLine, lineAction_scriptLine, h.1, ih h.2]

/-- A script of one line more. -/
theorem scriptLoop_cons_ok {rawLine : List Char} {rest : List (List Char)}
    {actions : List SerialScriptAction} :
    scriptLoop path lineNumber (rawLine :: rest) = .ok actions ↔
      ∃ action others, partAction path lineNumber (scriptLine rawLine) = .ok action ∧
        scriptLoop path (lineNumber + 1) rest = .ok others ∧ actions = action.toList ++ others := by
  rw [scriptLoop, lineAction_scriptLine]
  constructor
  · intro h
    cases haction : partAction path lineNumber (scriptLine rawLine) with
    | error message =>
      rw [haction] at h
      cases h
    | ok action =>
      cases hothers : scriptLoop path (lineNumber + 1) rest with
      | error message =>
        rw [haction, hothers] at h
        cases h
      | ok others =>
        rw [haction, hothers] at h
        cases h
        exact ⟨action, others, rfl, rfl, rfl⟩
  · rintro ⟨action, others, haction, hothers, rfl⟩
    rw [haction, hothers]
    rfl

/-- A script that is read gives the same actions behind another. -/
theorem scriptLoop_lineNumber {rawLines : List (List Char)} {actions : List SerialScriptAction}
    (h : scriptLoop path lineNumber rawLines = .ok actions) (lineNumber' : ℕ) :
    scriptLoop path lineNumber' rawLines = .ok actions := by
  induction rawLines generalizing lineNumber lineNumber' actions with
  | nil => exact h
  | cons rawLine rest ih =>
    rcases scriptLoop_cons_ok.mp h with ⟨action, others, haction, hothers, rfl⟩
    exact scriptLoop_cons_ok.mpr
      ⟨action, others, partAction_lineNumber haction lineNumber', ih hothers _, rfl⟩

/-- The pieces between line feeds do what the lines do: a carriage return at the end is white space,
and an empty piece is no action. -/
theorem scriptLoop_lines (text : List Char) :
    scriptLoop path lineNumber (lines text) = scriptLoop path lineNumber (text.splitOn '\n') := by
  have hne : text.splitOn '\n' ≠ [] := List.splitOn_ne_nil '\n' text
  have hreturn : ∀ pieces : List (List Char),
      (pieces.map stripReturn).map scriptLine = pieces.map scriptLine := by
    intro pieces
    rw [List.map_map]
    exact List.map_congr_left fun piece _ => scriptLine_of_trim_eq (trim_stripReturn piece)
  unfold lines
  simp only
  generalize text.splitOn '\n' = pieces at *
  rcases List.eq_nil_or_concat pieces with rfl | ⟨front, last, rfl⟩
  · exact absurd rfl hne
  rw [List.concat_eq_append, List.dropLast_concat, List.getLast?_concat, Option.toList_some]
  cases last with
  -- the text ends in a line feed: `lines` leaves out the empty piece behind it, which does nothing
  | nil =>
    have hempty : scriptLoop path (lineNumber + front.length) [[]] = .ok [] := rfl
    have hfront : scriptLoop path lineNumber (front.map stripReturn) =
        scriptLoop path lineNumber front := scriptLoop_congr (hreturn front)
    change scriptLoop path lineNumber (front.map stripReturn ++ []) = _
    rw [List.append_nil, hfront, scriptLoop_append front, hempty]
    cases scriptLoop path lineNumber front with
    | error message => rfl
    | ok actions => exact congrArg Except.ok (List.append_nil actions).symm
  | cons c rest =>
    -- a carriage return before the feed goes when the line is trimmed
    apply scriptLoop_congr
    rw [List.map_append, hreturn, List.map_append]
    rfl

/-- What is sent, with the line it comes from. -/
theorem scriptLoop_send {rawLines : List (List Char)} {actions : List SerialScriptAction}
    (h : scriptLoop path lineNumber rawLines = .ok actions) {bytes : List UInt8}
    (hsend : .send bytes ∈ actions) :
    ∃ rawLine ∈ rawLines, ∃ lineNumber',
      partAction path lineNumber' (scriptLine rawLine) = .ok (some (.send bytes)) := by
  induction rawLines generalizing lineNumber actions with
  | nil =>
    cases h
    cases hsend
  | cons rawLine rest ih =>
    rcases scriptLoop_cons_ok.mp h with ⟨action, others, haction, hothers, rfl⟩
    rcases List.mem_append.mp hsend with hfirst | hrest
    · rw [Option.mem_toList] at hfirst
      exact ⟨rawLine, List.mem_cons_self, lineNumber, haction.trans (congrArg Except.ok hfirst)⟩
    · rcases ih hothers hrest with ⟨rawLine', hmem, hline⟩
      exact ⟨rawLine', List.mem_cons_of_mem _ hmem, hline⟩

/-- A line in its text. -/
theorem splitOn_around {before after : List Char}
    (hbefore : before = [] ∨ before.getLast? = some '\n')
    (hafter : after = [] ∨ after.head? = some '\n') :
    ∃ front back, ∀ line, '\n' ∉ line →
      (before ++ line ++ after).splitOn '\n' = front ++ line :: back := by
  have hbehind : ∃ back, ∀ line, '\n' ∉ line → (line ++ after).splitOn '\n' = line :: back := by
    rcases hafter with rfl | hafter
    · refine ⟨[], fun line hline => ?_⟩
      rw [List.append_nil]
      exact List.splitOn_eq_singleton hline
    · rcases after with _ | ⟨c, rest⟩
      · cases hafter
      · cases hafter
        exact ⟨rest.splitOn '\n', fun line hline =>
          List.splitOn_append_cons_self_of_not_mem hline rest⟩
  rcases hbehind with ⟨back, hback⟩
  rcases hbefore with rfl | hbefore
  · exact ⟨[], back, hback⟩
  · refine ⟨before.dropLast.splitOn '\n', back, fun line hline => ?_⟩
    rw [← List.dropLast_append_getLast? _ hbefore, List.append_assoc, List.append_assoc,
      List.singleton_append, List.splitOn_append_cons_self, hback line hline,
      List.dropLast_concat]

variable (path lineNumber) in
/-- A line may be replaced by another with the same part. -/
theorem scriptLoop_around {before after line line' : List Char}
    (hbefore : before = [] ∨ before.getLast? = some '\n')
    (hafter : after = [] ∨ after.head? = some '\n') (hline : '\n' ∉ line) (hline' : '\n' ∉ line')
    (h : scriptLine line = scriptLine line') :
    scriptLoop path lineNumber (lines (before ++ line ++ after)) =
      scriptLoop path lineNumber (lines (before ++ line' ++ after)) := by
  rcases splitOn_around hbefore hafter with ⟨front, back, hsplit⟩
  rw [scriptLoop_lines, scriptLoop_lines, hsplit line hline, hsplit line' hline']
  apply scriptLoop_congr
  rw [List.map_append, List.map_append, List.map_cons, List.map_cons, h]

/-- Two scripts with a line feed between them. -/
theorem scriptActions_append {text text' : String} {actions actions' : List SerialScriptAction}
    (h : scriptActions path text = .ok actions) (h' : scriptActions path text' = .ok actions') :
    scriptActions path (text ++ "\n" ++ text') = .ok (actions ++ actions') := by
  have hfeed : (text ++ "\n" ++ text').toList = text.toList ++ '\n' :: text'.toList := by
    rw [String.toList_append, String.toList_append, List.append_assoc]
    rfl
  unfold scriptActions at *
  rw [scriptLoop_lines] at *
  rw [hfeed, List.splitOn_append_cons_self, scriptLoop_append, h, scriptLoop_lineNumber h']
  rfl

/-- A comment behind a line, before the end of the line. -/
theorem scriptActions_comment {before line comment after : String}
    (hbefore : before.toList = [] ∨ before.toList.getLast? = some '\n')
    (hafter : after.toList = [] ∨ after.toList.head? = some '\n' ∨ ['\r', '\n'] <+: after.toList)
    (hline : '\n' ∉ line.toList) (hcomment : '\n' ∉ comment.toList) :
    scriptActions path (before ++ line ++ " #" ++ comment ++ after) =
      scriptActions path (before ++ line ++ after) := by
  have htexts : (before ++ line ++ " #" ++ comment ++ after).toList =
        before.toList ++ (line.toList ++ ' ' :: '#' :: comment.toList) ++ after.toList ∧
      (before ++ line ++ after).toList = before.toList ++ line.toList ++ after.toList := by
    have hmark : " #".toList = [' ', '#'] := rfl
    simp only [String.toList_append, hmark, List.append_assoc, List.cons_append, List.nil_append,
      and_self]
  unfold scriptActions
  rw [htexts.1, htexts.2]
  rw [← or_assoc] at hafter
  rcases hafter with hafter | ⟨rest, hrest⟩
  -- behind the comment comes a line feed, or nothing
  · have hcommented : '\n' ∉ line.toList ++ ' ' :: '#' :: comment.toList := by
      simp [hline, hcomment]
    exact scriptLoop_around path 1 hbefore hafter hcommented hline (scriptLine_comment _ _)
  · -- the carriage return goes with the comment
    have hreturn : scriptLine (line.toList ++ ['\r']) = scriptLine line.toList :=
      scriptLine_of_trim_eq (trim_append_return _)
    have hcommented : '\n' ∉ line.toList ++ ' ' :: '#' :: (comment.toList ++ ['\r']) := by
      simp [hline, hcomment]
    have hreturned : '\n' ∉ line.toList ++ ['\r'] := by
      simp [hline]
    have hfeed : '\n' :: rest = [] ∨ ('\n' :: rest).head? = some '\n' := .inr rfl
    have hsame := scriptLoop_around path 1 hbefore hfeed hcommented hreturned
      ((scriptLine_comment _ _).trans hreturn.symm)
    rw [← hrest]
    simpa only [List.append_assoc, List.cons_append, List.nil_append] using hsame

/-- The bytes of a text have a line feed only for one in the text. -/
theorem feed_mem_textBytes {line : List Char} (h : (0x0A : UInt8) ∈ textBytes (String.ofList line)) :
    '\n' ∈ line := by
  rw [textBytes_ofList_eq] at h
  rcases List.mem_flatMap.mp h with ⟨c, hc, hbyte⟩
  by_cases hascii : c.toNat < 128
  · rw [utf8EncodeChar_eq hascii, List.mem_singleton] at hbyte
    rw [← byteChar_charByte hascii, ← hbyte] at hc
    exact hc
  · exact absurd (le_of_mem_utf8EncodeChar (Nat.not_lt.mp hascii) hbyte) (by decide)

/-- What is sent. -/
theorem scriptActions_send {text : String} {actions : List SerialScriptAction}
    (h : scriptActions path text = .ok actions) {bytes : List UInt8}
    (hsend : .send bytes ∈ actions) :
    ∃ payload : String, payload ≠ "" ∧ bytes = textBytes payload ++ [0x0D] ∧ 0x0A ∉ bytes ∧
      (textBytes payload).head? ≠ some 0x23 ∧
      (∀ space, isAsciiWhitespace space = true → ¬ [space, 0x23] <:+: textBytes payload) ∧
      ∀ lineNumber, lineAction path lineNumber payload.toList = .ok (some (.send bytes)) := by
  unfold scriptActions at h
  rw [scriptLoop_lines] at h
  rcases scriptLoop_send h hsend with ⟨rawLine, hmem, lineNumber, hline⟩
  rcases partAction_send hline with ⟨hne, rfl⟩
  rcases scriptLine_spec rawLine with ⟨hpre, _, hnone⟩
  -- the payload is a part of a line, and so without a feed
  have hfeed : '\n' ∉ scriptLine rawLine := by
    intro hfeed
    apply not_mem_of_mem_splitOn hmem
    have htrim : '\n' ∈ rawLine.dropWhile isUnicodeWhitespace :=
      (trimEnd_beginning _).subset (hpre.subset hfeed)
    exact (List.dropWhile_suffix _).subset htrim
  -- and it is what is left of a line before its comment, and so has none
  have hbytes : beforeCommentBytes none (textBytes (String.ofList (scriptLine rawLine))) = none := by
    have hstart : (none : Option UInt8).all isAsciiWhitespace = (none : Option Char).all fun p =>
        isAsciiChar p && isAsciiWhitespace (charByte p) := rfl
    rw [textBytes_ofList_eq, beforeComment_bytes _ hstart, hnone]
    rfl
  have hmarks := no_mark hbytes
  refine ⟨String.ofList (scriptLine rawLine), ?_, rfl, ?_, ?_, hmarks.2, ?_⟩
  · intro hempty
    apply hne
    have hnil := congrArg String.toList hempty
    rw [String.toList_ofList] at hnil
    exact hnil
  · rw [List.mem_append, not_or]
    exact ⟨mt feed_mem_textBytes hfeed, by decide⟩
  · intro hmark
    cases hmarks.1 hmark
  · intro lineNumber'
    rw [lineAction_scriptLine, String.toList_ofList, scriptLine_scriptLine]
    exact partAction_lineNumber hline lineNumber'

/-- **Scripts.** The parser goes line by line and does not see comments; what it sends is a text
that the parser would send again; and a directive gives its pause. -/
theorem script_laws (path : String) :
    (∀ text text' actions actions', scriptActions path text = .ok actions →
      scriptActions path text' = .ok actions' →
      scriptActions path (text ++ "\n" ++ text') = .ok (actions ++ actions')) ∧
    (∀ before line comment after : String,
      before.toList = [] ∨ before.toList.getLast? = some '\n' →
      after.toList = [] ∨ after.toList.head? = some '\n' ∨ ['\r', '\n'] <+: after.toList →
      '\n' ∉ line.toList → '\n' ∉ comment.toList →
      scriptActions path (before ++ line ++ " #" ++ comment ++ after) =
        scriptActions path (before ++ line ++ after)) ∧
    (∀ text actions, scriptActions path text = .ok actions → ∀ bytes, .send bytes ∈ actions →
      ∃ payload : String, payload ≠ "" ∧ bytes = textBytes payload ++ [0x0D] ∧ 0x0A ∉ bytes ∧
        (textBytes payload).head? ≠ some 0x23 ∧
        (∀ space, isAsciiWhitespace space = true → ¬ [space, 0x23] <:+: textBytes payload) ∧
        ∀ lineNumber, lineAction path lineNumber payload.toList = .ok (some (.send bytes))) ∧
    ∀ directive ∈ [("sleep", (1 : UInt64)), ("sleep_ms", 1), ("sleep_s", 1000)],
      ∀ rawLine value number, scriptLine rawLine = (directive.1 ++ " ").toList ++ value →
        fromStrRadix (String.ofList (trim value)) 10 = some number →
        ∃ ms : UInt64, ms.toNat = min (number.toNat * directive.2.toNat) (2 ^ 64 - 1) ∧
          ∀ lineNumber, lineAction path lineNumber rawLine = .ok (some (.sleepMs ms)) := by
  refine ⟨fun _ _ _ _ h h' => scriptActions_append h h', ?_, ?_, ?_⟩
  · intro before line comment after hbefore hafter hline hcomment
    exact scriptActions_comment hbefore hafter hline hcomment
  · intro text actions h bytes hsend
    exact scriptActions_send h hsend
  · intro directive hdirective rawLine value number hline hnumber
    refine ⟨U64.saturatingMul number directive.2, U64.toNat_saturatingMul _ _, ?_⟩
    intro lineNumber
    -- each of the three directives is found under its own name
    have hfound : directiveOf ((directive.1 ++ " ").toList ++ value) =
        some (directive, trim value) := by
      simp only [List.mem_cons, List.not_mem_nil, or_false] at hdirective
      rcases hdirective with rfl | rfl | rfl
      · rfl
      · rfl
      · rfl
    rw [lineAction_scriptLine, hline]
    exact partAction_directive hfound hnumber lineNumber

end Scripts

/-- A command with a comment and a pause, in one script. -/
theorem script_laws_commented :
    let path := "scripts/demo.txt"
    scriptActions path "help" = .ok [.send [0x68, 0x65, 0x6c, 0x70, 0x0D]] ∧
      scriptActions path " sleep_s 3" = .ok [.sleepMs 3000] ∧
      scriptActions path ("" ++ "help" ++ " #" ++ " what?" ++ "\r\n sleep_s 3") =
        .ok [.send [0x68, 0x65, 0x6c, 0x70, 0x0D], .sleepMs 3000] := by
  intro path
  have hhelp : scriptActions path "help" = .ok [.send [0x68, 0x65, 0x6c, 0x70, 0x0D]] := rfl
  have hsleep : scriptActions path " sleep_s 3" = .ok [.sleepMs 3000] := rfl
  rcases script_laws path with ⟨happend, hcomment, _, _⟩
  refine ⟨hhelp, hsleep, ?_⟩
  rw [hcomment "" "help" " what?" "\r\n sleep_s 3" (.inl rfl) (.inr (.inr ⟨_, rfl⟩)) (by decide)
    (by decide)]
  have hreturn : scriptActions path "help\r" = .ok [.send [0x68, 0x65, 0x6c, 0x70, 0x0D]] := rfl
  exact happend "help\r" " sleep_s 3" _ _ hreturn hsleep

end JingOS.Host
