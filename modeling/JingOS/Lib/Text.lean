import Mathlib.Data.List.DropRight
import Mathlib.Data.UInt

/-!
# Texts, their words and their numbers

Splitting a line into words, reading an unsigned number in a given radix, and writing one with
a width: the operations of Rust's `str`, `u64` and `fmt`, on ASCII. Splitting a text into lines
and trimming them is on all of Unicode.
-/

namespace Text

/-- `char::is_whitespace`, for ASCII: the lines that a program reads here hold no other character.
`isUnicodeWhitespace` is the same for every character. -/
def isWhitespace (c : Char) : Bool := c == ' ' || (9 ≤ c.toNat && c.toNat ≤ 13)

/-- `split_whitespace`: the non-empty pieces between white space. -/
def splitWhitespace (text : String) : List String :=
  ((text.toList.splitOnP isWhitespace).filter (!·.isEmpty)).map String.ofList

/-- `trim_start`. -/
def trimStart (text : String) : String := String.ofList (text.toList.dropWhile isWhitespace)

/-- `strip_prefix`: what follows `start` at the beginning of the text. -/
def stripStart (text start : String) : Option String :=
  (start.toList.isPrefixOf? text.toList).map String.ofList

/-! ## Lines -/

/-- `char::is_whitespace`, for every character. -/
def isUnicodeWhitespace (c : Char) : Bool :=
  isWhitespace c || c.toNat == 0x85 || c.toNat == 0xA0 || c.toNat == 0x1680 ||
    (0x2000 ≤ c.toNat && c.toNat ≤ 0x200A) || c.toNat == 0x2028 || c.toNat == 0x2029 ||
    c.toNat == 0x202F || c.toNat == 0x205F || c.toNat == 0x3000

/-- `trim_end`. -/
def trimEnd (line : List Char) : List Char := line.rdropWhile isUnicodeWhitespace

/-- `trim`. -/
def trim (line : List Char) : List Char := trimEnd (line.dropWhile isUnicodeWhitespace)

/-- A line without the carriage return of its end. -/
def stripReturn (line : List Char) : List Char :=
  if line.getLast? = some '\r' then line.dropLast else line

/-- `lines`: a line feed ends a line, with a carriage return before it. Behind the last line feed
there is a line only if there is text. -/
def lines (text : List Char) : List (List Char) :=
  let pieces := text.splitOn '\n'
  pieces.dropLast.map stripReturn ++ pieces.getLast?.toList.filter (!·.isEmpty)

theorem trim_eq_self {line : List Char} (hhead : ∀ c ∈ line.head?, isUnicodeWhitespace c = false)
    (hlast : ∀ c ∈ line.getLast?, isUnicodeWhitespace c = false) : trim line = line := by
  have hstart : line.dropWhile isUnicodeWhitespace = line := by
    cases line with
    | nil => rfl
    | cons c rest => exact List.dropWhile_cons_of_neg (by rw [hhead c rfl]; decide)
  unfold trim trimEnd
  rw [hstart, List.rdropWhile_eq_self_iff]
  intro hne hspace
  rw [hlast _ (List.getLast?_eq_some_getLast hne)] at hspace
  cases hspace

/-- At the end of two pieces the second is trimmed first, and the first only if nothing is left. -/
theorem trimEnd_append (front back : List Char) :
    trimEnd (front ++ back) = if trimEnd back = [] then trimEnd front else front ++ trimEnd back := by
  unfold trimEnd List.rdropWhile
  rw [List.reverse_append, List.dropWhile_append]
  by_cases hback : back.reverse.dropWhile isUnicodeWhitespace = []
  · rw [if_pos (List.isEmpty_iff.mpr hback), if_pos (List.reverse_eq_nil_iff.mpr hback)]
  · rw [if_neg (mt List.isEmpty_iff.mp hback), if_neg (mt List.reverse_eq_nil_iff.mp hback),
      List.reverse_append, List.reverse_reverse]

theorem trimEnd_eq_nil {back : List Char} (h : ∀ c ∈ back, isUnicodeWhitespace c = true) :
    trimEnd back = [] := List.rdropWhile_eq_nil_iff.mpr h

/-- Trimming stops before the first character that is no white space. -/
theorem trimEnd_cons {c : Char} (hc : isUnicodeWhitespace c = false) (rest : List Char) :
    trimEnd (c :: rest) = c :: trimEnd rest := by
  have hone : trimEnd [c] = [c] := by
    unfold trimEnd
    rw [List.rdropWhile_singleton, hc]
    rfl
  rw [← List.singleton_append, trimEnd_append, hone]
  split
  · next hnil => rw [hnil]
  · rfl

/-- White space at the end of a line does not matter. -/
theorem trim_append_whitespace (line : List Char) {back : List Char}
    (h : ∀ c ∈ back, isUnicodeWhitespace c = true) : trim (line ++ back) = trim line := by
  unfold trim
  rw [List.dropWhile_append]
  split
  · next hnil =>
    rw [List.isEmpty_iff] at hnil
    rw [hnil, List.dropWhile_eq_nil_iff.mpr h]
  · rw [trimEnd_append, if_pos (trimEnd_eq_nil h)]

theorem trim_append_return (line : List Char) : trim (line ++ ['\r']) = trim line := by
  apply trim_append_whitespace
  intro c hc
  rw [List.mem_singleton.mp hc]
  rfl

theorem trimEnd_beginning (line : List Char) : trimEnd line <+: line := List.rdropWhile_prefix _ _

theorem getLast_trimEnd (line : List Char) :
    ∀ c ∈ (trimEnd line).getLast?, isUnicodeWhitespace c = false := by
  intro c hc
  have hne : trimEnd line ≠ [] := by
    intro hnil
    rw [hnil] at hc
    cases hc
  have hlast := List.rdropWhile_last_not isUnicodeWhitespace line hne
  rw [Option.mem_def, List.getLast?_eq_some_getLast hne, Option.some_inj] at hc
  rw [← Bool.not_eq_true, ← hc]
  exact hlast

theorem head_trim (line : List Char) : ∀ c ∈ (trim line).head?, isUnicodeWhitespace c = false := by
  intro c hc
  change (trimEnd (line.dropWhile isUnicodeWhitespace)).head? = some c at hc
  rcases trimEnd_beginning (line.dropWhile isUnicodeWhitespace) with ⟨back, hback⟩
  have hhead : (line.dropWhile isUnicodeWhitespace).head? = some c := by
    rw [← hback, List.head?_append, hc]
    rfl
  have hnot := List.head?_dropWhile_not isUnicodeWhitespace line
  rw [hhead] at hnot
  exact hnot

/-- A beginning of a trimmed line is trimmed at its end only. -/
theorem trim_of_beginning {line front : List Char} (h : front <+: trim line) :
    trim front = trimEnd front := by
  have hstart : front.dropWhile isUnicodeWhitespace = front := by
    cases front with
    | nil => rfl
    | cons c rest =>
      rcases h with ⟨back, hback⟩
      have hc := head_trim line c (by rw [← hback]; rfl)
      exact List.dropWhile_cons_of_neg (by rw [hc]; decide)
  rw [trim, hstart]

theorem trim_trim (line : List Char) : trim (trim line) = trim line :=
  trim_eq_self (head_trim line) (getLast_trimEnd _)

/-- The carriage return at the end of a line is white space. -/
theorem trim_stripReturn (line : List Char) : trim (stripReturn line) = trim line := by
  unfold stripReturn
  split
  · next hlast =>
    have hline : line = line.dropLast ++ ['\r'] := (List.dropLast_append_getLast? _ hlast).symm
    rw [hline, List.dropLast_concat, trim_append_return]
  · rfl

/-- No piece holds what the text was split at. -/
theorem not_mem_of_mem_splitOn {separator : Char} {text : List Char} :
    ∀ {piece : List Char}, piece ∈ text.splitOn separator → separator ∉ piece := by
  induction text with
  | nil =>
    intro piece hpiece
    rw [List.splitOn_nil, List.mem_singleton] at hpiece
    rw [hpiece]
    exact List.not_mem_nil
  | cons c rest ih =>
    intro piece hpiece
    rw [List.splitOn_cons_eq_if_modifyHead] at hpiece
    by_cases hc : (c == separator) = true
    · rw [if_pos hc] at hpiece
      rcases List.mem_cons.mp hpiece with rfl | hpiece
      · exact List.not_mem_nil
      · exact ih hpiece
    · rw [if_neg hc] at hpiece
      -- the character belongs to the first of the pieces behind it
      rcases List.exists_cons_of_ne_nil (List.splitOn_ne_nil separator rest) with
        ⟨first, others, hsplit⟩
      rw [hsplit, List.modifyHead_cons] at hpiece
      rcases List.mem_cons.mp hpiece with rfl | hpiece
      · rw [List.mem_cons, not_or]
        refine ⟨fun heq => hc (by rw [heq]; exact beq_self_eq_true _), ih ?_⟩
        rw [hsplit]
        exact List.mem_cons_self
      · apply ih
        rw [hsplit]
        exact List.mem_cons_of_mem _ hpiece

/-- Lines that are joined by line feeds are read back. -/
theorem lines_intercalate {texts : List (List Char)} (hne : texts ≠ [])
    (hfeed : ∀ text ∈ texts, '\n' ∉ text) (hreturn : ∀ text ∈ texts, '\r' ∉ text)
    (hempty : ∀ text ∈ texts, text ≠ []) : lines (['\n'].intercalate texts) = texts := by
  unfold lines
  rw [List.splitOn_intercalate '\n' hfeed hne]
  have hstrip : texts.dropLast.map stripReturn = texts.dropLast := by
    refine (List.map_congr_left ?_).trans (List.map_id _)
    intro text htext
    have hlast : text.getLast? ≠ some '\r' := fun hlast =>
      hreturn text (List.mem_of_mem_dropLast htext) (List.mem_of_getLast? hlast)
    exact if_neg hlast
  have hlast : texts.getLast?.toList.filter (!·.isEmpty) = [texts.getLast hne] := by
    have hmem := hempty _ (List.getLast_mem hne)
    rw [List.getLast?_eq_some_getLast hne, Option.toList_some]
    simp [hmem]
  simp only [hstrip, hlast]
  exact List.dropLast_append_getLast hne

/-! ## Reading numbers -/

/-- The value of a letter or a digit. -/
def digitValue (c : Char) : Option ℕ :=
  if '0' ≤ c ∧ c ≤ '9' then some (c.toNat - '0'.toNat)
  else if 'a' ≤ c ∧ c ≤ 'z' then some (c.toNat - 'a'.toNat + 10)
  else if 'A' ≤ c ∧ c ≤ 'Z' then some (c.toNat - 'A'.toNat + 10)
  else none

/-- `char::to_digit`. -/
def toDigit (radix : ℕ) (c : Char) : Option ℕ := (digitValue c).filter (· < radix)

/-- One more digit of a 64-bit number. -/
def appendDigit (radix value : ℕ) (c : Char) : Option ℕ := do
  let digit ← toDigit radix c
  let value := value * radix + digit
  if value < 2 ^ 64 then some value else none

/-- `u64::from_str_radix(..).ok()`: one `+` may stand in front of the digits. -/
def fromStrRadix (text : String) (radix : ℕ) : Option UInt64 :=
  match text.toList with
  | [] => none
  | ['+'] => none
  | '+' :: digits => (digits.foldlM (appendDigit radix) 0).map UInt64.ofNat
  | digits => (digits.foldlM (appendDigit radix) 0).map UInt64.ofNat

/-! ## Writing numbers -/

/-- The text, filled up on the left. -/
def padLeft (width : ℕ) (fill : Char) (text : String) : String :=
  String.ofList (List.leftpad width fill text.toList)

/-- `{:>w}`. -/
def dec (n width : ℕ) : String := padLeft width ' ' (toString n)

/-- `{:#0wx}`: the width counts the `0x`. -/
def hexPadded (n width : ℕ) : String :=
  "0x" ++ padLeft (width - 2) '0' (String.ofList (Nat.toDigits 16 n))

/-- `{:#x}`. -/
def hex (n : ℕ) : String := hexPadded n 0

/-- `{:?}` of an optional number. -/
def debugOption : Option UInt64 → String
  | none => "None"
  | some n => s!"Some({n})"

/-- What holds of every digit of the base holds of every character of a number. -/
theorem forall_mem_toDigits {P : Char → Prop} {base : ℕ} (hbase : 1 < base)
    (hdigit : ∀ digit < base, P digit.digitChar) (n : ℕ) : ∀ c ∈ Nat.toDigits base n, P c := by
  induction n using Nat.strong_induction_on with
  | h n ih =>
    by_cases hn : n < base
    · rw [Nat.toDigits_of_lt_base hn]
      intro c hc
      rw [List.mem_singleton.mp hc]
      exact hdigit n hn
    · rw [Nat.toDigits_of_base_le hbase (Nat.not_lt.mp hn)]
      intro c hc
      rcases List.mem_append.mp hc with hc | hc
      · exact ih (n / base) (Nat.div_lt_self (by omega) hbase) c hc
      · rw [List.mem_singleton.mp hc]
        exact hdigit _ (Nat.mod_lt n (by omega))

theorem forall_mem_hexPadded {P : Char → Prop} (hmark : P 'x')
    (hdigit : ∀ digit < 16, P digit.digitChar) (n width : ℕ) :
    ∀ c ∈ (hexPadded n width).toList, P c := by
  have hzero : P '0' := hdigit 0 (by decide)
  intro c hc
  unfold hexPadded padLeft at hc
  rw [String.toList_append] at hc
  rcases List.mem_append.mp hc with hc | hc
  · rw [show "0x" = String.ofList ['0', 'x'] from rfl, String.toList_ofList, List.mem_cons,
      List.mem_singleton] at hc
    rcases hc with rfl | rfl
    · exact hzero
    · exact hmark
  · rw [String.toList_ofList, String.toList_ofList] at hc
    unfold List.leftpad at hc
    rcases List.mem_append.mp hc with hc | hc
    · rw [List.eq_of_mem_replicate hc]
      exact hzero
    · exact forall_mem_toDigits (by decide) hdigit n c hc

end Text
