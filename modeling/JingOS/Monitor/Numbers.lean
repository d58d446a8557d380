import JingOS.Lib.Numerals
import JingOS.Monitor.Command

/-!
# The numbers of the commands (`parse_u64` in `kernel/src/main.rs`)

* `parseU64_eq_some_iff` — the texts that are accepted, and as which number;
* `numbers_read_back` — every number that a command prints can be an argument of the next.
-/

namespace JingOS.Monitor

open Text

/-- A text of an argument for `n`: a sign or none, and digits, which are hexadecimal behind a
mark. -/
def Argument (text : List Char) (n : ℕ) : Prop :=
  ∃ sign ∈ [[], ['+']], ∃ digits ≠ [],
    (text = sign ++ digits ∧ Numeral 10 digits n) ∨
    ∃ mark ∈ ['x', 'X'], text = '0' :: mark :: (sign ++ digits) ∧ Numeral 16 digits n

section

variable {text : String} {mark : Char} {rest : List Char}

theorem parseU64_hexadecimal (h : text.toList = '0' :: mark :: rest) (hmark : mark ∈ ['x', 'X']) :
    parseU64 text = fromStrRadix (String.ofList rest) 16 := by
  unfold parseU64 stripStart
  rw [h, show "0x".toList = ['0', 'x'] from rfl, show "0X".toList = ['0', 'X'] from rfl]
  rw [List.mem_cons, List.mem_singleton] at hmark
  rcases hmark with rfl | rfl <;> rfl

theorem parseU64_decimal (h : ∀ mark ∈ ['x', 'X'], ¬ ['0', mark] <+: text.toList) :
    parseU64 text = fromStrRadix text 10 := by
  have hnone : ∀ mark ∈ ['x', 'X'], (['0', mark].isPrefixOf? text.toList) = none := by
    intro mark hmark
    rw [Option.eq_none_iff_forall_not_mem]
    intro rest hrest
    exact h mark hmark ⟨rest, List.isPrefixOf?_eq_some_iff_append_eq.mp hrest⟩
  unfold parseU64 stripStart
  rw [show "0x".toList = ['0', 'x'] from rfl, show "0X".toList = ['0', 'X'] from rfl,
    hnone 'x' (by decide), hnone 'X' (by decide)]
  rfl

end

/-- No mark stands among decimal digits. -/
theorem not_numeral_mark {mark : Char} (hmark : mark ∈ ['x', 'X']) {rest : List Char} {value : ℕ} :
    ¬ Numeral 10 ('0' :: mark :: rest) value := by
  have hdigit : toDigit 10 mark = none := by
    rw [List.mem_cons, List.mem_singleton] at hmark
    rcases hmark with rfl | rfl <;> rfl
  intro hnumeral
  have hsome := hnumeral.isSome mark (by simp)
  rw [hdigit] at hsome
  cases hsome

/-- The numeral of a radix, with a sign or without. -/
theorem fromStrRadix_signed {radix : ℕ} (hradix : 0 < radix) {text : String} {n : UInt64} :
    fromStrRadix text radix = some n ↔ ∃ sign ∈ [[], ['+']], ∃ digits ≠ [],
      text.toList = sign ++ digits ∧ Numeral radix digits n.toNat := by
  rw [fromStrRadix_eq_some_iff hradix]
  constructor
  · rintro ⟨digits, hne, htext | htext, hnumeral⟩
    · exact ⟨[], by simp, digits, hne, htext, hnumeral⟩
    · exact ⟨['+'], by simp, digits, hne, htext, hnumeral⟩
  · rintro ⟨sign, hsign, digits, hne, htext, hnumeral⟩
    refine ⟨digits, hne, ?_, hnumeral⟩
    rw [List.mem_cons, List.mem_singleton] at hsign
    rcases hsign with rfl | rfl
    · exact Or.inl htext
    · exact Or.inr htext

/-- What is accepted, and as which number. -/
theorem parseU64_eq_some_iff {text : String} {n : UInt64} :
    parseU64 text = some n ↔ Argument text.toList n.toNat := by
  -- `strip_prefix` decides which radix is read
  by_cases hhex : ∃ mark ∈ ['x', 'X'], ['0', mark] <+: text.toList
  · rcases hhex with ⟨mark, hmark, rest, hrest⟩
    have htext : text.toList = '0' :: mark :: rest := hrest.symm
    rw [parseU64_hexadecimal htext hmark, fromStrRadix_signed (by decide), String.toList_ofList]
    constructor
    · rintro ⟨sign, hsign, digits, hne, hsplit, hnumeral⟩
      refine ⟨sign, hsign, digits, hne, Or.inr ⟨mark, hmark, ?_, hnumeral⟩⟩
      rw [htext, hsplit]
    · rintro ⟨sign, hsign, digits, hne, ⟨hsplit, hnumeral⟩ | ⟨mark', _, hsplit, hnumeral⟩⟩
      · -- the mark would be a decimal digit
        rw [htext] at hsplit
        rw [List.mem_cons, List.mem_singleton] at hsign
        rcases hsign with rfl | rfl
        · rw [List.nil_append] at hsplit
          rw [← hsplit] at hnumeral
          exact absurd hnumeral (not_numeral_mark hmark)
        · cases hsplit
      · rw [htext] at hsplit
        injection hsplit with _ hsplit
        injection hsplit with _ hsplit
        exact ⟨sign, hsign, digits, hne, hsplit, hnumeral⟩
  · have hplain : ∀ mark ∈ ['x', 'X'], ¬ ['0', mark] <+: text.toList :=
      fun mark hmark hprefix => hhex ⟨mark, hmark, hprefix⟩
    rw [parseU64_decimal hplain, fromStrRadix_signed (by decide)]
    constructor
    · rintro ⟨sign, hsign, digits, hne, hsplit, hnumeral⟩
      exact ⟨sign, hsign, digits, hne, Or.inl ⟨hsplit, hnumeral⟩⟩
    · rintro ⟨sign, hsign, digits, hne, ⟨hsplit, hnumeral⟩ | ⟨mark, hmark, hsplit, _⟩⟩
      · exact ⟨sign, hsign, digits, hne, hsplit, hnumeral⟩
      · exact absurd ⟨sign ++ digits, hsplit.symm⟩ (hplain mark hmark)

/-- A decimal numeral is an argument. -/
theorem parseU64_of_fromStrRadix {text : String} {n : UInt64} (h : fromStrRadix text 10 = some n) :
    parseU64 text = some n := by
  rw [fromStrRadix_signed (by decide)] at h
  rcases h with ⟨sign, hsign, digits, hne, hsplit, hnumeral⟩
  rw [parseU64_eq_some_iff]
  exact ⟨sign, hsign, digits, hne, Or.inl ⟨hsplit, hnumeral⟩⟩

/-- **Numbers.** A command takes exactly the 64-bit numbers in decimal, or in hexadecimal behind
`0x` or `0X`, with a sign or without; and what any command prints as a number, with whatever width
and filled up with zeros or blanks, the next one takes for this number. -/
theorem numbers_read_back (n : UInt64) (width : ℕ) :
    (∀ text, parseU64 text = some n ↔ Argument text.toList n.toNat) ∧
      parseU64 (toString n) = some n ∧ parseU64 (padLeft width '0' (toString n)) = some n ∧
      parseU64 (hexPadded n.toNat width) = some n ∧
      parseU64 (trimStart (dec n.toNat width)) = some n := by
  have hdecimal : parseU64 (toString n) = some n := parseU64_of_fromStrRadix (fromStrRadix_toString n)
  refine ⟨fun text => parseU64_eq_some_iff, hdecimal,
    parseU64_of_fromStrRadix (fromStrRadix_zeros n width), ?_, ?_⟩
  · have hhexadecimal : fromStrRadix (padLeft (width - 2) '0'
        (String.ofList (Nat.toDigits 16 n.toNat))) 16 = some n :=
      fromStrRadix_padLeft (by decide) (by decide) n (width - 2)
    rw [fromStrRadix_signed (by decide)] at hhexadecimal
    rcases hhexadecimal with ⟨sign, hsign, digits, hne, hsplit, hnumeral⟩
    rw [parseU64_eq_some_iff]
    refine ⟨sign, hsign, digits, hne, Or.inr ⟨'x', by decide, ?_, hnumeral⟩⟩
    unfold hexPadded
    rw [String.toList_append, hsplit]
    rfl
  · rw [trimStart_dec]
    exact hdecimal

end JingOS.Monitor
