import JingOS.Lib.Text
import Mathlib.Data.Nat.Digits.Defs
import Mathlib.Tactic.Ring

/-!
# Numerals

What a reader of 64-bit numbers accepts, and that it reads back what is written.

* `Numeral` — digits and their value, of any size;
* `fromStrRadix_eq_some_iff` — what is read is the value of a numeral, if that is below 2^64;
* `fromStrRadix_toDigits` — a number that was written is read back.
-/

namespace Text

/-- The text is digits, and this is their value, the highest first. -/
def Numeral (radix : ℕ) (text : List Char) (value : ℕ) : Prop :=
  ∃ digits, text.mapM (toDigit radix) = some digits ∧ value = Nat.ofDigits radix digits.reverse

theorem mapM_cons_eq_some {α β : Type} {f : α → Option β} {a : α} {b : β} (h : f a = some b)
    {as : List α} {all : List β} :
    (a :: as).mapM f = some all ↔ ∃ bs, as.mapM f = some bs ∧ all = b :: bs := by
  rw [List.mapM_cons, h]
  cases as.mapM f with
  | none => simp
  | some bs => simp [eq_comm]

section

variable {radix : ℕ}

/-- The digits behind a value that has been read so far. A value that does not fit never comes back
below the limit. -/
theorem foldlM_appendDigit (hradix : 0 < radix) {text : List Char} {start value : ℕ}
    (hstart : start < 2 ^ 64) :
    text.foldlM (appendDigit radix) start = some value ↔
      ∃ digits, text.mapM (toDigit radix) = some digits ∧
        value = start * radix ^ digits.length + Nat.ofDigits radix digits.reverse ∧
        value < 2 ^ 64 := by
  induction text generalizing start with
  | nil =>
    simp only [List.foldlM_nil, List.mapM_nil, Option.pure_def, Option.some.injEq, exists_eq_left',
      List.length_nil, List.reverse_nil, Nat.ofDigits_nil, pow_zero, Nat.mul_one, Nat.add_zero]
    constructor
    · rintro rfl
      exact ⟨rfl, hstart⟩
    · exact fun h => h.1.symm
  | cons c text ih =>
    rw [List.foldlM_cons]
    cases hdigit : toDigit radix c with
    | none =>
      -- a character that is no digit ends the number on both sides
      have hstep : appendDigit radix start c = none := by rw [appendDigit, hdigit]; rfl
      rw [hstep, List.mapM_cons, hdigit]
      constructor
      · intro h
        cases h
      · rintro ⟨digits, hmap, _⟩
        cases hmap
    | some digit =>
      have hstep : appendDigit radix start c =
          if start * radix + digit < 2 ^ 64 then some (start * radix + digit) else none := by
        rw [appendDigit, hdigit]
        rfl
      -- the digit counts as the highest of those that are left
      have hvalue : ∀ digits : List ℕ, start * radix ^ (digit :: digits).length +
          Nat.ofDigits radix (digit :: digits).reverse =
          (start * radix + digit) * radix ^ digits.length + Nat.ofDigits radix digits.reverse := by
        intro digits
        rw [List.reverse_cons, Nat.ofDigits_append, Nat.ofDigits_singleton, List.length_cons,
          List.length_reverse]
        ring
      rw [hstep]
      by_cases hfits : start * radix + digit < 2 ^ 64
      · rw [if_pos hfits]
        change List.foldlM (appendDigit radix) (start * radix + digit) text = some value ↔ _
        rw [ih hfits]
        constructor
        · rintro ⟨digits, hmap, hsum, hlimit⟩
          refine ⟨digit :: digits, (mapM_cons_eq_some hdigit).mpr ⟨digits, hmap, rfl⟩, ?_, hlimit⟩
          rw [hvalue]
          exact hsum
        · rintro ⟨all, hmap, hsum, hlimit⟩
          rcases (mapM_cons_eq_some hdigit).mp hmap with ⟨digits, hdigits, rfl⟩
          rw [hvalue] at hsum
          exact ⟨digits, hdigits, hsum, hlimit⟩
      · -- what does not fit now does not fit with more digits
        rw [if_neg hfits]
        constructor
        · intro h
          cases h
        · rintro ⟨all, hmap, hsum, hlimit⟩
          rcases (mapM_cons_eq_some hdigit).mp hmap with ⟨digits, _, rfl⟩
          rw [hvalue] at hsum
          have hgrows := Nat.le_mul_of_pos_right (start * radix + digit)
            (Nat.pow_pos hradix : 0 < radix ^ digits.length)
          omega

/-- The loop over the digits succeeds on the numerals whose value fits. -/
theorem foldlM_numeral (hradix : 0 < radix) {text : List Char} {value : ℕ} :
    text.foldlM (appendDigit radix) 0 = some value ↔ Numeral radix text value ∧ value < 2 ^ 64 := by
  rw [foldlM_appendDigit hradix (by decide)]
  unfold Numeral
  constructor
  · rintro ⟨digits, hmap, hsum, hlimit⟩
    exact ⟨⟨digits, hmap, by omega⟩, hlimit⟩
  · rintro ⟨⟨digits, hmap, hsum⟩, hlimit⟩
    exact ⟨digits, hmap, by omega, hlimit⟩

/-- A sign is no digit. -/
theorem toDigit_plus (radix : ℕ) : toDigit radix '+' = none := rfl

theorem not_numeral_plus {text : List Char} {value : ℕ} : ¬ Numeral radix ('+' :: text) value := by
  rintro ⟨digits, hmap, _⟩
  rw [List.mapM_cons, toDigit_plus] at hmap
  cases hmap

/-- **Reading.** A number is read from digits, with or without a sign, when their value fits. -/
theorem fromStrRadix_eq_some_iff (hradix : 0 < radix) {text : String} {n : UInt64} :
    fromStrRadix text radix = some n ↔ ∃ digits ≠ [],
      (text.toList = digits ∨ text.toList = '+' :: digits) ∧ Numeral radix digits n.toNat := by
  have hread : ∀ digits : List Char,
      (digits.foldlM (appendDigit radix) 0).map UInt64.ofNat = some n ↔
        Numeral radix digits n.toNat := by
    intro digits
    rw [Option.map_eq_some_iff]
    constructor
    · rintro ⟨value, hfold, rfl⟩
      rcases (foldlM_numeral hradix).mp hfold with ⟨hnumeral, hlimit⟩
      rwa [UInt64.toNat_ofNat_of_lt' hlimit]
    · intro hnumeral
      exact ⟨n.toNat, (foldlM_numeral hradix).mpr ⟨hnumeral, n.toNat_lt⟩, UInt64.ofNat_toNat⟩
  unfold fromStrRadix
  -- the text is empty, a lone sign, behind a sign, or without one
  split
  · next hnil =>
    rw [hnil]
    constructor
    · intro h
      cases h
    · rintro ⟨digits, hne, hdigits | hdigits, _⟩
      · exact absurd hdigits.symm hne
      · cases hdigits
  · next hplus =>
    rw [hplus]
    constructor
    · intro h
      cases h
    · rintro ⟨digits, hne, hdigits | hdigits, hnumeral⟩
      · rw [← hdigits] at hnumeral
        exact absurd hnumeral not_numeral_plus
      · cases hdigits
        exact absurd rfl hne
  · next digits hne hplus =>
    rw [hplus, hread]
    constructor
    · exact fun hnumeral => ⟨digits, hne, Or.inr rfl, hnumeral⟩
    · rintro ⟨digits', _, hdigits | hdigits, hnumeral⟩
      · rw [← hdigits] at hnumeral
        exact absurd hnumeral not_numeral_plus
      · cases hdigits
        exact hnumeral
  · next digits hne _ hplus =>
    rw [hread]
    constructor
    · exact fun hnumeral => ⟨_, fun hnil => hne hnil, Or.inl rfl, hnumeral⟩
    · rintro ⟨digits', _, hdigits | hdigits, hnumeral⟩
      · rw [hdigits]
        exact hnumeral
      · exact absurd hdigits (hplus digits')

end

/-- Every character of a numeral is a digit. -/
theorem Numeral.isSome {radix : ℕ} {text : List Char} {value : ℕ} (h : Numeral radix text value) :
    ∀ c ∈ text, (toDigit radix c).isSome = true := by
  rcases h with ⟨digits, hmap, -⟩
  induction text generalizing digits with
  | nil => simp
  | cons c text ih =>
    rw [List.mapM_cons] at hmap
    rcases Option.bind_eq_some_iff.mp hmap with ⟨digit, hdigit, hrest⟩
    rcases Option.bind_eq_some_iff.mp hrest with ⟨digits', hdigits, -⟩
    intro c' hc'
    rcases List.mem_cons.mp hc' with rfl | hmem
    · rw [hdigit]
      rfl
    · exact ih digits' hdigits c' hmem

/-! ## Written numbers -/

section

variable {base : ℕ}

theorem toDigit_digitChar (hbase : base ≤ 16) {digit : ℕ} (hdigit : digit < base) :
    toDigit base digit.digitChar = some digit := by
  have hvalue : ∀ digit < 16, digitValue (Nat.digitChar digit) = some digit := by decide
  rw [toDigit, hvalue digit (hdigit.trans_le hbase), Option.filter_some, if_pos]
  exact decide_eq_true hdigit

/-- The digits of a number are a numeral for it. -/
theorem numeral_toDigits (hone : 1 < base) (hbase : base ≤ 16) (n : ℕ) :
    Numeral base (Nat.toDigits base n) n := by
  induction n using Nat.strong_induction_on with
  | h n ih =>
    by_cases hn : n < base
    · rw [Nat.toDigits_of_lt_base hn]
      refine ⟨[n], (mapM_cons_eq_some (toDigit_digitChar hbase hn)).mpr ⟨[], rfl, rfl⟩, ?_⟩
      exact (Nat.ofDigits_singleton).symm
    · rcases ih (n / base) (Nat.div_lt_self (by omega) hone) with ⟨digits, hmap, hvalue⟩
      -- the last digit, behind the numeral of the rest
      have hlast : n % base < base := Nat.mod_lt n (by omega)
      rw [Nat.toDigits_of_base_le hone (Nat.not_lt.mp hn)]
      refine ⟨digits ++ [n % base], ?_, ?_⟩
      · have hdigit : [(n % base).digitChar].mapM (toDigit base) = some [n % base] :=
          (mapM_cons_eq_some (toDigit_digitChar hbase hlast)).mpr ⟨[], rfl, rfl⟩
        rw [List.mapM_append, hmap, hdigit]
        rfl
      · rw [List.reverse_append, List.reverse_singleton, List.singleton_append, Nat.ofDigits_cons,
          ← hvalue]
        exact (Nat.mod_add_div n base).symm

/-- Zeros in front of a numeral make no difference. -/
theorem Numeral.zeros (hbase : 0 < base) {text : List Char} {value : ℕ}
    (h : Numeral base text value) (count : ℕ) :
    Numeral base (List.replicate count '0' ++ text) value := by
  have hzero : toDigit base '0' = some 0 := by
    rw [toDigit, show digitValue '0' = some 0 from rfl, Option.filter_some, if_pos]
    exact decide_eq_true hbase
  induction count with
  | zero => exact h
  | succ count ih =>
    -- the new digit is the highest, behind which the value is unchanged
    rcases ih with ⟨digits, hmap, hvalue⟩
    refine ⟨0 :: digits, (mapM_cons_eq_some hzero).mpr ⟨digits, hmap, rfl⟩, ?_⟩
    rw [List.reverse_cons, Nat.ofDigits_append, Nat.ofDigits_singleton, Nat.mul_zero, Nat.add_zero]
    exact hvalue

/-- **Writing.** A number that was written, filled up with zeros or not, is read back. -/
theorem fromStrRadix_padLeft (hone : 1 < base) (hbase : base ≤ 16) (n : UInt64) (width : ℕ) :
    fromStrRadix (padLeft width '0' (String.ofList (Nat.toDigits base n.toNat))) base = some n := by
  rw [fromStrRadix_eq_some_iff (by omega)]
  refine ⟨_, ?_, Or.inl rfl, ?_⟩
  · intro hnil
    rw [padLeft, String.toList_ofList, String.toList_ofList, List.leftpad,
      List.append_eq_nil_iff] at hnil
    exact Nat.toDigits_ne_nil hnil.2
  · rw [padLeft, String.toList_ofList, String.toList_ofList]
    exact (numeral_toDigits hone hbase n.toNat).zeros (by omega) _

theorem fromStrRadix_zeros (n : UInt64) (width : ℕ) :
    fromStrRadix (padLeft width '0' (toString n)) 10 = some n := by
  have htext : toString n = String.ofList (Nat.toDigits 10 n.toNat) :=
    Nat.toString_eq_ofList_toDigits
  rw [htext]
  exact fromStrRadix_padLeft (by decide) (by decide) n width

theorem fromStrRadix_toString (n : UInt64) : fromStrRadix (toString n) 10 = some n := by
  have htext : padLeft 0 '0' (toString n) = toString n := by
    rw [padLeft, List.leftpad, Nat.zero_sub, List.replicate_zero, List.nil_append,
      String.ofList_toList]
  have hzeros := fromStrRadix_zeros n 0
  rwa [htext] at hzeros

/-- The blanks in front of a number with a width. -/
theorem trimStart_dec (n : UInt64) (width : ℕ) : trimStart (dec n.toNat width) = toString n := by
  have hdigits : ∀ c ∈ Nat.toDigits 10 n.toNat, isWhitespace c = false :=
    forall_mem_toDigits (by decide) (by decide) _
  have htext : (toString n).toList = Nat.toDigits 10 n.toNat := Nat.toList_repr
  have hdrop : ∀ count, (List.replicate count ' ' ++ Nat.toDigits 10 n.toNat).dropWhile isWhitespace =
      Nat.toDigits 10 n.toNat := by
    intro count
    induction count with
    | zero =>
      rw [List.replicate_zero, List.nil_append]
      cases hsplit : Nat.toDigits 10 n.toNat with
      | nil => rfl
      | cons c rest =>
        rw [hsplit] at hdigits
        rw [List.dropWhile_cons_of_neg]
        rw [hdigits c List.mem_cons_self]
        decide
    | succ count ih => exact ih
  unfold trimStart dec padLeft
  rw [String.toList_ofList, List.leftpad, show (toString n.toNat).toList = _ from Nat.toList_repr,
    hdrop, ← htext, String.ofList_toList]

end

end Text
