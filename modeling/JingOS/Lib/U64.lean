import Mathlib.Data.UInt
import Mathlib.Tactic.Common

/-!
# Saturating and checked arithmetic on 64-bit words

`UInt64` wraps around. The operations here are the ones that do not: they stop at the
largest or smallest word, or report the overflow. What one of them is on natural numbers is
said by one lemma; everything else follows from it by `omega`.
-/

namespace U64

/-- The largest 64-bit word. -/
def maxVal : UInt64 := 18446744073709551615

/-- Addition that stops at `maxVal`. -/
def saturatingAdd (a b : UInt64) : UInt64 :=
  if a.toNat + b.toNat < 2 ^ 64 then a + b else maxVal

/-- Multiplication that stops at `maxVal`. -/
def saturatingMul (a b : UInt64) : UInt64 :=
  if a.toNat * b.toNat < 2 ^ 64 then a * b else maxVal

/-- Subtraction that stops at 0. -/
def saturatingSub (a b : UInt64) : UInt64 := if b ≤ a then a - b else 0

/-- Addition that reports an overflow. -/
def checkedAdd (a b : UInt64) : Option UInt64 :=
  if a.toNat + b.toNat < 2 ^ 64 then some (a + b) else none

@[simp] theorem toNat_maxVal : maxVal.toNat = 2 ^ 64 - 1 := rfl

theorem toNat_saturatingAdd (a b : UInt64) :
    (saturatingAdd a b).toNat = min (a.toNat + b.toNat) (2 ^ 64 - 1) := by
  unfold saturatingAdd
  split
  · rw [UInt64.toNat_add]
    omega
  · rw [toNat_maxVal]
    omega

theorem toNat_saturatingMul (a b : UInt64) :
    (saturatingMul a b).toNat = min (a.toNat * b.toNat) (2 ^ 64 - 1) := by
  unfold saturatingMul
  split
  · next hlt =>
    rw [UInt64.toNat_mul, Nat.mod_eq_of_lt hlt]
    omega
  · rw [toNat_maxVal]
    omega

/-- Below the limit a saturating increment is a strict one. -/
theorem toNat_succ_of_lt {a : UInt64} (h : a < maxVal) :
    (saturatingAdd a 1).toNat = a.toNat + 1 := by
  rw [UInt64.lt_iff_toNat_lt, toNat_maxVal] at h
  rw [toNat_saturatingAdd, UInt64.toNat_one]
  omega

theorem le_saturatingAdd (a b : UInt64) : a ≤ saturatingAdd a b := by
  rw [UInt64.le_iff_toNat_le, toNat_saturatingAdd]
  have := a.toNat_lt
  omega

end U64
