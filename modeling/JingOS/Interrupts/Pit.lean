import JingOS.Interrupts.Timer

/-!
# The arithmetic of `program_pit`

Two floor divisions of the same number and three clamps. Between the bounds of the rate the
clamps cut nothing, so the rate that is returned is `N / (N / h)` for the clamped request `h`.

* `div_div_div_self` — a third division brings the divisor back;
* `program_pit_sound` — the divisor, the bytes, and the rate for every request.
-/

namespace JingOS.Interrupts

/-! ## Floor division -/

section FloorDivision

variable {n h k : ℕ}

/-- The quotient by a quotient is not below the divisor. -/
theorem le_div_div (hpos : 0 < h) (hle : h ≤ n) : h ≤ n / (n / h) := by
  have hquot : 0 < n / h := Nat.div_pos hle hpos
  rw [Nat.le_div_iff_mul_le hquot]
  exact Nat.mul_div_le n h

/-- Dividing twice more brings the quotient back. -/
theorem div_div_div_self (hpos : 0 < h) (hle : h ≤ n) : n / (n / (n / h)) = n / h := by
  have hquot : 0 < n / h := Nat.div_pos hle hpos
  apply Nat.le_antisymm
  · exact Nat.div_le_div_left (le_div_div hpos hle) hpos
  · exact le_div_div hquot (Nat.div_le_self n h)

theorem div_div_mono (hle : h ≤ k) (hpos : 0 < h) (hk : k ≤ n) :
    n / (n / h) ≤ n / (n / k) := by
  have hquot : 0 < n / k := Nat.div_pos hk (hpos.trans_le hle)
  exact Nat.div_le_div_left (Nat.div_le_div_left hle hpos) hquot

end FloorDivision

/-! ## The clamps -/

theorem toNat_clamp {x lo hi : UInt32} (h : lo ≤ hi) :
    (clamp x lo hi).toNat = max lo.toNat (min x.toNat hi.toNat) := by
  rw [UInt32.le_iff_toNat_le] at h
  unfold clamp
  split
  · next hlt =>
    rw [UInt32.lt_iff_toNat_lt] at hlt
    omega
  · next hlo =>
    rw [UInt32.lt_iff_toNat_lt] at hlo
    split
    · next hlt =>
      rw [UInt32.lt_iff_toNat_lt] at hlt
      omega
    · next hhi =>
      rw [UInt32.lt_iff_toNat_lt] at hhi
      omega

/-- A value within the bounds is not cut. -/
theorem clamp_eq_self {x lo hi : UInt32} (hlo : lo ≤ x) (hhi : x ≤ hi) : clamp x lo hi = x := by
  unfold clamp
  rw [if_neg (UInt32.not_lt.mpr hlo), if_neg (UInt32.not_lt.mpr hhi)]

/-- The request after the first clamp. -/
def clampedHz (requestedHz : UInt32) : ℕ := (clamp requestedHz pitMinHz pitMaxHz).toNat

theorem clampedHz_eq (requestedHz : UInt32) :
    clampedHz requestedHz = max 19 (min requestedHz.toNat 1193182) :=
  toNat_clamp (by decide)

/-- Between the bounds of the rate the quotient is a divisor that a `u16` can hold. -/
theorem quotient_mem (requestedHz : UInt32) :
    1 ≤ 1193182 / clampedHz requestedHz ∧ 1193182 / clampedHz requestedHz ≤ 62799 := by
  have hhz := clampedHz_eq requestedHz
  constructor
  · exact Nat.div_pos (by omega) (by omega)
  · calc 1193182 / clampedHz requestedHz ≤ 1193182 / 19 := Nat.div_le_div_left (by omega) (by decide)
      _ = 62799 := by decide

/-- The second clamp cuts nothing. -/
theorem quotient_clamp (requestedHz : UInt32) :
    clamp (pitInputHz / clamp requestedHz pitMinHz pitMaxHz) 1 65535 =
      pitInputHz / clamp requestedHz pitMinHz pitMaxHz := by
  rcases quotient_mem requestedHz with ⟨hlo, hhi⟩
  have hdiv : (pitInputHz / clamp requestedHz pitMinHz pitMaxHz).toNat =
      1193182 / clampedHz requestedHz := UInt32.toNat_div _ _
  apply clamp_eq_self
  · rw [UInt32.le_iff_toNat_le, hdiv]
    exact hlo
  · rw [UInt32.le_iff_toNat_le, hdiv]
    exact hhi.trans (by decide)

/-- The divisor is the quotient, and the cast to `u16` keeps it. -/
theorem toNat_pitDivisor (requestedHz : UInt32) :
    (pitDivisor requestedHz).toNat = 1193182 / clampedHz requestedHz := by
  rcases quotient_mem requestedHz with ⟨hlo, hhi⟩
  have hdiv : (pitInputHz / clamp requestedHz pitMinHz pitMaxHz).toNat =
      1193182 / clampedHz requestedHz := UInt32.toNat_div _ _
  rw [pitDivisor, quotient_clamp, UInt32.toNat_toUInt16, hdiv]
  exact Nat.mod_eq_of_lt (by omega)

/-- The third clamp cuts nothing either. -/
theorem toNat_programPit (requestedHz : UInt32) :
    (programPit requestedHz).toNat = 1193182 / (1193182 / clampedHz requestedHz) := by
  have hhz := clampedHz_eq requestedHz
  have hlow : clampedHz requestedHz ≤ 1193182 / (1193182 / clampedHz requestedHz) :=
    le_div_div (by omega) (by omega)
  have hhigh : 1193182 / (1193182 / clampedHz requestedHz) ≤ 1193182 := Nat.div_le_self _ _
  have hdiv : (pitInputHz / (pitDivisor requestedHz).toUInt32).toNat =
      1193182 / (1193182 / clampedHz requestedHz) := by
    rw [UInt32.toNat_div, UInt16.toNat_toUInt32, toNat_pitDivisor]
    rfl
  rw [programPit, toNat_clamp (by decide), hdiv]
  change max 19 (min _ 1193182) = _
  omega

/-- A word is made of its low and its high byte. -/
theorem toNat_bytes (word : UInt16) :
    (word &&& 0x00ff).toUInt8.toNat + 256 * (word >>> 8).toUInt8.toNat = word.toNat := by
  have hlt := word.toNat_lt
  have hlow : (word &&& 0x00ff).toUInt8.toNat = word.toNat % 256 := by
    rw [UInt16.toNat_toUInt8, UInt16.toNat_and]
    change (word.toNat &&& (2 ^ 8 - 1)) % 2 ^ 8 = _
    rw [Nat.and_two_pow_sub_one_eq_mod]
    omega
  have hhigh : (word >>> 8).toUInt8.toNat = word.toNat / 256 := by
    rw [UInt16.toNat_toUInt8, UInt16.toNat_shiftRight]
    change (word.toNat >>> 8) % 2 ^ 8 = _
    rw [Nat.shiftRight_eq_div_pow]
    omega
  omega

/-! ## Programming once and again -/

theorem clampedHz_le_programPit (requestedHz : UInt32) :
    clampedHz requestedHz ≤ (programPit requestedHz).toNat ∧
      (programPit requestedHz).toNat ≤ 1193182 := by
  have hhz := clampedHz_eq requestedHz
  rw [toNat_programPit]
  constructor
  · exact le_div_div (by omega) (by omega)
  · exact Nat.div_le_self _ _

theorem programPit_mono {r₁ r₂ : UInt32} (h : r₁ ≤ r₂) : programPit r₁ ≤ programPit r₂ := by
  have hhz := clampedHz_eq r₁
  have hhz' := clampedHz_eq r₂
  rw [UInt32.le_iff_toNat_le] at h
  rw [UInt32.le_iff_toNat_le, toNat_programPit, toNat_programPit]
  exact div_div_mono (by omega) (by omega) (by omega)

/-- A rate that was returned is not clamped when it is requested. -/
theorem clampedHz_programPit (requestedHz : UInt32) :
    clampedHz (programPit requestedHz) = (programPit requestedHz).toNat := by
  have hhz := clampedHz_eq requestedHz
  have hrate := clampedHz_le_programPit requestedHz
  rw [clampedHz_eq]
  omega

theorem pitDivisor_programPit (requestedHz : UInt32) :
    pitDivisor (programPit requestedHz) = pitDivisor requestedHz := by
  have hhz := clampedHz_eq requestedHz
  rw [← UInt16.toNat_inj, toNat_pitDivisor, toNat_pitDivisor, clampedHz_programPit,
    toNat_programPit]
  exact div_div_div_self (by omega) (by omega)

/-- In every reachable state the rate is one that `program_pit` has returned: it is written by
`set_pit_hz` only, and it is declared with what `init` programs. -/
theorem pitHz_of_reachable {s : Timer} (h : timer.Reachable Timer.initial s) :
    ∃ r, s.pitHz.hz = programPit r := by
  rcases h with ⟨ops, rfl⟩
  refine timer.run_invariant (fun s => ∃ r, s.pitHz.hz = programPit r) ?_ ⟨100, by decide⟩ ops
  rintro s op ⟨r, hr⟩
  cases op with
  | setPitHz requestedHz => exact ⟨requestedHz, rfl⟩
  | interrupt | uptimeSyscall | uptimeCommand => exact ⟨r, hr⟩

/-- **The PIT.** For every request: nothing is divided by 0, the divisor is the quotient itself
and is what the two bytes say; the rate is not below the clamped request nor above the input
rate, grows with the request, and requesting it again changes neither it nor the divisor. And
in every reachable state of the timer the rate is at least 19, so the uptime is defined. -/
theorem program_pit_sound :
    (∀ r, clamp r pitMinHz pitMaxHz ≠ 0 ∧ (pitDivisor r).toUInt32 ≠ 0 ∧
      clamp (pitInputHz / clamp r pitMinHz pitMaxHz) 1 65535 =
        pitInputHz / clamp r pitMinHz pitMaxHz ∧
      (pitDivisor r).toUInt32 = pitInputHz / clamp r pitMinHz pitMaxHz ∧
      1 ≤ (pitDivisor r).toNat ∧ (pitDivisor r).toNat ≤ 65535 ∧
      (∃ low high : UInt8, pitWrites r =
          [(pitCommandPort, 0x36), (pitChannel0Port, low), (pitChannel0Port, high)] ∧
        low.toNat + 256 * high.toNat = (pitDivisor r).toNat) ∧
      clamp r pitMinHz pitMaxHz ≤ programPit r ∧ programPit r ≤ 1193182 ∧
      programPit (programPit r) = programPit r ∧
      pitDivisor (programPit r) = pitDivisor r) ∧
    (∀ r₁ r₂, r₁ ≤ r₂ → programPit r₁ ≤ programPit r₂) ∧
    ∀ s, timer.Reachable Timer.initial s →
      (∃ r, s.pitHz.hz = programPit r) ∧ 19 ≤ s.pitHz.hz ∧ s.pitHz.hz.toUInt64 ≠ 0 ∧
      s.uptimeSeconds.toNat = s.ticks.toNat / s.pitHz.hz.toNat := by
  refine ⟨?_, fun r₁ r₂ => programPit_mono, ?_⟩
  -- the divisor fits its 16 bits for every rate that is asked for
  · intro r
    have hhz := clampedHz_eq r
    rcases quotient_mem r with ⟨hlo, hhi⟩
    have hdivisor := toNat_pitDivisor r
    have hrate := clampedHz_le_programPit r
    refine ⟨?_, ?_, quotient_clamp r, ?_, by omega, by omega,
      ⟨_, _, rfl, toNat_bytes _⟩, UInt32.le_iff_toNat_le.mpr hrate.1,
      UInt32.le_iff_toNat_le.mpr hrate.2, ?_, pitDivisor_programPit r⟩
    · intro hzero
      have hnat : clampedHz r = 0 := congrArg UInt32.toNat hzero
      omega
    · intro hzero
      have hnat := congrArg UInt32.toNat hzero
      rw [UInt16.toNat_toUInt32, UInt32.toNat_zero] at hnat
      omega
    · rw [← UInt32.toNat_inj, UInt16.toNat_toUInt32, UInt32.toNat_div, hdivisor]
      rfl
    · rw [programPit, pitDivisor_programPit, ← programPit]
  -- a reachable timer has a rate that was programmed
  · intro s hreach
    have hmin := s.pitHz.min_le
    refine ⟨pitHz_of_reachable hreach, hmin, ?_, ?_⟩
    · intro hzero
      have hnat := congrArg UInt64.toNat hzero
      have hpos := s.pitHz.pos
      rw [UInt32.toNat_toUInt64, UInt64.toNat_zero] at hnat
      omega
    · rw [Timer.uptimeSeconds, UInt64.toNat_div, UInt32.toNat_toUInt64]

end JingOS.Interrupts
