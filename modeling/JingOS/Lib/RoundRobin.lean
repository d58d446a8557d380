import Mathlib.Data.Fin.Basic
import Mathlib.Data.Fintype.Card
import Mathlib.Data.List.FinRange
import Mathlib.Data.Multiset.Dedup
import Mathlib.Algebra.Group.Fin.Basic
import Mathlib.Tactic.Abel

/-!
# Round-robin arbitration

`n` places stand in a circle and a cursor points at one of them. A round looks at
the places in circular order from the cursor, picks the first that is a candidate
and puts the cursor right behind the pick. The whole theory is one measure: the
circular distance `dist c s` from the cursor to a place.

* `dist_lt_of_pick` — a candidate that is passed over gets strictly closer;
* `before_of_pick` — a candidate that stands before `a` keeps standing before it
  until it is picked itself;
* `count_picks` — with the candidates fixed, `k` rounds serve each of the `k`
  candidates exactly once.
-/

namespace RoundRobin

variable {n : ℕ}

/-- How many places the circle has from `c` to `s`, going forward. -/
def dist (c s : Fin n) : ℕ := (s - c).val

/-- The first place from the cursor on, in circular order, that satisfies `p`. -/
def firstFrom (p : Fin n → Bool) (c : Fin n) : Option (Fin n) :=
  ((List.finRange n).map (c + ·)).find? p

/-! ## The distance -/

theorem dist_lt (c s : Fin n) : dist c s < n := (s - c).isLt

/-- Distance in the two cases of the wrap-around. -/
theorem dist_of_le {c s : Fin n} (h : c ≤ s) : dist c s = s.val - c.val :=
  Fin.coe_sub_iff_le.mpr h

theorem dist_of_lt {c s : Fin n} (h : s < c) : dist c s = n + s.val - c.val :=
  Fin.coe_sub_iff_lt.mpr h

/-- Both cases as one equation between numbers. -/
theorem dist_eq (c s : Fin n) :
    dist c s = if c.val ≤ s.val then s.val - c.val else n + s.val - c.val := by
  split
  · next h => exact dist_of_le h
  · next h => exact dist_of_lt (Nat.not_le.mp h)

/-- Moving the cursor from `c` to `d` takes `dist c d` off the distance to every
place that is not before `d`. -/
theorem dist_sub {c d s : Fin n} (h : dist c d ≤ dist c s) :
    dist d s = dist c s - dist c d := by
  have hc := c.isLt
  have hd := d.isLt
  have hs := s.isLt
  simp only [dist_eq] at h ⊢
  split_ifs at h ⊢ <;> omega

/-- The places before `d` come after the others once the cursor stands at `d`. -/
theorem dist_wrap {c d s : Fin n} (h : dist c s < dist c d) :
    dist d s = n + dist c s - dist c d := by
  have hc := c.isLt
  have hd := d.isLt
  have hs := s.isLt
  simp only [dist_eq] at h ⊢
  split_ifs at h ⊢ <;> omega

variable [NeZero n]

@[simp] theorem dist_self (c : Fin n) : dist c c = 0 := by
  simp [dist]

theorem dist_inj {c s u : Fin n} (h : dist c s = dist c u) : s = u := by
  have hsub : s - c = u - c := Fin.ext h
  exact sub_left_injective hsub

/-- From the place right behind `i`, every other place is one nearer than from `i`. -/
theorem dist_add_one {i s : Fin n} (h : s ≠ i) : dist (i + 1) s = dist i s - 1 := by
  have hpos : dist i s ≠ 0 := by
    intro h0
    exact h (dist_inj (h0.trans (dist_self i).symm))
  have hlt := dist_lt i s
  have hone : dist i (i + 1) = 1 := by
    have hn : 1 < n := by omega
    simp [dist, Nat.mod_eq_of_lt hn]
  have hle : dist i (i + 1) ≤ dist i s := by omega
  rw [dist_sub hle, hone]

/-- The place `i` itself is the last one from behind it. -/
theorem dist_add_one_self (i : Fin n) : dist (i + 1) i = n - 1 := by
  obtain ⟨m, rfl⟩ := Nat.exists_eq_succ_of_ne_zero (NeZero.ne n)
  have hval : i - (i + 1) = -1 := by abel
  rw [dist, hval]
  simp

/-- Three different places: if `a` does not stand between `b` and `h`, then `b` comes
before `a` seen from behind `h`. -/
theorem dist_add_one_lt {h a b : Fin n} (hb : b ≠ h) (ha : a ≠ h)
    (hbah : dist b a ≤ dist b h) (hab : a ≠ b) : dist (h + 1) b < dist (h + 1) a := by
  have hpos : dist h b ≠ 0 := fun h0 => hb (dist_inj (h0.trans (dist_self h).symm))
  have hposa : dist h a ≠ 0 := fun h0 => ha (dist_inj (h0.trans (dist_self h).symm))
  have hne : dist h b ≠ dist h a := fun heq => hab (dist_inj heq).symm
  have hbh : dist b h = n - dist h b := by
    have hwrap := dist_wrap (c := h) (d := b) (s := h) (by simp; omega)
    simpa using hwrap
  have hlta := dist_lt h a
  have hltb := dist_lt h b
  rw [dist_add_one hb, dist_add_one ha]
  rcases Nat.lt_or_ge (dist h a) (dist h b) with hlt | hge
  · have hba := dist_wrap hlt
    omega
  · omega

/-! ## One round -/

/-- The pick is a candidate, and no candidate stands nearer to the cursor. -/
theorem firstFrom_spec {p : Fin n → Bool} {c i : Fin n} (h : firstFrom p c = some i) :
    p i = true ∧ ∀ s, p s = true → dist c i ≤ dist c s := by
  rw [firstFrom, List.find?_eq_some_iff_getElem] at h
  obtain ⟨hpi, k, hk, rfl, hbefore⟩ := h
  refine ⟨hpi, fun s hs => ?_⟩
  have hoff : ∀ u : Fin n, c + u - c = u := fun u => by abel
  simp only [List.getElem_map, List.getElem_finRange] at hbefore ⊢
  rw [dist, hoff]
  -- a candidate at a smaller distance would have been met first
  by_contra hlt
  have hmet := hbefore (dist c s) (by simpa using hlt)
  have hplace : c + (s - c) = s := by abel
  simp [dist, hplace, hs] at hmet

/-- The search finds something if there is anything. -/
theorem firstFrom_eq_none {p : Fin n → Bool} {c : Fin n} :
    firstFrom p c = none ↔ ∀ s, p s = false := by
  rw [firstFrom, List.find?_eq_none]
  constructor
  · intro h s
    have hplace : c + (s - c) = s := by abel
    simpa using h s (List.mem_map.mpr ⟨s - c, List.mem_finRange _, hplace⟩)
  · intro h s _
    simp [h s]

/-- A candidate that is passed over gets strictly closer to the cursor. -/
theorem dist_lt_of_pick {p : Fin n → Bool} {c i s : Fin n} (hpick : firstFrom p c = some i)
    (hs : p s = true) (hne : s ≠ i) : dist (i + 1) s < dist c s := by
  have hle := (firstFrom_spec hpick).2 s hs
  have hcs : dist i s = dist c s - dist c i := dist_sub hle
  have hstrict : dist c i ≠ dist c s := fun heq => hne (dist_inj heq).symm
  rw [dist_add_one hne, hcs]
  omega

/-- While the candidate `b` stands before `a`, a round picks `b`, or it does not pick
`a` and leaves `b` before `a`. -/
theorem before_of_pick {p : Fin n → Bool} {c i a b : Fin n}
    (hpick : firstFrom p c = some i) (hb : p b = true) (hlt : dist c b < dist c a) :
    i = b ∨ (i ≠ a ∧ dist (i + 1) b < dist (i + 1) a) := by
  have hle := (firstFrom_spec hpick).2 b hb
  by_cases hib : i = b
  · exact Or.inl hib
  · right
    have hia : i ≠ a := by
      rintro rfl
      omega
    have hne : dist c i ≠ dist c b := fun heq => hib (dist_inj heq)
    refine ⟨hia, ?_⟩
    rw [dist_add_one (Ne.symm hib), dist_add_one (Ne.symm hia), dist_sub hle,
      dist_sub (by omega : dist c i ≤ dist c a)]
    omega

/-- Right behind `a`, every other place comes before `a`. -/
theorem before_of_picked {a b : Fin n} (hne : b ≠ a) : dist (a + 1) b < dist (a + 1) a := by
  have hlt := dist_lt a b
  have hpos : dist a b ≠ 0 := fun h0 => hne (dist_inj (h0.trans (dist_self a).symm))
  rw [dist_add_one hne, dist_add_one_self]
  omega

/-! ## Rounds with fixed candidates -/

/-- The picks of `k` rounds in a row with the same candidates. -/
def picks (p : Fin n → Bool) (c : Fin n) : ℕ → List (Fin n)
  | 0 => []
  | k + 1 =>
    match firstFrom p c with
    | none => []
    | some i => i :: picks p (i + 1) k

/-- How many candidates stand before `s`. -/
def ahead (p : Fin n → Bool) (c s : Fin n) : ℕ :=
  (Finset.univ.filter fun x => p x = true ∧ dist c x < dist c s).card

/-- The candidates. -/
def candidates (p : Fin n → Bool) : Finset (Fin n) := Finset.univ.filter fun x => p x = true

omit [NeZero n] in
@[simp] theorem mem_candidates {p : Fin n → Bool} {s : Fin n} :
    s ∈ candidates p ↔ p s = true := by
  simp [candidates]

omit [NeZero n] in
theorem ahead_lt {p : Fin n → Bool} {c s : Fin n} (hs : p s = true) :
    ahead p c s < (candidates p).card := by
  apply Finset.card_lt_card
  rw [Finset.ssubset_iff_of_subset]
  · exact ⟨s, by simpa using hs, by simp⟩
  · intro x hx
    simp only [Finset.mem_filter] at hx
    simpa using hx.2.1

/-- A round that picks somebody else takes exactly the pick from those ahead of `s`. -/
theorem ahead_of_pick {p : Fin n → Bool} {c i s : Fin n} (hpick : firstFrom p c = some i)
    (hs : p s = true) (hne : s ≠ i) : ahead p (i + 1) s < ahead p c s := by
  obtain ⟨hpi, hmin⟩ := firstFrom_spec hpick
  have hdist : ∀ x, p x = true → x ≠ i → dist (i + 1) x = dist c x - dist c i - 1 := by
    intro x hx hxi
    rw [dist_add_one hxi, dist_sub (hmin x hx)]
  apply Finset.card_lt_card
  rw [Finset.ssubset_iff_of_subset]
  · -- the pick was ahead of `s` and no longer is: it is the last one now
    refine ⟨i, ?_, ?_⟩
    · simp only [Finset.mem_filter, Finset.mem_univ, true_and]
      refine ⟨hpi, lt_of_le_of_ne (hmin s hs) fun heq => hne (dist_inj heq).symm⟩
    · simp only [Finset.mem_filter, Finset.mem_univ, true_and, not_and, not_lt]
      intro _
      rw [dist_add_one_self]
      have := dist_lt (i + 1) s
      omega
  · intro x hx
    simp only [Finset.mem_filter, Finset.mem_univ, true_and] at hx ⊢
    obtain ⟨hpx, hxs⟩ := hx
    refine ⟨hpx, ?_⟩
    by_cases hxi : x = i
    · subst hxi
      exact lt_of_le_of_ne (hmin s hs) fun heq => hne (dist_inj heq).symm
    · rw [hdist x hpx hxi, hdist s hs hne] at hxs
      have := hmin x hpx
      have := hmin s hs
      omega

/-- Every candidate is among the picks once there are more rounds than candidates ahead
of it. -/
theorem mem_picks {p : Fin n → Bool} {s : Fin n} (hs : p s = true) :
    ∀ (k : ℕ) (c : Fin n), ahead p c s < k → s ∈ picks p c k := by
  intro k
  induction k with
  | zero => intro c h; omega
  | succ k ih =>
    intro c h
    cases hpick : firstFrom p c with
    | none =>
      have := firstFrom_eq_none.mp hpick s
      simp [hs] at this
    | some i =>
      simp only [picks, hpick, List.mem_cons]
      by_cases hsi : s = i
      · exact Or.inl hsi
      · right
        have := ahead_of_pick hpick hs hsi
        exact ih (i + 1) (by omega)

theorem length_picks {p : Fin n → Bool} {s : Fin n} (hs : p s = true) :
    ∀ (k : ℕ) (c : Fin n), (picks p c k).length = k := by
  intro k
  induction k with
  | zero => intro c; rfl
  | succ k ih =>
    intro c
    cases hpick : firstFrom p c with
    | none =>
      have := firstFrom_eq_none.mp hpick s
      simp [hs] at this
    | some i => simp [picks, hpick, ih]

/-- **Exact rotation.** With `k` candidates, `k` rounds serve each of them exactly once,
wherever the cursor stands at first. -/
theorem count_picks {p : Fin n → Bool} {s : Fin n} (hs : p s = true) (c : Fin n) :
    (picks p c (candidates p).card).count s = 1 := by
  have hall : candidates p ⊆ (picks p c (candidates p).card).toFinset := by
    intro x hx
    rw [mem_candidates] at hx
    rw [List.mem_toFinset]
    exact mem_picks hx _ c (ahead_lt hx)
  have hnodup : (picks p c (candidates p).card).Nodup := by
    rw [← List.dedup_eq_self]
    apply (List.dedup_sublist _).eq_of_length_le
    rw [length_picks hs, ← List.card_toFinset]
    exact Finset.card_le_card hall
  exact List.count_eq_one_of_mem hnodup (List.mem_toFinset.mp (hall (mem_candidates.mpr hs)))

end RoundRobin
