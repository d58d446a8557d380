import Mathlib.Data.List.DropRight
import Mathlib.Data.List.Infix
import Mathlib.Order.Nat

/-!
# Searching a stream with a window

A stream comes piece by piece, and a pattern is looked for in the whole of it. It is enough to keep
as many of the last elements as the pattern has: the pattern has just come to its end when they are
equal to it.

* `push` — one element more in the window;
* `search` — a piece of the stream, up to the first end of the pattern;
* `search_found`, `search_window` — what the search finds, and the window it leaves;
* `FirstEnd` — where the pattern ends for the first time.
-/

universe u

namespace Window

variable {α : Type u} [DecidableEq α]

/-- The element goes in at the end; of a full window the first goes out. -/
def push (size : ℕ) (window : List α) (a : α) : List α :=
  (if window.length = size then window.tail else window) ++ [a]

/-- Elements go in until the window is the pattern. -/
def search (pattern : List α) : List α → List α → List α × Bool
  | window, [] => (window, false)
  | window, a :: rest =>
    let window := push pattern.length window a
    if window = pattern then (window, true) else search pattern window rest

/-- The pattern ends behind so many elements of the stream, and nowhere before. -/
def FirstEnd (pattern stream : List α) (n : ℕ) : Prop :=
  n ≤ stream.length ∧ pattern <:+ stream.take n ∧ ∀ m < n, ¬ pattern <:+ stream.take m

section

omit [DecidableEq α]

variable {pattern stream seen : List α} {size n : ℕ}

/-- The window is the end of what was seen. -/
theorem push_rtake (hsize : 0 < size) (seen : List α) (a : α) :
    push size (seen.rtake size) a = (seen ++ [a]).rtake size := by
  rcases Nat.exists_eq_succ_of_ne_zero (Nat.ne_of_gt hsize) with ⟨size, rfl⟩
  have hlength : (seen.rtake (size + 1)).length = min (size + 1) seen.length := by
    rw [List.rtake, List.length_drop]
    omega
  rw [push, List.rtake_concat_succ, hlength]
  congr 1
  unfold List.rtake
  by_cases hfull : size + 1 ≤ seen.length
  · rw [if_pos (Nat.min_eq_left hfull), List.tail_drop]
    congr 1
    omega
  · rw [if_neg (by omega), Nat.sub_eq_zero_of_le (by omega), Nat.sub_eq_zero_of_le (by omega)]

theorem rtake_eq_iff : seen.rtake pattern.length = pattern ↔ pattern <:+ seen := by
  rw [List.suffix_iff_eq_drop]
  exact eq_comm

/-- A pattern that occurs has a first occurrence. -/
theorem exists_firstEnd (h : pattern <:+: stream) : ∃ n, FirstEnd pattern stream n := by
  classical
  have hend : ∃ n, n ≤ stream.length ∧ pattern <:+ stream.take n := by
    rcases h with ⟨front, back, rfl⟩
    refine ⟨(front ++ pattern).length, by simp, ?_⟩
    rw [List.take_left]
    exact List.suffix_append _ _
  refine ⟨Nat.find hend, (Nat.find_spec hend).1, (Nat.find_spec hend).2, ?_⟩
  intro m hm hsuffix
  exact Nat.find_min hend hm ⟨by have := (Nat.find_spec hend).1; omega, hsuffix⟩

/-- A beginning of the stream has the pattern in it once it goes beyond the first end. -/
theorem FirstEnd.infix_take_iff (h : FirstEnd pattern stream n) (m : ℕ) :
    pattern <:+: stream.take m ↔ n ≤ m := by
  rcases h with ⟨hle, hsuffix, hfirst⟩
  constructor
  · rintro ⟨front, back, heq⟩
    by_contra hlt
    have hprefix : front ++ pattern <+: stream :=
      (List.prefix_append _ back).trans (heq ▸ List.take_prefix _ _)
    have hlength : (front ++ pattern).length ≤ m := by
      have hle' := congrArg List.length heq
      rw [List.length_append, List.length_take] at hle'
      omega
    apply hfirst (front ++ pattern).length (by omega)
    rw [← List.prefix_iff_eq_take.mp hprefix]
    exact List.suffix_append _ _
  · intro hm
    have hprefix : stream.take n <+: stream.take m := List.take_prefix_take_left hm
    exact hsuffix.isInfix.trans hprefix.isInfix

end

variable {pattern seen : List α}

/-- As long as the pattern has not come, it is found in the next piece if and only if it ends
there. -/
theorem search_found (hpattern : pattern ≠ []) (hnot : ¬ pattern <:+: seen) (piece : List α) :
    (search pattern (seen.rtake pattern.length) piece).2 = true ↔ pattern <:+: seen ++ piece := by
  induction piece generalizing seen with
  | nil =>
    rw [List.append_nil]
    constructor
    · intro hfound
      cases hfound
    · intro hinfix
      exact absurd hinfix hnot
  | cons a rest ih =>
    have hpush := push_rtake (List.length_pos_iff.mpr hpattern) seen a
    rw [search, hpush, List.append_cons seen a rest]
    by_cases hend : (seen ++ [a]).rtake pattern.length = pattern
    · have hinfix : pattern <:+: seen ++ [a] ++ rest :=
        (rtake_eq_iff.mp hend).isInfix.trans (List.prefix_append _ _).isInfix
      rw [if_pos hend]
      exact ⟨fun _ => hinfix, fun _ => rfl⟩
    · rw [if_neg hend]
      apply ih
      rw [List.infix_concat_iff]
      rintro (hsuffix | hinfix)
      · exact hend (rtake_eq_iff.mpr hsuffix)
      · exact hnot hinfix

/-- A search that finds nothing leaves the end of what was seen. -/
theorem search_window (hpattern : pattern ≠ []) {piece : List α}
    (hmissed : (search pattern (seen.rtake pattern.length) piece).2 = false) :
    (search pattern (seen.rtake pattern.length) piece).1 = (seen ++ piece).rtake pattern.length := by
  induction piece generalizing seen with
  | nil => rw [List.append_nil]; rfl
  | cons a rest ih =>
    have hpush := push_rtake (List.length_pos_iff.mpr hpattern) seen a
    rw [search, hpush] at hmissed ⊢
    by_cases hend : (seen ++ [a]).rtake pattern.length = pattern
    · rw [if_pos hend] at hmissed
      cases hmissed
    · rw [if_neg hend] at hmissed ⊢
      rw [List.append_cons seen a rest]
      exact ih hmissed

end Window
