import Mathlib.Data.List.Basic
import Mathlib.Data.List.Range
import Mathlib.Data.Nat.ModEq
import Mathlib.Tactic.Common

/-!
# Queues in circular storage

A queue kept in an array of `cap` places: the element at distance `k` from the front lies at
place `(read + k) % cap`. `window` reads the queue off the array.

* `length_window` — there are as many elements as the length says;
* `window_enqueue` — a write behind the last element appends to the queue;
* `window_dequeue` — the front element, and the queue behind it;
* `window_replace` — in a full array, the write takes the place of the front element.
-/

namespace Ring

variable {α : Type}

/-- The `len` elements from place `read` on, going round at the end of the array. -/
def window (entries : List α) (cap read len : ℕ) : List α :=
  (List.range len).filterMap fun k => entries[(read + k) % cap]?

theorem length_window {entries : List α} {cap : ℕ} (hsize : entries.length = cap) (hcap : 0 < cap)
    (read len : ℕ) : (window entries cap read len).length = len := by
  have hsome : ∀ k ∈ List.range len, (entries[(read + k) % cap]?).isSome := by
    intro k _
    have hlt : (read + k) % cap < entries.length := by
      rw [hsize]
      exact Nat.mod_lt _ hcap
    rw [List.getElem?_eq_getElem hlt]
    rfl
  rw [window, List.length_filterMap_eq_countP, List.countP_eq_length.mpr hsome, List.length_range]

/-- The element at distance `k`. -/
theorem getElem?_window {entries : List α} {cap : ℕ} (hsize : entries.length = cap)
    (hcap : 0 < cap) (read : ℕ) {len k : ℕ} (hk : k < len) :
    (window entries cap read len)[k]? = entries[(read + k) % cap]? := by
  have hget : ∀ i, ∃ x, entries[(read + i) % cap]? = some x := by
    intro i
    have hlt : (read + i) % cap < entries.length := by
      rw [hsize]
      exact Nat.mod_lt _ hcap
    exact ⟨_, List.getElem?_eq_getElem hlt⟩
  choose f hf using hget
  have hmap : window entries cap read len = (List.range len).map f := by
    unfold window
    rw [← List.filterMap_eq_map]
    apply List.filterMap_congr
    intro i _
    exact hf i
  rw [hmap, List.getElem?_map, List.getElem?_range hk, hf k]
  rfl

/-- Two places of a queue that is not full are different. -/
theorem place_ne {cap read j k : ℕ} (hj : j < k) (hk : k < cap) :
    (read + k) % cap ≠ (read + j) % cap := by
  intro heq
  have hdvd : cap ∣ (read + k) - (read + j) := (Nat.modEq_iff_dvd' (by omega)).mp heq.symm
  have hle := Nat.le_of_dvd (by omega) hdvd
  omega

/-- A write behind the window appends to it. -/
theorem window_enqueue {entries : List α} {cap read len : ℕ} (hsize : entries.length = cap)
    (hlen : len < cap) (x : α) :
    window (entries.set ((read + len) % cap) x) cap read (len + 1) =
      window entries cap read len ++ [x] := by
  unfold window
  rw [List.range_succ, List.filterMap_append]
  congr 1
  · -- the write is behind the elements that were there
    apply List.filterMap_congr
    intro k hk
    exact List.getElem?_set_ne (place_ne (List.mem_range.mp hk) hlen)
  · have hlt : (read + len) % cap < entries.length := by
      rw [hsize]
      exact Nat.mod_lt _ (by omega)
    simp [hlt]

/-- A read at the front of the window takes its first. -/
theorem window_dequeue {entries : List α} {cap read len : ℕ} {x : α}
    (hx : entries[read % cap]? = some x) :
    window entries cap read (len + 1) = x :: window entries cap ((read + 1) % cap) len := by
  unfold window
  rw [List.range_succ_eq_map, List.filterMap_cons, Nat.add_zero, hx]
  simp only
  rw [List.filterMap_map]
  congr 1
  apply List.filterMap_congr
  intro k _
  have hplace : (read + (k + 1)) % cap = ((read + 1) % cap + k) % cap := by
    rw [Nat.mod_add_mod]
    congr 1
    omega
  simp only [Function.comp_apply, Nat.succ_eq_add_one, hplace]

/-- A write into a full array: the front element goes, and the others come one place nearer. -/
theorem window_replace {entries : List α} {cap read : ℕ} (hsize : entries.length = cap)
    (hcap : 0 < cap) (x : α) :
    window (entries.set (read % cap) x) cap ((read + 1) % cap) cap =
      (window entries cap read cap).tail ++ [x] := by
  have hlt : read % cap < entries.length := by
    rw [hsize]
    exact Nat.mod_lt _ hcap
  obtain ⟨n, rfl⟩ : ∃ n, cap = n + 1 := ⟨cap - 1, by omega⟩
  have hplace : ((read + 1) % (n + 1) + n) % (n + 1) = read % (n + 1) := by
    rw [Nat.mod_add_mod, Nat.add_assoc, Nat.add_comm 1 n, Nat.add_mod_right]
  rw [← hplace, window_enqueue hsize (Nat.lt_succ_self n),
    window_dequeue (List.getElem?_eq_getElem hlt), List.tail_cons]

end Ring
