import JingOS.Monitor.Line
import Mathlib.Data.Nat.Basic
import Mathlib.Order.Basic

/-!
# The command history (`kernel/src/main.rs`)

A ring of 16 lines, addressed by age. All its accesses are checked, as in the code.

* `Inv` — the ring and its entries have their sizes, and the browsed age is in use;
* one lemma for each operation: it returns, and keeps `Inv`.
-/

namespace JingOS.Monitor

open Checked

/-- `HISTORY_CAPACITY`. -/
def historyCapacity : ℕ := 16

/-- A kept line, in an array as long as the longest. -/
structure HistoryEntry where
  bytes : List UInt8
  len : ℕ
deriving DecidableEq, Repr

namespace HistoryEntry

def empty : HistoryEntry := { bytes := List.replicate inputLineMax 0, len := 0 }

/-- `set_from_line`: the rest of the entry keeps its old bytes. -/
def setFromLine (entry : HistoryEntry) (line : InputLine) : Checked HistoryEntry := do
  let used ← slice line.bytes 0 line.len
  let _ ← slice entry.bytes 0 line.len
  pure { bytes := used ++ entry.bytes.drop line.len, len := line.len }

def asStr (entry : HistoryEntry) : Checked String := textOf entry.bytes entry.len

structure Inv (entry : HistoryEntry) : Prop where
  size : entry.bytes.length = inputLineMax
  lenLe : entry.len ≤ inputLineMax

theorem empty_inv : Inv empty := ⟨List.length_replicate, Nat.zero_le _⟩

theorem asStr_returns {entry : HistoryEntry} (h : entry.Inv) : Returns entry.asStr fun _ => True :=
  textOf_returns (by rw [h.size]; exact h.lenLe)

theorem setFromLine_returns {entry : HistoryEntry} (h : entry.Inv) {line : InputLine}
    (hline : line.Inv) : Returns (entry.setFromLine line) Inv := by
  have hsize := h.size
  have hlineSize := hline.size
  have hle := hline.lenLe
  unfold setFromLine
  rw [slice_eq (Nat.zero_le _) (by omega), slice_eq (Nat.zero_le _) (by omega)]
  refine Returns.pure ⟨?_, hle⟩
  simp only [List.length_append, List.length_drop, List.length_take]
  omega

end HistoryEntry

/-- A ring of the last lines, and how far back the user has gone. -/
structure CommandHistory where
  entries : List HistoryEntry
  len : ℕ
  nextInsert : ℕ
  browsingAge : Option ℕ
deriving DecidableEq, Repr

namespace CommandHistory

def new : CommandHistory :=
  { entries := List.replicate historyCapacity HistoryEntry.empty, len := 0, nextInsert := 0,
    browsingAge := none }

/-- The entry that is so many lines old; the newest has age 0. -/
def entryByAge (h : CommandHistory) (ageFromNewest : ℕ) : Checked (Option HistoryEntry) :=
  if ageFromNewest ≥ h.len then pure none
  else do
    let newest ← sub (← add h.nextInsert historyCapacity) 1
    let newestIndex := newest % historyCapacity
    let position ← sub (← add newestIndex historyCapacity) ageFromNewest
    let entry ← index h.entries (position % historyCapacity)
    pure (some entry)

/-- The end of `push_line`. -/
def insert (h : CommandHistory) (line : InputLine) : Checked CommandHistory := do
  let entry ← index h.entries h.nextInsert
  let entry ← entry.setFromLine line
  let entries ← store h.entries h.nextInsert entry
  let nextInsert ← add h.nextInsert 1
  let len ← (if h.len < historyCapacity then add h.len 1 else pure h.len)
  pure { entries, len, nextInsert := nextInsert % historyCapacity, browsingAge := none }

/-- Is this the text of the line? -/
def sameText (entry : Option HistoryEntry) (line : InputLine) : Checked Bool :=
  match entry with
  | none => pure false
  | some entry => do
    let old ← entry.asStr
    let text ← line.asStr
    pure (old == text)

/-- A line is kept, unless it is empty or repeats the newest. -/
def pushLine (h : CommandHistory) (line : InputLine) : Checked CommandHistory :=
  if line.isEmpty then pure h
  else do
    let newest ← h.entryByAge 0
    let repeated ← sameText newest line
    -- a line equal to the one before it is not kept twice
    if repeated then pure { h with browsingAge := none } else h.insert line

/-- One line further back; at the oldest it stays. -/
def previous (h : CommandHistory) : Checked (Option HistoryEntry × CommandHistory) :=
  if h.len = 0 then pure (none, h)
  else do
    let nextAge ← match h.browsingAge with
      | none => pure 0
      | some age => do pure (min (← add age 1) (← sub h.len 1))
    let h := { h with browsingAge := some nextAge }
    let entry ← h.entryByAge nextAge
    pure (entry, h)

/-- One line forward; behind the newest there is none, and browsing ends. -/
def next (h : CommandHistory) : Checked (Option HistoryEntry × CommandHistory) :=
  match h.browsingAge with
  | none => pure (none, h)
  | some age =>
    if age = 0 then pure (none, { h with browsingAge := none })
    else do
      let nextAge ← sub age 1
      let h := { h with browsingAge := some nextAge }
      let entry ← h.entryByAge nextAge
      pure (entry, h)

def resetBrowsing (h : CommandHistory) : CommandHistory := { h with browsingAge := none }

/-! ## The invariant -/

structure Inv (h : CommandHistory) : Prop where
  size : h.entries.length = historyCapacity
  entries : ∀ entry ∈ h.entries, entry.Inv
  lenLe : h.len ≤ historyCapacity
  nextInsertLt : h.nextInsert < historyCapacity
  ageLt : ∀ age ∈ h.browsingAge, age < h.len

theorem new_inv : Inv new where
  size := List.length_replicate
  entries := by
    intro entry hmem
    rw [List.eq_of_mem_replicate hmem]
    exact HistoryEntry.empty_inv
  lenLe := Nat.zero_le _
  nextInsertLt := by decide
  ageLt := by simp [new]

theorem resetBrowsing_inv {h : CommandHistory} (hinv : Inv h) : Inv h.resetBrowsing :=
  ⟨hinv.size, hinv.entries, hinv.lenLe, hinv.nextInsertLt, by simp [resetBrowsing]⟩

theorem index_returns {h : CommandHistory} (hinv : Inv h) {i : ℕ} (hi : i < historyCapacity) :
    Returns (index h.entries i) HistoryEntry.Inv := by
  have hlt : i < h.entries.length := by rw [hinv.size]; exact hi
  unfold index
  rw [List.getElem?_eq_getElem hlt]
  exact Returns.ok (hinv.entries _ (List.getElem_mem hlt))

/-- The place of an entry in use. -/
theorem entryByAge_eq {h : CommandHistory} (hinv : Inv h) {age : ℕ} (hage : age < h.len) :
    h.entryByAge age = (do
      let entry ← index h.entries
        (((h.nextInsert + historyCapacity - 1) % historyCapacity + historyCapacity - age) %
          historyCapacity)
      pure (some entry)) := by
  have hlen := hinv.lenLe
  have hnext := hinv.nextInsertLt
  unfold historyCapacity at hlen hnext
  unfold entryByAge historyCapacity
  rw [if_neg (Nat.not_le.mpr hage), add_eq (by omega), ok_bind, sub_eq (by omega), ok_bind]
  simp only
  rw [add_eq (by omega), ok_bind, sub_eq (by omega), ok_bind]

/-- Every age in use has an entry. -/
theorem entryByAge_returns {h : CommandHistory} (hinv : Inv h) (age : ℕ) :
    Returns (h.entryByAge age) fun entry => ∀ e ∈ entry, e.Inv := by
  by_cases hage : age < h.len
  · rw [entryByAge_eq hinv hage]
    refine (index_returns hinv (Nat.mod_lt _ (by decide))).bind fun entry hentry => ?_
    refine Returns.pure ?_
    rintro e ⟨⟩
    exact hentry
  · unfold entryByAge
    rw [if_pos (Nat.not_lt.mp hage)]
    exact Returns.pure (by simp)

/-- A line finds its place in the ring. -/
theorem insert_returns {h : CommandHistory} (hinv : Inv h) {line : InputLine} (hline : line.Inv) :
    Returns (h.insert line) Inv := by
  have hlen := hinv.lenLe
  have hnext := hinv.nextInsertLt
  unfold CommandHistory.insert
  refine (index_returns hinv hnext).bind fun old hold => ?_
  refine (HistoryEntry.setFromLine_returns hold hline).bind fun entry hentry => ?_
  rw [store_eq (by rw [hinv.size]; exact hnext), add_eq (by unfold historyCapacity at hnext; omega)]
  have hgrow : Returns (if h.len < historyCapacity then add h.len 1 else pure h.len)
      fun len => len ≤ historyCapacity := by
    split
    · next hlt =>
      rw [add_eq (by unfold historyCapacity at hlt; omega)]
      exact Returns.ok hlt
    · exact Returns.pure hlen
  refine hgrow.bind fun len hlen' => Returns.pure ⟨?_, ?_, hlen', Nat.mod_lt _ (by decide), ?_⟩
  · rw [List.length_set]
    exact hinv.size
  · intro e he
    -- an old entry, or the one just written
    rcases List.mem_or_eq_of_mem_set he with he | rfl
    · exact hinv.entries e he
    · exact hentry
  · simp

theorem pushLine_returns {h : CommandHistory} (hinv : Inv h) {line : InputLine}
    (hline : line.Inv) : Returns (h.pushLine line) Inv := by
  unfold pushLine
  split
  · exact Returns.pure hinv
  · refine (entryByAge_returns hinv 0).bind fun newest hnewest => ?_
    have hsame : Returns (sameText newest line) fun _ => True := by
      cases newest with
      | none => exact Returns.pure trivial
      | some entry =>
        exact (HistoryEntry.asStr_returns (hnewest entry rfl)).bind fun _ _ =>
          (InputLine.asStr_returns hline).bind fun _ _ => Returns.pure trivial
    refine hsame.bind fun repeated _ => ?_
    split
    · exact Returns.pure (resetBrowsing_inv hinv)
    · exact insert_returns hinv hline

/-- Browsing to an age in use. -/
theorem browse_returns {h : CommandHistory} (hinv : Inv h) {age : ℕ} (hage : age < h.len) :
    Returns (do
      let entry ← { h with browsingAge := some age : CommandHistory }.entryByAge age
      pure (entry, { h with browsingAge := some age : CommandHistory })) fun result =>
        Inv result.2 := by
  have hinv' : Inv { h with browsingAge := some age } :=
    ⟨hinv.size, hinv.entries, hinv.lenLe, hinv.nextInsertLt, by rintro _ ⟨⟩; exact hage⟩
  exact (entryByAge_returns hinv' age).bind fun _ _ => Returns.pure hinv'

theorem previous_returns {h : CommandHistory} (hinv : Inv h) :
    Returns h.previous fun result => Inv result.2 := by
  unfold previous
  split
  · exact Returns.pure hinv
  · next hlen =>
    cases hage : h.browsingAge with
    | none => exact browse_returns hinv (by omega)
    | some age =>
      -- one step back, but not beyond the oldest entry
      have hlt := hinv.ageLt age hage
      have hle := hinv.lenLe
      unfold historyCapacity at hle
      simp only
      rw [add_eq (by omega), sub_eq (by omega)]
      exact browse_returns hinv (by omega)

theorem next_returns {h : CommandHistory} (hinv : Inv h) :
    Returns h.next fun result => Inv result.2 := by
  unfold next
  cases hage : h.browsingAge with
  | none => exact Returns.pure hinv
  | some age =>
    have hlt := hinv.ageLt age hage
    simp only
    split
    · exact Returns.pure (resetBrowsing_inv hinv)
    · rw [sub_eq (by omega)]
      exact browse_returns hinv (by omega)

end CommandHistory

end JingOS.Monitor
