import JingOS.Lib.Ring
import JingOS.Monitor.Editor
import JingOS.Monitor.History

/-!
# The command history is a list

The ring of 16 entries stands for a list of texts, the newest first, with the age of the one
that is being browsed.

* `Recall` — the list, with `push`, `previous` and `next`;
* `CommandHistory.WellFormed` — the ring's invariant, and every entry is ASCII;
* `pushLine_recall`, `previous_recall`, `next_recall` — the ring's operations are the list's.
-/

namespace JingOS.Monitor

open Checked Ascii

/-! ## The list -/

/-- The texts that are kept, the newest first, and the age of the one that is shown. -/
structure Recall where
  lines : List (List UInt8)
  age : Option ℕ
deriving DecidableEq, Repr

namespace Recall

/-- Nothing was kept. -/
def empty : Recall := { lines := [], age := none }

/-- Keep a text, unless it is empty or the newest already. -/
def push (r : Recall) (text : List UInt8) : Recall :=
  if text = [] then r
  else if r.lines.head? = some text then { r with age := none }
  else { lines := (text :: r.lines).take historyCapacity, age := none }

/-- Go to the next older text, or stay at the oldest. -/
def previous (r : Recall) : Recall :=
  if r.lines = [] then r
  else
    let age := match r.age with
      | none => 0
      | some age => min (age + 1) (r.lines.length - 1)
    { r with age := some age }

/-- Go to the next newer text; after the newest, leave. -/
def next (r : Recall) : Recall :=
  match r.age with
  | none => r
  | some 0 => { r with age := none }
  | some (age + 1) => { r with age := some age }

/-- The line is no longer one of the kept. -/
def reset (r : Recall) : Recall := { r with age := none }

/-- A text that was kept leaves a list that is not empty. -/
theorem length_push_ne_zero (r : Recall) {text : List UInt8} (h : text ≠ []) :
    (r.push text).lines.length ≠ 0 := by
  unfold push
  rw [if_neg h]
  by_cases hsame : r.lines.head? = some text
  · rw [if_pos hsame]
    intro hzero
    rw [List.length_eq_zero_iff] at hzero
    rw [hzero] at hsame
    cases hsame
  · rw [if_neg hsame]
    simp [historyCapacity]

/-- The text that is browsed. -/
def shown (r : Recall) : Option (List UInt8) := r.age.bind fun age => r.lines[age]?

end Recall

/-! ## The ring as a list -/

/-- The text of an entry. -/
def HistoryEntry.text (entry : HistoryEntry) : List UInt8 := entry.bytes.take entry.len

structure HistoryEntry.WellFormed (entry : HistoryEntry) : Prop extends HistoryEntry.Inv entry where
  ascii : ∀ byte ∈ entry.text, byte < 0x80

theorem HistoryEntry.asStr_eq {entry : HistoryEntry} (h : entry.WellFormed) :
    entry.asStr = .ok (asciiText entry.text) :=
  InputLine.textOf_eq (by rw [h.size]; exact h.lenLe) h.ascii

theorem HistoryEntry.empty_wellFormed : HistoryEntry.empty.WellFormed :=
  ⟨HistoryEntry.empty_inv, by simp [HistoryEntry.empty, HistoryEntry.text]⟩

/-- The new entry has the text of the line; what is left of the old one lies behind it. -/
theorem HistoryEntry.setFromLine_text {entry : HistoryEntry} (h : entry.Inv) {line : InputLine}
    (hline : line.WellFormed) : Returns (entry.setFromLine line) fun entry' =>
      entry'.WellFormed ∧ entry'.text = line.editor.text := by
  have hsize := h.size
  have hlineSize := hline.size
  have hle := hline.lenLe
  have htext : ∀ rest : List UInt8, (line.bytes.take line.len ++ rest).take line.len =
      line.bytes.take line.len := fun rest => List.take_left' (List.length_take_of_le (by omega))
  unfold HistoryEntry.setFromLine
  rw [slice_eq (Nat.zero_le _) (by omega), slice_eq (Nat.zero_le _) (by omega)]
  refine Returns.pure ⟨⟨⟨?_, hle⟩, ?_⟩, htext _⟩
  · simp only [List.length_append, List.length_drop, List.length_take]
    omega
  · intro byte hbyte
    change byte ∈ List.take _ _ at hbyte
    rw [List.drop_zero, htext] at hbyte
    exact hline.ascii byte hbyte

namespace CommandHistory

structure WellFormed (h : CommandHistory) : Prop extends CommandHistory.Inv h where
  ascii : ∀ entry ∈ h.entries, entry.WellFormed

/-- The entries in use, the oldest first. -/
def inUse (h : CommandHistory) : List HistoryEntry :=
  Ring.window h.entries historyCapacity (h.nextInsert + historyCapacity - h.len) h.len

/-- What the ring stands for. -/
def recalled (h : CommandHistory) : Recall :=
  { lines := (h.inUse.map HistoryEntry.text).reverse, age := h.browsingAge }

variable {h : CommandHistory}

theorem new_wellFormed : WellFormed new := by
  refine ⟨new_inv, ?_⟩
  intro entry hentry
  rw [List.eq_of_mem_replicate hentry]
  exact HistoryEntry.empty_wellFormed

theorem new_recall : new.recalled = Recall.empty := rfl

theorem length_inUse (hwf : h.WellFormed) : h.inUse.length = h.len :=
  Ring.length_window hwf.size (by decide) _ _

theorem length_lines (hwf : h.WellFormed) : h.recalled.lines.length = h.len := by
  change (h.inUse.map HistoryEntry.text).reverse.length = h.len
  rw [List.length_reverse, List.length_map, length_inUse hwf]

theorem lines_eq_nil_iff (hwf : h.WellFormed) : h.recalled.lines = [] ↔ h.len = 0 := by
  rw [← List.length_eq_zero_iff, length_lines hwf]

/-- An entry by its age is an element of the list. -/
theorem entryByAge_recall (hwf : h.WellFormed) (age : ℕ) :
    Returns (h.entryByAge age) fun entry =>
      entry.map HistoryEntry.text = h.recalled.lines[age]? ∧ ∀ e ∈ entry, e.WellFormed := by
  have hlen := hwf.lenLe
  have hnext := hwf.nextInsertLt
  have hsize := hwf.size
  have hinUse := length_inUse hwf
  unfold historyCapacity at hlen hnext hsize
  by_cases hage : age < h.len
  · rw [entryByAge_eq hwf.toInv hage]
    unfold historyCapacity
    -- the place that the code computes is the one in the window
    have hplace : ((h.nextInsert + 16 - 1) % 16 + 16 - age) % 16 =
        (h.nextInsert + 16 - h.len + (h.len - 1 - age)) % 16 := by omega
    have hlt : ((h.nextInsert + 16 - 1) % 16 + 16 - age) % 16 < h.entries.length := by
      rw [hsize]
      exact Nat.mod_lt _ (by decide)
    have hline : h.recalled.lines[age]? =
        (h.entries[(h.nextInsert + 16 - h.len + (h.len - 1 - age)) % 16]?).map
          HistoryEntry.text := by
      change ((h.inUse.map HistoryEntry.text).reverse)[age]? = _
      rw [List.getElem?_reverse (by rw [List.length_map, hinUse]; omega), List.length_map, hinUse,
        List.getElem?_map]
      unfold inUse historyCapacity
      rw [Ring.getElem?_window hsize (by decide) _ (by omega)]
    rw [index, hline, ← hplace, List.getElem?_eq_getElem hlt]
    refine Returns.pure ⟨rfl, ?_⟩
    rintro e ⟨⟩
    exact hwf.ascii _ (List.getElem_mem hlt)
  -- older than all that is kept
  · unfold entryByAge
    rw [if_pos (Nat.not_lt.mp hage),
      List.getElem?_eq_none (by rw [length_lines hwf]; exact Nat.not_lt.mp hage)]
    exact Returns.pure ⟨rfl, by simp⟩

theorem resetBrowsing_wellFormed (hwf : h.WellFormed) : h.resetBrowsing.WellFormed :=
  ⟨resetBrowsing_inv hwf.toInv, hwf.ascii⟩

theorem resetBrowsing_recall (h : CommandHistory) : h.resetBrowsing.recalled = h.recalled.reset := rfl

/-- While there is a free place, a new entry goes behind those in use. -/
theorem inUse_append (hwf : h.WellFormed) (hroom : h.len < historyCapacity) (entry : HistoryEntry)
    (age : Option ℕ) :
    inUse ⟨h.entries.set h.nextInsert entry, h.len + 1, (h.nextInsert + 1) % historyCapacity, age⟩ =
      h.inUse ++ [entry] := by
  have hnext := hwf.nextInsertLt
  have hsize := hwf.size
  have henqueue := @Ring.window_enqueue _ _ _ (h.nextInsert + 16 - h.len) _ hsize hroom entry
  unfold historyCapacity at *
  have hplace : (h.nextInsert + 16 - h.len + h.len) % 16 = h.nextInsert := by omega
  rw [hplace] at henqueue
  refine Eq.trans ?_ henqueue
  unfold inUse historyCapacity Ring.window
  apply List.filterMap_congr
  intro k _
  congr 1
  simp only
  omega

/-- When all places are in use, it takes the place of the oldest. -/
theorem inUse_replace (hwf : h.WellFormed) (hfull : h.len = historyCapacity) (entry : HistoryEntry)
    (age : Option ℕ) :
    inUse ⟨h.entries.set h.nextInsert entry, h.len, (h.nextInsert + 1) % historyCapacity, age⟩ =
      h.inUse.tail ++ [entry] := by
  have hreplace := @Ring.window_replace _ _ _ h.nextInsert hwf.size (by decide) entry
  rw [Nat.mod_eq_of_lt hwf.nextInsertLt] at hreplace
  unfold inUse
  simp only [hfull, Nat.add_sub_cancel]
  exact hreplace

/-- The texts, the newest first, when the oldest of sixteen goes. -/
theorem lines_replace {old : List HistoryEntry} (hold : old.length = historyCapacity)
    (entry : HistoryEntry) :
    ((old.tail ++ [entry]).map HistoryEntry.text).reverse =
      (entry.text :: (old.map HistoryEntry.text).reverse).take historyCapacity := by
  cases old with
  | nil => exact absurd hold (by decide)
  | cons oldest rest =>
    have hrest : (rest.map HistoryEntry.text).reverse.length = 15 := by
      rw [List.length_reverse, List.length_map]
      exact Nat.succ.inj hold
    have hlines : ((oldest :: rest).map HistoryEntry.text).reverse =
        (rest.map HistoryEntry.text).reverse ++ [oldest.text] := by
      rw [List.map_cons, List.reverse_cons]
    unfold historyCapacity
    rw [List.tail_cons, List.map_append, List.reverse_append, hlines, List.take_succ_cons,
      List.take_append_of_le_length (Nat.le_of_eq hrest.symm),
      List.take_of_length_le (Nat.le_of_eq hrest)]
    rfl

/-- The entry that `push_line` writes, and the list it makes. -/
theorem insert_recall (hwf : h.WellFormed) {line : InputLine} (hline : line.WellFormed) :
    Returns (h.insert line) fun h' => h'.WellFormed ∧
      h'.recalled = { lines := (line.editor.text :: h.recalled.lines).take historyCapacity,
                      age := none } := by
  have hlen := hwf.lenLe
  have hnext := hwf.nextInsertLt
  have hlt : h.nextInsert < h.entries.length := by rw [hwf.size]; exact hnext
  unfold historyCapacity at hlen hnext
  unfold CommandHistory.insert
  rw [index, List.getElem?_eq_getElem hlt]
  rcases HistoryEntry.setFromLine_text (hwf.entries _ (List.getElem_mem hlt)) hline with
    ⟨entry, hset, hentry, htext⟩
  simp only [bind, Except.bind]
  rw [hset]
  simp only
  rw [store_eq hlt, add_eq (by omega)]
  simp only
  -- the entry that was written is well-formed, as are all others
  have hentries : ∀ e ∈ h.entries.set h.nextInsert entry, e.WellFormed := by
    intro e he
    rcases List.mem_or_eq_of_mem_set he with he | rfl
    · exact hwf.ascii e he
    · exact hentry
  have hsize : (h.entries.set h.nextInsert entry).length = historyCapacity := by
    rw [List.length_set]
    exact hwf.size
  have hnext' : (h.nextInsert + 1) % historyCapacity < historyCapacity := Nat.mod_lt _ (by decide)
  by_cases hroom : h.len < historyCapacity
  · -- there is a free place
    rw [if_pos hroom, add_eq (by omega)]
    refine Returns.pure ⟨⟨⟨hsize, fun e he => (hentries e he).toInv, hroom, hnext', by simp⟩,
      hentries⟩, ?_⟩
    unfold recalled
    rw [inUse_append hwf hroom, List.take_of_length_le, List.map_append, List.reverse_append,
      ← htext]
    · rfl
    · change _ + 1 ≤ historyCapacity
      have hlines := length_lines hwf
      unfold recalled at hlines
      rw [hlines]
      exact hroom
  · -- the oldest entry is overwritten
    have hfull : h.len = historyCapacity := Nat.le_antisymm hwf.lenLe (Nat.not_lt.mp hroom)
    rw [if_neg hroom]
    refine Returns.pure ⟨⟨⟨hsize, fun e he => (hentries e he).toInv, hwf.lenLe, hnext', by simp⟩,
      hentries⟩, ?_⟩
    unfold recalled
    rw [inUse_replace hwf hfull, lines_replace ((length_inUse hwf).trans hfull), htext]

/-- Texts of ASCII bytes are equal when the bytes are. -/
theorem asciiText_inj {bytes bytes' : List UInt8} (h : ∀ byte ∈ bytes, byte < 0x80)
    (h' : ∀ byte ∈ bytes', byte < 0x80) : asciiText bytes = asciiText bytes' ↔ bytes = bytes' := by
  constructor
  · intro heq
    rw [← textBytes_asciiText h, heq, textBytes_asciiText h']
  · rintro rfl
    rfl

/-- The comparison with the newest entry is that of the texts. -/
theorem sameText_eq {entry : Option HistoryEntry} (hentry : ∀ e ∈ entry, e.WellFormed)
    {line : InputLine} (hline : line.WellFormed) :
    sameText entry line =
      .ok (decide (entry.map HistoryEntry.text = some line.editor.text)) := by
  unfold sameText
  cases entry with
  | none => rfl
  | some entry =>
    have hwf := hentry entry rfl
    simp only
    rw [HistoryEntry.asStr_eq hwf, InputLine.asStr_eq hline]
    simp only [bind, Except.bind, pure, Except.pure]
    apply congrArg Except.ok
    rw [Bool.eq_iff_iff, beq_iff_eq, decide_eq_true_eq, Option.map_some, Option.some_inj]
    exact asciiText_inj hwf.ascii hline.ascii

theorem isEmpty_iff {line : InputLine} (hline : line.WellFormed) :
    line.isEmpty = true ↔ line.editor.text = [] := by
  rw [InputLine.isEmpty, beq_iff_eq, ← List.length_eq_zero_iff, InputLine.length_text hline]

/-- A kept line, in the list. -/
theorem pushLine_recall (hwf : h.WellFormed) {line : InputLine} (hline : line.WellFormed) :
    Returns (h.pushLine line) fun h' =>
      h'.WellFormed ∧ h'.recalled = h.recalled.push line.editor.text := by
  unfold pushLine Recall.push
  by_cases hempty : line.editor.text = []
  · rw [if_pos hempty, if_pos ((isEmpty_iff hline).mpr hempty)]
    exact Returns.pure ⟨hwf, rfl⟩
  · rw [if_neg hempty, if_neg (mt (isEmpty_iff hline).mp hempty)]
    refine (entryByAge_recall hwf 0).bind ?_
    rintro newest ⟨htext, hnewest⟩
    rw [sameText_eq hnewest hline, htext]
    simp only [bind, Except.bind]
    have hhead : h.recalled.lines[0]? = h.recalled.lines.head? := List.head?_eq_getElem?.symm
    rw [hhead]
    by_cases hsame : h.recalled.lines.head? = some line.editor.text
    · rw [if_pos hsame, if_pos (decide_eq_true hsame)]
      exact Returns.pure ⟨resetBrowsing_wellFormed hwf, rfl⟩
    · rw [if_neg hsame, if_neg (by simpa using hsame)]
      exact insert_recall hwf hline

/-- Going to an age in use shows the text of that age. -/
theorem browse_recall (hwf : h.WellFormed) {age : ℕ} (hage : age < h.len) :
    Returns (do
      let entry ← { h with browsingAge := some age : CommandHistory }.entryByAge age
      pure (entry, { h with browsingAge := some age : CommandHistory })) fun result =>
        result.2.WellFormed ∧ result.2.recalled = { h.recalled with age := some age } ∧
        result.1.map HistoryEntry.text = ({ h.recalled with age := some age } : Recall).shown ∧
        ∀ e ∈ result.1, e.WellFormed := by
  have hwf' : WellFormed { h with browsingAge := some age } :=
    ⟨⟨hwf.size, hwf.entries, hwf.lenLe, hwf.nextInsertLt, by rintro _ ⟨⟩; exact hage⟩, hwf.ascii⟩
  refine (entryByAge_recall hwf' age).bind ?_
  rintro entry ⟨htext, hentry⟩
  exact Returns.pure ⟨hwf', rfl, htext, hentry⟩

/-- One line back, in the list. -/
theorem previous_recall (hwf : h.WellFormed) :
    Returns h.previous fun result => result.2.WellFormed ∧ result.2.recalled = h.recalled.previous ∧
      result.1.map HistoryEntry.text =
        (if h.recalled.lines = [] then none else h.recalled.previous.shown) ∧
      ∀ e ∈ result.1, e.WellFormed := by
  have hnil := lines_eq_nil_iff hwf
  have hlen := length_lines hwf
  have hrecall : h.recalled.age = h.browsingAge := rfl
  unfold CommandHistory.previous Recall.previous
  by_cases hempty : h.len = 0
  · rw [if_pos hempty, if_pos (hnil.mpr hempty), if_pos (hnil.mpr hempty)]
    exact Returns.pure ⟨hwf, rfl, rfl, by simp⟩
  · rw [if_neg hempty, if_neg (mt hnil.mp hempty), if_neg (mt hnil.mp hempty)]
    rw [hrecall]
    cases hage : h.browsingAge with
    | none => exact browse_recall hwf (by omega)
    | some age =>
      have hlt := hwf.ageLt age hage
      have hle := hwf.lenLe
      unfold historyCapacity at hle
      rw [hlen]
      simp only
      rw [add_eq (by omega), sub_eq (by omega)]
      exact browse_recall hwf (by omega)

/-- One line forward, in the list. -/
theorem next_recall (hwf : h.WellFormed) :
    Returns h.next fun result => result.2.WellFormed ∧ result.2.recalled = h.recalled.next ∧
      result.1.map HistoryEntry.text = h.recalled.next.shown ∧ ∀ e ∈ result.1, e.WellFormed := by
  have hrecall : h.recalled.age = h.browsingAge := rfl
  unfold CommandHistory.next Recall.next
  rw [hrecall]
  cases hage : h.browsingAge with
  | none => exact Returns.pure ⟨hwf, rfl, by simp [Recall.shown, hrecall, hage], by simp⟩
  | some age =>
    have hlt := hwf.ageLt age hage
    cases age with
    | zero =>
      exact Returns.pure ⟨resetBrowsing_wellFormed hwf, rfl, rfl, by simp⟩
    | succ age =>
      simp only
      rw [if_neg (by omega), sub_eq (by omega)]
      exact browse_recall hwf (by omega)

end CommandHistory

end JingOS.Monitor
