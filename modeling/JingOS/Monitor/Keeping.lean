import JingOS.Lib.Mealy
import JingOS.Monitor.Command
import JingOS.Monitor.Recall

/-!
# What the command history keeps

`Recall` is the ring as a list of at most 16 texts. Here nothing is ever dropped: a `Shelf` has
all the lines worth keeping since the beginning, and a place at which one of them is looked at.
The ring shows the newest 16 of them.

* `Shelf` — the lines kept, and the place that `previous` and `next` move;
* `Mirrors` — a ring and a shelf agree; every call keeps that (`exec_mirrors`);
* `historyCommand_eq` — what `print_oldest_first` prints;
* `history_shows_shelf` — any run of calls from the empty history.
-/

namespace JingOS.Monitor

open Checked Ascii Hoare Text

/-! ## Calls of the history -/

/-- A call of the history's interface. -/
inductive HistoryOp where
  | pushLine (line : InputLine)
  | previous
  | next
  | resetBrowsing
deriving DecidableEq, Repr

/-- The text that a call pushes. -/
def HistoryOp.pushed : HistoryOp → Option (List UInt8)
  | .pushLine line => some (line.bytes.take line.len)
  | _ => none

/-- One call: the entry it returns, if any, and the history after it. -/
def CommandHistory.exec (h : CommandHistory) :
    HistoryOp → Checked (Option HistoryEntry × CommandHistory)
  | .pushLine line => do pure (none, ← h.pushLine line)
  | .previous => h.previous
  | .next => h.next
  | .resetBrowsing => pure (none, h.resetBrowsing)

/-- The entries that a sequence of calls returns, and the history after it. -/
def CommandHistory.run (h : CommandHistory) :
    List HistoryOp → Checked (List (Option HistoryEntry) × CommandHistory)
  | [] => pure ([], h)
  | op :: ops => do
    let (entry, h) ← h.exec op
    let (entries, h) ← h.run ops
    pure (entry :: entries, h)

/-! ## The shelf -/

/-- The lines worth keeping, after one more: not an empty one, nor the last one again. -/
def keep (kept : List (List UInt8)) (text : List UInt8) : List (List UInt8) :=
  if text = [] ∨ kept.getLast? = some text then kept else kept ++ [text]

/-- All lines kept, the oldest first, and the place that is looked at: 0 is the newest line,
none is outside. -/
structure Shelf where
  kept : List (List UInt8)
  place : Option ℕ
deriving DecidableEq, Repr

namespace Shelf

def empty : Shelf := { kept := [], place := none }

/-- A line pushed; an empty one is not looked at. -/
def push (s : Shelf) (text : List UInt8) : Shelf :=
  { kept := keep s.kept text, place := if text = [] then s.place else none }

/-- How many lines can be looked at. -/
def reach (s : Shelf) : ℕ := min historyCapacity s.kept.length

/-- One place older, from outside to the newest, and not beyond the oldest within reach. -/
def older (s : Shelf) : Option ℕ :=
  match s.place with
  | none => if s.reach = 0 then none else some 0
  | some k => some (min (k + 1) (s.reach - 1))

/-- One place newer, and from the newest outside. -/
def newer (s : Shelf) : Option ℕ :=
  match s.place with
  | none => none
  | some 0 => none
  | some (k + 1) => some k

/-- Look at a place: the line that stands there. -/
def lookAt (s : Shelf) (place : Option ℕ) : Option (List UInt8) × Shelf :=
  (place.bind fun k => s.kept.reverse[k]?, { s with place })

/-- A call of the history, on the shelf. -/
def exec (s : Shelf) : HistoryOp → Option (List UInt8) × Shelf
  | .pushLine line => (none, s.push (line.bytes.take line.len))
  | .previous => s.lookAt s.older
  | .next => s.lookAt s.newer
  | .resetBrowsing => (none, { s with place := none })

end Shelf

/-- The shelf as a machine. -/
def shelf : Mealy Shelf HistoryOp (Option (List UInt8)) := ⟨Shelf.exec⟩

@[simp] theorem shelf_next (s : Shelf) (op : HistoryOp) : shelf.next s op = s.exec op := rfl

/-- The lines on the shelf are the pushed ones, less the empty ones and the repetitions. -/
theorem kept_run (s : Shelf) (ops : List HistoryOp) :
    (shelf.run s ops).kept = (ops.filterMap HistoryOp.pushed).foldl keep s.kept := by
  induction ops generalizing s with
  | nil => rfl
  | cons op ops ih =>
    rw [Mealy.run_cons, ih]
    cases op with
    | pushLine line => rfl
    | previous | next | resetBrowsing => rfl

/-! ## The ring against the shelf -/

/-- The list of texts that the ring stands for is the newest 16 lines of the shelf. -/
structure Mirrors (r : Recall) (s : Shelf) : Prop where
  lines : r.lines = s.kept.reverse.take historyCapacity
  age : r.age = s.place
  /-- The place is within reach. -/
  placeLt : ∀ k ∈ s.place, k < s.reach

namespace Mirrors

variable {r : Recall} {s : Shelf}

theorem length_lines (h : Mirrors r s) : r.lines.length = s.reach := by
  rw [h.lines, List.length_take, List.length_reverse, Shelf.reach]

theorem lines_eq_nil_iff (h : Mirrors r s) : r.lines = [] ↔ s.reach = 0 := by
  rw [← h.length_lines, List.length_eq_zero_iff]

/-- A line within reach is an element of the list. -/
theorem getElem?_lines (h : Mirrors r s) {k : ℕ} (hk : k < s.reach) :
    r.lines[k]? = s.kept.reverse[k]? := by
  unfold Shelf.reach at hk
  rw [h.lines, List.getElem?_take_of_lt (by omega)]

theorem head?_lines (h : Mirrors r s) : r.lines.head? = s.kept.getLast? := by
  rw [h.lines, List.head?_take, ← List.head?_reverse]
  rfl

/-- A line is kept on the shelf, too. -/
theorem push (h : Mirrors r s) (text : List UInt8) : Mirrors (r.push text) (s.push text) := by
  unfold Recall.push Shelf.push keep
  by_cases hempty : text = []
  · have hskip : text = [] ∨ s.kept.getLast? = some text := Or.inl hempty
    rw [if_pos hempty, if_pos hskip, if_pos hempty]
    exact h
  · rw [if_neg hempty, if_neg hempty, h.head?_lines]
    by_cases hsame : s.kept.getLast? = some text
    · rw [if_pos hsame, if_pos (Or.inr hsame)]
      exact ⟨h.lines, rfl, by simp⟩
    · have hnew : ¬ (text = [] ∨ s.kept.getLast? = some text) := by
        rintro (hnil | hlast)
        · exact hempty hnil
        · exact hsame hlast
      rw [if_neg hsame, if_neg hnew]
      refine ⟨?_, rfl, by simp⟩
      rw [List.reverse_append, h.lines]
      simp [historyCapacity, List.take_take]

/-- Both move to a place within reach, or outside. -/
theorem moved (h : Mirrors r s) {place : Option ℕ} (hplace : ∀ k ∈ place, k < s.reach) :
    Mirrors { r with age := place } (s.lookAt place).2 ∧
      ({ r with age := place } : Recall).shown = (s.lookAt place).1 := by
  refine ⟨⟨h.lines, rfl, hplace⟩, ?_⟩
  unfold Recall.shown Shelf.lookAt
  cases place with
  | none => rfl
  | some k => exact h.getElem?_lines (hplace k rfl)

theorem older_lt (h : Mirrors r s) : ∀ k ∈ s.older, k < s.reach := by
  intro k hk
  unfold Shelf.older at hk
  cases hplace : s.place with
  | none =>
    rw [hplace] at hk
    simp only at hk
    split at hk
    · cases hk
    · next hreach =>
      cases hk
      omega
  | some j =>
    have hj := h.placeLt j hplace
    rw [hplace] at hk
    cases hk
    omega

theorem newer_lt (h : Mirrors r s) : ∀ k ∈ s.newer, k < s.reach := by
  intro k hk
  unfold Shelf.newer at hk
  cases hplace : s.place with
  | none =>
    rw [hplace] at hk
    cases hk
  | some j =>
    have hj := h.placeLt j hplace
    rw [hplace] at hk
    cases j with
    | zero => cases hk
    | succ j =>
      cases hk
      omega

/-- With nothing within reach, nothing is being looked at. -/
theorem place_eq_none (h : Mirrors r s) (hreach : s.reach = 0) : s.place = none := by
  rw [Option.eq_none_iff_forall_not_mem]
  intro k hk
  have hlt := h.placeLt k hk
  omega

theorem previous_eq (h : Mirrors r s) : r.previous = { r with age := s.older } := by
  have hage := h.age
  unfold Recall.previous Shelf.older
  by_cases hnil : r.lines = []
  · have hreach := h.lines_eq_nil_iff.mp hnil
    rw [h.place_eq_none hreach] at hage ⊢
    rw [if_pos hnil]
    simp only [if_pos hreach]
    rw [← hage]
  · have hreach := mt h.lines_eq_nil_iff.mpr hnil
    rw [if_neg hnil, h.length_lines, hage]
    cases s.place with
    | none => simp only [if_neg hreach]
    | some k => rfl

/-- One line back, on both. -/
theorem previous (h : Mirrors r s) :
    Mirrors r.previous (s.exec .previous).2 ∧
      (if r.lines = [] then none else r.previous.shown) = (s.exec .previous).1 := by
  have hmoved := h.moved h.older_lt
  rw [h.previous_eq]
  refine ⟨hmoved.1, ?_⟩
  split
  · next hnil =>
    have hreach := h.lines_eq_nil_iff.mp hnil
    have holder : s.older = none := by
      unfold Shelf.older
      rw [h.place_eq_none hreach]
      exact if_pos hreach
    unfold Shelf.exec
    rw [holder]
    rfl
  · exact hmoved.2

/-- One line forward, on both. -/
theorem next (h : Mirrors r s) :
    Mirrors r.next (s.exec .next).2 ∧ r.next.shown = (s.exec .next).1 := by
  have hmoved := h.moved h.newer_lt
  have hage := h.age
  have hnext : r.next = { r with age := s.newer } := by
    unfold Recall.next Shelf.newer
    rw [hage]
    cases hplace : s.place with
    | none =>
      rw [hplace] at hage
      change r = { r with age := none }
      rw [← hage]
    | some k =>
      cases k with
      | zero => rfl
      | succ k => rfl
  unfold Shelf.exec
  rw [hnext]
  exact hmoved

theorem reset (h : Mirrors r s) : Mirrors r.reset (s.exec .resetBrowsing).2 :=
  ⟨h.lines, rfl, by simp [Shelf.exec]⟩

end Mirrors

/-- A line that the editor can have made. -/
def InputLine.Built (line : InputLine) : Prop := ∃ edits, InputLine.new.run edits = .ok line

/-- Every operation of a line checks that what it inserts is ASCII. -/
theorem InputLine.Built.wellFormed {line : InputLine} (h : line.Built) : line.WellFormed := by
  rcases h with ⟨edits, hrun⟩
  rcases run_refines InputLine.new_wellFormed edits with ⟨line', hrun', hwf, -⟩
  rw [hrun] at hrun'
  obtain rfl := Except.ok.inj hrun'
  exact hwf

/-- **Step.** A call of the ring and the same call of the shelf return the same line, and go on
agreeing. -/
theorem exec_mirrors {h : CommandHistory} {s : Shelf} (hwf : h.WellFormed)
    (hmirrors : Mirrors h.recalled s) {op : HistoryOp}
    (hline : ∀ line, op = .pushLine line → line.Built) :
    Returns (h.exec op) fun result => result.2.WellFormed ∧
      Mirrors result.2.recalled (s.exec op).2 ∧
      result.1.map HistoryEntry.text = (s.exec op).1 := by
  cases op with
  | pushLine line =>
    refine (CommandHistory.pushLine_recall hwf (hline line rfl).wellFormed).bind ?_
    rintro h' ⟨hwf', hrecall⟩
    refine Returns.pure ⟨hwf', ?_, rfl⟩
    rw [hrecall]
    exact hmirrors.push _
  | previous =>
    refine (CommandHistory.previous_recall hwf).mono ?_
    rintro result ⟨hwf', hrecall, htext, -⟩
    rw [hrecall, htext]
    exact ⟨hwf', hmirrors.previous⟩
  | next =>
    refine (CommandHistory.next_recall hwf).mono ?_
    rintro result ⟨hwf', hrecall, htext, -⟩
    rw [hrecall, htext]
    exact ⟨hwf', hmirrors.next⟩
  | resetBrowsing =>
    refine Returns.pure ⟨CommandHistory.resetBrowsing_wellFormed hwf, ?_, rfl⟩
    rw [CommandHistory.resetBrowsing_recall]
    exact hmirrors.reset

/-- **Run.** So do any number of calls. -/
theorem run_mirrors (ops : List HistoryOp) {h : CommandHistory} {s : Shelf} (hwf : h.WellFormed)
    (hmirrors : Mirrors h.recalled s) (hlines : ∀ line, .pushLine line ∈ ops → line.Built) :
    Returns (h.run ops) fun result => result.2.WellFormed ∧
      Mirrors result.2.recalled (shelf.run s ops) ∧
      result.1.map (Option.map HistoryEntry.text) = (shelf.trace s ops).map (·.2) := by
  induction ops generalizing h s with
  | nil => exact Returns.pure ⟨hwf, hmirrors, rfl⟩
  | cons op ops ih =>
    have hfirst : ∀ line, op = .pushLine line → line.Built := by
      rintro line rfl
      exact hlines line List.mem_cons_self
    refine (exec_mirrors hwf hmirrors hfirst).bind ?_
    rintro ⟨entry, h'⟩ ⟨hwf', hmirrors', htext⟩
    refine (ih hwf' hmirrors' fun line hmem => hlines line (List.mem_cons_of_mem _ hmem)).bind ?_
    rintro ⟨entries, h''⟩ ⟨hwf'', hmirrors'', htexts⟩
    refine Returns.pure ⟨hwf'', hmirrors'', ?_⟩
    simp only [List.map_cons, Mealy.trace_cons, shelf_next] at htext htexts ⊢
    rw [htext, htexts]

/-! ## Printing the history -/

/-- The lines that `print_oldest_first` prints for the given texts. -/
def historyLines (texts : List (List UInt8)) : List String :=
  if texts = [] then ["history is empty"]
  else texts.mapIdx fun index text => s!"{dec (index + 1) 2}: {asciiText text}"

/-- A round of the loop prints the entry that is as many places from the oldest. -/
theorem printEntry_eq (boot : Boot) {h : CommandHistory} (hwf : h.WellFormed) {index : ℕ}
    {text : List UInt8} (htext : h.recalled.lines.reverse[index]? = some text) :
    printEntry boot h index = consolePrintln boot s!"{dec (index + 1) 2}: {asciiText text}" := by
  have hlength := CommandHistory.length_lines hwf
  -- the entry with this index is the one of the age from the other end
  have hlt : index < h.len := by
    have hbound := (List.getElem?_eq_some_iff.mp htext).1
    rw [List.length_reverse] at hbound
    omega
  rcases CommandHistory.entryByAge_recall hwf (h.len - 1 - index) with ⟨entry, hentry, hage, hent⟩
  rw [List.getElem?_reverse (by omega), hlength] at htext
  rw [htext] at hage
  cases entry with
  | none => cases hage
  | some entry =>
    have hsame : entry.text = text := Option.some.inj hage
    have hstr := HistoryEntry.asStr_eq (hent entry rfl)
    rw [hsame] at hstr
    funext w
    unfold printEntry checked
    rw [sub_eq (by omega)]
    change (Hoare.lift _ (sub (h.len - 1) index) >>= _).run w = _
    rw [sub_eq (by omega)]
    change (Hoare.lift _ (h.entryByAge (h.len - 1 - index)) >>= _).run w = _
    rw [run_lift_bind hentry]
    change (Hoare.lift _ entry.asStr >>= _).run w = _
    rw [run_lift_bind hstr]
    rfl

theorem forM_congr_map {α β : Type} {xs : List α} {ys : List β} {f : α → MonitorM Unit}
    {g : β → MonitorM Unit} (h : xs.map f = ys.map g) : xs.forM f = ys.forM g := by
  induction xs generalizing ys with
  | nil =>
    cases ys with
    | nil => rfl
    | cons y ys => cases h
  | cons x xs ih =>
    cases ys with
    | nil => cases h
    | cons y ys =>
      rw [List.map_cons, List.map_cons, List.cons.injEq] at h
      change (f x >>= fun _ => xs.forM f) = (g y >>= fun _ => ys.forM g)
      rw [h.1, ih h.2]

/-- **Printing.** The command prints the texts of the ring, the oldest first. -/
theorem historyCommand_eq (boot : Boot) {w : World} (hwf : w.history.WellFormed) :
    (historyCommand boot).run w =
      ((historyLines w.history.recalled.lines.reverse).forM (consolePrintln boot)).run w := by
  have hlength := CommandHistory.length_lines hwf
  have hnil : w.history.recalled.lines.reverse = [] ↔ w.history.len = 0 :=
    List.reverse_eq_nil_iff.trans (CommandHistory.lines_eq_nil_iff hwf)
  unfold historyCommand historyLines
  rw [run_get_bind]
  by_cases hempty : w.history.len = 0
  · rw [if_pos hempty, if_pos (hnil.mpr hempty)]
    simp
  · rw [if_neg hempty, if_neg (mt hnil.mp hempty)]
    refine congrArg (fun program : MonitorM Unit => program.run w) (forM_congr_map ?_)
    apply List.ext_getElem?
    intro index
    rw [List.getElem?_map, List.getElem?_map, List.getElem?_mapIdx]
    -- an index below the number of entries is that of a line, and both lists end there
    rcases Nat.lt_or_ge index w.history.len with hlt | hge
    · rw [List.getElem?_range hlt]
      cases htext : w.history.recalled.lines.reverse[index]? with
      | none =>
        rw [List.getElem?_eq_none_iff, List.length_reverse] at htext
        omega
      | some text => exact congrArg some (printEntry_eq boot hwf htext)
    · rw [List.getElem?_eq_none (by rw [List.length_range]; exact hge),
        List.getElem?_eq_none (by rw [List.length_reverse]; omega)]
      rfl

/-! ## Any run from the empty history -/

/-- **History.** Whatever is called, with the lines the editor can make: an entry by its age is
the line so many places from the newest that is kept, up to 16 of them; the history is printed
oldest first; `previous` and `next` return the line at the place of the shelf; and the ring's
position is that place. -/
theorem history_shows_shelf (ops : List HistoryOp)
    (hlines : ∀ line, .pushLine line ∈ ops → line.Built) :
    let kept := (ops.filterMap HistoryOp.pushed).foldl keep []
    let s := shelf.run Shelf.empty ops
    ∃ entries h, CommandHistory.new.run ops = .ok (entries, h) ∧ s.kept = kept ∧
      (∀ k, ∃ entry, h.entryByAge k = .ok entry ∧ entry.map HistoryEntry.text =
        if k < min 16 kept.length then kept.reverse[k]? else none) ∧
      (∀ (boot : Boot) (w : World), w.history = h → (historyCommand boot).run w =
        ((historyLines (kept.drop (kept.length - 16))).forM (consolePrintln boot)).run w) ∧
      entries.map (Option.map HistoryEntry.text) =
        (shelf.trace Shelf.empty ops).map (·.2) ∧
      h.browsingAge = s.place := by
  intro kept s
  have hstart : Mirrors CommandHistory.new.recalled Shelf.empty := by
    rw [CommandHistory.new_recall]
    exact ⟨rfl, rfl, by simp [Shelf.empty]⟩
  rcases run_mirrors ops CommandHistory.new_wellFormed hstart hlines with
    ⟨⟨entries, h⟩, hrun, hwf, hmirrors, htexts⟩
  have hkept : s.kept = kept := kept_run Shelf.empty ops
  -- the history keeps the last 16 of the lines
  have hlinesEq : h.recalled.lines = kept.reverse.take 16 := by
    rw [← hkept]
    exact hmirrors.lines
  refine ⟨entries, h, hrun, hkept, ?_, ?_, htexts, hmirrors.age⟩
  · intro k
    rcases CommandHistory.entryByAge_recall hwf k with ⟨entry, hentry, htext, -⟩
    refine ⟨entry, hentry, ?_⟩
    rw [htext, hlinesEq, List.getElem?_take]
    by_cases hk : k < min 16 kept.length
    · rw [if_pos hk, if_pos (by omega)]
    · rw [if_neg hk]
      split
      · exact List.getElem?_eq_none (by rw [List.length_reverse]; omega)
      · rfl
  · rintro boot w rfl
    have holdest : w.history.recalled.lines.reverse = kept.drop (kept.length - 16) := by
      rw [hlinesEq, List.take_reverse, List.reverse_reverse]
    rw [historyCommand_eq boot hwf, holdest]

/-- The line of one character. -/
def lineOf (character : UInt8) : InputLine :=
  { bytes := character :: List.replicate 127 0, len := 1, cursor := 1 }

/-- `a`, `a`, an empty line and `b` are pushed; the last `previous` stays at the oldest line. -/
def browsedTwice : List HistoryOp :=
  [.pushLine (lineOf 97), .pushLine (lineOf 97), .pushLine InputLine.new, .pushLine (lineOf 98),
    .previous, .previous, .previous, .next]

theorem history_shows_shelf_browsed : ∃ entries h,
    CommandHistory.new.run browsedTwice = .ok (entries, h) ∧
    entries.map (Option.map HistoryEntry.text) =
      [none, none, none, none, some [98], some [97], some [97], some [98]] ∧
    h.browsingAge = some 0 := by
  have hlines : ∀ line, .pushLine line ∈ browsedTwice → line.Built := by
    intro line hmem
    simp only [browsedTwice, List.mem_cons, HistoryOp.pushLine.injEq, List.not_mem_nil,
      reduceCtorEq, or_false] at hmem
    rcases hmem with rfl | rfl | rfl | rfl
    · exact ⟨[.insertChar 'a'], by decide +kernel⟩
    · exact ⟨[.insertChar 'a'], by decide +kernel⟩
    · exact ⟨[], rfl⟩
    · exact ⟨[.insertChar 'b'], by decide +kernel⟩
  rcases history_shows_shelf browsedTwice hlines with ⟨entries, h, hrun, -, -, -, htexts, hage⟩
  refine ⟨entries, h, hrun, ?_, ?_⟩
  · rw [htexts]
    decide
  · rw [hage]
    decide

end JingOS.Monitor
