import JingOS.Monitor.Browsing

/-!
# Keys and the typed text

A text that was typed should go only by a key that edits it: the six keys that insert, delete or
submit, the completion of a command, which appends, and the arrows while they show the history.
ArrowDown does not keep to this. `CommandHistory::next` has no entry to give both behind the newest
one and when nothing is browsed, and the line is cleared in either case.

* `Loop.MayEdit` — the keys that may change the text;
* `Desk.key_text` — the others do not, apart from that arrow;
* `key_keeps_typed_iff` — which keys keep the typed text.
-/

namespace JingOS.Monitor

open Ascii Checked Hoare Text
open JingOS.Keyboard

/-- The key may change the text of the line. -/
def Loop.MayEdit (s : Loop) : KeyEvent → Prop
  | .char _ | .enter | .backspace | .delete | .wordDeleteLeft | .wordDeleteRight => True
  | .tab => s.desk.candidates.length = 1
  | .arrowUp => s.world.history.len ≠ 0
  | .arrowDown => s.world.history.browsingAge ≠ none
  | _ => False

/-- The key loses nothing of the text: it leaves it alone unless it may change it, and Tab with one
completion appends. -/
def KeepsTyped (boot : Boot) (s : Loop) (scancode : UInt8) (event : KeyEvent) : Prop :=
  (¬ s.MayEdit event → ∃ left s', (handleKeyEvent boot scancode event).run s = .ok left s' ∧
    s'.line.asStr = s.line.asStr) ∧
  (event = .tab → s.desk.candidates.length = 1 → ∃ s' text more,
    (handleKeyEvent boot scancode event).run s = .ok false s' ∧ s.line.asStr = .ok text ∧
      s'.line.asStr = .ok (text ++ more))

/-! ## The desk -/

namespace Desk

variable {d : Desk}

theorem move_text {op : LineOp} (hop : ∀ editor ∈ d.editor.step op, editor.text = d.editor.text) :
    (d.move op).1.editor.text = d.editor.text := by
  unfold move
  cases hstep : d.editor.step op with
  | none => rfl
  | some editor => exact hop editor hstep

/-- Completion appends. -/
theorem complete_text (d : Desk) (hcursor : d.editor.cursor ≤ d.editor.text.length) :
    ∃ more, d.complete.1.editor.text = d.editor.text ++ more ∧
      (d.candidates.length ≠ 1 → more = []) := by
  rcases d.complete_cases with heq | ⟨command, hcommand, hskip, hcandidates, hlonger, heq⟩ | heq
  · rw [heq]
    exact ⟨[], (List.append_nil _).symm, fun _ => rfl⟩
  · rcases step_suffixOf hcursor hcommand hlonger with ⟨source, _, _, hstep⟩
    rw [heq, move, hstep]
    -- the cursor is behind the text
    have hafter : d.editor.after = [] := not_not.mp (not_or.mp hskip).2
    have hbefore : d.editor.before = d.editor.text := by
      have hsplit : d.editor.before ++ d.editor.after = d.editor.text := List.take_append_drop _ _
      rw [hafter, List.append_nil] at hsplit
      exact hsplit
    refine ⟨source, ?_, ?_⟩
    · change d.editor.before ++ source ++ d.editor.after = _
      rw [hafter, hbefore, List.append_nil]
    · intro hcount
      rw [hcandidates] at hcount
      exact absurd rfl hcount
  · rw [heq]
    exact ⟨[], (List.append_nil _).symm, fun _ => rfl⟩

/-- ArrowDown while nothing is browsed empties the line. -/
theorem newer_text (h : d.recalled.age = none) : d.newer.1.editor.text = [] := by
  have hnext : d.recalled.next = d.recalled := by
    unfold Recall.next
    rw [h]
  change d.recalled.next.shown.getD [] = []
  rw [hnext, Recall.shown, h]
  rfl

end Desk

/-! ## Keys -/

section

variable {boot : Boot} {s : Loop}

/-- A key that may not edit keeps the text; ArrowDown keeps an empty one. -/
theorem key_text (h : s.WellFormed) (scancode : UInt8) {event : KeyEvent}
    (hevent : ¬ s.MayEdit event) (hdown : event = .arrowDown → s.desk.editor.text = []) :
    (s.desk.key scancode event).1.editor.text = s.desk.editor.text := by
  cases event with
  | char c => exact absurd trivial hevent
  | enter => exact absurd trivial hevent
  | backspace => exact absurd trivial hevent
  | delete => exact absurd trivial hevent
  | wordDeleteLeft => exact absurd trivial hevent
  | wordDeleteRight => exact absurd trivial hevent
  | tab =>
    -- nothing is completed, as the key may not edit here
    rcases s.desk.complete_text (InputLine.cursor_le_text h.line) with ⟨more, htext, hmore⟩
    change s.desk.complete.1.editor.text = _
    rw [htext, hmore hevent, List.append_nil]
  | arrowUp =>
    have hlines : s.desk.recalled.lines = [] := by
      rw [← List.length_eq_zero_iff]
      exact (CommandHistory.length_lines h.history).trans (not_not.mp hevent)
    change s.desk.older.1.editor.text = _
    unfold Desk.older
    rw [if_pos hlines]
  | arrowDown =>
    rw [hdown rfl]
    exact Desk.newer_text (not_not.mp hevent)
  | arrowLeft => exact Desk.move_text (Desk.step_text rfl)
  | arrowRight => exact Desk.move_text (Desk.step_text rfl)
  | wordLeft => exact Desk.move_text (Desk.step_text rfl)
  | wordRight => exact Desk.move_text (Desk.step_text rfl)
  | home => exact Desk.move_text (Desk.step_text rfl)
  | «end» => exact Desk.move_text (Desk.step_text rfl)
  | ctrl | alt | ctrlAlt | escape | insert | pageUp | pageDown | function | unknown => rfl

theorem reachable_wellFormed (hboot : boot.Successful)
    (hs : Loop.Reachable boot (fun _ _ => True) s) : s.WellFormed :=
  (hs.induct hboot (P := fun _ => True) (fun _ => trivial) fun _ _ _ _ _ => trivial).1

/-- **Typed text.** In every reachable state a key loses nothing of the text, unless it is ArrowDown
while no entry is browsed and the line is not empty. -/
theorem key_keeps_typed_iff (hboot : boot.Successful)
    (hs : Loop.Reachable boot (fun _ _ => True) s) (scancode : UInt8) (event : KeyEvent) :
    KeepsTyped boot s scancode event ↔
      ¬ (event = .arrowDown ∧ s.world.history.browsingAge = none ∧ s.line.len ≠ 0) := by
  have hwf : s.WellFormed := reachable_wellFormed hboot hs
  have hasStr : ∀ {s : Loop}, s.WellFormed → s.line.asStr = .ok (asciiText s.desk.editor.text) :=
    fun h => InputLine.asStr_eq h.line
  constructor
  · -- the line is emptied, although the arrow may not edit it
    rintro ⟨hkeeps, _⟩ ⟨rfl, hage, hlen⟩
    rcases hkeeps (not_not.mpr hage) with ⟨left, s', hrun, hline⟩
    rcases key_replies boot hwf scancode (show KeyEvent.arrowDown ≠ .enter by decide) with
      ⟨s'', hrun', hanswers⟩
    rw [hrun'] at hrun
    cases hrun
    rw [hasStr hanswers.wellFormed, hasStr hwf, hanswers.desk, Except.ok.injEq] at hline
    have htext : (s.desk.key scancode .arrowDown).1.editor.text = [] := Desk.newer_text hage
    rw [htext] at hline
    have hlength := congrArg String.length hline
    rw [Desk.length_asciiText, Desk.length_asciiText] at hlength
    apply hlen
    rw [← InputLine.length_text hwf.line]
    exact hlength.symm
  · intro hnot
    constructor
    · intro hevent
      have hne : event ≠ .enter := by
        rintro rfl
        exact hevent trivial
      rcases key_replies boot hwf scancode hne with ⟨s', hrun, hanswers⟩
      refine ⟨_, s', hrun, ?_⟩
      rw [hasStr hanswers.wellFormed, hasStr hwf, hanswers.desk, key_text hwf scancode hevent]
      -- the arrow has nothing to lose
      rintro rfl
      rw [← List.length_eq_zero_iff]
      refine (InputLine.length_text hwf.line).trans ?_
      by_contra hlen
      exact hnot ⟨rfl, not_not.mp hevent, hlen⟩
    · rintro rfl _
      rcases key_replies boot hwf scancode (show KeyEvent.tab ≠ .enter by decide) with
        ⟨s', hrun, hanswers⟩
      rcases s.desk.complete_text (InputLine.cursor_le_text hwf.line) with ⟨more, htext, _⟩
      refine ⟨s', _, asciiText more, hrun, hasStr hwf, ?_⟩
      rw [hasStr hanswers.wellFormed, hanswers.desk]
      change Except.ok (asciiText s.desk.complete.1.editor.text) = _
      rw [htext, asciiText_append]

end

/-- While the entry `hel` is shown, Tab completes it and ArrowDown may leave it. -/
theorem key_keeps_typed_iff_hel : sampleBoot.Successful ∧
    ∃ s, Loop.Reachable sampleBoot (fun _ _ => True) s ∧ s.line.asStr = .ok "hel" ∧
      s.world.history.browsingAge = some 0 ∧ KeepsTyped sampleBoot s 0x0f .tab ∧
      KeepsTyped sampleBoot s 0x50 .arrowDown := by
  rcases hel_recalled (fun _ _ => True) fun _ _ _ _ => trivial with
    ⟨s, hs, hwf, heditor, hrecall⟩
  have hline : s.line.asStr = .ok (asciiText s.desk.editor.text) := InputLine.asStr_eq hwf.line
  rw [heditor] at hline
  have hage : s.world.history.browsingAge = some 0 := congrArg Recall.age hrecall
  have hiff := key_keeps_typed_iff sampleBoot_successful hs
  refine ⟨sampleBoot_successful, s, hs, hline, hage, (hiff 0x0f .tab).mpr ?_,
    (hiff 0x50 .arrowDown).mpr ?_⟩
  · rintro ⟨hevent, _⟩
    cases hevent
  · rintro ⟨_, hnone, _⟩
    rw [hage] at hnone
    cases hnone

/-- `h`, and then ArrowDown: the letter is lost, although nothing was browsed. -/
theorem arrow_down_loses_typed : ∃ s s', Loop.Reachable sampleBoot (fun _ _ => True) s ∧
    s.world.history.browsingAge = none ∧ s.line.asStr = .ok "h" ∧
    (handleKeyEvent sampleBoot 0x50 .arrowDown).run s = .ok false s' ∧ s'.line.asStr = .ok "" ∧
    ¬ KeepsTyped sampleBoot s 0x50 .arrowDown := by
  have hstart : Loop.Reachable sampleBoot (fun _ _ => True)
      (Loop.fresh (sampleWorld.entered sampleBoot)) :=
    .entered sampleWorld_booted (startInputLoop_run sampleWorld_booted.inv)
  rcases hstart.key (entered_wellFormed sampleWorld_booted.inv) 0x23 (.char 'h') (by decide)
    (by decide) trivial with ⟨s, hs, hwf, hdesk⟩
  rcases key_replies sampleBoot hwf 0x50 (show KeyEvent.arrowDown ≠ .enter by decide) with
    ⟨s', hrun, hanswers⟩
  have hage : s.desk.recalled.age = none := by
    rw [hdesk]
    rfl
  have hline : s.line.asStr = .ok (asciiText s.desk.editor.text) := InputLine.asStr_eq hwf.line
  have hline' : s'.line.asStr = .ok (asciiText s'.desk.editor.text) :=
    InputLine.asStr_eq hanswers.wellFormed.line
  have htext : s.desk.editor.text = [0x68] := by
    rw [hdesk]
    rfl
  -- the arrow clears a line that is not recalled
  have htext' : s'.desk.editor.text = [] := by
    rw [hanswers.desk]
    exact Desk.newer_text hage
  rw [htext] at hline
  rw [htext'] at hline'
  refine ⟨s, s', hs, hage, hline, hrun, hline', ?_⟩
  rintro ⟨hkeeps, _⟩
  rcases hkeeps (not_not.mpr hage) with ⟨left, s'', hrun'', hsame⟩
  rw [hrun] at hrun''
  cases hrun''
  rw [hline, hline'] at hsame
  revert hsame
  decide

end JingOS.Monitor
