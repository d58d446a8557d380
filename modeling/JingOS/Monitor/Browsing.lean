import JingOS.Monitor.Rounds
import JingOS.Monitor.Survival

/-!
# Browsing the history

While an entry of the history is browsed, the line shows it. Every key that changes the text
ends browsing, except Tab: a completed line differs from the entry it was made of, and the
history does not know.

* `Loop.InStep` — the line is the entry that is browsed;
* `Desk.Completes` — Tab would change the text;
* `browsing_in_step` — exactly the Tabs that complete a browsed entry break the step.
-/

namespace JingOS.Monitor

open Ascii Checked Hoare Text
open JingOS.Framebuffer JingOS.Keyboard JingOS.Syscall JingOS.Task JingOS.Usermode

/-- When an entry is browsed, it is one that is kept, and the line is its text. -/
def Loop.InStep (s : Loop) : Prop :=
  ∀ age ∈ s.world.history.browsingAge, age < s.world.history.len ∧
    ∃ entry text, s.world.history.entryByAge age = .ok (some entry) ∧
      entry.asStr = .ok text ∧ s.line.asStr = .ok text

namespace Desk

/-- The same of the desk. -/
def InStep (d : Desk) : Prop := ∀ age ∈ d.recalled.age, d.recalled.lines[age]? = some d.editor.text

/-- The text is the beginning of exactly one command, with the cursor behind it, and Tab would
write the rest. -/
def Completes (d : Desk) : Prop :=
  ¬ ((asciiText d.editor.text).toList.contains ' ' ∨ d.editor.after ≠ []) ∧
    ∃ command, d.candidates = [command] ∧ command.length > (asciiText d.editor.text).length

variable {d : Desk}

theorem inStep_of_age_eq_none (h : d.recalled.age = none) : d.InStep := by
  intro age hage
  rw [h] at hage
  cases hage

/-! ## What a key does to the text -/

theorem edit_inStep (h : d.InStep) (op : LineOp) (refused : String) :
    (d.edit op refused).1.InStep := by
  unfold edit
  cases d.editor.step op with
  | none => exact h
  | some editor => exact inStep_of_age_eq_none rfl

/-- The movements keep the text. -/
theorem step_text {e : Editor} {op : LineOp} {stuck : Prop} [Decidable stuck] {cursor : ℕ}
    (hstep : e.step op = if stuck then none else some { e with cursor }) :
    ∀ editor ∈ e.step op, editor.text = e.text := by
  intro editor heditor
  rw [hstep] at heditor
  by_cases hstuck : stuck
  · rw [if_pos hstuck] at heditor
    cases heditor
  · rw [if_neg hstuck] at heditor
    cases heditor
    rfl

/-- A move of the cursor leaves the text alone. -/
theorem move_inStep (h : d.InStep) {op : LineOp}
    (hop : ∀ editor ∈ d.editor.step op, editor.text = d.editor.text) : (d.move op).1.InStep := by
  unfold move
  cases hstep : d.editor.step op with
  | none => exact h
  | some editor =>
    intro age hage
    change _ = some editor.text
    rw [hop editor hstep]
    exact h age hage

/-- Tab keeps the line in step, unless it completes one that is browsed. -/
theorem complete_inStep (h : d.InStep) (hkeeps : d.recalled.age = none ∨ ¬ d.Completes) :
    d.complete.1.InStep := by
  rcases d.complete_cases with heq | ⟨command, _, hskip, hcandidates, hlonger, heq⟩ | heq
  · rw [heq]
    exact h
  · -- the text changes, so no entry may be browsed
    rw [heq]
    rcases hkeeps with hnone | hnot
    · unfold move
      cases d.editor.step _ with
      | none => exact h
      | some editor => exact inStep_of_age_eq_none hnone
    · exact absurd ⟨hskip, command, hcandidates, hlonger⟩ hnot
  · rw [heq]
    exact h

theorem older_inStep (h : d.InStep) : d.older.1.InStep := by
  unfold older
  by_cases hlines : d.recalled.lines = []
  · rw [if_pos hlines]
    exact h
  · rw [if_neg hlines]
    intro age hage
    rcases shown_previous hlines with ⟨text, hshown⟩
    change d.recalled.previous.age = some age at hage
    change d.recalled.previous.lines[age]? = some (d.recalled.previous.shown.getD [])
    rw [hshown, Option.getD_some, ← hshown, Recall.shown, hage]
    rfl

theorem newer_inStep (h : d.InStep) : d.newer.1.InStep := by
  intro age hage
  change d.recalled.next.age = some age at hage
  change d.recalled.next.lines[age]? = some (d.recalled.next.shown.getD [])
  -- one newer than an entry that is kept is kept
  have hlt : age < d.recalled.next.lines.length := by
    revert hage
    unfold Recall.next
    rcases hr : d.recalled.age with _ | _ | older
    · intro hage
      rw [hr] at hage
      cases hage
    · intro hage
      cases hage
    · intro hage
      cases hage
      rcases List.getElem?_eq_some_iff.mp (h (age + 1) hr) with ⟨hlt, _⟩
      exact Nat.lt_of_succ_lt hlt
  have hshown : d.recalled.next.shown = some (d.recalled.next.lines.get ⟨age, hlt⟩) := by
    rw [Recall.shown, hage]
    exact List.getElem?_eq_getElem hlt
  rw [hshown, Option.getD_some]
  exact List.getElem?_eq_getElem hlt

/-- The step for a key; only Tab can break it. -/
theorem key_inStep (h : d.InStep) (scancode : UInt8) {event : KeyEvent}
    (hevent : event = .tab → d.recalled.age = none ∨ ¬ d.Completes) :
    (d.key scancode event).1.InStep := by
  cases event with
  | char c => exact edit_inStep h _ _
  | ctrl c => exact h
  | alt c => exact h
  | ctrlAlt c => exact h
  | enter => exact h
  | backspace => exact edit_inStep h _ _
  | tab => exact complete_inStep h (hevent rfl)
  | escape => exact h
  | arrowUp => exact older_inStep h
  | arrowDown => exact newer_inStep h
  | arrowLeft => exact move_inStep h (step_text rfl)
  | arrowRight => exact move_inStep h (step_text rfl)
  | wordLeft => exact move_inStep h (step_text rfl)
  | wordRight => exact move_inStep h (step_text rfl)
  | insert => exact h
  | delete => exact edit_inStep h _ _
  | wordDeleteLeft => exact edit_inStep h _ _
  | wordDeleteRight => exact edit_inStep h _ _
  | home => exact move_inStep h (step_text rfl)
  | «end» => exact move_inStep h (step_text rfl)
  | pageUp => exact h
  | pageDown => exact h
  | function number => exact h
  | unknown code => exact h

/-- A completed entry is longer than the one that is kept. -/
theorem complete_not_inStep (h : d.InStep) (hcursor : d.editor.cursor ≤ d.editor.text.length)
    {age : ℕ} (hage : d.recalled.age = some age) (hcompletes : d.Completes) :
    ¬ d.complete.1.InStep := by
  rcases hcompletes with ⟨hskip, command, hcandidates, hlonger⟩
  have hcommand := mem_commandNames_of_candidates hcandidates
  rcases step_suffixOf hcursor hcommand hlonger with ⟨source, _, hsource, hstep⟩
  unfold complete
  rw [if_neg hskip, hcandidates]
  dsimp only
  rw [if_pos hlonger]
  unfold move
  rw [hstep]
  intro hinStep
  have hnew : d.recalled.lines[age]? = some (d.editor.splice source).text := hinStep age hage
  rw [h age hage, Option.some_inj] at hnew
  have hlength := congrArg List.length hnew
  rw [Editor.length_splice hcursor, hsource] at hlength
  rw [length_asciiText] at hlonger
  omega

/-- The step for an event, with what follows it. -/
theorem after_inStep (h : d.InStep) (left : Bool) {event : LoopEvent}
    (hevent : ∀ scancode, event = .key scancode .tab → d.recalled.age = none ∨ ¬ d.Completes) :
    (d.after left event).InStep := by
  cases event with
  | tick now => exact h
  | key scancode event =>
    by_cases henter : event = .enter
    · subst henter
      apply inStep_of_age_eq_none
      cases left <;> rfl
    · rw [after_key _ _ _ henter]
      exact key_inStep h scancode fun htab => hevent scancode (by rw [htab])

end Desk

/-! ## Runs -/

section

variable {boot : Boot} {s : Loop}

/-- The desk tells of the monitor whether it is in step. -/
theorem inStep_iff (h : s.WellFormed) : s.InStep ↔ s.desk.InStep := by
  have hline : s.line.asStr = .ok (asciiText s.desk.editor.text) := InputLine.asStr_eq h.line
  have hlines : s.desk.recalled.lines.length = s.world.history.len :=
    CommandHistory.length_lines h.history
  constructor
  · intro hstep age hage
    -- the entry at this age, once as the monitor reads it and once in the list
    rcases hstep age hage with ⟨hlt, entry, text, hentry, htext, hline'⟩
    rcases CommandHistory.entryByAge_recall h.history age with ⟨found, hfound, hshown, hwf⟩
    rw [hentry] at hfound
    cases hfound
    have hentry := hwf entry rfl
    rw [HistoryEntry.asStr_eq hentry] at htext
    cases htext
    rw [hline, Except.ok.injEq] at hline'
    change s.world.history.recalled.lines[age]? = _
    rw [← hshown, Option.map_some,
      ← (CommandHistory.asciiText_inj h.line.ascii hentry.ascii).mp hline']
    rfl
  · intro hstep age hage
    have hshown := hstep age hage
    rcases List.getElem?_eq_some_iff.mp hshown with ⟨hlt, _⟩
    rcases CommandHistory.entryByAge_recall h.history age with ⟨found, hfound, htext, hwf⟩
    change s.world.history.recalled.lines[age]? = _ at hshown
    rw [hshown] at htext
    rcases Option.map_eq_some_iff.mp htext with ⟨entry, rfl, hentry⟩
    refine ⟨by omega, entry, _, hfound, HistoryEntry.asStr_eq (hwf entry rfl), ?_⟩
    rw [hentry]
    exact hline

/-- Tab completes a line that was recalled from the history. -/
def CompletesRecalled (s : Loop) (event : LoopEvent) : Prop :=
  (∃ scancode, event = .key scancode .tab) ∧ s.world.history.browsingAge ≠ none ∧ s.desk.Completes

/-- **Browsing.** The line is the entry that is browsed, in every run in which no Tab completes a
recalled line; and each such Tab ends that. -/
theorem browsing_in_step (hboot : boot.Successful)
    (hs : Loop.Reachable boot (fun s event => ¬ CompletesRecalled s event) s) :
    s.InStep ∧ ∀ event s', CompletesRecalled s event →
      (event.program boot).run s = .ok false s' → ¬ s'.InStep := by
  have hinv : s.WellFormed ∧ s.desk.InStep := by
    refine hs.induct hboot (fun w => Desk.inStep_of_age_eq_none rfl) ?_
    intro s event _ hstep hallowed
    refine Desk.after_inStep hstep false fun scancode htab => ?_
    by_cases hage : s.desk.recalled.age = none
    · exact .inl hage
    · exact .inr fun hcompletes => hallowed ⟨⟨scancode, htab⟩, hage, hcompletes⟩
  rcases hinv with ⟨hwf, hstep⟩
  refine ⟨(inStep_iff hwf).mpr hstep, ?_⟩
  rintro event s' ⟨⟨scancode, rfl⟩, hage, hcompletes⟩ hrun hstep'
  rcases round_ok hboot hwf hrun with ⟨hwf', hdesk⟩
  rw [inStep_iff hwf', hdesk, Desk.after_key _ _ _ (by decide)] at hstep'
  rcases Option.ne_none_iff_exists'.mp hage with ⟨age, hage⟩
  exact Desk.complete_not_inStep hstep (InputLine.cursor_le_text hwf.line) hage hcompletes hstep'

/-! ## A line that is completed -/

variable {allowed : Loop → LoopEvent → Prop}

/-- One key more. -/
theorem Loop.Reachable.key (hs : Loop.Reachable boot allowed s) (hwf : s.WellFormed)
    (scancode : UInt8) (event : KeyEvent) (henter : event ≠ .enter) (hescape : event ≠ .escape)
    (hallowed : allowed s (.key scancode event)) :
    ∃ s', Loop.Reachable boot allowed s' ∧ s'.WellFormed ∧
      s'.desk = (s.desk.key scancode event).1 := by
  rcases key_replies boot hwf scancode henter with ⟨s', hrun, hanswers⟩
  rw [decide_eq_false hescape] at hrun
  exact ⟨s', hs.returned hallowed hrun, hanswers.wellFormed, hanswers.desk⟩

/-- One line more, with a command that returns. -/
theorem Loop.Reachable.enter (hboot : boot.Successful) (hs : Loop.Reachable boot allowed s)
    (hwf : s.WellFormed) (scancode : UInt8) (hallowed : allowed s (.key scancode .enter))
    (hcommand : ∀ w : World, w.Inv → ∃ w',
      (executeCommand boot (asciiText s.desk.editor.text)).run w = .ok false w') :
    ∃ s', Loop.Reachable boot allowed s' ∧ s'.WellFormed ∧
      s'.desk = s.desk.after false (.key scancode .enter) := by
  rcases enterKey_run hboot hwf with ⟨history, hhistory, _, henter⟩
  rcases hcommand (s.call boot history).world (Loop.call_inv boot hwf hhistory) with ⟨w', hrun⟩
  rw [Loop.call_result, show (s.call boot history).text = asciiText s.desk.editor.text from rfl,
    hrun] at henter
  rcases henter with ⟨s', hrun', hwf', hdesk, _⟩
  exact ⟨s', hs.returned hallowed hrun', hwf', hdesk⟩

theorem hel_run {w : World} (h : w.Inv) :
    ∃ w', (executeCommand boot "hel").run w = .ok false w' := by
  have hwords : splitWhitespace "hel" = ["hel"] := by decide
  have hrun : (runCommand boot "hel" "hel" []).run w =
      .ok () (w.shown boot ("unknown command: hel" ++ "\n")) := consolePrintln_run h _
  refine ⟨w.shown boot ("unknown command: hel" ++ "\n"), ?_⟩
  unfold executeCommand
  rw [hwords]
  simp only
  rw [if_neg (by decide)]
  exact run_bind_ok hrun

end

/-- `hel` was entered, and recalled with the arrow. -/
theorem hel_recalled (allowed : Loop → LoopEvent → Prop)
    (hallowed : ∀ s scancode event, event ≠ .tab → allowed s (.key scancode event)) :
    ∃ s, Loop.Reachable sampleBoot allowed s ∧ s.WellFormed ∧
      s.desk.editor = ⟨[0x68, 0x65, 0x6c], 3⟩ ∧ s.desk.recalled = ⟨[[0x68, 0x65, 0x6c]], some 0⟩ := by
  have hstart : Loop.Reachable sampleBoot allowed (Loop.fresh (sampleWorld.entered sampleBoot)) :=
    .entered sampleWorld_booted (startInputLoop_run sampleWorld_booted.inv)
  have hwf : (Loop.fresh (sampleWorld.entered sampleBoot)).WellFormed :=
    entered_wellFormed sampleWorld_booted.inv
  -- `hel`, Enter, and the arrow that recalls it
  rcases hstart.key hwf 0x23 (.char 'h') (by decide) (by decide) (hallowed _ _ _ (by decide)) with
    ⟨s₁, hs₁, hwf₁, hdesk₁⟩
  rcases hs₁.key hwf₁ 0x12 (.char 'e') (by decide) (by decide) (hallowed _ _ _ (by decide)) with
    ⟨s₂, hs₂, hwf₂, hdesk₂⟩
  rcases hs₂.key hwf₂ 0x26 (.char 'l') (by decide) (by decide) (hallowed _ _ _ (by decide)) with
    ⟨s₃, hs₃, hwf₃, hdesk₃⟩
  rw [hdesk₂, hdesk₁] at hdesk₃
  have htyped : s₃.desk.editor = ⟨[0x68, 0x65, 0x6c], 3⟩ ∧ s₃.desk.recalled = Recall.empty := by
    rw [hdesk₃]
    exact ⟨rfl, rfl⟩
  rcases hs₃.enter sampleBoot_successful hwf₃ 0x1c (hallowed _ _ .enter (by decide))
    (by rw [htyped.1]; exact fun w hw => hel_run hw) with ⟨s₄, hs₄, hwf₄, hdesk₄⟩
  rcases hs₄.key hwf₄ 0x48 .arrowUp (by decide) (by decide) (hallowed _ _ _ (by decide)) with
    ⟨s₅, hs₅, hwf₅, hdesk₅⟩
  rw [hdesk₄, hdesk₃] at hdesk₅
  refine ⟨s₅, hs₅, hwf₅, ?_⟩
  rw [hdesk₅]
  exact ⟨rfl, rfl⟩

theorem browsing_in_step_hel : sampleBoot.Successful ∧
    ∃ s, Loop.Reachable sampleBoot (fun s event => ¬ CompletesRecalled s event) s ∧
      s.world.history.browsingAge = some 0 ∧ s.InStep := by
  have hallowed : ∀ (s : Loop) scancode (event : KeyEvent), event ≠ .tab →
      ¬ CompletesRecalled s (.key scancode event) := by
    rintro s scancode event htab ⟨⟨scancode', hkey⟩, _⟩
    cases hkey
    exact htab rfl
  rcases hel_recalled (fun s event => ¬ CompletesRecalled s event) hallowed with ⟨s, hs, _, _, hrecall⟩
  refine ⟨sampleBoot_successful, s, hs, ?_, (browsing_in_step sampleBoot_successful hs).1⟩
  exact congrArg Recall.age hrecall

theorem complete_hel {d : Desk} (h : d.editor = ⟨[0x68, 0x65, 0x6c], 3⟩) :
    d.complete.1.editor = ⟨[0x68, 0x65, 0x6c, 0x70], 4⟩ ∧ d.complete.1.recalled = d.recalled := by
  have hskip : ¬ ((asciiText d.editor.text).toList.contains ' ' ∨ d.editor.after ≠ []) := by
    rw [h]
    decide
  have hcandidates : d.candidates = ["help"] := by
    unfold Desk.candidates
    rw [h]
    decide
  have hstep : d.editor.step (.appendStr (suffixOf "help" (asciiText d.editor.text))) =
      some ⟨[0x68, 0x65, 0x6c, 0x70], 4⟩ := by
    rw [h]
    rfl
  unfold Desk.complete
  simp only [hcandidates]
  rw [if_neg hskip, if_pos (by rw [h]; decide)]
  unfold Desk.move
  rw [hstep]
  exact ⟨rfl, rfl⟩

/-- After `hel`, Enter, ArrowUp and Tab the line is `help`, and the history still shows `hel`. -/
theorem tab_leaves_step : ∃ s, Loop.Reachable sampleBoot (fun _ _ => True) s ∧
    s.world.history.browsingAge = some 0 ∧ s.line.asStr = .ok "help" ∧
    (∃ entry, s.world.history.entryByAge 0 = .ok (some entry) ∧ entry.asStr = .ok "hel") ∧
    ¬ s.InStep := by
  rcases hel_recalled (fun _ _ => True) fun _ _ _ _ => trivial with
    ⟨s, hs, hwf, heditor, hrecall⟩
  rcases hs.key hwf 0x0f .tab (by decide) (by decide) trivial with ⟨s', hs', hwf', hdesk⟩
  -- Tab completes the recalled line, and the age stays
  have hcompleted : s'.desk.editor = ⟨[0x68, 0x65, 0x6c, 0x70], 4⟩ ∧
      s'.desk.recalled = ⟨[[0x68, 0x65, 0x6c]], some 0⟩ := by
    rw [hdesk, ← hrecall]
    exact complete_hel heditor
  rcases hcompleted with ⟨heditor', hrecall'⟩
  have hage : s'.world.history.browsingAge = some 0 := congrArg Recall.age hrecall'
  have hline : s'.line.asStr = .ok (asciiText s'.desk.editor.text) := InputLine.asStr_eq hwf'.line
  rcases CommandHistory.entryByAge_recall hwf'.history 0 with ⟨found, hfound, htext, hentry⟩
  change _ = s'.desk.recalled.lines[0]? at htext
  rw [hrecall'] at htext
  rcases Option.map_eq_some_iff.mp htext with ⟨entry, rfl, hentryText⟩
  have hasStr := HistoryEntry.asStr_eq (hentry entry rfl)
  rw [hentryText] at hasStr
  rw [heditor'] at hline
  refine ⟨s', hs', hage, hline, ⟨entry, hfound, hasStr⟩, ?_⟩
  intro hstep
  -- so that the line at that age would have to be `help`
  rw [inStep_iff hwf'] at hstep
  have hshown := hstep 0 hage
  rw [hrecall', heditor'] at hshown
  revert hshown
  decide

end JingOS.Monitor
