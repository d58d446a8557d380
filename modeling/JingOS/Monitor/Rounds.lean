import JingOS.Monitor.Desk

/-!
# Rounds of the monitor

A round of `input_loop` is a key or a look at the automatic scheduler. A command may leave for
ring 3 in the middle of a round; the loop is then entered again, with variables of its own.

* `Desk.after` — what a round that comes back leaves on the desk;
* `round_ok`, `round_stops` — the two ways in which a round ends;
* `Resumes` — the way back from ring 3;
* `Loop.Reachable` — the states between two rounds.
-/

namespace JingOS.Monitor

open Ascii Checked Hoare Text
open JingOS.Framebuffer JingOS.Keyboard JingOS.Syscall JingOS.Task JingOS.Usermode

namespace Desk

/-- Behind a command the line is empty, and a new prompt is drawn unless the monitor is left. -/
def afterCommand (d : Desk) (left : Bool) : Desk :=
  let d := { d with recalled := d.recalled.reset }.load []
  if left then d else { d with renderedLen := monitorPrompt.length }

/-- What a round that comes back leaves on the desk. -/
def after (d : Desk) (left : Bool) : LoopEvent → Desk
  | .key _ .enter => { d with recalled := d.recalled.push d.editor.text }.afterCommand left
  | .key scancode event => (d.key scancode event).1
  | .tick _ => d

theorem after_key (d : Desk) (left : Bool) (scancode : UInt8) {event : KeyEvent}
    (h : event ≠ .enter) : d.after left (.key scancode event) = (d.key scancode event).1 := by
  cases event <;> first | rfl | exact absurd rfl h

end Desk

section

variable {boot : Boot} {s : Loop}

/-! ## Enter -/

/-- The call of `execute_command` for the line, with the line in the history. -/
def Loop.call (boot : Boot) (s : Loop) (history : CommandHistory) : Call where
  world := { s.world.shown boot "\n" with history }
  text := asciiText s.desk.editor.text
  result := (executeCommand boot (asciiText s.desk.editor.text)).run
    { s.world.shown boot "\n" with history }

variable (boot) in
theorem Loop.call_result (s : Loop) (history : CommandHistory) :
    (s.call boot history).result =
      (executeCommand boot (s.call boot history).text).run (s.call boot history).world := rfl

variable (boot) in
/-- The call is made in a good state. -/
theorem Loop.call_inv (h : s.WellFormed) {history : CommandHistory} (hhistory : history.WellFormed) :
    (s.call boot history).world.Inv := by
  have hshown : (s.world.shown boot "\n").Inv := h.world.shown "\n"
  exact ⟨hshown.writer, hhistory.toInv, hshown.cursor⟩

variable (boot) in
/-- Enter's first part: the line is kept and given back. -/
theorem submitLine_run (h : s.WellFormed) :
    ∃ history : CommandHistory, history.WellFormed ∧
      history.recalled = s.desk.recalled.push s.desk.editor.text ∧
      (submitLine boot).run s = .ok (asciiText s.desk.editor.text)
        { s with world := (s.call boot history).world } := by
  rcases CommandHistory.pushLine_recall h.history h.line with ⟨history, hpush, hwf, hrecall⟩
  refine ⟨history, hwf, hrecall, ?_⟩
  have hhistory : (onHistory fun history => (((), ·) <$> history.pushLine s.line)).run
      { s with world := s.world.shown boot "\n" } =
      .ok () { s with world := (s.call boot history).world } := by
    refine onHistory_run ?_
    change ((), ·) <$> s.world.history.pushLine s.line = _
    rw [hpush]
    rfl
  have hnewline : (inWorld (consolePrintln boot "")).run s =
      .ok () { s with world := s.world.shown boot "\n" } :=
    inWorld_ok (consolePrintln_run h.world "")
  unfold submitLine
  rw [run_bind_ok hnewline, run_get_bind]
  dsimp only
  rw [run_bind_ok hhistory, InputLine.asStr_eq h.line]
  rfl

/-- A call that returns. -/
theorem callCommand_ok {text : String} {left : Bool} {w : World}
    (hrun : (executeCommand boot text).run s.world = .ok left w) :
    (callCommand boot text).run s = .ok left
      { s with world := w, calls := s.calls ++ [⟨s.world, text, .ok left w⟩] } := by
  change callCommand boot text s = _
  unfold callCommand
  rw [hrun]

/-- A call that stops the monitor. -/
theorem callCommand_error {text : String} {stop : Stop} {w : World}
    (hrun : (executeCommand boot text).run s.world = .error stop w) :
    (callCommand boot text).run s = .error stop
      { s with world := w, calls := s.calls ++ [⟨s.world, text, .error stop w⟩] } := by
  change callCommand boot text s = _
  unfold callCommand
  rw [hrun]

variable (boot) in
theorem afterCommand_replies (h : s.WellFormed) (left : Bool) :
    Replies boot (afterCommand boot left) s left (s.desk.afterCommand left)
      (if left then "" else monitorPrompt) := by
  refine (clearLine_replies h).quiet h fun s₁ hs₁ hdesk₁ => ?_
  refine (resetBrowsing_replies hs₁).quiet hs₁ fun s₂ hs₂ hdesk₂ => ?_
  rw [hdesk₁] at hdesk₂
  cases left with
  | true =>
    have hpure := Replies.pure boot hs₂ true
    rw [hdesk₂] at hpure
    exact hpure
  | false =>
    rcases print_replies boot hs₂ monitorPrompt with ⟨s₃, hrun, hanswers⟩
    refine ⟨{ s₃ with renderedLen := monitorPrompt.length }, ?_, ?_⟩
    · simp only [Bool.false_eq_true, if_false]
      rw [run_bind_ok hrun]
      rfl
    · have hwf := hanswers.wellFormed
      refine ⟨⟨hwf.world, hwf.history, hwf.line⟩, ?_, hanswers.world, hanswers.calls⟩
      change { s₃.desk with renderedLen := monitorPrompt.length } = _
      rw [hanswers.desk, hdesk₂]
      rfl

/-- No command touches the history. -/
theorem executeCommand_keeps (hboot : boot.Successful) (line : String) (history : CommandHistory) :
    Safe (Framed World.history history) (fun _ => True) (executeCommand boot line) :=
  executeCommand_safe hboot (fun _ _ => trivial) (fun _ _ => rfl) fun _ => trivial

/-- Enter is one call of `execute_command`, and what becomes of it: behind a call that returns only
the consoles and the history are touched. -/
theorem enterKey_run (hboot : boot.Successful) (h : s.WellFormed) :
    ∃ history : CommandHistory, history.WellFormed ∧
      history.recalled = s.desk.recalled.push s.desk.editor.text ∧
      match (s.call boot history).result with
      | .ok left w => ∃ s', (enterKey boot).run s = .ok left s' ∧ s'.WellFormed ∧
          s'.desk = s.desk.after left (.key 0 .enter) ∧
          s'.calls = s.calls ++ [s.call boot history] ∧
          s'.world = { w.shown boot (if left then "" else monitorPrompt) with
            history := s'.world.history }
      | .error stop w => (enterKey boot).run s = .error stop
          { s with world := w, calls := s.calls ++ [s.call boot history] } ∧
          w.Inv ∧ w.history = history := by
  rcases submitLine_run boot h with ⟨history, hwf, hrecall, hsubmit⟩
  refine ⟨history, hwf, hrecall, ?_⟩
  have hworld : Framed World.history history (s.call boot history).world :=
    ⟨Loop.call_inv boot h hwf, rfl⟩
  -- the command leaves the history as it was submitted
  have hkeeps := executeCommand_keeps hboot (s.call boot history).text history
  have hresult := (s.call_result boot history).symm
  unfold enterKey
  rw [run_bind_ok hsubmit]
  cases hrun : (s.call boot history).result with
  | ok left w =>
    rw [hrun] at hresult
    rcases hkeeps.of_ok hworld hresult with ⟨_, hinv, hsame⟩
    have hcall : s.call boot history =
        ⟨(s.call boot history).world, (s.call boot history).text, .ok left w⟩ := by
      rw [← hrun]
    -- behind the call: its state, and the call in the log
    let s₂ : Loop := { s with world := w, calls := s.calls ++ [s.call boot history] }
    have hs₂ : s₂.WellFormed := ⟨hinv, by rw [hsame]; exact hwf, h.line⟩
    rcases afterCommand_replies boot hs₂ left with ⟨s', hafter, hanswers⟩
    refine ⟨s', ?_, hanswers.wellFormed, ?_, hanswers.calls, hanswers.world⟩
    · have hcommand := callCommand_ok (s := { s with world := (s.call boot history).world }) hresult
      rw [← hcall] at hcommand
      refine (run_bind_ok hcommand).trans ?_
      exact hafter
    · have hdesk : s₂.desk = { s.desk with recalled := s.desk.recalled.push s.desk.editor.text } := by
        rw [← hrecall, ← hsame]
        rfl
      rw [hanswers.desk, hdesk]
      rfl
  -- the command has stopped, and nothing comes behind it
  | error stop w =>
    rw [hrun] at hresult
    rcases hkeeps.of_error hworld hresult with ⟨_, hinv, hsame⟩
    have hcall : s.call boot history =
        ⟨(s.call boot history).world, (s.call boot history).text, .error stop w⟩ := by
      rw [← hrun]
    refine ⟨?_, hinv, hsame⟩
    have hcommand := callCommand_error (s := { s with world := (s.call boot history).world }) hresult
    rw [← hcall] at hcommand
    exact run_bind_error hcommand

/-- Enter with a line that stops the monitor, whatever the history is. -/
theorem enterKey_stops (hboot : boot.Successful) (h : s.WellFormed) {line : String}
    (hline : asciiText s.desk.editor.text = line) {stop : Stop} {P : World → Prop}
    (hstops : ∀ history : CommandHistory, history.WellFormed →
      ∃ w, (executeCommand boot line).run { s.world.shown boot "\n" with history } =
        .error stop w ∧ P w) :
    ∃ (history : CommandHistory) (w : World), history.WellFormed ∧
      history.recalled = s.desk.recalled.push s.desk.editor.text ∧
      (enterKey boot).run s = .error stop
        { s with world := w, calls := s.calls ++ [s.call boot history] } ∧
      P w ∧ w.Inv ∧ w.history = history := by
  rcases enterKey_run hboot h with ⟨history, hwf, hrecall, henter⟩
  rcases hstops history hwf with ⟨w, hrun, hw⟩
  rw [← hline] at hrun
  rw [show (s.call boot history).result = .error stop w from hrun] at henter
  exact ⟨history, w, hwf, hrecall, henter.1, hw, henter.2⟩

/-! ## The automatic scheduler -/

theorem maybeRun_keeps (now : UInt64) (history : CommandHistory) :
    Safe (Framed World.history history) (fun _ => True) (maybeRun boot now) :=
  maybeRun_safe (fun _ => trivial) (fun _ _ => rfl) now

/-- An automatic scheduler that is off does nothing. -/
theorem maybeRun_disabled {w : World} (h : w.autoScheduler.enabled = false) (now : UInt64) :
    (maybeRun boot now).run w = .ok () w := by
  unfold maybeRun
  rw [run_get_bind]
  simp only [h, Bool.not_false, Bool.true_or, if_true]
  rfl

/-- Only an automatic scheduler that is on leaves for ring 3, and it is on when it does. -/
theorem maybeRun_enabled {w w' : World} {now : UInt64} {stop : Stop} (h : w.Inv)
    (hrun : (maybeRun boot now).run w = .error stop w') : w'.autoScheduler.enabled = true := by
  cases henabled : w.autoScheduler.enabled with
  | false =>
    rw [maybeRun_disabled henabled] at hrun
    cases hrun
  | true =>
    have hsafe : Safe (Framed (fun w => w.autoScheduler.enabled) true) (fun _ => True)
        (maybeRun boot now) := maybeRun_safe (fun _ => trivial) (fun _ _ => rfl) now
    exact (hsafe.of_error ⟨h, henabled⟩ hrun).2.same

/-! ## A round -/

/-- A round that comes back. -/
theorem round_ok (hboot : boot.Successful) (h : s.WellFormed) {event : LoopEvent} {left : Bool}
    {s' : Loop} (hrun : (event.program boot).run s = .ok left s') :
    s'.WellFormed ∧ s'.desk = s.desk.after left event := by
  cases event with
  | tick now =>
    change EStateM.run (inWorld (maybeRun boot now) >>= fun _ => pure false) s = _ at hrun
    cases hauto : (maybeRun boot now).run s.world with
    | error stop w =>
      rw [run_bind_error (inWorld_error hauto)] at hrun
      cases hrun
    | ok _ w =>
      rw [run_bind_ok (inWorld_ok hauto)] at hrun
      cases hrun
      -- the automatic scheduler does not touch the desk
      rcases (maybeRun_keeps now s.world.history).of_ok ⟨h.world, rfl⟩ hauto with ⟨_, hinv, hsame⟩
      refine ⟨⟨hinv, by rw [hsame]; exact h.history, h.line⟩, ?_⟩
      unfold Loop.desk
      rw [hsame]
      rfl
  | key scancode event =>
    by_cases hevent : event = .enter
    · subst hevent
      change (enterKey boot).run s = _ at hrun
      rcases enterKey_run hboot h with ⟨history, _, _, henter⟩
      revert henter
      cases (s.call boot history).result with
      | error stop w =>
        rintro ⟨hstop, _⟩
        rw [hstop] at hrun
        cases hrun
      | ok left' w =>
        rintro ⟨s'', hrun', hwf, hdesk, _⟩
        rw [hrun'] at hrun
        cases hrun
        exact ⟨hwf, hdesk⟩
    · rcases key_replies boot h scancode hevent with ⟨s'', hrun', hanswers⟩
      change (handleKeyEvent boot scancode event).run s = _ at hrun
      rw [hrun'] at hrun
      cases hrun
      refine ⟨hanswers.wellFormed, ?_⟩
      rw [hanswers.desk, Desk.after_key _ _ _ hevent]

/-- A round that stops is in a command, with its line in the history, or in a step of the
automatic scheduler, which is on. -/
theorem round_stops (hboot : boot.Successful) (h : s.WellFormed) {event : LoopEvent} {stop : Stop}
    {s' : Loop} (hrun : (event.program boot).run s = .error stop s') :
    s'.world.Inv ∧ (s'.world.history.len ≠ 0 ∨ s'.world.autoScheduler.enabled = true) := by
  cases event with
  | tick now =>
    change EStateM.run (inWorld (maybeRun boot now) >>= fun _ => pure false) s = _ at hrun
    cases hauto : (maybeRun boot now).run s.world with
    | ok _ w =>
      rw [run_bind_ok (inWorld_ok hauto)] at hrun
      cases hrun
    | error stop' w =>
      rw [run_bind_error (inWorld_error hauto)] at hrun
      cases hrun
      have hkeeps := (maybeRun_keeps now s.world.history).of_error ⟨h.world, rfl⟩ hauto
      exact ⟨hkeeps.2.toInv, .inr (maybeRun_enabled h.world hauto)⟩
  | key scancode event =>
    by_cases hevent : event = .enter
    · subst hevent
      change (enterKey boot).run s = _ at hrun
      rcases enterKey_run hboot h with ⟨history, hwf, hrecall, henter⟩
      revert henter
      cases hcommand : (s.call boot history).result with
      | ok left w =>
        rintro ⟨s'', hrun', _⟩
        rw [hrun'] at hrun
        cases hrun
      | error stop' w =>
        rintro ⟨hstop, hinv, hsame⟩
        rw [hstop] at hrun
        cases hrun
        refine ⟨hinv, .inl ?_⟩
        change w.history.len ≠ 0
        -- an empty line would not have stopped
        have htext : s.desk.editor.text ≠ [] := by
          intro hempty
          have hreturns : (s.call boot history).result = .ok false (s.call boot history).world := by
            unfold Loop.call
            rw [hempty]
            rfl
          rw [hreturns] at hcommand
          cases hcommand
        rw [hsame, ← CommandHistory.length_lines hwf, hrecall]
        exact Recall.length_push_ne_zero _ htext
    · rcases key_replies boot h scancode hevent with ⟨s'', hrun', _⟩
      change (handleKeyEvent boot scancode event).run s = _ at hrun
      rw [hrun'] at hrun
      cases hrun

/-! ## Entering the loop -/

/-- What `input_loop` prints first. -/
def banner : String :=
  "\n" ++ "[[JINGOS_MONITOR_READY]]\n" ++ "jingos monitor ready. type 'help' for commands.\n" ++
    monitorPrompt

/-- The state after the beginning of `input_loop`. -/
def World.entered (boot : Boot) (w : World) : World :=
  { w.interrupted with
    history := CommandHistory.new
    autoScheduler := SchedulerAutoMode.new w.interrupted.kernel.timer.ticks }.shown boot banner

/-- The loop is entered with a banner and a prompt. -/
theorem startInputLoop_run {w : World} (h : w.Inv) :
    (startInputLoop boot).run w = .ok () (w.entered boot) := by
  let w₁ : World := { w.interrupted with
    history := CommandHistory.new
    autoScheduler := SchedulerAutoMode.new w.interrupted.kernel.timer.ticks }
  have h₁ : w₁.Inv := ⟨h.writer, CommandHistory.new_inv, h.cursor⟩
  have hticks : ticks.run w = .ok w.interrupted.kernel.timer.ticks w.interrupted := rfl
  have h₂ := @World.Inv.shown boot _ h₁ ("" ++ "\n")
  have h₃ := @World.Inv.shown boot _ h₂ ("[[JINGOS_MONITOR_READY]]" ++ "\n")
  have h₄ := @World.Inv.shown boot _ h₃ ("jingos monitor ready. type 'help' for commands." ++ "\n")
  unfold startInputLoop
  rw [run_bind_ok hticks, run_modify_bind]
  change (consolePrintln boot "" >>= _ : MonitorM Unit).run w₁ = _
  rw [run_bind_ok (consolePrintln_run h₁ ""), run_bind_ok (consolePrintln_run h₂ _),
    run_bind_ok (consolePrintln_run h₃ _), consolePrint_run h₄, shown_shown h₁, shown_shown h₁,
    shown_shown h₁]
  rfl

variable (boot) in
/-- Whatever the report is, the loop is entered again. -/
theorem resume_run {w : World} (h : w.Inv) :
    ∃ w₁ : World, w₁.Inv ∧
      (resumeMonitorAfterUsermodeExit boot).run w = .ok () (w₁.entered boot) := by
  let w₁ := w.shown boot ("returned from ring3 via int 0x81; resuming monitor" ++ "\n")
  let w₂ : World := { w₁ with session := { w₁.session with lastReport := none } }
  have h₁ : w₁.Inv := h.shown _
  have h₂ : w₂.Inv := ⟨h₁.writer, h₁.history, h₁.cursor⟩
  have hreport : Safe World.Inv Never (printReport boot w₁.session.lastReport) :=
    unframed (printReport_safe _)
  rcases hreport.returns h₂ with ⟨_, w₃, hrun, _, h₃⟩
  refine ⟨w₃, h₃, ?_⟩
  unfold resumeMonitorAfterUsermodeExit
  rw [run_bind_ok (consolePrintln_run h _), run_get_bind, run_set_bind]
  change (printReport boot w₁.session.lastReport >>= _ : MonitorM Unit).run w₂ = _
  rw [run_bind_ok hrun, startInputLoop_run h₃]

/-- The way back from ring 3: the `int 0x81` finds an open session, and the monitor resumes. The
session may have written to its memory. -/
def Resumes (boot : Boot) (w : World) (s : Loop) : Prop :=
  ∃ registers session userMem w',
    handleExitInterruptFromRegisters w.session registers = (.resumed, session) ∧
    (resumeMonitorAfterUsermodeExit boot).run { w with session, userMem } = .ok () w' ∧
    s = Loop.fresh w'

theorem Resumes.entered {w : World} (hw : w.Inv) (h : Resumes boot w s) :
    ∃ w₁ : World, w₁.Inv ∧ s = Loop.fresh (w₁.entered boot) := by
  rcases h with ⟨registers, session, userMem, w', _, hrun, rfl⟩
  have hsession : World.Inv { w with session, userMem } := ⟨hw.writer, hw.history, hw.cursor⟩
  rcases resume_run boot hsession with ⟨w₁, h₁, hrun₁⟩
  rw [hrun₁] at hrun
  cases hrun
  exact ⟨w₁, h₁, rfl⟩

theorem entered_wellFormed {w : World} (h : w.Inv) : (Loop.fresh (w.entered boot)).WellFormed := by
  refine ⟨?_, CommandHistory.new_wellFormed, InputLine.new_wellFormed⟩
  apply World.Inv.shown
  exact ⟨h.writer, CommandHistory.new_inv, h.cursor⟩

/-! ## Runs -/

/-- The states between two rounds, in runs whose rounds are all `allowed`. -/
inductive Loop.Reachable (boot : Boot) (allowed : Loop → LoopEvent → Prop) : Loop → Prop where
  | entered {w w' : World} (h : Booted boot w) (hrun : (startInputLoop boot).run w = .ok () w') :
      Reachable boot allowed (Loop.fresh w')
  | returned {s s' : Loop} (h : Reachable boot allowed s) {event : LoopEvent}
      (hallowed : allowed s event) (hrun : (event.program boot).run s = .ok false s') :
      Reachable boot allowed s'
  | resumed {s s' s'' : Loop} (h : Reachable boot allowed s) {event : LoopEvent}
      (hallowed : allowed s event) {context : UserModeContext}
      (hring3 : (event.program boot).run s = .error (.ring3 context) s')
      (hresumes : Resumes boot s'.world s'') : Reachable boot allowed s''

/-- A property of the desk that holds in a fresh loop and that every allowed round keeps. -/
theorem Loop.Reachable.induct {allowed : Loop → LoopEvent → Prop} (hboot : boot.Successful)
    {P : Desk → Prop} (hfresh : ∀ w : World, P (Loop.fresh (w.entered boot)).desk)
    (hround : ∀ s event, s.WellFormed → P s.desk → allowed s event → P (s.desk.after false event))
    (hs : Loop.Reachable boot allowed s) : s.WellFormed ∧ P s.desk := by
  induction hs with
  | entered hbooted hrun =>
    rw [startInputLoop_run hbooted.inv] at hrun
    cases hrun
    exact ⟨entered_wellFormed hbooted.inv, hfresh _⟩
  | returned _ hallowed hrun ih =>
    rcases round_ok hboot ih.1 hrun with ⟨hwf, hdesk⟩
    refine ⟨hwf, ?_⟩
    rw [hdesk]
    exact hround _ _ ih.1 ih.2 hallowed
  | resumed _ _ hring3 hresumes ih =>
    rcases hresumes.entered (round_stops hboot ih.1 hring3).1 with ⟨w₁, h₁, rfl⟩
    exact ⟨entered_wellFormed h₁, hfresh _⟩

end

end JingOS.Monitor
