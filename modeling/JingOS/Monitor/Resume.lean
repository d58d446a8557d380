import JingOS.Monitor.Rounds
import JingOS.Monitor.Survival

/-!
# What a session in ring 3 leaves of the monitor

The `int 0x81` at the end of a session does not return to the command that started it: the stack
of `input_loop` is gone, and `resume_monitor_after_usermode_exit` enters the loop again. The task
table is a global and survives. The history, the mode of the editor and the automatic scheduler
are variables of the loop, and do not.
-/

namespace JingOS.Monitor

open Ascii Checked Hoare Text
open JingOS.Framebuffer JingOS.Keyboard JingOS.Syscall JingOS.Task JingOS.Usermode

/-- The monitor after a session is the one before it, as far as the user can tell. -/
structure Kept (before after : Loop) : Prop where
  history : after.world.history = before.world.history
  overwriteMode : after.overwriteMode = before.overwriteMode
  enabled : after.world.autoScheduler.enabled = before.world.autoScheduler.enabled
  intervalTicks : after.world.autoScheduler.intervalTicks = before.world.autoScheduler.intervalTicks

section

variable {boot : Boot} {s s' s'' : Loop}

/-- A loop that is entered again knows nothing of the one before. -/
theorem Resumes.forgets {w : World} (hw : w.Inv) (h : Resumes boot w s) :
    s.world.history = CommandHistory.new ∧ s.overwriteMode = false ∧
      s.world.autoScheduler.enabled = false ∧
      s.world.autoScheduler.intervalTicks = SchedulerAutoMode.defaultIntervalTicks := by
  rcases h.entered hw with ⟨w₁, _, rfl⟩
  exact ⟨rfl, rfl, rfl, rfl⟩

/-- **Sessions.** No session leaves the monitor as it was: a command that started one was in the
history, and an automatic step that started one was due to the automatic scheduler. -/
theorem session_not_kept (hboot : boot.Successful) (h : s.WellFormed) {event : LoopEvent}
    {context : UserModeContext} (hring3 : (event.program boot).run s = .error (.ring3 context) s')
    (hresumes : Resumes boot s'.world s'') : ¬ Kept s' s'' := by
  intro hkept
  rcases round_stops hboot h hring3 with ⟨hinv, hstarted⟩
  rcases hresumes.forgets hinv with ⟨hhistory, _, henabled, _⟩
  rcases hstarted with hlen | hauto
  · apply hlen
    rw [← hkept.history, hhistory]
    rfl
  · rw [← hkept.enabled, henabled] at hauto
    cases hauto

/-! ## A session -/

variable (boot) in
/-- `usermode` leaves for ring 3 behind its message. -/
theorem usermode_run {w : World} (h : w.Inv) {context : UserModeContext}
    (hcontext : w.userModeContext = some context) :
    ∃ w' : World, (executeCommand boot "usermode").run w = .error (.ring3 context) w' ∧
      w'.session.exitExpected = true ∧ w'.autoScheduler = w.autoScheduler := by
  let w₁ := w.shown boot
    ("launching ring3 demo (expects int 0x80 then int 0x81 return)..." ++ "\n")
  let w₂ : World := { w₁ with
    session := { exitExpected := true, pendingKind := none, lastReport := none }
    userMem := writeDemoCode w₁.userMem userIntDemoCode }
  -- the context is there, so the demo stores its session and leaves
  have hdemo : runDemo.run w₁ = .error (.ring3 context) w₂ := by
    unfold runDemo runDemoCode
    rw [run_get_bind]
    have hcontext₁ : w₁.userModeContext = some context := hcontext
    simp only [hcontext₁]
    rfl
  refine ⟨w₂, ?_, rfl, rfl⟩
  have hwords : splitWhitespace "usermode" = ["usermode"] := by decide
  unfold executeCommand
  rw [hwords]
  simp only
  rw [if_neg (by decide)]
  apply run_bind_error
  change (usermodeCommand boot).run w = _
  unfold usermodeCommand
  rw [run_bind_ok (consolePrintln_run h _)]
  exact run_bind_error hdemo

end

/-- `usermode` has been typed in overwrite mode, with the automatic scheduler on. -/
def typedUsermode : Loop :=
  { Loop.fresh { sampleWorld.entered sampleBoot with
      autoScheduler := SchedulerAutoMode.enable 50 6 } with
    line :=
      { bytes := [0x75, 0x73, 0x65, 0x72, 0x6d, 0x6f, 0x64, 0x65] ++ List.replicate 120 0
        len := 8
        cursor := 8 }
    renderedLen := 16
    overwriteMode := true }

theorem typedUsermode_text :
    typedUsermode.desk.editor.text = [0x75, 0x73, 0x65, 0x72, 0x6d, 0x6f, 0x64, 0x65] :=
  List.take_left' rfl

theorem typedUsermode_wellFormed : typedUsermode.WellFormed := by
  have hentered : (Loop.fresh (sampleWorld.entered sampleBoot)).WellFormed :=
    entered_wellFormed sampleWorld_booted.inv
  refine ⟨⟨hentered.world.writer, CommandHistory.new_inv, hentered.world.cursor⟩,
    CommandHistory.new_wellFormed, ⟨?_, Nat.le_refl _, by decide, ?_⟩⟩
  · exact List.length_append.trans (by rw [List.length_replicate]; rfl)
  · have hall : typedUsermode.desk.editor.text.all (fun byte => decide (byte < 0x80)) = true := by
      rw [typedUsermode_text]
      decide
    exact fun byte hbyte => of_decide_eq_true (List.all_eq_true.mp hall byte hbyte)

/-- `usermode` with Enter goes to ring 3 and comes back. -/
theorem usermode_session : ∃ context s' s'',
    (handleKeyEvent sampleBoot 0x1c .enter).run typedUsermode = .error (.ring3 context) s' ∧
    Resumes sampleBoot s'.world s'' ∧ s'.world.Inv ∧ s'.world.history.len ≠ 0 ∧
    s'.overwriteMode = true ∧ s'.world.autoScheduler = SchedulerAutoMode.enable 50 6 := by
  have hwf := typedUsermode_wellFormed
  have htext : asciiText typedUsermode.desk.editor.text = "usermode" := by
    rw [typedUsermode_text]
    decide
  have hstops : ∀ history : CommandHistory, history.WellFormed → ∃ w,
      (executeCommand sampleBoot "usermode").run
        { typedUsermode.world.shown sampleBoot "\n" with history } =
          .error (.ring3 ⟨userCodeStart, userStackTop⟩) w ∧
      w.session.exitExpected = true ∧ w.autoScheduler = SchedulerAutoMode.enable 50 6 := by
    intro history hhistory
    have hworld : World.Inv { typedUsermode.world.shown sampleBoot "\n" with history } :=
      Loop.call_inv sampleBoot hwf hhistory
    exact usermode_run sampleBoot hworld rfl
  rcases enterKey_stops sampleBoot_successful hwf htext hstops with
    ⟨history, w, hhistory, hrecall, hstop, ⟨hexpected, hauto⟩, hinv, hsame⟩
  let registers : SyscallRegisters := ⟨0, 0, 0, 0, 0, 0, 0, 0, 0, 0, 0, 0, 0, 0, 0⟩
  -- the exit of the program is the one that is waited for
  have hexit : (handleExitInterruptFromRegisters w.session registers).1 = .resumed := by
    unfold handleExitInterruptFromRegisters
    rw [hexpected]
    rfl
  have hsession : World.Inv
      { w with session := (handleExitInterruptFromRegisters w.session registers).2 } :=
    ⟨hinv.writer, hinv.history, hinv.cursor⟩
  rcases resume_run sampleBoot hsession with ⟨w₁, _, hresume⟩
  refine ⟨_, _, Loop.fresh (w₁.entered sampleBoot), hstop, ?_, hinv, ?_, rfl, hauto⟩
  · exact ⟨registers, _, w.userMem, _, Prod.ext hexit rfl, hresume, rfl⟩
  -- the line that was submitted is kept until then
  · change w.history.len ≠ 0
    rw [hsame, ← CommandHistory.length_lines hhistory, hrecall]
    apply Recall.length_push_ne_zero
    rw [typedUsermode_text]
    decide

theorem session_not_kept_usermode : ∃ context s' s'',
    (handleKeyEvent sampleBoot 0x1c .enter).run typedUsermode = .error (.ring3 context) s' ∧
    Resumes sampleBoot s'.world s'' ∧ ¬ Kept s' s'' := by
  rcases usermode_session with ⟨context, s', s'', hring3, hresumes, _⟩
  have hround : ((LoopEvent.key 0x1c .enter).program sampleBoot).run typedUsermode =
      .error (.ring3 context) s' := hring3
  exact ⟨context, s', s'', hring3, hresumes,
    session_not_kept sampleBoot_successful typedUsermode_wellFormed hround hresumes⟩

/-- The line that was kept is gone, the mode is insert again, and the automatic scheduler, on with
an interval of 50 ticks, is off. -/
theorem usermode_forgets : ∃ context s' s'',
    (handleKeyEvent sampleBoot 0x1c .enter).run typedUsermode = .error (.ring3 context) s' ∧
    Resumes sampleBoot s'.world s'' ∧
    (s'.world.history.len ≠ 0 ∧ s'.overwriteMode = true ∧
      s'.world.autoScheduler.enabled = true ∧ s'.world.autoScheduler.intervalTicks = 50) ∧
    (s''.world.history.len = 0 ∧ s''.overwriteMode = false ∧
      s''.world.autoScheduler.enabled = false ∧ s''.world.autoScheduler.intervalTicks = 100) ∧
    ¬ Kept s' s'' := by
  rcases usermode_session with ⟨context, s', s'', hring3, hresumes, hinv, hlen, hmode, hauto⟩
  rcases hresumes.forgets hinv with ⟨hhistory, hmode', henabled, hinterval⟩
  refine ⟨context, s', s'', hring3, hresumes, ⟨hlen, hmode, ?_, ?_⟩,
    ⟨?_, hmode', henabled, hinterval⟩, ?_⟩
  · rw [hauto]
    rfl
  · rw [hauto]
    rfl
  · rw [hhistory]
    rfl
  · intro hkept
    have hsame := hkept.overwriteMode
    rw [hmode, hmode'] at hsame
    cases hsame

end JingOS.Monitor
