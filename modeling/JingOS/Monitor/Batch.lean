import JingOS.Monitor.Desk
import JingOS.Monitor.Survival
import JingOS.Task.Fairness

/-!
# The batch of `taskrun`

`taskrun n` makes up to 256 steps of the scheduler, one after the other, and then reports how many
have run a task. A step also runs the payload of the task; the payloads of the two fast-syscall
kinds go to ring 3. The way back leads to the prompt and not into the loop, so the rest of the
batch and its report are lost.

* `selectedKinds` — the kinds of the tasks that the scheduler selects in a batch;
* `round_returns`, `round_leaves` — one round of the loop, `loop_returns`, `loop_leaves` — all of it;
* `taskrun_completes_iff` — which batches are completed.
-/

namespace JingOS.Monitor

open Checked Hoare Text
open JingOS.Syscall JingOS.Task JingOS.Usermode

/-! ## The steps of a batch -/

/-- The payload of the kind goes to ring 3. -/
def entersRing3 : TaskKind → Bool
  | .fastSyscallSuccess | .fastSyscallError => true
  | .kernelMonitor | .userDemo => false

/-- One step of the scheduler at the tick that the clock shows when it is looked at. -/
def World.stepped (w : World) : Option TaskStepReport × World :=
  ((w.tasks.step w.interrupted.kernel.timer.ticks).1,
   { w.interrupted with tasks := (w.tasks.step w.interrupted.kernel.timer.ticks).2 })

/-- A payload that returns takes time: the user demo makes five system calls, or four when the
fourth fails. -/
def World.paid (w : World) : TaskKind → World
  | .userDemo => World.interrupted^[if w.kernel.memorySummary.isSome then 5 else 4] w
  | _ => w

/-- At the tick that the clock shows next, some task is ready. -/
def World.HasReady (w : World) : Prop :=
  ∃ i task, (w.tasks.wakeDue w.interrupted.kernel.timer.ticks).2.slots i = some task ∧
    task.state = .ready

/-- The kinds of the tasks that so many steps select, the payloads being run in between. -/
def selectedKinds : ℕ → World → List TaskKind
  | 0, _ => []
  | m + 1, w =>
    match w.stepped.1 with
    | none => []
    | some report => report.kind :: selectedKinds m (w.stepped.2.paid report.kind)

/-- So many steps of the scheduler, each of which has run a task, lead from one table to the
other. -/
def Ran (m : ℕ) (t t' : TaskTable) : Prop :=
  ∃ nows : List UInt64, nows.length = m ∧ scheduler.run t (nows.map .step) = t' ∧
    ∀ e ∈ scheduler.trace t (nows.map .step), ∃ report, e.2 = .report (some report)

theorem Ran.zero (t : TaskTable) : Ran 0 t t := by
  refine ⟨[], rfl, rfl, ?_⟩
  intro e he
  cases he

theorem Ran.succ {m : ℕ} {t t' : TaskTable} {now : UInt64} {report : TaskStepReport}
    (hstep : (t.step now).1 = some report) (h : Ran m (t.step now).2 t') : Ran (m + 1) t t' := by
  rcases h with ⟨nows, hlength, hrun, htrace⟩
  refine ⟨now :: nows, congrArg Nat.succ hlength, hrun, ?_⟩
  intro e he
  rcases List.mem_cons.mp he with rfl | he
  · exact ⟨report, congrArg Reply.report hstep⟩
  · exact htrace e he

/-! ## What printing does not touch -/

section

variable {boot : Boot} {w : World}

theorem stepped_shown (text : String) :
    (w.shown boot text).stepped = (w.stepped.1, w.stepped.2.shown boot text) := rfl

/-- The system calls of a payload are as many interrupts. -/
theorem paid_eq (w : World) (kind : TaskKind) :
    ∃ calls, w.paid kind = World.interrupted^[calls] w ∧
      ∀ boot text, (w.shown boot text).paid kind = World.interrupted^[calls] (w.shown boot text) := by
  cases kind with
  | userDemo => exact ⟨_, rfl, fun _ _ => rfl⟩
  | kernelMonitor | fastSyscallSuccess | fastSyscallError => exact ⟨0, rfl, fun _ _ => rfl⟩

theorem paid_shown (kind : TaskKind) (text : String) :
    (w.shown boot text).paid kind = (w.paid kind).shown boot text := by
  rcases paid_eq w kind with ⟨calls, hpaid, hshown⟩
  have hcommute : Function.Semiconj (fun w : World => w.shown boot text) World.interrupted
      World.interrupted := fun _ => rfl
  rw [hpaid, hshown]
  exact ((hcommute.iterate_right calls).eq w).symm

/-- Of the payload's time only the clock knows. -/
theorem interrupted_iterate (w : World) (calls : ℕ) :
    (World.interrupted^[calls] w).tasks = w.tasks ∧
      (World.interrupted^[calls] w).history = w.history ∧
      (World.interrupted^[calls] w).writer = w.writer ∧
      (World.interrupted^[calls] w).serial = w.serial ∧
      (World.interrupted^[calls] w).userModeContext = w.userModeContext := by
  induction calls generalizing w with
  | zero => exact ⟨rfl, rfl, rfl, rfl, rfl⟩
  | succ calls ih => exact ih w.interrupted

/-- What a payload leaves alone. -/
theorem paid_keeps (w : World) (kind : TaskKind) :
    (w.paid kind).tasks = w.tasks ∧ (w.paid kind).history = w.history ∧
      (w.paid kind).writer = w.writer ∧ (w.paid kind).serial = w.serial ∧
      (w.paid kind).userModeContext = w.userModeContext := by
  rcases paid_eq w kind with ⟨calls, hpaid, _⟩
  rw [hpaid]
  exact interrupted_iterate w calls

theorem paid_inv (h : w.Inv) (kind : TaskKind) : (w.paid kind).Inv := by
  rcases paid_keeps w kind with ⟨htasks, hhistory, hwriter, _, _⟩
  constructor
  · rw [hwriter]
    exact h.writer
  · rw [hhistory]
    exact h.history
  · rw [htasks]
    exact h.cursor

theorem stepped_inv (h : w.Inv) : w.stepped.2.Inv :=
  ⟨h.writer, h.history, exec_cursor_lt h.cursor (.step _)⟩

/-- Which tasks are next does not depend on what was printed. -/
theorem selectedKinds_shown (m : ℕ) (text : String) :
    selectedKinds m (w.shown boot text) = selectedKinds m w := by
  induction m generalizing w with
  | zero => rfl
  | succ m ih =>
    rw [selectedKinds, selectedKinds, stepped_shown]
    cases w.stepped.1 with
    | none => rfl
    | some report =>
      simp only [paid_shown]
      rw [ih]

/-! ## The payloads -/

theorem taskStep_run (h : w.Inv) :
    (ticks >>= taskStep).run w = .ok w.stepped.1 w.stepped.2 := by
  have hcursor : w.interrupted.tasks.nextRrIndex < maxTasks := h.cursor
  have hadd : add w.interrupted.tasks.nextRrIndex (maxTasks - 1) =
      .ok (w.interrupted.tasks.nextRrIndex + (maxTasks - 1)) :=
    add_eq (by simp only [maxTasks] at *; omega)
  have hticks : ticks.run w = .ok w.interrupted.kernel.timer.ticks w.interrupted := rfl
  rw [run_bind_ok hticks]
  unfold taskStep checked
  rw [run_get_bind, run_lift_bind hadd]
  rfl

theorem invokeViaInterrupt_run (w : World) (number arg0 arg1 arg2 : UInt64) :
    (invokeViaInterrupt number arg0 arg1 arg2).run w =
      .ok (dispatch w.interrupted.kernel number arg0 arg1 arg2) w.interrupted := by
  unfold invokeViaInterrupt
  rw [run_modify_bind, run_get_bind]
  simp only [decodeResponse_encodeResult]
  rfl

/-- The user demo returns, with a report or with the error of its fourth call. -/
theorem runUserDemo_run (w : World) :
    ∃ result, runUserDemo.run.run w = .ok result (w.paid .userDemo) := by
  unfold runUserDemo World.paid
  -- the first three calls return whatever the kernel knows
  rw [run_exceptBind_ok (invokeViaInterrupt_run w _ _ _ _)]
  rw [run_exceptBind_ok (invokeViaInterrupt_run w.interrupted _ _ _ _)]
  rw [run_exceptBind_ok (invokeViaInterrupt_run w.interrupted.interrupted _ _ _ _)]
  have hfourth := invokeViaInterrupt_run w.interrupted.interrupted.interrupted
    syscallGetUsableMemory 0 0 0
  cases hsummary : w.kernel.memorySummary with
  -- without a summary the fourth call ends the demo
  | none =>
    have herror : dispatch w.interrupted.interrupted.interrupted.interrupted.kernel
        syscallGetUsableMemory 0 0 0 = .error .contextUnavailable := by
      have hnone : w.interrupted.interrupted.interrupted.interrupted.kernel.memorySummary = none :=
        hsummary
      unfold dispatch
      rw [hnone]
      rfl
    rw [herror] at hfourth
    exact ⟨_, run_exceptBind_error hfourth _⟩
  | some summary =>
    have hvalue : ∀ k : Kernel, k.memorySummary = some summary →
        dispatch k syscallGetUsableMemory 0 0 0 = .ok summary.usableBytes ∧
          dispatch k syscallGetUsableFrames 0 0 0 = .ok summary.usableFrames4k := by
      intro k hk
      unfold dispatch
      rw [hk]
      exact ⟨rfl, rfl⟩
    rw [(hvalue w.interrupted.interrupted.interrupted.interrupted.kernel hsummary).1] at hfourth
    have hfifth := invokeViaInterrupt_run w.interrupted.interrupted.interrupted.interrupted
      syscallGetUsableFrames 0 0 0
    rw [(hvalue w.interrupted.interrupted.interrupted.interrupted.interrupted.kernel hsummary).2]
      at hfifth
    rw [run_exceptBind_ok hfourth, run_exceptBind_ok hfifth]
    exact ⟨_, rfl⟩

/-- Ring 3 is entered as soon as its memory is there. -/
theorem runBuiltCode_run (w : World) (first second : Request) (kind : FastSyscallDemoKind) :
    (w.userModeContext = none → (runBuiltCode (buildFastSyscallCode first second) kind).run w =
      .ok (.error "user mode memory not initialized") w) ∧
    ∀ context, w.userModeContext = some context →
      ∃ w', (runBuiltCode (buildFastSyscallCode first second) kind).run w =
        .error (.ring3 context) w' ∧ w'.tasks = w.tasks := by
  rcases buildFastSyscallCode_ok first second with ⟨builder, hbuild, _⟩
  rw [hbuild]
  unfold runBuiltCode runDemoCode
  constructor
  · intro hcontext
    rw [run_get_bind, hcontext]
    rfl
  · intro context hcontext
    rw [run_get_bind, hcontext]
    exact ⟨_, rfl, rfl⟩

/-- The two payloads with a session: without the memory for it they report so and return. -/
theorem ring3Payload_run (h : w.Inv) (first second : Request) (kind : FastSyscallDemoKind)
    (message unexpected failed : String) :
    (w.userModeContext = none → ∃ text, (do
      consolePrintln boot message
      let result ← runBuiltCode (buildFastSyscallCode first second) kind
      reportRing3 boot result unexpected failed).run w = .ok () (w.shown boot text)) ∧
    ∀ context, w.userModeContext = some context → ∃ w', (do
      consolePrintln boot message
      let result ← runBuiltCode (buildFastSyscallCode first second) kind
      reportRing3 boot result unexpected failed).run w = .error (.ring3 context) w' ∧
        w'.tasks = w.tasks := by
  rcases runBuiltCode_run (w.shown boot (message ++ "\n")) first second kind with ⟨hnone, hsome⟩
  rw [run_bind_ok (consolePrintln_run h message)]
  constructor
  · intro hcontext
    rw [run_bind_ok (hnone hcontext), reportRing3, consolePrintln_run (h.shown _), shown_shown h]
    exact ⟨_, rfl⟩
  · intro context hcontext
    rcases hsome context hcontext with ⟨w', hrun, htasks⟩
    exact ⟨w', run_bind_error hrun, htasks⟩

variable (boot) in
/-- A payload that stays in the kernel returns; of the machine it changes what time and printing
change. -/
theorem payload_returns (h : w.Inv) {kind : TaskKind}
    (hstay : w.userModeContext = none ∨ entersRing3 kind = false) :
    ∃ text, (runTaskPayload boot kind).run w = .ok () ((w.paid kind).shown boot text) := by
  cases kind with
  | kernelMonitor =>
    refine ⟨"", ?_⟩
    rw [shown_empty]
    rfl
  | userDemo =>
    rcases runUserDemo_run w with ⟨result, hrun⟩
    have hpaid := paid_inv h .userDemo
    unfold runTaskPayload
    rw [run_bind_ok hrun]
    cases result with
    | ok report => exact ⟨_, consolePrintln_run hpaid _⟩
    | error error => exact ⟨_, consolePrintln_run hpaid _⟩
  | fastSyscallSuccess | fastSyscallError =>
    have hnone : w.userModeContext = none := hstay.resolve_right (by decide)
    exact (ring3Payload_run h _ _ _ _ _ _).1 hnone

variable (boot) in
theorem payload_leaves (h : w.Inv) {kind : TaskKind} (hkind : entersRing3 kind = true)
    {context : UserModeContext} (hcontext : w.userModeContext = some context) :
    ∃ w', (runTaskPayload boot kind).run w = .error (.ring3 context) w' ∧ w'.tasks = w.tasks := by
  cases kind with
  | kernelMonitor => cases hkind
  | userDemo => cases hkind
  | fastSyscallSuccess | fastSyscallError =>
    exact (ring3Payload_run h _ _ _ _ _ _).2 context hcontext

/-! ## One round -/

/-- The scheduler runs a task, and after it there is one to run again. -/
theorem hasReady_stepped (h : w.HasReady) :
    ∃ report, w.stepped.1 = some report ∧
      ∃ i task, w.stepped.2.tasks.slots i = some task ∧ task.state = .ready := by
  rcases h with ⟨i, task, hslot, hready⟩
  have hcall := step_call w.tasks w.interrupted.kernel.timer.ticks
  change ∃ report, (w.tasks.step w.interrupted.kernel.timer.ticks).1 = some report ∧
    ∃ i task, (w.tasks.step w.interrupted.kernel.timer.ticks).2.slots i = some task ∧
      task.state = .ready
  revert hcall
  generalize (w.tasks.step w.interrupted.kernel.timer.ticks).1 = reply
  generalize (w.tasks.step w.interrupted.kernel.timer.ticks).2 = t'
  intro hcall
  cases hcall with
  | stepIdle hsel => exact absurd hready (TaskTable.selected_none hsel hslot)
  | @stepRun _ j task' hsel hslot' =>
    exact ⟨_, rfl, j, ranOnce task', TaskTable.put_slots_self _ _ _, rfl⟩

theorem hasReady_of_ready {i : Fin maxTasks} {task : TaskInfo} (hslot : w.tasks.slots i = some task)
    (hready : task.state = .ready) : w.HasReady :=
  ⟨i, task, woken_slots_of_ready hslot hready _, hready⟩

variable (boot) in
/-- A round prints its line and runs the payload. -/
theorem round_run (h : w.Inv) {report : TaskStepReport} (hstep : w.stepped.1 = some report)
    (label : String) (printNoReady : Bool) :
    ∃ text, (runTaskStepWithLabelInternal boot label printNoReady).run w =
      (runTaskPayload boot report.kind >>= fun _ => pure true).run
        (w.stepped.2.shown boot text) := by
  unfold runTaskStepWithLabelInternal
  rw [← bind_assoc, run_bind_ok (taskStep_run h), hstep]
  simp only
  rw [run_bind_ok (consolePrintln_run (stepped_inv h) _)]
  exact ⟨_, rfl⟩

/-- What a round that comes back leaves: the table after its step, and the rest of the batch as
if nothing had been printed. -/
structure Turned (w : World) (report : TaskStepReport) (w₁ : World) : Prop where
  inv : w₁.Inv
  tasks : w₁.tasks = w.stepped.2.tasks
  serial : ∃ text, w₁.serial = w.serial ++ text
  userModeContext : w₁.userModeContext = w.userModeContext
  selected : ∀ m, selectedKinds m w₁ = selectedKinds m (w.stepped.2.paid report.kind)

variable (boot) in
/-- One round of the batch that stays in the monitor. -/
theorem round_returns (h : w.Inv) {report : TaskStepReport} (hstep : w.stepped.1 = some report)
    (hstay : w.userModeContext = none ∨ entersRing3 report.kind = false) (label : String)
    (printNoReady : Bool) :
    ∃ w₁, (runTaskStepWithLabelInternal boot label printNoReady).run w = .ok true w₁ ∧
      Turned w report w₁ := by
  have hinv : w.stepped.2.Inv := stepped_inv h
  rcases round_run boot h hstep label printNoReady with ⟨line, hround⟩
  rcases payload_returns boot (hinv.shown line) hstay with ⟨text, hpayload⟩
  have hpaid := paid_inv hinv report.kind
  rw [paid_shown, shown_shown hpaid] at hpayload
  rcases paid_keeps w.stepped.2 report.kind with ⟨htasks, _, _, hserial, hcontext⟩
  refine ⟨_, hround.trans (run_bind_ok hpayload), ?_⟩
  constructor
  · exact hpaid.shown _
  · exact htasks
  · exact ⟨_, congrArg (· ++ (line ++ text)) hserial⟩
  · exact hcontext
  · exact fun m => selectedKinds_shown m _

variable (boot) in
/-- A round whose payload leaves for ring 3. -/
theorem round_leaves (h : w.Inv) {report : TaskStepReport} (hstep : w.stepped.1 = some report)
    (hkind : entersRing3 report.kind = true) {context : UserModeContext}
    (hcontext : w.userModeContext = some context) (label : String) (printNoReady : Bool) :
    ∃ w', (runTaskStepWithLabelInternal boot label printNoReady).run w =
        .error (.ring3 context) w' ∧ w'.tasks = w.stepped.2.tasks := by
  have hinv : w.stepped.2.Inv := stepped_inv h
  rcases round_run boot h hstep label printNoReady with ⟨line, hround⟩
  rcases payload_leaves boot (hinv.shown line) hkind hcontext with ⟨w', hpayload, htasks⟩
  exact ⟨w', hround.trans (run_bind_error hpayload), htasks⟩

/-! ## All rounds -/

variable (boot) in
/-- Every round runs a task when all of them come back; the count is then the number of rounds. -/
theorem loop_returns {m : ℕ} {executed : UInt64} (h : w.Inv) (hready : w.HasReady)
    (hstay : w.userModeContext = none ∨ ∀ kind ∈ selectedKinds m w, entersRing3 kind = false)
    (hcount : executed.toNat + m < 2 ^ 64) :
    ∃ count w' text, (taskrunLoop boot m executed).run w = .ok count w' ∧ w'.Inv ∧
      count.toNat = executed.toNat + m ∧ Ran m w.tasks w'.tasks ∧ w'.serial = w.serial ++ text := by
  induction m generalizing w executed with
  | zero => exact ⟨executed, w, "", rfl, h, rfl, .zero _, String.append_empty.symm⟩
  | succ m ih =>
    rcases hasReady_stepped hready with ⟨report, hstep, i, task, hslot, htask⟩
    have hkinds : selectedKinds (m + 1) w =
        report.kind :: selectedKinds m (w.stepped.2.paid report.kind) := by
      rw [selectedKinds, hstep]
    rw [hkinds, List.forall_mem_cons] at hstay
    rcases round_returns boot h hstep (hstay.imp_right And.left) "taskrun" true with
      ⟨w₁, hround, hturned⟩
    -- the next round starts from what this one leaves
    rcases hturned with ⟨hinv₁, htasks₁, ⟨text, hserial₁⟩, hcontext₁, hkinds₁⟩
    have hready₁ : w₁.HasReady := hasReady_of_ready (by rw [htasks₁]; exact hslot) htask
    have hstay₁ : w₁.userModeContext = none ∨
        ∀ kind ∈ selectedKinds m w₁, entersRing3 kind = false := by
      rw [hcontext₁, hkinds₁]
      exact hstay.imp_right And.right
    have hone : (U64.saturatingAdd executed 1).toNat = executed.toNat + 1 := by
      apply U64.toNat_succ_of_lt
      rw [UInt64.lt_iff_toNat_lt, U64.toNat_maxVal]
      omega
    have hcount₁ : (U64.saturatingAdd executed 1).toNat + m < 2 ^ 64 := by
      rw [hone]
      omega
    rcases ih hinv₁ hready₁ hstay₁ hcount₁ with
      ⟨count, w', text', hrun, hinv, hcount', hran, hserial⟩
    refine ⟨count, w', text ++ text', ?_, hinv, ?_, ?_, ?_⟩
    · rw [taskrunLoop, runTaskStepWithLabel, run_bind_ok hround]
      exact hrun
    · rw [hcount', hone]
      omega
    · rw [htasks₁] at hran
      exact .succ hstep hran
    · rw [hserial, hserial₁, String.append_assoc]

variable (boot) in
/-- The first round that goes to ring 3 is the last. -/
theorem loop_leaves {m : ℕ} (h : w.Inv) {context : UserModeContext}
    (hcontext : w.userModeContext = some context)
    (hkind : ∃ kind ∈ selectedKinds m w, entersRing3 kind = true) (executed : UInt64) :
    ∃ w', (taskrunLoop boot m executed).run w = .error (.ring3 context) w' ∧
      Ran ((selectedKinds m w).findIdx entersRing3 + 1) w.tasks w'.tasks := by
  induction m generalizing w executed with
  | zero =>
    rcases hkind with ⟨kind, hmem, _⟩
    cases hmem
  | succ m ih =>
    rw [taskrunLoop, runTaskStepWithLabel]
    cases hstep : w.stepped.1 with
    -- a round without a task selects nothing
    | none =>
      rcases hkind with ⟨kind, hmem, _⟩
      rw [selectedKinds, hstep] at hmem
      cases hmem
    | some report =>
      rw [selectedKinds, hstep] at hkind ⊢
      simp only at hkind ⊢
      rw [List.findIdx_cons]
      cases hfirst : entersRing3 report.kind with
      -- the first task goes to ring 3, and this round is the last
      | true =>
        rcases round_leaves boot h hstep hfirst hcontext "taskrun" true with
          ⟨w', hround, htasks⟩
        refine ⟨w', run_bind_error hround, ?_⟩
        rw [htasks]
        exact .succ hstep (.zero _)
      | false =>
        rcases round_returns boot h hstep (.inr hfirst) "taskrun" true with
          ⟨w₁, hround, hturned⟩
        -- it does not, so that a later one does
        have hkind₁ : ∃ kind ∈ selectedKinds m w₁, entersRing3 kind = true := by
          rcases hkind with ⟨kind, hmem, hkind⟩
          rcases List.mem_cons.mp hmem with rfl | hmem
          · rw [hfirst] at hkind
            cases hkind
          · exact ⟨kind, by rw [hturned.selected]; exact hmem, hkind⟩
        rcases ih hturned.inv (hturned.userModeContext.trans hcontext) hkind₁
          (U64.saturatingAdd executed 1) with ⟨w', hrun, hran⟩
        refine ⟨w', (run_bind_ok hround).trans hrun, ?_⟩
        rw [hturned.tasks, hturned.selected] at hran
        exact .succ hstep hran

/-! ## The command -/

variable (boot) in
/-- The line `taskrun` with its number. -/
theorem taskrun_line {line raw : String} {rest : List String} {n : UInt64}
    (hwords : splitWhitespace line = "taskrun" :: raw :: rest) (hparse : parseU64 raw = some n)
    (hn : n ≠ 0) :
    executeCommand boot line = (taskrun boot (min n maxTaskrunSteps) >>= fun _ => pure false) := by
  unfold executeCommand
  rw [hwords]
  simp only
  rw [if_neg (by decide)]
  change (taskrunCommand boot (raw :: rest) >>= fun _ => pure false) = _
  unfold taskrunCommand
  simp only [hparse]
  rw [if_neg hn]

variable (boot) in
/-- The command that starts a session does not return; what it had still to do is lost. -/
theorem taskrun_leaves (h : w.Inv) {line raw : String} {rest : List String} {n : UInt64}
    (hwords : splitWhitespace line = "taskrun" :: raw :: rest) (hparse : parseU64 raw = some n)
    (hn : n ≠ 0) {context : UserModeContext} (hcontext : w.userModeContext = some context)
    (hkind : ∃ kind ∈ selectedKinds (min n maxTaskrunSteps).toNat w, entersRing3 kind = true) :
    ∃ w', (executeCommand boot line).run w = .error (.ring3 context) w' ∧
      Ran ((selectedKinds (min n maxTaskrunSteps).toNat w).findIdx entersRing3 + 1)
        w.tasks w'.tasks := by
  rcases loop_leaves boot h hcontext hkind 0 with ⟨w', hrun, hran⟩
  rw [taskrun_line boot hwords hparse hn]
  exact ⟨w', run_bind_error (run_bind_error hrun), hran⟩

/-- The command returns to the prompt, behind so many steps that have run a task, and with the
report that says so. -/
def CompletesBatch (boot : Boot) (line : String) (m : UInt64) (w : World) : Prop :=
  ∃ w' text, (executeCommand boot line).run w = .ok false w' ∧ Ran m.toNat w.tasks w'.tasks ∧
    w'.serial = w.serial ++ text ++ (s!"taskrun: requested={m} executed={m}" ++ "\n")

variable (boot) in
/-- **Batches.** While some task is ready, `taskrun n` makes its `min n 256` steps and reports them
if and only if ring 3 is not available, or no step of the batch selects a task that goes there. -/
theorem taskrun_completes_iff (hw : w.Inv) {line raw : String} {rest : List String} {n : UInt64}
    (hwords : splitWhitespace line = "taskrun" :: raw :: rest) (hparse : parseU64 raw = some n)
    (hn : n ≠ 0) (hready : w.HasReady) :
    CompletesBatch boot line (min n maxTaskrunSteps) w ↔
      w.userModeContext = none ∨
        ∀ kind ∈ selectedKinds (min n maxTaskrunSteps).toNat w, entersRing3 kind = false := by
  constructor
  · rintro ⟨w', text, hreturns, _⟩
    by_contra hleaves
    rw [not_or] at hleaves
    rcases hleaves with ⟨hcontext, hkinds⟩
    rcases Option.ne_none_iff_exists'.mp hcontext with ⟨context, hcontext⟩
    -- one of the selected tasks goes to ring 3, and the command does not return
    have hkind : ∃ kind ∈ selectedKinds (min n maxTaskrunSteps).toNat w,
        entersRing3 kind = true := by
      by_contra hnone
      apply hkinds
      intro kind hmem
      rw [Bool.eq_false_iff]
      exact fun hkind => hnone ⟨kind, hmem, hkind⟩
    rcases taskrun_leaves boot hw hwords hparse hn hcontext hkind with ⟨w'', hstops, _⟩
    rw [hstops] at hreturns
    cases hreturns
  · intro hstay
    unfold CompletesBatch
    rw [taskrun_line boot hwords hparse hn]
    generalize min n maxTaskrunSteps = m at *
    have hcount : (0 : UInt64).toNat + m.toNat < 2 ^ 64 := by
      rw [UInt64.toNat_zero, Nat.zero_add]
      exact m.toNat_lt
    -- nothing leaves: every round returns, and the report is printed
    rcases loop_returns boot hw hready hstay hcount with
      ⟨count, w', text, hrun, hinv, hcount', hran, hserial⟩
    rw [UInt64.toNat_zero, Nat.zero_add, UInt64.toNat_inj] at hcount'
    subst hcount'
    have hreport : (taskrun boot count).run w = .ok () (w'.shown boot
        (s!"taskrun: requested={count} executed={count}" ++ "\n")) :=
      (run_bind_ok hrun).trans (consolePrintln_run hinv _)
    exact ⟨_, text, run_bind_ok hreport, hran, congrArg (· ++ _) hserial⟩

end

/-- The sample machine after a `tasknew`. -/
def sampleWithTask (kind : TaskKind) : World :=
  { sampleWorld with tasks := (sampleWorld.tasks.spawn kind).2 }

theorem sampleWithTask_inv (kind : TaskKind) : (sampleWithTask kind).Inv :=
  ⟨sampleWorld_booted.inv.writer, sampleWorld_booted.inv.history,
    exec_cursor_lt sampleWorld_booted.inv.cursor (.spawn kind)⟩

/-- The bootstrap task is ready. -/
theorem sampleWithTask_hasReady (kind : TaskKind) : (sampleWithTask kind).HasReady := by
  have hslot : (sampleWithTask kind).tasks.slots 0 =
      some (TaskTable.freshTask 1 .kernelMonitor) := rfl
  exact hasReady_of_ready hslot rfl

theorem taskrun_completes_iff_userDemo :
    CompletesBatch sampleBoot "taskrun 3" 3 (sampleWithTask .userDemo) ∧
      selectedKinds 3 (sampleWithTask .userDemo) =
        [.kernelMonitor, .userDemo, .kernelMonitor] := by
  have hwords : splitWhitespace "taskrun 3" = ["taskrun", "3"] := by decide
  have hkinds : selectedKinds 3 (sampleWithTask .userDemo) =
      [.kernelMonitor, .userDemo, .kernelMonitor] := by decide
  refine ⟨?_, hkinds⟩
  have hstay : ∀ kind ∈ selectedKinds 3 (sampleWithTask .userDemo), entersRing3 kind = false := by
    rw [hkinds]
    decide
  exact (taskrun_completes_iff sampleBoot (sampleWithTask_inv .userDemo) hwords
    (show parseU64 "3" = some 3 by decide) (by decide) (sampleWithTask_hasReady _)).mpr (.inr hstay)

/-- Of three steps the second goes to ring 3: the third and the report are lost. -/
theorem taskrun_cut_short :
    splitWhitespace "taskrun 3" = ["taskrun", "3"] ∧ parseU64 "3" = some 3 ∧
      (sampleWithTask .fastSyscallSuccess).Inv ∧ (sampleWithTask .fastSyscallSuccess).HasReady ∧
      ¬ CompletesBatch sampleBoot "taskrun 3" 3 (sampleWithTask .fastSyscallSuccess) ∧
      ∃ w', (executeCommand sampleBoot "taskrun 3").run (sampleWithTask .fastSyscallSuccess) =
          .error (.ring3 ⟨userCodeStart, userStackTop⟩) w' ∧
        Ran 2 (sampleWithTask .fastSyscallSuccess).tasks w'.tasks := by
  have hwords : splitWhitespace "taskrun 3" = ["taskrun", "3"] := by decide
  have hparse : parseU64 "3" = some 3 := by decide
  have hkinds : selectedKinds 3 (sampleWithTask .fastSyscallSuccess) =
      [.kernelMonitor, .fastSyscallSuccess, .kernelMonitor] := by decide
  have hkind : ∃ kind ∈ selectedKinds 3 (sampleWithTask .fastSyscallSuccess),
      entersRing3 kind = true := by
    rw [hkinds]
    decide
  have hcontext : (sampleWithTask .fastSyscallSuccess).userModeContext =
      some ⟨userCodeStart, userStackTop⟩ := rfl
  rcases taskrun_leaves sampleBoot (sampleWithTask_inv .fastSyscallSuccess) hwords hparse
    (by decide) hcontext hkind with ⟨w', hrun, hran⟩
  -- the second task is the one that leaves
  have hindex : (selectedKinds 3 (sampleWithTask .fastSyscallSuccess)).findIdx entersRing3 = 1 := by
    rw [hkinds]
    decide
  refine ⟨hwords, hparse, sampleWithTask_inv _, sampleWithTask_hasReady _, ?_, w', hrun, ?_⟩
  · rintro ⟨w'', text, hreturns, _⟩
    rw [hrun] at hreturns
    cases hreturns
  · change Ran ((selectedKinds 3 (sampleWithTask .fastSyscallSuccess)).findIdx entersRing3 + 1)
      _ _ at hran
    rw [hindex] at hran
    exact hran

end JingOS.Monitor
