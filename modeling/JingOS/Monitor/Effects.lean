import JingOS.Lib.Moves
import JingOS.Monitor.Rounds
import JingOS.Task.Fairness

/-!
# What a command may change

Everything that the monitor does to the state is a sequence of a few atomic changes: a look at
the counters, a text on both consoles, a call of the scheduler at the current tick, and so on.

* `World.Step` — the atomic changes, with the `Access` that each of them takes;
* one lemma for each command, `Moves (World.Step boot access)`, which names the access;
* `accessOf` — the access of every command word;
* `World.Footprint` — what a sequence of changes leaves as it was.
-/

namespace JingOS.Monitor

open Checked Hoare Relation Text
open JingOS.Framebuffer JingOS.Interrupts JingOS.Memory JingOS.Syscall JingOS.Task JingOS.Usermode

/-! ## The atomic changes -/

/-- What a program may change besides the counters and what is printed on both consoles. -/
structure Access where
  /-- The rate of the timer. -/
  rate : Bool := false
  /-- The table of the scheduler. -/
  tasks : Bool := false
  /-- The automatic scheduler. -/
  auto : Bool := false
  /-- The session, with the memory of ring 3. -/
  session : Bool := false
  /-- The history of the input line. -/
  history : Bool := false
  /-- One console without the other. -/
  apart : Bool := false
  /-- The screen, by clearing it. -/
  screen : Bool := false
deriving DecidableEq, Repr

/-- Nothing is off limits. -/
def Access.all : Access := ⟨true, true, true, true, true, true, true⟩

/-- A step of a command: the world is looked at, a text is shown, or a part that is open changes. -/
inductive World.Step (boot : Boot) (access : Access) : World → World → Prop where
  | look (w : World) : Step boot access w w.interrupted
  | shows (w : World) (text : String) : Step boot access w (w.shown boot text)
  | sends (h : access.apart) (w : World) (text : String) :
      Step boot access w { w with serial := w.serial ++ text }
  | draws (h : access.apart) (w : World) (text : String) :
      Step boot access w { w with writer := w.writer.map fun writer =>
        (writer.writeStr boot.font text).toOption.getD writer }
  | clears (h : access.screen) (w : World) :
      Step boot access w { w with writer := w.writer.map (·.clear) }
  | rate (h : access.rate) (w : World) (requestedHz : UInt32) :
      Step boot access w { w with kernel := { w.kernel with
        timer := (w.kernel.timer.setPitHz requestedHz).2 } }
  /-- A call that carries a tick carries the current one. -/
  | calls (h : access.tasks) (w : World) (op : Op) (hinit : op ≠ .init)
      (hnow : ∀ now ∈ op.tick?, now = w.kernel.timer.ticks) :
      Step boot access w { w with tasks := (exec w.tasks op).2 }
  | auto (h : access.auto) (w : World) (autoScheduler : SchedulerAutoMode) :
      Step boot access w { w with autoScheduler }
  | session (h : access.session) (w : World) (session : Session) (userMem : ByteMem.Mem) :
      Step boot access w { w with session, userMem }
  | history (h : access.history) (w : World) (history : CommandHistory)
      (hinv : w.history.Inv → history.Inv) : Step boot access w { w with history }

section Commands

variable {boot : Boot} {access : Access}

/-! ## Clock and console -/

theorem interrupted_moves : Moves (World.Step boot access) (modify World.interrupted : MonitorM _) :=
  Moves.modify fun w => .look w

theorem ticks_moves : Moves (World.Step boot access) ticks :=
  interrupted_moves.bind fun _ _ => .refl

/-- What follows a look at the clock knows the tick. -/
theorem ticks_bind {α : Type} {f : UInt64 → MonitorM α}
    (hf : ∀ w : World, MovesFrom (World.Step boot access) w (f w.kernel.timer.ticks)) :
    Moves (World.Step boot access) (ticks >>= f) :=
  fun w => ReflTransGen.head (.look w) (hf w.interrupted)

theorem pitHz_moves : Moves (World.Step boot access) pitHz := fun _ => .refl

theorem setPitHz_moves (h : access.rate) (requestedHz : UInt32) :
    Moves (World.Step boot access) (setPitHz requestedHz) :=
  Moves.modifyGet fun w => .rate h w requestedHz

theorem keyboardCounters_moves : Moves (World.Step boot access) keyboardCounters :=
  interrupted_moves.bind fun _ _ => .refl

/-- Whether the framebuffer takes the text or panics, the state is the one that `getD` names. -/
theorem print_endState (text : String) (w : World) :
    endState ((print boot text).run w) = { w with writer := w.writer.map fun writer =>
      (writer.writeStr boot.font text).toOption.getD writer } := by
  unfold print
  rw [run_get_bind]
  cases hwriter : w.writer with
  | none =>
    simp only [Option.map_none]
    rw [← hwriter]
    rfl
  | some writer =>
    simp only [Option.map_some]
    cases hwrite : writer.writeStr boot.font text with
    | ok writer' => rfl
    | error panic =>
      change w = { w with writer := some writer }
      rw [← hwriter]

theorem consolePrint_endState (text : String) (w : World) :
    endState ((consolePrint boot text).run w) = w.shown boot text :=
  print_endState text { w with serial := w.serial ++ text }

theorem consolePrint_moves (text : String) :
    Moves (World.Step boot access) (consolePrint boot text) := by
  intro w
  unfold MovesFrom
  rw [consolePrint_endState]
  exact .single (.shows w text)

theorem println_moves (text : String) :
    Moves (World.Step boot access) (consolePrintln boot text) := by
  intro w
  have hend : endState ((consolePrintln boot text).run w) = w.shown boot (text ++ "\n") := by
    unfold World.shown
    rw [← String.append_assoc]
    exact print_endState (text ++ "\n") { w with serial := w.serial ++ text ++ "\n" }
  unfold MovesFrom
  rw [hend]
  exact .single (.shows w _)

/-- A text that looks at the state may differ between the consoles. -/
theorem printlnWith_moves (h : access.apart) {text : MonitorM String}
    (htext : Moves (World.Step boot access) text) :
    Moves (World.Step boot access) (consolePrintlnWith boot text) := by
  refine htext.bind fun line => ?_
  refine (Moves.modify fun w => ?_).bind fun _ => htext.bind fun line => ?_
  · rw [String.append_assoc]
    exact .sends h w _
  · intro w
    unfold MovesFrom
    rw [print_endState]
    exact .single (.draws h w _)

/-- A text that only looks at the rate is the same on both consoles. -/
theorem printlnRate_moves (text : PitRate → String) :
    Moves (World.Step boot access) (consolePrintlnWith boot do
      let rate ← pitHz
      pure (text rate)) := by
  intro w
  exact println_moves (text w.kernel.timer.pitHz) w

theorem clearScreen_moves (h : access.screen) : Moves (World.Step boot access) clearScreen :=
  Moves.modify fun w => .clears h w

/-! ## Status and time -/

theorem status_moves (h : access.apart) : Moves (World.Step boot access) (statusCommand boot) :=
  keyboardCounters_moves.bind fun _ => printlnWith_moves h (ticks_moves.bind fun _ => Moves.pure _)

theorem ticksCommand_moves (h : access.apart) : Moves (World.Step boot access) (ticksCommand boot) :=
  printlnWith_moves h (ticks_moves.bind fun _ => Moves.pure _)

theorem uptime_moves : Moves (World.Step boot access) (uptimeCommand boot) := by
  refine ticks_moves.bind fun ticks => pitHz_moves.bind fun rate => ?_
  refine (Moves.lift _).bind fun _ => (Moves.lift _).bind fun _ => ?_
  exact (Moves.lift _).bind fun _ => (Moves.lift _).bind fun _ => println_moves _

theorem timerhz_moves (h : access.rate) (args : List String) :
    Moves (World.Step boot access) (timerhzCommand boot args) := by
  unfold timerhzCommand
  split
  · exact printlnRate_moves _
  · split
    · exact println_moves _
    · exact pitHz_moves.bind fun _ => (setPitHz_moves h _).bind fun _ => println_moves _

theorem irq_moves : Moves (World.Step boot access) (irqCommand boot) :=
  keyboardCounters_moves.bind fun _ => println_moves _

/-! ## Memory -/

theorem mapsLoop_moves (limit : Option ℕ) (regions : List MemoryRegion) (index shown : ℕ) :
    Moves (World.Step boot access) (mapsLoop boot limit index shown regions) := by
  induction regions generalizing index shown with
  | nil => exact Moves.pure _
  | cons region rest ih =>
    unfold mapsLoop
    split
    · exact Moves.pure _
    · exact (println_moves _).bind fun _ => (Moves.lift _).bind fun _ => ih _ _

theorem printMaps_moves (limit : Option ℕ) :
    Moves (World.Step boot access) (printMaps boot limit) := by
  refine (println_moves _).bind fun _ => (mapsLoop_moves _ _ _ _).bind fun shown => ?_
  split
  · exact (Moves.lift _).bind fun _ => println_moves _
  · exact Moves.pure _

theorem maps_moves (args : List String) :
    Moves (World.Step boot access) (mapsCommand boot args) := by
  unfold mapsCommand
  split
  · exact printMaps_moves _
  · split
    · exact printMaps_moves _
    · split
      · exact println_moves _
      · exact printMaps_moves _

theorem heap_moves : Moves (World.Step boot access) (heapCommand boot) :=
  (Moves.lift _).bind fun _ => println_moves _

theorem printVmTranslation_moves (offset virtualAddress : UInt64) (label : String) :
    Moves (World.Step boot access) (printVmTranslation boot offset virtualAddress label) := by
  refine (Moves.lift _).bind fun physical => ?_
  cases physical with
  | none => exact println_moves _
  | some physicalAddress => exact println_moves _

theorem printVmWalk_moves (offset virtualAddress : UInt64) (label : String) :
    Moves (World.Step boot access) (printVmWalk boot offset virtualAddress label) := by
  refine (Moves.lift _).bind fun walk => ?_
  refine (println_moves _).bind fun _ => (println_moves _).bind fun _ => ?_
  split
  · exact println_moves _
  · exact println_moves _

theorem vm_moves (args : List String) : Moves (World.Step boot access) (vmCommand boot args) := by
  unfold vmCommand
  split
  · exact println_moves _
  · split
    · split
      · exact println_moves _
      · refine (Moves.lift _).bind fun physical => ?_
        cases physical with
        | none => exact println_moves _
        | some physicalAddress => exact println_moves _
    · exact (println_moves _).bind fun _ => Moves.forM (fun _ => printVmTranslation_moves _ _ _) _

theorem vmmap_moves (args : List String) :
    Moves (World.Step boot access) (vmmapCommand boot args) := by
  unfold vmmapCommand
  split
  · exact println_moves _
  · split
    · split
      · exact println_moves _
      · exact printVmWalk_moves _ _ _
    · exact (println_moves _).bind fun _ => Moves.forM (fun _ => printVmWalk_moves _ _ _) _

theorem faultAt_moves (address : UInt64) : Moves (World.Step boot access) (faultAt boot address) := by
  refine (println_moves _).bind fun _ => ?_
  split
  · exact Moves.pure _
  · exact Moves.throw _

theorem fault_moves (args : List String) :
    Moves (World.Step boot access) (faultCommand boot args) := by
  unfold faultCommand
  split
  · exact faultAt_moves _
  · split
    · exact println_moves _
    · exact faultAt_moves _

/-! ## System calls and ring 3 -/

theorem invokeViaInterrupt_moves (number arg0 arg1 arg2 : UInt64) :
    Moves (World.Step boot access) (invokeViaInterrupt number arg0 arg1 arg2) :=
  interrupted_moves.bind fun _ _ => .refl

theorem syscall_moves (args : List String) :
    Moves (World.Step boot access) (syscallCommand boot args) := by
  unfold syscallCommand
  split
  · exact println_moves _
  · split
    · exact println_moves _
    · split
      · exact println_moves _
      · exact println_moves _
      · exact println_moves _
      · refine (invokeViaInterrupt_moves _ _ _ _).bind fun result => ?_
        cases result with
        | ok value => exact println_moves _
        | error error => exact println_moves _

theorem sysabi_moves : Moves (World.Step boot access) (sysabiCommand boot) := by
  refine (println_moves _).bind fun _ => (println_moves _).bind fun _ => Moves.get fun w => ?_
  refine (println_moves _ w).bind fun _ w' _ => ?_
  refine Moves.bind (Moves.forM (fun _ => println_moves _) _) (fun _ => ?_) w'
  refine (Moves.forM (fun _ => println_moves _) _).bind fun _ => ?_
  exact Moves.forM (fun _ => println_moves _) _

theorem runUserDemo_moves : Moves (World.Step boot access) runUserDemo.run := by
  refine Moves.exceptBind (invokeViaInterrupt_moves _ _ _ _) fun ticks => ?_
  refine Moves.exceptBind (invokeViaInterrupt_moves _ _ _ _) fun uptimeSeconds => ?_
  refine Moves.exceptBind (invokeViaInterrupt_moves _ _ _ _) fun sum => ?_
  refine Moves.exceptBind (invokeViaInterrupt_moves _ _ _ _) fun usableBytes => ?_
  refine Moves.exceptBind (invokeViaInterrupt_moves _ _ _ _) fun usableFrames => ?_
  exact Moves.pure _

theorem runDemoCode_moves (h : access.session) (code : List UInt8)
    (kind : Option FastSyscallDemoKind) :
    Moves (World.Step boot access) (runDemoCode code kind) := by
  refine Moves.get fun w => ?_
  cases w.userModeContext with
  | none => exact .refl
  | some context =>
    exact Moves.bind (Moves.modify fun w => .session h w _ _) (fun _ => Moves.throw _) w

theorem runBuiltCode_moves (h : access.session) (code : Except String UserCodeBuilder)
    (kind : FastSyscallDemoKind) : Moves (World.Step boot access) (runBuiltCode code kind) := by
  cases code with
  | error error => exact Moves.pure _
  | ok builder => exact runDemoCode_moves h _ _

theorem reportRing3_moves (result : Except String Unit) (unexpected failed : String) :
    Moves (World.Step boot access) (reportRing3 boot result unexpected failed) := by
  cases result with
  | ok _ => exact println_moves _
  | error error => exact println_moves _

theorem userdemo_moves : Moves (World.Step boot access) (userdemoCommand boot) := by
  refine runUserDemo_moves.bind fun result => ?_
  cases result with
  | ok report => exact println_moves _
  | error error => exact println_moves _

theorem usermode_moves (h : access.session) :
    Moves (World.Step boot access) (usermodeCommand boot) :=
  (println_moves _).bind fun _ =>
    (runDemoCode_moves h _ _).bind fun _ => reportRing3_moves _ _ _

theorem usermodeSyscall_moves (h : access.session) :
    Moves (World.Step boot access) (usermodeSyscallCommand boot) :=
  (println_moves _).bind fun _ =>
    (runBuiltCode_moves h _ _).bind fun _ => reportRing3_moves _ _ _

theorem usermodeSyscallFail_moves (h : access.session) :
    Moves (World.Step boot access) (usermodeSyscallFailCommand boot) :=
  (println_moves _).bind fun _ =>
    (runBuiltCode_moves h _ _).bind fun _ => reportRing3_moves _ _ _

/-! ## Tasks -/

/-- A call of the scheduler, as a call of its machine. -/
theorem withTasks_moves (h : access.tasks) (op : Op) {α : Type}
    {call : TaskTable → α × TaskTable} (hinit : op ≠ .init) (hcall : ∀ t, (call t).2 = (exec t op).2) {w : World}
    (hnow : ∀ now ∈ op.tick?, now = w.kernel.timer.ticks) :
    MovesFrom (World.Step boot access) w (withTasks call) := by
  apply ReflTransGen.single
  change World.Step boot access w { w with tasks := (call w.tasks).2 }
  rw [hcall]
  exact .calls h w op hinit hnow

theorem taskStep_moves (h : access.tasks) (w : World) :
    MovesFrom (World.Step boot access) w (taskStep w.kernel.timer.ticks) := by
  refine MovesFrom.lift_bind (s := w) fun _ => ?_
  exact withTasks_moves h (.step w.kernel.timer.ticks) (by simp) (fun _ => rfl)
    (by simp [Op.tick?])

theorem tasks_moves : Moves (World.Step boot access) (tasksCommand boot) := by
  refine Moves.get fun w => (println_moves _ w).bind fun _ w' _ => ?_
  refine Moves.bind (Moves.lift _) ?_ w'
  rintro ⟨count, entries⟩
  simp only
  split
  · exact println_moves _
  · exact Moves.forM (fun _ => println_moves _) _

theorem tasknew_moves (h : access.tasks) (args : List String) :
    Moves (World.Step boot access) (tasknewCommand boot args) := by
  unfold tasknewCommand
  simp only
  split
  · exact println_moves _
  · next kind _ =>
    refine Moves.bind (fun w => withTasks_moves h (.spawn kind) (by simp) (fun _ => rfl)
      (by simp [Op.tick?])) fun result => ?_
    cases result with
    | ok id => exact println_moves _
    | error error => exact println_moves _

/-- A task's payload may start a session. -/
theorem runTaskPayload_moves (h : access.session) (kind : TaskKind) :
    Moves (World.Step boot access) (runTaskPayload boot kind) := by
  cases kind with
  | kernelMonitor => exact Moves.pure _
  | userDemo =>
    refine runUserDemo_moves.bind fun result => ?_
    cases result with
    | ok report => exact println_moves _
    | error error => exact println_moves _
  | fastSyscallSuccess =>
    exact (println_moves _).bind fun _ =>
      (runBuiltCode_moves h _ _).bind fun _ => reportRing3_moves _ _ _
  | fastSyscallError =>
    exact (println_moves _).bind fun _ =>
      (runBuiltCode_moves h _ _).bind fun _ => reportRing3_moves _ _ _

theorem runTaskStep_moves (h : access.tasks) (hsession : access.session) (label : String)
    (printNoReady : Bool) :
    Moves (World.Step boot access) (runTaskStepWithLabelInternal boot label printNoReady) := by
  refine ticks_bind fun w => (taskStep_moves h w).bind fun report w' _ => ?_
  cases report with
  | none =>
    simp only
    split
    · exact Moves.bind (println_moves _) (fun _ => Moves.pure _) w'
    · exact Moves.pure _ w'
  | some report =>
    refine Moves.bind (println_moves _) (fun _ => ?_) w'
    exact (runTaskPayload_moves hsession _).bind fun _ => Moves.pure _

theorem taskstep_moves (h : access.tasks) (hsession : access.session) :
    Moves (World.Step boot access) (taskstepCommand boot) :=
  (runTaskStep_moves h hsession _ _).bind fun _ => Moves.pure _

theorem taskrunLoop_moves (h : access.tasks) (hsession : access.session) (left : ℕ)
    (executed : UInt64) : Moves (World.Step boot access) (taskrunLoop boot left executed) := by
  induction left generalizing executed with
  | zero => exact Moves.pure _
  | succ left ih =>
    refine (runTaskStep_moves h hsession _ _).bind fun ran => ?_
    split
    · exact ih _
    · exact Moves.pure _

theorem taskrun_moves (h : access.tasks) (hsession : access.session) (args : List String) :
    Moves (World.Step boot access) (taskrunCommand boot args) := by
  have hrun : ∀ steps, Moves (World.Step boot access) (taskrun boot steps) := fun steps =>
    (taskrunLoop_moves h hsession _ _).bind fun _ => println_moves _
  unfold taskrunCommand
  split
  · exact hrun _
  · split
    · exact println_moves _
    · split
      · exact println_moves _
      · exact hrun _

theorem tasksleep_moves (h : access.tasks) (args : List String) :
    Moves (World.Step boot access) (tasksleepCommand boot args) := by
  have hsleep : ∀ id ticks, Moves (World.Step boot access) (tasksleep boot id ticks) := by
    intro id ticks
    refine ticks_bind fun w => MovesFrom.bind (withTasks_moves h
      (.sleep id ticks w.kernel.timer.ticks) (by simp) (fun _ => rfl) (by simp [Op.tick?]))
      fun result w' _ => ?_
    cases result with
    | ok untilTick => exact println_moves _ w'
    | error error => exact println_moves _ w'
  unfold tasksleepCommand
  simp only
  split
  · exact println_moves _
  · split
    · exact println_moves _
    · split
      · exact hsleep _ _
      · split
        · exact println_moves _
        · split
          · exact println_moves _
          · exact hsleep _ _

theorem taskCommand_moves (h : access.tasks) (op : UInt64 → UInt64 → Op) {name done : String}
    {call : UInt64 → UInt64 → TaskTable → Except String TaskInfo × TaskTable}
    (hinit : ∀ id now, op id now ≠ .init)
    (hcall : ∀ id now t, (call id now t).2 = (exec t (op id now)).2)
    (htick : ∀ id now, (op id now).tick? = some now) (args : List String) :
    Moves (World.Step boot access) (taskCommand boot name done call args) := by
  unfold taskCommand
  split
  · exact println_moves _
  · split
    · exact println_moves _
    · next taskId _ =>
      refine ticks_bind fun w => MovesFrom.bind (withTasks_moves h _ (hinit taskId _)
        (hcall taskId _) ?_) fun result w' _ => ?_
      · rw [htick]
        simp
      · cases result with
        | ok info => exact println_moves _ w'
        | error error => exact println_moves _ w'

theorem taskwake_moves (h : access.tasks) (args : List String) :
    Moves (World.Step boot access) (taskwakeCommand boot args) :=
  taskCommand_moves h .wake (by simp) (fun _ _ _ => rfl) (fun _ _ => rfl) args

theorem taskrm_moves (h : access.tasks) (args : List String) :
    Moves (World.Step boot access) (taskrmCommand boot args) :=
  taskCommand_moves h .remove (by simp) (fun _ _ _ => rfl) (fun _ _ => rfl) args

theorem taskprio_moves (h : access.tasks) (args : List String) :
    Moves (World.Step boot access) (taskprioCommand boot args) := by
  unfold taskprioCommand
  simp only
  split
  · exact println_moves _
  · split
    · exact println_moves _
    · next taskId _ =>
      split
      · exact println_moves _
      · split
        · exact println_moves _
        · next priorityRaw _ =>
          refine ticks_bind fun w => MovesFrom.bind (withTasks_moves h
            (.setPriority taskId (min priorityRaw 255).toUInt8 w.kernel.timer.ticks)
            (by simp) (fun _ => rfl) (by simp [Op.tick?])) fun result w' _ => ?_
          cases result with
          | ok info => exact println_moves _ w'
          | error error => exact println_moves _ w'

theorem taskautoOn_moves (h : access.auto) (interval now : UInt64) :
    Moves (World.Step boot access) (taskautoOn boot interval now) :=
  (Moves.modify fun w => .auto h w _).bind fun _ => println_moves _

theorem taskauto_moves (h : access.auto) (args : List String) :
    Moves (World.Step boot access) (taskautoCommand boot args) := by
  refine ticks_moves.bind fun now => Moves.get fun w => ?_
  simp only
  split
  · exact println_moves _ w
  · split
    · exact Moves.bind (Moves.modify fun w => .auto h w _) (fun _ => println_moves _) w
    · split
      · split
        · exact taskautoOn_moves h _ _ w
        · split
          · exact println_moves _ w
          · split
            · exact println_moves _ w
            · exact taskautoOn_moves h _ _ w
      · exact println_moves _ w

/-! ## History and screen -/

theorem printEntry_moves (history : CommandHistory) (index : ℕ) :
    Moves (World.Step boot access) (printEntry boot history index) := by
  refine (Moves.lift _).bind fun _ => (Moves.lift _).bind fun _ => (Moves.lift _).bind fun entry => ?_
  cases entry with
  | none => exact Moves.pure _
  | some entry => exact (Moves.lift _).bind fun _ => println_moves _

theorem history_moves : Moves (World.Step boot access) (historyCommand boot) := by
  refine Moves.get fun w => ?_
  split
  · exact println_moves _ w
  · exact Moves.forM (fun _ => printEntry_moves _ _) _ w

theorem clear_moves (h : access.screen) : Moves (World.Step boot access) (clearCommand boot) :=
  (clearScreen_moves h).bind fun _ => println_moves _

/-! ## Every command line -/

/-- What the command words may change. -/
def accessOf (command : String) : Access where
  rate := command == "timerhz"
  tasks := ["tasknew", "taskstep", "taskrun", "tasksleep", "taskwake", "taskrm",
    "taskprio"].contains command
  auto := command == "taskauto"
  session := ["taskstep", "taskrun", "usermode", "usermode_syscall",
    "usermode_syscall_fail"].contains command
  apart := ["status", "ticks"].contains command
  screen := command == "clear"

/-- Each command moves the world by steps of its own access. -/
theorem runCommand_moves (line command : String) (args : List String) :
    Moves (World.Step boot (accessOf command)) (runCommand boot line command args) := by
  unfold runCommand
  -- the arms in the order of the match, each with the access of its command
  split
  · exact println_moves _
  · exact status_moves (by decide)
  · exact ticksCommand_moves (by decide)
  · exact uptime_moves
  · exact timerhz_moves (by decide) _
  · exact irq_moves
  · exact println_moves _
  · exact maps_moves _
  · exact heap_moves
  · exact vm_moves _
  · exact vmmap_moves _
  · exact fault_moves _
  · exact syscall_moves _
  · exact sysabi_moves
  · exact tasks_moves
  · exact tasknew_moves (by decide) _
  · exact taskstep_moves (by decide) (by decide)
  · exact taskrun_moves (by decide) (by decide) _
  · exact tasksleep_moves (by decide) _
  · exact taskwake_moves (by decide) _
  · exact taskrm_moves (by decide) _
  · exact taskprio_moves (by decide) _
  · exact taskauto_moves (by decide) _
  · exact userdemo_moves
  · exact usermode_moves (by decide)
  · exact usermodeSyscall_moves (by decide)
  · exact usermodeSyscallFail_moves (by decide)
  · exact println_moves _
  · exact history_moves
  · exact clear_moves (by decide)
  · exact println_moves _

/-- The access of a command line; a line without words has none. -/
def accessOfLine (line : String) : Access := accessOf ((splitWhitespace line).headD "")

variable (boot) in
theorem executeCommand_moves (line : String) :
    Moves (World.Step boot (accessOfLine line)) (executeCommand boot line) := by
  unfold executeCommand accessOfLine
  split
  · exact Moves.pure _
  · next command args hwords =>
    rw [hwords]
    split
    · exact Moves.pure _
    · exact (runCommand_moves line command args).bind fun _ => Moves.pure _

end Commands

end JingOS.Monitor
