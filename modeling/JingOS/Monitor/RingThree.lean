import JingOS.Monitor.Endings
import JingOS.Monitor.Inputs

/-!
# The self-test of the fast system calls

A command or a task of the scheduler writes a program into the user page and leaves for ring 3; the
program makes two system calls and comes back by `int 0x81`, and the monitor tells what the calls
have returned. Here the monitor, the program, the system calls and the way back are put together.

* `Launched`, `launches_rule` — wherever the monitor leaves for ring 3, the program of a pending
  report is on the page;
* `userRun_capture` — what that program does;
* `sessions_report_ok` — each such session ends with the report `ok`.
-/

namespace JingOS.Monitor

open Ascii ByteMem Checked Hoare Relation Text X86
open JingOS.Framebuffer JingOS.Keyboard JingOS.Syscall JingOS.Task JingOS.Usermode

/-! ## Leaving for ring 3 -/

/-- The program of a session, and the kind of its report. -/
inductive Demo : Option FastSyscallDemoKind → List UInt8 → Prop where
  | interrupt : Demo none userIntDemoCode
  | success {builder : UserCodeBuilder} (h : buildFastSyscallSuccessCode = .ok builder) :
      Demo (some .successPath) builder.code
  | error {builder : UserCodeBuilder} (h : buildFastSyscallErrorCode = .ok builder) :
      Demo (some .errorPath) builder.code

/-- A session has just been started. -/
structure Launched (context : UserModeContext) (w : World) : Prop extends World.Inv w where
  context : w.userModeContext = some context
  started : ∃ kind code m, Demo kind code ∧ w.userMem = writeDemoCode m code ∧
    w.session = { exitExpected := true, pendingKind := kind, lastReport := none }

/-- The program leaves for ring 3 only with a session. -/
def Launches {α : Type} (x : MonitorM α) : Prop :=
  Triple World.Inv x (fun _ => World.Inv) fun stop w => ∀ context, stop = .ring3 context →
    Launched context w

section

variable {α β : Type} {boot : Boot}

theorem Launches.of_safe {E : Stop → Prop} {x : MonitorM α} (hx : Safe World.Inv E x)
    (hE : ∀ context, ¬ E (.ring3 context)) : Launches x := by
  intro w hw
  cases hrun : x.run w with
  | ok a w' => exact (hx.of_ok hw hrun).2
  | error stop w' =>
    rintro context rfl
    exact absurd (hx.of_error hw hrun).1 (hE context)

/-- A program that returns. -/
theorem Launches.of_never {x : MonitorM α}
    (hx : ∀ history, Safe (Framed World.history history) Never x) : Launches x := by
  intro w hw
  rcases (hx w.history).returns ⟨hw, rfl⟩ with ⟨_, w', hrun, _, hinv⟩
  rw [hrun]
  exact hinv.toInv

theorem Launches.pure (a : α) : Launches (pure a : MonitorM α) := Triple.pure fun _ hw => hw

theorem Launches.bind {x : MonitorM α} {f : α → MonitorM β} (hx : Launches x)
    (hf : ∀ a, Launches (f a)) : Launches (x >>= f) := Triple.bind hx hf

theorem println_launches (line : String) : Launches (consolePrintln boot line) :=
  .of_never fun _ => println_safe _

theorem runDemoCode_launches {kind : Option FastSyscallDemoKind} {code : List UInt8}
    (hdemo : Demo kind code) : Launches (runDemoCode code kind) := by
  refine Triple.get fun w hw => ?_
  cases hcontext : w.userModeContext with
  | none => exact Triple.pure fun w' hw' => by rw [hw']; exact hw
  | some context =>
    refine Triple.bind (Q := fun _ => Launched context) (Triple.modify fun w' hw' => ?_)
      fun _ => Triple.throw fun w' hw' context' hstop => ?_
    · rw [hw']
      exact ⟨⟨hw.writer, hw.history, hw.cursor⟩, hcontext, kind, code, _, hdemo, rfl, rfl⟩
    · cases hstop
      exact hw'

theorem runFastSyscallDemo_launches : Launches runFastSyscallDemo := by
  unfold runFastSyscallDemo runBuiltCode
  cases hcode : buildFastSyscallSuccessCode with
  | error error => exact Launches.pure _
  | ok builder => exact runDemoCode_launches (.success hcode)

theorem runFastSyscallErrorDemo_launches : Launches runFastSyscallErrorDemo := by
  unfold runFastSyscallErrorDemo runBuiltCode
  cases hcode : buildFastSyscallErrorCode with
  | error error => exact Launches.pure _
  | ok builder => exact runDemoCode_launches (.error hcode)

/-- A message, a demo, and what is told if it did not start. -/
theorem demo_launches {demo : MonitorM (Except String Unit)} (hdemo : Launches demo)
    (message unexpected failed : String) :
    Launches (do
      consolePrintln boot message
      let result ← demo
      reportRing3 boot result unexpected failed) :=
  (println_launches _).bind fun _ => hdemo.bind fun _ => .of_never fun _ => reportRing3_safe _ _ _

theorem runTaskPayload_launches (kind : TaskKind) : Launches (runTaskPayload boot kind) := by
  cases kind with
  | fastSyscallSuccess => exact demo_launches runFastSyscallDemo_launches _ _ _
  | fastSyscallError => exact demo_launches runFastSyscallErrorDemo_launches _ _ _
  | kernelMonitor => exact Launches.pure _
  | userDemo =>
    refine Launches.bind (.of_never fun _ => runUserDemo_safe) fun result => ?_
    cases result with
    | ok report => exact println_launches _
    | error error => exact println_launches _

theorem runTaskStep_launches (label : String) (printNoReady : Bool) :
    Launches (runTaskStepWithLabelInternal boot label printNoReady) := by
  refine Launches.bind (.of_never fun _ => ticks_safe) fun now =>
    Launches.bind (.of_never fun _ => taskStep_safe now) fun report => ?_
  cases report with
  | none =>
    simp only
    split
    · exact (println_launches _).bind fun _ => .pure _
    · exact .pure _
  | some report =>
    exact (println_launches _).bind fun _ => (runTaskPayload_launches _).bind fun _ => .pure _

theorem taskrunLoop_launches (left : ℕ) (executed : UInt64) :
    Launches (taskrunLoop boot left executed) := by
  induction left generalizing executed with
  | zero => exact .pure _
  | succ left ih =>
    refine (runTaskStep_launches _ _).bind fun ran => ?_
    split
    · exact ih _
    · exact .pure _

theorem taskrun_launches (args : List String) : Launches (taskrunCommand boot args) := by
  have hrun : ∀ steps, Launches (taskrun boot steps) := fun steps =>
    (taskrunLoop_launches _ _).bind fun _ => println_launches _
  unfold taskrunCommand
  split
  · exact hrun _
  · split
    · exact println_launches _
    · split
      · exact println_launches _
      · exact hrun _

/-- A line leaves for ring 3 only by one of the commands for it. -/
theorem executeCommand_launches (hboot : boot.Successful) (line : String) :
    Launches (executeCommand boot line) := by
  cases hwords : splitWhitespace line with
  | nil =>
    unfold executeCommand
    rw [hwords]
    exact .pure _
  | cons command args =>
    by_cases hring3 : command ∈ ring3Commands
    · have hcommand : Launches (runCommand boot line command args) := by
        simp only [ring3Commands, List.mem_cons, List.not_mem_nil, or_false] at hring3
        rcases hring3 with rfl | rfl | rfl | rfl | rfl
        · exact (runTaskStep_launches _ _).bind fun _ => .pure _
        · exact taskrun_launches args
        · exact demo_launches (runDemoCode_launches .interrupt) _ _ _
        · exact demo_launches runFastSyscallDemo_launches _ _ _
        · exact demo_launches runFastSyscallErrorDemo_launches _ _ _
      unfold executeCommand
      rw [hwords]
      simp only
      split
      · exact .pure _
      · exact hcommand.bind fun _ => .pure _
    · have hsafe : Safe World.Inv (Causes (splitWhitespace line)) (executeCommand boot line) :=
        unframed (executeCommand_causes hboot (fun _ _ => rfl) line)
      refine Launches.of_safe hsafe fun context hcause => ?_
      rcases hcause with ⟨command', hmem, hhead⟩
      rw [hwords] at hhead
      cases hhead
      exact hring3 hmem

theorem maybeRun_launches (now : UInt64) : Launches (maybeRun boot now) := by
  refine Triple.get fun w hw => ?_
  refine Triple.mono (P := World.Inv) ?_ (fun w' hw' => by rw [hw']; exact hw) fun _ _ => id
  simp only
  split
  · exact Launches.pure _
  · refine Triple.bind (Q := fun _ => World.Inv) ?_ fun _ =>
      (runTaskStep_launches _ _).bind fun _ => .pure _
    exact fun _ _ => ⟨hw.writer, hw.history, hw.cursor⟩

/-! ## Rounds -/

/-- At a stop for ring 3 a session has been started. -/
def Leaving (stop : Stop) (s : InputLoop) : Prop :=
  ∀ context, stop = .ring3 context → Launched context s.loop.world

/-- Enter comes back, or leaves with a session that is open. -/
theorem enterKey_launches (hboot : boot.Successful) :
    Triple (fun s => s.loop.WellFormed) (inLoop (enterKey boot)) (fun _ s => s.loop.WellFormed)
      Leaving := by
  intro s hs
  rcases enterKey_run hboot hs with ⟨history, hhistory, _, henter⟩
  have hcall : (s.loop.call boot history).world.Inv := Loop.call_inv boot hs hhistory
  have hlaunches := executeCommand_launches hboot (s.loop.call boot history).text
    (s.loop.call boot history).world hcall
  rw [← Loop.call_result] at hlaunches
  cases hrun : (s.loop.call boot history).result with
  | ok left w =>
    rw [hrun] at henter
    rcases henter with ⟨s', henter, hwf, _⟩
    rw [inLoop_run henter]
    exact hwf
  | error stop w =>
    rw [hrun] at henter hlaunches
    rw [inLoop_stops henter.1]
    exact hlaunches

theorem handleKeyEvent_launches (hboot : boot.Successful) (raw : UInt8) (event : KeyEvent) :
    Triple (fun s => s.loop.WellFormed) (inLoop (handleKeyEvent boot raw event))
      (fun _ s => s.loop.WellFormed) Leaving :=
  handleKeyEvent_keeps (fun _ hs => hs) (enterKey_launches hboot) raw event
    fun _ _ _ _ hanswers => hanswers.wellFormed

theorem inWorld_launches {α : Type} {x : MonitorM α} (hx : Launches x)
    (hkeeps : ∀ history, Safe (Framed World.history history) (fun _ => True) x) :
    Triple (fun s => s.loop.WellFormed) (inLoop (inWorld x)) (fun _ s => s.loop.WellFormed)
      Leaving :=
  inWorld_keeps (fun _ hs => hs) hkeeps (fun _ _ hs hinv hsame => hs.withWorld hinv hsame)
    fun _ _ _ hs hrun _ _ => hx.of_error hs.world hrun

/-- **A round.** Wherever it leaves for ring 3, a session has been started. -/
theorem launches_rule (hboot : boot.Successful) :
    RoundRule boot (fun _ s => s.loop.WellFormed) Leaving where
  fewer _ hs := hs
  decoder _ hs := hs
  counted hs _ := hs
  uncounted _ _ := nofun
  deadline _ hs := hs
  key _ raw event := handleKeyEvent_launches hboot raw event
  returns _ hx := inWorld_launches (.of_never hx) fun history =>
    (hx history).mono (fun _ => False.elim) fun _ => id
  auto _ now := inWorld_launches (maybeRun_launches now) (maybeRun_keeps now)

end

/-! ## In ring 3 -/

section

variable {layout : FastSyscallLayout} (msrs : SyscallMsrs) (kernels : ℕ → Kernel)
  (unknowns : ℕ → Unknown)

/-- A built program that lies in the user page comes to its `int 0x81`, with the results of both
calls in four registers. -/
theorem userRun_capture (hpage : UserPageApart layout) {s : Cpu} (hready : FastReady layout s)
    (hrip : s.rip = userCodeStart) {first second : Request} {builder : UserCodeBuilder}
    (hbuild : buildFastSyscallCode first second = .ok builder)
    (hcode : CodeAt s.mem userCodeStart builder.code) :
    ∃ s', (∀ fuel, userRun (userSyscall layout msrs kernels unknowns) 0 (15 + fuel) s =
        .interrupt usermodeExitInterruptVector s') ∧
      (s'.regs .r8, s'.regs .r9) = encodeResult (dispatch (kernels 4) first.number.toUInt64
        first.arg0 first.arg1 first.arg2) ∧
      (s'.regs .r10, s'.regs .r12) = encodeResult (dispatch (kernels 11) second.number.toUInt64
        second.arg0 second.arg1 second.arg2) := by
  rcases buildFastSyscallCode_ok first second with ⟨builder', hbuild', hbytes⟩
  rw [hbuild] at hbuild'
  cases hbuild'
  have hlen : ((captureCode first second).flatMap Prod.snd ++ exitBytes).length ≤ 4096 := by
    rw [← hbytes]
    exact builder.le_max.trans (by decide)
  rw [hbytes, ← hrip] at hcode
  have hregion : ∀ x, within s.rip ((captureCode first second).flatMap Prod.snd ++
      exitBytes).length x = true → inUserPage x = true := by
    intro x hx
    rw [hrip, within_iff] at hx
    rw [inUserPage, within_iff]
    exact hx.trans_le hlen
  -- the straight part, for any fuel behind it
  have hrun := fun fuel => userRun_straight
    (userSyscall_transparent msrs kernels unknowns hpage) (captureCode first second) 0 (fuel + 1) s
    exitBytes (captureCode_decodes first second) (hlen.trans (by decide)) hcode hregion hready
  have hresults := follow_captureCode msrs kernels unknowns hready first second
  generalize follow (userSyscall layout msrs kernels unknowns) 0 s (captureCode first second) =
    atExit at hrun hresults
  have hexit : CodeAt atExit.mem atExit.rip [0xCD, usermodeExitInterruptVector] :=
    (codeAt_append.mp (hrun 0).2.1).1
  have hint : Decodes [0xCD, usermodeExitInterruptVector] (.int usermodeExitInterruptVector) :=
    ⟨by decide, fun _ => rfl⟩
  refine ⟨{ atExit with rip := atExit.rip + UInt64.ofNat 2 }, fun fuel => ?_, hresults⟩
  have hfuel : 15 + fuel = (captureCode first second).length + (fuel + 1) := by
    rw [show (captureCode first second).length = 14 from rfl]
    omega
  rw [hfuel, (hrun fuel).1, userRun, userStep_of_codeAt hexit hint]
  rfl

/-- What the kernel answers to a demo. -/
def demoReport (k : Kernel) : FastSyscallDemoKind → FastSyscallDemoReport
  | .successPath => ⟨.successPath, k.timer.ticks, syscallStatusOk, 42, syscallStatusOk⟩
  | .errorPath => ⟨.errorPath, userFastSyscallUnknownNumber.toUInt64, syscallStatusUnknownNumber, 0,
      syscallStatusOverflow⟩

theorem demoReport_passed (k : Kernel) (kind : FastSyscallDemoKind) :
    passed (demoReport k kind) = true := by
  cases kind <;> rfl

/-- The handler of `int 0x81` makes this report of the registers. -/
theorem userRun_demo (hpage : UserPageApart layout) {s : Cpu} (hready : FastReady layout s)
    (hrip : s.rip = userCodeStart) {kind : FastSyscallDemoKind} {code : List UInt8}
    (hdemo : Demo (some kind) code) (hcode : CodeAt s.mem userCodeStart code) :
    ∃ s', (∀ fuel, userRun (userSyscall layout msrs kernels unknowns) 0 (15 + fuel) s =
        .interrupt usermodeExitInterruptVector s') ∧
      demoReport (kernels 4) kind =
        ⟨kind, s'.regs .r8, s'.regs .r9, s'.regs .r10, s'.regs .r12⟩ := by
  cases hdemo with
  | success hbuild =>
    rcases userRun_capture msrs kernels unknowns hpage hready hrip hbuild hcode with
      ⟨s', hrun, hfirst, hsecond⟩
    -- the ticks, and the sum of 40 and 2
    have hticks : (s'.regs .r8, s'.regs .r9) = ((kernels 4).timer.ticks, syscallStatusOk) := hfirst
    have hsum : (s'.regs .r10, s'.regs .r12) = (42, syscallStatusOk) := hsecond
    rw [Prod.mk.injEq] at hticks hsum
    refine ⟨s', hrun, ?_⟩
    rw [hticks.1, hticks.2, hsum.1, hsum.2]
    rfl
  | error hbuild =>
    rcases userRun_capture msrs kernels unknowns hpage hready hrip hbuild hcode with
      ⟨s', hrun, hfirst, hsecond⟩
    -- no such call, and a sum that does not fit
    have hunknown : (s'.regs .r8, s'.regs .r9) =
        (userFastSyscallUnknownNumber.toUInt64, syscallStatusUnknownNumber) := hfirst
    have hoverflow : (s'.regs .r10, s'.regs .r12) = (0, syscallStatusOverflow) := hsecond
    rw [Prod.mk.injEq] at hunknown hoverflow
    refine ⟨s', hrun, ?_⟩
    rw [hunknown.1, hunknown.2, hoverflow.1, hoverflow.2]
    rfl

end

/-! ## The way back -/

/-- The frame that the stub of `int 0x81` hands to its handler. -/
def exitFrame (setup : InterruptSetup) (s : Cpu) : SyscallRegisters :=
  let saved := run (interruptEntry setup.rsp0 setup.kernelCs setup.handler s) interruptStubSave
  readFrame saved.mem (saved.regs .rdi)

theorem exitFrame_eq (setup : InterruptSetup) (s : Cpu) :
    exitFrame setup s = SyscallRegisters.ofRegs s.regs := by
  rcases interruptStubSave_spec
    (interruptEntry setup.rsp0 setup.kernelCs setup.handler s) (k := 0) (by decide) with
    ⟨hrdi, hframe⟩
  rw [words, List.append_nil] at hframe
  apply toWords_injective
  unfold exitFrame
  rw [toWords_readFrame, hrdi]
  exact hframe

/-- What the monitor prints when a session has come back with a report that is in order. -/
def returnText (report : FastSyscallDemoReport) : String :=
  "returned from ring3 via int 0x81; resuming monitor\n" ++ (reportLine report "ok" ++ "\n")

section

variable {boot : Boot}

variable (boot) in
/-- A report that is in order is told, and the loop is entered again. -/
theorem resume_ok {w : World} (h : w.Inv) {report : FastSyscallDemoReport}
    (hpassed : passed report = true) :
    (resumeMonitorAfterUsermodeExit boot).run { w with
        session := { exitExpected := false, pendingKind := none, lastReport := some report } } =
      .ok () (({ w with
        session := { exitExpected := false, pendingKind := none, lastReport := none } }.shown boot
          (returnText report)).entered boot) := by
  let w₁ : World := { w with
    session := { exitExpected := false, pendingKind := none, lastReport := some report } }
  let w₂ : World := { w with
    session := { exitExpected := false, pendingKind := none, lastReport := none } }
  let returned := "returned from ring3 via int 0x81; resuming monitor" ++ "\n"
  have h₁ : w₁.Inv := ⟨h.writer, h.history, h.cursor⟩
  have h₂ : w₂.Inv := ⟨h.writer, h.history, h.cursor⟩
  have hprint : (printReport boot (some report)).run (w₂.shown boot returned) =
      .ok () (w₂.shown boot (returnText report)) := by
    unfold printReport
    simp only
    rw [if_pos hpassed, consolePrintln_run (h₂.shown _), shown_shown h₂]
    rfl
  unfold resumeMonitorAfterUsermodeExit
  rw [run_bind_ok (consolePrintln_run h₁ _), run_get_bind, run_set_bind]
  change (printReport boot (some report) >>= _ : MonitorM Unit).run (w₂.shown boot returned) = _
  rw [run_bind_ok hprint, startInputLoop_run (h₂.shown _)]

variable (boot) in
/-- The handler finds the session open. -/
theorem exitSession_run {w : World} {kind : FastSyscallDemoKind}
    (hsession : w.session = { exitExpected := true, pendingKind := some kind, lastReport := none })
    {registers : SyscallRegisters} {report : FastSyscallDemoReport}
    (hreport : report = ⟨kind, registers.r8, registers.r9, registers.r10, registers.r12⟩) :
    handleExitInterruptFromRegisters w.session registers =
        (.resumed, { exitExpected := false, pendingKind := none, lastReport := some report }) ∧
      (exitSession boot registers).run w = (resumeMonitorAfterUsermodeExit boot).run { w with
        session := { exitExpected := false, pendingKind := none, lastReport := some report } } := by
  have hexit : handleExitInterruptFromRegisters w.session registers =
      (.resumed, { exitExpected := false, pendingKind := none, lastReport := some report }) := by
    rw [hsession, hreport]
    rfl
  refine ⟨hexit, ?_⟩
  unfold exitSession
  rw [run_get_bind, hexit]
  simp only
  rw [run_set_bind]

end

/-! ## A session over the serial port -/

section

variable {boot : Boot}

variable (boot) in
/-- A typed text leaves the context of ring 3 alone. -/
theorem pollSerial_typed {text : List UInt8} (htext : ∀ byte ∈ text, 0x20 ≤ byte ∧ byte ≤ 0x7E)
    (rest : List UInt8) {before : List UInt8} {s : Loop} (h : s.WellFormed)
    (hline : s.desk.editor = .typed (before.take inputLineMax)) :
    ∃ s₁, s₁.WellFormed ∧ s₁.desk.editor = .typed ((before ++ text).take inputLineMax) ∧
      s₁.world.userModeContext = s.world.userModeContext ∧
      (pollSerial boot (text ++ rest)).run s = (pollSerial boot rest).run s₁ := by
  induction text generalizing s before with
  | nil => exact ⟨s, h, by rw [List.append_nil]; exact hline, rfl, rfl⟩
  | cons byte text ih =>
    have hbyte := htext byte List.mem_cons_self
    have hevent : KeyEvent.char (byteChar byte) ≠ .enter := by simp
    rcases key_replies boot (interrupted_wellFormed h) byte hevent with ⟨s₁, hrun, hanswers⟩
    have hline₁ : s₁.desk.editor = .typed ((before ++ [byte]).take inputLineMax) := by
      rw [hanswers.desk]
      exact key_typed hline (Host.lt_of_printable hbyte) byte
    -- the rest of the text is typed behind this byte
    rcases ih (fun b hb => htext b (List.mem_cons_of_mem _ hb)) hanswers.wellFormed hline₁ with
      ⟨s₂, hwf₂, hline₂, hcontext, hrun₂⟩
    refine ⟨s₂, hwf₂, ?_, ?_, ?_⟩
    · rw [hline₂, List.append_assoc]
      rfl
    · rw [hcontext, hanswers.world]
      rfl
    · rw [List.cons_append, pollSerial_cons (serialByteToKeyEvent_printable hbyte),
        run_bind_ok hrun]
      exact hrun₂

/-- The bytes of the command. -/
def usermodeSyscallLine : List UInt8 := textBytes "usermode_syscall"

/-- With user memory the command leaves for ring 3. -/
theorem usermodeSyscall_stops {w : World} (h : w.Inv) {context : UserModeContext}
    (hcontext : w.userModeContext = some context) :
    ∃ w', (executeCommand boot "usermode_syscall").run w = .error (.ring3 context) w' ∧
      w'.session.pendingKind = some .successPath := by
  rcases buildFastSyscallCode_ok ⟨syscallGetTicks.toUInt32, 0, 0, 0⟩ ⟨syscallAdd.toUInt32, 40, 2, 0⟩
    with ⟨builder, hbuild, _⟩
  let message := "launching ring3 fast-syscall demo " ++
    "(success path: rax(value)/r10(status), then int 0x81 return)..."
  let w₁ := w.shown boot (message ++ "\n")
  let w₂ : World := { w₁ with
    session := { exitExpected := true, pendingKind := some .successPath, lastReport := none }
    userMem := writeDemoCode w₁.userMem builder.code }
  -- the program fits, so that it is built and the demo leaves
  have hdemo : runFastSyscallDemo.run w₁ = .error (.ring3 context) w₂ := by
    unfold runFastSyscallDemo runBuiltCode buildFastSyscallSuccessCode
    rw [hbuild]
    unfold runDemoCode
    simp only
    rw [run_get_bind]
    have hcontext₁ : w₁.userModeContext = some context := hcontext
    simp only [hcontext₁]
    rfl
  refine ⟨w₂, ?_, rfl⟩
  have hwords : splitWhitespace "usermode_syscall" = ["usermode_syscall"] := by decide
  unfold executeCommand
  rw [hwords]
  simp only
  rw [if_neg (by decide)]
  apply run_bind_error
  change (usermodeSyscallCommand boot).run w = _
  unfold usermodeSyscallCommand
  rw [run_bind_ok (consolePrintln_run h _)]
  exact run_bind_error hdemo

/-- The command in an empty line, with Enter. -/
theorem usermodeSyscall_round (hboot : boot.Successful) {s : InputLoop} (h : s.loop.WellFormed)
    (hline : s.loop.desk.editor = .typed []) (hroom : s.decodedEvents + 17 < 2 ^ 64)
    {context : UserModeContext} (hcontext : s.loop.world.userModeContext = some context) :
    ∃ s', (round boot [] (usermodeSyscallLine ++ [0x0D])).run s = .error (.ring3 context) s' ∧
      s'.loop.world.session.pendingKind = some .successPath := by
  have hprintable : ∀ byte ∈ usermodeSyscallLine, 0x20 ≤ byte ∧ byte ≤ 0x7E := by decide +kernel
  have hempty : s.loop.desk.editor = .typed (List.take inputLineMax []) := by
    rw [hline, List.take_nil]
  -- the text is typed into the empty line
  rcases pollSerial_typed boot hprintable [0x0D] h hempty with
    ⟨s₁, hwf₁, hline₁, hcontext₁, hrun₁⟩
  let s₂ : Loop := { s₁ with world := s₁.world.interrupted }
  have hwf₂ : s₂.WellFormed := interrupted_wellFormed hwf₁
  have htext : asciiText s₂.desk.editor.text = "usermode_syscall" := by
    change asciiText s₁.desk.editor.text = _
    rw [hline₁]
    decide +kernel
  -- Enter submits it, and the command leaves
  rcases enterKey_stops hboot hwf₂ htext fun history hhistory =>
      usermodeSyscall_stops (w := { s₂.world.shown boot "\n" with history })
        (Loop.call_inv boot hwf₂ hhistory) (hcontext₁.trans hcontext) with
    ⟨history, w, _, _, henter, hkind, _⟩
  have hpoll : (pollSerial boot (usermodeSyscallLine ++ [0x0D])).run s.loop =
      .error (.ring3 context) { s₂ with world := w, calls := s₂.calls ++ [s₂.call boot history] } := by
    rw [hrun₁, pollSerial_cons (show serialByteToKeyEvent 0x0D = some .enter from rfl)]
    exact run_bind_error henter
  have hcount : (serialEvents (usermodeSyscallLine ++ [0x0D])).length ≤ 17 := by decide +kernel
  rw [← drainSerial_loopOf (s := s) boot (by omega)] at hpoll
  -- the loop of the round does the same and counts the events
  cases hdrain : (drainSerial boot (usermodeSyscallLine ++ [0x0D])).run s with
  | ok left s' =>
    rw [hdrain] at hpoll
    cases hpoll
  | error stop s' =>
    rw [hdrain] at hpoll
    injection hpoll with hring3 hloop
    have hscancodes : (drainScancodes boot []).run s = .ok false s := rfl
    refine ⟨s', ?_, ?_⟩
    · unfold round
      rw [run_bind_ok hscancodes, if_neg (by decide), run_bind_error hdrain, hring3]
    · rw [hloop]
      exact hkind

end

/-- The statics of the fast path at 0x10000 and 0x20000. -/
def sampleLayout : FastSyscallLayout := ⟨0x10000, 0x20000, by decide, by decide, by decide⟩

theorem sampleLayout_apart : UserPageApart sampleLayout := by
  constructor <;> intro x hx <;> rw [inUserPage, within_iff] at hx <;>
    rw [← Bool.not_eq_true, within_iff] <;>
    simp only [userCodeStart, sampleLayout, UInt64.reduceToNat] at hx ⊢ <;> omega

/-! ## Runs -/

section

variable {boot : Boot} {access : Access} {w v : World}

theorem moves_context (h : ReflTransGen (World.Step boot access) w v) :
    v.userModeContext = w.userModeContext := by
  induction h with
  | refl => rfl
  | tail _ hstep ih =>
    rw [← ih]
    cases hstep <;> rfl

/-- The program of a report fits into the page. -/
theorem Demo.length_le {kind : FastSyscallDemoKind} {code : List UInt8} (h : Demo (some kind) code) :
    code.length ≤ userCodeMaxBytes := by
  cases h with
  | @success builder => exact builder.le_max
  | @error builder => exact builder.le_max

/-- **The self-test.** In every run of the monitor, whenever it leaves for ring 3 with a report to
come, by a command or by a task: the program in the user page makes its two calls and reaches
`int 0x81`, whatever the registers, the kernel's globals and what compiled code leaves behind; the
handler makes a report of them, the monitor prints it as `ok`, and the run goes on. -/
theorem sessions_report_ok (hboot : boot.Successful) (hw : Booted boot w) {s s' : InputLoop}
    (hs : InputLoop.Reachable boot (fun _ => True) w s) {scancodes bytes : List UInt8}
    {context : UserModeContext}
    (hring3 : (round boot scancodes bytes).run s = .error (.ring3 context) s')
    {kind : FastSyscallDemoKind} (hkind : s'.loop.world.session.pendingKind = some kind)
    {layout : FastSyscallLayout} (hpage : UserPageApart layout) {entry : Cpu}
    (hready : FastReady layout entry) (hrip : entry.rip = context.entry)
    (hmem : ∀ x, inUserPage x = true → entry.mem x = s'.loop.world.userMem x)
    (msrs : SyscallMsrs) (kernels : ℕ → Kernel) (unknowns : ℕ → Unknown) (setup : InterruptSetup) :
    ∃ atExit w', (∀ fuel, userRun (userSyscall layout msrs kernels unknowns) 0 (15 + fuel) entry =
        .interrupt usermodeExitInterruptVector atExit) ∧
      (exitSession boot (exitFrame setup atExit)).run s'.loop.world = .ok () w' ∧
      w'.serial = s'.loop.world.serial ++ returnText (demoReport (kernels 4) kind) ++ banner ∧
      InputLoop.Reachable boot (fun _ => True) w (InputLoop.fresh w') := by
  rcases run_moves hboot (within_all _) (fun _ _ => within_all _) hw.inv hs with ⟨hwf, hmoves⟩
  have hlaunched := ((launches_rule hboot).round scancodes bytes).of_error hwf hring3 context rfl
  have hadvances : Advances boot .all (round boot scancodes bytes) :=
    round_advances hboot (within_all _) scancodes bytes
  have hround := hadvances s hwf
  rw [hring3] at hround
  -- the page and the stack are those of boot
  have hcontext : context = ⟨userCodeStart, userStackTop⟩ := by
    have hsame := moves_context (hmoves.trans (hround.2.moves (within_all _) fun _ _ => within_all _))
    rw [hlaunched.context, hw.context] at hsame
    exact Option.some.inj hsame
  rcases hlaunched.started with ⟨kind', code, m, hdemo, hcode, hsession⟩
  have hsome : kind' = some kind := by rw [← hkind, hsession]
  subst hsome
  have hat : CodeAt entry.mem userCodeStart code := by
    have hlen := hdemo.length_le
    refine (codeAt_writeDemoCode m hlen).congr (hlen.trans (by decide)) fun x hx => ?_
    rw [hmem x ?_, hcode]
    rw [within_iff] at hx
    rw [inUserPage, within_iff]
    exact hx.trans_le (hlen.trans (by decide))
  rw [hcontext] at hrip
  rcases userRun_demo msrs kernels unknowns hpage hready hrip hdemo hat with
    ⟨atExit, hrun, hreport⟩
  have hframe : demoReport (kernels 4) kind = ⟨kind, (exitFrame setup atExit).r8,
      (exitFrame setup atExit).r9, (exitFrame setup atExit).r10, (exitFrame setup atExit).r12⟩ := by
    rw [exitFrame_eq]
    exact hreport
  rcases exitSession_run boot hsession hframe with ⟨hexit, hrest⟩
  have hresume := resume_ok boot hlaunched.toInv (demoReport_passed (kernels 4) kind)
  refine ⟨atExit, _, hrun, hrest.trans hresume, rfl, ?_⟩
  exact .resumed hs hring3 (fun _ _ => trivial) ⟨_, _, s'.loop.world.userMem, _, hexit, hresume, rfl⟩

end

/-- `usermode_syscall` over the serial port, and a processor that enters its program with fives in
all registers. -/
theorem sessions_report_ok_usermode_syscall :
    ∃ context s' entry atExit w',
      (round sampleBoot [] (usermodeSyscallLine ++ [0x0D])).run
        (InputLoop.fresh (sampleWorld.entered sampleBoot)) = .error (.ring3 context) s' ∧
      userRun (userSyscall sampleLayout ⟨0x9000, 0x700, 0x08, 0x10, 0x23, 0x1b⟩ (fun _ => s'.loop.world.kernel)
          (fun _ => ⟨fun _ => 7, 0, fun _ => 0xcc⟩)) 0 15 entry =
        .interrupt usermodeExitInterruptVector atExit ∧
      (exitSession sampleBoot (exitFrame ⟨0x30000, 0x08, 0x9000⟩ atExit)).run s'.loop.world =
        .ok () w' ∧
      w'.serial = s'.loop.world.serial ++
        returnText (demoReport s'.loop.world.kernel .successPath) ++ banner := by
  have hreach : InputLoop.Reachable sampleBoot (fun _ => True) sampleWorld
      (InputLoop.fresh (sampleWorld.entered sampleBoot)) :=
    .entered (startInputLoop_run sampleWorld_booted.inv)
  have hwf : (Loop.fresh (sampleWorld.entered sampleBoot)).WellFormed :=
    entered_wellFormed sampleWorld_booted.inv
  have hround := usermodeSyscall_round sampleBoot_successful
    (s := InputLoop.fresh (sampleWorld.entered sampleBoot)) hwf rfl (by decide) rfl
  rcases hround with ⟨s', hring3, hkind⟩
  let mem : Mem := fun x =>
    if inUserPage x then s'.loop.world.userMem x
    else setWord (fun _ => 0) sampleLayout.cpuLocal sampleLayout.kernelRsp x
  let entry : Cpu := ⟨fun _ => 5, userCodeStart, 0x202, 0x23, 0x1b, 0, sampleLayout.cpuLocal, mem⟩
  have hready : FastReady sampleLayout entry := by
    refine ⟨rfl, (word_congr fun x hx => if_neg ?_).trans (word_setWord _ _ _)⟩
    intro hin
    have hout := sampleLayout_apart.cpuLocal x hin
    rw [← Bool.not_eq_true, within_iff] at hout
    rw [within_iff] at hx
    omega
  have hreports := sessions_report_ok sampleBoot_successful sampleWorld_booted hreach hring3 hkind
    sampleLayout_apart hready rfl (fun x hx => if_pos hx) ⟨0x9000, 0x700, 0x08, 0x10, 0x23, 0x1b⟩
    (fun _ => s'.loop.world.kernel) (fun _ => ⟨fun _ => 7, 0, fun _ => 0xcc⟩)
    ⟨0x30000, 0x08, 0x9000⟩
  rcases hreports with ⟨atExit, w', hrun, hexit, hserial, _⟩
  exact ⟨_, s', entry, atExit, w', hring3, hrun 0, hexit, hserial⟩

end JingOS.Monitor
