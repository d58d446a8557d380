import JingOS.Monitor.Survival

/-!
# The reports of ring-3 sessions

Three globals go with a session: whether an exit is expected, the kind of the session, and the
report that its exit leaves for the monitor. They are written by `run_demo_code`, by the handler
of `int 0x81` and by `take_last_fast_syscall_report`, which may come in any order: a session can
be started anew, an exit can be repeated or stray, nobody need take a report.

* `OpenFor`, `Waiting` — read off the history of calls alone: which session is open, which
  report is there to be taken;
* `matches_step` — the globals always say the same;
* `reports_exact` — no report is lost, taken twice, or credited to another session.
-/

namespace JingOS.Monitor

open Hoare
open JingOS.Syscall JingOS.Usermode

/-! ## The calls -/

/-- `take_last_fast_syscall_report`. -/
def takeLastFastSyscallReport : MonitorM (Option FastSyscallDemoReport) := do
  let w ← get
  set { w with session := { w.session with lastReport := none } }
  pure w.session.lastReport

/-- The handler of `int 0x81` up to the place where the monitor is resumed. -/
def handleExit (registers : SyscallRegisters) : MonitorM Exit := do
  let w ← get
  let (exit, session) := handleExitInterruptFromRegisters w.session registers
  set { w with session }
  pure exit

/-- An event of a session. A start finds the user memory as it is at the time, initialised
(`context`) or not. -/
inductive SessionOp where
  | start (code : List UInt8) (kind : Option FastSyscallDemoKind)
      (context : Option UserModeContext)
  | exit (registers : SyscallRegisters)
  | take
deriving DecidableEq, Repr

/-- What a step of a session gives back. -/
inductive SessionReply where
  /-- Ring 3 was entered. -/
  | entered
  | failed (message : String)
  | exit (exit : Exit)
  | taken (report : Option FastSyscallDemoReport)
deriving DecidableEq, Repr

/-- One event on the state of the kernel. -/
def sessionStep (w : World) : SessionOp → SessionReply × World
  | .start code kind context =>
    match (runDemoCode code kind).run { w with userModeContext := context } with
    | .ok (.ok ()) w => (.failed "returned unexpectedly", w)
    | .ok (.error message) w => (.failed message, w)
    | .error _ w => (.entered, w)
  | .exit registers =>
    match (handleExit registers).run w with
    | .ok exit w => (.exit exit, w)
    | .error _ w => (.exit .ignored, w)
  | .take =>
    match takeLastFastSyscallReport.run w with
    | .ok report w => (.taken report, w)
    | .error _ w => (.taken none, w)

/-- Runs are arbitrary interleavings of the events. -/
def sessions : Mealy World SessionOp SessionReply := ⟨sessionStep⟩

@[simp] theorem sessions_next (w : World) (op : SessionOp) : sessions.next w op = sessionStep w op :=
  rfl

/-- What the events do, without the programs. -/
theorem sessionStep_start (w : World) (code : List UInt8) (kind : Option FastSyscallDemoKind)
    (context : UserModeContext) :
    (sessionStep w (.start code kind (some context))).1 = .entered ∧
      (sessionStep w (.start code kind (some context))).2.session =
        { exitExpected := true, pendingKind := kind, lastReport := none } := ⟨rfl, rfl⟩

theorem sessionStep_failed (w : World) (code : List UInt8) (kind : Option FastSyscallDemoKind) :
    sessionStep w (.start code kind none) =
      (.failed "user mode memory not initialized", { w with userModeContext := none }) := rfl

theorem sessionStep_exit (w : World) (registers : SyscallRegisters) :
    sessionStep w (.exit registers) =
      (.exit (handleExitInterruptFromRegisters w.session registers).1,
        { w with session := (handleExitInterruptFromRegisters w.session registers).2 }) := rfl

theorem sessionStep_take (w : World) :
    sessionStep w .take = (.taken w.session.lastReport,
      { w with session := { w.session with lastReport := none } }) := rfl

/-! ## The history of calls -/

/-- A step and its reply. -/
abbrev SessionEvent := SessionOp × SessionReply

/-- A session was started. -/
def startsSession : SessionEvent → Bool
  | (.start _ _ _, .entered) => true
  | _ => false

/-- A later start or any `int 0x81` ends a session. -/
def endsSession (e : SessionEvent) : Bool :=
  startsSession e ||
    match e with
    | (.exit _, _) => true
    | _ => false

/-- A later start, a later end of a session, or a taker: the report is not there any more. -/
def endsReport (e : SessionEvent) : Bool :=
  startsSession e ||
    match e with
    | (.exit _, .exit .resumed) => true
    | (.take, _) => true
    | _ => false

/-- The session last started, of the given kind, is still open. -/
def OpenFor (tr : List SessionEvent) (kind : Option FastSyscallDemoKind) : Prop :=
  ∃ pre code context, Mealy.Since endsSession pre (.start code kind context, .entered) tr

/-- The report of a session of the given kind that ends with these registers. -/
def sessionReport (kind : FastSyscallDemoKind) (registers : SyscallRegisters) : FastSyscallDemoReport :=
  { kind, call0Value := registers.r8, call0Status := registers.r9,
    call1Value := registers.r10, call1Status := registers.r12 }

/-- An `int 0x81` has closed a session with a kind, and its report is still there. -/
def Waiting (tr : List SessionEvent) (report : FastSyscallDemoReport) : Prop :=
  ∃ pre registers kind, Mealy.Since endsReport pre (.exit registers, .exit .resumed) tr ∧
    OpenFor pre (some kind) ∧ report = sessionReport kind registers

section Append

variable {tr : List SessionEvent} {e : SessionEvent} {kind : Option FastSyscallDemoKind}
  {report : FastSyscallDemoReport}

theorem openFor_append_quiet (h : endsSession e = false) : OpenFor (tr ++ [e]) kind ↔ OpenFor tr kind := by
  unfold OpenFor
  constructor
  · rintro ⟨pre, code, context, hsince⟩
    rcases Mealy.since_append.mp hsince with ⟨-, rfl⟩ | ⟨-, hsince⟩
    · cases h
    · exact ⟨pre, code, context, hsince⟩
  · rintro ⟨pre, code, context, hsince⟩
    exact ⟨pre, code, context, Mealy.since_append.mpr (Or.inr ⟨h, hsince⟩)⟩

theorem openFor_append_start {code : List UInt8} {started : Option FastSyscallDemoKind}
    {context : Option UserModeContext} :
    OpenFor (tr ++ [(.start code started context, .entered)]) kind ↔ started = kind := by
  constructor
  · rintro ⟨pre, code', context', hsince⟩
    rcases Mealy.since_append.mp hsince with ⟨-, heq⟩ | ⟨hquiet, -⟩
    · simp only [Prod.mk.injEq, SessionOp.start.injEq] at heq
      exact heq.1.2.1.symm
    · cases hquiet
  · rintro rfl
    exact ⟨tr, code, context, Mealy.since_append.mpr (Or.inl ⟨rfl, rfl⟩)⟩

theorem not_openFor_append_exit {registers : SyscallRegisters} {reply : SessionReply} :
    ¬ OpenFor (tr ++ [(.exit registers, reply)]) kind := by
  rintro ⟨pre, code, context, hsince⟩
  rcases Mealy.since_append.mp hsince with ⟨-, heq⟩ | ⟨hquiet, -⟩
  · simp at heq
  · simp [endsSession] at hquiet

theorem waiting_append_quiet (h : endsReport e = false) : Waiting (tr ++ [e]) report ↔ Waiting tr report := by
  unfold Waiting
  constructor
  · rintro ⟨pre, registers, kind, hsince, hrest⟩
    rcases Mealy.since_append.mp hsince with ⟨-, rfl⟩ | ⟨-, hsince⟩
    · cases h
    · exact ⟨pre, registers, kind, hsince, hrest⟩
  · rintro ⟨pre, registers, kind, hsince, hrest⟩
    exact ⟨pre, registers, kind, Mealy.since_append.mpr (Or.inr ⟨h, hsince⟩), hrest⟩

/-- An event that ends a report and is no end of a session leaves none. -/
theorem not_waiting_append (h : endsReport e = true)
    (hexit : ∀ registers, e ≠ (.exit registers, .exit .resumed)) : ¬ Waiting (tr ++ [e]) report := by
  rintro ⟨pre, registers, kind, hsince, -⟩
  rcases Mealy.since_append.mp hsince with ⟨-, heq⟩ | ⟨hquiet, -⟩
  · exact hexit registers heq.symm
  · rw [h] at hquiet
    cases hquiet

theorem waiting_append_exit {registers : SyscallRegisters} :
    Waiting (tr ++ [(.exit registers, .exit .resumed)]) report ↔
      ∃ kind, OpenFor tr (some kind) ∧ report = sessionReport kind registers := by
  constructor
  · rintro ⟨pre, registers', kind, hsince, hopen, hreport⟩
    rcases Mealy.since_append.mp hsince with ⟨rfl, heq⟩ | ⟨hquiet, -⟩
    · simp only [Prod.mk.injEq, SessionOp.exit.injEq, and_true] at heq
      rw [heq] at hreport
      exact ⟨kind, hopen, hreport⟩
    · cases hquiet
  · rintro ⟨kind, hopen, hreport⟩
    exact ⟨tr, registers, kind, Mealy.since_append.mpr (Or.inl ⟨rfl, rfl⟩), hopen, hreport⟩

end Append

/-! ## The globals and the history -/

/-- The globals say what the history says. -/
structure Matches (tr : List SessionEvent) (session : Session) : Prop where
  openFor : ∀ kind, OpenFor tr kind ↔ session.exitExpected = true ∧ session.pendingKind = kind
  waiting : ∀ report, Waiting tr report ↔ session.lastReport = some report

theorem handleExit_ignored {session : Session} (h : session.exitExpected = false)
    (registers : SyscallRegisters) :
    handleExitInterruptFromRegisters session registers = (.ignored, session) := by
  simp [handleExitInterruptFromRegisters, h]

theorem handleExit_resumed {session : Session} (h : session.exitExpected = true)
    (registers : SyscallRegisters) :
    handleExitInterruptFromRegisters session registers =
      (.resumed, { exitExpected := false, pendingKind := none,
                   lastReport := session.pendingKind.map (sessionReport · registers) }) := by
  simp only [handleExitInterruptFromRegisters, h, Bool.not_true, if_false, Bool.false_eq_true]
  rfl

/-- **Step.** One more event, and the globals still agree with the history. -/
theorem matches_step (tr : List SessionEvent) (w : World) (op : SessionOp)
    (h : Matches tr w.session) :
    Matches (tr ++ [(op, (sessionStep w op).1)]) (sessionStep w op).2.session := by
  cases op with
  | start code kind context =>
    cases context with
    -- a start that failed changes nothing, and is none
    | none =>
      rw [sessionStep_failed]
      constructor
      · intro kind'
        rw [openFor_append_quiet rfl]
        exact h.openFor kind'
      · intro report
        rw [waiting_append_quiet rfl]
        exact h.waiting report
    | some context =>
      -- a session is open now, and an older report is gone
      rcases sessionStep_start w code kind context with ⟨hreply, hsession⟩
      rw [hreply, hsession]
      constructor
      · intro kind'
        rw [openFor_append_start]
        simp
      · intro report
        refine iff_of_false (not_waiting_append rfl (by simp)) (by simp)
  | exit registers =>
    rw [sessionStep_exit]
    cases hexpected : w.session.exitExpected with
    -- no exit is waited for: no session was open
    | false =>
      rw [handleExit_ignored hexpected]
      constructor
      · intro kind
        refine iff_of_false not_openFor_append_exit ?_
        simp [hexpected]
      · intro report
        rw [waiting_append_quiet rfl]
        exact h.waiting report
    | true =>
      -- the session is closed, and its report waits
      rw [handleExit_resumed hexpected]
      constructor
      · intro kind
        exact iff_of_false not_openFor_append_exit (by simp)
      · intro report
        simp only [waiting_append_exit, h.openFor, hexpected, true_and, Option.map_eq_some_iff]
        constructor
        · rintro ⟨kind, hkind, rfl⟩
          exact ⟨kind, hkind, rfl⟩
        · rintro ⟨kind, hkind, rfl⟩
          exact ⟨kind, hkind, rfl⟩
  | take =>
    -- the report is taken, if there is one
    rw [sessionStep_take]
    constructor
    · intro kind
      rw [openFor_append_quiet rfl]
      exact h.openFor kind
    · intro report
      exact iff_of_false (not_waiting_append rfl (by simp)) (by simp)

/-- The kernel before the first session: the globals as they are declared. -/
def World.beforeSessions (w : World) : World :=
  { w with session := { exitExpected := false, pendingKind := none, lastReport := none } }

/-- **Run.** The globals agree with the history of any run. -/
theorem matches_run (w : World) (ops : List SessionOp) :
    Matches (sessions.trace w.beforeSessions ops) (sessions.run w.beforeSessions ops).session := by
  refine sessions.run_trace_invariant (fun tr w => Matches tr w.session) matches_step ?_ ops
  constructor
  · intro kind
    refine iff_of_false ?_ (by simp [World.beforeSessions])
    rintro ⟨pre, code, context, hsince⟩
    exact Mealy.not_since_nil _ _ _ hsince
  · intro report
    refine iff_of_false ?_ (by simp [World.beforeSessions])
    rintro ⟨pre, registers, kind, hsince, -⟩
    exact Mealy.not_since_nil _ _ _ hsince

/-- What a taker gets is the report that the history has waiting. -/
theorem waiting_of_taken {w : World} {ops : List SessionOp} {pre post : List SessionEvent}
    {report : FastSyscallDemoReport}
    (h : sessions.trace w.beforeSessions ops = pre ++ (.take, .taken (some report)) :: post) :
    Waiting pre report := by
  rcases sessions.trace_split h with ⟨before, after, -, rfl, hreply⟩
  rw [sessions_next, sessionStep_take] at hreply
  exact ((matches_run w before).waiting report).mpr (SessionReply.taken.inj hreply)

/-- **Reports.** After any events, in any order:
a start with initialised memory enters ring 3 and opens the session of its kind, with no report
there to be taken; a start that fails changes nothing; an `int 0x81` without an open session
changes nothing and does not resume the monitor; the first one of a session closes it and leaves a
report exactly when the session has a kind, of that kind and with the registers of that interrupt;
a taker gets what is waiting, and leaves nothing. So what is taken is the report of a session that was closed with
no start, taker or other end of a session since then, and between two takers that get a report
another session has ended. -/
theorem reports_exact (w₀ : World) (ops : List SessionOp) :
    let tr := sessions.trace w₀.beforeSessions ops
    let w := sessions.run w₀.beforeSessions ops
    (∀ code kind context, (sessionStep w (.start code kind (some context))).1 = .entered ∧
      (sessionStep w (.start code kind (some context))).2.session =
        { exitExpected := true, pendingKind := kind, lastReport := none } ∧
      (∀ kind', OpenFor (tr ++ [(.start code kind (some context), .entered)]) kind' ↔
        kind' = kind) ∧
      ∀ report, ¬ Waiting (tr ++ [(.start code kind (some context), .entered)]) report) ∧
    ((¬ ∃ kind, OpenFor tr kind) → ∀ registers,
      sessionStep w (.exit registers) = (.exit .ignored, w)) ∧
    (∀ kind, OpenFor tr kind → ∀ registers,
      (sessionStep w (.exit registers)).1 = .exit .resumed ∧
      (sessionStep w (.exit registers)).2.session =
        { exitExpected := false, pendingKind := none,
          lastReport := kind.map (sessionReport · registers) }) ∧
    (∀ code kind, sessionStep w (.start code kind none) =
      (.failed "user mode memory not initialized", { w with userModeContext := none })) ∧
    (∀ report, (sessionStep w .take).1 = .taken (some report) ↔ Waiting tr report) ∧
    (sessionStep w .take).2.session = { w.session with lastReport := none } ∧
    (∀ pre post report, tr = pre ++ (.take, .taken (some report)) :: post → Waiting pre report) ∧
    ∀ pre mid post report report',
      tr = pre ++ (.take, .taken (some report)) ::
        (mid ++ (.take, .taken (some report')) :: post) →
      ∃ registers, (.exit registers, .exit .resumed) ∈ mid := by
  intro tr w
  have hmatches : Matches tr w.session := matches_run w₀ ops
  refine ⟨?_, ?_, ?_, fun code kind => sessionStep_failed w code kind, ?_, rfl,
    fun pre post report => waiting_of_taken, ?_⟩
  -- a start: the session is the one of that kind
  · intro code kind context
    rcases sessionStep_start w code kind context with ⟨hreply, hsession⟩
    refine ⟨hreply, hsession, fun kind' => openFor_append_start.trans eq_comm, fun report => ?_⟩
    exact not_waiting_append rfl (by simp)
  -- no session is open, so that the interrupt is ignored
  · intro hclosed registers
    have hexpected : w.session.exitExpected = false := by
      rw [Bool.eq_false_iff]
      intro hexpected
      exact hclosed ⟨_, (hmatches.openFor _).mpr ⟨hexpected, rfl⟩⟩
    rw [sessionStep_exit, handleExit_ignored hexpected]
  -- one is open: its report is made of these registers
  · intro kind hopen registers
    rcases (hmatches.openFor kind).mp hopen with ⟨hexpected, rfl⟩
    rw [sessionStep_exit, handleExit_resumed hexpected]
    exact ⟨rfl, rfl⟩
  · intro report
    rw [hmatches.waiting, sessionStep_take]
    simp
  -- between two reports that were taken there was an exit
  · intro pre mid post report report' htr
    have hsplit : tr = (pre ++ (.take, .taken (some report)) :: mid) ++
        (.take, .taken (some report')) :: post := by
      rw [htr]
      simp
    rcases waiting_of_taken hsplit with ⟨pre', registers, kind, hsince, -, -⟩
    exact ⟨registers, Mealy.since_mem hsince rfl (by simp)⟩

/-- The registers at the end of a session in which the first call has returned 7 and the second has
failed. -/
def failedRegisters : SyscallRegisters :=
  { rax := 0, rbx := 0, rcx := 0, rdx := 0, rsi := 0, rdi := 0, rbp := 0, r8 := 7, r9 := 0, r10 := 0,
    r11 := 0, r12 := 1, r13 := 0, r14 := 0, r15 := 0 }

/-- A start of the error path, with user memory. -/
def failedStart : SessionOp := .start [] (some .errorPath) (some ⟨userCodeStart, userStackTop⟩)

/-- A session, a stray `int 0x81` behind it, and the taker: it gets the report of the session. -/
theorem reports_exact_session :
    sessions.trace sampleWorld.beforeSessions
        [failedStart, .exit failedRegisters, .exit failedRegisters] =
      [(failedStart, .entered), (.exit failedRegisters, .exit .resumed),
        (.exit failedRegisters, .exit .ignored)] ∧
    (sessionStep (sessions.run sampleWorld.beforeSessions
        [failedStart, .exit failedRegisters, .exit failedRegisters]) .take).1 =
      .taken (some ⟨.errorPath, 7, 0, 0, 1⟩) := by
  have htrace : sessions.trace sampleWorld.beforeSessions
      [failedStart, .exit failedRegisters, .exit failedRegisters] =
      [(failedStart, .entered), (.exit failedRegisters, .exit .resumed),
        (.exit failedRegisters, .exit .ignored)] := rfl
  refine ⟨htrace, ?_⟩
  have htaken := (reports_exact sampleWorld
    [failedStart, .exit failedRegisters, .exit failedRegisters]).2.2.2.2.1
      ⟨.errorPath, 7, 0, 0, 1⟩
  refine htaken.mpr ?_
  rw [htrace]
  refine ⟨[(failedStart, .entered)], failedRegisters, .errorPath,
    ⟨[(.exit failedRegisters, .exit .ignored)], rfl, by simp [endsReport, startsSession]⟩, ?_, rfl⟩
  exact ⟨[], [], some ⟨userCodeStart, userStackTop⟩, [], rfl, by simp⟩

end JingOS.Monitor
