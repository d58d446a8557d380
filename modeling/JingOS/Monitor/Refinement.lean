import JingOS.Monitor.InputLoop

/-!
# The monitor drives the scheduler

The table in the monitor is a table of the scheduler's own machine, for whole runs: whatever is
typed, however often the automatic scheduler runs and control goes to ring 3 and comes back.

* `round_advances` — a round of `input_loop` is a sequence of atomic changes;
* `Scheduled` — between two states the scheduler was called, at ticks that do not go back as
  long as the counter does not wrap around;
* `run_moves` — and so is a run.
-/

namespace JingOS.Monitor

open Ascii Checked Hoare Relation Text
open JingOS.Framebuffer JingOS.Interrupts JingOS.Keyboard JingOS.Memory JingOS.Syscall JingOS.Task
open JingOS.Usermode

section

variable {boot : Boot} {access : Access} {w v u : World} {s : Loop}

/-! ## Around the commands -/

theorem maybeRun_moves (h : loopAccess.Within access) (now : UInt64) :
    Moves (World.Step boot access) (maybeRun boot now) := by
  refine Moves.get fun w => ?_
  simp only
  split
  · exact .refl
  · refine (MovesFrom.set (.auto (h.auto rfl) w _)).bind fun _ w' _ => ?_
    exact Moves.bind (runTaskStep_moves (h.tasks rfl) (h.session rfl) _ _) (fun _ => Moves.pure _) w'

variable (boot) in
theorem startInputLoop_moves (h : loopAccess.Within access) :
    Moves (World.Step boot access) (startInputLoop boot) := by
  refine ticks_moves.bind fun startTicks => Moves.bind (fun w => ?_) fun _ => ?_
  · -- the two assignments are two changes
    apply ReflTransGen.head (.history (h.history rfl) w _ fun _ => CommandHistory.new_inv)
    exact .single (.auto (h.auto rfl) _ _)
  · refine (println_moves _).bind fun _ => (println_moves _).bind fun _ => ?_
    exact (println_moves _).bind fun _ => consolePrint_moves _

theorem printReport_moves (report : Option FastSyscallDemoReport) :
    Moves (World.Step boot access) (printReport boot report) := by
  unfold printReport
  split
  · exact Moves.pure _
  · split
    · exact println_moves _
    · exact (println_moves _).bind fun _ => println_moves _

variable (boot) in
theorem resume_moves (h : loopAccess.Within access) :
    Moves (World.Step boot access) (resumeMonitorAfterUsermodeExit boot) := by
  refine (println_moves _).bind fun _ => Moves.get fun w => ?_
  refine (MovesFrom.set (.session (h.session rfl) w _ _)).bind fun _ w' _ => ?_
  exact Moves.bind (printReport_moves _) (fun _ => startInputLoop_moves boot h) w'

/-! ## A round -/

/-- A program of the commands that leaves the history alone. -/
theorem inWorld_advances {α : Type} {x : MonitorM α} (hmoves : Moves (World.Step boot access) x)
    (hkeeps : ∀ history, Safe (Framed World.history history) (fun _ => True) x) :
    Advances boot access (inLoop (inWorld x)) := by
  refine Advances.inLoop fun s hs => ?_
  have hsafe := hkeeps s.world.history
  cases hrun : x.run s.world with
  | ok a w =>
    rcases hsafe.of_ok ⟨hs.world, rfl⟩ hrun with ⟨_, hinv, hsame⟩
    rw [inWorld_ok hrun]
    refine ⟨⟨hinv, ?_, hs.line⟩, Leads.world rfl ((hmoves s.world).at_ok hrun)⟩
    change w.history.WellFormed
    rw [hsame]
    exact hs.history
  | error stop w =>
    rcases hsafe.of_error ⟨hs.world, rfl⟩ hrun with ⟨_, hinv, _⟩
    rw [inWorld_error hrun]
    exact ⟨hinv, Leads.world rfl ((hmoves s.world).at_error hrun)⟩

theorem ticks_advances : Advances boot access (inLoop (inWorld ticks)) :=
  inWorld_advances ticks_moves fun _ => ticks_safe

theorem handleKeyEvent_advances (hboot : boot.Successful) (haccess : access.history) (raw : UInt8)
    (event : KeyEvent) : Advances boot access (inLoop (handleKeyEvent boot raw event)) :=
  Advances.inLoop fun _ hs => handleKeyEvent_leads hboot haccess raw event hs

theorem handleEvent_advances (hboot : boot.Successful) (haccess : access.history) (raw : UInt8)
    (event : KeyEvent) : Advances boot access (handleEvent boot raw event) := by
  refine Advances.get fun s => (Advances.lift _).bind fun decodedEvents => ?_
  refine Advances.bind ?_ fun _ => ticks_advances.bind fun now => Advances.bind ?_ fun _ => ?_
  · exact Advances.modify fun _ => rfl
  · exact Advances.modify fun _ => rfl
  · exact handleKeyEvent_advances hboot haccess raw event

theorem drainScancodes_advances (hboot : boot.Successful) (haccess : access.history)
    (scancodes : List UInt8) : Advances boot access (drainScancodes boot scancodes) := by
  induction scancodes with
  | nil => exact Advances.pure _
  | cons scancode rest ih =>
    have hfeed : Advances boot access (feedDecoder scancode) :=
      Advances.modifyGet fun _ => rfl
    refine hfeed.bind fun event => ?_
    cases event with
    | none => exact ih
    | some event =>
      refine (handleEvent_advances hboot haccess scancode event).bind fun left => ?_
      split
      · exact Advances.pure _
      · exact ih

theorem drainSerial_advances (hboot : boot.Successful) (haccess : access.history)
    (bytes : List UInt8) : Advances boot access (drainSerial boot bytes) := by
  induction bytes with
  | nil => exact Advances.pure _
  | cons byte rest ih =>
    unfold drainSerial
    split
    · exact ih
    · next event _ =>
      refine (handleEvent_advances hboot haccess byte event).bind fun left => ?_
      split
      · exact Advances.pure _
      · exact ih

theorem exitMonitor_advances (reason : String) :
    Advances boot access (exitMonitor boot reason) := by
  refine (inWorld_advances keyboardCounters_moves fun _ => keyboardCounters_safe).bind fun _ => ?_
  refine Advances.get fun s => ?_
  exact (inWorld_advances (println_moves _) fun _ => println_safe _).bind fun _ => Advances.pure _

theorem afterInput_advances (hloop : loopAccess.Within access) :
    Advances boot access (afterInput boot) := by
  refine ticks_advances.bind fun now => ?_
  refine (inWorld_advances (maybeRun_moves hloop now) fun history => maybeRun_keeps now history).bind
    fun _ => Advances.get fun s => ?_
  split
  · exact exitMonitor_advances _
  · exact Advances.pure _

theorem round_advances (hboot : boot.Successful) (hloop : loopAccess.Within access)
    (scancodes bytes : List UInt8) : Advances boot access (round boot scancodes bytes) := by
  refine (drainScancodes_advances hboot (hloop.history rfl) scancodes).bind fun left => ?_
  split
  · exact exitMonitor_advances _
  · refine (drainSerial_advances hboot (hloop.history rfl) bytes).bind fun left => ?_
    split
    · exact exitMonitor_advances _
    · exact afterInput_advances hloop

/-! ## Runs -/

theorem within_self (access : Access) : access.Within access := ⟨id, id, id, id, id, id, id⟩

/-- A whole run is a sequence of atomic changes. -/
theorem run_moves (hboot : boot.Successful) (hloop : loopAccess.Within access)
    (hallowed : ∀ text, allowed text → (accessOfLine text).Within access) (hw : w.Inv)
    {s : InputLoop} (hs : InputLoop.Reachable boot allowed w s) :
    s.loop.WellFormed ∧ ReflTransGen (World.Step boot access) w s.loop.world := by
  have hself := within_self loopAccess
  induction hs with
  | @entered w' hrun =>
    have hmoves := (startInputLoop_moves boot hloop w).at_ok hrun
    rw [startInputLoop_run hw] at hrun
    cases hrun
    exact ⟨entered_wellFormed hw, hmoves⟩
  | @round s s' _ scancodes bytes hrun hcalls ih =>
    have hround := round_advances hboot hself scancodes bytes s ih.1
    rw [hrun] at hround
    have hmoves := Leads.moves hloop (fun call hcall => hallowed _ (hcalls call hcall)) hround.2
    exact ⟨hround.1, ih.2.trans hmoves⟩
  | @resumed s s' w' _ scancodes bytes context hring3 hcalls hresumes ih =>
    -- up to the stop the round has done what a round does
    have hround := round_advances hboot hself scancodes bytes s ih.1
    rw [hring3] at hround
    have hmoves := Leads.moves hloop (fun call hcall => hallowed _ (hcalls call hcall)) hround.2
    have hwf : (Loop.fresh w').WellFormed := by
      rcases hresumes.entered hround.1 with ⟨w₁, h₁, heq⟩
      rw [heq]
      exact entered_wellFormed h₁
    rcases hresumes with ⟨registers, session, userMem, w₂, _, hrun, heq⟩
    have hsame : w' = w₂ := congrArg Loop.world heq
    subst hsame
    -- the program in ring 3 has the session and its own memory
    have hsession : World.Step boot access s'.loop.world { s'.loop.world with session, userMem } :=
      .session (hloop.session rfl) _ _ _
    have hresume := (resume_moves boot hloop _).at_ok hrun
    exact ⟨hwf, (ih.2.trans hmoves).trans (.head hsession hresume)⟩

/-! ## The scheduler in the monitor -/

/-- The counter of timer interrupts never wraps around. -/
def NoWrap (w : World) : Prop :=
  ∀ n, w.kernel.timer.ticks.toNat + ((List.range n).map fun i => (w.arrivals i).timer).sum < 2 ^ 64

/-- Between the two states the scheduler was called, after boot's own call, and at ticks in the
order of time. -/
structure Scheduled (w w' : World) (ops : List Op) : Prop where
  tasks : w'.tasks = scheduler.run w.tasks ops
  noInit : ∀ op ∈ ops, op ≠ .init
  sorted : NoWrap w → TicksSorted ops
  since : NoWrap w → ∀ now ∈ ops.filterMap Op.tick?, w.kernel.timer.ticks ≤ now
  upTo : NoWrap w → ∀ now ∈ ops.filterMap Op.tick?, now ≤ w'.kernel.timer.ticks
  noWrap : NoWrap w → NoWrap w'
  clock : NoWrap w → w.kernel.timer.ticks ≤ w'.kernel.timer.ticks

theorem interrupted_ticks (h : NoWrap w) :
    w.interrupted.kernel.timer.ticks.toNat =
      w.kernel.timer.ticks.toNat + (w.arrivals 0).timer := by
  have hone := h 1
  simp only [List.range_one, List.map_cons, List.map_nil, List.sum_cons, List.sum_nil] at hone
  change (w.kernel.timer.ticks + UInt64.ofNat (w.arrivals 0).timer).toNat = _
  rw [UInt64.toNat_add, UInt64.toNat_ofNat', Nat.mod_eq_of_lt (a := (w.arrivals 0).timer) (by omega)]
  exact Nat.mod_eq_of_lt (by omega)

theorem NoWrap.interrupted (h : NoWrap w) : NoWrap w.interrupted := by
  intro n
  have hnext := h (n + 1)
  rw [List.range_succ_eq_map, List.map_cons, List.sum_cons, List.map_map] at hnext
  rw [interrupted_ticks h, Nat.add_assoc]
  exact hnext

theorem Scheduled.refl (w : World) : Scheduled w w [] where
  tasks := rfl
  noInit := by simp
  sorted _ := List.Pairwise.nil
  since := by simp
  upTo := by simp
  noWrap h := h
  clock _ := UInt64.le_refl _

theorem Scheduled.trans {ops ops' : List Op} (h : Scheduled w v ops) (h' : Scheduled v u ops') :
    Scheduled w u (ops ++ ops') where
  tasks := by rw [Mealy.run_append, ← h.tasks, h'.tasks]
  noInit op hop := (List.mem_append.mp hop).elim (h.noInit op) (h'.noInit op)
  sorted hw := by
    unfold TicksSorted
    rw [List.filterMap_append, List.pairwise_append]
    refine ⟨h.sorted hw, h'.sorted (h.noWrap hw), fun now hnow later hlater => ?_⟩
    -- the tick in between separates the two parts
    exact UInt64.le_trans (h.upTo hw now hnow) (h'.since (h.noWrap hw) later hlater)
  since hw now hnow := by
    rw [List.filterMap_append, List.mem_append] at hnow
    rcases hnow with hnow | hnow
    · exact h.since hw now hnow
    · exact UInt64.le_trans (h.clock hw) (h'.since (h.noWrap hw) now hnow)
  upTo hw now hnow := by
    rw [List.filterMap_append, List.mem_append] at hnow
    rcases hnow with hnow | hnow
    · exact UInt64.le_trans (h.upTo hw now hnow) (h'.clock (h.noWrap hw))
    · exact h'.upTo (h.noWrap hw) now hnow
  noWrap hw := h'.noWrap (h.noWrap hw)
  clock hw := UInt64.le_trans (h.clock hw) (h'.clock (h.noWrap hw))

/-- A change that leaves table and clock alone. -/
theorem Scheduled.idle (htasks : v.tasks = w.tasks)
    (hticks : v.kernel.timer.ticks = w.kernel.timer.ticks) (harrivals : v.arrivals = w.arrivals) :
    Scheduled w v [] where
  tasks := htasks
  noInit := by simp
  sorted _ := List.Pairwise.nil
  since := by simp
  upTo := by simp
  noWrap h := by
    unfold NoWrap
    rw [hticks, harrivals]
    exact h
  clock _ := by
    rw [hticks]
    exact UInt64.le_refl _

/-- **Step.** A step of a command is some calls of the scheduler, or none. -/
theorem Scheduled.step (h : World.Step boot access w v) : ∃ ops, Scheduled w v ops := by
  cases h with
  | look =>
    refine ⟨[], rfl, by simp, fun _ => List.Pairwise.nil, by simp, by simp, NoWrap.interrupted, ?_⟩
    intro hw
    rw [UInt64.le_iff_toNat_le, interrupted_ticks hw]
    exact Nat.le_add_right _ _
  | calls _ _ op hinit hnow =>
    -- the one call of the step, at the tick of now
    have hmem : ∀ now, now ∈ [op].filterMap Op.tick? → now = w.kernel.timer.ticks := by
      intro now hmem
      rw [List.mem_filterMap] at hmem
      rcases hmem with ⟨_, hop, htick⟩
      rw [List.mem_singleton.mp hop] at htick
      exact hnow now htick
    refine ⟨[op], rfl, by simpa using hinit, ?_, ?_, ?_, fun h => h, fun _ => UInt64.le_refl _⟩
    · intro _
      unfold TicksSorted
      cases htick : op.tick? <;> simp [htick]
    · intro _ now hnow
      rw [hmem now hnow]
      exact UInt64.le_refl _
    · intro _ now hnow
      rw [hmem now hnow]
      exact UInt64.le_refl _
  | shows => exact ⟨[], Scheduled.idle rfl rfl rfl⟩
  | sends => exact ⟨[], Scheduled.idle rfl rfl rfl⟩
  | draws => exact ⟨[], Scheduled.idle rfl rfl rfl⟩
  | clears => exact ⟨[], Scheduled.idle rfl rfl rfl⟩
  | rate _ _ requestedHz => exact ⟨[], Scheduled.idle rfl rfl rfl⟩
  | auto => exact ⟨[], Scheduled.idle rfl rfl rfl⟩
  | session => exact ⟨[], Scheduled.idle rfl rfl rfl⟩
  | history => exact ⟨[], Scheduled.idle rfl rfl rfl⟩

theorem Scheduled.moves (h : ReflTransGen (World.Step boot access) w v) :
    ∃ ops, Scheduled w v ops := by
  induction h with
  | refl => exact ⟨[], Scheduled.refl w⟩
  | tail _ hlast ih =>
    rcases ih with ⟨ops, hops⟩
    rcases Scheduled.step hlast with ⟨ops', hops'⟩
    exact ⟨ops ++ ops', hops.trans hops'⟩

theorem bootstrapped_run (ops : List Op) :
    scheduler.run bootstrapped ops = scheduler.run TaskTable.new (.init :: ops) := rfl

end

end JingOS.Monitor
