import JingOS.Lib.Mealy
import JingOS.Monitor.Batch
import JingOS.Monitor.Serial

/-!
# The automatic scheduler

`taskauto on` has the input loop make a step of the scheduler from time to time. The loop calls
`maybe_run` whenever it comes by, which may be late or irregular, and the mode decides from the
tick of the call whether a step is due.

* `automatic` — the calls of the mode as a machine;
* `maybeRun_idles`, `maybeRun_stepsOnce` — what one call does;
* `Paced` — the tick of the next step, read off the calls made so far;
* `automatic_keeps_interval` — no step comes early, and none is made up for.
-/

namespace JingOS.Monitor

open Hoare Mealy
open JingOS.Task

/-! ## Calls -/

/-- `maybe_run` does not return at once. -/
def SchedulerAutoMode.due (auto : SchedulerAutoMode) (nowTick : UInt64) : Bool :=
  !(!auto.enabled || nowTick < auto.nextRunTick)

/-- What is called on the mode. In between the rest of the machine may have gone anywhere. -/
inductive AutoOp where
  | enable (intervalTicks nowTick : UInt64)
  | disable
  | maybeRun (nowTick : UInt64)
  | meanwhile (w : { w : World // w.Inv })

/-- The mode in its machine. The output is whether the call gets to a step of the scheduler. -/
def automatic (boot : Boot) : Mealy World AutoOp Bool where
  next w
    | .enable intervalTicks nowTick =>
      (false, { w with autoScheduler := .enable intervalTicks nowTick })
    | .disable => (false, { w with autoScheduler := w.autoScheduler.disable })
    | .maybeRun nowTick =>
      (w.autoScheduler.due nowTick, endState ((maybeRun boot nowTick).run w))
    | .meanwhile other => (false, { other.1 with autoScheduler := w.autoScheduler })

/-- The machine when the input loop starts. -/
def World.started (w : World) (startTicks : UInt64) : World :=
  { w with autoScheduler := .new startTicks }

/-- The next step is put off by the interval, counted from the tick of the call. -/
def World.putOff (w : World) (nowTick : UInt64) : World :=
  { w with autoScheduler := { w.autoScheduler with
    nextRunTick := U64.saturatingAdd nowTick w.autoScheduler.intervalTicks } }

/-- The call makes no step; it does nothing at all. -/
def Idles (boot : Boot) (nowTick : UInt64) (w : World) : Prop :=
  (maybeRun boot nowTick).run w = .ok () w

/-- The call sets the next tick and makes one step of the scheduler, with the payload of the task
if there is one. -/
def StepsOnce (boot : Boot) (nowTick : UInt64) (w : World) : Prop :=
  (maybeRun boot nowTick).run w =
      (runTaskStepWithLabelInternal boot "taskauto" false >>= fun _ => pure ()).run
        (w.putOff nowTick) ∧
    (endState ((maybeRun boot nowTick).run w)).tasks =
      (w.tasks.step w.interrupted.kernel.timer.ticks).2

section

variable {boot : Boot} {w : World} {nowTick : UInt64}

theorem due_iff {auto : SchedulerAutoMode} :
    auto.due nowTick = true ↔ auto.enabled = true ∧ auto.nextRunTick ≤ nowTick := by
  unfold SchedulerAutoMode.due
  rw [Bool.not_eq_true', Bool.or_eq_false_iff, Bool.not_eq_false', decide_eq_false_iff_not,
    UInt64.not_lt]

/-! ## One call -/

variable (boot) in
/-- A step of the scheduler leaves the table after it, whether it finds a task or not, and whether
the task comes back or not. -/
theorem runTaskStep_tasks (h : w.Inv) (label : String) :
    (endState ((runTaskStepWithLabelInternal boot label false).run w)).tasks =
      w.stepped.2.tasks := by
  cases hstep : w.stepped.1 with
  | none =>
    unfold runTaskStepWithLabelInternal
    rw [← bind_assoc, run_bind_ok (taskStep_run h), hstep]
    rfl
  | some report =>
    by_cases hstay : w.userModeContext = none ∨ entersRing3 report.kind = false
    · rcases round_returns boot h hstep hstay label false with ⟨w₁, hround, hturned⟩
      rw [hround]
      exact hturned.tasks
    · rw [not_or, Bool.not_eq_false] at hstay
      rcases hstay with ⟨hcontext, hkind⟩
      rcases Option.ne_none_iff_exists'.mp hcontext with ⟨context, hcontext⟩
      rcases round_leaves boot h hstep hkind hcontext label false with ⟨w₁, hround, htasks⟩
      rw [hround]
      exact htasks

instance : Apart World.autoScheduler := ⟨fun _ => rfl, fun _ _ => rfl, fun _ _ => rfl,
  fun _ _ => rfl, fun _ _ => rfl, fun _ _ _ => rfl⟩

variable (boot) in
/-- The step knows nothing of the mode. -/
theorem runTaskStep_auto (h : w.Inv) (label : String) :
    (endState ((runTaskStepWithLabelInternal boot label false).run w)).Inv ∧
      (endState ((runTaskStepWithLabelInternal boot label false).run w)).autoScheduler =
        w.autoScheduler := by
  have hsafe : Safe (Framed World.autoScheduler w.autoScheduler) (fun _ => True)
      (runTaskStepWithLabelInternal boot label false) := runTaskStep_safe (fun _ => trivial) _ _
  have hrun := hsafe w ⟨h, rfl⟩
  revert hrun
  cases (runTaskStepWithLabelInternal boot label false).run w with
  | ok ran w' => exact fun hrun => ⟨hrun.2.toInv, hrun.2.same⟩
  | error stop w' => exact fun hrun => ⟨hrun.2.toInv, hrun.2.same⟩

theorem endState_discard {α : Type} (x : MonitorM α) (w : World) :
    endState ((x >>= fun _ => pure ()).run w) = endState (x.run w) := by
  cases hrun : x.run w with
  | ok a w' =>
    rw [run_bind_ok hrun]
    rfl
  | error stop w' =>
    rw [run_bind_error hrun]
    rfl

variable (boot) in
/-- Before the time nothing is done. -/
theorem maybeRun_idles (hdue : w.autoScheduler.due nowTick = false) : Idles boot nowTick w := by
  have hguard : (!w.autoScheduler.enabled ||
      decide (nowTick < w.autoScheduler.nextRunTick)) = true := by
    rw [SchedulerAutoMode.due, Bool.not_eq_false'] at hdue
    exact hdue
  unfold Idles maybeRun
  rw [run_get_bind]
  simp only
  rw [if_pos hguard]
  rfl

variable (boot) in
/-- The code of a call that is due. -/
theorem maybeRun_run (hdue : w.autoScheduler.due nowTick = true) :
    (maybeRun boot nowTick).run w =
      (runTaskStepWithLabelInternal boot "taskauto" false >>= fun _ => pure ()).run
        (w.putOff nowTick) := by
  have hguard : ¬ (!w.autoScheduler.enabled ||
      decide (nowTick < w.autoScheduler.nextRunTick)) = true := by
    rw [SchedulerAutoMode.due, Bool.not_eq_true'] at hdue
    rw [hdue]
    exact Bool.false_ne_true
  unfold maybeRun
  rw [run_get_bind]
  simp only
  rw [if_neg hguard, run_set_bind]
  rfl

theorem putOff_inv (h : w.Inv) (nowTick : UInt64) : (w.putOff nowTick).Inv :=
  ⟨h.writer, h.history, h.cursor⟩

variable (boot) in
theorem maybeRun_stepsOnce (h : w.Inv) (hdue : w.autoScheduler.due nowTick = true) :
    StepsOnce boot nowTick w := by
  refine ⟨maybeRun_run boot hdue, ?_⟩
  rw [maybeRun_run boot hdue, endState_discard]
  exact runTaskStep_tasks boot (putOff_inv h nowTick) "taskauto"

variable (boot) in
/-- A call that is due moves the next tick and leaves the rest of the mode. -/
theorem maybeRun_auto (h : w.Inv) (hdue : w.autoScheduler.due nowTick = true) :
    (endState ((maybeRun boot nowTick).run w)).Inv ∧
      (endState ((maybeRun boot nowTick).run w)).autoScheduler =
        (w.putOff nowTick).autoScheduler := by
  rw [maybeRun_run boot hdue, endState_discard]
  exact runTaskStep_auto boot (putOff_inv h nowTick) "taskauto"

/-! ## All calls -/

/-- The event turns the mode on. -/
def isEnable : AutoOp × Bool → Bool
  | (.enable _ _, _) => true
  | _ => false

/-- The event sets the tick of the next step. -/
def setsNext : AutoOp × Bool → Bool
  | (.enable _ _, _) => true
  | (.maybeRun _, stepped) => stepped
  | _ => false

/-- The mode is what the last `enable` and the last step before it have made of it. -/
structure Paced (tr : List (AutoOp × Bool)) (w : World) : Prop where
  inv : w.Inv
  enabled : w.autoScheduler.enabled = true → ∃ pre i e, Since isEnable pre (.enable i e, false) tr
  interval : ∀ pre i e, Since isEnable pre (.enable i e, false) tr →
    w.autoScheduler.intervalTicks = i
  enabledAt : ∀ pre i e, Since setsNext pre (.enable i e, false) tr →
    w.autoScheduler.nextRunTick = U64.saturatingAdd e i
  steppedAt : ∀ pre t, Since setsNext pre (.maybeRun t, true) tr →
    w.autoScheduler.nextRunTick = U64.saturatingAdd t w.autoScheduler.intervalTicks

theorem paced_nil (h : w.Inv) (start : UInt64) : Paced [] (w.started start) where
  inv := ⟨h.writer, h.history, h.cursor⟩
  enabled henabled := by cases henabled
  interval _ _ _ hsince := (not_since_nil _ _ _ hsince).elim
  enabledAt _ _ _ hsince := (not_since_nil _ _ _ hsince).elim
  steppedAt _ _ hsince := (not_since_nil _ _ _ hsince).elim

variable {tr : List (AutoOp × Bool)} {w' : World}

/-- An event that sets nothing: at most it turns the mode off. -/
theorem Paced.quiet (h : Paced tr w) {event : AutoOp × Bool} (hevent : setsNext event = false)
    (hinv : w'.Inv) (henabled : w'.autoScheduler.enabled = true → w.autoScheduler.enabled = true)
    (hinterval : w'.autoScheduler.intervalTicks = w.autoScheduler.intervalTicks)
    (hnext : w'.autoScheduler.nextRunTick = w.autoScheduler.nextRunTick) :
    Paced (tr ++ [event]) w' := by
  have hnot : isEnable event = false := by
    rcases event with ⟨op, stepped⟩
    cases op with
    | enable i e => cases hevent
    | disable | maybeRun | meanwhile => rfl
  -- what is looked for sets something, so it is not the last event
  have hback : ∀ {ends : AutoOp × Bool → Bool} {pre e}, setsNext e = true →
      Since ends pre e (tr ++ [event]) → Since ends pre e tr := by
    intro ends pre e he hsince
    rcases since_append.mp hsince with ⟨_, rfl⟩ | ⟨_, hsince⟩
    · rw [hevent] at he
      cases he
    · exact hsince
  constructor
  · exact hinv
  · intro h'
    rcases h.enabled (henabled h') with ⟨pre, i, e, hsince⟩
    exact ⟨pre, i, e, since_append.mpr (.inr ⟨hnot, hsince⟩)⟩
  · intro pre i e hsince
    rw [hinterval]
    exact h.interval pre i e (hback rfl hsince)
  · intro pre i e hsince
    rw [hnext]
    exact h.enabledAt pre i e (hback rfl hsince)
  · intro pre t hsince
    rw [hnext, hinterval]
    exact h.steppedAt pre t (hback rfl hsince)

/-- The step of the invariant where the scheduler is switched on. -/
theorem Paced.enable (h : Paced tr w) (i e : UInt64) :
    Paced (tr ++ [(.enable i e, false)]) { w with autoScheduler := .enable i e } := by
  -- the event ends everything that was looked for before it
  have hlast : ∀ {ends : AutoOp × Bool → Bool} {pre event}, ends (.enable i e, false) = true →
      Since ends pre event (tr ++ [(.enable i e, false)]) → event = (.enable i e, false) := by
    intro ends pre event hends hsince
    rcases since_append.mp hsince with ⟨_, heq⟩ | ⟨hquiet, _⟩
    · exact heq
    · rw [hends] at hquiet
      cases hquiet
  constructor
  · exact ⟨h.inv.writer, h.inv.history, h.inv.cursor⟩
  · intro _
    exact ⟨tr, i, e, since_append.mpr (.inl ⟨rfl, rfl⟩)⟩
  · intro pre i' e' hsince
    cases hlast rfl hsince
    rfl
  · intro pre i' e' hsince
    cases hlast rfl hsince
    rfl
  · intro pre t hsince
    cases hlast rfl hsince

/-- The step where it runs. -/
theorem Paced.step (h : Paced tr w) {t : UInt64} (henabled : w.autoScheduler.enabled = true)
    (hinv : w'.Inv) (hauto : w'.autoScheduler = (w.putOff t).autoScheduler) :
    Paced (tr ++ [(.maybeRun t, true)]) w' := by
  have hinterval : w'.autoScheduler.intervalTicks = w.autoScheduler.intervalTicks := by
    rw [hauto]
    rfl
  constructor
  · exact hinv
  -- a step is no new `taskauto on`
  · intro _
    rcases h.enabled henabled with ⟨pre, i, e, hsince⟩
    exact ⟨pre, i, e, since_append.mpr (.inr ⟨rfl, hsince⟩)⟩
  -- and leaves the interval alone
  · intro pre i e hsince
    rcases since_append.mp hsince with ⟨_, heq⟩ | ⟨_, hsince⟩
    · cases heq
    · rw [hinterval]
      exact h.interval pre i e hsince
  · intro pre i e hsince
    rcases since_append.mp hsince with ⟨_, heq⟩ | ⟨hquiet, _⟩
    · cases heq
    · cases hquiet
  -- it is now the last step, and the next one is put off from it
  · intro pre t' hsince
    rcases since_append.mp hsince with ⟨_, heq⟩ | ⟨hquiet, _⟩
    · cases heq
      rw [hinterval, hauto]
      rfl
    · cases hquiet

/-- One call. -/
theorem Paced.next (h : Paced tr w) (op : AutoOp) :
    Paced (tr ++ [(op, ((automatic boot).next w op).1)]) ((automatic boot).next w op).2 := by
  cases op with
  | enable i e => exact h.enable i e
  | disable =>
    exact h.quiet rfl ⟨h.inv.writer, h.inv.history, h.inv.cursor⟩ (by intro h; cases h) rfl rfl
  | meanwhile other =>
    exact h.quiet rfl ⟨other.2.writer, other.2.history, other.2.cursor⟩ id rfl rfl
  | maybeRun now =>
    change Paced (tr ++ [(.maybeRun now, w.autoScheduler.due now)])
      (endState ((maybeRun boot now).run w))
    cases hdue : w.autoScheduler.due now with
    | false =>
      have hidle : (maybeRun boot now).run w = .ok () w := maybeRun_idles boot hdue
      rw [hidle]
      exact h.quiet rfl h.inv id rfl rfl
    | true =>
      rcases maybeRun_auto boot h.inv hdue with ⟨hinv, hauto⟩
      exact h.step (due_iff.mp hdue).1 hinv hauto

variable (boot) in
theorem paced_run (h : w.Inv) (start : UInt64) (ops : List AutoOp) :
    Paced ((automatic boot).trace (w.started start) ops)
      ((automatic boot).run (w.started start) ops) :=
  (automatic boot).run_trace_invariant Paced (fun _ _ op h => h.next op) (paced_nil h start) ops

variable (boot) in
/-- **The interval.** After any calls, a call of `maybe_run` makes a step exactly when the mode is
on and its tick has come; otherwise it does nothing. The step is not before the interval of the
last `enable` is over, counted from that `enable` if no step has been made since, and from the last
step otherwise. -/
theorem automatic_keeps_interval (hw : w.Inv) (start : UInt64) (ops : List AutoOp) (t : UInt64) :
    let tr := (automatic boot).trace (w.started start) ops
    let w' := (automatic boot).run (w.started start) ops
    let stepped := ((automatic boot).next w' (.maybeRun t)).1
    (stepped = true ↔ w'.autoScheduler.enabled = true ∧ w'.autoScheduler.nextRunTick ≤ t) ∧
    (stepped = false → Idles boot t w') ∧
    (stepped = true → StepsOnce boot t w' ∧
      ∃ pre i e, Since isEnable pre (.enable i e, false) tr ∧
        (Since setsNext pre (.enable i e, false) tr →
          min (e.toNat + i.toNat) (2 ^ 64 - 1) ≤ t.toNat) ∧
        ∀ pre₁ t₁, Since setsNext pre₁ (.maybeRun t₁, true) tr →
          min (t₁.toNat + i.toNat) (2 ^ 64 - 1) ≤ t.toNat) := by
  intro tr w' stepped
  have hpaced : Paced tr w' := paced_run boot hw start ops
  refine ⟨due_iff, fun hidle => maybeRun_idles boot hidle, ?_⟩
  intro hdue
  refine ⟨maybeRun_stepsOnce boot hpaced.inv hdue, ?_⟩
  -- a step was due: it was enabled, and its time has come
  rcases due_iff.mp hdue with ⟨henabled, hle⟩
  rcases hpaced.enabled henabled with ⟨pre, i, e, hsince⟩
  have hinterval : w'.autoScheduler.intervalTicks = i := hpaced.interval pre i e hsince
  rw [UInt64.le_iff_toNat_le] at hle
  refine ⟨pre, i, e, hsince, ?_, ?_⟩
  -- the first one after it was enabled
  · intro hsince
    rw [hpaced.enabledAt pre i e hsince, U64.toNat_saturatingAdd] at hle
    exact hle
  -- a later one
  · intro pre₁ t₁ hsince
    rw [hpaced.steppedAt pre₁ t₁ hsince, hinterval, U64.toNat_saturatingAdd] at hle
    exact hle

variable (boot) in
/-- The mode after its first step. -/
theorem first_step_auto (h : w.Inv) {i e t : UInt64}
    (hdue : (SchedulerAutoMode.enable i e).due t = true) :
    ((automatic boot).run w [.enable i e, .maybeRun t]).autoScheduler =
      { enabled := true, intervalTicks := i, nextRunTick := U64.saturatingAdd t i } := by
  have hinv : { w with autoScheduler := .enable i e : World }.Inv :=
    ⟨h.writer, h.history, h.cursor⟩
  exact (maybeRun_auto boot hinv hdue).2

end

/-- A call that is late by nine intervals makes one step. Nothing is made up for: the next one is an
interval later. -/
theorem automatic_keeps_interval_late :
    let w' := (automatic sampleBoot).run (sampleWorld.started 5) [.enable 10 5, .maybeRun 100]
    Idles sampleBoot 101 w' ∧ Idles sampleBoot 109 w' ∧ StepsOnce sampleBoot 110 w' := by
  have hauto := first_step_auto sampleBoot (paced_nil sampleWorld_booted.inv 5).inv
    (show (SchedulerAutoMode.enable 10 5).due 100 = true by decide)
  have hkeeps := automatic_keeps_interval sampleBoot sampleWorld_booted.inv 5
    [.enable 10 5, .maybeRun 100]
  intro w'
  have hidle : ∀ t, ¬ (110 : UInt64) ≤ t → Idles sampleBoot t w' := by
    intro t hlt
    apply (hkeeps t).2.1
    rw [← Bool.not_eq_true, (hkeeps t).1, hauto]
    exact fun hdue => hlt hdue.2
  refine ⟨hidle 101 (by decide), hidle 109 (by decide), ?_⟩
  have hstepped := (hkeeps 110).1
  rw [hauto] at hstepped
  exact ((hkeeps 110).2.2 (hstepped.mpr ⟨rfl, by decide⟩)).1

/-- An `enable` that is followed by another has no say: the first step after it comes before its
interval is over. -/
theorem enable_superseded :
    (automatic sampleBoot).trace (sampleWorld.started 0) [.enable 10 0, .enable 1 5, .maybeRun 6] =
        [(.enable 10 0, false), (.enable 1 5, false), (.maybeRun 6, true)] ∧
      StepsOnce sampleBoot 6
        ((automatic sampleBoot).run (sampleWorld.started 0) [.enable 10 0, .enable 1 5]) ∧
      ¬ min ((0 : UInt64).toNat + (10 : UInt64).toNat) (2 ^ 64 - 1) ≤ (6 : UInt64).toNat := by
  have hinv := (paced_run sampleBoot sampleWorld_booted.inv 0 [.enable 10 0, .enable 1 5]).inv
  exact ⟨rfl, maybeRun_stepsOnce sampleBoot hinv (by decide), by decide⟩

end JingOS.Monitor
