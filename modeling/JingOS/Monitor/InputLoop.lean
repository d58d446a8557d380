import JingOS.Monitor.Calls

/-!
# The whole of `input_loop` (`kernel/src/main.rs`)

One round takes the scancodes that `pop_scancode` returns until it returns none, then the bytes
that have come over the serial port, then gives the automatic scheduler its turn, and last looks
at the end of the input window. `exit_qemu` does not return, and neither does the monitor after
it: a round ends with an exit code or with `hlt`.

* `InputLoop`, `round` — the loop's variables and one round;
* `InputLoop.Reachable` — the states at `hlt` in whole runs, through ring 3 and back;
* `Advances` — what every part of a round does to the state the commands work on;
* `RoundRule` — what is kept by every part of a round is kept by the round.
-/

namespace JingOS.Monitor

open Ascii Checked Hoare Relation Text
open JingOS.Framebuffer JingOS.Keyboard JingOS.Task JingOS.Usermode

/-! ## The loop -/

/-- `QemuExitCode`. -/
inductive QemuExitCode where
  | success
  | failed
deriving DecidableEq, Repr

/-- What is written to the port of the exit device. -/
def QemuExitCode.code : QemuExitCode → UInt32
  | .success => 0x10
  | .failed => 0x11

/-- `INPUT_WINDOW_TICKS`. -/
def inputWindowTicks : UInt64 := 800

/-- The variables of `input_loop`. -/
structure InputLoop where
  loop : Loop
  decoder : KeyboardDecoder
  deadline : UInt64
  decodedEvents : ℕ

/-- The variables when the loop is entered, in the state that `startInputLoop` leaves. The start
tick is the one that the automatic scheduler was made with. -/
def InputLoop.fresh (world : World) : InputLoop :=
  { loop := Loop.fresh world, decoder := KeyboardDecoder.new,
    deadline := U64.saturatingAdd world.autoScheduler.nextRunTick inputWindowTicks,
    decodedEvents := 0 }

abbrev InputM := EStateM Stop InputLoop

/-- A program of the loop, run beside the decoder and the clock. -/
def inLoop {α : Type} (x : LoopM α) : InputM α := fun s =>
  match x s.loop with
  | .ok a loop => .ok a { s with loop }
  | .error stop loop => .error stop { s with loop }

/-- `decoder.feed(scancode)`. -/
def feedDecoder (scancode : UInt8) : InputM (Option KeyEvent) :=
  modifyGet fun s => ((s.decoder.feed scancode).1, { s with decoder := (s.decoder.feed scancode).2 })

variable (boot : Boot)

/-- What both inner loops do with an event: is the monitor to be left? -/
def handleEvent (raw : UInt8) (event : KeyEvent) : InputM Bool := do
  let s ← get
  let decodedEvents ← lift Stop.panic (add s.decodedEvents 1)
  modify fun s => { s with decodedEvents }
  let now ← inLoop (inWorld ticks)
  modify fun s => { s with deadline := U64.saturatingAdd now inputWindowTicks }
  inLoop (handleKeyEvent boot raw event)

/-- The inner loop over the scancodes. -/
def drainScancodes : List UInt8 → InputM Bool
  | [] => pure false
  | scancode :: rest => do
    let event ← feedDecoder scancode
    match event with
    | none => drainScancodes rest
    | some event => do
      let left ← handleEvent boot scancode event
      if left then pure true else drainScancodes rest

/-- The inner loop over the bytes of the serial port. -/
def drainSerial : List UInt8 → InputM Bool
  | [] => pure false
  | byte :: rest =>
    match serialByteToKeyEvent byte with
    | none => drainSerial rest
    | some event => do
      let left ← handleEvent boot byte event
      if left then pure true else drainSerial rest

/-- The last line before `exit_qemu`. -/
def exitMonitor (reason : String) : InputM (Option QemuExitCode) := do
  let (keyboardIrqs, dropped) ← inLoop (inWorld keyboardCounters)
  let s ← get
  inLoop (inWorld (consolePrintln boot
    s!"{reason}: keyboard_irqs={keyboardIrqs}, dropped={dropped}, decoded={s.decodedEvents}"))
  pure (some .success)

/-- The end of a round: the automatic scheduler, and the end of the window. -/
def afterInput : InputM (Option QemuExitCode) := do
  let nowTick ← inLoop (inWorld ticks)
  inLoop (inWorld (maybeRun boot nowTick))
  let s ← get
  -- the tick is the one from before the automatic scheduler
  if s.deadline ≤ nowTick then exitMonitor boot "Input window ended" else pure none

/-- One round of the outer loop; `none` is `hlt`. -/
def round (scancodes bytes : List UInt8) : InputM (Option QemuExitCode) := do
  let left ← drainScancodes boot scancodes
  if left then exitMonitor boot "Exiting monitor"
  else do
    let left ← drainSerial boot bytes
    if left then exitMonitor boot "Exiting monitor" else afterInput boot

/-- The states at `hlt` in the runs from `w`, in which only `allowed` texts are submitted. Ring 3
comes back to a fresh loop. -/
inductive InputLoop.Reachable (allowed : String → Prop) (w : World) : InputLoop → Prop where
  | entered {w' : World} (hrun : (startInputLoop boot).run w = .ok () w') :
      Reachable allowed w (InputLoop.fresh w')
  | round {s s' : InputLoop} (h : Reachable allowed w s) {scancodes bytes : List UInt8}
      (hrun : (round boot scancodes bytes).run s = .ok none s')
      (hcalls : ∀ call ∈ s'.loop.calls, allowed call.text) : Reachable allowed w s'
  | resumed {s s' : InputLoop} {w' : World} (h : Reachable allowed w s)
      {scancodes bytes : List UInt8} {context : UserModeContext}
      (hring3 : (Monitor.round boot scancodes bytes).run s = .error (.ring3 context) s')
      (hcalls : ∀ call ∈ s'.loop.calls, allowed call.text)
      (hresumes : Resumes boot s'.loop.world (Loop.fresh w')) :
      Reachable allowed w (InputLoop.fresh w')

/-! ## What a round does to the state -/

section

variable {boot : Boot} {access : Access}

/-- `Leaves` for a program with the variables of `input_loop`, from every well-formed loop. -/
def Advances (boot : Boot) (access : Access) {α : Type} (x : InputM α) : Prop :=
  ∀ s : InputLoop, s.loop.WellFormed →
    match x.run s with
    | .ok _ s' => s'.loop.WellFormed ∧ Leads boot access s.loop s'.loop
    | .error _ s' => s'.loop.world.Inv ∧ Leads boot access s.loop s'.loop

theorem Advances.pure {α : Type} (a : α) : Advances boot access (pure a : InputM α) :=
  fun s hs => ⟨hs, Leads.refl s.loop⟩

/-- One program after the other. -/
theorem Advances.bind {α β : Type} {x : InputM α} {f : α → InputM β}
    (hx : Advances boot access x) (hf : ∀ a, Advances boot access (f a)) :
    Advances boot access (x >>= f) := by
  intro s hs
  have hstep := hx s hs
  cases hrun : x.run s with
  | error stop s' =>
    rw [hrun] at hstep
    rw [run_bind_error hrun]
    exact hstep
  | ok a s' =>
    rw [hrun] at hstep
    rw [run_bind_ok hrun]
    have hrest := hf a s' hstep.1
    revert hrest
    cases (f a).run s' with
    | ok b s'' => exact fun hrest => ⟨hrest.1, hstep.2.trans hrest.2⟩
    | error stop s'' => exact fun hrest => ⟨hrest.1, hstep.2.trans hrest.2⟩

/-- The loop's own variables are no part of the state that the commands work on. -/
theorem Advances.modify {f : InputLoop → InputLoop} (h : ∀ s, (f s).loop = s.loop) :
    Advances boot access (modify f : InputM PUnit) := by
  intro s hs
  change (f s).loop.WellFormed ∧ Leads boot access s.loop (f s).loop
  rw [h]
  exact ⟨hs, Leads.refl s.loop⟩

theorem Advances.modifyGet {α : Type} {f : InputLoop → α × InputLoop}
    (h : ∀ s, (f s).2.loop = s.loop) :
    Advances boot access (modifyGet f : InputM α) := by
  intro s hs
  change (f s).2.loop.WellFormed ∧ Leads boot access s.loop (f s).2.loop
  rw [h]
  exact ⟨hs, Leads.refl s.loop⟩

theorem Advances.get {α : Type} {f : InputLoop → InputM α}
    (hf : ∀ s, Advances boot access (f s)) :
    Advances boot access (get >>= f) := fun s hs => hf s s hs

theorem Advances.lift {α : Type} (x : Checked α) :
    Advances boot access (lift Stop.panic x : InputM α) := by
  cases x with
  | ok a => exact Advances.pure a
  | error panic => exact fun s hs => ⟨hs.world, Leads.refl s.loop⟩

theorem Advances.inLoop {α : Type} {x : LoopM α}
    (h : ∀ s : Loop, s.WellFormed → Leaves boot access s (x.run s)) :
    Advances boot access (inLoop x) := by
  intro s hs
  have hx : Leaves boot access s.loop (x s.loop) := h s.loop hs
  change match Monitor.inLoop x s with
    | .ok _ s' => s'.loop.WellFormed ∧ Leads boot access s.loop s'.loop
    | .error _ s' => s'.loop.world.Inv ∧ Leads boot access s.loop s'.loop
  unfold Monitor.inLoop
  revert hx
  cases x s.loop with
  | ok a s' => exact id
  | error stop s' => exact id

end

/-! ## A rule for rounds -/

/-- What the parts of a round have to keep for the round to keep it. With `P n` there is room for
`n` more events. -/
structure RoundRule (boot : Boot) (P : ℕ → InputLoop → Prop) (E : Stop → InputLoop → Prop) :
    Prop where
  fewer : ∀ {n m : ℕ} {s : InputLoop}, m ≤ n → P n s → P m s
  decoder : ∀ {n : ℕ} {s : InputLoop} (decoder : KeyboardDecoder), P n s → P n { s with decoder }
  counted : ∀ {n decodedEvents : ℕ} {s : InputLoop}, P (n + 1) s →
    add s.decodedEvents 1 = .ok decodedEvents → P n { s with decodedEvents }
  uncounted : ∀ {n : ℕ} {s : InputLoop} {panic : Panic}, P (n + 1) s →
    add s.decodedEvents 1 = .error panic → E (.panic panic) s
  deadline : ∀ {n : ℕ} {s : InputLoop} (deadline : UInt64), P n s → P n { s with deadline }
  key : ∀ (n : ℕ) (raw : UInt8) (event : KeyEvent),
    Triple (P n) (inLoop (handleKeyEvent boot raw event)) (fun _ => P n) E
  returns : ∀ {α : Type} {x : MonitorM α} (n : ℕ),
    (∀ history, Safe (Framed World.history history) Never x) →
    Triple (P n) (inLoop (inWorld x)) (fun _ => P n) E
  auto : ∀ (n : ℕ) (now : UInt64),
    Triple (P n) (inLoop (inWorld (maybeRun boot now))) (fun _ => P n) E

namespace RoundRule

variable {boot : Boot} {P : ℕ → InputLoop → Prop} {E : Stop → InputLoop → Prop} {n : ℕ}

theorem handleEvent (h : RoundRule boot P E) (raw : UInt8) (event : KeyEvent) :
    Triple (P (n + 1)) (handleEvent boot raw event) (fun _ => P n) E := by
  refine Triple.get fun s hs => ?_
  have hcount : Triple (· = s) (lift Stop.panic (add s.decodedEvents 1) : InputM ℕ)
      (fun decodedEvents s' => P n { s' with decodedEvents }) E := by
    intro s' hs'
    subst hs'
    cases hadd : add s'.decodedEvents 1 with
    | ok decodedEvents => exact h.counted hs hadd
    | error panic => exact h.uncounted hs hadd
  refine hcount.bind fun decodedEvents => ?_
  refine Triple.bind (Q := fun _ => P n) (Triple.modify fun _ hs => hs) fun _ => ?_
  refine (h.returns n fun _ => ticks_safe).bind fun now => ?_
  exact Triple.bind (Q := fun _ => P n) (Triple.modify fun _ hs => h.deadline _ hs) fun _ =>
    h.key n raw event

/-- The rule for the scancodes of a look, from that for one event. -/
theorem drainScancodes (h : RoundRule boot P E) (scancodes : List UInt8) :
    Triple (P (n + scancodes.length)) (drainScancodes boot scancodes) (fun _ => P n) E := by
  induction scancodes with
  | nil => exact Triple.pure fun _ hs => hs
  | cons scancode rest ih =>
    rw [List.length_cons, ← Nat.add_assoc]
    have hfeed : Triple (P (n + rest.length + 1)) (feedDecoder scancode)
        (fun _ => P (n + rest.length + 1)) E := Triple.modifyGet fun _ hs => h.decoder _ hs
    refine hfeed.bind fun event => ?_
    cases event with
    | none => exact ih.mono (fun _ hs => h.fewer (Nat.le_succ _) hs) fun _ _ => id
    | some event =>
      refine (h.handleEvent scancode event).bind fun left => ?_
      split
      · exact Triple.pure fun _ hs => h.fewer (Nat.le_add_right _ _) hs
      · exact ih

/-- The rule for the bytes of a look. -/
theorem drainSerial (h : RoundRule boot P E) (bytes : List UInt8) :
    Triple (P (n + bytes.length)) (drainSerial boot bytes) (fun _ => P n) E := by
  induction bytes with
  | nil => exact Triple.pure fun _ hs => hs
  | cons byte rest ih =>
    rw [List.length_cons, ← Nat.add_assoc]
    unfold Monitor.drainSerial
    split
    · exact ih.mono (fun _ hs => h.fewer (Nat.le_succ _) hs) fun _ _ => id
    · next event _ =>
      refine (h.handleEvent byte event).bind fun left => ?_
      split
      · exact Triple.pure fun _ hs => h.fewer (Nat.le_add_right _ _) hs
      · exact ih

theorem exitMonitor (h : RoundRule boot P E) (reason : String) :
    Triple (P n) (exitMonitor boot reason) (fun _ => P n) E := by
  refine (h.returns n fun _ => keyboardCounters_safe).bind fun _ => Triple.get fun s hs => ?_
  refine Triple.mono (P := P n) ?_ (fun s' hs' => by rw [hs']; exact hs) fun _ _ => id
  exact (h.returns n fun _ => println_safe _).bind fun _ => Triple.pure fun _ hs => hs

theorem afterInput (h : RoundRule boot P E) :
    Triple (P n) (afterInput boot) (fun _ => P n) E := by
  refine (h.returns n fun _ => ticks_safe).bind fun now => ?_
  refine (h.auto n now).bind fun _ => Triple.get fun s hs => ?_
  refine Triple.mono (P := P n) ?_ (fun s' hs' => by rw [hs']; exact hs) fun _ _ => id
  split
  · exact h.exitMonitor _
  · exact Triple.pure fun _ hs => hs

/-- **Step.** A round decodes no more events than it has scancodes and bytes. -/
theorem round (h : RoundRule boot P E) (scancodes bytes : List UInt8) :
    Triple (P (bytes.length + scancodes.length)) (round boot scancodes bytes) (fun _ => P 0) E := by
  refine (h.drainScancodes scancodes).bind fun left => ?_
  split
  · exact (h.exitMonitor _).mono (fun _ hs => h.fewer (Nat.zero_le _) hs) fun _ _ => id
  · have hserial : Triple (P (0 + bytes.length)) (Monitor.drainSerial boot bytes) (fun _ => P 0) E :=
      h.drainSerial bytes
    rw [Nat.zero_add] at hserial
    refine hserial.bind fun left => ?_
    split
    · exact h.exitMonitor _
    · exact h.afterInput

end RoundRule

end JingOS.Monitor
