import JingOS.Keyboard.Layout
import JingOS.Monitor.Automatic
import JingOS.Monitor.Refinement

/-!
# The input window

`input_loop` ends when no key event has come for 800 ticks. Every event puts the deadline off,
and a round looks at it last, with the tick that it read before the automatic scheduler.

* `handleEvent_ok` — an event is counted, and the deadline is 800 ticks after it;
* `reachable_timely` — the deadline over whole runs;
* `idle_monitor_ends` — the end of the window.
-/

namespace JingOS.Monitor

open Ascii Checked Hoare Relation Text
open JingOS.Framebuffer JingOS.Keyboard JingOS.Task JingOS.Usermode

section

variable {boot : Boot} {s s' : InputLoop}

/-! ## One event -/

/-- The variables of `input_loop` itself are the same in both states. -/
structure SameVariables (s s' : InputLoop) : Prop where
  decoder : s'.decoder = s.decoder
  deadline : s'.deadline = s.deadline
  decodedEvents : s'.decodedEvents = s.decodedEvents

/-- A program of the loop leaves them alone. -/
theorem inLoop_ok {α : Type} {x : LoopM α} {a : α} (hrun : (inLoop x).run s = .ok a s') :
    x.run s.loop = .ok a s'.loop ∧ SameVariables s s' := by
  change inLoop x s = .ok a s' at hrun
  unfold inLoop at hrun
  change x s.loop = _ ∧ _
  cases hx : x s.loop with
  | ok b loop =>
    rw [hx] at hrun
    cases hrun
    exact ⟨rfl, rfl, rfl, rfl⟩
  | error stop loop =>
    rw [hx] at hrun
    cases hrun

theorem inLoop_run {α : Type} {x : LoopM α} {a : α} {loop : Loop} (hrun : x.run s.loop = .ok a loop) :
    (inLoop x).run s = .ok a { s with loop } := by
  change inLoop x s = _
  unfold inLoop
  rw [show x s.loop = .ok a loop from hrun]

/-- The tick of the next look. -/
def InputLoop.now (s : InputLoop) : UInt64 := s.loop.world.interrupted.kernel.timer.ticks

theorem inLoop_ticks_run (s : InputLoop) :
    (inLoop (inWorld ticks)).run s =
      .ok s.now { s with loop := { s.loop with world := s.loop.world.interrupted } } := rfl

/-- The variables when an event is handed on: it is counted, and the deadline is set by a look. -/
def InputLoop.counted (s : InputLoop) : InputLoop where
  loop := { s.loop with world := s.loop.world.interrupted }
  decoder := s.decoder
  deadline := U64.saturatingAdd s.now inputWindowTicks
  decodedEvents := s.decodedEvents + 1

theorem counted_deadline (s : InputLoop) :
    s.counted.deadline = U64.saturatingAdd s.now inputWindowTicks := by
  rw [InputLoop.counted]

theorem counted_ticks (s : InputLoop) : s.counted.loop.world.kernel.timer.ticks = s.now := rfl

theorem handleEvent_run (h : s.decodedEvents + 1 < 2 ^ 64) (raw : UInt8) (event : KeyEvent) :
    (handleEvent boot raw event).run s = (inLoop (handleKeyEvent boot raw event)).run s.counted := by
  unfold handleEvent
  rw [run_get_bind, run_lift_bind (add_eq h)]
  rfl

theorem handleEvent_ok {raw : UInt8} {event : KeyEvent} {left : Bool}
    (hrun : (handleEvent boot raw event).run s = .ok left s') : SameVariables s.counted s' := by
  by_cases h : s.decodedEvents + 1 < 2 ^ 64
  · rw [handleEvent_run h] at hrun
    exact (inLoop_ok hrun).2
  · -- the counter does not wrap around
    unfold handleEvent add at hrun
    rw [run_get_bind, if_neg h] at hrun
    cases hrun

/-! ## What is decoded -/

/-- The key events among the bytes of the serial port. -/
def serialEvents (bytes : List UInt8) : List KeyEvent := bytes.filterMap serialByteToKeyEvent

/-- Where the monitor goes on, all scancodes have gone through the decoder, and each event counts.
-/
theorem drainScancodes_ok {scancodes : List UInt8}
    (hrun : (drainScancodes boot scancodes).run s = .ok false s') :
    s'.decoder = decoder.run s.decoder scancodes ∧
      s'.decodedEvents = s.decodedEvents + (events s.decoder scancodes).length := by
  induction scancodes generalizing s with
  | nil =>
    cases hrun
    exact ⟨rfl, rfl⟩
  | cons scancode rest ih =>
    unfold drainScancodes at hrun
    rcases of_run_bind_ok hrun with ⟨event, s₁, hfeed, hrun⟩
    cases hfeed
    rw [Mealy.run_cons, decoder_next, events_cons]
    cases hevent : (s.decoder.feed scancode).1 with
    | none =>
      simp only [hevent] at hrun
      rcases ih hrun with ⟨hdecoder, hcount⟩
      exact ⟨hdecoder, hcount⟩
    | some event =>
      simp only [hevent] at hrun
      rcases of_run_bind_ok hrun with ⟨left, s₂, hhandle, hrun⟩
      rcases handleEvent_ok hhandle with ⟨hdecoder₂, _, hcount₂⟩
      -- the loop was left, which it has not been
      cases left with
      | true => cases hrun
      | false =>
        rcases ih hrun with ⟨hdecoder, hcount⟩
        rw [show s₂.decoder = (s.decoder.feed scancode).2 from hdecoder₂] at hdecoder hcount
        refine ⟨hdecoder, ?_⟩
        rw [hcount, hcount₂, List.length_append, Option.toList_some, List.length_singleton]
        exact Nat.add_assoc _ _ _

/-- The serial port's bytes count in the same way, and the decoder does not see them. -/
theorem drainSerial_ok {bytes : List UInt8}
    (hrun : (drainSerial boot bytes).run s = .ok false s') :
    s'.decoder = s.decoder ∧
      s'.decodedEvents = s.decodedEvents + (serialEvents bytes).length := by
  induction bytes generalizing s with
  | nil =>
    cases hrun
    exact ⟨rfl, rfl⟩
  | cons byte rest ih =>
    unfold drainSerial at hrun
    unfold serialEvents
    rw [List.filterMap_cons]
    cases hevent : serialByteToKeyEvent byte with
    | none =>
      simp only [hevent] at hrun
      exact ih hrun
    | some event =>
      simp only [hevent] at hrun
      rcases of_run_bind_ok hrun with ⟨left, s₂, hhandle, hrun⟩
      rcases handleEvent_ok hhandle with ⟨hdecoder₂, _, hcount₂⟩
      cases left with
      | true => cases hrun
      | false =>
        rcases ih hrun with ⟨hdecoder, hcount⟩
        refine ⟨hdecoder.trans hdecoder₂, ?_⟩
        rw [hcount, hcount₂, List.length_cons]
        change s.decodedEvents + 1 + (serialEvents rest).length =
          s.decodedEvents + ((serialEvents rest).length + 1)
        omega

/-! ## Rounds -/

/-- The input of a round: scancodes, and bytes of the serial port. -/
abbrev Input := List UInt8 × List UInt8

/-- Rounds, up to the first that ends the monitor. -/
def rounds (boot : Boot) : List Input → InputM (Option QemuExitCode)
  | [] => pure none
  | input :: rest => do
    let code ← round boot input.1 input.2
    match code with
    | some code => pure (some code)
    | none => rounds boot rest

/-- The exit code of the guest is the one of a success. -/
theorem exitMonitor_ok {reason : String} {code : Option QemuExitCode}
    (hrun : (exitMonitor boot reason).run s = .ok code s') : code = some .success := by
  unfold exitMonitor at hrun
  rcases of_run_bind_ok hrun with ⟨counters, s₁, _, hrest⟩
  rcases of_run_bind_ok hrest with ⟨_, s₂, _, hprint⟩
  rcases of_run_bind_ok hprint with ⟨_, s₃, _, hpure⟩
  cases hpure
  rfl

/-- The end of a round that goes on: its look was before the deadline. -/
theorem afterInput_goes_on (hrun : (afterInput boot).run s = .ok none s') :
    SameVariables s s' ∧ s.now < s.deadline := by
  unfold afterInput at hrun
  rcases of_run_bind_ok hrun with ⟨now, s₁, hticks, hrest⟩
  rw [inLoop_ticks_run] at hticks
  cases hticks
  rcases of_run_bind_ok hrest with ⟨_, s₂, hauto, hwindow⟩
  have hsame := (inLoop_ok hauto).2
  rw [run_get_bind] at hwindow
  split at hwindow
  · cases exitMonitor_ok hwindow
  · next hlate =>
    cases hwindow
    rw [hsame.deadline] at hlate
    exact ⟨⟨hsame.decoder, hsame.deadline, hsame.decodedEvents⟩, UInt64.not_le.mp hlate⟩

/-- A round that goes on has decoded its whole input. -/
theorem round_goes_on {input : Input} (hrun : (round boot input.1 input.2).run s = .ok none s') :
    s'.decoder = decoder.run s.decoder input.1 ∧
      s'.decodedEvents =
        s.decodedEvents + (events s.decoder input.1).length + (serialEvents input.2).length := by
  unfold round at hrun
  rcases of_run_bind_ok hrun with ⟨left, s₁, hscancodes, hrest⟩
  cases left with
  | true => cases exitMonitor_ok hrest
  | false =>
    rcases drainScancodes_ok hscancodes with ⟨hdecoder₁, hcount₁⟩
    rcases of_run_bind_ok hrest with ⟨left, s₂, hserial, hafter⟩
    cases left with
    | true => cases exitMonitor_ok hafter
    | false =>
      rcases drainSerial_ok hserial with ⟨hdecoder₂, hcount₂⟩
      change (afterInput boot).run s₂ = _ at hafter
      have hsame := (afterInput_goes_on hafter).1
      rw [hsame.decoder, hsame.decodedEvents, hcount₂, hcount₁, hdecoder₂, hdecoder₁]
      exact ⟨rfl, rfl⟩

/-! ## The deadline in a run -/

/-- What holds at every `hlt`: the deadline is at most 800 ticks away. -/
structure Timely (s : InputLoop) : Prop where
  wellFormed : s.loop.WellFormed
  noWrap : NoWrap s.loop.world
  deadline : s.deadline ≤ U64.saturatingAdd s.loop.world.kernel.timer.ticks inputWindowTicks

theorem saturatingAdd_mono {a b : UInt64} (h : a ≤ b) (c : UInt64) :
    U64.saturatingAdd a c ≤ U64.saturatingAdd b c := by
  rw [UInt64.le_iff_toNat_le] at h ⊢
  rw [U64.toNat_saturatingAdd, U64.toNat_saturatingAdd]
  omega

/-- A part of a run, as a part of the clock. -/
theorem leads_clock {s s' : Loop} (h : Leads boot .all s s')
    (hwrap : NoWrap s.world) :
    NoWrap s'.world ∧ s.world.kernel.timer.ticks ≤ s'.world.kernel.timer.ticks := by
  rcases Scheduled.moves (h.moves (within_all _) fun _ _ => within_all _) with ⟨ops, hops⟩
  exact ⟨hops.noWrap hwrap, hops.clock hwrap⟩

/-- The deadline stays while the clock goes on. -/
theorem Timely.later (h : Timely s) (hwf : s'.loop.WellFormed)
    (hleads : Leads boot .all s.loop s'.loop) (hdeadline : s'.deadline = s.deadline) :
    Timely s' := by
  rcases leads_clock hleads h.noWrap with ⟨hwrap, hclock⟩
  refine ⟨hwf, hwrap, ?_⟩
  rw [hdeadline]
  exact UInt64.le_trans h.deadline (saturatingAdd_mono hclock _)

theorem Timely.handleEvent (hboot : boot.Successful) (h : Timely s) {raw : UInt8}
    {event : KeyEvent} {left : Bool}
    (hrun : (Monitor.handleEvent boot raw event).run s = .ok left s') : Timely s' := by
  have hsame := handleEvent_ok hrun
  have hroom : s.decodedEvents + 1 < 2 ^ 64 := by
    by_contra hfull
    unfold Monitor.handleEvent add at hrun
    rw [run_get_bind, if_neg hfull] at hrun
    cases hrun
  rw [handleEvent_run hroom] at hrun
  have hcounted : Timely s.counted := by
    refine ⟨interrupted_wellFormed h.wellFormed, h.noWrap.interrupted, ?_⟩
    rw [counted_deadline, counted_ticks]
    exact UInt64.le_refl _
  have hkey : Advances boot .all (inLoop (handleKeyEvent boot raw event)) :=
    handleKeyEvent_advances hboot rfl raw event
  have hadvances := hkey s.counted hcounted.wellFormed
  rw [hrun] at hadvances
  exact hcounted.later hadvances.1 hadvances.2 hsame.deadline

theorem Timely.drainScancodes (hboot : boot.Successful) (h : Timely s) {scancodes : List UInt8}
    {left : Bool} (hrun : (Monitor.drainScancodes boot scancodes).run s = .ok left s') :
    Timely s' := by
  induction scancodes generalizing s with
  | nil =>
    cases hrun
    exact h
  | cons scancode rest ih =>
    unfold Monitor.drainScancodes at hrun
    rcases of_run_bind_ok hrun with ⟨event, s₁, hfeed, hrest⟩
    cases hfeed
    have h₁ : Timely { s with decoder := (s.decoder.feed scancode).2 } :=
      ⟨h.wellFormed, h.noWrap, h.deadline⟩
    cases hevent : (s.decoder.feed scancode).1 with
    | none =>
      simp only [hevent] at hrest
      exact ih h₁ hrest
    | some event =>
      simp only [hevent] at hrest
      rcases of_run_bind_ok hrest with ⟨left₂, s₂, hhandle, hrest₂⟩
      have h₂ := h₁.handleEvent hboot hhandle
      -- where the monitor is left the rest is not read
      cases left₂ with
      | true =>
        cases hrest₂
        exact h₂
      | false => exact ih h₂ hrest₂

theorem Timely.drainSerial (hboot : boot.Successful) (h : Timely s) {bytes : List UInt8}
    {left : Bool} (hrun : (Monitor.drainSerial boot bytes).run s = .ok left s') : Timely s' := by
  induction bytes generalizing s with
  | nil =>
    cases hrun
    exact h
  | cons byte rest ih =>
    unfold Monitor.drainSerial at hrun
    cases hevent : serialByteToKeyEvent byte with
    | none =>
      simp only [hevent] at hrun
      exact ih h hrun
    | some event =>
      simp only [hevent] at hrun
      rcases of_run_bind_ok hrun with ⟨left₂, s₂, hhandle, hrest₂⟩
      have h₂ := h.handleEvent hboot hhandle
      cases left₂ with
      | true =>
        cases hrest₂
        exact h₂
      | false => exact ih h₂ hrest₂

/-- A round keeps the window. -/
theorem Timely.round (hboot : boot.Successful) (h : Timely s) {scancodes bytes : List UInt8}
    (hrun : (Monitor.round boot scancodes bytes).run s = .ok none s') : Timely s' := by
  unfold Monitor.round at hrun
  rcases of_run_bind_ok hrun with ⟨left, s₁, hscancodes, hrest⟩
  have h₁ := h.drainScancodes hboot hscancodes
  cases left with
  | true => cases exitMonitor_ok hrest
  | false =>
    rcases of_run_bind_ok hrest with ⟨left, s₂, hserial, hafter⟩
    have h₂ := h₁.drainSerial hboot hserial
    cases left with
    | true => cases exitMonitor_ok hafter
    | false =>
      change (afterInput boot).run s₂ = _ at hafter
      have hadvances : Advances boot .all (afterInput boot) :=
        afterInput_advances (within_all _)
      have hstep := hadvances s₂ h₂.wellFormed
      rw [hafter] at hstep
      exact h₂.later hstep.1 hstep.2 (afterInput_goes_on hafter).1.deadline

/-- The start tick of the loop is the tick of the first look. -/
theorem fresh_deadline (w : World) :
    (InputLoop.fresh (w.entered boot)).deadline =
      U64.saturatingAdd w.interrupted.kernel.timer.ticks inputWindowTicks := by
  have hstart : (w.entered boot).autoScheduler.nextRunTick = w.interrupted.kernel.timer.ticks := rfl
  rw [InputLoop.fresh, hstart]

/-- A loop that was just entered has its whole window before it. -/
theorem timely_fresh {w : World} (hw : w.Inv) (hwrap : NoWrap (w.entered boot)) :
    Timely (InputLoop.fresh (w.entered boot)) := by
  refine ⟨entered_wellFormed hw, hwrap, ?_⟩
  have hticks : (InputLoop.fresh (w.entered boot)).loop.world.kernel.timer.ticks =
      w.interrupted.kernel.timer.ticks := rfl
  rw [fresh_deadline, hticks]
  exact UInt64.le_refl _

/-- At every `hlt` of every run the deadline is at most 800 ticks away. -/
theorem reachable_timely (hboot : boot.Successful) {allowed : String → Prop} {w : World}
    (hw : Booted boot w) (hwrap : NoWrap w) (hs : InputLoop.Reachable boot allowed w s) :
    Timely s := by
  induction hs with
  | @entered w' hrun =>
    -- a fresh loop has its whole window before it
    rw [startInputLoop_run hw.inv] at hrun
    cases hrun
    exact timely_fresh hw.inv hwrap.interrupted
  | @round s s' _ scancodes bytes hrun _ ih => exact ih.round hboot hrun
  | @resumed s s' w' _ scancodes bytes context hring3 _ hresumes ih =>
    have hadvances : Advances boot .all (Monitor.round boot scancodes bytes) :=
      round_advances hboot (within_all _) scancodes bytes
    have hround := hadvances s ih.wellFormed
    rw [hring3] at hround
    have hwrap' := (leads_clock hround.2 ih.noWrap).1
    -- the loop that is entered on the way back from ring 3 is a fresh one, too
    rcases hresumes.entered hround.1 with ⟨w₁, h₁, heq⟩
    have hentered : w' = w₁.entered boot := congrArg Loop.world heq
    rcases hresumes with ⟨registers, session, userMem, w₂, _, hrun, heq₂⟩
    have hsame : w' = w₂ := congrArg Loop.world heq₂
    have hmoves := (resume_moves boot (within_all _) _).at_ok hrun
    rcases Scheduled.moves hmoves with ⟨ops, hops⟩
    have hwrap₂ : NoWrap w₂ := hops.noWrap hwrap'
    rw [← hsame, hentered] at hwrap₂
    rw [hentered]
    exact timely_fresh h₁ hwrap₂

/-! ## Silence -/

/-- Neither input has a key event. -/
def Silent (s : InputLoop) (inputs : List Input) : Prop :=
  events s.decoder (inputs.flatMap (·.1)) = [] ∧ serialEvents (inputs.flatMap (·.2)) = []

/-- The tick of the look after so many others. -/
def InputLoop.tickAfter (s : InputLoop) (looks : ℕ) : UInt64 :=
  (World.interrupted^[looks] s.loop.world).kernel.timer.ticks

/-- Scancodes without an event only move the decoder. -/
theorem drainScancodes_silent {scancodes : List UInt8} (h : events s.decoder scancodes = []) :
    (drainScancodes boot scancodes).run s =
      .ok false { s with decoder := decoder.run s.decoder scancodes } := by
  induction scancodes generalizing s with
  | nil => rfl
  | cons scancode rest ih =>
    rw [events_cons, List.append_eq_nil_iff] at h
    have hevent : (s.decoder.feed scancode).1 = none := by
      rcases h with ⟨hnone, _⟩
      cases hfeed : (s.decoder.feed scancode).1 with
      | none => rfl
      | some event =>
        rw [hfeed] at hnone
        cases hnone
    have hfeed : (feedDecoder scancode).run s =
        .ok none { s with decoder := (s.decoder.feed scancode).2 } := by
      rw [← hevent]
      rfl
    unfold drainScancodes
    rw [run_bind_ok hfeed]
    exact ih h.2

theorem drainSerial_silent {bytes : List UInt8} (h : serialEvents bytes = []) :
    (drainSerial boot bytes).run s = .ok false s := by
  induction bytes with
  | nil => rfl
  | cons byte rest ih =>
    unfold serialEvents at h
    rw [List.filterMap_cons] at h
    unfold drainSerial
    cases hevent : serialByteToKeyEvent byte with
    | none =>
      rw [hevent] at h
      exact ih h
    | some event =>
      rw [hevent] at h
      cases h

theorem consolePrintln_inLoop (h : s.loop.WellFormed) (text : String) :
    (inLoop (inWorld (consolePrintln boot text))).run s =
      .ok () { s with loop := { s.loop with world := s.loop.world.shown boot (text ++ "\n") } } :=
  inLoop_run (inWorld_ok (consolePrintln_run h.world text))

/-- The line at the end of the window. -/
def windowLine (keyboardIrqs dropped : UInt64) (decodedEvents : ℕ) : String :=
  s!"Input window ended: keyboard_irqs={keyboardIrqs}, dropped={dropped}, decoded={decodedEvents}"

variable (boot) in
/-- The end of the monitor: the counters are read, and printed. -/
theorem exitMonitor_run (h : s.loop.WellFormed) :
    ∃ s', (exitMonitor boot "Input window ended").run s = .ok (some .success) s' ∧
      s'.loop.world.serial = s.loop.world.serial ++
        windowLine s.loop.world.interrupted.keyboardIrqs s.loop.world.interrupted.dropped
          s.decodedEvents ++ "\n" := by
  let s₁ : InputLoop := { s with loop := { s.loop with world := s.loop.world.interrupted } }
  have hs₁ : s₁.loop.WellFormed := interrupted_wellFormed h
  have hcounters : (inLoop (inWorld keyboardCounters)).run s =
      .ok (s₁.loop.world.keyboardIrqs, s₁.loop.world.dropped) s₁ := rfl
  let line := windowLine s₁.loop.world.keyboardIrqs s₁.loop.world.dropped s.decodedEvents
  let s₂ : InputLoop :=
    { s₁ with loop := { s₁.loop with world := s₁.loop.world.shown boot (line ++ "\n") } }
  have hprint : (inLoop (inWorld (consolePrintln boot line))).run s₁ = .ok () s₂ :=
    consolePrintln_inLoop hs₁ line
  refine ⟨s₂, ?_, ?_⟩
  · unfold exitMonitor
    rw [run_bind_ok hcounters, run_get_bind]
    exact run_bind_ok hprint
  · change s.loop.world.serial ++ (line ++ "\n") = _
    rw [← String.append_assoc]

variable (boot) in
/-- A silent round without the automatic scheduler: one look, and the comparison. -/
theorem silent_round_run (hauto : s.loop.world.autoScheduler.enabled = false) {input : Input}
    (h : Silent s [input]) :
    (round boot input.1 input.2).run s =
      (if s.deadline ≤ s.tickAfter 1 then exitMonitor boot "Input window ended" else pure none).run
        { s with loop := { s.loop with world := s.loop.world.interrupted }
                 decoder := decoder.run s.decoder input.1 } := by
  rcases h with ⟨hscancodes, hbytes⟩
  rw [List.flatMap_singleton] at hscancodes hbytes
  let s₁ : InputLoop := { s with decoder := decoder.run s.decoder input.1 }
  let s₂ : InputLoop := { s₁ with loop := { s₁.loop with world := s.loop.world.interrupted } }
  -- the automatic scheduler is off and does nothing
  have hidle : (inLoop (inWorld (maybeRun boot s₁.now))).run s₂ = .ok () s₂ := by
    apply inLoop_run
    apply inWorld_ok
    apply maybeRun_idles
    change (!(!s.loop.world.autoScheduler.enabled || _)) = false
    rw [hauto]
    rfl
  unfold round
  rw [run_bind_ok (drainScancodes_silent hscancodes)]
  change ((drainSerial boot input.2 >>= _ : InputM _)).run s₁ = _
  rw [run_bind_ok (drainSerial_silent hbytes)]
  change (afterInput boot).run s₁ = _
  unfold afterInput
  rw [run_bind_ok (inLoop_ticks_run s₁), run_bind_ok hidle, run_get_bind]
  rfl

theorem silent_cons {input : Input} {rest : List Input} (h : Silent s (input :: rest))
    (hdecoder : s'.decoder = decoder.run s.decoder input.1) : Silent s [input] ∧ Silent s' rest := by
  rcases h with ⟨hscancodes, hbytes⟩
  rw [List.flatMap_cons, events_append, List.append_eq_nil_iff] at hscancodes
  unfold serialEvents at hbytes
  rw [List.flatMap_cons, List.filterMap_append, List.append_eq_nil_iff] at hbytes
  refine ⟨⟨?_, ?_⟩, ⟨?_, hbytes.2⟩⟩
  · rw [List.flatMap_singleton]
    exact hscancodes.1
  · rw [List.flatMap_singleton]
    exact hbytes.1
  · rw [hdecoder]
    exact hscancodes.2

variable (boot) in
/-- Rounds without a key event: they go on as long as the looks are before the deadline, and the
first look that is not ends the monitor. -/
theorem silent_rounds_run (hwf : s.loop.WellFormed)
    (hauto : s.loop.world.autoScheduler.enabled = false) {inputs : List Input}
    (h : Silent s inputs) :
    ((∀ k < inputs.length, s.tickAfter (k + 1) < s.deadline) →
      ∃ s', (rounds boot inputs).run s = .ok none s') ∧
    (∀ k < inputs.length, (∀ j < k, s.tickAfter (j + 1) < s.deadline) →
      s.deadline ≤ s.tickAfter (k + 1) →
      ∃ s', (rounds boot inputs).run s = .ok (some .success) s' ∧
        s'.loop.world.serial = s.loop.world.serial ++
          windowLine (World.interrupted^[k + 2] s.loop.world).keyboardIrqs
            (World.interrupted^[k + 2] s.loop.world).dropped s.decodedEvents ++ "\n") := by
  induction inputs generalizing s with
  | nil =>
    exact ⟨fun _ => ⟨s, rfl⟩, fun k hk => absurd hk (Nat.not_lt_zero k)⟩
  | cons input rest ih =>
    let s₁ : InputLoop :=
      { s with loop := { s.loop with world := s.loop.world.interrupted }
               decoder := decoder.run s.decoder input.1 }
    have hwf₁ : s₁.loop.WellFormed := interrupted_wellFormed hwf
    have hboth : Silent s [input] ∧ Silent s₁ rest := silent_cons h rfl
    rcases hboth with ⟨hsilent, hrest⟩
    have hround := silent_round_run boot hauto hsilent
    have htick : ∀ k, s₁.tickAfter k = s.tickAfter (k + 1) := fun _ => rfl
    by_cases hdeadline : s.deadline ≤ s.tickAfter 1
    · -- this round is the last one
      rw [if_pos hdeadline] at hround
      rcases exitMonitor_run boot hwf₁ with ⟨s', hexit, hserial⟩
      have hlast : (rounds boot (input :: rest)).run s = .ok (some .success) s' := by
        unfold rounds
        rw [run_bind_ok (hround.trans hexit)]
        rfl
      refine ⟨fun hbefore => ?_, fun k hk hbefore _ => ?_⟩
      · exact absurd hdeadline (UInt64.not_le.mpr (hbefore 0 (Nat.succ_pos _)))
      · cases k with
        | zero => exact ⟨s', hlast, hserial⟩
        | succ k => exact absurd hdeadline (UInt64.not_le.mpr (hbefore 0 (Nat.succ_pos _)))
    -- the induction goes on with the clock one look later
    · rw [if_neg hdeadline] at hround
      have hrounds : (rounds boot (input :: rest)).run s = (rounds boot rest).run s₁ := by
        conv => lhs; unfold rounds
        exact run_bind_ok hround
      rw [hrounds]
      rcases ih hwf₁ hauto hrest with ⟨hgoes, hends⟩
      refine ⟨fun hbefore => hgoes fun k hk => ?_, ?_⟩
      · rw [htick]
        exact hbefore (k + 1) (Nat.succ_lt_succ hk)
      · intro k hk hbefore hlate
        cases k with
        | zero => exact absurd hlate hdeadline
        | succ k =>
          refine hends k (Nat.lt_of_succ_lt_succ hk) (fun j hj => ?_) ?_
          · rw [htick]
            exact hbefore (j + 1) (Nat.succ_lt_succ hj)
          · rw [htick]
            exact hlate

/-- **The window ends.** From every `hlt` of every run, with the automatic scheduler off and
without a key event, the monitor goes on exactly until a look that is not before the deadline;
that is at most 800 ticks away. The counters that it then prints are those of the next look. -/
theorem idle_monitor_ends (hboot : boot.Successful) {allowed : String → Prop} {w : World}
    (hw : Booted boot w) (hwrap : NoWrap w) (hs : InputLoop.Reachable boot allowed w s)
    (hauto : s.loop.world.autoScheduler.enabled = false) {inputs : List Input}
    (h : Silent s inputs) :
    s.deadline ≤ U64.saturatingAdd s.loop.world.kernel.timer.ticks inputWindowTicks ∧
    ((∀ k < inputs.length, s.tickAfter (k + 1) < s.deadline) →
      ∃ s', (rounds boot inputs).run s = .ok none s') ∧
    (∀ k < inputs.length, (∀ j < k, s.tickAfter (j + 1) < s.deadline) →
      s.deadline ≤ s.tickAfter (k + 1) →
      ∃ s', (rounds boot inputs).run s = .ok (some .success) s' ∧
        s'.loop.world.serial = s.loop.world.serial ++
          windowLine (World.interrupted^[k + 2] s.loop.world).keyboardIrqs
            (World.interrupted^[k + 2] s.loop.world).dropped s.decodedEvents ++ "\n") := by
  have htimely := reachable_timely hboot hw hwrap hs
  exact ⟨htimely.deadline, silent_rounds_run boot htimely.wellFormed hauto h⟩

/-! ## The sample machine -/

/-- No interrupt but a burst, between the second look and the one before: 800 timer interrupts, and
130 of the keyboard, the last two of which find the buffer full. -/
def burstWorld : World :=
  { sampleWorld with arrivals := fun n => if n = 1 then ⟨800, 130, 2⟩ else ⟨0, 0, 0⟩ }

theorem burstWorld_booted : Booted sampleBoot burstWorld :=
  ⟨sampleWorld_booted.console, rfl, rfl, rfl, rfl, rfl⟩

theorem burstWorld_noWrap : NoWrap burstWorld := by
  intro n
  have hsum : ((List.range n).map fun i => (burstWorld.arrivals i).timer).sum ≤ 800 := by
    match n with
    | 0 => decide
    | 1 => decide
    | n + 2 => simp [List.range_succ_eq_map, Function.comp_def, burstWorld]
  have hticks : burstWorld.kernel.timer.ticks.toNat = 5 := rfl
  omega

/-- The window ends at the first look after the burst. -/
theorem idle_monitor_ends_burst :
    ∃ s', (rounds sampleBoot [([], [])]).run (InputLoop.fresh (burstWorld.entered sampleBoot)) =
        .ok (some .success) s' ∧
      s'.loop.world.serial = (burstWorld.entered sampleBoot).serial ++
        "Input window ended: keyboard_irqs=130, dropped=2, decoded=0" ++ "\n" := by
  have hs : InputLoop.Reachable sampleBoot (fun _ => True) burstWorld
      (InputLoop.fresh (burstWorld.entered sampleBoot)) :=
    .entered (startInputLoop_run burstWorld_booted.inv)
  have hsilent : Silent (InputLoop.fresh (burstWorld.entered sampleBoot)) [([], [])] := ⟨rfl, rfl⟩
  have hends := idle_monitor_ends sampleBoot_successful burstWorld_booted burstWorld_noWrap hs rfl
    hsilent
  have hline : windowLine 130 2 0 =
      "Input window ended: keyboard_irqs=130, dropped=2, decoded=0" := by decide
  rw [← hline]
  exact hends.2.2 0 Nat.one_pos (fun j hj => absurd hj (Nat.not_lt_zero j)) (by decide)

end

end JingOS.Monitor
