import JingOS.Monitor.Inputs

/-!
# Rounds that go on

The monitor goes on as long as the lines that are submitted come back, the automatic scheduler is
off and the input window does not end. Then everything that was typed, on either input, has acted on
the desk, and every line has been executed.

* `Unhurried` — the state: the clock will not come as far as the end of the window;
* `Desk.plays`, `Desk.submits` — what a list of events makes of the desk, and the lines it submits;
* `rounds_proceed` — rounds whose lines are all `Undisturbing` go on, and have done all of this.
-/

namespace JingOS.Monitor

open Ascii Checked Hoare Relation Text
open JingOS.Keyboard JingOS.Task

/-! ## A clock that stands back -/

/-- The automatic scheduler is off, and the clock is not before `start` and never comes as far as
the end of a window that begins then. -/
structure Steady (start : ℕ) (w : World) : Prop where
  auto : w.autoScheduler.enabled = false
  since : start ≤ w.kernel.timer.ticks.toNat
  clock : ∀ n, w.kernel.timer.ticks.toNat +
    ((List.range n).map fun i => (w.arrivals i).timer).sum < start + 800
  room : start + 800 < 2 ^ 64

/-- All but the automatic scheduler. -/
def steadyAccess : Access := { Access.all with auto := false }

/-- A line that returns and leaves the automatic scheduler alone. -/
def Undisturbing (line : String) : Prop :=
  Peaceful (splitWhitespace line) ∧ (accessOfLine line).auto = false

/-- The window ends behind every look at the clock. -/
structure Unhurried (start : ℕ) (s : InputLoop) : Prop where
  wellFormed : s.loop.WellFormed
  steady : Steady start s.loop.world
  deadline : start + 800 ≤ s.deadline.toNat

section

variable {boot : Boot} {start : ℕ} {w w' : World} {s s' s'' : InputLoop}

theorem Steady.noWrap (h : Steady start w) : NoWrap w := fun n => (h.clock n).trans h.room

theorem Steady.interrupted (h : Steady start w) : Steady start w.interrupted := by
  have hticks := interrupted_ticks h.noWrap
  refine ⟨h.auto, ?_, fun n => ?_, h.room⟩
  · rw [hticks]
    exact h.since.trans (Nat.le_add_right _ _)
  · have hnext := h.clock (n + 1)
    rw [List.range_succ_eq_map, List.map_cons, List.sum_cons, List.map_map] at hnext
    rw [hticks, Nat.add_assoc]
    exact hnext

theorem Steady.moves (h : Steady start w)
    (hmoves : ReflTransGen (World.Step boot steadyAccess) w w') : Steady start w' := by
  refine into (t := fun w w' => Steady start w → Steady start w') (fun _ => id)
    (fun _ _ _ h h' hw => h' (h hw)) (fun w w' hstep hw => ?_) hmoves h
  cases hstep with
  | look => exact hw.interrupted
  | auto h => exact absurd h Bool.false_ne_true
  | _ => exact ⟨hw.auto, hw.since, hw.clock, hw.room⟩

theorem Undisturbing.within {line : String} (h : Undisturbing line) :
    (accessOfLine line).Within steadyAccess := by
  refine ⟨fun _ => rfl, fun _ => rfl, fun hauto => ?_, fun _ => rfl, fun _ => rfl, fun _ => rfl,
    fun _ => rfl⟩
  rw [h.2] at hauto
  cases hauto

theorem key_within : keyAccess.Within steadyAccess :=
  ⟨fun _ => rfl, fun _ => rfl, fun h => absurd h Bool.false_ne_true, fun _ => rfl, fun _ => rfl,
    fun _ => rfl, fun _ => rfl⟩

/-- What is found when the time of an event has been read: the new deadline is no earlier. -/
theorem Unhurried.counted (h : Unhurried start s) : Unhurried start s.counted := by
  have hsteady : Steady start s.counted.loop.world := h.steady.interrupted
  refine ⟨interrupted_wellFormed h.wellFormed, hsteady, ?_⟩
  have hsince : start ≤ s.now.toNat := hsteady.since
  have hroom := hsteady.room
  have hwindow : inputWindowTicks.toNat = 800 := rfl
  rw [counted_deadline, U64.toNat_saturatingAdd]
  omega

/-! ## Events -/

/-- The desk behind a list of events. -/
def Desk.plays (d : Desk) (evs : List KeyEvent) : Desk :=
  evs.foldl (fun d event => d.after false (.key 0 event)) d

/-- The lines that a list of events submits. -/
def Desk.submits : Desk → List KeyEvent → List String
  | _, [] => []
  | d, event :: rest =>
    (if event = .enter then [asciiText d.editor.text] else []) ++
      Desk.submits (d.after false (.key 0 event)) rest

theorem Desk.submits_append (d : Desk) (front back : List KeyEvent) :
    d.submits (front ++ back) = d.submits front ++ (d.plays front).submits back := by
  induction front generalizing d with
  | nil => rfl
  | cons event front ih =>
    rw [List.cons_append, Desk.submits, Desk.submits, ih, List.append_assoc]
    rfl

/-- An event that does not leave the monitor, and is no scancode without a meaning. -/
def tame : KeyEvent → Bool
  | .escape => false
  | .unknown _ => false
  | _ => true

/-- The events have been handled: the loop goes on, the desk is theirs, and so are the calls. -/
structure Proceeds (boot : Boot) (start : ℕ) (evs : List KeyEvent) (s s' : InputLoop) : Prop where
  unhurried : Unhurried start s'
  leads : Leads boot keyAccess s.loop s'.loop
  decodedEvents : s'.decodedEvents = s.decodedEvents + evs.length
  desk : s'.loop.desk = s.loop.desk.plays evs
  calls : s'.loop.calls.map Call.text = s.loop.calls.map Call.text ++ s.loop.desk.submits evs

theorem Proceeds.refl (h : Unhurried start s) : Proceeds boot start [] s s :=
  ⟨h, Leads.refl _, rfl, rfl, (List.append_nil _).symm⟩

theorem Proceeds.trans {evs evs' : List KeyEvent} (h : Proceeds boot start evs s s')
    (h' : Proceeds boot start evs' s' s'') : Proceeds boot start (evs ++ evs') s s'' where
  unhurried := h'.unhurried
  leads := h.leads.trans h'.leads
  decodedEvents := by rw [h'.decodedEvents, h.decodedEvents, List.length_append, Nat.add_assoc]
  desk := by rw [h'.desk, h.desk, Desk.plays, Desk.plays, Desk.plays, List.foldl_append]
  calls := by rw [h'.calls, h.calls, h.desk, Desk.submits_append, List.append_assoc]

/-- **One event.** -/
theorem handleEvent_proceeds (hboot : boot.Successful) {event : KeyEvent} (htame : tame event = true)
    (hline : ∀ line ∈ s.loop.desk.submits [event], Undisturbing line) (h : Unhurried start s)
    (hroom : s.decodedEvents + 1 < 2 ^ 64) :
    ∃ s', (handleEvent boot 0 event).run s = .ok false s' ∧ Proceeds boot start [event] s s' := by
  have hcounted := h.counted
  have hwf := hcounted.wellFormed
  have hlook : Leads boot keyAccess s.loop s.counted.loop :=
    Leads.world rfl (.single (.look s.loop.world))
  have hleaves : Leaves boot keyAccess s.counted.loop _ :=
    handleKeyEvent_leads hboot rfl 0 event hwf
  have hkey : ∃ loop, (handleKeyEvent boot 0 event).run s.counted.loop = .ok false loop ∧
      loop.desk = s.loop.desk.after false (.key 0 event) ∧
      loop.calls.map Call.text = s.loop.calls.map Call.text ++ s.loop.desk.submits [event] := by
    by_cases henter : event = .enter
    · subst henter
      have hundisturbing := hline (asciiText s.loop.desk.editor.text) List.mem_cons_self
      rcases enterKey_returns hboot hwf rfl hundisturbing.1 with
        ⟨loop, call, hrun, hdesk, hcalls, htext⟩
      refine ⟨loop, hrun, hdesk, ?_⟩
      rw [hcalls, List.map_append, List.map_singleton, htext]
      rfl
    · have hstay : decide (event = .escape) = false := by
        cases event <;> first | rfl | cases htame
      rcases key_replies boot hwf 0 henter with ⟨loop, hrun, hanswers⟩
      rw [hstay] at hrun
      refine ⟨loop, hrun, ?_, ?_⟩
      · rw [hanswers.desk, Desk.after_key _ _ _ henter]
        rfl
      · rw [hanswers.calls, Desk.submits, if_neg henter]
        exact (List.append_nil _).symm
  rcases hkey with ⟨loop, hrun, hdesk, hcalls⟩
  rw [hrun] at hleaves
  have hok := (handleEvent_run hroom 0 event).trans (inLoop_run hrun)
  have hsame := handleEvent_ok hok
  have hleads := hlook.trans hleaves.2
  have hsteady : Steady start loop.world := by
    -- the call of the round, if there is one, is that of the line
    rcases hleads with ⟨calls, hlog, hexecutes⟩
    refine h.steady.moves (Executes.moves key_within (fun call hcall => ?_) hexecutes)
    rw [show loop.calls = s.loop.calls ++ calls from hlog, List.map_append] at hcalls
    have hmem := List.mem_map_of_mem (f := Call.text) hcall
    rw [List.append_cancel_left hcalls] at hmem
    exact (hline _ hmem).within
  refine ⟨_, hok, ⟨⟨hleaves.1, hsteady, ?_⟩, hleads, hsame.decodedEvents, hdesk, hcalls⟩⟩
  rw [hsame.deadline]
  exact hcounted.deadline

/-- Events whose lines leave the scheduler alone are all handled. -/
theorem handleEvents_proceed (hboot : boot.Successful) {evs : List KeyEvent}
    (htame : ∀ event ∈ evs, tame event = true)
    (hlines : ∀ line ∈ s.loop.desk.submits evs, Undisturbing line) (h : Unhurried start s)
    (hroom : s.decodedEvents + evs.length < 2 ^ 64) :
    ∃ s', (handleEvents boot evs).run s = .ok false s' ∧ Proceeds boot start evs s s' := by
  induction evs generalizing s with
  | nil => exact ⟨s, rfl, Proceeds.refl h⟩
  | cons event rest ih =>
    have hsplit := s.loop.desk.submits_append [event] rest
    rw [List.singleton_append] at hsplit
    rw [hsplit] at hlines
    rw [List.length_cons] at hroom
    rcases handleEvent_proceeds hboot (htame event List.mem_cons_self)
        (fun line hline => hlines line (List.mem_append_left _ hline)) h (by omega) with
      ⟨s₁, hrun₁, h₁⟩
    have hcount := h₁.decodedEvents
    rw [List.length_singleton] at hcount
    rcases ih (fun e he => htame e (List.mem_cons_of_mem _ he))
        (fun line hline => hlines line (List.mem_append_right _ (by rw [← h₁.desk]; exact hline)))
        h₁.unhurried (by omega) with ⟨s₂, hrun₂, h₂⟩
    refine ⟨s₂, ?_, h₁.trans h₂⟩
    unfold handleEvents
    exact (run_bind_ok hrun₁).trans hrun₂

/-! ## Rounds -/

/-- The scancodes of a round. -/
theorem drainScancodes_proceeds (hboot : boot.Successful) {scancodes : List UInt8}
    (htame : ∀ event ∈ events s.decoder scancodes, tame event = true)
    (hlines : ∀ line ∈ s.loop.desk.submits (events s.decoder scancodes), Undisturbing line)
    (h : Unhurried start s)
    (hroom : s.decodedEvents + (events s.decoder scancodes).length < 2 ^ 64) :
    ∃ s', (drainScancodes boot scancodes).run s = .ok false s' ∧
      Proceeds boot start (events s.decoder scancodes) s s' := by
  have hknown : ∀ code, .unknown code ∉ events s.decoder scancodes :=
    fun code hmem => absurd (htame _ hmem) Bool.false_ne_true
  rcases handleEvents_proceed hboot htame hlines h hroom with ⟨s₁, hrun₁, h₁⟩
  -- the decoder is all that differs
  have hsame := drainScancodes_eq boot s.decoder hknown
  rw [hrun₁] at hsame
  cases hrun : (drainScancodes boot scancodes).run s with
  | error stop s₂ =>
    rw [hrun] at hsame
    cases hsame
  | ok left s₂ =>
    rw [hrun] at hsame
    injection hsame with hleft hstate
    rw [InputLoop.mk.injEq] at hstate
    rcases hstate with ⟨hloop, _, hdeadline, hcount⟩
    subst hleft
    refine ⟨s₂, rfl, ?_⟩
    rcases h₁ with ⟨⟨hwf, hsteady, hdue⟩, hleads, hdecoded, hdesk, hcalls⟩
    rw [← hloop] at hwf hsteady hleads hdesk hcalls
    rw [← hdeadline] at hdue
    rw [← hcount] at hdecoded
    exact ⟨⟨hwf, hsteady, hdue⟩, hleads, hdecoded, hdesk, hcalls⟩

/-- The end of a round looks at the clock, and the window is not over. -/
theorem afterInput_proceeds (h : Unhurried start s) :
    ∃ s', (afterInput boot).run s = .ok none s' ∧ Proceeds boot start [] s s' := by
  let s₁ : InputLoop := { s with loop := { s.loop with world := s.loop.world.interrupted } }
  have hsteady := h.steady.interrupted
  have hidle : (inLoop (inWorld (maybeRun boot s.now))).run s₁ = .ok () s₁ :=
    inLoop_run (inWorld_ok (maybeRun_disabled hsteady.auto s.now))
  have hbefore : s.now.toNat < s.deadline.toNat := (hsteady.clock 0).trans_le h.deadline
  have hwindow : ¬ s.deadline ≤ s.now := by
    rw [UInt64.le_iff_toNat_le]
    omega
  refine ⟨s₁, ?_, ⟨⟨interrupted_wellFormed h.wellFormed, hsteady, h.deadline⟩,
    Leads.world rfl (.single (.look _)), rfl, rfl, (List.append_nil _).symm⟩⟩
  unfold afterInput
  rw [run_bind_ok (inLoop_ticks_run s), run_bind_ok hidle, run_get_bind]
  exact congrArg (fun x : InputM (Option QemuExitCode) => x.run s₁) (if_neg hwindow)

/-- The events of some rounds, in the order in which they are handled. -/
def inputEvents : KeyboardDecoder → List Input → List KeyEvent
  | _, [] => []
  | d, input :: rest =>
    events d input.1 ++ serialEvents input.2 ++ inputEvents (decoder.run d input.1) rest

/-- **A round.** -/
theorem round_proceeds (hboot : boot.Successful) {scancodes bytes : List UInt8}
    (htame : ∀ event ∈ events s.decoder scancodes ++ serialEvents bytes, tame event = true)
    (hlines : ∀ line ∈ s.loop.desk.submits (events s.decoder scancodes ++ serialEvents bytes),
      Undisturbing line) (h : Unhurried start s)
    (hroom : s.decodedEvents + (events s.decoder scancodes ++ serialEvents bytes).length < 2 ^ 64) :
    ∃ s', (round boot scancodes bytes).run s = .ok none s' ∧
      Proceeds boot start (events s.decoder scancodes ++ serialEvents bytes) s s' := by
  rw [Desk.submits_append] at hlines
  rw [List.length_append] at hroom
  rcases drainScancodes_proceeds hboot (fun e he => htame e (List.mem_append_left _ he))
      (fun line hline => hlines line (List.mem_append_left _ hline)) h (by omega) with
    ⟨s₁, hrun₁, h₁⟩
  have hcount := h₁.decodedEvents
  rcases handleEvents_proceed hboot (fun e he => htame e (List.mem_append_right _ he))
      (fun line hline => hlines line (List.mem_append_right _ (by rw [← h₁.desk]; exact hline)))
      h₁.unhurried (by omega) with ⟨s₂, hrun₂, h₂⟩
  rw [← drainSerial_eq] at hrun₂
  rcases afterInput_proceeds h₂.unhurried with ⟨s₃, hrun₃, h₃⟩
  refine ⟨s₃, ?_, ?_⟩
  · unfold round
    rw [run_bind_ok hrun₁, if_neg (by decide), run_bind_ok hrun₂, if_neg (by decide)]
    exact hrun₃
  · have hall := (h₁.trans h₂).trans h₃
    rwa [List.append_nil] at hall

/-- **Rounds.** When no event leaves the monitor and every line that is submitted comes back, and
the clock does not come as far as the end of the window, the monitor goes on and has handled all
events. -/
theorem rounds_proceed (hboot : boot.Successful) {inputs : List Input}
    (htame : ∀ event ∈ inputEvents s.decoder inputs, tame event = true)
    (hlines : ∀ line ∈ s.loop.desk.submits (inputEvents s.decoder inputs), Undisturbing line)
    (h : Unhurried start s)
    (hroom : s.decodedEvents + (inputEvents s.decoder inputs).length < 2 ^ 64) :
    ∃ s', (rounds boot inputs).run s = .ok none s' ∧
      Proceeds boot start (inputEvents s.decoder inputs) s s' := by
  induction inputs generalizing s with
  | nil => exact ⟨s, rfl, Proceeds.refl h⟩
  | cons input rest ih =>
    unfold inputEvents at htame hlines hroom ⊢
    rw [Desk.submits_append] at hlines
    rw [List.length_append] at hroom
    rcases round_proceeds hboot (fun e he => htame e (List.mem_append_left _ he))
        (fun line hline => hlines line (List.mem_append_left _ hline)) h (by omega) with
      ⟨s₁, hrun₁, h₁⟩
    have hcount := h₁.decodedEvents
    have hdecoder := (round_goes_on hrun₁).1
    rw [← hdecoder] at htame hlines hroom ⊢
    rw [← h₁.desk] at hlines
    rcases ih (fun e he => htame e (List.mem_append_right _ he))
        (fun line hline => hlines line (List.mem_append_right _ hline)) h₁.unhurried (by omega) with
      ⟨s₂, hrun₂, h₂⟩
    exact ⟨s₂, (run_bind_ok hrun₁).trans hrun₂, h₁.trans h₂⟩

end

/-- The sample machine without interrupts. -/
def silentWorld : World := { sampleWorld with arrivals := fun _ => ⟨0, 0, 0⟩ }

theorem silentWorld_booted : Booted sampleBoot silentWorld :=
  ⟨sampleWorld_booted.console, rfl, rfl, rfl, rfl, rfl⟩

theorem silentWorld_steady : Steady 5 (silentWorld.entered sampleBoot) := by
  refine ⟨rfl, Nat.le_refl _, fun n => ?_, by decide⟩
  change 5 + ((List.range n).map fun _ => 0).sum < 805
  simp

/-- A round of the sample machine, with these bytes. -/
theorem silentWorld_round {bytes : List UInt8}
    (htame : ∀ event ∈ serialEvents bytes, tame event = true) {lines : List String}
    (hsubmits : (InputLoop.fresh (silentWorld.entered sampleBoot)).loop.desk.submits
      (serialEvents bytes) = lines) (hlines : ∀ line ∈ lines, Undisturbing line)
    (hroom : bytes.length < 2 ^ 64) :
    ∃ s', (round sampleBoot [] bytes).run (InputLoop.fresh (silentWorld.entered sampleBoot)) =
        .ok none s' ∧
      s'.loop.calls.map Call.text = lines ∧
      Executes sampleBoot keyAccess (silentWorld.entered sampleBoot) s'.loop.calls s'.loop.world := by
  have hwf : (InputLoop.fresh (silentWorld.entered sampleBoot)).loop.WellFormed :=
    entered_wellFormed silentWorld_booted.inv
  have hcount : 0 + (serialEvents bytes).length < 2 ^ 64 := by
    rw [Nat.zero_add]
    exact (List.length_filterMap_le _ _).trans_lt hroom
  subst hsubmits
  have hround : ∃ s', (round sampleBoot [] bytes).run
      (InputLoop.fresh (silentWorld.entered sampleBoot)) = .ok none s' ∧
      Proceeds sampleBoot 5 (serialEvents bytes)
        (InputLoop.fresh (silentWorld.entered sampleBoot)) s' :=
    round_proceeds sampleBoot_successful htame hlines ⟨hwf, silentWorld_steady, by decide⟩ hcount
  rcases hround with ⟨s', hrun, hend⟩
  rcases hend.leads with ⟨calls, hcalls, hexecutes⟩
  have hsame : s'.loop.calls = calls := hcalls
  exact ⟨s', hrun, hend.calls, by rw [hsame]; exact hexecutes⟩

end JingOS.Monitor
