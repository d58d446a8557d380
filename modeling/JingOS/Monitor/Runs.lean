import JingOS.Monitor.Proceeding

/-!
# Runs of the monitor

What holds at every `hlt`, whatever has been typed, executed and resumed from ring 3 until then.

* `run_table` — the task table is one that the scheduler reaches;
* `run_mirrored` — the screen is what comes of writing the serial log;
* `rounds_decode` — how the input is divided into rounds does not matter to what is decoded.
-/

namespace JingOS.Monitor

open Ascii Checked Hoare Relation Text
open JingOS.Keyboard JingOS.Task

section

variable {boot : Boot} {allowed : String → Prop} {w w' : World}

/-! ## The task table -/

/-- **The monitor refines the scheduler.** In every state that a run of the monitor reaches the
table is one that the scheduler reaches from its table after boot; the calls were made in the
order of the clock, none later than now; task 1 is in its slot; and the table is in order as
long as the ids last. -/
theorem run_table (hboot : boot.Successful) (hw : Booted boot w) {s : InputLoop}
    (hs : InputLoop.Reachable boot allowed w s) :
    ∃ ops, s.loop.world.tasks = scheduler.run bootstrapped ops ∧ (∀ op ∈ ops, op ≠ .init) ∧
      (NoWrap w → TicksSorted ops ∧
        ∀ now ∈ ops.filterMap Op.tick?, w.kernel.timer.ticks ≤ now ∧
          now ≤ s.loop.world.kernel.timer.ticks) ∧
      BootstrapInPlace s.loop.world.tasks ∧
      (BelowLimit s.loop.world.tasks → Task.Inv s.loop.world.tasks) := by
  have hmoves := run_moves hboot (within_all _) (fun _ _ => within_all _) hw.inv hs
  rcases Scheduled.moves hmoves.2 with ⟨ops, hops⟩
  have htasks : s.loop.world.tasks = scheduler.run bootstrapped ops := by
    rw [hops.tasks, hw.tasks]
  refine ⟨ops, htasks, hops.noInit, ?_, ?_, ?_⟩
  · intro hwrap
    exact ⟨hops.sorted hwrap, fun now hnow => ⟨hops.since hwrap now hnow, hops.upTo hwrap now hnow⟩⟩
  · rw [htasks]
    exact run_bootstrap ⟨_, rfl, rfl⟩ ops
  · rw [htasks, bootstrapped_run]
    exact run_inv init_inv _

/-- What the loop does for a key by itself leaves the tasks alone. -/
theorem tasks_of_key (h : ReflTransGen (World.Step boot keyAccess) w w') : w'.tasks = w.tasks := by
  refine into (t := fun w w' => w'.tasks = w.tasks) (fun _ => rfl) ?_ (fun _ _ hstep => ?_) h
  · intro _ _ _ hfirst hsecond
    exact hsecond.trans hfirst
  · cases hstep with
    | calls h => exact absurd h Bool.false_ne_true
    | _ => rfl

/-- `tasknew userdemo` in a table with room. -/
theorem tasknew_run (hw : w.Inv) {line : String} (hline : splitWhitespace line = ["tasknew", "userdemo"])
    {id : UInt64} (hspawn : (w.tasks.spawn .userDemo).1 = .ok id) :
    ∃ text, (executeCommand boot line).run w =
      .ok false (World.shown boot { w with tasks := (w.tasks.spawn .userDemo).2 } text) := by
  let w₁ : World := { w with tasks := (w.tasks.spawn .userDemo).2 }
  have hkind : parseTaskKind "userdemo" = some .userDemo := by decide
  have hcalls : (withTasks (·.spawn .userDemo)).run w = .ok (.ok id) w₁ := by
    rw [← hspawn]
    rfl
  have hspawns : World.Step boot .all w w₁ := .calls rfl w (.spawn .userDemo) nofun nofun
  have hw₁ : w₁.Inv := step_inv hspawns hw
  refine ⟨s!"task created: id={id} kind={taskKindName .userDemo}" ++ "\n", ?_⟩
  unfold executeCommand
  rw [hline]
  simp only
  rw [if_neg (by decide)]
  refine run_bind_ok (a := ()) ?_
  change (tasknewCommand boot ["userdemo"]).run w = _
  unfold tasknewCommand
  simp only [List.head?_cons, Option.getD_some, hkind]
  rw [run_bind_ok hcalls]
  exact consolePrintln_run hw₁ _

/-- `tasknew userdemo` over the serial port of the sample machine. -/
theorem run_table_tasknew : ∃ (s' : InputLoop) (call : Call) (ops : List Op),
    (round sampleBoot [] (submitted [textBytes "tasknew userdemo"])).run
      (InputLoop.fresh (silentWorld.entered sampleBoot)) = .ok none s' ∧
    s'.loop.calls = [call] ∧ call.text = "tasknew userdemo" ∧
    s'.loop.world.tasks = (bootstrapped.spawn .userDemo).2 ∧
    s'.loop.world.tasks = scheduler.run bootstrapped ops ∧ TicksSorted ops ∧
    Task.Inv s'.loop.world.tasks := by
  have hwords : splitWhitespace "tasknew userdemo" = ["tasknew", "userdemo"] := by decide
  have hundisturbing : ∀ line ∈ ["tasknew userdemo"], Undisturbing line := by
    intro line hline
    rw [List.mem_singleton.mp hline]
    refine ⟨?_, by decide⟩
    rw [hwords]
    exact peaceful_words _ (by decide)
  have htame : ∀ event ∈ serialEvents (submitted [textBytes "tasknew userdemo"]),
      tame event = true := by decide +kernel
  rcases silentWorld_round htame (by decide +kernel) hundisturbing (by decide +kernel) with
    ⟨s', hrun, htexts, hexecutes⟩
  rcases List.map_eq_singleton_iff.mp htexts with ⟨call, hcalls, htext⟩
  -- the call spawns the task, and nothing else in the round looks at the table
  rw [hcalls] at hexecutes
  rcases Calls.Run.of_singleton hexecutes with ⟨w₁, w₂, hbefore, hmade, hafter⟩
  have htable₁ : w₁.tasks = bootstrapped := tasks_of_key hbefore
  have hinv₁ : w₁.Inv :=
    Executes.inv (entered_wellFormed silentWorld_booted.inv).world (.idle hbefore)
  have htable : s'.loop.world.tasks = (bootstrapped.spawn .userDemo).2 := by
    have hspawn : (w₁.tasks.spawn .userDemo).1 = .ok 2 := by
      rw [htable₁]
      rfl
    have hcommand : ∃ text, (executeCommand sampleBoot "tasknew userdemo").run w₁ = _ :=
      tasknew_run hinv₁ hwords hspawn
    rcases hcommand with ⟨text, hcommand⟩
    rw [tasks_of_key hafter, hmade.after, hmade.result, htext, hcommand, htable₁]
    rfl
  have hentered : InputLoop.Reachable sampleBoot (fun _ => True) silentWorld
      (InputLoop.fresh (silentWorld.entered sampleBoot)) :=
    .entered (startInputLoop_run silentWorld_booted.inv)
  rcases run_table sampleBoot_successful silentWorld_booted (hentered.round hrun fun _ _ => trivial)
    with ⟨ops, hops, _, hticks, _, hinv⟩
  have hwrap : NoWrap silentWorld := by
    intro n
    change 5 + ((List.range n).map fun _ => 0).sum < 2 ^ 64
    simp
  have hbelow : BelowLimit s'.loop.world.tasks := by
    rw [htable]
    exact (by decide : (3 : UInt64) < U64.maxVal)
  exact ⟨s', call, ops, hrun, hcalls, htext, htable, hops, (hticks hwrap).1,
    hinv hbelow⟩

/-! ## Both consoles -/

/-- The command words whose output is not the same on both consoles: two of them look at the
clock once for each console, one clears the screen. -/
def dividingCommands : List String := ["status", "ticks", "clear"]

theorem accessOf_together {command : String} (h : command ∉ dividingCommands) :
    (accessOf command).Together := by
  simp only [dividingCommands, List.mem_cons, List.not_mem_nil, or_false, not_or] at h
  constructor
  · simp [accessOf, h.1, h.2.1]
  · simp [accessOf, h.2.2]

/-- **The consoles agree.** In every run in which none of these commands is submitted, the screen
is what comes of writing the serial log on the screen that boot has left. -/
theorem run_mirrored (hboot : boot.Successful) (hw : Booted boot w) {s : InputLoop}
    (hs : InputLoop.Reachable boot
      (fun text => (splitWhitespace text).headD "" ∉ dividingCommands) w s) :
    Mirrored boot w s.loop.world := by
  have hloop : loopAccess.Within { Access.all with apart := false, screen := false } := by
    constructor <;> decide
  have hallowed : ∀ text, (splitWhitespace text).headD "" ∉ dividingCommands →
      (accessOfLine text).Within { Access.all with apart := false, screen := false } := by
    intro text htext
    rcases accessOf_together htext with ⟨hapart, hscreen⟩
    refine ⟨fun _ => rfl, fun _ => rfl, fun _ => rfl, fun _ => rfl, fun _ => rfl, ?_, ?_⟩
    · intro h
      rw [accessOfLine, hapart] at h
      cases h
    · intro h
      rw [accessOfLine, hscreen] at h
      cases h
  exact (moves_mirrored ⟨rfl, rfl⟩ hw.inv (run_moves hboot hloop hallowed hw.inv hs).2).2

/-- A line is typed, corrected and submitted on the sample machine: `hx`, a backspace, `elp`. -/
theorem run_mirrored_edited : ∃ (s' : InputLoop) (call : Call),
    (round sampleBoot [] [0x68, 0x78, 0x08, 0x65, 0x6c, 0x70, 0x0D]).run
      (InputLoop.fresh (silentWorld.entered sampleBoot)) = .ok none s' ∧
    s'.loop.calls = [call] ∧ call.text = "help" ∧
    Executes sampleBoot keyAccess (silentWorld.entered sampleBoot) [call] s'.loop.world ∧
    Mirrored sampleBoot silentWorld s'.loop.world := by
  have hundisturbing : ∀ line ∈ ["help"], Undisturbing line := by
    have hwords : splitWhitespace "help" = ["help"] := by decide
    intro line hline
    rw [List.mem_singleton.mp hline]
    refine ⟨?_, by decide⟩
    rw [hwords]
    exact peaceful_words _ (by decide)
  have htame : ∀ event ∈ serialEvents [0x68, 0x78, 0x08, 0x65, 0x6c, 0x70, 0x0D],
      tame event = true := by decide +kernel
  rcases silentWorld_round htame (by decide +kernel) hundisturbing (by decide) with
    ⟨s', hrun, htexts, hexecutes⟩
  rcases List.map_eq_singleton_iff.mp htexts with ⟨call, hcalls, htext⟩
  rw [hcalls] at hexecutes
  have hallowed : ∀ call ∈ s'.loop.calls, (splitWhitespace call.text).headD "" ∉ dividingCommands := by
    intro call' hcall
    rw [hcalls] at hcall
    rw [List.mem_singleton.mp hcall, htext]
    decide
  exact ⟨s', call, hrun, hcalls, htext, hexecutes,
    run_mirrored sampleBoot_successful silentWorld_booted
      ((InputLoop.Reachable.entered (startInputLoop_run silentWorld_booted.inv)).round hrun hallowed)⟩

/-! ## The input -/

/-- **The division into rounds does not matter.** When rounds have gone on to the end, the decoder
has read all their scancodes as one stream, and every event of both inputs has been counted. -/
theorem rounds_decode (boot : Boot) (inputs : List Input) (s s' : InputLoop)
    (hrun : (rounds boot inputs).run s = .ok none s') :
    s'.decoder = decoder.run s.decoder (inputs.flatMap (·.1)) ∧
      s'.decodedEvents = s.decodedEvents + (events s.decoder (inputs.flatMap (·.1))).length +
        (serialEvents (inputs.flatMap (·.2))).length := by
  induction inputs generalizing s with
  | nil =>
    cases hrun
    exact ⟨rfl, rfl⟩
  | cons input rest ih =>
    unfold rounds at hrun
    rcases of_run_bind_ok hrun with ⟨code, s₁, hround, hrest⟩
    cases code with
    | some code => cases hrest
    | none =>
      rcases round_goes_on hround with ⟨hdecoder₁, hcount₁⟩
      rcases ih s₁ hrest with ⟨hdecoder, hcount⟩
      rw [List.flatMap_cons, List.flatMap_cons, Mealy.run_append, events_append, ← hdecoder₁]
      refine ⟨hdecoder, ?_⟩
      unfold serialEvents at hcount hcount₁ ⊢
      rw [hcount, hcount₁, List.length_append, List.filterMap_append, List.length_append]
      omega

/-- Two rounds: `h` and the first byte of the left arrow, and `x` over the serial port; then the rest
of the arrow, its release, and `y`. -/
def cutInputs : List Input :=
  [([0x23, 0xA3, 0xE0], [0x78]), ([0x4B, 0xE0, 0xCB], [0x79])]

theorem rounds_decode_cut : ∃ s', (rounds sampleBoot cutInputs).run
      (InputLoop.fresh (silentWorld.entered sampleBoot)) = .ok none s' ∧
    events .new (cutInputs.flatMap (·.1)) = [.char 'h', .arrowLeft] ∧
    s'.decoder = .new ∧ s'.decodedEvents = 4 := by
  have hwf : (InputLoop.fresh (silentWorld.entered sampleBoot)).loop.WellFormed :=
    entered_wellFormed silentWorld_booted.inv
  have hevents :
      inputEvents (InputLoop.fresh (silentWorld.entered sampleBoot)).decoder cutInputs =
        [.char 'h', .char 'x', .arrowLeft, .char 'y'] := by decide +kernel
  have hnothing : (InputLoop.fresh (silentWorld.entered sampleBoot)).loop.desk.submits
      [.char 'h', .char 'x', .arrowLeft, .char 'y'] = [] := by decide +kernel
  have hrounds : ∃ s', (rounds sampleBoot cutInputs).run
      (InputLoop.fresh (silentWorld.entered sampleBoot)) = .ok none s' ∧
      Proceeds sampleBoot 5 (inputEvents _ cutInputs) _ s' :=
    rounds_proceed sampleBoot_successful (by rw [hevents]; decide)
      (by rw [hevents, hnothing]; exact fun _ => nofun) ⟨hwf, silentWorld_steady, by decide⟩
      (by rw [hevents]; decide)
  rcases hrounds with ⟨s', hrun, _⟩
  rcases rounds_decode sampleBoot _ _ _ hrun with ⟨hdecoder, hcount⟩
  refine ⟨s', hrun, by decide +kernel, ?_, ?_⟩
  · rw [hdecoder]
    decide +kernel
  · rw [hcount]
    decide +kernel

end

end JingOS.Monitor
