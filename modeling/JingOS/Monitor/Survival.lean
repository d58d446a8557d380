import JingOS.Monitor.Safety

/-!
# Which command lines the monitor survives

The monitor runs from event to event: keys, interrupts, commands, steps of the automatic
scheduler, sessions in ring 3. In every state reached in this way a command line is survived
unless it is `vm` with an address that is not canonical.

* `Reachable` — the states between two events;
* `reachable_inv` — they satisfy the invariant of the commands;
* `Survives` — a command line does not end the kernel, and look-ups come back to the prompt;
* `Causes` — the stops that a command line may lead to.
-/

namespace JingOS.Monitor

open Checked Hoare Text
open JingOS.Framebuffer JingOS.Memory JingOS.Syscall JingOS.Task JingOS.Usermode

/-! ## Runs of the monitor -/

/-- A command line: printable ASCII, at most as long as the input line. -/
structure CommandLine where
  text : String
  printable : ∀ c ∈ text.toList, 0x20 ≤ c.toNat ∧ c.toNat ≤ 0x7e
  length_le : text.toList.length ≤ inputLineMax

/-- The words of a line. -/
def CommandLine.words (line : CommandLine) : List String := splitWhitespace line.text

/-- What happens in `input_loop`. -/
inductive Event where
  | interrupts
  /-- The prompt and the echo of keys. -/
  | show (text : String)
  | pushLine (line : InputLine) (hline : line.Inv)
  | previous
  | next
  | resetBrowsing
  | command (line : CommandLine)
  | maybeRun (nowTick : UInt64)

/-- The history after an operation on it. -/
def updateHistory (operation : CommandHistory → Checked CommandHistory) : MonitorM Unit := do
  let w ← get
  let history ← checked (operation w.history)
  set { w with history }

def Event.program (boot : Boot) : Event → MonitorM Unit
  | .interrupts => modify World.interrupted
  | .show text => consolePrint boot text
  | .pushLine line _ => updateHistory (·.pushLine line)
  | .previous => updateHistory fun h => (·.2) <$> h.previous
  | .next => updateHistory fun h => (·.2) <$> h.next
  | .resetBrowsing => updateHistory fun h => pure h.resetBrowsing
  | .command line => do
    let _ ← executeCommand boot line.text
    pure ()
  | .maybeRun nowTick => Monitor.maybeRun boot nowTick

/-- The states of a monitor that has not panicked: from the end of boot, by events that return
and by sessions in ring 3 that come back. -/
inductive Reachable (boot : Boot) : World → Prop where
  | entered {w w' : World} (h : Booted boot w) (hrun : (startInputLoop boot).run w = .ok () w') :
      Reachable boot w'
  | returned {w w' : World} (h : Reachable boot w) (event : Event)
      (hrun : (event.program boot).run w = .ok () w') : Reachable boot w'
  | resumed {w w' w'' : World} (h : Reachable boot w) (event : Event) {context : UserModeContext}
      (hring3 : (event.program boot).run w = .error (.ring3 context) w')
      (registers : SyscallRegisters) (hrun : (exitSession boot registers).run w' = .ok () w'') :
      Reachable boot w''

theorem updateHistory_safe {E : Stop → Prop} {operation : CommandHistory → Checked CommandHistory}
    (h : ∀ history : CommandHistory, history.Inv →
      (operation history).Returns CommandHistory.Inv) :
    Safe World.Inv E (updateHistory operation) := by
  refine Safe.get fun w hw => ?_
  refine Ensures.bind (Ensures.lift (h w.history hw.history)) fun history hinv => ?_
  exact Safe.set ⟨hw.writer, hinv, hw.cursor⟩

/-- No event spoils the invariant, not even one that ends in a panic. -/
theorem Event.program_safe {boot : Boot} (h : boot.Successful) (event : Event) :
    Safe World.Inv (fun _ => True) (event.program boot) := by
  have hmap : ∀ {x : Checked (Option HistoryEntry × CommandHistory)},
      x.Returns (fun result => result.2.Inv) → ((·.2) <$> x).Returns CommandHistory.Inv := by
    rintro _ ⟨result, rfl, hinv⟩
    exact ⟨result.2, rfl, hinv⟩
  cases event with
  | interrupts => exact unframed interrupted_safe
  | «show» text => exact unframed (consolePrint_safe text)
  | pushLine line hline => exact updateHistory_safe fun _ hh => CommandHistory.pushLine_returns hh hline
  | previous => exact updateHistory_safe fun _ hh => hmap (CommandHistory.previous_returns hh)
  | next => exact updateHistory_safe fun _ hh => hmap (CommandHistory.next_returns hh)
  | resetBrowsing =>
    exact updateHistory_safe fun _ hh => Returns.pure (CommandHistory.resetBrowsing_inv hh)
  | command line =>
    exact unframed ((executeCommand_safe h (fun _ _ => trivial) (fun _ _ => rfl)
      fun _ => trivial).bind fun _ => Safe.pure _)
  | maybeRun now => exact unframed (maybeRun_safe (fun _ => trivial) (fun _ _ => rfl) now)

/-- The invariant, in every world that the monitor reaches. -/
theorem reachable_inv {boot : Boot} (h : boot.Successful) {w : World} (hw : Reachable boot w) :
    w.Inv := by
  induction hw with
  | entered hbooted hrun =>
    exact ((startInputLoop_safe (E := Never)).of_ok hbooted.inv hrun).2
  | returned _ event hrun ih => exact ((event.program_safe h).of_ok ih hrun).2
  | resumed _ event hring3 registers hrun ih =>
    have hstop := ((event.program_safe h).of_error ih hring3).2
    exact ((exitSession_safe (E := Never) registers).of_ok hstop hrun).2

/-! ## Survival -/

/-- The line does not end the kernel by a panic, and a look-up by `vm` or `vmmap` of a number
comes back to the prompt. -/
structure Survives (boot : Boot) (line : CommandLine) (w : World) : Prop where
  noPanic : ∀ panic w', (executeCommand boot line.text).run w ≠ .error (.panic panic) w'
  backToPrompt : ∀ {command rawAddr rest address},
    line.words = command :: rawAddr :: rest → command = "vm" ∨ command = "vmmap" →
    parseU64 rawAddr = some address → ∃ w', (executeCommand boot line.text).run w = .ok false w'

theorem runCommand_vm (boot : Boot) (line : String) (args : List String) :
    runCommand boot line "vm" args = vmCommand boot args := rfl

theorem runCommand_vmmap (boot : Boot) (line : String) (args : List String) :
    runCommand boot line "vmmap" args = vmmapCommand boot args := rfl

/-- A command other than `exit` and `quit` that returns does so with `false`. -/
theorem executeCommand_ensures {E : Stop → Prop} {boot : Boot} {line command : String}
    {args : List String} (hwords : splitWhitespace line = command :: args)
    (hcommand : ¬ (command = "exit" ∨ command = "quit"))
    (h : Safe World.Inv E (runCommand boot line command args)) :
    Ensures World.Inv E (executeCommand boot line) (· = false) := by
  unfold executeCommand
  rw [hwords]
  simp only
  rw [if_neg hcommand]
  exact Ensures.bind h fun _ _ => Ensures.pure rfl

/-- `vm` reaches `VirtAddr::new` before it has printed anything. -/
theorem executeCommand_panics {boot : Boot} (h : boot.Successful) {line : String}
    (hvm : LooksUpNonCanonical (splitWhitespace line)) (w : World) :
    (executeCommand boot line).run w = .error (.panic VirtAddr.panicNew) w := by
  obtain ⟨offset, hoffset, hreadable⟩ := h.mapped
  obtain ⟨rawAddr, rest, address, hwords, hparse, hcanonical⟩ := hvm
  have hpanic := translateVirtualAddress_panics hreadable hcanonical
  unfold executeCommand
  rw [hwords]
  simp only
  rw [if_neg (by decide), runCommand_vm]
  unfold vmCommand
  rw [hoffset]
  simp only [hparse, hpanic]
  rfl

/-- **Survival.** In every reachable state exactly the lines that make `vm` look up a
non-canonical address end the kernel. -/
theorem survives_iff {boot : Boot} (h : boot.Successful) {w : World} (hw : Reachable boot w)
    (line : CommandLine) : Survives boot line w ↔ ¬ LooksUpNonCanonical line.words := by
  have hinv := reachable_inv h hw
  constructor
  -- a line that looks up such an address panics
  · intro hsurvives hvm
    exact hsurvives.noPanic _ _ (executeCommand_panics h hvm w)
  -- no other line does
  · intro hvm
    refine ⟨?_, ?_⟩
    · intro panic w' hrun
      have hsafe := unframed (executeCommand_safe (E := NoPanic) h (fun _ => id) (fun _ _ => rfl)
        fun hbad => (hvm hbad).elim)
      exact (hsafe.of_error hinv hrun).1 panic rfl
    · intro command rawAddr rest address hwords hcommand hparse
      have hlookup : Safe World.Inv Never (runCommand boot line.text command (rawAddr :: rest)) := by
        rcases hcommand with rfl | rfl
        · -- the address is canonical, for otherwise the line would be a bad one
          rw [runCommand_vm]
          refine unframed (vm_safe h fun raw rest' address' hargs hparse' hcanonical => ?_)
          obtain ⟨rfl, rfl⟩ := List.cons.inj hargs
          exact hvm ⟨_, _, _, hwords, hparse', hcanonical⟩
        · rw [runCommand_vmmap]
          exact unframed (vmmap_safe h _)
      have hleave : ¬ (command = "exit" ∨ command = "quit") := by
        rcases hcommand with rfl | rfl <;> decide
      obtain ⟨_, w', hrun, rfl, _⟩ := (executeCommand_ensures hwords hleave hlookup).returns hinv
      exact ⟨w', hrun⟩

/-! ## How a line ends -/

/-- The commands that may go to ring 3. -/
def ring3Commands : List String :=
  ["taskstep", "taskrun", "usermode", "usermode_syscall", "usermode_syscall_fail"]

/-- The stops that a line of these words may lead to. -/
def Causes (words : List String) : Stop → Prop
  | .panic _ => LooksUpNonCanonical words
  | .fault _ => words.head? = some "fault"
  | .ring3 _ => ∃ command ∈ ring3Commands, words.head? = some command

section

variable {α : Type} {part : World → α} {a : α} [Apart part] {boot : Boot}

/-- What ends the monitor can be told from the line. -/
theorem runCommand_causes (h : boot.Successful)
    (hauto : ∀ (w : World) autoScheduler, part { w with autoScheduler } = part w)
    (line command : String) (args : List String) :
    Safe (Framed part a) (Causes (command :: args)) (runCommand boot line command args) := by
  unfold runCommand
  -- the arms in the order of the match; the causes are those of the four that may stop
  split
  · exact println_safe _
  · exact status_safe
  · exact ticksCommand_safe
  · exact uptime_safe
  · exact timerhz_safe _
  · exact irq_safe
  · exact println_safe _
  · exact maps_safe h.regions _
  · exact heap_safe h.heap
  · exact vm_safe h fun rawAddr rest address hargs hparse hcanonical =>
      ⟨rawAddr, rest, address, by rw [hargs], hparse, hcanonical⟩
  · exact vmmap_safe h _
  · exact fault_safe (fun _ => rfl) _
  · exact syscall_safe _
  · exact sysabi_safe
  · exact tasks_safe
  · exact tasknew_safe _
  · exact taskstep_safe fun _ => ⟨_, by decide, rfl⟩
  · exact taskrun_safe (fun _ => ⟨_, by decide, rfl⟩) _
  · exact tasksleep_safe _
  · exact taskwake_safe _
  · exact taskrm_safe _
  · exact taskprio_safe _
  · exact taskauto_safe hauto _
  · exact userdemo_safe
  · exact usermode_safe fun _ => ⟨_, by decide, rfl⟩
  · exact usermodeSyscall_safe fun _ => ⟨_, by decide, rfl⟩
  · exact usermodeSyscallFail_safe fun _ => ⟨_, by decide, rfl⟩
  · exact println_safe _
  · exact history_safe
  · exact clear_safe
  · exact println_safe _

/-- A line stops the monitor only in the way that its command is for. -/
theorem executeCommand_causes (h : boot.Successful)
    (hauto : ∀ (w : World) autoScheduler, part { w with autoScheduler } = part w) (line : String) :
    Safe (Framed part a) (Causes (splitWhitespace line)) (executeCommand boot line) := by
  unfold executeCommand
  cases splitWhitespace line with
  | nil => exact Safe.pure _
  | cons command args =>
    simp only
    split
    · exact Safe.pure _
    · exact (runCommand_causes h hauto line command args).bind fun _ => Safe.pure _

end

/-- Only two words end the monitor. -/
theorem executeCommand_stays {boot : Boot} {line : String} {left : Bool} {w w' : World}
    (hexit : (splitWhitespace line).head? ≠ some "exit")
    (hquit : (splitWhitespace line).head? ≠ some "quit")
    (hrun : (executeCommand boot line).run w = .ok left w') : left = false := by
  unfold executeCommand at hrun
  revert hexit hquit hrun
  cases splitWhitespace line with
  | nil =>
    rintro - - ⟨⟩
    rfl
  | cons command args =>
    intro hexit hquit hrun
    have hne : ¬ (command = "exit" ∨ command = "quit") := by
      rintro (rfl | rfl)
      · exact hexit rfl
      · exact hquit rfl
    simp only at hrun
    rw [if_neg hne] at hrun
    cases hcommand : (runCommand boot line command args).run w with
    | ok _ w₁ =>
      rw [run_bind_ok hcommand] at hrun
      cases hrun
      rfl
    | error stop w₁ =>
      rw [run_bind_error hcommand] at hrun
      cases hrun

/-! ## A machine -/

/-- A machine with an empty level 4 table and 100 KiB of heap. -/
def sampleBoot : Boot where
  memoryRegions := [⟨0x100000, 0x8000000, .usable⟩]
  memorySummary := summarizeMemory [⟨0x100000, 0x8000000, .usable⟩]
  physicalMemoryOffset := some 0x18000000000
  paging := { cr3 := 0x101000, memory := fun _ => 0, translateAddr := fun _ _ => none }
  font := fun _ => none
  allocates := fun live size => live.sum + size ≤ 100 * 1024
  stackPointer := 0x10000200ff8
  codePointer := 0x8000001230
  readable := fun _ => false

/-- Its state when boot enters `input_loop`, with a screen of one character. -/
def sampleWorld : World where
  kernel := { timer := { Interrupts.Timer.initial with ticks := 5 },
              memorySummary := some sampleBoot.memorySummary }
  keyboardIrqs := 0
  dropped := 0
  tasks := bootstrapped
  autoScheduler := SchedulerAutoMode.new 5
  history := CommandHistory.new
  userModeContext := some ⟨userCodeStart, userStackTop⟩
  session := { exitExpected := false, pendingKind := none, lastReport := none }
  userMem := fun _ => 0
  fastSyscallStatus :=
    { stage := .unsupportedCpu, cpuSupport := false, sceEnabled := false, selectors := none,
      lstar := none, kernelGsBase := none, note := "cpu does not report SYSCALL/SYSRET support" }
  writer := some (FrameBufferWriter.new (List.replicate 64 0) ⟨8, 8, .u8, 1, 8⟩).clear
  serial := ""
  arrivals := fun _ => ⟨1, 0, 0⟩

theorem sampleBoot_successful : sampleBoot.Successful where
  mapped := by
    refine ⟨_, rfl, by decide, ?_⟩
    intro level frame hreached
    -- no entry is present, so the only table is the one in `CR3`
    cases hreached with
    | root => decide
    | entry _ _ index present _ => exact absurd present (by simp [Paging.table, sampleBoot]; decide)
  heap := ⟨_, rfl, trivial⟩
  regions := by decide
  stack := by decide
  code := by decide

theorem sampleWorld_booted : Booted sampleBoot sampleWorld where
  console := by
    rintro _ ⟨⟩
    refine ⟨List.replicate 64 0, ⟨8, 8, .u8, 1, 8⟩, "", ?_, rfl⟩
    constructor <;> decide
  tasks := rfl
  history := rfl
  session := rfl
  context := rfl
  memorySummary := rfl

theorem sample_reachable : ∃ w, Reachable sampleBoot w := by
  obtain ⟨_, w, hrun, _⟩ := (startInputLoop_safe (E := Never)).returns sampleWorld_booted.inv
  exact ⟨w, .entered sampleWorld_booted hrun⟩

/-- `vm` of the demo page. -/
def vmDemoPage : CommandLine := ⟨"vm 0x555555550000", by simp, by decide⟩

/-- `vm` of the lowest address that is not canonical. -/
def vmNonCanonical : CommandLine := ⟨"vm 0x800000000000", by simp, by decide⟩

theorem survives_iff_demo_page : ∃ w, Reachable sampleBoot w ∧ Survives sampleBoot vmDemoPage w := by
  obtain ⟨w, hw⟩ := sample_reachable
  refine ⟨w, hw, (survives_iff sampleBoot_successful hw vmDemoPage).mpr ?_⟩
  rintro ⟨rawAddr, rest, address, hwords, hparse, hcanonical⟩
  have hline : vmDemoPage.words = ["vm", "0x555555550000"] := by decide
  rw [hline, List.cons.injEq, List.cons.injEq] at hwords
  obtain ⟨_, rfl, _⟩ := hwords
  have hnumber : parseU64 "0x555555550000" = some 0x555555550000 := by decide
  rw [hnumber, Option.some.injEq] at hparse
  rw [← hparse] at hcanonical
  exact hcanonical (by decide)

/-- `vm 0x800000000000` ends the kernel; its first word is not `fault`. -/
theorem vm_non_canonical_panics : sampleBoot.Successful ∧
    vmNonCanonical.words.head? ≠ some "fault" ∧
    ∃ w, Reachable sampleBoot w ∧ ¬ Survives sampleBoot vmNonCanonical w ∧
      (executeCommand sampleBoot "vm 0x800000000000").run w =
        .error (.panic VirtAddr.panicNew) w := by
  obtain ⟨w, hw⟩ := sample_reachable
  have hvm : LooksUpNonCanonical vmNonCanonical.words :=
    ⟨"0x800000000000", [], 0x800000000000, by decide, by decide, by decide⟩
  have hrun := executeCommand_panics sampleBoot_successful hvm w
  exact ⟨sampleBoot_successful, by decide, w, hw, fun hsurvives => hsurvives.noPanic _ _ hrun, hrun⟩

end JingOS.Monitor
