import JingOS.Monitor.Effects
import JingOS.Monitor.Survival

/-!
# What stays as it is

Two readings of `World.Step`, each a preorder on the states that every atomic change respects.

* `World.Footprint` — the parts of the state that a program leaves alone, given its access; what
  the consoles have sent and how often the counters were looked at only grows;
* `Mirrored` — the two consoles were given the same text.
-/

namespace JingOS.Monitor

open Checked Hoare Relation Text
open JingOS.Framebuffer JingOS.Interrupts JingOS.Memory JingOS.Syscall JingOS.Task JingOS.Usermode

/-! ## Looks at the counters -/

/-- Everything that an interrupt moves. -/
def World.counters (w : World) : UInt64 × UInt64 × UInt64 × (ℕ → Burst) :=
  (w.kernel.timer.ticks, w.keyboardIrqs, w.dropped, w.arrivals)

theorem counters_interrupted {w v : World} (h : w.counters = v.counters) :
    w.interrupted.counters = v.interrupted.counters := by
  simp only [World.counters, Prod.mk.injEq] at h
  rcases h with ⟨hticks, hkeyboard, hdropped, harrivals⟩
  simp only [World.counters, World.interrupted, hticks, hkeyboard, hdropped, harrivals]

theorem counters_looks {w v : World} (h : w.counters = v.counters) (n : ℕ) :
    (World.interrupted^[n] w).counters = (World.interrupted^[n] v).counters := by
  induction n generalizing w v with
  | zero => exact h
  | succ n ih =>
    rw [Function.iterate_succ_apply, Function.iterate_succ_apply]
    exact ih (counters_interrupted h)

/-! ## The footprint -/

/-- What a program with the given access leaves as it was. -/
structure World.Footprint (access : Access) (w w' : World) : Prop where
  rate : access.rate = false → w'.kernel.timer.pitHz = w.kernel.timer.pitHz
  tasks : access.tasks = false → w'.tasks = w.tasks
  auto : access.auto = false → w'.autoScheduler = w.autoScheduler
  session : access.session = false → w'.session = w.session ∧ w'.userMem = w.userMem
  history : access.history = false → w'.history = w.history
  memorySummary : w'.kernel.memorySummary = w.kernel.memorySummary
  userModeContext : w'.userModeContext = w.userModeContext
  fastSyscallStatus : w'.fastSyscallStatus = w.fastSyscallStatus
  framebuffer : w'.writer.isSome = w.writer.isSome
  /-- Nothing that was sent is taken back. -/
  serial : ∃ text, w'.serial = w.serial ++ text
  /-- The counters are those of so many looks, in the order in which the interrupts come. -/
  counters : ∃ looks, w'.counters = (World.interrupted^[looks] w).counters

section

variable {boot : Boot} {access : Access} {w v u : World}

theorem World.Footprint.refl (access : Access) (w : World) : w.Footprint access w where
  rate _ := rfl
  tasks _ := rfl
  auto _ := rfl
  session _ := ⟨rfl, rfl⟩
  history _ := rfl
  memorySummary := rfl
  userModeContext := rfl
  fastSyscallStatus := rfl
  framebuffer := rfl
  serial := ⟨"", String.append_empty.symm⟩
  counters := ⟨0, rfl⟩

theorem World.Footprint.trans (h : w.Footprint access v) (h' : v.Footprint access u) :
    w.Footprint access u where
  rate hno := (h'.rate hno).trans (h.rate hno)
  tasks hno := (h'.tasks hno).trans (h.tasks hno)
  auto hno := (h'.auto hno).trans (h.auto hno)
  session hno :=
    ⟨(h'.session hno).1.trans (h.session hno).1, (h'.session hno).2.trans (h.session hno).2⟩
  history hno := (h'.history hno).trans (h.history hno)
  memorySummary := h'.memorySummary.trans h.memorySummary
  userModeContext := h'.userModeContext.trans h.userModeContext
  fastSyscallStatus := h'.fastSyscallStatus.trans h.fastSyscallStatus
  framebuffer := h'.framebuffer.trans h.framebuffer
  serial := by
    rcases h.serial with ⟨text, htext⟩
    rcases h'.serial with ⟨text', htext'⟩
    exact ⟨text ++ text', by rw [htext', htext, String.append_assoc]⟩
  counters := by
    rcases h.counters with ⟨n, hn⟩
    rcases h'.counters with ⟨m, hm⟩
    refine ⟨m + n, ?_⟩
    rw [hm, Function.iterate_add_apply]
    exact counters_looks hn m

/-- What a step leaves alone. -/
theorem World.Footprint.step (h : World.Step boot access w v) : w.Footprint access v := by
  cases h with
  | look => exact { World.Footprint.refl access w with counters := ⟨1, rfl⟩ }
  | shows _ text =>
    exact { World.Footprint.refl access w with
      framebuffer := Option.isSome_map
      serial := ⟨text, rfl⟩ }
  | sends _ _ text => exact { World.Footprint.refl access w with serial := ⟨text, rfl⟩ }
  | draws => exact { World.Footprint.refl access w with framebuffer := Option.isSome_map }
  | clears => exact { World.Footprint.refl access w with framebuffer := Option.isSome_map }
  | rate h => exact { World.Footprint.refl access w with rate := by simp [h] }
  | calls h => exact { World.Footprint.refl access w with tasks := by simp [h] }
  | auto h => exact { World.Footprint.refl access w with auto := by simp [h] }
  | session h => exact { World.Footprint.refl access w with session := by simp [h] }
  | history h => exact { World.Footprint.refl access w with history := by simp [h] }

theorem World.Footprint.moves (h : ReflTransGen (World.Step boot access) w v) : w.Footprint access v :=
  into (World.Footprint.refl access) (fun _ _ _ => World.Footprint.trans)
    (fun _ _ => World.Footprint.step) h

/-! ## Both consoles -/

/-- The framebuffer shows what the text makes of it, and the text is what was sent. -/
def Mirrored (boot : Boot) (w w' : World) : Prop :=
  ∃ text, w'.serial = w.serial ++ text ∧ w'.writer = (w.shown boot text).writer

/-- A program that never writes to one console alone. -/
def Access.Together (access : Access) : Prop := access.apart = false ∧ access.screen = false

theorem mirrored_refl (boot : Boot) (w : World) : Mirrored boot w w := by
  refine ⟨"", String.append_empty.symm, ?_⟩
  rw [shown_empty]

/-- Only the writer itself decides what becomes of it. -/
theorem shown_writer (h : v.writer = u.writer) (text : String) :
    (v.shown boot text).writer = (u.shown boot text).writer := by
  change v.writer.map _ = u.writer.map _
  rw [h]

theorem Mirrored.trans (hw : w.Inv) (h : Mirrored boot w v) (h' : Mirrored boot v u) :
    Mirrored boot w u := by
  rcases h with ⟨text, hserial, hwriter⟩
  rcases h' with ⟨text', hserial', hwriter'⟩
  refine ⟨text ++ text', ?_, ?_⟩
  · rw [hserial', hserial, String.append_assoc]
  · rw [hwriter', ← shown_shown hw]
    exact shown_writer hwriter text'

/-- A step keeps the invariant of the world. -/
theorem step_inv (h : World.Step boot access w v) (hw : w.Inv) : v.Inv := by
  cases h with
  | look => exact ⟨hw.writer, hw.history, hw.cursor⟩
  | shows _ text => exact hw.shown text
  | sends => exact ⟨hw.writer, hw.history, hw.cursor⟩
  | draws _ _ text => exact ⟨(hw.shown text).writer, hw.history, hw.cursor⟩
  | clears =>
    refine ⟨?_, hw.history, hw.cursor⟩
    intro writer hwriter
    rcases Option.map_eq_some_iff.mp hwriter with ⟨old, hold, rfl⟩
    exact FrameBufferWriter.clear_inv (hw.writer old hold)
  | rate => exact ⟨hw.writer, hw.history, hw.cursor⟩
  | calls _ _ op => exact ⟨hw.writer, hw.history, exec_cursor_lt hw.cursor op⟩
  | auto => exact ⟨hw.writer, hw.history, hw.cursor⟩
  | session => exact ⟨hw.writer, hw.history, hw.cursor⟩
  | history _ _ _ hinv => exact ⟨hw.writer, hinv hw.history, hw.cursor⟩

/-- A step of a command that prints on both consoles shows the same on both. -/
theorem step_mirrored (htogether : access.Together) (h : World.Step boot access w v) :
    Mirrored boot w v := by
  have hsame : ∀ v : World, v.serial = w.serial → v.writer = w.writer → Mirrored boot w v := by
    intro v hserial hwriter
    refine ⟨"", by rw [hserial, String.append_empty], ?_⟩
    rw [shown_empty, hwriter]
  cases h with
  | look => exact hsame _ rfl rfl
  | shows _ text => exact ⟨text, rfl, rfl⟩
  | sends h => simp [htogether.1] at h
  | draws h => simp [htogether.1] at h
  | clears h => simp [htogether.2] at h
  | rate => exact hsame _ rfl rfl
  | calls => exact hsame _ rfl rfl
  | auto => exact hsame _ rfl rfl
  | session => exact hsame _ rfl rfl
  | history => exact hsame _ rfl rfl

theorem moves_mirrored (htogether : access.Together) (hw : w.Inv)
    (h : ReflTransGen (World.Step boot access) w v) : v.Inv ∧ Mirrored boot w v := by
  induction h with
  | refl => exact ⟨hw, mirrored_refl boot w⟩
  | tail _ hlast ih =>
    exact ⟨step_inv hlast ih.1, ih.2.trans hw (step_mirrored htogether hlast)⟩

end

/-! ## Every command line -/

/-- **Frame of the commands.** However `execute_command` ends, by a return, a panic, a fault or
in ring 3, what the command word has no access to is as it was. -/
theorem executeCommand_footprint (boot : Boot) (line : String) (w : World) :
    w.Footprint (accessOfLine line) (endState ((executeCommand boot line).run w)) := by
  have hmoves := executeCommand_moves boot line w
  unfold MovesFrom at hmoves
  cases hrun : (executeCommand boot line).run w with
  | ok left w' =>
    rw [hrun] at hmoves
    exact World.Footprint.moves hmoves
  | error stop w' =>
    rw [hrun] at hmoves
    exact World.Footprint.moves hmoves

end JingOS.Monitor
