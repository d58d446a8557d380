import JingOS.Monitor.Deadline
import JingOS.Monitor.Refinement
import JingOS.Monitor.Survival

/-!
# How a run of the monitor ends

A round of `input_loop` may stop: a command has panicked, `fault` has run into a page that is not
there, or the processor has gone to ring 3. Each of these goes back to the line that has been
submitted last, or to the automatic scheduler.

* `Sound`, `Blames` — the states and the stops of a run, with what they owe to the lines so far;
* `reachable_sound` — no line of a run that has come to `hlt` was a fatal one.
-/

namespace JingOS.Monitor

open Ascii Checked Hoare Text
open JingOS.Framebuffer JingOS.Keyboard JingOS.Memory JingOS.Syscall JingOS.Task JingOS.Usermode

/-! ## A round -/

/-- The line ends the kernel. -/
def Call.Fatal (call : Call) : Prop := LooksUpNonCanonical (splitWhitespace call.text)

/-- A state in a round that has begun with `start` calls: none of the lines was fatal, and with
`n` events to come `total` will have been decoded. -/
structure Sound (start total n : ℕ) (s : InputLoop) : Prop where
  wellFormed : s.loop.WellFormed
  spared : ∀ call ∈ s.loop.calls, ¬ call.Fatal
  since : start ≤ s.loop.calls.length
  room : s.decodedEvents + n ≤ total

/-- The stop is that of the last line of the round, or it is due to the automatic scheduler. -/
def Traced (start : ℕ) (stop : Stop) (s : Loop) : Prop :=
  (start < s.calls.length ∧ ∃ call ∈ s.calls.getLast?, Causes (splitWhitespace call.text) stop) ∨
  (∃ context, stop = .ring3 context) ∧ s.world.autoScheduler.enabled = true

/-- A stop of the round: a panic comes of a fatal line, unless there were too many events. -/
def Blames (start total : ℕ) (stop : Stop) (s : InputLoop) : Prop :=
  total < 2 ^ 64 → ((∃ panic, stop = .panic panic) ↔ ∃ call ∈ s.loop.calls, call.Fatal) ∧
    Traced start stop s.loop

section

variable {boot : Boot} {start total n m : ℕ} {s : InputLoop}

theorem Sound.fewer (h : Sound start total n s) (hle : m ≤ n) : Sound start total m s :=
  ⟨h.wellFormed, h.spared, h.since, by have hroom := h.room; omega⟩

theorem inLoop_stops {α : Type} {x : LoopM α} {stop : Stop} {loop : Loop}
    (hrun : x.run s.loop = .error stop loop) : (inLoop x).run s = .error stop { s with loop } := by
  change inLoop x s = _
  unfold inLoop
  rw [show x s.loop = .error stop loop from hrun]

/-- A world with the same history. -/
theorem Loop.WellFormed.withWorld {s : Loop} (h : s.WellFormed) {w : World} (hinv : w.Inv)
    (hsame : w.history = s.world.history) : Loop.WellFormed { s with world := w } := by
  refine ⟨hinv, ?_, h.line⟩
  change w.history.WellFormed
  rw [hsame]
  exact h.history

section

variable {P : InputLoop → Prop} {E : Stop → InputLoop → Prop}

/-- A key keeps what Enter keeps, if the answers of the desk keep it. -/
theorem handleKeyEvent_keeps (hwf : ∀ s, P s → s.loop.WellFormed)
    (henter : Triple P (inLoop (enterKey boot)) (fun _ => P) E) (raw : UInt8) (event : KeyEvent)
    (hkey : ∀ (s : InputLoop) (loop : Loop) (out : String), P s →
      Answers boot s.loop (s.loop.desk.key raw event).1 out loop → P { s with loop }) :
    Triple P (inLoop (handleKeyEvent boot raw event)) (fun _ => P) E := by
  by_cases hevent : event = .enter
  · subst hevent
    exact henter
  · intro s hs
    rcases key_replies boot (hwf s hs) raw hevent with ⟨loop, hrun, hanswers⟩
    rw [inLoop_run hrun]
    exact hkey s loop _ hs hanswers

/-- What runs between two lines leaves the history alone. -/
theorem inWorld_keeps (hwf : ∀ s, P s → s.loop.WellFormed) {α : Type} {x : MonitorM α}
    {stops : Stop → Prop} (hx : ∀ history, Safe (Framed World.history history) stops x)
    (hreturns : ∀ (s : InputLoop) (w : World), P s → w.Inv →
      w.history = s.loop.world.history → P { s with loop := { s.loop with world := w } })
    (hstops : ∀ (s : InputLoop) (w : World) (stop : Stop), P s →
      x.run s.loop.world = .error stop w → stops stop → w.Inv →
      E stop { s with loop := { s.loop with world := w } }) :
    Triple P (inLoop (inWorld x)) (fun _ => P) E := by
  intro s hs
  have hframed : Framed World.history s.loop.world.history s.loop.world := ⟨(hwf s hs).world, rfl⟩
  have hsafe := hx s.loop.world.history
  cases hrun : x.run s.loop.world with
  | ok a w =>
    rcases hsafe.of_ok hframed hrun with ⟨_, hinv, hsame⟩
    rw [inLoop_run (inWorld_ok hrun)]
    exact hreturns s w hs hinv hsame
  | error stop w =>
    rcases hsafe.of_error hframed hrun with ⟨hstop, hinv, _⟩
    rw [inLoop_stops (inWorld_error hrun)]
    exact hstops s w stop hs hrun hstop hinv

end

/-- Enter submits one line; if it is fatal it does panic. -/
theorem enterKey_blames (hboot : boot.Successful) :
    Triple (Sound start total n) (inLoop (enterKey boot)) (fun _ => Sound start total n)
      (Blames start total) := by
  intro s hs
  rcases enterKey_run hboot hs.wellFormed with ⟨history, hhistory, _, henter⟩
  let call : Call := s.loop.call boot history
  have hworld : Framed World.history history call.world :=
    ⟨Loop.call_inv boot hs.wellFormed hhistory, rfl⟩
  have hcauses : Safe (Framed World.history history) _ (executeCommand boot call.text) :=
    executeCommand_causes hboot (fun _ _ => rfl) call.text
  cases hrun : (s.loop.call boot history).result with
  | ok left w =>
    rw [hrun] at henter
    rcases henter with ⟨s', henter, hwf, _, hcalls, _⟩
    rw [inLoop_run henter]
    refine ⟨hwf, fun call' hcall hfatal => ?_, ?_, hs.room⟩
    -- a line of before is not fatal, and this one is not, as it has returned
    · change call' ∈ s'.calls at hcall
      rw [hcalls, List.mem_append, List.mem_singleton] at hcall
      rcases hcall with hold | rfl
      · exact hs.spared call' hold hfatal
      -- a fatal line does not return
      · rw [Loop.call_result, executeCommand_panics hboot hfatal call.world] at hrun
        cases hrun
    · change start ≤ s'.calls.length
      rw [hcalls, List.length_append]
      exact hs.since.trans (Nat.le_add_right _ _)
  | error stop w =>
    rw [hrun] at henter
    rw [inLoop_stops henter.1]
    rw [Loop.call_result] at hrun
    have hcause := (hcauses.of_error hworld hrun).1
    intro _
    refine ⟨⟨?_, ?_⟩, Or.inl ⟨?_, call, ?_, hcause⟩⟩
    · rintro ⟨panic, rfl⟩
      exact ⟨call, List.mem_append_right _ (List.mem_singleton_self _), hcause⟩
    · rintro ⟨call', hcall, hfatal⟩
      -- the lines of before have come back, so it was this one
      rcases List.mem_append.mp hcall with hold | hnew
      · exact absurd hfatal (hs.spared call' hold)
      · rw [List.mem_singleton] at hnew
        subst hnew
        rw [executeCommand_panics hboot hfatal call.world] at hrun
        cases hrun
        exact ⟨_, rfl⟩
    · change start < (s.loop.calls ++ [call]).length
      rw [List.length_append, List.length_singleton]
      exact Nat.lt_succ_of_le hs.since
    · exact List.getLast?_concat

theorem handleKeyEvent_blames (hboot : boot.Successful) (raw : UInt8) (event : KeyEvent) :
    Triple (Sound start total n) (inLoop (handleKeyEvent boot raw event))
      (fun _ => Sound start total n) (Blames start total) := by
  refine handleKeyEvent_keeps (fun _ hs => hs.wellFormed) (enterKey_blames hboot) raw event ?_
  intro s loop out hs hanswers
  refine ⟨hanswers.wellFormed, ?_, ?_, hs.room⟩
  · change ∀ call ∈ loop.calls, _
    rw [hanswers.calls]
    exact hs.spared
  · change start ≤ loop.calls.length
    rw [hanswers.calls]
    exact hs.since

/-- A program that stops only for ring 3, with the automatic scheduler on. -/
theorem inWorld_blames {α : Type} {x : MonitorM α}
    (hx : ∀ history, Safe (Framed World.history history) (fun stop => ∃ context, stop = .ring3 context) x)
    (hauto : ∀ {w w' : World} {stop : Stop}, w.Inv → x.run w = .error stop w' →
      w'.autoScheduler.enabled = true) :
    Triple (Sound start total n) (inLoop (inWorld x)) (fun _ => Sound start total n)
      (Blames start total) := by
  refine inWorld_keeps (fun _ hs => hs.wellFormed) hx (fun s w hs hinv hsame =>
    ⟨hs.wellFormed.withWorld hinv hsame, hs.spared, hs.since, hs.room⟩) ?_
  rintro s w stop hs hrun ⟨context, rfl⟩ -
  refine fun _ => ⟨⟨nofun, ?_⟩, Or.inr ⟨⟨context, rfl⟩, hauto hs.wellFormed.world hrun⟩⟩
  rintro ⟨call, hcall, hfatal⟩
  exact absurd hfatal (hs.spared call hcall)

/-- A program that returns. -/
theorem returns_blames {α : Type} {x : MonitorM α}
    (hx : ∀ history, Safe (Framed World.history history) Never x) :
    Triple (Sound start total n) (inLoop (inWorld x)) (fun _ => Sound start total n)
      (Blames start total) :=
  inWorld_blames (fun history => (hx history).mono (fun _ => False.elim) fun _ => id)
    fun {w} _ _ hw hrun => ((hx w.history).of_error ⟨hw, rfl⟩ hrun).1.elim

/-- **A round.** It blames no line that it should not, and none that it should is missing. -/
theorem blames_rule (hboot : boot.Successful) :
    RoundRule boot (Sound start total) (Blames start total) where
  fewer hle hs := hs.fewer hle
  decoder _ hs := ⟨hs.wellFormed, hs.spared, hs.since, hs.room⟩
  counted {n _ s} hs hadd := by
    have hroom := hs.room
    refine ⟨hs.wellFormed, hs.spared, hs.since, ?_⟩
    rw [add] at hadd
    split at hadd
    · cases hadd
      change s.decodedEvents + 1 + n ≤ total
      omega
    · cases hadd
  uncounted {n s _} hs hadd hlimit := by
    have hroom := hs.room
    rw [add, if_pos (by omega)] at hadd
    cases hadd
  deadline _ hs := ⟨hs.wellFormed, hs.spared, hs.since, hs.room⟩
  key _ raw event := handleKeyEvent_blames hboot raw event
  returns _ hx := returns_blames hx
  auto _ now := inWorld_blames (fun _ => maybeRun_safe (fun context => ⟨context, rfl⟩)
    (fun _ _ => rfl) now) maybeRun_enabled

/-! ## A run -/

/-- At `hlt` no line has been a fatal one. -/
theorem reachable_sound (hboot : boot.Successful) {allowed : String → Prop} {w : World} (hw : w.Inv)
    (hs : InputLoop.Reachable boot allowed w s) :
    Sound s.loop.calls.length (s.decodedEvents + n) n s := by
  have hstart : ∀ {s : InputLoop}, s.loop.WellFormed → (∀ call ∈ s.loop.calls, ¬ call.Fatal) →
      ∀ n, Sound s.loop.calls.length (s.decodedEvents + n) n s :=
    fun hwf hspared _ => ⟨hwf, hspared, Nat.le_refl _, Nat.le_refl _⟩
  induction hs generalizing n with
  | @entered w' hrun =>
    rw [startInputLoop_run hw] at hrun
    cases hrun
    exact hstart (entered_wellFormed hw) (fun _ hcall => absurd hcall List.not_mem_nil) n
  | @round s s' _ scancodes bytes hrun _ ih =>
    have hround := ((blames_rule hboot).round scancodes bytes).of_ok ih hrun
    exact hstart hround.wellFormed hround.spared n
  | @resumed s s' w' hs scancodes bytes context hring3 hcalls hresumes ih =>
    have hadvances : Advances boot .all (round boot scancodes bytes) :=
      round_advances hboot (within_all _) scancodes bytes
    have hround := hadvances s (ih (n := 0)).wellFormed
    rw [hring3] at hround
    rcases hresumes.entered hround.1 with ⟨w₁, h₁, heq⟩
    refine hstart ?_ (fun _ hcall => absurd hcall List.not_mem_nil) n
    change (Loop.fresh w').WellFormed
    rw [heq]
    exact entered_wellFormed h₁

end

end JingOS.Monitor
