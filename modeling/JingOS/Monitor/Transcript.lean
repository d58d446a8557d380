import JingOS.Monitor.Delivery
import JingOS.Monitor.Keeping

/-!
# The history over whole runs

`history` prints what a ring of 16 entries holds, and every line that was submitted has gone
through `push_line`. Here the ring is compared with the log of the run.

* `remembered` — what is left of a log of lines;
* `Transcribed` — every line was executed with the log up to itself;
* `history_tells_log` — so every `history` of a run prints the newest lines of the log.
-/

namespace JingOS.Monitor

open Ascii Checked Hoare Text
open JingOS.Keyboard

/-! ## The log -/

/-- The lines of some calls that are worth keeping, the oldest first. -/
def keptLines (calls : List Call) : List (List UInt8) :=
  (calls.map fun call => textBytes call.text).foldl keep []

/-- The newest 16 of them. -/
def remembered (calls : List Call) : List (List UInt8) :=
  (keptLines calls).drop ((keptLines calls).length - historyCapacity)

theorem keptLines_concat (calls : List Call) (call : Call) :
    keptLines (calls ++ [call]) = keep (keptLines calls) (textBytes call.text) := by
  unfold keptLines
  rw [List.map_append, List.foldl_append]
  rfl

/-- The ring holds what is left of the log. -/
def Remembers (r : Recall) (calls : List Call) : Prop :=
  r.lines = (keptLines calls).reverse.take historyCapacity

/-- Every line was executed in a state whose history is the log up to that line. -/
def Transcribed (calls : List Call) : Prop :=
  ∀ i call, calls[i]? = some call → call.world.Inv ∧ call.world.history.WellFormed ∧
    Remembers call.world.history.recalled (calls.take (i + 1))

section

variable {r : Recall} {calls : List Call}

theorem Remembers.reverse (h : Remembers r calls) :
    r.lines.reverse = remembered calls := by
  rw [h, List.take_reverse, List.reverse_reverse]
  rfl

/-- Whether a text is browsed makes no difference to what is kept. -/
theorem lines_push (r : Recall) (text : List UInt8) :
    (r.push text).lines = (({ r with age := none } : Recall).push text).lines := by
  unfold Recall.push
  split
  · rfl
  · split <;> rfl

/-- The line goes into the ring and into the log. -/
theorem Remembers.push (h : Remembers r calls) {call : Call} {text : List UInt8}
    (htext : textBytes call.text = text) : Remembers (r.push text) (calls ++ [call]) := by
  -- the shelf of all kept lines, of which nothing is looked at
  have hmirrors : Mirrors { r with age := none } ⟨keptLines calls, none⟩ :=
    ⟨h, rfl, by simp⟩
  unfold Remembers
  rw [lines_push, (hmirrors.push text).lines, keptLines_concat, htext]
  rfl

theorem Transcribed.nil : Transcribed [] := by
  intro i call hcall
  rw [List.getElem?_nil] at hcall
  cases hcall

/-- One call more. -/
theorem Transcribed.concat (h : Transcribed calls) {call : Call} (hworld : call.world.Inv)
    (hhistory : call.world.history.WellFormed)
    (hcall : Remembers call.world.history.recalled (calls ++ [call])) :
    Transcribed (calls ++ [call]) := by
  intro i call' hget
  -- a line of before, the new one, or none
  rcases Nat.lt_trichotomy i calls.length with hlt | rfl | hgt
  · rw [List.getElem?_append_left hlt] at hget
    rw [List.take_append_of_le_length hlt]
    exact h i call' hget
  · rw [List.getElem?_concat_length] at hget
    cases hget
    rw [List.take_of_length_le (by rw [List.length_append, List.length_singleton])]
    exact ⟨hworld, hhistory, hcall⟩
  · rw [List.getElem?_eq_none (by rw [List.length_append, List.length_singleton]; exact hgt)] at hget
    cases hget

end

/-! ## Keys -/

/-- No key but Enter changes what is kept. -/
theorem Desk.key_lines (d : Desk) (scancode : UInt8) (event : KeyEvent) :
    (d.key scancode event).1.recalled.lines = d.recalled.lines := by
  -- no edit, move or completion touches the history
  have hedit : ∀ op refused, (d.edit op refused).1.recalled.lines = d.recalled.lines := by
    intro op refused
    unfold Desk.edit
    split <;> rfl
  have hmove : ∀ op, (d.move op).1.recalled.lines = d.recalled.lines := by
    intro op
    unfold Desk.move
    split <;> rfl
  have hprevious : d.recalled.previous.lines = d.recalled.lines := by
    unfold Recall.previous
    split <;> rfl
  have hnext : d.recalled.next.lines = d.recalled.lines := by
    unfold Recall.next
    split <;> rfl
  cases event with
  | char c => exact hedit _ _
  | backspace | delete | wordDeleteLeft | wordDeleteRight => exact hedit _ _
  | arrowLeft | arrowRight | wordLeft | wordRight | home | «end» => exact hmove _
  | ctrl | alt | ctrlAlt | enter | pageUp | pageDown | function | escape | unknown => rfl
  | arrowUp =>
    change d.older.1.recalled.lines = _
    unfold Desk.older
    split
    · rfl
    · exact hprevious
  | arrowDown => exact hnext
  | insert => rfl
  | tab =>
    change d.complete.1.recalled.lines = _
    rcases d.complete_cases with h | ⟨_, _, _, _, _, h⟩ | h <;> rw [h]
    · exact hmove _
    · rfl

section

variable {boot : Boot}

/-- A state in a round whose history is that of its lines. -/
structure Logged (s : Loop) : Prop where
  wellFormed : s.WellFormed
  remembers : Remembers s.world.history.recalled s.calls
  transcribed : Transcribed s.calls

/-- The same where the round stops: the line that stops it has been executed too. -/
def LoggedStop (s : Loop) : Prop := s.world.Inv ∧ Transcribed s.calls

/-- Enter logs one line. -/
theorem enterKey_logs (hboot : boot.Successful) :
    Triple (fun s => Logged s.loop) (inLoop (enterKey boot)) (fun _ s => Logged s.loop)
      (fun _ s => LoggedStop s.loop) := by
  intro s hs
  rcases enterKey_run hboot hs.wellFormed with ⟨history, hhistory, hrecall, henter⟩
  let call : Call := s.loop.call boot history
  have hworld : call.world.Inv := Loop.call_inv boot hs.wellFormed hhistory
  have htext : textBytes call.text = s.loop.desk.editor.text :=
    textBytes_asciiText hs.wellFormed.line.ascii
  -- the line is in the ring before it is executed
  have hremembers : Remembers history.recalled (s.loop.calls ++ [call]) := by
    rw [hrecall]
    exact hs.remembers.push htext
  have hcalls : Transcribed (s.loop.calls ++ [call]) :=
    hs.transcribed.concat hworld hhistory hremembers
  cases hrun : (s.loop.call boot history).result with
  | ok left w =>
    rw [hrun] at henter
    rcases henter with ⟨s', henter, hwf, hdesk, hcalls', _⟩
    rw [inLoop_run henter]
    refine ⟨hwf, ?_, ?_⟩
    · have hsame : s'.world.history.recalled.lines = history.recalled.lines := by
        change s'.desk.recalled.lines = _
        rw [hdesk, hrecall]
        cases left <;> rfl
      change s'.world.history.recalled.lines = _
      rw [hsame, hremembers, ← hcalls']
    · change Transcribed s'.calls
      rw [hcalls']
      exact hcalls
  | error stop w =>
    rw [hrun] at henter
    rw [inLoop_stops henter.1]
    exact ⟨henter.2.1, hcalls⟩

theorem handleKeyEvent_logs (hboot : boot.Successful) (raw : UInt8) (event : KeyEvent) :
    Triple (fun s => Logged s.loop) (inLoop (handleKeyEvent boot raw event))
      (fun _ s => Logged s.loop) (fun _ s => LoggedStop s.loop) := by
  refine handleKeyEvent_keeps (fun _ hs => hs.wellFormed) (enterKey_logs hboot) raw event ?_
  intro s loop out hs hanswers
  refine ⟨hanswers.wellFormed, ?_, ?_⟩
  · change loop.desk.recalled.lines = (keptLines loop.calls).reverse.take historyCapacity
    rw [hanswers.calls, hanswers.desk, Desk.key_lines]
    exact hs.remembers
  · change Transcribed loop.calls
    rw [hanswers.calls]
    exact hs.transcribed

theorem inWorld_logs {α : Type} {x : MonitorM α}
    (hx : ∀ history, Safe (Framed World.history history) (fun _ => True) x) :
    Triple (fun s => Logged s.loop) (inLoop (inWorld x)) (fun _ s => Logged s.loop)
      (fun _ s => LoggedStop s.loop) := by
  refine inWorld_keeps (fun _ hs => hs.wellFormed) hx (fun s w hs hinv hsame => ?_)
    fun _ _ _ hs _ _ hinv => ⟨hinv, hs.transcribed⟩
  refine ⟨hs.wellFormed.withWorld hinv hsame, ?_, hs.transcribed⟩
  change Remembers w.history.recalled s.loop.calls
  rw [hsame]
  exact hs.remembers

/-- **A round.** History and log stay together. -/
theorem logs_rule (hboot : boot.Successful) :
    RoundRule boot (fun _ s => Logged s.loop) (fun _ s => LoggedStop s.loop) where
  fewer _ hs := hs
  decoder _ hs := hs
  counted hs _ := hs
  uncounted hs _ := ⟨hs.wellFormed.world, hs.transcribed⟩
  deadline _ hs := hs
  key _ raw event := handleKeyEvent_logs hboot raw event
  returns _ hx := inWorld_logs fun history => (hx history).mono (fun _ => False.elim) fun _ => id
  auto _ now := inWorld_logs (maybeRun_keeps now)

/-! ## Runs -/

theorem fresh_logged {w : World} (hw : w.Inv) : Logged (Loop.fresh (w.entered boot)) :=
  ⟨entered_wellFormed hw, rfl, Transcribed.nil⟩

/-- **Run.** The log is complete in every state of the loop. -/
theorem reachable_logged (hboot : boot.Successful) {allowed : String → Prop} {w : World}
    (hw : w.Inv) {s : InputLoop} (hs : InputLoop.Reachable boot allowed w s) : Logged s.loop := by
  induction hs with
  | entered hrun =>
    rw [startInputLoop_run hw] at hrun
    cases hrun
    exact fresh_logged hw
  | @round _ _ _ scancodes bytes hrun _ ih => exact ((logs_rule hboot).round scancodes bytes).of_ok ih hrun
  | @resumed _ s' w' _ scancodes bytes _ hring3 _ hresumes ih =>
    -- the loop that ring 3 comes back to begins with an empty log
    have hstop := ((logs_rule hboot).round scancodes bytes).of_error ih hring3
    rcases hresumes.entered hstop.1 with ⟨w₁, h₁, heq⟩
    change Logged (Loop.fresh w')
    rw [heq]
    exact fresh_logged h₁

/-- Lines that are printed. -/
def printed (lines : List String) : String := String.join (lines.map (· ++ "\n"))

/-- Lines of output, one after the other. -/
theorem printLines_run {w : World} (hw : w.Inv) (lines : List String) :
    (lines.forM (consolePrintln boot)).run w = .ok () (w.shown boot (printed lines)) := by
  induction lines generalizing w with
  | nil => exact congrArg (EStateM.Result.ok ()) (shown_empty w).symm
  | cons line lines ih =>
    change (consolePrintln boot line >>= fun _ => lines.forM (consolePrintln boot)).run w = _
    rw [run_bind_ok (consolePrintln_run hw line), ih (hw.shown _), shown_shown hw]
    unfold printed
    rw [List.map_cons, String.join_cons]

/-- `history` in a state whose ring holds what is left of a log. -/
theorem history_run {w : World} (hw : w.Inv) (hwf : w.history.WellFormed) {calls : List Call}
    (hremembers : Remembers w.history.recalled calls) {line : String} {args : List String}
    (hline : splitWhitespace line = "history" :: args) :
    (executeCommand boot line).run w =
      .ok false (w.shown boot (printed (historyLines (remembered calls)))) := by
  unfold executeCommand
  rw [hline]
  simp only
  rw [if_neg (by decide)]
  refine run_bind_ok (a := ()) ?_
  change (historyCommand boot).run w = _
  rw [historyCommand_eq boot hwf, printLines_run hw, hremembers.reverse]

/-- The log is a run of calls since the loop was entered, at first or after ring 3. -/
theorem reachable_executes (hboot : boot.Successful) {allowed : String → Prop} {w : World}
    (hw : w.Inv) {s : InputLoop} (hs : InputLoop.Reachable boot allowed w s) :
    ∃ w₀ : World, w₀.Inv ∧ Executes boot loopAccess (w₀.entered boot) s.loop.calls s.loop.world := by
  induction hs with
  | entered hrun =>
    rw [startInputLoop_run hw] at hrun
    cases hrun
    exact ⟨w, hw, Calls.Run.refl _⟩
  | @round s s' hs scancodes bytes hrun _ ih =>
    rcases ih with ⟨w₀, h₀, hexecutes⟩
    -- the calls of the round come behind those of before
    rcases (round_advances hboot (within_self loopAccess) scancodes bytes).executes
      (reachable_logged hboot hw hs).wellFormed with ⟨calls, hcalls, hround⟩
    rw [hrun] at hcalls hround
    refine ⟨w₀, h₀, ?_⟩
    rw [show s'.loop.calls = s.loop.calls ++ calls from hcalls]
    exact hexecutes.append hround
  | @resumed s s' w' hs scancodes bytes _ hring3 _ hresumes _ =>
    -- the log starts anew with the loop that is entered
    have hstop := ((logs_rule hboot).round scancodes bytes).of_error (reachable_logged hboot hw hs)
      hring3
    rcases hresumes.entered hstop.1 with ⟨w₁, h₁, heq⟩
    refine ⟨w₁, h₁, ?_⟩
    change Executes boot loopAccess _ (Loop.fresh w').calls (Loop.fresh w').world
    rw [heq]
    exact Calls.Run.refl _

/-- **The log.** In every run, and however its last round ends: the log is a run of calls of
`execute_command` since the loop was entered, and every `history` among them has printed, on what is
now the serial log, the newest 16 lines worth keeping of those submitted until then, itself the last
of them. At `hlt` the ring holds those submitted until then. -/
theorem history_tells_log (hboot : boot.Successful) {allowed : String → Prop} {w : World}
    (hw : w.Inv) {s s' : InputLoop} (hs : InputLoop.Reachable boot allowed w s)
    {scancodes bytes : List UInt8} (hround : endState ((round boot scancodes bytes).run s) = s') :
    (∃ w₀ : World, Executes boot loopAccess (w₀.entered boot) s'.loop.calls s'.loop.world) ∧
    (∀ (i : ℕ) (call : Call) (args : List String), s'.loop.calls[i]? = some call →
      splitWhitespace call.text = "history" :: args →
      call.result = .ok false (call.world.shown boot
        (printed (historyLines (remembered (s'.loop.calls.take (i + 1)))))) ∧
      ∃ rest, s'.loop.world.serial = call.world.serial ++
        printed (historyLines (remembered (s'.loop.calls.take (i + 1)))) ++ rest) ∧
    s.loop.world.history.recalled.lines.reverse = remembered s.loop.calls := by
  have hlogged := reachable_logged hboot hw hs
  have hrule := (logs_rule hboot).round scancodes bytes
  rcases reachable_executes hboot hw hs with ⟨w₀, h₀, hbefore⟩
  rcases (round_advances hboot (within_self loopAccess) scancodes bytes).executes
    hlogged.wellFormed with ⟨calls, hnew, hlast⟩
  have hexecutes : Executes boot loopAccess (w₀.entered boot) s'.loop.calls s'.loop.world := by
    rw [hround] at hnew hlast
    rw [hnew]
    exact hbefore.append hlast
  -- whether the round has returned or stopped, its log is a transcript
  have hcalls : Transcribed s'.loop.calls := by
    rw [← hround]
    cases hrun : (round boot scancodes bytes).run s with
    | ok exit s₁ => exact (hrule.of_ok hlogged hrun).transcribed
    | error stop s₁ => exact (hrule.of_error hlogged hrun).2
  refine ⟨⟨w₀, hexecutes⟩, fun i call args hcall hline => ?_, hlogged.remembers.reverse⟩
  rcases hcalls i call hcall with ⟨hinv, hwf, hremembers⟩
  -- the call was made, and what it has sent is a part of the serial log
  rcases Executes.at_call hexecutes (List.mem_of_getElem? hcall) (entered_wellFormed h₀).world with
    ⟨_, hresult, rest, hrest⟩
  rw [history_run hinv hwf hremembers hline] at hresult
  rw [hresult] at hrest
  exact ⟨hresult, rest, hrest⟩

end

/-- The letters a to q, the last of them twice, and then `history`. -/
def historyScript : List (List UInt8) :=
  [[0x61], [0x62], [0x63], [0x64], [0x65], [0x66], [0x67], [0x68], [0x69], [0x6a], [0x6b], [0x6c],
   [0x6d], [0x6e], [0x6f], [0x70], [0x71], [0x71], textBytes "history"]

/-- What is kept of them: the second q adds nothing, and a and b have been dropped. -/
def historyKept : List (List UInt8) :=
  [[0x63], [0x64], [0x65], [0x66], [0x67], [0x68], [0x69], [0x6a], [0x6b], [0x6c], [0x6d], [0x6e],
   [0x6f], [0x70], [0x71], textBytes "history"]

theorem historyScript_undisturbing : ∀ line ∈ historyScript.map clipped, Undisturbing line := by
  have hwords : ∀ text ∈ historyScript, splitWhitespace (clipped text) = [asciiText text] ∧
      asciiText text ∉ stoppingCommands ∧ (accessOfLine (clipped text)).auto = false := by
    decide +kernel
  intro line hline
  rcases List.mem_map.mp hline with ⟨text, htext, rfl⟩
  rcases hwords text htext with ⟨hsplit, hpeaceful, hauto⟩
  refine ⟨?_, hauto⟩
  rw [hsplit]
  exact peaceful_words [] hpeaceful

/-- Nineteen lines in one round: the last of them has printed sixteen. -/
theorem history_tells_log_full : ∃ (s' : InputLoop) (call : Call),
    (round sampleBoot [] (submitted historyScript)).run
      (InputLoop.fresh (silentWorld.entered sampleBoot)) = .ok none s' ∧
    s'.loop.calls.length = 19 ∧ s'.loop.calls[18]? = some call ∧ call.text = "history" ∧
    call.result = .ok false (call.world.shown sampleBoot (printed (historyLines historyKept))) ∧
    ∃ rest, s'.loop.world.serial =
      call.world.serial ++ printed (historyLines historyKept) ++ rest := by
  have hwf : (InputLoop.fresh (silentWorld.entered sampleBoot)).loop.WellFormed :=
    entered_wellFormed silentWorld_booted.inv
  have hprintable : ∀ text ∈ historyScript, ∀ byte ∈ text, (0x20 : UInt8) ≤ byte ∧ byte ≤ 0x7E := by
    decide +kernel
  have hsubmits := Desk.submits_script hprintable (editor_of_empty hwf rfl)
  rcases silentWorld_round (fun _ => script_tame hprintable) hsubmits historyScript_undisturbing
      (by decide +kernel) with ⟨s', hrun, htexts, _⟩
  have hlength : s'.loop.calls.length = 19 := by
    have hmapped := congrArg List.length htexts
    rw [List.length_map, List.length_map] at hmapped
    exact hmapped
  have hlast : s'.loop.calls[18]? = some s'.loop.calls[18] := List.getElem?_eq_getElem (by omega)
  have htext : (s'.loop.calls[18]).text = "history" := by
    have hmapped := congrArg (·[18]?) htexts
    simp only [List.getElem?_map, hlast, Option.map_some] at hmapped
    exact Option.some.inj (hmapped.trans (by decide +kernel))
  -- the last 16 of the lines are kept, with the repetition counted once
  have hremembered : remembered (s'.loop.calls.take 19) = historyKept := by
    rw [List.take_of_length_le (Nat.le_of_eq hlength)]
    unfold remembered keptLines
    rw [show (fun call : Call => textBytes call.text) = textBytes ∘ Call.text from rfl,
      ← List.map_map, htexts]
    decide +kernel
  have hreachable : InputLoop.Reachable sampleBoot (fun _ => True) silentWorld
      (InputLoop.fresh (silentWorld.entered sampleBoot)) :=
    .entered (startInputLoop_run silentWorld_booted.inv)
  have hfinal : endState ((round sampleBoot [] (submitted historyScript)).run
      (InputLoop.fresh (silentWorld.entered sampleBoot))) = s' := by rw [hrun]; rfl
  have hwords : splitWhitespace (s'.loop.calls[18]).text = ["history"] := by
    rw [htext]
    decide
  rcases (history_tells_log sampleBoot_successful silentWorld_booted.inv hreachable hfinal).2.1 18 _ []
    hlast hwords with ⟨hresult, hserial⟩
  rw [hremembered] at hresult hserial
  exact ⟨s', _, hrun, hlength, hlast, htext, hresult, hserial⟩

end JingOS.Monitor
