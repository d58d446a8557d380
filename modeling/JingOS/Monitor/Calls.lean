import JingOS.Lib.Calls
import JingOS.Monitor.Footprint

/-!
# The calls of the monitor

What the monitor does for its keys is a run of calls of `execute_command`, and around them only the
changes that the loop makes by itself: a look at the clock, a text on both consoles, a line in the
history. The log of a `Loop` is the list of these calls.

* `Executes` — such a run: every call begins where the changes before it end, and what comes next
  begins in the state that it has left;
* `Leads` — from one state of the loop to a later one, with the calls that the log has got since;
* `handleKeyEvent_leads` — a key is a call or none.
-/

namespace JingOS.Monitor

open Ascii Hoare Relation Text
open JingOS.Keyboard

/-! ## Access -/

/-- What the first may change, the second may change. -/
structure Access.Within (access access' : Access) : Prop where
  rate : access.rate → access'.rate
  tasks : access.tasks → access'.tasks
  auto : access.auto → access'.auto
  session : access.session → access'.session
  history : access.history → access'.history
  apart : access.apart → access'.apart
  screen : access.screen → access'.screen

/-- What a key changes by itself. -/
def keyAccess : Access := { history := true }

/-- What the loop around the commands changes of itself. -/
def loopAccess : Access := { tasks := true, auto := true, session := true, history := true }

theorem within_all (access : Access) : access.Within .all :=
  ⟨fun _ => rfl, fun _ => rfl, fun _ => rfl, fun _ => rfl, fun _ => rfl, fun _ => rfl, fun _ => rfl⟩

section

variable {boot : Boot} {access access' : Access} {w w' v : World}

theorem World.Step.within (h : access.Within access') (hstep : World.Step boot access w v) :
    World.Step boot access' w v := by
  cases hstep with
  | look => exact .look w
  | shows _ text => exact .shows w text
  | sends ha _ text => exact .sends (h.apart ha) w text
  | draws ha _ text => exact .draws (h.apart ha) w text
  | clears ha => exact .clears (h.screen ha) w
  | rate ha _ requestedHz => exact .rate (h.rate ha) w requestedHz
  | calls ha _ op hinit hnow => exact .calls (h.tasks ha) w op hinit hnow
  | auto ha _ autoScheduler => exact .auto (h.auto ha) w autoScheduler
  | session ha _ session userMem => exact .session (h.session ha) w session userMem
  | history ha _ history hinv => exact .history (h.history ha) w history hinv

theorem moves_within (h : access.Within access')
    (hmoves : ReflTransGen (World.Step boot access) w v) :
    ReflTransGen (World.Step boot access') w v :=
  into (fun _ => .refl) (fun _ _ _ => ReflTransGen.trans)
    (fun _ _ hstep => .single (hstep.within h)) hmoves

end

/-! ## Calls -/

/-- The call was made in the first state, ended as `execute_command` ends there, and has left the
second state. -/
structure Call.Made (boot : Boot) (call : Call) (w w' : World) : Prop where
  world : call.world = w
  result : call.result = (executeCommand boot call.text).run w
  after : w' = endState call.result

/-- From one state to another by calls, with the changes of `access` around them. -/
abbrev Executes (boot : Boot) (access : Access) : World → List Call → World → Prop :=
  Calls.Run (World.Step boot access) (Call.Made boot)

/-- The call returned, and the monitor goes on. -/
def Call.Returned (call : Call) : Prop := ∃ w, call.result = .ok false w

section

variable {boot : Boot} {access access' : Access} {w w' : World} {call : Call} {calls : List Call}

/-- A call has the access of its command word. -/
theorem Call.Made.moves (h : call.Made boot w w') :
    ReflTransGen (World.Step boot (accessOfLine call.text)) w w' := by
  rw [h.after, h.result]
  exact executeCommand_moves boot call.text w

theorem Executes.moves (hloop : access.Within access')
    (hcalls : ∀ call ∈ calls, (accessOfLine call.text).Within access')
    (h : Executes boot access w calls w') : ReflTransGen (World.Step boot access') w w' :=
  Calls.Run.into (fun _ => .refl) (fun _ _ _ => ReflTransGen.trans)
    (fun _ _ hstep => .single (hstep.within hloop)) h
    fun call hcall _ _ hmade => moves_within (hcalls call hcall) hmade.moves

/-- What is sent during a run comes behind what was sent before it. -/
theorem Executes.serial (h : Executes boot access w calls w') :
    ∃ text, w'.serial = w.serial ++ text :=
  (World.Footprint.moves (Executes.moves (within_all access) (fun _ _ => within_all _) h)).serial

theorem Executes.inv (hw : w.Inv) (h : Executes boot access w calls w') : w'.Inv :=
  into (t := fun w w' => w.Inv → w'.Inv) (fun _ => id) (fun _ _ _ h h' hw => h' (h hw))
    (fun _ _ => step_inv) (Executes.moves (within_all access) (fun _ _ => within_all _) h) hw

/-- A call of a run: where it was made, how it ended, and that the run goes on behind it. -/
theorem Executes.at_call (h : Executes boot access w calls w') (hcall : call ∈ calls) (hw : w.Inv) :
    call.world.Inv ∧ call.result = (executeCommand boot call.text).run call.world ∧
      ∃ text, w'.serial = (endState call.result).serial ++ text := by
  rcases Calls.Run.of_mem h hcall with ⟨_, _, w₁, w₂, _, hfront, hmade, hback⟩
  have hworld := hmade.world
  subst hworld
  have hsent := Executes.serial hback
  rw [hmade.after] at hsent
  exact ⟨Executes.inv hw hfront, hmade.result, hsent⟩

/-! ## Lines that come back -/

/-- The words end neither the kernel nor the monitor, and do not leave for ring 3. -/
def Peaceful (words : List String) : Prop :=
  (∀ stop, ¬ Causes words stop) ∧ words.head? ≠ some "exit" ∧ words.head? ≠ some "quit"

/-- A line that does nothing dangerous comes back. -/
theorem executeCommand_returns (hboot : boot.Successful) {line : String}
    (h : Peaceful (splitWhitespace line)) (hw : w.Inv) :
    ∃ w', (executeCommand boot line).run w = .ok false w' := by
  have hcauses : Safe (Framed (fun _ => ()) ()) _ (executeCommand boot line) :=
    executeCommand_causes hboot (fun _ _ => rfl) line
  have hends := hcauses w ⟨hw, rfl⟩
  cases hrun : (executeCommand boot line).run w with
  | error stop w' => exact absurd (hcauses.of_error ⟨hw, rfl⟩ hrun).1 (h.1 stop)
  | ok left w' =>
    refine ⟨w', ?_⟩
    have hstay : left = false := executeCommand_stays h.2.1 h.2.2 hrun
    rw [hstay]

/-- So do all calls of peaceful lines. -/
theorem Executes.returned (hboot : boot.Successful) (h : Executes boot access w calls w')
    (hw : w.Inv) (hpeaceful : ∀ call ∈ calls, Peaceful (splitWhitespace call.text)) :
    ∀ call ∈ calls, call.Returned := by
  intro call hcall
  rcases Executes.at_call h hcall hw with ⟨hinv, hresult, _⟩
  rcases executeCommand_returns hboot (hpeaceful call hcall) hinv with ⟨w', hrun⟩
  exact ⟨w', hresult.trans hrun⟩

end

/-! ## Keys -/

section

variable {boot : Boot} {access : Access} {s s' s'' : Loop}

/-- From one state of the loop to a later one: the log has got some calls more, and the state has
changed by these calls and by the loop's own changes. -/
def Leads (boot : Boot) (access : Access) (s s' : Loop) : Prop :=
  ∃ calls, s'.calls = s.calls ++ calls ∧ Executes boot access s.world calls s'.world

/-- Changes of the world alone. -/
theorem Leads.world (hcalls : s'.calls = s.calls)
    (hmoves : ReflTransGen (World.Step boot access) s.world s'.world) : Leads boot access s s' :=
  ⟨[], by rw [hcalls, List.append_nil], .idle hmoves⟩

theorem Leads.refl (s : Loop) : Leads boot access s s := Leads.world rfl .refl

theorem Leads.trans (h : Leads boot access s s') (h' : Leads boot access s' s'') :
    Leads boot access s s'' := by
  rcases h with ⟨calls, hcalls, hrun⟩
  rcases h' with ⟨calls', hcalls', hrun'⟩
  exact ⟨calls ++ calls', by rw [hcalls', hcalls, List.append_assoc], hrun.append hrun'⟩

/-- The calls have the access of their command words, the rest has that of the loop. -/
theorem Leads.moves {access' : Access} (hloop : access.Within access')
    (hcalls : ∀ call ∈ s'.calls, (accessOfLine call.text).Within access')
    (h : Leads boot access s s') : ReflTransGen (World.Step boot access') s.world s'.world := by
  rcases h with ⟨calls, hlog, hrun⟩
  refine Executes.moves hloop (fun call hcall => hcalls call ?_) hrun
  rw [hlog]
  exact List.mem_append_right _ hcall

/-- How a program that has started in `s` ends: at its return the loop is well-formed, at a stop
the world is in order, and `s` leads there. -/
def Leaves (boot : Boot) (access : Access) {α : Type} (s : Loop) :
    EStateM.Result Stop Loop α → Prop
  | .ok _ s' => s'.WellFormed ∧ Leads boot access s s'
  | .error _ s' => s'.world.Inv ∧ Leads boot access s s'

/-- An answer is a text on both consoles, and perhaps another place in the history. -/
theorem Answers.moves (h : access.history) {d : Desk} {out : String}
    (hanswers : Answers boot s d out s') :
    ReflTransGen (World.Step boot access) s.world s'.world := by
  rw [hanswers.world]
  refine .head (.shows s.world out) (.single (.history h _ _ fun _ => ?_))
  exact hanswers.wellFormed.world.history

/-- Enter is one call. -/
theorem enterKey_leads (hboot : boot.Successful) (haccess : access.history) (h : s.WellFormed) :
    Leaves boot access s ((enterKey boot).run s) := by
  rcases enterKey_run hboot h with ⟨history, hwf, _, henter⟩
  have hbefore : ReflTransGen (World.Step boot access) s.world (s.call boot history).world :=
    .head (.shows s.world "\n") (.single (.history haccess _ _ fun _ => hwf.toInv))
  have hmade : (s.call boot history).Made boot (s.call boot history).world
      (endState (s.call boot history).result) := ⟨rfl, rfl, rfl⟩
  cases hresult : (s.call boot history).result with
  | error stop w =>
    rw [hresult] at henter hmade
    rw [henter.1]
    exact ⟨henter.2.1, _, rfl, .call hbefore hmade (Calls.Run.refl w)⟩
  | ok left w =>
    rw [hresult] at henter hmade
    rcases henter with ⟨s', hrun, hwf', _, hcalls, hworld⟩
    rw [hrun]
    refine ⟨hwf', _, hcalls, .call hbefore hmade (.idle ?_)⟩
    -- behind the call: the prompt, and the end of browsing
    rw [hworld]
    exact .head (.shows w _) (.single (.history haccess _ _ fun _ => hwf'.world.history))

/-- Enter with a line that comes back. -/
theorem enterKey_returns (hboot : boot.Successful) (h : s.WellFormed) {line : String}
    (hline : asciiText s.desk.editor.text = line) (hpeaceful : Peaceful (splitWhitespace line)) :
    ∃ s' call, (enterKey boot).run s = .ok false s' ∧
      s'.desk = s.desk.after false (.key 0 .enter) ∧ s'.calls = s.calls ++ [call] ∧
      call.text = line := by
  rcases enterKey_run hboot h with ⟨history, hwf, _, henter⟩
  have hinv : (s.call boot history).world.Inv := Loop.call_inv boot h hwf
  have htext : (s.call boot history).text = line := hline
  rcases executeCommand_returns hboot hpeaceful hinv with ⟨w, hrun⟩
  rw [Loop.call_result, htext, hrun] at henter
  rcases henter with ⟨s', hkey, _, hdesk, hcalls, _⟩
  exact ⟨s', s.call boot history, hkey, hdesk, hcalls, htext⟩

theorem handleKeyEvent_leads (hboot : boot.Successful) (haccess : access.history) (raw : UInt8)
    (event : KeyEvent) (h : s.WellFormed) :
    Leaves boot access s ((handleKeyEvent boot raw event).run s) := by
  by_cases hevent : event = .enter
  · subst hevent
    exact enterKey_leads hboot haccess h
  · rcases key_replies boot h raw hevent with ⟨s', hrun, hanswers⟩
    rw [hrun]
    exact ⟨hanswers.wellFormed, Leads.world hanswers.calls (hanswers.moves haccess)⟩

end

end JingOS.Monitor
