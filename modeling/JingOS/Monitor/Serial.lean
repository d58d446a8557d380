import JingOS.Host.Script
import JingOS.Monitor.Calls

/-!
# Scripts over the serial line

A byte from the serial port is a key. A text types itself, up to the length of the line, and the
carriage return behind it submits what was typed.

* `pollSerial_text` — typing, in either mode;
* `pollSerial_texts` — one call for each text, as long as the calls return;
* `script_executed` — the host's script and the guest's keys together.
-/

namespace JingOS.Monitor

open Ascii Checked Hoare Text
open JingOS.Framebuffer JingOS.Host JingOS.Keyboard JingOS.Syscall JingOS.Task JingOS.Usermode

section

variable {boot : Boot} {s : Loop}

/-! ## Typing -/

/-- The editor with the cursor behind a text. -/
def Editor.typed (text : List UInt8) : Editor := { text, cursor := text.length }

/-- A character behind the text; a full line refuses it. In overwrite mode there is nothing to
overwrite. -/
theorem step_typed (text : List UInt8) {byte : UInt8} (hbyte : byte < 0x80) (mode : Bool) :
    (Editor.typed text).step (.insertOrOverwriteChar (byteChar byte) mode) =
      if text.length < inputLineMax then some (Editor.typed (text ++ [byte])) else none := by
  have hascii : isAsciiChar (byteChar byte) = true := by
    rw [isAsciiChar, toNat_byteChar hbyte]
    exact decide_eq_true hbyte
  have hsplice : (Editor.typed text).splice [byte] = Editor.typed (text ++ [byte]) := by
    simp [Editor.typed, Editor.splice, Editor.before, Editor.after]
  have hend : (mode && decide ((Editor.typed text).cursor < (Editor.typed text).text.length)) =
      false := by
    simp [Editor.typed]
  unfold Editor.step Editor.insertion
  simp only [hascii, charByte_byteChar hbyte, hsplice, hend, Bool.false_eq_true, if_false, true_and]
  have hlength : (Editor.typed (text ++ [byte])).text.length = text.length + 1 := by
    simp [Editor.typed]
  rw [hlength]
  rfl

/-- What a typed character leaves of the line. -/
theorem key_typed {d : Desk} {text : List UInt8} (hd : d.editor = .typed (text.take inputLineMax))
    {byte : UInt8} (hbyte : byte < 0x80) (scancode : UInt8) :
    (d.key scancode (.char (byteChar byte))).1.editor =
      .typed ((text ++ [byte]).take inputLineMax) := by
  change (d.edit _ _).1.editor = _
  unfold Desk.edit
  rw [hd, step_typed _ hbyte]
  by_cases hfull : text.length < inputLineMax
  · have hlength : (text.take inputLineMax).length < inputLineMax := by
      rw [List.length_take]
      omega
    rw [if_pos hlength, List.take_of_length_le (Nat.le_of_lt hfull), List.take_of_length_le]
    · rfl
    · rw [List.length_append]
      exact hfull
  · have hlength : ¬ (text.take inputLineMax).length < inputLineMax := by
      rw [List.length_take]
      omega
    rw [if_neg hlength, List.take_append_of_le_length (by omega)]
    exact hd

theorem serialByteToKeyEvent_printable {byte : UInt8} (h : 0x20 ≤ byte ∧ byte ≤ 0x7E) :
    serialByteToKeyEvent byte = some (.char (byteChar byte)) := by
  rcases h with ⟨hle, hge⟩
  have hne : ∀ code : UInt8, code < 0x20 ∨ 0x7E < code → byte ≠ code := by
    rintro code hcode rfl
    rw [UInt8.le_iff_toNat_le] at hle hge
    rw [UInt8.lt_iff_toNat_lt, UInt8.lt_iff_toNat_lt] at hcode
    omega
  unfold serialByteToKeyEvent
  rw [if_neg (not_or.mpr ⟨hne _ (by decide), hne _ (by decide)⟩),
    if_neg (not_or.mpr ⟨hne _ (by decide), hne _ (by decide)⟩), if_neg (hne _ (by decide)),
    if_neg (hne _ (by decide)), if_pos ⟨hle, hge⟩]

/-- The clock that is read for every event leaves the desk alone. -/
theorem interrupted_wellFormed (h : s.WellFormed) :
    Loop.WellFormed { s with world := s.world.interrupted } :=
  ⟨⟨h.world.writer, h.world.history, h.world.cursor⟩, h.history, h.line⟩

/-- One byte that is a key, and the rest. -/
theorem pollSerial_cons {byte : UInt8} {event : KeyEvent}
    (hevent : serialByteToKeyEvent byte = some event) (rest : List UInt8) (s : Loop) :
    (pollSerial boot (byte :: rest)).run s =
      EStateM.run (do
        let left ← handleKeyEvent boot byte event
        if left then pure true else pollSerial boot rest)
        { s with world := s.world.interrupted } := by
  have hticks : (inWorld ticks).run s = .ok s.world.interrupted.kernel.timer.ticks
      { s with world := s.world.interrupted } := inWorld_ok rfl
  rw [pollSerial, hevent]
  exact run_bind_ok hticks

variable (boot) in
/-- A text types itself, up to the length of the line. -/
theorem pollSerial_text {text : List UInt8} (htext : ∀ byte ∈ text, 0x20 ≤ byte ∧ byte ≤ 0x7E)
    (rest : List UInt8) {before : List UInt8} (h : s.WellFormed)
    (hline : s.desk.editor = .typed (before.take inputLineMax)) :
    ∃ s₁, s₁.WellFormed ∧ s₁.desk.editor = .typed ((before ++ text).take inputLineMax) ∧
      s₁.calls = s.calls ∧
      (pollSerial boot (text ++ rest)).run s = (pollSerial boot rest).run s₁ := by
  induction text generalizing s before with
  | nil => exact ⟨s, h, by rw [List.append_nil]; exact hline, rfl, rfl⟩
  | cons byte text ih =>
    have hbyte := htext byte List.mem_cons_self
    have hascii : byte < 0x80 := lt_of_printable hbyte
    have hevent : KeyEvent.char (byteChar byte) ≠ .enter := by simp
    rcases key_replies boot (interrupted_wellFormed h) byte hevent with ⟨s₁, hrun, hanswers⟩
    have hline₁ : s₁.desk.editor = .typed ((before ++ [byte]).take inputLineMax) := by
      rw [hanswers.desk]
      exact key_typed hline hascii byte
    rcases ih (fun b hb => htext b (List.mem_cons_of_mem _ hb)) hanswers.wellFormed hline₁ with
      ⟨s₂, hwf₂, hline₂, hcalls₂, hrun₂⟩
    refine ⟨s₂, hwf₂, ?_, hcalls₂.trans hanswers.calls, ?_⟩
    · rw [hline₂, List.append_assoc]
      rfl
    · rw [List.cons_append, pollSerial_cons (serialByteToKeyEvent_printable hbyte),
        run_bind_ok hrun]
      exact hrun₂

/-! ## Texts and their calls -/

/-- The bytes of texts, each with the carriage return that submits it. -/
def submitted (texts : List (List UInt8)) : List UInt8 := texts.flatMap (· ++ [0x0D])

/-- A poll of the serial port is a run of calls, with the loop's own changes around them. -/
theorem pollSerial_leads (hboot : boot.Successful) {access : Access} (haccess : access.history)
    (bytes : List UInt8) (h : s.WellFormed) :
    Leaves boot access s ((pollSerial boot bytes).run s) := by
  induction bytes generalizing s with
  | nil => exact ⟨h, Leads.refl s⟩
  | cons byte rest ih =>
    cases hevent : serialByteToKeyEvent byte with
    | none =>
      rw [pollSerial, hevent]
      exact ih h
    | some event =>
      have hlook : Leads boot access s { s with world := s.world.interrupted } :=
        Leads.world rfl (.single (.look s.world))
      have hkey := handleKeyEvent_leads hboot haccess byte event (interrupted_wellFormed h)
      rw [pollSerial_cons hevent]
      cases hrun : (handleKeyEvent boot byte event).run
          { s with world := s.world.interrupted } with
      | error stop s₁ =>
        rw [hrun] at hkey
        rw [run_bind_error hrun]
        exact ⟨hkey.1, hlook.trans hkey.2⟩
      | ok left s₁ =>
        rw [hrun] at hkey
        rw [run_bind_ok hrun]
        cases left with
        | true => exact ⟨hkey.1, hlook.trans hkey.2⟩
        | false =>
          -- the rest of the bytes from the state behind the key
          have hrest := ih hkey.1
          rw [if_neg (by decide)]
          revert hrest
          cases (pollSerial boot rest).run s₁ with
          | ok _ s₂ => exact fun hrest => ⟨hrest.1, (hlook.trans hkey.2).trans hrest.2⟩
          | error _ s₂ => exact fun hrest => ⟨hrest.1, (hlook.trans hkey.2).trans hrest.2⟩

/-- The calls that have been noted since are those of the run. -/
theorem Leaves.executes {access : Access} {α : Type} {result : EStateM.Result Stop Loop α}
    (h : Leaves boot access s result) {calls : List Call}
    (hcalls : (endState result).calls = s.calls ++ calls) :
    Executes boot access s.world calls (endState result).world := by
  have hleads : Leads boot access s (endState result) := by
    cases result with
    | ok a s' => exact h.2
    | error stop s' => exact h.2
  rcases hleads with ⟨calls', hcalls', hrun⟩
  rw [hcalls'] at hcalls
  rwa [List.append_cancel_left hcalls] at hrun

/-- A text with its carriage return is one call. The poll goes on behind it if the call returned,
and has ended with it otherwise. -/
theorem pollSerial_line (hboot : boot.Successful) {text : List UInt8}
    (htext : ∀ byte ∈ text, 0x20 ≤ byte ∧ byte ≤ 0x7E) (rest : List UInt8) (h : s.WellFormed)
    (hline : s.desk.editor = .typed []) :
    ∃ call : Call, call.text = asciiText (text.take inputLineMax) ∧
      ((∃ s', s'.WellFormed ∧ s'.desk.editor = .typed [] ∧ s'.calls = s.calls ++ [call] ∧
          (pollSerial boot (text ++ 0x0D :: rest)).run s = (pollSerial boot rest).run s') ∨
        ¬ call.Returned ∧
          (endState ((pollSerial boot (text ++ 0x0D :: rest)).run s)).calls =
            s.calls ++ [call]) := by
  have hempty : s.desk.editor = .typed (List.take inputLineMax []) := by
    rw [hline, List.take_nil]
  rcases pollSerial_text boot htext (0x0D :: rest) h hempty with
    ⟨s₁, hwf₁, hline₁, hcalls₁, hrun₁⟩
  rw [List.nil_append] at hline₁
  rw [hrun₁, pollSerial_cons (show serialByteToKeyEvent 0x0D = some .enter from rfl),
    show handleKeyEvent boot 0x0D .enter = enterKey boot from rfl]
  rcases enterKey_run hboot (interrupted_wellFormed hwf₁) with ⟨history, _, _, henter⟩
  refine ⟨Loop.call boot { s₁ with world := s₁.world.interrupted } history, ?_, ?_⟩
  · exact congrArg (fun e : Editor => asciiText e.text) hline₁
  generalize Loop.call boot { s₁ with world := s₁.world.interrupted } history = call at henter ⊢
  cases hcommand : call.result with
  | error stop w =>
    rw [hcommand] at henter
    refine .inr ⟨?_, ?_⟩
    · rintro ⟨w', hreturned⟩
      rw [hcommand] at hreturned
      cases hreturned
    · rw [run_bind_error henter.1, ← hcalls₁]
      rfl
  | ok left w =>
    rw [hcommand] at henter
    rcases henter with ⟨s₂, hrun₂, hwf₂, hdesk₂, hcalls₂, _⟩
    change s₂.calls = s₁.calls ++ [call] at hcalls₂
    rw [hcalls₁] at hcalls₂
    rw [run_bind_ok hrun₂]
    cases left with
    | true =>
      -- the line was `exit` or `quit`
      refine .inr ⟨?_, hcalls₂⟩
      rintro ⟨w', hreturned⟩
      rw [hcommand] at hreturned
      cases hreturned
    | false => exact .inl ⟨s₂, hwf₂, by rw [hdesk₂]; rfl, hcalls₂, rfl⟩

/-- The text of the call that a line leads to. -/
def clipped (text : List UInt8) : String := asciiText (text.take inputLineMax)

/-- Texts are calls in their order, up to the first that does not return. -/
theorem pollSerial_texts (hboot : boot.Successful) {texts : List (List UInt8)}
    (htexts : ∀ text ∈ texts, ∀ byte ∈ text, 0x20 ≤ byte ∧ byte ≤ 0x7E) (h : s.WellFormed)
    (hline : s.desk.editor = .typed []) :
    ∃ calls, (endState ((pollSerial boot (submitted texts)).run s)).calls = s.calls ++ calls ∧
      calls.map Call.text <+: texts.map clipped ∧
      ((∀ call ∈ calls, call.Returned) →
        (∃ s', (pollSerial boot (submitted texts)).run s = .ok false s') ∧
        calls.map Call.text = texts.map clipped) := by
  induction texts generalizing s with
  | nil => exact ⟨[], (List.append_nil _).symm, List.prefix_refl _, fun _ => ⟨⟨s, rfl⟩, rfl⟩⟩
  | cons text texts ih =>
    have hsplit : submitted (text :: texts) = text ++ 0x0D :: submitted texts := by
      simp [submitted]
    rw [hsplit]
    -- the line comes back and the next one is read, or it does not and is the last
    rcases pollSerial_line hboot (htexts text List.mem_cons_self) (submitted texts) h hline with
      ⟨call, htext, ⟨s', hwf', hline', hcalls', hrun⟩ | ⟨hreturned, hcalls⟩⟩
    · rw [hrun]
      rcases ih (fun t ht => htexts t (List.mem_cons_of_mem _ ht)) hwf' hline' with
        ⟨calls, hcalls, hprefix, hall⟩
      refine ⟨call :: calls, ?_, ?_, ?_⟩
      · rw [hcalls, hcalls', List.append_assoc]
        rfl
      · rw [List.map_cons, List.map_cons, htext]
        exact (List.prefix_cons_inj _).mpr hprefix
      · intro hcall
        rcases hall fun c hc => hcall c (List.mem_cons_of_mem _ hc) with ⟨hfinal, htexts'⟩
        refine ⟨hfinal, ?_⟩
        rw [List.map_cons, List.map_cons, htext, htexts']
        rfl
    · refine ⟨[call], hcalls, ?_, fun hcall => absurd (hcall call List.mem_cons_self) hreturned⟩
      rw [List.map_cons, List.map_nil, htext]
      exact List.prefix_append [_] _

/-- An empty line, as the editor's. -/
theorem editor_of_empty (h : s.WellFormed) (hline : s.line.len = 0) :
    s.desk.editor = .typed [] := by
  have hcursor := h.line.cursorLe
  have hzero : s.line.cursor = 0 := by omega
  change s.line.editor = _
  unfold InputLine.editor Editor.typed
  rw [hline, hzero, List.take_zero]
  rfl

/-- **Scripts.** A script of texts that stand for themselves sends one text after the other. What
the monitor does with the bytes is a run of calls of `execute_command`, with nothing but looks at
the clock, texts on the consoles and the history around them; the calls are those of the texts in
their order, clipped to the length of the line, and all of them if every call returns. -/
theorem script_executed (hboot : boot.Successful) {texts : List (List UInt8)} (hne : texts ≠ [])
    (htexts : ∀ text ∈ texts, ScriptText text) (path : String) (h : s.WellFormed)
    (hline : s.line.len = 0) :
    loadSerialScript path (.ok (scriptFile texts)) =
        .ok (texts.map fun text => .send (text ++ [0x0D])) ∧
      ∀ actions, loadSerialScript path (.ok (scriptFile texts)) = .ok actions →
        ∃ calls,
          Executes boot { history := true } s.world calls
            (endState ((pollSerial boot (sentBytes actions)).run s)).world ∧
          (endState ((pollSerial boot (sentBytes actions)).run s)).calls = s.calls ++ calls ∧
          calls.map Call.text <+: (texts.map fun text => asciiText (text.take inputLineMax)) ∧
          ((∀ call ∈ calls, call.Returned) →
            (∃ s', (pollSerial boot (sentBytes actions)).run s = .ok false s') ∧
            calls.map Call.text = texts.map fun text => asciiText (text.take inputLineMax)) := by
  have hload := loadSerialScript_eq hne htexts path
  refine ⟨hload, ?_⟩
  intro actions hactions
  rw [hload] at hactions
  cases hactions
  have hbytes : sentBytes (texts.map fun text => .send (text ++ [0x0D])) = submitted texts := by
    unfold sentBytes submitted
    rw [List.flatMap_map]
  rw [hbytes]
  rcases pollSerial_texts hboot (fun text htext => (htexts text htext).printable) h
    (editor_of_empty h hline) with ⟨calls, hcalls, hprefix, hall⟩
  exact ⟨calls, (pollSerial_leads hboot rfl _ h).executes hcalls, hcalls, hprefix, hall⟩

end

/-- The command words that may stop the kernel, leave the monitor, or go to ring 3. -/
def stoppingCommands : List String := ["exit", "quit", "fault", "vm"] ++ ring3Commands

/-- Any other command comes back. -/
theorem peaceful_words {word : String} (args : List String) (h : word ∉ stoppingCommands) :
    Peaceful (word :: args) := by
  unfold stoppingCommands at h
  simp only [List.cons_append, List.nil_append, List.mem_cons, not_or] at h
  rcases h with ⟨hexit, hquit, hfault, hvm, hring3⟩
  refine ⟨?_, by simpa using hexit, by simpa using hquit⟩
  intro stop hcauses
  cases stop with
  | panic _ =>
    rcases hcauses with ⟨_, _, _, hwords, _⟩
    exact hvm (List.cons.inj hwords).1
  | fault _ => exact hfault (Option.some.inj hcauses)
  | ring3 _ =>
    rcases hcauses with ⟨command, hcommand, hhead⟩
    rw [← Option.some.inj hhead] at hcommand
    exact hring3 hcommand

/-- `help` and `tasks`, in a file of two lines: the monitor has made two calls, both have returned,
and it goes on. -/
theorem script_executed_two :
    loadSerialScript "two.txt" (.ok (scriptFile [textBytes "help", textBytes "tasks"])) =
        .ok [.send [0x68, 0x65, 0x6c, 0x70, 0x0D], .send [0x74, 0x61, 0x73, 0x6b, 0x73, 0x0D]] ∧
      ∃ help tasks s', (pollSerial sampleBoot [0x68, 0x65, 0x6c, 0x70, 0x0D, 0x74, 0x61, 0x73,
            0x6b, 0x73, 0x0D]).run (Loop.fresh (sampleWorld.entered sampleBoot)) = .ok false s' ∧
        s'.calls = [help, tasks] ∧ help.text = "help" ∧ tasks.text = "tasks" ∧
        help.Returned ∧ tasks.Returned ∧
        Executes sampleBoot { history := true } (sampleWorld.entered sampleBoot) [help, tasks]
          s'.world := by
  have hprintable : ∀ {text : List UInt8},
      text.all (fun byte => decide (0x20 ≤ byte ∧ byte ≤ 0x7E)) = true →
        ∀ byte ∈ text, 0x20 ≤ byte ∧ byte ≤ 0x7E :=
    fun h byte hbyte => of_decide_eq_true (List.all_eq_true.mp h byte hbyte)
  have hhelp : ScriptText (textBytes "help") :=
    ⟨by decide, hprintable (by decide), by decide, by decide, by decide, by decide⟩
  have htasks : ScriptText (textBytes "tasks") :=
    ⟨by decide, hprintable (by decide), by decide, by decide, by decide, by decide⟩
  have htexts : ∀ text ∈ [textBytes "help", textBytes "tasks"], ScriptText text := by
    intro text htext
    rw [List.mem_cons, List.mem_singleton] at htext
    rcases htext with rfl | rfl
    · exact hhelp
    · exact htasks
  have hwf : (Loop.fresh (sampleWorld.entered sampleBoot)).WellFormed :=
    entered_wellFormed sampleWorld_booted.inv
  rcases script_executed sampleBoot_successful (by simp) htexts "two.txt" hwf rfl with
    ⟨hload, hrun⟩
  rcases hrun _ hload with ⟨calls, hexecutes, hcalls, hprefix, hall⟩
  have hclipped : [textBytes "help", textBytes "tasks"].map
      (fun text => asciiText (text.take inputLineMax)) = ["help", "tasks"] := by decide
  rw [hclipped] at hprefix hall
  -- neither of the two stops the monitor or leaves for ring 3
  have hpeaceful : ∀ call ∈ calls, Peaceful (splitWhitespace call.text) := by
    intro call hcall
    have htext := hprefix.subset (List.mem_map_of_mem hcall)
    rw [List.mem_cons, List.mem_singleton] at htext
    have hwords : splitWhitespace "help" = ["help"] ∧ splitWhitespace "tasks" = ["tasks"] := by decide
    rcases htext with h | h <;> rw [h]
    · rw [hwords.1]
      exact peaceful_words [] (by decide)
    · rw [hwords.2]
      exact peaceful_words [] (by decide)
  have hreturned := Executes.returned sampleBoot_successful hexecutes hwf.world hpeaceful
  rcases hall hreturned with ⟨⟨s', hfinal⟩, hcallTexts⟩
  rcases List.map_eq_cons_iff.mp hcallTexts with ⟨help, rest, rfl, hfirst, hrest⟩
  rcases List.map_eq_singleton_iff.mp hrest with ⟨tasks, rfl, hsecond⟩
  have hsent : sentBytes ([textBytes "help", textBytes "tasks"].map
      fun text => SerialScriptAction.send (text ++ [0x0D])) =
      [0x68, 0x65, 0x6c, 0x70, 0x0D, 0x74, 0x61, 0x73, 0x6b, 0x73, 0x0D] := by decide +kernel
  rw [hsent] at hfinal hexecutes hcalls
  rw [hfinal] at hexecutes hcalls
  exact ⟨hload, help, tasks, s', hfinal, hcalls, hfirst, hsecond,
    hreturned help (by simp), hreturned tasks (by simp), hexecutes⟩

end JingOS.Monitor
