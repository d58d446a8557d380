import JingOS.Host.Parsing
import JingOS.Lib.Numerals

/-!
# Writing scripts

* `writtenScript` — a script file for a list of actions;
* `LineOf` — a line that is read as an action, wherever it stands;
* `script_round_trip` — the parser reads the actions back, and whatever it has read can be written.
-/

namespace JingOS.Host

open Ascii Text

/-- The line of an action: a text without its carriage return, or a pause in milliseconds. -/
def written : SerialScriptAction → List UInt8
  | .send bytes => bytes.dropLast
  | .sleepMs milliseconds => textBytes ("sleep_ms " ++ toString milliseconds)

/-- A script file with these actions. -/
def writtenScript (actions : List SerialScriptAction) : List UInt8 := scriptFile (actions.map written)

/-- The line of an action as characters: it is one line, and the parser reads the action. -/
structure LineOf (path : String) (action : SerialScriptAction) (line : List Char) : Prop where
  bytes : textBytes (String.ofList line) = written action
  oneLine : '\n' ∉ line
  read : ∀ lineNumber, partAction path lineNumber (scriptLine line) = .ok (some action)

section

variable {path : String} {actions : List SerialScriptAction}

/-! ## One line -/

/-- What was sent for a line is sent again for the part of it that counts. -/
theorem lineOf_scriptLine {rawLine : List Char} (hfeed : '\n' ∉ rawLine) {lineNumber : ℕ}
    {bytes : List UInt8}
    (h : partAction path lineNumber (scriptLine rawLine) = .ok (some (.send bytes))) :
    LineOf path (.send bytes) (scriptLine rawLine) := by
  rcases partAction_send h with ⟨_, hbytes⟩
  refine ⟨?_, fun hmem => hfeed ?_, fun lineNumber' => ?_⟩
  · rw [written, hbytes, List.dropLast_concat]
  · have htrim : '\n' ∈ rawLine.dropWhile isUnicodeWhitespace :=
      (trimEnd_beginning _).subset ((scriptLine_spec rawLine).1.subset hmem)
    exact (List.dropWhile_suffix _).subset htrim
  · rw [scriptLine_scriptLine]
    exact partAction_lineNumber h lineNumber'

/-- A text that stands for itself. -/
theorem lineOf_text {text : List UInt8} (h : ScriptText text) :
    LineOf path (.send (text ++ [0x0D])) (text.map byteChar) := by
  have hread : ∀ lineNumber, partAction path lineNumber (scriptLine (text.map byteChar)) =
      .ok (some (.send (text ++ [0x0D]))) := by
    intro lineNumber
    rw [← lineAction_scriptLine]
    exact lineAction_eq h path lineNumber
  refine ⟨?_, not_mem_map_byteChar h (by decide), hread⟩
  rw [written, List.dropLast_concat]
  exact textBytes_asciiText h.ascii

/-- The line of a pause. -/
def sleepLine (milliseconds : UInt64) : List Char :=
  "sleep_ms ".toList ++ Nat.toDigits 10 milliseconds.toNat

theorem digits_plain (milliseconds : UInt64) : ∀ c ∈ Nat.toDigits 10 milliseconds.toNat,
    isUnicodeWhitespace c = false ∧ c ≠ '#' ∧ c ≠ '\n' :=
  forall_mem_toDigits (by decide) (by decide) _

theorem not_mem_sleepLine (milliseconds : UInt64) : '#' ∉ sleepLine milliseconds ∧
    '\n' ∉ sleepLine milliseconds := by
  have hdigits := digits_plain milliseconds
  constructor
  · intro hmem
    rcases List.mem_append.mp hmem with hword | hdigit
    · exact absurd hword (by decide)
    · exact (hdigits _ hdigit).2.1 rfl
  · intro hmem
    rcases List.mem_append.mp hmem with hword | hdigit
    · exact absurd hword (by decide)
    · exact (hdigits _ hdigit).2.2 rfl

/-- Nothing of the line is cut off. -/
theorem scriptLine_sleepLine (milliseconds : UInt64) :
    scriptLine (sleepLine milliseconds) = sleepLine milliseconds := by
  have hhead : (sleepLine milliseconds).head? = some 's' := rfl
  have hlast : (sleepLine milliseconds).getLast? = (Nat.toDigits 10 milliseconds.toNat).getLast? :=
    List.getLast?_append_of_ne_nil _ Nat.toDigits_ne_nil
  have htrim : trim (sleepLine milliseconds) = sleepLine milliseconds := by
    apply trim_eq_self
    · rw [hhead]
      simp only [Option.mem_some_iff, forall_eq']
      decide
    · rw [hlast]
      exact fun c hc => (digits_plain milliseconds c (List.mem_of_getLast? hc)).1
  have hstrip : stripInlineComment (sleepLine milliseconds) = sleepLine milliseconds := by
    unfold stripInlineComment
    rw [beforeComment_of_not_mem (not_mem_sleepLine milliseconds).1]
  have hmark : ((sleepLine milliseconds).isEmpty || (sleepLine milliseconds).head? == some '#') =
      false := rfl
  unfold scriptLine
  simp only [htrim, hstrip, hmark]
  exact if_neg Bool.false_ne_true

/-- A pause has a line of its own. -/
theorem lineOf_sleep (milliseconds : UInt64) :
    LineOf path (.sleepMs milliseconds) (sleepLine milliseconds) := by
  have htext : (toString milliseconds) = String.ofList (Nat.toDigits 10 milliseconds.toNat) :=
    Nat.toString_eq_ofList_toDigits
  have hvalue : trim (Nat.toDigits 10 milliseconds.toNat) = Nat.toDigits 10 milliseconds.toNat :=
    trim_eq_self (fun c hc => (digits_plain milliseconds c (List.mem_of_mem_head? hc)).1)
      fun c hc => (digits_plain milliseconds c (List.mem_of_getLast? hc)).1
  have hdirective : directiveOf (sleepLine milliseconds) =
      some (("sleep_ms", 1), trim (Nat.toDigits 10 milliseconds.toNat)) := rfl
  have hnumber := fromStrRadix_toString milliseconds
  rw [htext] at hnumber
  rw [hvalue] at hdirective
  have hline : String.ofList (sleepLine milliseconds) = "sleep_ms " ++ toString milliseconds := by
    rw [htext]
    unfold sleepLine
    rw [String.ofList_append, String.ofList_toList]
  -- the unit of the pauses that are written
  have hscale : U64.saturatingMul milliseconds 1 = milliseconds := by
    apply UInt64.toNat_inj.mp
    have hlt := milliseconds.toNat_lt
    rw [U64.toNat_saturatingMul, UInt64.toNat_one, Nat.mul_one]
    omega
  refine ⟨congrArg textBytes hline, (not_mem_sleepLine milliseconds).2, fun lineNumber => ?_⟩
  rw [scriptLine_sleepLine, partAction_directive hdirective hnumber, hscale]

/-! ## A script -/

/-- Lines that are joined, as bytes. -/
theorem textBytes_intercalate (rawLines : List (List Char)) :
    textBytes (String.ofList (['\n'].intercalate rawLines)) =
      [0x0A].intercalate (rawLines.map fun line => textBytes (String.ofList line)) := by
  have hfeed : String.utf8EncodeChar '\n' = [0x0A] := utf8EncodeChar_eq (by decide)
  induction rawLines with
  | nil => rfl
  | cons line rest ih =>
    cases rest with
    | nil => simp
    | cons line' rest =>
      rw [List.map_cons] at ih
      rw [List.map_cons, List.map_cons, List.intercalate_cons_cons, List.intercalate_cons_cons, ← ih]
      simp only [textBytes_ofList_eq, List.flatMap_append, List.flatMap_cons, List.flatMap_nil, hfeed,
        List.append_nil]

/-- The lines of some actions. -/
theorem exists_lines (h : ∀ action ∈ actions, ∃ line, LineOf path action line) :
    ∃ rawLines, rawLines.length = actions.length ∧ (∀ line ∈ rawLines, '\n' ∉ line) ∧
      rawLines.map (fun line => textBytes (String.ofList line)) = actions.map written ∧
      ∀ lineNumber, scriptLoop path lineNumber rawLines = .ok actions := by
  induction actions with
  | nil => exact ⟨[], rfl, by simp, rfl, fun _ => rfl⟩
  | cons action actions ih =>
    rcases h action List.mem_cons_self with ⟨line, hline⟩
    rcases ih fun action' hmem => h action' (List.mem_cons_of_mem _ hmem) with
      ⟨rawLines, hlength, hfeed, hbytes, hloop⟩
    refine ⟨line :: rawLines, congrArg Nat.succ hlength, ?_, ?_, fun lineNumber => ?_⟩
    · intro line' hmem
      rcases List.mem_cons.mp hmem with rfl | hmem
      · exact hline.oneLine
      · exact hfeed line' hmem
    · rw [List.map_cons, List.map_cons, hline.bytes, hbytes]
    · exact scriptLoop_cons_ok.mpr ⟨some action, actions, hline.read lineNumber, hloop _, rfl⟩

/-- Actions that have lines are read back. -/
theorem loadSerialScript_written (hne : actions ≠ [])
    (h : ∀ action ∈ actions, ∃ line, LineOf path action line) :
    loadSerialScript path (.ok (writtenScript actions)) = .ok actions := by
  rcases exists_lines h with ⟨rawLines, hlength, hfeed, hbytes, hloop⟩
  have hlines : rawLines ≠ [] := by
    rintro rfl
    exact hne (List.length_eq_zero_iff.mp hlength.symm)
  have hfile : writtenScript actions = textBytes (String.ofList (['\n'].intercalate rawLines)) := by
    rw [textBytes_intercalate, hbytes]
    rfl
  -- no line holds a line feed, so splitting undoes the joining
  have hactions : scriptActions path (String.ofList (['\n'].intercalate rawLines)) = .ok actions := by
    unfold scriptActions
    rw [scriptLoop_lines, String.toList_ofList, List.splitOn_intercalate '\n' hfeed hlines]
    exact hloop 1
  have hsome : actions.isEmpty = false := List.isEmpty_eq_false_iff.mpr hne
  rw [hfile, loadSerialScript_text, hactions]
  change (if actions.isEmpty = true then _ else _) = _
  rw [hsome]
  exact if_neg Bool.false_ne_true

/-- What was read can be written. -/
theorem exists_lineOf {text : String} (h : scriptActions path text = .ok actions) :
    ∀ action ∈ actions, ∃ line, LineOf path action line := by
  unfold scriptActions at h
  rw [scriptLoop_lines] at h
  -- a pause of any unit has a line in milliseconds; what is sent keeps its own
  intro action haction
  cases action with
  | sleepMs milliseconds => exact ⟨_, lineOf_sleep milliseconds⟩
  | send bytes =>
    rcases scriptLoop_send h haction with ⟨rawLine, hmem, lineNumber, hline⟩
    exact ⟨_, lineOf_scriptLine (not_mem_of_mem_splitOn hmem) hline⟩

/-- **Round trips.** Texts that stand for themselves and pauses of any length are written and read
back as they are. Whatever the parser has read of a text file, written in this form it is read again
as the same actions. -/
theorem script_round_trip (path : String) :
    (∀ actions ≠ [], (∀ bytes, .send bytes ∈ actions →
        ∃ text, ScriptText text ∧ bytes = text ++ [0x0D]) →
      loadSerialScript path (.ok (writtenScript actions)) = .ok actions) ∧
    ∀ text actions, loadSerialScript path (.ok (textBytes text)) = .ok actions →
      loadSerialScript path (.ok (writtenScript actions)) = .ok actions := by
  constructor
  · intro actions hne htexts
    -- every action can be written as a line
    refine loadSerialScript_written hne fun action haction => ?_
    cases action with
    | sleepMs milliseconds => exact ⟨_, lineOf_sleep milliseconds⟩
    | send bytes =>
      rcases htexts bytes haction with ⟨text, htext, rfl⟩
      exact ⟨_, lineOf_text htext⟩
  · intro text actions h
    rw [loadSerialScript_text] at h
    cases hactions : scriptActions path text with
    | error message =>
      rw [hactions] at h
      cases h
    | ok read =>
      rw [hactions] at h
      change (if read.isEmpty = true then _ else _) = _ at h
      by_cases hempty : read.isEmpty = true
      · rw [if_pos hempty] at h
        cases h
      · rw [if_neg hempty] at h
        cases h
        -- so can those that were read, since they come of lines
        exact loadSerialScript_written (mt List.isEmpty_iff.mpr hempty) (exists_lineOf hactions)

end

/-- A pause alone, and a command with a comment and a pause in seconds in their written form. -/
theorem script_round_trip_commented :
    loadSerialScript "demo.txt" (.ok (writtenScript [.sleepMs 250])) = .ok [.sleepMs 250] ∧
    writtenScript [.send [0x68, 0x65, 0x6c, 0x70, 0x0D], .sleepMs 3000] =
        textBytes "help\nsleep_ms 3000" ∧
      loadSerialScript "demo.txt" (.ok (textBytes "help\nsleep_ms 3000")) =
        .ok [.send [0x68, 0x65, 0x6c, 0x70, 0x0D], .sleepMs 3000] := by
  have hwritten : writtenScript [.send [0x68, 0x65, 0x6c, 0x70, 0x0D], .sleepMs 3000] =
      textBytes "help\nsleep_ms 3000" := by decide +kernel
  have hload : loadSerialScript "demo.txt" (.ok (textBytes " help # what?\r\nsleep_s 3")) =
      .ok [.send [0x68, 0x65, 0x6c, 0x70, 0x0D], .sleepMs 3000] := by
    rw [loadSerialScript_text]
    rfl
  refine ⟨(script_round_trip "demo.txt").1 _ (by simp) (by simp), hwritten, ?_⟩
  rw [← hwritten]
  exact (script_round_trip "demo.txt").2 " help # what?\r\nsleep_s 3" _ hload

end JingOS.Host
