import JingOS.Keyboard.Decoder
import JingOS.Monitor.Command

/-!
# Keys in the monitor (`kernel/src/main.rs`)

`handle_key_event` with what it calls, and the loops of `input_loop` around it. The variables of
`input_loop` that live from one event to the next are a `Loop`; two of them, the history and the
automatic scheduler, are part of the `World` that the commands work on.
-/

namespace JingOS.Monitor

open Ascii Checked Hoare Text
open JingOS.Keyboard JingOS.Usermode

/-- `MONITOR_PROMPT`. -/
def monitorPrompt : String := "jingos> "

/-- `COMMAND_NAMES`. -/
def commandNames : List String :=
  ["help", "status", "ticks", "uptime", "timerhz", "irq", "mem", "maps", "heap", "vm", "vmmap",
   "fault", "syscall", "sysabi", "tasks", "tasknew", "taskstep", "taskrun", "tasksleep",
   "taskwake", "taskrm", "taskprio", "taskauto", "userdemo", "usermode", "usermode_syscall",
   "usermode_syscall_fail", "echo", "history", "clear", "exit", "quit"]

/-- A call of `execute_command`: the state that it finds, the text, and how it has ended. -/
structure Call where
  world : World
  text : String
  result : EStateM.Result Stop World Bool

structure Loop where
  world : World
  line : InputLine
  renderedLen : ℕ
  overwriteMode : Bool
  /-- The calls of `execute_command` so far, as `callCommand` has noted them. Neither this nor the
  next field is in the code, and nothing reads them. -/
  calls : List Call
  /-- The calls of `redraw_prompt_with_line` so far. -/
  redraws : ℕ

abbrev LoopM := EStateM Stop Loop

/-- A program of the commands, inside the loop. -/
def inWorld {α : Type} (x : MonitorM α) : LoopM α := fun s =>
  match x s.world with
  | .ok a world => .ok a { s with world }
  | .error stop world => .error stop { s with world }

/-- An operation on the line. -/
def onLine (operation : InputLine → Checked (Bool × InputLine)) : LoopM Bool := do
  let s ← get
  let (done, line) ← lift Stop.panic (operation s.line)
  set { s with line }
  pure done

/-- An operation on the history. -/
def onHistory {α : Type} (operation : CommandHistory → Checked (α × CommandHistory)) :
    LoopM α := do
  let s ← get
  let (a, history) ← lift Stop.panic (operation s.world.history)
  set { s with world := { s.world with history } }
  pure a

/-- `line.clear()`. -/
def clearLine : LoopM Unit := modify fun s => { s with line := s.line.clear }

/-- `history.reset_browsing()`. -/
def resetBrowsing : LoopM Unit := onHistory fun history => pure ((), history.resetBrowsing)

variable (boot : Boot)

/-! ## Drawing the line -/

/-- The loop of `redraw_prompt_with_line`. -/
def printBlanks : ℕ → MonitorM Unit
  | 0 => pure ()
  | count + 1 => do
    consolePrint boot " "
    printBlanks count

/-- The prompt, the line, blanks over what stood there before, and back to the cursor. -/
def redrawPromptWithLine : LoopM Unit := do
  let s ← get
  let visibleLen ← lift Stop.panic (add monitorPrompt.length s.line.len)
  let text ← lift Stop.panic s.line.asStr
  inWorld (consolePrint boot ("\r" ++ monitorPrompt ++ text))
  -- only what was drawn before and is not covered now is erased
  inWorld (printBlanks boot (s.renderedLen - visibleLen))
  let before ← lift Stop.panic s.line.asPrefixStr
  inWorld (consolePrint boot ("\r" ++ monitorPrompt ++ before))
  modify fun s => { s with renderedLen := visibleLen, redraws := s.redraws + 1 }

/-! ## Completion -/

/-- `starts_with`. -/
def startsWith (command text : String) : Bool := text.toList.isPrefixOf command.toList

/-- The first loop of `complete_command`: how many commands match, and the first of them. -/
def matchLoop (text : String) (found : ℕ × String) (command : String) : ℕ × String :=
  if startsWith command text then
    (found.1 + 1, if found.1 + 1 = 1 then command else found.2)
  else found

/-- The second loop of `complete_command`. -/
def printMatches (text : String) : List String → MonitorM Unit
  | [] => pure ()
  | command :: rest => do
    if startsWith command text then consolePrint boot (" " ++ command) else pure ()
    printMatches text rest

/-- `&first_match[text.len()..]`; the text is a beginning of the command, so the slice is on a
character's boundary. -/
def suffixOf (firstMatch text : String) : String :=
  String.ofList (firstMatch.toList.drop text.length)

/-- The arm of `complete_command` for one match. Browsing goes on here, unlike after the other
changes of the text. -/
def completeWith (firstMatch text : String) : LoopM Unit :=
  if firstMatch.length > text.length then do
    let done ← onLine (·.appendStr (suffixOf firstMatch text))
    if done then redrawPromptWithLine boot else pure ()
  else pure ()

/-- The arm of `complete_command` for several matches. -/
def listMatches (text : String) : LoopM Unit := do
  inWorld (consolePrintln boot "")
  inWorld (consolePrint boot "matches:")
  inWorld (printMatches boot text commandNames)
  inWorld (consolePrintln boot "")
  redrawPromptWithLine boot

/-- Tab: the one command that begins so is completed, several are listed. -/
def completeCommand : LoopM Unit := do
  let s ← get
  let text ← lift Stop.panic s.line.asStr
  if text.toList.contains ' ' || !s.line.isCursorAtEnd then pure ()
  else
    match commandNames.foldl (matchLoop text) (0, "") with
    | (0, _) => pure ()
    | (1, firstMatch) => completeWith boot firstMatch text
    | _ => listMatches boot text

/-! ## Events -/

/-- The arms that change the text: they end browsing, and draw the line, when there is a
change. -/
def editKey (operation : InputLine → Checked (Bool × InputLine)) (refused : MonitorM Unit) :
    LoopM Unit := do
  let done ← onLine operation
  if done then do
    resetBrowsing
    redrawPromptWithLine boot
  else inWorld refused

/-- The arms that move the cursor. -/
def moveKey (operation : InputLine → Checked (Bool × InputLine)) : LoopM Unit := do
  let done ← onLine operation
  if done then redrawPromptWithLine boot else pure ()

/-- `let _ = line.set_from_str(entry.as_str())`. -/
def recallEntry (entry : HistoryEntry) : LoopM Unit := do
  let text ← lift Stop.panic entry.asStr
  let _ ← onLine (·.setFromStr text)
  pure ()

/-- The arm of `KeyEvent::ArrowUp`. -/
def arrowUpKey : LoopM Unit := do
  let entry ← onHistory CommandHistory.previous
  match entry with
  | none => pure ()
  | some entry => do
    recallEntry entry
    redrawPromptWithLine boot

/-- The arm of `KeyEvent::ArrowDown`. -/
def arrowDownKey : LoopM Unit := do
  let entry ← onHistory CommandHistory.next
  match entry with
  | none => clearLine
  | some entry => recallEntry entry
  redrawPromptWithLine boot

def editModeLine (overwriteMode : Bool) : String :=
  "edit mode: " ++ (if overwriteMode then "overwrite" else "insert")

/-- The arm of `KeyEvent::Insert`. -/
def insertKey : LoopM Unit := do
  modify fun s => { s with overwriteMode := !s.overwriteMode }
  inWorld (consolePrintln boot "")
  let s ← get
  inWorld (consolePrintln boot (editModeLine s.overwriteMode))
  redrawPromptWithLine boot

/-- The arm of `KeyEvent::Enter` up to the call of `execute_command`: the text of the call. -/
def submitLine : LoopM String := do
  inWorld (consolePrintln boot "")
  let s ← get
  onHistory fun history => (((), ·) <$> history.pushLine s.line)
  lift Stop.panic s.line.asStr

/-- `execute_command(text)`. The call is noted with what it found and how it ended; nothing else
writes such a note. -/
def callCommand (text : String) : LoopM Bool := fun s =>
  let result := (executeCommand boot text).run s.world
  let calls := s.calls ++ [{ world := s.world, text, result }]
  match result with
  | .ok shouldExit world => .ok shouldExit { s with world, calls }
  | .error stop world => .error stop { s with world, calls }

/-- The arm of `KeyEvent::Enter` behind the call. -/
def afterCommand (shouldExit : Bool) : LoopM Bool := do
  clearLine
  resetBrowsing
  if shouldExit then pure true
  else do
    inWorld (consolePrint boot monitorPrompt)
    modify fun s => { s with renderedLen := monitorPrompt.length }
    pure false

/-- The arm of `KeyEvent::Enter`. -/
def enterKey : LoopM Bool := do
  let text ← submitLine boot
  let shouldExit ← callCommand boot text
  afterCommand boot shouldExit

/-- An arm that ends with `false`: the monitor goes on. -/
def stay (arm : LoopM Unit) : LoopM Bool := do
  arm
  pure false

/-- `handle_key_event`: is the monitor to be left? -/
def handleKeyEvent (scancode : UInt8) : KeyEvent → LoopM Bool
  | .char character => stay do
    let s ← get
    editKey boot (·.insertOrOverwriteChar character s.overwriteMode) (consolePrint boot "<FULL>")
  | .ctrl character => stay (inWorld (consolePrint boot s!"<C-{character}>"))
  | .alt character => stay (inWorld (consolePrint boot s!"<M-{character}>"))
  | .ctrlAlt character => stay (inWorld (consolePrint boot s!"<C-M-{character}>"))
  | .enter => enterKey boot
  | .tab => stay (completeCommand boot)
  | .backspace => stay (editKey boot InputLine.backspace (pure ()))
  | .arrowUp => stay (arrowUpKey boot)
  | .arrowDown => stay (arrowDownKey boot)
  | .arrowLeft => stay (moveKey boot InputLine.moveLeft)
  | .arrowRight => stay (moveKey boot InputLine.moveRight)
  | .wordLeft => stay (moveKey boot InputLine.moveWordLeft)
  | .wordRight => stay (moveKey boot InputLine.moveWordRight)
  | .insert => stay (insertKey boot)
  | .delete => stay (editKey boot InputLine.delete (pure ()))
  | .wordDeleteLeft => stay (editKey boot InputLine.deleteWordLeft (pure ()))
  | .wordDeleteRight => stay (editKey boot InputLine.deleteWordRight (pure ()))
  | .home => stay (moveKey boot InputLine.moveHome)
  | .end => stay (moveKey boot InputLine.moveEnd)
  | .pageUp => stay (inWorld (consolePrint boot "<PGUP>"))
  | .pageDown => stay (inWorld (consolePrint boot "<PGDN>"))
  | .function number => stay (inWorld (consolePrint boot s!"<F{number}>"))
  | .escape => do
    inWorld (consolePrintln boot "<ESC>")
    pure true
  | .unknown code => stay do
    let shown := hexPadded code.toNat 4
    let raw := hexPadded scancode.toNat 4
    inWorld (consolePrintln boot s!"<SC:{shown} RAW:{raw}>")

/-- The key that a byte of the serial port stands for. -/
def serialByteToKeyEvent (byte : UInt8) : Option KeyEvent :=
  if byte = 0x0D ∨ byte = 0x0A then some .enter
  else if byte = 0x08 ∨ byte = 0x7F then some .backspace
  else if byte = 0x09 then some .tab
  else if byte = 0x1B then some .escape
  else if 0x20 ≤ byte ∧ byte ≤ 0x7E then some (.char (byteChar byte))
  else none

/-! ## The loop -/

/-- The variables of `input_loop` when it is entered, in the state that `startInputLoop` leaves. -/
def Loop.fresh (world : World) : Loop :=
  { world, line := InputLine.new, renderedLen := monitorPrompt.length, overwriteMode := false,
    calls := [], redraws := 0 }

/-- The loop of `input_loop` over the bytes that the serial port has received: is the monitor to
be left? -/
def pollSerial : List UInt8 → LoopM Bool
  | [] => pure false
  | byte :: rest =>
    match serialByteToKeyEvent byte with
    | none => pollSerial rest
    | some event => do
      -- the time of the event is read for the end of the input window
      let _ ← inWorld ticks
      let left ← handleKeyEvent boot byte event
      if left then pure true else pollSerial rest

/-- What `input_loop` does in one round: a key event, or the automatic scheduler. -/
inductive LoopEvent where
  | key (scancode : UInt8) (event : KeyEvent)
  | tick (nowTick : UInt64)

/-- What the loop does with an event. -/
def LoopEvent.program : LoopEvent → LoopM Bool
  | .key scancode event => handleKeyEvent boot scancode event
  | .tick nowTick => do
    inWorld (maybeRun boot nowTick)
    pure false

end JingOS.Monitor
