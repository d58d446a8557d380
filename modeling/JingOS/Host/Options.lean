import JingOS.Lib.Text
import Mathlib.Data.List.Basic

/-!
# The command line of the runner (`src/main.rs`)

A loop over the arguments sets variables; some arguments take the next one as their value. What the
loop accepts is a list of options in any order, with one mode among them.

* `parseArguments`, `runnerOptions` — the loop, and the checks behind it;
* `Token` — an option with its value;
* `runner_options_spec` — what is accepted, what it means, and when the help is shown.
-/

namespace JingOS.Host

open Text

/-! ## The program -/

/-- `exit(..)`, with what has been printed before. -/
structure Exit where
  code : ℕ
  stdout : List String
  stderr : List String
deriving DecidableEq, Repr

/-- `DEFAULT_SERIAL_SCRIPT_DELAY_MS`. -/
def defaultSerialScriptDelayMs : UInt64 := 6000

/-- The line of `print_usage`. -/
def usage (program : String) : String :=
  s!"Usage: {program} [uefi|bios] [--show|--headless] [--serial-only] " ++
    "[--serial-script <file>] [--serial-delay-ms <ms>]"

/-- `print_usage` and `exit(1)`, behind a message. -/
def refuse (program : String) (message : List String) : Exit :=
  { code := 1, stdout := [], stderr := message ++ [usage program] }

/-- The help. -/
def help (program : String) : Exit where
  code := 0
  stdout :=
    [usage program,
     "  --show             enable QEMU window output",
     "  --headless         disable QEMU window output",
     "  --serial-only      disable QEMU monitor; stdin/stdout only for serial",
     "  --serial-script    send commands from script file to serial stdin",
     "  --serial-delay-ms  base wait for monitor-ready marker before fallback send " ++
       s!"(default {defaultSerialScriptDelayMs} ms)",
     "  script directives  sleep <ms> | sleep_ms <ms> | sleep_s <sec> | # comments",
     "  script comments    supports full-line '#' and inline ' ... # ...' comments"]
  stderr := []

/-- The variables of the loop. -/
structure Arguments where
  useUefi : Option Bool
  showDisplay : Bool
  serialOnly : Bool
  serialScriptPath : Option String
  serialDelayMs : Option UInt64
deriving DecidableEq, Repr

/-- Before the first argument. -/
def Arguments.initial : Arguments :=
  { useUefi := none, showDisplay := false, serialOnly := false, serialScriptPath := none,
    serialDelayMs := none }

/-- `parse_u64_option`. -/
def parseU64Option (program option value : String) : Except Exit UInt64 :=
  match fromStrRadix value 10 with
  | some parsed => .ok parsed
  | none => .error (refuse program [s!"invalid value for {option}: {value}"])

/-- `use_uefi.replace(..).is_some()`. -/
def chooseMode (program : String) (useUefi : Bool) (a : Arguments) : Except Exit Arguments :=
  if a.useUefi.isSome then .error (refuse program []) else .ok { a with useUefi := some useUefi }

/-- The loop over the arguments. -/
def parseArguments (program : String) : List String → Arguments → Except Exit Arguments
  | [], a => .ok a
  | arg :: rest, a =>
    match arg with
    | "uefi" => chooseMode program true a >>= parseArguments program rest
    | "bios" => chooseMode program false a >>= parseArguments program rest
    | "--show" => parseArguments program rest { a with showDisplay := true }
    | "--headless" => parseArguments program rest { a with showDisplay := false }
    | "--serial-only" => parseArguments program rest { a with serialOnly := true }
    | "--serial-script" =>
      match rest with
      | [] => .error (refuse program ["missing value for --serial-script"])
      | path :: rest =>
        parseArguments program rest { a with serialScriptPath := some path, serialOnly := true }
    | "--serial-delay-ms" =>
      match rest with
      | [] => .error (refuse program ["missing value for --serial-delay-ms"])
      | value :: rest => do
        let delayMs ← parseU64Option program "--serial-delay-ms" value
        parseArguments program rest { a with serialDelayMs := some delayMs }
    | "-h" => .error (help program)
    | "--help" => .error (help program)
    | _ => .error (refuse program [])

/-- `SerialScriptConfig`. -/
structure SerialScriptConfig where
  path : String
  delayMs : UInt64
deriving DecidableEq, Repr

/-- What the rest of `main` goes by. -/
structure RunnerOptions where
  useUefi : Bool
  showDisplay : Bool
  serialOnly : Bool
  serialScript : Option SerialScriptConfig
deriving DecidableEq, Repr

/-- `main`, up to the command for QEMU; `args` are the arguments behind the name of the program. -/
def runnerOptions (program : String) (args : List String) : Except Exit RunnerOptions := do
  let a ← parseArguments program args .initial
  match a.useUefi with
  | none => .error (refuse program [])
  | some useUefi => .ok {
      useUefi
      showDisplay := a.showDisplay
      serialOnly := a.serialOnly
      serialScript := a.serialScriptPath.map fun path =>
        { path, delayMs := a.serialDelayMs.getD defaultSerialScriptDelayMs } }

/-! ## The options -/

/-- An option, with its value. -/
inductive Token where
  | mode (useUefi : Bool)
  | display (shown : Bool)
  | serialOnly
  | serialScript (path : String)
  | serialDelayMs (value : String) (delayMs : UInt64)
deriving DecidableEq, Repr

namespace Token

/-- The arguments that the option is given by. -/
def words : Token → List String
  | mode true => ["uefi"]
  | mode false => ["bios"]
  | display true => ["--show"]
  | display false => ["--headless"]
  | serialOnly => ["--serial-only"]
  | serialScript path => ["--serial-script", path]
  | serialDelayMs value _ => ["--serial-delay-ms", value]

/-- A delay is the number that its text stands for. -/
def Valid : Token → Prop
  | serialDelayMs value delayMs => fromStrRadix value 10 = some delayMs
  | _ => True

def apply (a : Arguments) : Token → Arguments
  | mode useUefi => { a with useUefi := some useUefi }
  | display shown => { a with showDisplay := shown }
  | serialOnly => { a with serialOnly := true }
  | serialScript path => { a with serialScriptPath := some path, serialOnly := true }
  | serialDelayMs _ delayMs => { a with serialDelayMs := some delayMs }

def mode? : Token → Option Bool
  | mode useUefi => some useUefi
  | _ => none

def display? : Token → Option Bool
  | display shown => some shown
  | _ => none

def script? : Token → Option String
  | serialScript path => some path
  | _ => none

def delay? : Token → Option UInt64
  | serialDelayMs _ delayMs => some delayMs
  | _ => none

/-- Options that ask for the serial port alone. -/
def serial : Token → Bool
  | serialOnly => true
  | serialScript _ => true
  | _ => false

end Token

/-- Options that can be given together: the delays are numbers, and at most so many choose a mode. -/
structure Together (tokens : List Token) (modes : ℕ) : Prop where
  valid : ∀ token ∈ tokens, token.Valid
  modes : (tokens.filterMap Token.mode?).length ≤ modes

/-- The arguments that the options are given by. -/
def spelled (tokens : List Token) : List String := tokens.flatMap Token.words

def helpWords : List String := ["-h", "--help"]

/-! ## The loop -/

section

variable {program : String} {a : Arguments} {rest : List String}

/-- How many modes may still be chosen. -/
def Arguments.room (a : Arguments) : ℕ := if a.useUefi.isSome then 0 else 1

/-- The loop takes an option with its value. -/
theorem parseArguments_token {token : Token} (hvalid : token.Valid)
    (hmode : ∀ useUefi ∈ token.mode?, a.useUefi = none) :
    parseArguments program (token.words ++ rest) a =
      parseArguments program rest (token.apply a) := by
  cases token with
  | mode useUefi =>
    -- a mode is taken as long as none was chosen
    have hchoose : chooseMode program useUefi a = .ok { a with useUefi := some useUefi } := by
      unfold chooseMode
      rw [hmode useUefi rfl]
      rfl
    cases useUefi with
    | true =>
      change (chooseMode program true a >>= parseArguments program rest) = _
      rw [hchoose]
      rfl
    | false =>
      change (chooseMode program false a >>= parseArguments program rest) = _
      rw [hchoose]
      rfl
  | display shown =>
    cases shown with
    | true => rfl
    | false => rfl
  | serialOnly => rfl
  | serialScript path => rfl
  | serialDelayMs value delayMs =>
    have hparse : parseU64Option program "--serial-delay-ms" value = .ok delayMs := by
      unfold parseU64Option
      rw [show fromStrRadix value 10 = some delayMs from hvalid]
    change (parseU64Option program "--serial-delay-ms" value >>= fun delayMs =>
      parseArguments program rest { a with serialDelayMs := some delayMs }) = _
    rw [hparse]
    rfl

theorem parseArguments_help {word : String} (h : word ∈ helpWords) :
    parseArguments program (word :: rest) a = .error (help program) := by
  unfold helpWords at h
  rw [List.mem_cons, List.mem_singleton] at h
  rcases h with rfl | rfl
  · rfl
  · rfl

/-- What the loop does with its next arguments. -/
theorem parseArguments_cases (program : String) (args : List String) (a : Arguments) :
    (args = [] ∧ parseArguments program args a = .ok a) ∨
    (∃ (token : Token) (rest : List String), args = token.words ++ rest ∧ token.Valid ∧
      (∀ useUefi ∈ token.mode?, a.useUefi = none)) ∨
    (∃ word ∈ helpWords, args.head? = some word) ∨
    ∃ exit, parseArguments program args a = .error exit ∧ exit.code = 1 := by
  have hmode : ∀ useUefi, a.useUefi = none ∨
      ∃ exit, chooseMode program useUefi a = .error exit ∧ exit.code = 1 := by
    intro useUefi
    unfold chooseMode
    cases a.useUefi with
    | none => exact Or.inl rfl
    | some mode => exact Or.inr ⟨_, rfl, rfl⟩
  cases args with
  | nil => exact Or.inl ⟨rfl, rfl⟩
  | cons arg rest =>
    refine Or.inr ?_
    unfold parseArguments
    -- the arms in the order of the match; a mode may be the second, a value may be missing
    split
    · rcases hmode true with hnone | ⟨exit, hexit, hcode⟩
      · exact Or.inl ⟨.mode true, rest, rfl, trivial, fun _ _ => hnone⟩
      · exact Or.inr (Or.inr ⟨exit, by rw [hexit]; rfl, hcode⟩)
    · rcases hmode false with hnone | ⟨exit, hexit, hcode⟩
      · exact Or.inl ⟨.mode false, rest, rfl, trivial, fun _ _ => hnone⟩
      · exact Or.inr (Or.inr ⟨exit, by rw [hexit]; rfl, hcode⟩)
    · exact Or.inl ⟨.display true, rest, rfl, trivial, nofun⟩
    · exact Or.inl ⟨.display false, rest, rfl, trivial, nofun⟩
    · exact Or.inl ⟨.serialOnly, rest, rfl, trivial, nofun⟩
    · split
      · exact Or.inr (Or.inr ⟨_, rfl, rfl⟩)
      · next path rest => exact Or.inl ⟨.serialScript path, rest, rfl, trivial, nofun⟩
    · split
      · exact Or.inr (Or.inr ⟨_, rfl, rfl⟩)
      · next value rest =>
        unfold parseU64Option
        cases hparse : fromStrRadix value 10 with
        | none => exact Or.inr (Or.inr ⟨_, rfl, rfl⟩)
        | some delayMs => exact Or.inl ⟨.serialDelayMs value delayMs, rest, rfl, hparse, nofun⟩
    · exact Or.inr (Or.inl ⟨_, by decide, rfl⟩)
    · exact Or.inr (Or.inl ⟨_, by decide, rfl⟩)
    · exact Or.inr (Or.inr ⟨_, rfl, rfl⟩)

/-- A mode is chosen only where none has been. -/
theorem room_apply {token : Token} (hmode : ∀ useUefi ∈ token.mode?, a.useUefi = none) :
    (token.mode?.toList).length + (token.apply a).room = a.room := by
  cases token with
  | mode useUefi =>
    unfold Arguments.room
    rw [hmode useUefi rfl]
    rfl
  | _ => exact Nat.zero_add _

/-- The loop goes through all options that can be given together. -/
theorem parseArguments_spelled {tokens : List Token} (h : Together tokens a.room) :
    parseArguments program (spelled tokens ++ rest) a =
      parseArguments program rest (tokens.foldl Token.apply a) := by
  induction tokens generalizing a with
  | nil => rfl
  | cons token tokens ih =>
    have hmodes := h.modes
    rw [List.filterMap_cons] at hmodes
    have hmode : ∀ useUefi ∈ token.mode?, a.useUefi = none := by
      intro useUefi hsome
      rw [show token.mode? = some useUefi from hsome] at hmodes
      by_contra hnot
      unfold Arguments.room at hmodes
      rw [if_pos (Option.isSome_iff_ne_none.mpr hnot)] at hmodes
      cases hmodes
    -- the token leaves to the rest the room that it does not take
    have hroom := room_apply hmode
    have hrest : Together tokens (token.apply a).room := by
      refine ⟨fun t ht => h.valid t (List.mem_cons_of_mem _ ht), ?_⟩
      revert hmodes hroom
      cases token.mode? with
      | none => exact fun hmodes hroom => by simp at hmodes hroom; omega
      | some useUefi => exact fun hmodes hroom => by simp at hmodes hroom; omega
    unfold spelled
    rw [List.flatMap_cons, List.append_assoc,
      parseArguments_token (h.valid token List.mem_cons_self) hmode]
    exact ih hrest

end

/-! ## What the options mean -/

/-- The last of several options counts. -/
theorem foldl_apply (tokens : List Token) : tokens.foldl Token.apply .initial = {
    useUefi := (tokens.filterMap Token.mode?).getLast?
    showDisplay := (tokens.filterMap Token.display?).getLast?.getD false
    serialOnly := tokens.any Token.serial
    serialScriptPath := (tokens.filterMap Token.script?).getLast?
    serialDelayMs := (tokens.filterMap Token.delay?).getLast? } := by
  induction tokens using List.reverseRecOn with
  | nil => rfl
  | append_singleton tokens token ih =>
    rw [List.foldl_append, ih]
    simp only [List.filterMap_append, List.any_append]
    cases token with
    | mode useUefi =>
      simp [Token.apply, Token.mode?, Token.display?, Token.script?, Token.delay?, Token.serial]
    | display shown =>
      simp [Token.apply, Token.mode?, Token.display?, Token.script?, Token.delay?, Token.serial]
    | serialOnly =>
      simp [Token.apply, Token.mode?, Token.display?, Token.script?, Token.delay?, Token.serial]
    | serialScript path =>
      simp [Token.apply, Token.mode?, Token.display?, Token.script?, Token.delay?, Token.serial]
    | serialDelayMs value delayMs =>
      simp [Token.apply, Token.mode?, Token.display?, Token.script?, Token.delay?, Token.serial]

/-- What the runner goes by, read off the options. -/
structure Means (tokens : List Token) (options : RunnerOptions) : Prop where
  mode : tokens.filterMap Token.mode? = [options.useUefi]
  showDisplay : options.showDisplay = (tokens.filterMap Token.display?).getLast?.getD false
  serialOnly : options.serialOnly = tokens.any Token.serial
  serialScript : options.serialScript =
    (tokens.filterMap Token.script?).getLast?.map fun path =>
      { path
        delayMs := (tokens.filterMap Token.delay?).getLast?.getD defaultSerialScriptDelayMs }

section

variable {program : String} {args : List String} {tokens : List Token}

theorem runnerOptions_error {exit : Exit}
    (h : parseArguments program args .initial = .error exit) :
    runnerOptions program args = .error exit := by
  unfold runnerOptions
  rw [h]
  rfl

variable (program) in
/-- The checks behind the loop. -/
theorem runnerOptions_spelled (h : Together tokens 1) (hargs : args = spelled tokens) :
    (∃ options, runnerOptions program args = .ok options ∧ Means tokens options) ∨
      (runnerOptions program args = .error (refuse program []) ∧
        tokens.filterMap Token.mode? = []) := by
  have hloop : parseArguments program (spelled tokens ++ []) .initial = _ :=
    parseArguments_spelled h
  rw [List.append_nil, ← hargs, foldl_apply] at hloop
  have hmodes := h.modes
  unfold runnerOptions
  rw [hloop]
  cases hmode : tokens.filterMap Token.mode? with
  | nil => exact Or.inr ⟨rfl, rfl⟩
  | cons useUefi more =>
    rw [hmode, List.length_cons] at hmodes
    rw [List.eq_nil_of_length_eq_zero (Nat.le_zero.mp (Nat.le_of_succ_le_succ hmodes))] at hmode
    rw [List.eq_nil_of_length_eq_zero (Nat.le_zero.mp (Nat.le_of_succ_le_succ hmodes))]
    exact Or.inl ⟨_, rfl, hmode, rfl, rfl, rfl⟩

theorem runnerOptions_help {word : String} {rest : List String} (h : Together tokens 1)
    (hargs : args = spelled tokens ++ word :: rest) (hword : word ∈ helpWords) :
    runnerOptions program args = .error (help program) := by
  refine runnerOptions_error ?_
  rw [hargs, parseArguments_spelled (a := .initial) h]
  exact parseArguments_help hword

/-- The options are determined by the words. -/
theorem Means.unique {options options' : RunnerOptions} (h : Means tokens options)
    (h' : Means tokens options') : options = options' := by
  have hmode := List.singleton_inj.mp (h.mode.symm.trans h'.mode)
  rcases options with ⟨_, _, _, _⟩
  rcases options' with ⟨_, _, _, _⟩
  rw [RunnerOptions.mk.injEq]
  exact ⟨hmode, h.showDisplay.trans h'.showDisplay.symm, h.serialOnly.trans h'.serialOnly.symm,
    h.serialScript.trans h'.serialScript.symm⟩

/-- Where the loop ends: behind all arguments, at a call for help, or at an argument that it does
not take. -/
theorem parseArguments_ends (program : String) (args : List String) (a : Arguments) :
    ∃ tokens rest, args = spelled tokens ++ rest ∧ Together tokens a.room ∧
      (rest = [] ∨ (∃ word ∈ helpWords, rest.head? = some word) ∨
        ∃ exit, parseArguments program args a = .error exit ∧ exit.code = 1) := by
  induction hlength : args.length using Nat.strong_induction_on generalizing args a with
  | _ n ih =>
    rcases parseArguments_cases program args a with
      ⟨rfl, _⟩ | ⟨token, rest, rfl, hvalid, hmode⟩ | hhelp | hexit
    · exact ⟨[], [], rfl, ⟨nofun, Nat.zero_le _⟩, Or.inl rfl⟩
    -- a token was read, so that the induction goes on with a shorter list
    · have hshorter : rest.length < n := by
        have hwords : 0 < token.words.length := by
          cases token with
          | mode useUefi => cases useUefi <;> decide
          | display shown => cases shown <;> decide
          | _ => exact Nat.succ_pos _
        rw [List.length_append] at hlength
        omega
      rcases ih _ hshorter rest (token.apply a) rfl with ⟨tokens, last, hrest, htogether, hends⟩
      refine ⟨token :: tokens, last, ?_, ⟨?_, ?_⟩, ?_⟩
      · rw [hrest]
        exact (List.append_assoc _ _ _).symm
      · intro t ht
        rw [List.mem_cons] at ht
        rcases ht with rfl | ht
        · exact hvalid
        · exact htogether.valid t ht
      · have hmodes := htogether.modes
        have hroom := room_apply hmode
        rw [List.filterMap_cons]
        revert hmodes hroom
        cases token.mode? with
        | none => exact fun hmodes hroom => by simp at hroom ⊢; omega
        | some useUefi => exact fun hmodes hroom => by simp at hroom ⊢; omega
      · rw [parseArguments_token hvalid hmode]
        exact hends
    · exact ⟨[], args, rfl, ⟨nofun, Nat.zero_le _⟩, Or.inr (Or.inl hhelp)⟩
    · exact ⟨[], args, rfl, ⟨nofun, Nat.zero_le _⟩, Or.inr (Or.inr hexit)⟩

end

/-- **The command line.** Accepted is every sequence of options, in any order, with one mode among
them and with delays that are numbers, and the last of several options counts; the help is shown
at the first call for it behind options that go together; anything else is refused. -/
theorem runner_options_spec (program : String) (args : List String) :
    (∀ options, runnerOptions program args = .ok options ↔
      ∃ tokens, args = spelled tokens ∧ (∀ token ∈ tokens, token.Valid) ∧ Means tokens options) ∧
    (runnerOptions program args = .error (help program) ↔
      ∃ tokens word rest, args = spelled tokens ++ word :: rest ∧ word ∈ helpWords ∧
        Together tokens 1) ∧
    ∀ exit, runnerOptions program args = .error exit → exit = help program ∨ exit.code = 1 := by
  have hcode : (help program).code ≠ 1 := by
    change 0 ≠ 1
    decide
  -- what becomes of these arguments
  have hends : (∃ tokens options, args = spelled tokens ∧ Together tokens 1 ∧
        runnerOptions program args = .ok options ∧ Means tokens options) ∨
      (∃ tokens word rest, args = spelled tokens ++ word :: rest ∧ word ∈ helpWords ∧
        Together tokens 1) ∨
      ∃ exit, runnerOptions program args = .error exit ∧ exit.code = 1 := by
    rcases parseArguments_ends program args .initial with
      ⟨tokens, rest, hargs, htogether, rfl | ⟨word, hword, hhead⟩ | ⟨exit, hexit, hone⟩⟩
    · rw [List.append_nil] at hargs
      rcases runnerOptions_spelled program htogether hargs with
        ⟨options, hok, hmeans⟩ | ⟨hrefused, _⟩
      · exact Or.inl ⟨tokens, options, hargs, htogether, hok, hmeans⟩
      · exact Or.inr (Or.inr ⟨_, hrefused, rfl⟩)
    · rcases List.head?_eq_some_iff.mp hhead with ⟨behind, rfl⟩
      exact Or.inr (Or.inl ⟨tokens, word, behind, hargs, hword, htogether⟩)
    · exact Or.inr (Or.inr ⟨exit, runnerOptions_error hexit, hone⟩)
  refine ⟨fun options => ⟨fun hok => ?_, ?_⟩, ⟨fun herror => ?_, ?_⟩, fun exit herror => ?_⟩
  · rcases hends with ⟨tokens, options', hargs, htogether, hok', hmeans⟩ |
      ⟨tokens, word, rest, hargs, hword, htogether⟩ | ⟨exit, hexit, _⟩
    · rw [hok', Except.ok.injEq] at hok
      exact ⟨tokens, hargs, htogether.valid, hok ▸ hmeans⟩
    · rw [runnerOptions_help htogether hargs hword] at hok
      cases hok
    · rw [hexit] at hok
      cases hok
  · rintro ⟨tokens, hargs, hvalid, hmeans⟩
    have htogether : Together tokens 1 := ⟨hvalid, by rw [hmeans.mode]; exact Nat.le_refl _⟩
    rcases runnerOptions_spelled program htogether hargs with
      ⟨options', hok, hmeans'⟩ | ⟨_, hnone⟩
    · rw [hok, hmeans.unique hmeans']
    · rw [hmeans.mode] at hnone
      cases hnone
  · rcases hends with ⟨_, _, _, _, hok, _⟩ | hhelp | ⟨exit, hexit, hone⟩
    · rw [hok] at herror
      cases herror
    · exact hhelp
    · rw [hexit, Except.error.injEq] at herror
      exact absurd (herror ▸ hone) hcode
  · rintro ⟨tokens, word, rest, hargs, hword, htogether⟩
    exact runnerOptions_help htogether hargs hword
  · rcases hends with ⟨_, _, _, _, hok, _⟩ | ⟨tokens, word, rest, hargs, hword, htogether⟩ |
      ⟨exit', hexit, hone⟩
    · rw [hok] at herror
      cases herror
    · rw [runnerOptions_help htogether hargs hword, Except.error.injEq] at herror
      exact Or.inl herror.symm
    · rw [hexit, Except.error.injEq] at herror
      exact Or.inr (herror ▸ hone)

/-- The second display option counts, and a delay without a script says nothing. -/
example : runnerOptions "jingOS" ["uefi", "--show", "--serial-delay-ms", "100", "--headless"] =
    .ok { useUefi := true, showDisplay := false, serialOnly := false, serialScript := none } := by
  decide

end JingOS.Host
