import Mathlib.Data.List.Basic
import Mathlib.Logic.Relation

/-!
# Locks and interrupts on a single core

A program on one core calls routines that take spin locks. Interrupt handlers, which run between
any two of its instructions while the interrupt flag is set, take some of the locks too. A handler
that found its lock taken would spin for ever, because the program cannot go on before it returns.

* `Machine`, `Step` — the core, one instruction at a time, with interrupts at any moment;
* `orderly`, `serving` — a check of the routines: the handlers' locks are held only while interrupts
  are masked;
* `reachable_never_waits` — with checked routines every instruction can be executed;
* `Coarse` — the same core with masked parts and handlers as single steps;
* `reachable_coarse` — each run is one of those, with the same calls and the same handlers.
-/

namespace SingleCore

open Relation

variable {L σ κ ι : Type}

/-! ## The core -/

/-- An instruction, as far as locks and interrupts go. -/
inductive Instr (L σ : Type) where
  /-- Anything that takes a single step on the shared state. -/
  | update (f : σ → σ)
  | acquire (lock : L)
  | release (lock : L)
  /-- Interrupts off, with the flag saved. -/
  | mask
  /-- The flag as it was saved. -/
  | unmask
  /-- Interrupts on. -/
  | enable

/-- A routine. -/
abbrev Code (L σ : Type) := List (Instr L σ)

/-- The core, with the names of what has been called and served. -/
structure Machine (L σ κ ι : Type) where
  shared : σ
  held : List L
  flag : Bool
  saved : Option Bool
  /-- What is left of the routine that the program has called. -/
  todo : Code L σ
  /-- What is left of the handler, while one is running. -/
  handler : Option (Code L σ)
  /-- The routines that have been called. -/
  called : List κ
  /-- The interrupts whose handlers have begun. -/
  served : List ι

/-- Nothing runs, and no lock is held. -/
def Machine.idle (shared : σ) (flag : Bool) : Machine L σ κ ι :=
  { shared, held := [], flag, saved := none, todo := [], handler := none, called := [],
    served := [] }

variable [DecidableEq L]

/-- The machine after an instruction that can be executed. A lock that is held is waited for. -/
def Machine.exec (m : Machine L σ κ ι) : Instr L σ → Option (Machine L σ κ ι)
  | .update f => some { m with shared := f m.shared }
  | .acquire lock => if lock ∈ m.held then none else some { m with held := lock :: m.held }
  | .release lock => some { m with held := m.held.erase lock }
  | .mask => if m.saved.isSome then none else some { m with flag := false, saved := some m.flag }
  | .unmask => m.saved.map fun flag => { m with flag, saved := none }
  | .enable => some { m with flag := true, saved := none }

/-- One step of a machine whose program calls routines, and which is interrupted. -/
inductive Step (calls : κ → Code L σ) (handlers : ι → Code L σ) :
    Machine L σ κ ι → Machine L σ κ ι → Prop where
  | call {m : Machine L σ κ ι} (routine : κ) (hnone : m.handler = none) (hidle : m.todo = []) :
      Step calls handlers m { m with todo := calls routine, called := m.called ++ [routine] }
  | main {m m' : Machine L σ κ ι} {i : Instr L σ} {rest : Code L σ} (hnone : m.handler = none)
      (htodo : m.todo = i :: rest) (hexec : { m with todo := rest }.exec i = some m') :
      Step calls handlers m m'
  | interrupt {m : Machine L σ κ ι} (source : ι) (hnone : m.handler = none)
      (hflag : m.flag = true) :
      Step calls handlers m
        { m with flag := false, handler := some (handlers source), served := m.served ++ [source] }
  | serve {m m' : Machine L σ κ ι} {i : Instr L σ} {rest : Code L σ}
      (hhandler : m.handler = some (i :: rest))
      (hexec : { m with handler := some rest }.exec i = some m') : Step calls handlers m m'
  | iret {m : Machine L σ κ ι} (hhandler : m.handler = some []) :
      Step calls handlers m { m with flag := true, handler := none }

/-- Whoever has the core cannot execute the next instruction. -/
def Machine.Waits (m : Machine L σ κ ι) : Prop :=
  (∃ i rest, m.handler = some (i :: rest) ∧ { m with handler := some rest }.exec i = none) ∨
  (m.handler = none ∧ ∃ i rest, m.todo = i :: rest ∧ { m with todo := rest }.exec i = none)

/-! ## Checked routines -/

section

variable (irq : L → Bool)

/-- The check of a routine of the program; `irq` are the locks of the handlers. -/
def orderly : Bool → List L → Code L σ → Bool
  | masked, held, [] => !masked && held.isEmpty
  | masked, held, .update _ :: rest => orderly masked held rest
  | masked, held, .acquire lock :: rest =>
    !held.contains lock && (masked || !irq lock) && orderly masked (lock :: held) rest
  | masked, held, .release lock :: rest => orderly masked (held.erase lock) rest
  | masked, held, .mask :: rest => !masked && orderly true held rest
  | masked, held, .unmask :: rest => masked && held.all (!irq ·) && orderly false held rest
  | _, held, .enable :: rest => held.all (!irq ·) && orderly false held rest

/-- The check of a handler. -/
def serving : List L → Code L σ → Bool
  | held, [] => held.isEmpty
  | held, .update _ :: rest => serving held rest
  | held, .acquire lock :: rest => !held.contains lock && irq lock && serving (lock :: held) rest
  | held, .release lock :: rest => held.contains lock && serving (held.erase lock) rest
  | _, _ :: _ => false

end

/-- The machine in a run of checked routines; `own` are the locks of the program, `theirs` those of
the handler. -/
structure Orderly (irq : L → Bool) (own theirs : List L) (m : Machine L σ κ ι) : Prop where
  held : m.held = theirs ++ own
  main : orderly irq m.saved.isSome own m.todo = true
  masked : m.saved.isSome = true → m.flag = false ∧ m.handler = none
  apart : m.saved = none → ∀ lock ∈ own, irq lock = false
  idle : m.handler = none → theirs = []
  handler : ∀ code ∈ m.handler, serving irq theirs code = true ∧ ∀ lock ∈ theirs, irq lock = true

variable {calls : κ → Code L σ} {handlers : ι → Code L σ} {irq : L → Bool} {own theirs : List L}
  {m m' : Machine L σ κ ι}

/-- Before the first step no lock is taken. -/
theorem Orderly.start (shared : σ) (flag : Bool) :
    Orderly irq [] [] (Machine.idle shared flag : Machine L σ κ ι) where
  held := rfl
  main := rfl
  masked := nofun
  apart _ := nofun
  idle _ := rfl
  handler := nofun

/-- A handler finds its locks free, and the program is not in a masked part. -/
theorem Orderly.saved (h : Orderly irq own theirs m) {code : Code L σ}
    (hhandler : m.handler = some code) : m.saved = none := by
  by_contra hsome
  have hnone := (h.masked (Option.isSome_iff_ne_none.mpr hsome)).2
  rw [hhandler] at hnone
  cases hnone

/-- The lock that a handler is about to take is free. -/
theorem Orderly.free (h : Orderly irq own theirs m) {lock : L} {rest : Code L σ}
    (hhandler : m.handler = some (.acquire lock :: rest)) : lock ∉ m.held := by
  have hcheck := (h.handler _ hhandler).1
  unfold serving at hcheck
  simp only [Bool.and_eq_true, Bool.not_eq_true', List.contains_eq_mem, decide_eq_false_iff_not]
    at hcheck
  rw [h.held, List.mem_append]
  rintro (htheirs | hown)
  · exact hcheck.1.1 htheirs
  · have hfree := h.apart (h.saved hhandler) lock hown
    rw [hcheck.1.2] at hfree
    cases hfree

/-- **Nobody waits.** -/
theorem Orderly.not_waits (h : Orderly irq own theirs m) : ¬ m.Waits := by
  rintro (⟨i, rest, hhandler, hexec⟩ | ⟨hnone, i, rest, htodo, hexec⟩)
  -- the handler could only wait for a lock, and its locks are free
  · have hcheck := (h.handler _ hhandler).1
    cases i with
    | update f => cases hexec
    | acquire lock =>
      have hfree := h.free hhandler
      rw [Machine.exec, if_neg hfree] at hexec
      cases hexec
    | release lock => cases hexec
    | mask => cases hcheck
    | unmask => cases hcheck
    | enable => cases hcheck
  -- the program could wait for a lock that it has itself, which the check excludes
  · have hcheck := h.main
    rw [htodo] at hcheck
    cases i with
    | update f => cases hexec
    | acquire lock =>
      unfold orderly at hcheck
      simp only [Bool.and_eq_true, Bool.not_eq_true', List.contains_eq_mem,
        decide_eq_false_iff_not] at hcheck
      have hfree : lock ∉ m.held := by
        rw [h.held, h.idle hnone]
        exact hcheck.1.1
      rw [Machine.exec, if_neg hfree] at hexec
      cases hexec
    | release lock => cases hexec
    | mask =>
      unfold orderly at hcheck
      rw [Bool.and_eq_true, Bool.not_eq_true'] at hcheck
      rw [Machine.exec, if_neg (by rw [hcheck.1]; decide)] at hexec
      cases hexec
    | unmask =>
      unfold orderly at hcheck
      rw [Bool.and_eq_true, Bool.and_eq_true] at hcheck
      rw [Machine.exec, Option.map_eq_none_iff] at hexec
      rw [hexec] at hcheck
      cases hcheck.1.1
    | enable => cases hexec

/-! ## Runs -/

/-- An instruction of the program. -/
theorem Orderly.main_step (h : Orderly irq own theirs m) (hnone : m.handler = none) {i : Instr L σ}
    {rest : Code L σ} (htodo : m.todo = i :: rest)
    (hexec : { m with todo := rest }.exec i = some m') : ∃ own', Orderly irq own' [] m' := by
  have hcheck := h.main
  have hheld : m.held = own := by rw [h.held, h.idle hnone]; rfl
  have hmasked := h.masked
  -- no handler is running, so there is nothing to check of one
  have hnever : ∀ {theirs : List L}, ∀ code ∈ m.handler, serving irq theirs code = true ∧
      ∀ lock ∈ theirs, irq lock = true := by
    rw [hnone]
    nofun
  rw [htodo] at hcheck
  cases i with
  | update f =>
    cases hexec
    exact ⟨own, hheld, hcheck, hmasked, h.apart, fun _ => rfl, hnever⟩
  | acquire lock =>
    rw [Machine.exec] at hexec
    split at hexec
    · cases hexec
    · cases hexec
      unfold orderly at hcheck
      simp only [Bool.and_eq_true, Bool.or_eq_true, Bool.not_eq_true'] at hcheck
      refine ⟨lock :: own, by rw [hheld]; rfl, hcheck.2, hmasked, ?_, fun _ => rfl, hnever⟩
      -- with interrupts on, the lock is none of those that handlers take
      intro hsaved lock' hlock'
      rw [List.mem_cons] at hlock'
      rcases hlock' with rfl | hold
      · rcases hcheck.1.2 with hsome | hfree
        · rw [show m.saved = none from hsaved] at hsome
          cases hsome
        · exact hfree
      · exact h.apart hsaved lock' hold
  | release lock =>
    cases hexec
    refine ⟨own.erase lock, by rw [hheld]; rfl, hcheck, hmasked, ?_, fun _ => rfl, hnever⟩
    exact fun hsaved lock' hlock' => h.apart hsaved lock' (List.mem_of_mem_erase hlock')
  | mask =>
    rw [Machine.exec] at hexec
    split at hexec
    · cases hexec
    · cases hexec
      unfold orderly at hcheck
      rw [Bool.and_eq_true] at hcheck
      exact ⟨own, hheld, hcheck.2, fun _ => ⟨rfl, hnone⟩, nofun, fun _ => rfl, hnever⟩
  | unmask =>
    rw [Machine.exec, Option.map_eq_some_iff] at hexec
    rcases hexec with ⟨flag, _, rfl⟩
    unfold orderly at hcheck
    simp only [Bool.and_eq_true, List.all_eq_true, Bool.not_eq_true'] at hcheck
    exact ⟨own, hheld, hcheck.2, nofun, fun _ => hcheck.1.2, fun _ => rfl, hnever⟩
  | enable =>
    cases hexec
    unfold orderly at hcheck
    simp only [Bool.and_eq_true, List.all_eq_true, Bool.not_eq_true'] at hcheck
    exact ⟨own, hheld, hcheck.2, nofun, fun _ => hcheck.1, fun _ => rfl, hnever⟩

/-- An instruction of the handler. -/
theorem Orderly.serve_step (h : Orderly irq own theirs m) {i : Instr L σ} {rest : Code L σ}
    (hhandler : m.handler = some (i :: rest))
    (hexec : { m with handler := some rest }.exec i = some m') :
    ∃ theirs', Orderly irq own theirs' m' := by
  have hsaved := h.saved hhandler
  rcases h.handler _ hhandler with ⟨hcheck, hirq⟩
  -- what an instruction of the handler leaves to the program is as it was
  have hmain : ∀ {theirs' : List L} {m' : Machine L σ κ ι}, m'.held = theirs' ++ own →
      m'.saved = m.saved → m'.todo = m.todo → m'.handler = some rest →
      serving irq theirs' rest = true → (∀ lock ∈ theirs', irq lock = true) →
      Orderly irq own theirs' m' := by
    intro theirs' m' hheld hsaved' htodo' hrest hserving hirq'
    refine ⟨hheld, by rw [hsaved', htodo']; exact h.main, ?_, ?_, ?_, ?_⟩
    · rw [hsaved', hsaved]
      nofun
    · intro _
      exact h.apart hsaved
    · rw [hrest]
      nofun
    · rw [hrest]
      intro code hcode
      rw [← Option.some.inj hcode]
      exact ⟨hserving, hirq'⟩
  cases i with
  | update f =>
    cases hexec
    exact ⟨theirs, hmain h.held rfl rfl rfl hcheck hirq⟩
  | acquire lock =>
    -- the handler's lock is free, since the program was interrupted without it
    rw [Machine.exec, if_neg (h.free hhandler)] at hexec
    cases hexec
    unfold serving at hcheck
    rw [Bool.and_eq_true, Bool.and_eq_true] at hcheck
    refine ⟨lock :: theirs, hmain (by rw [h.held]; rfl) rfl rfl rfl hcheck.2 ?_⟩
    intro lock' hlock'
    rw [List.mem_cons] at hlock'
    rcases hlock' with rfl | hold
    · exact hcheck.1.2
    · exact hirq lock' hold
  | release lock =>
    cases hexec
    unfold serving at hcheck
    rw [Bool.and_eq_true, List.contains_eq_mem, decide_eq_true_iff] at hcheck
    refine ⟨theirs.erase lock, hmain ?_ rfl rfl rfl hcheck.2 ?_⟩
    · rw [h.held]
      exact List.erase_append_left own hcheck.1
    · exact fun lock' hlock' => hirq lock' (List.mem_of_mem_erase hlock')
  | mask => cases hcheck
  | unmask => cases hcheck
  | enable => cases hcheck

section

variable (hcalls : ∀ routine, orderly irq false [] (calls routine) = true)
  (hhandlers : ∀ source, serving irq [] (handlers source) = true)
include hcalls hhandlers

/-- **Step.** Each step keeps the order of the locks. -/
theorem Orderly.step (h : Orderly irq own theirs m) (hstep : Step calls handlers m m') :
    ∃ own' theirs', Orderly irq own' theirs' m' := by
  cases hstep with
  | call routine hnone hidle =>
    -- the last routine has given back its locks
    have hcheck := h.main
    rw [hidle] at hcheck
    unfold orderly at hcheck
    rw [Bool.and_eq_true, Bool.not_eq_true', List.isEmpty_iff] at hcheck
    refine ⟨[], theirs, by rw [← hcheck.2]; exact h.held, ?_, h.masked, fun _ => nofun, h.idle,
      h.handler⟩
    change orderly irq m.saved.isSome [] (calls routine) = true
    rw [hcheck.1]
    exact hcalls routine
  | main hnone htodo hexec =>
    rcases h.main_step hnone htodo hexec with ⟨own', h'⟩
    exact ⟨own', [], h'⟩
  | interrupt source hnone hflag =>
    have hsaved : m.saved = none := by
      by_contra hsome
      rw [(h.masked (Option.isSome_iff_ne_none.mpr hsome)).1] at hflag
      cases hflag
    refine ⟨own, [], by rw [h.held, h.idle hnone], h.main, ?_, h.apart, fun _ => rfl, ?_⟩
    · change m.saved.isSome = true → _
      rw [hsaved]
      nofun
    · rintro _ ⟨⟩
      exact ⟨hhandlers source, nofun⟩
  | serve hhandler hexec =>
    rcases h.serve_step hhandler hexec with ⟨theirs', h'⟩
    exact ⟨own, theirs', h'⟩
  | iret hhandler =>
    have hcheck := (h.handler _ hhandler).1
    unfold serving at hcheck
    rw [List.isEmpty_iff] at hcheck
    refine ⟨own, theirs, h.held, h.main, ?_, h.apart, fun _ => hcheck, nofun⟩
    change m.saved.isSome = true → _
    rw [h.saved hhandler]
    nofun

/-- The condition holds throughout every run. -/
theorem reachable_orderly {shared : σ} {flag : Bool}
    (hrun : ReflTransGen (Step calls handlers) (Machine.idle shared flag) m) :
    ∃ own theirs, Orderly irq own theirs m := by
  induction hrun with
  | refl => exact ⟨[], [], Orderly.start shared flag⟩
  | tail _ hstep ih =>
    rcases ih with ⟨own, theirs, h⟩
    exact h.step hcalls hhandlers hstep

/-- **No deadlock.** -/
theorem reachable_never_waits {shared : σ} {flag : Bool}
    (hrun : ReflTransGen (Step calls handlers) (Machine.idle shared flag) m) : ¬ m.Waits := by
  rcases reachable_orderly hcalls hhandlers hrun with ⟨_, _, h⟩
  exact h.not_waits

end

/-! ## Single steps -/

/-- What a routine does to the shared state. -/
def effect : Code L σ → σ → σ
  | [], s => s
  | .update f :: rest, s => effect rest (f s)
  | _ :: rest, s => effect rest s

/-- The single steps of a routine: an update outside masked parts, or a masked part. `done` is what
the masked part has done so far. -/
def blocks : Option (σ → σ) → Code L σ → List (σ → σ)
  | done, [] => done.toList
  | none, .update f :: rest => f :: blocks none rest
  | some done, .update f :: rest => blocks (some (f ∘ done)) rest
  | none, .mask :: rest => blocks (some id) rest
  | some done, .unmask :: rest => done :: blocks none rest
  | some done, .enable :: rest => done :: blocks none rest
  | done, _ :: rest => blocks done rest

/-- What single steps have made of the shared state, the single steps to come, and the names of what
has been called and served. -/
structure Outline (σ κ ι : Type) where
  shared : σ
  todo : List (σ → σ)
  called : List κ
  served : List ι

/-- No routine was called yet. -/
def Outline.idle (shared : σ) : Outline σ κ ι := { shared, todo := [], called := [], served := [] }

/-- A step of the outline: a routine is called, one of its blocks is run, or an interrupt is served.
-/
inductive Coarse (calls : κ → Code L σ) (handlers : ι → Code L σ) :
    Outline σ κ ι → Outline σ κ ι → Prop where
  | call {c : Outline σ κ ι} (routine : κ) (hidle : c.todo = []) :
      Coarse calls handlers c
        { c with todo := blocks none (calls routine), called := c.called ++ [routine] }
  | main {c : Outline σ κ ι} {f : σ → σ} {rest : List (σ → σ)} (htodo : c.todo = f :: rest) :
      Coarse calls handlers c { c with shared := f c.shared, todo := rest }
  | interrupt {c : Outline σ κ ι} (source : ι) :
      Coarse calls handlers c
        { c with shared := effect (handlers source) c.shared, served := c.served ++ [source] }

/-- The single step that is under way has not been taken. -/
inductive Stands (handlers : ι → Code L σ) (m : Machine L σ κ ι) : Outline σ κ ι → Prop where
  | between (hnone : m.handler = none) (hsaved : m.saved = none) :
      Stands handlers m ⟨m.shared, blocks none m.todo, m.called, m.served⟩
  | masked {s : σ} {done : σ → σ} (hnone : m.handler = none) (hsaved : m.saved.isSome = true)
      (hdone : m.shared = done s) :
      Stands handlers m ⟨s, blocks (some done) m.todo, m.called, m.served⟩
  | interrupted {s : σ} {source : ι} {served : List ι} {rest : Code L σ}
      (hserved : m.served = served ++ [source]) (hhandler : m.handler = some rest)
      (hsaved : m.saved = none) (hrest : effect rest m.shared = effect (handlers source) s) :
      Stands handlers m ⟨s, blocks none m.todo, m.called, served⟩

/-- An instruction of the program takes at most one single step. -/
theorem Stands.main_step {c : Outline σ κ ι} (h : Stands handlers m c)
    (hcheck : orderly irq m.saved.isSome own m.todo = true) (hnone : m.handler = none)
    {i : Instr L σ} {rest : Code L σ} (htodo : m.todo = i :: rest)
    (hexec : { m with todo := rest }.exec i = some m') :
    ∃ c', Stands handlers m' c' ∧ (c' = c ∨ Coarse calls handlers c c') := by
  cases h with
  | interrupted _ hhandler =>
    rw [hnone] at hhandler
    cases hhandler
  | between _ hsaved =>
    -- outside of the masked blocks each update is a step by itself
    rw [htodo, hsaved] at hcheck
    rw [htodo]
    cases i with
    | update f =>
      cases hexec
      exact ⟨_, .between hnone hsaved, Or.inr (.main rfl)⟩
    | acquire lock =>
      rw [Machine.exec] at hexec
      split at hexec
      · cases hexec
      · cases hexec
        exact ⟨_, .between hnone hsaved, Or.inl rfl⟩
    | release lock =>
      cases hexec
      exact ⟨_, .between hnone hsaved, Or.inl rfl⟩
    | mask =>
      rw [Machine.exec, if_neg (by rw [hsaved]; decide)] at hexec
      cases hexec
      have hdone : m.shared = id m.shared := rfl
      exact ⟨_, .masked hnone rfl hdone, Or.inl rfl⟩
    | unmask => cases hcheck
    | enable =>
      cases hexec
      exact ⟨_, .between hnone rfl, Or.inl rfl⟩
  | @masked s done _ hsaved hdone =>
    -- inside of them the updates are put together, and the step comes at the end
    rw [htodo, hsaved] at hcheck
    rw [htodo]
    cases i with
    | update f =>
      cases hexec
      have hdone' : f m.shared = (f ∘ done) s := congrArg f hdone
      exact ⟨_, .masked hnone hsaved hdone', Or.inl rfl⟩
    | acquire lock =>
      rw [Machine.exec] at hexec
      split at hexec
      · cases hexec
      · cases hexec
        exact ⟨_, .masked hnone hsaved hdone, Or.inl rfl⟩
    | release lock =>
      cases hexec
      exact ⟨_, .masked hnone hsaved hdone, Or.inl rfl⟩
    | mask => cases hcheck
    | unmask =>
      rw [Machine.exec, Option.map_eq_some_iff] at hexec
      rcases hexec with ⟨flag, _, rfl⟩
      refine ⟨_, .between hnone rfl, Or.inr ?_⟩
      change Coarse calls handlers ⟨s, done :: blocks none rest, _, _⟩
        ⟨m.shared, blocks none rest, _, _⟩
      rw [hdone]
      exact .main rfl
    | enable =>
      cases hexec
      refine ⟨_, .between hnone rfl, Or.inr ?_⟩
      change Coarse calls handlers ⟨s, done :: blocks none rest, _, _⟩
        ⟨m.shared, blocks none rest, _, _⟩
      rw [hdone]
      exact .main rfl

/-- An instruction of a handler takes no single step. -/
theorem Stands.serve_step {c : Outline σ κ ι} (h : Stands handlers m c)
    {i : Instr L σ} {rest : Code L σ} (hhandler : m.handler = some (i :: rest))
    (hcheck : serving irq theirs (i :: rest) = true)
    (hexec : { m with handler := some rest }.exec i = some m') : Stands handlers m' c := by
  cases h with
  | between hnone =>
    rw [hhandler] at hnone
    cases hnone
  | masked hnone =>
    rw [hhandler] at hnone
    cases hnone
  | interrupted hserved hrest hsaved heffect =>
    rw [hhandler] at hrest
    cases hrest
    -- an instruction of the handler is a part of its one step, which comes at its end
    cases i with
    | update f =>
      cases hexec
      exact .interrupted hserved rfl hsaved heffect
    | acquire lock =>
      rw [Machine.exec] at hexec
      split at hexec
      · cases hexec
      · cases hexec
        exact .interrupted hserved rfl hsaved heffect
    | release lock =>
      cases hexec
      exact .interrupted hserved rfl hsaved heffect
    | mask => cases hcheck
    | unmask => cases hcheck
    | enable => cases hcheck

/-- A step of the machine is a single step, or none. -/
theorem Stands.step {c : Outline σ κ ι} (horder : Orderly irq own theirs m)
    (h : Stands handlers m c) (hstep : Step calls handlers m m') :
    ∃ c', Stands handlers m' c' ∧ (c' = c ∨ Coarse calls handlers c c') := by
  cases hstep with
  | call routine hnone hidle =>
    -- a routine is called with interrupts on
    have hsaved : m.saved = none := by
      have hcheck := horder.main
      rw [hidle] at hcheck
      unfold orderly at hcheck
      rw [Bool.and_eq_true, Bool.not_eq_true'] at hcheck
      exact Option.isSome_eq_false_iff.mp hcheck.1 |> Option.isNone_iff_eq_none.mp
    cases h with
    | interrupted _ hhandler =>
      rw [hnone] at hhandler
      cases hhandler
    | between _ _ =>
      refine ⟨_, .between hnone hsaved, Or.inr ?_⟩
      rw [hidle]
      exact .call routine rfl
    | masked _ hsome =>
      rw [hsaved] at hsome
      cases hsome
  | main hnone htodo hexec => exact h.main_step horder.main hnone htodo hexec
  | interrupt source hnone hflag =>
    cases h with
    | interrupted _ hhandler =>
      rw [hnone] at hhandler
      cases hhandler
    -- an interrupt comes in between the blocks, never inside of one
    | between _ hsaved => exact ⟨_, .interrupted rfl rfl hsaved rfl, Or.inl rfl⟩
    | masked _ hsome =>
      rw [(horder.masked hsome).1] at hflag
      cases hflag
  | serve hhandler hexec =>
    exact ⟨c, h.serve_step hhandler (horder.handler _ hhandler).1 hexec, Or.inl rfl⟩
  | iret hhandler =>
    cases h with
    | between hnone =>
      rw [hhandler] at hnone
      cases hnone
    | masked hnone =>
      rw [hhandler] at hnone
      cases hnone
    | @interrupted s source served _ hserved hrest hsaved heffect =>
      rw [hhandler] at hrest
      cases hrest
      -- the handler has run to its end: that is the step
      refine ⟨_, .between rfl hsaved, Or.inr ?_⟩
      change Coarse calls handlers _
        ⟨effect ([] : Code L σ) m.shared, blocks none m.todo, m.called, m.served⟩
      rw [heffect, hserved]
      exact .interrupt source

/-- **Reduction.** Every run is a run in single steps. -/
theorem reachable_coarse (hcalls : ∀ routine, orderly irq false [] (calls routine) = true)
    (hhandlers : ∀ source, serving irq [] (handlers source) = true) {shared : σ} {flag : Bool}
    (hrun : ReflTransGen (Step calls handlers) (Machine.idle shared flag) m) :
    ∃ c, ReflTransGen (Coarse calls handlers) (.idle shared) c ∧ Stands handlers m c := by
  induction hrun with
  | refl => exact ⟨_, .refl, .between rfl rfl⟩
  | tail hrun hstep ih =>
    rcases ih with ⟨c, hcoarse, hstands⟩
    rcases reachable_orderly hcalls hhandlers hrun with ⟨_, _, horder⟩
    rcases hstands.step horder hstep with ⟨c', hstands', rfl | hnext⟩
    · exact ⟨_, hcoarse, hstands'⟩
    · exact ⟨_, hcoarse.tail hnext, hstands'⟩

end SingleCore
