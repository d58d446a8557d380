import JingOS.Lib.Checked

/-!
# Programs over a state that may stop early

`EStateM ε σ` is the monad of programs that change a state `σ` and may stop for a reason in
`ε`; the state at a stop is kept. `Ensures I E x Q` is a triple with one invariant for the
state, before, after and at every stop, a set of admissible reasons to stop, and a
postcondition for the value. With the empty set of reasons it says that the program returns.

* rules for `pure`, `bind`, reading and writing the state, and loops;
* `Ensures.lift` — a computation that may panic, inside such a program;
* `Reaches P x Q` — the program returns, with another condition after it than before;
* `Triple P x Q E` — the same where the program may also stop, with a condition of its own;
* `run_bind_ok`, `run_bind_error` — running a program step by step.
-/

namespace Hoare

variable {ε σ δ α β : Type} {I : σ → Prop} {E : ε → Prop} {Q : α → Prop} {R : β → Prop}

/-- From a state with `I` the program returns a value with `Q` or stops for a reason in `E`;
`I` holds after it in either case. -/
def Ensures (I : σ → Prop) (E : ε → Prop) (x : EStateM ε σ α) (Q : α → Prop) : Prop :=
  ∀ s, I s → match x.run s with
    | .ok a s' => Q a ∧ I s'
    | .error e s' => E e ∧ I s'

/-- The triple without a postcondition. -/
def Safe (I : σ → Prop) (E : ε → Prop) (x : EStateM ε σ α) : Prop := Ensures I E x fun _ => True

/-- The empty set of reasons. -/
def Never (_ : ε) : Prop := False

/-- A computation that may panic, as a program; `reason` turns a panic into a stop. -/
def lift (reason : Panic → ε) (x : Checked α) : EStateM ε σ α :=
  match x with
  | .ok a => pure a
  | .error p => throw (reason p)

/-! ## Rules -/

theorem Ensures.pure {a : α} (h : Q a) : Ensures I E (Pure.pure a) Q := fun _ hs => ⟨h, hs⟩

/-- The rule of sequence. -/
theorem Ensures.bind {x : EStateM ε σ α} {f : α → EStateM ε σ β} (hx : Ensures I E x Q)
    (hf : ∀ a, Q a → Ensures I E (f a) R) : Ensures I E (x >>= f) R := by
  intro s hs
  have hstep : match x s with
    | .ok a s' => Q a ∧ I s'
    | .error e s' => E e ∧ I s' := hx s hs
  change match EStateM.bind x f s with
    | .ok b s' => R b ∧ I s'
    | .error e s' => E e ∧ I s'
  unfold EStateM.bind
  -- either `x` has returned, and `f` runs from a state with `I`, or the stop is passed on
  cases hrun : x s with
  | ok a s' =>
    rw [hrun] at hstep
    exact hf a hstep.1 s' hstep.2
  | error e s' =>
    rw [hrun] at hstep
    exact hstep

/-- A computation that returns does not stop the program. -/
theorem Ensures.lift {reason : Panic → ε} {x : Checked α} (h : x.Returns Q) :
    Ensures I E (Hoare.lift reason x) Q := by
  obtain ⟨a, rfl, ha⟩ := h
  exact Ensures.pure ha

/-- A computation whose value is known: the program goes on with it. -/
theorem Ensures.lift_eq {reason : Panic → ε} {x : Checked α} {a : α} (hx : x = .ok a)
    {f : α → EStateM ε σ β} (hf : Ensures I E (f a) R) :
    Ensures I E (Hoare.lift reason x >>= f) R := by
  subst hx
  exact hf

/-- The rule of consequence. -/
theorem Ensures.mono {E' : ε → Prop} {Q' : α → Prop} {x : EStateM ε σ α} (h : Ensures I E x Q)
    (hE : ∀ e, E e → E' e) (hQ : ∀ a, Q a → Q' a) : Ensures I E' x Q' := by
  intro s hs
  have hstep := h s hs
  revert hstep
  cases x.run s with
  | ok a s' => exact fun hstep => ⟨hQ a hstep.1, hstep.2⟩
  | error e s' => exact fun hstep => ⟨hE e hstep.1, hstep.2⟩

theorem Safe.pure (a : α) : Safe I E (Pure.pure a : EStateM ε σ α) := Ensures.pure trivial

theorem Safe.throw {e : ε} (he : E e) : Safe I E (throw e : EStateM ε σ α) := fun _ hs => ⟨he, hs⟩

theorem Safe.bind {x : EStateM ε σ α} {f : α → EStateM ε σ β} (hx : Safe I E x)
    (hf : ∀ a, Safe I E (f a)) : Safe I E (x >>= f) := Ensures.bind hx fun a _ => hf a

/-- A program may use the invariant of the state that it reads. -/
theorem Safe.get {f : σ → EStateM ε σ α} (hf : ∀ s, I s → Safe I E (f s)) :
    Safe I E (get >>= f) := fun s hs => hf s hs s hs

theorem Safe.set {s' : σ} (h : I s') : Safe I E (set s' : EStateM ε σ PUnit) :=
  fun _ _ => ⟨trivial, h⟩

theorem Safe.modify {f : σ → σ} (hf : ∀ s, I s → I (f s)) :
    Safe I E (modify f : EStateM ε σ PUnit) := fun s hs => ⟨trivial, hf s hs⟩

theorem Safe.modifyGet {f : σ → α × σ} (hf : ∀ s, I s → I (f s).2) :
    Safe I E (modifyGet f : EStateM ε σ α) := fun s hs => ⟨trivial, hf s hs⟩

/-- A loop is safe if its body is. -/
theorem Safe.forM {f : α → EStateM ε σ PUnit} {xs : List α} (hf : ∀ a ∈ xs, Safe I E (f a)) :
    Safe I E (xs.forM f) := by
  induction xs with
  | nil => exact Safe.pure _
  | cons a xs ih =>
    refine (hf a List.mem_cons_self).bind fun _ => ih fun b hb => ?_
    exact hf b (List.mem_cons_of_mem _ hb)

/-- A program with errors of its own: the rest is run or the error is returned. -/
theorem Safe.exceptBind {x : ExceptT δ (EStateM ε σ) α} {f : α → ExceptT δ (EStateM ε σ) β}
    (hx : Safe I E x.run) (hf : ∀ a, Safe I E (f a).run) : Safe I E (x >>= f).run := by
  refine Safe.bind (x := x.run) hx fun result => ?_
  cases result with
  | ok a => exact hf a
  | error e => exact Safe.pure _

theorem Ensures.of_ok {x : EStateM ε σ α} (h : Ensures I E x Q) {s s' : σ} (hs : I s) {a : α}
    (hrun : x.run s = .ok a s') : Q a ∧ I s' := by
  have hstep := h s hs
  rwa [hrun] at hstep

theorem Ensures.of_error {x : EStateM ε σ α} (h : Ensures I E x Q) {s s' : σ} (hs : I s) {e : ε}
    (hrun : x.run s = .error e s') : E e ∧ I s' := by
  have hstep := h s hs
  rwa [hrun] at hstep

/-- A program with no reason to stop returns, in a state with the invariant. -/
theorem Ensures.returns {x : EStateM ε σ α} (h : Ensures I Never x Q) {s : σ} (hs : I s) :
    ∃ a s', x.run s = .ok a s' ∧ Q a ∧ I s' := by
  have hstep := h s hs
  revert hstep
  cases x.run s with
  | ok a s' => exact fun hstep => ⟨a, s', rfl, hstep⟩
  | error e s' => exact fun hstep => hstep.1.elim

/-! ## Running -/

theorem run_bind_ok {x : EStateM ε σ α} {f : α → EStateM ε σ β} {s s' : σ} {a : α}
    (h : x.run s = .ok a s') : (x >>= f).run s = (f a).run s' := by
  change EStateM.bind x f s = f a s'
  unfold EStateM.bind
  rw [show x s = .ok a s' from h]

theorem run_bind_error {x : EStateM ε σ α} {f : α → EStateM ε σ β} {s s' : σ} {e : ε}
    (h : x.run s = .error e s') : (x >>= f).run s = .error e s' := by
  change EStateM.bind x f s = .error e s'
  unfold EStateM.bind
  rw [show x s = .error e s' from h]

theorem run_get_bind (f : σ → EStateM ε σ α) (s : σ) : (get >>= f).run s = (f s).run s := rfl

theorem run_modify_bind (g : σ → σ) (f : PUnit → EStateM ε σ α) (s : σ) :
    (modify g >>= f).run s = (f ⟨⟩).run (g s) := rfl

theorem run_set_bind (s' : σ) (f : PUnit → EStateM ε σ α) (s : σ) :
    (set s' >>= f).run s = (f ⟨⟩).run s' := rfl

theorem run_lift_bind {reason : Panic → ε} {x : Checked α} {a : α} (hx : x = .ok a)
    (f : α → EStateM ε σ β) (s : σ) : (Hoare.lift reason x >>= f).run s = (f a).run s := by
  subst hx
  rfl

theorem run_exceptBind_ok {x : EStateM ε σ (Except δ α)} {f : α → ExceptT δ (EStateM ε σ) β}
    {s s' : σ} {a : α} (h : x.run s = .ok (.ok a) s') :
    (ExceptT.mk x >>= f).run.run s = (f a).run.run s' := run_bind_ok (x := x) h

theorem run_exceptBind_error {x : EStateM ε σ (Except δ α)} {s s' : σ} {e : δ}
    (h : x.run s = .ok (.error e) s') (f : α → ExceptT δ (EStateM ε σ) β) :
    (ExceptT.mk x >>= f).run.run s = .ok (.error e) s' := run_bind_ok (x := x) h

/-! ## From one condition to another -/

/-- From a state with `P` the program returns, with `Q` for its value and the state after it. -/
def Reaches (P : σ → Prop) (x : EStateM ε σ α) (Q : α → σ → Prop) : Prop :=
  ∀ s, P s → ∃ a s', x.run s = .ok a s' ∧ Q a s'

theorem Reaches.pure {P : σ → Prop} {a : α} {Q : α → σ → Prop} (h : ∀ s, P s → Q a s) :
    Reaches P (Pure.pure a : EStateM ε σ α) Q := fun s hs => ⟨a, s, rfl, h s hs⟩

theorem Reaches.bind {P : σ → Prop} {x : EStateM ε σ α} {f : α → EStateM ε σ β}
    {Q : α → σ → Prop} {R : β → σ → Prop} (hx : Reaches P x Q)
    (hf : ∀ a, Reaches (Q a) (f a) R) : Reaches P (x >>= f) R := by
  intro s hs
  rcases hx s hs with ⟨a, s', hrun, ha⟩
  rcases hf a s' ha with ⟨b, s'', hrun', hb⟩
  exact ⟨b, s'', (run_bind_ok hrun).trans hrun', hb⟩

/-- The program goes on from the state that it has read. -/
theorem Reaches.get {P : σ → Prop} {f : σ → EStateM ε σ α} {Q : α → σ → Prop}
    (hf : ∀ s, P s → Reaches P (f s) Q) : Reaches P (get >>= f) Q :=
  fun s hs => hf s hs s hs

/-- A computation whose value is known: the program goes on with it. -/
theorem Reaches.lift_bind {P : σ → Prop} {reason : Panic → ε} {x : Checked α} {a : α}
    (hx : x = .ok a) {f : α → EStateM ε σ β} {Q : β → σ → Prop} (hf : Reaches P (f a) Q) :
    Reaches P (Hoare.lift reason x >>= f) Q := by
  subst hx
  exact hf

theorem Reaches.modify {P : σ → Prop} {f : σ → σ} {Q : PUnit → σ → Prop}
    (h : ∀ s, P s → Q ⟨⟩ (f s)) : Reaches P (modify f : EStateM ε σ PUnit) Q :=
  fun s hs => ⟨⟨⟩, f s, rfl, h s hs⟩

/-- A loop whose rounds all keep the condition. -/
theorem Reaches.forM {P : σ → Prop} {f : α → EStateM ε σ PUnit} {xs : List α}
    (hf : ∀ a ∈ xs, Reaches P (f a) fun _ => P) : Reaches P (xs.forM f) fun _ => P := by
  induction xs with
  | nil => exact Reaches.pure fun _ hs => hs
  | cons a xs ih =>
    refine (hf a List.mem_cons_self).bind fun _ => ih fun b hb => ?_
    exact hf b (List.mem_cons_of_mem _ hb)

/-- From a state with `P` the program returns with `Q`, or stops with `E`. -/
def Triple (P : σ → Prop) (x : EStateM ε σ α) (Q : α → σ → Prop) (E : ε → σ → Prop) : Prop :=
  ∀ s, P s → match x.run s with
    | .ok a s' => Q a s'
    | .error e s' => E e s'

section

variable {P P' : σ → Prop} {Q Q' : α → σ → Prop} {R : β → σ → Prop} {E : ε → σ → Prop}

theorem Triple.pure {a : α} (h : ∀ s, P s → Q a s) :
    Triple P (Pure.pure a : EStateM ε σ α) Q E := fun s hs => h s hs

theorem Triple.throw {e : ε} (h : ∀ s, P s → E e s) :
    Triple P (throw e : EStateM ε σ α) Q E := fun s hs => h s hs

/-- The rule of sequence, with what holds in between. -/
theorem Triple.bind {x : EStateM ε σ α} {f : α → EStateM ε σ β} (hx : Triple P x Q E)
    (hf : ∀ a, Triple (Q a) (f a) R E) : Triple P (x >>= f) R E := by
  intro s hs
  have hstep := hx s hs
  cases hrun : x.run s with
  | ok a s' =>
    rw [hrun] at hstep
    rw [run_bind_ok hrun]
    exact hf a s' hstep
  | error e s' =>
    rw [hrun] at hstep
    rw [run_bind_error hrun]
    exact hstep

/-- The program goes on from the state that it has read. -/
theorem Triple.get {f : σ → EStateM ε σ α} (hf : ∀ s, P s → Triple (· = s) (f s) Q E) :
    Triple P (get >>= f) Q E := fun s hs => hf s hs s rfl

theorem Triple.modify {f : σ → σ} {Q : PUnit → σ → Prop} (h : ∀ s, P s → Q ⟨⟩ (f s)) :
    Triple P (modify f : EStateM ε σ PUnit) Q E := fun s hs => h s hs

theorem Triple.modifyGet {f : σ → α × σ} (h : ∀ s, P s → Q (f s).1 (f s).2) :
    Triple P (modifyGet f : EStateM ε σ α) Q E := fun s hs => h s hs

/-- The rule of consequence. -/
theorem Triple.mono {x : EStateM ε σ α} (h : Triple P x Q E) (hP : ∀ s, P' s → P s)
    (hQ : ∀ a s, Q a s → Q' a s) : Triple P' x Q' E := by
  intro s hs
  have hstep := h s (hP s hs)
  revert hstep
  cases x.run s with
  | ok a s' => exact hQ a s'
  | error e s' => exact id

theorem Triple.mono_error {E' : ε → σ → Prop} {x : EStateM ε σ α} (h : Triple P x Q E)
    (hE : ∀ e s, E e s → E' e s) : Triple P x Q E' := by
  intro s hs
  have hstep := h s hs
  revert hstep
  cases x.run s with
  | ok a s' => exact id
  | error e s' => exact hE e s'

theorem Triple.of_ok {x : EStateM ε σ α} (h : Triple P x Q E) {s s' : σ} (hs : P s) {a : α}
    (hrun : x.run s = .ok a s') : Q a s' := by
  have hstep := h s hs
  rwa [hrun] at hstep

theorem Triple.of_error {x : EStateM ε σ α} (h : Triple P x Q E) {s s' : σ} (hs : P s) {e : ε}
    (hrun : x.run s = .error e s') : E e s' := by
  have hstep := h s hs
  rwa [hrun] at hstep

end

end Hoare
