import JingOS.Task.Invariant
import Mathlib.Data.Set.Card

/-!
# The table against its history

The trace of a run (every call with its reply) says who should be live, of which kind,
at which priority and how often it has been run. `Ledger tr t` is the simulation relation
between that history and the slot array; `ledger_step` carries it through one call and
`ledger_run` through a whole run, so that the table never loses or invents an update, also
when slots are reused and `step` writes back a copy of the task it ran.
-/

namespace JingOS.Task

/-- A call with its reply. -/
@[reducible] def Event : Type := Op × Reply

/-! ## What an event says -/

/-- A successful `spawn`: the id and the kind. -/
def spawnedBy : Event → Option (UInt64 × TaskKind)
  | (.spawn kind, .id (.ok id)) => some (id, kind)
  | _ => none

/-- A successful `remove`. -/
def removedBy : Event → Option UInt64
  | (.remove id _, .task (.ok _)) => some id
  | _ => none

/-- A successful `set_priority` on the id. -/
def prioritySetBy (id : UInt64) : Event → Option UInt8
  | (.setPriority target priority _, .task (.ok _)) => if target = id then some priority else none
  | _ => none

/-- The report of a `step`. -/
def reportedBy : Event → Option TaskStepReport
  | (.step _, .report report) => report
  | _ => none

/-- The event is a successful `spawn`, `remove` or `set_priority` of the id, or reports it. -/
def Concerns (e : Event) (id : UInt64) : Prop :=
  (∃ kind, spawnedBy e = some (id, kind)) ∨ removedBy e = some id ∨
    (∃ priority, prioritySetBy id e = some priority) ∨ ∃ report, reportedBy e = some report ∧ report.id = id

/-! ## What a history says -/

/-- The bootstrap task or a task spawned, and not removed. -/
def Live (tr : List Event) (id : UInt64) : Prop :=
  (id = 1 ∨ ∃ kind, (id, kind) ∈ tr.filterMap spawnedBy) ∧ id ∉ tr.filterMap removedBy

/-- The kind the task was spawned with. -/
def OfKind (tr : List Event) (id : UInt64) (kind : TaskKind) : Prop :=
  (id = 1 ∧ kind = .kernelMonitor) ∨ (id, kind) ∈ tr.filterMap spawnedBy

/-- The last priority set on the id. -/
def priorityOf (tr : List Event) (id : UInt64) : UInt8 :=
  (tr.filterMap (prioritySetBy id)).getLast?.getD defaultTaskPriority

/-- The number of reports that carry the id. -/
def runsOf (tr : List Event) (id : UInt64) : ℕ :=
  (tr.filterMap reportedBy).countP (·.id == id)

/-- The task is what the history says of its id. -/
structure Accounts (tr : List Event) (task : TaskInfo) : Prop where
  live : Live tr task.id
  kind : ∀ {kind}, OfKind tr task.id kind ↔ kind = task.kind
  priority : task.priority = priorityOf tr task.id
  runCount : task.runCount.toNat = min (runsOf tr task.id) (2 ^ 64 - 1)

/-- The simulation relation between a history and a table. -/
structure Ledger (tr : List Event) (t : TaskTable) : Prop where
  inv : Inv t
  bootstrap : BootstrapInPlace t
  /-- Every task in the table is accounted for. -/
  accounts : ∀ {i task}, t.slots i = some task → Accounts tr task
  /-- Every live task is in the table. -/
  complete : ∀ {id}, Live tr id → ∃ i task, t.slots i = some task ∧ task.id = id
  /-- The ids from the counter on do not occur in the history yet. -/
  concernsLt : ∀ {e id}, e ∈ tr → Concerns e id → id < t.nextId

/-! ## One more event -/

section

variable {β : Type} {read : Event → Option β} {tr : List Event} {e : Event}

/-- An event that a reading of the history does not see. -/
theorem filterMap_unseen (h : read e = none) : (tr ++ [e]).filterMap read = tr.filterMap read := by
  rw [List.filterMap_append, List.filterMap_cons_none h, List.filterMap_nil, List.append_nil]

theorem filterMap_seen {b : β} (h : read e = some b) :
    (tr ++ [e]).filterMap read = tr.filterMap read ++ [b] := by
  rw [List.filterMap_append, List.filterMap_cons_some h, List.filterMap_nil]

theorem mem_filterMap_append {b : β} (h : read e ≠ some b) :
    b ∈ (tr ++ [e]).filterMap read ↔ b ∈ tr.filterMap read := by
  cases hread : read e with
  | none => rw [filterMap_unseen hread]
  | some b' =>
    have hne : b ≠ b' := fun heq => h (by rw [hread, heq])
    rw [filterMap_seen hread, List.mem_append, List.mem_singleton, or_iff_left hne]

end

/-- An event that does not concern the id changes nothing that is said about it. -/
theorem live_append {tr : List Event} {e : Event} {id : UInt64} (h : ¬ Concerns e id) :
    Live (tr ++ [e]) id ↔ Live tr id := by
  have hspawn : ∀ kind, spawnedBy e ≠ some (id, kind) := fun kind hk => h (Or.inl ⟨kind, hk⟩)
  have hremove : removedBy e ≠ some id := fun hr => h (Or.inr (Or.inl hr))
  unfold Live
  rw [mem_filterMap_append hremove]
  simp only [mem_filterMap_append (hspawn _)]

theorem live_append_kept {tr : List Event} {e : Event} {id : UInt64} (hspawn : spawnedBy e = none)
    (hremove : removedBy e = none) : Live (tr ++ [e]) id ↔ Live tr id := by
  unfold Live
  rw [filterMap_unseen hspawn, filterMap_unseen hremove]

theorem ofKind_append_kept {tr : List Event} {e : Event} {id : UInt64} {kind : TaskKind}
    (hspawn : spawnedBy e = none) : OfKind (tr ++ [e]) id kind ↔ OfKind tr id kind := by
  unfold OfKind
  rw [filterMap_unseen hspawn]

theorem ofKind_append {tr : List Event} {e : Event} {id : UInt64} {kind : TaskKind}
    (h : ¬ Concerns e id) : OfKind (tr ++ [e]) id kind ↔ OfKind tr id kind := by
  have hspawn : spawnedBy e ≠ some (id, kind) := fun hk => h (Or.inl ⟨kind, hk⟩)
  unfold OfKind
  rw [mem_filterMap_append hspawn]

/-- An event that is not about a task leaves its account as it was. -/
theorem accounts_append {tr : List Event} {e : Event} {task : TaskInfo}
    (h : ¬ Concerns e task.id) (hacc : Accounts tr task) : Accounts (tr ++ [e]) task := by
  have hprio : prioritySetBy task.id e = none := by
    rw [Option.eq_none_iff_forall_ne_some]
    exact fun p hp => h (Or.inr (Or.inr (Or.inl ⟨p, hp⟩)))
  have hreport : ∀ report, reportedBy e = some report → report.id ≠ task.id :=
    fun report hr hid => h (Or.inr (Or.inr (Or.inr ⟨report, hr, hid⟩)))
  constructor
  · exact (live_append h).mpr hacc.live
  · exact (ofKind_append h).trans hacc.kind
  · rw [hacc.priority, priorityOf, priorityOf, filterMap_unseen hprio]
  · rw [hacc.runCount, runsOf, runsOf]
    cases hr : reportedBy e with
    | none => rw [filterMap_unseen hr]
    | some report =>
      rw [filterMap_seen hr, List.countP_append]
      simp [hreport report hr]

/-- What is said about an id that no event concerns. -/
theorem fresh_of_not_concerns {tr : List Event} {id : UInt64}
    (h : ∀ e ∈ tr, ¬ Concerns e id) :
    id ∉ tr.filterMap removedBy ∧ priorityOf tr id = defaultTaskPriority ∧ runsOf tr id = 0 := by
  refine ⟨?_, ?_, ?_⟩
  · rw [List.mem_filterMap]
    rintro ⟨e, he, hr⟩
    exact h e he (Or.inr (Or.inl hr))
  · have hnil : tr.filterMap (prioritySetBy id) = [] := by
      rw [List.filterMap_eq_nil_iff]
      intro e he
      rw [Option.eq_none_iff_forall_ne_some]
      exact fun p hp => h e he (Or.inr (Or.inr (Or.inl ⟨p, hp⟩)))
    simp [priorityOf, hnil]
  · rw [runsOf, List.countP_eq_zero]
    intro report hmem
    obtain ⟨e, he, hr⟩ := List.mem_filterMap.mp hmem
    simp only [beq_iff_eq]
    exact fun hid => h e he (Or.inr (Or.inr (Or.inr ⟨report, hr, hid⟩)))

/-! ## The pieces of a call -/

/-- The accounts of a task are about its id, kind, priority and run count only. -/
theorem Accounts.congr {tr : List Event} {task task' : TaskInfo} (h : Accounts tr task)
    (hid : task'.id = task.id) (hkind : task'.kind = task.kind)
    (hprio : task'.priority = task.priority) (hruns : task'.runCount = task.runCount) :
    Accounts tr task' where
  live := by rw [hid]; exact h.live
  kind := by intro kind; rw [hid, hkind]; exact h.kind
  priority := by rw [hid, hprio]; exact h.priority
  runCount := by rw [hid, hruns]; exact h.runCount

/-- Waking is not in the books. -/
theorem Ledger.woken {tr : List Event} {t : TaskTable} (h : Ledger tr t) (now : UInt64) :
    Ledger tr (t.woken now) where
  inv := h.inv.woken now
  bootstrap := h.bootstrap.woken now
  accounts := by
    intro i task hslot
    obtain ⟨old, hold, rfl⟩ := TaskTable.woken_slots_eq_some.mp hslot
    exact (h.accounts hold).congr (by simp) (by simp) (by simp) (by simp)
  complete := by
    intro id hlive
    obtain ⟨i, old, hold, hid⟩ := h.complete hlive
    exact ⟨i, _, TaskTable.woken_slots_eq_some.mpr ⟨old, hold, rfl⟩, by simpa using hid⟩
  concernsLt := h.concernsLt

/-- An event that concerns nobody. -/
theorem Ledger.quiet {tr : List Event} {t : TaskTable} (h : Ledger tr t) {e : Event}
    (he : ∀ id, ¬ Concerns e id) : Ledger (tr ++ [e]) t where
  inv := h.inv
  bootstrap := h.bootstrap
  accounts := fun hslot => accounts_append (he _) (h.accounts hslot)
  complete := fun hlive => h.complete ((live_append (he _)).mp hlive)
  concernsLt := by
    intro e' id hmem hc
    rcases List.mem_append.mp hmem with hmem | hmem
    · exact h.concernsLt hmem hc
    · rw [List.mem_singleton.mp hmem] at hc
      exact absurd hc (he id)

/-- The ids in a history grown by an event about the task of a slot. -/
theorem Ledger.concernsLt_append {tr : List Event} {t : TaskTable} (h : Ledger tr t)
    {i : Fin maxTasks} {task : TaskInfo} (hslot : t.slots i = some task) {e : Event}
    (honly : ∀ id, Concerns e id → id = task.id) {e' : Event} {id : UInt64}
    (hmem : e' ∈ tr ++ [e]) (hc : Concerns e' id) : id < t.nextId := by
  rcases List.mem_append.mp hmem with hmem | hmem
  · exact h.concernsLt hmem hc
  · rw [List.mem_singleton.mp hmem] at hc
    rw [honly id hc]
    exact h.inv.idLt hslot

/-- A task that the event does not concern is found where it was. -/
theorem Ledger.complete_other {tr : List Event} {t : TaskTable} (h : Ledger tr t) {i : Fin maxTasks}
    {id : UInt64} (hslot : ∀ task, t.slots i = some task → task.id ≠ id) {e : Event}
    (hnot : ¬ Concerns e id) (hlive : Live (tr ++ [e]) id) (content : Option TaskInfo) :
    ∃ j other, (t.put i content).slots j = some other ∧ other.id = id := by
  obtain ⟨j, other, hj, hother⟩ := h.complete ((live_append hnot).mp hlive)
  have hji : j ≠ i := by
    rintro rfl
    exact hslot other hj hother
  exact ⟨j, other, (TaskTable.put_slots_ne t _ hji).trans hj, hother⟩

/-- A slot is rewritten under the same id, and the event is about that task only. -/
theorem Ledger.rewrite {tr : List Event} {t : TaskTable} (h : Ledger tr t) {i : Fin maxTasks}
    {task task' : TaskInfo} (hslot : t.slots i = some task) (hid : task'.id = task.id)
    (hwf : task'.WellFormed) {e : Event} (honly : ∀ id, Concerns e id → id = task.id)
    (hacc : Accounts (tr ++ [e]) task') : Ledger (tr ++ [e]) (t.put i (some task')) where
  inv := h.inv.replace hslot hid hwf
  bootstrap := h.bootstrap.put hslot hid
  accounts := by
    intro j other hj
    rcases TaskTable.put_slots_cases hj with ⟨-, heq⟩ | ⟨hji, hold⟩
    · obtain rfl := Option.some.inj heq
      exact hacc
    · -- another slot holds another id, and the event does not concern it
      refine accounts_append (fun hc => hji ?_) (h.accounts hold)
      exact h.inv.distinct hold hslot (honly _ hc)
  complete := by
    intro id hlive
    by_cases hsame : id = task.id
    · exact ⟨i, task', by simp, hid.trans hsame.symm⟩
    · refine h.complete_other (fun other hother => ?_) (fun hc => hsame (honly id hc)) hlive _
      rw [hslot] at hother
      obtain rfl := Option.some.inj hother
      exact Ne.symm hsame
  concernsLt := h.concernsLt_append hslot honly

/-- A slot is cleared by a successful `remove` of its task. -/
theorem Ledger.clear {tr : List Event} {t : TaskTable} (h : Ledger tr t) {i : Fin maxTasks}
    {task : TaskInfo} (hslot : t.slots i = some task) (hone : task.id ≠ 1) {e : Event}
    (honly : ∀ id, Concerns e id → id = task.id) (hremove : removedBy e = some task.id) :
    Ledger (tr ++ [e]) (t.put i none) where
  inv := h.inv.clear hslot hone
  bootstrap := by
    obtain ⟨first, hfirst, hid⟩ := h.bootstrap
    refine ⟨first, ?_, hid⟩
    rwa [TaskTable.put_slots_ne _ _ (Ne.symm (h.bootstrap.ne_zero hslot hone))]
  -- what is in the other slots has another id
  accounts := by
    intro j other hj
    rcases TaskTable.put_slots_cases hj with ⟨-, heq⟩ | ⟨hji, hold⟩
    · simp at heq
    · refine accounts_append (fun hc => hji ?_) (h.accounts hold)
      exact h.inv.distinct hold hslot (honly _ hc)
  complete := by
    intro id hlive
    have hsame : id ≠ task.id := by
      rintro rfl
      exact hlive.2 (by simp [List.filterMap_append, hremove])
    refine h.complete_other (fun other hother => ?_) (fun hc => hsame (honly id hc)) hlive _
    rw [hslot] at hother
    obtain rfl := Option.some.inj hother
    exact Ne.symm hsame
  concernsLt := h.concernsLt_append hslot honly

/-- A spawn removes nobody, sets no priority and reports nobody. -/
theorem spawnedBy_only {e : Event} {id : UInt64} {kind : TaskKind}
    (h : spawnedBy e = some (id, kind)) :
    removedBy e = none ∧ (∀ other, prioritySetBy other e = none) ∧ reportedBy e = none := by
  obtain ⟨op, reply⟩ := e
  cases op <;> simp_all [spawnedBy, removedBy, prioritySetBy, reportedBy]

/-- The accounts of a task whose id the history did not know. -/
theorem accounts_fresh {tr : List Event} {id : UInt64} {kind : TaskKind} (hone : id ≠ 1)
    (hunknown : ∀ e ∈ tr, ¬ Concerns e id) {e : Event} (hspawn : spawnedBy e = some (id, kind)) :
    Accounts (tr ++ [e]) (TaskTable.freshTask id kind) := by
  obtain ⟨hkept, hprio, hruns⟩ := fresh_of_not_concerns hunknown
  obtain ⟨hremove, hset, hreport⟩ := spawnedBy_only hspawn
  have hnospawn : ∀ kind', (id, kind') ∉ tr.filterMap spawnedBy := by
    intro kind' hmem
    obtain ⟨e', he', hs⟩ := List.mem_filterMap.mp hmem
    exact hunknown e' he' (Or.inl ⟨kind', hs⟩)
  unfold TaskTable.freshTask
  constructor
  · constructor
    · exact Or.inr ⟨kind, by rw [filterMap_seen hspawn]; exact List.mem_concat_self⟩
    · rw [filterMap_unseen hremove]
      exact hkept
  · intro kind'
    unfold OfKind
    rw [filterMap_seen hspawn]
    simp [hone, hnospawn]
  · rw [priorityOf, filterMap_unseen (hset _)]
    exact hprio.symm
  · rw [runsOf, filterMap_unseen hreport]
    simp only [runsOf] at hruns
    rw [hruns]
    rfl

/-- A successful `spawn`: the new id is unknown to the history. -/
theorem Ledger.insert {tr : List Event} {t : TaskTable} (h : Ledger tr t)
    (hlimit : BelowLimit t) {i : Fin maxTasks} {kind : TaskKind} (hfree : t.slots i = none)
    (hfirst : ∀ j < i, t.slots j ≠ none) {e : Event}
    (honly : ∀ id, Concerns e id → id = t.nextId) (hspawn : spawnedBy e = some (t.nextId, kind)) :
    Ledger (tr ++ [e]) { t.put i (some (TaskTable.freshTask t.nextId kind)) with
      nextId := U64.saturatingAdd t.nextId 1 } := by
  have hinv := h.inv.insert hlimit kind hfree hfirst
  have hlt : t.nextId < U64.saturatingAdd t.nextId 1 := by
    rw [UInt64.lt_iff_toNat_lt, U64.toNat_succ_of_lt hlimit]
    omega
  have hunknown : ∀ e' ∈ tr, ¬ Concerns e' t.nextId :=
    fun e' hmem hc => UInt64.lt_irrefl _ (h.concernsLt hmem hc)
  obtain ⟨first, hzero, hone⟩ := h.bootstrap
  have hi : (0 : Fin maxTasks) ≠ i := by
    rintro rfl
    simp [hfree] at hzero
  have hother : t.nextId ≠ 1 := by
    intro heq
    have hlt' := h.inv.idLt hzero
    rw [hone, heq] at hlt'
    exact UInt64.lt_irrefl _ hlt'
  constructor
  · exact hinv
  · exact ⟨first, (TaskTable.put_slots_ne t _ hi).trans hzero, hone⟩
  · intro j other hj
    rcases TaskTable.put_slots_cases hj with ⟨-, heq⟩ | ⟨-, hold⟩
    · obtain rfl := Option.some.inj heq
      exact accounts_fresh hother hunknown hspawn
    · refine accounts_append (fun hc => ?_) (h.accounts hold)
      have hlt' := h.inv.idLt hold
      rw [honly _ hc] at hlt'
      exact UInt64.lt_irrefl _ hlt'
  · intro id hlive
    by_cases hsame : id = t.nextId
    · exact ⟨i, _, TaskTable.put_slots_self t i _, hsame.symm⟩
    · refine h.complete_other (fun other hother => ?_) (fun hc => hsame (honly id hc)) hlive _
      rw [hfree] at hother
      cases hother
  · intro e' id hmem hc
    rcases List.mem_append.mp hmem with hmem | hmem
    · exact UInt64.lt_trans (h.concernsLt hmem hc) hlt
    · rw [List.mem_singleton.mp hmem] at hc
      rw [honly id hc]
      exact hlt

/-! ## One call -/

/-- The ledger does not depend on the cursor. -/
theorem Ledger.cursor {tr : List Event} {t : TaskTable} (h : Ledger tr t) {k : ℕ}
    (hk : k < maxTasks) : Ledger tr { t with nextRrIndex := k } where
  inv := { h.inv with cursorLt := hk }
  bootstrap := h.bootstrap
  accounts := h.accounts
  complete := h.complete
  concernsLt := h.concernsLt

/-- `sleep` and `wake` write the state and the wake-up tick of a task, and nothing that
the history speaks about. -/
theorem Ledger.restate {tr : List Event} {t : TaskTable} (h : Ledger tr t) {id : UInt64}
    {i : Fin maxTasks} {task task' : TaskInfo} (hfind : t.findTask id = some (i, task))
    (hsame : { task with state := task'.state, sleepUntilTick := task'.sleepUntilTick } = task')
    (hwf : task'.WellFormed) {e : Event} (he : ∀ id, ¬ Concerns e id) :
    Ledger (tr ++ [e]) (t.put i (some task')) := by
  obtain ⟨hslot, -⟩ := TaskTable.findTask_some hfind
  have hid : task'.id = task.id := by rw [← hsame]
  refine h.rewrite hslot hid hwf (fun other hc => absurd hc (he other)) ?_
  refine (accounts_append (he _) (h.accounts hslot)).congr hid ?_ ?_ ?_ <;> rw [← hsame]

/-- The task just run, with the report of that run. -/
theorem accounts_report {tr : List Event} {now : UInt64} {task : TaskInfo}
    (h : Accounts tr task) :
    Accounts (tr ++ [(.step now, .report (some (reportOf task)))]) (ranOnce task) where
  live := (live_append_kept rfl rfl).mpr h.live
  kind := (ofKind_append_kept rfl).trans h.kind
  priority := by
    rw [priorityOf, filterMap_unseen rfl]
    exact h.priority
  runCount := by
    have hruns := h.runCount
    have hone : runsOf (tr ++ [(Op.step now, Reply.report (some (reportOf task)))]) task.id =
        runsOf tr task.id + 1 := by
      have hreport : reportedBy (Op.step now, Reply.report (some (reportOf task))) =
          some (reportOf task) := rfl
      rw [runsOf, filterMap_seen hreport, List.countP_append]
      simp [reportOf, runsOf]
    change (U64.saturatingAdd task.runCount 1).toNat =
      min (runsOf (tr ++ [(Op.step now, Reply.report (some (reportOf task)))]) task.id) _
    rw [U64.toNat_saturatingAdd, hone, hruns, UInt64.toNat_one]
    omega

/-- The task whose priority was just set. -/
theorem accounts_setPriority {tr : List Event} {priority : UInt8} {now : UInt64}
    {task task' : TaskInfo} (h : Accounts tr task) :
    Accounts (tr ++ [(.setPriority task.id priority now, .task (.ok task'))])
      { task with priority } where
  live := (live_append_kept rfl rfl).mpr h.live
  kind := (ofKind_append_kept rfl).trans h.kind
  priority := by
    have hset : prioritySetBy task.id (Op.setPriority task.id priority now, Reply.task (.ok task')) =
        some priority := if_pos rfl
    rw [priorityOf, filterMap_seen hset, List.getLast?_concat]
    rfl
  runCount := by
    rw [runsOf, filterMap_unseen rfl]
    exact h.runCount

/-- The simulation step: a call, read as one more event of the history, keeps the ledger. -/
theorem ledger_step {tr : List Event} {t t' : TaskTable} {op : Op} {r : Reply}
    (h : Ledger tr t) (hcall : Call t op r t') (hlimit : BelowLimit t) :
    Ledger (tr ++ [(op, r)]) t' := by
  cases hcall with
  | initKeep | spawnFull | sleepZero =>
    exact h.quiet (by simp [Concerns, spawnedBy, removedBy, prioritySetBy, reportedBy])
  | stepIdle | sleepRefused | wakeRefused | wakeAwake | removeBootstrap | removeRefused
  | setPriorityRefused =>
    exact (h.woken _).quiet (by simp [Concerns, spawnedBy, removedBy, prioritySetBy, reportedBy])
  | initWrite hno =>
    -- the bootstrap task never leaves the table
    obtain ⟨first, hfirst, hone⟩ := h.bootstrap
    exact absurd hone (hno 0 first hfirst)
  | spawnAt hfree hfirst =>
    refine h.insert hlimit hfree hfirst ?_ rfl
    intro id hc
    simpa [Concerns, spawnedBy, removedBy, prioritySetBy, reportedBy, eq_comm] using hc
  | @stepRun now i task hsel hslot =>
    have hid : (ranOnce task).id = task.id := rfl
    refine ((h.woken _).rewrite hslot hid
      ⟨by simp [ranOnce], by simp [ranOnce]⟩ ?_
      (accounts_report ((h.woken _).accounts hslot))).cursor (Nat.mod_lt _ (by decide))
    intro id hc
    simpa [Concerns, spawnedBy, removedBy, prioritySetBy, reportedBy, reportOf, eq_comm] using hc
  | sleepOk _ hfind _ | wakeOk hfind _ =>
    exact (h.woken _).restate hfind rfl ⟨by simp, by simp⟩
      (by simp [Concerns, spawnedBy, removedBy, prioritySetBy, reportedBy])
  | removeOk hid hfind _ =>
    obtain ⟨hslot, rfl⟩ := TaskTable.findTask_some hfind
    refine (h.woken _).clear hslot hid ?_ rfl
    intro id hc
    simpa [Concerns, spawnedBy, removedBy, prioritySetBy, reportedBy, eq_comm] using hc
  | @setPriorityOk _ priority now i task hfind _ =>
    obtain ⟨hslot, rfl⟩ := TaskTable.findTask_some hfind
    have hold : task.WellFormed := (h.woken _).inv.wellFormed hslot
    have hid : ({ task with priority } : TaskInfo).id = task.id := rfl
    refine (h.woken _).rewrite hslot hid hold ?_
      (accounts_setPriority ((h.woken _).accounts hslot))
    intro id hc
    simpa [Concerns, spawnedBy, removedBy, prioritySetBy, reportedBy, eq_comm] using hc

/-- The boot table against the empty history. -/
theorem ledger_bootstrapped : Ledger [] bootstrapped := by
  have hslots : ∀ {i task}, bootstrapped.slots i = some task →
      i = 0 ∧ task = TaskTable.freshTask 1 .kernelMonitor := by decide
  constructor
  · exact step_inv (init_call TaskTable.new) init_inv (by decide)
  · exact ⟨_, rfl, rfl⟩
  · intro i task hslot
    obtain ⟨-, rfl⟩ := hslots hslot
    exact ⟨⟨Or.inl rfl, by simp⟩, by simp [OfKind, TaskTable.freshTask], rfl, rfl⟩
  · rintro id ⟨rfl | ⟨kind, hmem⟩, -⟩
    · exact ⟨0, _, rfl, rfl⟩
    · simp at hmem
  · intro e id hmem
    simp at hmem

/-- **Run.** The ledger relates the trace of a run to the table it leads to. -/
theorem ledger_run (ops : List Op) (hend : BelowLimit (scheduler.run bootstrapped ops)) :
    Ledger (scheduler.trace bootstrapped ops) (scheduler.run bootstrapped ops) := by
  refine scheduler.run_trace_invariant (fun tr t => BelowLimit t → Ledger tr t) ?_
    (fun _ => ledger_bootstrapped) ops hend
  intro tr t op h hlimit
  have hbefore : BelowLimit t := belowLimit_of_exec t op hlimit
  exact ledger_step (h hbefore) (exec_call t op) hbefore

/-! ## Counting -/

/-- How many tasks the history says are live. -/
noncomputable def liveCount (tr : List Event) : ℕ := {id | Live tr id}.ncard

theorem nodup_ids {t : TaskTable} (h : Inv t) : (t.tasks.map (·.id)).Nodup := by
  rw [List.Nodup, List.pairwise_map, TaskTable.tasks, List.pairwise_filterMap]
  refine (List.nodup_finRange maxTasks).imp ?_
  intro i j hij a ha b hb hid
  exact hij (h.distinct ha hb hid)

/-- As many tasks as the history says. -/
theorem length_tasks_eq {tr : List Event} {t : TaskTable} (h : Ledger tr t) :
    t.tasks.length = liveCount tr := by
  have hset : {id | Live tr id} = ((t.tasks.map (·.id)).toFinset : Set UInt64) := by
    ext id
    simp only [Set.mem_ofPred_eq, List.coe_toFinset, List.mem_map, TaskTable.mem_tasks]
    constructor
    · intro hlive
      obtain ⟨i, task, hslot, hid⟩ := h.complete hlive
      exact ⟨task, ⟨i, hslot⟩, hid⟩
    · rintro ⟨task, ⟨i, hslot⟩, rfl⟩
      exact (h.accounts hslot).live
  rw [liveCount, hset, Set.ncard_coe_finset, List.toFinset_card_of_nodup (nodup_ids h.inv),
    List.length_map]

/-- The table is full exactly when every slot is taken. -/
theorem length_tasks_eq_max {t : TaskTable} :
    t.tasks.length = maxTasks ↔ ∀ i, t.slots i ≠ none := by
  have hcount : t.tasks.length = (List.finRange maxTasks).countP fun i => (t.slots i).isSome := by
    rw [TaskTable.tasks, List.length_filterMap_eq_countP]
  rw [hcount]
  conv_lhs => rhs; rw [← List.length_finRange (n := maxTasks)]
  rw [List.countP_eq_length]
  simp [Option.isSome_iff_ne_none]

/-- Between calls every task is ready or asleep. -/
theorem ready_add_sleeping {t : TaskTable} (h : Inv t) :
    t.snapshot.ready + t.snapshot.sleeping = t.tasks.length := by
  rw [List.length_eq_countP_add_countP (fun task : TaskInfo => task.state == .ready)]
  refine congrArg (_ + ·) (List.countP_congr ?_)
  intro task hmem
  obtain ⟨i, hslot⟩ := TaskTable.mem_tasks.mp hmem
  have hrun := (h.wellFormed hslot).2
  cases hstate : task.state <;> simp_all

/-! ## The whole account -/

/-- A report carries the number of reports of its task, itself included. -/
theorem report_runCount {ops : List Op} (hend : BelowLimit (scheduler.run bootstrapped ops))
    {before after : List Event} {op : Op} {report : TaskStepReport}
    (h : scheduler.trace bootstrapped ops = before ++ (op, .report (some report)) :: after) :
    report.runCount.toNat =
      min (runsOf (before ++ [(op, .report (some report))]) report.id) (2 ^ 64 - 1) := by
  obtain ⟨ops₁, ops₂, rfl, rfl, hreply⟩ := scheduler.trace_split h
  rw [scheduler.run_append] at hend
  have hledger := ledger_run ops₁ (belowLimit_of_run _ hend)
  have hcall := exec_call (scheduler.run bootstrapped ops₁) op
  rw [scheduler_next] at hreply
  rw [hreply] at hcall
  generalize (exec (scheduler.run bootstrapped ops₁) op).2 = t' at hcall
  cases hcall with
  | stepRun hsel hslot => exact (accounts_report ((hledger.woken _).accounts hslot)).runCount

/-- `spawn` fails exactly when every slot is taken. -/
theorem spawn_error_iff {t : TaskTable} {kind : TaskKind} :
    (∃ message, (t.spawn kind).1 = .error message) ↔ t.tasks.length = maxTasks := by
  rw [length_tasks_eq_max, ← TaskTable.freeSlot_none]
  unfold TaskTable.spawn
  cases t.freeSlot <;> simp

/-- What `list` writes: every live task once, at the front of the array. -/
theorem list_entries {tr : List Event} {t : TaskTable} (h : Ledger tr t)
    (output : Fin maxTasks → Option TaskInfo) :
    (∀ i, i.val < t.tasks.length → ∃ task, (t.list output).2 i = some task ∧ Accounts tr task) ∧
    (∀ id, Live tr id → ∃! i, i.val < t.tasks.length ∧
      ∃ task, (t.list output).2 i = some task ∧ task.id = id) ∧
    (∀ i, t.tasks.length ≤ i.val → (t.list output).2 i = output i) := by
  have hentry : ∀ (i : Fin maxTasks) (hi : i.val < t.tasks.length),
      (t.list output).2 i = some t.tasks[i.val] := by
    intro i hi
    simp [TaskTable.list, List.getElem?_eq_getElem hi]
  have hbound : t.tasks.length ≤ maxTasks := by
    simpa [TaskTable.tasks] using List.length_filterMap_le t.slots (List.finRange maxTasks)
  refine ⟨?_, ?_, ?_⟩
  · intro i hi
    obtain ⟨j, hslot⟩ := TaskTable.mem_tasks.mp (List.getElem_mem hi)
    exact ⟨_, hentry i hi, h.accounts hslot⟩
  · intro id hlive
    obtain ⟨j, task, hslot, hid⟩ := h.complete hlive
    obtain ⟨k, hk, hget⟩ := List.mem_iff_getElem.mp (TaskTable.mem_tasks.mpr ⟨j, hslot⟩)
    refine ⟨⟨k, by omega⟩, ⟨hk, task, by rw [hentry _ hk, hget], hid⟩, ?_⟩
    rintro i ⟨hi, other, hother, hsame⟩
    rw [hentry i hi, Option.some.injEq] at hother
    -- two entries with one id would be one id twice in the table
    have hnodup := nodup_ids h.inv
    have hi' : i.val < (t.tasks.map (·.id)).length := by simpa using hi
    have hk' : k < (t.tasks.map (·.id)).length := by simpa using hk
    have hids : (t.tasks.map (·.id))[i.val] = (t.tasks.map (·.id))[k] := by
      simp [hother, hget, hid, hsame]
    exact Fin.ext ((hnodup.getElem_inj_iff).mp hids)
  · intro i hi
    simp [TaskTable.list, List.getElem?_eq_none hi]

/-- **Bookkeeping.** After every run from the boot table, the table is what the run's
history says: who is live, of which kind, at which priority, run how often; and `spawn`,
`snapshot` and `list` agree with the set of live tasks. -/
theorem bookkeeping (ops : List Op)
    (hlimit : (scheduler.run bootstrapped ops).nextId < U64.maxVal) :
    let t := scheduler.run bootstrapped ops
    let tr := scheduler.trace bootstrapped ops
    (∀ id, (∃ i task, t.slots i = some task ∧ task.id = id) ↔ Live tr id) ∧
    (∀ i task, t.slots i = some task →
      (∀ kind, OfKind tr task.id kind ↔ kind = task.kind) ∧
      task.priority = priorityOf tr task.id ∧
      task.runCount.toNat = min (runsOf tr task.id) (2 ^ 64 - 1)) ∧
    (∀ before after op report, tr = before ++ (op, .report (some report)) :: after →
      report.runCount.toNat =
        min (runsOf (before ++ [(op, .report (some report))]) report.id) (2 ^ 64 - 1)) ∧
    (∀ kind, (∃ message, (t.spawn kind).1 = .error message) ↔ liveCount tr = maxTasks) ∧
    t.snapshot.total = liveCount tr ∧
    t.snapshot.ready + t.snapshot.sleeping = liveCount tr ∧
    ∀ output, (t.list output).1 = liveCount tr ∧
      (∀ i, i.val < liveCount tr → ∃ task, (t.list output).2 i = some task ∧ Accounts tr task) ∧
      (∀ id, Live tr id → ∃! i, i.val < liveCount tr ∧
        ∃ task, (t.list output).2 i = some task ∧ task.id = id) ∧
      (∀ i, liveCount tr ≤ i.val → (t.list output).2 i = output i) := by
  intro t tr
  have hledger : Ledger tr t := ledger_run ops hlimit
  have hcount : t.tasks.length = liveCount tr := length_tasks_eq hledger
  refine ⟨?_, ?_, ?_, ?_, hcount, ?_, ?_⟩
  · intro id
    constructor
    · rintro ⟨i, task, hslot, rfl⟩
      exact (hledger.accounts hslot).live
    · exact hledger.complete
  · intro i task hslot
    have hacc := hledger.accounts hslot
    exact ⟨fun kind => hacc.kind, hacc.priority, hacc.runCount⟩
  · intro before after op report htr
    exact report_runCount hlimit htr
  · intro kind
    rw [← hcount]
    exact spawn_error_iff
  · rw [← hcount]
    exact ready_add_sleeping hledger.inv
  · intro output
    rw [← hcount]
    exact ⟨rfl, list_entries hledger output⟩

/-- A run with a removed task, a reused slot, a changed priority and two reports. -/
theorem bookkeeping_reused_slot :
    let ops : List Op := [.spawn .userDemo, .setPriority 2 20 1, .step 2, .step 3, .remove 2 4,
      .spawn .fastSyscallError, .step 5]
    (scheduler.run bootstrapped ops).nextId < U64.maxVal ∧
      Live (scheduler.trace bootstrapped ops) 3 ∧ ¬ Live (scheduler.trace bootstrapped ops) 2 := by
  intro ops
  have hlimit : (scheduler.run bootstrapped ops).nextId < U64.maxVal := by decide
  obtain ⟨hlive, -⟩ := bookkeeping ops hlimit
  refine ⟨hlimit, (hlive 3).mp (by decide), fun h => ?_⟩
  have hgone : ¬ ∃ i task, (scheduler.run bootstrapped ops).slots i = some task ∧ task.id = 2 := by
    decide
  exact hgone ((hlive 2).mpr h)

end JingOS.Task
