import JingOS.Task.Eager

/-!
# Operations on different tasks commute

`sleep`, `wake`, `remove` and `set_priority` wake the due sleepers and then go to the slot of one
task. Two of them, for different tasks and at one tick, can be exchanged: the search for one id
does not see the slot of the other, and nothing that is written is due at the tick of the call.

* `Settled` — a body that keeps the id of its task and leaves it not due;
* `forTask_comm` — the shared loop, for two ids;
* `woken_forTask` — a second waking pass finds nothing to do;
* `operations_commute` — two requests in either order.
-/

namespace JingOS.Task

/-! ## Requests -/

/-- An operation on one task. -/
inductive TaskRequest where
  | sleep (ticks : UInt64)
  | wake
  | remove
  | setPriority (priority : UInt8)
deriving DecidableEq, Repr

/-- The call that makes the request for a task at a tick. -/
def TaskRequest.call (request : TaskRequest) (id now : UInt64) : Op :=
  match request with
  | .sleep ticks => .sleep id ticks now
  | .wake => .wake id now
  | .remove => .remove id now
  | .setPriority priority => .setPriority id priority now

/-- What the body of an operation writes is a task of the same id, or nothing; and a task that
was not due at the tick has not become due. -/
def Settled {α : Type} (now : UInt64) (body : TaskInfo → Except String (α × Option TaskInfo)) :
    Prop :=
  ∀ {task result task'}, body task = .ok (result, some task') → task'.id = task.id ∧
    (TaskTable.wakeTask now task = task → TaskTable.wakeTask now task' = task')

namespace TaskTable

/-! ## The shared loop -/

section Loop

variable {t : TaskTable} {a b now : UInt64} {α β : Type}
  {f : TaskInfo → Except String (α × Option TaskInfo)}
  {g : TaskInfo → Except String (β × Option TaskInfo)}

/-- Writes to different slots commute. -/
theorem put_comm {i j : Fin maxTasks} (h : i ≠ j) (slot slot' : Option TaskInfo) :
    (t.put i slot).put j slot' = (t.put j slot').put i slot := by
  simp only [put, mk.injEq, and_true]
  funext k
  by_cases hi : k = i
  · subst hi
    simp [h]
  · simp [hi]

/-- The loop leaves the table alone, or writes to the slot of the task that it has found; and it
does the same on every table where the search ends in the same way. -/
theorem forTask_writes (t : TaskTable) (a : UInt64)
    (f : TaskInfo → Except String (α × Option TaskInfo)) :
    (∀ t' : TaskTable, t'.findTask a = t.findTask a → (t'.forTask a f).2 = t') ∨
      ∃ i task result slot, t.findTask a = some (i, task) ∧ f task = .ok (result, slot) ∧
        ∀ t' : TaskTable, t'.findTask a = t.findTask a → (t'.forTask a f).2 = t'.put i slot := by
  unfold forTask
  cases t.findTask a with
  | none =>
    left
    intro t' hfind
    rw [hfind]
  | some found =>
    rcases found with ⟨i, task⟩
    by_cases hrun : task.state = .running
    · left
      intro t' hfind
      simp only [hfind, if_pos hrun]
    · cases hbody : f task with
      | error message =>
        left
        intro t' hfind
        simp only [hfind, if_neg hrun, hbody]
      | ok outcome =>
        rcases outcome with ⟨result, slot⟩
        right
        refine ⟨i, task, result, slot, rfl, hbody, ?_⟩
        intro t' hfind
        simp only [hfind, if_neg hrun, hbody]

/-- The search for another id does not see what was written. -/
theorem findTask_put {i : Fin maxTasks} {task : TaskInfo} {slot : Option TaskInfo}
    (hslot : t.slots i = some task) (hid : task.id ≠ b) (hwritten : ∀ task' ∈ slot, task'.id ≠ b) :
    (t.put i slot).findTask b = t.findTask b := by
  unfold findTask
  congr 1
  funext j
  by_cases hj : j = i
  · subst hj
    rw [put_slots_self, hslot, Option.bind_some, if_neg hid]
    cases slot with
    | none => rfl
    | some task' => rw [Option.bind_some, if_neg (hwritten task' rfl)]
  · rw [put_slots_ne _ _ hj]

/-- What the loop writes for one id, the search for another does not see. -/
theorem findTask_forTask (hne : a ≠ b) (hf : Settled now f) :
    (t.forTask a f).2.findTask b = t.findTask b := by
  rcases forTask_writes t a f with hsame | ⟨i, task, result, slot, hfind, hbody, hput⟩
  · rw [hsame t rfl]
  · rcases findTask_some hfind with ⟨hslot, rfl⟩
    rw [hput t rfl]
    apply findTask_put hslot hne
    rintro task' rfl
    rw [(hf hbody).1]
    exact hne

/-- The loop on a table where the search ends in the same way. -/
theorem forTask_congr {t' : TaskTable} (h : t'.findTask b = t.findTask b) :
    (t'.forTask b g).1 = (t.forTask b g).1 := by
  unfold forTask
  rw [h]
  cases t.findTask b with
  | none => rfl
  | some found =>
    rcases found with ⟨i, task⟩
    simp only
    split
    · rfl
    · cases g task with
      | error message => rfl
      | ok outcome => rfl

/-- Two loops for different ids: the second gives what it would have given without the first,
and the table does not tell which of them came first. -/
theorem forTask_comm (hne : a ≠ b) (hf : Settled now f) (hg : Settled now g) :
    ((t.forTask a f).2.forTask b g).1 = (t.forTask b g).1 ∧
      ((t.forTask a f).2.forTask b g).2 = ((t.forTask b g).2.forTask a f).2 := by
  have hfindb : (t.forTask a f).2.findTask b = t.findTask b := findTask_forTask hne hf
  have hfinda : (t.forTask b g).2.findTask a = t.findTask a := findTask_forTask hne.symm hg
  refine ⟨forTask_congr hfindb, ?_⟩
  rcases forTask_writes t a f with hf' | ⟨i, task, result, slot, hfind, _, hf'⟩
  · rw [hf' _ hfinda, hf' t rfl]
  rcases forTask_writes t b g with hg' | ⟨j, task', result', slot', hfind', _, hg'⟩
  · rw [hg' _ hfindb, hg' t rfl]
  -- both have written, each to a slot of its own
  have hij : i ≠ j := by
    rintro rfl
    rcases findTask_some hfind with ⟨hslot, hid⟩
    rcases findTask_some hfind' with ⟨hslot', hid'⟩
    rw [hslot] at hslot'
    cases hslot'
    exact hne (hid.symm.trans hid')
  rw [hf' _ hfinda, hg' _ hfindb, hf' t rfl, hg' t rfl]
  exact put_comm hij slot slot'

/-! ## Waking -/

/-- After a loop over a table without due sleepers there are none. -/
theorem woken_forTask (hwoken : t.woken now = t) (hf : Settled now f) :
    (t.forTask a f).2.woken now = (t.forTask a f).2 := by
  rcases forTask_writes t a f with hsame | ⟨i, task, result, slot, hfind, hbody, hput⟩
  · rw [hsame t rfl, hwoken]
  · have hslot := (findTask_some hfind).1
    have htask : wakeTask now task = task := by
      have hmap := congrFun (congrArg TaskTable.slots hwoken) i
      rw [woken_slots, hslot] at hmap
      exact Option.some.inj hmap
    have hwritten : slot.map (wakeTask now) = slot := by
      cases slot with
      | none => rfl
      | some task' => rw [Option.map_some, (hf hbody).2 htask]
    rw [hput t rfl, woken_put, hwoken, hwritten]

end Loop

end TaskTable

/-! ## The four operations -/

/-- A task that was just put to sleep is not due: there is a tick to come. -/
theorem sleep_settled {ticks now : UInt64} (hnow : now < U64.maxVal) (hticks : ticks ≠ 0) :
    Settled now fun task => .ok (U64.saturatingAdd now ticks,
      some { task with state := .sleeping, sleepUntilTick := some (U64.saturatingAdd now ticks) }) := by
  intro task result task' hbody
  cases hbody
  refine ⟨rfl, ?_⟩
  intro _
  have hlater : ¬ U64.saturatingAdd now ticks ≤ now := by
    rw [UInt64.lt_iff_toNat_lt, U64.toNat_maxVal] at hnow
    rw [ne_eq, ← UInt64.toNat_inj, UInt64.toNat_zero] at hticks
    rw [UInt64.le_iff_toNat_le, U64.toNat_saturatingAdd]
    omega
  unfold TaskTable.wakeTask TaskTable.isDue
  rw [if_neg]
  simp [hlater]

theorem wake_settled (now : UInt64) :
    Settled now fun task =>
      if task.state ≠ .sleeping then .error "task is not sleeping"
      else .ok ({ task with state := .ready, sleepUntilTick := none },
        some { task with state := .ready, sleepUntilTick := none }) := by
  intro task result task' hbody
  dsimp only at hbody
  by_cases hstate : task.state ≠ .sleeping
  · rw [if_pos hstate] at hbody
    cases hbody
  · rw [if_neg hstate] at hbody
    cases hbody
    exact ⟨rfl, fun _ => TaskTable.wakeTask_of_ne_sleeping (by simp)⟩

/-- Whether a task is due does not depend on its priority. -/
theorem setPriority_settled (priority : UInt8) (now : UInt64) :
    Settled now fun task => .ok ({ task with priority }, some { task with priority }) := by
  intro task result task' hbody
  cases hbody
  refine ⟨rfl, ?_⟩
  intro htask
  have hdue : TaskTable.isDue now { task with priority } = TaskTable.isDue now task := rfl
  unfold TaskTable.wakeTask at htask ⊢
  rw [hdue]
  split
  · next h =>
    rw [if_pos h] at htask
    rw [← htask]
  · rfl

/-- Every request is the shared loop behind a waking pass, with a settled body; a `sleep` of zero
ticks is turned down before it. -/
theorem TaskRequest.exec_call (request : TaskRequest) (id : UInt64) {now : UInt64}
    (hnow : now < U64.maxVal) :
    (∃ reply, ∀ t, exec t (request.call id now) = (reply, t)) ∨
      ∃ (α : Type) (wrap : Except String α → Reply)
        (body : TaskInfo → Except String (α × Option TaskInfo)), Settled now body ∧
        ∀ t, exec t (request.call id now) =
          (wrap ((t.woken now).forTask id body).1, ((t.woken now).forTask id body).2) := by
  cases request with
  -- a sleep of no ticks is refused without a look at the table
  | sleep ticks =>
    by_cases hticks : ticks = 0
    · left
      refine ⟨.id (.error "sleep ticks must be > 0"), ?_⟩
      intro t
      simp only [TaskRequest.call, exec, TaskTable.sleep, if_pos hticks]
    · right
      refine ⟨_, .id, _, sleep_settled hnow hticks, ?_⟩
      intro t
      simp only [TaskRequest.call, exec, TaskTable.sleep, if_neg hticks]
      rfl
  | wake => exact .inr ⟨_, .task, _, wake_settled now, fun t => rfl⟩
  | remove =>
    right
    by_cases hid : id = 1
    · -- the loop is not run, as if its body always failed
      let refuse : TaskInfo → Except String (Unit × Option TaskInfo) := fun _ => .error ""
      refine ⟨_, fun _ => .task (.error "cannot remove bootstrap task"), refuse, ?_, ?_⟩
      · intro task result task' hbody
        cases hbody
      · intro t
        have hkept : ((t.woken now).forTask id refuse).2 = t.woken now := by
          rcases TaskTable.forTask_writes (t.woken now) id refuse with
            hsame | ⟨i, task, result, slot, _, hbody, _⟩
          · exact hsame _ rfl
          · cases hbody
        rw [hkept]
        simp only [TaskRequest.call, exec, TaskTable.remove, if_pos hid]
        rfl
    · refine ⟨_, .task, fun task => .ok (task, none), ?_, ?_⟩
      · intro task result task' hbody
        cases hbody
      · intro t
        simp only [TaskRequest.call, exec, TaskTable.remove, if_neg hid]
        rfl
  | setPriority priority => exact .inr ⟨_, .task, _, setPriority_settled priority now, fun t => rfl⟩

/-- **Commutation.** Two requests for different tasks, at one tick that is not the last, give the
same two replies and the same table in either order. This needs nothing of the table. -/
theorem operations_commute (t : TaskTable) {a b : UInt64} (hne : a ≠ b) {now : UInt64}
    (hnow : now < U64.maxVal) (request request' : TaskRequest) :
    let first := exec t (request.call a now)
    let second := exec first.2 (request'.call b now)
    let first' := exec t (request'.call b now)
    let second' := exec first'.2 (request.call a now)
    first.1 = second'.1 ∧ second.1 = first'.1 ∧ second.2 = second'.2 := by
  intro first second first' second'
  rcases request.exec_call a hnow with ⟨reply, hcall⟩ | ⟨α, wrap, f, hf, hcall⟩
  · -- the first request does not look at the table
    refine ⟨?_, ?_, ?_⟩
    · simp only [first, second', hcall]
    · simp only [second, first, first', hcall]
    · simp only [second, first, second', first', hcall]
  rcases request'.exec_call b hnow with ⟨reply, hcall'⟩ | ⟨β, wrap', g, hg, hcall'⟩
  · refine ⟨?_, ?_, ?_⟩
    · simp only [first, second', first', hcall']
    · simp only [second, first', hcall']
    · simp only [second, first, second', first', hcall']
  have hself : (t.woken now).woken now = t.woken now := TaskTable.woken_woken (UInt64.le_refl _)
  -- after either request the table is woken as if it had come alone
  have hfirst : first.2.woken now = ((t.woken now).forTask a f).2 := by
    simp only [first, hcall]
    exact TaskTable.woken_forTask hself hf
  have hfirst' : first'.2.woken now = ((t.woken now).forTask b g).2 := by
    simp only [first', hcall']
    exact TaskTable.woken_forTask hself hg
  -- two loops over different ids give the same in both orders
  rcases TaskTable.forTask_comm (t := t.woken now) hne hf hg with ⟨hreply', htable⟩
  rcases TaskTable.forTask_comm (t := t.woken now) hne.symm hg hf with ⟨hreply, _⟩
  refine ⟨?_, ?_, ?_⟩
  · simp only [second', hcall first'.2, hfirst', hreply]
    simp only [first, hcall]
  · simp only [second, hcall' first.2, hfirst, hreply']
    simp only [first', hcall']
  · simp only [second, second', hcall first'.2, hcall' first.2, hfirst, hfirst', htable]

/-- The first to go wakes the other task, which is due; the fresh sleeper stays asleep. -/
theorem operations_commute_sleepers :
    let t := scheduler.run TaskTable.new
      [.init, .spawn .userDemo, .spawn .userDemo, .sleep 2 5 0, .sleep 3 5 0]
    (exec t (.sleep 2 4 9)).1 = .id (.ok 13) ∧
      (exec (exec t (.sleep 2 4 9)).2 (.wake 3 9)).1 = .task (.error "task is not sleeping") ∧
      (exec (exec t (.sleep 2 4 9)).2 (.wake 3 9)).2 =
        (exec (exec t (.wake 3 9)).2 (.sleep 2 4 9)).2 := by
  intro t
  have hsleep : (exec t (.sleep 2 4 9)).1 = .id (.ok 13) := by decide
  have hwake : (exec t (.wake 3 9)).1 = .task (.error "task is not sleeping") := by decide
  have hne : (2 : UInt64) ≠ 3 := by decide
  have hnow : (9 : UInt64) < U64.maxVal := by decide
  have hcommute := operations_commute t hne hnow (.sleep 4) .wake
  exact ⟨hsleep, hcommute.2.1.trans hwake, hcommute.2.2⟩

end JingOS.Task
