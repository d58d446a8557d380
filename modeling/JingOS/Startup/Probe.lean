import JingOS.Startup.Mapping

/-!
# The probe of the memory (`kernel_main` in `kernel/src/main.rs`)

The first thing the kernel does is to take three frames from the allocator and, where physical
memory is mapped, to run the three parts one after the other; none of them depends on the success
of the one before. What they return is what the messages of boot tell.

* `Mapped`, `Told` — the pages that are mapped afterwards, and the results against them;
* `boot_mappings` — both, for all page tables and all memory maps.
-/

namespace JingOS.Startup

open Binding Checked Hoare
open JingOS.Memory JingOS.Memory.BootInfoFrameAllocator JingOS.Monitor JingOS.Usermode

variable {σ : Type}

/-! ## The first lines of `kernel_main` -/

/-- `first_frames`. -/
def firstFrames : BootM σ (List (Option PhysFrame)) := do
  let first ← allocateFrame
  let second ← allocateFrame
  let third ← allocateFrame
  pure [first, second, third]

/-- The results of the three parts. -/
structure PagingProbe where
  paging : Except String UInt64
  heap : Except String (UInt64 × UInt64)
  usermode : Except String Unit

section Parts

variable (mapper : Mapper σ) (boot : Boot)

/-- `heap_result`. -/
def heapResult : BootM σ (Except String (UInt64 × UInt64)) := do
  match ← (initHeap mapper).run with
  | .error _ => pure (.error "heap init mapping failed")
  | .ok () => do
    let values ← lift Halt.panic (probeAllocations boot)
    pure (.ok values)

/-- `paging_probe`, where physical memory is mapped. -/
def pagingProbe (offset : UInt64) : BootM σ PagingProbe := do
  let offset ← lift Halt.panic (VirtAddr.new offset)
  -- `init_offset_page_table`: the root of the tables stays where it is
  let _ ← lift Halt.panic (boot.paging.activeLevel4Table offset)
  let paging ← (mapDemoPage mapper).run
  let heap ← heapResult mapper boot
  let usermode ← (initMemory mapper).run
  pure { paging, heap, usermode }

/-- From the first frame to the probe. -/
def probeMemory : BootM σ (List (Option PhysFrame) × Option PagingProbe) := do
  let first ← firstFrames
  match boot.physicalMemoryOffset with
  | none => pure (first, none)
  | some offset => do
    let probe ← pagingProbe mapper boot offset
    pure (first, some probe)

end Parts

/-! ## Afterwards -/

/-- The pages of the log have been mapped, each to a usable frame of its own that is none of the
first three. -/
structure Mapped (mapper : Mapper σ) (regions : List MemoryRegion) (first : List (Option PhysFrame))
    (s s' : BootState σ) (log : List (Page × PhysFrame)) : Prop where
  binds : Binds (mapper.frameOf s.tables) (mapper.frameOf s'.tables) log
  inOrder : (log.map Prod.fst).Sublist bootPages
  own : (log.map Prod.snd).Nodup
  usable : ∀ frame ∈ log.map Prod.snd, frame.Allocatable regions ∧ some frame ∉ first
  allocator : s'.allocator.memoryRegions = regions
  cost : s'.allocator.next ≤ 3 + 4 * bootPages.length

/-- The results say which of the pages have been mapped, and what the parts have left behind. -/
structure Told (boot : Boot) (probe : PagingProbe) (m m' : Machine) (names : List Page) : Prop where
  paging : probe.paging.isOk = true ↔ demoPage ∈ names
  value : ∀ value, probe.paging = .ok value → value = demoPageValue
  heap : probe.heap.isOk = true ↔ ∀ page ∈ heapPages, page ∈ names
  served : ∀ values, probe.heap = .ok values → probeAllocations boot = .ok values
  allocator : m'.heap = if probe.heap.isOk then some (heapStart, heapSize) else m.heap
  usermode : probe.usermode.isOk = true ↔ ∀ page ∈ userPages, page ∈ names
  context : m'.world.userModeContext =
    if probe.usermode.isOk then some ⟨userCodeStart, userStackTop⟩ else m.world.userModeContext
  code : probe.usermode.isOk = true → ∃ mem, m'.world.userMem = writeDemoCode mem userIntDemoCode
  rest : m' = { m with
    heap := m'.heap
    world := { m.world with
      userMem := m'.world.userMem, userModeContext := m'.world.userModeContext } }

section

variable {mapper : Mapper σ} {owns : σ → PhysFrame → Prop} {regions : List MemoryRegion}
  {pages : List Page} {s s₁ s' : BootState σ} {log : List (Page × PhysFrame)} {done : Bool}

/-- All pages have been mapped if each of them has. -/
theorem Attempted.done_iff (h : Attempted mapper owns regions pages s s' log done)
    (hnodup : pages.Nodup) : done = true ↔ ∀ page ∈ pages, page ∈ log.map Prod.fst := by
  have hlength := h.inOrder.length_le
  rw [h.complete]
  rw [List.length_map] at hlength
  constructor
  · intro hsame page hpage
    rw [h.inOrder.eq_of_length (by rw [List.length_map, hsame])]
    exact hpage
  · intro hall
    have hle := (hnodup.subperm hall).length_le
    rw [List.length_map] at hle
    omega

/-- Nothing is left out where the pages are free and memory suffices. -/
theorem Attempted.all_mapped (h : Attempted mapper owns regions pages s s' log done)
    (hnodup : pages.Nodup) (hfree : ∀ page ∈ pages, mapper.frameOf s.tables page = none)
    (hmemory : s.allocator.next + 4 * pages.length ≤ (frames regions).length) :
    log.map Prod.fst = pages := by
  have hdone : done = true := by
    by_contra hnot
    rcases h.excuse (Bool.eq_false_iff.mpr hnot) with ⟨page, hpage, hmapped⟩ | htwice | hshort
    · exact hmapped (hfree page hpage)
    · exact htwice hnodup
    · omega
  apply h.inOrder.eq_of_length
  rw [List.length_map]
  exact h.complete.mp hdone

variable (hmap : PageMap regions)
include hmap

theorem allocatable_of_mem {frame : PhysFrame} (h : frame ∈ frames regions) :
    frame.Allocatable regions := by
  rw [frames_eq hmap, usableFrames, mem_numbered hmap (Nat.le_refl _)] at h
  rcases h with ⟨_, ⟨hlow, _⟩, hregion⟩
  have hmin : firstNumber * frameSize = minAllocatablePhysAddr.toNat := by decide
  refine ⟨?_, hregion⟩
  rw [UInt64.le_iff_toNat_le]
  omega

/-- What has been mapped behind the first three frames. -/
theorem Attempted.toMapped (h : Attempted mapper owns regions pages s₁ s' log done)
    (hpages : pages.Sublist bootPages) (htables : s₁.tables = s.tables)
    (hnext : s₁.allocator.next = 3) :
    Mapped mapper regions ((List.range 3).map fun k => (frames regions)[k]?) s s' log where
  binds := by
    rw [← htables]
    exact h.binds
  inOrder := h.inOrder.trans hpages
  own := by
    refine h.drawn.nodup ?_
    rw [frames_eq hmap]
    exact nodup_usableFrames hmap
  usable frame hframe := by
    have hmem : frame ∈ leftOver regions (0 + 3) := by
      have hdrawn := h.drawn.subset hframe
      rwa [hnext] at hdrawn
    refine ⟨allocatable_of_mem hmap (List.mem_of_mem_drop hmem), ?_⟩
    rw [← mem_take_iff_called]
    exact notMem_take_of_mem_leftOver hmap hmem
  allocator := h.ready.map
  cost := by
    have hcost := h.cost
    have hlength := hpages.length_le
    omega

/-- The first three calls. -/
theorem firstFrames_run (hs : s.allocator = init regions) :
    (firstFrames : BootM σ (List (Option PhysFrame))).run s =
      .ok ((List.range 3).map fun k => (frames regions)[k]?)
        { s with allocator := ⟨regions, 3⟩ } := by
  have hcall : ∀ k < 3, (allocateFrame : BootM σ (Option PhysFrame)).run
      { s with allocator := ⟨regions, k⟩ } =
        .ok (frames regions)[k]? { s with allocator := ⟨regions, k + 1⟩ } :=
    fun k hk => allocateFrame_run hmap rfl (by change k + 1 < _; omega)
  have hstart : s = { s with allocator := ⟨regions, 0⟩ } := by
    rw [show (⟨regions, 0⟩ : BootInfoFrameAllocator) = s.allocator from hs.symm]
  unfold firstFrames
  rw [hstart, run_bind_ok (hcall 0 (by decide)), run_bind_ok (hcall 1 (by decide)),
    run_bind_ok (hcall 2 (by decide))]
  rfl

end

/-! ## All of it -/

/-- How the probe ends: with results that tell what has been mapped, and with everything mapped if
the pages are free and memory suffices; or with the panic of an allocation behind the mapping of
the heap. -/
def ProbeEnds (mapper : Mapper σ) (boot : Boot) (s : BootState σ)
    (result : EStateM.Result Halt (BootState σ) (List (Option PhysFrame) × Option PagingProbe)) :
    Prop :=
  (∃ first probe s' log, result = .ok (first, some probe) s' ∧
    Mapped mapper boot.memoryRegions first s s' log ∧
    Told boot probe s.machine s'.machine (log.map Prod.fst) ∧
    ((∀ page ∈ bootPages, mapper.frameOf s.tables page = none) →
      3 + 4 * bootPages.length ≤ (frames boot.memoryRegions).length →
      log.map Prod.fst = bootPages)) ∨
  ∃ panic s' first log, result = .error (.panic panic) s' ∧
    probeAllocations boot = .error panic ∧ Mapped mapper boot.memoryRegions first s s' log

section

variable {mapper : Mapper σ} {owns : σ → PhysFrame → Prop} {boot : Boot} {s : BootState σ}

section

variable {s₂ s₃ s₄ : BootState σ} {paging : Except String UInt64} {heap : Except MapToError Unit}
  {usermode : Except String Unit}

/-- Behind the mapping of the heap there is an allocation, which may panic. -/
theorem heapResult_run (h : (initHeap mapper).run.run s₂ = .ok heap s₃) :
    (heapResult mapper boot).run s₂ =
      match heap, probeAllocations boot with
      | .error _, _ => .ok (.error "heap init mapping failed") s₃
      | .ok (), .ok values => .ok (.ok values) s₃
      | .ok (), .error panic => .error (.panic panic) s₃ := by
  unfold heapResult
  rw [run_bind_ok h]
  cases heap with
  | error error => rfl
  | ok done =>
    cases hprobe : probeAllocations boot with
    | ok values => rfl
    | error panic => rfl

/-- The result of the heap is that of its mapping. -/
theorem heapResult_ok {result : Except String (UInt64 × UInt64)} {s' : BootState σ}
    (h : (initHeap mapper).run.run s₂ = .ok heap s₃)
    (hrun : (heapResult mapper boot).run s₂ = .ok result s') :
    result.isOk = heap.isOk ∧ (∀ values, result = .ok values → probeAllocations boot = .ok values) ∧
      s' = s₃ := by
  rw [heapResult_run h] at hrun
  revert hrun
  cases heap with
  | error error =>
    intro hrun
    cases hrun
    exact ⟨rfl, nofun, rfl⟩
  | ok done =>
    cases probeAllocations boot with
    | ok values =>
      intro hrun
      cases hrun
      exact ⟨rfl, fun values' hvalues => congrArg Except.ok (Except.ok.inj hvalues), rfl⟩
    | error panic => exact nofun

theorem heapResult_error {halt : Halt} {s' : BootState σ}
    (h : (initHeap mapper).run.run s₂ = .ok heap s₃)
    (hrun : (heapResult mapper boot).run s₂ = .error halt s') :
    ∃ panic, halt = .panic panic ∧ probeAllocations boot = .error panic ∧ s' = s₃ := by
  rw [heapResult_run h] at hrun
  revert hrun
  cases heap with
  | error error => exact nofun
  | ok done =>
    cases probeAllocations boot with
    | ok values => exact nofun
    | error panic =>
      intro hrun
      cases hrun
      exact ⟨panic, rfl, rfl, rfl⟩

variable {offset : UInt64} (hreadable : boot.paging.ReadableAt offset)
include hreadable

/-- The probe up to the second part. -/
theorem pagingProbe_start (h : (mapDemoPage mapper).run.run s = .ok paging s₂) :
    (pagingProbe mapper boot offset).run s =
      (heapResult mapper boot >>= fun heap => (initMemory mapper).run >>= fun usermode =>
        pure (PagingProbe.mk paging heap usermode)).run s₂ := by
  rcases pageTableFromPhysical_returns hreadable Paging.Reached.root with ⟨table, htable, _⟩
  have hroot : boot.paging.activeLevel4Table ⟨offset, hreadable.canonical⟩ = .ok table := htable
  unfold pagingProbe
  rw [run_lift_bind (VirtAddr.new_of_canonical hreadable.canonical), run_lift_bind hroot,
    run_bind_ok h]

theorem pagingProbe_run {result : Except String (UInt64 × UInt64)}
    (h : (mapDemoPage mapper).run.run s = .ok paging s₂)
    (hheap : (heapResult mapper boot).run s₂ = .ok result s₃)
    (huser : (initMemory mapper).run.run s₃ = .ok usermode s₄) :
    (pagingProbe mapper boot offset).run s = .ok ⟨paging, result, usermode⟩ s₄ := by
  rw [pagingProbe_start hreadable h, run_bind_ok hheap, run_bind_ok huser]
  rfl

theorem pagingProbe_run_error {halt : Halt} (h : (mapDemoPage mapper).run.run s = .ok paging s₂)
    (hheap : (heapResult mapper boot).run s₂ = .error halt s₃) :
    (pagingProbe mapper boot offset).run s = .error halt s₃ := by
  rw [pagingProbe_start hreadable h]
  exact run_bind_error hheap

end

/-- The results of the three parts, put together from what each of them does. -/
theorem told_of_parts {regions : List MemoryRegion} {s₁ s₂ s₃ s₄ : BootState σ}
    {log₁ log₂ log₃ : List (Page × PhysFrame)} {probe : PagingProbe}
    (hlog₁ : Attempted mapper owns regions [demoPage] s₁ s₂ log₁ probe.paging.isOk)
    (hlog₂ : Attempted mapper owns regions heapPages s₂ s₃ log₂ probe.heap.isOk)
    (hlog₃ : Attempted mapper owns regions userPages s₃ s₄ log₃ probe.usermode.isOk)
    (hvalue : ∀ value, probe.paging = .ok value → value = demoPageValue)
    (hserved : ∀ values, probe.heap = .ok values → probeAllocations boot = .ok values)
    (hmachine₁ : ∃ m, s₂.machine = { s₁.machine with
      world := { s₁.machine.world with userMem := m } })
    (hmachine₂ : s₃.machine = if probe.heap.isOk then
      { s₂.machine with heap := some (heapStart, heapSize) } else s₂.machine)
    (hmachine₃ : s₄.machine = if probe.usermode.isOk then
      { s₃.machine with world := { s₃.machine.world with
        userMem := writeDemoCode s₃.machine.world.userMem userIntDemoCode
        userModeContext := some ⟨userCodeStart, userStackTop⟩ } } else s₃.machine) :
    Told boot probe s₁.machine s₄.machine ((log₁ ++ (log₂ ++ log₃)).map Prod.fst) := by
  rcases hmachine₁ with ⟨m, hmachine₁⟩
  -- no page belongs to two of the three lists
  have hnodup := nodup_bootPages
  unfold bootPages at hnodup
  rcases List.nodup_append'.mp hnodup with ⟨hdemo, hrest, happart⟩
  rcases List.nodup_append'.mp hrest with ⟨hheap, huser, hapart⟩
  have hin₁ := hlog₁.inOrder.subset
  have hin₂ := hlog₂.inOrder.subset
  have hin₃ := hlog₃.inOrder.subset
  simp only [List.map_append]
  refine ⟨?_, hvalue, ?_, hserved, ?_, ?_, ?_, ?_, ?_⟩
  -- the demo page
  · rw [hlog₁.done_iff hdemo, List.mem_append, List.mem_append]
    constructor
    · intro hall
      exact Or.inl (hall demoPage (List.mem_singleton_self _))
    · intro hmem page hpage
      rw [List.mem_singleton] at hpage
      subst hpage
      rcases hmem with hmem | hmem | hmem
      · exact hmem
      · exact absurd (List.mem_append_left _ (hin₂ hmem)) (happart (List.mem_singleton_self _))
      · exact absurd (List.mem_append_right _ (hin₃ hmem)) (happart (List.mem_singleton_self _))
  -- the heap
  · rw [hlog₂.done_iff hheap]
    simp only [List.mem_append]
    constructor
    · exact fun hall page hpage => Or.inr (Or.inl (hall page hpage))
    · intro hall page hpage
      rcases hall page hpage with hmem | hmem | hmem
      · exact absurd (List.mem_append_left _ hpage) (happart (hin₁ hmem))
      · exact hmem
      · exact absurd (hin₃ hmem) (hapart hpage)
  · rw [hmachine₃, hmachine₂, hmachine₁]
    split
    · split
      · rfl
      · rfl
    · split
      · rfl
      · rfl
  -- the pages of ring 3
  · rw [hlog₃.done_iff huser]
    simp only [List.mem_append]
    constructor
    · exact fun hall page hpage => Or.inr (Or.inr (hall page hpage))
    · intro hall page hpage
      rcases hall page hpage with hmem | hmem | hmem
      · exact absurd (List.mem_append_right _ hpage) (happart (hin₁ hmem))
      · exact absurd hpage (hapart (hin₂ hmem))
      · exact hmem
  · rw [hmachine₃, hmachine₂, hmachine₁]
    split
    · rfl
    · split
      · rfl
      · rfl
  · intro hdone
    rw [hmachine₃, if_pos hdone]
    exact ⟨_, rfl⟩
  · rw [hmachine₃, hmachine₂, hmachine₁]
    split
    · split
      · rfl
      · rfl
    · split
      · rfl
      · rfl

/-- The three parts, from any state in which the allocator is ahead of the page tables. -/
theorem pagingProbe_ends (hmap : PageMap boot.memoryRegions)
    (hlawful : mapper.Lawful owns boot.memoryRegions) {offset : UInt64}
    (hreadable : boot.paging.ReadableAt offset) (hs : Ready owns boot.memoryRegions s)
    (hlimit : s.allocator.next + 4 * bootPages.length < 2 ^ 64) :
    (∃ probe s' log, (pagingProbe mapper boot offset).run s = .ok probe s' ∧
      Attempted mapper owns boot.memoryRegions bootPages s s' log
        (probe.paging.isOk && (probe.heap.isOk && probe.usermode.isOk)) ∧
      Told boot probe s.machine s'.machine (log.map Prod.fst)) ∨
    ∃ panic s' pages log done, (pagingProbe mapper boot offset).run s = .error (.panic panic) s' ∧
      probeAllocations boot = .error panic ∧ pages.Sublist bootPages ∧
      Attempted mapper owns boot.memoryRegions pages s s' log done := by
  have hheapLength : heapPages.length = 25 := by decide
  have huserLength : userPages.length = 3 := rfl
  rw [length_bootPages] at hlimit
  rcases mapDemoPage_finishes hmap hlawful s hs (by rw [List.length_singleton]; omega) with
    ⟨paging, s₂, log₁, hrun₁, hlog₁, hvalue, hmachine₁⟩
  have hcost₁ := hlog₁.cost
  rw [List.length_singleton] at hcost₁
  rcases initHeap_finishes hmap hlawful s₂ hlog₁.ready (by omega) with
    ⟨heap, s₃, log₂, hrun₂, hlog₂, _, hmachine₂⟩
  have hcost₂ := hlog₂.cost
  rcases initMemory_finishes hmap hlawful s₃ hlog₂.ready (by omega) with
    ⟨usermode, s₄, log₃, hrun₃, hlog₃, _, hmachine₃⟩
  cases hheap : (heapResult mapper boot).run s₂ with
  | error halt s₃' =>
    -- the heap has been mapped, but cannot be used
    rcases heapResult_error hrun₂ hheap with ⟨panic, rfl, hpanic, rfl⟩
    refine Or.inr ⟨panic, _, _, _, _, pagingProbe_run_error hreadable hrun₁ hheap, hpanic, ?_,
      hlog₁.append hlog₂⟩
    unfold bootPages
    rw [← List.append_assoc]
    exact List.sublist_append_left _ _
  | ok result s₃' =>
    rcases heapResult_ok hrun₂ hheap with ⟨hresult, hserved, rfl⟩
    rw [← hresult] at hlog₂ hmachine₂
    have hdemo : ∃ m, s₂.machine = { s.machine with
        world := { s.machine.world with userMem := m } } := by
      rw [hmachine₁]
      split
      · exact ⟨_, rfl⟩
      · exact ⟨_, rfl⟩
    exact Or.inl ⟨⟨paging, result, usermode⟩, s₄, _, pagingProbe_run hreadable hrun₁ hheap hrun₃,
      hlog₁.append (hlog₂.append hlog₃),
      told_of_parts hlog₁ hlog₂ hlog₃ hvalue hserved hdemo hmachine₂ hmachine₃⟩

/-- The frames come first. -/
theorem probeMemory_run (hmap : PageMap boot.memoryRegions) (hs : s.allocator = init boot.memoryRegions)
    {offset : UInt64} (hoffset : boot.physicalMemoryOffset = some offset) :
    (probeMemory mapper boot).run s =
      (pagingProbe mapper boot offset >>= fun probe =>
        pure ((List.range 3).map fun k => (frames boot.memoryRegions)[k]?, some probe)).run
        { s with allocator := ⟨boot.memoryRegions, 3⟩ } := by
  unfold probeMemory
  rw [run_bind_ok (firstFrames_run hmap hs), hoffset]

/-- **The pages of boot.** With any page tables, on any memory map and wherever the three parts
fail: every page that boot maps was free, gets a usable frame of its own, and no other page is
changed; and the results say which pages these are. -/
theorem boot_mappings (hmap : PageMap boot.memoryRegions)
    (hlawful : mapper.Lawful owns boot.memoryRegions)
    {offset : UInt64} (hoffset : boot.physicalMemoryOffset = some offset)
    (hreadable : boot.paging.ReadableAt offset) (hs : s.allocator = init boot.memoryRegions)
    (hunowned : ∀ frame ∈ frames boot.memoryRegions, ¬ owns s.tables frame) :
    ProbeEnds mapper boot s ((probeMemory mapper boot).run s) := by
  let s₁ : BootState σ := { s with allocator := ⟨boot.memoryRegions, 3⟩ }
  have hready : Ready owns boot.memoryRegions s₁ :=
    ⟨rfl, fun frame hframe => hunowned frame (List.mem_of_mem_drop hframe)⟩
  have hlimit : s₁.allocator.next + 4 * bootPages.length < 2 ^ 64 := by
    rw [length_bootPages]
    change 3 + 4 * 29 < 2 ^ 64
    omega
  rw [probeMemory_run hmap hs hoffset]
  rcases pagingProbe_ends hmap hlawful hreadable hready hlimit with
    ⟨probe, s', log, hrun, hlog, htold⟩ | ⟨panic, s', pages, log, done, hrun, hpanic, hpages, hlog⟩
  · rw [run_bind_ok hrun]
    exact Or.inl ⟨_, probe, s', log, rfl, hlog.toMapped hmap (List.Sublist.refl _) rfl rfl, htold,
      fun hfree hmemory => hlog.all_mapped nodup_bootPages hfree hmemory⟩
  · rw [run_bind_error hrun]
    exact Or.inr ⟨panic, s', _, log, rfl, hpanic, hlog.toMapped hmap hpages rfl rfl⟩

/-- The sample machine before boot, with empty page tables. -/
def sampleStart : BootState TableTree where
  machine :=
    { world := { sampleWorld with userModeContext := none }, heap := none, fast := sampleFast }
  tables := { tables := [], pages := [] }
  allocator := init sampleBoot.memoryRegions

theorem sampleBoot_pageMap : PageMap sampleBoot.memoryRegions :=
  ⟨List.pairwise_singleton _ _, by decide, by decide⟩

theorem sampleStart_unowned :
    ∀ frame ∈ frames sampleBoot.memoryRegions, ¬ sampleStart.tables.Owns frame := by
  rintro frame _ (htable | hpage)
  · cases htable
  · cases hpage

theorem sampleBoot_readable : sampleBoot.paging.ReadableAt 0x18000000000 := by
  rcases sampleBoot_successful.mapped with ⟨offset, hoffset, hreadable⟩
  rw [← Option.some.inj hoffset] at hreadable
  exact hreadable

theorem boot_mappings_sample : ProbeEnds TableTree.mapper sampleBoot sampleStart
    ((probeMemory TableTree.mapper sampleBoot).run sampleStart) :=
  boot_mappings sampleBoot_pageMap (TableTree.mapper_lawful sampleBoot_pageMap) rfl
    sampleBoot_readable rfl sampleStart_unowned

end

end JingOS.Startup
