import JingOS.Lib.Binding
import JingOS.Memory.Accounting
import JingOS.Monitor.InputLoop
import JingOS.Startup.Scaffold

/-!
# The pages that boot maps (`memory.rs`, `heap.rs`, `usermode.rs`)

Boot maps a page to try the mapping out, the pages of the heap, and the three pages that ring 3
sees. Each page gets the next frame of the allocator, and `map_to` may take more of them for page
tables. The page tables belong to a crate: `Mapper` is its interface and `Lawful` is what it
promises to a caller who hands it frames that are not in use.

* `mapDemoPage`, `initHeap`, `initMemory` — the three parts, each of which may fail;
* `Attempts` — what mapping a list of pages does, whatever becomes of it;
* `boot_mappings` — all of it: every page that is mapped was free and has a frame of its own.
-/

namespace JingOS.Startup

open Binding ByteMem Checked Hoare
open JingOS.Memory JingOS.Memory.BootInfoFrameAllocator JingOS.Monitor JingOS.Usermode

/-! ## Pages -/

deriving instance DecidableEq for VirtAddr

/-- `Page<Size4KiB>`. -/
structure Page where
  startAddress : VirtAddr
  aligned : startAddress.value.toNat % frameSize = 0
deriving DecidableEq

theorem floor_canonical {address : UInt64} (h : IsCanonical address) :
    IsCanonical (UInt64.ofNat (address.toNat / frameSize * frameSize)) := by
  have := address.toNat_lt
  unfold IsCanonical at h ⊢
  unfold frameSize
  rw [UInt64.toNat_ofNat_of_lt' (by change _ < 2 ^ 64; omega)]
  omega

/-- `Page::containing_address` of the `x86_64` crate, which rounds down. -/
def Page.containingAddress (address : VirtAddr) : Page where
  startAddress :=
    ⟨UInt64.ofNat (address.value.toNat / frameSize * frameSize), floor_canonical address.canonical⟩
  aligned := by
    have := address.value.toNat_lt
    unfold frameSize
    rw [UInt64.toNat_ofNat_of_lt' (by change _ < 2 ^ 64; omega)]
    omega

/-- The pages from the first to the last, `Page::range_inclusive`. -/
def Page.rangeInclusive (first last : Page) : List Page :=
  let bytes := last.startAddress.value.toNat + frameSize - first.startAddress.value.toNat
  (List.range (bytes / frameSize)).map fun k =>
    containingAddress (VirtAddr.newTruncate (first.startAddress.value + UInt64.ofNat (k * frameSize)))

theorem Page.containingAddress_startAddress (page : Page) :
    containingAddress page.startAddress = page := by
  rcases page with ⟨⟨value, hcanonical⟩, haligned⟩
  unfold containingAddress
  congr
  change value.toNat % frameSize = 0 at haligned
  change UInt64.ofNat (value.toNat / frameSize * frameSize) = value
  rw [Nat.div_mul_cancel (Nat.dvd_of_mod_eq_zero haligned), UInt64.ofNat_toNat]

/-! ## The page tables -/

/-- `PageTableFlags::PRESENT`. -/
def present : UInt64 := 0x1

/-- `PageTableFlags::WRITABLE`. -/
def writable : UInt64 := 0x2

/-- `PageTableFlags::USER_ACCESSIBLE`. -/
def userAccessible : UInt64 := 0x4

/-- Why a page was not mapped. -/
inductive MapToError where
  | frameAllocationFailed
  | parentEntryHugePage
  | pageAlreadyMapped (frame : PhysFrame)
deriving DecidableEq, Repr

/-- `OffsetPageTable` of the crate, with page tables in `σ`. -/
structure Mapper (σ : Type) where
  /-- Where the 4 KiB of a page are in physical memory. -/
  frameOf : σ → Page → Option PhysFrame
  /-- `map_to`, which takes frames for new page tables from the allocator. -/
  mapTo : σ → Page → PhysFrame → UInt64 → BootInfoFrameAllocator →
    Checked (Except MapToError Unit × σ × BootInfoFrameAllocator)

variable {σ : Type}

/-- `translate_addr`. -/
def Mapper.translateAddr (mapper : Mapper σ) (tables : σ) (address : VirtAddr) : Option UInt64 :=
  (mapper.frameOf tables (Page.containingAddress address)).map fun frame =>
    frame.start + UInt64.ofNat address.pageOffset

/-! ## The three parts -/

/-- The machine without its page tables. -/
structure Machine where
  world : World
  /-- `heap::ALLOCATOR`: start and size, once it has been initialized. -/
  heap : Option (UInt64 × UInt64)
  fast : FastMachine

/-- The state while the kernel boots. -/
structure BootState (σ : Type) where
  machine : Machine
  tables : σ
  allocator : BootInfoFrameAllocator

/-- Why boot does not go on. -/
inductive Halt where
  | stop (stop : Stop)
  /-- `exit_qemu`. -/
  | exit (code : QemuExitCode)
deriving DecidableEq, Repr

def Halt.panic (panic : Panic) : Halt := .stop (.panic panic)

/-- A program of the startup, which may halt. -/
abbrev BootM (σ : Type) := EStateM Halt (BootState σ)

/-- A program of the monitor. -/
def inWorld {α : Type} (x : MonitorM α) : BootM σ α := fun s =>
  match x s.machine.world with
  | .ok a world => .ok a { s with machine := { s.machine with world } }
  | .error stop world => .error (.stop stop) { s with machine := { s.machine with world } }

/-- The next frame of the allocator, if there is one. -/
def allocateFrame : BootM σ (Option PhysFrame) := do
  let s ← get
  let (frame, allocator) ← lift Halt.panic s.allocator.allocateFrame
  set { s with allocator }
  pure frame

section Parts

variable (mapper : Mapper σ)

def mapTo (page : Page) (frame : PhysFrame) (flags : UInt64) :
    BootM σ (Except MapToError Unit) := do
  let s ← get
  let (result, tables, allocator) ←
    lift Halt.panic (mapper.mapTo s.tables page frame flags s.allocator)
  set { s with tables, allocator }
  pure result

/-- What the three parts do with a page: they allocate a frame and map the page to it. Without a
frame there is no error of `map_to`. -/
def allocateAndMap (page : Page) (flags : UInt64) : ExceptT (Option MapToError) (BootM σ) Unit := do
  match ← (allocateFrame : BootM σ (Option PhysFrame)) with
  | none => throw none
  | some frame => ExceptT.adapt some (ExceptT.mk (mapTo mapper page frame flags))

/-- `map_page_with_flags`, and `map_demo_page` but for its last lines. -/
def mapFreePage (alreadyMapped noFrame : String) (virtualAddress flags : UInt64) :
    ExceptT String (BootM σ) Unit := do
  let address ← (lift Halt.panic (VirtAddr.new virtualAddress) : BootM σ VirtAddr)
  let page := Page.containingAddress address
  let s ← (get : BootM σ (BootState σ))
  if (mapper.translateAddr s.tables page.startAddress).isSome then throw alreadyMapped
  else
    ExceptT.adapt (fun error : Option MapToError => if error.isNone then noFrame else "map_to failed")
      (allocateAndMap mapper page flags)

def mapPageWithFlags (virtualAddress flags : UInt64) : ExceptT String (BootM σ) Unit :=
  mapFreePage mapper "page already mapped" "no free frame for page mapping" virtualAddress flags

/-- `DEMO_PAGE_START`. -/
def demoPageStart : UInt64 := 0x555555550000

/-- `DEMO_PAGE_VALUE`. -/
def demoPageValue : UInt64 := 0xC0DECAFEBAADF00D

/-- The page of the paging demo, with the word that the demo reads back. -/
def mapDemoPage : ExceptT String (BootM σ) UInt64 := do
  mapFreePage mapper "demo page already mapped" "no free frame for demo mapping" demoPageStart
    (present ||| writable)
  (inWorld (modify fun w => { w with
    userMem := setWord w.userMem demoPageStart demoPageValue }) : BootM σ Unit)
  let s ← (get : BootM σ (BootState σ))
  pure (word s.machine.world.userMem demoPageStart)

/-- `HEAP_START`. -/
def heapStart : UInt64 := 0x444444440000

/-- `HEAP_SIZE`. -/
def heapSize : UInt64 := 100 * 1024

/-- `page_range` of `init_heap`. -/
def heapRange : Checked (List Page) := do
  let heapStart ← VirtAddr.new heapStart
  let heapEnd ← heapStart.add (heapSize - 1)
  pure (Page.rangeInclusive (Page.containingAddress heapStart) (Page.containingAddress heapEnd))

/-- The loop of `init_heap`. -/
def mapPages : List Page → ExceptT (Option MapToError) (BootM σ) Unit
  | [] => pure ()
  | page :: rest => do
    allocateAndMap mapper page (present ||| writable)
    mapPages rest

/-- A frame for each page of the heap, then the heap. -/
def initHeap : ExceptT MapToError (BootM σ) Unit := do
  let pages ← (lift Halt.panic heapRange : BootM σ (List Page))
  ExceptT.adapt (·.getD .frameAllocationFailed) (mapPages mapper pages)
  modify fun s => { s with machine := { s.machine with heap := some (heapStart, heapSize) } }

/-- The flags of code and stack of ring 3. -/
def userFlags : UInt64 := present ||| writable ||| userAccessible

/-- The pages of `init_memory`. -/
def mapUserPages : ExceptT String (BootM σ) Unit := do
  mapPageWithFlags mapper userCodeStart userFlags
  mapPageWithFlags mapper userStackStart userFlags
  mapPageWithFlags mapper (userStackStart + 0x1000) userFlags

/-- `usermode::init_memory`. -/
def initMemory : ExceptT String (BootM σ) Unit := do
  mapUserPages mapper
  (inWorld (modify fun w => { w with
    userMem := writeDemoCode w.userMem userIntDemoCode
    userModeContext := some { entry := userCodeStart, stackTop := userStackTop } }) : BootM σ Unit)

end Parts

/-! ## What is expected of the crate -/

/-- The page has been mapped to the frame, and no other page has changed. -/
structure Mapper.Maps (mapper : Mapper σ) (page : Page) (frame : PhysFrame) (tables tables' : σ) :
    Prop where
  free : mapper.frameOf tables page = none
  mapped : mapper.frameOf tables' page = some frame
  others : ∀ other, other ≠ page → mapper.frameOf tables' other = mapper.frameOf tables other

/-- The frames that the allocator still has behind `next`. -/
def leftOver (regions : List MemoryRegion) (next : ℕ) : List PhysFrame := (frames regions).drop next

/-- What `map_to` promises. The page tables and the pages they map `owns` frames; the frame for the
page and those that are left over are not among them. Up to three tables are new. A page that is
mapped already is refused, and a call without success leaves all pages as they are. -/
structure Mapper.Lawful (mapper : Mapper σ) (owns : σ → PhysFrame → Prop)
    (regions : List MemoryRegion) : Prop where
  mapTo : ∀ {tables : σ} {page : Page} {frame : PhysFrame} {flags : UInt64} {next : ℕ},
    flags &&& present ≠ 0 → next + 3 < 2 ^ 64 →
    ¬ owns tables frame → frame ∉ leftOver regions next →
    (∀ other ∈ leftOver regions next, ¬ owns tables other) →
    (mapper.mapTo tables page frame flags ⟨regions, next⟩).Returns fun (result, tables', allocator') =>
      ∃ calls ≤ 3, allocator' = ⟨regions, next + calls⟩ ∧
        (∀ other, owns tables' other → owns tables other ∨ other = frame ∨
          other ∈ (leftOver regions next).take calls) ∧
        match result with
        | .ok () => mapper.Maps page frame tables tables'
        | .error _ => (∀ other, mapper.frameOf tables' other = mapper.frameOf tables other) ∧
            (mapper.frameOf tables page ≠ none ∨ (frames regions).length < next + 3)

/-! ## What mapping does -/

/-- Nothing that the allocator still has is in use. -/
structure Ready (owns : σ → PhysFrame → Prop) (regions : List MemoryRegion) (s : BootState σ) :
    Prop where
  map : s.allocator.memoryRegions = regions
  unowned : ∀ frame ∈ leftOver regions s.allocator.next, ¬ owns s.tables frame

/-- From `s` to `s'` the pages of the log have been mapped, in the order of the list and each to a
frame of its own. If not all of them have, a page of the list was mapped already or came twice, or
memory was short: a page costs at most four frames. -/
structure Attempted (mapper : Mapper σ) (owns : σ → PhysFrame → Prop) (regions : List MemoryRegion)
    (pages : List Page) (s s' : BootState σ) (log : List (Page × PhysFrame)) (done : Bool) :
    Prop where
  ready : Ready owns regions s'
  binds : Binds (mapper.frameOf s.tables) (mapper.frameOf s'.tables) log
  drawn : Drawn (frames regions) s.allocator.next s'.allocator.next (log.map Prod.snd)
  cost : s'.allocator.next ≤ s.allocator.next + 4 * pages.length
  inOrder : (log.map Prod.fst).Sublist pages
  complete : done = true ↔ log.length = pages.length
  excuse : done = false → (∃ page ∈ pages, mapper.frameOf s.tables page ≠ none) ∨ ¬ pages.Nodup ∨
    (frames regions).length < s.allocator.next + 4 * pages.length

/-- The program maps the pages, and does nothing to the machine but that. -/
def Attempts (mapper : Mapper σ) (owns : σ → PhysFrame → Prop) (regions : List MemoryRegion)
    (pages : List Page) {ε α : Type} (x : ExceptT ε (BootM σ) α) : Prop :=
  ∀ s, Ready owns regions s → s.allocator.next + 4 * pages.length < 2 ^ 64 →
    ∃ result s' log, x.run.run s = .ok result s' ∧ s'.machine = s.machine ∧
      Attempted mapper owns regions pages s s' log result.isOk

section

variable {mapper : Mapper σ} {owns : σ → PhysFrame → Prop} {regions : List MemoryRegion}
  {pages pages' : List Page} {s s' s'' : BootState σ} {log log' : List (Page × PhysFrame)}
  {done done' : Bool}

theorem Attempted.refl (h : Ready owns regions s) :
    Attempted mapper owns regions [] s s [] true where
  ready := h
  binds := Binds.nil fun _ => rfl
  drawn := Drawn.nil (Nat.le_refl _)
  cost := Nat.le_refl _
  inOrder := List.Sublist.refl _
  complete := by simp
  excuse h := by cases h

/-- A page has not been mapped. -/
theorem Attempted.refused {page : Page} (hready : Ready owns regions s')
    (hsame : ∀ other, mapper.frameOf s'.tables other = mapper.frameOf s.tables other)
    (hle : s.allocator.next ≤ s'.allocator.next) (hcost : s'.allocator.next ≤ s.allocator.next + 4)
    (h : mapper.frameOf s.tables page ≠ none ∨ (frames regions).length < s.allocator.next + 4) :
    Attempted mapper owns regions [page] s s' [] false where
  ready := hready
  binds := Binds.nil hsame
  drawn := Drawn.nil hle
  cost := hcost
  inOrder := List.nil_sublist _
  complete := by simp
  excuse _ := by
    rcases h with hmapped | hshort
    · exact Or.inl ⟨page, List.mem_singleton_self page, hmapped⟩
    · exact Or.inr (Or.inr hshort)

/-- One list after the other, also when the first one has not been mapped as a whole. -/
theorem Attempted.append (h : Attempted mapper owns regions pages s s' log done)
    (h' : Attempted mapper owns regions pages' s' s'' log' done') :
    Attempted mapper owns regions (pages ++ pages') s s'' (log ++ log') (done && done') where
  ready := h'.ready
  binds := h.binds.append h'.binds
  drawn := by
    rw [List.map_append]
    exact h.drawn.append h'.drawn
  cost := by
    have hcost := h.cost
    have hcost' := h'.cost
    rw [List.length_append]
    omega
  inOrder := by
    rw [List.map_append]
    exact h.inOrder.append h'.inOrder
  complete := by
    have hlength := h.inOrder.length_le
    have hlength' := h'.inOrder.length_le
    rw [List.length_map] at hlength hlength'
    rw [Bool.and_eq_true, h.complete, h'.complete, List.length_append, List.length_append]
    omega
  excuse hdone := by
    have hcost := h.cost
    rw [List.length_append]
    -- what was in the way is in the way of both lists together
    rcases (Bool.and_eq_false_iff.mp hdone) with hfirst | hsecond
    · rcases h.excuse hfirst with ⟨page, hpage, hmapped⟩ | htwice | hshort
      · exact Or.inl ⟨page, List.mem_append_left _ hpage, hmapped⟩
      · refine Or.inr (Or.inl fun hnodup => htwice ?_)
        exact (List.nodup_append.mp hnodup).1
      · refine Or.inr (Or.inr ?_)
        omega
    · rcases h'.excuse hsecond with ⟨page, hpage, hmapped⟩ | htwice | hshort
      · by_cases hlog : page ∈ log.map Prod.fst
        · -- the page has been mapped by the first list
          refine Or.inr (Or.inl fun hnodup => ?_)
          exact (List.nodup_append'.mp hnodup).2.2 (h.inOrder.subset hlog) hpage
        · rw [h.binds.others page hlog] at hmapped
          exact Or.inl ⟨page, List.mem_append_right _ hpage, hmapped⟩
      · refine Or.inr (Or.inl fun hnodup => htwice ?_)
        exact (List.nodup_append.mp hnodup).2.1
      · refine Or.inr (Or.inr ?_)
        omega

/-- After an error the rest is left out. -/
theorem Attempted.stopped (h : Attempted mapper owns regions pages s s' log false)
    (pages' : List Page) : Attempted mapper owns regions (pages ++ pages') s s' log false where
  ready := h.ready
  binds := h.binds
  drawn := h.drawn
  cost := by
    have hcost := h.cost
    rw [List.length_append]
    omega
  inOrder := h.inOrder.trans (List.sublist_append_left _ _)
  complete := by
    -- a page of the first list is missing, so one of all is
    have hlength := h.inOrder.length_le
    have hless := h.complete
    rw [List.length_map] at hlength
    rw [List.length_append]
    simp only [Bool.false_eq_true, false_iff] at hless ⊢
    omega
  excuse _ := by
    rw [List.length_append]
    rcases h.excuse rfl with ⟨page, hpage, hmapped⟩ | htwice | hshort
    · exact Or.inl ⟨page, List.mem_append_left _ hpage, hmapped⟩
    · refine Or.inr (Or.inl fun hnodup => htwice ?_)
      exact (List.nodup_append.mp hnodup).1
    · refine Or.inr (Or.inr ?_)
      omega

/-- A program without pages. -/
theorem Attempts.pure {ε α : Type} (a : α) :
    Attempts mapper owns regions [] (Pure.pure a : ExceptT ε (BootM σ) α) :=
  fun s hs _ => ⟨.ok a, s, [], rfl, rfl, Attempted.refl hs⟩

/-- One attempt after the other; their pages add up. -/
theorem Attempts.bind {ε α β : Type} {x : ExceptT ε (BootM σ) α} {f : α → ExceptT ε (BootM σ) β}
    (hx : Attempts mapper owns regions pages x)
    (hf : ∀ a, Attempts mapper owns regions pages' (f a)) :
    Attempts mapper owns regions (pages ++ pages') (x >>= f) := by
  intro s hs hlimit
  rw [List.length_append] at hlimit
  rcases hx s hs (by omega) with ⟨result, s', log, hrun, hmachine, hlog⟩
  cases result with
  | error error =>
    exact ⟨.error error, s', log, run_exceptBind_error hrun f, hmachine, hlog.stopped pages'⟩
  | ok a =>
    have hcost := hlog.cost
    rcases hf a s' hlog.ready (by omega) with ⟨result', s'', log', hrun', hmachine', hlog'⟩
    exact ⟨result', s'', log ++ log', (run_exceptBind_ok hrun).trans hrun',
      hmachine'.trans hmachine, hlog.append hlog'⟩

theorem run_adapt {ε ε' α : Type} {x : ExceptT ε (BootM σ) α} {result : Except ε α}
    (hx : x.run.run s = .ok result s') (g : ε → ε') :
    (ExceptT.adapt g x).run.run s = .ok (result.mapError g) s' := by
  change (x.run >>= fun a => Pure.pure (a.mapError g)).run s = _
  rw [run_bind_ok hx]
  rfl

/-- Another name for the errors. -/
theorem Attempts.adapt {ε ε' α : Type} {x : ExceptT ε (BootM σ) α} (g : ε → ε')
    (hx : Attempts mapper owns regions pages x) :
    Attempts mapper owns regions pages (ExceptT.adapt g x) := by
  intro s hs hlimit
  rcases hx s hs hlimit with ⟨result, s', log, hrun, hmachine, hlog⟩
  refine ⟨result.mapError g, s', log, run_adapt hrun g, hmachine, ?_⟩
  cases result with
  | ok a => exact hlog
  | error error => exact hlog

/-- A program without errors, inside one with errors. -/
theorem run_exceptLift_bind {ε α β : Type} {x : BootM σ α} {a : α} (hx : x.run s = .ok a s')
    (f : α → ExceptT ε (BootM σ) β) :
    ((x : ExceptT ε (BootM σ) α) >>= f).run.run s = (f a).run.run s' := by
  change ((x >>= fun a => Pure.pure (Except.ok a)) >>= ExceptT.bindCont f : BootM σ _).run s = _
  have hok : (x >>= fun a => Pure.pure (Except.ok a) : BootM σ (Except ε α)).run s =
      .ok (.ok a) s' := by
    rw [run_bind_ok hx]
    rfl
  rw [run_bind_ok hok]
  rfl

/-- A checked computation that does not panic. -/
theorem Attempts.lift {ε α β : Type} {y : Checked α} {a : α} (hy : y = .ok a)
    {f : α → ExceptT ε (BootM σ) β} (hf : Attempts mapper owns regions pages (f a)) :
    Attempts mapper owns regions pages
      ((Hoare.lift Halt.panic y : BootM σ α) >>= f : ExceptT ε (BootM σ) β) := by
  subst hy
  exact hf

/-! ## One page -/

/-- A call of the allocator. -/
theorem allocateFrame_run (hmap : PageMap regions) (hs : s.allocator.memoryRegions = regions)
    (hlimit : s.allocator.next + 1 < 2 ^ 64) :
    (allocateFrame : BootM σ (Option PhysFrame)).run s =
      .ok (frames regions)[s.allocator.next]?
        { s with allocator := ⟨regions, s.allocator.next + 1⟩ } := by
  have hallocator : s.allocator = ⟨regions, s.allocator.next⟩ := by
    rw [← hs]
  have hcall := allocateFrame_eq hmap.below hlimit
  rw [← hallocator] at hcall
  change (lift Halt.panic s.allocator.allocateFrame >>= _ : BootM σ _) s = _
  rw [hcall]
  rfl

/-- A call of the crate. -/
theorem mapTo_run {page : Page} {frame : PhysFrame} {flags : UInt64}
    {result : Except MapToError Unit} {tables : σ} {allocator : BootInfoFrameAllocator}
    (hcall : mapper.mapTo s.tables page frame flags s.allocator = .ok (result, tables, allocator)) :
    (mapTo mapper page frame flags).run s = .ok result { s with tables, allocator } := by
  change (lift Halt.panic (mapper.mapTo s.tables page frame flags s.allocator) >>= _ : BootM σ _) s =
    _
  rw [hcall]
  rfl

variable (hmap : PageMap regions) (hlawful : mapper.Lawful owns regions)
include hmap

/-- Nothing comes back from the allocator. -/
theorem notMem_leftOver {next : ℕ} {frame : PhysFrame} (h : (frames regions)[next]? = some frame) :
    frame ∉ leftOver regions (next + 1) := by
  have hnodup : (frames regions).Nodup := by
    rw [frames_eq hmap]
    exact nodup_usableFrames hmap
  rcases List.getElem?_eq_some_iff.mp h with ⟨hlt, rfl⟩
  have hdrop := List.drop_eq_getElem_cons hlt
  have hsuffix : ((frames regions).drop next).Nodup := hnodup.sublist (List.drop_sublist _ _)
  rw [hdrop, List.nodup_cons] at hsuffix
  exact hsuffix.1

theorem notMem_take_of_mem_leftOver {next calls : ℕ} {frame : PhysFrame}
    (h : frame ∈ leftOver regions (next + calls)) :
    frame ∉ (leftOver regions next).take calls := by
  have hnodup : (frames regions).Nodup := by
    rw [frames_eq hmap]
    exact nodup_usableFrames hmap
  have hsuffix : (leftOver regions next).Nodup := hnodup.sublist (List.drop_sublist _ _)
  rw [← List.take_append_drop calls (leftOver regions next), List.nodup_append'] at hsuffix
  intro htake
  refine hsuffix.2.2 htake ?_
  unfold leftOver at h ⊢
  rwa [List.drop_drop]

include hlawful

/-- **One page.** It costs a frame for itself and up to three for page tables. -/
theorem allocateAndMap_attempts (page : Page) {flags : UInt64} (hflags : flags &&& present ≠ 0) :
    Attempts mapper owns regions [page] (allocateAndMap mapper page flags) := by
  intro s hs hlimit
  rw [List.length_singleton] at hlimit
  have hallocate := allocateFrame_run (σ := σ) hmap hs.map (by omega)
  -- the frames that are left over later are left over now
  have hrest : ∀ {next : ℕ}, s.allocator.next ≤ next → ∀ frame ∈ leftOver regions next,
      frame ∈ leftOver regions s.allocator.next := by
    intro next hle frame hframe
    unfold leftOver at hframe ⊢
    rw [← Nat.sub_add_cancel hle, Nat.add_comm, ← List.drop_drop] at hframe
    exact List.mem_of_mem_drop hframe
  cases hnext : (frames regions)[s.allocator.next]? with
  -- no frame: the call was made for nothing
  | none =>
    rw [hnext] at hallocate
    let s' : BootState σ := { s with allocator := ⟨regions, s.allocator.next + 1⟩ }
    have hrun : (allocateAndMap mapper page flags).run.run s = .ok (.error none) s' := by
      unfold allocateAndMap
      rw [run_exceptLift_bind hallocate]
      rfl
    refine ⟨.error none, s', [], hrun, rfl, Attempted.refused ⟨rfl, ?_⟩ (fun _ => rfl)
      (Nat.le_succ _) (Nat.add_le_add_left (by decide) _) (Or.inr ?_)⟩
    · intro frame hframe
      exact hs.unowned frame (hrest (Nat.le_succ _) frame hframe)
    · have hlength := List.getElem?_eq_none_iff.mp hnext
      omega
  | some frame =>
    rw [hnext] at hallocate
    have hframe : frame ∈ leftOver regions s.allocator.next := by
      rcases List.getElem?_eq_some_iff.mp hnext with ⟨hlt, rfl⟩
      unfold leftOver
      rw [List.drop_eq_getElem_cons hlt]
      exact List.mem_cons_self
    -- the frame is no one's, and neither are those that `map_to` may take
    have hpromise : (mapper.mapTo s.tables page frame flags
        ⟨regions, s.allocator.next + 1⟩).Returns _ :=
      hlawful.mapTo hflags (by omega) (hs.unowned frame hframe) (notMem_leftOver hmap hnext)
        (fun other hother => hs.unowned other (hrest (Nat.le_succ _) other hother))
    rcases hpromise with ⟨⟨result, tables', allocator'⟩, hcall, calls, hcalls, rfl, howns, hresult⟩
    let s' : BootState σ :=
      { s with tables := tables', allocator := ⟨regions, s.allocator.next + 1 + calls⟩ }
    have hrun : (allocateAndMap mapper page flags).run.run s = .ok (result.mapError some) s' := by
      unfold allocateAndMap
      rw [run_exceptLift_bind hallocate]
      exact run_adapt (x := ExceptT.mk (mapTo mapper page frame flags)) (mapTo_run hcall) some
    have hready : Ready owns regions s' := by
      refine ⟨rfl, ?_⟩
      intro other hother howned
      -- a frame that is still left over was not among those that have been taken
      have hbehind : other ∈ leftOver regions (s.allocator.next + 1) := by
        unfold leftOver at hother ⊢
        rw [← List.drop_drop] at hother
        exact List.mem_of_mem_drop hother
      rcases howns other howned with hold | rfl | hnew
      · exact hs.unowned other (hrest (Nat.le_succ _) other hbehind) hold
      · exact notMem_leftOver hmap hnext hbehind
      · exact notMem_take_of_mem_leftOver hmap hother hnew
    have hcost : s'.allocator.next ≤ s.allocator.next + 4 := by
      change s.allocator.next + 1 + calls ≤ _
      omega
    have hless : s.allocator.next < s'.allocator.next := by
      change s.allocator.next < s.allocator.next + 1 + calls
      omega
    cases result with
    | ok done =>
      refine ⟨.ok (), s', [(page, frame)], hrun, rfl, ⟨hready, ?_, ?_, hcost,
        List.Sublist.refl _, iff_of_true rfl rfl, nofun⟩⟩
      · exact Binds.single hresult.free hresult.mapped hresult.others
      · exact Drawn.single hnext hless
    | error error =>
      refine ⟨.error (some error), s', [], hrun, rfl,
        Attempted.refused hready hresult.1 (Nat.le_of_lt hless) hcost ?_⟩
      rcases hresult.2 with hmapped | hshort
      · exact Or.inl hmapped
      · refine Or.inr ?_
        omega

/-! ## The three parts -/

/-- An attempt at one page. -/
theorem mapFreePage_attempts {alreadyMapped noFrame : String} (address : VirtAddr) {flags : UInt64}
    (hflags : flags &&& present ≠ 0) :
    Attempts mapper owns regions [Page.containingAddress address]
      (mapFreePage mapper alreadyMapped noFrame address.value flags) := by
  unfold mapFreePage
  refine Attempts.lift (VirtAddr.new_of_canonical address.canonical) ?_
  intro s hs hlimit
  have hget : (get : BootM σ (BootState σ)).run s = .ok s s := rfl
  rw [run_exceptLift_bind hget]
  cases hmapped : (mapper.translateAddr s.tables
      (Page.containingAddress address).startAddress).isSome with
  | false =>
    rw [if_neg (by simp)]
    exact (allocateAndMap_attempts hmap hlawful _ hflags).adapt _ s hs hlimit
  | true =>
    rw [if_pos (by simp)]
    refine ⟨.error alreadyMapped, s, [], rfl, rfl, Attempted.refused hs (fun _ => rfl)
      (Nat.le_refl _) (Nat.le_add_right _ _) (Or.inl ?_)⟩
    unfold Mapper.translateAddr at hmapped
    rw [Page.containingAddress_startAddress, Option.isSome_map] at hmapped
    exact Option.isSome_iff_ne_none.mp hmapped

/-- An attempt at all pages, in order. -/
theorem mapPages_attempts (pages : List Page) :
    Attempts mapper owns regions pages (mapPages mapper pages) := by
  induction pages with
  | nil => exact Attempts.pure ()
  | cons page rest ih =>
    unfold mapPages
    exact (allocateAndMap_attempts hmap hlawful page (by decide)).bind fun _ => ih

end

/-- The program maps the pages. When all of them are mapped, it returns the value and changes the
rest of the machine; otherwise it leaves that alone. -/
def Finishes (mapper : Mapper σ) (owns : σ → PhysFrame → Prop) (regions : List MemoryRegion)
    (pages : List Page) {ε α : Type} (x : ExceptT ε (BootM σ) α) (value : α)
    (change : Machine → Machine) : Prop :=
  ∀ s, Ready owns regions s → s.allocator.next + 4 * pages.length < 2 ^ 64 →
    ∃ result s' log, x.run.run s = .ok result s' ∧
      Attempted mapper owns regions pages s s' log result.isOk ∧
      (∀ a, result = .ok a → a = value) ∧
      s'.machine = if result.isOk then change s.machine else s.machine

section

variable {mapper : Mapper σ} {owns : σ → PhysFrame → Prop} {regions : List MemoryRegion}
  {pages : List Page} {ε α β : Type} {value : β} {change : Machine → Machine}

/-- What follows the mapping. -/
theorem Attempts.finish {x : ExceptT ε (BootM σ) α} {f : α → ExceptT ε (BootM σ) β}
    (hx : Attempts mapper owns regions pages x)
    (hf : ∀ a s, (f a).run.run s = .ok (.ok value) { s with machine := change s.machine }) :
    Finishes mapper owns regions pages (x >>= f) value change := by
  intro s hs hlimit
  rcases hx s hs hlimit with ⟨result, s', log, hrun, hmachine, hlog⟩
  cases result with
  | error error =>
    exact ⟨.error error, s', log, run_exceptBind_error hrun f, hlog, nofun, hmachine⟩
  | ok a =>
    rw [← hmachine]
    refine ⟨.ok value, _, log, (run_exceptBind_ok hrun).trans (hf a s'), ?_, ?_, rfl⟩
    · exact ⟨⟨hlog.ready.map, hlog.ready.unowned⟩, hlog.binds, hlog.drawn, hlog.cost, hlog.inOrder,
        hlog.complete, hlog.excuse⟩
    · intro b hb
      exact (Except.ok.inj hb).symm

theorem Finishes.lift {y : Checked α} {a : α} (hy : y = .ok a) {f : α → ExceptT ε (BootM σ) β}
    (hf : Finishes mapper owns regions pages (f a) value change) :
    Finishes mapper owns regions pages
      ((Hoare.lift Halt.panic y : BootM σ α) >>= f : ExceptT ε (BootM σ) β) value change := by
  subst hy
  exact hf

end

/-- The page of `map_demo_page`. -/
def demoPage : Page := Page.containingAddress ⟨demoPageStart, by decide⟩

/-- The pages of `init_heap`. -/
def heapPages : List Page :=
  Page.rangeInclusive (Page.containingAddress ⟨heapStart, by decide⟩)
    (Page.containingAddress ⟨heapStart + (heapSize - 1), by decide⟩)

/-- The pages of `usermode::init_memory`. -/
def userPages : List Page :=
  [Page.containingAddress ⟨userCodeStart, by decide⟩,
    Page.containingAddress ⟨userStackStart, by decide⟩,
    Page.containingAddress ⟨userStackStart + 0x1000, by decide⟩]

/-- All pages that boot asks for. -/
def bootPages : List Page := [demoPage] ++ (heapPages ++ userPages)

theorem heapRange_eq : heapRange = .ok heapPages := by
  have hend : VirtAddr.add ⟨heapStart, by decide⟩ (heapSize - 1) =
      .ok ⟨heapStart + (heapSize - 1), by decide⟩ := by decide
  unfold heapRange
  rw [VirtAddr.new_of_canonical (by decide), ok_bind, hend]
  rfl

theorem nodup_bootPages : bootPages.Nodup := by
  have hstarts : (bootPages.map fun page => page.startAddress.value).Nodup := by decide
  exact hstarts.of_map _

theorem length_bootPages : bootPages.length = 29 := by decide

section

variable {mapper : Mapper σ} {owns : σ → PhysFrame → Prop} {regions : List MemoryRegion}
  (hmap : PageMap regions) (hlawful : mapper.Lawful owns regions)
include hmap hlawful

/-- The demo page, with its word. -/
theorem mapDemoPage_finishes :
    Finishes mapper owns regions [demoPage] (mapDemoPage mapper) demoPageValue
      fun m => { m with world := { m.world with
        userMem := setWord m.world.userMem demoPageStart demoPageValue } } := by
  refine Attempts.finish (mapFreePage_attempts hmap hlawful ⟨demoPageStart, by decide⟩ (by decide)) ?_
  intro _ s
  change EStateM.Result.ok (Except.ok (word
    (setWord s.machine.world.userMem demoPageStart demoPageValue) demoPageStart)) _ = _
  rw [word_setWord]

theorem initHeap_finishes :
    Finishes mapper owns regions heapPages (initHeap mapper) ()
      fun m => { m with heap := some (heapStart, heapSize) } := by
  refine Finishes.lift heapRange_eq ?_
  exact ((mapPages_attempts hmap hlawful heapPages).adapt _).finish fun _ _ => rfl

theorem initMemory_finishes :
    Finishes mapper owns regions userPages (initMemory mapper) ()
      fun m => { m with world := { m.world with
        userMem := writeDemoCode m.world.userMem userIntDemoCode
        userModeContext := some ⟨userCodeStart, userStackTop⟩ } } := by
  refine Attempts.finish ?_ (fun _ _ => rfl)
  have hone : ∀ address : VirtAddr, Attempts mapper owns regions [Page.containingAddress address]
      (mapPageWithFlags mapper address.value userFlags) :=
    fun address => mapFreePage_attempts hmap hlawful address (by decide)
  unfold mapUserPages
  exact (hone ⟨userCodeStart, by decide⟩).bind fun _ =>
    (hone ⟨userStackStart, by decide⟩).bind fun _ => hone ⟨userStackStart + 0x1000, by decide⟩

end

/-! ## Page tables with a frame for each table -/

/-- Page tables by what they hold: each table, below the root, under its level and the number of
its first page in units of what it covers; and the pages. -/
structure TableTree where
  tables : List ((ℕ × ℕ) × PhysFrame)
  pages : List (Page × PhysFrame)

namespace TableTree

def frameOf (t : TableTree) (page : Page) : Option PhysFrame :=
  (t.pages.find? (·.1 = page)).map Prod.snd

/-- The tables on the way to a page. -/
def path (page : Page) : List (ℕ × ℕ) :=
  [3, 2, 1].map fun level =>
    (level, page.startAddress.value.toNat / frameSize / 512 ^ level)

/-- The tables that are missing are made; memory may end on the way. -/
def ensure : List (ℕ × ℕ) → TableTree → BootInfoFrameAllocator →
    Checked (Bool × TableTree × BootInfoFrameAllocator)
  | [], t, allocator => pure (true, t, allocator)
  | key :: rest, t, allocator =>
    if t.tables.any (·.1 = key) then ensure rest t allocator
    else do
      let (frame, allocator) ← allocator.allocateFrame
      match frame with
      | none => pure (false, t, allocator)
      | some frame => ensure rest { t with tables := (key, frame) :: t.tables } allocator

def mapTo (t : TableTree) (page : Page) (frame : PhysFrame) (_flags : UInt64)
    (allocator : BootInfoFrameAllocator) :
    Checked (Except MapToError Unit × TableTree × BootInfoFrameAllocator) := do
  let (found, t, allocator) ← ensure (path page) t allocator
  if found = false then pure (.error .frameAllocationFailed, t, allocator)
  else
    match t.frameOf page with
    | some old => pure (.error (.pageAlreadyMapped old), t, allocator)
    | none => pure (.ok (), { t with pages := (page, frame) :: t.pages }, allocator)

def mapper : Mapper TableTree := { frameOf, mapTo }

/-- The frame is one of the tree's, as a table or as a page. -/
def Owns (t : TableTree) (frame : PhysFrame) : Prop :=
  frame ∈ t.tables.map Prod.snd ∨ frame ∈ t.pages.map Prod.snd

variable {regions : List MemoryRegion} (hmap : PageMap regions)
include hmap

/-- The tables on the way to a page: a frame for each that was missing, unless the frames run out.
-/
theorem ensure_returns (keys : List (ℕ × ℕ)) (t : TableTree) {next : ℕ}
    (hlimit : next + keys.length < 2 ^ 64) :
    (ensure keys t ⟨regions, next⟩).Returns fun (found, t', allocator') =>
      ∃ calls ≤ keys.length, allocator' = ⟨regions, next + calls⟩ ∧ t'.pages = t.pages ∧
        (∀ frame ∈ t'.tables.map Prod.snd, frame ∈ t.tables.map Prod.snd ∨
          frame ∈ (leftOver regions next).take calls) ∧
        (found = false → (frames regions).length < next + keys.length) := by
  induction keys generalizing t next with
  | nil => exact Returns.pure ⟨0, Nat.le_refl _, rfl, rfl, fun _ => Or.inl, nofun⟩
  | cons key rest ih =>
    rw [List.length_cons] at hlimit ⊢
    unfold ensure
    split
    · -- the table is there
      refine (ih t (by omega)).mono ?_
      rintro ⟨found, t', allocator'⟩ ⟨calls, hcalls, hallocator, hpages, htables, hshort⟩
      refine ⟨calls, by omega, hallocator, hpages, htables, fun hfound => ?_⟩
      have hlength := hshort hfound
      omega
    · rw [allocateFrame_eq hmap.below (by omega), ok_bind]
      cases hnext : (frames regions)[next]? with
      -- no frame for the table: memory is exhausted
      | none =>
        refine Returns.pure ⟨1, by omega, rfl, rfl, fun _ => Or.inl, fun _ => ?_⟩
        have hlength := List.getElem?_eq_none_iff.mp hnext
        omega
      | some frame =>
        -- the table gets the next frame
        have hhead : leftOver regions next = frame :: leftOver regions (next + 1) := by
          rcases List.getElem?_eq_some_iff.mp hnext with ⟨hlt, rfl⟩
          exact List.drop_eq_getElem_cons hlt
        refine (ih _ (by omega)).mono ?_
        rintro ⟨found, t', allocator'⟩ ⟨calls, hcalls, rfl, hpages, htables, hshort⟩
        refine ⟨calls + 1, by omega, ?_, hpages, ?_, fun hfound => ?_⟩
        · rw [Nat.add_assoc, Nat.add_comm 1]
        · intro other hother
          rw [hhead, List.take_succ_cons]
          rcases htables other hother with hold | hnew
          · rcases List.mem_cons.mp hold with rfl | hold
            · exact Or.inr List.mem_cons_self
            · exact Or.inl hold
          · exact Or.inr (List.mem_cons_of_mem _ hnew)
        · have hlength := hshort hfound
          omega

omit hmap in
theorem frameOf_cons (t : TableTree) (page other : Page) (frame : PhysFrame) :
    frameOf { t with pages := (page, frame) :: t.pages } other =
      if page = other then some frame else t.frameOf other := by
  unfold frameOf
  by_cases hsame : page = other
  · rw [List.find?_cons_of_pos (by simpa using hsame), if_pos hsame]
    rfl
  · rw [List.find?_cons_of_neg (by simpa using hsame), if_neg hsame]

/-- The tree of tables behaves as a mapper has to. -/
theorem mapper_lawful : mapper.Lawful Owns regions where
  mapTo := by
    intro t page frame flags next _ hlimit howns hframe hrest
    have hensure : (ensure (path page) t ⟨regions, next⟩).Returns _ :=
      ensure_returns hmap (path page) t hlimit
    change (mapTo t page frame flags ⟨regions, next⟩).Returns _
    unfold mapTo
    refine hensure.bind ?_
    rintro ⟨found, t', allocator'⟩ ⟨calls, hcalls, rfl, hpages, htables, hshort⟩
    have hsame : ∀ other, t'.frameOf other = t.frameOf other := by
      intro other
      unfold frameOf
      rw [hpages]
    -- the new tables own the frames that were taken for them
    have hfrom : ∀ other, t'.Owns other → t.Owns other ∨ other = frame ∨
        other ∈ (leftOver regions next).take calls := by
      intro other howned
      unfold Owns at howned
      rw [hpages] at howned
      rcases howned with htable | hpage
      · rcases htables other htable with hold | hnew
        · exact Or.inl (Or.inl hold)
        · exact Or.inr (Or.inr hnew)
      · exact Or.inl (Or.inr hpage)
    cases found with
    | false => exact Returns.pure ⟨calls, hcalls, rfl, hfrom, hsame, Or.inr (hshort rfl)⟩
    | true =>
      simp only [Bool.true_eq_false, if_false]
      cases hold : t'.frameOf page with
      -- the page is mapped already
      | some old =>
        refine Returns.pure ⟨calls, hcalls, rfl, hfrom, hsame, Or.inl ?_⟩
        change t.frameOf page ≠ none
        rw [← hsame, hold]
        simp
      | none =>
        -- it is free, and gets the frame
        refine Returns.pure ⟨calls, hcalls, rfl, ?_, ?_, ?_, ?_⟩
        · intro other howned
          rcases howned with htable | hpage
          · exact hfrom other (Or.inl htable)
          · rcases List.mem_cons.mp hpage with rfl | hpage
            · exact Or.inr (Or.inl rfl)
            · exact hfrom other (Or.inr hpage)
        · exact (hsame page).symm.trans hold
        · exact (frameOf_cons t' page page frame).trans (if_pos rfl)
        · intro other hother
          refine (frameOf_cons t' page other frame).trans ?_
          rw [if_neg (Ne.symm hother)]
          exact hsame other

end TableTree

end JingOS.Startup
