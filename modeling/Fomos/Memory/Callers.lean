import Mathlib
import Fomos.Memory.FrameAllocator

/-!
# The callers of the frame allocator

Whoever wants frames holds the allocator's lock and calls `allocate_frame`, also from within
`map_to` for the page tables. So a caller is a program of calls, and the callers run one after the
other. The page tables and `map_to` belong to another crate and are a parameter.
-/
namespace Fomos

/-- A program that calls `allocate_frame`. -/
abbrev FrameCalls := Calls.{0, 0} (Option PhysFrame)

/-- A 4 KiB page. -/
structure Page where
  startAddress : ℕ
  deriving DecidableEq, Repr

/-- `VirtAddr::new` extends bit 47 and panics on other numbers that are not canonical. -/
def VirtAddr.new (addr : ℕ) : Option ℕ :=
  if addr / 2 ^ 47 = 0 ∨ addr / 2 ^ 47 = 2 ^ 17 - 1 then some addr
  else if addr / 2 ^ 47 = 1 then some (addr + (2 ^ 64 - 2 ^ 48))
  else none

def Page.containingAddress (addr : ℕ) : Page := ⟨addr / 4096 * 4096⟩

inductive MapToError
  | frameAllocationFailed
  | parentEntryHugePage
  | pageAlreadyMapped (frame : PhysFrame)

/-- `PRESENT | WRITABLE | USER_ACCESSIBLE` -/
def pageTableFlags : ℕ := 1 ||| 2 ||| 4

namespace FrameCalls
variable {M : Type}

def allocateFrame : FrameCalls (Option PhysFrame) := .call .ret

/-- The value of an option, or a panic. -/
def unwrap {α : Type} : Option α → FrameCalls α
  | some a => pure a
  | none => .panic

/-- The value of a result, or a panic on an error. -/
def unwrapOk {ε α : Type} : Except ε α → FrameCalls α
  | .ok a => pure a
  | .error _ => .panic

section MapTo
-- `map_to` changes the page tables `M` and may allocate frames for new ones.
variable (mapTo : Page → PhysFrame → ℕ → M → FrameCalls (Except MapToError Unit × M))

def createIdentityVirtFromPhys (m : M) : FrameCalls (Except MapToError Page × M) := do
  let frame ← allocateFrame >>= unwrap
  let start ← unwrap (VirtAddr.new frame.startAddress)
  let page := Page.containingAddress start
  let (result, m) ← mapTo page frame pageTableFlags m
  return (result.map fun _ => page, m)

/-- The loop of `create_identity_virt_from_phys_n` that takes `count` more frames and panics when
one is not where the `i`th has to be. -/
def takeContiguous (first : PhysFrame) : ℕ → ℕ → FrameCalls Unit
  | 0, _ => pure ()
  | count + 1, i => do
    let frame ← allocateFrame >>= unwrap
    if (first.startAddress + i * 4096) % 2 ^ 64 ≠ frame.startAddress then .panic
    else takeContiguous first count (i + 1)

/-- The loop of `create_identity_virt_from_phys_n` that maps the frames, up to the first error. -/
def mapContiguous (first : PhysFrame) : ℕ → ℕ → M → FrameCalls (Except MapToError Unit × M)
  | 0, _, m => pure (.ok (), m)
  | count + 1, i, m => do
    let addr := (first.startAddress + i * 4096) % 2 ^ 64
    let phys ← unwrap (PhysAddr.new addr)
    let virt ← unwrap (VirtAddr.new addr)
    let page := Page.containingAddress virt
    let (result, m) ← mapTo page (.containingAddress phys) pageTableFlags m
    match result with
    | .ok () => mapContiguous first count (i + 1) m
    | .error e => pure (.error e, m)

def createIdentityVirtFromPhysN (pages : ℕ) (m : M) : FrameCalls (Except MapToError Page × M) := do
  let first ← allocateFrame >>= unwrap
  takeContiguous first (pages - 1) 1
  let (result, m) ← mapContiguous mapTo first pages 0 m
  match result with
  | .error e => pure (.error e, m)
  | .ok () =>
    let start ← unwrap (VirtAddr.new first.startAddress)
    return (.ok (Page.containingAddress start), m)

def heapStart : ℕ := 0x444444440000
def heapSize : ℕ := 128 * 1024 * 1024

/-- The loop of `init_heap` over the pages of the heap, up to the first error. -/
def mapPages : List Page → M → FrameCalls (Except MapToError Unit × M)
  | [], m => pure (.ok (), m)
  | page :: pages, m => do
    match ← allocateFrame with
    | none => pure (.error .frameAllocationFailed, m)
    | some frame =>
      let (result, m) ← mapTo page frame pageTableFlags m
      match result with
      | .ok () => mapPages pages m
      | .error e => pure (.error e, m)

def initHeap (m : M) : FrameCalls (Except MapToError Unit × M) :=
  let heapStartPage := Page.containingAddress heapStart
  let heapEndPage := Page.containingAddress (heapStart + heapSize - 1)
  let pageRange := Iter.stepBy heapStartPage.startAddress (heapEndPage.startAddress + 1) 4096
  mapPages mapTo (pageRange.map Page.mk) m

/-- The descriptor buffers of a queue, one after the other. -/
def queueBuffers : ℕ → M → FrameCalls (List ℕ × M)
  | 0, m => pure ([], m)
  | size + 1, m => do
    let (page, m) ← createIdentityVirtFromPhys mapTo m
    let page ← unwrapOk page
    let (addrs, m) ← queueBuffers size m
    return (page.startAddress :: addrs, m)

/-- The frames of one queue in `Virtio::init`: for the descriptor table, for the buffer of each
descriptor, and for the two rings. -/
def initQueue (size : ℕ) (m : M) : FrameCalls ((ℕ × List ℕ × ℕ × ℕ) × M) := do
  let (desc, m) ← createIdentityVirtFromPhys mapTo m
  let desc ← unwrapOk desc
  let (addrs, m) ← queueBuffers mapTo size m
  let (driver, m) ← createIdentityVirtFromPhys mapTo m
  let driver ← unwrapOk driver
  let (device, m) ← createIdentityVirtFromPhys mapTo m
  let device ← unwrapOk device
  return ((desc.startAddress, addrs, driver.startAddress, device.startAddress), m)

end MapTo
end FrameCalls

open FrameCalls

/-- Who calls the allocator while the kernel runs. Another caller may be any program. -/
inductive Caller (M : Type)
  | initHeap
  | initQueue (size : ℕ)
  | framebuffer (pages : ℕ)
  | other (program : M → FrameCalls M)

/-- What a caller does, with the panics on a failure. -/
def Caller.program {M : Type}
    (mapTo : Page → PhysFrame → ℕ → M → FrameCalls (Except MapToError Unit × M)) :
    Caller M → M → FrameCalls M
  | initHeap, m => do
    let (result, m) ← FrameCalls.initHeap mapTo m
    unwrapOk result
    return m
  | initQueue size, m => do
    let (_, m) ← FrameCalls.initQueue mapTo size m
    return m
  | framebuffer pages, m => do
    let (page, m) ← createIdentityVirtFromPhysN mapTo pages m
    let _ ← unwrapOk page
    return m
  | other program, m => program m

/-- The callers one after the other. -/
def callAll {M : Type}
    (mapTo : Page → PhysFrame → ℕ → M → FrameCalls (Except MapToError Unit × M)) :
    List (Caller M) → M → FrameCalls M
  | [], m => pure m
  | caller :: callers, m => caller.program mapTo m >>= callAll mapTo callers

section Runs
variable {M : Type} {mapTo : Page → PhysFrame → ℕ → M → FrameCalls (Except MapToError Unit × M)}
  {serve : BootInfoFrameAllocator → Option (Option PhysFrame × BootInfoFrameAllocator)}
  {first : PhysFrame} {pages : ℕ}

theorem callAll_append (callers callers' : List (Caller M)) (m : M) :
    callAll mapTo (callers ++ callers') m =
      callAll mapTo callers m >>= callAll mapTo callers' := by
  induction callers generalizing m with
  | nil => rfl
  | cons caller callers ih =>
    change caller.program mapTo m >>= callAll mapTo (callers ++ callers') = _
    rw [funext ih]
    exact (Calls.bind_assoc _ _ _).symm

namespace FrameCalls

lemma ensures_unwrap {α : Type} (o : Option α) :
    Calls.Ensures serve (unwrap o) fun rs a => rs = [] ∧ o = some a := by
  cases o with
  | none => exact .panic
  | some a => exact .ret ⟨rfl, rfl⟩

lemma ensures_allocateFrame : Calls.Ensures serve allocateFrame fun rs reply => rs = [reply] :=
  .call fun _ => .ret rfl

lemma ensures_take :
    Calls.Ensures serve (allocateFrame >>= unwrap) fun rs frame => rs = [some frame] := by
  refine .bind ensures_allocateFrame ?_
  rintro _ reply rfl
  refine (ensures_unwrap reply).mono ?_
  rintro _ frame ⟨rfl, rfl⟩
  rfl

/-- The frames from the `i`th on follow one another. -/
def Contiguous (first : PhysFrame) : ℕ → List PhysFrame → Prop
  | _, [] => True
  | i, f :: fs => (first.startAddress + i * 4096) % 2 ^ 64 = f.startAddress ∧
      Contiguous first (i + 1) fs

lemma Contiguous.frame {i j : ℕ} {fs : List PhysFrame} (h : Contiguous first i fs)
    (hi : first.startAddress + i * 4096 < 2 ^ 52 + 4096) (hj : j < fs.length) :
    ∃ f : PhysFrame, f.startAddress = first.startAddress + (i + j) * 4096 ∧ fs[j]? = some f := by
  induction fs generalizing i j with
  | nil => exact absurd hj (Nat.not_lt_zero j)
  | cons f fs ih =>
    obtain ⟨hf, hfs⟩ := h
    -- the address does not wrap, since the frame before it is below 2 ^ 52
    have hwrap : first.startAddress + i * 4096 < 2 ^ 64 := by omega
    rw [Nat.mod_eq_of_lt hwrap] at hf
    have hnext : first.startAddress + (i + 1) * 4096 < 2 ^ 52 + 4096 := by
      rw [Nat.succ_mul, ← Nat.add_assoc, hf]
      exact Nat.add_lt_add_right f.lt 4096
    cases j with
    | zero => exact ⟨f, hf.symm, rfl⟩
    | succ j =>
      obtain ⟨g, hg, hget⟩ := ih hfs hnext (Nat.lt_of_succ_lt_succ hj)
      exact ⟨g, by rw [hg, Nat.add_right_comm, Nat.add_assoc], hget⟩

/-- The frames that the loop takes follow one another. -/
lemma takeContiguous_ensures (first : PhysFrame) (count i : ℕ) :
    Calls.Ensures serve (takeContiguous first count i) fun rs _ =>
      ∃ fs : List PhysFrame, rs = fs.map some ∧ fs.length = count ∧ Contiguous first i fs := by
  induction count generalizing i with
  | zero => exact .ret ⟨[], rfl, rfl, trivial⟩
  | succ count ih =>
    rw [takeContiguous]
    refine .bind ensures_take ?_
    rintro _ frame rfl
    split
    · exact .panic
    · rename_i hsame
      refine (ih (i + 1)).mono ?_
      rintro rs u ⟨fs, rfl, hlen, hfs⟩
      exact ⟨frame :: fs, rfl, by rw [List.length_cons, hlen], not_not.mp hsame, hfs⟩

/-- When `create_identity_virt_from_phys_n` succeeds, its frames follow one another. -/
lemma createIdentityVirtFromPhysN_ensures (m : M) :
    Calls.Ensures serve (createIdentityVirtFromPhysN mapTo pages m) fun rs x =>
      ∀ page, x.1 = .ok page → ∃ first : PhysFrame,
        (VirtAddr.new first.startAddress).map Page.containingAddress = some page ∧
          ∀ i < pages, ∃ f : PhysFrame, f.startAddress = first.startAddress + i * 4096 ∧
            rs[i]? = some (some f) := by
  refine .bind ensures_take ?_
  rintro _ first rfl
  refine .bind (takeContiguous_ensures first (pages - 1) 1) ?_
  rintro _ - ⟨fs, rfl, hlen, hfs⟩
  have hall : ∀ rs, ∀ i < pages, ∃ f : PhysFrame,
      f.startAddress = first.startAddress + i * 4096 ∧
        ([some first] ++ (fs.map some ++ rs))[i]? = some (some f) := by
    intro rs i hi
    cases i with
    | zero => exact ⟨first, by omega, rfl⟩
    | succ i =>
      have hfirst := first.lt
      obtain ⟨f, hf, hget⟩ := hfs.frame (j := i) (by omega) (by omega)
      refine ⟨f, by rw [hf, Nat.add_comm 1 i], ?_⟩
      have hi : i < (fs.map some).length := by
        rw [List.length_map]
        omega
      rw [List.singleton_append, List.getElem?_cons_succ, List.getElem?_append_left hi,
        List.getElem?_map, hget]
      rfl
  refine .bind .always ?_
  rintro rs ⟨result, m₁⟩ -
  cases result with
  | error e => exact .ret nofun
  | ok u =>
    refine .bind (ensures_unwrap _) ?_
    rintro _ start ⟨rfl, hstart⟩
    refine .ret fun page hpage => ⟨first, ?_, hall _⟩
    cases hpage
    rw [hstart]
    rfl

end FrameCalls

end Runs

/-- The run of a program that is the first to call the allocator of a memory map. -/
abbrev firstRun {α : Type} (memoryMap : List MemoryRegion) (p : FrameCalls α) :
    Calls.Run BootInfoFrameAllocator (Option PhysFrame) α :=
  p.run BootInfoFrameAllocator.allocateFrame (.init memoryMap)

/-- What the calls of a first run gave, counted from 0. -/
structure HandedOut {α : Type} (memoryMap : List MemoryRegion)
    (run : Calls.Run BootInfoFrameAllocator (Option PhysFrame) α) : Prop where
  inOrder : ∀ (n : ℕ) (frame : Option PhysFrame), run.replies[n]? = some frame →
    (usableFrames memoryMap)[n]? = frame.map some
  distinct : ∀ (i j : ℕ) (f : PhysFrame), run.replies[i]? = some (some f) →
    run.replies[j]? = some (some f) → i = j
  usable : ∀ f, some f ∈ run.replies → ∃ r ∈ memoryMap, r.kind = .usable ∧
    r.start ≤ f.startAddress ∧ f.startAddress + 4096 ≤ r.stop
  exhausted : ∀ i j : ℕ, i ≤ j → run.replies[i]? = some none → j < run.replies.length →
    run.replies[j]? = some none
  returns : (∀ r ∈ memoryMap, r.kind = .usable → r.stop ≤ 2 ^ 52) →
    run.state.allocateFrame.isSome

/-- The calls from the `n`th on gave `pages` frames in a row, and no other call gave one of them. -/
def GivenOnce (replies : List (Option PhysFrame)) (n pages : ℕ) (first : PhysFrame) : Prop :=
  ∀ i < pages, ∃ f : PhysFrame, f.startAddress = first.startAddress + i * 4096 ∧
    ∀ j, replies[j]? = some (some f) ↔ j = n + i

section HandedOut
variable {memoryMap : List MemoryRegion} {α : Type}

/-- Any program that makes fewer than 2 ^ 58 calls. -/
theorem handedOut (h : ValidMap memoryMap) (p : FrameCalls α)
    (hcalls : (firstRun memoryMap p).replies.length < 2 ^ 58) :
    HandedOut memoryMap (firstRun memoryMap p) := by
  obtain ⟨horder, hcursor⟩ := Calls.Serves.counted (N := 2 ^ 58)
    (P := fun n frame => (usableFrames memoryMap)[n]? = frame.map some)
    (I := Cursor memoryMap) (fun _ _ _ _ hn hI hcall => hI.step hn hcall)
    (Calls.run_serves p (.init memoryMap)) (Cursor.init memoryMap)
    ((Nat.zero_add _).trans_le hcalls.le)
  simp only [Nat.zero_add] at horder hcursor
  have hstream : ∀ (i : ℕ) f, (firstRun memoryMap p).replies[i]? = some (some f) →
      (usableFrames memoryMap)[i]? = some (some f) := fun i f hi => horder i _ hi
  refine ⟨horder, fun i j f hi hj => ?_, fun f hf => ?_, fun i j hle hi hj => ?_,
    hcursor.allocateFrame_isSome hcalls⟩
  · exact usableFrames_unique h (hstream i f hi) (hstream j f hj)
  · obtain ⟨i, hi⟩ := List.mem_iff_getElem?.mp hf
    have haddr := startAddress_of_usableFrames h (hstream i f hi)
    exact (mem_frameAddresses h (List.mem_of_getElem? haddr)).2
  · have hend := List.getElem?_eq_none_iff.mp (horder i none hi)
    have hreply := List.getElem?_eq_getElem hj
    have hnone := (horder j _ hreply).symm.trans
      (List.getElem?_eq_none_iff.mpr (Nat.le_trans hend hle))
    rw [hreply, Option.map_eq_none_iff.mp hnone]

/-- Whoever calls, in whatever order, fewer than 2 ^ 58 calls give the frames of the usable
regions in order, each once, and a framebuffer has its frames in a row and for itself. -/
theorem frames_handed_out_once {M : Type} (h : ValidMap memoryMap)
    (mapTo : Page → PhysFrame → ℕ → M → FrameCalls (Except MapToError Unit × M))
    (callers : List (Caller M)) (m : M)
    (hcalls : (firstRun memoryMap (callAll mapTo callers m)).replies.length < 2 ^ 58) :
    let run := firstRun memoryMap (callAll mapTo callers m)
    HandedOut memoryMap run ∧
      ∀ earlier pages later, callers = earlier ++ .framebuffer pages :: later →
        let before := firstRun memoryMap (callAll mapTo earlier m)
        ∀ m₁ page m₂, before.result = some m₁ →
          ((createIdentityVirtFromPhysN mapTo pages m₁).run BootInfoFrameAllocator.allocateFrame
            before.state).result = some (.ok page, m₂) →
          ∃ first : PhysFrame,
            (VirtAddr.new first.startAddress).map Page.containingAddress = some page ∧
              GivenOnce run.replies before.replies.length pages first := by
  have hrun := handedOut h _ hcalls
  refine ⟨hrun, ?_⟩
  rintro earlier pages later rfl before m₁ page m₂ hbefore hpages
  obtain ⟨first, hpage, hframes⟩ := createIdentityVirtFromPhysN_ensures m₁ _ _ hpages page rfl
  refine ⟨first, hpage, fun i hi => ?_⟩
  obtain ⟨f, hf, hreply⟩ := hframes i hi
  have hmine : (firstRun memoryMap (callAll mapTo (earlier ++ .framebuffer pages :: later)
      m)).replies[before.replies.length + i]? = some (some f) := by
    rw [callAll_append, firstRun, Calls.run_bind_replies _ hbefore,
      List.getElem?_append_right (Nat.le_add_right _ _), Nat.add_sub_cancel_left]
    exact Calls.run_bind_reply _ (Calls.run_bind_reply _ hreply)
  refine ⟨f, hf, fun j => ⟨fun hj => ?_, fun hj => hj ▸ hmine⟩⟩
  exact hrun.distinct _ _ f hj hmine

end HandedOut

/-- `map_to` where `missing` page tables have to be made first. -/
def mapToMissing (_ : Page) (_ : PhysFrame) (_ : ℕ) :
    ℕ → FrameCalls (Except MapToError Unit × ℕ)
  | 0 => pure (.ok (), 0)
  | missing + 1 => do
    match ← allocateFrame with
    | none => pure (.error .frameAllocationFailed, missing + 1)
    | some _ => mapToMissing ⟨0⟩ ⟨0, by decide, by decide⟩ 0 missing

/-- Two usable regions of two and of four frames. -/
def twoRegions : List MemoryRegion :=
  [⟨0, 0x1000, .bootloader⟩, ⟨0x1000, 0x3000, .usable⟩, ⟨0x5000, 0x9000, .usable⟩]

theorem frames_handed_out_once_twoRegions :
    let run := firstRun twoRegions (callAll mapToMissing [.framebuffer 2, .framebuffer 2] 1)
    HandedOut twoRegions run ∧ ∃ first : PhysFrame,
      (VirtAddr.new first.startAddress).map Page.containingAddress = some ⟨0x6000⟩ ∧
        GivenOnce run.replies 3 2 first := by
  have hvalid : ValidMap twoRegions := ⟨by decide, by
    simp [twoRegions]
    omega⟩
  have honce := frames_handed_out_once hvalid mapToMissing [.framebuffer 2, .framebuffer 2] 1
    (by decide +kernel)
  exact ⟨honce.1, honce.2 [.framebuffer 2] 2 [] rfl 0 ⟨0x6000⟩ 0 rfl rfl⟩

end Fomos
