import Mathlib
import Fomos.Library.ArrayVec
import Fomos.Library.Calls
import Fomos.Library.Iter

/-!
# The frame allocator

The usable frames of the memory map form one stream. The allocator buffers 32 of them at a time,
skipping what earlier batches took, and hands out exactly the frames of the stream in order.
-/
namespace Fomos
open Iter

inductive MemoryRegionKind
  | usable
  | bootloader
  | unknownUefi (n : ℕ)
  | unknownBios (n : ℕ)
  deriving DecidableEq, Repr

/-- The bytes from `start` to before `stop`. -/
structure MemoryRegion where
  start : ℕ
  stop : ℕ
  kind : MemoryRegionKind
  deriving Repr

/-- A physical address has 52 bits. -/
structure PhysAddr where
  addr : ℕ
  lt : addr < 2 ^ 52

/-- `PhysAddr::new` panics on a larger number. -/
def PhysAddr.new (addr : ℕ) : Option PhysAddr :=
  if h : addr < 2 ^ 52 then some ⟨addr, h⟩ else none

/-- A frame of 4 KiB. -/
@[ext] structure PhysFrame where
  startAddress : ℕ
  aligned : 4096 ∣ startAddress
  lt : startAddress < 2 ^ 52
  deriving DecidableEq, Repr

def PhysFrame.containingAddress (addr : PhysAddr) : PhysFrame where
  startAddress := addr.addr / 4096 * 4096
  aligned := Nat.dvd_mul_left 4096 _
  lt := Nat.lt_of_le_of_lt (Nat.div_mul_le_self addr.addr 4096) addr.lt

def bufferSizeAdvance : ℕ := 32

structure BootInfoFrameAllocator where
  memoryMap : List MemoryRegion
  next : ℕ
  buf : ArrayVec PhysFrame bufferSizeAdvance

def frameAddresses (memoryMap : List MemoryRegion) : List ℕ :=
  (memoryMap.filter fun r => r.kind = .usable).flatMap fun r => stepBy r.start r.stop 4096

/-- The frames of the usable regions; an address past 52 bits panics when it is reached. -/
def usableFrames (memoryMap : List MemoryRegion) : List (Option PhysFrame) :=
  (frameAddresses memoryMap).map fun addr => (PhysAddr.new addr).map .containingAddress

namespace BootInfoFrameAllocator

def init (memoryMap : List MemoryRegion) : BootInfoFrameAllocator := ⟨memoryMap, 1, .new⟩

/-- Fill the empty buffer with the next batch, and move `next: usize` past it. -/
def refill (a : BootInfoFrameAllocator) : Option BootInfoFrameAllocator := do
  let skip := (a.next + (2 ^ 64 - 1)) % 2 ^ 64
  let frames ← skipTake skip bufferSizeAdvance (usableFrames a.memoryMap)
  let buf ← a.buf.extend frames
  return { a with buf := buf.reverse, next := (a.next + bufferSizeAdvance) % 2 ^ 64 }

/-- The frame handed out, if any is left, unless the call panics. -/
def allocateFrame (a : BootInfoFrameAllocator) :
    Option (Option PhysFrame × BootInfoFrameAllocator) :=
  (if a.buf.items.length = 0 then a.refill else some a).map fun a =>
    (a.buf.pop.1, { a with buf := a.buf.pop.2 })

end BootInfoFrameAllocator

/-- The `Usable` regions are made of frames and do not meet. -/
structure ValidMap (memoryMap : List MemoryRegion) : Prop where
  aligned : ∀ r ∈ memoryMap, r.kind = .usable → 4096 ∣ r.start ∧ 4096 ∣ r.stop
  disjoint : memoryMap.Pairwise fun r r' => r.kind = .usable → r'.kind = .usable →
    ∀ addr, ¬((r.start ≤ addr ∧ addr < r.stop) ∧ r'.start ≤ addr ∧ addr < r'.stop)

section Stream
variable {memoryMap : List MemoryRegion} {addr n : ℕ} {f : PhysFrame}

/-- The addresses of the stream are aligned and lie in usable regions, with all of their frame. -/
theorem mem_frameAddresses (h : ValidMap memoryMap) (haddr : addr ∈ frameAddresses memoryMap) :
    4096 ∣ addr ∧ ∃ r ∈ memoryMap, r.kind = .usable ∧ r.start ≤ addr ∧ addr + 4096 ≤ r.stop := by
  obtain ⟨r, hr, hmem⟩ := List.mem_flatMap.mp haddr
  obtain ⟨hr, husable⟩ := List.mem_filter.mp hr
  have husable : r.kind = .usable := by simpa using husable
  obtain ⟨⟨i, rfl⟩, hlt⟩ := (mem_stepBy (by decide)).mp hmem
  obtain ⟨hstart, hstop⟩ := h.aligned r hr husable
  refine ⟨Nat.dvd_add hstart (Nat.dvd_mul_right _ _), r, hr, husable, Nat.le_add_right _ _, ?_⟩
  omega

theorem frameAddresses_nodup (h : ValidMap memoryMap) : (frameAddresses memoryMap).Nodup := by
  refine List.nodup_flatMap.mpr ⟨fun r _ => nodup_stepBy (by decide), ?_⟩
  refine (h.disjoint.filter _).imp_of_mem fun {r r'} hr hr' hdisjoint => ?_
  have husable : r.kind = .usable := by simpa using (List.mem_filter.mp hr).2
  have husable' : r'.kind = .usable := by simpa using (List.mem_filter.mp hr').2
  intro addr hmem hmem'
  obtain ⟨⟨i, hi⟩, hlt⟩ := (mem_stepBy (by decide)).mp hmem
  obtain ⟨⟨j, hj⟩, hlt'⟩ := (mem_stepBy (by decide)).mp hmem'
  exact hdisjoint husable husable' addr ⟨⟨by omega, hlt⟩, by omega, hlt'⟩

/-- A frame of the stream starts at its address. -/
theorem startAddress_of_usableFrames (h : ValidMap memoryMap)
    (hf : (usableFrames memoryMap)[n]? = some (some f)) :
    (frameAddresses memoryMap)[n]? = some f.startAddress := by
  rw [usableFrames, List.getElem?_map, Option.map_eq_some_iff] at hf
  obtain ⟨addr, haddr, hf⟩ := hf
  obtain ⟨phys, hphys, rfl⟩ := Option.map_eq_some_iff.mp hf
  unfold PhysAddr.new at hphys
  split at hphys
  · cases hphys
    have haligned := (mem_frameAddresses h (List.mem_of_getElem? haddr)).1
    exact haddr.trans (congrArg some (Nat.div_mul_cancel haligned).symm)
  · cases hphys

/-- No frame occurs twice in the stream. -/
theorem usableFrames_unique {m : ℕ} (h : ValidMap memoryMap)
    (hm : (usableFrames memoryMap)[m]? = some (some f))
    (hn : (usableFrames memoryMap)[n]? = some (some f)) : m = n := by
  have haddr := startAddress_of_usableFrames h hm
  have haddr' := startAddress_of_usableFrames h hn
  obtain ⟨hlt, -⟩ := List.getElem?_eq_some_iff.mp haddr
  exact (List.getElem?_inj hlt (frameAddresses_nodup h)).mp (haddr.trans haddr'.symm)

end Stream

/-- The allocator after `n` calls: what it has buffered and what it will buffer are the frames
from the `n`th on. -/
structure Cursor (memoryMap : List MemoryRegion) (n : ℕ) (a : BootInfoFrameAllocator) : Prop where
  map : a.memoryMap = memoryMap
  pos : 1 ≤ a.next
  le : a.next ≤ bufferSizeAdvance * n + 1
  stream : (usableFrames memoryMap).drop n =
    a.buf.items.reverse.map some ++ (usableFrames memoryMap).drop (a.next - 1)

namespace Cursor
variable {memoryMap : List MemoryRegion} {n : ℕ} {a a' : BootInfoFrameAllocator}
  {frame : Option PhysFrame}

theorem init (memoryMap : List MemoryRegion) :
    Cursor memoryMap 0 (BootInfoFrameAllocator.init memoryMap) :=
  ⟨rfl, Nat.le_refl 1, Nat.le_refl 1, rfl⟩

theorem skip_eq (h : Cursor memoryMap n a) (hn : n < 2 ^ 58) :
    (a.next + (2 ^ 64 - 1)) % 2 ^ 64 = a.next - 1 := by
  have hle := h.le
  have hpos := h.pos
  unfold bufferSizeAdvance at hle
  omega

/-- A batch continues the stream where the one before it ended. -/
theorem refill (h : Cursor memoryMap n a) (hn : n < 2 ^ 58) (hempty : a.buf.items.length = 0)
    (hrefill : a.refill = some a') :
    a'.memoryMap = memoryMap ∧ a'.next = a.next + bufferSizeAdvance ∧
      (usableFrames memoryMap).drop n =
        a'.buf.items.reverse.map some ++ (usableFrames memoryMap).drop (a'.next - 1) ∧
      (a'.buf.items = [] → (usableFrames memoryMap).drop n = []) := by
  have hle := h.le
  have hpos := h.pos
  have hnil := List.length_eq_zero_iff.mp hempty
  obtain ⟨frames, hframes, hrefill⟩ := Option.bind_eq_some_iff.mp hrefill
  obtain ⟨buf, hextend, hrefill⟩ := Option.bind_eq_some_iff.mp hrefill
  cases hrefill
  rw [h.skip_eq hn, h.map] at hframes
  have hbuf := ArrayVec.extend_eq_some hextend
  rw [hnil, List.nil_append] at hbuf
  have hnext : (a.next + bufferSizeAdvance) % 2 ^ 64 = a.next + bufferSizeAdvance := by
    unfold bufferSizeAdvance at hle ⊢
    omega
  have hstream := h.stream
  rw [hnil] at hstream
  have hbatch : ((usableFrames memoryMap).drop n).take bufferSizeAdvance = frames.map some :=
    hstream ▸ skipTake_eq_some hframes
  refine ⟨h.map, hnext, ?_, fun hnone => ?_⟩
  · calc (usableFrames memoryMap).drop n
      _ = ((usableFrames memoryMap).drop n).take bufferSizeAdvance ++
          ((usableFrames memoryMap).drop n).drop bufferSizeAdvance :=
        (List.take_append_drop _ _).symm
      _ = frames.map some ++
          ((usableFrames memoryMap).drop (a.next - 1)).drop bufferSizeAdvance := by
        rw [hbatch, hstream]
        rfl
      _ = _ := by
        rw [hnext, ArrayVec.reverse_items, List.reverse_reverse, hbuf, List.drop_drop,
          Nat.sub_add_comm hpos]
  · rw [ArrayVec.reverse_items, hbuf, List.reverse_eq_nil_iff] at hnone
    rw [hnone] at hbatch
    exact (List.take_eq_nil_iff.mp hbatch).resolve_left (by decide)

/-- The frame that a call takes from the buffer. -/
theorem pop (hmap : a.memoryMap = memoryMap) (hpos : 1 ≤ a.next)
    (hle : a.next ≤ bufferSizeAdvance * (n + 1) + 1)
    (hstream : (usableFrames memoryMap).drop n =
      a.buf.items.reverse.map some ++ (usableFrames memoryMap).drop (a.next - 1))
    (hlast : a.buf.items = [] → (usableFrames memoryMap).drop n = []) :
    (usableFrames memoryMap)[n]? = a.buf.pop.1.map some ∧
      Cursor memoryMap (n + 1) { a with buf := a.buf.pop.2 } := by
  have hnext : (usableFrames memoryMap).drop (n + 1) = ((usableFrames memoryMap).drop n).tail :=
    List.tail_drop.symm
  rw [← List.head?_drop]
  have hreverse := a.buf.pop_reverse
  cases hpop : a.buf.pop.1 with
  | none =>
    have hnil : a.buf.items = [] := List.getLast?_eq_none_iff.mp hpop
    have hdrop := hlast hnil
    refine ⟨by rw [hdrop]; rfl, hmap, hpos, hle, ?_⟩
    have hrest : a.buf.pop.2.items.reverse = [] := by
      rw [hnil, hpop] at hreverse
      exact hreverse.symm
    rw [hnil, hdrop] at hstream
    rw [hnext, hdrop, hrest]
    exact hstream
  | some f =>
    rw [hreverse, hpop] at hstream
    refine ⟨by rw [hstream]; rfl, hmap, hpos, hle, ?_⟩
    rw [hnext, hstream]
    rfl

/-- A call hands out the next frame of the stream. -/
theorem step (h : Cursor memoryMap n a) (hn : n < 2 ^ 58)
    (hcall : a.allocateFrame = some (frame, a')) :
    (usableFrames memoryMap)[n]? = frame.map some ∧ Cursor memoryMap (n + 1) a' := by
  have hle := h.le
  have hpos := h.pos
  unfold BootInfoFrameAllocator.allocateFrame at hcall
  split at hcall
  · rename_i hempty
    obtain ⟨b, hrefill, hb⟩ := Option.map_eq_some_iff.mp hcall
    cases hb
    obtain ⟨hmap, hnext, hstream, hlast⟩ := h.refill hn hempty hrefill
    exact pop hmap (by omega) (by rw [hnext, Nat.mul_succ]; omega) hstream hlast
  · rename_i hfull
    cases hcall
    refine pop h.map h.pos (by rw [Nat.mul_succ]; omega) h.stream fun hnil => ?_
    simp [hnil] at hfull

/-- No call panics on a map of physical memory. -/
theorem allocateFrame_isSome (h : Cursor memoryMap n a) (hn : n < 2 ^ 58)
    (hphys : ∀ r ∈ memoryMap, r.kind = .usable → r.stop ≤ 2 ^ 52) : a.allocateFrame.isSome := by
  have hall : ∀ x ∈ usableFrames memoryMap, x.isSome := by
    intro x hx
    obtain ⟨addr, haddr, rfl⟩ := List.mem_map.mp hx
    obtain ⟨r, hr, hmem⟩ := List.mem_flatMap.mp haddr
    obtain ⟨hr, husable⟩ := List.mem_filter.mp hr
    have hlt := Nat.lt_of_lt_of_le ((mem_stepBy (by decide)).mp hmem).2
      (hphys r hr (by simpa using husable))
    simp only [PhysAddr.new, dif_pos hlt, Option.map_some, Option.isSome_some]
  unfold BootInfoFrameAllocator.allocateFrame
  rw [Option.isSome_map]
  split
  · rename_i hempty
    unfold BootInfoFrameAllocator.refill
    rw [h.skip_eq hn, h.map]
    obtain ⟨frames, hframes⟩ := Option.isSome_iff_exists.mp
      (skipTake_isSome hall (a.next - 1) bufferSizeAdvance)
    have hlen : frames.length ≤ bufferSizeAdvance := by
      have := congrArg List.length (skipTake_eq_some hframes)
      rw [List.length_map] at this
      exact this ▸ List.length_take_le _ _
    have hroom : a.buf.items.length + frames.length ≤ bufferSizeAdvance := by
      rwa [hempty, Nat.zero_add]
    obtain ⟨buf, hbuf⟩ := Option.isSome_iff_exists.mp (ArrayVec.extend_isSome hroom)
    simp [hframes, hbuf]
  · rfl

end Cursor
end Fomos
