import Mathlib
import Fomos.Library.Splice

/-!
# Loading an app

`App::new` copies the segments of an ELF image into a buffer of zeros and relocates them, segment
by segment. Whatever the order of the program headers, the buffer ends up as if all segments had
been copied first and every relocation applied once.
-/
namespace Fomos

abbrev Byte := BitVec 8

/-- `Ok(program::Type::Load)`, or anything else. -/
inductive ProgramType
  | load
  | other
  deriving DecidableEq, Repr

/-- A program header. What it describes has 64-bit addresses. -/
structure ProgramHeader where
  type : ProgramType
  offset : ℕ
  virtualAddr : ℕ
  fileSize : ℕ
  memSize : ℕ
  inAddressSpace : virtualAddr + memSize < 2 ^ 64

structure Rela where
  offset : BitVec 64
  addend : BitVec 64
  deriving DecidableEq, Repr

inductive SectionData
  | rela64 (arr : List Rela)
  | other

/-- What `xmas_elf` returns of an image: its program headers, the data of the section
`.rela.dyn`, and the entry point. -/
structure ElfFile where
  programHeaders : List ProgramHeader
  relaDyn : Option SectionData
  entryPoint : BitVec 64

/-- An app as it is loaded, without its pid and its store. -/
structure LoadedApp where
  code : List Byte
  func : BitVec 64

namespace ProgramHeader

def stop (h : ProgramHeader) : ℕ := h.virtualAddr + h.memSize

/-- One round of the loop for `max_virt`. -/
def extend (maxVirt : ℕ) (h : ProgramHeader) : ℕ :=
  if 0 < h.memSize then max maxVirt h.stop else maxVirt

def Contains (h : ProgramHeader) (addr : ℕ) : Prop := h.virtualAddr ≤ addr ∧ addr < h.stop

instance (h : ProgramHeader) (addr : ℕ) : Decidable (h.Contains addr) := by
  unfold Contains
  infer_instance

end ProgramHeader

namespace ElfFile

def maxVirt (elf : ElfFile) : ℕ := elf.programHeaders.foldl ProgramHeader.extend 0

/-- The entries of `.rela.dyn`. -/
def relas (elf : ElfFile) : List Rela :=
  match elf.relaDyn with
  | some (.rela64 arr) => arr
  | _ => []

def loads (elf : ElfFile) : List ProgramHeader := elf.programHeaders.filter (·.type = .load)

end ElfFile

/-- The first `n` bytes of a segment. Both the index in the file and the one in the buffer are
checked. -/
def copySegment (code : List Byte) (offset segOffset : ℕ) : ℕ → List Byte → Option (List Byte)
  | 0, ownedCode => some ownedCode
  | n + 1, ownedCode => do
    let ownedCode ← copySegment code offset segOffset n ownedCode
    let e ← code[offset + n]?
    if n + segOffset < ownedCode.length then some (ownedCode.set (n + segOffset) e) else none

/-- The bytes of a word in memory. -/
def leBytes (w : BitVec 64) : List Byte := (List.range 8).map fun k => (w >>> (8 * k)).setWidth 8

/-- `p64.write(add as u64 + global_off)`. The pointer is not checked: past the end of the buffer
the write has no defined result. -/
def relocate (globalOff : BitVec 64) (r : Rela) (ownedCode : List Byte) : Option (List Byte) :=
  if r.offset.toNat + 8 ≤ ownedCode.length then
    some (Splice.splice r.offset.toNat (leBytes (r.addend + globalOff)) ownedCode)
  else none

/-- The table is gone through for each segment, and only the entries in the segment count. -/
def relocateSegment (globalOff : BitVec 64) (h : ProgramHeader) (arr : List Rela)
    (ownedCode : List Byte) : Option (List Byte) :=
  arr.foldlM (fun ownedCode r =>
    if h.Contains r.offset.toNat then relocate globalOff r ownedCode else some ownedCode) ownedCode

def loadSegment (code : List Byte) (elf : ElfFile) (globalOff : BitVec 64)
    (ownedCode : List Byte) (h : ProgramHeader) : Option (List Byte) :=
  if h.type = .load then do
    let ownedCode ← copySegment code h.offset h.virtualAddr h.fileSize ownedCode
    relocateSegment globalOff h elf.relas ownedCode
  else some ownedCode

/-- `App::new`, without the listing of the code, for the buffer that the allocator placed at
`ptr`. -/
def App.new (parse : List Byte → Option ElfFile) (code : List Byte) (ptr : BitVec 64) :
    Option LoadedApp := do
  let elf ← parse code
  let ownedCode := List.replicate elf.maxVirt 0
  let ownedCode ← elf.programHeaders.foldlM (loadSegment code elf ptr) ownedCode
  return { code := ownedCode, func := ptr + elf.entryPoint }

section Steps
variable {code ownedCode : List Byte} {h : ProgramHeader} {globalOff : BitVec 64}

lemma copySegment_spec {offset segOffset n : ℕ} (hcode : offset + n ≤ code.length)
    (howned : ∀ j < n, segOffset + j < ownedCode.length) :
    ∃ out, copySegment code offset segOffset n ownedCode = some out ∧
      out.length = ownedCode.length ∧
      (∀ j < n, out[segOffset + j]? = code[offset + j]?) ∧
      ∀ i, i < segOffset ∨ segOffset + n ≤ i → out[i]? = ownedCode[i]? := by
  induction n with
  | zero => exact ⟨ownedCode, rfl, rfl, by simp, fun _ _ => rfl⟩
  | succ n ih =>
    obtain ⟨out, hout, hlen, hinside, houtside⟩ :=
      ih (by omega) fun j hj => howned j (by omega)
    obtain ⟨e, he⟩ : ∃ e, code[offset + n]? = some e :=
      ⟨_, List.getElem?_eq_getElem (by omega)⟩
    have hlt : n + segOffset < out.length := by
      rw [hlen, Nat.add_comm]
      exact howned n (Nat.lt_succ_self n)
    refine ⟨out.set (n + segOffset) e, ?_, by rw [List.length_set, hlen], ?_, ?_⟩
    · rw [copySegment, hout]
      simp [he, hlt]
    · intro j hj
      by_cases hjn : j = n
      · subst hjn
        rw [he, Nat.add_comm segOffset, List.getElem?_set_self hlt]
      · rw [List.getElem?_set_ne (by omega)]
        exact hinside j (by omega)
    · intro i hi
      rw [List.getElem?_set_ne (by omega)]
      exact houtside i (by omega)

lemma length_leBytes (w : BitVec 64) : (leBytes w).length = 8 := rfl

/-- The eight bytes of an entry's target. -/
def Rela.Target (r : Rela) (i : ℕ) : Prop := r.offset.toNat ≤ i ∧ i < r.offset.toNat + 8

/-- Entries with disjoint targets are all applied, and nothing else changes. -/
lemma relocateSegment_spec {arr : List Rela}
    (hdisjoint : arr.Pairwise fun r r' => ∀ i, r.Target i → ¬r'.Target i)
    (hroom : ∀ r ∈ arr, h.Contains r.offset.toNat → r.offset.toNat + 8 ≤ ownedCode.length) :
    ∃ out, relocateSegment globalOff h arr ownedCode = some out ∧
      out.length = ownedCode.length ∧
      (∀ r ∈ arr, h.Contains r.offset.toNat → ∀ k < 8,
        out[r.offset.toNat + k]? = (leBytes (r.addend + globalOff))[k]?) ∧
      ∀ i, (∀ r ∈ arr, h.Contains r.offset.toNat → ¬r.Target i) → out[i]? = ownedCode[i]? := by
  induction arr generalizing ownedCode with
  | nil => exact ⟨ownedCode, rfl, rfl, by simp, fun _ _ => rfl⟩
  | cons r arr ih =>
    obtain ⟨hr, hdisjoint⟩ := List.pairwise_cons.mp hdisjoint
    by_cases hin : h.Contains r.offset.toNat
    · have hlen := hroom r (.head _) hin
      have hlen' := Splice.length_splice r.offset.toNat (leBytes (r.addend + globalOff)) ownedCode
      obtain ⟨out, hout, houtlen, htargets, hothers⟩ :=
        @ih (Splice.splice r.offset.toNat (leBytes (r.addend + globalOff)) ownedCode) hdisjoint
          (fun r' hr' hin' => by rw [hlen']; exact hroom r' (.tail _ hr') hin')
      refine ⟨out, ?_, houtlen.trans hlen', ?_, ?_⟩
      · rw [relocateSegment, List.foldlM_cons, if_pos hin, relocate, if_pos hlen]
        exact hout
      · intro r' hr' hin' k hk
        obtain rfl | hr' := List.mem_cons.mp hr'
        · rw [hothers _ fun r'' hr'' _ => hr r'' hr'' _ ⟨by omega, by omega⟩]
          exact Splice.getElem?_splice_inside (by rwa [length_leBytes]) (by rwa [length_leBytes])
        · exact htargets r' hr' hin' k hk
      · intro i hi
        rw [hothers i fun r' hr' hin' => hi r' (.tail _ hr') hin']
        apply Splice.getElem?_splice_outside
        have := hi r (.head _) hin
        unfold Rela.Target at this
        rw [length_leBytes]
        omega
    · obtain ⟨out, hout, houtlen, htargets, hothers⟩ :=
        ih hdisjoint fun r' hr' hin' => hroom r' (.tail _ hr') hin'
      refine ⟨out, ?_, houtlen, ?_, ?_⟩
      · rw [relocateSegment, List.foldlM_cons, if_neg hin]
        exact hout
      · intro r' hr' hin'
        obtain rfl | hr' := List.mem_cons.mp hr'
        · exact absurd hin' hin
        · exact htargets r' hr' hin'
      · intro i hi
        exact hothers i fun r' hr' hin' => hi r' (.tail _ hr') hin'

end Steps

/-- The bytes of a segment that come from the file. -/
def ProgramHeader.FileBacked (h : ProgramHeader) (i : ℕ) : Prop :=
  h.virtualAddr ≤ i ∧ i < h.virtualAddr + h.fileSize

/-- Segments that are disjoint and within the file, and entries with disjoint targets each in one
segment. -/
structure ElfFile.WellFormed (elf : ElfFile) (code : List Byte) : Prop where
  fileSize_le : ∀ h ∈ elf.loads, h.fileSize ≤ h.memSize
  inFile : ∀ h ∈ elf.loads, h.offset + h.fileSize ≤ code.length
  segments : elf.loads.Pairwise fun h h' => ∀ i, h.Contains i → ¬h'.Contains i
  targets : elf.relas.Pairwise fun r r' => ∀ i, r.Target i → ¬r'.Target i
  inSegment : ∀ r ∈ elf.relas, ∃ h ∈ elf.loads, ∀ i, r.Target i → h.Contains i

/-- What the buffer holds when the headers `loaded` have been gone through. -/
structure Loaded (code : List Byte) (elf : ElfFile) (ptr : BitVec 64)
    (loaded : List ProgramHeader) (ownedCode : List Byte) : Prop where
  length : ownedCode.length = elf.maxVirt
  target : ∀ h ∈ loaded, h.type = .load → ∀ r ∈ elf.relas, h.Contains r.offset.toNat →
    ∀ k < 8, ownedCode[r.offset.toNat + k]? = (leBytes (r.addend + ptr))[k]?
  file : ∀ h ∈ loaded, h.type = .load → ∀ j < h.fileSize,
    (∀ r ∈ elf.relas, ¬r.Target (h.virtualAddr + j)) →
      ownedCode[h.virtualAddr + j]? = code[h.offset + j]?
  zero : ∀ i < elf.maxVirt, (∀ h ∈ loaded, h.type = .load → ¬h.FileBacked i) →
    (∀ r ∈ elf.relas, ¬r.Target i) → ownedCode[i]? = some 0

section Load
variable {code ownedCode : List Byte} {elf : ElfFile} {ptr : BitVec 64} {h : ProgramHeader}
  {loaded todo : List ProgramHeader}

lemma Rela.target_self (r : Rela) : r.Target r.offset.toNat :=
  ⟨Nat.le_refl _, Nat.lt_add_of_pos_right (by decide)⟩

namespace ElfFile

lemma mem_loads : h ∈ elf.loads ↔ h ∈ elf.programHeaders ∧ h.type = .load := by
  simp [loads]

lemma le_extend (m : ℕ) (h : ProgramHeader) : m ≤ h.extend m := by
  unfold ProgramHeader.extend
  split
  · exact Nat.le_max_left _ _
  · exact Nat.le_refl m

lemma le_foldl_extend (hs : List ProgramHeader) (m : ℕ) : m ≤ hs.foldl ProgramHeader.extend m := by
  induction hs generalizing m with
  | nil => exact Nat.le_refl m
  | cons h hs ih => exact (le_extend m h).trans (ih _)

/-- The buffer reaches to the end of every header that takes memory. -/
lemma stop_le_maxVirt (hh : h ∈ elf.programHeaders) (hpos : 0 < h.memSize) :
    h.stop ≤ elf.maxVirt := by
  obtain ⟨before, rest, hsplit⟩ := List.append_of_mem hh
  rw [maxVirt, hsplit, List.foldl_append, List.foldl_cons]
  refine Nat.le_trans ?_ (le_foldl_extend rest _)
  rw [ProgramHeader.extend, if_pos hpos]
  exact Nat.le_max_right _ _

/-- It ends with one of them, or is empty. -/
lemma maxVirt_eq_stop (elf : ElfFile) :
    (∃ h ∈ elf.programHeaders, 0 < h.memSize ∧ h.stop = elf.maxVirt) ∨ elf.maxVirt = 0 := by
  unfold maxVirt
  induction elf.programHeaders using List.reverseRecOn with
  | nil => exact .inr rfl
  | append_singleton hs h ih =>
    rw [List.foldl_concat]
    generalize hs.foldl ProgramHeader.extend 0 = m at ih ⊢
    have hbefore : (∃ h' ∈ hs ++ [h], 0 < h'.memSize ∧ h'.stop = m) ∨ m = 0 := by
      refine ih.imp_left ?_
      rintro ⟨h', hh', heq⟩
      exact ⟨h', List.mem_append_left _ hh', heq⟩
    unfold ProgramHeader.extend
    by_cases hpos : 0 < h.memSize
    · rw [if_pos hpos]
      obtain hmax | hmax := Nat.le_total m h.stop
      · rw [Nat.max_eq_right hmax]
        exact .inl ⟨h, List.mem_append_right _ (.head _), hpos, rfl⟩
      · rw [Nat.max_eq_left hmax]
        exact hbefore
    · rw [if_neg hpos]
      exact hbefore

namespace WellFormed

/-- An entry whose target starts in a segment is inside it. -/
lemma target_inside (hwf : elf.WellFormed code) (hh : h ∈ elf.loads) {r : Rela}
    (hr : r ∈ elf.relas) (hin : h.Contains r.offset.toNat) {i : ℕ} (hi : r.Target i) :
    h.Contains i := by
  obtain ⟨h', hh', hinside⟩ := hwf.inSegment r hr
  by_cases heq : h' = h
  · rw [← heq]
    exact hinside i hi
  · have hsymm : Std.Symm fun h h' : ProgramHeader => ∀ i, h.Contains i → ¬h'.Contains i :=
      ⟨fun _ _ hd i hi hi' => hd i hi' hi⟩
    have hdisjoint := hwf.segments.forall hh' hh heq
    exact absurd hin (hdisjoint _ (hinside _ r.target_self))

end WellFormed
end ElfFile

namespace Loaded

lemma start : Loaded code elf ptr [] (List.replicate elf.maxVirt 0) where
  length := List.length_replicate
  target _ hh := absurd hh List.not_mem_nil
  file _ hh := absurd hh List.not_mem_nil
  zero _ hi _ _ := List.getElem?_replicate_of_lt hi

/-- A header of another type changes nothing. -/
lemma skip (hl : Loaded code elf ptr loaded ownedCode) (htype : h.type ≠ .load) :
    Loaded code elf ptr (loaded ++ [h]) ownedCode := by
  have hmem : ∀ {h'}, h' ∈ loaded ++ [h] → h'.type = .load → h' ∈ loaded := by
    intro h' hh' htype'
    obtain hh' | hh' := List.mem_append.mp hh'
    · exact hh'
    · rw [List.mem_singleton.mp hh'] at htype'
      exact absurd htype' htype
  refine ⟨hl.length, ?_, ?_, ?_⟩
  · intro h' hh' htype'
    exact hl.target h' (hmem hh' htype') htype'
  · intro h' hh' htype'
    exact hl.file h' (hmem hh' htype') htype'
  · intro i hi hfile
    exact hl.zero i hi fun h' hh' => hfile h' (List.mem_append_left _ hh')

/-- A segment is copied and relocated, and the segments before it stay as they are. -/
lemma segment (hwf : elf.WellFormed code) (hl : Loaded code elf ptr loaded ownedCode)
    (hh : h ∈ elf.loads) (hloaded : ∀ h' ∈ loaded, h'.type = .load → h' ∈ elf.loads)
    (hdisjoint : ∀ h' ∈ loaded, h'.type = .load → ∀ i, h'.Contains i → ¬h.Contains i) :
    ∃ out, loadSegment code elf ptr ownedCode h = some out ∧
      Loaded code elf ptr (loaded ++ [h]) out := by
  obtain ⟨hheader, htype⟩ := ElfFile.mem_loads.mp hh
  have hfileMem := hwf.fileSize_le h hh
  have hroom : ∀ {i}, h.Contains i → h.stop ≤ ownedCode.length := by
    rintro i ⟨hstart, hstop⟩
    rw [hl.length]
    apply ElfFile.stop_le_maxVirt hheader
    unfold ProgramHeader.stop at hstop
    omega
  have hinside : ∀ {i}, h.FileBacked i → h.Contains i := by
    rintro i ⟨hstart, hstop⟩
    exact ⟨hstart, by unfold ProgramHeader.stop; omega⟩
  obtain ⟨copied, hcopy, hcopyLen, hcopied, hcopyFrame⟩ :=
    @copySegment_spec code ownedCode h.offset h.virtualAddr h.fileSize (hwf.inFile h hh) (by
      intro j hj
      have hin := hinside ⟨Nat.le_add_right _ j, Nat.add_lt_add_left hj _⟩
      exact hin.2.trans_le (hroom hin))
  obtain ⟨out, hout, houtLen, htargets, houtFrame⟩ :=
    @relocateSegment_spec copied h ptr elf.relas hwf.targets (by
      intro r hr hin
      have hlast := hwf.target_inside hh hr hin (i := r.offset.toNat + 7) ⟨by omega, by omega⟩
      have := hroom hlast
      have := hlast.2
      omega)
  have hcopyOutside : ∀ i, ¬h.FileBacked i → copied[i]? = ownedCode[i]? := by
    intro i hi
    apply hcopyFrame
    unfold ProgramHeader.FileBacked at hi
    omega
  have hframe : ∀ i, ¬h.Contains i → out[i]? = ownedCode[i]? := by
    intro i hi
    rw [houtFrame i fun r hr hin htarget => hi (hwf.target_inside hh hr hin htarget)]
    exact hcopyOutside i fun hfile => hi (hinside hfile)
  refine ⟨out, ?_, (houtLen.trans hcopyLen).trans hl.length, ?_, ?_, ?_⟩
  · rw [loadSegment, if_pos htype, hcopy]
    exact hout
  · intro h' hh' htype' r hr hin k hk
    obtain hh' | hh' := List.mem_append.mp hh'
    · have hin' := hwf.target_inside (hloaded h' hh' htype') hr hin
        (i := r.offset.toNat + k) ⟨by omega, by omega⟩
      rw [hframe _ (hdisjoint h' hh' htype' _ hin')]
      exact hl.target h' hh' htype' r hr hin k hk
    · rw [List.mem_singleton.mp hh'] at hin
      exact htargets r hr hin k hk
  · intro h' hh' htype' j hj hnoTarget
    obtain hh' | hh' := List.mem_append.mp hh'
    · have hin' : h'.Contains (h'.virtualAddr + j) := by
        have := hwf.fileSize_le h' (hloaded h' hh' htype')
        exact ⟨by omega, by unfold ProgramHeader.stop; omega⟩
      rw [hframe _ (hdisjoint h' hh' htype' _ hin')]
      exact hl.file h' hh' htype' j hj hnoTarget
    · rw [List.mem_singleton.mp hh'] at hj hnoTarget ⊢
      rw [houtFrame _ fun r hr _ => hnoTarget r hr]
      exact hcopied j hj
  · intro i hi hfile hnoTarget
    rw [houtFrame _ fun r hr _ => hnoTarget r hr,
      hcopyOutside i (hfile h (List.mem_append_right _ (.head _)) htype)]
    exact hl.zero i hi (fun h' hh' => hfile h' (List.mem_append_left _ hh')) hnoTarget

/-- The rest of the headers, in any order. -/
lemma rest (hwf : elf.WellFormed code) (hl : Loaded code elf ptr loaded ownedCode)
    (hheaders : loaded ++ todo = elf.programHeaders) :
    ∃ out, todo.foldlM (loadSegment code elf ptr) ownedCode = some out ∧
      Loaded code elf ptr elf.programHeaders out := by
  induction todo generalizing loaded ownedCode with
  | nil =>
    rw [List.append_nil] at hheaders
    exact ⟨ownedCode, rfl, hheaders ▸ hl⟩
  | cons h todo ih =>
    have hnext : (loaded ++ [h]) ++ todo = elf.programHeaders := by
      rw [← hheaders, List.append_assoc]
      rfl
    rw [List.foldlM_cons]
    by_cases htype : h.type = .load
    · have hmem : ∀ h' ∈ loaded ++ [h], h'.type = .load → h' ∈ elf.loads := by
        intro h' hh' htype'
        rw [ElfFile.mem_loads, ← hnext]
        exact ⟨List.mem_append_left _ hh', htype'⟩
      have hdisjoint : ∀ h' ∈ loaded, h'.type = .load → ∀ i, h'.Contains i → ¬h.Contains i := by
        intro h' hh' htype'
        have hpairs := hwf.segments
        rw [ElfFile.loads, ← hheaders, List.filter_append, List.filter_cons] at hpairs
        rw [if_pos (by simpa using htype)] at hpairs
        apply (List.pairwise_append.mp hpairs).2.2 h' _ h (.head _)
        exact List.mem_filter.mpr ⟨hh', by simpa using htype'⟩
      obtain ⟨out, hout, hl'⟩ := hl.segment hwf (hmem h (List.mem_append_right _ (.head _)) htype)
        (fun h' hh' => hmem h' (List.mem_append_left _ hh')) hdisjoint
      rw [hout]
      exact ih hl' hnext
    · rw [loadSegment, if_neg htype]
      exact ih (hl.skip htype) hnext

end Loaded

/-- What a load leaves: the length that the headers ask for, each relocation in its place, the
file's bytes everywhere else in the segments, and zeros. -/
theorem load_eq_reference {parse : List Byte → Option ElfFile} (ptr : BitVec 64)
    (hparse : parse code = some elf) (hwf : elf.WellFormed code) :
    ∃ app, App.new parse code ptr = some app ∧
      (∀ h ∈ elf.programHeaders, 0 < h.memSize → h.stop ≤ app.code.length) ∧
      ((∃ h ∈ elf.programHeaders, 0 < h.memSize ∧ h.stop = app.code.length) ∨
        app.code.length = 0) ∧
      (∀ r ∈ elf.relas, ∀ k < 8,
        app.code[r.offset.toNat + k]? = (leBytes (r.addend + ptr))[k]?) ∧
      (∀ h ∈ elf.loads, ∀ j < h.fileSize, (∀ r ∈ elf.relas, ¬r.Target (h.virtualAddr + j)) →
        app.code[h.virtualAddr + j]? = code[h.offset + j]?) ∧
      (∀ i < app.code.length, (∀ h ∈ elf.loads, ¬h.FileBacked i) →
        (∀ r ∈ elf.relas, ¬r.Target i) → app.code[i]? = some 0) ∧
      app.func = ptr + elf.entryPoint := by
  obtain ⟨out, hout, hl⟩ := Loaded.start.rest hwf (List.nil_append elf.programHeaders)
  refine ⟨⟨out, ptr + elf.entryPoint⟩, ?_, ?_, ?_, ?_, ?_, ?_, rfl⟩
  · rw [App.new, hparse]
    change (elf.programHeaders.foldlM (loadSegment code elf ptr)
      (List.replicate elf.maxVirt 0)).bind _ = _
    rw [hout]
    rfl
  · intro h hh hpos
    change h.stop ≤ out.length
    rw [hl.length]
    exact ElfFile.stop_le_maxVirt hh hpos
  · change (∃ h ∈ elf.programHeaders, 0 < h.memSize ∧ h.stop = out.length) ∨ out.length = 0
    rw [hl.length]
    exact elf.maxVirt_eq_stop
  · intro r hr k hk
    obtain ⟨h, hh, hinside⟩ := hwf.inSegment r hr
    obtain ⟨hheader, htype⟩ := ElfFile.mem_loads.mp hh
    exact hl.target h hheader htype r hr (hinside _ r.target_self) k hk
  · intro h hh
    obtain ⟨hheader, htype⟩ := ElfFile.mem_loads.mp hh
    exact hl.file h hheader htype
  · intro i hi hfile
    rw [hl.length] at hi
    apply hl.zero i hi
    intro h hheader htype
    exact hfile h (ElfFile.mem_loads.mpr ⟨hheader, htype⟩)

end Load

/-! ## Images -/

/-- A number in `n` bytes. -/
def leNat (n v : ℕ) : List Byte := (List.range n).map fun k => BitVec.ofNat 8 (v / 256 ^ k)

def asciiBytes (text : String) : List Byte := text.toList.map fun c => BitVec.ofNat 8 c.toNat

/-- An image of a shared object for x86-64. Its sections are `.rela.dyn` and the names of the
sections, and its data is at its end. -/
structure ElfImage where
  programHeaders : List ProgramHeader
  relas : List Rela
  data : List Byte
  entryPoint : BitVec 64

namespace ElfImage
variable (image : ElfImage)

def elf : ElfFile := ⟨image.programHeaders, some (.rela64 image.relas), image.entryPoint⟩

def relaOffset : ℕ := 64 + 56 * image.programHeaders.length
def sectionsOffset : ℕ := image.relaOffset + 24 * image.relas.length
def namesOffset : ℕ := image.sectionsOffset + 3 * 64

def names : List Byte := [0] ++ asciiBytes ".rela.dyn" ++ [0] ++ asciiBytes ".shstrtab" ++ [0]

def dataOffset : ℕ := image.namesOffset + names.length

/-- A header that is none of a segment is a note. -/
def programHeaderBytes (h : ProgramHeader) : List Byte :=
  leNat 4 (if h.type = .load then 1 else 4) ++ leNat 4 7 ++ leNat 8 h.offset ++
    leNat 8 h.virtualAddr ++ leNat 8 h.virtualAddr ++ leNat 8 h.fileSize ++ leNat 8 h.memSize ++
    leNat 8 1

/-- An entry that is relative to where the image is loaded. -/
def relaBytes (r : Rela) : List Byte :=
  leNat 8 r.offset.toNat ++ leNat 8 8 ++ leNat 8 r.addend.toNat

def sectionHeaderBytes (name type offset size entrySize : ℕ) : List Byte :=
  leNat 4 name ++ leNat 4 type ++ leNat 8 0 ++ leNat 8 offset ++ leNat 8 offset ++ leNat 8 size ++
    leNat 4 0 ++ leNat 4 0 ++ leNat 8 1 ++ leNat 8 entrySize

def headerBytes : List Byte :=
  [0x7F] ++ asciiBytes "ELF" ++ [2, 1, 1] ++ leNat 9 0 ++ leNat 2 3 ++ leNat 2 62 ++ leNat 4 1 ++
    leNat 8 image.entryPoint.toNat ++ leNat 8 64 ++ leNat 8 image.sectionsOffset ++ leNat 4 0 ++
    leNat 2 64 ++ leNat 2 56 ++ leNat 2 image.programHeaders.length ++ leNat 2 64 ++ leNat 2 3 ++
    leNat 2 2

def bytes : List Byte :=
  image.headerBytes ++ image.programHeaders.flatMap programHeaderBytes ++
    image.relas.flatMap relaBytes ++ sectionHeaderBytes 0 0 0 0 0 ++
    sectionHeaderBytes 1 4 image.relaOffset (24 * image.relas.length) 24 ++
    sectionHeaderBytes 11 3 image.namesOffset names.length 0 ++ names ++ image.data

/-- `ElfFile::new` on this image. -/
def parse (code : List Byte) : Option ElfFile :=
  if code = image.bytes then some image.elf else none

lemma parse_bytes : image.parse image.bytes = some image.elf := if_pos rfl

end ElfImage

/-- Two segments, the second before the first in memory and without bytes of the file, which holds
the target of the only relocation. -/
def twoSegments : ElfImage where
  programHeaders :=
    [⟨.load, 469, 16, 3, 4, by decide⟩, ⟨.other, 0, 0, 0, 2, by decide⟩,
      ⟨.load, 472, 0, 0, 8, by decide⟩]
  relas := [⟨0, 17⟩]
  data := [1, 2, 3]
  entryPoint := 16

example : twoSegments.dataOffset = 469 := rfl

theorem load_eq_reference_twoSegments :
    ∃ app, App.new twoSegments.parse twoSegments.bytes 0x1000 = some app ∧
      (∀ h ∈ twoSegments.elf.programHeaders, 0 < h.memSize → h.stop ≤ app.code.length) ∧
      ((∃ h ∈ twoSegments.elf.programHeaders, 0 < h.memSize ∧ h.stop = app.code.length) ∨
        app.code.length = 0) ∧
      (∀ r ∈ twoSegments.elf.relas, ∀ k < 8,
        app.code[r.offset.toNat + k]? = (leBytes (r.addend + 0x1000))[k]?) ∧
      (∀ h ∈ twoSegments.elf.loads, ∀ j < h.fileSize,
        (∀ r ∈ twoSegments.elf.relas, ¬r.Target (h.virtualAddr + j)) →
          app.code[h.virtualAddr + j]? = twoSegments.bytes[h.offset + j]?) ∧
      (∀ i < app.code.length, (∀ h ∈ twoSegments.elf.loads, ¬h.FileBacked i) →
        (∀ r ∈ twoSegments.elf.relas, ¬r.Target i) → app.code[i]? = some 0) ∧
      app.func = 0x1000 + twoSegments.elf.entryPoint := by
  apply load_eq_reference 0x1000 twoSegments.parse_bytes
  refine ⟨by decide, by decide +kernel, ?_, ?_, ?_⟩
  · simp only [ElfFile.loads, ElfImage.elf, twoSegments]
    simp [ProgramHeader.Contains, ProgramHeader.stop]
    omega
  · exact List.pairwise_singleton _ _
  · intro r hr
    obtain rfl : r = ⟨0, 17⟩ := List.mem_singleton.mp hr
    refine ⟨⟨.load, 472, 0, 0, 8, by decide⟩,
      by simp [ElfFile.loads, ElfImage.elf, twoSegments], ?_⟩
    intro i hi
    exact hi

end Fomos
