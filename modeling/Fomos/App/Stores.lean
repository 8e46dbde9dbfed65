import Mathlib
import Fomos.App.Elf

/-!
# The stores of an app's relocations

The headers of an image may say anything: their sums wrap, and the relocations are stored through a
raw pointer. An entry counts when its target begins in a segment, so only a target that reaches over
the end of the buffer is stored outside of it; the entry point is not looked at. Where no sum wraps
and no store is outside, the load is the one of `Fomos.App.new`.
-/
namespace Fomos.Stores

/-- A program header, as `xmas_elf` returns it. -/
structure ProgramHeader where
  type : ProgramType
  offset : BitVec 64
  virtualAddr : BitVec 64
  fileSize : BitVec 64
  memSize : BitVec 64
  deriving DecidableEq, Repr

structure ElfFile where
  programHeaders : List ProgramHeader
  relaDyn : Option SectionData
  entryPoint : BitVec 64

namespace ProgramHeader

def stop (h : ProgramHeader) : BitVec 64 := h.virtualAddr + h.memSize

/-- One round of the loop for `max_virt`. -/
def extend (maxVirt : BitVec 64) (h : ProgramHeader) : BitVec 64 :=
  if 0#64 < h.memSize then (if maxVirt < h.stop then h.stop else maxVirt) else maxVirt

def Contains (h : ProgramHeader) (addr : BitVec 64) : Prop := h.virtualAddr ≤ addr ∧ addr < h.stop

instance (h : ProgramHeader) (addr : BitVec 64) : Decidable (h.Contains addr) := by
  unfold Contains
  infer_instance

end ProgramHeader

namespace ElfFile

def maxVirt (elf : ElfFile) : BitVec 64 := elf.programHeaders.foldl ProgramHeader.extend 0#64

/-- The entries of `.rela.dyn`. -/
def relas (elf : ElfFile) : List Rela :=
  match elf.relaDyn with
  | some (.rela64 arr) => arr
  | _ => []

def loads (elf : ElfFile) : List ProgramHeader := elf.programHeaders.filter (·.type = .load)

end ElfFile

/-- The bytes of the file at these places, from the byte `byte` of the segment on. Both indices are
checked. -/
def copySegment (code : List Byte) (segOffset : BitVec 64) :
    List ℕ → ℕ → List Byte → Option (List Byte)
  | [], _, ownedCode => some ownedCode
  | e :: es, byte, ownedCode => do
    let b ← code[e]?
    let i := (byte + segOffset.toNat) % 2 ^ 64
    if i < ownedCode.length then copySegment code segOffset es (byte + 1) (ownedCode.set i b)
    else none

/-- The buffer, and the offsets of the stores so far. -/
structure Image where
  ownedCode : List Byte
  stores : List (BitVec 64)

/-- `p64.write(add as u64 + global_off)`: what is outside of the buffer is not followed. -/
def relocate (globalOff : BitVec 64) (image : Image) (r : Rela) : Image where
  ownedCode := Splice.splice r.offset.toNat (leBytes (r.addend + globalOff)) image.ownedCode
  stores := image.stores ++ [r.offset]

def relocateSegment (globalOff : BitVec 64) (h : ProgramHeader) (arr : List Rela) (image : Image) :
    Image :=
  arr.foldl (fun image r => if h.Contains r.offset then relocate globalOff image r else image) image

def loadSegment (code : List Byte) (elf : ElfFile) (globalOff : BitVec 64) (image : Image)
    (h : ProgramHeader) : Option Image :=
  if h.type = .load then do
    let start := h.offset.toNat
    let stop := (h.offset + h.fileSize).toNat
    let ownedCode ←
      copySegment code h.virtualAddr (List.range' start (stop - start)) 0 image.ownedCode
    return relocateSegment globalOff h elf.relas { image with ownedCode := ownedCode }
  else some image

/-- An app as it is loaded, without its pid and its store, and the stores that were made. -/
structure App where
  code : List Byte
  func : BitVec 64
  stores : List (BitVec 64)

/-- `App::new`, for the buffer that the allocator placed at `ptr`. `lists` says for which code the
listing returns that is made if it is to be `shown`. -/
def App.new (parse : List Byte → Option ElfFile) (lists : List Byte → Bool) (code : List Byte)
    (shown : Bool) (ptr : BitVec 64) : Option App := do
  let elf ← parse code
  let image : Image := ⟨List.replicate elf.maxVirt.toNat 0, []⟩
  let image ← elf.programHeaders.foldlM (loadSegment code elf ptr) image
  let entry := elf.entryPoint.toNat
  if shown ∧ ¬(entry ≤ image.ownedCode.length ∧ lists (image.ownedCode.drop entry)) then none
  else some { code := image.ownedCode, func := ptr + elf.entryPoint, stores := image.stores }

variable {code : List Byte} {elf : ElfFile} {ptr : BitVec 64} {image image' : Image}
  {h : ProgramHeader}

lemma copySegment_length {segOffset : BitVec 64} {es : List ℕ} {byte : ℕ}
    {ownedCode out : List Byte} (h : copySegment code segOffset es byte ownedCode = some out) :
    out.length = ownedCode.length := by
  induction es generalizing byte ownedCode with
  | nil =>
    cases h
    rfl
  | cons e es ih =>
    rw [copySegment] at h
    obtain ⟨b, -, h⟩ := Option.bind_eq_some_iff.mp h
    dsimp only at h
    split at h
    · rw [ih h, List.length_set]
    · cases h

/-- The entries of the table that count for a segment. -/
def ProgramHeader.targets (h : ProgramHeader) (arr : List Rela) : List (BitVec 64) :=
  (arr.map Rela.offset).filter fun off => h.Contains off

/-- A segment stores to the targets that begin in it, in the order of the table. -/
lemma relocateSegment_spec (ptr : BitVec 64) (h : ProgramHeader) (arr : List Rela)
    (image : Image) :
    (relocateSegment ptr h arr image).ownedCode.length = image.ownedCode.length ∧
      (relocateSegment ptr h arr image).stores = image.stores ++ h.targets arr := by
  unfold relocateSegment ProgramHeader.targets
  induction arr generalizing image with
  | nil => simp
  | cons r arr ih =>
    rw [List.foldl_cons, List.map_cons, List.filter_cons]
    obtain ⟨hlen, hstores⟩ :=
      ih (if h.Contains r.offset then relocate ptr image r else image)
    rw [hlen, hstores]
    by_cases hin : h.Contains r.offset
    · simp [hin, relocate]
    · simp [hin]

lemma loadSegment_spec (hload : loadSegment code elf ptr image h = some image') :
    image'.ownedCode.length = image.ownedCode.length ∧
      image'.stores = image.stores ++ if h.type = .load then h.targets elf.relas else [] := by
  unfold loadSegment at hload
  split at hload
  case isTrue htype =>
    obtain ⟨ownedCode, hcopy, hload⟩ := Option.bind_eq_some_iff.mp hload
    cases hload
    obtain ⟨hlen, hstores⟩ := relocateSegment_spec ptr h elf.relas
      { image with ownedCode := ownedCode }
    rw [hlen, hstores, if_pos htype]
    exact ⟨copySegment_length hcopy, rfl⟩
  case isFalse htype =>
    cases hload
    rw [if_neg htype, List.append_nil]
    exact ⟨rfl, rfl⟩

/-- The stores of a load are to the targets that begin in a segment. -/
lemma loadSegments_spec {headers : List ProgramHeader}
    (hload : headers.foldlM (loadSegment code elf ptr) image = some image') :
    image'.ownedCode.length = image.ownedCode.length ∧
      ∀ off, off ∈ image'.stores ↔ off ∈ image.stores ∨
        ∃ h ∈ headers, h.type = .load ∧ off ∈ h.targets elf.relas := by
  induction headers generalizing image with
  | nil =>
    cases hload
    simp
  | cons h headers ih =>
    rw [List.foldlM_cons] at hload
    obtain ⟨mid, hmid, hload⟩ := Option.bind_eq_some_iff.mp hload
    obtain ⟨hlen, hstores⟩ := loadSegment_spec hmid
    obtain ⟨hlen', hstores'⟩ := ih hload
    refine ⟨hlen'.trans hlen, fun off => ?_⟩
    rw [hstores', hstores, List.mem_append, or_assoc, List.exists_mem_cons_iff]
    by_cases htype : h.type = .load <;> simp [htype]

/-! ## Images whose sums do not wrap -/

/-- A header with its numbers in 64 bits. -/
def ProgramHeader.ofNat (h : Fomos.ProgramHeader) : ProgramHeader where
  type := h.type
  offset := .ofNat 64 h.offset
  virtualAddr := .ofNat 64 h.virtualAddr
  fileSize := .ofNat 64 h.fileSize
  memSize := .ofNat 64 h.memSize

def ElfFile.ofNat (elf : Fomos.ElfFile) : ElfFile where
  programHeaders := elf.programHeaders.map .ofNat
  relaDyn := elf.relaDyn
  entryPoint := elf.entryPoint

/-- No store so far reaches over the end of the buffer. -/
def Image.Inside (image : Image) : Prop :=
  ∀ off ∈ image.stores, off.toNat + 8 ≤ image.ownedCode.length

instance (image : Image) : Decidable image.Inside := by
  unfold Image.Inside
  infer_instance

section Nat
variable {h : Fomos.ProgramHeader} {globalOff : BitVec 64} {arr : List Rela}

namespace ProgramHeader

lemma toNat_virtualAddr (h : Fomos.ProgramHeader) :
    (ofNat h).virtualAddr.toNat = h.virtualAddr := by
  have := h.inAddressSpace
  exact (BitVec.toNat_ofNat _ _).trans (Nat.mod_eq_of_lt (by omega))

lemma toNat_memSize (h : Fomos.ProgramHeader) : (ofNat h).memSize.toNat = h.memSize := by
  have := h.inAddressSpace
  exact (BitVec.toNat_ofNat _ _).trans (Nat.mod_eq_of_lt (by omega))

lemma toNat_stop (h : Fomos.ProgramHeader) : (ofNat h).stop.toNat = h.stop := by
  rw [stop, BitVec.toNat_add, toNat_virtualAddr, toNat_memSize]
  exact Nat.mod_eq_of_lt h.inAddressSpace

lemma contains_ofNat (addr : BitVec 64) : (ofNat h).Contains addr ↔ h.Contains addr.toNat := by
  rw [Contains, BitVec.le_def, BitVec.lt_def, toNat_virtualAddr, toNat_stop]
  rfl

lemma toNat_extend (maxVirt : BitVec 64) (h : Fomos.ProgramHeader) :
    (extend maxVirt (ofNat h)).toNat = h.extend maxVirt.toNat := by
  unfold extend Fomos.ProgramHeader.extend
  simp only [BitVec.lt_def, toNat_memSize, toNat_stop, BitVec.toNat_ofNat, Nat.zero_mod]
  split_ifs with hpos hlt
  · rw [toNat_stop, Nat.max_eq_right hlt.le]
  · rw [Nat.max_eq_left (Nat.le_of_not_lt hlt)]
  · rfl

end ProgramHeader

lemma ElfFile.toNat_maxVirt (elf : Fomos.ElfFile) :
    (ElfFile.ofNat elf).maxVirt.toNat = elf.maxVirt := by
  have hfold : ∀ (hs : List Fomos.ProgramHeader) (m : BitVec 64),
      ((hs.map ProgramHeader.ofNat).foldl ProgramHeader.extend m).toNat =
        hs.foldl Fomos.ProgramHeader.extend m.toNat := by
    intro hs
    induction hs with
    | nil => exact fun _ => rfl
    | cons h hs ih =>
      intro m
      rw [List.map_cons, List.foldl_cons, List.foldl_cons, ih, ProgramHeader.toNat_extend]
  exact hfold elf.programHeaders 0#64

/-- The bytes of a segment one after the other. -/
lemma copySegment_append {segOffset : BitVec 64} (es es' : List ℕ) (byte : ℕ)
    (ownedCode : List Byte) :
    copySegment code segOffset (es ++ es') byte ownedCode =
      (copySegment code segOffset es byte ownedCode).bind
        (copySegment code segOffset es' (byte + es.length)) := by
  induction es generalizing byte ownedCode with
  | nil => rfl
  | cons e es ih =>
    rw [List.cons_append, copySegment, copySegment, List.length_cons, Nat.add_comm es.length,
      ← Nat.add_assoc]
    cases code[e]? with
    | none => rfl
    | some b =>
      simp only [Option.bind_eq_bind, Option.bind_some]
      split
      · exact ih _ _
      · rfl

/-- Every byte that was copied has found its place. -/
lemma lt_of_copySegment {segOffset : BitVec 64} {es : List ℕ} {byte : ℕ}
    {ownedCode out : List Byte} (h : copySegment code segOffset es byte ownedCode = some out) :
    ∀ j < es.length, (byte + j + segOffset.toNat) % 2 ^ 64 < ownedCode.length := by
  induction es generalizing byte ownedCode with
  | nil => exact fun _ hj => absurd hj (Nat.not_lt_zero _)
  | cons e es ih =>
    rw [copySegment] at h
    obtain ⟨b, -, h⟩ := Option.bind_eq_some_iff.mp h
    dsimp only at h
    split at h
    · rename_i hlt
      intro j hj
      cases j with
      | zero => exact hlt
      | succ j =>
        have := ih h j (Nat.lt_of_succ_lt_succ hj)
        rw [List.length_set] at this
        rwa [← Nat.add_assoc, Nat.add_right_comm byte]
    · cases h

/-- In a buffer that has addresses no index wraps. -/
lemma copySegment_eq {segOffset : BitVec 64} {offset n : ℕ} {ownedCode : List Byte}
    (hlen : ownedCode.length < 2 ^ 64) :
    copySegment code segOffset (List.range' offset n) 0 ownedCode =
      Fomos.copySegment code offset segOffset.toNat n ownedCode := by
  induction n with
  | zero => rfl
  | succ n ih =>
    rw [List.range'_concat, copySegment_append, Fomos.copySegment, ih, ← ih]
    cases hout : copySegment code segOffset (List.range' offset n) 0 ownedCode with
    | none => rfl
    | some out =>
      have hwrap : n + segOffset.toNat < 2 ^ 64 := by
        by_contra hwraps
        have hlast := lt_of_copySegment hout (2 ^ 64 - 1 - segOffset.toNat)
          (by rw [List.length_range']; have := segOffset.isLt; omega)
        have := segOffset.isLt
        omega
      simp only [Option.bind_eq_bind, Option.bind_some, Nat.one_mul, copySegment,
        List.length_range', Nat.zero_add, Nat.mod_eq_of_lt hwrap]

/-- The relocations of a segment end without a result if one of them reaches over the end. -/
lemma relocateSegment_eq (globalOff : BitVec 64) (h : Fomos.ProgramHeader) (arr : List Rela)
    (image : Image) (hinside : image.Inside) :
    Fomos.relocateSegment globalOff h arr image.ownedCode =
      if (relocateSegment globalOff (.ofNat h) arr image).Inside then
        some (relocateSegment globalOff (.ofNat h) arr image).ownedCode
      else none := by
  induction arr generalizing image with
  | nil => exact (if_pos hinside).symm
  | cons r arr ih =>
    have hcontains := ProgramHeader.contains_ofNat (h := h) r.offset
    rw [Fomos.relocateSegment, relocateSegment, List.foldlM_cons, List.foldl_cons]
    by_cases hin : h.Contains r.offset.toNat
    · rw [if_pos hin, if_pos (hcontains.mpr hin), Fomos.relocate]
      by_cases hroom : r.offset.toNat + 8 ≤ image.ownedCode.length
      · rw [if_pos hroom]
        have hinside' : (relocate globalOff image r).Inside := by
          intro off hoff
          rw [relocate, Splice.length_splice]
          obtain hoff | hoff := List.mem_append.mp hoff
          · exact hinside off hoff
          · rwa [List.mem_singleton.mp hoff]
        exact ih _ hinside'
      · rw [if_neg hroom, if_neg]
        · rfl
        · intro hall
          obtain ⟨hlen, hstores⟩ :=
            relocateSegment_spec globalOff (.ofNat h) arr (relocate globalOff image r)
          have hover := hall r.offset (by
            change r.offset ∈ (relocateSegment globalOff _ arr _).stores
            rw [hstores]
            simp [relocate])
          change _ ≤ (relocateSegment globalOff _ arr _).ownedCode.length at hover
          rw [hlen, relocate, Splice.length_splice] at hover
          exact hroom hover
    · rw [if_neg hin, if_neg (mt hcontains.mp hin)]
      exact ih _ hinside

/-- One segment. -/
lemma loadSegment_eq {elf : Fomos.ElfFile} (h : Fomos.ProgramHeader)
    (hfile : h.offset + h.fileSize < 2 ^ 64) (image : Image)
    (hlen : image.ownedCode.length < 2 ^ 64) (hinside : image.Inside) :
    Fomos.loadSegment code elf globalOff image.ownedCode h =
      ((loadSegment code (.ofNat elf) globalOff image (.ofNat h)).filter
        fun image => decide image.Inside).map Image.ownedCode := by
  unfold Fomos.loadSegment loadSegment
  change (if h.type = .load then _ else _) = Option.map _ (Option.filter _
    (if h.type = .load then _ else _))
  split
  · have hstart : (ProgramHeader.ofNat h).offset.toNat = h.offset :=
      (BitVec.toNat_ofNat _ _).trans (Nat.mod_eq_of_lt (by omega))
    have hsize : (ProgramHeader.ofNat h).fileSize.toNat = h.fileSize :=
      (BitVec.toNat_ofNat _ _).trans (Nat.mod_eq_of_lt (by omega))
    have hcount : ((ProgramHeader.ofNat h).offset + (ProgramHeader.ofNat h).fileSize).toNat -
        h.offset = h.fileSize := by
      rw [BitVec.toNat_add, hstart, hsize, Nat.mod_eq_of_lt hfile, Nat.add_sub_cancel_left]
    dsimp only
    rw [hstart, hcount, copySegment_eq hlen, ProgramHeader.toNat_virtualAddr]
    cases hcopy : Fomos.copySegment code h.offset h.virtualAddr h.fileSize image.ownedCode with
    | none => rfl
    | some copied =>
      have hcopied : copied.length = image.ownedCode.length := by
        rw [← ProgramHeader.toNat_virtualAddr, ← copySegment_eq hlen] at hcopy
        exact copySegment_length hcopy
      have hinside' : Image.Inside { image with ownedCode := copied } := by
        intro off hoff
        exact (hinside off hoff).trans_eq hcopied.symm
      change Fomos.relocateSegment globalOff h elf.relas copied = Option.map _ (Option.filter _
        (some (relocateSegment globalOff (.ofNat h) elf.relas { image with ownedCode := copied })))
      rw [relocateSegment_eq globalOff h elf.relas { image with ownedCode := copied } hinside',
        Option.filter_some]
      split_ifs <;> simp_all
  · rw [Option.filter_some_pos (by simpa using hinside)]
    rfl

/-- A store over the end stays one. -/
lemma Image.Inside.of_loadSegments {elf : ElfFile} {headers : List ProgramHeader}
    (h : image'.Inside) (hload : headers.foldlM (loadSegment code elf ptr) image = some image') :
    image.Inside := by
  obtain ⟨hlen, hstores⟩ := loadSegments_spec hload
  intro off hoff
  rw [← hlen]
  exact h off ((hstores off).mpr (.inl hoff))

/-- The segments one after the other. -/
lemma loadSegments_eq {elf : Fomos.ElfFile} (headers : List Fomos.ProgramHeader)
    (hfile : ∀ h ∈ headers, h.offset + h.fileSize < 2 ^ 64) (image : Image)
    (hlen : image.ownedCode.length < 2 ^ 64) (hinside : image.Inside) :
    headers.foldlM (Fomos.loadSegment code elf ptr) image.ownedCode =
      (((headers.map .ofNat).foldlM (loadSegment code (.ofNat elf) ptr) image).filter
        fun image => decide image.Inside).map Image.ownedCode := by
  induction headers generalizing image with
  | nil =>
    change some _ = Option.map _ (Option.filter _ (some image))
    rw [Option.filter_some_pos (by simpa using hinside)]
    rfl
  | cons h headers ih =>
    obtain ⟨hh, hrest⟩ := List.forall_mem_cons.mp hfile
    rw [List.foldlM_cons, List.map_cons, List.foldlM_cons, loadSegment_eq h hh image hlen hinside]
    cases hone : loadSegment code (.ofNat elf) ptr image (.ofNat h) with
    | none => rfl
    | some image' =>
      have hlen' := (loadSegment_spec hone).1
      by_cases hinside' : image'.Inside
      · rw [Option.filter_some_pos (by simpa using hinside')]
        exact ih hrest image' (hlen'.trans_lt hlen) hinside'
      · rw [Option.filter_some_neg (by simpa using hinside')]
        change none = Option.map _ (Option.filter _ (List.foldlM _ image' _))
        cases hall : (headers.map .ofNat).foldlM (loadSegment code (.ofNat elf) ptr) image' with
        | none => rfl
        | some image'' =>
          have hnot : ¬image''.Inside := fun h => hinside' (h.of_loadSegments hall)
          rw [Option.filter_some_neg (by simpa using hnot)]
          rfl

end Nat

/-- Where no sum of an image wraps, the load whose stores have a result only inside of the buffer is
this one, as long as no store reaches over its end. -/
theorem new_eq {parse : List Byte → Option Fomos.ElfFile} {elf : Fomos.ElfFile}
    (lists : List Byte → Bool) (hparse : parse code = some elf)
    (hfile : ∀ h ∈ elf.programHeaders, h.offset + h.fileSize < 2 ^ 64) :
    Fomos.App.new parse code ptr =
      ((App.new (fun code => (parse code).map .ofNat) lists code false ptr).filter fun app =>
        decide (∀ off ∈ app.stores, off.toNat + 8 ≤ app.code.length)).map fun app =>
          ⟨app.code, app.func⟩ := by
  have hmax := ElfFile.toNat_maxVirt elf
  have hstart : Image.Inside ⟨List.replicate elf.maxVirt 0, []⟩ :=
    fun _ hoff => absurd hoff List.not_mem_nil
  have hload := @loadSegments_eq code ptr elf elf.programHeaders hfile
    ⟨List.replicate elf.maxVirt 0, []⟩ (by rw [List.length_replicate, ← hmax]; exact BitVec.isLt _)
    hstart
  have hheaders : (ElfFile.ofNat elf).programHeaders = elf.programHeaders.map .ofNat := rfl
  rw [Fomos.App.new, App.new, hparse]
  simp only [Option.map_some, Option.bind_eq_bind, Option.bind_some, Option.pure_def, hmax, hload,
    hheaders]
  cases (elf.programHeaders.map ProgramHeader.ofNat).foldlM (loadSegment code (.ofNat elf) ptr)
      ⟨List.replicate elf.maxVirt 0, []⟩ with
  | none => rfl
  | some image =>
    by_cases hinside : image.Inside
    · rw [Option.filter_some_pos (by simpa using hinside), Option.bind_some, if_neg (by simp),
        Option.filter_some_pos (by exact decide_eq_true hinside)]
      rfl
    · rw [Option.filter_some_neg (by simpa using hinside), Option.bind_some, if_neg (by simp),
        Option.filter_some_neg (by exact decide_eq_false hinside)]
      rfl

/-! ## Where the stores are -/

namespace ElfFile

/-- No entry that a segment contains begins in the last seven bytes of the buffer. -/
def TargetsEnd (elf : ElfFile) : Prop :=
  ∀ h ∈ elf.loads, ∀ r ∈ elf.relas, h.Contains r.offset → r.offset.toNat + 7 < elf.maxVirt.toNat

end ElfFile

/-- An app that was loaded has been relocated inside its buffer, and starts there, exactly when no
entry of its image begins in the last seven bytes, and the entry point is below the end. -/
theorem stores_inside_iff {parse : List Byte → Option ElfFile} {lists : List Byte → Bool}
    {shown : Bool} {app : App} (hparse : parse code = some elf)
    (hnew : App.new parse lists code shown ptr = some app) :
    app.code.length = elf.maxVirt.toNat ∧
      (((∀ off ∈ app.stores, off.toNat + 8 ≤ app.code.length) ∧
          (app.func - ptr).toNat < app.code.length) ↔
        elf.TargetsEnd ∧ elf.entryPoint.toNat < elf.maxVirt.toNat) := by
  rw [App.new, hparse, Option.bind_eq_bind, Option.bind_some] at hnew
  obtain ⟨image, hload, hnew⟩ := Option.bind_eq_some_iff.mp hnew
  dsimp only at hnew
  split at hnew
  · cases hnew
  · cases hnew
    obtain ⟨hlen, hstores⟩ := loadSegments_spec hload
    rw [List.length_replicate] at hlen
    refine ⟨hlen, ?_⟩
    dsimp only
    rw [hlen, BitVec.add_comm ptr, BitVec.add_sub_cancel]
    apply and_congr_left'
    simp only [hstores, List.not_mem_nil, false_or]
    constructor
    · intro hinside h hh r hr hin
      obtain ⟨hheader, htype⟩ := List.mem_filter.mp hh
      have hmem : r.offset ∈ h.targets elf.relas :=
        List.mem_filter.mpr ⟨List.mem_map_of_mem hr, by simpa using hin⟩
      exact hinside r.offset ⟨h, hheader, by simpa using htype, hmem⟩
    · rintro hends off ⟨h, hheader, htype, hmem⟩
      obtain ⟨hoff, hin⟩ := List.mem_filter.mp hmem
      obtain ⟨r, hr, rfl⟩ := List.mem_map.mp hoff
      exact hends h (List.mem_filter.mpr ⟨hheader, by simpa using htype⟩) r hr (by simpa using hin)

/-- One segment of 16 bytes with one entry at this offset. -/
def oneEntry (off : BitVec 64) : ElfImage where
  programHeaders := [⟨.load, 0, 0, 0, 16, by decide⟩]
  relas := [⟨off, 0⟩]
  data := []
  entryPoint := 0

/-- `ElfFile::new` on the image with this entry. -/
def parseOneEntry (off : BitVec 64) (code : List Byte) : Option ElfFile :=
  ((oneEntry off).parse code).map .ofNat

lemma parseOneEntry_bytes (off : BitVec 64) :
    parseOneEntry off (oneEntry off).bytes = some (.ofNat (oneEntry off).elf) := by
  rw [parseOneEntry, ElfImage.parse_bytes]
  rfl

theorem stores_inside_oneEntry :
    ∃ app, App.new (parseOneEntry 8) (fun _ => true) (oneEntry 8).bytes false 0x1000 = some app ∧
      (∀ off ∈ app.stores, off.toNat + 8 ≤ app.code.length) ∧
      (app.func - 0x1000).toNat < app.code.length := by
  have hnew : (App.new (parseOneEntry 8) (fun _ => true) (oneEntry 8).bytes false
      0x1000).isSome := by
    decide +kernel
  obtain ⟨app, hnew⟩ := Option.isSome_iff_exists.mp hnew
  refine ⟨app, hnew, (stores_inside_iff (parseOneEntry_bytes 8) hnew).2.mpr ⟨?_, by decide⟩⟩
  intro h hh r hr _
  obtain rfl : r = ⟨8, 0⟩ := List.mem_singleton.mp hr
  decide

/-- The entry at the last byte of the buffer is stored over its end. -/
theorem store_over_end : ¬∀ (parse : List Byte → Option ElfFile) (lists : List Byte → Bool)
    (code : List Byte) (shown : Bool) (ptr : BitVec 64) (app : App),
    App.new parse lists code shown ptr = some app →
      (∀ off ∈ app.stores, off.toNat + 8 ≤ app.code.length) ∧
        (app.func - ptr).toNat < app.code.length := by
  intro h
  have hnew : ((App.new (parseOneEntry 15) (fun _ => true) (oneEntry 15).bytes false 0x1000).any
      fun app => decide (15#64 ∈ app.stores ∧ app.code.length = 16)) = true := by
    decide +kernel
  simp only [Option.any_eq_true, decide_eq_true_eq] at hnew
  obtain ⟨app, hnew, hstore, hlen⟩ := hnew
  have hroom := (h _ _ _ _ _ _ hnew).1 15 hstore
  rw [hlen] at hroom
  exact absurd hroom (by decide)

end Fomos.Stores
