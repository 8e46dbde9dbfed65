import Mathlib
import Fomos.Library.Cells
import Fomos.Library.Iter

/-!
# Values as bytes

The layout of a type says how many bytes its values take, at which multiples they start, and which
bytes they are. The fields of a structure follow one another, each moved up to its alignment, and
the structure ends at a multiple of its own. Nothing is known of the padding between them.
-/
namespace ReprC

/-- A number in `n` bytes, the lowest first. -/
def toBytes : ℕ → ℕ → List (BitVec 8)
  | 0, _ => []
  | n + 1, value => BitVec.ofNat 8 value :: toBytes n (value / 256)

def ofBytes : List (BitVec 8) → ℕ
  | [] => 0
  | b :: bytes => b.toNat + 256 * ofBytes bytes

@[simp] lemma length_toBytes (n value : ℕ) : (toBytes n value).length = n := by
  induction n generalizing value with
  | zero => rfl
  | succ n ih => rw [toBytes, List.length_cons, ih]

lemma ofBytes_toBytes (n value : ℕ) : ofBytes (toBytes n value) = value % 256 ^ n := by
  induction n generalizing value with
  | zero => rw [pow_zero, Nat.mod_one, toBytes, ofBytes]
  | succ n ih =>
    rw [toBytes, ofBytes, ih, BitVec.toNat_ofNat]
    conv_rhs => rw [pow_succ', Nat.mod_mul]

/-- The next multiple of an alignment. -/
def alignUp (n align : ℕ) : ℕ := (n + align - 1) / align * align

lemma le_alignUp (n : ℕ) {align : ℕ} (h : 0 < align) : n ≤ alignUp n align := by
  have hdiv := Nat.lt_div_mul_add h (a := n + align - 1)
  unfold alignUp
  omega

/-- What stands in memory where a value has no byte of its own, by its place. -/
abbrev Junk := ℕ → BitVec 8

namespace Junk

/-- The junk from some place on. -/
def tail (junk : Junk) (start : ℕ) : Junk := fun i => junk (start + i)

def padding (junk : Junk) (first last : ℕ) : List (BitVec 8) :=
  (List.range (last - first)).map (junk.tail first)

@[simp] lemma length_padding (junk : Junk) (first last : ℕ) :
    (junk.padding first last).length = last - first := by
  rw [padding, List.length_map, List.length_range]

end Junk

/-- How the values of a type stand in memory. -/
structure Layout (α : Type*) where
  size : ℕ
  align : ℕ
  encode : Junk → α → List (BitVec 8)
  decode : List (BitVec 8) → Option α
  align_pos : 0 < align
  length_encode : ∀ junk a, (encode junk a).length = size
  decode_encode : ∀ junk a, decode (encode junk a) = some a

attribute [simp] Layout.length_encode Layout.decode_encode

universe u
variable {α β γ : Type u}

namespace Layout

/-- An unsigned integer of `n` bytes. -/
def uint (n : ℕ) (h : 0 < n) : Layout (BitVec (8 * n)) where
  size := n
  align := n
  encode _ v := toBytes n v.toNat
  decode bytes := some (BitVec.ofNat (8 * n) (ofBytes bytes))
  align_pos := h
  length_encode _ v := length_toBytes n v.toNat
  decode_encode _ v := by
    rw [ofBytes_toBytes, show 256 = 2 ^ 8 from rfl, ← pow_mul, Nat.mod_eq_of_lt v.isLt,
      BitVec.ofNat_toNat, BitVec.setWidth_eq]

def u8 : Layout (BitVec 8) := uint 1 (Nat.succ_pos 0)
def u32 : Layout (BitVec 32) := uint 4 (Nat.succ_pos 3)
def u64 : Layout (BitVec 64) := uint 8 (Nat.succ_pos 7)

/-- The values of another type, each told by one of these. -/
def ofLeftInverse (l : Layout α) (into : β → α) (back : α → Option β)
    (h : ∀ b, back (into b) = some b) : Layout β where
  size := l.size
  align := l.align
  encode junk b := l.encode junk (into b)
  decode bytes := (l.decode bytes).bind back
  align_pos := l.align_pos
  length_encode junk b := l.length_encode junk (into b)
  decode_encode junk b := by rw [l.decode_encode, Option.bind_some, h]

/-- The elements of an array follow one another. -/
def encodeList (l : Layout α) : Junk → List α → List (BitVec 8)
  | _, [] => []
  | junk, a :: as => l.encode junk a ++ l.encodeList (junk.tail l.size) as

def decodeList (l : Layout α) : ℕ → List (BitVec 8) → Option (List α)
  | 0, _ => some []
  | n + 1, bytes => do
    let a ← l.decode (bytes.take l.size)
    let as ← l.decodeList n (bytes.drop l.size)
    return a :: as

lemma length_encodeList (l : Layout α) (junk : Junk) (as : List α) :
    (l.encodeList junk as).length = as.length * l.size := by
  induction as generalizing junk with
  | nil => simp [encodeList]
  | cons a as ih =>
    rw [encodeList, List.length_append, ih, l.length_encode, List.length_cons, Nat.succ_mul,
      Nat.add_comm]

lemma decodeList_encodeList (l : Layout α) (junk : Junk) (as : List α) :
    l.decodeList as.length (l.encodeList junk as) = some as := by
  induction as generalizing junk with
  | nil => rfl
  | cons a as ih =>
    have hlen := l.length_encode junk a
    rw [encodeList, List.length_cons, decodeList, List.take_left' hlen, List.drop_left' hlen,
      l.decode_encode, ih]
    rfl

def array (n : ℕ) (l : Layout α) : Layout (Vector α n) where
  size := n * l.size
  align := l.align
  encode junk v := l.encodeList junk v.toList
  decode bytes := (l.decodeList n bytes).bind fun as =>
    if h : as.length = n then some ⟨as.toArray, h⟩ else none
  align_pos := l.align_pos
  length_encode junk v := by rw [length_encodeList, Vector.length_toList]
  decode_encode junk v := by
    have hdecode := l.decodeList_encodeList junk v.toList
    rw [Vector.length_toList] at hdecode
    rw [hdecode, Option.bind_some, dif_pos v.length_toList]
    exact congrArg some (Vector.toArray_inj.mp Array.toArray_toList)

/-- A partial function of every element of an array. -/
lemma mapM_toList {n : ℕ} (f : α → Option β) (v : Vector α n) :
    v.toList.mapM f = (v.mapM f).map Vector.toList := by
  rw [Vector.toList, ← Array.toList_mapM, ← Vector.toArray_mapM]
  cases v.mapM f <;> rfl

lemma mapM_eq_some {as : List α} {bs : List β} {f : α → Option β} :
    as.mapM f = some bs ↔ as.map f = bs.map some := by
  induction as generalizing bs with
  | nil => cases bs <;> simp [List.mapM_nil]
  | cons a as ih =>
    rw [List.mapM_cons, List.map_cons]
    constructor
    · intro h
      obtain ⟨b, hb, hrest⟩ := Option.bind_eq_some_iff.mp h
      obtain ⟨bs', hbs', hcons⟩ := Option.bind_eq_some_iff.mp hrest
      cases hcons
      rw [List.map_cons, hb, ih.mp hbs']
    · intro h
      cases bs with
      | nil => cases h
      | cons b bs =>
        obtain ⟨hb, hbs⟩ := List.cons.inj h
        rw [hb, ih.mpr hbs]
        rfl

lemma mapM_vector {n : ℕ} {f : α → Option β} {v : Vector α n} {w : Vector β n} :
    v.mapM f = some w ↔ v.map f = w.map some := by
  have hlist : v.mapM f = some w ↔ v.toList.mapM f = some w.toList := by
    rw [mapM_toList, Option.map_eq_some_iff]
    constructor
    · exact fun h => ⟨w, h, rfl⟩
    · rintro ⟨w', h, hw⟩
      rw [h, Vector.toList_inj.mp hw]
  rw [hlist, mapM_eq_some, ← Vector.toList_map, ← Vector.toList_map, Vector.toList_inj]

/-- It is defined when it is on each of them. -/
lemma isSome_mapM {n : ℕ} (f : α → Option β) (v : Vector α n) :
    (v.mapM f).isSome ↔ ∀ a ∈ v.toList, (f a).isSome := by
  rw [← Iter.mapM_isSome_iff, mapM_toList, Option.isSome_map]

/-- Whoever takes values of `l` for values of `l'`, in place, finds what `f` makes of them: nothing
where they are no values of that type. -/
structure Reads (l : Layout α) (l' : Layout β) (f : α → Option β) : Prop where
  size : l.size = l'.size
  align : l.align = l'.align
  decode : ∀ junk a, l'.decode (l.encode junk a) = f a

namespace Reads
variable {l : Layout α} {l' : Layout β} {f : α → Option β}

lemma refl (l : Layout α) : Reads l l some := ⟨rfl, rfl, l.decode_encode⟩

lemma ofLeftInverse (l : Layout α) (into : β → α) (back : α → Option β)
    (h : ∀ b, back (into b) = some b) :
    Reads (l.ofLeftInverse into back h) l fun b => some (into b) :=
  ⟨rfl, rfl, fun junk b => l.decode_encode junk (into b)⟩

lemma toLeftInverse (l : Layout α) (into : β → α) (back : α → Option β)
    (h : ∀ b, back (into b) = some b) : Reads l (l.ofLeftInverse into back h) back := by
  refine ⟨rfl, rfl, fun junk a => ?_⟩
  change (l.decode (l.encode junk a)).bind back = back a
  rw [l.decode_encode, Option.bind_some]

lemma decodeList (h : Reads l l' f) (junk : Junk) (as : List α) :
    l'.decodeList as.length (l.encodeList junk as) = as.mapM f := by
  induction as generalizing junk with
  | nil => rfl
  | cons a as ih =>
    have hlen : (l.encode junk a).length = l'.size := (l.length_encode junk a).trans h.size
    rw [encodeList, List.length_cons, Layout.decodeList, List.take_left' hlen,
      List.drop_left' hlen, h.decode, ih, List.mapM_cons]

lemma array (h : Reads l l' f) (n : ℕ) : Reads (l.array n) (l'.array n) fun v => v.mapM f := by
  refine ⟨congrArg (n * ·) h.size, h.align, fun junk v => ?_⟩
  have hdecode := h.decodeList junk v.toList
  rw [Vector.length_toList] at hdecode
  change ((l'.decodeList n (l.encodeList junk v.toList)).bind _) = _
  rw [hdecode, mapM_toList]
  cases v.mapM f with
  | none => rfl
  | some w =>
    rw [Option.map_some, Option.bind_some, dif_pos w.length_toList]
    exact congrArg some (Vector.toArray_inj.mp Array.toArray_toList)

end Reads

/-- A value stands at an address, as its type is aligned. -/
structure At (l : Layout α) (mem : ℕ → BitVec 8) (addr : ℕ) (a : α) : Prop where
  aligned : l.align ∣ addr
  bytes : ∃ junk, Cells.load mem addr l.size = l.encode junk a

/-- The value behind a reference, which must be aligned and to a value of its type. -/
def deref (l : Layout α) (mem : ℕ → BitVec 8) (addr : ℕ) : Option α :=
  if l.align ∣ addr then l.decode (Cells.load mem addr l.size) else none

variable {l : Layout α} {l' : Layout β} {f : α → Option β} {mem : ℕ → BitVec 8} {addr : ℕ} {a : α}

lemma Reads.deref (h : Reads l l' f) (hat : l.At mem addr a) : l'.deref mem addr = f a := by
  obtain ⟨junk, hbytes⟩ := hat.bytes
  rw [Layout.deref, if_pos (h.align ▸ hat.aligned), ← h.size, hbytes, h.decode]

lemma At.deref (hat : l.At mem addr a) : l.deref mem addr = some a := (Reads.refl l).deref hat

end Layout

/-- The first fields of a structure `α`, with what is known of a value from them: its constructor
applied to them. -/
structure Fields (α β : Type u) where
  size : ℕ
  align : ℕ
  encode : Junk → α → List (BitVec 8)
  decode : List (BitVec 8) → Option β
  partly : α → β
  align_pos : 0 < align
  length_encode : ∀ junk a, (encode junk a).length = size
  /-- Whatever comes behind the fields. -/
  decode_append : ∀ junk a rest, decode (encode junk a ++ rest) = some (partly a)

namespace Fields

/-- A structure with this constructor, and no field yet. -/
def start (mk : β) : Fields α β where
  size := 0
  align := 1
  encode _ _ := []
  decode _ := some mk
  partly _ := mk
  align_pos := Nat.one_pos
  length_encode _ _ := rfl
  decode_append _ _ _ := rfl

/-- Where a field comes to stand behind some others. -/
def offset (f : Fields α β) (l : Layout γ) : ℕ := alignUp f.size l.align

/-- The fields, and the padding in front of another one. -/
def padded (f : Fields α β) (l : Layout γ) (junk : Junk) (a : α) : List (BitVec 8) :=
  f.encode junk a ++ junk.padding f.size (f.offset l)

lemma length_padded (f : Fields α β) (l : Layout γ) (junk : Junk) (a : α) :
    (f.padded l junk a).length = f.offset l := by
  have hle := le_alignUp f.size l.align_pos
  rw [padded, List.length_append, f.length_encode, Junk.length_padding]
  exact Nat.add_sub_cancel' hle

/-- One field more. -/
def field (f : Fields α (γ → β)) (get : α → γ) (l : Layout γ) : Fields α β where
  size := f.offset l + l.size
  align := max f.align l.align
  encode junk a := f.padded l junk a ++ l.encode (junk.tail (f.offset l)) (get a)
  decode bytes := do
    let mk ← f.decode bytes
    let c ← l.decode ((bytes.drop (f.offset l)).take l.size)
    return mk c
  partly a := f.partly a (get a)
  align_pos := lt_max_of_lt_left f.align_pos
  length_encode junk a := by rw [List.length_append, length_padded, l.length_encode]
  decode_append junk a rest := by
    rw [List.append_assoc, List.drop_left' (length_padded f l junk a),
      List.take_left' (l.length_encode _ (get a)), l.decode_encode, padded, List.append_assoc,
      f.decode_append]
    rfl

lemma encode_field (f : Fields α (γ → β)) (get : α → γ) (l : Layout γ) (junk : Junk) (a : α) :
    (f.field get l).encode junk a =
      f.padded l junk a ++ l.encode (junk.tail (f.offset l)) (get a) := rfl

/-- The structure of these fields, which ends at a multiple of its alignment. -/
def close (f : Fields α α) (h : ∀ a, f.partly a = a) : Layout α where
  size := alignUp f.size f.align
  align := f.align
  encode junk a := f.encode junk a ++ junk.padding f.size (alignUp f.size f.align)
  decode := f.decode
  align_pos := f.align_pos
  length_encode junk a := by
    have hle := le_alignUp f.size f.align_pos
    rw [List.length_append, f.length_encode, Junk.length_padding]
    exact Nat.add_sub_cancel' hle
  decode_encode junk a := by rw [f.decode_append, h]

/-- Whoever takes these fields for those of another structure finds them where it looks for its
own. -/
structure Reads {α' β' : Type u} (f : Fields α β) (f' : Fields α' β') (r : α → Option β') :
    Prop where
  size : f.size = f'.size
  align : f.align = f'.align
  decode : ∀ junk a rest, f'.decode (f.encode junk a ++ rest) = r a

namespace Reads
variable {α' β' γ' : Type u}

lemma start (mk : β) (mk' : β') :
    Reads (Fields.start (α := α) mk) (Fields.start (α := α') mk') fun _ => some mk' :=
  ⟨rfl, rfl, fun _ _ _ => rfl⟩

lemma field {f : Fields α (γ → β)} {f' : Fields α' (γ' → β')} {r : α → Option (γ' → β')}
    {l : Layout γ} {l' : Layout γ'} {g : γ → Option γ'} (h : Reads f f' r) (hl : l.Reads l' g)
    (get : α → γ) (get' : α' → γ') :
    Reads (f.field get l) (f'.field get' l') fun a => do
      let mk ← r a
      let c ← g (get a)
      return mk c := by
  have hoffset : f.offset l = f'.offset l' := by
    rw [offset, offset, h.size, hl.align]
  refine ⟨?_, ?_, fun junk a rest => ?_⟩
  · change f.offset l + l.size = f'.offset l' + l'.size
    rw [hoffset, hl.size]
  · change max f.align l.align = max f'.align l'.align
    rw [h.align, hl.align]
  · have hpadded : (f.padded l junk a).length = f'.offset l' :=
      (length_padded f l junk a).trans hoffset
    have hfield : (l.encode (junk.tail (f.offset l)) (get a)).length = l'.size :=
      (l.length_encode _ _).trans hl.size
    rw [encode_field, List.append_assoc]
    change (do
      let mk ← f'.decode (f.padded l junk a ++ _)
      let c ← l'.decode ((List.drop (f'.offset l') (f.padded l junk a ++ _)).take l'.size)
      return mk c) = _
    rw [List.drop_left' hpadded, List.take_left' hfield, hl.decode, padded, List.append_assoc,
      h.decode]

lemma close {f : Fields α α} {f' : Fields α' α'} {r : α → Option α'} (h : Reads f f' r)
    (hf : ∀ a, f.partly a = a) (hf' : ∀ a, f'.partly a = a) :
    (f.close hf).Reads (f'.close hf') r := by
  refine ⟨?_, h.align, fun junk a => h.decode junk a _⟩
  change alignUp f.size f.align = alignUp f'.size f'.align
  rw [h.size, h.align]

end Reads

/-- Whoever reads another structure at the start of a value reads this part of it. -/
structure Leads (lead : Fields γ γ) (first : α → γ) (f : Fields α β) : Prop where
  decode : ∀ junk a rest, lead.decode (f.encode junk a ++ rest) = some (first a)

variable {lead : Fields γ γ} {first : α → γ}

lemma leads_self (f : Fields γ γ) (h : ∀ c, f.partly c = c) : Leads f id f :=
  ⟨fun junk a rest => by rw [f.decode_append, h, id]⟩

/-- The first field is not moved up. -/
lemma leads_start (mk : γ → β) (h : ∀ c, lead.partly c = c) :
    Leads lead first ((start mk).field first (lead.close h)) := by
  constructor
  intro junk a rest
  have hzero : alignUp 0 lead.align = 0 := by
    have hpos := lead.align_pos
    rw [alignUp, Nat.zero_add, Nat.div_eq_of_lt (Nat.sub_lt hpos Nat.one_pos), Nat.zero_mul]
  have hpadded : (start (α := α) mk).padded (lead.close h) junk a = [] :=
    List.length_eq_zero_iff.mp ((length_padded ..).trans hzero)
  rw [encode_field, hpadded, List.nil_append]
  simp only [close, List.append_assoc, lead.decode_append, h]

lemma Leads.field {δ : Type u} {f : Fields α (δ → β)} (h : Leads lead first f) (get : α → δ)
    (l : Layout δ) : Leads lead first (f.field get l) :=
  ⟨fun junk a rest => by
    rw [encode_field, padded, List.append_assoc, List.append_assoc, h.decode]⟩

end Fields

end ReprC
