import Mathlib
import Fomos.Virtio.Capabilities

/-!
# The map of the physical memory

`kernel_main` completes the bootloader's map of the physical memory: it maps the first 64 GiB in
pages of 2 MiB behind `VIRTUAL_MAPPING_OFFSET`, and leaves a page alone that `map_to` refuses.
`phys_to_virt` relies on it for every access to a device. The page tables belong to another crate;
what they translate is a parameter.
-/
namespace Fomos

def size2MiB : ℕ := 2 * 1024 * 1024
def size1GiB : ℕ := 1024 * 1024 * 1024

/-- `PRESENT | WRITABLE` -/
def physicalMapFlags : ℕ := 1 ||| 2

/-- `Page::containing_address`, for a page of 2 MiB. -/
def page2MiB (addr : ℕ) : ℕ := addr / size2MiB * size2MiB

section Loop
variable {M : Type} (mapTo : ℕ → ℕ → ℕ → M → Except MapToError Unit × M) (offset : ℕ)

/-- `for frame in PhysFrame::range_inclusive(start_frame, end_frame)`, with `news`, `olds` and the
mapper. An address out of range panics. -/
def mapFrames : List ℕ → ℕ × ℕ × M → Option (ℕ × ℕ × M)
  | [], s => some s
  | frame :: frames, (news, olds, m) =>
    (VirtAddr.new ((offset + frame) % 2 ^ 64)).bind fun addr =>
      match mapTo (page2MiB addr) frame physicalMapFlags m with
      | (.ok (), m) => mapFrames frames (news + 1, olds, m)
      | (.error _, m) => mapFrames frames (news, olds + 1, m)

/-- The frames of 2 MiB up to the one that contains the address. -/
def framesTo (maxPhys : ℕ) : List ℕ := (List.range (maxPhys / size2MiB + 1)).map (· * size2MiB)

/-- The first `max_phys` is not used, but computed. -/
def completePhysicalMap (m : M) : Option (ℕ × ℕ × M) :=
  (PhysAddr.new ((offset + (2 ^ 64 - 1)) % 2 ^ 64)).bind fun _ =>
    mapFrames mapTo offset (framesTo (size1GiB * 64 - 1)) (0, 0, m)

end Loop

/-- What is mapped: `map_to` maps exactly the page, or leaves everything as it is. -/
structure MapToLaw {M : Type} (translate : M → ℕ → Option ℕ)
    (mapTo : ℕ → ℕ → ℕ → M → Except MapToError Unit × M) : Prop where
  ok : ∀ page frame flags m m', mapTo page frame flags m = (.ok (), m') →
    ∀ a, translate m' a =
      if page2MiB a = page then some (frame + a % size2MiB) else translate m a
  error : ∀ page frame flags m e m', mapTo page frame flags m = (.error e, m') →
    ∀ a, translate m' a = translate m a
  /-- With frames for the page tables, only a page in use is refused. -/
  used : ∀ page frame flags m e m', page2MiB page = page →
    mapTo page frame flags m = (.error e, m') → ∃ a, page2MiB a = page ∧ (translate m a).isSome

section
variable {M : Type} {translate : M → ℕ → Option ℕ}
  {mapTo : ℕ → ℕ → ℕ → M → Except MapToError Unit × M} {offset : ℕ} {m m' : M}

/-- The memory behind `phys_to_virt` is the physical one. -/
def Complete (translate : M → ℕ → Option ℕ) (offset : ℕ) (m : M) : Prop :=
  ∀ phys : PhysAddr, phys.addr < 64 * size1GiB →
    ∃ virt, physToVirt offset phys = some virt ∧ translate m virt = some phys.addr

/-- The bootloader has mapped whole pages, if any. -/
def WholePages (translate : M → ℕ → Option ℕ) (offset : ℕ) (m : M) : Prop :=
  ∀ phys virt, phys < 64 * size1GiB → VirtAddr.new ((offset + phys) % 2 ^ 64) = some virt →
    translate m virt = some phys ∨ ∀ a, page2MiB a = page2MiB virt → translate m a = none

/-- The page of an address behind the offset. Numbers that differ by a multiple of 2 MiB keep that
distance when bit 47 is extended. -/
lemma virt_page {p virt : ℕ} (h : VirtAddr.new ((offset + p) % 2 ^ 64) = some virt) :
    virt % size2MiB = (offset + p) % size2MiB ∧
      (virt = (offset + p) % 2 ^ 64 ∨
        (offset + p) % 2 ^ 64 / 2 ^ 47 = 1 ∧ virt = (offset + p) % 2 ^ 64 + (2 ^ 64 - 2 ^ 48)) := by
  unfold VirtAddr.new size2MiB at *
  split at h
  · cases h
    omega
  · split at h
    · cases h
      omega
    · cases h

/-- Different frames below 64 GiB have different pages. -/
lemma page_inj {f g v w : ℕ} (hf : f < 64 * size1GiB) (hg : g < 64 * size1GiB)
    (hfg : f % size2MiB = g % size2MiB) (hv : VirtAddr.new ((offset + f) % 2 ^ 64) = some v)
    (hw : VirtAddr.new ((offset + g) % 2 ^ 64) = some w) (hpage : page2MiB v = page2MiB w) :
    f = g := by
  obtain ⟨hvr, hv⟩ := virt_page hv
  obtain ⟨hwr, hw⟩ := virt_page hw
  unfold page2MiB size2MiB size1GiB at *
  omega

/-- An address is in the page of its frame. -/
lemma virt_frame (h : size2MiB ∣ offset) {p virt : ℕ}
    (hvirt : VirtAddr.new ((offset + p) % 2 ^ 64) = some virt) :
    VirtAddr.new ((offset + page2MiB p) % 2 ^ 64) = some (page2MiB virt) ∧
      virt % size2MiB = p % size2MiB := by
  unfold VirtAddr.new page2MiB size2MiB at *
  split at hvirt
  · cases hvirt
    rw [if_pos (by omega)]
    refine ⟨?_, by omega⟩
    congr 1
    omega
  · split at hvirt
    · cases hvirt
      rw [if_neg (by omega), if_pos (by omega)]
      refine ⟨?_, by omega⟩
      congr 1
      omega
    · cases hvirt

/-- What is behind the addresses of one frame. -/
def FrameMapped (translate : M → ℕ → Option ℕ) (offset frame : ℕ) (m : M) : Prop :=
  ∀ p virt, page2MiB p = frame → VirtAddr.new ((offset + p) % 2 ^ 64) = some virt →
    translate m virt = some p

lemma page2MiB_idem (a : ℕ) : page2MiB (page2MiB a) = page2MiB a := by
  unfold page2MiB size2MiB
  omega

lemma page2MiB_add_mod (a : ℕ) : page2MiB a + a % size2MiB = a := by
  unfold page2MiB size2MiB
  omega

lemma page_iff {frame addr p virt : ℕ} (halign : size2MiB ∣ offset)
    (hframe : frame < 64 * size1GiB) (hdvd : page2MiB frame = frame)
    (haddr : VirtAddr.new ((offset + frame) % 2 ^ 64) = some addr) (hp : p < 64 * size1GiB)
    (hvirt : VirtAddr.new ((offset + p) % 2 ^ 64) = some virt) :
    page2MiB virt = page2MiB addr ↔ page2MiB p = frame := by
  have hpage := (virt_frame halign hvirt).1
  constructor
  · intro heq
    refine page_inj ?_ hframe ?_ hpage haddr ((page2MiB_idem virt).trans heq)
    · unfold page2MiB size2MiB size1GiB at *
      omega
    · unfold page2MiB size2MiB at *
      omega
  · rintro rfl
    obtain rfl : page2MiB virt = addr := Option.some.inj (hpage.symm.trans haddr)
    exact (page2MiB_idem virt).symm

/-- One frame: mapped anew or already there, it is behind its addresses. -/
lemma mapTo_frame {frame addr : ℕ} {result : Except MapToError Unit}
    (hlaw : MapToLaw translate mapTo) (halign : size2MiB ∣ offset)
    (hwhole : WholePages translate offset m) (hframe : frame < 64 * size1GiB)
    (hdvd : page2MiB frame = frame) (haddr : VirtAddr.new ((offset + frame) % 2 ^ 64) = some addr)
    (hmap : mapTo (page2MiB addr) frame physicalMapFlags m = (result, m')) :
    WholePages translate offset m' ∧ FrameMapped translate offset frame m' ∧
      ∀ f < 64 * size1GiB, page2MiB f = f → FrameMapped translate offset f m →
        FrameMapped translate offset f m' := by
  have hpage := fun {p virt} => @page_iff offset frame addr p virt halign hframe hdvd haddr
  have hbelow : ∀ {p f}, f < 64 * size1GiB → page2MiB p = f → p < 64 * size1GiB := by
    unfold page2MiB size2MiB size1GiB
    omega
  cases result with
  | error e =>
    have hsame := hlaw.error _ _ _ _ _ _ hmap
    refine ⟨fun phys virt hphys hvirt => ?_, fun p virt hp hvirt => ?_,
      fun f _ _ hf p virt hp hvirt => ?_⟩
    · simp only [hsame]
      exact hwhole phys virt hphys hvirt
    · have hp64 := hbelow hframe hp
      rw [hsame]
      refine (hwhole p virt hp64 hvirt).resolve_right fun hnone => ?_
      obtain ⟨a, ha, hsome⟩ := hlaw.used _ _ _ _ _ _ (page2MiB_idem addr) hmap
      rw [hnone a (ha.trans ((hpage hp64 hvirt).mpr hp).symm)] at hsome
      cases hsome
    · rw [hsame]
      exact hf p virt hp hvirt
  | ok u =>
    have hok := hlaw.ok _ _ _ _ _ hmap
    have hnew : ∀ {p virt}, page2MiB p = frame →
        VirtAddr.new ((offset + p) % 2 ^ 64) = some virt → translate m' virt = some p := by
      intro p virt hp hvirt
      rw [hok, if_pos ((hpage (hbelow hframe hp) hvirt).mpr hp), (virt_frame halign hvirt).2]
      subst hp
      rw [page2MiB_add_mod]
    have hold : ∀ {p virt}, p < 64 * size1GiB → page2MiB p ≠ frame →
        VirtAddr.new ((offset + p) % 2 ^ 64) = some virt → page2MiB virt ≠ page2MiB addr :=
      fun hp hne hvirt heq => hne ((hpage hp hvirt).mp heq)
    refine ⟨fun phys virt hphys hvirt => ?_, fun p virt hp hvirt => hnew hp hvirt,
      fun f hf64 _ hf p virt hp hvirt => ?_⟩
    · by_cases hp : page2MiB phys = frame
      · exact .inl (hnew hp hvirt)
      · have hne := hold hphys hp hvirt
        refine (hwhole phys virt hphys hvirt).imp (fun h => ?_) fun h a ha => ?_
        · rwa [hok, if_neg hne]
        · have hne' : page2MiB a ≠ page2MiB addr := by
            rw [ha]
            exact hne
          rw [hok, if_neg hne']
          exact h a ha
    · by_cases hpf : page2MiB p = frame
      · exact hnew hpf hvirt
      · rw [hok, if_neg (hold (hbelow hf64 hp) hpf hvirt)]
        exact hf p virt hp hvirt

/-- The loop, on frames below 64 GiB. -/
lemma mapFrames_mapped {frames : List ℕ} {s s' : ℕ × ℕ × M} (hlaw : MapToLaw translate mapTo)
    (halign : size2MiB ∣ offset)
    (hframes : ∀ f ∈ frames, f < 64 * size1GiB ∧ page2MiB f = f)
    (hwhole : WholePages translate offset s.2.2) (h : mapFrames mapTo offset frames s = some s') :
    (∀ f ∈ frames, FrameMapped translate offset f s'.2.2) ∧
      ∀ f < 64 * size1GiB, page2MiB f = f → FrameMapped translate offset f s.2.2 →
        FrameMapped translate offset f s'.2.2 := by
  induction frames generalizing s with
  | nil =>
    cases h
    exact ⟨by simp, fun _ _ _ hf => hf⟩
  | cons frame frames ih =>
    obtain ⟨hframe, hframes⟩ := List.forall_mem_cons.mp hframes
    obtain ⟨addr, haddr, hrest⟩ := Option.bind_eq_some_iff.mp h
    obtain ⟨news, olds, m⟩ := s
    generalize hmap : mapTo (page2MiB addr) frame physicalMapFlags m = r at hrest
    obtain ⟨result, m₁⟩ := r
    obtain ⟨hwhole₁, hnew, hkept⟩ :=
      mapTo_frame hlaw halign hwhole hframe.1 hframe.2 haddr hmap
    have hmapped : ∀ {t : ℕ × ℕ × M}, t.2.2 = m₁ → mapFrames mapTo offset frames t = some s' →
        (∀ f ∈ frame :: frames, FrameMapped translate offset f s'.2.2) ∧
          ∀ f < 64 * size1GiB, page2MiB f = f → FrameMapped translate offset f m →
            FrameMapped translate offset f s'.2.2 := by
      rintro t rfl ht
      obtain ⟨hall, hkept'⟩ := ih hframes hwhole₁ ht
      refine ⟨List.forall_mem_cons.mpr ⟨hkept' _ hframe.1 hframe.2 hnew, hall⟩, ?_⟩
      exact fun f hf hdvd hfm => hkept' f hf hdvd (hkept f hf hdvd hfm)
    cases result with
    | ok u => exact hmapped rfl hrest
    | error e => exact hmapped rfl hrest

/-- Each frame is counted once. -/
lemma mapFrames_count {frames : List ℕ} {s s' : ℕ × ℕ × M}
    (h : mapFrames mapTo offset frames s = some s') :
    s'.1 + s'.2.1 = s.1 + s.2.1 + frames.length ∧ s.2.1 ≤ s'.2.1 := by
  induction frames generalizing s with
  | nil =>
    cases h
    exact ⟨rfl, le_rfl⟩
  | cons frame frames ih =>
    obtain ⟨addr, -, hrest⟩ := Option.bind_eq_some_iff.mp h
    obtain ⟨news, olds, m⟩ := s
    generalize mapTo (page2MiB addr) frame physicalMapFlags m = r at hrest
    obtain ⟨result, m₁⟩ := r
    cases result with
    | ok u | error e =>
      have hcount := ih hrest
      simp only [List.length_cons] at hcount ⊢
      omega

lemma mapFrames_append (front rear : List ℕ) (s : ℕ × ℕ × M) :
    mapFrames mapTo offset (front ++ rear) s =
      (mapFrames mapTo offset front s).bind (mapFrames mapTo offset rear) := by
  induction front generalizing s with
  | nil => rfl
  | cons frame front ih =>
    obtain ⟨news, olds, m⟩ := s
    simp only [List.cons_append, mapFrames, Option.bind_assoc]
    congr 1
    funext addr
    split
    · exact ih _
    · exact ih _

/-- No address is out of range when none of the sums is. -/
lemma mapFrames_isSome {frames : List ℕ}
    (h : ∀ f ∈ frames, (VirtAddr.new ((offset + f) % 2 ^ 64)).isSome) (s : ℕ × ℕ × M) :
    (mapFrames mapTo offset frames s).isSome := by
  induction frames generalizing s with
  | nil => rfl
  | cons frame frames ih =>
    obtain ⟨haddr, hrest⟩ := List.forall_mem_cons.mp h
    obtain ⟨addr, haddr⟩ := Option.isSome_iff_exists.mp haddr
    obtain ⟨news, olds, m⟩ := s
    simp only [mapFrames, haddr, Option.bind_some]
    split
    · exact ih hrest _
    · exact ih hrest _

lemma mem_framesTo {f maxPhys : ℕ} :
    f ∈ framesTo maxPhys ↔ page2MiB f = f ∧ f ≤ maxPhys := by
  simp only [framesTo, List.mem_map, List.mem_range]
  unfold page2MiB
  constructor
  · rintro ⟨i, hi, rfl⟩
    have hpos : 0 < size2MiB := by decide
    refine ⟨by rw [Nat.mul_div_cancel _ hpos], ?_⟩
    exact (Nat.le_div_iff_mul_le hpos).mp (Nat.le_of_lt_succ hi)
  · rintro ⟨hdvd, hle⟩
    exact ⟨f / size2MiB, Nat.lt_succ_of_le (Nat.div_le_div_right hle), hdvd⟩

/-- A virtual address is below `2 ^ 47` or in the upper half. -/
lemma VirtAddr.new_bounds {addr virt : ℕ} (h : VirtAddr.new addr = some virt) :
    virt < 2 ^ 47 ∨ 2 ^ 64 - 2 ^ 47 ≤ virt ∧ virt < 2 ^ 64 := by
  unfold VirtAddr.new at h
  split at h
  · cases h
    omega
  · split at h
    · cases h
      omega
    · cases h

/-- The lower half leaves room for 64 GiB. -/
lemma virt_isSome {p : ℕ} (hoffset : offset < 2 ^ 47) (hp : p < 64 * size1GiB) :
    (VirtAddr.new ((offset + p) % 2 ^ 64)).isSome := by
  unfold VirtAddr.new size1GiB at *
  split
  · rfl
  · rw [if_pos (by omega)]
    rfl

lemma lt_64GiB {f : ℕ} (hf : f ≤ size1GiB * 64 - 1) : f < 64 * size1GiB := by
  unfold size1GiB at *
  omega

/-- The last frame, mapped anew behind an offset inside a page, is not where it should be. -/
lemma last_shifted {frame : ℕ} {front : List ℕ} {s s' : ℕ × ℕ × M} {virt : ℕ}
    (hlaw : MapToLaw translate mapTo) (h : mapFrames mapTo offset (front ++ [frame]) s = some s')
    (holds : s'.2.1 = s.2.1) (hvirt : VirtAddr.new ((offset + frame) % 2 ^ 64) = some virt) :
    translate s'.2.2 virt = some (frame + virt % size2MiB) := by
  rw [mapFrames_append] at h
  obtain ⟨⟨news, olds, m⟩, hfront, hlast⟩ := Option.bind_eq_some_iff.mp h
  have hle := (mapFrames_count hfront).2
  simp only [mapFrames, hvirt, Option.bind_some] at hlast
  generalize hmap : mapTo (page2MiB virt) frame physicalMapFlags m = r at hlast
  obtain ⟨result, m₁⟩ := r
  cases result with
  | ok u =>
    cases hlast
    rw [hlaw.ok _ _ _ _ _ hmap, if_pos rfl]
  | error e =>
    cases hlast
    simp only at holds hle
    omega

/-- The first `max_phys` decides whether the kernel starts: behind an offset in the upper half, or
behind none, it panics. Otherwise every frame is mapped or was, and the memory below 64 GiB is
behind `phys_to_virt` if the offset is a multiple of 2 MiB; behind another one, new pages are not
where `phys_to_virt` looks. -/
theorem physical_map {physicalMemoryOffset : ℕ} (hlaw : MapToLaw translate mapTo)
    (hoffset : VirtAddr.new physicalMemoryOffset = some offset) :
    ((completePhysicalMap mapTo offset m).isSome ↔ 0 < offset ∧ offset < 2 ^ 47) ∧
      ∀ news olds m', completePhysicalMap mapTo offset m = some (news, olds, m') →
        news + olds = 32768 ∧
        (size2MiB ∣ offset → WholePages translate offset m → Complete translate offset m') ∧
        (olds = 0 → Complete translate offset m' → size2MiB ∣ offset) := by
  have hcanon := VirtAddr.new_bounds hoffset
  have hphys : (PhysAddr.new ((offset + (2 ^ 64 - 1)) % 2 ^ 64)).isSome ↔
      0 < offset ∧ offset < 2 ^ 47 := by
    unfold PhysAddr.new
    split
    · simp only [Option.isSome_some, true_iff]
      omega
    · simp only [Option.isSome_none, false_iff, Bool.false_eq_true]
      omega
  have hsome : (completePhysicalMap mapTo offset m).isSome ↔ 0 < offset ∧ offset < 2 ^ 47 := by
    unfold completePhysicalMap
    refine ⟨fun h => ?_, fun h => ?_⟩
    · refine hphys.mp ?_
      by_contra hnone
      rw [Option.not_isSome_iff_eq_none.mp hnone] at h
      cases h
    · obtain ⟨p, hp⟩ := Option.isSome_iff_exists.mp (hphys.mpr h)
      rw [hp, Option.bind_some]
      exact mapFrames_isSome (fun f hf => virt_isSome h.2 (lt_64GiB (mem_framesTo.mp hf).2)) _
  refine ⟨hsome, fun news olds m' h => ?_⟩
  have hlow : offset < 2 ^ 47 := (hsome.mp (by rw [h]; rfl)).2
  obtain ⟨-, -, hloop⟩ := Option.bind_eq_some_iff.mp h
  refine ⟨?_, fun hdvd hwhole phys hlt => ?_, fun holds hcomplete => ?_⟩
  · have hcount := (mapFrames_count hloop).1
    simp only [framesTo, List.length_map, List.length_range, zero_add] at hcount
    rw [hcount]
    decide
  · obtain ⟨virt, hvirt⟩ := Option.isSome_iff_exists.mp (virt_isSome hlow hlt)
    have hframes : ∀ f ∈ framesTo (size1GiB * 64 - 1), f < 64 * size1GiB ∧ page2MiB f = f :=
      fun f hf => ⟨lt_64GiB (mem_framesTo.mp hf).2, (mem_framesTo.mp hf).1⟩
    refine ⟨virt, hvirt, (mapFrames_mapped hlaw hdvd hframes hwhole hloop).1 (page2MiB phys.addr)
      (mem_framesTo.mpr ⟨page2MiB_idem _, ?_⟩) _ _ rfl hvirt⟩
    unfold page2MiB size2MiB size1GiB at *
    omega
  · obtain ⟨last, hlast⟩ : ∃ l, l = (size1GiB * 64 - 1) / size2MiB * size2MiB := ⟨_, rfl⟩
    have hmod2 : last % size2MiB = 0 := by
      rw [hlast]
      decide
    have hlt : last < 64 * size1GiB := by
      rw [hlast]
      decide
    have hfront : framesTo (size1GiB * 64 - 1) =
        (List.range ((size1GiB * 64 - 1) / size2MiB)).map (· * size2MiB) ++ [last] := by
      rw [hlast, framesTo, List.range_succ, List.map_append]
      rfl
    rw [hfront] at hloop
    obtain ⟨virt, hvirt, htranslate⟩ :=
      hcomplete ⟨last, hlt.trans (by decide)⟩ hlt
    have hshifted := last_shifted hlaw hloop holds hvirt
    have hin : virt % size2MiB = 0 := by
      have hsum := Option.some.inj (hshifted.symm.trans htranslate)
      exact Nat.add_eq_left.mp hsum
    have hmod := (virt_page hvirt).1
    simp only at hmod
    unfold size2MiB at *
    omega

end

/-- A table with one entry for each page. -/
def tableMapTo (page frame _flags : ℕ) (m : ℕ → Option ℕ) :
    Except MapToError Unit × (ℕ → Option ℕ) :=
  if (m page).isSome then (.error .parentEntryHugePage, m)
  else (.ok (), Function.update m page (some frame))

def tableTranslate (m : ℕ → Option ℕ) (a : ℕ) : Option ℕ :=
  (m (page2MiB a)).map (· + a % size2MiB)

lemma tableMapTo_law : MapToLaw tableTranslate tableMapTo where
  ok page frame flags m m' h a := by
    unfold tableMapTo at h
    split at h
    · cases h
    · cases h
      unfold tableTranslate
      by_cases hpage : page2MiB a = page
      · rw [hpage, Function.update_self, if_pos rfl]
        rfl
      · rw [Function.update_of_ne hpage, if_neg hpage]
  error page frame flags m e m' h a := by
    unfold tableMapTo at h
    split at h
    · cases h
      rfl
    · cases h
  used page frame flags m e m' hpage h := by
    unfold tableMapTo at h
    split at h
    next hused => exact ⟨page, hpage, by rwa [tableTranslate, hpage, Option.isSome_map]⟩
    next => cases h

/-- With nothing mapped and the offset at 1 GiB. -/
theorem physical_map_empty : ∃ news olds m',
    completePhysicalMap tableMapTo size1GiB (fun _ => none) = some (news, olds, m') ∧
      news + olds = 32768 ∧ Complete tableTranslate size1GiB m' := by
  have hoffset : VirtAddr.new size1GiB = some size1GiB := by decide
  have hmap := physical_map (m := fun _ => none) tableMapTo_law hoffset
  obtain ⟨⟨news, olds, m'⟩, h⟩ := Option.isSome_iff_exists.mp (hmap.1.mpr (by decide))
  obtain ⟨hcount, hcomplete, -⟩ := hmap.2 news olds m' h
  refine ⟨news, olds, m', h, hcount, hcomplete (by decide) fun phys virt _ _ => .inr fun a _ => ?_⟩
  rfl

end Fomos
