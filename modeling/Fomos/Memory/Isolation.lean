import Mathlib
import Fomos.Memory.Callers

/-!
# What the callers of the frame allocator map

Each frame that the allocator gives is used once, behind a page or for a page table. So each part
of a caller is given what it mapped and on which frames, and the parts are composed. Of the page
tables, which belong to another crate, only the mappings of 4 KiB and the frames that tables are in
are looked at.
-/
namespace Fomos
open FrameCalls

/-- The pages that `init_heap` maps. -/
def heapPages : List Page :=
  (Iter.stepBy (Page.containingAddress heapStart).startAddress
    ((Page.containingAddress (heapStart + heapSize - 1)).startAddress + 1) 4096).map Page.mk

/-- What holds of a program's replies and of its result. -/
abbrev FrameCalls.Ensures {α : Type} (p : FrameCalls α)
    (Q : List (Option PhysFrame) → α → Prop) : Prop :=
  Calls.Ensures BootInfoFrameAllocator.allocateFrame p Q

/-- The frames among the replies. -/
def taken (replies : List (Option PhysFrame)) : Multiset PhysFrame := ↑replies.reduceOption

@[simp] lemma taken_nil : taken [] = 0 := rfl

@[simp] lemma taken_append (rs rs' : List (Option PhysFrame)) :
    taken (rs ++ rs') = taken rs + taken rs' := by
  rw [taken, List.reduceOption_append, ← Multiset.coe_add]
  rfl

@[simp] lemma taken_some (f : PhysFrame) (rs : List (Option PhysFrame)) :
    taken (some f :: rs) = f ::ₘ taken rs := by
  rw [taken, List.reduceOption_cons_of_some]
  rfl

@[simp] lemma taken_none (rs : List (Option PhysFrame)) : taken (none :: rs) = taken rs := by
  rw [taken, List.reduceOption_cons_of_none, taken]

lemma mem_taken {f : PhysFrame} {rs : List (Option PhysFrame)} : f ∈ taken rs ↔ some f ∈ rs := by
  rw [taken, Multiset.mem_coe, List.reduceOption_mem_iff]

/-- The page tables: where they lead each page of 4 KiB, and the frames that they are in. `map_to`
maps an unused page, or fails and maps nothing, and makes new tables in frames that it is given. -/
structure PageTableLaw {M : Type} (lookup : M → Page → Option PhysFrame)
    (isTable : M → PhysFrame → Prop)
    (mapTo : Page → PhysFrame → ℕ → M → FrameCalls (Except MapToError Unit × M)) : Prop where
  ok : ∀ page frame flags m, FrameCalls.Ensures (mapTo page frame flags m) fun _ x =>
    ∀ u, x.1 = .ok u →
      lookup m page = none ∧ lookup x.2 = Function.update (lookup m) page (some frame)
  error : ∀ page frame flags m, FrameCalls.Ensures (mapTo page frame flags m) fun _ x =>
    ∀ e, x.1 = .error e → lookup x.2 = lookup m
  tables : ∀ page frame flags m, FrameCalls.Ensures (mapTo page frame flags m) fun rs x =>
    ∀ f, isTable x.2 f → isTable m f ∨ some f ∈ rs

section Law
variable {M : Type} (lookup : M → Page → Option PhysFrame) (isTable : M → PhysFrame → Prop)

/-- From `m` to `m'` these pages were mapped, none of which had been, and these frames were taken
for page tables. -/
structure Maps (m m' : M) (entries : Multiset (Page × PhysFrame)) (tables : Multiset PhysFrame) :
    Prop where
  mapped : ∀ page f, lookup m' page = some f ↔ lookup m page = some f ∨ (page, f) ∈ entries
  unused : ∀ e ∈ entries, lookup m e.1 = none
  pages : (entries.map Prod.fst).Nodup
  made : ∀ f, isTable m' f → isTable m f ∨ f ∈ tables

/-- Each of some frames was used once at most: behind one page, or for a page table. -/
def Uses (P : Page → PhysFrame → Prop) (frames : Multiset PhysFrame) (m m' : M) : Prop :=
  ∃ entries tables, Maps lookup isTable m m' entries tables ∧
    entries.map Prod.snd + tables ≤ frames ∧ ∀ e ∈ entries, P e.1 e.2

variable {lookup isTable} {P : Page → PhysFrame → Prop} {frames frames' : Multiset PhysFrame}
  {m m' m'' : M}

lemma Maps.kept {entries : Multiset (Page × PhysFrame)} {tables : Multiset PhysFrame}
    (h : Maps lookup isTable m m' entries tables) {page : Page} {f : PhysFrame}
    (hf : lookup m page = some f) : lookup m' page = some f :=
  (h.mapped page f).mpr (.inl hf)

namespace Uses

lemma refl (m : M) : Uses lookup isTable P 0 m m :=
  ⟨0, 0, ⟨by simp, by simp, by simp, by simp⟩, le_rfl, by simp⟩

lemma mono (h : Uses lookup isTable P frames m m') (hle : frames ≤ frames') :
    Uses lookup isTable P frames' m m' := by
  obtain ⟨entries, tables, hmaps, hframes, hP⟩ := h
  exact ⟨entries, tables, hmaps, hframes.trans hle, hP⟩

lemma kept (h : Uses lookup isTable P frames m m') {page : Page} {f : PhysFrame}
    (hf : lookup m page = some f) : lookup m' page = some f := by
  obtain ⟨entries, tables, hmaps, -⟩ := h
  exact hmaps.kept hf

lemma trans (h : Uses lookup isTable P frames m m') (h' : Uses lookup isTable P frames' m' m'') :
    Uses lookup isTable P (frames + frames') m m'' := by
  obtain ⟨entries, tables, hmaps, hframes, hP⟩ := h
  obtain ⟨entries', tables', hmaps', hframes', hP'⟩ := h'
  refine ⟨entries + entries', tables + tables',
    ⟨fun page f => ?_, fun e he => ?_, ?_, fun f hf => ?_⟩, ?_, fun e he => ?_⟩
  · rw [hmaps'.mapped, hmaps.mapped, Multiset.mem_add, or_assoc]
  · obtain he | he := Multiset.mem_add.mp he
    · exact hmaps.unused e he
    · -- what was mapped before would be mapped still
      by_contra hsome
      obtain ⟨f, hf⟩ := Option.ne_none_iff_exists'.mp hsome
      have hfresh := hmaps'.unused e he
      rw [hmaps.kept hf] at hfresh
      cases hfresh
  · rw [Multiset.map_add, Multiset.nodup_add]
    refine ⟨hmaps.pages, hmaps'.pages, Multiset.disjoint_left.mpr fun hpage hpage' => ?_⟩
    obtain ⟨e, he, rfl⟩ := Multiset.mem_map.mp hpage
    obtain ⟨e', he', heq⟩ := Multiset.mem_map.mp hpage'
    have hfresh := hmaps'.unused e' he'
    rw [heq, (hmaps.mapped e.1 e.2).mpr (.inr he)] at hfresh
    cases hfresh
  · obtain hf | hf := hmaps'.made f hf
    · exact (hmaps.made f hf).imp_right fun hf => Multiset.mem_add.mpr (.inl hf)
    · exact .inr (Multiset.mem_add.mpr (.inr hf))
  · rw [Multiset.map_add, add_add_add_comm]
    exact add_le_add hframes hframes'
  · exact (Multiset.mem_add.mp he).elim (hP e) (hP' e)

end Uses

lemma PageTableLaw.uses {mapTo : Page → PhysFrame → ℕ → M → FrameCalls (Except MapToError Unit × M)}
    (hlaw : PageTableLaw lookup isTable mapTo) {page : Page} {frame : PhysFrame} (hP : P page frame)
    (flags : ℕ) (m : M) : FrameCalls.Ensures (mapTo page frame flags m) fun rs x =>
      Uses lookup isTable P (frame ::ₘ taken rs) m x.2 := by
  intro s x hx
  have hok := hlaw.ok page frame flags m s x hx
  have herror := hlaw.error page frame flags m s x hx
  have htables := hlaw.tables page frame flags m s x hx
  have hmade : ∀ f, isTable x.2 f → isTable m f ∨
      f ∈ taken ((mapTo page frame flags m).run BootInfoFrameAllocator.allocateFrame s).replies :=
    fun f hf => (htables f hf).imp_right mem_taken.mpr
  cases hresult : x.1 with
  | error e =>
    have hsame := herror e hresult
    exact ⟨0, _, ⟨by simp [hsame], by simp, by simp, hmade⟩,
      by simpa using Multiset.le_cons_self _ frame, by simp⟩
  | ok u =>
    obtain ⟨hnone, hupdate⟩ := hok u hresult
    refine ⟨{(page, frame)}, _, ⟨fun p f => ?_, by simpa using hnone, by simp, hmade⟩, by simp,
      by simpa using hP⟩
    rw [hupdate, Function.update_apply]
    split
    · rename_i hp
      subst hp
      simp [hnone, eq_comm]
    · rename_i hp
      simp [hp]

end Law

/-! ## What the callers do -/

namespace FrameCalls
variable {M : Type} {lookup : M → Page → Option PhysFrame} {isTable : M → PhysFrame → Prop}
  {mapTo : Page → PhysFrame → ℕ → M → FrameCalls (Except MapToError Unit × M)}
  {P : Page → PhysFrame → Prop} {m : M}

/-- A page at the address of its frame. -/
def Identity (P : Page → PhysFrame → Prop) : Prop :=
  ∀ (frame : PhysFrame) start, VirtAddr.new frame.startAddress = some start →
    P (Page.containingAddress start) frame

lemma identity_uses (hlaw : PageTableLaw lookup isTable mapTo) (hP : Identity P) (m : M) :
    Ensures (createIdentityVirtFromPhys mapTo m) fun rs x =>
      Uses lookup isTable P (taken rs) m x.2 := by
  refine .bind ensures_take ?_
  rintro _ frame rfl
  refine .bind (ensures_unwrap _) ?_
  rintro _ start ⟨rfl, hstart⟩
  refine .bind (hlaw.uses (hP frame start hstart) pageTableFlags m) fun rs x huses => ?_
  refine .ret ?_
  simpa using huses

/-- Where the loop succeeds, each page is mapped that was not. -/
lemma mapPages_uses (hlaw : PageTableLaw lookup isTable mapTo) {pages : List Page}
    (hP : ∀ page ∈ pages, ∀ f, P page f) (m : M) : Ensures (mapPages mapTo pages m) fun rs x =>
      Uses lookup isTable P (taken rs) m x.2 ∧
        ∀ u, x.1 = .ok u → ∀ page ∈ pages, lookup m page = none ∧ (lookup x.2 page).isSome := by
  induction pages generalizing m with
  | nil => exact .ret ⟨.refl m, by simp⟩
  | cons page pages ih =>
    rw [mapPages]
    refine .bind ensures_allocateFrame ?_
    rintro _ reply rfl
    cases reply with
    | none => exact .ret ⟨(Uses.refl m).mono (Multiset.zero_le _), by simp⟩
    | some frame =>
      have hmapTo : Ensures (mapTo page frame pageTableFlags m) fun rs x =>
          Uses lookup isTable P (frame ::ₘ taken rs) m x.2 ∧ ∀ u, x.1 = .ok u →
            lookup m page = none ∧ lookup x.2 = Function.update (lookup m) page (some frame) :=
        fun s x hx => ⟨hlaw.uses (hP page (.head _) frame) pageTableFlags m s x hx,
          hlaw.ok page frame pageTableFlags m s x hx⟩
      refine .bind hmapTo ?_
      rintro rs ⟨result, m₁⟩ ⟨huses, hok⟩
      cases result with
      | error e => exact .ret ⟨by simpa using huses, by simp⟩
      | ok u =>
        obtain ⟨hnone, hupdate⟩ := hok u rfl
        refine (ih (fun p hp => hP p (.tail _ hp)) m₁).mono ?_
        rintro rs' x ⟨huses', hmapped⟩
        refine ⟨by simpa using huses.trans huses', fun v hv => ?_⟩
        refine List.forall_mem_cons.mpr ⟨⟨hnone, ?_⟩, fun p hp => ?_⟩
        · have hpage : lookup m₁ page = some frame := by
            rw [hupdate, Function.update_self]
          rw [huses'.kept hpage]
          rfl
        · obtain ⟨hunused, hsome⟩ := hmapped v hv p hp
          have hne : p ≠ page := by
            rintro rfl
            rw [hupdate, Function.update_self] at hunused
            cases hunused
          rw [hupdate, Function.update_of_ne hne] at hunused
          exact ⟨hunused, hsome⟩

/-- One program after the other. -/
lemma uses_bind {α β : Type} {p : FrameCalls (β × M)} {f : β × M → FrameCalls (α × M)}
    (hp : Ensures p fun rs x => Uses lookup isTable P (taken rs) m x.2)
    (hf : ∀ b m', Ensures (f (b, m')) fun rs x => Uses lookup isTable P (taken rs) m' x.2) :
    Ensures (p >>= f) fun rs x => Uses lookup isTable P (taken rs) m x.2 := by
  refine .bind hp ?_
  rintro rs ⟨b, m'⟩ huses
  refine (hf b m').mono fun rs' x huses' => ?_
  rw [taken_append]
  exact huses.trans huses'

lemma uses_unwrapOk {α β ε : Type} {r : Except ε β} {f : β → FrameCalls (α × M)}
    (hf : ∀ b, Ensures (f b) fun rs x => Uses lookup isTable P (taken rs) m x.2) :
    Ensures (unwrapOk r >>= f) fun rs x => Uses lookup isTable P (taken rs) m x.2 := by
  cases r with
  | error e => exact .panic
  | ok b => exact hf b

lemma queueBuffers_uses (hlaw : PageTableLaw lookup isTable mapTo) (hP : Identity P) (size : ℕ)
    (m : M) : Ensures (queueBuffers mapTo size m) fun rs x =>
      Uses lookup isTable P (taken rs) m x.2 := by
  induction size generalizing m with
  | zero => exact .ret (.refl m)
  | succ size ih =>
    refine uses_bind (identity_uses hlaw hP m) fun page m₁ => uses_unwrapOk fun page => ?_
    refine uses_bind (ih m₁) fun addrs m₂ => ?_
    exact .ret (.refl m₂)

lemma initQueue_uses (hlaw : PageTableLaw lookup isTable mapTo) (hP : Identity P) (size : ℕ)
    (m : M) : Ensures (initQueue mapTo size m) fun rs x =>
      Uses lookup isTable P (taken rs) m x.2 := by
  refine uses_bind (identity_uses hlaw hP m) fun desc m₁ => uses_unwrapOk fun desc => ?_
  refine uses_bind (queueBuffers_uses hlaw hP size m₁) fun addrs m₂ => ?_
  refine uses_bind (identity_uses hlaw hP m₂) fun driver m₃ => uses_unwrapOk fun driver => ?_
  refine uses_bind (identity_uses hlaw hP m₃) fun device m₄ => uses_unwrapOk fun device => ?_
  exact .ret (.refl m₄)

lemma mapContiguous_uses (hlaw : PageTableLaw lookup isTable mapTo) (hP : Identity P)
    {first : PhysFrame} {i : ℕ} {fs : List PhysFrame} (hfs : Contiguous first i fs) (m : M) :
    Ensures (mapContiguous mapTo first fs.length i m) fun rs x =>
      Uses lookup isTable P (↑fs + taken rs) m x.2 := by
  induction fs generalizing i m with
  | nil => exact .ret (.refl m)
  | cons f fs ih =>
    obtain ⟨haddr, hfs⟩ := hfs
    rw [List.length_cons, mapContiguous]
    refine .bind (ensures_unwrap _) ?_
    rintro _ phys ⟨rfl, hphys⟩
    refine .bind (ensures_unwrap _) ?_
    rintro _ virt ⟨rfl, hvirt⟩
    have hframe : PhysFrame.containingAddress phys = f := by
      rw [haddr, PhysAddr.new, dif_pos f.lt] at hphys
      cases hphys
      exact PhysFrame.ext (Nat.div_mul_cancel f.aligned)
    rw [haddr] at hvirt
    rw [hframe]
    refine .bind (hlaw.uses (hP f virt hvirt) pageTableFlags m) ?_
    rintro rs ⟨result, m₁⟩ huses
    cases result with
    | error e =>
      refine .ret (huses.mono ?_)
      simp [← Multiset.cons_coe, Multiset.cons_add]
    | ok u =>
      refine (ih hfs m₁).mono fun rs' x huses' => (huses.trans huses').mono (le_of_eq ?_)
      simp only [taken_append, taken_nil, ← Multiset.cons_coe, Multiset.cons_add, zero_add]
      rw [add_left_comm]

lemma taken_map_some (fs : List PhysFrame) : taken (fs.map some) = ↑fs := by
  induction fs with
  | nil => rfl
  | cons f fs ih => rw [List.map_cons, taken_some, ih, Multiset.cons_coe]

lemma createIdentityVirtFromPhysN_uses (hlaw : PageTableLaw lookup isTable mapTo)
    (hP : Identity P) (pages : ℕ) (m : M) :
    Ensures (createIdentityVirtFromPhysN mapTo pages m) fun rs x =>
      Uses lookup isTable P (taken rs) m x.2 := by
  refine .bind ensures_take ?_
  rintro _ first rfl
  refine .bind (takeContiguous_ensures first (pages - 1) 1) ?_
  rintro _ - ⟨fs, rfl, hlen, hfs⟩
  have hmap : Ensures (mapContiguous mapTo first pages 0 m) fun rs x =>
      Uses lookup isTable P (first ::ₘ ↑fs + taken rs) m x.2 := by
    obtain rfl | hpos := Nat.eq_zero_or_pos pages
    · exact .ret ((Uses.refl m).mono (Multiset.zero_le _))
    · have hpages : (first :: fs).length = pages := by
        rw [List.length_cons, hlen]
        omega
      have hall : Contiguous first 0 (first :: fs) := by
        refine ⟨?_, hfs⟩
        have := first.lt
        omega
      have huses := mapContiguous_uses hlaw hP hall m
      rw [hpages] at huses
      exact huses
  refine .bind hmap ?_
  rintro rs ⟨result, m₁⟩ huses
  have hframes : taken [some first] + (taken (fs.map some) + taken rs) =
      first ::ₘ ↑fs + taken rs := by
    rw [taken_map_some, taken_some, taken_nil, Multiset.cons_add, Multiset.cons_add, zero_add]
  cases result with
  | error e =>
    refine .ret ?_
    rw [List.append_nil, taken_append, taken_append, hframes]
    exact huses
  | ok u =>
    refine .bind (ensures_unwrap _) ?_
    rintro _ start ⟨rfl, -⟩
    refine .ret ?_
    rw [List.append_nil, List.append_nil, taken_append, taken_append, hframes]
    exact huses

end FrameCalls

open FrameCalls

/-- Another caller that maps no pages of 4 KiB, as for those of 2 MiB, and takes frames for page
tables alone. -/
def OnlyTables {M : Type} (lookup : M → Page → Option PhysFrame) (isTable : M → PhysFrame → Prop)
    (program : M → FrameCalls M) : Prop :=
  ∀ m, FrameCalls.Ensures (program m) fun rs m' =>
    lookup m' = lookup m ∧ ∀ f, isTable m' f → isTable m f ∨ some f ∈ rs

/-- Who maps which pages: those of the heap, or a page at the address of its frame. -/
def Placed (page : Page) (frame : PhysFrame) : Prop :=
  page ∈ heapPages ∨ VirtAddr.new frame.startAddress = some page.startAddress

lemma identity_placed : Identity Placed := by
  intro frame start hstart
  refine .inr ?_
  have haligned : 4096 ∣ start := by
    have hdvd := frame.aligned
    unfold VirtAddr.new at hstart
    split at hstart
    · cases hstart
      exact hdvd
    · split at hstart
      · cases hstart
        omega
      · cases hstart
  rw [hstart, Page.containingAddress, Nat.div_mul_cancel haligned]

section Callers
variable {M : Type} {lookup : M → Page → Option PhysFrame} {isTable : M → PhysFrame → Prop}
  {mapTo : Page → PhysFrame → ℕ → M → FrameCalls (Except MapToError Unit × M)} {m : M}

/-- After `init_heap` the whole heap is mapped. -/
lemma program_uses (hlaw : PageTableLaw lookup isTable mapTo) (caller : Caller M)
    (hother : ∀ p, caller = .other p → OnlyTables lookup isTable p) (m : M) :
    FrameCalls.Ensures (caller.program mapTo m) fun rs m' =>
      Uses lookup isTable Placed (taken rs) m m' ∧
        (caller = .initHeap → ∀ page ∈ heapPages,
          lookup m page = none ∧ (lookup m' page).isSome) := by
  cases caller with
  | initHeap =>
    refine .bind (mapPages_uses (P := Placed) hlaw (fun page hpage f => .inl hpage) m) ?_
    rintro rs ⟨result, m₁⟩ ⟨huses, hmapped⟩
    cases result with
    | error e => exact .panic
    | ok u => exact .ret ⟨by simpa using huses, fun _ => hmapped u rfl⟩
  | initQueue size =>
    refine .bind (initQueue_uses hlaw identity_placed size m) ?_
    rintro rs ⟨addrs, m₁⟩ huses
    exact .ret ⟨by simpa using huses, nofun⟩
  | framebuffer pages =>
    refine .bind (createIdentityVirtFromPhysN_uses hlaw identity_placed pages m) ?_
    rintro rs ⟨result, m₁⟩ huses
    cases result with
    | error e => exact .panic
    | ok page => exact .ret ⟨by simpa using huses, nofun⟩
  | other p =>
    refine (hother p rfl m).mono ?_
    rintro rs m' ⟨hsame, htables⟩
    refine ⟨⟨0, taken rs, ⟨by simp [hsame], by simp, by simp, fun f hf => ?_⟩, by simp, by simp⟩,
      nofun⟩
    exact (htables f hf).imp_right mem_taken.mpr

lemma callAll_uses (hlaw : PageTableLaw lookup isTable mapTo) {callers : List (Caller M)}
    (hother : ∀ p, .other p ∈ callers → OnlyTables lookup isTable p) (m : M) :
    FrameCalls.Ensures (callAll mapTo callers m) fun rs m' =>
      Uses lookup isTable Placed (taken rs) m m' ∧
        (.initHeap ∈ callers → ∀ page ∈ heapPages,
          lookup m page = none ∧ (lookup m' page).isSome) := by
  induction callers generalizing m with
  | nil => exact .ret ⟨.refl m, by simp⟩
  | cons caller callers ih =>
    refine .bind (program_uses hlaw caller (fun p hp => hother p (hp ▸ .head _)) m) ?_
    rintro rs m₁ ⟨huses, hheap⟩
    refine (ih (fun p hp => hother p (.tail _ hp)) m₁).mono ?_
    rintro rs' m' ⟨huses', hheap'⟩
    refine ⟨by simpa using huses.trans huses', fun hmem page hpage => ?_⟩
    obtain rfl | hmem := List.mem_cons.mp hmem
    · obtain ⟨hnone, hsome⟩ := hheap rfl page hpage
      obtain ⟨f, hf⟩ := Option.isSome_iff_exists.mp hsome
      exact ⟨hnone, Option.isSome_iff_exists.mpr ⟨f, huses'.kept hf⟩⟩
    · obtain ⟨hnone, hsome⟩ := hheap' hmem page hpage
      refine ⟨?_, hsome⟩
      by_contra hmapped
      obtain ⟨f, hf⟩ := Option.ne_none_iff_exists'.mp hmapped
      rw [huses.kept hf] at hnone
      cases hnone

end Callers

/-- The whole frame is in a usable region. -/
def PhysFrame.InUsable (memoryMap : List MemoryRegion) (f : PhysFrame) : Prop :=
  ∃ r ∈ memoryMap, r.kind = .usable ∧ r.start ≤ f.startAddress ∧ f.startAddress + 4096 ≤ r.stop

instance (memoryMap : List MemoryRegion) (f : PhysFrame) : Decidable (f.InUsable memoryMap) :=
  inferInstanceAs (Decidable (∃ r ∈ memoryMap, _))

/-- What became of the memory from `m` to `m'`. A page that is new has its frame for itself. -/
structure Isolated {M : Type} (memoryMap : List MemoryRegion) (lookup : M → Page → Option PhysFrame)
    (isTable : M → PhysFrame → Prop) (m m' : M) : Prop where
  kept : ∀ page f, lookup m page = some f → lookup m' page = some f
  placed : ∀ page f, lookup m page = none → lookup m' page = some f → Placed page f
  usable : ∀ page f, lookup m page = none → lookup m' page = some f → f.InUsable memoryMap
  alone : ∀ page page' f, lookup m page = none → lookup m' page = some f →
    lookup m' page' = some f → page' = page
  noTable : ∀ page f, lookup m page = none → lookup m' page = some f → ¬isTable m' f

section Isolated
variable {M : Type} {lookup : M → Page → Option PhysFrame} {isTable : M → PhysFrame → Prop}
  {memoryMap : List MemoryRegion} {frames : Multiset PhysFrame} {m m' : M}

lemma nodup_taken {rs : List (Option PhysFrame)}
    (h : ∀ (i j : ℕ) f, rs[i]? = some (some f) → rs[j]? = some (some f) → i = j) :
    (taken rs).Nodup := by
  induction rs with
  | nil => exact Multiset.nodup_zero
  | cons reply rs ih =>
    have hrest := ih fun i j f hi hj => Nat.succ.inj (h (i + 1) (j + 1) f hi hj)
    cases reply with
    | none => rwa [taken_none]
    | some f =>
      rw [taken_some, Multiset.nodup_cons, mem_taken]
      refine ⟨fun hf => ?_, hrest⟩
      obtain ⟨i, hi⟩ := List.mem_iff_getElem?.mp hf
      cases h 0 (i + 1) f rfl hi

/-- Frames that are used once, and that were in no use before, isolate the new pages. -/
lemma Uses.isolated (h : Uses lookup isTable Placed frames m m') (hnodup : frames.Nodup)
    (husable : ∀ f ∈ frames, f.InUsable memoryMap)
    (htables : ∀ f, isTable m f → ¬f.InUsable memoryMap)
    (hmapped : ∀ page f, lookup m page = some f → ¬f.InUsable memoryMap) :
    Isolated memoryMap lookup isTable m m' := by
  obtain ⟨entries, tables, hmaps, hframes, hplaced⟩ := h
  obtain ⟨hbehind, -, hdisjoint⟩ := Multiset.nodup_add.mp (Multiset.nodup_of_le hframes hnodup)
  have hnew : ∀ page f, lookup m page = none → lookup m' page = some f → (page, f) ∈ entries := by
    intro page f hnone hf
    obtain hold | he := (hmaps.mapped page f).mp hf
    · rw [hnone] at hold
      cases hold
    · exact he
  have hentry : ∀ e ∈ entries, e.2.InUsable memoryMap := fun e he =>
    husable e.2 (Multiset.mem_of_le hframes
      (Multiset.mem_add.mpr (.inl (Multiset.mem_map_of_mem Prod.snd he))))
  refine ⟨fun page f hf => hmaps.kept hf, fun page f hnone hf => ?_, fun page f hnone hf => ?_,
    fun page page' f hnone hf hf' => ?_, fun page f hnone hf htable => ?_⟩
  · exact hplaced _ (hnew page f hnone hf)
  · exact hentry _ (hnew page f hnone hf)
  · have he := hnew page f hnone hf
    obtain hold | he' := (hmaps.mapped page' f).mp hf'
    · exact absurd (hentry _ he) (hmapped page' f hold)
    · exact congrArg Prod.fst (Multiset.inj_on_of_nodup_map hbehind _ he' _ he rfl)
  · have he := hnew page f hnone hf
    obtain hold | hmade := hmaps.made f htable
    · exact htables f hold (hentry _ he)
    · exact Multiset.disjoint_left.mp hdisjoint (Multiset.mem_map_of_mem Prod.snd he) hmade

/-- Whoever calls, in whatever order: where the boot loader is in no usable memory, no page of the
heap, of a queue or of a framebuffer shares its frame with another page or with a page table. -/
theorem memory_isolated (hvalid : ValidMap memoryMap)
    {mapTo : Page → PhysFrame → ℕ → M → FrameCalls (Except MapToError Unit × M)}
    (hlaw : PageTableLaw lookup isTable mapTo) {callers : List (Caller M)}
    (hother : ∀ p, .other p ∈ callers → OnlyTables lookup isTable p)
    (htables : ∀ f, isTable m f → ¬f.InUsable memoryMap)
    (hmapped : ∀ page f, lookup m page = some f → ¬f.InUsable memoryMap)
    (hcalls : (firstRun memoryMap (callAll mapTo callers m)).replies.length < 2 ^ 58)
    (hm' : (firstRun memoryMap (callAll mapTo callers m)).result = some m') :
    Isolated memoryMap lookup isTable m m' ∧
      (.initHeap ∈ callers → ∀ page ∈ heapPages, lookup m page = none ∧
        (lookup m' page).isSome) := by
  have hrun := handedOut hvalid (callAll mapTo callers m) hcalls
  obtain ⟨huses, hheap⟩ := callAll_uses hlaw hother m _ _ hm'
  have hnodup := nodup_taken hrun.distinct
  exact ⟨huses.isolated hnodup (fun f hf => hrun.usable f (mem_taken.mp hf)) htables hmapped, hheap⟩

end Isolated

/-! ## Page tables of one level -/

/-- The last level of the page tables: the pages, and for each 2 MiB the frame of their table. -/
structure LastTables where
  entries : List (Page × PhysFrame)
  tables : List (ℕ × PhysFrame)

namespace LastTables

def lookup (m : LastTables) (page : Page) : Option PhysFrame := m.entries.lookup page

def isTable (m : LastTables) (f : PhysFrame) : Prop := f ∈ m.tables.map Prod.snd

def insert (m : LastTables) (page : Page) (frame : PhysFrame) : LastTables :=
  { m with entries := (page, frame) :: m.entries }

def addTable (m : LastTables) (page : Page) (table : PhysFrame) : LastTables :=
  { m with tables := (page.startAddress / 2 ^ 21, table) :: m.tables }

def mapTo (page : Page) (frame : PhysFrame) (_ : ℕ) (m : LastTables) :
    FrameCalls (Except MapToError Unit × LastTables) :=
  match m.lookup page with
  | some old => pure (.error (.pageAlreadyMapped old), m)
  | none =>
    if m.tables.lookup (page.startAddress / 2 ^ 21) = none then do
      match ← allocateFrame with
      | none => pure (.error .frameAllocationFailed, m)
      | some table => pure (.ok (), (m.addTable page table).insert page frame)
    else pure (.ok (), m.insert page frame)

variable {m : LastTables} {page : Page} {frame : PhysFrame}

lemma lookup_insert :
    (m.insert page frame).lookup = Function.update m.lookup page (some frame) := by
  funext p
  rw [lookup, insert, List.lookup_cons, Function.update_apply]
  by_cases hp : p = page
  · simp [hp]
  · rw [beq_eq_false_iff_ne.mpr hp, if_neg hp]
    rfl

@[simp] lemma lookup_addTable : (m.addTable page frame).lookup = m.lookup := rfl

lemma isTable_insert : (m.insert page frame).isTable = m.isTable := rfl

lemma isTable_addTable {f : PhysFrame} :
    (m.addTable page frame).isTable f ↔ f = frame ∨ m.isTable f := List.mem_cons

/-- What one call does, by its result. -/
lemma ensures_mapTo (page : Page) (frame : PhysFrame) (flags : ℕ) (m : LastTables) :
    FrameCalls.Ensures (mapTo page frame flags m) fun rs x =>
      (∀ u, x.1 = .ok u → m.lookup page = none ∧
        x.2.lookup = Function.update m.lookup page (some frame)) ∧
      (∀ e, x.1 = .error e → x.2.lookup = m.lookup) ∧
      ∀ f, x.2.isTable f → m.isTable f ∨ some f ∈ rs := by
  unfold mapTo
  split
  · exact .ret ⟨nofun, fun _ _ => rfl, fun f hf => .inl hf⟩
  · rename_i hnone
    split
    · refine .bind ensures_allocateFrame ?_
      rintro _ reply rfl
      cases reply with
      | none => exact .ret ⟨nofun, fun _ _ => rfl, fun f hf => .inl hf⟩
      | some table =>
        refine .ret ⟨fun _ _ => ⟨hnone, ?_⟩, nofun, fun f hf => ?_⟩
        · rw [lookup_insert, lookup_addTable]
        · rw [isTable_insert, isTable_addTable] at hf
          obtain rfl | hf := hf
          · exact .inr (.head _)
          · exact .inl hf
    · refine .ret ⟨fun _ _ => ⟨hnone, lookup_insert⟩, nofun, fun f hf => .inl ?_⟩
      rwa [isTable_insert] at hf

lemma pageTableLaw : PageTableLaw lookup isTable mapTo where
  ok page frame flags m := (ensures_mapTo page frame flags m).mono fun _ _ h => h.1
  error page frame flags m := (ensures_mapTo page frame flags m).mono fun _ _ h => h.2.1
  tables page frame flags m := (ensures_mapTo page frame flags m).mono fun _ _ h => h.2.2

end LastTables

/-- 14 usable frames between those of the boot loader. -/
def oneUsable : List MemoryRegion :=
  [⟨0, 0x1000, .bootloader⟩, ⟨0x1000, 0xF000, .usable⟩, ⟨0xF000, 0x11000, .bootloader⟩]

/-- The frame of this number. -/
def PhysFrame.ofNat (n : ℕ) : PhysFrame where
  startAddress := n % 2 ^ 40 * 4096
  aligned := Nat.dvd_mul_left 4096 _
  lt := by have := Nat.mod_lt n (Nat.two_pow_pos 40); omega

/-- The boot loader has mapped a page to the first frame, by a table in the last one. -/
def bootTables : LastTables :=
  ⟨[(⟨0x400000⟩, .ofNat 0)], [(2, .ofNat 16)]⟩

/-- A framebuffer, which needs a table, and a queue with four buffers. -/
theorem memory_isolated_bootTables :
    let run := firstRun oneUsable
      (callAll LastTables.mapTo [.framebuffer 2, .initQueue 4] bootTables)
    ∃ m', run.result = some m' ∧ m'.entries.length = 10 ∧ m'.tables.length = 2 ∧
      Isolated oneUsable LastTables.lookup LastTables.isTable bootTables m' := by
  have hvalid : ValidMap oneUsable := ⟨by decide, by simp [oneUsable]⟩
  have htables : ∀ f, bootTables.isTable f → ¬f.InUsable oneUsable := by
    intro f hf
    obtain rfl := List.mem_singleton.mp hf
    decide
  have hmapped : ∀ page f, bootTables.lookup page = some f → ¬f.InUsable oneUsable := by
    intro page f hf
    obtain ⟨before, after, hentries, -⟩ := List.lookup_eq_some_iff.mp hf
    have hmem : (page, f) ∈ bootTables.entries := by simp [hentries]
    cases List.mem_singleton.mp hmem
    decide
  have hrun : ((firstRun oneUsable (callAll LastTables.mapTo [.framebuffer 2, .initQueue 4]
      bootTables)).result.any fun m' =>
        decide (m'.entries.length = 10 ∧ m'.tables.length = 2)) = true := by
    decide +kernel
  simp only [Option.any_eq_true, decide_eq_true_eq] at hrun
  obtain ⟨m', hm', hentries, htablesLength⟩ := hrun
  exact ⟨m', hm', hentries, htablesLength, (memory_isolated hvalid LastTables.pageTableLaw (by simp)
    htables hmapped (by decide +kernel) hm').1⟩

end Fomos
