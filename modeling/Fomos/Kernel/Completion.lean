import Mathlib
import Fomos.Kernel.DeviceLaw
import Fomos.Kernel.Registered

/-!
# Completion slots

The slots of `WAKERS` are shared by all devices and named by the descriptor id alone. As long as
the ids that the devices use at the same time stay apart, the slot of a pending request says
whether its own chain was consumed, and a slot that nobody waits on is empty.
-/
namespace Fomos

/-- The slot that the future waits on, with the device it waits for. -/
def Fut.slot (f : Fut) : Option (DevId × ℕ) :=
  match f.await with
  | some (.idWait g head _ _) => some (g, head)
  | _ => none

/-- Both futures have the same request in flight, at the same point. -/
def Fut.SameRequest (f f' : Fut) : Prop :=
  ∀ g head tail len,
    (f.await = some (.idWait g head tail len) ↔ f'.await = some (.idWait g head tail len)) ∧
    (f.await = some (.setFree g head tail len) ↔ f'.await = some (.setFree g head tail len))

theorem Fut.SameRequest.inFlight {f f' : Fut} (h : f.SameRequest f') (g : DevId)
    (head tail len : ℕ) : f.InFlight g head tail len ↔ f'.InFlight g head tail len :=
  or_congr (h g head tail len).1 (h g head tail len).2

/-- Without requests there is nothing to compare. -/
theorem Fut.sameRequest_of_ids {f f' : Fut} (h : ∀ g, f.ids g = []) (h' : ∀ g, f'.ids g = []) :
    f.SameRequest f' := by
  have hno : ∀ {f : Fut}, (∀ g, f.ids g = []) → ∀ g head tail len,
      ¬f.InFlight g head tail len := fun h g head tail len hin => by simpa [h g] using hin.ids
  intro g head tail len
  exact ⟨iff_of_false (fun ha => hno h g head tail len (.inl ha))
      fun ha => hno h' g head tail len (.inl ha),
    iff_of_false (fun ha => hno h g head tail len (.inr ha))
      fun ha => hno h' g head tail len (.inr ha)⟩

def Event.startUp? : Event → Option (DevId × ℕ)
  | .startUp g id => some (g, id)
  | _ => none

namespace Kernel
variable {k k' : Kernel} {l : Label} {t u : TaskId} {g : DevId} {n : DevId → ℕ}
  {avail : List ℕ} {used : List UsedElem}

/-- No request on another device waits on the slot. -/
def SlotApart (k : Kernel) (g : DevId) (i : ℕ) : Prop :=
  ∀ t ∈ k.tasks, ∀ p ∈ (k.fut t).slot, p.2 = i → p.1 = g

/-- The id is no start-up descriptor of another device. -/
def StartUpApart (k : Kernel) (g : DevId) (i : ℕ) : Prop :=
  ∀ e ∈ k.log, ∀ p ∈ e.startUp?, p.2 = i → p.1 = g

instance (k : Kernel) (g : DevId) (i : ℕ) : Decidable (k.SlotApart g i) := by
  unfold SlotApart
  infer_instance

instance (k : Kernel) (g : DevId) (i : ℕ) : Decidable (k.StartUpApart g i) := by
  unfold StartUpApart
  infer_instance

/-- Whether the ids that the step takes from a free list are apart from those that the other
devices use. -/
def NoCollision (k : Kernel) : Label → Prop
  | .op (.request g _) => ∀ i ∈ (k.dev g).virtio.queuesFree.free.head?,
      k.SlotApart g i ∧ k.StartUpApart g i
  | .op (.startUp g) => ∀ i ∈ (k.dev g).virtio.queuesFree.free.take 10, k.SlotApart g i
  | _ => True

instance (k : Kernel) (l : Label) : Decidable (k.NoCollision l) := by
  unfold NoCollision
  split <;> infer_instance

/-- What the slots of `WAKERS` say. -/
structure SlotLaw (k : Kernel) : Prop where
  pending : ∀ t g head tail len, (k.fut t).await = some (.idWait g head tail len) →
    head < numWakers → k.wakers head = .done ∧ Flight k.log t g head 0 0 ∨
      (k.wakers head = .none ∨ k.wakers head = .waker t) ∧
        ∃ q r, q + r = 1 ∧ Flight k.log t g head q r
  released : ∀ t g head tail len, (k.fut t).await = some (.setFree g head tail len) →
    Flight k.log t g head 0 0
  idle : ∀ i < numWakers, k.wakers i ≠ .none →
    (∃ t g tail len, (k.fut t).await = some (.idWait g i tail len)) ∨
      ∃ g, i ∈ startUps g k.log
  apart : ∀ t g head tail len, (k.fut t).await = some (.idWait g head tail len) →
    ∀ g', head ∉ startUps g' k.log
  heads : HeadsDiffer k
  matched : Matched k.log

theorem mem_startUps {i : ℕ} {log : List Event} : i ∈ startUps g log ↔ .startUp g i ∈ log := by
  rw [startUps, List.mem_filterMap]
  constructor
  · rintro ⟨e, he, hi⟩
    cases e <;> simp at hi
    obtain ⟨rfl, rfl⟩ := hi
    exact he
  · intro h
    exact ⟨_, h, by simp⟩

theorem sameRequest_update {f : Fut} (hf : f.SameRequest (k.fut t)) (u : TaskId) :
    (Function.update k.fut t f u).SameRequest (k.fut u) := by
  obtain rfl | hne := eq_or_ne u t
  · rwa [Function.update_self]
  · rw [Function.update_of_ne hne]
    exact fun _ _ _ _ => ⟨Iff.rfl, Iff.rfl⟩

namespace SlotLaw

/-- A step that leaves the slots and the requests in flight alone, and says nothing about the
heads of these. -/
theorem frame {es : List Event} (h : SlotLaw k) (hwakers : k'.wakers = k.wakers)
    (hsame : ∀ u, (k'.fut u).SameRequest (k.fut u)) (hlog : k'.log = es ++ k.log)
    (habout : ∀ u g head tail len, (k.fut u).InFlight g head tail len → ∀ e ∈ es,
      ¬e.About g head)
    (hresolve : ∀ e ∈ es, ∀ t g head response, e ≠ .resolve t g head response)
    (hapart : ∀ u g head tail len, (k.fut u).await = some (.idWait g head tail len) →
      ∀ g', head ∉ startUps g' es) : SlotLaw k' := by
  have hstart : ∀ g, startUps g k'.log = startUps g es ++ startUps g k.log := fun g => by
    rw [hlog, startUps, List.filterMap_append]
    rfl
  refine ⟨fun u g head tail len ha hlt => ?_, fun u g head tail len ha => ?_, fun i hlt hi => ?_,
    fun u g head tail len ha g' => ?_, fun u v g g' head tail tail' len len' ha hb => ?_, ?_⟩
  · have ha := (hsame u g head tail len).1.mp ha
    have hes := habout u g head tail len (.inl ha)
    rw [hwakers, hlog]
    refine (h.pending u g head tail len ha hlt).imp ?_ ?_
    · rintro ⟨hdone, hf⟩
      exact ⟨hdone, hf.others hes⟩
    · rintro ⟨hslot, q, r, hqr, hf⟩
      exact ⟨hslot, q, r, hqr, hf.others hes⟩
  · have ha := (hsame u g head tail len).2.mp ha
    rw [hlog]
    exact (h.released u g head tail len ha).others (habout u g head tail len (.inr ha))
  · rw [hwakers] at hi
    refine (h.idle i hlt hi).imp ?_ ?_
    · rintro ⟨u, g, tail, len, ha⟩
      exact ⟨u, g, tail, len, (hsame u g i tail len).1.mpr ha⟩
    · rintro ⟨g, hg⟩
      exact ⟨g, by rw [hstart]; exact List.mem_append_right _ hg⟩
  · have ha := (hsame u g head tail len).1.mp ha
    rw [hstart, List.mem_append, not_or]
    exact ⟨hapart u g head tail len ha g', h.apart u g head tail len ha g'⟩
  · exact h.heads u v g g' head tail tail' len len' ((hsame u g head tail len).1.mp ha)
      ((hsame v g' head tail' len').1.mp hb)
  · rw [hlog]
    exact h.matched.append hresolve

/-- A step whose only event, if any, is the end of a task. -/
theorem quiet {es : List Event} (h : SlotLaw k) (hwakers : k'.wakers = k.wakers)
    (hsame : ∀ u, (k'.fut u).SameRequest (k.fut u)) (hlog : k'.log = es ++ k.log)
    (hes : ∀ e ∈ es, ∃ t, e = .done t) : SlotLaw k' := by
  refine h.frame hwakers hsame hlog (fun u g head tail len _ e he => ?_)
    (fun e he t g head response => ?_) (fun u g head tail len _ g' hmem => ?_)
  · obtain ⟨t, rfl⟩ := hes e he
    simp [Event.About, Event.Renews]
  · obtain ⟨t, rfl⟩ := hes e he
    simp
  · obtain ⟨t, ht⟩ := hes _ (mem_startUps.mp hmem)
    cases ht

/-- A new request finds an empty slot. -/
theorem request {descId descNextId len : ℕ} {f : Fut} (h : SlotLaw k)
    (hwait : ∀ u g' tail len', (k.fut u).await ≠ some (.idWait g' descId tail len'))
    (hflight : ∀ u tail len', ¬(k.fut u).InFlight g descId tail len')
    (hstart : ∀ g', descId ∉ startUps g' k.log) (hnone : (k.fut t).await = none)
    (hwakers : k'.wakers = k.wakers) (hfut : k'.fut = Function.update k.fut t f)
    (hf : f.await = some (.idWait g descId descNextId len))
    (hlog : k'.log = .add t g descId :: k.log) : SlotLaw k' := by
  have hslot : descId < numWakers → k.wakers descId = .none := by
    intro hlt
    by_contra hne
    obtain ⟨u, g', tail, len', ha⟩ | ⟨g', hg'⟩ := h.idle descId hlt hne
    · exact hwait u g' tail len' ha
    · exact hstart g' hg'
  have hold : ∀ u a, u ≠ t → (k'.fut u).await = some a → (k.fut u).await = some a := by
    intro u a hne ha
    rwa [hfut, Function.update_of_ne hne] at ha
  have hothers : ∀ u g' head tail len', (k.fut u).InFlight g' head tail len' →
      ¬Event.About g' head (.add t g descId) := by
    intro u g' head tail len' hu habout
    obtain ⟨rfl, rfl⟩ | habout | habout := habout
    · exact hflight u tail len' hu
    · cases habout
    · cases habout
  have hstartUps : ∀ g, startUps g k'.log = startUps g k.log := fun g => by rw [hlog]; rfl
  have hself : ∀ g' head tail len', (k'.fut t).await = some (.idWait g' head tail len') →
      g = g' ∧ descId = head := by
    intro g' head tail len' ha
    rw [hfut, Function.update_self, hf] at ha
    simp only [Option.some.injEq, Await.idWait.injEq] at ha
    exact ⟨ha.1, ha.2.1⟩
  refine ⟨fun u g' head tail len' ha hlt => ?_, fun u g' head tail len' ha => ?_,
    fun i hlt hi => ?_, fun u g' head tail len' ha g'' => ?_,
    fun u v g₁ g₂ head tail tail' len₁ len₂ ha hb => ?_, ?_⟩
  · obtain rfl | hne := eq_or_ne u t
    · obtain ⟨rfl, rfl⟩ := hself g' head tail len' ha
      rw [hwakers, hlog]
      exact .inr ⟨.inl (hslot hlt), 1, 0, rfl, .new⟩
    · have ha := hold u _ hne ha
      have hes := hothers u g' head tail len' (.inl ha)
      rw [hwakers, hlog]
      refine (h.pending u g' head tail len' ha hlt).imp ?_ ?_
      · rintro ⟨hdone, hf⟩
        exact ⟨hdone, hf.other hes⟩
      · rintro ⟨hslot, q, r, hqr, hf⟩
        exact ⟨hslot, q, r, hqr, hf.other hes⟩
  · obtain rfl | hne := eq_or_ne u t
    · rw [hfut, Function.update_self, hf] at ha
      simp at ha
    · have ha := hold u _ hne ha
      rw [hlog]
      exact (h.released u g' head tail len' ha).other (hothers u g' head tail len' (.inr ha))
  · rw [hwakers] at hi
    refine (h.idle i hlt hi).imp ?_ fun ⟨g', hg'⟩ => ⟨g', by rwa [hstartUps]⟩
    rintro ⟨u, g', tail, len', ha⟩
    have hne : u ≠ t := by
      rintro rfl
      simp [hnone] at ha
    exact ⟨u, g', tail, len', by rwa [hfut, Function.update_of_ne hne]⟩
  · rw [hstartUps]
    obtain rfl | hne := eq_or_ne u t
    · obtain ⟨-, rfl⟩ := hself g' head tail len' ha
      exact hstart g''
    · exact h.apart u g' head tail len' (hold u _ hne ha) g''
  · obtain rfl | hu := eq_or_ne u t
    · obtain rfl | hv := eq_or_ne v u
      · rfl
      · obtain ⟨-, rfl⟩ := hself g₁ head tail len₁ ha
        exact absurd (hold v _ hv hb) (hwait v g₂ tail' len₂)
    · obtain rfl | hv := eq_or_ne v t
      · obtain ⟨-, rfl⟩ := hself g₂ head tail' len₂ hb
        exact absurd (hold u _ hu ha) (hwait u g₁ tail len₁)
      · exact h.heads u v g₁ g₂ head tail tail' len₁ len₂ (hold u _ hu ha) (hold v _ hv hb)
  · rw [hlog]
    exact h.matched.cons (by simp)

/-- The first poll of a request puts its waker into the slot. -/
theorem register {head tail len : ℕ} (h : SlotLaw k)
    (hawait : (k.fut t).await = some (.idWait g head tail len)) (hpending : k.wakers head ≠ .done)
    (hwakers : k'.wakers = Function.update k.wakers head (.waker t)) (hfut : k'.fut = k.fut)
    (hlog : k'.log = k.log) : SlotLaw k' := by
  refine ⟨fun u g' head' tail' len' ha hlt => ?_, ?_, fun i hlt hi => ?_, ?_, ?_,
    hlog ▸ h.matched⟩
  · rw [hfut] at ha
    have hold := h.pending u g' head' tail' len' ha hlt
    rw [hwakers, hlog]
    obtain rfl | hne := eq_or_ne head' head
    · obtain rfl : u = t := h.heads _ _ _ _ _ _ _ _ _ ha hawait
      rw [Function.update_self]
      exact .inr ⟨.inr rfl, (hold.resolve_left fun hdone => hpending hdone.1).2⟩
    · rwa [Function.update_of_ne hne]
  · rw [hfut, hlog]
    exact h.released
  · rw [hfut, hlog]
    rw [hwakers] at hi
    obtain rfl | hne := eq_or_ne i head
    · exact .inl ⟨t, g, tail, len, hawait⟩
    · rw [Function.update_of_ne hne] at hi
      exact h.idle i hlt hi
  · rw [hfut, hlog]
    exact h.apart
  · unfold HeadsDiffer
    rw [hfut]
    exact h.heads

/-- A poll that finds its slot done empties it. -/
theorem ready {head tail len : ℕ} {f : Fut} (h : SlotLaw k)
    (hawait : (k.fut t).await = some (.idWait g head tail len)) (hbound : head < numWakers)
    (hdone : k.wakers head = .done)
    (hwakers : k'.wakers = Function.update k.wakers head .none)
    (hfut : k'.fut = Function.update k.fut t f)
    (hf : f.await = some (.setFree g head tail len)) (hlog : k'.log = k.log) : SlotLaw k' := by
  have hresolved : Flight k.log t g head 0 0 := by
    obtain hp | ⟨hslot, -⟩ := h.pending t g head tail len hawait hbound
    · exact hp.2
    · simp [hdone] at hslot
  have hold : ∀ u g' head' tail' len', (k'.fut u).await = some (.idWait g' head' tail' len') →
      u ≠ t ∧ (k.fut u).await = some (.idWait g' head' tail' len') := by
    intro u g' head' tail' len' ha
    obtain rfl | hne := eq_or_ne u t
    · simp [hfut, hf] at ha
    · rw [hfut, Function.update_of_ne hne] at ha
      exact ⟨hne, ha⟩
  refine ⟨fun u g' head' tail' len' ha hlt => ?_, fun u g' head' tail' len' ha => ?_,
    fun i hlt hi => ?_, fun u g' head' tail' len' ha => ?_,
    fun u v g₁ g₂ head' tail₁ tail₂ len₁ len₂ ha hb => ?_, hlog ▸ h.matched⟩
  · obtain ⟨hne, ha⟩ := hold u g' head' tail' len' ha
    have hhead : head' ≠ head := by
      rintro rfl
      exact hne (h.heads _ _ _ _ _ _ _ _ _ ha hawait)
    rw [hwakers, hlog, Function.update_of_ne hhead]
    exact h.pending u g' head' tail' len' ha hlt
  · rw [hlog]
    obtain rfl | hne := eq_or_ne u t
    · rw [hfut, Function.update_self, hf] at ha
      obtain ⟨rfl, rfl, -⟩ : g = g' ∧ head = head' ∧ tail = tail' ∧ len = len' := by
        simpa using ha
      exact hresolved
    · rw [hfut, Function.update_of_ne hne] at ha
      exact h.released u g' head' tail' len' ha
  · rw [hwakers] at hi
    have hne : i ≠ head := by
      rintro rfl
      simp at hi
    rw [Function.update_of_ne hne] at hi
    rw [hlog]
    refine (h.idle i hlt hi).imp_left fun ⟨u, g', tail', len', ha⟩ => ⟨u, g', tail', len', ?_⟩
    have hut : u ≠ t := by
      rintro rfl
      have : g = g' ∧ head = i ∧ tail = tail' ∧ len = len' := by
        simpa using hawait.symm.trans ha
      exact hne this.2.1.symm
    rwa [hfut, Function.update_of_ne hut]
  · rw [hlog]
    exact h.apart u g' head' tail' len' (hold u g' head' tail' len' ha).2
  · exact h.heads u v g₁ g₂ head' tail₁ tail₂ len₁ len₂ (hold _ _ _ _ _ ha).2
      (hold _ _ _ _ _ hb).2

/-- The poller fills the slot of the chain that it consumes. -/
theorem use {id : ℕ} (h : SlotLaw k)
    (howner : (∃ t tail len, (k.fut t).await = some (.idWait g id tail len) ∧
      Flight k.log t g id 0 1) ∨ id ∈ startUps g k.log)
    (hreleased : ∀ t tail len, (k.fut t).await ≠ some (.setFree g id tail len))
    (hwakers : ∀ i < numWakers, k'.wakers i = Function.update k.wakers id .done i)
    (hfut : k'.fut = k.fut) (hlog : k'.log = .use g id :: k.log) : SlotLaw k' := by
  have hstartUps : ∀ g, startUps g k'.log = startUps g k.log := fun g => by rw [hlog]; rfl
  have hother : ∀ {g' head}, head ≠ id → ¬Event.About g' head (.use g id) := by
    intro g' head hne habout
    obtain habout | habout | habout := habout
    · exact habout
    · cases habout
    · cases habout
      exact hne rfl
  refine ⟨fun u g' head tail len ha hlt => ?_, fun u g' head tail len ha => ?_,
    fun i hlt hi => ?_, ?_, ?_, ?_⟩
  · rw [hfut] at ha
    rw [hwakers head hlt, hlog]
    obtain rfl | hne := eq_or_ne head id
    · obtain ⟨t, tail', len', hawait, hflight⟩ | hstart := howner
      · obtain rfl : u = t := h.heads _ _ _ _ _ _ _ _ _ ha hawait
        obtain ⟨rfl, -⟩ : g = g' ∧ tail' = tail ∧ len' = len := by simpa using hawait.symm.trans ha
        rw [Function.update_self]
        exact .inl ⟨rfl, hflight.use⟩
      · exact absurd hstart (h.apart u g' head tail len ha g)
    · rw [Function.update_of_ne hne]
      refine (h.pending u g' head tail len ha hlt).imp ?_ ?_
      · rintro ⟨hdone, hf⟩
        exact ⟨hdone, hf.other (hother hne)⟩
      · rintro ⟨hslot, q, r, hqr, hf⟩
        exact ⟨hslot, q, r, hqr, hf.other (hother hne)⟩
  · rw [hfut] at ha
    rw [hlog]
    refine (h.released u g' head tail len ha).other fun habout => ?_
    obtain rfl : g = g' := by simpa [Event.dev?] using habout.dev
    obtain rfl | hne := eq_or_ne head id
    · exact hreleased u tail len ha
    · exact hother hne habout
  · rw [hwakers i hlt] at hi
    rw [hfut]
    simp only [hstartUps]
    obtain rfl | hne := eq_or_ne i id
    · refine howner.imp ?_ fun hg => ⟨g, hg⟩
      rintro ⟨t, tail, len, ha, -⟩
      exact ⟨t, g, tail, len, ha⟩
    · rw [Function.update_of_ne hne] at hi
      exact h.idle i hlt hi
  · rw [hfut]
    simp only [hstartUps]
    exact h.apart
  · unfold HeadsDiffer
    rw [hfut]
    exact h.heads
  · rw [hlog]
    exact h.matched.cons (by simp)

/-- The device returns a chain. -/
theorem ret {id : ℕ} (h : SlotLaw k)
    (hpending : ∀ t tail len, (k.fut t).await = some (.idWait g id tail len) →
      Flight k.log t g id 1 0)
    (hreleased : ∀ t tail len, (k.fut t).await ≠ some (.setFree g id tail len))
    (hwakers : k'.wakers = k.wakers) (hfut : k'.fut = k.fut)
    (hlog : k'.log = .ret g id :: k.log) : SlotLaw k' := by
  have hstartUps : ∀ g, startUps g k'.log = startUps g k.log := fun g => by rw [hlog]; rfl
  have hother : ∀ {g' head}, (g, id) ≠ (g', head) → ¬Event.About g' head (.ret g id) := by
    intro g' head hne habout
    obtain habout | habout | habout := habout
    · exact habout
    · cases habout
      exact hne rfl
    · cases habout
  refine ⟨fun u g' head tail len ha hlt => ?_, fun u g' head tail len ha => ?_, ?_, ?_, ?_, ?_⟩
  · rw [hfut] at ha
    rw [hwakers, hlog]
    have hold := h.pending u g' head tail len ha hlt
    by_cases hne : (g, id) = (g', head)
    · obtain ⟨rfl, rfl⟩ := Prod.mk.inj hne
      have hflight := hpending u tail len ha
      refine hold.elim (fun ⟨_, hf⟩ => absurd (hflight.unique hf).1 one_ne_zero)
        fun ⟨hslot, _⟩ => .inr ⟨hslot, 0, 1, rfl, hflight.ret⟩
    · refine hold.imp ?_ ?_
      · rintro ⟨hdone, hf⟩
        exact ⟨hdone, hf.other (hother hne)⟩
      · rintro ⟨hslot, q, r, hqr, hf⟩
        exact ⟨hslot, q, r, hqr, hf.other (hother hne)⟩
  · rw [hfut] at ha
    rw [hlog]
    refine (h.released u g' head tail len ha).other (hother fun hne => ?_)
    obtain ⟨rfl, rfl⟩ := Prod.mk.inj hne
    exact hreleased u tail len ha
  · rw [hwakers, hfut]
    simp only [hstartUps]
    exact h.idle
  · rw [hfut]
    simp only [hstartUps]
    exact h.apart
  · unfold HeadsDiffer
    rw [hfut]
    exact h.heads
  · rw [hlog]
    exact h.matched.cons (by simp)

/-- A request resolves. -/
theorem release {head tail len : ℕ} {f : Fut} {response : Desc} (h : SlotLaw k)
    (hawait : (k.fut t).await = some (.setFree g head tail len))
    (halone : ∀ u tail' len', (k.fut u).InFlight g head tail' len' → u = t)
    (hwakers : k'.wakers = k.wakers) (hfut : k'.fut = Function.update k.fut t f)
    (hf : f.await = none) (hlog : k'.log = .resolve t g head response :: k.log) :
    SlotLaw k' := by
  have hstartUps : ∀ g, startUps g k'.log = startUps g k.log := fun g => by rw [hlog]; rfl
  have hold : ∀ u a, (k'.fut u).await = some a → u ≠ t ∧ (k.fut u).await = some a := by
    intro u a ha
    obtain rfl | hne := eq_or_ne u t
    · simp [hfut, hf] at ha
    · rw [hfut, Function.update_of_ne hne] at ha
      exact ⟨hne, ha⟩
  have hother : ∀ u g' head' tail' len', u ≠ t → (k.fut u).InFlight g' head' tail' len' →
      ¬Event.About g' head' (.resolve t g head response) := by
    intro u g' head' tail' len' hne hu habout
    obtain ⟨rfl, rfl⟩ | habout | habout := habout
    · exact hne (halone u tail' len' hu)
    · cases habout
    · cases habout
  refine ⟨fun u g' head' tail' len' ha hlt => ?_, fun u g' head' tail' len' ha => ?_,
    fun i hlt hi => ?_, fun u g' head' tail' len' ha => ?_,
    fun u v g₁ g₂ head' tail₁ tail₂ len₁ len₂ ha hb => ?_, ?_⟩
  · obtain ⟨hne, ha⟩ := hold u _ ha
    have hes := hother u g' head' tail' len' hne (.inl ha)
    rw [hwakers, hlog]
    refine (h.pending u g' head' tail' len' ha hlt).imp ?_ ?_
    · rintro ⟨hdone, hf⟩
      exact ⟨hdone, hf.other hes⟩
    · rintro ⟨hslot, q, r, hqr, hf⟩
      exact ⟨hslot, q, r, hqr, hf.other hes⟩
  · obtain ⟨hne, ha⟩ := hold u _ ha
    rw [hlog]
    exact (h.released u g' head' tail' len' ha).other (hother u g' head' tail' len' hne (.inr ha))
  · rw [hwakers] at hi
    simp only [hstartUps]
    refine (h.idle i hlt hi).imp_left ?_
    rintro ⟨u, g', tail', len', ha⟩
    have hne : u ≠ t := by
      rintro rfl
      simp [hawait] at ha
    exact ⟨u, g', tail', len', by rwa [hfut, Function.update_of_ne hne]⟩
  · simp only [hstartUps]
    exact h.apart u g' head' tail' len' (hold u _ ha).2
  · exact h.heads u v g₁ g₂ head' tail₁ tail₂ len₁ len₂ (hold _ _ ha).2 (hold _ _ hb).2
  · rw [hlog]
    refine h.matched.cons fun u g' head' response' heq => ?_
    cases heq
    exact h.released t g head tail len hawait

end SlotLaw

/-- Devices and slots together. -/
structure Completion (n : DevId → ℕ) (k : Kernel) : Prop where
  device : ∀ g, ∃ avail used, DeviceLaw n g k avail used
  slots : SlotLaw k

namespace Completion

/-- A step that only changes device `g` has to keep the law of that device. -/
theorem devices {es : List Event} (h : Completion n k)
    (hg : ∃ avail used, DeviceLaw n g k' avail used) (hdev : ∀ g', g' ≠ g → k'.dev g' = k.dev g')
    (hin : ∀ g', g' ≠ g → ∀ u head tail len,
      (k'.fut u).InFlight g' head tail len ↔ (k.fut u).InFlight g' head tail len)
    (hlog : k'.log = es ++ k.log) (hes : ∀ e ∈ es, e.dev? = some g) (g' : DevId) :
    ∃ avail used, DeviceLaw n g' k' avail used := by
  obtain rfl | hne := eq_or_ne g' g
  · exact hg
  · obtain ⟨avail, used, hlaw⟩ := h.device g'
    have hdev := hdev g' hne
    refine ⟨avail, used, hlaw.frame (by rw [hdev]) (by rw [hdev]) (by rw [hdev]) (hin g' hne) hlog
      fun e he hg' => hne ?_⟩
    simpa using hg'.symm.trans (hes e he)

/-- A step that leaves devices, slots and requests alone. -/
theorem quiet {es : List Event} (h : Completion n k) (hwakers : k'.wakers = k.wakers)
    (hrings : ∀ g, (k'.dev g).virtio.rings = (k.dev g).virtio.rings)
    (hcursor : ∀ g, (k'.dev g).cursor = (k.dev g).cursor)
    (hheld : ∀ g, (k'.dev g).held = (k.dev g).held)
    (hsame : ∀ u, (k'.fut u).SameRequest (k.fut u)) (hlog : k'.log = es ++ k.log)
    (hes : ∀ e ∈ es, ∃ t, e = .done t) : Completion n k' := by
  refine ⟨fun g => ?_, h.slots.quiet hwakers hsame hlog hes⟩
  obtain ⟨avail, used, hlaw⟩ := h.device g
  refine ⟨avail, used, hlaw.frame (hrings g) (hcursor g) (hheld g)
    (fun u head tail len => (hsame u).inFlight g head tail len) hlog fun e he => ?_⟩
  obtain ⟨t, rfl⟩ := hes e he
  simp [Event.dev?]

/-- The device has nothing of a request that is being resolved. -/
theorem not_released {i : ℕ} (h : Completion n k) (hlaw : DeviceLaw n g k avail used)
    (hi : i ∈ chains (k.dev g) avail used) (t : TaskId) (tail len : ℕ) :
    (k.fut t).await ≠ some (.setFree g i tail len) := by
  intro ha
  obtain ⟨hq, hr⟩ := (hlaw.flight t i tail len (.inr ha)).unique
    (h.slots.released t g i tail len ha)
  obtain hi | hi := List.mem_append.mp hi
  · exact List.count_eq_zero.mp hq hi
  · exact List.count_eq_zero.mp hr hi

theorem use {e : UsedElem} {v : Virtio} (hn : QueueSize (n g)) (h : Completion n k)
    (next : (k.dev g).virtio.nextUsed = some (e, v))
    (hdev : k'.dev = Function.update k.dev g { k.dev g with virtio := v })
    (hwakers : ∀ i < numWakers, k'.wakers i = Function.update k.wakers e.id .done i)
    (hfut : k'.fut = k.fut)
    (hlog : k'.log = .use g e.id :: k.log) : Completion n k' := by
  obtain ⟨avail, used, hlaw⟩ := h.device g
  obtain ⟨es, cursor, rfl, hfifo, hv⟩ := hlaw.nextUsed hn next
  have hmem : e.id ∈ chains (k.dev g) avail (e :: es) := by simp [chains]
  have hself : k'.dev g = { k.dev g with virtio := v } := by rw [hdev, Function.update_self]
  refine ⟨h.devices ⟨avail, es, hlaw.use hfifo hv hself hfut hlog⟩
    (fun g' hne => by rw [hdev, Function.update_of_ne hne]) (fun _ _ _ _ _ _ => by rw [hfut])
    (List.singleton_append ▸ hlog) (by simp [Event.dev?]), ?_⟩
  refine h.slots.use ?_ (fun t tail len => h.not_released hlaw hmem t tail len) hwakers hfut hlog
  refine (hlaw.owner hmem).imp_left ?_
  rintro ⟨t, tail, len, hin⟩
  refine ⟨t, tail, len, ?_, ?_⟩
  · exact hin.resolve_right (h.not_released hlaw hmem t tail len)
  · have hflight := hlaw.flight t e.id tail len hin
    have hle := hflight.le_one
    simp only [List.map_cons, List.count_cons_self] at hflight hle
    obtain ⟨hq, hr⟩ : (avail ++ (k.dev g).held).count e.id = 0 ∧
        (es.map UsedElem.id).count e.id = 0 := by omega
    rwa [hq, hr] at hflight

theorem request {rest : List Op} {len descId descNextId : ℕ} {v : Virtio}
    (hn : QueueSize (n g)) (h : Completion n k) (hw : WellFormed k) (ho : Owned n k)
    (hnc : k.NoCollision (.op (.request g len))) (run : Running k t (.request g len) rest)
    (free : (k.dev g).virtio.getFreeTwiceDescId = some ((descId, descNextId), v)) :
    Completion n { k with
      dev := Function.update k.dev g
        { k.dev g with virtio := v.addRequest descId descNextId len }
      fut := Function.update k.fut t
        { k.fut t with todo := rest, await := some (.idWait g descId descNextId len) }
      log := .add t g descId :: k.log } := by
  obtain ⟨hfree, hv⟩ := Virtio.getFreeTwiceDescId_eq_some free
  have hmem : descId ∈ (k.dev g).virtio.queuesFree.free := by simp [hfree]
  obtain ⟨hslot, hstart⟩ := hnc descId (by simp [hfree])
  have hflight : ∀ u tail len', ¬(k.fut u).InFlight g descId tail len' := fun u tail len' hu =>
    ho.not_free_of_ids (hw.inFlight_lt hu) hu.head_mem hmem
  have hrings : v.rings = (k.dev g).virtio.rings := by rw [hv]
  obtain ⟨avail, used, hlaw⟩ := h.device g
  refine ⟨h.devices (g := g) ⟨avail ++ [descId], used, ?_⟩ (fun g' hne => ?_)
    (fun g' hne u head tail len' => ?_) (List.singleton_append).symm (by simp [Event.dev?]), ?_⟩
  · exact hlaw.request hn hw ho hfree run.await (by simp [hrings]) (by simp) (by simp) rfl rfl rfl
  · exact Function.update_of_ne hne _ _
  · obtain rfl | hut := eq_or_ne u t
    · simp [Fut.InFlight, run.await, hne.symm]
    · simp [Function.update_of_ne hut]
  · refine h.slots.request (fun u g' tail len' ha => ?_) hflight (fun g' hmem' => ?_) run.await rfl
      rfl rfl rfl
    · have hg : g' = g := hslot u (hw.await u (by simp [ha])) (g', descId) (by simp [Fut.slot, ha])
        rfl
      exact hflight u tail len' (.inl (hg ▸ ha))
    · have hg : g' = g := hstart _ (mem_startUps.mp hmem') (g', descId) rfl rfl
      exact ho.not_free_of_startUps (hg ▸ hmem') hmem

theorem startUp {rest : List Op} {v : Virtio} {ids : List ℕ} (hn : QueueSize (n g))
    (h : Completion n k) (hw : WellFormed k) (ho : Owned n k)
    (hnc : k.NoCollision (.op (.startUp g))) (descs : startUpDescs 10 (k.dev g).virtio = (v, ids)) :
    Completion n { k with
      dev := Function.update k.dev g { k.dev g with virtio := v, lock := some t }
      fut := Function.update k.fut t { k.fut t with todo := rest }
      log := (ids.map (.startUp g)).reverse ++ k.log } := by
  have hstarted := startUpDescs_startedUp descs
  have hmem : ∀ i ∈ ids, i ∈ (k.dev g).virtio.queuesFree.free := fun i hi => by
    simp [hstarted.free, hi]
  have htake : ∀ i ∈ ids, i ∈ (k.dev g).virtio.queuesFree.free.take 10 := fun i hi => by
    rw [hstarted.free, List.take_append, List.take_of_length_le hstarted.length]
    exact List.mem_append_left _ hi
  have hsame : ∀ u, (Function.update k.fut t { k.fut t with todo := rest } u).SameRequest
      (k.fut u) := sameRequest_update fun _ _ _ _ => ⟨Iff.rfl, Iff.rfl⟩
  have hevent : ∀ e ∈ (ids.map (Event.startUp g)).reverse, ∃ i ∈ ids, e = .startUp g i := by
    intro e he
    obtain ⟨i, hi, rfl⟩ := List.mem_map.mp (List.mem_reverse.mp he)
    exact ⟨i, hi, rfl⟩
  obtain ⟨avail, used, hlaw⟩ := h.device g
  refine ⟨h.devices (g := g) ⟨avail ++ ids, used, ?_⟩ (fun g' hne => ?_)
    (fun g' _ u head tail len => (hsame u).inFlight g' head tail len) rfl fun e he => ?_,
    h.slots.frame rfl hsame rfl (fun u g' head tail len _ e he => ?_)
      (fun e he _ _ _ _ => ?_) fun u g' head tail len ha g'' hstart => ?_⟩
  · exact hlaw.startUpIds hn hw ho hstarted (by simp) (by simp) (by simp)
      (fun u head tail len => (hsame u).inFlight g head tail len) rfl
  · exact Function.update_of_ne hne _ _
  · obtain ⟨i, -, rfl⟩ := hevent e he
    rfl
  · obtain ⟨i, -, rfl⟩ := hevent e he
    simp [Event.About, Event.Renews]
  · obtain ⟨i, -, rfl⟩ := hevent e he
    simp
  · obtain ⟨i, hi, heq⟩ := hevent _ (mem_startUps.mp hstart)
    obtain ⟨rfl, rfl⟩ := Event.startUp.inj heq
    have hg : g' = g'' := hnc head (htake head hi) u (hw.await u (by simp [ha])) (g', head)
      (by simp [Fut.slot, ha]) rfl
    subst hg
    exact ho.not_free_of_ids (hw.inFlight_lt (.inl ha)) (Fut.InFlight.head_mem (.inl ha))
      (hmem head hi)

theorem release {head tail len : ℕ} (h : Completion n k) (hw : WellFormed k) (ho : Owned n k)
    (poll : Polling k t (.setFree g head tail len)) :
    Completion n { k with
      dev := Function.update k.dev g { k.dev g with
        virtio := ((k.dev g).virtio.setFreeDescId head).setFreeDescId tail }
      fut := Function.update k.fut t { k.fut t with await := none }
      log := .resolve t g head ((k.dev g).virtio.descs tail) :: k.log } := by
  have hin : (k.fut t).InFlight g head tail len := .inr poll.await
  have hdone := h.slots.released t g head tail len poll.await
  obtain ⟨avail, used, hlaw⟩ := h.device g
  refine ⟨h.devices (g := g) ⟨avail, used, ?_⟩ (fun g' hne => ?_)
    (fun g' hne u head' tail' len' => ?_) (List.singleton_append).symm (by simp [Event.dev?]), ?_⟩
  · exact hlaw.release hw ho hin hdone (by simp [Virtio.setFreeDescId]) (by simp) (by simp) rfl rfl
      rfl
  · exact Function.update_of_ne hne _ _
  · obtain rfl | hut := eq_or_ne u t
    · simp [Fut.InFlight, poll.await, hne.symm]
    · simp [Function.update_of_ne hut]
  · refine h.slots.release poll.await (fun u tail' len' hu => ?_) rfl rfl rfl rfl
    exact ho.ids_unique (hw.inFlight_lt hu) (hw.inFlight_lt hin) hu.head_mem hin.head_mem

theorem devRead {id : ℕ} (hn : QueueSize (n g)) (h : Completion n k)
    (read : (k.dev g).virtio.rings.deviceRead (k.dev g).cursor = some id) :
    Completion n (k.setDev g { k.dev g with
      cursor := wrappingAdd (k.dev g).cursor 1, held := (k.dev g).held ++ [id] }) := by
  obtain ⟨avail, used, hlaw⟩ := h.device g
  obtain ⟨ids, rfl⟩ := hlaw.deviceRead hn read
  refine ⟨h.devices (g := g) ⟨ids, used, hlaw.devRead (Function.update_self ..) rfl rfl⟩
    (fun g' hne => Function.update_of_ne hne _ _) (fun _ _ _ _ _ _ => Iff.rfl)
    (List.nil_append _).symm (by simp), ?_⟩
  exact h.slots.quiet rfl (fun _ _ _ _ _ => ⟨Iff.rfl, Iff.rfl⟩) (List.nil_append _).symm (by simp)

theorem devPush {id len : ℕ} (hn : QueueSize (n g)) (h : Completion n k) (hw : WellFormed k)
    (ho : Owned n k) (held : id ∈ (k.dev g).held) :
    Completion n { k with
      dev := Function.update k.dev g { k.dev g with
        virtio := { (k.dev g).virtio with
          rings := (k.dev g).virtio.rings.devicePush ⟨id, len⟩ }
        held := (k.dev g).held.erase id }
      log := .ret g id :: k.log } := by
  obtain ⟨avail, used, hlaw⟩ := h.device g
  have hmem : id ∈ chains (k.dev g) avail used := by simp [chains, held]
  refine ⟨h.devices (g := g)
    ⟨avail, _, hlaw.devPush hn hw ho held (Function.update_self ..) rfl rfl⟩
    (fun g' hne => Function.update_of_ne hne _ _) (fun _ _ _ _ _ _ => Iff.rfl)
    (List.singleton_append).symm (by simp [Event.dev?]), ?_⟩
  refine h.slots.ret (fun t tail len' ha => ?_)
    (fun t tail len' => h.not_released hlaw hmem t tail len') rfl rfl rfl
  have hflight := hlaw.flight t id tail len' (.inl ha)
  have hpos : 0 < (avail ++ (k.dev g).held).count id := List.count_pos_iff.mpr (by simp [held])
  have hle := hflight.le_one
  obtain ⟨hq, hr⟩ : (avail ++ (k.dev g).held).count id = 1 ∧
      (used.map UsedElem.id).count id = 0 := by omega
  rwa [hq, hr] at hflight

theorem spawned {fut : TaskId → Fut} {numCapsets : DevId → ℕ} {r : Routine}
    {q : ArrayQueue TaskId 100} (h : Completion n k) (hw : WellFormed k)
    (hsame : ∀ u, (fut u).SameRequest (k.fut u)) : Completion n { k with
      fut := Function.update fut k.nextId (Fut.new numCapsets r)
      nextId := k.nextId + 1
      spawnQueue := q } := by
  refine h.quiet rfl (fun _ => rfl) (fun _ => rfl) (fun _ => rfl) (fun u => ?_)
    (List.nil_append _).symm (by simp)
  obtain rfl | hne := eq_or_ne u k.nextId
  · have hnone : (k.fut k.nextId).await = none := by
      by_contra hawait
      exact hw.next_notLive (.inl (hw.await _ hawait))
    simp only [Function.update_self]
    exact Fut.sameRequest_of_ids (fun _ => rfl) fun _ => Fut.ids_of_none hnone
  · simp only [Function.update_of_ne hne]
    exact hsame u

/-- A step whose ids stay apart keeps devices and slots in accord. -/
theorem step (hn : ∀ g, QueueSize (n g)) (h : Completion n k) (hw : WellFormed k)
    (ho : Owned n k) (hnc : k.NoCollision l) (hstep : Steps k l k') :
    Completion n k' := by
  have hrefl : ∀ u, (k.fut u).SameRequest (k.fut u) := fun _ _ _ _ _ => ⟨Iff.rfl, Iff.rfl⟩
  have hown : ∀ {t rest}, ∀ u,
      (Function.update k.fut t { k.fut t with todo := rest } u).SameRequest (k.fut u) :=
    sameRequest_update fun _ _ _ _ => ⟨Iff.rfl, Iff.rfl⟩
  cases hstep with
  | control | spawnTask | spawnPanic | popTask | popGone | wakeYielder | wakeYielderPanic =>
    exact h.quiet rfl (fun _ => rfl) (fun _ => rfl) (fun _ => rfl) hrefl
      (List.nil_append _).symm (by simp)
  | spawnOp run => exact h.spawned hw hown
  | yieldOp run =>
    exact h.quiet rfl (fun _ => rfl) (fun _ => rfl) (fun _ => rfl)
      (sameRequest_update
        (Fut.sameRequest_of_ids (fun _ => rfl) fun _ => Fut.ids_of_none run.await))
      (List.nil_append _).symm (by simp)
  | startUp run unlocked descs => exact h.startUp (hn _) hw ho hnc descs
  | @dropGuard t g rest run =>
    refine h.quiet rfl (fun g' => ?_) (fun g' => ?_) (fun g' => ?_) hown
      (List.nil_append _).symm (by simp) <;>
      obtain rfl | hne := eq_or_ne g' g <;> simp [*]
  | readConfig run | checkallNone run =>
    exact h.quiet rfl (fun _ => rfl) (fun _ => rfl) (fun _ => rfl) hown
      (List.nil_append _).symm (by simp)
  | request run unlocked free => exact h.request (hn _) hw ho hnc run free
  | checkallPast run unlocked next past =>
    exact h.use (hn _) next rfl
      (fun i hi => (Function.update_of_ne (hi.trans_le past).ne _ _).symm) rfl rfl
  | checkallNothing run unlocked next | checkallWake run unlocked next
  | checkallPanic run unlocked next => exact h.use (hn _) next rfl (fun _ _ => rfl) rfl rfl
  | yieldFirst poll | yieldAgain poll =>
    exact h.quiet rfl (fun _ => rfl) (fun _ => rfl) (fun _ => rfl)
      (sameRequest_update
        (Fut.sameRequest_of_ids (fun _ => rfl) fun _ => Fut.ids_of_yieldOnce poll.await))
      (List.nil_append _).symm (by simp)
  | register poll bound pending =>
    refine ⟨fun g' => ?_, h.slots.register poll.await pending rfl rfl rfl⟩
    obtain ⟨avail, used, hlaw⟩ := h.device g'
    exact ⟨avail, used, hlaw.frame rfl rfl rfl (fun _ _ _ _ => Iff.rfl) (List.nil_append _).symm
      (by simp)⟩
  | @ready t g head tail len poll bound done =>
    refine ⟨fun g' => ?_, h.slots.ready poll.await bound done rfl rfl rfl rfl⟩
    obtain ⟨avail, used, hlaw⟩ := h.device g'
    refine ⟨avail, used, hlaw.frame rfl rfl rfl (fun u head' tail' len' => ?_)
      (List.nil_append _).symm (by simp)⟩
    obtain rfl | hne := eq_or_ne u t
    · simp [Fut.InFlight, poll.await]
    · simp [Function.update_of_ne hne]
  | release poll => exact h.release hw ho poll
  | @finish t =>
    have hlog : (k.finish t).log = [.done t] ++ k.log := rfl
    exact h.quiet rfl (fun _ => rfl) (fun _ => rfl) (fun _ => rfl) hrefl hlog (by simp)
  | devRead read => exact h.devRead (hn _) read
  | devPush held => exact h.devPush (hn _) hw ho held

theorem new (config : DevId → GpuConfig) :
    Completion (fun g => (config g).queueSize) (Kernel.new config) := by
  have hin : ∀ t g head tail len, ¬((Kernel.new config).fut t).InFlight g head tail len := by
    simp [Kernel.new, Fut.InFlight]
  refine ⟨fun g => ⟨[], [], rfl, .init .., .init .., ?_, ?_, ?_⟩, ?_, ?_, ?_, ?_, ?_, .nil⟩
  · exact fun t head tail len h => absurd h (hin t g head tail len)
  · exact fun i hi => by simp [startUps, Kernel.new] at hi
  · exact fun i _ _ => by simp [chains, Kernel.new, Gpu.init]
  · exact fun t g head tail len h => absurd (.inl h) (hin t g head tail len)
  · exact fun t g head tail len h => absurd (.inr h) (hin t g head tail len)
  · exact fun i _ hi => absurd rfl hi
  · exact fun t g head tail len h => absurd (.inl h) (hin t g head tail len)
  · exact fun t u g g' head tail tail' len len' h => absurd (.inl h) (hin t g head tail len)

theorem boot (config : DevId → GpuConfig) (rs : List Routine) :
    Completion (fun g => (config g).queueSize) (Kernel.boot config rs) :=
  (boot_induction (P := fun k => Completion (fun g => (config g).queueSize) k ∧ WellFormed k)
    ⟨new config, .new config⟩ fun _ _ _ h =>
      ⟨h.1.spawned h.2 fun _ _ _ _ _ => ⟨Iff.rfl, Iff.rfl⟩, h.2.spawnOp rfl h.2.await⟩).1

end Completion
end Kernel
end Fomos
