import Mathlib
import Fomos.Gpu.Drive
import Fomos.Kernel.Counts

/-!
# Requests in time

What a device needs for a request has to come out of requests that it has executed before: a
resource has to be created once, to have one backing that is long enough, and to hold the
rectangles that are moved and shown; a context has to be there. The transfer loop and the flushes
run side by side, so this rests on the order in which `drive` waits for its answers and spawns.
-/
namespace Fomos.Gpu

namespace Request

/-- The resource that a request creates, with its width and height. -/
def creates : Request → Option (BitVec 32 × BitVec 32 × BitVec 32)
  | ⟨.resourceCreate2d, c⟩ => some (c.resourceId, c.width, c.height)
  | ⟨.resourceCreate3d, c⟩ => some (c.args.handle, c.args.width, c.args.height)
  | _ => none

/-- The resource that a request gives a backing, with its length. -/
def attaches : Request → Option (BitVec 32 × BitVec 32)
  | ⟨.attachBacking, c⟩ => some (c.resourceId, c.length)
  | _ => none

/-- The context that a request creates. -/
def opens : Request → Option (BitVec 32)
  | ⟨.ctxCreate, c⟩ => some c.header.ctxId
  | _ => none

def rect : Request → Option VirtioGpuRect
  | ⟨.setScanout, c⟩ => some c.r
  | ⟨.transferToHost2d, c⟩ => some c.r
  | ⟨.resourceFlush, c⟩ => some c.r
  | _ => none

/-- The request changes nothing that others rest on. -/
def Idle (r : Request) : Prop := r.creates = none ∧ r.attaches = none ∧ r.opens = none

end Request

def VirtioGpuRect.Inside (r : VirtioGpuRect) (w h : BitVec 32) : Prop :=
  r.x.toNat + r.w.toNat ≤ w.toNat ∧ r.y.toNat + r.h.toNat ≤ h.toNat

section Ready
variable (ex : List Request)

/-- The resources that some requests have created, with their widths and heights. -/
def resources : List (BitVec 32 × BitVec 32 × BitVec 32) := ex.filterMap Request.creates

/-- The resources with a backing, and how long these are. -/
def backings : List (BitVec 32 × BitVec 32) := ex.filterMap Request.attaches

def contexts : List (BitVec 32) := ex.filterMap Request.opens

/-- The resource is there, and large enough for the rectangle. -/
def Covers (resourceId : BitVec 32) (r : VirtioGpuRect) : Prop :=
  ∃ w h, (resourceId, w, h) ∈ resources ex ∧ r.Inside w h

def Fresh (resourceId : BitVec 32) : Prop :=
  resourceId ≠ 0 ∧ ∀ w h, (resourceId, w, h) ∉ resources ex

/-- What a request needs is there after these. -/
def Ready : Request → Prop
  | ⟨.ctrlHdr, _⟩ => True
  | ⟨.getCapsetInfo, _⟩ => True
  | ⟨.resourceCreate2d, c⟩ => Fresh ex c.resourceId
  | ⟨.resourceCreate3d, c⟩ => Fresh ex c.args.handle
  | ⟨.attachBacking, c⟩ =>
    (∃ w h, (c.resourceId, w, h) ∈ resources ex ∧ 4 * (w.toNat * h.toNat) ≤ c.length.toNat) ∧
    ∀ length, (c.resourceId, length) ∉ backings ex
  | ⟨.setScanout, c⟩ => Covers ex c.resourceId c.r
  | ⟨.transferToHost2d, c⟩ => Covers ex c.resourceId c.r ∧
    ∃ length, (c.resourceId, length) ∈ backings ex ∧
      c.offset.toNat + 4 * (c.r.w.toNat * c.r.h.toNat) ≤ length.toNat
  | ⟨.resourceFlush, c⟩ => Covers ex c.resourceId c.r
  | ⟨.ctxCreate, c⟩ => c.header.ctxId ≠ 0 ∧ c.header.ctxId ∉ contexts ex
  | ⟨.ctxAttachResource, c⟩ => c.header.ctxId ∈ contexts ex ∧
    ∃ w h, (c.handle, w, h) ∈ resources ex
  | ⟨.submit3d, c⟩ => c.header.ctxId ∈ contexts ex ∧ c.len.toNat ≤ c.buffer.size

end Ready

/-- The rectangle of a request begins in the corner of the screen. -/
def Cornered (req : Request) : Prop := ∀ r, req.rect = some r → r.x = 0 ∧ r.y = 0

lemma inside_drawn (r : VirtioGpuRect) : r.drawn.Inside 1600 900 ↔ r.x = 0 ∧ r.y = 0 := by
  unfold VirtioGpuRect.Inside VirtioGpuRect.drawn
  simp only [BitVec.toNat_eq]
  simp

/-- These are the requests, and others that change nothing. -/
structure UpToIdle (ex done : List Request) : Prop where
  mem : ∀ req ∈ done, req ∈ ex
  idle : ∀ req ∈ ex, req ∈ done ∨ req.Idle

variable {ex done : List Request}

lemma UpToIdle.ready (h : UpToIdle ex done) (req : Request) : Ready ex req ↔ Ready done req := by
  have hmem : ∀ {α : Type} (f : Request → Option α) (x : α),
      (∀ req : Request, req.Idle → f req = none) →
      (x ∈ ex.filterMap f ↔ x ∈ done.filterMap f) := by
    intro α f x hf
    simp only [List.mem_filterMap]
    constructor
    · rintro ⟨req, hreq, hx⟩
      refine ⟨req, (h.idle req hreq).resolve_right fun hidle => ?_, hx⟩
      rw [hf req hidle] at hx
      cases hx
    · rintro ⟨req, hreq, hx⟩
      exact ⟨req, h.mem req hreq, hx⟩
  have hresources : ∀ x, x ∈ resources ex ↔ x ∈ resources done := fun x =>
    hmem _ x fun _ hidle => hidle.1
  have hbackings : ∀ x, x ∈ backings ex ↔ x ∈ backings done := fun x =>
    hmem _ x fun _ hidle => hidle.2.1
  have hcontexts : ∀ x, x ∈ contexts ex ↔ x ∈ contexts done := fun x =>
    hmem _ x fun _ hidle => hidle.2.2
  obtain ⟨c, body⟩ := req
  cases c <;> simp only [Ready, Covers, Fresh, hresources, hbackings, hcontexts]

lemma UpToIdle.trans {others : List Request} (h : UpToIdle ex done) (h' : UpToIdle done others) :
    UpToIdle ex others :=
  ⟨fun req hreq => h.mem req (h'.mem req hreq),
    fun req hreq => (h.idle req hreq).elim (h'.idle req) .inr⟩

section Script
variable {g : DevId} {caps : ℕ} {b : Backing} {r : VirtioGpuRect} {before behind : List Action}
  {req : Request}

lemma cornered_of_none (h : req.rect = none) : Cornered req := by
  intro r hr
  rw [h] at hr
  cases hr

lemma cornered_of_some (h : req.rect = some r.drawn) : Cornered req ↔ r.x = 0 ∧ r.y = 0 := by
  constructor
  · exact fun hcorner => hcorner r.drawn h
  · rintro hcorner r' hr'
    rw [h] at hr'
    cases hr'
    exact hcorner

/-- The requests before the EDID need nothing. -/
lemma idle_start : ∀ req ∈ requests (driveStart g caps),
    req.Idle ∧ Cornered req ∧ ∀ ex, Ready ex req := by
  intro req hreq
  obtain ⟨a, ha, hsome⟩ := List.mem_filterMap.mp hreq
  simp only [driveStart, List.mem_append, List.mem_cons, List.mem_map, List.not_mem_nil,
    or_false] at ha
  obtain (ha | ⟨i, -, rfl⟩) | rfl := ha
  · obtain rfl | rfl | rfl | rfl | rfl | rfl := ha <;> cases hsome
    exact ⟨⟨rfl, rfl, rfl⟩, cornered_of_none rfl, fun _ => trivial⟩
  · cases hsome
    exact ⟨⟨rfl, rfl, rfl⟩, cornered_of_none rfl, fun _ => trivial⟩
  · cases hsome

/-- The framebuffer's resource is just large enough. -/
lemma covers_drawn (h : resources ex = [(1, 1600, 900)] ∨
    resources ex = [(1, 1600, 900), (2, 256, 256)]) :
    Covers ex 1 r.drawn ↔ r.x = 0 ∧ r.y = 0 := by
  rw [Covers, ← inside_drawn]
  obtain h | h := h <;> simp [h]

lemma framebuffer_fits : 4 * ((1600#32).toNat * (900#32).toNat) ≤
    (backingLength (1600#32 * 900#32).toNat).toNat := by
  decide

/-- In the second part of the script, each request finds what it needs in front of it. -/
lemma ready_rest (h : driveRest g b r = before ++ send g req :: behind) :
    Ready (requests before) req ↔ Cornered req := by
  have hget : (driveRest g b r)[before.length]? = some (send g req) := by
    rw [h, List.getElem?_append_right le_rfl, Nat.sub_self, List.getElem?_cons_zero]
  have hreq : ((driveRest g b r)[before.length]?).bind Prod.snd = some req := by
    rw [hget]
    rfl
  have htake : before = (driveRest g b r).take before.length := by
    rw [h, List.take_left]
  have hlt : before.length < 12 := by
    have hlen := congrArg List.length h
    simp only [driveRest, List.length_cons, List.length_nil, List.length_append] at hlen
    omega
  rw [htake]
  generalize before.length = k at hreq hlt
  interval_cases k
  case «0» =>
    obtain rfl : getEdid = req := Option.some.inj hreq
    exact iff_of_true trivial (cornered_of_none rfl)
  case «1» =>
    obtain rfl : resourceCreate2d r = req := Option.some.inj hreq
    refine iff_of_true ⟨show 1#32 ≠ 0 by decide, fun w h hmem => ?_⟩ (cornered_of_none rfl)
    cases hmem
  case «2» =>
    obtain rfl : attachFramebuffer r b = req := Option.some.inj hreq
    refine iff_of_true ⟨⟨1600, 900, List.mem_singleton_self _, framebuffer_fits⟩,
      fun length hmem => ?_⟩ (cornered_of_none rfl)
    cases hmem
  case «3» =>
    obtain rfl : setScanout r = req := Option.some.inj hreq
    exact (covers_drawn (.inl rfl)).trans (cornered_of_some rfl).symm
  case «4» =>
    obtain rfl : transferToHost2d r = req := Option.some.inj hreq
    refine Iff.trans (and_iff_left ⟨_, List.mem_singleton_self _, ?_⟩)
      ((covers_drawn (.inl rfl)).trans (cornered_of_some rfl).symm)
    exact (Nat.zero_add _).trans_le framebuffer_fits
  case «5» =>
    obtain rfl : resourceFlush r = req := Option.some.inj hreq
    exact (covers_drawn (.inl rfl)).trans (cornered_of_some rfl).symm
  case «6» =>
    obtain rfl : ctxCreate = req := Option.some.inj hreq
    refine iff_of_true ⟨by decide, fun hmem => ?_⟩ (cornered_of_none rfl)
    cases hmem
  case «7» =>
    obtain rfl : resourceCreate3d = req := Option.some.inj hreq
    refine iff_of_true ⟨by decide, fun w h hmem => ?_⟩ (cornered_of_none rfl)
    cases List.mem_singleton.mp hmem
  case «8» =>
    obtain rfl : ctxAttachResource = req := Option.some.inj hreq
    exact iff_of_true ⟨List.mem_singleton_self _, 256, 256, .tail _ (.head _)⟩
      (cornered_of_none rfl)
  case «9» =>
    obtain rfl : attachResourceExample b = req := Option.some.inj hreq
    have hfits : 4 * (256 * 256) ≤ (backingLength (256 * 256)).toNat := by decide
    refine iff_of_true ⟨⟨256, 256, .tail _ (.head _), hfits⟩, fun length hmem => ?_⟩
      (cornered_of_none rfl)
    cases List.mem_singleton.mp hmem
  case «10» =>
    obtain rfl : submit3d = req := Option.some.inj hreq
    exact iff_of_true ⟨List.mem_singleton_self _, by decide +kernel⟩ (cornered_of_none rfl)
  case «11» => cases hreq

lemma upToIdle_start (xs : List Action) :
    UpToIdle (requests (driveStart g caps ++ xs)) (requests xs) := by
  rw [requests_append]
  refine ⟨fun req hreq => List.mem_append_right _ hreq, fun req hreq => ?_⟩
  exact (List.mem_append.mp hreq).symm.imp_right fun hstart => (idle_start req hstart).1

/-- Each request of the script finds what it needs in front of it. -/
lemma ready_script (h : driveScript g caps b r = before ++ send g req :: behind)
    (hex : UpToIdle ex (requests before)) : Ready ex req ↔ Cornered req := by
  have hbehind : ∀ more, before = driveStart g caps ++ more →
      driveRest g b r = more ++ send g req :: behind → (Ready ex req ↔ Cornered req) := by
    rintro more rfl hrest
    exact ((hex.trans (upToIdle_start more)).ready req).trans (ready_rest hrest)
  obtain ⟨more, hbefore, hrest⟩ | ⟨more, hstart, hrest⟩ := List.append_eq_append_iff.mp h
  · exact hbehind more hbefore hrest
  · cases more with
    | nil => exact hbehind [] (by simpa using hstart.symm) (by simpa using hrest.symm)
    | cons a more =>
      obtain ⟨rfl, -⟩ := List.cons.inj hrest
      have hmem : req ∈ requests (driveStart g caps) := by simp [hstart]
      obtain ⟨-, hcornered, hready⟩ := idle_start req hmem
      exact iff_of_true (hready ex) hcornered

/-- So do the requests of the two loops behind the whole script. -/
lemma ready_loops (hex : UpToIdle ex (requests (driveScript g caps b r))) :
    (Ready ex (resourceFlush r) ↔ Cornered (resourceFlush r)) ∧
      (Ready ex (transferToHost2d r) ↔ Cornered (transferToHost2d r)) := by
  have hall : UpToIdle ex (requests (driveRest g b r)) := hex.trans (upToIdle_start _)
  have hcovers : Covers (requests (driveRest g b r)) 1 r.drawn ↔ r.x = 0 ∧ r.y = 0 :=
    covers_drawn (.inr rfl)
  rw [hall.ready, hall.ready]
  refine ⟨hcovers.trans (cornered_of_some rfl).symm, ?_⟩
  refine Iff.trans (and_iff_left ⟨backingLength r.drawn.capacity, .head _, ?_⟩)
    (hcovers.trans (cornered_of_some rfl).symm)
  exact (Nat.zero_add _).trans_le framebuffer_fits

end Script

end Fomos.Gpu

namespace Fomos
open Gpu

namespace Driving
variable {b : DevId → Backing} {c : DevId → ℕ} {d : Driving} {t u : TaskId} {g : DevId}

/-- What device `g` has read in the chains of its tasks' calls. -/
def executedOn (d : Driving) (g : DevId) : List Request :=
  d.payloads.calls.filterMap fun call =>
    if (d.payloads.kernel.fut call.task).routine.requester = some g then
      Request.parse call.exchange.seen
    else none

lemma mem_executedOn {req : Request} : req ∈ d.executedOn g ↔ ∃ t,
    (d.payloads.kernel.fut t).routine.requester = some g ∧ some req ∈ d.executed t := by
  simp only [executedOn, executed, Payloads.answered, List.mem_filterMap, List.mem_map,
    List.mem_reverse, List.mem_filter, decide_eq_true_eq, Option.ite_none_right_eq_some]
  constructor
  · rintro ⟨call, hcall, hroutine, hparse⟩
    exact ⟨call.task, hroutine, call, ⟨hcall, rfl⟩, hparse⟩
  · rintro ⟨t, hroutine, call, ⟨hcall, rfl⟩, hparse⟩
    exact ⟨call, hcall, hroutine, hparse⟩

/-- A device has one drive. -/
def OneDrive (d : Driving) : Prop := ∀ g, ∀ t < d.payloads.kernel.nextId,
  ∀ u < d.payloads.kernel.nextId, (d.payloads.kernel.fut t).routine = .drive g →
    (d.payloads.kernel.fut u).routine = .drive g → t = u

lemma oneDrive_of_total (h : ∀ g, d.payloads.kernel.total (Fut.makes (.drive g)) ≤ 1) :
    d.OneDrive := by
  intro g t ht u hu hdrive hdrive'
  by_contra hne
  have hpair : ∑ v ∈ {t, u}, Fut.makes (.drive g) (d.payloads.kernel.fut v) ≤
      d.payloads.kernel.total (Fut.makes (.drive g)) := by
    refine Finset.sum_le_sum_of_subset fun v hv => ?_
    simp only [Finset.mem_insert, Finset.mem_singleton] at hv
    obtain rfl | rfl := hv
    · exact Finset.mem_range.mpr ht
    · exact Finset.mem_range.mpr hu
  rw [Finset.sum_pair hne] at hpair
  have hone := h g
  simp only [Fut.makes, hdrive, hdrive', if_true] at hpair
  omega

namespace Inv

/-- Apart from its drive, a device has executed transfers only. -/
lemma executedOn_cases {req : Request} (h : Inv c b d) (hconforms : d.Conforms c b)
    (hreq : req ∈ d.executedOn g) : req.Idle ∨ ∃ t < d.payloads.kernel.nextId,
      (d.payloads.kernel.fut t).routine = .drive g ∧ some req ∈ d.executed t := by
  obtain ⟨t, hroutine, hexecuted⟩ := mem_executedOn.mp hreq
  have ht : t < d.payloads.kernel.nextId := by
    by_contra hle
    have hmade := h.fresh t (Nat.le_of_not_lt hle)
    have hnone := List.map_eq_nil_iff.mp (List.append_eq_nil_iff.mp hmade).1
    simp [executed, hnone] at hexecuted
  obtain hdrive | htransfer := (h.scripts t).2.cases hroutine
  · exact .inr ⟨t, ht, hdrive, hexecuted⟩
  · obtain ⟨⟨n, hall⟩, -⟩ := hconforms.transfer t ht g htransfer
    rw [hall] at hexecuted
    obtain rfl := Option.some.inj (List.eq_of_mem_replicate hexecuted)
    exact .inl ⟨rfl, rfl, rfl⟩

/-- A device has executed what its drive has waited for, and else nothing that counts. -/
lemma upToIdle {reqs : List Request} {n : ℕ} {r : VirtioGpuRect} (h : Inv c b d)
    (hconforms : d.Conforms c b) (hone : d.OneDrive) (hu : u < d.payloads.kernel.nextId)
    (hdrive : (d.payloads.kernel.fut u).routine = .drive g)
    (hall : reqs.map some <+: d.executed u)
    (hle : d.executed u <+: (reqs ++ List.replicate n (resourceFlush r)).map some) :
    UpToIdle (d.executedOn g) reqs := by
  refine ⟨fun req hreq => ?_, fun req hreq => ?_⟩
  · refine mem_executedOn.mpr ⟨u, by rw [hdrive]; rfl, ?_⟩
    exact hall.subset (List.mem_map_of_mem hreq)
  · obtain hidle | ⟨t, ht, hdrive', hexecuted⟩ := h.executedOn_cases hconforms hreq
    · exact .inr hidle
    · obtain rfl := hone g t ht u hu hdrive' hdrive
      obtain ⟨req', hmem, heq⟩ := List.mem_map.mp (hle.subset hexecuted)
      cases heq
      obtain hmem | hmem := List.mem_append.mp hmem
      · exact .inl hmem
      · rw [List.eq_of_mem_replicate hmem]
        exact .inr ⟨rfl, rfl, rfl⟩

/-- A task that runs has had all its requests executed. -/
lemma executed_running {reqs : List Request} {o : Op} {rest : List Op}
    (hanswer : d.payloads.Answered) (run : Kernel.Running d.payloads.kernel t o rest)
    (hmade : List.Forall₂ (fun data req => Request.Image req data) (d.made t) reqs)
    (htype : ∀ req ∈ reqs, req.WellTyped) : d.executed t = reqs.map some := by
  have hlen := hmade.length_eq
  rw [made, waits_of_await run.await, if_neg Bool.false_ne_true, List.append_nil,
    List.length_map] at hlen
  rw [executed_of_made hanswer hmade htype, hlen, List.take_length]

lemma drive_ready {len : ℕ} {rest : List Op} (h : Inv c b d) (hconforms : d.Conforms c b)
    (hanswer : d.payloads.Answered) (hone : d.OneDrive)
    (run : Kernel.Running d.payloads.kernel t (.request g len) rest)
    (hdrive : (d.payloads.kernel.fut t).routine = .drive g) :
    ∃ req, d.next b t = some req ∧ (Ready (d.executedOn g) req ↔ Cornered req) := by
  have ht := h.wellFormed.running_lt run.pc
  obtain ⟨req, -, -, hnext, hplace, -⟩ := h.drive_sends ht hdrive run.takes
  refine ⟨req, hnext, ?_⟩
  obtain ⟨done, behind, hscript, hmade⟩ | ⟨rfl, htodo⟩ := hplace
  · have hsub : requests done ⊆ requests (driveScript g (c g) (b g) (d.rect t)) := by
      rw [hscript, requests_append]
      exact List.subset_append_left ..
    have hexecuted := executed_running hanswer run hmade fun req hreq =>
      wellTyped_of_script (hsub hreq)
    refine ready_script hscript (h.upToIdle hconforms hone ht hdrive (n := 0) (r := d.rect t) ?_ ?_)
    · rw [hexecuted]
    · simp [hexecuted]
  · obtain ⟨reqs, n, hmade, hle, hall⟩ := (h.drive t ht g hdrive).images
    have hexecuted := executed_running hanswer run hmade fun req hreq =>
      wellTyped_of_mem (hle.subset hreq)
    obtain rfl := hall htodo
    have hup : UpToIdle (d.executedOn g) (requests (driveScript g (c g) (b g) (d.rect t))) := by
      refine h.upToIdle hconforms hone ht hdrive (n := n) (r := d.rect t) ?_ ?_ <;>
        rw [hexecuted]
      exact (List.prefix_append ..).map some
    exact (ready_loops hup).1

lemma transfer_ready {len : ℕ} {rest : List Op} (h : Inv c b d) (hconforms : d.Conforms c b)
    (hone : d.OneDrive) (run : Kernel.Running d.payloads.kernel t (.request g len) rest)
    (htransfer : (d.payloads.kernel.fut t).routine = .transfer g) :
    ∃ req, d.next b t = some req ∧ (Ready (d.executedOn g) req ↔ Cornered req) := by
  have ht := h.wellFormed.running_lt run.pc
  obtain ⟨-, hnext, -⟩ := h.transfer_sends ht htransfer run.takes
  obtain ⟨-, u, hu, hdrive, hrect, hall⟩ := hconforms.transfer t ht g htransfer
  obtain ⟨n, hle⟩ := hconforms.drive u hu g hdrive
  rw [hrect] at hnext
  exact ⟨_, hnext, (ready_loops (h.upToIdle hconforms hone hu hdrive hall hle)).2⟩

end Inv

lemma total_of_reach {config : DevId → GpuConfig} {rs : List Routine} {mem : ℕ → BitVec 8}
    (hrs : ∀ r ∈ rs, r = .client none ∨ ∃ g, r = .drive g)
    (h : Transition.Reach (step b) (fun d l _ => d.payloads.kernel.NoCollision l.1)
      (start config rs mem) d) (g : DevId) :
    d.payloads.kernel.total (Fut.makes (.drive g)) ≤ rs.count (.drive g) := by
  have hinv := h.invariant
    (I := fun d => Inv (fun g => (config g).numCapsets) b d ∧
      d.payloads.kernel.total (Fut.makes (.drive g)) ≤ rs.count (.drive g))
    ⟨.boot mem hrs, (Kernel.Budget.boot hrs g).drives⟩ fun d l d' _ hd taken _ =>
      ⟨hd.1.step taken,
        (Kernel.total_step (Fut.makes_credit (r := .drive g) trivial) hd.1.wellFormed
        hd.1.scripts (Kernel.steps_of_step (kernel_step taken))).trans hd.2⟩
  exact hinv.2

/-- A further request of task 0, answered before the next interrupt. -/
def nextRequest (len head : ℕ) : List Kernel.Label :=
  [.op (.request 0 len), .devRead 0, .devPush 0 head 24, .poll, .exec, .exec, .interrupt,
    .exec, .exec, .exec, .exec, .poll, .op (.checkall 0), .op (.checkall 0), .op .yieldOnce,
    .poll, .exec, .poll, .poll]

/-- A run of `drive` up to its `VirtioGpuSetScanout`. -/
def scanoutRun : List Payloads.Label :=
  firstInfoRun ++ (([.op (.readConfig 0), .op .yieldOnce, .poll, .exec, .exec, .interrupt, .exec,
    .exec, .exec, .exec, .exec, .poll, .op (.checkall 0), .op .yieldOnce, .poll, .exec, .poll] :
    List Kernel.Label) ++ nextRequest 24 4 ++ nextRequest 40 5 ++ nextRequest 48 4).map
      fun l => (l, [])

end Driving
end Fomos
