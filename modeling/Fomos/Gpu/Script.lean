import Mathlib
import Fomos.Gpu.Requests
import Fomos.Kernel.Tasks

/-!
# What `drive` sends

The requests of `virtio_gpu::drive` and of the transfer loop it spawns, with all that stands in
them, at the places of the kernel's scripts. The rectangle comes out of the device's answer to the
first request; its width and height are written over, its corner is not.
-/
namespace Fomos.Gpu
open ReprC

namespace VirtioGpuCtrlHdr

/-- `VirtioGpuCtrlHdr { type_, ..Default::default() }` -/
def ofType (type : VirtioGpuCtrlType) : VirtioGpuCtrlHdr := { default with type_ := type }

/-- `VirtioGpuCtrlHdr { type_, ctx_id: 1, ..Default::default() }` -/
def inContext (type : VirtioGpuCtrlType) : VirtioGpuCtrlHdr :=
  { default with type_ := type, ctxId := 1 }

end VirtioGpuCtrlHdr
open VirtioGpuCtrlHdr

def pipeBindRenderTarget : BitVec 32 := 1 <<< 1
def pipeBindSamplerView : BitVec 32 := 1 <<< 3

lemma r8g8b8a8Unorm_listed : 67 ∈ Virgl.formatDiscriminants := by decide

/-- `Default::default()` -/
def VirglRendererResourceCreateArgs.default : VirglRendererResourceCreateArgs where
  handle := 0
  target := .texture2d
  format := ⟨67, r8g8b8a8Unorm_listed⟩
  bind := pipeBindRenderTarget
  width := 128
  height := 128
  depth := 1
  arraySize := 1
  lastLevel := 0
  nrSamples := 0
  flags := 0

/-- `display_info.pmodes.rect` after the assignments of its width and height. -/
def VirtioGpuRect.drawn (r : VirtioGpuRect) : VirtioGpuRect := { r with w := 1600, h := 900 }

/-- `size_of::<RGBA>() * framebuffer.len()` -/
def backingLength (capacity : ℕ) : BitVec 32 := BitVec.ofNat 32 (4 * capacity)

/-- The number of pixels of the framebuffer. -/
def VirtioGpuRect.capacity (r : VirtioGpuRect) : ℕ := (r.w * r.h).toNat

/-- The pages that `drive` allocates for the framebuffer and for `resource_example`. -/
structure Backing where
  framebuffer : BitVec 64
  resourceExample : BitVec 64
  deriving DecidableEq, Repr

/-- `['1'; 64]` with a name at the front. -/
def debugName (name : String) : Vector Char 64 :=
  name.toList.zipIdx.foldl (fun v e => v.setIfInBounds e.2 e.1) (Vector.replicate 64 '1')

section Requests
variable (r : VirtioGpuRect) (b : Backing)

def getDisplayInfo : Request := ⟨.ctrlHdr, ofType .cmdGetDisplayInfo⟩

def getCapsetInfo (i : ℕ) : Request :=
  ⟨.getCapsetInfo, ofType .cmdGetCapsetInfo, BitVec.ofNat 32 i, 0⟩

def getEdid : Request := ⟨.ctrlHdr, ofType .cmdGetEdid⟩

def resourceCreate2d : Request :=
  ⟨.resourceCreate2d, ofType .cmdResourceCreate2d, 1, .r8g8b8a8Unorm, r.drawn.w, r.drawn.h⟩

def attachFramebuffer : Request :=
  ⟨.attachBacking, ofType .cmdResourceAttachBacking, 1, 1, b.framebuffer,
    backingLength r.drawn.capacity, 0⟩

def setScanout : Request := ⟨.setScanout, ofType .cmdSetScanout, r.drawn, 0, 1⟩

def transferToHost2d : Request :=
  ⟨.transferToHost2d, ofType .cmdTransferToHost2d, r.drawn, 0, 1, 0⟩

def resourceFlush : Request := ⟨.resourceFlush, ofType .cmdResourceFlush, r.drawn, 1, 0⟩

def ctxCreate : Request :=
  ⟨.ctxCreate, inContext .cmdCtxCreate, BitVec.ofNat 32 "Debug\x00".length, 0,
    debugName "Debug\x00"⟩

/-- `res_handle` -/
def resHandle : BitVec 32 := 2

def resourceCreate3d : Request :=
  ⟨.resourceCreate3d, inContext .cmdResourceCreate3d,
    { VirglRendererResourceCreateArgs.default with
      width := 256, height := 256, handle := resHandle, bind := pipeBindSamplerView }, 0⟩

def ctxAttachResource : Request :=
  ⟨.ctxAttachResource, inContext .cmdCtxAttachResource, resHandle, 0⟩

def attachResourceExample : Request :=
  ⟨.attachBacking, inContext .cmdResourceAttachBacking, resHandle, 1, b.resourceExample,
    backingLength (256 * 256), 0⟩

/-- The three commands fit in the buffer, so the conversion to the array does not panic. -/
def submit3d : Request :=
  let s := (Virgl.submit (Virgl.stream Virgl.driveCalls)).get
    (Virgl.submit_isSome.mpr (by decide))
  ⟨.submit3d, inContext .cmdSubmit3d, s.len, s.buffer⟩

end Requests

/-! ## The script -/

/-- An operation of the kernel's script, with the request that it sends. -/
abbrev Action := Op × Option Request

def send (g : DevId) (r : Request) : Action := (.request g r.size, some r)

def act (o : Op) : Action := (o, none)

/-- `drive` up to the request for the EDID, with `numCapsets` capability sets. -/
def driveStart (g : DevId) (numCapsets : ℕ) : List Action :=
  [act (.spawn (.poller g)), act (.startUp g), act .yieldOnce, act (.dropGuard g),
    send g getDisplayInfo, act (.readConfig g)] ++
  (List.range numCapsets).map (fun i => send g (getCapsetInfo i)) ++ [act .yieldOnce]

/-- `drive` from there up to its last loop. -/
def driveRest (g : DevId) (b : Backing) (r : VirtioGpuRect) : List Action :=
  [send g getEdid, send g (resourceCreate2d r), send g (attachFramebuffer r b),
    send g (setScanout r), send g (transferToHost2d r), send g (resourceFlush r),
    send g ctxCreate, send g resourceCreate3d, send g ctxAttachResource,
    send g (attachResourceExample b), send g submit3d, act (.spawn (.transfer g))]

def driveScript (g : DevId) (numCapsets : ℕ) (b : Backing) (r : VirtioGpuRect) : List Action :=
  driveStart g numCapsets ++ driveRest g b r

/-- The sizes that the kernel's scripts have for the structures. -/
def Command.opSize : Command → ℕ
  | ctrlHdr => virtioGpuCtrlHdr
  | getCapsetInfo => virtioGpuCmdGetCapsetInfo
  | resourceCreate2d => virtioGpuCmdResourceCreate2d
  | attachBacking => virtioGpuCmdResourceAttachBacking
  | setScanout => virtioGpuCmdSetScanout
  | transferToHost2d => virtioGpuCmdTransferToHost2d
  | resourceFlush => virtioGpuCmdResourceFlush
  | ctxCreate => virtioGpuCmdCtxCreate
  | resourceCreate3d => virtioGpuCmdResourceCreate3d
  | ctxAttachResource => virtioGpuCmdCtxAttachResource
  | submit3d => virtioGpuCmdSubmit3d

lemma Request.size_eq (r : Request) : r.size = r.1.opSize := by
  have hsize : ∀ c : Command, c.layout.size = c.opSize := fun c => by cases c <;> rfl
  exact hsize r.1

lemma send_fst (g : DevId) (r : Request) : (send g r).1 = .request g r.1.opSize := by
  rw [send, r.size_eq]

/-- The requests of some actions. -/
def requests (script : List Action) : List Request := script.filterMap Prod.snd

/-- The scripts that the kernel runs have the sizes of these requests. -/
theorem driveScript_ops (g : DevId) (numCapsets : ℕ) (b : Backing) (r : VirtioGpuRect) :
    (driveScript g numCapsets b r).map Prod.fst = driveBody g numCapsets := by
  have hcapsets : (List.range numCapsets).map (fun i => Op.request g (getCapsetInfo i).1.opSize) =
      List.replicate numCapsets (.request g virtioGpuCmdGetCapsetInfo) := by
    refine List.eq_replicate_iff.mpr ⟨by simp, fun o ho => ?_⟩
    obtain ⟨i, -, rfl⟩ := List.mem_map.mp ho
    rfl
  simp only [driveScript, driveStart, driveRest, List.map_append, List.map_map,
    Function.comp_def, send_fst, hcapsets, driveBody, List.append_assoc, List.map_cons,
    List.map_nil]
  rfl

/-- An action sends a request of its structure, or none. -/
lemma driveScript_cases {g : DevId} {numCapsets : ℕ} {b : Backing} {r : VirtioGpuRect} {a : Action}
    (h : a ∈ driveScript g numCapsets b r) : (∃ req : Request, a = send g req ∧ req.WellTyped) ∨
      ∃ o, a = act o ∧ ∀ g len, o ≠ .request g len := by
  have hact : ∀ o, (∀ g len, o ≠ .request g len) → a = act o →
      ∃ o, a = act o ∧ ∀ g len, o ≠ .request g len := fun o ho ha => ⟨o, ha, ho⟩
  simp only [driveScript, driveStart, driveRest, List.mem_append, List.mem_cons, List.mem_map,
    List.not_mem_nil, or_false] at h
  obtain ((h | ⟨i, -, rfl⟩) | h) | h := h
  · obtain h | h | h | h | h | h := h
    · exact .inr (hact _ (by simp) h)
    · exact .inr (hact _ (by simp) h)
    · exact .inr (hact _ (by simp) h)
    · exact .inr (hact _ (by simp) h)
    · exact .inl ⟨_, h, rfl⟩
    · exact .inr (hact _ (by simp) h)
  · exact .inl ⟨_, rfl, rfl⟩
  · exact .inr (hact _ (by simp) h)
  · obtain h | h | h | h | h | h | h | h | h | h | h | h := h
    case inr.inr.inr.inr.inr.inr.inr.inr.inr.inr.inr => exact .inr (hact _ (by simp) h)
    all_goals exact .inl ⟨_, h, rfl⟩

@[simp] lemma requests_nil : requests [] = [] := rfl

@[simp] lemma requests_append (xs ys : List Action) :
    requests (xs ++ ys) = requests xs ++ requests ys := List.filterMap_append

@[simp] lemma requests_cons_send (g : DevId) (r : Request) (xs : List Action) :
    requests (send g r :: xs) = r :: requests xs := rfl

@[simp] lemma requests_cons_act (o : Op) (xs : List Action) :
    requests (act o :: xs) = requests xs := rfl

/-- A `drive` has done some of its script and still has the rest to do, or flushes behind it; it
has made the requests on the way. -/
def OnScript (g : DevId) (numCapsets : ℕ) (b : Backing) (r : VirtioGpuRect) (todo : List Op)
    (made : List (List (BitVec 8))) : Prop :=
  ∃ done rest n, driveScript g numCapsets b r = done ++ rest ∧ todo = rest.map Prod.fst ∧
    (rest ≠ [] → n = 0) ∧
    List.Forall₂ (fun data req => Request.Image req data) made
      (requests done ++ List.replicate n (resourceFlush r))

namespace OnScript
variable {g : DevId} {numCapsets : ℕ} {b : Backing} {r : VirtioGpuRect} {todo rest : List Op}
  {made : List (List (BitVec 8))} {o : Op}

lemma new (g : DevId) (numCapsets : ℕ) (b : Backing) (r : VirtioGpuRect) :
    OnScript g numCapsets b r (driveBody g numCapsets) [] :=
  ⟨[], _, 0, rfl, (driveScript_ops ..).symm, fun _ => rfl, .nil⟩

/-- The requests on the way, which are all of the script when it is done. -/
lemma images (h : OnScript g numCapsets b r todo made) : ∃ reqs n,
    List.Forall₂ (fun data req => Request.Image req data) made reqs ∧
    reqs <+: requests (driveScript g numCapsets b r) ++ List.replicate n (resourceFlush r) ∧
    (todo = [] →
      reqs = requests (driveScript g numCapsets b r) ++ List.replicate n (resourceFlush r)) := by
  obtain ⟨done, rest, n, hscript, htodo, hn, hmade⟩ := h
  refine ⟨_, n, hmade, ?_, fun hnil => ?_⟩
  · rw [hscript, requests_append]
    cases rest with
    | nil => simp
    | cons a rest =>
      obtain rfl := hn (by simp)
      simp
  · obtain rfl := List.map_eq_nil_iff.mp (htodo.symm.trans hnil)
    rw [hscript, List.append_nil]

/-- With the script done, the first request and others have been made. -/
lemma one_lt (h : OnScript g numCapsets b r [] made) : 1 < made.length := by
  obtain ⟨done, rest, n, hscript, htodo, -, hmade⟩ := h
  obtain rfl := List.map_eq_nil_iff.mp htodo.symm
  rw [List.append_nil] at hscript
  have hlen := hmade.length_eq
  simp only [← hscript, driveScript, driveStart, driveRest, requests_append, requests_cons_send,
    requests_cons_act, List.length_append, List.length_cons] at hlen
  omega

/-- The transfer loop is spawned at the end, with all requests of the script made. -/
lemma last {g' : DevId} (h : OnScript g numCapsets b r (.spawn (.transfer g') :: rest) made) :
    rest = [] ∧ made.length = (requests (driveScript g numCapsets b r)).length := by
  obtain ⟨done, todo, n, hscript, htodo, hn, hmade⟩ := h
  obtain ⟨a, todo, rfl, ha, rfl⟩ := List.map_eq_cons_iff.mp htodo.symm
  obtain rfl | ⟨init, x, rfl⟩ := List.eq_nil_or_concat todo
  · obtain rfl := hn (by simp)
    obtain ⟨req, rfl, -⟩ | ⟨o, rfl, -⟩ := driveScript_cases (a := a) (by rw [hscript]; simp)
    · cases ha
    · refine ⟨rfl, hmade.length_eq.trans ?_⟩
      simp [hscript]
  · have hinit := congrArg List.dropLast hscript
    rw [List.concat_eq_append, ← List.cons_append, ← List.append_assoc,
      List.dropLast_concat] at hinit
    have hmem : a ∈ (driveScript g numCapsets b r).dropLast := by
      rw [hinit]
      simp
    have hnot : ∀ a ∈ (driveScript g numCapsets b r).dropLast, a.1 ≠ .spawn (.transfer g') := by
      rw [driveScript, List.dropLast_append_of_ne_nil (by simp [driveRest])]
      simp only [driveStart, driveRest, List.dropLast_cons_cons, List.dropLast_singleton,
        List.forall_mem_append, List.forall_mem_cons, List.forall_mem_map]
      simp [send, act]
    exact absurd ha (hnot a hmem)

/-- Until the second request no rectangle is used. -/
lemma reads (h : OnScript g numCapsets b r todo made) (hfirst : made.length = 1)
    (r' : VirtioGpuRect) : OnScript g numCapsets b r' todo made := by
  obtain ⟨done, rest, n, hscript, htodo, hn, hmade⟩ := h
  have hlen := hmade.length_eq
  rw [hfirst, List.length_append, List.length_replicate] at hlen
  have hstart : 1 ≤ (requests (driveStart g numCapsets)).length := by
    simp only [driveStart, requests_append, requests_cons_send, requests_cons_act,
      List.length_append, List.length_cons]
    omega
  have hdone : ∃ more, driveStart g numCapsets = done ++ more ∧
      rest = more ++ driveRest g b r := by
    obtain ⟨more, hdone, hrest⟩ | hbehind := List.append_eq_append_iff.mp hscript.symm
    · exact ⟨more, hdone, hrest⟩
    · obtain ⟨more, rfl, hrest⟩ := hbehind
      cases more with
      | nil => exact ⟨[], by simp, by simpa using hrest.symm⟩
      | cons a more =>
        obtain ⟨rfl, -⟩ := List.cons.inj hrest
        simp only [requests_append, requests_cons_send, List.length_append,
          List.length_cons] at hlen
        omega
  obtain ⟨more, hdone, rfl⟩ := hdone
  have hn := hn (by simp [driveRest])
  subst hn
  refine ⟨done, more ++ driveRest g b r', 0, ?_, ?_, fun _ => rfl, by simpa using hmade⟩
  · rw [driveScript, hdone, List.append_assoc]
  · have hops := driveScript_ops g numCapsets b
    have heq := (hops r).trans (hops r').symm
    simp only [driveScript, List.map_append, List.append_cancel_left_eq] at heq
    rw [htodo, List.map_append, List.map_append, heq]

/-- An action that sends nothing. -/
lemma goesOn (h : OnScript g numCapsets b r (o :: rest) made)
    (ho : ∀ g len, o ≠ .request g len) : OnScript g numCapsets b r rest made := by
  obtain ⟨done, todo, n, hscript, htodo, hn, hmade⟩ := h
  obtain ⟨a, todo, rfl, rfl, rfl⟩ := List.map_eq_cons_iff.mp htodo.symm
  have hmem : a ∈ driveScript g numCapsets b r := by simp [hscript]
  obtain ⟨req, rfl, -⟩ | ⟨o, rfl, -⟩ := driveScript_cases hmem
  · exact absurd rfl (ho _ _)
  · refine ⟨done ++ [act o], todo, n, by simp [hscript], rfl, fun _ => hn (by simp), ?_⟩
    simpa using hmade

/-- The next request of the script. -/
lemma sends {len : ℕ} (h : OnScript g numCapsets b r (.request g len :: rest) made) :
    ∃ req : Request, req.WellTyped ∧ req.size = len ∧
      (let script := driveScript g numCapsets b r
      (script[script.length - (Op.request g len :: rest).length]?).bind Prod.snd) = some req ∧
      (∃ done behind, driveScript g numCapsets b r = done ++ send g req :: behind ∧
        List.Forall₂ (fun data req => Request.Image req data) made (requests done)) ∧
      ∀ data, req.Image data → OnScript g numCapsets b r rest (made ++ [data]) := by
  obtain ⟨done, todo, n, hscript, htodo, hn, hmade⟩ := h
  obtain ⟨a, todo, rfl, ha, rfl⟩ := List.map_eq_cons_iff.mp htodo.symm
  have hmem : a ∈ driveScript g numCapsets b r := by simp [hscript]
  obtain ⟨req, rfl, htype⟩ | ⟨o, rfl, ho⟩ := driveScript_cases hmem
  · cases ha
    obtain rfl := hn (by simp)
    rw [List.replicate_zero, List.append_nil] at hmade
    refine ⟨req, htype, rfl, ?_, ⟨done, todo, hscript, hmade⟩, fun data hdata => ?_⟩
    · simp only [hscript, List.length_append, List.length_cons, List.length_map,
        Nat.add_sub_cancel]
      simp [send]
    · refine ⟨done ++ [send g req], todo, 0, by simp [hscript], rfl, fun _ => rfl, ?_⟩
      rw [List.replicate_zero, List.append_nil, requests_append]
      exact List.rel_append hmade (.cons hdata .nil)
  · exact absurd ha (ho _ _)

/-- One flush more. -/
lemma flushes {data : List (BitVec 8)} (h : OnScript g numCapsets b r [] made)
    (hdata : (resourceFlush r).Image data) : OnScript g numCapsets b r [] (made ++ [data]) := by
  obtain ⟨done, todo, n, hscript, htodo, -, hmade⟩ := h
  obtain rfl := List.map_eq_nil_iff.mp htodo.symm
  refine ⟨done, [], n + 1, hscript, rfl, fun h => absurd rfl h, ?_⟩
  rw [List.replicate_succ', ← List.append_assoc]
  exact List.rel_append hmade (.cons hdata .nil)

end OnScript

end Fomos.Gpu
