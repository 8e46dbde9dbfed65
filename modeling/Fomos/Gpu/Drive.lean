import Mathlib
import Fomos.Gpu.Script
import Fomos.Kernel.Payloads
import Fomos.Kernel.Descriptors

/-!
# The runs of `drive`

The kernel with its buffers, where each `drive` and each transfer loop puts the bytes of its own
requests into them and reads its rectangle out of the answer. Whatever the other tasks and the
devices do meanwhile, a device executes for each of them what stands in its script, in this order.
-/
namespace Fomos
open Gpu ReprC VirtioGpuCtrlHdr

/-- What a device reports does not change. -/
lemma Kernel.Steps.numCapsets {k k' : Kernel} {l : Kernel.Label} (h : Kernel.Steps k l k')
    (g : DevId) : (k'.dev g).numCapsets = (k.dev g).numCapsets := by
  have hupdate : ∀ g' d, d.numCapsets = (k.dev g').numCapsets →
      (Function.update k.dev g' d g).numCapsets = (k.dev g).numCapsets := by
    intro g' d hd
    obtain rfl | hne := eq_or_ne g g'
    · rw [Function.update_self, hd]
    · rw [Function.update_of_ne hne]
  cases h with
  | startUp | dropGuard | request | release | devRead | devPush | checkallPast | checkallNothing
  | checkallWake | checkallPanic => exact hupdate _ _ rfl
  | _ => rfl

namespace Payloads

/-- The calls that a task has returned from, the oldest first. -/
def answered (m : Payloads) (t : TaskId) : List Call := (m.calls.filter (·.task = t)).reverse

end Payloads

/-- The future awaits a request. -/
def Fut.pending (f : Fut) : Bool :=
  match f.await with
  | some (.idWait ..) | some (.setFree ..) => true
  | _ => false

/-- The kernel with the rectangle that each `drive` has read, and each transfer loop has taken
over from the `drive` that spawned it. -/
structure Driving where
  payloads : Payloads
  rect : TaskId → VirtioGpuRect

namespace Driving
variable (b : DevId → Backing)

/-- The request that the script of a task has next. -/
def next (d : Driving) (t : TaskId) : Option Request :=
  let k := d.payloads.kernel
  match (k.fut t).routine with
  | .drive g =>
    if (k.fut t).todo = [] then some (resourceFlush (d.rect t))
    else
      let script := driveScript g (k.dev g).numCapsets (b g) (d.rect t)
      (script[script.length - (k.fut t).todo.length]?).bind Prod.snd
  | .transfer _ => some (transferToHost2d (d.rect t))
  | _ => none

/-- A scripted request has its own bytes, with what is given only in the padding. -/
def given (d : Driving) : Payloads.Label → Payloads.Label
  | (.op (.request g len), bytes) =>
    match d.payloads.kernel.pc with
    | .polling t =>
      match d.next b t with
      | some r => (.op (.request g len), r.bytes fun i => bytes.getD i 0)
      | none => (.op (.request g len), bytes)
    | _ => (.op (.request g len), bytes)
  | l => l

/-- The rectangles after a step that leads to `m'`. The first response of a `drive` is read as a
`VirtioGpuRespOkDisplayInfo`; bytes that are none are undefined behaviour, and end the run. -/
def readRect (m' : Payloads) (d : Driving) : Kernel.Label → Option (TaskId → VirtioGpuRect)
  | .op (.spawn (.transfer _)) =>
    match d.payloads.kernel.pc with
    | .polling t => some (Function.update d.rect d.payloads.kernel.nextId (d.rect t))
    | _ => some d.rect
  | .poll =>
    match m'.returned with
    | some c =>
      match (d.payloads.kernel.fut c.task).routine with
      | .drive _ =>
        if d.payloads.answered c.task = [] then
          (VirtioGpuRespOkDisplayInfo.layout.decode
            (Cells.load m'.mem c.addr VirtioGpuRespOkDisplayInfo.layout.size)).map fun info =>
              Function.update d.rect c.task info.pmodes.rect
        else some d.rect
      | _ => some d.rect
    | none => some d.rect
  | _ => some d.rect

def step (l : Payloads.Label) (d : Driving) : Option Driving := do
  let m' ← Payloads.step (d.given b l) d.payloads
  let rect ← d.readRect m' l.1
  return ⟨m', rect⟩

/-- The kernel at boot, with any memory. -/
def start (config : DevId → GpuConfig) (rs : List Routine) (mem : ℕ → BitVec 8) : Driving where
  payloads := Payloads.start config rs mem
  rect _ := ⟨0, 0, 0, 0⟩

/-- The data of all requests that a task has made, the oldest first. -/
def made (d : Driving) (t : TaskId) : List (List (BitVec 8)) :=
  (d.payloads.answered t).map Call.data ++
    if (d.payloads.kernel.fut t).pending then [d.payloads.sent t] else []

variable {b} {d d' : Driving} {l : Payloads.Label}

@[simp] lemma given_fst : (d.given b l).1 = l.1 := by
  unfold given
  split
  · split
    · split <;> rfl
    · rfl
  · rfl

/-- What a step can do to the tasks and their requests. -/
inductive Moves (b : DevId → Backing) (d d' : Driving) : Prop
  | sends {t g len rest await data}
      (run : Kernel.Running d.payloads.kernel t (.request g len) rest)
      (fut : d'.payloads.kernel.fut = Function.update d.payloads.kernel.fut t
        { d.payloads.kernel.fut t with todo := rest, await := some await })
      (waits : Fut.pending { d.payloads.kernel.fut t with todo := rest, await := some await })
      (sent : d'.payloads.sent = Function.update d.payloads.sent t data)
      (data : ∀ r, d.next b t = some r → r.Image data)
      (calls : d'.payloads.calls = d.payloads.calls) (rect : d'.rect = d.rect)
      (nextId : d'.payloads.kernel.nextId = d.payloads.kernel.nextId)
  | resolves {c : Call}
      (waits : (d.payloads.kernel.fut c.task).pending)
      (fut : d'.payloads.kernel.fut = Function.update d.payloads.kernel.fut c.task
        { d.payloads.kernel.fut c.task with await := none })
      (sent : d'.payloads.sent = d.payloads.sent) (data : c.data = d.payloads.sent c.task)
      (calls : d'.payloads.calls = c :: d.payloads.calls)
      (returned : d'.payloads.returned = some c)
      (rect : d.readRect d'.payloads .poll = some d'.rect)
      (nextId : d'.payloads.kernel.nextId = d.payloads.kernel.nextId)
  | spawns {t r rest caps} (run : Kernel.Running d.payloads.kernel t (.spawn r) rest)
      (fut : d'.payloads.kernel.fut = Function.update (Function.update d.payloads.kernel.fut t
        { d.payloads.kernel.fut t with todo := rest }) d.payloads.kernel.nextId (Fut.new caps r))
      (caps : ∀ g, caps g = (d.payloads.kernel.dev g).numCapsets)
      (sent : d'.payloads.sent = d.payloads.sent) (calls : d'.payloads.calls = d.payloads.calls)
      (rect : ∀ u, u ≠ d.payloads.kernel.nextId → d'.rect u = d.rect u)
      (captured : ∀ g, r = .transfer g → d'.rect d.payloads.kernel.nextId = d.rect t)
      (nextId : d'.payloads.kernel.nextId = d.payloads.kernel.nextId + 1)
  | goesOn {t o rest await} (run : Kernel.Running d.payloads.kernel t o rest)
      (request : ∀ g len, o ≠ .request g len) (spawn : ∀ r, o ≠ .spawn r)
      (fut : d'.payloads.kernel.fut = Function.update d.payloads.kernel.fut t
        { d.payloads.kernel.fut t with todo := rest, await := await })
      (waits : Fut.pending { d.payloads.kernel.fut t with todo := rest, await := await } = false)
      (sent : d'.payloads.sent = d.payloads.sent) (calls : d'.payloads.calls = d.payloads.calls)
      (rect : d'.rect = d.rect)
      (nextId : d'.payloads.kernel.nextId = d.payloads.kernel.nextId)
  | stays (routine : ∀ t, (d'.payloads.kernel.fut t).routine = (d.payloads.kernel.fut t).routine)
      (todo : ∀ t, (d'.payloads.kernel.fut t).todo = (d.payloads.kernel.fut t).todo)
      (waits : ∀ t, (d'.payloads.kernel.fut t).pending = (d.payloads.kernel.fut t).pending)
      (sent : d'.payloads.sent = d.payloads.sent) (calls : d'.payloads.calls = d.payloads.calls)
      (rect : d'.rect = d.rect)
      (nextId : d'.payloads.kernel.nextId = d.payloads.kernel.nextId)

/-- Only one future changes, in what it awaits, and not between requests and others. -/
lemma Moves.stays_update {t : TaskId} {await : Option Await}
    (hfut : d'.payloads.kernel.fut = Function.update d.payloads.kernel.fut t
      { d.payloads.kernel.fut t with await := await })
    (hwaits : Fut.pending { d.payloads.kernel.fut t with await := await } =
      (d.payloads.kernel.fut t).pending)
    (sent : d'.payloads.sent = d.payloads.sent) (calls : d'.payloads.calls = d.payloads.calls)
    (rect : d'.rect = d.rect)
    (nextId : d'.payloads.kernel.nextId = d.payloads.kernel.nextId) : Moves b d d' := by
  refine .stays (fun u => ?_) (fun u => ?_) (fun u => ?_) sent calls rect nextId <;>
    rw [hfut] <;> obtain rfl | hne := eq_or_ne u t
  all_goals first | rw [Function.update_of_ne hne] | rw [Function.update_self]
  exact hwaits

lemma given_eq (l : Kernel.Label) (bytes : List (BitVec 8)) :
    ∃ data, d.given b (l, bytes) = (l, data) ∧ ∀ t g len r, l = .op (.request g len) →
      d.payloads.kernel.pc = .polling t → d.next b t = some r → r.Image data := by
  refine ⟨(d.given b (l, bytes)).2, Prod.ext given_fst rfl, ?_⟩
  rintro t g len r rfl hpc hnext
  exact ⟨fun i => bytes.getD i 0, by simp only [given, hpc, hnext]⟩

/-- Only the first response of a `drive` and the spawning of a transfer loop set a rectangle. -/
lemma readRect_eq {m' : Payloads} {l : Kernel.Label} {rect : TaskId → VirtioGpuRect}
    (h : d.readRect m' l = some rect) (hspawn : ∀ g, l ≠ .op (.spawn (.transfer g)))
    (hpoll : l = .poll → m'.returned = none) : rect = d.rect := by
  cases l with
  | op o =>
    cases o with
    | spawn r =>
      cases r with
      | transfer g => exact absurd rfl (hspawn g)
      | _ => exact (Option.some.inj h).symm
    | _ => exact (Option.some.inj h).symm
  | poll =>
    simp only [readRect, hpoll rfl] at h
    exact (Option.some.inj h).symm
  | _ => exact (Option.some.inj h).symm

lemma frame_of_plain {k' : Kernel} {l : Kernel.Label} {data : List (BitVec 8)}
    {rect : TaskId → VirtioGpuRect} (hplain : Payloads.Plain d.payloads.kernel k' l)
    (hspawn : ∀ g, l ≠ .op (.spawn (.transfer g)))
    (hrect : d.readRect { d.payloads.access k' (l, data) with kernel := k' } l = some rect) :
    (d.payloads.access k' (l, data)).sent = d.payloads.sent ∧
      (d.payloads.access k' (l, data)).calls = d.payloads.calls ∧ rect = d.rect := by
  obtain ⟨hsent, hcalls⟩ := Payloads.access_frame data hplain
  refine ⟨hsent, hcalls, readRect_eq hrect hspawn ?_⟩
  rintro rfl
  rw [Payloads.access_core (by simp) (by simp) hplain]

theorem moves_of_step (h : step b l d = some d') : Moves b d d' := by
  obtain ⟨l, bytes⟩ := l
  obtain ⟨m', hm, hrest⟩ := Option.bind_eq_some_iff.mp h
  obtain ⟨rect, hrect, hd'⟩ := Option.bind_eq_some_iff.mp hrest
  cases hd'
  obtain ⟨data, hgiven, hdata⟩ := d.given_eq (b := b) l bytes
  rw [hgiven] at hm
  obtain ⟨hfits, hm⟩ := Option.ite_none_right_eq_some.mp hm
  obtain ⟨k', hk, rfl⟩ := Option.map_eq_some_iff.mp hm
  have hsteps := Kernel.steps_of_step hk
  simp only at hsteps hrect
  -- Whatever is neither a request nor its end leaves the buffers and the rectangles alone.
  have hframe := fun hlog hspawn =>
    frame_of_plain (Payloads.plain_of_steps hsteps hlog) hspawn hrect
  cases hsteps with
  | @request t g len rest descId descNextId v run unlocked free =>
    have haccess := fun k' : Kernel =>
      @Payloads.access_request d.payloads t g k' data descId descNextId len len run.pc
    refine .sends run rfl rfl ?_ (hdata t g len · rfl run.pc) ?_ ?_ rfl
    · rw [haccess _ (by simp)]
    · rw [haccess _ (by simp)]
    · exact readRect_eq hrect (by simp) (by simp)
  | @release t g head tail len poll unlocked =>
    have hwaits : (d.payloads.kernel.fut t).pending = true := by rw [Fut.pending, poll.await]
    rw [Payloads.access_release poll unlocked] at hrect ⊢
    exact .resolves hwaits rfl rfl rfl rfl rfl hrect rfl
  | @spawnOp t r rest run =>
    have hplain := Payloads.plain_of_steps (Kernel.Steps.spawnOp run) (by simp)
    obtain ⟨hsent, hcalls⟩ := Payloads.access_frame data hplain
    refine .spawns run rfl (fun _ => rfl) hsent hcalls (fun u hu => ?_) ?_ rfl
    · cases r with
      | transfer g =>
        simp only [readRect, run.pc, Option.some.injEq] at hrect
        exact hrect ▸ Function.update_of_ne hu _ _
      | _ => exact congrFun (readRect_eq hrect (by simp) (by simp)) u
    · rintro g rfl
      simp only [readRect, run.pc, Option.some.injEq] at hrect
      exact hrect ▸ Function.update_self _ _ _
  | yieldOp run | startUp run | dropGuard run | readConfig run | checkallNone run =>
    obtain ⟨hsent, hcalls, rfl⟩ := hframe (by simp) (by simp)
    exact .goesOn run (by simp) (by simp) rfl (by simp [Fut.pending, run.await]) hsent hcalls rfl
      rfl
  | yieldFirst poll | yieldAgain poll | ready poll =>
    obtain ⟨hsent, hcalls, rfl⟩ := hframe (fun _ => rfl) (by simp)
    exact .stays_update rfl (by simp [Fut.pending, poll.await]) hsent hcalls rfl rfl
  | control move =>
    obtain ⟨hsent, hcalls, rfl⟩ := hframe (fun _ => rfl) (by
      rintro g rfl
      cases move with
      | spinOp run locks => cases locks)
    exact .stays (fun _ => rfl) (fun _ => rfl) (fun _ => rfl) hsent hcalls rfl rfl
  | _ =>
    obtain ⟨hsent, hcalls, rfl⟩ := hframe (by simp) (by simp)
    exact .stays (fun _ => rfl) (fun _ => rfl) (fun _ => rfl) hsent hcalls rfl rfl

/-- What a step can do to one of the tasks there are. -/
inductive Evolves (b : DevId → Backing) (d d' : Driving) (u : TaskId) : Prop
  | keeps (todo : (d'.payloads.kernel.fut u).todo = (d.payloads.kernel.fut u).todo)
      (made : d'.made u = d.made u) (rect : d'.rect u = d.rect u)
  | reads (todo : (d'.payloads.kernel.fut u).todo = (d.payloads.kernel.fut u).todo)
      (made : d'.made u = d.made u)
      (routine : ∃ g, (d.payloads.kernel.fut u).routine = .drive g)
      (first : (d.made u).length = 1)
  | goesOn {o rest} (takes : (d.payloads.kernel.fut u).takes o = some rest)
      (request : ∀ g len, o ≠ .request g len)
      (todo : (d'.payloads.kernel.fut u).todo = rest)
      (made : d'.made u = d.made u) (rect : d'.rect u = d.rect u)
  | sends {g len rest data}
      (takes : (d.payloads.kernel.fut u).takes (.request g len) = some rest)
      (todo : (d'.payloads.kernel.fut u).todo = rest)
      (made : d'.made u = d.made u ++ [data]) (data : ∀ r, d.next b u = some r → r.Image data)
      (rect : d'.rect u = d.rect u)

lemma made_congr {u : TaskId} (hcalls : d'.payloads.calls = d.payloads.calls)
    (hsent : d'.payloads.sent u = d.payloads.sent u)
    (hwaits : (d'.payloads.kernel.fut u).pending = (d.payloads.kernel.fut u).pending) :
    d'.made u = d.made u := by
  rw [made, made, Payloads.answered, Payloads.answered, hcalls, hsent, hwaits]

/-- A request that is resolved moves from the last place to the calls. -/
lemma made_resolves {c : Call} (waits : (d.payloads.kernel.fut c.task).pending)
    (fut : d'.payloads.kernel.fut = Function.update d.payloads.kernel.fut c.task
      { d.payloads.kernel.fut c.task with await := none })
    (sent : d'.payloads.sent = d.payloads.sent) (data : c.data = d.payloads.sent c.task)
    (calls : d'.payloads.calls = c :: d.payloads.calls) (u : TaskId) :
    d'.made u = d.made u := by
  rw [made, made, Payloads.answered, Payloads.answered, calls, sent, fut]
  obtain rfl | hne := eq_or_ne u c.task
  · have hnone : Fut.pending { d.payloads.kernel.fut c.task with await := none } = false := rfl
    simp [Function.update_self, waits, hnone, data]
  · simp [Function.update_of_ne hne, hne.symm]

lemma waits_of_await {f : Fut} (h : f.await = none) : f.pending = false := by
  rw [Fut.pending, h]

/-- The first response of a `drive` is the only one that it reads a rectangle from. -/
lemma readRect_poll {m' : Payloads} {c : Call} {rect : TaskId → VirtioGpuRect}
    (h : d.readRect m' .poll = some rect) (hc : m'.returned = some c) :
    ((∃ g, (d.payloads.kernel.fut c.task).routine = .drive g) ∧
      d.payloads.answered c.task = [] ∧ ∃ info, VirtioGpuRespOkDisplayInfo.layout.decode
        (Cells.load m'.mem c.addr VirtioGpuRespOkDisplayInfo.layout.size) = some info ∧
      rect = Function.update d.rect c.task info.pmodes.rect) ∨
    ((∀ g, (d.payloads.kernel.fut c.task).routine = .drive g →
      d.payloads.answered c.task ≠ []) ∧ rect = d.rect) := by
  simp only [readRect, hc] at h
  split at h
  · rename_i g hroutine
    split at h
    · obtain ⟨info, hinfo, rfl⟩ := Option.map_eq_some_iff.mp h
      exact .inl ⟨⟨g, hroutine⟩, ‹_›, info, hinfo, rfl⟩
    · exact .inr ⟨fun _ _ => ‹_›, (Option.some.inj h).symm⟩
  · rename_i hroutine
    exact .inr ⟨fun g hg => absurd hg (hroutine g), (Option.some.inj h).symm⟩

theorem Moves.evolves {u : TaskId} (h : Moves b d d') (hu : u < d.payloads.kernel.nextId) :
    (d'.payloads.kernel.fut u).routine = (d.payloads.kernel.fut u).routine ∧
      Evolves b d d' u := by
  cases h with
  | @sends t g len rest await data run fut waits sent hdata calls rect =>
    obtain rfl | hne := eq_or_ne u t
    · have hmade : d'.made u = d.made u ++ [data] := by
        rw [made, made, Payloads.answered, Payloads.answered, calls, sent, fut,
          Function.update_self, Function.update_self, waits, if_pos rfl, waits_of_await run.await,
          if_neg Bool.false_ne_true, List.append_nil]
      rw [fut, Function.update_self]
      exact ⟨rfl, .sends run.takes (by rw [fut, Function.update_self]) hmade hdata (by rw [rect])⟩
    · have hfut : d'.payloads.kernel.fut u = d.payloads.kernel.fut u := by
        rw [fut, Function.update_of_ne hne]
      have hmade := made_congr calls (congrFun sent u |>.trans (Function.update_of_ne hne _ _))
        (congrArg Fut.pending hfut)
      rw [hfut]
      exact ⟨rfl, .keeps (by rw [hfut]) hmade (by rw [rect])⟩
  | @resolves c waits fut sent data calls returned rect =>
    have hmade := made_resolves waits fut sent data calls u
    have hfut : (d'.payloads.kernel.fut u).routine = (d.payloads.kernel.fut u).routine ∧
        (d'.payloads.kernel.fut u).todo = (d.payloads.kernel.fut u).todo := by
      rw [fut]
      obtain rfl | hne := eq_or_ne u c.task
      · simp
      · simp [Function.update_of_ne hne]
    refine ⟨hfut.1, ?_⟩
    obtain ⟨hroutine, hanswered, info, -, hrect⟩ | ⟨-, hrect⟩ := readRect_poll rect returned
    · obtain rfl | hne := eq_or_ne u c.task
      · refine .reads hfut.2 hmade hroutine ?_
        rw [made, hanswered, waits]
        rfl
      · exact .keeps hfut.2 hmade (by rw [hrect, Function.update_of_ne hne])
    · exact .keeps hfut.2 hmade (by rw [hrect])
  | @spawns t r rest caps run fut hcaps sent calls rect =>
    obtain rfl | hne := eq_or_ne u t
    · have hfut : d'.payloads.kernel.fut u = { d.payloads.kernel.fut u with todo := rest } := by
        rw [fut, Function.update_of_ne hu.ne, Function.update_self]
      rw [hfut]
      refine ⟨rfl, .goesOn run.takes (by simp) (by rw [hfut]) (made_congr calls (by rw [sent]) ?_)
        (rect u hu.ne)⟩
      rw [hfut]
      rfl
    · have hfut : d'.payloads.kernel.fut u = d.payloads.kernel.fut u := by
        rw [fut, Function.update_of_ne hu.ne, Function.update_of_ne hne]
      rw [hfut]
      exact ⟨rfl, .keeps (by rw [hfut]) (made_congr calls (by rw [sent]) (by rw [hfut]))
        (rect u hu.ne)⟩
  | @goesOn t o rest await run request spawn fut waits sent calls rect =>
    obtain rfl | hne := eq_or_ne u t
    · have hmade : d'.made u = d.made u := by
        refine made_congr calls (by rw [sent]) ?_
        rw [fut, Function.update_self, waits, waits_of_await run.await]
      rw [fut, Function.update_self]
      exact ⟨rfl, .goesOn run.takes request (by rw [fut, Function.update_self]) hmade
        (by rw [rect])⟩
    · have hfut : d'.payloads.kernel.fut u = d.payloads.kernel.fut u := by
        rw [fut, Function.update_of_ne hne]
      rw [hfut]
      exact ⟨rfl, .keeps (by rw [hfut]) (made_congr calls (by rw [sent]) (by rw [hfut]))
        (by rw [rect])⟩
  | stays routine todo waits sent calls rect =>
    exact ⟨routine u, .keeps (todo u) (made_congr calls (by rw [sent]) (waits u)) (by rw [rect])⟩

lemma Moves.made_fresh {u : TaskId} (h : Moves b d d') (hw : d.payloads.kernel.WellFormed)
    (hu : d.payloads.kernel.nextId ≤ u) (hmade : d.made u = []) : d'.made u = [] := by
  cases h with
  | sends run fut waits sent hdata calls rect =>
    have hne := (hw.running_lt run.pc).trans_le hu |>.ne'
    refine (made_congr calls ?_ ?_).trans hmade
    · rw [sent, Function.update_of_ne hne]
    · rw [fut, Function.update_of_ne hne]
  | resolves waits fut sent data calls =>
    exact (made_resolves waits fut sent data calls u).trans hmade
  | spawns run fut caps sent calls =>
    have hne := (hw.running_lt run.pc).trans_le hu |>.ne'
    obtain rfl | hnew := eq_or_ne u d.payloads.kernel.nextId
    · rw [made, Payloads.answered, calls, fut, Function.update_self, waits_of_await rfl]
      exact congrArg (· ++ []) (List.append_eq_nil_iff.mp hmade).1
    · refine (made_congr calls (by rw [sent]) ?_).trans hmade
      rw [fut, Function.update_of_ne hnew, Function.update_of_ne hne]
  | goesOn run request spawn fut waits sent calls =>
    have hne := (hw.running_lt run.pc).trans_le hu |>.ne'
    refine (made_congr calls (by rw [sent]) ?_).trans hmade
    rw [fut, Function.update_of_ne hne]
  | stays routine todo waits sent calls =>
    exact (made_congr calls (by rw [sent]) (waits u)).trans hmade

/-- A call more, or none, and then the rectangle is the same. -/
lemma Moves.answered_cases {u : TaskId} (h : Moves b d d') (hu : u < d.payloads.kernel.nextId) :
    (d'.payloads.answered u = d.payloads.answered u ∧ d'.rect u = d.rect u) ∨
      ∃ c, c.task = u ∧ d'.payloads.answered u = d.payloads.answered u ++ [c] ∧
        d'.payloads.returned = some c ∧ d.readRect d'.payloads .poll = some d'.rect := by
  cases h with
  | @resolves c waits fut sent data calls returned rect =>
    obtain rfl | hne := eq_or_ne u c.task
    · exact .inr ⟨c, rfl, by simp [Payloads.answered, calls], returned, rect⟩
    · refine .inl ⟨by simp [Payloads.answered, calls, hne.symm], ?_⟩
      obtain ⟨-, -, info, -, hrect⟩ | ⟨-, hrect⟩ := readRect_poll rect returned
      · rw [hrect, Function.update_of_ne hne]
      · rw [hrect]
  | spawns run fut caps sent calls rect =>
    exact .inl ⟨by rw [Payloads.answered, Payloads.answered, calls], rect u hu.ne⟩
  | sends _ _ _ _ _ calls rect | goesOn _ _ _ _ _ _ calls rect | stays _ _ _ _ calls rect =>
    exact .inl ⟨by rw [Payloads.answered, Payloads.answered, calls], by rw [rect]⟩

lemma Moves.answered_le {u : TaskId} (h : Moves b d d') (hu : u < d.payloads.kernel.nextId) :
    (d.payloads.answered u).length ≤ (d'.payloads.answered u).length := by
  obtain ⟨hsame, -⟩ | ⟨c, -, hmore, -⟩ := h.answered_cases hu
  · rw [hsame]
  · rw [hmore, List.length_append]
    exact Nat.le_add_right _ _

/-- There are no new tasks, or one that the running task has spawned. -/
lemma Moves.tasks (h : Moves b d d') (hw : d.payloads.kernel.WellFormed) :
    d'.payloads.kernel.nextId = d.payloads.kernel.nextId ∨
      ∃ t r rest caps, Kernel.Running d.payloads.kernel t (.spawn r) rest ∧
        d'.payloads.kernel.nextId = d.payloads.kernel.nextId + 1 ∧
        d'.payloads.kernel.fut d.payloads.kernel.nextId = Fut.new caps r ∧
        (d'.payloads.kernel.fut t).todo = rest ∧ d'.rect t = d.rect t ∧
        ∀ g, r = .transfer g → d'.rect d.payloads.kernel.nextId = d.rect t := by
  cases h with
  | @spawns t r rest caps run fut hcaps sent calls rect captured nextId =>
    have hne := (hw.running_lt run.pc).ne
    refine .inr ⟨t, r, rest, caps, run, nextId, ?_, ?_, rect t hne, captured⟩
    · rw [fut, Function.update_self]
    · rw [fut, Function.update_of_ne hne, Function.update_self]
  | sends | resolves | goesOn | stays => exact .inl ‹_›

lemma payloads_step (h : step b l d = some d') :
    Payloads.step (d.given b l) d.payloads = some d'.payloads := by
  obtain ⟨m', hm, hrest⟩ := Option.bind_eq_some_iff.mp h
  obtain ⟨rect, -, hd'⟩ := Option.bind_eq_some_iff.mp hrest
  cases hd'
  exact hm

lemma kernel_step (h : step b l d = some d') :
    Kernel.step l.1 d.payloads.kernel = some d'.payloads.kernel := by
  have hk := Payloads.kernel_step (payloads_step h)
  rwa [given_fst] at hk

/-- The laws of the tasks' requests. -/
structure Inv (c : DevId → ℕ) (b : DevId → Backing) (d : Driving) : Prop where
  wellFormed : d.payloads.kernel.WellFormed
  scripts : d.payloads.kernel.Scripts Kernel.DriverTask
  caps : ∀ g, (d.payloads.kernel.dev g).numCapsets = c g
  fresh : ∀ t, d.payloads.kernel.nextId ≤ t → d.made t = []
  drive : ∀ t < d.payloads.kernel.nextId, ∀ g,
    (d.payloads.kernel.fut t).routine = .drive g →
      OnScript g (c g) (b g) (d.rect t) (d.payloads.kernel.fut t).todo (d.made t)
  transfer : ∀ t < d.payloads.kernel.nextId, ∀ g,
    (d.payloads.kernel.fut t).routine = .transfer g → (d.payloads.kernel.fut t).todo = [] ∧
      (∀ data ∈ d.made t, (transferToHost2d (d.rect t)).Image data) ∧
      ∃ u < d.payloads.kernel.nextId, (d.payloads.kernel.fut u).routine = .drive g ∧
        (d.payloads.kernel.fut u).todo = [] ∧ d.rect t = d.rect u ∧
        (requests (driveScript g (c g) (b g) (d.rect u))).length ≤ (d.payloads.answered u).length

/-- A script goes on with its next operation, or its loop begins again. -/
lemma takes_script {f : Fut} {o : Op} {rest : List Op} (h : f.takes o = some rest)
    (hroutine : ∀ gpu, f.routine ≠ .client gpu) :
    f.todo = o :: rest ∨ f.todo = [] ∧ f.routine.loop = o :: rest := by
  obtain ⟨gpu, hclient, -⟩ | h := Fut.takes_cases h
  · exact absurd hclient (hroutine gpu)
  · exact h

namespace Inv
variable {c : DevId → ℕ} {t : TaskId} {g : DevId}

/-- The next request of a `drive`, and what it leads to. -/
lemma drive_sends {len : ℕ} {rest : List Op} (h : Inv c b d) (ht : t < d.payloads.kernel.nextId)
    (hroutine : (d.payloads.kernel.fut t).routine = .drive g)
    (htakes : (d.payloads.kernel.fut t).takes (.request g len) = some rest) :
    ∃ req : Request, req.WellTyped ∧ req.size = len ∧ d.next b t = some req ∧
      ((∃ done behind, driveScript g (c g) (b g) (d.rect t) = done ++ send g req :: behind ∧
          List.Forall₂ (fun data req => Request.Image req data) (d.made t) (requests done)) ∨
        req = resourceFlush (d.rect t) ∧ (d.payloads.kernel.fut t).todo = []) ∧
      ∀ data, req.Image data →
        OnScript g (c g) (b g) (d.rect t) rest (d.made t ++ [data]) := by
  have hscript := h.drive t ht g hroutine
  obtain htodo | ⟨htodo, hloop⟩ := takes_script htakes (by simp [hroutine])
  · rw [htodo] at hscript
    obtain ⟨req, htype, hsize, hnext, hplace, hsends⟩ := hscript.sends
    refine ⟨req, htype, hsize, ?_, .inl hplace, hsends⟩
    simp only [next, hroutine, htodo, reduceCtorEq, if_false, h.caps]
    exact hnext
  · rw [htodo] at hscript
    rw [hroutine, Routine.loop] at hloop
    obtain ⟨hlen, rfl⟩ := List.cons.inj hloop
    refine ⟨resourceFlush (d.rect t), rfl, ?_, ?_, .inr ⟨rfl, htodo⟩, fun data => hscript.flushes⟩
    · rw [Request.size_eq]
      exact (Op.request.inj hlen).2
    · simp only [next, hroutine, htodo, if_true]

lemma transfer_sends {len : ℕ} {rest : List Op} (h : Inv c b d)
    (ht : t < d.payloads.kernel.nextId)
    (hroutine : (d.payloads.kernel.fut t).routine = .transfer g)
    (htakes : (d.payloads.kernel.fut t).takes (.request g len) = some rest) :
    (transferToHost2d (d.rect t)).size = len ∧ d.next b t = some (transferToHost2d (d.rect t)) ∧
      rest = [] := by
  obtain ⟨htodo, -⟩ := h.transfer t ht g hroutine
  obtain htodo' | ⟨-, hloop⟩ := takes_script htakes (by simp [hroutine])
  · simp [htodo] at htodo'
  · rw [hroutine, Routine.loop] at hloop
    obtain ⟨hlen, rfl⟩ := List.cons.inj hloop
    refine ⟨?_, by simp only [next, hroutine], rfl⟩
    rw [Request.size_eq]
    exact (Op.request.inj hlen).2

lemma drive_step (h : Inv c b d) (ht : t < d.payloads.kernel.nextId)
    (hroutine : (d.payloads.kernel.fut t).routine = .drive g) (he : Evolves b d d' t) :
    OnScript g (c g) (b g) (d'.rect t) (d'.payloads.kernel.fut t).todo (d'.made t) := by
  have hscript := h.drive t ht g hroutine
  cases he with
  | keeps todo made rect =>
    rw [todo, made, rect]
    exact hscript
  | reads todo made _ first =>
    rw [todo, made]
    exact hscript.reads first _
  | goesOn takes request todo made rect =>
    rw [todo, made, rect]
    obtain htodo | ⟨-, hloop⟩ := takes_script takes (by simp [hroutine])
    · exact (htodo ▸ hscript).goesOn request
    · rw [hroutine, Routine.loop] at hloop
      exact absurd (List.cons.inj hloop).1.symm (request _ _)
  | @sends g' len rest data takes todo made hdata rect =>
    have hreq := (h.scripts t).1.takes_request takes
    rw [hroutine, Routine.requester, Option.some.injEq] at hreq
    subst hreq
    obtain ⟨req, -, -, hnext, -, hsends⟩ := h.drive_sends ht hroutine takes
    rw [todo, made, rect]
    exact hsends data (hdata req hnext)

/-- A script that is done stays so. -/
lemma done_step (h : Inv c b d) (ht : t < d.payloads.kernel.nextId)
    (hroutine : (d.payloads.kernel.fut t).routine = .drive g)
    (htodo : (d.payloads.kernel.fut t).todo = []) (he : Evolves b d d' t) :
    (d'.payloads.kernel.fut t).todo = [] ∧ d'.rect t = d.rect t := by
  have hscript := h.drive t ht g hroutine
  rw [htodo] at hscript
  cases he with
  | keeps todo made rect => exact ⟨todo.trans htodo, rect⟩
  | reads todo made _ first => exact absurd hscript.one_lt (by omega)
  | goesOn takes request todo made rect | sends takes todo made data rect =>
    obtain htodo' | ⟨-, hloop⟩ := takes_script takes (by simp [hroutine])
    · simp [htodo] at htodo'
    · rw [hroutine, Routine.loop] at hloop
      exact ⟨todo.trans (List.cons.inj hloop).2.symm, rect⟩

lemma transfer_step (h : Inv c b d) (ht : t < d.payloads.kernel.nextId)
    (hroutine : (d.payloads.kernel.fut t).routine = .transfer g) (he : Evolves b d d' t) :
    (d'.payloads.kernel.fut t).todo = [] ∧ d'.rect t = d.rect t ∧
      ∀ data ∈ d'.made t, (transferToHost2d (d.rect t)).Image data := by
  obtain ⟨htodo, hmade, -⟩ := h.transfer t ht g hroutine
  cases he with
  | keeps todo made rect => exact ⟨todo.trans htodo, rect, made ▸ hmade⟩
  | reads _ _ hdrive =>
    obtain ⟨g', hdrive⟩ := hdrive
    simp [hroutine] at hdrive
  | goesOn takes request =>
    obtain htodo' | ⟨-, hloop⟩ := takes_script takes (by simp [hroutine])
    · simp [htodo] at htodo'
    · rw [hroutine, Routine.loop] at hloop
      exact absurd (List.cons.inj hloop).1.symm (request _ _)
  | @sends g' len rest data takes todo made hdata rect =>
    have hreq := (h.scripts t).1.takes_request takes
    rw [hroutine, Routine.requester, Option.some.injEq] at hreq
    subst hreq
    obtain ⟨-, hnext, rfl⟩ := h.transfer_sends ht hroutine takes
    refine ⟨todo, rect, fun data' hmem => ?_⟩
    rw [made] at hmem
    obtain hmem | hmem := List.mem_append.mp hmem
    · exact hmade data' hmem
    · rw [List.mem_singleton.mp hmem]
      exact hdata _ hnext

lemma step (h : Inv c b d) (hstep : Driving.step b l d = some d') : Inv c b d' := by
  have hk := Kernel.steps_of_step (kernel_step hstep)
  have hm := moves_of_step hstep
  have hfresh := fun u hu => hm.made_fresh h.wellFormed hu (h.fresh u hu)
  have hle : d.payloads.kernel.nextId ≤ d'.payloads.kernel.nextId := by
    obtain hsame | ⟨_, _, _, _, -, hnext, -⟩ := hm.tasks h.wellFormed
    · exact hsame.ge
    · exact hnext ▸ Nat.le_succ _
  have hnew : ∀ t < d'.payloads.kernel.nextId, t < d.payloads.kernel.nextId ∨
      t = d.payloads.kernel.nextId ∧ d'.payloads.kernel.nextId ≠ d.payloads.kernel.nextId := by
    intro t ht
    obtain hsame | ⟨_, _, _, _, -, hnext, -⟩ := hm.tasks h.wellFormed
    · exact .inl (hsame ▸ ht)
    · rw [hnext] at ht
      refine (Nat.lt_succ_iff_lt_or_eq.mp ht).imp_right fun heq => ⟨heq, ?_⟩
      exact hnext ▸ Nat.succ_ne_self _
  refine ⟨h.wellFormed.step hk, h.scripts.step Kernel.DriverTask.spawns hk, fun g => ?_,
    fun t ht => hfresh t (hle.trans ht), fun t ht g hroutine => ?_, fun t ht g hroutine => ?_⟩
  · exact (hk.numCapsets g).trans (h.caps g)
  · obtain ht | ⟨rfl, hne⟩ := hnew t ht
    · obtain ⟨hsame, he⟩ := hm.evolves ht
      exact h.drive_step ht (hsame ▸ hroutine) he
    · obtain hsame | ⟨u, r, rest, caps, run, -, hfut, -⟩ := hm.tasks h.wellFormed
      · exact absurd hsame hne
      · rw [hfut] at hroutine
        have hspawns := (h.scripts u).1.takes_spawn run.takes
        exact absurd hroutine ((Fut.new_todo hspawns caps).2 g)
  · obtain ht | ⟨rfl, hne⟩ := hnew t ht
    · obtain ⟨hsame, he⟩ := hm.evolves ht
      obtain ⟨htodo, hrect, hmade⟩ := h.transfer_step ht (hsame ▸ hroutine) he
      obtain ⟨-, -, u, hu, hdrive, hdone, heq, hlen⟩ := h.transfer t ht g (hsame ▸ hroutine)
      obtain ⟨hsame', he'⟩ := hm.evolves hu
      obtain ⟨hdone', hrect'⟩ := h.done_step hu hdrive hdone he'
      refine ⟨htodo, by rwa [hrect], u, hu.trans_le hle, hsame'.trans hdrive, hdone', ?_, ?_⟩
      · rw [hrect, hrect', heq]
      · rw [hrect']
        exact hlen.trans (hm.answered_le hu)
    · obtain hsame | ⟨u, r, rest, caps, run, -, hfut, htodo, hrect, hcaptured⟩ :=
        hm.tasks h.wellFormed
      · exact absurd hsame hne
      · rw [hfut] at hroutine
        obtain rfl : r = .transfer g := hroutine
        have hu := h.wellFormed.running_lt run.pc
        have hspawns := (h.scripts u).1.takes_spawn run.takes
        obtain hdrive : (d.payloads.kernel.fut u).routine = .drive g := by
          cases hr : (d.payloads.kernel.fut u).routine <;> simp_all [Routine.spawns]
        have hlast : rest = [] ∧ (d.made u).length =
            (requests (driveScript g (c g) (b g) (d.rect u))).length := by
          obtain htodo' | ⟨-, hloop⟩ := takes_script run.takes (by simp [hdrive])
          · exact (htodo' ▸ h.drive u hu g hdrive).last
          · simp [hdrive, Routine.loop] at hloop
        have hmade : (d.made u).length = (d.payloads.answered u).length := by
          simp [made, waits_of_await run.await]
        refine ⟨by rw [hfut]; rfl, fun data hdata => ?_, u, hu.trans_le hle,
          (hm.evolves hu).1.trans hdrive, htodo.trans hlast.1, ?_, ?_⟩
        · rw [hfresh _ le_rfl] at hdata
          cases hdata
        · rw [hcaptured g rfl, hrect]
        · rw [hrect, ← hlast.2, hmade]
          exact hm.answered_le hu

lemma boot {config : DevId → GpuConfig} {rs : List Routine} (mem : ℕ → BitVec 8)
    (hrs : ∀ r ∈ rs, r = .client none ∨ ∃ g, r = .drive g) :
    Inv (fun g => (config g).numCapsets) b (start config rs mem) := by
  let P := fun k : Kernel => (∀ g, (k.dev g).numCapsets = (config g).numCapsets) ∧ ∀ t g,
    ((k.fut t).routine = .drive g → (k.fut t).todo = driveBody g (config g).numCapsets) ∧
      (k.fut t).routine ≠ .transfer g
  have hboot : P (Kernel.boot config rs) := by
    refine Kernel.boot_induction ⟨fun g => rfl, fun t g => ⟨?_, ?_⟩⟩
      fun k r hr hk => ⟨hk.1, fun t g => ?_⟩
    · simp [Kernel.new]
    · simp [Kernel.new]
    simp only [Kernel.spawnerRun]
    obtain rfl | hne := eq_or_ne t k.nextId
    · rw [Function.update_self]
      obtain rfl | ⟨g', rfl⟩ := hrs r hr
      · simp [Fut.new]
      · simp only [Fut.new, Routine.drive.injEq, ne_eq, reduceCtorEq, not_false_eq_true, and_true]
        rintro rfl
        simp [Routine.body, hk.1]
    · rw [Function.update_of_ne hne]
      exact hk.2 t g
  have hmade : ∀ t, (start config rs mem).made t = [] := by
    intro t
    have hnone : ((Kernel.boot config rs).fut t).await = none := by
      by_contra hawait
      have hmem := (Kernel.WellFormed.boot config rs).await t hawait
      simp at hmem
    rw [made, show ((start config rs mem).payloads.kernel.fut t).pending = false from
      waits_of_await hnone]
    rfl
  refine ⟨.boot config rs, .boot (by simp [Kernel.DriverTask]) fun r hr => ?_, hboot.1,
    fun t _ => hmade t, fun t _ g hroutine => ?_, fun t _ g hroutine => ?_⟩
  · obtain rfl | ⟨g, rfl⟩ := hrs r hr <;> simp [Kernel.DriverTask]
  · have htodo : ((start config rs mem).payloads.kernel.fut t).todo = _ := (hboot.2 t g).1 hroutine
    rw [hmade, htodo]
    exact .new ..
  · exact absurd hroutine (hboot.2 t g).2

end Inv

/-- The requests that the device read in the chains of a task's calls, the oldest first. -/
def executed (d : Driving) (t : TaskId) : List (Option Request) :=
  (d.payloads.answered t).map fun c => Request.parse c.exchange.seen

/-- The rectangle of a `drive` is the one in the answer to its first request. -/
def RectRead (d : Driving) : Prop :=
  ∀ t < d.payloads.kernel.nextId, ∀ g, (d.payloads.kernel.fut t).routine = .drive g →
    ∀ c ∈ (d.payloads.answered t).head?,
      VirtioGpuRespOkDisplayInfo.layout.size ≤ c.exchange.answer.length →
        ∃ info, VirtioGpuRespOkDisplayInfo.layout.decode
            (c.exchange.answer.take VirtioGpuRespOkDisplayInfo.layout.size) = some info ∧
          d.rect t = info.pmodes.rect

/-- What the devices and the tasks can rely on. -/
structure Conforms (caps : DevId → ℕ) (b : DevId → Backing) (d : Driving) : Prop where
  /-- A device executes the script of its `drive`, and then flushes. -/
  drive : ∀ t < d.payloads.kernel.nextId, ∀ g,
    (d.payloads.kernel.fut t).routine = .drive g → ∃ n,
      d.executed t <+: (requests (driveScript g (caps g) (b g) (d.rect t)) ++
        List.replicate n (resourceFlush (d.rect t))).map some
  /-- Behind the whole script, it executes transfers of the same rectangle. -/
  transfer : ∀ t < d.payloads.kernel.nextId, ∀ g,
    (d.payloads.kernel.fut t).routine = .transfer g →
      (∃ n, d.executed t = List.replicate n (some (transferToHost2d (d.rect t)))) ∧
      ∃ u < d.payloads.kernel.nextId, (d.payloads.kernel.fut u).routine = .drive g ∧
        d.rect t = d.rect u ∧
        (requests (driveScript g (caps g) (b g) (d.rect u))).map some <+: d.executed u
  rect : d.RectRead
  /-- The kernel's scripts have the sizes of the requests. -/
  next : ∀ t g len rest, Kernel.Running d.payloads.kernel t (.request g len) rest →
    ∃ req : Request, d.next b t = some req ∧ req.WellTyped ∧ req.size = len

lemma reach_payloads {config : DevId → GpuConfig} {rs : List Routine} {mem : ℕ → BitVec 8}
    (h : Transition.Reach (step b) (fun d l _ => d.payloads.kernel.NoCollision l.1)
      (start config rs mem) d) :
    Transition.Reach Payloads.step (fun m l _ => m.kernel.NoCollision l.1)
      (Payloads.start config rs mem) d.payloads := by
  induction h with
  | start => exact .start
  | next before taken ok ih =>
    refine ih.next (payloads_step taken) ?_
    rwa [given_fst]

/-- The step that ends the first request of a `drive` sets its rectangle. -/
lemma RectRead.step {c : DevId → ℕ} (h : d.RectRead) (hinv : Inv c b d)
    (hstep : Driving.step b l d = some d') (hanswer : d'.payloads.Answered) : d'.RectRead := by
  have hm := moves_of_step hstep
  intro t _ g hroutine call hcall hlen
  obtain ht | ht := Nat.lt_or_ge t d.payloads.kernel.nextId
  · rw [(hm.evolves ht).1] at hroutine
    obtain ⟨hsame, hrect⟩ | ⟨c, rfl, hmore, hreturned, hread⟩ := hm.answered_cases ht
    · rw [hsame] at hcall
      rw [hrect]
      exact h t ht g hroutine call hcall hlen
    · rw [hmore] at hcall
      obtain ⟨-, hnone, info, hinfo, hrect⟩ | ⟨hsome, hrect⟩ := readRect_poll hread hreturned
      · rw [hnone, List.nil_append, List.head?_cons, Option.mem_some_iff] at hcall
        subst hcall
        refine ⟨info, ?_, by rw [hrect, Function.update_self]⟩
        rwa [← hanswer.response c hreturned, Cells.take_load hlen]
      · rw [List.head?_append_of_ne_nil _ (hsome g hroutine)] at hcall
        rw [hrect]
        exact h c.task ht g hroutine call hcall hlen
  · have hmade := hm.made_fresh hinv.wellFormed ht (hinv.fresh t ht)
    have hnone := List.map_eq_nil_iff.mp (List.append_eq_nil_iff.mp hmade).1
    rw [hnone] at hcall
    cases hcall

lemma RectRead.start (config : DevId → GpuConfig) (rs : List Routine) (mem : ℕ → BitVec 8) :
    (start config rs mem).RectRead := by
  intro t _ g _ c hc
  cases hc

/-- The requests of the script are well typed. -/
lemma wellTyped_of_script {g : DevId} {caps : ℕ} {r : VirtioGpuRect} {backing : Backing}
    {req : Request} (h : req ∈ requests (driveScript g caps backing r)) : req.WellTyped := by
  obtain ⟨a, ha, hreq⟩ := List.mem_filterMap.mp h
  obtain ⟨req', rfl, htype⟩ | ⟨o, rfl, -⟩ := driveScript_cases ha
  · cases hreq
    exact htype
  · cases hreq

lemma wellTyped_of_mem {g : DevId} {caps n : ℕ} {r : VirtioGpuRect} {backing : Backing}
    {req : Request} (h : req ∈ requests (driveScript g caps backing r) ++
      List.replicate n (resourceFlush r)) : req.WellTyped := by
  obtain h | h := List.mem_append.mp h
  · exact wellTyped_of_script h
  · rw [List.eq_of_mem_replicate h]
    rfl

lemma parse_of_images {made : List (List (BitVec 8))} {reqs : List Request}
    (hmade : List.Forall₂ (fun data req => Request.Image req data) made reqs)
    (htype : ∀ req ∈ reqs, req.WellTyped) : made.map Request.parse = reqs.map some := by
  induction hmade with
  | nil => rfl
  | cons himage _ ih =>
    obtain ⟨hreq, htype⟩ := List.forall_mem_cons.mp htype
    rw [List.map_cons, List.map_cons, himage.parse hreq, ih htype]

/-- The device reads what a task has made, up to the request that the task waits for. -/
lemma executed_of_made {t : TaskId} {reqs : List Request} (h : d.payloads.Answered)
    (hmade : List.Forall₂ (fun data req => Request.Image req data) (d.made t) reqs)
    (htype : ∀ req ∈ reqs, req.WellTyped) :
    d.executed t = (reqs.take (d.payloads.answered t).length).map some := by
  have hseen : d.executed t = ((d.payloads.answered t).map Call.data).map Request.parse := by
    rw [executed, List.map_map]
    refine List.map_congr_left fun c hc => ?_
    have hmem : c ∈ d.payloads.calls := (List.mem_filter.mp (List.mem_reverse.mp hc)).1
    rw [Function.comp_apply, h.calls c hmem]
  rw [hseen, List.map_take, ← parse_of_images hmade htype, ← List.map_take, made,
    List.take_left' (by simp)]

lemma images_replicate {made : List (List (BitVec 8))} {req : Request}
    (h : ∀ data ∈ made, req.Image data) :
    List.Forall₂ (fun data req => Request.Image req data) made
      (List.replicate made.length req) := by
  induction made with
  | nil => exact .nil
  | cons data made ih =>
    obtain ⟨hdata, h⟩ := List.forall_mem_cons.mp h
    exact .cons hdata (ih h)

lemma Inv.conforms {c : DevId → ℕ} (h : Inv c b d) (hrect : d.RectRead)
    (hanswer : d.payloads.Answered) : d.Conforms c b := by
  refine ⟨fun t ht g hroutine => ?_, fun t ht g hroutine => ?_, hrect,
    fun t g len rest run => ?_⟩
  · obtain ⟨reqs, n, hmade, hle, -⟩ := (h.drive t ht g hroutine).images
    refine ⟨n, ?_⟩
    rw [executed_of_made hanswer hmade fun req hreq => wellTyped_of_mem (hle.subset hreq)]
    exact ((List.take_prefix ..).trans hle).map some
  · obtain ⟨-, hmade, u, hu, hdrive, hdone, heq, hlen⟩ := h.transfer t ht g hroutine
    refine ⟨⟨(d.payloads.answered t).length, ?_⟩, u, hu, hdrive, heq, ?_⟩
    · rw [executed_of_made hanswer (images_replicate hmade) fun req hreq => by
        rw [List.eq_of_mem_replicate hreq]; rfl, List.take_replicate, List.map_replicate, made,
        List.length_append, List.length_map, Nat.min_eq_left (Nat.le_add_right _ _)]
    · obtain ⟨reqs, n, hmade, hle, hall⟩ := (h.drive u hu g hdrive).images
      rw [executed_of_made hanswer hmade fun req hreq => wellTyped_of_mem (hle.subset hreq),
        hall hdone]
      exact (List.prefix_take_iff.mpr ⟨List.prefix_append .., hlen⟩).map some
  · have ht := h.wellFormed.running_lt run.pc
    have hr := (h.scripts t).1.takes_request run.takes
    obtain hroutine | hroutine := (h.scripts t).2.cases hr
    · obtain ⟨req, htype, hsize, hnext, -⟩ := h.drive_sends ht hroutine run.takes
      exact ⟨req, hnext, htype, hsize⟩
    · obtain ⟨hsize, hnext, -⟩ := h.transfer_sends ht hroutine run.takes
      exact ⟨_, hnext, rfl, hsize⟩

/-- The laws of the drives and of the buffers hold along every run. -/
lemma inv_of_reach {config : DevId → GpuConfig} {rs : List Routine} {mem : ℕ → BitVec 8}
    (hn : ∀ g, QueueSize (config g).queueSize)
    (hp : Payloads.Paged (fun g => (config g).queueSize) fun g => (config g).addr)
    (hrs : ∀ r ∈ rs, r = .client none ∨ ∃ g, r = .drive g)
    (h : Transition.Reach (step b) (fun d l _ => d.payloads.kernel.NoCollision l.1)
      (start config rs mem) d) :
    Inv (fun g => (config g).numCapsets) b d ∧ d.RectRead ∧ d.payloads.Answered := by
  have hanswer := fun {d : Driving} (hd : Transition.Reach (step b) _ (start config rs mem) d) =>
    (Payloads.intact_of_reach hn hp (reach_payloads hd)).answeredAll
  have hinv := h.invariant
    (I := fun d => Inv (fun g => (config g).numCapsets) b d ∧ d.RectRead)
    ⟨.boot mem hrs, .start config rs mem⟩ fun d l d' hd hI taken ok =>
      ⟨hI.1.step taken, hI.2.step hI.1 taken (hanswer (hd.next taken ok))⟩
  exact ⟨hinv.1, hinv.2, hanswer h⟩

/-- A device that reports a screen of 1024 by 768. -/
def firstInfo : VirtioGpuRespOkDisplayInfo :=
  ⟨ofType .respOkDisplayInfo, ⟨⟨0, 0, 1024, 768⟩, 1, 0⟩⟩

/-- The first request of `drive`, and its answer. -/
def firstInfoRun : List Payloads.Label :=
  Kernel.firstRequest.map fun l => (l, match l with
    | .devPush .. => VirtioGpuRespOkDisplayInfo.layout.encode (fun _ => 0) firstInfo
    | _ => [])

end Driving
end Fomos
