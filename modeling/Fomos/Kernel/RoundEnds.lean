import Mathlib
import Fomos.Kernel.Round

/-!
# A call of `run_ready_tasks` ends

The queue may be refilled, but the polls of a call are bounded. Within a poll the poller uses up
the chains that the device may still complete, and any other task the completed slots; between
two of these a task suspends, spawns a live task or goes on in its script.
-/
namespace Fomos

/-- An operation that neither spawns a task nor awaits. -/
def Op.Silent : Op → Prop
  | .startUp _ | .dropGuard _ | .readConfig _ | .checkall _ => True
  | _ => False

namespace Fut
variable {f : Fut} {o : Op} {rest : List Op}

/-- What the task does up to the end of its body or of its loop. -/
def script (f : Fut) : List Op := if f.todo = [] then f.routine.loop else f.todo

/-- The awaits that resolve come before the next operation, those that suspend come after it. -/
def awaitRank (f : Fut) : ℕ :=
  match f.await with
  | some (.yieldOnce true) | some (.setFree _ _ _ _) => 2
  | none => 1
  | some (.yieldOnce false) | some (.idWait _ _ _ _) => 0

lemma getLast?_driveBody (g : DevId) (numCapsets : ℕ) :
    (driveBody g numCapsets).getLast? = some (.spawn (.transfer g)) := by
  rw [driveBody, List.getLast?_append]
  rfl

/-- Every body and every loop ends in a spawn or in an await. -/
lemma Scripted.rest_ne_nil (h : f.Scripted) (htakes : f.takes o = some rest) (ho : o.Silent) :
    rest ≠ [] := by
  rintro rfl
  have hlast : (∃ c, [o] <:+ f.routine.body c) ∨ [o] <:+ f.routine.loop := by
    obtain ⟨gpu, -, hallowed, -⟩ | htodo | ⟨-, hloop⟩ := takes_cases htakes
    · cases o <;> simp_all [Op.Silent, Op.allowed]
    · exact htodo ▸ h.todo
    · exact .inr (hloop ▸ List.suffix_refl _)
  have hend : (∃ g, o = .spawn (.transfer g)) ∨ o = .yieldOnce ∨ ∃ g len, o = .request g len := by
    obtain ⟨c, pre, hpre⟩ | ⟨pre, hpre⟩ := hlast
    · have hend := congrArg List.getLast? hpre
      rw [List.getLast?_append] at hend
      cases hr : f.routine with
      | drive g =>
        rw [hr, Routine.body, getLast?_driveBody] at hend
        exact .inl ⟨g, Option.some.inj hend⟩
      | _ => simp [hr, Routine.body] at hend
    · have hend := congrArg List.getLast? hpre
      cases hr : f.routine <;> simp [hr, Routine.loop] at hend <;> simp [hend]
  obtain ⟨g, rfl⟩ | rfl | ⟨g, len, rfl⟩ := hend <;> exact ho

/-- A silent operation is one less to do. -/
lemma Scripted.script_lt (h : f.Scripted) (htakes : f.takes o = some rest) (ho : o.Silent) :
    (Fut.script { f with todo := rest }).length < f.script.length := by
  have hne := h.rest_ne_nil htakes ho
  have hscript : f.script = o :: rest := by
    obtain ⟨gpu, -, hallowed, -⟩ | htodo | ⟨htodo, hloop⟩ := takes_cases htakes
    · cases o <;> simp_all [Op.Silent, Op.allowed]
    · simp [script, htodo]
    · simp [script, htodo, hloop]
  have hrest : Fut.script { f with todo := rest } = rest := if_neg hne
  rw [hscript, hrest]
  exact Nat.lt_succ_self _

end Fut

namespace Kernel
variable {k k' : Kernel} {l : Label} {t u : TaskId} {d g : DevId} {config : DevId → GpuConfig}
  {rs : List Routine}

/-- What the poll of the task can use up: the poller the chains of the device, and the other
tasks the completed slots. -/
def completions (d : DevId) (t : TaskId) (k : Kernel) : ℕ :=
  if (k.fut t).routine = .poller d then (k.dev d).outstanding else k.doneSlots

/-- While the poll of a task goes on, one of these numbers decreases and those before it stay. -/
def PollDecreases (d : DevId) (t : TaskId) (k k' : Kernel) : Prop :=
  k'.completions d t < k.completions d t ∨ k'.completions d t = k.completions d t ∧
    ((k'.fut t).awaitRank < (k.fut t).awaitRank ∨ (k'.fut t).awaitRank = (k.fut t).awaitRank ∧
      (k.numLive < k'.numLive ∨ k'.numLive = k.numLive ∧
        (k'.fut t).script.length < (k.fut t).script.length))

namespace PollDecreases

/-- A completion is used up. -/
lemma of_completions (h : k'.completions d t < k.completions d t) : PollDecreases d t k k' := .inl h

/-- An await resolves or a script comes to one. -/
lemma of_awaitRank (hcount : k'.completions d t = k.completions d t)
    (h : (k'.fut t).awaitRank < (k.fut t).awaitRank) : PollDecreases d t k k' :=
  .inr ⟨hcount, .inl h⟩

/-- A task is spawned. -/
lemma of_numLive (hcount : k'.completions d t = k.completions d t)
    (hrank : (k'.fut t).awaitRank = (k.fut t).awaitRank) (h : k.numLive < k'.numLive) :
    PollDecreases d t k k' :=
  .inr ⟨hcount, .inr ⟨hrank, .inl h⟩⟩

/-- The script goes on. -/
lemma of_script (hcount : k'.completions d t = k.completions d t)
    (hrank : (k'.fut t).awaitRank = (k.fut t).awaitRank) (hlive : k'.numLive = k.numLive)
    (h : (k'.fut t).script.length < (k.fut t).script.length) : PollDecreases d t k k' :=
  .inr ⟨hcount, .inr ⟨hrank, .inr ⟨hlive, h⟩⟩⟩

end PollDecreases

/-- What a task can use up does not change with its script. -/
lemma completions_eq {f : Fut} (hfut : k'.fut t = f) (hf : f.routine = (k.fut t).routine)
    (hdev : (k'.dev d).outstanding = (k.dev d).outstanding) (hwakers : k'.wakers = k.wakers) :
    k'.completions d t = k.completions d t := by
  unfold completions doneSlots
  rw [hfut, hf, hdev, hwakers]

/-- Another task than the poller does not look at the device. -/
lemma completions_other (hr : (k.fut t).routine ≠ .poller d)
    (hr' : (k'.fut t).routine = (k.fut t).routine) (hwakers : k'.wakers = k.wakers) :
    k'.completions d t = k.completions d t := by
  unfold completions doneSlots
  rw [hr', if_neg hr, if_neg hr, hwakers]

/-- A request takes the completion in its slot. -/
lemma completions_done {id : ℕ} (hr : (k.fut t).routine ≠ .poller d)
    (hr' : (k'.fut t).routine = (k.fut t).routine) (hbound : id < numWakers)
    (hdone : k.wakers id = .done) (hwakers : k'.wakers = Function.update k.wakers id .none) :
    k'.completions d t < k.completions d t := by
  have hslots := doneSlots_update hbound .none hwakers
  simp only [hdone, IdWaker.dones] at hslots
  unfold completions
  rw [hr', if_neg hr, if_neg hr]
  omega

/-- Each step of the core within a poll uses something up. -/
lemma Healthy.pollDecreases (h : Healthy d config rs k) (hpc : k.pc = .polling t)
    (hpc' : k'.pc = .polling t) (hcore : l.core = true) (hstep : Steps k l k') :
    PollDecreases d t k k' := by
  have hself : ∀ {u : TaskId}, k.pc = .polling u → u = t := fun hu => by simpa [hu] using hpc
  cases hstep with
  | control move => cases move <;> cases hpc'
  | spawnTask pc | popTask pc | popGone pc | wakeYielder pc => simp [pc] at hpc
  | spawnPanic pc | wakeYielderPanic pc => simp [pc] at hpc
  | checkallPast | checkallPanic | yieldFirst | register => cases hpc'
  | finish => cases hpc'
  | devRead | devPush => cases hcore
  | @spawnOp u r rest run =>
    obtain rfl := hself run.pc
    have hne : u ≠ k.nextId := (h.wellFormed.running_lt run.pc).ne
    have hroom := room_of_current h.wellFormed h.holder h.guarded.numLive run.current
    refine .of_numLive ?_ ?_ ?_
    · exact completions_eq (f := { k.fut u with todo := rest }) (by simp [hne]) rfl rfl rfl
    · simp [hne, Fut.awaitRank]
    · simp [numLive, ArrayQueue.tryPush_items hroom.1]
  | @yieldOp u rest run =>
    obtain rfl := hself run.pc
    refine .of_awaitRank (completions_eq (Function.update_self ..) rfl rfl rfl) ?_
    simp [setFut, Fut.awaitRank, run.await]
  | @startUp u g rest v ids run =>
    obtain rfl := hself run.pc
    have hr := (h.device u).1.takes_startUp run.takes
    refine .of_script (completions_other (by simp [hr]) (by simp) rfl)
      (by simp [Fut.awaitRank]) rfl ?_
    simpa using (h.device u).1.script_lt run.takes trivial
  | @dropGuard u g rest run =>
    obtain rfl := hself run.pc
    have hr := (h.device u).1.takes_dropGuard run.takes
    refine .of_script (completions_other (by simp [hr]) (by simp) rfl)
      (by simp [Fut.awaitRank]) rfl ?_
    simpa using (h.device u).1.script_lt run.takes trivial
  | @readConfig u g rest run | @checkallNone u g rest run =>
    obtain rfl := hself run.pc
    refine .of_script (completions_eq (Function.update_self ..) rfl rfl rfl)
      (by simp [setFut, Fut.awaitRank]) rfl ?_
    simpa [setFut] using (h.device u).1.script_lt run.takes trivial
  | @request u g len rest descId descNextId v run =>
    obtain rfl := hself run.pc
    have hr := (h.device u).1.takes_request run.takes
    refine .of_awaitRank (completions_other (fun e => ?_) (by simp) rfl) ?_
    · simp [e, Routine.requester] at hr
    · simp [Fut.awaitRank, run.await]
  | @checkallNothing u g rest used v run _ next | @checkallWake u g rest used v w tq run _ next =>
    obtain rfl := hself run.pc
    have hr := (h.device u).1.takes_checkall run.takes
    obtain rfl := h.device.device_eq (t := u) (g := g) (by rw [hr]; rfl)
    have hcount := (h.outstanding.ids.nextUsed next).2.2
    refine .of_completions ?_
    simp only [completions, consumed, hr, if_true, Function.update_self]
    omega
  | @yieldAgain u poll =>
    obtain rfl := hself poll.pc
    refine .of_awaitRank (completions_eq (Function.update_self ..) rfl rfl rfl) ?_
    simp [setFut, Fut.awaitRank, poll.await]
  | @ready u g head tail len poll bound done =>
    obtain rfl := hself poll.pc
    have hr := Round.not_poller_of_ids h.device (Fut.InFlight.head_mem (.inl poll.await)) d
    exact .of_completions (completions_done hr (by simp) bound done rfl)
  | @release u g head tail len poll =>
    obtain rfl := hself poll.pc
    have hr := Round.not_poller_of_ids h.device (Fut.InFlight.head_mem (.inr poll.await)) d
    refine .of_awaitRank (completions_other hr (by simp) rfl) ?_
    simp [Fut.awaitRank, poll.await]

end Kernel

namespace Round
open Kernel
variable {c c' : Round} {k k' k₀ : Kernel} {l : Label} {t : TaskId} {d : DevId} {m : ℕ}
  {config : DevId → GpuConfig} {rs : List Routine}

/-- What a poll can still use up. -/
def pollLeft (d : DevId) (t : TaskId) (k : Kernel) : ℕ ×ₗ ℕ ×ₗ ℕ ×ₗ ℕ :=
  toLex (k.completions d t, toLex ((k.fut t).awaitRank,
    toLex (100 - k.numLive, (k.fut t).script.length)))

/-- How far the core is from the return, between two polls. -/
def phase : Pc → ℕ
  | .polling _ => 2
  | .ready => 1
  | _ => 0

/-- The measure of a call with at most `m` polls: the polls that are left, what the current one
can use up, and the steps that the device can take. -/
def measure (d : DevId) (m : ℕ) (c : Round) : ℕ ×ₗ (ℕ ×ₗ ℕ ×ₗ ℕ ×ₗ ℕ) ×ₗ ℕ :=
  toLex (2 * (m - c.polled.length) + phase c.kernel.pc,
    toLex (c.kernel.pc.current.elim (toLex (0, toLex (0, toLex (0, 0))))
      (pollLeft d · c.kernel), (c.kernel.dev d).deviceWork))

lemma pollLeft_lt (h : PollDecreases d t k k') (hlive : k'.numLive ≤ 100) :
    pollLeft d t k' < pollLeft d t k := by
  simp only [pollLeft, Prod.Lex.toLex_lt_toLex]
  unfold PollDecreases at h
  omega

/-- A device step changes nothing that a poll uses up, and is one less to do. -/
lemma device_step (h : Healthy d config rs k) (hone : OneGpu d config rs)
    (hcore : l.core = false) (hstep : Steps k l k') :
    k'.pc = k.pc ∧ (∀ t, pollLeft d t k' = pollLeft d t k) ∧
      (k'.dev d).deviceWork < (k.dev d).deviceWork := by
  have hle := h.outstanding.le_queueSize h.driven.owned
  have hmax := hone.slots
  have hnum : numWakers = 256 := rfl
  have hleft : ∀ {k' : Kernel}, (k'.dev d).outstanding = (k.dev d).outstanding →
      k'.fut = k.fut → k'.wakers = k.wakers → k'.numLive = k.numLive → ∀ t,
      pollLeft d t k' = pollLeft d t k := by
    intro k' hcount hfut hwakers hlive t
    unfold pollLeft
    rw [completions_eq (congrFun hfut t) rfl hcount hwakers, hfut, hlive]
  cases hstep with
  | control move => cases move <;> cases hcore
  | devRead read =>
    obtain rfl := h.outstanding.eq_of_read read
    obtain ⟨-, hcount, hwork⟩ := h.outstanding.ids.deviceRead read
    refine ⟨rfl, hleft ?_ rfl rfl rfl, ?_⟩
    · simpa [setDev] using hcount
    · simpa [setDev] using hwork
  | devPush held =>
    obtain rfl := h.outstanding.eq_of_held held
    obtain ⟨-, hcount, hwork⟩ := h.outstanding.ids.devicePush held (by omega)
    refine ⟨rfl, hleft ?_ rfl rfl rfl, ?_⟩
    · simpa using hcount
    · simpa using hwork
  | _ => cases hcore

lemma measure_lt (h : Healthy d config rs c.kernel) (h' : Healthy d config rs c'.kernel)
    (hone : OneGpu d config rs) (hm : c'.polled.length ≤ m) (hstep : step l c = some c') :
    measure d m c' < measure d m c := by
  obtain ⟨-, hsteps, hbegun⟩ := step_eq_some hstep
  by_cases hcore : l.core = true
  · have hfirst : 2 * (m - c'.polled.length) + phase c'.kernel.pc <
        2 * (m - c.polled.length) + phase c.kernel.pc → measure d m c' < measure d m c := fun hlt =>
      Prod.Lex.toLex_lt_toLex.mpr (.inl hlt)
    have hgoes : ∀ {t}, c.kernel.pc = .polling t → c'.kernel.pc = .polling t →
        c'.polled = c.polled → measure d m c' < measure d m c := by
      intro t hpc hpc' hpolled
      have hlt := pollLeft_lt (h.pollDecreases hpc hpc' hcore hsteps) h'.guarded.numLive
      rw [measure, measure, hpolled, hpc, hpc']
      exact Prod.Lex.toLex_lt_toLex.mpr (.inr ⟨rfl, Prod.Lex.toLex_lt_toLex.mpr (.inl hlt)⟩)
    cases moves h h' hstep with
    | pop pc pc' queue polled =>
      refine hfirst ?_
      rw [polled, List.length_append, List.length_singleton] at hm
      simp only [polled, pc, pc', phase, List.length_append, List.length_singleton]
      omega
    | drained pc pc' empty queue polled | leave pc pc' parked queue polled =>
      exact hfirst (by simp [polled, pc, pc', phase])
    | wake pc pc' poller queue polled => exact hgoes pc pc' polled
    | stay pc core queue polled =>
      obtain ⟨t, hpc⟩ := core hcore
      exact hgoes hpc (pc.trans hpc) polled
  · obtain ⟨hpc, hleft, hwork⟩ := device_step h hone (Bool.eq_false_of_not_eq_true hcore) hsteps
    rw [begun_same hpc, List.append_nil] at hbegun
    rw [measure, measure, hbegun, hpc, funext hleft]
    exact Prod.Lex.toLex_lt_toLex.mpr (.inr ⟨rfl, Prod.Lex.toLex_lt_toLex.mpr (.inr ⟨rfl, hwork⟩)⟩)

/-- A script never ends. -/
lemma takes_script {f : Fut} (hclient : ∀ gpu, f.routine ≠ .client gpu) :
    ∃ o rest, f.takes o = some rest := by
  have hscript : ∃ o rest, f.script = o :: rest := by
    unfold Fut.script
    split
    · cases hr : f.routine <;> simp_all [Routine.loop]
    · exact List.exists_cons_of_ne_nil ‹_›
  obtain ⟨o, rest, hscript⟩ := hscript
  refine ⟨o, rest, ?_⟩
  unfold Fut.script at hscript
  unfold Fut.takes
  split
  · rename_i hr
    exact absurd hr (hclient _)
  · simp [hscript]

/-- Until the call returns the core can go on. -/
lemma exists_core (hin : c.kernel.pc.inRound = true) :
    ∃ l : Label, l.core = true ∧ (step l c).isSome := by
  obtain ⟨l, hcore, hsome⟩ : ∃ l : Label, l.core = true ∧ (Kernel.step l c.kernel).isSome := by
    match hpc : c.kernel.pc with
    | .ready =>
      refine ⟨.exec, rfl, ?_⟩
      simp only [Kernel.step, exec, hpc]
      split <;> try split
      all_goals rfl
    | .polling t =>
      cases hawait : (c.kernel.fut t).await with
      | some a => exact ⟨.poll, rfl, by simp [Kernel.step, hpc, hawait]⟩
      | none =>
        by_cases hclient : ∃ gpu, (c.kernel.fut t).routine = .client gpu
        · obtain ⟨gpu, hclient⟩ := hclient
          exact ⟨.finish, rfl, by simp [Kernel.step, hpc, hawait, hclient]⟩
        · obtain ⟨o, rest, htakes⟩ := takes_script (not_exists.mp hclient)
          exact ⟨.op o, rfl, by simp [Kernel.step, hpc, hawait, htakes]⟩
    | .spawning | .idle | .halted | .yielders | .panicked _ _ | .spinning _ _ =>
      rw [hpc] at hin
      cases hin
  exact ⟨l, hcore, by simpa [step, hin] using hsome⟩

/-- A task that yields is parked and its poll ends. -/
lemma step_yield (hc : Healthy d config rs c.kernel)
    (hpoll : Polling c.kernel t (.yieldOnce false)) (hstep : step .poll c = some c') :
    t ∈ c'.kernel.yielders.items ∧ c'.polled = c.polled ∧
      c'.kernel.numLive = c.kernel.numLive := by
  have hroom := room_of_current hc.wellFormed hc.holder hc.guarded.numLive hpoll.current
  simp only [step, Kernel.step, hpoll.pc, hpoll.await, Pc.inRound, if_true, Option.map_some,
    begun_polling hpoll.pc, List.append_nil, Option.some.injEq] at hstep
  subst hstep
  refine ⟨?_, rfl, rfl⟩
  simp [poll, ArrayQueue.tryPush_items hroom.2]

/-- A task that has yielded is not polled again in the call. -/
lemma yielding_kept (hone : OneGpu d config rs) (hc : Healthy d config rs c.kernel)
    (ht : t ∈ c.kernel.yielders.items) (h : Reach c c') :
    c'.polled.count t = c.polled.count t := by
  refine (h.invariant (I := fun c' => Healthy d config rs c'.kernel ∧
    t ∈ c'.kernel.yielders.items ∧ c'.polled.count t = c.polled.count t) ⟨hc, ht, rfl⟩ ?_).2.2
  intro c₁ l c₂ _ ⟨hhealthy, hyield, hcount⟩ hstep hlive
  have hhealthy' := hhealthy.step hone (step_eq_some hstep).2.1 hlive
  refine ⟨hhealthy', yielders_kept hstep hyield, ?_⟩
  cases moves hhealthy hhealthy' hstep with
  | @pop u pc pc' queue polled =>
    have hne : u ≠ t := by
      rintro rfl
      exact not_queued_of_yielding hhealthy.holder hyield (by rw [queue]; exact .head _)
    rw [polled, List.count_append, List.count_singleton, if_neg (by simpa using hne), hcount,
      Nat.add_zero]
  | drained _ _ _ _ polled | wake _ _ _ _ polled | leave _ _ _ _ polled | stay _ _ _ polled =>
    rw [polled, hcount]

end Round

namespace Kernel
variable {k₀ : Kernel} {d : DevId} {config : DevId → GpuConfig} {rs : List Routine}

/-- A call of `run_ready_tasks` that begins in the state `k₀`: whatever the device and the tasks
do, it returns, after it has polled every queued task, and no task more than twice. -/
structure RoundEnds (k₀ : Kernel) : Prop where
  terminates : ∀ run : ℕ → Round, run 0 = ⟨k₀, []⟩ →
    ¬∀ i, ∃ l, Round.step l (run i) = some (run (i + 1)) ∧ (run (i + 1)).kernel.numLive ≤ 100
  returns : ∀ c, Round.Reach ⟨k₀, []⟩ c → c.kernel.pc = .idle ∨
    ∃ l : Label, l.core = true ∧ (Round.step l c).isSome
  twice : ∀ c, Round.Reach ⟨k₀, []⟩ c → ∀ t, c.polled.count t ≤ 2
  once : ∀ c, Round.Reach ⟨k₀, []⟩ c → c.kernel.pc = .idle →
    ∀ t ∈ k₀.taskQueue.items, t ∈ c.polled
  yielded : ∀ c c' c'' t, Round.Reach ⟨k₀, []⟩ c → Polling c.kernel t (.yieldOnce false) →
    Round.step .poll c = some c' → Round.Reach c' c'' → c''.polled.count t = c.polled.count t
  spawned : ∀ c, Round.Reach ⟨k₀, []⟩ c → ∀ t ∈ c.polled, t ∈ k₀.tasks

/-- On one GPU device, while at most 100 tasks are live, every call of `run_ready_tasks` ends. -/
theorem round_ends (hone : OneGpu d config rs)
    (h : Transition.Reach step (fun _ _ k' => k'.numLive ≤ 100) (boot config rs) k₀)
    (hpc : k₀.pc = .ready) : RoundEnds k₀ := by
  have hk := Healthy.of_reach hone h
  have hinv := fun c (hc : Round.Reach ⟨k₀, []⟩ c) => hc.polled hone hk hpc
  have hdecreases : ∀ c l c', Round.Reach ⟨k₀, []⟩ c → Round.step l c = some c' →
      c'.kernel.numLive ≤ 100 →
      Round.measure d (2 * k₀.tasks.card) c' < Round.measure d (2 * k₀.tasks.card) c := by
    intro c l c' hc hstep hlive
    obtain ⟨hhealthy', hpolled'⟩ := hinv c' (hc.next hstep hlive)
    exact Round.measure_lt (hinv c hc).1 hhealthy' hone hpolled'.length_le hstep
  refine ⟨Transition.Reach.not_infinite _ hdecreases, fun c hc => ?_, fun c hc t => ?_,
    fun c hc hidle t ht => ?_, fun c c' c'' t hc hpoll hstep hc'' => ?_,
    fun c hc => (hinv c hc).2.known⟩
  · obtain hin | ⟨hidle, -⟩ := (hinv c hc).2.place
    · exact .inr (Round.exists_core hin)
    · exact .inl hidle
  · exact (Nat.le_add_right _ _).trans ((hinv c hc).2.twice t)
  · obtain hin | ⟨-, hempty⟩ := (hinv c hc).2.place
    · rw [hidle] at hin
      cases hin
    · refine ((hinv c hc).2.queued t ht).resolve_right fun hqueue => ?_
      rw [hempty] at hqueue
      cases hqueue
  · obtain ⟨hyield, hpolled, hlive⟩ := Round.step_yield (hinv c hc).1 hpoll hstep
    have hc' := hinv c' (hc.next hstep (hlive.trans_le (hinv c hc).1.guarded.numLive))
    exact (Round.yielding_kept hone hc'.1 hyield hc'').trans (congrArg (List.count t) hpolled)

/-- The call in which the drive resumes, ahead of the poller that it has spawned. -/
theorem round_ends_firstRequest : RoundEnds ((Transition.run step
    (fun _ _ k' => k'.numLive ≤ 100) (firstRequest.take 13) (boot blankConfig [.drive 0])).get
      (by decide)) :=
  @round_ends _ 0 blankConfig [.drive 0]
    ⟨by simp, List.count_le_length, (by decide : 14 ≤ 16), (by decide : 16 ≤ 256)⟩
    (Transition.Reach.run_get _ _) (by decide)

end Kernel
end Fomos
