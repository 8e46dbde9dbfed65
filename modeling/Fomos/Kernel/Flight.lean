import Mathlib
import Fomos.Kernel.State

/-!
# The history of a request

Since its own `add_request`, a request in flight has its chain once in the hands of the device, in
the used ring, or consumed by the poller. The history counts which: `queued` chains are still to
be returned, `returned` ones are still to be consumed.
-/
namespace Fomos

/-- The events that begin or end a request on the head. -/
def Event.Renews (g : DevId) (head : ℕ) : Event → Prop
  | .add _ g' head' => g' = g ∧ head' = head
  | .resolve _ g' head' _ => g' = g ∧ head' = head
  | _ => False

/-- The events that say something about the head. -/
def Event.About (g : DevId) (head : ℕ) (e : Event) : Prop :=
  e.Renews g head ∨ e = .ret g head ∨ e = .use g head

/-- The newest request on the head is that of task `t`, it is not resolved, and its chain was
returned and consumed as often as `queued` and `returned` say. -/
def Flight (log : List Event) (t : TaskId) (g : DevId) (head queued returned : ℕ) : Prop :=
  ∃ mid pre, log = mid ++ .add t g head :: pre ∧ (∀ e ∈ mid, ¬e.Renews g head) ∧
    queued + mid.count (.ret g head) = 1 ∧
      returned + mid.count (.use g head) = mid.count (.ret g head)

namespace Flight
variable {log : List Event} {t : TaskId} {g : DevId} {head q r : ℕ}

theorem new : Flight (.add t g head :: log) t g head 1 0 :=
  ⟨[], log, rfl, by simp, by simp, by simp⟩

theorem le_one (h : Flight log t g head q r) : q + r ≤ 1 := by
  obtain ⟨mid, pre, -, -, hq, hr⟩ := h
  omega

/-- Events about other heads change nothing. -/
theorem other {e : Event} (h : Flight log t g head q r) (he : ¬e.About g head) :
    Flight (e :: log) t g head q r := by
  obtain ⟨mid, pre, rfl, hmid, hq, hr⟩ := h
  simp only [Event.About, not_or] at he
  refine ⟨e :: mid, pre, rfl, ?_, ?_, ?_⟩
  · exact List.forall_mem_cons.mpr ⟨he.1, hmid⟩
  · rwa [List.count_cons_of_ne he.2.1]
  · rwa [List.count_cons_of_ne he.2.1, List.count_cons_of_ne he.2.2]

theorem others {es : List Event} (h : Flight log t g head q r)
    (hes : ∀ e ∈ es, ¬e.About g head) : Flight (es ++ log) t g head q r := by
  induction es with
  | nil => exact h
  | cons e es ih =>
    obtain ⟨he, hes⟩ := List.forall_mem_cons.mp hes
    exact (ih hes).other he

/-- The device returns the chain. -/
theorem ret (h : Flight log t g head (q + 1) r) :
    Flight (.ret g head :: log) t g head q (r + 1) := by
  obtain ⟨mid, pre, rfl, hmid, hq, hr⟩ := h
  refine ⟨.ret g head :: mid, pre, rfl, ?_, ?_, ?_⟩
  · exact List.forall_mem_cons.mpr ⟨by simp [Event.Renews], hmid⟩
  · rw [List.count_cons_self]
    omega
  · rw [List.count_cons_self, List.count_cons_of_ne (by simp)]
    omega

/-- The poller consumes the chain. -/
theorem use (h : Flight log t g head q (r + 1)) : Flight (.use g head :: log) t g head q r := by
  obtain ⟨mid, pre, rfl, hmid, hq, hr⟩ := h
  refine ⟨.use g head :: mid, pre, rfl, ?_, ?_, ?_⟩
  · exact List.forall_mem_cons.mpr ⟨by simp [Event.Renews], hmid⟩
  · rwa [List.count_cons_of_ne (by simp)]
  · rw [List.count_cons_self, List.count_cons_of_ne (by simp)]
    omega

/-- The events since the newest request are determined. -/
theorem since_unique {mid mid' pre pre' : List Event} (hmid : ∀ e ∈ mid, ¬e.Renews g head)
    (hmid' : ∀ e ∈ mid', ¬e.Renews g head)
    (h : mid ++ .add t g head :: pre = mid' ++ .add t g head :: pre') : mid = mid' := by
  obtain ⟨as, hw, ha⟩ | ⟨as, hw, ha⟩ := List.append_eq_append_iff.mp h
  · cases as with
    | nil => simpa using hw.symm
    | cons a as =>
      obtain ⟨rfl, -⟩ := List.cons.inj ha
      exact absurd ⟨rfl, rfl⟩ (hmid' (.add t g head) (by simp [hw]))
  · cases as with
    | nil => simpa using hw
    | cons a as =>
      obtain ⟨rfl, -⟩ := List.cons.inj ha
      exact absurd ⟨rfl, rfl⟩ (hmid (.add t g head) (by simp [hw]))

/-- The history says which. -/
theorem unique {q' r' : ℕ} (h : Flight log t g head q r) (h' : Flight log t g head q' r') :
    q = q' ∧ r = r' := by
  obtain ⟨mid, pre, hlog, hmid, hq, hr⟩ := h
  obtain ⟨mid', pre', hlog', hmid', hq', hr'⟩ := h'
  obtain rfl := since_unique hmid hmid' (hlog.symm.trans hlog')
  omega

end Flight

/-- Every resolved request was returned by its device and consumed by the poller, once each, since
its own `add_request`. -/
def Matched (log : List Event) : Prop :=
  ∀ post t g head response rest, log = post ++ .resolve t g head response :: rest →
    Flight rest t g head 0 0

namespace Matched
variable {log : List Event}

theorem nil : Matched [] := by
  intro post t g head response rest h
  simp at h

theorem cons {e : Event} (h : Matched log)
    (he : ∀ t g head response, e = .resolve t g head response → Flight log t g head 0 0) :
    Matched (e :: log) := by
  intro post t g head response rest hlog
  cases post with
  | nil =>
    obtain ⟨rfl, rfl⟩ := List.cons.inj hlog
    exact he t g head response rfl
  | cons x post => exact h post t g head response rest (List.cons.inj hlog).2

theorem append {es : List Event} (h : Matched log)
    (hes : ∀ e ∈ es, ∀ t g head response, e ≠ .resolve t g head response) :
    Matched (es ++ log) := by
  induction es with
  | nil => exact h
  | cons e es ih =>
    obtain ⟨he, hes⟩ := List.forall_mem_cons.mp hes
    exact (ih hes).cons fun t g head response heq => absurd heq (he t g head response)

/-- Two requests resolved on one head did not share a consumed entry. -/
theorem use_between (h : Matched log) {post mid pre : List Event} {t u : TaskId} {g : DevId}
    {head : ℕ} {response response' : Desc}
    (hlog : log =
      post ++ .resolve t g head response :: (mid ++ .resolve u g head response' :: pre)) :
    .use g head ∈ mid := by
  obtain ⟨window, old, hold, hnone, hret, huse⟩ := h post t g head response _ hlog
  obtain ⟨as, hw, ha⟩ | ⟨as, hm, ha⟩ := List.append_eq_append_iff.mp hold
  · cases as with
    | nil => simp at ha
    | cons a as =>
      obtain ⟨rfl, -⟩ := List.cons.inj ha
      exact absurd ⟨rfl, rfl⟩ (hnone (.resolve u g head response') (by simp [hw]))
  · rw [hm]
    refine List.mem_append_left _ (List.count_pos_iff.mp ?_)
    omega

end Matched
end Fomos
