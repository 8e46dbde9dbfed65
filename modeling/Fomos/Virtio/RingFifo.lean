import Mathlib
import Fomos.Library.Transition
import Fomos.Virtio.Queue

/-!
# The rings of a virtqueue are two FIFO queues

The avail ring carries ids from the driver to the device, the used ring carries elements back.
The cursors of both are `u16` values of free-running positions: the device's cursor is the next
entry to read, the driver's `last_used_idx` is the last entry already consumed.
-/
namespace Fomos
open RingWindow

/-- The queue sizes a virtio device may report. -/
def QueueSize (n : ℕ) : Prop := ∃ k ≤ 15, n = 2^k

theorem QueueSize.dvd {n : ℕ} (h : QueueSize n) : n ∣ 2^16 := by
  obtain ⟨k, hk, rfl⟩ := h
  exact Nat.pow_dvd_pow 2 (by omega)

theorem QueueSize.lt {n : ℕ} (h : QueueSize n) : n < 2^16 := by
  obtain ⟨k, hk, rfl⟩ := h
  exact Nat.pow_lt_pow_right (by decide) (by omega)

/-- The entries from the device's cursor up to the driver's index are `pending`. -/
structure AvailFifo (r : Rings) (cursor : ℕ) (pending : List ℕ) : Prop where
  pos : ∃ p, cursor = p % 2^16 ∧ r.driverIdx = (p + pending.length) % 2^16 ∧
    Holds r.queueSize r.driverRing p pending
  fits : pending.length ≤ r.queueSize

/-- The elements after the driver's cursor up to the device's index are `pending`. -/
structure UsedFifo (r : Rings) (pending : List UsedElem) : Prop where
  pos : ∃ p, wrappingAdd r.lastUsedIdx 1 = p % 2^16 ∧
    r.deviceIdx = (p + pending.length) % 2^16 ∧ Holds r.queueSize r.deviceRing p pending
  fits : pending.length ≤ r.queueSize

/-- The ids in the avail ring that the device has not read. -/
def Rings.availPending (cursor : ℕ) (r : Rings) : List ℕ :=
  RingWindow.pending (2^16) r.queueSize r.driverRing cursor r.driverIdx

/-- The elements in the used ring that `next_used` has not returned. -/
def Rings.usedPending (r : Rings) : List UsedElem :=
  RingWindow.pending (2^16) r.queueSize r.deviceRing (wrappingAdd r.lastUsedIdx 1) r.deviceIdx

section Rings
variable {r : Rings} {cursor : ℕ}

theorem cursor_eq_iff {p len n : ℕ} (hn : QueueSize n) (hlen : len ≤ n) :
    p % 2^16 = (p + len) % 2^16 ↔ len = 0 := by
  have := hn.lt
  omega

theorem AvailFifo.init (n : ℕ) (driverRing : ℕ → ℕ) (deviceRing : ℕ → UsedElem) :
    AvailFifo (Rings.init n driverRing deviceRing) 0 [] :=
  ⟨⟨0, rfl, rfl, holds_nil⟩, Nat.zero_le _⟩

theorem UsedFifo.init (n : ℕ) (driverRing : ℕ → ℕ) (deviceRing : ℕ → UsedElem) :
    UsedFifo (Rings.init n driverRing deviceRing) [] :=
  ⟨⟨0, by simp [Rings.init, wrappingAdd], rfl, holds_nil⟩, Nat.zero_le _⟩

/-- `set_available` appends to the avail queue, when the ring has a slot left. -/
theorem AvailFifo.setAvailable {pending : List ℕ} {d : ℕ} (hn : QueueSize r.queueSize)
    (hroom : pending.length < r.queueSize) (h : AvailFifo r cursor pending) :
    AvailFifo (r.setAvailable d) cursor (pending ++ [d]) := by
  obtain ⟨⟨p, hcursor, hidx, hholds⟩, -⟩ := h
  refine ⟨⟨p, hcursor, ?_, ?_⟩, by rw [List.length_append]; exact hroom⟩
  · simp only [Rings.setAvailable, wrappingAdd, hidx, List.length_append, List.length_singleton]
    omega
  · have hslot : r.driverIdx % r.queueSize = (p + pending.length) % r.queueSize := by
      rw [hidx, slot_of_cursor hn.dvd]
    simpa only [Rings.setAvailable, hslot] using hholds.push

/-- The device reads the oldest pending id, and nothing exactly when none is pending. -/
theorem AvailFifo.deviceRead {pending : List ℕ} (hn : QueueSize r.queueSize)
    (h : AvailFifo r cursor pending) : r.deviceRead cursor = pending.head? := by
  obtain ⟨⟨p, hcursor, hidx, hholds⟩, hfits⟩ := h
  have hempty := cursor_eq_iff (p := p) hn hfits
  rw [← hidx, ← hcursor] at hempty
  cases pending with
  | nil => simp [Rings.deviceRead, hempty]
  | cons d ds =>
    have hslot := hholds.head hfits
    rw [← slot_of_cursor hn.dvd, ← hcursor] at hslot
    simp [Rings.deviceRead, hempty, hslot]

theorem AvailFifo.advance {d : ℕ} {ds : List ℕ} (h : AvailFifo r cursor (d :: ds)) :
    AvailFifo r (wrappingAdd cursor 1) ds := by
  obtain ⟨⟨p, hcursor, hidx, hholds⟩, hfits⟩ := h
  refine ⟨⟨p + 1, ?_, ?_, hholds.tail⟩, Nat.le_of_succ_le hfits⟩
  · simp only [wrappingAdd, hcursor]
    omega
  · rw [hidx, List.length_cons]
    omega

/-- The device appends to the used queue, when the ring has a slot left. -/
theorem UsedFifo.devicePush {pending : List UsedElem} {e : UsedElem} (hn : QueueSize r.queueSize)
    (hroom : pending.length < r.queueSize) (h : UsedFifo r pending) :
    UsedFifo (r.devicePush e) (pending ++ [e]) := by
  obtain ⟨⟨p, hcursor, hidx, hholds⟩, -⟩ := h
  refine ⟨⟨p, hcursor, ?_, ?_⟩, by rw [List.length_append]; exact hroom⟩
  · simp only [Rings.devicePush, wrappingAdd, hidx, List.length_append, List.length_singleton]
    omega
  · have hslot : r.deviceIdx % r.queueSize = (p + pending.length) % r.queueSize := by
      rw [hidx, slot_of_cursor hn.dvd]
    simpa only [Rings.devicePush, hslot] using hholds.push

theorem UsedFifo.nextUsed_nil (h : UsedFifo r []) : r.nextUsed = none := by
  obtain ⟨⟨p, hcursor, hidx, -⟩, -⟩ := h
  simp [Rings.nextUsed, hcursor, hidx]

/-- `next_used` returns the oldest pending element and moves past it. -/
theorem UsedFifo.nextUsed_cons {e : UsedElem} {es : List UsedElem} (hn : QueueSize r.queueSize)
    (h : UsedFifo r (e :: es)) :
    ∃ r', r.nextUsed = some (e, r') ∧ UsedFifo r' es ∧
      r' = { r with lastUsedIdx := wrappingAdd r.lastUsedIdx 1 } := by
  obtain ⟨⟨p, hcursor, hidx, hholds⟩, hfits⟩ := h
  have hne : wrappingAdd r.lastUsedIdx 1 ≠ r.deviceIdx := by
    rw [hcursor, hidx, Ne, cursor_eq_iff hn hfits]
    simp
  have hslot := hholds.head hfits
  rw [← slot_of_cursor hn.dvd, ← hcursor] at hslot
  refine ⟨{ r with lastUsedIdx := wrappingAdd r.lastUsedIdx 1 }, ?_,
    ⟨⟨p + 1, ?_, ?_, hholds.tail⟩, Nat.le_of_succ_le hfits⟩, rfl⟩
  · simp only [Rings.nextUsed, if_pos hne, hslot]
  · change wrappingAdd (wrappingAdd r.lastUsedIdx 1) 1 = _
    rw [hcursor]
    simp only [wrappingAdd]
    omega
  · simp only [hidx, List.length_cons]
    omega

/-- The walk over the pending entries of a ring reads them back. -/
theorem read_pending {α : Type} {mem : ℕ → α} {n p : ℕ} {entries : List α} (hn : QueueSize n)
    (hfits : entries.length ≤ n) (h : Holds n mem p entries) :
    RingWindow.pending (2^16) n mem (p % 2^16) ((p + entries.length) % 2^16) = entries := by
  have hlt := hn.lt
  have hlen : ((p + entries.length) % 2^16 + 2^16 - p % 2^16) % 2^16 = entries.length := by omega
  have hslot : ∀ i, (p % 2^16 + i) % 2^16 % n = (p + i) % n := by
    intro i
    rw [Nat.mod_add_mod, slot_of_cursor hn.dvd]
  simp only [RingWindow.pending, hlen, hslot]
  exact h.read hfits

theorem AvailFifo.availPending {pending : List ℕ} (hn : QueueSize r.queueSize)
    (h : AvailFifo r cursor pending) : r.availPending cursor = pending := by
  obtain ⟨⟨p, rfl, hidx, hholds⟩, hfits⟩ := h
  rw [Rings.availPending, hidx]
  exact read_pending hn hfits hholds

theorem UsedFifo.usedPending {pending : List UsedElem} (hn : QueueSize r.queueSize)
    (h : UsedFifo r pending) : r.usedPending = pending := by
  obtain ⟨⟨p, hcursor, hidx, hholds⟩, hfits⟩ := h
  rw [Rings.usedPending, hidx, hcursor]
  exact read_pending hn hfits hholds

/-! An operation on one ring leaves the other one alone. -/

theorem AvailFifo.devicePush {pending : List ℕ} (e : UsedElem) (h : AvailFifo r cursor pending) :
    AvailFifo (r.devicePush e) cursor pending := ⟨h.pos, h.fits⟩

theorem AvailFifo.nextUsed {pending : List ℕ} (i : ℕ) (h : AvailFifo r cursor pending) :
    AvailFifo { r with lastUsedIdx := i } cursor pending := ⟨h.pos, h.fits⟩

theorem UsedFifo.setAvailable {pending : List UsedElem} (d : ℕ) (h : UsedFifo r pending) :
    UsedFifo (r.setAvailable d) pending := ⟨h.pos, h.fits⟩

end Rings

/-! ## Runs of the driver against a device -/

/-- The queue with the device's cursor, and everything that went over it so far. -/
structure Link where
  rings : Rings
  cursor : ℕ
  sent : List ℕ
  read : List ℕ
  pushed : List UsedElem
  taken : List UsedElem

namespace Link

inductive Act
  | setAvailable (descId : ℕ)
  | deviceRead
  | devicePush (e : UsedElem)
  | nextUsed

/-- The state after `Virtio::init`: nothing was sent. -/
def init (n : ℕ) (driverRing : ℕ → ℕ) (deviceRing : ℕ → UsedElem) : Link :=
  ⟨Rings.init n driverRing deviceRing, 0, [], [], [], []⟩

/-- One step of the driver or of the device, which returns only chains it has read. -/
def step : Act → Link → Option Link
  | .setAvailable d, l =>
    some { l with rings := l.rings.setAvailable d, sent := l.sent ++ [d] }
  | .deviceRead, l =>
    some (match l.rings.deviceRead l.cursor with
      | some d => { l with cursor := wrappingAdd l.cursor 1, read := l.read ++ [d] }
      | none => l)
  | .devicePush e, l =>
    if l.pushed.length < l.read.length then
      some { l with rings := l.rings.devicePush e, pushed := l.pushed ++ [e] }
    else none
  | .nextUsed, l =>
    some (match l.rings.nextUsed with
      | some (e, r) => { l with rings := r, taken := l.taken ++ [e] }
      | none => l)

/-- At most `n` ids are made available and not consumed back. -/
def Outstanding (n : ℕ) (l : Link) : Prop := l.sent.length ≤ l.taken.length + n

instance (n : ℕ) (l : Link) : Decidable (Outstanding n l) := inferInstanceAs (Decidable (_ ≤ _))

/-- The rings hold exactly what was sent and not read, and what was pushed and not taken. -/
structure Fifo (n : ℕ) (l : Link) : Prop where
  size : l.rings.queueSize = n
  avail : ∃ pending, l.sent = l.read ++ pending ∧ AvailFifo l.rings l.cursor pending
  used : ∃ pending, l.pushed = l.taken ++ pending ∧ UsedFifo l.rings pending
  answered : l.pushed.length ≤ l.read.length

variable {n : ℕ} {l l' : Link}

theorem Fifo.init (n : ℕ) (driverRing : ℕ → ℕ) (deviceRing : ℕ → UsedElem) :
    Fifo n (init n driverRing deviceRing) where
  size := rfl
  avail := ⟨[], rfl, AvailFifo.init n driverRing deviceRing⟩
  used := ⟨[], rfl, UsedFifo.init n driverRing deviceRing⟩
  answered := Nat.le_refl _

theorem Fifo.setAvailable {d : ℕ} (hn : QueueSize n) (h : Fifo n l)
    (hout : Outstanding n { l with rings := l.rings.setAvailable d, sent := l.sent ++ [d] }) :
    Fifo n { l with rings := l.rings.setAvailable d, sent := l.sent ++ [d] } := by
  obtain ⟨hsize, ⟨xs, hsent, havail⟩, ⟨ys, hpushed, hused⟩, hanswered⟩ := h
  subst hsize
  have hroom : xs.length < l.rings.queueSize := by
    simp only [Outstanding, hsent, List.length_append, List.length_singleton] at hout
    simp only [hpushed, List.length_append] at hanswered
    omega
  exact ⟨rfl, ⟨xs ++ [d], by simp [hsent], havail.setAvailable hn hroom⟩,
    ⟨ys, hpushed, hused.setAvailable d⟩, hanswered⟩

theorem Fifo.devicePush {e : UsedElem} (hn : QueueSize n) (h : Fifo n l) (hout : Outstanding n l)
    (hread : l.pushed.length < l.read.length) :
    Fifo n { l with rings := l.rings.devicePush e, pushed := l.pushed ++ [e] } := by
  obtain ⟨hsize, ⟨xs, hsent, havail⟩, ⟨ys, hpushed, hused⟩, -⟩ := h
  subst hsize
  have hroom : ys.length < l.rings.queueSize := by
    simp only [Outstanding, hsent, List.length_append] at hout
    simp only [hpushed, List.length_append] at hread
    omega
  exact ⟨rfl, ⟨xs, hsent, havail.devicePush e⟩,
    ⟨ys ++ [e], by simp [hpushed], hused.devicePush hn hroom⟩, by
      simp only [List.length_append, List.length_singleton]
      omega⟩

/-- Every step keeps the correspondence with the two FIFO queues. -/
theorem Fifo.step {a : Act} (hn : QueueSize n) (h : Fifo n l) (hout : Outstanding n l)
    (hstep : step a l = some l') (hout' : Outstanding n l') : Fifo n l' := by
  cases a with
  | setAvailable d =>
    cases hstep
    exact h.setAvailable hn hout'
  | deviceRead =>
    obtain ⟨hsize, ⟨xs, hsent, havail⟩, hused, hanswered⟩ := h
    have hread := havail.deviceRead (hsize ▸ hn)
    cases xs with
    | nil =>
      simp only [Link.step, hread, List.head?_nil] at hstep
      cases hstep
      exact ⟨hsize, ⟨[], hsent, havail⟩, hused, hanswered⟩
    | cons d ds =>
      simp only [Link.step, hread, List.head?_cons] at hstep
      cases hstep
      exact ⟨hsize, ⟨ds, by simp [hsent], havail.advance⟩, hused, by simp; omega⟩
  | devicePush e =>
    simp only [Link.step] at hstep
    split at hstep
    · cases hstep
      exact h.devicePush hn hout ‹_›
    · cases hstep
  | nextUsed =>
    obtain ⟨hsize, ⟨xs, hsent, havail⟩, ⟨ys, hpushed, hused⟩, hanswered⟩ := h
    cases ys with
    | nil =>
      simp only [Link.step, hused.nextUsed_nil] at hstep
      cases hstep
      exact ⟨hsize, ⟨xs, hsent, havail⟩, ⟨[], hpushed, hused⟩, hanswered⟩
    | cons e es =>
      obtain ⟨r, hr, hused', rfl⟩ := hused.nextUsed_cons (hsize ▸ hn)
      simp only [Link.step, hr] at hstep
      cases hstep
      exact ⟨hsize, ⟨xs, hsent, havail.nextUsed _⟩, ⟨es, by simp [hpushed], hused'⟩,
        hanswered⟩

theorem Fifo.of_reach (hn : QueueSize n) {driverRing : ℕ → ℕ} {deviceRing : ℕ → UsedElem}
    (h : Transition.Reach Link.step (fun _ _ l' => l'.Outstanding n)
      (Link.init n driverRing deviceRing) l) : Fifo n l ∧ Outstanding n l :=
  h.invariant (I := fun l => Fifo n l ∧ Outstanding n l)
    ⟨Fifo.init n driverRing deviceRing, Nat.zero_le _⟩
    fun _ _ _ _ hl hstep hout => ⟨hl.1.step hn hl.2 hstep hout, hout⟩

/-- What the device read and what `next_used` returned are the first elements that were sent to
them, in order and each once, and what comes next is the first one not delivered yet. -/
structure Delivered (l : Link) : Prop where
  read : l.read <+: l.sent
  next_read : l.rings.deviceRead l.cursor = l.sent[l.read.length]?
  taken : l.taken <+: l.pushed
  next_taken : l.rings.nextUsed.map Prod.fst = l.pushed[l.taken.length]?
  none_pending : l.rings.nextUsed = none ↔ l.taken = l.pushed

theorem Fifo.delivered (hn : QueueSize n) (h : Fifo n l) : Delivered l := by
  obtain ⟨rfl, ⟨xs, hsent, havail⟩, ⟨ys, hpushed, hused⟩, -⟩ := h
  have hnext : l.rings.nextUsed.map Prod.fst = ys.head? := by
    cases ys with
    | nil => simp [hused.nextUsed_nil]
    | cons e es =>
      obtain ⟨r, hr, -⟩ := hused.nextUsed_cons hn
      simp [hr]
  refine ⟨⟨xs, hsent.symm⟩, ?_, ⟨ys, hpushed.symm⟩, ?_, ?_⟩
  · rw [havail.deviceRead hn, hsent, List.getElem?_append_right (Nat.le_refl _), Nat.sub_self,
      List.head?_eq_getElem?]
  · rw [hnext, hpushed, List.getElem?_append_right (Nat.le_refl _), Nat.sub_self,
      List.head?_eq_getElem?]
  · rw [← Option.map_eq_none_iff, hnext, hpushed, List.head?_eq_none_iff, List.self_eq_append_right]

end Link

/-- While at most `n` ids are outstanding, the device reads the ids in the order in which
`set_available` got them and `next_used` returns the elements in the order in which the device
pushed them, across any number of turns of the `u16` indices. -/
theorem rings_refine_fifo {n : ℕ} (hn : QueueSize n) (driverRing : ℕ → ℕ)
    (deviceRing : ℕ → UsedElem) {l : Link}
    (h : Transition.Reach Link.step (fun _ _ l' => l'.Outstanding n)
      (Link.init n driverRing deviceRing) l) : l.Delivered :=
  (Link.Fifo.of_reach hn h).1.delivered hn

/-- Three ids in rings of four slots, of which two come back in the other order, and then two more,
which go past the end of a ring. -/
theorem rings_refine_fifo_round :
    ((Transition.run Link.step (fun _ _ l' => l'.Outstanding 4)
      [.setAvailable 0, .setAvailable 2, .deviceRead, .deviceRead, .devicePush ⟨2, 24⟩,
        .setAvailable 1, .devicePush ⟨0, 8⟩, .nextUsed, .nextUsed, .deviceRead, .setAvailable 2,
        .setAvailable 3, .deviceRead, .deviceRead, .devicePush ⟨3, 24⟩, .devicePush ⟨1, 8⟩,
        .devicePush ⟨2, 24⟩, .nextUsed]
      (Link.init 4 (fun _ => 0) (fun _ => ⟨0, 0⟩))).get (by decide)).Delivered :=
  rings_refine_fifo ⟨2, by decide, rfl⟩ (fun _ => 0) (fun _ => ⟨0, 0⟩)
    (Transition.Reach.run_get _ (by decide))

end Fomos
