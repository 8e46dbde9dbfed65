import Mathlib
import Fomos.Library.Transition

/-!
# The stores of the apps

Every context hands out the same static slot for the store of the app that is called. `App::call`
moves the app's own store into the slot before the function runs and takes back what it leaves, so
the apps run as if each had a slot of its own.
-/
namespace Fomos

/-- The fields of `Context` that an app reads; its store is the static slot. -/
structure Context (I : Type) where
  version : ℕ
  startTime : ℕ
  pid : ℕ
  input : I

/-- The function of an app may do anything with the world, its context and the slot. -/
abbrev FuncType (W I B : Type) :=
  W → Context I → Option B → Int32 × W × Context I × Option B

structure App (W I B : Type) where
  func : FuncType W I B
  pid : ℕ
  store : Option B

/-- What the kernel itself reads and changes of the world. -/
structure Platform (W I : Type) where
  globalTimeMs : W → ℕ
  readInput : W → I
  stepInput : W → W

/-- A call of an app: what was given to its function and what the function left in the slot. -/
structure AppCall (B : Type) where
  app : ℕ
  pid : ℕ
  received : Option B
  left : Option B

variable {W I B : Type}

/-- `Context::new` -/
def Context.new (startTime : ℕ) (input : I) : Context I := ⟨1, startTime, 0, input⟩

/-- The variables of `App::call`. -/
structure Calling (W I B : Type) where
  app : App W I B
  arg : Context I
  slot : Option B
  world : W

namespace Calling

/-- `App::call` up to the call of the function. -/
def enter (c : Calling W I B) : Calling W I B :=
  let c := { c with slot := none }
  let c := { c with arg := { c.arg with pid := c.app.pid } }
  let selfStore := c.app.store
  let c := { c with app := { c.app with store := none } }
  { c with slot := selfStore }

def func (c : Calling W I B) : Int32 × Calling W I B :=
  let (res, world, arg, slot) := c.app.func c.world c.arg c.slot
  (res, { c with world := world, arg := arg, slot := slot })

/-- `App::call` after the function has returned. -/
def leave (c : Calling W I B) : Calling W I B :=
  { c with app := { c.app with store := c.slot }, slot := none }

/-- `App::call` -/
def call (c : Calling W I B) : Int32 × Calling W I B :=
  let (res, c) := c.enter.func
  (res, c.leave)

end Calling

/-- The app loop: while it runs a frame it has a snapshot of the input and goes through the apps.
The calls are kept as a history that no step reads. -/
structure AppLoop (W I B : Type) where
  world : W
  /-- The static `none`. -/
  slot : Option B
  apps : List (App W I B)
  frame : Option (I × ℕ)
  calls : List (AppCall B)

/-- A step of the loop, or anything that happens around it. -/
inductive AppLabel (W : Type)
  | env (f : W → W)
  | begin
  | call
  | finish

/-- The most elements that a `Vec` holds. -/
def vecMax : ℕ := 2 ^ 63 - 1

namespace AppLoop
variable {P : Platform W I}

/-- `App::new` for each function, with pids from `NEXT_ID`; a push on a full `Vec` panics. -/
def load : List (FuncType W I B) → ℕ → List (App W I B) → Option (List (App W I B))
  | [], _, apps => some apps
  | func :: funcs, nextId, apps =>
    if apps.length < vecMax then
      load funcs ((nextId + 1) % 2 ^ 64) (apps ++ [⟨func, nextId, none⟩])
    else none

def boot (funcs : List (FuncType W I B)) (world : W) : Option (AppLoop W I B) :=
  (load funcs 0 []).map fun apps => ⟨world, none, apps, none, []⟩

/-- The call of the app at position `i` in a frame with this snapshot. -/
def callApp (P : Platform W I) (input : I) (i : ℕ) (s : AppLoop W I B) (app : App W I B) :
    AppLoop W I B :=
  let c : Calling W I B := ⟨app, .new (P.globalTimeMs s.world) input, s.slot, s.world⟩
  let (_, after) := c.call
  { s with
    world := after.world
    slot := after.slot
    apps := s.apps.set i after.app
    frame := some (input, i + 1)
    calls := s.calls ++ [⟨i, c.enter.arg.pid, c.enter.slot, c.enter.func.2.slot⟩] }

def step (P : Platform W I) (l : AppLabel W) (s : AppLoop W I B) : Option (AppLoop W I B) :=
  match l, s.frame with
  | .env f, _ => some { s with world := f s.world }
  | .begin, none => some { s with frame := some (P.readInput s.world, 0) }
  | .call, some (input, i) => s.apps[i]?.map (s.callApp P input i)
  | .finish, some (_, i) =>
    if i = s.apps.length then some { s with world := P.stepInput s.world, frame := none } else none
  | _, _ => none

end AppLoop

/-- The loop with a private store for each app and no slot. -/
structure PrivateLoop (W I B : Type) where
  world : W
  apps : List (App W I B)
  frame : Option (I × ℕ)
  calls : List (AppCall B)

namespace PrivateLoop

/-- A call hands the app its own store and keeps what the app leaves for it. -/
def callApp (P : Platform W I) (input : I) (i : ℕ) (s : PrivateLoop W I B) (app : App W I B) :
    PrivateLoop W I B :=
  let arg := { Context.new (P.globalTimeMs s.world) input with pid := app.pid }
  let (_, world, _, left) := app.func s.world arg app.store
  { world := world
    apps := s.apps.set i { app with store := left }
    frame := some (input, i + 1)
    calls := s.calls ++ [⟨i, app.pid, app.store, left⟩] }

def step (P : Platform W I) (l : AppLabel W) (s : PrivateLoop W I B) :
    Option (PrivateLoop W I B) :=
  match l, s.frame with
  | .env f, _ => some { s with world := f s.world }
  | .begin, none => some { s with frame := some (P.readInput s.world, 0) }
  | .call, some (input, i) => s.apps[i]?.map (s.callApp P input i)
  | .finish, some (_, i) =>
    if i = s.apps.length then some { s with world := P.stepInput s.world, frame := none } else none
  | _, _ => none

end PrivateLoop

/-- Forget the slot. -/
def AppLoop.forget (s : AppLoop W I B) : PrivateLoop W I B := ⟨s.world, s.apps, s.frame, s.calls⟩

/-- The calls of one app, the oldest first. -/
def callsOf (i : ℕ) (calls : List (AppCall B)) : List (AppCall B) :=
  calls.filter fun c => c.app = i

/-- What an app left at the call before its `k`th. -/
def leftBefore (mine : List (AppCall B)) : ℕ → Option B
  | 0 => none
  | k + 1 => mine[k]?.bind AppCall.left

/-- Each app is called with its own pid and with what it left at its call before. -/
def OwnStores (calls : List (AppCall B)) : Prop :=
  ∀ (i k : ℕ) (c : AppCall B), (callsOf i calls)[k]? = some c →
    c.pid = i ∧ c.received = leftBefore (callsOf i calls) k

namespace AppLoop
variable {P : Platform W I} {s s' : AppLoop W I B} {l : AppLabel W}

/-- Every step is one of the loop with private stores. -/
theorem forget_step (l : AppLabel W) (s : AppLoop W I B) :
    (s.step P l).map forget = s.forget.step P l := by
  obtain ⟨world, slot, apps, frame, calls⟩ := s
  cases l with
  | env f => rfl
  | begin => cases frame <;> rfl
  | call =>
    cases frame with
    | none => rfl
    | some at' =>
      change (Option.map _ apps[at'.2]?).map forget = Option.map _ apps[at'.2]?
      rw [Option.map_map]
      rfl
  | finish =>
    cases frame with
    | none => rfl
    | some at' =>
      change Option.map forget (if at'.2 = apps.length then _ else _) =
        if at'.2 = apps.length then _ else _
      split <;> rfl

/-- The slot is empty, and each app has its own pid and what it left at its last call. -/
structure Isolated (s : AppLoop W I B) : Prop where
  slot : s.slot = none
  pids : ∀ (i : ℕ) (app : App W I B), s.apps[i]? = some app → app.pid = i
  stores : ∀ (i : ℕ) (app : App W I B), s.apps[i]? = some app →
    app.store = (callsOf i s.calls).getLast?.bind AppCall.left
  calls : OwnStores s.calls

theorem load_pids {funcs : List (FuncType W I B)} {nextId : ℕ} {apps loaded : List (App W I B)}
    (h : load funcs nextId apps = some loaded) (hnext : nextId = apps.length)
    (happs : ∀ (i : ℕ) (app : App W I B), apps[i]? = some app → app.pid = i ∧ app.store = none) :
    ∀ (i : ℕ) (app : App W I B), loaded[i]? = some app → app.pid = i ∧ app.store = none := by
  induction funcs generalizing nextId apps with
  | nil =>
    cases h
    exact happs
  | cons func funcs ih =>
    rw [load] at h
    split at h
    · rename_i hlen
      unfold vecMax at hlen
      refine ih h ?_ fun i app happ => ?_
      · rw [List.length_append, List.length_singleton]
        omega
      · obtain hlt | hge := Nat.lt_or_ge i apps.length
        · rw [List.getElem?_append_left hlt] at happ
          exact happs i app happ
        · rw [List.getElem?_append_right hge] at happ
          obtain ⟨hi, happ⟩ := List.getElem?_eq_some_iff.mp happ
          rw [List.getElem_singleton] at happ
          rw [List.length_singleton] at hi
          subst happ
          have hpid : nextId = i := by omega
          exact ⟨hpid, rfl⟩
    · cases h

theorem callsOf_append (i : ℕ) (calls : List (AppCall B)) (c : AppCall B) :
    callsOf i (calls ++ [c]) = if c.app = i then callsOf i calls ++ [c] else callsOf i calls := by
  unfold callsOf
  rw [List.filter_append]
  split <;> simp [*]

theorem leftBefore_append {mine : List (AppCall B)} {c : AppCall B} {k : ℕ} (hk : k ≤ mine.length) :
    leftBefore (mine ++ [c]) k = leftBefore mine k := by
  cases k with
  | zero => rfl
  | succ k => rw [leftBefore, leftBefore, List.getElem?_append_left hk]

theorem leftBefore_length (mine : List (AppCall B)) :
    leftBefore mine mine.length = mine.getLast?.bind AppCall.left := by
  cases mine with
  | nil => rfl
  | cons c mine => rw [List.getLast?_eq_getElem?]; rfl

namespace Isolated

theorem boot {funcs : List (FuncType W I B)} {world : W}
    (h : AppLoop.boot funcs world = some s) : Isolated s := by
  obtain ⟨apps, hload, rfl⟩ := Option.map_eq_some_iff.mp h
  have happs := load_pids hload rfl (by simp)
  exact ⟨rfl, fun i app happ => (happs i app happ).1, fun i app happ => (happs i app happ).2,
    fun i k c hc => by simp [callsOf] at hc⟩

/-- A call. -/
theorem callApp {input : I} {i : ℕ} {app : App W I B} (h : Isolated s)
    (happ : s.apps[i]? = some app) : Isolated (s.callApp P input i app) := by
  obtain ⟨hi, -⟩ := List.getElem?_eq_some_iff.mp happ
  let record : AppCall B := (⟨i, app.pid, app.store, (Calling.func (Calling.enter
    ⟨app, .new (P.globalTimeMs s.world) input, s.slot, s.world⟩)).2.slot⟩)
  have hcalls : (s.callApp P input i app).calls = s.calls ++ [record] := rfl
  have happs : (s.callApp P input i app).apps = s.apps.set i { app with store := record.left } :=
    rfl
  refine ⟨rfl, fun j app' happ' => ?_, fun j app' happ' => ?_, fun j k c hc => ?_⟩
  · rw [happs, List.getElem?_set] at happ'
    split at happ'
    · rename_i hij
      cases happ'
      exact hij ▸ h.pids i app happ
    · exact h.pids j app' happ'
  · rw [hcalls, callsOf_append]
    rw [happs, List.getElem?_set] at happ'
    split at happ'
    · rename_i hij
      cases happ'
      rw [if_pos hij, List.getLast?_concat, Option.bind_some]
    · rename_i hij
      rw [if_neg hij]
      exact h.stores j app' happ'
  · rw [hcalls, callsOf_append] at hc ⊢
    split
    · rename_i hij
      obtain rfl : i = j := hij
      rw [if_pos rfl] at hc
      obtain hlt | hge := Nat.lt_or_ge k (callsOf i s.calls).length
      · rw [List.getElem?_append_left hlt] at hc
        rw [leftBefore_append (Nat.le_of_lt hlt)]
        exact h.calls i k c hc
      · rw [List.getElem?_append_right hge, List.getElem?_singleton] at hc
        split at hc
        · rename_i hk
          cases hc
          obtain rfl : k = (callsOf i s.calls).length :=
            Nat.le_antisymm (Nat.sub_eq_zero_iff_le.mp hk) hge
          rw [leftBefore_append (Nat.le_refl _), leftBefore_length]
          exact ⟨h.pids i app happ, h.stores i app happ⟩
        · cases hc
    · rename_i hij
      rw [if_neg hij] at hc
      exact h.calls j k c hc

theorem step (h : Isolated s) (hstep : s.step P l = some s') : Isolated s' := by
  obtain ⟨world, slot, apps, frame, calls⟩ := s
  cases l with
  | env f =>
    cases hstep
    exact ⟨h.slot, h.pids, h.stores, h.calls⟩
  | begin =>
    cases frame with
    | none =>
      cases hstep
      exact ⟨h.slot, h.pids, h.stores, h.calls⟩
    | some at' => cases hstep
  | call =>
    cases frame with
    | none => cases hstep
    | some at' =>
      obtain ⟨app, happ, rfl⟩ := Option.map_eq_some_iff.mp hstep
      exact h.callApp happ
  | finish =>
    cases frame with
    | none => cases hstep
    | some at' =>
      simp only [AppLoop.step] at hstep
      split at hstep
      · cases hstep
        exact ⟨h.slot, h.pids, h.stores, h.calls⟩
      · cases hstep

end Isolated

/-- The app loop with its shared slot runs as if each app had a private store: each app is always
called with its own pid and with the store that it left itself. -/
theorem app_stores_private {funcs : List (FuncType W I B)} {world : W} {s₀ : AppLoop W I B}
    (P : Platform W I) (hboot : boot funcs world = some s₀) (ls : List (AppLabel W)) :
    (Transition.run (step P) (fun _ _ _ => True) ls s₀).map forget =
        Transition.run (PrivateLoop.step P) (fun _ _ _ => True) ls s₀.forget ∧
      ∀ s, Transition.run (step P) (fun _ _ _ => True) ls s₀ = some s →
        s.slot = none ∧ OwnStores s.calls := by
  refine ⟨Transition.run_map forget_step ls s₀, fun s hrun => ?_⟩
  have hs : Isolated s := (Transition.Reach.of_run .start hrun).invariant (.boot hboot)
    fun _ _ _ _ hs hstep _ => hs.step hstep
  exact ⟨hs.slot, hs.calls⟩

/-- An app that counts its calls in its store. -/
def counter : FuncType ℕ ℕ ℕ := fun world arg slot => (0, world, arg, some (slot.getD arg.pid + 1))

/-- A platform whose world is the time. -/
def clock : Platform ℕ ℕ := ⟨id, id, id⟩

theorem app_stores_private_counters :
    let s₀ := (boot [counter, counter] 0).get rfl
    let ls : List (AppLabel ℕ) := [.begin, .call, .call, .finish, .env (· + 1), .begin, .call]
    (Transition.run (step clock) (fun _ _ _ => True) ls s₀).map forget =
        Transition.run (PrivateLoop.step clock) (fun _ _ _ => True) ls s₀.forget ∧
      ∀ s, Transition.run (step clock) (fun _ _ _ => True) ls s₀ = some s →
        s.slot = none ∧ OwnStores s.calls :=
  app_stores_private clock (Option.some_get rfl).symm _

end AppLoop
end Fomos
