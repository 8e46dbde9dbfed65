import Mathlib
import Fomos.Library.Cells
import Fomos.Library.ReprC
import Fomos.Memory.Callers
import Fomos.Virtio.QueueMemory

/-!
# The start of a device

`Virtio::init` from the capabilities on: it resets the device, agrees on features with it, gives
every queue its pages and lets it run. The device is the state machine behind the registers of its
common configuration. How many queues it has, of which sizes, and which features it agrees to, is
a parameter. A run of `initDevice` is one of calls of the frame allocator.
-/
namespace Fomos
open ReprC (toBytes length_toBytes)

inductive DeviceType
  | input
  | gpu
  deriving DecidableEq, Repr

def virtioStatusAcknowledge : ℕ := 1
def virtioStatusDriver : ℕ := 2
def virtioStatusFeatureOk : ℕ := 8
def virtioStatusDriverOk : ℕ := 4

/-- What `init` writes to `driver_feature`. -/
def DeviceType.driverFeature : DeviceType → ℕ
  | .gpu => 0b11
  | .input => 0

/-- The registers of one queue. -/
structure QueueCfg where
  queueSize : ℕ
  queueEnable : ℕ
  queueDesc : ℕ
  queueDriver : ℕ
  queueDevice : ℕ
  deriving DecidableEq, Repr

/-- The registers that `init` uses. Those of a queue are the ones of the queue selected. -/
structure VirtioPciCommonCfg where
  driverFeature : ℕ
  numQueues : ℕ
  deviceStatus : ℕ
  queueSelect : ℕ
  queue : ℕ → QueueCfg

def VirtioPciCommonCfg.selected (cfg : VirtioPciCommonCfg) : QueueCfg := cfg.queue cfg.queueSelect

inductive CfgWrite
  | deviceStatus (status : ℕ)
  | driverFeature (features : ℕ)
  | queueSelect (q : ℕ)
  | queueDesc (addr : ℕ)
  | queueDriver (addr : ℕ)
  | queueDevice (addr : ℕ)
  | queueEnable (enable : ℕ)
  deriving DecidableEq, Repr

/-- What a device is. `nameSize` is the size that an input device reports for its name. -/
structure Backend where
  numQueues : ℕ
  queueSize : ℕ → ℕ
  accepts : ℕ → Bool
  nameSize : ℕ

namespace Backend
variable (b : Backend)

/-- The registers after a reset. -/
def reset : VirtioPciCommonCfg where
  driverFeature := 0
  numQueues := b.numQueues
  deviceStatus := 0
  queueSelect := 0
  queue q := ⟨b.queueSize q, 0, 0, 0, 0⟩

/-- A write of 0 to the status resets the device. It keeps `FEATURES_OK` only when it agrees. -/
def writeStatus (status : ℕ) (cfg : VirtioPciCommonCfg) : VirtioPciCommonCfg :=
  if status = 0 then b.reset
  else if status &&& virtioStatusFeatureOk ≠ 0 ∧ ¬b.accepts cfg.driverFeature then
    { cfg with deviceStatus := status ^^^ virtioStatusFeatureOk }
  else { cfg with deviceStatus := status }

def writeQueue (f : QueueCfg → QueueCfg) (cfg : VirtioPciCommonCfg) : VirtioPciCommonCfg :=
  { cfg with queue := Function.update cfg.queue cfg.queueSelect (f cfg.selected) }

def write : CfgWrite → VirtioPciCommonCfg → VirtioPciCommonCfg
  | .deviceStatus status, cfg => b.writeStatus status cfg
  | .driverFeature features, cfg => { cfg with driverFeature := features }
  | .queueSelect q, cfg => { cfg with queueSelect := q }
  | .queueDesc addr, cfg => writeQueue ({ · with queueDesc := addr }) cfg
  | .queueDriver addr, cfg => writeQueue ({ · with queueDriver := addr }) cfg
  | .queueDevice addr, cfg => writeQueue ({ · with queueDevice := addr }) cfg
  | .queueEnable enable, cfg => writeQueue ({ · with queueEnable := enable }) cfg

end Backend

/-- `Desc` in memory. -/
def Desc.bytes (d : Desc) : List (BitVec 8) :=
  toBytes 8 d.addr ++ toBytes 4 d.len ++ toBytes 2 d.flags ++ toBytes 2 d.next

/-- A device with its registers, what has been written to them, and the memory. -/
structure Bus where
  cfg : VirtioPciCommonCfg
  writes : List CfgWrite
  mem : ℕ → BitVec 8

namespace Bus

def write (b : Backend) (w : CfgWrite) (s : Bus) : Bus :=
  { s with cfg := b.write w s.cfg, writes := s.writes ++ [w] }

def store (addr : ℕ) (bytes : List (BitVec 8)) (s : Bus) : Bus :=
  { s with mem := Cells.store addr bytes s.mem }

end Bus

/-- The fields of `Virtio` that are new. -/
structure VirtioDriver where
  lastUsedIdx : Vector ℕ 256
  deviceType : DeviceType
  queuesFree : List QueueFreeDescs
  queueSelect : ℕ

namespace FrameCalls
variable {M : Type} (mapTo : Page → PhysFrame → ℕ → M → FrameCalls (Except MapToError Unit × M))
  (b : Backend)

/-- `create_identity_virt_from_phys(mapper, frame_allocator).unwrap().start_address()` -/
def identityPage (m : M) : FrameCalls (ℕ × M) := do
  let (page, m) ← createIdentityVirtFromPhys mapTo m
  let page ← unwrapOk page
  return (page.startAddress, m)

/-- The loop over the descriptors of a table, from `idesc` on. -/
def initDescs (descs : ℕ) : ℕ → ℕ → Bus → M → FrameCalls (Bus × M)
  | 0, _, s, m => pure (s, m)
  | count + 1, idesc, s, m => do
    let (addr, m) ← identityPage mapTo m
    let desc : Desc := ⟨addr, 4096, virtqDescFWrite, 0xffff⟩
    initDescs descs count (idesc + 1) (s.store (descs + sizeOfDesc * idesc) desc.bytes) m

/-- One round of the loop over the queues. -/
def setUpQueue (q : ℕ) (s : Bus) (m : M) : FrameCalls ((QueueFreeDescs × Bus) × M) := do
  let s := s.write b (.queueSelect q)
  let free := QueueFreeDescs.new s.cfg.selected.queueSize
  let (addr, m) ← identityPage mapTo m
  let s := s.write b (.queueDesc addr)
  let (s, m) ← initDescs mapTo s.cfg.selected.queueDesc s.cfg.selected.queueSize 0 s m
  let (addr, m) ← identityPage mapTo m
  let s := s.write b (.queueDriver addr)
  -- no interrupts from the device
  let s := s.store s.cfg.selected.queueDriver (toBytes 2 1)
  let (addr, m) ← identityPage mapTo m
  let s := s.write b (.queueDevice addr)
  return ((free, s.write b (.queueEnable 1)), m)

def setUpQueues : ℕ → ℕ → Bus → M → FrameCalls ((List QueueFreeDescs × Bus) × M)
  | 0, _, s, m => pure (([], s), m)
  | count + 1, q, s, m => do
    let ((free, s), m) ← setUpQueue mapTo b q s m
    let ((queues, s), m) ← setUpQueues count (q + 1) s m
    return ((free :: queues, s), m)

/-- The name that an input device reports is logged, which panics on a size past its bytes. -/
def logName : DeviceType → FrameCalls Unit
  | .input => if b.nameSize ≤ 128 then pure () else .panic
  | .gpu => pure ()

def initDevice (deviceType : DeviceType) (s : Bus) (m : M) :
    FrameCalls ((VirtioDriver × Bus) × M) := do
  let s := s.write b (.deviceStatus 0)
  let s := s.write b (.deviceStatus (s.cfg.deviceStatus ||| virtioStatusAcknowledge))
  let s := s.write b (.deviceStatus (s.cfg.deviceStatus ||| virtioStatusDriver))
  let s := s.write b (.driverFeature deviceType.driverFeature)
  let s := s.write b (.deviceStatus (s.cfg.deviceStatus ||| virtioStatusFeatureOk))
  if s.cfg.deviceStatus &&& virtioStatusFeatureOk = 0 then .panic
  else do
    let ((queuesFree, s), m) ← setUpQueues mapTo b s.cfg.numQueues 0 s m
    logName b deviceType
    let s := s.write b (.deviceStatus (s.cfg.deviceStatus ||| virtioStatusDriverOk))
    let driver : VirtioDriver :=
      { lastUsedIdx := .replicate 256 (2 ^ 16 - 1), deviceType, queuesFree, queueSelect := 0 }
    return ((driver, s.write b (.queueSelect 0)), m)

/-- A device that the loop of `kernel_main` initialises. -/
structure Found where
  backend : Backend
  deviceType : DeviceType
  cfg : VirtioPciCommonCfg

/-- What has become of a device. -/
structure Started where
  driver : VirtioDriver
  cfg : VirtioPciCommonCfg
  writes : List CfgWrite

/-- The devices one after the other. -/
def initDevices : List Found → (ℕ → BitVec 8) → M →
    FrameCalls ((List Started × (ℕ → BitVec 8)) × M)
  | [], mem, m => pure (([], mem), m)
  | d :: devices, mem, m => do
    let ((driver, s), m) ← initDevice mapTo d.backend d.deviceType ⟨d.cfg, [], mem⟩ m
    let ((started, mem), m) ← initDevices devices s.mem m
    return ((⟨driver, s.cfg, s.writes⟩ :: started, mem), m)

end FrameCalls

/-- What the driver may write to a device, and when: the status bits in their order, the features
before they are agreed on, the pages of a queue before it is enabled, and `DRIVER_OK` last. -/
def CfgWrite.Allowed (b : Backend) (cfg : VirtioPciCommonCfg) : CfgWrite → Prop
  | .deviceStatus status =>
    status = 0 ∨ (cfg.deviceStatus, status) ∈ [(0, 1), (1, 3), (3, 11)] ∨
      (cfg.deviceStatus, status) = (11, 15) ∧ ∀ q < b.numQueues, (cfg.queue q).queueEnable = 1
  | .driverFeature _ => cfg.deviceStatus = 3
  | .queueSelect _ => True
  | .queueDesc addr => SettingUp b cfg ∧ 16 ∣ addr
  | .queueDriver addr => SettingUp b cfg ∧ 2 ∣ addr
  | .queueDevice addr => SettingUp b cfg ∧ 4 ∣ addr
  | .queueEnable enable => SettingUp b cfg ∧ enable = 1
where
  SettingUp (b : Backend) (cfg : VirtioPciCommonCfg) : Prop :=
    cfg.deviceStatus = 11 ∧ cfg.queueSelect < b.numQueues ∧ cfg.selected.queueEnable = 0

namespace Backend

def replay (b : Backend) (cfg : VirtioPciCommonCfg) (ws : List CfgWrite) : VirtioPciCommonCfg :=
  ws.foldl (fun cfg w => b.write w cfg) cfg

/-- Every write is allowed where it is made. -/
def Conforms (b : Backend) : VirtioPciCommonCfg → List CfgWrite → Prop
  | _, [] => True
  | cfg, w :: ws => w.Allowed b cfg ∧ b.Conforms (b.write w cfg) ws

variable {b : Backend} {cfg : VirtioPciCommonCfg}

lemma replay_append (ws vs : List CfgWrite) :
    b.replay cfg (ws ++ vs) = b.replay (b.replay cfg ws) vs :=
  List.foldl_append

lemma conforms_append {ws vs : List CfgWrite} :
    b.Conforms cfg (ws ++ vs) ↔ b.Conforms cfg ws ∧ b.Conforms (b.replay cfg ws) vs := by
  induction ws generalizing cfg with
  | nil => simp [Conforms, replay]
  | cons w ws ih => simp only [List.cons_append, Conforms, ih, and_assoc, replay, List.foldl_cons]

end Backend

/-- The pages of a queue. -/
structure QueueArea where
  desc : ℕ
  buffers : List ℕ
  driver : ℕ
  device : ℕ

/-- The stores into a descriptor table from an entry on. -/
def storeDescs (descs : ℕ) : ℕ → List ℕ → (ℕ → BitVec 8) → ℕ → BitVec 8
  | _, [], mem => mem
  | idesc, addr :: addrs, mem =>
    storeDescs descs (idesc + 1) addrs
      (Cells.store (descs + sizeOfDesc * idesc)
        (Desc.bytes ⟨addr, 4096, virtqDescFWrite, 0xffff⟩) mem)

namespace QueueArea

def pages (area : QueueArea) : List ℕ := area.desc :: area.buffers ++ [area.driver, area.device]

def store (area : QueueArea) (mem : ℕ → BitVec 8) : ℕ → BitVec 8 :=
  Cells.store area.driver (toBytes 2 1) (storeDescs area.desc 0 area.buffers mem)

def setUp (q : ℕ) (area : QueueArea) : List CfgWrite :=
  [.queueSelect q, .queueDesc area.desc, .queueDriver area.driver, .queueDevice area.device,
    .queueEnable 1]

/-- The writes for the queues from `q` on. -/
def setUpAll : ℕ → List QueueArea → List CfgWrite
  | _, [] => []
  | q, area :: areas => area.setUp q ++ setUpAll (q + 1) areas

def storeAll (areas : List QueueArea) (mem : ℕ → BitVec 8) : ℕ → BitVec 8 :=
  areas.foldl (fun mem area => area.store mem) mem

variable {b : Backend} {cfg : VirtioPciCommonCfg} {q : ℕ} {area : QueueArea}
  {areas : List QueueArea}

lemma replay_setUp : b.replay cfg (area.setUp q) =
    { cfg with
      queueSelect := q
      queue := Function.update cfg.queue q
        ⟨(cfg.queue q).queueSize, 1, area.desc, area.driver, area.device⟩ } := by
  simp [Backend.replay, setUp, Backend.write, Backend.writeQueue, VirtioPciCommonCfg.selected]

lemma conforms_setUp (hstatus : cfg.deviceStatus = 11) (hq : q < b.numQueues)
    (henable : (cfg.queue q).queueEnable = 0) (hpages : ∀ a ∈ area.pages, 4096 ∣ a) :
    b.Conforms cfg (area.setUp q) := by
  have hdvd : ∀ {a n}, a ∈ area.pages → n ∣ 4096 → n ∣ a := fun ha hn => hn.trans (hpages _ ha)
  simp [Backend.Conforms, setUp, CfgWrite.Allowed, CfgWrite.Allowed.SettingUp, Backend.write,
    Backend.writeQueue, VirtioPciCommonCfg.selected, hstatus, hq, henable,
    hdvd (a := area.desc) (n := 16) (by simp [pages]) (by decide),
    hdvd (a := area.driver) (n := 2) (by simp [pages]) (by decide),
    hdvd (a := area.device) (n := 4) (by simp [pages]) (by decide)]

@[simp] lemma queueSize_setUp (k : ℕ) :
    ((b.replay cfg (area.setUp q)).queue k).queueSize = (cfg.queue k).queueSize := by
  rw [replay_setUp]
  by_cases hk : k = q
  · subst hk
    simp
  · simp [Function.update_of_ne hk]

/-- The registers after the queues from `q` on are set up. -/
lemma replay_setUpAll (areas : List QueueArea) (q : ℕ) (cfg : VirtioPciCommonCfg) :
    (b.replay cfg (setUpAll q areas)).deviceStatus = cfg.deviceStatus ∧
      (b.replay cfg (setUpAll q areas)).driverFeature = cfg.driverFeature ∧
      ∀ k, (b.replay cfg (setUpAll q areas)).queue k =
        if h : q ≤ k ∧ k < q + areas.length then
          ⟨(cfg.queue k).queueSize, 1, areas[k - q].desc, areas[k - q].driver,
            areas[k - q].device⟩
        else cfg.queue k := by
  induction areas generalizing q cfg with
  | nil =>
    refine ⟨rfl, rfl, fun k => ?_⟩
    rw [dif_neg (by simp only [List.length_nil]; omega)]
    rfl
  | cons area areas ih =>
    rw [setUpAll, Backend.replay_append, replay_setUp]
    obtain ⟨hstatus, hfeature, hqueue⟩ := ih (q + 1) { cfg with
      queueSelect := q
      queue := Function.update cfg.queue q
        ⟨(cfg.queue q).queueSize, 1, area.desc, area.driver, area.device⟩ }
    refine ⟨hstatus, hfeature, fun k => ?_⟩
    rw [hqueue]
    simp only [List.length_cons]
    by_cases hk : q = k
    · subst hk
      rw [dif_neg (by omega), dif_pos (by omega), Function.update_self]
      simp
    · rw [Function.update_of_ne (Ne.symm hk)]
      by_cases hin : q + 1 ≤ k ∧ k < q + 1 + areas.length
      · rw [dif_pos hin, dif_pos (by omega)]
        obtain ⟨j, rfl⟩ := Nat.exists_eq_add_of_le hin.1
        have hj : q + 1 + j - q = j + 1 := by omega
        simp [hj]
      · rw [dif_neg hin, dif_neg (by omega)]

lemma conforms_setUpAll (hstatus : cfg.deviceStatus = 11) (hq : q + areas.length ≤ b.numQueues)
    (henable : ∀ k, q ≤ k → (cfg.queue k).queueEnable = 0)
    (hpages : ∀ area ∈ areas, ∀ a ∈ area.pages, 4096 ∣ a) :
    b.Conforms cfg (setUpAll q areas) := by
  induction areas generalizing q cfg with
  | nil => trivial
  | cons area areas ih =>
    obtain ⟨hfirst, hrest⟩ := List.forall_mem_cons.mp hpages
    rw [List.length_cons] at hq
    rw [setUpAll, Backend.conforms_append, replay_setUp]
    refine ⟨conforms_setUp hstatus (by omega) (henable q le_rfl) hfirst, ?_⟩
    refine ih hstatus (by omega) (fun k hk => ?_) hrest
    have hne : k ≠ q := by omega
    simp only [Function.update_of_ne hne]
    exact henable k (by omega)

end QueueArea

/-- These pages are, in order, those of frames that the allocator gave. -/
def Took (replies : List (Option PhysFrame)) (addrs : List ℕ) : Prop :=
  ∃ frames : List PhysFrame, (frames.map some).Sublist replies ∧
    addrs.map some = frames.map fun f => VirtAddr.new f.startAddress

namespace Took
variable {replies replies' : List (Option PhysFrame)} {addrs addrs' : List ℕ}

lemma nil : Took replies [] := ⟨[], by simp, rfl⟩

lemma mono (h : Took replies addrs) (hsub : replies.Sublist replies') : Took replies' addrs := by
  obtain ⟨frames, hframes, haddrs⟩ := h
  exact ⟨frames, hframes.trans hsub, haddrs⟩

lemma append (h : Took replies addrs) (h' : Took replies' addrs') :
    Took (replies ++ replies') (addrs ++ addrs') := by
  obtain ⟨frames, hsub, haddrs⟩ := h
  obtain ⟨frames', hsub', haddrs'⟩ := h'
  refine ⟨frames ++ frames', ?_, ?_⟩
  · rw [List.map_append]
    exact hsub.append hsub'
  · rw [List.map_append, List.map_append, haddrs, haddrs']

lemma dvd (h : Took replies addrs) : ∀ addr ∈ addrs, 4096 ∣ addr := by
  obtain ⟨frames, -, haddrs⟩ := h
  intro addr haddr
  have hsome : some addr ∈ frames.map fun f => VirtAddr.new f.startAddress := by
    rw [← haddrs]
    exact List.mem_map_of_mem haddr
  obtain ⟨f, -, hf⟩ := List.mem_map.mp hsome
  have haligned := f.aligned
  unfold VirtAddr.new at hf
  split at hf
  · cases hf
    exact haligned
  · split at hf
    · cases hf
      omega
    · cases hf

end Took

namespace FrameCalls
variable {M : Type} {mapTo : Page → PhysFrame → ℕ → M → FrameCalls (Except MapToError Unit × M)}
  {serve : BootInfoFrameAllocator → Option (Option PhysFrame × BootInfoFrameAllocator)}
  {a : BootInfoFrameAllocator} {b : Backend} {m m' : M} {s s' : Bus}

/-- The page is that of the frame that the allocator gave first. -/
lemma createIdentityVirtFromPhys_took :
    Calls.Ensures serve (createIdentityVirtFromPhys mapTo m) fun rs x =>
      ∀ page, x.1 = .ok page → Took rs [page.startAddress] := by
  refine .bind ensures_take ?_
  rintro _ frame rfl
  refine .bind (ensures_unwrap _) ?_
  rintro _ start ⟨rfl, hstart⟩
  refine .bind .always ?_
  rintro rs ⟨result, m₁⟩ -
  refine .ret fun page hpage => ?_
  obtain rfl : Page.containingAddress start = page := by
    cases result with
    | error e => cases hpage
    | ok u =>
      cases hpage
      rfl
  have htook : Took [some frame] [start] := ⟨[frame], .refl _, by simp [hstart]⟩
  have hdvd : 4096 ∣ start := htook.dvd start (by simp)
  refine ⟨[frame], by simp, ?_⟩
  simp [hstart, Page.containingAddress, Nat.div_mul_cancel hdvd]

lemma identityPage_took :
    Calls.Ensures serve (identityPage mapTo m) fun rs x => Took rs [x.1] := by
  refine .bind createIdentityVirtFromPhys_took ?_
  rintro rs ⟨result, m₁⟩ hpage
  cases result with
  | error e => exact .panic
  | ok page =>
    refine .ret ?_
    rw [List.append_nil]
    exact hpage page rfl

/-- A program that goes on with a page. -/
lemma identityPage_bind {α : Type} {f : ℕ × M → FrameCalls α} {x : α}
    (h : ((identityPage mapTo m >>= f).run serve a).result = some x) :
    ∃ addr m' a', ((f (addr, m')).run serve a').result = some x ∧
      ∀ {addrs}, Took ((f (addr, m')).run serve a').replies addrs →
        Took ((identityPage mapTo m >>= f).run serve a).replies (addr :: addrs) := by
  obtain ⟨⟨addr, m'⟩, hpage, hrest, hreplies⟩ := Calls.run_bind_some h
  refine ⟨addr, m', _, hrest, fun htook => ?_⟩
  rw [hreplies]
  exact (identityPage_took _ _ hpage).append htook

lemma initDescs_run {descs count idesc : ℕ}
    (h : ((initDescs mapTo descs count idesc s m).run serve a).result = some (s', m')) :
    ∃ addrs : List ℕ, addrs.length = count ∧
      s' = { s with mem := storeDescs descs idesc addrs s.mem } ∧
      Took ((initDescs mapTo descs count idesc s m).run serve a).replies addrs := by
  induction count generalizing idesc s m a with
  | zero =>
    cases h
    exact ⟨[], rfl, rfl, .nil⟩
  | succ count ih =>
    obtain ⟨addr, m₁, a₁, hrest, htook⟩ := identityPage_bind h
    obtain ⟨addrs, hlen, hs', hrest⟩ := ih hrest
    exact ⟨addr :: addrs, congrArg Nat.succ hlen, hs', htook hrest⟩

/-- What a round of the loop over the queues leaves. -/
lemma setUpQueue_run {q : ℕ} {free : QueueFreeDescs}
    (h : ((setUpQueue mapTo b q s m).run serve a).result = some ((free, s'), m')) :
    ∃ area : QueueArea, area.buffers.length = (s.cfg.queue q).queueSize ∧
      free = .new (s.cfg.queue q).queueSize ∧
      s' = ⟨b.replay s.cfg (area.setUp q), s.writes ++ area.setUp q, area.store s.mem⟩ ∧
      Took ((setUpQueue mapTo b q s m).run serve a).replies area.pages := by
  unfold setUpQueue at h ⊢
  obtain ⟨desc, m₁, a₁, hrest, htook₁⟩ := identityPage_bind h
  obtain ⟨⟨s₁, m₂⟩, hdescs, hrest₂, hreplies⟩ := Calls.run_bind_some hrest
  obtain ⟨buffers, hlen, rfl, htook₂⟩ := initDescs_run hdescs
  obtain ⟨driver, m₃, a₃, hrest₃, htook₃⟩ := identityPage_bind hrest₂
  obtain ⟨device, m₄, a₄, hrest₄, htook₄⟩ := identityPage_bind hrest₃
  cases hrest₄
  refine ⟨⟨desc, buffers, driver, device⟩, ?_, ?_, ?_, ?_⟩
  · simpa [Bus.write, Backend.write, Backend.writeQueue, VirtioPciCommonCfg.selected] using hlen
  · simp [Bus.write, Backend.write, VirtioPciCommonCfg.selected]
  · simp [Bus.write, Bus.store, Backend.write, Backend.writeQueue, Backend.replay,
      VirtioPciCommonCfg.selected, QueueArea.setUp, QueueArea.store]
  · refine htook₁ ?_
    rw [hreplies]
    exact htook₂.append (htook₃ (htook₄ .nil))

lemma setUpQueues_run {count q : ℕ} {queues : List QueueFreeDescs}
    (h : ((setUpQueues mapTo b count q s m).run serve a).result = some ((queues, s'), m')) :
    ∃ areas : List QueueArea, areas.length = count ∧
      (∀ k area, areas[k]? = some area →
        area.buffers.length = (s.cfg.queue (q + k)).queueSize) ∧
      queues = (List.range' q count).map (fun k => .new (s.cfg.queue k).queueSize) ∧
      s' = ⟨b.replay s.cfg (QueueArea.setUpAll q areas), s.writes ++ QueueArea.setUpAll q areas,
        QueueArea.storeAll areas s.mem⟩ ∧
      Took ((setUpQueues mapTo b count q s m).run serve a).replies
        (areas.flatMap QueueArea.pages) := by
  induction count generalizing q s m a queues with
  | zero =>
    cases h
    exact ⟨[], rfl, by simp, rfl, by simp [QueueArea.setUpAll, QueueArea.storeAll, Backend.replay],
      .nil⟩
  | succ count ih =>
    unfold setUpQueues at h ⊢
    obtain ⟨⟨⟨free, s₁⟩, m₁⟩, hfirst, hrest, hreplies⟩ := Calls.run_bind_some h
    obtain ⟨⟨⟨queues', s₂⟩, m₂⟩, hqueues, hret, hreplies'⟩ := Calls.run_bind_some hrest
    cases hret
    obtain ⟨area, hsize, rfl, rfl, htook⟩ := setUpQueue_run hfirst
    obtain ⟨areas, hlen, hsizes, rfl, rfl, htooks⟩ := ih hqueues
    refine ⟨area :: areas, congrArg Nat.succ hlen, fun k x hk => ?_, ?_, ?_, ?_⟩
    · cases k with
      | zero =>
        cases hk
        exact hsize
      | succ k =>
        have hx := hsizes k x hk
        rwa [QueueArea.queueSize_setUp, Nat.add_assoc, Nat.add_comm 1 k] at hx
    · simp only [List.range'_succ, List.map_cons, QueueArea.queueSize_setUp]
    · simp [QueueArea.setUpAll, QueueArea.storeAll, Backend.replay_append]
    · rw [hreplies, hreplies']
      exact htook.append (htooks.mono (List.sublist_append_left _ _))

end FrameCalls

/-- How a device stands that runs: it has agreed on the features, and each queue is enabled over
its own pages. -/
structure Live (b : Backend) (deviceType : DeviceType) (driver : VirtioDriver)
    (cfg : VirtioPciCommonCfg) (areas : List QueueArea) : Prop where
  status : cfg.deviceStatus = 15
  feature : cfg.driverFeature = deviceType.driverFeature
  agreed : b.accepts deviceType.driverFeature = true
  named : deviceType = .input → b.nameSize ≤ 128
  select : cfg.queueSelect = 0 ∧ driver.queueSelect = 0
  length : areas.length = b.numQueues
  queue : ∀ q area, areas[q]? = some area →
    area.buffers.length = b.queueSize q ∧
      cfg.queue q = ⟨b.queueSize q, 1, area.desc, area.driver, area.device⟩
  free : driver.queuesFree = (List.range b.numQueues).map fun q => .new (b.queueSize q)
  /-- No ring has moved yet. -/
  lastUsed : ∀ i (h : i < 256), driver.lastUsedIdx[i] = 2 ^ 16 - 1

namespace FrameCalls
variable {M : Type} {mapTo : Page → PhysFrame → ℕ → M → FrameCalls (Except MapToError Unit × M)}
  {serve : BootInfoFrameAllocator → Option (Option PhysFrame × BootInfoFrameAllocator)}
  {a : BootInfoFrameAllocator} {b : Backend} {m m' : M} {s s' : Bus} {deviceType : DeviceType}
  {driver : VirtioDriver}

/-- The writes up to `FEATURES_OK`. -/
def agree (features : ℕ) : List CfgWrite :=
  [.deviceStatus 0, .deviceStatus 1, .deviceStatus 3, .driverFeature features, .deviceStatus 11]

lemma replay_agree (features : ℕ) (cfg : VirtioPciCommonCfg) : b.replay cfg (agree features) =
    { b.reset with
      driverFeature := features, deviceStatus := if b.accepts features then 11 else 3 } := by
  by_cases h : b.accepts features <;>
    simp [Backend.replay, agree, Backend.write, Backend.writeStatus, Backend.reset,
      virtioStatusFeatureOk, h]

lemma conforms_agree (features : ℕ) (cfg : VirtioPciCommonCfg) :
    b.Conforms cfg (agree features) := by
  simp [Backend.Conforms, agree, CfgWrite.Allowed, Backend.write, Backend.writeStatus,
    Backend.reset, virtioStatusFeatureOk]

/-- The status is read back before each bit. -/
lemma writes_agree (s : Bus) (features : ℕ) :
    let s₁ := s.write b (.deviceStatus 0)
    let s₂ := s₁.write b (.deviceStatus (s₁.cfg.deviceStatus ||| virtioStatusAcknowledge))
    let s₃ := s₂.write b (.deviceStatus (s₂.cfg.deviceStatus ||| virtioStatusDriver))
    let s₄ := s₃.write b (.driverFeature features)
    s₄.write b (.deviceStatus (s₄.cfg.deviceStatus ||| virtioStatusFeatureOk)) =
      ⟨b.replay s.cfg (agree features), s.writes ++ agree features, s.mem⟩ := by
  simp [Bus.write, Backend.replay, agree, Backend.write, Backend.writeStatus, Backend.reset,
    virtioStatusAcknowledge, virtioStatusDriver, virtioStatusFeatureOk]

/-- The last writes. -/
def letRun : List CfgWrite := [.deviceStatus 15, .queueSelect 0]

lemma replay_letRun {cfg : VirtioPciCommonCfg} (h : b.accepts cfg.driverFeature = true) :
    b.replay cfg letRun = { cfg with deviceStatus := 15, queueSelect := 0 } := by
  simp [Backend.replay, letRun, Backend.write, Backend.writeStatus, h]

lemma conforms_letRun {cfg : VirtioPciCommonCfg} (hstatus : cfg.deviceStatus = 11)
    (henable : ∀ q < b.numQueues, (cfg.queue q).queueEnable = 1) : b.Conforms cfg letRun := by
  refine ⟨.inr (.inr ⟨by rw [hstatus], henable⟩), trivial, trivial⟩

lemma logName_some {u : Unit} (h : ((logName b deviceType).run serve a).result = some u) :
    deviceType = .input → b.nameSize ≤ 128 := by
  rintro rfl
  by_contra hlong
  rw [logName, if_neg hlong] at h
  cases h

lemma initDevice_run
    (h : ((initDevice mapTo b deviceType s m).run serve a).result = some ((driver, s'), m')) :
    ∃ areas : List QueueArea, Live b deviceType driver s'.cfg areas ∧
      (∃ ws, s'.writes = s.writes ++ ws ∧ b.Conforms s.cfg ws ∧ s'.cfg = b.replay s.cfg ws) ∧
      s'.mem = QueueArea.storeAll areas s.mem ∧
      Took ((initDevice mapTo b deviceType s m).run serve a).replies
        (areas.flatMap QueueArea.pages) := by
  unfold initDevice at h ⊢
  have hagree := writes_agree (b := b) s deviceType.driverFeature
  simp only at h hagree ⊢
  rw [hagree] at h ⊢
  obtain ⟨cfg, hcfg⟩ : ∃ c, b.replay s.cfg (agree deviceType.driverFeature) = c := ⟨_, rfl⟩
  have hagreed := hcfg.symm.trans (replay_agree ..)
  rw [hcfg] at h ⊢
  dsimp only at h ⊢
  cases haccepts : b.accepts deviceType.driverFeature with
  | false =>
    have hoff : cfg.deviceStatus &&& virtioStatusFeatureOk = 0 := by
      simp [hagreed, haccepts, virtioStatusFeatureOk]
    rw [if_pos hoff] at h
    cases h
  | true =>
    rw [haccepts, if_pos rfl] at hagreed
    have hready : cfg.deviceStatus = 11 := by rw [hagreed]
    have hon : ¬cfg.deviceStatus &&& virtioStatusFeatureOk = 0 := by
      simp [hready, virtioStatusFeatureOk]
    rw [if_neg hon] at h ⊢
    obtain ⟨⟨⟨queues, s₁⟩, m₁⟩, hqueues, hrest, hreplies⟩ := Calls.run_bind_some h
    obtain ⟨u, hname, hret, -⟩ := Calls.run_bind_some hrest
    obtain ⟨areas, hlen, hsizes, rfl, rfl, htook⟩ := setUpQueues_run hqueues
    cases hret
    obtain ⟨hstatus, hfeature, hqueue⟩ := QueueArea.replay_setUpAll (b := b) areas 0 cfg
    have hnum : cfg.numQueues = b.numQueues := by
      rw [hagreed]
      rfl
    have hreset : ∀ k, cfg.queue k = ⟨b.queueSize k, 0, 0, 0, 0⟩ := by
      rw [hagreed]
      exact fun _ => rfl
    rw [hnum] at hlen
    have henabled : ∀ q area, areas[q]? = some area →
        (b.replay cfg (QueueArea.setUpAll 0 areas)).queue q =
          ⟨b.queueSize q, 1, area.desc, area.driver, area.device⟩ := by
      intro q area hq
      obtain ⟨hlt, rfl⟩ := List.getElem?_eq_some_iff.mp hq
      rw [hqueue, dif_pos ⟨Nat.zero_le q, by omega⟩, hreset]
      rfl
    have hlast : b.accepts (b.replay cfg (QueueArea.setUpAll 0 areas)).driverFeature = true := by
      rw [hfeature, hagreed]
      exact haccepts
    have hwritten : (b.replay cfg (QueueArea.setUpAll 0 areas)).deviceStatus |||
        virtioStatusDriverOk = 15 := by
      simp [hstatus, hready, virtioStatusDriverOk]
    rw [hreplies]
    simp only [Bus.write, hwritten]
    have hfinal : b.write (.queueSelect 0) (b.write (.deviceStatus 15)
        (b.replay cfg (QueueArea.setUpAll 0 areas))) = _ := replay_letRun hlast
    refine ⟨areas, ?_, ⟨agree deviceType.driverFeature ++ (QueueArea.setUpAll 0 areas ++ letRun),
      ?_, ?_, ?_⟩, rfl, ?_⟩
    · rw [hfinal]
      exact {
        status := rfl
        feature := by rw [hfeature, hagreed]
        agreed := haccepts
        named := logName_some hname
        select := ⟨rfl, rfl⟩
        length := hlen
        queue := fun q area hq => by
          have hsize := hsizes q area hq
          rw [Nat.zero_add, hreset] at hsize
          exact ⟨hsize, henabled q area hq⟩
        free := by simp only [hreset, hnum, List.range_eq_range']
        lastUsed := fun i hi => Vector.getElem_replicate hi }
    · simp [letRun]
    · rw [Backend.conforms_append, hcfg, Backend.conforms_append]
      refine ⟨conforms_agree .., QueueArea.conforms_setUpAll hready (by omega)
        (fun k _ => by rw [hreset]) fun area harea addr haddr =>
          htook.dvd addr (List.mem_flatMap.mpr ⟨area, harea, haddr⟩), ?_⟩
      refine conforms_letRun (hstatus.trans hready) fun q hq => ?_
      rw [henabled q areas[q] (List.getElem?_eq_getElem (by omega))]
    · rw [Backend.replay_append, hcfg, Backend.replay_append]
      rfl
    · exact htook.mono (List.sublist_append_left _ _)

end FrameCalls

@[simp] lemma Desc.length_bytes (d : Desc) : d.bytes.length = sizeOfDesc := by
  simp [Desc.bytes, sizeOfDesc]

section Memory
variable {descs idesc x : ℕ} {addrs : List ℕ} {mem : ℕ → BitVec 8}

lemma storeDescs_outside
    (h : x < descs + sizeOfDesc * idesc ∨ descs + sizeOfDesc * (idesc + addrs.length) ≤ x) :
    storeDescs descs idesc addrs mem x = mem x := by
  induction addrs generalizing idesc mem with
  | nil => rfl
  | cons addr addrs ih =>
    rw [List.length_cons] at h
    have hout : x < descs + sizeOfDesc * idesc ∨
        descs + sizeOfDesc * idesc + sizeOfDesc ≤ x := by
      unfold sizeOfDesc at h ⊢
      omega
    rw [storeDescs, ih (by unfold sizeOfDesc at h ⊢; omega),
      Cells.store_outside (by simpa using hout)]

/-- Each entry of a table is as it was stored. -/
lemma load_storeDescs {k : ℕ} (hk : k < addrs.length) :
    Cells.load (storeDescs descs idesc addrs mem) (descs + sizeOfDesc * (idesc + k)) sizeOfDesc =
      Desc.bytes ⟨addrs[k], 4096, virtqDescFWrite, 0xffff⟩ := by
  induction addrs generalizing idesc mem k with
  | nil => cases hk
  | cons addr addrs ih =>
    rw [storeDescs]
    cases k with
    | zero =>
      have hload := Cells.load_store (descs + sizeOfDesc * idesc)
        (Desc.bytes ⟨addr, 4096, virtqDescFWrite, 0xffff⟩) mem
      rw [Desc.length_bytes] at hload
      rw [Nat.add_zero]
      refine (Cells.load_congr fun i hi => ?_).trans hload
      refine storeDescs_outside (.inl ?_)
      unfold sizeOfDesc at hi ⊢
      omega
    | succ k =>
      have hrest := @ih (idesc + 1) (Cells.store (descs + sizeOfDesc * idesc)
        (Desc.bytes ⟨addr, 4096, virtqDescFWrite, 0xffff⟩) mem) k (Nat.lt_of_succ_lt_succ hk)
      rw [Nat.add_assoc, Nat.add_comm 1 k] at hrest
      exact hrest

end Memory

namespace QueueArea

/-- The table and the flags of the avail ring stand in the memory. -/
structure Stored (area : QueueArea) (mem : ℕ → BitVec 8) : Prop where
  desc : ∀ k (h : k < area.buffers.length),
    Cells.load mem (area.desc + sizeOfDesc * k) sizeOfDesc =
      Desc.bytes ⟨area.buffers[k], 4096, virtqDescFWrite, 0xffff⟩
  flags : Cells.load mem area.driver 2 = toBytes 2 1

/-- The cells that the set-up of a queue writes. -/
def Cell (area : QueueArea) (x : ℕ) : Prop :=
  (area.desc ≤ x ∧ x < area.desc + sizeOfDesc * area.buffers.length) ∨
    area.driver ≤ x ∧ x < area.driver + 2

variable {area other : QueueArea} {areas : List QueueArea} {mem : ℕ → BitVec 8}

lemma store_outside {x : ℕ} (h : ¬area.Cell x) : area.store mem x = mem x := by
  unfold Cell at h
  push Not at h
  rw [store, Cells.store_outside, storeDescs_outside]
  · have := h.1
    rw [Nat.zero_add]
    omega
  · have := h.2
    rw [length_toBytes]
    omega

lemma storeAll_outside {x : ℕ} (h : ∀ area ∈ areas, ¬area.Cell x) :
    storeAll areas mem x = mem x := by
  induction areas generalizing mem with
  | nil => rfl
  | cons area areas ih =>
    obtain ⟨hfirst, hrest⟩ := List.forall_mem_cons.mp h
    exact (ih hrest).trans (store_outside hfirst)

/-- A queue whose pages are its own, and whose table is no longer than a page. -/
structure Sound (area : QueueArea) : Prop where
  dvd : ∀ p ∈ area.pages, 4096 ∣ p
  le : area.buffers.length ≤ 256

lemma Sound.cell (h : area.Sound) {x : ℕ} (hx : area.Cell x) :
    x / 4096 * 4096 = area.desc ∨ x / 4096 * 4096 = area.driver := by
  have hdesc := h.dvd area.desc (by simp [pages])
  have hdriver := h.dvd area.driver (by simp [pages])
  have hle := h.le
  unfold Cell sizeOfDesc at hx
  omega

lemma Sound.stored_store (h : area.Sound) (hne : area.desc ≠ area.driver) :
    area.Stored (area.store mem) := by
  have hdesc := h.dvd area.desc (by simp [pages])
  have hdriver := h.dvd area.driver (by simp [pages])
  have happart := Cells.apart_of_dvd hdriver hdesc hne.symm
  have hle := h.le
  refine ⟨fun k hk => ?_, ?_⟩
  · rw [store, Cells.load_store_apart]
    · have hload := @load_storeDescs area.desc 0 _ mem _ hk
      rwa [Nat.zero_add] at hload
    · rw [length_toBytes]
      unfold Cells.Apart sizeOfDesc at *
      omega
  · have hload := Cells.load_store area.driver (toBytes 2 1)
      (storeDescs area.desc 0 area.buffers mem)
    rwa [length_toBytes] at hload

/-- Other queues do not touch what stands in the pages of a queue. -/
lemma Stored.storeAll (h : area.Stored mem) (hsound : area.Sound)
    (hsounds : ∀ other ∈ areas, other.Sound)
    (hpages : ∀ other ∈ areas, ∀ p ∈ area.pages, p ∉ other.pages) :
    area.Stored (storeAll areas mem) := by
  have hkeep : ∀ x, (x / 4096 * 4096 = area.desc ∨ x / 4096 * 4096 = area.driver) →
      QueueArea.storeAll areas mem x = mem x := by
    intro x hx
    refine storeAll_outside fun other hother hcell => ?_
    have hin : x / 4096 * 4096 ∈ area.pages := by
      obtain hx | hx := hx <;> simp [pages, hx]
    refine hpages other hother _ hin ?_
    obtain hx | hx := (hsounds other hother).cell hcell <;> simp [pages, hx]
  have hdesc := hsound.dvd area.desc (by simp [pages])
  have hdriver := hsound.dvd area.driver (by simp [pages])
  have hle := hsound.le
  refine ⟨fun k hk => ?_, ?_⟩
  · rw [Cells.load_congr fun i hi => hkeep _ (.inl ?_)]
    · exact h.desc k hk
    · unfold sizeOfDesc at hi ⊢
      omega
  · rw [Cells.load_congr fun i hi => hkeep _ (.inr ?_)]
    · exact h.flags
    · omega

lemma stored_storeAll (hsounds : ∀ area ∈ areas, area.Sound)
    (hnodup : (areas.flatMap pages).Nodup) : ∀ area ∈ areas, area.Stored (storeAll areas mem) := by
  induction areas generalizing mem with
  | nil => simp
  | cons area areas ih =>
    obtain ⟨hsound, hsounds⟩ := List.forall_mem_cons.mp hsounds
    rw [List.flatMap_cons, List.nodup_append'] at hnodup
    obtain ⟨hown, hothers, hdisjoint⟩ := hnodup
    refine List.forall_mem_cons.mpr ⟨?_, ih hsounds hothers⟩
    have hne : area.desc ≠ area.driver := by
      intro heq
      simp [pages, heq] at hown
    have hstored : area.Stored (area.store mem) := hsound.stored_store hne
    exact hstored.storeAll hsound hsounds fun other hother p hp hp' =>
      hdisjoint hp (List.mem_flatMap.mpr ⟨other, hother, hp'⟩)

end QueueArea

/-- A device that was started: how it stands, and that the driver kept to the order of writes. -/
structure StartedAs (d : FrameCalls.Found) (x : FrameCalls.Started × List QueueArea) : Prop where
  live : Live d.backend d.deviceType x.1.driver x.1.cfg x.2
  conforms : d.backend.Conforms d.cfg x.1.writes
  cfg : x.1.cfg = d.backend.replay d.cfg x.1.writes

namespace FrameCalls
variable {M : Type} {mapTo : Page → PhysFrame → ℕ → M → FrameCalls (Except MapToError Unit × M)}
  {serve : BootInfoFrameAllocator → Option (Option PhysFrame × BootInfoFrameAllocator)}
  {a : BootInfoFrameAllocator} {m m' : M}

lemma initDevices_run {devices : List Found} {started : List Started} {mem mem' : ℕ → BitVec 8}
    (h : ((initDevices mapTo devices mem m).run serve a).result = some ((started, mem'), m')) :
    ∃ xs : List (Started × List QueueArea), started = xs.map Prod.fst ∧
      List.Forall₂ StartedAs devices xs ∧
      mem' = QueueArea.storeAll (xs.flatMap Prod.snd) mem ∧
      Took ((initDevices mapTo devices mem m).run serve a).replies
        ((xs.flatMap Prod.snd).flatMap QueueArea.pages) := by
  induction devices generalizing mem m a started with
  | nil =>
    cases h
    exact ⟨[], rfl, .nil, rfl, .nil⟩
  | cons d devices ih =>
    unfold initDevices at h ⊢
    obtain ⟨⟨⟨driver, s⟩, m₁⟩, hfirst, hrest, hreplies⟩ := Calls.run_bind_some h
    obtain ⟨⟨⟨started', mem₁⟩, m₂⟩, hdevices, hret, hreplies'⟩ := Calls.run_bind_some hrest
    cases hret
    obtain ⟨areas, hlive, ⟨ws, hwrites, hconforms, hcfg⟩, hmem, htook⟩ := initDevice_run hfirst
    obtain ⟨xs, rfl, hxs, rfl, htooks⟩ := ih hdevices
    rw [List.nil_append] at hwrites
    refine ⟨(⟨driver, s.cfg, s.writes⟩, areas) :: xs, rfl,
      .cons ⟨hlive, hwrites ▸ hconforms, hwrites ▸ hcfg⟩ hxs, ?_, ?_⟩
    · rw [hmem, List.flatMap_cons, QueueArea.storeAll, QueueArea.storeAll, QueueArea.storeAll,
        List.foldl_append]
    · rw [hreplies, hreplies', List.flatMap_cons, List.flatMap_append]
      exact htook.append (htooks.mono (List.sublist_append_left _ _))

end FrameCalls

/-- The virtual address of a physical one tells which it is. -/
lemma VirtAddr.eq_mod {x virt : ℕ} (hx : x < 2 ^ 52) (h : VirtAddr.new x = some virt) :
    x = virt % 2 ^ 48 := by
  unfold VirtAddr.new at h
  split at h
  · cases h
    omega
  · split at h
    · cases h
      omega
    · cases h

namespace Took
variable {replies : List (Option PhysFrame)} {addrs : List ℕ}

/-- Frames that are given once have different pages. -/
lemma nodup (h : Took replies addrs)
    (hdistinct : ∀ (i j : ℕ) (f : PhysFrame), replies[i]? = some (some f) →
      replies[j]? = some (some f) → i = j) : addrs.Nodup := by
  obtain ⟨frames, hsub, haddrs⟩ := h
  have hframes : frames.Nodup := by
    obtain ⟨e, he⟩ := List.sublist_iff_exists_orderEmbedding_getElem?_eq.mp hsub
    refine List.nodup_iff_injective_get.mpr fun i j hij => Fin.ext ?_
    have hat : ∀ i : Fin frames.length, replies[e i]? = some (some (frames.get i)) := by
      intro i
      rw [← he i.1]
      simp
    exact e.injective (hdistinct _ _ _ (hat i) (hij ▸ hat j))
  refine List.Nodup.of_map some ?_
  rw [haddrs]
  refine List.Nodup.map_on (fun f hf g _ hfg => ?_) hframes
  have hsome : VirtAddr.new f.startAddress ∈ addrs.map some := by
    rw [haddrs]
    exact List.mem_map_of_mem hf
  obtain ⟨virt, -, hvirt⟩ := List.mem_map.mp hsome
  have hf := VirtAddr.eq_mod f.lt hvirt.symm
  have hg := VirtAddr.eq_mod g.lt (hfg.symm.trans hvirt.symm)
  exact PhysFrame.ext (hf.trans hg.symm)

end Took

section Started
variable {M : Type} {mapTo : Page → PhysFrame → ℕ → M → FrameCalls (Except MapToError Unit × M)}

/-- Whatever its registers held before, whenever `init` returns it has written to the device in the
order that it may, and the device runs with the features agreed on and each queue enabled over one
page for its table, one for each ring and one for each buffer. It panics on a device that does not
agree, and on a name past its bytes. -/
theorem device_started
    {serve : BootInfoFrameAllocator → Option (Option PhysFrame × BootInfoFrameAllocator)}
    (a : BootInfoFrameAllocator) (d : FrameCalls.Found) (mem : ℕ → BitVec 8) (m : M) :
    let run := (FrameCalls.initDevice mapTo d.backend d.deviceType ⟨d.cfg, [], mem⟩ m).run serve a
    (d.backend.accepts d.deviceType.driverFeature = false ∨
      d.deviceType = .input ∧ 128 < d.backend.nameSize → run.result = none) ∧
      ∀ driver s m', run.result = some ((driver, s), m') →
        ∃ areas, StartedAs d (⟨driver, s.cfg, s.writes⟩, areas) ∧
          Took run.replies (areas.flatMap QueueArea.pages) := by
  refine ⟨fun hrefuses => ?_, fun driver s m' h => ?_⟩
  · by_contra hsome
    obtain ⟨⟨⟨driver, s⟩, m'⟩, h⟩ := Option.ne_none_iff_exists'.mp hsome
    obtain ⟨areas, hlive, -⟩ := FrameCalls.initDevice_run h
    obtain hrefuses | ⟨htype, hlong⟩ := hrefuses
    · rw [hlive.agreed] at hrefuses
      cases hrefuses
    · exact absurd (hlive.named htype) (Nat.not_le_of_lt hlong)
  · obtain ⟨areas, hlive, ⟨ws, hwrites, hconforms, hcfg⟩, -, htook⟩ := FrameCalls.initDevice_run h
    rw [List.nil_append] at hwrites
    exact ⟨areas, ⟨hlive, hwrites ▸ hconforms, hwrites ▸ hcfg⟩, htook⟩

/-- Registers as a boot program left them, and a device with queues of two entries. -/
def leftRunning (b : Backend) : VirtioPciCommonCfg := { b.reset with deviceStatus := 15 }

def twoEntries (numQueues : ℕ) : Backend := ⟨numQueues, fun _ => 2, fun _ => true, 8⟩

def keyboard : FrameCalls.Found := ⟨twoEntries 1, .input, leftRunning (twoEntries 1)⟩

/-- 31 usable frames. -/
def oneRegion : List MemoryRegion := [⟨0x1000, 0x20000, .usable⟩]

/-- The first device of the machine, with a page table to be made. -/
theorem device_started_keyboard : ∃ driver s areas,
    let run := firstRun oneRegion (FrameCalls.initDevice mapToMissing keyboard.backend .input
      ⟨keyboard.cfg, [], fun _ => 0#8⟩ 1)
    run.result = some ((driver, s), 0) ∧ StartedAs keyboard (⟨driver, s.cfg, s.writes⟩, areas) ∧
      Took run.replies (areas.flatMap QueueArea.pages) ∧ run.replies.length = 6 := by
  have hrun : ((firstRun oneRegion (FrameCalls.initDevice mapToMissing keyboard.backend .input
      ⟨keyboard.cfg, [], fun _ => 0#8⟩ 1)).result.any fun r => decide (r.2 = 0)) = true := by
    decide +kernel
  simp only [Option.any_eq_true, decide_eq_true_eq] at hrun
  obtain ⟨⟨⟨driver, s⟩, m'⟩, hsome, rfl⟩ := hrun
  obtain ⟨areas, hstarted, htook⟩ := (device_started (.init oneRegion) keyboard (fun _ => 0#8)
    1).2 driver s 0 hsome
  exact ⟨driver, s, areas, hsome, hstarted, htook, by decide +kernel⟩

/-- The devices that are started, with the frames they are on. -/
structure StartedAll (devices : List FrameCalls.Found)
    (xs : List (FrameCalls.Started × List QueueArea)) (replies : List (Option PhysFrame)) :
    Prop where
  each : List.Forall₂ StartedAs devices xs
  took : Took replies ((xs.flatMap Prod.snd).flatMap QueueArea.pages)
  nodup : ((xs.flatMap Prod.snd).flatMap QueueArea.pages).Nodup
  sound : ∀ area ∈ xs.flatMap Prod.snd, area.Sound

/-- After whatever used the allocator before. -/
lemma startedAll {memoryMap : List MemoryRegion} (hvalid : ValidMap memoryMap)
    {earlier : List (Caller M)} {devices : List FrameCalls.Found} {mem mem' : ℕ → BitVec 8}
    {m m' : M} {started : List FrameCalls.Started}
    (hcalls : (firstRun memoryMap (callAll mapTo earlier m >>=
      FrameCalls.initDevices mapTo devices mem)).replies.length < 2 ^ 58)
    (hsizes : ∀ d ∈ devices, ∀ q < d.backend.numQueues, d.backend.queueSize q ≤ 256)
    (h : (firstRun memoryMap (callAll mapTo earlier m >>=
      FrameCalls.initDevices mapTo devices mem)).result = some ((started, mem'), m')) :
    ∃ xs : List (FrameCalls.Started × List QueueArea), started = xs.map Prod.fst ∧
      mem' = QueueArea.storeAll (xs.flatMap Prod.snd) mem ∧
      StartedAll devices xs (firstRun memoryMap (callAll mapTo earlier m >>=
        FrameCalls.initDevices mapTo devices mem)).replies := by
  have hout := handedOut hvalid _ hcalls
  obtain ⟨m₁, -, hdevices, hreplies⟩ := Calls.run_bind_some h
  obtain ⟨xs, rfl, hxs, rfl, htook⟩ := FrameCalls.initDevices_run hdevices
  have htook' : Took (firstRun memoryMap (callAll mapTo earlier m >>=
      FrameCalls.initDevices mapTo devices mem)).replies
        ((xs.flatMap Prod.snd).flatMap QueueArea.pages) := by
    refine htook.mono ?_
    rw [hreplies]
    exact List.sublist_append_right _ _
  refine ⟨xs, rfl, rfl, hxs, htook', htook'.nodup hout.distinct, fun area harea => ?_⟩
  refine ⟨fun p hp => htook.dvd p (List.mem_flatMap.mpr ⟨area, harea, hp⟩), ?_⟩
  obtain ⟨x, hx, harea⟩ := List.mem_flatMap.mp harea
  obtain ⟨i, hi, rfl⟩ := List.getElem_of_mem hx
  have hd := List.Forall₂.length_eq hxs
  have hlive := (List.forall₂_iff_get.mp hxs).2 i (hd ▸ hi) hi
  obtain ⟨q, hq⟩ := List.mem_iff_getElem?.mp harea
  obtain ⟨hlen, -⟩ := hlive.live.queue q area hq
  rw [hlen]
  refine hsizes _ (List.get_mem ..) q ?_
  rw [← hlive.live.length]
  exact (List.getElem?_eq_some_iff.mp hq).1

end Started

def keyboardAndGpu : List FrameCalls.Found :=
  [keyboard, ⟨twoEntries 2, .gpu, leftRunning (twoEntries 2)⟩]

end Fomos
