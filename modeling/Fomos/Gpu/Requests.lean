import Mathlib
import Fomos.Gpu.Virgl
import Fomos.Library.ReprC

/-!
# The requests of the GPU driver

The structures that `drive` sends, as `repr(C)` lays them out, and how whoever has the bytes finds
out which of them it is: by the type in the header that each begins with.
-/
namespace Fomos.Gpu
open ReprC
open ReprC.Layout (u8 u32 u64)

/-- A `char` is a scalar value in four bytes. -/
def char : Layout Char :=
  u32.ofLeftInverse (fun c => c.val.toBitVec)
    (fun v => if h : (UInt32.ofBitVec v).isValidChar then some ⟨.ofBitVec v, h⟩ else none)
    fun c => dif_pos c.valid

inductive VirtioGpuCtrlType
  | cmdGetDisplayInfo | cmdResourceCreate2d | cmdResourceUnref | cmdSetScanout | cmdResourceFlush
  | cmdTransferToHost2d | cmdResourceAttachBacking | cmdResourceDetachBacking | cmdGetCapsetInfo
  | cmdGetCapset | cmdGetEdid | cmdResourceAssignUuid | cmdResourceCreateBlob | cmdSetScanoutBlob
  | cmdCtxCreate | cmdCtxDestroy | cmdCtxAttachResource | cmdCtxDetachResource
  | cmdResourceCreate3d | cmdTransferToHost3d | cmdTransferFromHost3d | cmdSubmit3d
  | cmdResourceMapBlob | cmdResourceUnmapBlob | cmdUpdateCursor | cmdMoveCursor | respOkNoData
  | respOkDisplayInfo | respOkCapsetInfo | respOkCapset | respOkEdid | respOkResourceUuid
  | respOkMapInfo | respErrUnspec | respErrOutOfMemory | respErrInvalidScanoutId
  | respErrInvalidResourceId | respErrInvalidContextId | respErrInvalidParameter
  deriving DecidableEq, Repr

namespace VirtioGpuCtrlType

/-- Five groups, each of which counts on from its first value. -/
def toU32 (t : VirtioGpuCtrlType) : BitVec 32 :=
  let i := t.ctorIdx
  if i < 14 then BitVec.ofNat 32 (0x0100 + i)
  else if i < 24 then BitVec.ofNat 32 (0x0200 + (i - 14))
  else if i < 26 then BitVec.ofNat 32 (0x0300 + (i - 24))
  else if i < 33 then BitVec.ofNat 32 (0x1100 + (i - 26))
  else BitVec.ofNat 32 (0x1200 + (i - 33))

/-- The type with this value. -/
def ofU32 (v : BitVec 32) : Option VirtioGpuCtrlType :=
  ((List.range 39).map ofNat).find? fun t => t.toU32 = v

lemma ofU32_toU32 (t : VirtioGpuCtrlType) : ofU32 t.toU32 = some t := by
  cases t <;> decide +kernel

end VirtioGpuCtrlType

inductive VirtioGpuFormats
  | b8g8r8a8Unorm | b8g8r8x8Unorm | a8r8g8b8Unorm | x8r8g8b8Unorm | r8g8b8a8Unorm | x8b8g8r8Unorm
  | a8b8g8r8Unorm | r8g8b8x8Unorm
  deriving DecidableEq, Repr

namespace VirtioGpuFormats

def toU32 : VirtioGpuFormats → BitVec 32
  | b8g8r8a8Unorm => 1
  | b8g8r8x8Unorm => 2
  | a8r8g8b8Unorm => 3
  | x8r8g8b8Unorm => 4
  | r8g8b8a8Unorm => 67
  | x8b8g8r8Unorm => 68
  | a8b8g8r8Unorm => 121
  | r8g8b8x8Unorm => 134

def ofU32 (v : BitVec 32) : Option VirtioGpuFormats :=
  ((List.range 8).map ofNat).find? fun f => f.toU32 = v

lemma ofU32_toU32 (f : VirtioGpuFormats) : ofU32 f.toU32 = some f := by
  cases f <;> decide +kernel

end VirtioGpuFormats

inductive PipeTextureTarget
  | buffer | texture1d | texture2d | texture3d | textureCube | textureRect | texture1dArray
  | texture2dArray | textureCubeArray | maxTextureTypes
  deriving DecidableEq, Repr

namespace PipeTextureTarget

def toU32 (t : PipeTextureTarget) : BitVec 32 := BitVec.ofNat 32 t.ctorIdx

def ofU32 (v : BitVec 32) : Option PipeTextureTarget :=
  ((List.range 10).map ofNat).find? fun t => t.toU32 = v

lemma ofU32_toU32 (t : PipeTextureTarget) : ofU32 t.toU32 = some t := by
  cases t <;> decide +kernel

end PipeTextureTarget

structure VirtioGpuCtrlHdr where
  type_ : VirtioGpuCtrlType
  flags : BitVec 32
  fenceId : BitVec 64
  ctxId : BitVec 32
  ringIdx : BitVec 8
  padding : Vector (BitVec 8) 3
  deriving DecidableEq, Repr

/-- `Default::default()` -/
def VirtioGpuCtrlHdr.default : VirtioGpuCtrlHdr :=
  ⟨.cmdGetDisplayInfo, 0, 0, 0, 0, #v[0, 0, 0]⟩

structure VirtioGpuRect where
  x : BitVec 32
  y : BitVec 32
  w : BitVec 32
  h : BitVec 32
  deriving DecidableEq, Repr

structure VirtioGpuCmdGetCapsetInfo where
  header : VirtioGpuCtrlHdr
  capsetIndex : BitVec 32
  padding : BitVec 32
  deriving DecidableEq, Repr

structure VirtioGpuCmdResourceCreate2d where
  header : VirtioGpuCtrlHdr
  resourceId : BitVec 32
  format : VirtioGpuFormats
  width : BitVec 32
  height : BitVec 32
  deriving DecidableEq, Repr

structure VirtioGpuCmdResourceAttachBacking where
  header : VirtioGpuCtrlHdr
  resourceId : BitVec 32
  nrEntries : BitVec 32
  addr : BitVec 64
  length : BitVec 32
  padding : BitVec 32
  deriving DecidableEq, Repr

structure VirtioGpuCmdSetScanout where
  header : VirtioGpuCtrlHdr
  r : VirtioGpuRect
  scanoutId : BitVec 32
  resourceId : BitVec 32
  deriving DecidableEq, Repr

structure VirtioGpuCmdTransferToHost2d where
  header : VirtioGpuCtrlHdr
  r : VirtioGpuRect
  offset : BitVec 64
  resourceId : BitVec 32
  padding : BitVec 32
  deriving DecidableEq, Repr

structure VirtioGpuCmdResourceFlush where
  header : VirtioGpuCtrlHdr
  r : VirtioGpuRect
  resourceId : BitVec 32
  padding : BitVec 32
  deriving DecidableEq, Repr

structure VirtioGpuCmdCtxCreate where
  header : VirtioGpuCtrlHdr
  nlen : BitVec 32
  contextInit : BitVec 32
  debugName : Vector Char 64
  deriving DecidableEq, Repr

structure VirglRendererResourceCreateArgs where
  handle : BitVec 32
  target : PipeTextureTarget
  format : Virgl.VirglFormats
  bind : BitVec 32
  width : BitVec 32
  height : BitVec 32
  depth : BitVec 32
  arraySize : BitVec 32
  lastLevel : BitVec 32
  nrSamples : BitVec 32
  flags : BitVec 32
  deriving DecidableEq, Repr

structure VirtioGpuCmdResourceCreate3d where
  header : VirtioGpuCtrlHdr
  args : VirglRendererResourceCreateArgs
  padding : BitVec 32
  deriving DecidableEq, Repr

structure VirtioGpuCmdCtxAttachResource where
  header : VirtioGpuCtrlHdr
  handle : BitVec 32
  padding : BitVec 32
  deriving DecidableEq, Repr

structure VirtioGpuCmdSubmit3d where
  header : VirtioGpuCtrlHdr
  len : BitVec 32
  buffer : Vector (BitVec 32) 512
  deriving DecidableEq, Repr

/-! ## The layouts -/

def VirtioGpuCtrlType.layout : Layout VirtioGpuCtrlType :=
  u32.ofLeftInverse toU32 ofU32 ofU32_toU32

def VirtioGpuFormats.layout : Layout VirtioGpuFormats :=
  u32.ofLeftInverse toU32 ofU32 ofU32_toU32

def PipeTextureTarget.layout : Layout PipeTextureTarget :=
  u32.ofLeftInverse toU32 ofU32 ofU32_toU32

def virglFormats : Layout Virgl.VirglFormats :=
  u32.ofLeftInverse Virgl.VirglFormats.toU32 Virgl.VirglFormats.ofU32
    Virgl.VirglFormats.ofU32_toU32

def VirtioGpuCtrlHdr.fields : Fields VirtioGpuCtrlHdr VirtioGpuCtrlHdr :=
  ((((((Fields.start mk).field type_ VirtioGpuCtrlType.layout).field flags u32).field
    fenceId u64).field ctxId u32).field ringIdx u8).field padding (u8.array 3)

def VirtioGpuCtrlHdr.layout : Layout VirtioGpuCtrlHdr := fields.close fun _ => rfl

def VirtioGpuRect.layout : Layout VirtioGpuRect :=
  (((((Fields.start mk).field x u32).field y u32).field w u32).field h u32).close fun _ => rfl

def VirglRendererResourceCreateArgs.layout : Layout VirglRendererResourceCreateArgs :=
  ((((((((((((Fields.start mk).field handle u32).field target PipeTextureTarget.layout).field
    format virglFormats).field bind u32).field width u32).field height u32).field
    depth u32).field arraySize u32).field lastLevel u32).field nrSamples u32).field
    flags u32).close fun _ => rfl

/-- A structure that begins with the header. -/
def headed {α β : Type} (mk : VirtioGpuCtrlHdr → β) (header : α → VirtioGpuCtrlHdr) :
    Fields α β :=
  (Fields.start mk).field header VirtioGpuCtrlHdr.layout

namespace VirtioGpuCmdGetCapsetInfo

def fields : Fields VirtioGpuCmdGetCapsetInfo VirtioGpuCmdGetCapsetInfo :=
  ((headed mk header).field capsetIndex u32).field padding u32

end VirtioGpuCmdGetCapsetInfo

namespace VirtioGpuCmdResourceCreate2d

def fields : Fields VirtioGpuCmdResourceCreate2d VirtioGpuCmdResourceCreate2d :=
  ((((headed mk header).field resourceId u32).field format VirtioGpuFormats.layout).field
    width u32).field height u32

end VirtioGpuCmdResourceCreate2d

namespace VirtioGpuCmdResourceAttachBacking

def fields : Fields VirtioGpuCmdResourceAttachBacking VirtioGpuCmdResourceAttachBacking :=
  (((((headed mk header).field resourceId u32).field nrEntries u32).field addr u64).field
    length u32).field padding u32

end VirtioGpuCmdResourceAttachBacking

namespace VirtioGpuCmdSetScanout

def fields : Fields VirtioGpuCmdSetScanout VirtioGpuCmdSetScanout :=
  (((headed mk header).field r VirtioGpuRect.layout).field scanoutId u32).field resourceId u32

end VirtioGpuCmdSetScanout

namespace VirtioGpuCmdTransferToHost2d

def fields : Fields VirtioGpuCmdTransferToHost2d VirtioGpuCmdTransferToHost2d :=
  ((((headed mk header).field r VirtioGpuRect.layout).field offset u64).field
    resourceId u32).field padding u32

end VirtioGpuCmdTransferToHost2d

namespace VirtioGpuCmdResourceFlush

def fields : Fields VirtioGpuCmdResourceFlush VirtioGpuCmdResourceFlush :=
  (((headed mk header).field r VirtioGpuRect.layout).field resourceId u32).field padding u32

end VirtioGpuCmdResourceFlush

namespace VirtioGpuCmdCtxCreate

def fields : Fields VirtioGpuCmdCtxCreate VirtioGpuCmdCtxCreate :=
  (((headed mk header).field nlen u32).field contextInit u32).field debugName (char.array 64)

end VirtioGpuCmdCtxCreate

namespace VirtioGpuCmdResourceCreate3d

def fields : Fields VirtioGpuCmdResourceCreate3d VirtioGpuCmdResourceCreate3d :=
  ((headed mk header).field args VirglRendererResourceCreateArgs.layout).field padding u32

end VirtioGpuCmdResourceCreate3d

namespace VirtioGpuCmdCtxAttachResource

def fields : Fields VirtioGpuCmdCtxAttachResource VirtioGpuCmdCtxAttachResource :=
  ((headed mk header).field handle u32).field padding u32

end VirtioGpuCmdCtxAttachResource

namespace VirtioGpuCmdSubmit3d

def fields : Fields VirtioGpuCmdSubmit3d VirtioGpuCmdSubmit3d :=
  ((headed mk header).field len u32).field buffer (u32.array 512)

end VirtioGpuCmdSubmit3d

/-! ## The requests -/

/-- The structures that are given to `request`. -/
inductive Command
  | ctrlHdr | getCapsetInfo | resourceCreate2d | attachBacking | setScanout | transferToHost2d
  | resourceFlush | ctxCreate | resourceCreate3d | ctxAttachResource | submit3d
  deriving DecidableEq, Repr

namespace Command

abbrev Body : Command → Type
  | ctrlHdr => VirtioGpuCtrlHdr
  | getCapsetInfo => VirtioGpuCmdGetCapsetInfo
  | resourceCreate2d => VirtioGpuCmdResourceCreate2d
  | attachBacking => VirtioGpuCmdResourceAttachBacking
  | setScanout => VirtioGpuCmdSetScanout
  | transferToHost2d => VirtioGpuCmdTransferToHost2d
  | resourceFlush => VirtioGpuCmdResourceFlush
  | ctxCreate => VirtioGpuCmdCtxCreate
  | resourceCreate3d => VirtioGpuCmdResourceCreate3d
  | ctxAttachResource => VirtioGpuCmdCtxAttachResource
  | submit3d => VirtioGpuCmdSubmit3d

def fields : (c : Command) → Fields c.Body c.Body
  | ctrlHdr => VirtioGpuCtrlHdr.fields
  | getCapsetInfo => VirtioGpuCmdGetCapsetInfo.fields
  | resourceCreate2d => VirtioGpuCmdResourceCreate2d.fields
  | attachBacking => VirtioGpuCmdResourceAttachBacking.fields
  | setScanout => VirtioGpuCmdSetScanout.fields
  | transferToHost2d => VirtioGpuCmdTransferToHost2d.fields
  | resourceFlush => VirtioGpuCmdResourceFlush.fields
  | ctxCreate => VirtioGpuCmdCtxCreate.fields
  | resourceCreate3d => VirtioGpuCmdResourceCreate3d.fields
  | ctxAttachResource => VirtioGpuCmdCtxAttachResource.fields
  | submit3d => VirtioGpuCmdSubmit3d.fields

def header : (c : Command) → c.Body → VirtioGpuCtrlHdr
  | ctrlHdr => id
  | getCapsetInfo => VirtioGpuCmdGetCapsetInfo.header
  | resourceCreate2d => VirtioGpuCmdResourceCreate2d.header
  | attachBacking => VirtioGpuCmdResourceAttachBacking.header
  | setScanout => VirtioGpuCmdSetScanout.header
  | transferToHost2d => VirtioGpuCmdTransferToHost2d.header
  | resourceFlush => VirtioGpuCmdResourceFlush.header
  | ctxCreate => VirtioGpuCmdCtxCreate.header
  | resourceCreate3d => VirtioGpuCmdResourceCreate3d.header
  | ctxAttachResource => VirtioGpuCmdCtxAttachResource.header
  | submit3d => VirtioGpuCmdSubmit3d.header

/-- The structure that a type is sent in. `GetEdid` goes without one of its own. -/
def ofType : VirtioGpuCtrlType → Option Command
  | .cmdGetDisplayInfo | .cmdGetEdid => some ctrlHdr
  | .cmdGetCapsetInfo => some getCapsetInfo
  | .cmdResourceCreate2d => some resourceCreate2d
  | .cmdResourceAttachBacking => some attachBacking
  | .cmdSetScanout => some setScanout
  | .cmdTransferToHost2d => some transferToHost2d
  | .cmdResourceFlush => some resourceFlush
  | .cmdCtxCreate => some ctxCreate
  | .cmdResourceCreate3d => some resourceCreate3d
  | .cmdCtxAttachResource => some ctxAttachResource
  | .cmdSubmit3d => some submit3d
  | _ => none

/-- The fields are all of the structure. -/
lemma partly_fields (c : Command) (b : c.Body) : c.fields.partly b = b := by
  cases c <;> rfl

def layout (c : Command) : Layout c.Body := c.fields.close c.partly_fields

open Fields in
/-- Each structure begins with its header. -/
lemma leads_header (c : Command) : Leads VirtioGpuCtrlHdr.fields c.header c.fields := by
  cases c with
  | ctrlHdr => exact leads_self _ fun _ => rfl
  | getCapsetInfo | resourceCreate3d | ctxAttachResource | submit3d =>
    exact .field (.field (leads_start ..) ..) ..
  | setScanout | resourceFlush | ctxCreate =>
    exact .field (.field (.field (leads_start ..) ..) ..) ..
  | resourceCreate2d | transferToHost2d =>
    exact .field (.field (.field (.field (leads_start ..) ..) ..) ..) ..
  | attachBacking =>
    exact .field (.field (.field (.field (.field (leads_start ..) ..) ..) ..) ..) ..

end Command

abbrev Request := Σ c : Command, c.Body

namespace Request

def header (r : Request) : VirtioGpuCtrlHdr := r.1.header r.2

/-- The bytes that `add_request` writes. -/
def bytes (junk : Junk) (r : Request) : List (BitVec 8) := r.1.layout.encode junk r.2

/-- `size_of_val` -/
def size (r : Request) : ℕ := r.1.layout.size

@[simp] lemma length_bytes (junk : Junk) (r : Request) : (r.bytes junk).length = r.size :=
  r.1.layout.length_encode junk r.2

/-- The type in the header is one that the structure is sent for. -/
def WellTyped (r : Request) : Prop := Command.ofType r.header.type_ = some r.1

instance (r : Request) : Decidable r.WellTyped := inferInstanceAs (Decidable (_ = _))

/-- Whoever gets the bytes reads the header, and then the structure for its type. -/
def parse (bytes : List (BitVec 8)) : Option Request := do
  let header ← VirtioGpuCtrlHdr.fields.decode bytes
  let c ← Command.ofType header.type_
  let body ← c.layout.decode bytes
  return ⟨c, body⟩

/-- Whoever reads a request by the type in its header gets the request. -/
theorem parse_bytes {r : Request} (h : r.WellTyped) (junk : Junk) :
    parse (r.bytes junk) = some r := by
  have hheader : VirtioGpuCtrlHdr.fields.decode (r.bytes junk) = some r.header :=
    r.1.leads_header.decode ..
  have hbody : r.1.layout.decode (r.bytes junk) = some r.2 := Layout.decode_encode ..
  rw [WellTyped] at h
  simp [parse, hheader, h, hbody]

/-- The bytes are those of the request, whatever stands in its padding. -/
def Image (r : Request) (data : List (BitVec 8)) : Prop := ∃ junk, data = r.bytes junk

lemma Image.parse {r : Request} {data : List (BitVec 8)} (h : r.Image data) (htype : r.WellTyped) :
    Request.parse data = some r := by
  obtain ⟨junk, rfl⟩ := h
  exact parse_bytes htype junk

end Request

/-! ## The response to the first request -/

structure VirtioGpuDisplay where
  rect : VirtioGpuRect
  enabled : BitVec 32
  flags : BitVec 32
  deriving DecidableEq, Repr

structure VirtioGpuRespOkDisplayInfo where
  header : VirtioGpuCtrlHdr
  pmodes : VirtioGpuDisplay
  deriving DecidableEq, Repr

def VirtioGpuDisplay.layout : Layout VirtioGpuDisplay :=
  ((((Fields.start mk).field rect VirtioGpuRect.layout).field enabled u32).field
    flags u32).close fun _ => rfl

def VirtioGpuRespOkDisplayInfo.layout : Layout VirtioGpuRespOkDisplayInfo :=
  ((headed mk header).field pmodes VirtioGpuDisplay.layout).close fun _ => rfl

end Fomos.Gpu
