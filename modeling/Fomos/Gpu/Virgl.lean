import Mathlib
import Fomos.Library.Framing

/-!
# The command stream of the host renderer

A call pushes a header and its arguments on the buffer of dwords. The header has the number of the
dwords behind it in its upper half, the kind of object in its second byte and the command in its
first. The host has nothing but these headers to find the commands.
-/
namespace Fomos.Virgl

/-- The commands, each with its place in the list as the value. -/
inductive Cmd3d
  | nop | createObject | bindObject | destroyObject | setViewportState | setFramebufferState
  | setVertexBuffers | clear | drawVbo | resourceInlineWrite | setSamplerViews | setIndexBuffer
  | setConstantBuffer | setStencilRef | setBlendColor | setScissorState | blit
  | resourceCopyRegion | bindSamplerStates | beginQuery | endQuery | getQueryResult
  | setPolygonStipple | setClipState | setSampleMask | setStreamoutTargets | setRenderCondition
  | setUniformBuffer | setSubCtx | createSubCtx | destroySubCtx | bindShader | setTessState
  | setMinSamples | setShaderBuffers | setShaderImages | memoryBarrier | launchGrid
  | setFramebufferStateNoAttach | textureBarrier | setAtomicBuffers | setDebugFlags
  | getQueryResultQbo | transfer3d | endTransfers | copyTransfer3d | setTweaks | clearTexture
  | pipeResourceCreate | pipeResourceSetType | getMemoryInfo | sendStringMarker | linkShader
  | createVideoCodec | destroyVideoCodec | createVideoBuffer | destroyVideoBuffer | beginFrame
  | decodeMacroblock | decodeBitstream | encodeBitstream | endFrame | maxCommands
  deriving DecidableEq, Repr

inductive VirglObjectType
  | null | blend | rasterizer | dsa | shader | vertexElements | samplerView | samplerState
  | surface | query | streamoutTarget | msaaSurface | maxObjects
  deriving DecidableEq, Repr

/-- The discriminants of `VirglFormats`, which leave some numbers out. -/
def formatDiscriminants : List ℕ :=
  List.range' 0 73 ++ List.range' 74 4 ++ List.range' 82 4 ++ List.range' 87 220 ++ [308] ++
    List.range' 311 15

/-- A format, by its discriminant. -/
structure VirglFormats where
  discriminant : ℕ
  listed : discriminant ∈ formatDiscriminants
  deriving DecidableEq, Repr

namespace Cmd3d

def toU32 (c : Cmd3d) : BitVec 32 := BitVec.ofNat 32 c.ctorIdx

/-- The command with this value. -/
def ofByte (b : BitVec 8) : Option Cmd3d :=
  if (ofNat b.toNat).ctorIdx = b.toNat then some (ofNat b.toNat) else none

end Cmd3d

namespace VirglObjectType

def toU32 (o : VirglObjectType) : BitVec 32 := BitVec.ofNat 32 o.ctorIdx

/-- The kind of object with this value. -/
def ofByte (b : BitVec 8) : Option VirglObjectType :=
  if (ofNat b.toNat).ctorIdx = b.toNat then some (ofNat b.toNat) else none

end VirglObjectType

namespace VirglFormats

def toU32 (f : VirglFormats) : BitVec 32 := BitVec.ofNat 32 f.discriminant

/-- The format with this value. -/
def ofU32 (dword : BitVec 32) : Option VirglFormats :=
  if h : dword.toNat ∈ formatDiscriminants then some ⟨dword.toNat, h⟩ else none

end VirglFormats

/-! ## The encoders -/

/-- `Vec<u32>` -/
abbrev Buffer := List (BitVec 32)

/-- The depth, here by its bits, and the stencil are not used. -/
def cmdClear (buffer : Buffer) (buffers : BitVec 32) (rgba : Vector (BitVec 8) 4)
    (_depth : BitVec 64) (_stencil : BitVec 32) : Buffer :=
  let len := 8#32
  buffer ++ [(len <<< 16) + (0#32 <<< 8) + Cmd3d.clear.toU32, buffers, rgba[0].setWidth 32,
    rgba[1].setWidth 32, rgba[2].setWidth 32, rgba[3].setWidth 32, 0, 0, 0]

def cmdSetFramebufferState (buffer : Buffer) (handles : List (BitVec 32)) : Buffer :=
  let len := BitVec.ofNat 32 handles.length + 2#32
  let buffer := buffer ++ [(len <<< 16) + (0#32 <<< 8) + Cmd3d.setFramebufferState.toU32,
    BitVec.ofNat 32 handles.length, 0]
  handles.foldl (fun buffer handle => buffer ++ [handle]) buffer

def cmdCreateSurface (buffer : Buffer) (handle : BitVec 32) (format : VirglFormats) : Buffer :=
  let len := 5#32
  buffer ++ [(len <<< 16) ||| (VirglObjectType.surface.toU32 <<< 8) ||| Cmd3d.createObject.toU32,
    handle, handle, format.toU32, 0, 0]

/-- A call of an encoder. -/
inductive Call
  | clear (buffers : BitVec 32) (rgba : Vector (BitVec 8) 4) (depth : BitVec 64)
    (stencil : BitVec 32)
  | setFramebufferState (handles : List (BitVec 32))
  | createSurface (handle : BitVec 32) (format : VirglFormats)
  deriving DecidableEq, Repr

namespace Call

def issue (buffer : Buffer) : Call → Buffer
  | clear buffers rgba depth stencil => cmdClear buffer buffers rgba depth stencil
  | setFramebufferState handles => cmdSetFramebufferState buffer handles
  | createSurface handle format => cmdCreateSurface buffer handle format

/-- The list of handles, if there is one, is short enough for the length in the header. -/
def Short : Call → Prop
  | setFramebufferState handles => handles.length < 65534
  | _ => True

instance : (c : Call) → Decidable c.Short
  | setFramebufferState handles => inferInstanceAs (Decidable (handles.length < 65534))
  | clear .. | createSurface .. => inferInstanceAs (Decidable True)

end Call

/-- The buffer after some calls. -/
def stream (calls : List Call) : Buffer := calls.foldl Call.issue []

/-- `VirtioGpuCmdSubmit3d`, without its header. -/
structure Submit3d where
  len : BitVec 32
  buffer : Vector (BitVec 32) 512
  deriving DecidableEq, Repr

/-- Zeros up to 512 dwords. -/
def pad (buffer : Buffer) : Buffer := buffer ++ List.replicate (512 - buffer.length) 0

/-- `drive` pads the buffer and submits it; a longer one panics. -/
def submit (buffer : Buffer) : Option Submit3d :=
  if h : (pad buffer).length = 512 then
    some ⟨BitVec.ofNat 32 buffer.length, ⟨(pad buffer).toArray, h⟩⟩
  else none

/-! ## The host's reading -/

/-- The number of dwords behind a header. -/
def headerLen (header : BitVec 32) : ℕ := (header.extractLsb' 16 16).toNat

def headerObject (header : BitVec 32) : Option VirglObjectType :=
  VirglObjectType.ofByte (header.extractLsb' 8 8)

def headerCmd (header : BitVec 32) : Option Cmd3d := Cmd3d.ofByte (header.extractLsb' 0 8)

/-- What the host reads from a command. -/
inductive Decoded
  | clear (buffers : BitVec 32) (rgba : Vector (BitVec 32) 4)
  | setFramebufferState (handles : List (BitVec 32))
  | createSurface (handle resource : BitVec 32) (format : VirglFormats)
  deriving DecidableEq, Repr

def decodeArgs : Cmd3d → VirglObjectType → Buffer → Option Decoded
  | .clear, .null, [buffers, r, g, b, a, _, _, _] => some (.clear buffers #v[r, g, b, a])
  | .setFramebufferState, .null, n :: _ :: handles =>
    if handles.length = n.toNat then some (.setFramebufferState handles) else none
  | .createObject, .surface, [handle, resource, format, _, _] =>
    (VirglFormats.ofU32 format).map (.createSurface handle resource)
  | _, _, _ => none

/-- Read the command at the front. -/
def decode : Buffer → Option Decoded
  | [] => none
  | header :: rest => do
    let cmd ← headerCmd header
    let object ← headerObject header
    decodeArgs cmd object (rest.take (headerLen header))

namespace Call

/-- The command in the header of the call. -/
def cmd : Call → Cmd3d
  | clear .. => .clear
  | setFramebufferState _ => .setFramebufferState
  | createSurface .. => .createObject

/-- The kind of object that the call creates. -/
def object : Call → VirglObjectType
  | createSurface .. => .surface
  | _ => .null

/-- What the call means. -/
def decoded : Call → Decoded
  | clear buffers rgba _ _ => .clear buffers (rgba.map fun c => c.setWidth 32)
  | setFramebufferState handles => .setFramebufferState handles
  | createSurface handle format => .createSurface handle handle format

end Call

/-! ## One command -/

lemma VirglFormats.lt {n : ℕ} (h : n ∈ formatDiscriminants) : n < 2 ^ 32 := by
  have hall : ∀ n ∈ formatDiscriminants, n < 2 ^ 32 := by decide +kernel
  exact hall n h

lemma VirglFormats.ofU32_toU32 (f : VirglFormats) : ofU32 f.toU32 = some f := by
  have hnat : f.toU32.toNat = f.discriminant := by
    rw [toU32, BitVec.toNat_ofNat, Nat.mod_eq_of_lt (lt f.listed)]
  rw [ofU32, dif_pos (hnat ▸ f.listed)]
  simp only [hnat]

/-- The length, which is not too long for the upper half, and the command of a header do not
overlap. -/
lemma toNat_header (len cmd : BitVec 32) (hlen : len.toNat < 65536) (hcmd : cmd.toNat < 256) :
    ((len <<< 16) + (0#32 <<< 8) + cmd).toNat = len.toNat * 65536 + cmd.toNat := by
  rw [BitVec.toNat_add, BitVec.toNat_add, BitVec.toNat_shiftLeft, BitVec.toNat_shiftLeft,
    Nat.shiftLeft_eq]
  simp only [BitVec.toNat_ofNat]
  omega

lemma header_fields (len cmd : BitVec 32) (hlen : len.toNat < 65536) (hcmd : cmd.toNat < 256) :
    headerLen ((len <<< 16) + (0#32 <<< 8) + cmd) = len.toNat ∧
      headerObject ((len <<< 16) + (0#32 <<< 8) + cmd) = some .null ∧
        headerCmd ((len <<< 16) + (0#32 <<< 8) + cmd) = Cmd3d.ofByte (cmd.setWidth 8) := by
  have hheader := toNat_header len cmd hlen hcmd
  have hobject : ((len <<< 16) + (0#32 <<< 8) + cmd).extractLsb' 8 8 = 0#8 := by
    apply BitVec.eq_of_toNat_eq
    rw [BitVec.extractLsb'_toNat, hheader, Nat.shiftRight_eq_div_pow, BitVec.toNat_ofNat]
    omega
  have hbyte : ((len <<< 16) + (0#32 <<< 8) + cmd).extractLsb' 0 8 = cmd.setWidth 8 := by
    apply BitVec.eq_of_toNat_eq
    rw [BitVec.extractLsb'_toNat, hheader, Nat.shiftRight_zero, BitVec.toNat_setWidth]
    omega
  refine ⟨?_, ?_, ?_⟩
  · rw [headerLen, BitVec.extractLsb'_toNat, hheader, Nat.shiftRight_eq_div_pow]
    omega
  · rw [headerObject, hobject]
    decide
  · rw [headerCmd, hbyte]

lemma foldl_push (handles : List (BitVec 32)) (buffer : Buffer) :
    handles.foldl (fun buffer handle => buffer ++ [handle]) buffer = buffer ++ handles := by
  rw [List.foldl_append_eq_append, ← List.flatMap_def, List.flatMap_singleton']

namespace Call

/-- The dwords that a call pushes. -/
def dwords (c : Call) : Buffer := c.issue []

/-- A call only appends to the buffer. -/
lemma issue_eq (c : Call) (buffer : Buffer) : c.issue buffer = buffer ++ c.dwords := by
  cases c with
  | clear | createSurface => rfl
  | setFramebufferState handles =>
    simp only [dwords, issue, cmdSetFramebufferState, foldl_push]
    rw [List.nil_append, List.append_assoc]

/-- The header of a call tells what the call is and how many dwords are behind it. -/
structure Frames (c : Call) (header : BitVec 32) (args : Buffer) : Prop where
  dwords : c.dwords = header :: args
  len : headerLen header = args.length
  cmd : headerCmd header = some c.cmd
  object : headerObject header = some c.object
  decoded : decodeArgs c.cmd c.object args = some c.decoded

lemma Frames.decode {c : Call} {header : BitVec 32} {args : Buffer} (h : Frames c header args)
    (rest : Buffer) : decode (header :: args ++ rest) = some c.decoded := by
  have htake : (args ++ rest).take (headerLen header) = args := by rw [h.len, List.take_left]
  rw [List.cons_append, Virgl.decode, h.cmd, h.object, htake]
  exact h.decoded

lemma frames_clear (buffers : BitVec 32) (rgba : Vector (BitVec 8) 4) (depth : BitVec 64)
    (stencil : BitVec 32) :
    ∃ header args, Frames (.clear buffers rgba depth stencil) header args := by
  have hlen : headerLen ((8#32 <<< 16) + (0#32 <<< 8) + Cmd3d.clear.toU32) = 8 := by decide
  have hcmd : headerCmd ((8#32 <<< 16) + (0#32 <<< 8) + Cmd3d.clear.toU32) = some .clear := by
    decide
  have hobject : headerObject ((8#32 <<< 16) + (0#32 <<< 8) + Cmd3d.clear.toU32) = some .null := by
    decide
  refine ⟨_, _, rfl, hlen, hcmd, hobject, ?_⟩
  have hrgba : #v[rgba[0].setWidth 32, rgba[1].setWidth 32, rgba[2].setWidth 32,
      rgba[3].setWidth 32] = rgba.map fun c => c.setWidth 32 := by
    apply Vector.ext
    intro i hi
    have hcases : i = 0 ∨ i = 1 ∨ i = 2 ∨ i = 3 := by omega
    obtain rfl | rfl | rfl | rfl := hcases <;> simp
  exact congrArg (fun v => some (Decoded.clear buffers v)) hrgba

lemma frames_setFramebufferState {handles : List (BitVec 32)} (h : handles.length < 65534) :
    ∃ header args, Frames (.setFramebufferState handles) header args := by
  have hcount : (BitVec.ofNat 32 handles.length).toNat = handles.length := by
    rw [BitVec.toNat_ofNat]
    omega
  have hlen : (BitVec.ofNat 32 handles.length + 2#32).toNat = handles.length + 2 := by
    rw [BitVec.toNat_add, hcount, BitVec.toNat_ofNat]
    omega
  have hcmd : Cmd3d.ofByte (Cmd3d.setFramebufferState.toU32.setWidth 8) =
      some .setFramebufferState := by decide
  obtain ⟨hl, ho, hc⟩ := header_fields (BitVec.ofNat 32 handles.length + 2#32)
    Cmd3d.setFramebufferState.toU32 (by omega) (by decide)
  exact ⟨_, _, foldl_push _ _, hl.trans hlen, hc.trans hcmd, ho, if_pos hcount.symm⟩

lemma frames_createSurface (handle : BitVec 32) (format : VirglFormats) :
    ∃ header args, Frames (.createSurface handle format) header args := by
  let header := (5#32 <<< 16) ||| (VirglObjectType.surface.toU32 <<< 8) ||| Cmd3d.createObject.toU32
  have hlen : headerLen header = 5 := by decide
  have hcmd : headerCmd header = some .createObject := by decide
  have hobject : headerObject header = some .surface := by decide
  refine ⟨header, _, rfl, hlen, hcmd, hobject, ?_⟩
  exact congrArg (Option.map (Decoded.createSurface handle handle)) format.ofU32_toU32

lemma exists_frames {c : Call} (h : c.Short) : ∃ header args, Frames c header args := by
  cases c with
  | clear buffers rgba depth stencil => exact frames_clear buffers rgba depth stencil
  | setFramebufferState handles => exact frames_setFramebufferState h
  | createSurface handle format => exact frames_createSurface handle format

end Call

/-! ## The stream -/

lemma stream_eq (calls : List Call) : stream calls = (calls.map Call.dwords).flatten := by
  have hissue : Call.issue = fun buffer c => buffer ++ c.dwords := by
    funext buffer c
    exact c.issue_eq buffer
  rw [stream, hissue, List.foldl_append_eq_append, List.nil_append]

/-- Where a command starts: the buffer is that long when it is issued. -/
lemma start_eq (calls : List Call) (k : ℕ) :
    Framing.start (calls.map Call.dwords) k = (stream (calls.take k)).length := by
  rw [Framing.start, stream_eq, List.map_take]

lemma framed {calls : List Call} (h : ∀ c ∈ calls, c.Short) :
    ∀ r ∈ calls.map Call.dwords, Framing.Framed headerLen r := by
  intro r hr
  obtain ⟨c, hc, rfl⟩ := List.mem_map.mp hr
  obtain ⟨header, args, hframes⟩ := Call.exists_frames (h c hc)
  rw [hframes.dwords]
  exact hframes.len

lemma drop_stream {calls : List Call} {k : ℕ} (hk : k < calls.length) :
    ∃ rest, (stream calls).drop (stream (calls.take k)).length = calls[k].dwords ++ rest := by
  have hdrop := @Framing.drop_start _ (calls.map Call.dwords) k (by rwa [List.length_map])
  rw [start_eq, ← stream_eq, List.getElem_map] at hdrop
  exact ⟨_, hdrop⟩

/-- Following the headers of a stream leads to the start of every command and then to the end, and
at each start the host reads the command that was issued there. -/
theorem stream_framing {calls : List Call} (h : ∀ c ∈ calls, c.Short) :
    (∀ k ≤ calls.length, Follow.nth (Framing.next headerLen (stream calls)) 0 k =
      some (stream (calls.take k)).length) ∧
    Follow.nth (Framing.next headerLen (stream calls)) 0 (calls.length + 1) = none ∧
    ∀ (k : ℕ) (hk : k < calls.length), ∃ header rest,
      (stream calls).drop (stream (calls.take k)).length = header :: rest ∧
      headerCmd header = some calls[k].cmd ∧ headerObject header = some calls[k].object ∧
      decode (header :: rest) = some calls[k].decoded := by
  have hwalk : ∀ k ≤ calls.length, Follow.nth (Framing.next headerLen (stream calls)) 0 k =
      some (stream (calls.take k)).length := by
    intro k hk
    rw [← start_eq, stream_eq]
    exact Framing.nth_next (framed h) (by rwa [List.length_map])
  refine ⟨hwalk, ?_, fun k hk => ?_⟩
  · rw [Follow.nth, hwalk _ (Nat.le_refl _), Option.bind_some, List.take_length]
    exact Framing.next_length _
  · obtain ⟨rest, hdrop⟩ := drop_stream hk
    obtain ⟨header, args, hframes⟩ := Call.exists_frames (h calls[k] (List.getElem_mem hk))
    rw [hframes.dwords, List.cons_append] at hdrop
    exact ⟨header, args ++ rest, hdrop, hframes.cmd, hframes.object, hframes.decode rest⟩

/-- `PIPE_CLEAR_COLOR`: the bits of the eight color buffers. -/
def pipeClearColor : BitVec 32 := 0x3FC#32

/-- The calls of `drive` for the resource 2 with the default format. -/
def driveCalls : List Call :=
  [.createSurface 2 ⟨67, by decide⟩, .setFramebufferState [2],
    .clear pipeClearColor #v[255, 0, 0, 255] 0 0]

theorem stream_framing_drive :
    Follow.nth (Framing.next headerLen (stream driveCalls)) 0 2 = some 10 ∧
      Follow.nth (Framing.next headerLen (stream driveCalls)) 0 3 =
        some (stream driveCalls).length ∧
      decode ((stream driveCalls).drop 6) = some (.setFramebufferState [2]) := by
  have hshort : ∀ c ∈ driveCalls, c.Short := by decide
  obtain ⟨hwalk, -, hread⟩ := stream_framing hshort
  obtain ⟨header, rest, hdrop, -, -, hdecode⟩ := hread 1 (by decide)
  refine ⟨hwalk 2 (by decide), hwalk 3 (by decide), ?_⟩
  rw [← hdrop] at hdecode
  exact hdecode

/-! ## The submission -/

lemma submit_isSome {buffer : Buffer} : (submit buffer).isSome ↔ buffer.length ≤ 512 := by
  unfold submit
  split
  case isTrue h =>
    rw [pad, List.length_append, List.length_replicate] at h
    exact iff_of_true rfl (by omega)
  case isFalse h =>
    rw [pad, List.length_append, List.length_replicate] at h
    exact iff_of_false Bool.false_ne_true (by omega)

end Fomos.Virgl
