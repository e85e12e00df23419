import Mathlib.Algebra.Ring.Nat
import MyCeph.Lib.Loop
import MyCeph.Upload.Server

namespace MyCeph.Messages

open Lib
open Upload (Bytes)

/-!
# The messages of the file service

What the protocol compiler has generated for `FileInfo`, `UploadFileRequest` and
`UploadFileResponse`: parsing, serializing, measuring and merging.  The runtime underneath, which
reads and writes tags, numbers, strings and unknown fields, is a parameter (`Runtime`).  It promises
(`Lawful`) that what it writes under a field number it reads back under the tag of that number, and
that the sizes it computes are those of what it writes.

A place in the input is what is left of it up to the current limit, and null is `none`.  A parser
that stops at a tag it does not read hands that tag to the context (`SetLastTag`).  Writers
return the bytes that they append.
-/

/-! ### The runtime -/

/-- A field that the message does not have: its tag, and what stands behind the tag. -/
structure UnknownField where
  tag : UInt32
  bytes : Bytes

/-- What `_InternalParse` returns: the message, the place, and the last tag if it was set. -/
abbrev Parsed (M : Type) := Option (M × Bytes × Option UInt32)

/-- The functions of the runtime that the generated code calls.  Readers never go back, and
    reading a tag takes a byte at least. -/
structure Runtime where
  readTag : Bytes → Option (UInt32 × Bytes)
  readVarint32 : Bytes → Option (UInt32 × Bytes)
  inlineGreedyStringParser : Bytes → Option (Bytes × Bytes)
  verifyUTF8 : Bytes → String → Bool
  unknownFieldParse : UInt32 → Bytes → Option (UnknownField × Bytes)
  /-- `ctx->ParseMessage`, which calls `_InternalParse` of the message. -/
  parseMessage : {M : Type} → (M → Bytes → Parsed M) → M → Bytes → Option (M × Bytes)
  writeStringMaybeAliased : ℕ → Bytes → Bytes
  writeBytesMaybeAliased : ℕ → Bytes → Bytes
  writeUInt32ToArray : ℕ → UInt32 → Bytes
  /-- Writes the field number, the cached size and what `_InternalSerialize` has written. -/
  internalWriteMessage : ℕ → ℕ → Bytes → Bytes
  /-- `InternalSerializeUnknownFieldsToArray`, for one field. -/
  writeUnknownField : UnknownField → Bytes
  stringSize : Bytes → ℕ
  bytesSize : Bytes → ℕ
  uInt32Size : UInt32 → ℕ
  messageSize : ℕ → ℕ
  /-- `ComputeUnknownFieldsSize`, for one field. -/
  unknownFieldSize : UnknownField → ℕ
  /-- The longest string or message that is read. -/
  sizeLimit : ℕ
  readTag_lt : ∀ {ptr rest tag}, readTag ptr = some (tag, rest) → rest.length < ptr.length
  readVarint32_le : ∀ {ptr rest v}, readVarint32 ptr = some (v, rest) → rest.length ≤ ptr.length
  inlineGreedyStringParser_le : ∀ {ptr rest str},
    inlineGreedyStringParser ptr = some (str, rest) → rest.length ≤ ptr.length
  unknownFieldParse_le : ∀ {tag ptr rest u},
    unknownFieldParse tag ptr = some (u, rest) → rest.length ≤ ptr.length
  parseMessage_le : ∀ {M : Type} {parse : M → Bytes → Parsed M} {msg msg' ptr rest},
    parseMessage parse msg ptr = some (msg', rest) → rest.length ≤ ptr.length

/-- The tag of a field. -/
def fieldTag (field wireType : ℕ) : UInt32 := UInt32.ofNat (field * 8 + wireType)

/-- What the runtime promises, for the fields whose tag is one byte. -/
structure Lawful (rt : Runtime) : Prop where
  string : ∀ (field : ℕ) {str}, 0 < field → field < 16 → str.length ≤ rt.sizeLimit →
    ∀ rest, ∃ ptr,
      rt.readTag (rt.writeStringMaybeAliased field str ++ rest) = some (fieldTag field 2, ptr) ∧
      rt.inlineGreedyStringParser ptr = some (str, rest)
  bytes : ∀ (field : ℕ) {str}, 0 < field → field < 16 → str.length ≤ rt.sizeLimit →
    ∀ rest, ∃ ptr,
      rt.readTag (rt.writeBytesMaybeAliased field str ++ rest) = some (fieldTag field 2, ptr) ∧
      rt.inlineGreedyStringParser ptr = some (str, rest)
  string_le : ∀ {ptr str rest}, rt.inlineGreedyStringParser ptr = some (str, rest) →
    str.length ≤ rt.sizeLimit
  uInt32 : ∀ field, 0 < field → field < 16 → ∀ v rest, ∃ ptr,
    rt.readTag (rt.writeUInt32ToArray field v ++ rest) = some (fieldTag field 0, ptr) ∧
      rt.readVarint32 ptr = some (v, rest)
  /-- A message of the size announced is parsed up to its end. -/
  message : ∀ (field : ℕ) {body}, 0 < field → field < 16 → body.length ≤ rt.sizeLimit →
    ∀ rest, ∃ ptr,
      rt.readTag (rt.internalWriteMessage field body.length body ++ rest)
        = some (fieldTag field 2, ptr) ∧
      ∀ {M : Type} (parse : M → Bytes → Parsed M) (msg msg' : M),
        parse msg body = some (msg', [], none) → rt.parseMessage parse msg ptr = some (msg', rest)
  /-- A message inside another one has ended at its limit. -/
  message_inside : ∀ {M : Type} {parse : M → Bytes → Parsed M} {msg msg' : M} {ptr rest},
    rt.parseMessage parse msg ptr = some (msg', rest) →
      ∃ body, parse msg body = some (msg', [], none)
  /-- A field that has been read as unknown is written so that it is read again. -/
  unknown : ∀ {tag ptr u after}, rt.unknownFieldParse tag ptr = some (u, after) → u.tag = tag ∧
    ∀ rest, ∃ ptr', rt.readTag (rt.writeUnknownField u ++ rest) = some (tag, ptr') ∧
      rt.unknownFieldParse tag ptr' = some (u, rest)
  stringSize : ∀ (field : ℕ) {str}, 0 < field → field < 16 → str.length ≤ rt.sizeLimit →
    (rt.writeStringMaybeAliased field str).length = 1 + rt.stringSize str
  bytesSize : ∀ (field : ℕ) {str}, 0 < field → field < 16 → str.length ≤ rt.sizeLimit →
    (rt.writeBytesMaybeAliased field str).length = 1 + rt.bytesSize str
  uInt32Size : ∀ field, 0 < field → field < 16 → ∀ v,
    (rt.writeUInt32ToArray field v).length = 1 + rt.uInt32Size v
  messageSize : ∀ (field : ℕ) {body}, 0 < field → field < 16 → body.length ≤ rt.sizeLimit →
    (rt.internalWriteMessage field body.length body).length = 1 + rt.messageSize body.length
  unknownFieldSize : ∀ {tag ptr u after}, rt.unknownFieldParse tag ptr = some (u, after) →
    (rt.writeUnknownField u).length = rt.unknownFieldSize u

/-! ### The parse loop -/

/-- The `switch` over the tags of a message: the code at `case`, which is `none` for tags that go
    to `handle_unusual`, and where unknown fields go. -/
structure Switch (M : Type) where
  case? : UInt32 → Option (M → Bytes → Option (M × Bytes))
  addUnknown : M → UnknownField → M
  case_le : ∀ {tag parse msg ptr msg' rest}, case? tag = some parse →
    parse msg ptr = some (msg', rest) → rest.length ≤ ptr.length

variable {rt : Runtime} {M : Type}

/-- One pass of the loop in `_InternalParse`. -/
def Switch.pass (rt : Runtime) (sw : Switch M) (msg : M) (ptr : Bytes) :
    Option (Next (M × Bytes) (M × Bytes × Option UInt32)) :=
  if ptr = [] then some (.exit (msg, ptr, none))
  else
    match rt.readTag ptr with
    | none => none
    | some (tag, ptr) =>
      match sw.case? tag with
      | some parse => (parse msg ptr).map .again
      | none =>
        -- The end of a group, or no tag at all.
        if tag &&& 7 = 4 ∨ tag = 0 then some (.exit (msg, ptr, some tag))
        else (rt.unknownFieldParse tag ptr).map fun u => .again (sw.addUnknown msg u.1, u.2)

/-- A pass that goes round has read a tag, so that less of the input is left. -/
theorem Switch.pass_lt {sw : Switch M} {msg msg' : M} {ptr ptr' : Bytes}
    (h : sw.pass rt msg ptr = some (.again (msg', ptr'))) : ptr'.length < ptr.length := by
  unfold Switch.pass at h
  split at h
  · cases h
  split at h
  · cases h
  rename_i tag ptr₁ htag
  -- The tag is at least one byte, and no case gives bytes back.
  have hlt := rt.readTag_lt htag
  split at h
  · rename_i parse hcase
    obtain ⟨st, hparse, hst⟩ := Option.map_eq_some_iff.mp h
    cases hst
    exact Nat.lt_of_le_of_lt (sw.case_le hcase hparse) hlt
  split at h
  · cases h
  · obtain ⟨⟨u, ptr₂⟩, hunknown, hst⟩ := Option.map_eq_some_iff.mp h
    cases hst
    exact Nat.lt_of_le_of_lt (rt.unknownFieldParse_le hunknown) hlt

/-- `_InternalParse`. -/
def Switch.internalParse (rt : Runtime) (sw : Switch M) (msg : M) (ptr : Bytes) : Parsed M :=
  match h : sw.pass rt msg ptr with
  | none => none
  | some (.exit result) => some result
  | some (.again (msg', ptr')) =>
    have := sw.pass_lt h
    internalParse rt sw msg' ptr'
termination_by ptr.length

/-! ### A string and a number -/

/-- `FileInfo` and `UploadFileResponse`: a string, field 1, and a `uint32`, field 2. -/
structure TextSize where
  text : Bytes := []
  size : UInt32 := 0
  unknownFields : List UnknownField := []

/-- The `switch`, where `fieldName` is what `VerifyUTF8` is given. -/
def TextSize.case? (rt : Runtime) (fieldName : String) (tag : UInt32) :
    Option (TextSize → Bytes → Option (TextSize × Bytes)) :=
  match (tag >>> 3).toNat with
  | 1 =>
    if tag.toUInt8 = 10 then some fun msg ptr =>
      match rt.inlineGreedyStringParser ptr with
      | none => none
      | some (str, ptr) =>
        if rt.verifyUTF8 str fieldName then some ({ msg with text := str }, ptr) else none
    else none
  | 2 =>
    if tag.toUInt8 = 16 then some fun msg ptr =>
      match rt.readVarint32 ptr with
      | none => none
      | some (size, ptr) => some ({ msg with size := size }, ptr)
    else none
  | _ => none

/-- An unknown field is kept behind those read before. -/
def TextSize.addUnknown (msg : TextSize) (u : UnknownField) : TextSize :=
  { msg with unknownFields := msg.unknownFields ++ [u] }

/-- The code at a `case` of the string or of the number does not go back in the input. -/
theorem TextSize.case_le {fieldName : String} {tag : UInt32}
    {parse : TextSize → Bytes → Option (TextSize × Bytes)} {msg msg' : TextSize}
    {ptr rest : Bytes} (hcase : TextSize.case? rt fieldName tag = some parse)
    (hparse : parse msg ptr = some (msg', rest)) : rest.length ≤ ptr.length := by
  unfold TextSize.case? at hcase
  split at hcase
  · -- Field 1: the rest is behind the string, if it passes `VerifyUTF8`.
    split at hcase
    · cases hcase
      dsimp only at hparse
      split at hparse
      · cases hparse
      · rename_i str ptr' hstr
        split at hparse
        · cases hparse
          exact rt.inlineGreedyStringParser_le hstr
        · cases hparse
    · cases hcase
  · -- Field 2: the rest is behind the number.
    split at hcase
    · cases hcase
      dsimp only at hparse
      split at hparse
      · cases hparse
      · rename_i size ptr' hsize
        cases hparse
        exact rt.readVarint32_le hsize
    · cases hcase
  · cases hcase

/-- The `switch` of the two messages, with its unknown fields. -/
def TextSize.switch (rt : Runtime) (fieldName : String) : Switch TextSize :=
  ⟨TextSize.case? rt fieldName, TextSize.addUnknown, TextSize.case_le⟩

/-- `_InternalSerialize` of the two messages. -/
def TextSize.internalSerialize (rt : Runtime) (msg : TextSize) : Bytes :=
  (if msg.text.length > 0 then rt.writeStringMaybeAliased 1 msg.text else [])
    ++ (if msg.size ≠ 0 then rt.writeUInt32ToArray 2 msg.size else [])
    ++ msg.unknownFields.flatMap rt.writeUnknownField

/-- `ByteSizeLong` of the two messages, which also caches the size. -/
def TextSize.byteSizeLong (rt : Runtime) (msg : TextSize) : ℕ :=
  (if msg.text.length > 0 then 1 + rt.stringSize msg.text else 0)
    + (if msg.size ≠ 0 then 1 + rt.uInt32Size msg.size else 0)
    + (msg.unknownFields.map rt.unknownFieldSize).sum

/-- `MergeFrom` of the two messages. -/
def TextSize.mergeFrom (msg source : TextSize) : TextSize where
  text := if source.text.length > 0 then source.text else msg.text
  size := if source.size ≠ 0 then source.size else msg.size
  unknownFields := msg.unknownFields ++ source.unknownFields

/-- `pb::FileInfo`. -/
abbrev FileInfo := TextSize

/-- `FileInfo::_InternalParse`. -/
def FileInfo.internalParse (rt : Runtime) : FileInfo → Bytes → Parsed FileInfo :=
  (TextSize.switch rt "pb.FileInfo.name").internalParse rt

/-- `FileInfo::_InternalSerialize`. -/
def FileInfo.internalSerialize (rt : Runtime) (msg : FileInfo) : Bytes :=
  TextSize.internalSerialize rt msg

/-- `FileInfo::ByteSizeLong`. -/
def FileInfo.byteSizeLong (rt : Runtime) (msg : FileInfo) : ℕ := TextSize.byteSizeLong rt msg

/-- `FileInfo::MergeFrom`. -/
def FileInfo.mergeFrom (msg source : FileInfo) : FileInfo := TextSize.mergeFrom msg source

/-- `pb::UploadFileResponse`. -/
abbrev UploadFileResponse := TextSize

/-- `UploadFileResponse::_InternalParse`. -/
def UploadFileResponse.internalParse (rt : Runtime) :
    UploadFileResponse → Bytes → Parsed UploadFileResponse :=
  (TextSize.switch rt "pb.UploadFileResponse.id").internalParse rt

/-- `UploadFileResponse::_InternalSerialize`. -/
def UploadFileResponse.internalSerialize (rt : Runtime) (msg : UploadFileResponse) : Bytes :=
  TextSize.internalSerialize rt msg

/-- `UploadFileResponse::ByteSizeLong`. -/
def UploadFileResponse.byteSizeLong (rt : Runtime) (msg : UploadFileResponse) : ℕ :=
  TextSize.byteSizeLong rt msg

/-- `UploadFileResponse::MergeFrom`. -/
def UploadFileResponse.mergeFrom (msg source : UploadFileResponse) : UploadFileResponse :=
  TextSize.mergeFrom msg source

/-! ### The requests -/

/-- The `oneof data`. -/
inductive Data where
  | info (info : FileInfo)
  | chunkData (bytes : Bytes)
  | notSet

/-- `pb::UploadFileRequest`. -/
structure UploadFileRequest where
  data : Data := .notSet
  unknownFields : List UnknownField := []

/-- `_internal_mutable_info`: a new one, unless there is one already. -/
def Data.mutableInfo : Data → FileInfo
  | .info fileInfo => fileInfo
  | _ => {}

/-- The `switch`. -/
def UploadFileRequest.case? (rt : Runtime) (tag : UInt32) :
    Option (UploadFileRequest → Bytes → Option (UploadFileRequest × Bytes)) :=
  match (tag >>> 3).toNat with
  | 1 =>
    if tag.toUInt8 = 10 then some fun msg ptr =>
      match rt.parseMessage (FileInfo.internalParse rt) msg.data.mutableInfo ptr with
      | none => none
      | some (info, ptr) => some ({ msg with data := .info info }, ptr)
    else none
  | 2 =>
    if tag.toUInt8 = 18 then some fun msg ptr =>
      match rt.inlineGreedyStringParser ptr with
      | none => none
      | some (str, ptr) => some ({ msg with data := .chunkData str }, ptr)
    else none
  | _ => none

/-- An unknown field is kept behind those read before. -/
def UploadFileRequest.addUnknown (msg : UploadFileRequest) (u : UnknownField) :
    UploadFileRequest :=
  { msg with unknownFields := msg.unknownFields ++ [u] }

/-- The code at a `case` of the `FileInfo` or of the chunk does not go back in the input. -/
theorem UploadFileRequest.case_le {tag : UInt32}
    {parse : UploadFileRequest → Bytes → Option (UploadFileRequest × Bytes)}
    {msg msg' : UploadFileRequest} {ptr rest : Bytes}
    (hcase : UploadFileRequest.case? rt tag = some parse)
    (hparse : parse msg ptr = some (msg', rest)) : rest.length ≤ ptr.length := by
  unfold UploadFileRequest.case? at hcase
  split at hcase
  · -- Field 1: the rest is behind the message.
    split at hcase
    · cases hcase
      dsimp only at hparse
      split at hparse
      · cases hparse
      · rename_i info ptr' hinfo
        cases hparse
        exact rt.parseMessage_le hinfo
    · cases hcase
  · -- Field 2: the rest is behind the chunk, which is not looked into.
    split at hcase
    · cases hcase
      dsimp only at hparse
      split at hparse
      · cases hparse
      · rename_i str ptr' hstr
        cases hparse
        exact rt.inlineGreedyStringParser_le hstr
    · cases hcase
  · cases hcase

/-- The `switch` of a request, with its unknown fields. -/
def UploadFileRequest.switch (rt : Runtime) : Switch UploadFileRequest :=
  ⟨UploadFileRequest.case? rt, UploadFileRequest.addUnknown, UploadFileRequest.case_le⟩

/-- `UploadFileRequest::_InternalParse`. -/
def UploadFileRequest.internalParse (rt : Runtime) :
    UploadFileRequest → Bytes → Parsed UploadFileRequest :=
  (UploadFileRequest.switch rt).internalParse rt

/-- `UploadFileRequest::_InternalSerialize`, after `ByteSizeLong` has cached the sizes. -/
def UploadFileRequest.internalSerialize (rt : Runtime) (msg : UploadFileRequest) : Bytes :=
  (match msg.data with
    | .info info => rt.internalWriteMessage 1 (info.byteSizeLong rt) (info.internalSerialize rt)
    | .chunkData bytes => rt.writeBytesMaybeAliased 2 bytes
    | .notSet => [])
    ++ msg.unknownFields.flatMap rt.writeUnknownField

/-- `UploadFileRequest::ByteSizeLong`. -/
def UploadFileRequest.byteSizeLong (rt : Runtime) (msg : UploadFileRequest) : ℕ :=
  (match msg.data with
    | .info info => 1 + rt.messageSize (info.byteSizeLong rt)
    | .chunkData bytes => 1 + rt.bytesSize bytes
    | .notSet => 0)
    + (msg.unknownFields.map rt.unknownFieldSize).sum

/-- `UploadFileRequest::MergeFrom`. -/
def UploadFileRequest.mergeFrom (msg source : UploadFileRequest) : UploadFileRequest where
  data :=
    match source.data with
    | .info info => .info (msg.data.mutableInfo.mergeFrom info)
    | .chunkData bytes => .chunkData bytes
    | .notSet => msg.data
  unknownFields := msg.unknownFields ++ source.unknownFields

end MyCeph.Messages
