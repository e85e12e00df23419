import MyCeph.Messages.Wire

namespace MyCeph.Messages

open Lib
open Upload (Bytes)

/-!
# Messages on the wire

What the generated code promises if the runtime keeps its own promises (`Lawful`).

* `Switch.Reads` — bytes that a parser takes as a change to the message, whatever follows them;
  the bytes of a message are read as `MergeFrom` of it (`UploadFileRequest.reads`);
* `requests_parse` — messages behind each other are parsed as merged into one, and a message alone
  as itself;
* `messages_reencode` — what has been parsed can be written again, unknown fields included, and
  parses as the same message; `ByteSizeLong` is the number of bytes written.
-/

variable {rt : Runtime} {M : Type} {sw : Switch M}

/-! ### Parsing bit by bit -/

/-- At the end of the input the message is as it is. -/
theorem Switch.internalParse_nil (sw : Switch M) (msg : M) :
    sw.internalParse rt msg [] = some (msg, [], none) := by
  unfold Switch.internalParse
  have hpass : sw.pass rt msg [] = some (.exit (msg, [], none)) := rfl
  split
  · rename_i h
    rw [hpass] at h
    cases h
  · rename_i h
    rw [hpass] at h
    cases h
    rfl
  · rename_i h
    rw [hpass] at h
    cases h

/-- A pass that goes round hands the rest to the next one. -/
theorem Switch.internalParse_again {msg msg' : M} {ptr ptr' : Bytes}
    (hpass : sw.pass rt msg ptr = some (.again (msg', ptr'))) :
    sw.internalParse rt msg ptr = sw.internalParse rt msg' ptr' := by
  rw [Switch.internalParse]
  split
  · rename_i h
    rw [hpass] at h
    cases h
  · rename_i h
    rw [hpass] at h
    cases h
  · rename_i h
    rw [hpass] at h
    cases h
    rfl

/-- The parser takes `bytes` as a change from `msg` to `msg'`. -/
def Switch.Reads (rt : Runtime) (sw : Switch M) (msg : M) (bytes : Bytes) (msg' : M) : Prop :=
  ∀ rest, sw.internalParse rt msg (bytes ++ rest) = sw.internalParse rt msg' rest

theorem Switch.Reads.nil (msg : M) : sw.Reads rt msg [] msg := fun _ => rfl

theorem Switch.Reads.append {msg msg₁ msg₂ : M} {bytes bytes' : Bytes}
    (h : sw.Reads rt msg bytes msg₁) (h' : sw.Reads rt msg₁ bytes' msg₂) :
    sw.Reads rt msg (bytes ++ bytes') msg₂ := by
  intro rest
  rw [List.append_assoc, h, h']

/-- Bytes that are all of the input end the parse. -/
theorem Switch.Reads.all {msg msg' : M} {bytes : Bytes} (h : sw.Reads rt msg bytes msg') :
    sw.internalParse rt msg bytes = some (msg', [], none) := by
  have hall := h []
  rwa [List.append_nil, Switch.internalParse_nil] at hall

theorem Runtime.ne_nil {ptr rest : Bytes} {tag : UInt32} (h : rt.readTag ptr = some (tag, rest)) :
    ptr ≠ [] := by
  rintro rfl
  exact Nat.not_lt_zero _ (rt.readTag_lt h)

/-- A field of the message. -/
theorem Switch.Reads.case {msg msg' : M} {bytes : Bytes} {tag : UInt32}
    {parse : M → Bytes → Option (M × Bytes)} (hcase : sw.case? tag = some parse)
    (h : ∀ rest, ∃ ptr, rt.readTag (bytes ++ rest) = some (tag, ptr) ∧
      parse msg ptr = some (msg', rest)) : sw.Reads rt msg bytes msg' := by
  intro rest
  obtain ⟨ptr, htag, hparse⟩ := h rest
  apply Switch.internalParse_again
  unfold Switch.pass
  rw [if_neg (Runtime.ne_nil htag)]
  simp only [htag, hcase, hparse, Option.map_some]

/-- The field goes to the unknown fields of the message, and can be read there. -/
structure Switch.Unusual (rt : Runtime) (sw : Switch M) (u : UnknownField) : Prop where
  no_case : sw.case? u.tag = none
  no_end : ¬ (u.tag &&& 7 = 4 ∨ u.tag = 0)
  readable : ∃ ptr after, rt.unknownFieldParse u.tag ptr = some (u, after)

/-- A field the message does not have is added to the unknown ones. -/
theorem Switch.Reads.unknown (law : Lawful rt) {u : UnknownField} (hu : sw.Unusual rt u)
    (msg : M) : sw.Reads rt msg (rt.writeUnknownField u) (sw.addUnknown msg u) := by
  intro rest
  obtain ⟨ptr, after, hread⟩ := hu.readable
  obtain ⟨ptr', htag, hagain⟩ := (law.unknown hread).2 rest
  apply Switch.internalParse_again
  unfold Switch.pass
  rw [if_neg (Runtime.ne_nil htag)]
  simp only [htag, hu.no_case, if_neg hu.no_end, hagain, Option.map_some]

theorem Switch.Reads.unknowns (law : Lawful rt) {us : List UnknownField}
    (hus : ∀ u ∈ us, sw.Unusual rt u) (msg : M) :
    sw.Reads rt msg (us.flatMap rt.writeUnknownField) (us.foldl sw.addUnknown msg) := by
  induction us generalizing msg with
  | nil => exact .nil msg
  | cons u us ih =>
    rw [List.flatMap_cons, List.foldl_cons]
    apply (Switch.Reads.unknown law (hus u List.mem_cons_self) msg).append
    exact ih (fun u hu => hus u (List.mem_cons_of_mem _ hu)) _

/-- **Rule for what parsing keeps.**  `P` is kept by the code at each `case` and by an unknown
    field. -/
theorem Switch.internalParse_keeps (P : M → Prop)
    (hcase : ∀ {tag parse msg ptr msg' rest}, sw.case? tag = some parse → P msg →
      parse msg ptr = some (msg', rest) → P msg')
    (hunknown : ∀ {msg u}, sw.Unusual rt u → P msg → P (sw.addUnknown msg u))
    (law : Lawful rt) {msg msg' : M} {ptr rest : Bytes} {last : Option UInt32} (hP : P msg)
    (h : sw.internalParse rt msg ptr = some (msg', rest, last)) : P msg' := by
  induction hn : ptr.length using Nat.strongRecOn generalizing msg ptr with
  | ind n ih =>
    subst hn
    rw [Switch.internalParse] at h
    split at h
    · cases h
    · rename_i result hpass
      cases h
      -- The loop ends with the message it has.
      unfold Switch.pass at hpass
      split at hpass
      · cases hpass
        exact hP
      split at hpass
      · cases hpass
      split at hpass
      · obtain ⟨st, -, hst⟩ := Option.map_eq_some_iff.mp hpass
        cases hst
      split at hpass
      · cases hpass
        exact hP
      · obtain ⟨st, -, hst⟩ := Option.map_eq_some_iff.mp hpass
        cases hst
    · rename_i msg₁ ptr₁ hpass
      refine ih ptr₁.length (sw.pass_lt hpass) ?_ h rfl
      unfold Switch.pass at hpass
      split at hpass
      · cases hpass
      split at hpass
      · cases hpass
      rename_i tag ptr₂ htag
      split at hpass
      · rename_i parse hc
        obtain ⟨st, hparse, hst⟩ := Option.map_eq_some_iff.mp hpass
        cases hst
        exact hcase hc hP hparse
      rename_i hc
      split at hpass
      · cases hpass
      · rename_i hend
        obtain ⟨⟨u, ptr₃⟩, hread, hst⟩ := Option.map_eq_some_iff.mp hpass
        cases hst
        obtain rfl := (law.unknown hread).1
        exact hunknown ⟨hc, hend, ptr₂, ptr₃, hread⟩ hP

/-! ### A string and a number -/

/-- The message can be written: the string has passed `VerifyUTF8`, and the unknown fields are
    such. -/
structure TextSize.Sound (rt : Runtime) (fieldName : String) (msg : TextSize) : Prop where
  text : msg.text = [] ∨
    rt.verifyUTF8 msg.text fieldName = true ∧ msg.text.length ≤ rt.sizeLimit
  unknownFields : ∀ u ∈ msg.unknownFields, (TextSize.switch rt fieldName).Unusual rt u

/-- Unknown fields added one by one are appended. -/
theorem TextSize.foldl_addUnknown (us : List UnknownField) (msg : TextSize) :
    us.foldl TextSize.addUnknown msg
      = { msg with unknownFields := msg.unknownFields ++ us } := by
  induction us generalizing msg with
  | nil => simp
  | cons u us ih =>
    rw [List.foldl_cons, ih]
    simp [TextSize.addUnknown]

variable {fieldName : String}

/-- The `case` of the string. -/
theorem TextSize.case?_text (rt : Runtime) (fieldName : String) :
    (TextSize.switch rt fieldName).case? (fieldTag 1 2)
    = some fun msg ptr =>
      match rt.inlineGreedyStringParser ptr with
      | none => none
      | some (str, ptr) =>
        if rt.verifyUTF8 str fieldName then some ({ msg with text := str }, ptr) else none := rfl

theorem TextSize.case?_size (rt : Runtime) (fieldName : String) :
    (TextSize.switch rt fieldName).case? (fieldTag 2 0)
    = some fun msg ptr =>
      match rt.readVarint32 ptr with
      | none => none
      | some (size, ptr) => some ({ msg with size := size }, ptr) := rfl

/-- **What is written is read as merged.** -/
theorem TextSize.reads (law : Lawful rt) {msg : TextSize} (h : msg.Sound rt fieldName)
    (msg₀ : TextSize) : (TextSize.switch rt fieldName).Reads rt msg₀ (msg.internalSerialize rt)
      (msg₀.mergeFrom msg) := by
  -- An empty text is not written, and leaves the text that was there.
  have htext : (TextSize.switch rt fieldName).Reads rt msg₀
      (if msg.text.length > 0 then rt.writeStringMaybeAliased 1 msg.text else [])
      { msg₀ with text := if msg.text.length > 0 then msg.text else msg₀.text } := by
    split
    · rename_i hpos
      obtain hnil | ⟨hutf8, hle⟩ := h.text
      · rw [hnil] at hpos
        cases hpos
      refine Switch.Reads.case (TextSize.case?_text rt fieldName) ?_
      intro rest
      obtain ⟨ptr, htag, hread⟩ := law.string 1 (by decide) (by decide) hle rest
      refine ⟨ptr, htag, ?_⟩
      simp only [hread, hutf8, if_true]
    · exact .nil _
  -- The same for a size of 0.
  have hsize : ∀ msg₁ : TextSize, (TextSize.switch rt fieldName).Reads rt msg₁
      (if msg.size ≠ 0 then rt.writeUInt32ToArray 2 msg.size else [])
      { msg₁ with size := if msg.size ≠ 0 then msg.size else msg₁.size } := by
    intro msg₁
    split
    · refine Switch.Reads.case (TextSize.case?_size rt fieldName) ?_
      intro rest
      obtain ⟨ptr, htag, hread⟩ := law.uInt32 2 (by decide) (by decide) msg.size rest
      refine ⟨ptr, htag, ?_⟩
      simp only [hread]
    · exact .nil _
  have hall := (htext.append (hsize _)).append (.unknowns law h.unknownFields _)
  have hmerged : msg.unknownFields.foldl TextSize.addUnknown
      { msg₀ with
        text := if msg.text.length > 0 then msg.text else msg₀.text
        size := if msg.size ≠ 0 then msg.size else msg₀.size } = msg₀.mergeFrom msg :=
    TextSize.foldl_addUnknown _ _
  rw [← hmerged]
  exact hall

/-- The size of the unknown fields. -/
theorem unknownFields_length (law : Lawful rt) {us : List UnknownField}
    (hus : ∀ u ∈ us, sw.Unusual rt u) :
    (us.flatMap rt.writeUnknownField).length = (us.map rt.unknownFieldSize).sum := by
  induction us with
  | nil => rfl
  | cons u us ih =>
    obtain ⟨ptr, after, hread⟩ := (hus u List.mem_cons_self).readable
    rw [List.flatMap_cons, List.length_append, List.map_cons, List.sum_cons,
      law.unknownFieldSize hread, ih fun u hu => hus u (List.mem_cons_of_mem _ hu)]

/-- **The size** is that of what is written, field by field. -/
theorem TextSize.byteSizeLong_eq (law : Lawful rt) {msg : TextSize}
    (h : msg.Sound rt fieldName) :
    msg.byteSizeLong rt = (msg.internalSerialize rt).length := by
  have htext : (if msg.text.length > 0 then rt.writeStringMaybeAliased 1 msg.text
      else []).length = if msg.text.length > 0 then 1 + rt.stringSize msg.text else 0 := by
    split
    · rename_i hpos
      obtain hnil | ⟨-, hle⟩ := h.text
      · rw [hnil] at hpos
        cases hpos
      · exact law.stringSize 1 (by decide) (by decide) hle
    · rfl
  have hsize : (if msg.size ≠ 0 then rt.writeUInt32ToArray 2 msg.size else []).length
      = if msg.size ≠ 0 then 1 + rt.uInt32Size msg.size else 0 := by
    split
    · exact law.uInt32Size 2 (by decide) (by decide) msg.size
    · rfl
  -- The sizes are added up in the order in which the fields are written.
  unfold TextSize.byteSizeLong TextSize.internalSerialize
  rw [List.length_append, List.length_append, htext, hsize,
    unknownFields_length law h.unknownFields]

/-- **What has been parsed can be written.** -/
theorem TextSize.sound_of_parse (law : Lawful rt) {msg₀ msg : TextSize} {ptr rest : Bytes}
    {last : Option UInt32} (h₀ : msg₀.Sound rt fieldName)
    (h : (TextSize.switch rt fieldName).internalParse rt msg₀ ptr = some (msg, rest, last)) :
    msg.Sound rt fieldName := by
  refine Switch.internalParse_keeps (fun msg => msg.Sound rt fieldName) ?_ ?_ law h₀ h
  · intro tag parse msg ptr msg' rest hcase hmsg hparse
    change TextSize.case? rt fieldName tag = some parse at hcase
    unfold TextSize.case? at hcase
    split at hcase
    · split at hcase
      · cases hcase
        dsimp only at hparse
        split at hparse
        · cases hparse
        rename_i str ptr' hstr
        split at hparse
        · rename_i hutf8
          cases hparse
          exact ⟨.inr ⟨hutf8, law.string_le hstr⟩, hmsg.unknownFields⟩
        · cases hparse
      · cases hcase
    · split at hcase
      · cases hcase
        dsimp only at hparse
        split at hparse
        · cases hparse
        · cases hparse
          exact ⟨hmsg.text, hmsg.unknownFields⟩
      · cases hcase
    · cases hcase
  · intro msg u hu hmsg
    refine ⟨hmsg.text, fun u' hu' => ?_⟩
    rcases List.mem_append.mp hu' with hu' | hu'
    · exact hmsg.unknownFields u' hu'
    · obtain rfl := List.mem_singleton.mp hu'
      exact hu

theorem TextSize.sound_empty (rt : Runtime) (fieldName : String) :
    TextSize.Sound rt fieldName {} :=
  ⟨.inl rfl, fun _ hu => absurd hu List.not_mem_nil⟩

/-- Merging into a new message copies. -/
theorem TextSize.empty_mergeFrom (msg : TextSize) : TextSize.mergeFrom {} msg = msg := by
  obtain ⟨text, size, unknownFields⟩ := msg
  unfold TextSize.mergeFrom
  congr 1
  · cases text <;> simp
  · by_cases hsize : size = 0 <;> simp [hsize]

/-- The cached size of a `FileInfo` is that of what is written. -/
theorem FileInfo.byteSizeLong_eq (law : Lawful rt) {msg : FileInfo}
    (h : msg.Sound rt "pb.FileInfo.name") :
    msg.byteSizeLong rt = (msg.internalSerialize rt).length :=
  TextSize.byteSizeLong_eq law h

/-- A `FileInfo` merged into a new one is the `FileInfo`. -/
theorem FileInfo.empty_mergeFrom (msg : FileInfo) : FileInfo.mergeFrom {} msg = msg :=
  TextSize.empty_mergeFrom msg

/-! ### Requests -/

/-- The request can be written. -/
structure UploadFileRequest.Sound (rt : Runtime) (msg : UploadFileRequest) : Prop where
  info : ∀ info, msg.data = .info info → info.Sound rt "pb.FileInfo.name"
  chunkData : ∀ bytes, msg.data = .chunkData bytes → bytes.length ≤ rt.sizeLimit
  unknownFields : ∀ u ∈ msg.unknownFields, (UploadFileRequest.switch rt).Unusual rt u

/-- The `FileInfo` in the request is not longer than what can be read. -/
def UploadFileRequest.Fits (rt : Runtime) (msg : UploadFileRequest) : Prop :=
  ∀ info, msg.data = .info info → (info.internalSerialize rt).length ≤ rt.sizeLimit

theorem UploadFileRequest.foldl_addUnknown (us : List UnknownField) (msg : UploadFileRequest) :
    us.foldl UploadFileRequest.addUnknown msg
      = { msg with unknownFields := msg.unknownFields ++ us } := by
  induction us generalizing msg with
  | nil => simp
  | cons u us ih =>
    rw [List.foldl_cons, ih]
    simp [UploadFileRequest.addUnknown]

/-- The `case` of the `FileInfo`. -/
theorem UploadFileRequest.case?_info (rt : Runtime) :
    (UploadFileRequest.switch rt).case? (fieldTag 1 2)
      = some fun msg ptr =>
        match rt.parseMessage (FileInfo.internalParse rt) msg.data.mutableInfo ptr with
        | none => none
        | some (info, ptr) => some ({ msg with data := .info info }, ptr) := rfl

theorem UploadFileRequest.case?_chunkData (rt : Runtime) :
    (UploadFileRequest.switch rt).case? (fieldTag 2 2)
      = some fun msg ptr =>
        match rt.inlineGreedyStringParser ptr with
        | none => none
        | some (str, ptr) => some ({ msg with data := .chunkData str }, ptr) := rfl

/-- **What is written is read as merged.** -/
theorem UploadFileRequest.reads (law : Lawful rt) {msg : UploadFileRequest} (h : msg.Sound rt)
    (hfits : msg.Fits rt) (msg₀ : UploadFileRequest) :
    (UploadFileRequest.switch rt).Reads rt msg₀ (msg.internalSerialize rt)
      (msg₀.mergeFrom msg) := by
  have hdata : ∀ bytes data,
      (UploadFileRequest.switch rt).Reads rt msg₀ bytes { msg₀ with data := data } →
      (UploadFileRequest.switch rt).Reads rt msg₀
        (bytes ++ msg.unknownFields.flatMap rt.writeUnknownField)
        ⟨data, msg₀.unknownFields ++ msg.unknownFields⟩ := by
    intro bytes data hreads
    have hall := hreads.append (.unknowns law h.unknownFields _)
    have hmerged : msg.unknownFields.foldl UploadFileRequest.addUnknown
        { msg₀ with data := data } = ⟨data, msg₀.unknownFields ++ msg.unknownFields⟩ :=
      UploadFileRequest.foldl_addUnknown _ _
    rw [← hmerged]
    exact hall
  unfold UploadFileRequest.internalSerialize UploadFileRequest.mergeFrom
  cases hmsg : msg.data with
  | info info =>
    apply hdata
    have hinfo := h.info info hmsg
    dsimp only
    rw [FileInfo.byteSizeLong_eq law hinfo]
    refine Switch.Reads.case (UploadFileRequest.case?_info rt) fun rest => ?_
    obtain ⟨ptr, htag, hread⟩ := law.message 1 (by decide) (by decide) (hfits info hmsg) rest
    -- The parser of the `FileInfo` reads all of it.
    have hparse := hread (FileInfo.internalParse rt) msg₀.data.mutableInfo
      (msg₀.data.mutableInfo.mergeFrom info) (TextSize.reads law hinfo _).all
    refine ⟨ptr, htag, ?_⟩
    simp only [hparse]
  | chunkData bytes =>
    apply hdata
    refine Switch.Reads.case (UploadFileRequest.case?_chunkData rt) fun rest => ?_
    obtain ⟨ptr, htag, hread⟩ := law.bytes 2 (by decide) (by decide) (h.chunkData bytes hmsg) rest
    refine ⟨ptr, htag, ?_⟩
    simp only [hread]
  | notSet => exact hdata [] msg₀.data (.nil _)

theorem UploadFileRequest.empty_mergeFrom (msg : UploadFileRequest) :
    UploadFileRequest.mergeFrom {} msg = msg := by
  obtain ⟨data, unknownFields⟩ := msg
  unfold UploadFileRequest.mergeFrom
  cases data with
  | info info =>
    simp only [List.nil_append]
    rw [show Data.mutableInfo .notSet = {} from rfl, FileInfo.empty_mergeFrom]
  | chunkData bytes => rfl
  | notSet => rfl

theorem UploadFileRequest.sound_empty (rt : Runtime) : UploadFileRequest.Sound rt {} :=
  ⟨nofun, nofun, fun _ hu => absurd hu List.not_mem_nil⟩

/-- **The size** is that of what is written. -/
theorem UploadFileRequest.byteSizeLong_eq (law : Lawful rt) {msg : UploadFileRequest}
    (h : msg.Sound rt) (hfits : msg.Fits rt) :
    msg.byteSizeLong rt = (msg.internalSerialize rt).length := by
  unfold UploadFileRequest.byteSizeLong UploadFileRequest.internalSerialize
  rw [List.length_append, unknownFields_length law h.unknownFields, Nat.add_right_cancel_iff]
  cases hmsg : msg.data with
  | info info =>
    dsimp only
    rw [FileInfo.byteSizeLong_eq law (h.info info hmsg)]
    exact (law.messageSize 1 (by decide) (by decide) (hfits info hmsg)).symm
  | chunkData bytes =>
    exact (law.bytesSize 2 (by decide) (by decide) (h.chunkData bytes hmsg)).symm
  | notSet => rfl

/-- **What has been parsed can be written.** -/
theorem UploadFileRequest.sound_of_parse (law : Lawful rt) {msg₀ msg : UploadFileRequest}
    {ptr rest : Bytes} {last : Option UInt32} (h₀ : msg₀.Sound rt)
    (h : UploadFileRequest.internalParse rt msg₀ ptr = some (msg, rest, last)) :
    msg.Sound rt := by
  refine Switch.internalParse_keeps (fun msg => msg.Sound rt) ?_ ?_ law h₀ h
  · intro tag parse msg ptr msg' rest hcase hmsg hparse
    change UploadFileRequest.case? rt tag = some parse at hcase
    unfold UploadFileRequest.case? at hcase
    split at hcase
    · split at hcase
      · cases hcase
        dsimp only at hparse
        split at hparse
        · cases hparse
        rename_i info ptr' hinfo
        cases hparse
        obtain ⟨body, hbody⟩ := law.message_inside hinfo
        -- The nested message is merged into the one that is there, or into an empty one.
        have hmutable : msg.data.mutableInfo.Sound rt "pb.FileInfo.name" := by
          unfold Data.mutableInfo
          split
          · rename_i fileInfo hdata
            exact hmsg.info fileInfo hdata
          · exact TextSize.sound_empty rt _
        refine ⟨fun fileInfo hdata => ?_, nofun, hmsg.unknownFields⟩
        cases hdata
        exact TextSize.sound_of_parse law hmutable hbody
      · cases hcase
    · split at hcase
      · cases hcase
        dsimp only at hparse
        split at hparse
        · cases hparse
        rename_i str ptr' hstr
        cases hparse
        refine ⟨nofun, fun bytes hdata => ?_, hmsg.unknownFields⟩
        cases hdata
        exact law.string_le hstr
      · cases hcase
    · cases hcase
  · intro msg u hu hmsg
    refine ⟨hmsg.info, hmsg.chunkData, fun u' hu' => ?_⟩
    rcases List.mem_append.mp hu' with hu' | hu'
    · exact hmsg.unknownFields u' hu'
    · obtain rfl := List.mem_singleton.mp hu'
      exact hu

/-! ### Round trips -/

/-- **Messages behind each other** are parsed as merged one after the other into the message at
    hand; a message alone is parsed as itself. -/
theorem requests_parse (law : Lawful rt) (msg₀ : UploadFileRequest)
    (msgs : List UploadFileRequest) (h : ∀ msg ∈ msgs, msg.Sound rt ∧ msg.Fits rt) :
    UploadFileRequest.internalParse rt msg₀ (msgs.flatMap (UploadFileRequest.internalSerialize rt))
        = some (msgs.foldl UploadFileRequest.mergeFrom msg₀, [], none) ∧
      ∀ msg ∈ msgs, UploadFileRequest.internalParse rt {} (msg.internalSerialize rt)
        = some (msg, [], none) := by
  constructor
  · induction msgs generalizing msg₀ with
    | nil => exact Switch.internalParse_nil _ msg₀
    | cons msg msgs ih =>
      obtain ⟨hsound, hfits⟩ := h msg List.mem_cons_self
      -- Parsing the first message leaves the bytes of the others, and merges it in.
      rw [List.flatMap_cons, List.foldl_cons]
      calc UploadFileRequest.internalParse rt msg₀ _
          = UploadFileRequest.internalParse rt (msg₀.mergeFrom msg)
            (msgs.flatMap (UploadFileRequest.internalSerialize rt)) :=
            UploadFileRequest.reads law hsound hfits msg₀ _
        _ = some (msgs.foldl UploadFileRequest.mergeFrom (msg₀.mergeFrom msg), [], none) :=
            ih _ fun msg hmsg => h msg (List.mem_cons_of_mem _ hmsg)
  · intro msg hmsg
    obtain ⟨hsound, hfits⟩ := h msg hmsg
    have hall := (UploadFileRequest.reads law hsound hfits {}).all
    rwa [UploadFileRequest.empty_mergeFrom] at hall

/-- An unknown field with number 3, four bytes wide. -/
def newField : UnknownField := ⟨29, [1, 2, 3, 4]⟩

/-- No `case` of a request takes it. -/
theorem newField_unusual : (UploadFileRequest.switch wire).Unusual wire newField :=
  ⟨rfl, by decide, [1, 2, 3, 4], [], rfl⟩

/-- A `FileInfo` without a name, and a chunk with an unknown field. -/
def twoRequests : List UploadFileRequest :=
  [⟨.info { size := 7 }, []⟩, ⟨.chunkData [5, 6], [newField]⟩]

/-- The chunk behind the `FileInfo` takes its place in the `oneof`. -/
theorem requests_parse_twoRequests :
    UploadFileRequest.internalParse wire {}
        (twoRequests.flatMap (UploadFileRequest.internalSerialize wire))
      = some (⟨.chunkData [5, 6], [newField]⟩, [], none) := by
  refine (requests_parse wire_lawful {} twoRequests ?_).1
  intro msg hmsg
  rcases List.mem_cons.mp hmsg with rfl | hmsg
  · refine ⟨⟨?_, nofun, nofun⟩, ?_⟩
    · intro info hinfo
      cases hinfo
      exact ⟨.inl rfl, nofun⟩
    · intro info hinfo
      cases hinfo
      have hseven : (Varint.encode 7).length ≤ 5 := encode_length_le_five (by decide)
      show (([] : Bytes) ++ putField 2 0 (Varint.encode 7) ++ []).length ≤ 2147483631
      rw [List.nil_append, List.append_nil, putField_length (by decide) (by decide)]
      omega
  · obtain rfl := List.mem_singleton.mp hmsg
    refine ⟨⟨nofun, ?_, ?_⟩, nofun⟩
    · intro bytes hbytes
      cases hbytes
      decide
    · intro u hu
      obtain rfl := List.mem_singleton.mp hu
      exact newField_unusual

/-- **What was parsed survives being written.**  Whatever bytes a request or a response has been
    parsed from, it is parsed again from the bytes it is written as, with its unknown fields, and
    `ByteSizeLong` counts them. -/
theorem messages_reencode (law : Lawful rt) :
    (∀ ptr msg rest last, UploadFileRequest.internalParse rt {} ptr = some (msg, rest, last) →
        msg.Fits rt →
        UploadFileRequest.internalParse rt {} (msg.internalSerialize rt) = some (msg, [], none) ∧
          msg.byteSizeLong rt = (msg.internalSerialize rt).length) ∧
      ∀ ptr msg rest last, UploadFileResponse.internalParse rt {} ptr = some (msg, rest, last) →
        UploadFileResponse.internalParse rt {} (msg.internalSerialize rt) = some (msg, [], none) ∧
          msg.byteSizeLong rt = (msg.internalSerialize rt).length := by
  constructor
  · intro ptr msg rest last hparse hfits
    have hsound := UploadFileRequest.sound_of_parse law (UploadFileRequest.sound_empty rt) hparse
    have hall := (UploadFileRequest.reads law hsound hfits {}).all
    rw [UploadFileRequest.empty_mergeFrom] at hall
    exact ⟨hall, UploadFileRequest.byteSizeLong_eq law hsound hfits⟩
  · intro ptr msg rest last hparse
    have hsound := TextSize.sound_of_parse law (TextSize.sound_empty rt _) hparse
    have hall := (TextSize.reads law hsound {}).all
    rw [TextSize.empty_mergeFrom] at hall
    exact ⟨hall, TextSize.byteSizeLong_eq law hsound⟩

/-- A request with an unknown field before two chunks, of which the last one counts. -/
theorem messages_reencode_unknown :
    UploadFileRequest.internalParse wire {}
        (UploadFileRequest.internalSerialize wire ⟨.chunkData [9], [newField]⟩)
      = some (⟨.chunkData [9], [newField]⟩, [], none) := by
  have hparse : UploadFileRequest.internalParse wire {} [29, 1, 2, 3, 4, 18, 1, 7, 18, 1, 9]
      = some (⟨.chunkData [9], [newField]⟩, [], none) := by
    refine (Switch.internalParse_again
      (show Switch.pass wire _ _ _ = some (.again (⟨.notSet, [newField]⟩, _)) from rfl)).trans ?_
    refine (Switch.internalParse_again
      (show Switch.pass wire _ _ _ = some (.again (⟨.chunkData [7], [newField]⟩, _))
        from rfl)).trans ?_
    refine (Switch.internalParse_again
      (show Switch.pass wire _ _ _ = some (.again (⟨.chunkData [9], [newField]⟩, _))
        from rfl)).trans ?_
    exact Switch.internalParse_nil _ _
  exact ((messages_reencode wire_lawful).1 _ _ _ _ hparse nofun).1

end MyCeph.Messages
