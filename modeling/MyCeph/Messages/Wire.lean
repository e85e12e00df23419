import MyCeph.Lib.Varint
import MyCeph.Messages.FileService

namespace MyCeph.Messages

open Lib
open Upload (Bytes)

/-!
# A runtime

The wire format on lists of bytes, without groups: a tag is a number, a string or message has its
length before it.  It keeps the promises of `Lawful` (`wire_lawful`).
-/

/-- `INT_MAX` less the bytes that the buffers keep free. -/
def wireLimit : ℕ := 2147483647 - 16

/-- A number and what it is the length of. -/
def putDelimited (str : Bytes) : Bytes := Varint.encode str.length ++ str

/-- What has its length before it, and what is behind it. -/
def getDelimited (ptr : Bytes) : Option (Bytes × Bytes) :=
  match Varint.decode 5 ptr with
  | none => none
  | some (n, rest) =>
    if n ≤ wireLimit ∧ n ≤ rest.length then some (rest.take n, rest.drop n) else none

/-- A number of 32 bits takes at most five bytes. -/
theorem encode_length_le_five {n : ℕ} (h : n < 2 ^ 32) : (Varint.encode n).length ≤ 5 := by
  apply Varint.encode_length_le
  omega

theorem encode_length_le_ten {n : ℕ} (h : n < 2 ^ 64) : (Varint.encode n).length ≤ 10 := by
  apply Varint.encode_length_le
  omega

/-- Bytes behind their length are read back. -/
theorem getDelimited_put {str : Bytes} (h : str.length ≤ wireLimit) (rest : Bytes) :
    getDelimited (putDelimited str ++ rest) = some (str, rest) := by
  have hlt : str.length < 2 ^ 32 := lt_of_le_of_lt h (by decide)
  unfold getDelimited putDelimited
  rw [List.append_assoc, Varint.decode_encode (encode_length_le_five hlt)]
  dsimp only
  rw [if_pos ⟨h, by simp⟩, List.take_left, List.drop_left]

theorem getDelimited_le {ptr str rest : Bytes} (h : getDelimited ptr = some (str, rest)) :
    str.length ≤ wireLimit ∧ rest.length ≤ ptr.length := by
  unfold getDelimited at h
  split at h
  · cases h
  rename_i n rest' hd
  have hlt := Varint.decode_lt hd
  split at h
  · rename_i hn
    cases h
    simp only [List.length_take, List.length_drop]
    omega
  · cases h

/-- `ReadTag`. -/
def wireReadTag (ptr : Bytes) : Option (UInt32 × Bytes) :=
  match Varint.decode 5 ptr with
  | none => none
  | some (n, rest) => if n < 2 ^ 32 then some (UInt32.ofNat n, rest) else none

theorem wireReadTag_put {n : ℕ} (h : n < 2 ^ 32) (rest : Bytes) :
    wireReadTag (Varint.encode n ++ rest) = some (UInt32.ofNat n, rest) := by
  unfold wireReadTag
  rw [Varint.decode_encode (encode_length_le_five h)]
  exact if_pos h

theorem wireReadTag_lt {ptr rest : Bytes} {tag : UInt32}
    (h : wireReadTag ptr = some (tag, rest)) : rest.length < ptr.length := by
  unfold wireReadTag at h
  split at h
  · cases h
  rename_i n rest' hd
  split at h
  · cases h
    exact Varint.decode_lt hd
  · cases h

/-- `ReadVarint32`. -/
def wireReadVarint32 (ptr : Bytes) : Option (UInt32 × Bytes) :=
  (Varint.decode 10 ptr).map fun r => (UInt32.ofNat r.1, r.2)

/-- The first `n` bytes, as an unknown field. -/
def takeUnknown (tag : UInt32) (n : ℕ) (ptr : Bytes) : Option (UnknownField × Bytes) :=
  if n ≤ ptr.length then some (⟨tag, ptr.take n⟩, ptr.drop n) else none

/-- `UnknownFieldParse`. -/
def wireUnknownFieldParse (tag : UInt32) (ptr : Bytes) : Option (UnknownField × Bytes) :=
  match (tag &&& 7).toNat with
  | 0 => (Varint.decode 10 ptr).map fun r => (⟨tag, Varint.encode (r.1 % 2 ^ 64)⟩, r.2)
  | 1 => takeUnknown tag 8 ptr
  | 2 => (getDelimited ptr).map fun r => (⟨tag, putDelimited r.1⟩, r.2)
  | 5 => takeUnknown tag 4 ptr
  | _ => none

/-- A field that was read as unknown is read again from its bytes. -/
theorem takeUnknown_again {tag : UInt32} {n : ℕ} {ptr after : Bytes} {u : UnknownField}
    (h : takeUnknown tag n ptr = some (u, after)) :
    u.tag = tag ∧ after.length ≤ ptr.length ∧
      ∀ rest, takeUnknown tag n (u.bytes ++ rest) = some (u, rest) := by
  unfold takeUnknown at h ⊢
  split at h
  · rename_i hn
    cases h
    have htake : (ptr.take n).length = n := by
      rw [List.length_take]
      omega
    refine ⟨rfl, by simp, fun rest => ?_⟩
    dsimp only
    rw [if_pos (by rw [List.length_append]; omega), List.take_left' htake,
      List.drop_left' htake]
  · cases h

/-- An unknown field is read again from its own bytes. -/
theorem wireUnknownFieldParse_again {tag : UInt32} {ptr after : Bytes} {u : UnknownField}
    (h : wireUnknownFieldParse tag ptr = some (u, after)) :
    u.tag = tag ∧ after.length ≤ ptr.length ∧
      ∀ rest, wireUnknownFieldParse tag (u.bytes ++ rest) = some (u, rest) := by
  unfold wireUnknownFieldParse at h ⊢
  split at h
  · obtain ⟨⟨n, rest'⟩, hd, hst⟩ := Option.map_eq_some_iff.mp h
    cases hst
    -- A varint is kept as a number of 64 bits, and so written again at its shortest.
    have hmod : n % 2 ^ 64 < 2 ^ 64 := Nat.mod_lt _ (by decide)
    refine ⟨rfl, Nat.le_of_lt (Varint.decode_lt hd), fun rest => ?_⟩
    rw [Varint.decode_encode (encode_length_le_ten hmod)]
    simp only [Option.map_some, Nat.mod_mod]
  · exact takeUnknown_again h
  · obtain ⟨⟨str, rest'⟩, hd, hst⟩ := Option.map_eq_some_iff.mp h
    cases hst
    obtain ⟨hstr, hle⟩ := getDelimited_le hd
    refine ⟨rfl, hle, fun rest => ?_⟩
    rw [getDelimited_put hstr]
    rfl
  · exact takeUnknown_again h
  · cases h

/-- `ParseMessage`. -/
def wireParseMessage {M : Type} (parse : M → Bytes → Parsed M) (msg : M) (ptr : Bytes) :
    Option (M × Bytes) :=
  match getDelimited ptr with
  | none => none
  | some (inside, rest) =>
    match parse msg inside with
    | some (msg', [], none) => some (msg', rest)
    | _ => none

/-- A message inside another one is parsed from bytes of its own. -/
theorem wireParseMessage_inside {M : Type} {parse : M → Bytes → Parsed M} {msg msg' : M}
    {ptr rest : Bytes} (h : wireParseMessage parse msg ptr = some (msg', rest)) :
    rest.length ≤ ptr.length ∧ ∃ body, parse msg body = some (msg', [], none) := by
  unfold wireParseMessage at h
  split at h
  · cases h
  rename_i inside rest' hd
  split at h
  · rename_i msg₁ hparse
    cases h
    exact ⟨(getDelimited_le hd).2, inside, hparse⟩
  · cases h

/-- The tag of a field, then its bytes. -/
def putField (field wireType : ℕ) (bytes : Bytes) : Bytes :=
  Varint.encode (field * 8 + wireType) ++ bytes

/-- The tag of a field is one byte. -/
theorem putField_length {field wireType : ℕ} (hfield : field < 16) (hwire : wireType < 8)
    (bytes : Bytes) : (putField field wireType bytes).length = 1 + bytes.length := by
  unfold putField Varint.encode
  rw [if_pos (by omega)]
  simp only [List.cons_append, List.nil_append, List.length_cons]
  omega

/-- The tag of a field is read back. -/
theorem wireReadTag_putField {field wireType : ℕ} (hfield : field < 16) (hwire : wireType < 8)
    (bytes rest : Bytes) : wireReadTag (putField field wireType bytes ++ rest)
      = some (fieldTag field wireType, bytes ++ rest) := by
  unfold putField
  rw [List.append_assoc]
  exact wireReadTag_put (by omega) _

/-- The runtime. -/
def wire : Runtime where
  readTag := wireReadTag
  readVarint32 := wireReadVarint32
  inlineGreedyStringParser := getDelimited
  verifyUTF8 str _ := (String.fromUTF8? ⟨str.toArray⟩).isSome
  unknownFieldParse := wireUnknownFieldParse
  parseMessage := wireParseMessage
  writeStringMaybeAliased field str := putField field 2 (putDelimited str)
  writeBytesMaybeAliased field str := putField field 2 (putDelimited str)
  writeUInt32ToArray field v := putField field 0 (Varint.encode v.toNat)
  internalWriteMessage field size body := putField field 2 (Varint.encode size ++ body)
  writeUnknownField u := Varint.encode u.tag.toNat ++ u.bytes
  stringSize str := (putDelimited str).length
  bytesSize str := (putDelimited str).length
  uInt32Size v := (Varint.encode v.toNat).length
  messageSize size := (Varint.encode size).length + size
  unknownFieldSize u := (Varint.encode u.tag.toNat).length + u.bytes.length
  sizeLimit := wireLimit
  readTag_lt := wireReadTag_lt
  readVarint32_le := by
    intro ptr rest v h
    obtain ⟨r, hd, hr⟩ := Option.map_eq_some_iff.mp h
    cases hr
    exact Nat.le_of_lt (Varint.decode_lt hd)
  inlineGreedyStringParser_le := fun h => (getDelimited_le h).2
  unknownFieldParse_le := fun h => (wireUnknownFieldParse_again h).2.1
  parseMessage_le := fun h => (wireParseMessage_inside h).1

/-- **The wire format keeps the promises.** -/
theorem wire_lawful : Lawful wire where
  string field str _ hfield hstr rest :=
    ⟨_, wireReadTag_putField hfield (by decide) _ rest, getDelimited_put hstr rest⟩
  bytes field str _ hfield hstr rest :=
    ⟨_, wireReadTag_putField hfield (by decide) _ rest, getDelimited_put hstr rest⟩
  string_le h := (getDelimited_le h).1
  uInt32 field _ hfield v rest := by
    refine ⟨_, wireReadTag_putField hfield (by decide) _ rest, ?_⟩
    have hlt : v.toNat < 2 ^ 64 := lt_trans v.toNat_lt (by decide)
    show wireReadVarint32 _ = _
    unfold wireReadVarint32
    rw [Varint.decode_encode (encode_length_le_ten hlt)]
    simp
  message field body _ hfield hbody rest := by
    refine ⟨_, wireReadTag_putField hfield (by decide) _ rest, fun parse msg msg' hparse => ?_⟩
    show wireParseMessage parse msg (putDelimited body ++ rest) = _
    unfold wireParseMessage
    rw [getDelimited_put hbody]
    simp only [hparse]
  message_inside h := (wireParseMessage_inside h).2
  unknown h := by
    obtain ⟨htag, -, hagain⟩ := wireUnknownFieldParse_again h
    refine ⟨htag, fun rest => ⟨_, ?_, hagain rest⟩⟩
    show wireReadTag (_ ++ _ ++ _) = _
    rw [List.append_assoc, htag, wireReadTag_put (UInt32.toNat_lt _), UInt32.ofNat_toNat]
  stringSize field str _ hfield _ := putField_length hfield (by decide) _
  bytesSize field str _ hfield _ := putField_length hfield (by decide) _
  uInt32Size field _ hfield v := putField_length hfield (by decide) _
  messageSize field body _ hfield _ := by
    show (putField field 2 _).length = _
    rw [putField_length hfield (by decide), List.length_append]
    rfl
  unknownFieldSize h := List.length_append

end MyCeph.Messages
