import Mathlib.Data.List.Basic
import Mathlib.Data.Option.Basic

/-!
# Confluent wire format

Messages and stored records are byte strings in Confluent wire format: a zero
magic byte, a big-endian 32-bit schema id and the Avro body.  The parser
`get_bytes_result` belongs to the schema-registry client library; the service
relies on the contract `ConfluentFraming` states.  Keys are UTF-8 text.
-/

namespace PushCache

/-- `Vec<u8>`. -/
abbrev Bytes := List UInt8

/-- `BytesResult` of the schema-registry client. -/
inductive BytesResult where
  | null
  | valid (id : UInt32) (data : Bytes)
  | invalid (bytes : Bytes)
  deriving DecidableEq

/-- `u32::from_be_bytes`. -/
def fromBeBytes (first second third fourth : UInt8) : UInt32 :=
  first.toUInt32 <<< 24 ||| second.toUInt32 <<< 16 |||
    third.toUInt32 <<< 8 ||| fourth.toUInt32

/-- A payload in Confluent format, read as its schema id and its body. -/
def Framed (payload : Bytes) (id : UInt32) (data : Bytes) : Prop :=
  ∃ first second third fourth,
    payload = 0 :: first :: second :: third :: fourth :: data ∧
      id = fromBeBytes first second third fourth

/-- What the service relies on: `get_bytes_result` answers `Valid` exactly on
the payloads of at least five bytes that start with the magic byte, with the
big-endian id of the next four bytes and the rest as data. -/
def ConfluentFraming (getBytesResult : Option Bytes → BytesResult) : Prop :=
  ∀ payload id data,
    getBytesResult (some payload) = .valid id data ↔ Framed payload id data

/-- A parser that meets the contract. -/
def confluentParser : Option Bytes → BytesResult
  | none => .null
  | some (magic :: first :: second :: third :: fourth :: data) =>
      if magic = 0 then .valid (fromBeBytes first second third fourth) data
      else .invalid (magic :: first :: second :: third :: fourth :: data)
  | some bytes => .invalid bytes

/-- `std::str::from_utf8`, as an owned string. -/
def fromUtf8 (bytes : Bytes) : Option String :=
  String.fromUTF8? ⟨bytes.toArray⟩

/-- Two byte strings never decode to the same text. -/
theorem fromUtf8_injective {first second : Bytes} {text : String}
    (firstDecoded : fromUtf8 first = some text)
    (secondDecoded : fromUtf8 second = some text) : first = second := by
  simp only [fromUtf8, String.fromUTF8?] at firstDecoded secondDecoded
  split at firstDecoded
  · split at secondDecoded
    · cases firstDecoded
      have bytesEq := congrArg String.toByteArray (Option.some.inj secondDecoded)
      simpa [String.fromUTF8] using bytesEq.symm
    · contradiction
  · contradiction

/-- `str::as_bytes`. -/
def asBytes (text : String) : Bytes :=
  text.toByteArray.data.toList

@[simp]
theorem fromUtf8_asBytes (text : String) : fromUtf8 (asBytes text) = some text := by
  have same : (⟨(asBytes text).toArray⟩ : ByteArray) = text.toByteArray := by
    simp [asBytes]
  rw [fromUtf8, same, String.fromUTF8?, dif_pos text.isValidUTF8]
  rfl

theorem asBytes_injective : Function.Injective asBytes := by
  intro first second same
  have decoded := congrArg fromUtf8 same
  rwa [fromUtf8_asBytes, fromUtf8_asBytes, Option.some.injEq] at decoded

/-- A byte string decodes to a text exactly when it is the text's bytes. -/
theorem fromUtf8_eq_some_iff {bytes : Bytes} {text : String} :
    fromUtf8 bytes = some text ↔ asBytes text = bytes := by
  constructor
  · intro decoded
    exact fromUtf8_injective (fromUtf8_asBytes text) decoded
  · rintro rfl
    exact fromUtf8_asBytes text

theorem asBytes_append (first second : String) :
    asBytes (first ++ second) = asBytes first ++ asBytes second := by
  simp [asBytes]

/-- A text starts with another exactly when its bytes do. -/
theorem asBytes_isPrefix_iff {start text : String} :
    asBytes start <+: asBytes text ↔ start.toList <+: text.toList := by
  constructor
  · rintro ⟨rest, split⟩
    have encoded : start.toList.utf8Encode ++ (⟨rest.toArray⟩ : ByteArray) =
        text.toList.utf8Encode := by
      rw [String.utf8Encode_toList, String.utf8Encode_toList]
      apply ByteArray.ext
      apply Array.toList_inj.mp
      simpa [asBytes] using split
    exact List.isPrefix_of_utf8Encode_append_eq_utf8Encode _ encoded
  · rintro ⟨rest, split⟩
    have appended : start ++ String.ofList rest = text := by
      rw [← String.toList_inj, String.toList_append, String.toList_ofList, split]
    rw [← appended, asBytes_append]
    exact List.prefix_append _ _

/-- A payload has at most one reading. -/
theorem Framed.unique {payload : Bytes} {id otherId : UInt32}
    {data otherData : Bytes} (first : Framed payload id data)
    (second : Framed payload otherId otherData) :
    id = otherId ∧ data = otherData := by
  rcases first with ⟨_, _, _, _, rfl, rfl⟩
  rcases second with ⟨_, _, _, _, same, rfl⟩
  simp only [List.cons.injEq, true_and] at same
  rcases same with ⟨rfl, rfl, rfl, rfl, rfl⟩
  exact ⟨rfl, rfl⟩

theorem confluentParser_framing : ConfluentFraming confluentParser := by
  intro payload id data
  constructor
  · intro parsed
    rcases payload with _ | ⟨magic, _ | ⟨first, _ | ⟨second, _ | ⟨third, _ | ⟨fourth, rest⟩⟩⟩⟩⟩
    case cons.cons.cons.cons.cons =>
      simp only [confluentParser] at parsed
      split at parsed
      · next zero =>
          cases parsed
          exact ⟨first, second, third, fourth, by rw [zero], rfl⟩
      · cases parsed
    all_goals simp [confluentParser] at parsed
  · rintro ⟨first, second, third, fourth, rfl, rfl⟩
    simp [confluentParser]

/-- The payloads with a reading are those of at least five bytes whose first
byte is the magic byte. -/
theorem exists_framed_iff (payload : Bytes) :
    (∃ id data, Framed payload id data) ↔
      4 < payload.length ∧ payload.head? = some 0 := by
  constructor
  · rintro ⟨id, data, first, second, third, fourth, rfl, rfl⟩
    simp
  · rintro ⟨long, magic⟩
    rcases payload with _ | ⟨byte, _ | ⟨first, _ | ⟨second, _ | ⟨third, _ | ⟨fourth, data⟩⟩⟩⟩⟩
    case cons.cons.cons.cons.cons =>
      obtain rfl : byte = 0 := by simpa using magic
      exact ⟨_, data, first, second, third, fourth, rfl, rfl⟩
    all_goals simp at long

end PushCache
