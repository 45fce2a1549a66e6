import PushCache.Percent.Core

/-!
# Percent-decoding

Escapes that follow one another give bytes that are read as one piece of UTF-8;
every other character is kept.  Decoding takes an encoded text back, wherever it
stands in a longer one, as long as the encoding escapes the percent sign.
-/

namespace PushCache.Percent

/-- The value of a hexadecimal digit. -/
def digitValue (char : Char) : Nat :=
  if char.isDigit then char.toNat - '0'.toNat
  else if char.isUpper then char.toNat - 'A'.toNat + 10
  else char.toNat - 'a'.toNat + 10

/-- Decode the rest of a text, after escapes of these bytes. -/
def decodeFrom (readUtf8 : List UInt8 → List Char) : List UInt8 → List Char → List Char
  | bytes, '%' :: high :: low :: rest =>
      decodeFrom readUtf8 (bytes ++ [UInt8.ofNat (digitValue high * 16 + digitValue low)]) rest
  | bytes, char :: rest => readUtf8 bytes ++ char :: decodeFrom readUtf8 [] rest
  | bytes, [] => readUtf8 bytes

/-- The decoding of a text. -/
def decode (readUtf8 : List UInt8 → List Char) (text : String) : String :=
  String.ofList (decodeFrom readUtf8 [] text.toList)

/-- The bytes of characters are read as these characters. -/
def ReadsUtf8 (readUtf8 : List UInt8 → List Char) : Prop :=
  ∀ chars : List Char, readUtf8 (chars.flatMap String.utf8EncodeChar) = chars

variable {readUtf8 : List UInt8 → List Char} {reserved : Char → Bool}

theorem digitValue_hexDigit : ∀ digit < 16, digitValue (hexDigit digit) = digit := by
  decide

/-- An escape gives its byte. -/
theorem decodeFrom_escapeByte (bytes : List UInt8) (byte : UInt8) (rest : List Char) :
    decodeFrom readUtf8 bytes (escapeByte byte ++ rest) =
      decodeFrom readUtf8 (bytes ++ [byte]) rest := by
  have bound := byte.toNat_lt
  have high : byte.toNat / 16 < 16 := Nat.div_lt_of_lt_mul bound
  have low : byte.toNat % 16 < 16 := Nat.mod_lt _ (Nat.succ_pos 15)
  have value : digitValue (hexDigit (byte.toNat / 16)) * 16 +
      digitValue (hexDigit (byte.toNat % 16)) = byte.toNat := by
    rw [digitValue_hexDigit _ high, digitValue_hexDigit _ low, Nat.mul_comm, Nat.div_add_mod]
  change decodeFrom readUtf8 (bytes ++ [UInt8.ofNat _]) rest = _
  rw [value, UInt8.ofNat_toNat]

theorem decodeFrom_escapes (bytes more : List UInt8) (rest : List Char) :
    decodeFrom readUtf8 bytes (more.flatMap escapeByte ++ rest) =
      decodeFrom readUtf8 (bytes ++ more) rest := by
  induction more generalizing bytes with
  | nil => rw [List.flatMap_nil, List.nil_append, List.append_nil]
  | cons byte more ih =>
      rw [List.flatMap_cons, List.append_assoc, decodeFrom_escapeByte, ih, List.append_assoc,
        List.singleton_append]

/-- A character other than the percent sign ends the escapes before it. -/
theorem decodeFrom_cons {char : Char} (plain : char ≠ '%') (bytes : List UInt8)
    (rest : List Char) :
    decodeFrom readUtf8 bytes (char :: rest) =
      readUtf8 bytes ++ char :: decodeFrom readUtf8 [] rest := by
  rw [decodeFrom]
  rintro high low later rfl
  exact absurd rfl plain

/-- What comes next does not continue the escapes before it. -/
def Separate (readUtf8 : List UInt8 → List Char) (rest : List Char) : Prop :=
  ∀ bytes, decodeFrom readUtf8 bytes rest = readUtf8 bytes ++ decodeFrom readUtf8 [] rest

theorem separate_nil (reads : ReadsUtf8 readUtf8) : Separate readUtf8 [] := by
  intro bytes
  have empty : readUtf8 [] = [] := reads []
  rw [decodeFrom, decodeFrom, empty, List.append_nil]

theorem separate_cons (reads : ReadsUtf8 readUtf8) {char : Char} (plain : char ≠ '%')
    (rest : List Char) : Separate readUtf8 (char :: rest) := by
  intro bytes
  have empty : readUtf8 [] = [] := reads []
  rw [decodeFrom_cons plain, decodeFrom_cons plain, empty, List.nil_append]

/-- The encoding of characters is decoded to them, after the escapes of others. -/
theorem decodeFrom_encoded (reads : ReadsUtf8 readUtf8) (escapes : reserved '%' = true)
    {rest : List Char} (separate : Separate readUtf8 rest) (pending chars : List Char) :
    decodeFrom readUtf8 (pending.flatMap String.utf8EncodeChar)
        (chars.flatMap (encodeChar reserved) ++ rest) =
      pending ++ chars ++ decodeFrom readUtf8 [] rest := by
  induction chars generalizing pending with
  | nil => rw [List.flatMap_nil, List.nil_append, separate, reads, List.append_nil]
  | cons char chars ih =>
      rw [List.flatMap_cons, List.append_assoc]
      by_cases keeps : kept reserved char = true
      · have plain : char ≠ '%' := by
          rintro rfl
          rw [kept, escapes, Bool.not_true, Bool.and_false] at keeps
          cases keeps
        have alone := ih []
        rw [List.flatMap_nil, List.nil_append] at alone
        rw [encodeChar_of_kept keeps, List.singleton_append, decodeFrom_cons plain, reads, alone]
        simp only [List.append_assoc, List.cons_append]
      · have more := ih (pending ++ [char])
        rw [List.flatMap_append, List.flatMap_singleton] at more
        rw [encodeChar, if_neg keeps, decodeFrom_escapes, more]
        simp only [List.append_assoc, List.singleton_append]

/-- Decoding takes an encoded text back. -/
theorem decode_encode (reads : ReadsUtf8 readUtf8) (escapes : reserved '%' = true)
    (text : String) : decode readUtf8 (encode reserved text) = text := by
  have whole := decodeFrom_encoded reads escapes (separate_nil reads) [] text.toList
  have empty : decodeFrom readUtf8 [] [] = [] := reads []
  rw [List.flatMap_nil, List.append_nil, List.nil_append, empty, List.append_nil] at whole
  rw [decode, encode, String.toList_ofList, whole, String.ofList_toList]

/-- Decoding takes two encoded texts back, with what stands between them. -/
theorem decode_encode_pair (reads : ReadsUtf8 readUtf8) (escapes : reserved '%' = true)
    {separator : Char} (plain : separator ≠ '%') (first second : String) :
    (decode readUtf8 (encode reserved first ++ String.singleton separator ++
      encode reserved second)).toList = first.toList ++ separator :: second.toList := by
  have later := decodeFrom_encoded reads escapes (separate_nil reads) [] second.toList
  have whole := decodeFrom_encoded reads escapes (separate_cons reads plain
    (second.toList.flatMap (encodeChar reserved))) [] first.toList
  have empty : decodeFrom readUtf8 [] [] = [] := reads []
  have nothing : readUtf8 [] = [] := reads []
  rw [List.flatMap_nil, List.append_nil, List.nil_append, empty, List.append_nil] at later
  rw [List.flatMap_nil, List.nil_append, decodeFrom_cons plain, later, nothing,
    List.nil_append] at whole
  simp only [decode, encode, String.toList_append, String.toList_ofList,
    String.toList_singleton, List.append_assoc, List.singleton_append, whole]

end PushCache.Percent
