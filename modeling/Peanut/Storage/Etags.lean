import Mathlib.Data.List.Flatten
import Peanut.Storage.Local

/-!
# ETags

An object has the SHA-256 of its data for an ETag and a part the MD5, written in
hexadecimal digits.  The ETag of a completed upload is taken from those of its parts:
`compute_multipart_composite_etag` reads their digits back, so that what it digests
is the digests themselves.
-/

namespace Peanut

/-! ### Hexadecimal digits -/

/-- `format!("{byte:02x}")`. -/
def hexByte (byte : UInt8) : List Char :=
  [Nat.digitChar (byte.toNat / 16), Nat.digitChar (byte.toNat % 16)]

def hexEncode (bytes : List UInt8) : String := String.ofList (bytes.flatMap hexByte)

/-- `u8::from_str_radix(digits, 16)`, which lets a plus sign go first. -/
def u8FromHex (text : String) : Option UInt8 := do
  let digits := match text.toList with
    | '+' :: digits => digits
    | digits => digits
  if digits.isEmpty then none
  let values ← digits.mapM hexDigit
  let value := values.foldl (fun value digit => 16 * value + digit) 0
  if value < 256 then some value.toUInt8 else none

/-- The loop of `decode_hex`, over two bytes at a time. -/
def decodeHexPairs : List UInt8 → Except IoError (List UInt8)
  | high :: low :: rest => do
      let pair ← Outcome.require (String.fromUTF8? ⟨[high, low].toArray⟩)
        { kind := .invalidData, message := "multipart etag must be valid UTF-8" }
      let byte ← Outcome.require (u8FromHex pair)
        { kind := .invalidData, message := "multipart etag must be a valid hex string" }
      let decoded ← decodeHexPairs rest
      return byte :: decoded
  | _ => .ok []

def decodeHex (value : String) : Except IoError (List UInt8) := do
  Outcome.ensure ((asBytes value).length % 2 == 0)
    { kind := .invalidData, message := "multipart etag must be an even-length hex string" }
  decodeHexPairs (asBytes value)

/-! ### Digests -/

section Digests

variable (md5 sha256 : List UInt8 → List UInt8)

def computeSha256Etag (data : List UInt8) : String := hexEncode (sha256 data)

def computeMultipartPartEtag (data : List UInt8) : String := hexEncode (md5 data)

/-- `compute_multipart_composite_etag`, of the ETags of the parts. -/
def computeMultipartCompositeEtag (etags : List String) : Except IoError String := do
  let digests ← etags.mapM decodeHex
  return hexEncode (md5 digests.flatten) ++ "-" ++ toString etags.length

/-- The digests of the storage, where those of the parts can be read. -/
def storageDigests : Digests where
  sha256Etag := computeSha256Etag sha256
  partEtag := computeMultipartPartEtag md5
  compositeEtag etags := (computeMultipartCompositeEtag md5 etags).toOption.getD ""

end Digests

/-! ### Digits that are read back -/

theorem hexDigit_digitChar {n : Nat} (h : n < 16) : hexDigit (Nat.digitChar n) = some n := by
  have hall : ∀ i : Fin 16, hexDigit (Nat.digitChar i) = some i.val := by decide
  exact hall ⟨n, h⟩

theorem digitChar_ne_plus {n : Nat} (h : n < 16) : Nat.digitChar n ≠ '+' := by
  have hall : ∀ i : Fin 16, Nat.digitChar i ≠ '+' := by decide
  exact hall ⟨n, h⟩

theorem utf8EncodeChar_digitChar {n : Nat} (h : n < 16) :
    ∃ b, String.utf8EncodeChar (Nat.digitChar n) = [b] := by
  have hall : ∀ i : Fin 16, (String.utf8EncodeChar (Nat.digitChar i)).length = 1 := by decide
  exact List.length_eq_one_iff.mp (hall ⟨n, h⟩)

theorem u8FromHex_hexByte (byte : UInt8) : u8FromHex (String.ofList (hexByte byte)) =
    some byte := by
  have hbyte := byte.toNat_lt
  have hhigh : byte.toNat / 16 < 16 := by omega
  have hlow : byte.toNat % 16 < 16 := Nat.mod_lt _ (by decide)
  have hvalue : 16 * (byte.toNat / 16) + byte.toNat % 16 = byte.toNat := Nat.div_add_mod _ 16
  have hplus := digitChar_ne_plus hhigh
  unfold u8FromHex hexByte
  rw [String.toList_ofList]
  split
  · rename_i digits heq
    exact absurd (List.cons.inj heq).1 hplus
  · simp [hexDigit_digitChar hhigh, hexDigit_digitChar hlow, hvalue, byte.toNat_lt]

theorem decodeHexPairs_hexByte (byte : UInt8) (rest : List UInt8) :
    decodeHexPairs (asBytes (String.ofList (hexByte byte)) ++ rest) =
      (decodeHexPairs rest).map (byte :: ·) := by
  have hbyte := byte.toNat_lt
  obtain ⟨high, hhigh⟩ := @utf8EncodeChar_digitChar (byte.toNat / 16) (by omega)
  obtain ⟨low, hlow⟩ := @utf8EncodeChar_digitChar (byte.toNat % 16) (Nat.mod_lt _ (by decide))
  have hpair : asBytes (String.ofList (hexByte byte)) = [high, low] := by
    simp [asBytes, hexByte, hhigh, hlow]
  have htext : String.fromUTF8? ⟨[high, low].toArray⟩ = some (String.ofList (hexByte byte)) := by
    rw [← hpair, ← toByteArray_eq, String.fromUTF8?, dif_pos (String.isValidUTF8 _)]
    rfl
  rw [hpair, List.cons_append, List.cons_append, List.nil_append, decodeHexPairs, htext,
    Outcome.require_some, Outcome.ok_bind, u8FromHex_hexByte, Outcome.require_some, Outcome.ok_bind]
  rfl

theorem asBytes_hexEncode (bytes : List UInt8) :
    asBytes (hexEncode bytes) = bytes.flatMap fun byte =>
      asBytes (String.ofList (hexByte byte)) := by
  simp [asBytes, hexEncode, List.flatMap_assoc]

/-- **A digest is read back** from its digits. -/
theorem decodeHex_hexEncode (bytes : List UInt8) : decodeHex (hexEncode bytes) = .ok bytes := by
  have hlength : (asBytes (hexEncode bytes)).length % 2 = 0 := by
    rw [asBytes_hexEncode]
    induction bytes with
    | nil => rfl
    | cons byte rest ih =>
      have hbyte := byte.toNat_lt
      obtain ⟨high, hhigh⟩ := @utf8EncodeChar_digitChar (byte.toNat / 16) (by omega)
      obtain ⟨low, hlow⟩ := @utf8EncodeChar_digitChar (byte.toNat % 16) (Nat.mod_lt _ (by decide))
      rw [List.flatMap_cons, List.length_append]
      simp only [asBytes, hexByte, String.toList_ofList, List.flatMap_cons, List.flatMap_nil, hhigh,
        hlow, List.length_append, List.length_cons, List.length_nil] at ih ⊢
      omega
  have hpairs : decodeHexPairs (asBytes (hexEncode bytes)) = .ok bytes := by
    rw [asBytes_hexEncode]
    clear hlength
    induction bytes with
    | nil => rfl
    | cons byte rest ih =>
      rw [List.flatMap_cons, decodeHexPairs_hexByte, ih]
      rfl
  rw [decodeHex, hlength, hpairs]
  rfl

theorem computeMultipartCompositeEtag_parts (md5 : List UInt8 → List UInt8)
    (parts : List (List UInt8)) :
    computeMultipartCompositeEtag md5 (parts.map (computeMultipartPartEtag md5)) =
      .ok (hexEncode (md5 (parts.flatMap md5)) ++ "-" ++ toString parts.length) := by
  have hdigests : (parts.map (computeMultipartPartEtag md5)).mapM decodeHex =
      .ok (parts.map md5) := by
    rw [List.mapM_map]
    exact Outcome.mapM_eq_map fun data _ => decodeHex_hexEncode (md5 data)
  rw [computeMultipartCompositeEtag, hdigests, Outcome.ok_bind, List.length_map, List.flatMap_def]
  rfl

end Peanut
