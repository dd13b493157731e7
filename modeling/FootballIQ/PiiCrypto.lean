import FootballIQ.Hex
import FootballIQ.Ledger

/-!
# Encryption of personal data

A value is stored as initialization vector, tag and ciphertext in hexadecimal, joined by dots. The
cipher is a parameter that opens what it sealed. Reading a value back gives what was stored unless
that is the empty string: its ciphertext is empty, which the reader takes for a missing part.
-/

namespace FootballIQ
namespace PiiCrypto

open Utf8 (Bytes)

/-- AES-256-GCM as the service uses it: a tag of sixteen bytes, a ciphertext as long as the
plaintext, and a value that is opened under its own key, vector and tag is the one that was
sealed. What it throws otherwise is its own. -/
structure AesGcm where
  encipher : Bytes → Bytes → Bytes → Bytes × Bytes
  decipher : Bytes → Bytes → Bytes → Bytes → Except Failure Bytes
  length_ciphertext : ∀ key iv plaintext, (encipher key iv plaintext).1.length = plaintext.length
  length_tag : ∀ key iv plaintext, (encipher key iv plaintext).2.length = 16
  decipher_encipher : ∀ key iv plaintext, key.length = 32 → iv.length = 12 →
    decipher key iv (encipher key iv plaintext).2 (encipher key iv plaintext).1 = .ok plaintext

/-- The check of the environment on the key: 64 digits of either case. -/
def KeyText (text : String) : Prop :=
  text.toList.length = 64 ∧ ∀ c ∈ text.toList, (Hex.value c).isSome

instance : DecidablePred KeyText := fun text =>
  inferInstanceAs (Decidable (text.toList.length = 64 ∧ ∀ c ∈ text.toList, (Hex.value c).isSome))

structure PiiCryptoService where
  cipher : AesGcm
  key : Bytes
  length_key : key.length = 32

namespace PiiCryptoService

def create (cipher : AesGcm) (text : String) (h : KeyText text) : PiiCryptoService where
  cipher := cipher
  key := Hex.decode text.toList
  length_key := by rw [Hex.length_decode _ h.2, h.1]

variable (service : PiiCryptoService)

/-- `iv` stands for the random vector of the call. -/
def encrypt (iv : Bytes) (plaintext : String) : String :=
  let r := service.cipher.encipher service.key iv (Utf8.encode plaintext)
  String.ofList (['.'].intercalate [Hex.encode iv, Hex.encode r.2, Hex.encode r.1])

def decrypt (encoded : String) : Except Failure String :=
  match encoded.toList.splitOn '.' with
  | ivHex :: tagHex :: dataHex :: _ =>
    if ivHex = [] ∨ tagHex = [] ∨ dataHex = [] then .error (.error "malformed encrypted value")
    else do
      let bytes ← service.cipher.decipher service.key (Hex.decode ivHex) (Hex.decode tagHex)
        (Hex.decode dataHex)
      return Utf8.decode bytes
  | _ => .error (.error "malformed encrypted value")

theorem dot_not_mem_encode (bytes : Bytes) : '.' ∉ Hex.encode bytes := by
  intro h
  have halnum := Hex.isAlphanum_of_mem h
  revert halnum
  decide

/-- The parts are found again where they were joined. -/
theorem splitOn_encrypt (iv : Bytes) (plaintext : String) :
    (service.encrypt iv plaintext).toList.splitOn '.' =
      [Hex.encode iv, Hex.encode (service.cipher.encipher service.key iv (Utf8.encode plaintext)).2,
        Hex.encode (service.cipher.encipher service.key iv (Utf8.encode plaintext)).1] := by
  rw [encrypt, String.toList_ofList]
  apply List.splitOn_intercalate
  · intro part hpart
    simp only [List.mem_cons, List.not_mem_nil, or_false] at hpart
    rcases hpart with rfl | rfl | rfl <;> exact dot_not_mem_encode _
  · exact List.cons_ne_nil _ _

/-- Vector and tag are never empty, and the ciphertext is where the plaintext is. -/
theorem part_empty_iff {iv : Bytes} (hiv : iv.length = 12) (plaintext : String) :
    (Hex.encode iv = [] ∨
        Hex.encode (service.cipher.encipher service.key iv (Utf8.encode plaintext)).2 = [] ∨
        Hex.encode (service.cipher.encipher service.key iv (Utf8.encode plaintext)).1 = []) ↔
      plaintext = "" := by
  have htag := service.cipher.length_tag service.key iv (Utf8.encode plaintext)
  have hdata := service.cipher.length_ciphertext service.key iv (Utf8.encode plaintext)
  rw [Hex.encode_eq_nil_iff, Hex.encode_eq_nil_iff, Hex.encode_eq_nil_iff,
    ← List.length_eq_zero_iff, ← List.length_eq_zero_iff, ← List.length_eq_zero_iff, hiv, htag,
    hdata, List.length_eq_zero_iff, Utf8.encode_eq_nil_iff]
  simp

theorem decrypt_of_ne {iv : Bytes} (hiv : iv.length = 12) {plaintext : String}
    (hp : plaintext ≠ "") : service.decrypt (service.encrypt iv plaintext) = .ok plaintext := by
  have hparts := mt (service.part_empty_iff hiv plaintext).1 hp
  have hopen := service.cipher.decipher_encipher service.key iv (Utf8.encode plaintext)
    service.length_key hiv
  unfold decrypt
  rw [splitOn_encrypt]
  simp only [if_neg hparts, Hex.decode_encode, hopen]
  exact congrArg Except.ok (Utf8.decode_encode plaintext)

/-- An empty third part is taken for a missing one. -/
theorem decrypt_of_eq {iv : Bytes} (hiv : iv.length = 12) {plaintext : String}
    (hp : plaintext = "") : service.decrypt (service.encrypt iv plaintext) =
      .error (.error "malformed encrypted value") := by
  have hparts := (service.part_empty_iff hiv plaintext).2 hp
  unfold decrypt
  rw [splitOn_encrypt]
  simp only [if_pos hparts]

/-- What was encrypted is decrypted exactly when it is not empty. -/
theorem decrypt_encrypt_iff {iv : Bytes} (hiv : iv.length = 12) (plaintext : String) :
    service.decrypt (service.encrypt iv plaintext) = .ok plaintext ↔ plaintext ≠ "" := by
  constructor
  · intro hok hp
    rw [service.decrypt_of_eq hiv hp] at hok
    cases hok
  · exact service.decrypt_of_ne hiv

end PiiCryptoService

section Sample

/-- The key stream of the zero key and the zero vector, as far as its first block goes. -/
def keyStream : Bytes :=
  [0xce, 0xa7, 0x40, 0x3d, 0x4d, 0x60, 0x6b, 0x6e, 0x07, 0x4e, 0xc5, 0xd3, 0xba, 0xf3, 0x9d, 0x18]

def mixed (bytes : Bytes) : Bytes := bytes.mapIdx (fun i b => b ^^^ keyStream.getD (i % 16) 0)

theorem mixed_mixed (bytes : Bytes) : mixed (mixed bytes) = bytes := by
  have hcancel : ∀ b k : UInt8, b ^^^ k ^^^ k = b := by
    intro b k
    rw [UInt8.xor_assoc, UInt8.xor_self, UInt8.xor_zero]
  rw [mixed, mixed, List.mapIdx_mapIdx]
  simp only [Function.comp_def, hcancel]
  rw [List.mapIdx_eq_iff]
  intro i
  simp

/-- The tags of the empty plaintext and of a ten-digit account number. -/
def tagOf (plaintext : Bytes) : Bytes :=
  if plaintext = [] then
    [0x53, 0x0f, 0x8a, 0xfb, 0xc7, 0x45, 0x36, 0xb9, 0xa9, 0x63, 0xb4, 0xf1, 0xc4, 0xcb, 0x73, 0x8b]
  else if plaintext = Utf8.encode "0123456789" then
    [0x7f, 0x8d, 0x59, 0x5c, 0x83, 0x2f, 0xa6, 0xc9, 0x70, 0x3d, 0x87, 0x31, 0x87, 0x3f, 0x71, 0x1f]
  else List.replicate 16 0

theorem length_tagOf (plaintext : Bytes) : (tagOf plaintext).length = 16 := by
  unfold tagOf
  split_ifs <;> rfl

/-- The cipher at the zero key and the zero vector: its tags are those of the two plaintexts. -/
def zeroCipher : AesGcm where
  encipher _ _ plaintext := (mixed plaintext, tagOf plaintext)
  decipher _ _ tag ciphertext :=
    if tagOf (mixed ciphertext) = tag then .ok (mixed ciphertext)
    else .error (.error "Unsupported state or unable to authenticate data")
  length_ciphertext _ _ plaintext := List.length_mapIdx
  length_tag _ _ plaintext := length_tagOf plaintext
  decipher_encipher _ _ plaintext _ _ := by simp only [mixed_mixed, if_true]

def zeroKey : String := String.ofList (List.replicate 64 '0')

theorem toList_zeroKey : zeroKey.toList = List.replicate 64 '0' := String.toList_ofList

theorem keyText_zeroKey : KeyText zeroKey := by
  constructor
  · rw [toList_zeroKey]
    exact List.length_replicate
  · intro c hc
    rw [toList_zeroKey] at hc
    have hzero : c = '0' := List.eq_of_mem_replicate hc
    rw [hzero]
    decide

def zeroService : PiiCryptoService := .create zeroCipher zeroKey keyText_zeroKey

def zeroVector : Bytes := List.replicate 12 0

theorem decrypt_encrypt_account :
    zeroService.decrypt (zeroService.encrypt zeroVector "0123456789") = .ok "0123456789" :=
  (zeroService.decrypt_encrypt_iff List.length_replicate "0123456789").2 (by decide)

/-- The empty string comes out with an empty third part, which the reader rejects. -/
theorem decrypt_encrypt_empty :
    zeroService.encrypt zeroVector "" =
        "000000000000000000000000.530f8afbc74536b9a963b4f1c4cb738b." ∧
      zeroService.decrypt (zeroService.encrypt zeroVector "") =
        .error (.error "malformed encrypted value") ∧
      zeroService.decrypt (zeroService.encrypt zeroVector "") ≠ .ok "" := by
  decide

end Sample

end PiiCrypto
end FootballIQ
