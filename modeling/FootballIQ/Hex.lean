import FootballIQ.Utf8

/-!
# Hexadecimal digits

Two lower-case digits for each byte. Decoding takes digits of either case and stops, without an
error, at the first pair that is not two digits.
-/

namespace FootballIQ
namespace Hex

open Utf8 (Bytes)

def digit (n : ℕ) : Char := "0123456789abcdef".toList.getD n '0'

def value (c : Char) : Option ℕ :=
  if '0' ≤ c ∧ c ≤ '9' then some (c.toNat - 48)
  else if 'a' ≤ c ∧ c ≤ 'f' then some (c.toNat - 87)
  else if 'A' ≤ c ∧ c ≤ 'F' then some (c.toNat - 55)
  else none

def encode (bytes : Bytes) : List Char :=
  bytes.flatMap (fun b => [digit (b.toNat / 16), digit (b.toNat % 16)])

def decode : List Char → Bytes
  | a :: b :: rest =>
    match value a, value b with
    | some x, some y => UInt8.ofNat (16 * x + y) :: decode rest
    | _, _ => []
  | _ => []

example : decode "abzz01".toList = [0xAB] ∧ decode "ABc".toList = [0xAB] := by decide

theorem value_digit : ∀ n < 16, value (digit n) = some n := by decide

theorem isAlphanum_digit : ∀ n < 16, (digit n).isAlphanum = true := by decide

/-- Decoding inverts encoding. -/
theorem decode_encode (bytes : Bytes) : decode (encode bytes) = bytes := by
  induction bytes with
  | nil => rfl
  | cons b bytes ih =>
    have hb := b.toNat_lt
    have hhigh := value_digit (b.toNat / 16) (by omega)
    have hlow := value_digit (b.toNat % 16) (by omega)
    have hbyte : 16 * (b.toNat / 16) + b.toNat % 16 = b.toNat := Nat.div_add_mod _ _
    rw [encode, List.flatMap_cons, List.cons_append, List.cons_append, List.nil_append, ← encode]
    simp only [decode, hhigh, hlow, hbyte, ih, UInt8.ofNat_toNat]

theorem encode_eq_nil_iff (bytes : Bytes) : encode bytes = [] ↔ bytes = [] := by
  cases bytes with
  | nil => simp [encode]
  | cons b bytes => simp [encode]

/-- Nothing is lost of a text that consists of digits. -/
theorem length_decode (l : List Char) (h : ∀ c ∈ l, (value c).isSome) :
    (decode l).length = l.length / 2 := by
  induction l using decode.induct with
  | case1 a b rest x y ha hb ih =>
    have hrest : (decode rest).length = rest.length / 2 :=
      ih (fun c hc => h c (List.mem_cons_of_mem a (List.mem_cons_of_mem b hc)))
    simp only [decode, ha, hb, List.length_cons, hrest]
    omega
  | case2 a b rest hnone =>
    obtain ⟨x, hx⟩ := Option.isSome_iff_exists.1 (h a (by simp))
    obtain ⟨y, hy⟩ := Option.isSome_iff_exists.1 (h b (by simp))
    exact absurd hy (hnone x y hx)
  | case3 l hshort =>
    cases l with
    | nil => rfl
    | cons a l =>
      cases l with
      | nil => simp [decode]
      | cons b rest => exact absurd rfl (hshort a b rest)

/-- Every character of an encoding is a letter or a digit. -/
theorem isAlphanum_of_mem {bytes : Bytes} {c : Char} (h : c ∈ encode bytes) :
    c.isAlphanum = true := by
  obtain ⟨b, _, hc⟩ := List.mem_flatMap.1 h
  have hb := b.toNat_lt
  rcases List.mem_pair.1 hc with rfl | rfl
  · exact isAlphanum_digit _ (by omega)
  · exact isAlphanum_digit _ (by omega)

end Hex
end FootballIQ
