import Mathlib.Tactic

/-!
# UTF-8

The encoding of a string of Unicode characters, and a decoder that reads any bytes. It replaces
what is not well formed by U+FFFD, one for each maximal part of a character that breaks off, and
returns the string where the bytes encode one.
-/

namespace FootballIQ
namespace Utf8

abbrev Bytes := List UInt8

def encode (s : String) : Bytes := s.toList.flatMap String.utf8EncodeChar

/-- The characters so far, and the one that is being read: how many bytes it needs, the range of
the next of them, and its code point as far as it goes. -/
structure Decoder where
  needed : ℕ
  lower : ℕ
  upper : ℕ
  codePoint : ℕ
  out : List Char
  deriving DecidableEq

def fresh (out : List Char) : Decoder := ⟨0, 0x80, 0xBF, 0, out⟩

def replacement : Char := Char.ofNat 0xFFFD

/-- The first byte of a character. Some lead bytes narrow the range of the second byte, which
rules out overlong forms, surrogates and what is beyond the last code point. -/
def lead (out : List Char) (b : ℕ) : Decoder :=
  if b < 0x80 then fresh (out ++ [Char.ofNat b])
  else if 0xC2 ≤ b ∧ b ≤ 0xDF then ⟨1, 0x80, 0xBF, b - 0xC0, out⟩
  else if 0xE0 ≤ b ∧ b ≤ 0xEF then
    ⟨2, if b = 0xE0 then 0xA0 else 0x80, if b = 0xED then 0x9F else 0xBF, b - 0xE0, out⟩
  else if 0xF0 ≤ b ∧ b ≤ 0xF4 then
    ⟨3, if b = 0xF0 then 0x90 else 0x80, if b = 0xF4 then 0x8F else 0xBF, b - 0xF0, out⟩
  else fresh (out ++ [replacement])

def step (d : Decoder) (byte : UInt8) : Decoder :=
  let b := byte.toNat
  if d.needed = 0 then lead d.out b
  else if b < d.lower ∨ d.upper < b then lead (d.out ++ [replacement]) b
  else
    let codePoint := d.codePoint * 64 + (b - 0x80)
    if d.needed = 1 then fresh (d.out ++ [Char.ofNat codePoint])
    else ⟨d.needed - 1, 0x80, 0xBF, codePoint, d.out⟩

def finish (d : Decoder) : List Char :=
  if d.needed = 0 then d.out else d.out ++ [replacement]

def decode (bytes : Bytes) : String := String.ofList (finish (bytes.foldl step (fresh [])))

example : decode [0x41, 0xE0, 0xA0, 0x42, 0xC3, 0xA9] = "A\uFFFDBé" := by decide

section Step
variable {out : List Char}

theorem step_fresh (byte : UInt8) : step (fresh out) byte = lead out byte.toNat := rfl

/-- The last byte of a character. -/
theorem step_last {lower upper codePoint n : ℕ} {byte : UInt8} (hlow : lower ≤ byte.toNat)
    (hhigh : byte.toNat ≤ upper) (hn : codePoint * 64 + (byte.toNat - 0x80) = n) :
    step ⟨1, lower, upper, codePoint, out⟩ byte = fresh (out ++ [Char.ofNat n]) := by
  simp only [step, hn]
  rw [if_neg (by omega), if_neg (by omega), if_pos trivial]

/-- A byte with `k` others to follow. -/
theorem step_more {k needed lower upper codePoint n : ℕ} {byte : UInt8} (hneeded : needed = k + 1)
    (hk : k ≠ 0) (hlow : lower ≤ byte.toNat) (hhigh : byte.toNat ≤ upper)
    (hn : codePoint * 64 + (byte.toNat - 0x80) = n) :
    step ⟨needed, lower, upper, codePoint, out⟩ byte = ⟨k, 0x80, 0xBF, n, out⟩ := by
  simp only [step, hn]
  rw [if_neg (by omega), if_neg (by omega), if_neg (by omega), hneeded, Nat.add_sub_cancel]

theorem toNat_byte {n : ℕ} (h : n < 256) : (UInt8.ofNat n).toNat = n := by
  rw [UInt8.toNat_ofNat']
  exact Nat.mod_eq_of_lt h

theorem lead_two {n : ℕ} (h : 0x80 ≤ n ∧ n < 0x800) :
    lead out (n / 64 + 0xC0) = ⟨1, 0x80, 0xBF, n / 64, out⟩ := by
  unfold lead
  rw [if_neg (by omega), if_pos (by omega), Nat.add_sub_cancel]

theorem lead_three {n : ℕ} (h : 0x800 ≤ n ∧ n < 0x10000) :
    lead out (n / 4096 + 0xE0) = ⟨2, if n / 4096 = 0 then 0xA0 else 0x80,
      if n / 4096 = 13 then 0x9F else 0xBF, n / 4096, out⟩ := by
  have hlow : n / 4096 + 0xE0 = 0xE0 ↔ n / 4096 = 0 := by omega
  have hhigh : n / 4096 + 0xE0 = 0xED ↔ n / 4096 = 13 := by omega
  unfold lead
  rw [if_neg (by omega), if_neg (by omega), if_pos (by omega), Nat.add_sub_cancel]
  simp only [hlow, hhigh]

theorem lead_four {n : ℕ} (h : 0x10000 ≤ n ∧ n < 0x110000) :
    lead out (n / 262144 + 0xF0) = ⟨3, if n / 262144 = 0 then 0x90 else 0x80,
      if n / 262144 = 4 then 0x8F else 0xBF, n / 262144, out⟩ := by
  have hlow : n / 262144 + 0xF0 = 0xF0 ↔ n / 262144 = 0 := by omega
  have hhigh : n / 262144 + 0xF0 = 0xF4 ↔ n / 262144 = 4 := by omega
  unfold lead
  rw [if_neg (by omega), if_neg (by omega), if_neg (by omega), if_pos (by omega),
    Nat.add_sub_cancel]
  simp only [hlow, hhigh]

end Step

section RoundTrip

section Characters
variable (out : List Char) {n : ℕ}

theorem foldl_one (h : n < 0x80) :
    [UInt8.ofNat n].foldl step (fresh out) = fresh (out ++ [Char.ofNat n]) := by
  rw [List.foldl_cons, List.foldl_nil, step_fresh, toNat_byte (by omega), lead, if_pos h]

theorem foldl_two (h : 0x80 ≤ n ∧ n < 0x800) :
    [UInt8.ofNat (n / 64 + 0xC0), UInt8.ofNat (n % 64 + 0x80)].foldl step (fresh out) =
      fresh (out ++ [Char.ofNat n]) := by
  have hlast : (UInt8.ofNat (n % 64 + 0x80)).toNat = n % 64 + 0x80 := toNat_byte (by omega)
  rw [List.foldl_cons, List.foldl_cons, List.foldl_nil, step_fresh, toNat_byte (by omega),
    lead_two h, step_last]
  all_goals rw [hlast]
  all_goals omega

theorem foldl_three (h : 0x800 ≤ n ∧ n < 0x10000) (hvalid : n < 0xD800 ∨ 0xDFFF < n) :
    [UInt8.ofNat (n / 4096 + 0xE0), UInt8.ofNat (n / 64 % 64 + 0x80),
        UInt8.ofNat (n % 64 + 0x80)].foldl step (fresh out) = fresh (out ++ [Char.ofNat n]) := by
  have hnext : (UInt8.ofNat (n / 64 % 64 + 0x80)).toNat = n / 64 % 64 + 0x80 :=
    toNat_byte (by omega)
  have hlast : (UInt8.ofNat (n % 64 + 0x80)).toNat = n % 64 + 0x80 := toNat_byte (by omega)
  rw [List.foldl_cons, List.foldl_cons, List.foldl_cons, List.foldl_nil, step_fresh,
    toNat_byte (by omega), lead_three h, step_more (k := 1) (n := n / 64) rfl (by omega), step_last]
  all_goals first | rw [hlast] | rw [hnext]
  all_goals first | omega | split_ifs <;> omega

theorem foldl_four (h : 0x10000 ≤ n ∧ n < 0x110000) :
    [UInt8.ofNat (n / 262144 + 0xF0), UInt8.ofNat (n / 4096 % 64 + 0x80),
        UInt8.ofNat (n / 64 % 64 + 0x80), UInt8.ofNat (n % 64 + 0x80)].foldl step (fresh out) =
      fresh (out ++ [Char.ofNat n]) := by
  have hnext : (UInt8.ofNat (n / 4096 % 64 + 0x80)).toNat = n / 4096 % 64 + 0x80 :=
    toNat_byte (by omega)
  have hthird : (UInt8.ofNat (n / 64 % 64 + 0x80)).toNat = n / 64 % 64 + 0x80 :=
    toNat_byte (by omega)
  have hlast : (UInt8.ofNat (n % 64 + 0x80)).toNat = n % 64 + 0x80 := toNat_byte (by omega)
  rw [List.foldl_cons, List.foldl_cons, List.foldl_cons, List.foldl_cons, List.foldl_nil,
    step_fresh, toNat_byte (by omega), lead_four h,
    step_more (k := 2) (n := n / 4096) rfl (by omega),
    step_more (k := 1) (n := n / 64) rfl (by omega), step_last]
  all_goals first | rw [hlast] | rw [hthird] | rw [hnext]
  all_goals first | omega | split_ifs <;> omega

end Characters

/-- The decoder reads the bytes of a character as that character. -/
theorem foldl_encodeChar (c : Char) (out : List Char) :
    (String.utf8EncodeChar c).foldl step (fresh out) = fresh (out ++ [c]) := by
  have hchar : Char.ofNat c.toNat = c := Char.ofNat_toNat c
  have hvalid : c.toNat < 0xD800 ∨ 0xDFFF < c.toNat ∧ c.toNat < 0x110000 := c.valid
  have hval : c.val.toNat = c.toNat := rfl
  conv_rhs => rw [← hchar]
  unfold String.utf8EncodeChar
  rw [hval]
  generalize c.toNat = n at hvalid
  simp only
  split_ifs with h1 h2 h3
  · exact foldl_one out (by omega)
  · rw [Nat.mod_eq_of_lt (by omega)]
    exact foldl_two out (by omega)
  · rw [Nat.mod_eq_of_lt (by omega)]
    exact foldl_three out (by omega) (by omega)
  · rw [Nat.mod_eq_of_lt (by omega)]
    exact foldl_four out (by omega)

theorem foldl_encode (l : List Char) (out : List Char) :
    (l.flatMap String.utf8EncodeChar).foldl step (fresh out) = fresh (out ++ l) := by
  induction l generalizing out with
  | nil => simp
  | cons c l ih =>
    rw [List.flatMap_cons, List.foldl_append, foldl_encodeChar, ih, List.append_assoc]
    rfl

/-- Decoding inverts encoding. -/
theorem decode_encode (s : String) : decode (encode s) = s := by
  rw [decode, encode, foldl_encode, List.nil_append]
  exact String.ofList_toList

/-- Only the empty string has no bytes. -/
theorem encode_eq_nil_iff (s : String) : encode s = [] ↔ s = "" := by
  rw [encode, List.flatMap_eq_nil_iff]
  constructor
  · intro h
    have hnil : s.toList = [] := by
      rw [List.eq_nil_iff_forall_not_mem]
      intro c hc
      exact String.utf8EncodeChar_ne_nil (h c hc)
    exact String.toList_eq_nil_iff.1 hnil
  · rintro rfl c hc
    cases hc

end RoundTrip

end Utf8
end FootballIQ
