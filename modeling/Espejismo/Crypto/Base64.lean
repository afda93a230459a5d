import Espejismo.Crypto.Psk

/-!
# Crypto.Base64

Codecs that can be run: hexadecimal and standard base64, with a strict decoder
that accepts nothing but encodings (`eq_base64Encode_of_decode`).
-/

namespace Espejismo.Standard

open Net Option

def hexDecode : List Char → Option (List UInt8)
  | [] => some []
  | high :: low :: rest => do
    let high ← digitValue 16 high
    let low ← digitValue 16 low
    let bytes ← hexDecode rest
    return UInt8.ofNat (high * 16 + low) :: bytes
  | [_] => none

def base64Value (c : Char) : Option Nat :=
  if 'A' ≤ c ∧ c ≤ 'Z' then some (c.toNat - 'A'.toNat)
  else if 'a' ≤ c ∧ c ≤ 'z' then some (c.toNat - 'a'.toNat + 26)
  else if '0' ≤ c ∧ c ≤ '9' then some (c.toNat - '0'.toNat + 52)
  else if c = '+' then some 62
  else if c = '/' then some 63
  else none

/-- `STANDARD.decode`: groups of four with canonical padding; bits that do not
belong to a byte are zero. -/
def base64Decode : List Char → Option (List UInt8)
  | [] => some []
  | [a, b, '=', '='] => do
    let a ← base64Value a
    let b ← base64Value b
    if b % 16 = 0 then some [UInt8.ofNat (a * 4 + b / 16)] else none
  | [a, b, c, '='] => do
    let a ← base64Value a
    let b ← base64Value b
    let c ← base64Value c
    if c % 4 = 0 then
      some [UInt8.ofNat (a * 4 + b / 16), UInt8.ofNat (b % 16 * 16 + c / 4)]
    else none
  | a :: b :: c :: d :: rest => do
    let a ← base64Value a
    let b ← base64Value b
    let c ← base64Value c
    let d ← base64Value d
    let bytes ← base64Decode rest
    return UInt8.ofNat (a * 4 + b / 16) :: UInt8.ofNat (b % 16 * 16 + c / 4) ::
      UInt8.ofNat (c % 4 * 64 + d) :: bytes
  | _ => none

def base64Digit (n : Nat) : Char :=
  if n < 26 then Char.ofNat ('A'.toNat + n)
  else if n < 52 then Char.ofNat ('a'.toNat + (n - 26))
  else if n < 62 then Char.ofNat ('0'.toNat + (n - 52))
  else if n = 62 then '+'
  else '/'

def base64Encode : List UInt8 → List Char
  | [] => []
  | [x] => [base64Digit (x.toNat / 4), base64Digit (x.toNat % 4 * 16), '=', '=']
  | [x, y] =>
    [base64Digit (x.toNat / 4), base64Digit (x.toNat % 4 * 16 + y.toNat / 16),
      base64Digit (y.toNat % 16 * 4), '=']
  | x :: y :: z :: rest =>
    base64Digit (x.toNat / 4) :: base64Digit (x.toNat % 4 * 16 + y.toNat / 16) ::
      base64Digit (y.toNat % 16 * 4 + z.toNat / 64) :: base64Digit (z.toNat % 64) ::
      base64Encode rest

theorem ofNat_add_sub (h : first ≤ c) : Char.ofNat (first.toNat + (c.toNat - first.toNat)) = c := by
  have hl : first.toNat ≤ c.toNat := UInt32.le_iff_toNat_le.mp h
  rw [Nat.add_sub_cancel' hl, Char.ofNat_toNat]

theorem base64Value_eq_some (h : base64Value c = some n) : n < 64 ∧ c = base64Digit n := by
  have hl {c d : Char} (h : c ≤ d) : c.toNat ≤ d.toNat := UInt32.le_iff_toNat_le.mp h
  unfold base64Value at h
  -- the ranges of the alphabet in the order the decoder tries them
  split at h
  · next hr =>
    obtain rfl := Option.some.inj h
    have hhi : c.toNat ≤ 90 := hl hr.2
    have hn : c.toNat - 'A'.toNat < 26 := by show c.toNat - 65 < 26; omega
    refine ⟨Nat.lt_trans hn (by decide), ?_⟩
    rw [base64Digit, if_pos hn, ofNat_add_sub hr.1]
  split at h
  · next hr =>
    obtain rfl := Option.some.inj h
    have hhi : c.toNat ≤ 122 := hl hr.2
    have hn : c.toNat - 'a'.toNat < 26 := by show c.toNat - 97 < 26; omega
    refine ⟨by omega, ?_⟩
    rw [base64Digit, if_neg (by omega), if_pos (by omega), Nat.add_sub_cancel, ofNat_add_sub hr.1]
  split at h
  · next hr =>
    obtain rfl := Option.some.inj h
    have hhi : c.toNat ≤ 57 := hl hr.2
    have hn : c.toNat - '0'.toNat < 10 := by show c.toNat - 48 < 10; omega
    refine ⟨by omega, ?_⟩
    rw [base64Digit, if_neg (by omega), if_neg (by omega), if_pos (by omega),
      Nat.add_sub_cancel, ofNat_add_sub hr.1]
  split at h
  · next hpl =>
    obtain rfl := Option.some.inj h
    exact ⟨by decide, hpl⟩
  split at h
  · next hsl =>
    obtain rfl := Option.some.inj h
    exact ⟨by decide, hsl⟩
  · exact nomatch h

/-- **Strictness**: a text that decodes is the encoding of its bytes. -/
theorem eq_base64Encode_of_decode
    (h : base64Decode text = some bytes) : text = base64Encode bytes := by
  have hby (n : Nat) (hn : n < 256) : (UInt8.ofNat n).toNat = n := by
    rw [UInt8.toNat_ofNat', Nat.mod_eq_of_lt hn]
  fun_induction base64Decode text generalizing bytes with
  | case1 =>
    obtain rfl := Option.some.inj h
    rfl
  | case2 =>
    simp only [bind_eq_bind, bind_eq_some_iff, ite_none_right_eq_some, Option.some.injEq] at h
    obtain ⟨a, ha, b, hb, hre, rfl⟩ := h
    obtain ⟨ha, rfl⟩ := base64Value_eq_some ha
    obtain ⟨hb, rfl⟩ := base64Value_eq_some hb
    rw [base64Encode, hby _ (by omega), show (a * 4 + b / 16) / 4 = a by omega,
      show (a * 4 + b / 16) % 4 * 16 = b by omega]
  | case3 =>
    simp only [bind_eq_bind, bind_eq_some_iff, ite_none_right_eq_some, Option.some.injEq] at h
    obtain ⟨a, ha, b, hb, c, hc, hre, rfl⟩ := h
    obtain ⟨ha, rfl⟩ := base64Value_eq_some ha
    obtain ⟨hb, rfl⟩ := base64Value_eq_some hb
    obtain ⟨hc, rfl⟩ := base64Value_eq_some hc
    rw [base64Encode, hby _ (by omega), hby _ (by omega),
      show (a * 4 + b / 16) / 4 = a by omega,
      show (a * 4 + b / 16) % 4 * 16 + (b % 16 * 16 + c / 4) / 16 = b by omega,
      show (b % 16 * 16 + c / 4) % 16 * 4 = c by omega]
  | case4 a b c d rest _ _ ih =>
    simp only [bind_eq_bind, bind_eq_some_iff, pure, Option.some.injEq] at h
    obtain ⟨a, ha, b, hb, c, hc, d, hd, bytes, hre, rfl⟩ := h
    obtain ⟨ha, rfl⟩ := base64Value_eq_some ha
    obtain ⟨hb, rfl⟩ := base64Value_eq_some hb
    obtain ⟨hc, rfl⟩ := base64Value_eq_some hc
    obtain ⟨hd, rfl⟩ := base64Value_eq_some hd
    have hx := hby (a * 4 + b / 16) (by omega)
    have hy := hby (b % 16 * 16 + c / 4) (by omega)
    have hz := hby (c % 4 * 64 + d) (by omega)
    rw [ih hre, base64Encode, hx, hy, hz,
      show (a * 4 + b / 16) / 4 = a by omega,
      show (a * 4 + b / 16) % 4 * 16 + (b % 16 * 16 + c / 4) / 16 = b by omega,
      show (b % 16 * 16 + c / 4) % 16 * 4 + (c % 4 * 64 + d) / 64 = c by omega,
      show (c % 4 * 64 + d) % 64 = d by omega]
  | case5 => cases h

theorem base64Digit_ne_cr (n : Nat) : base64Digit n ≠ '\r' := by
  by_cases h : n < 64
  · have hal : ∀ n < 64, base64Digit n ≠ '\r' := by decide
    exact hal n h
  · rw [base64Digit, if_neg (by omega), if_neg (by omega), if_neg (by omega), if_neg (by omega)]
    decide

theorem cr_notMem_base64Encode (bytes : List UInt8) : '\r' ∉ base64Encode bytes := by
  fun_induction base64Encode bytes with
  | case1 => exact List.not_mem_nil
  | case2 | case3 => simp [(base64Digit_ne_cr _).symm]
  | case4 x y z rest ih => simp [(base64Digit_ne_cr _).symm, ih]

scoped instance : Codecs where
  hexDecode := hexDecode
  base64Decode := base64Decode
  base64Encode := base64Encode
  base64Encode_of_decode := eq_base64Encode_of_decode
  cr_notMem_base64Encode := cr_notMem_base64Encode _

end Espejismo.Standard
