
/-!
# Data.Utf8

UTF-8 between lists of bytes and lists of characters, by the decoder of the
standard library: the bytes of a text are exactly what decodes to it
(`decode_eq_some_iff`), and bytes below 128 stand for themselves.
-/

namespace Utf8

open List

def encode (text : List Char) : List UInt8 := text.flatMap String.utf8EncodeChar

def decode (bytes : List UInt8) : Option (List Char) :=
  bytes.toByteArray.utf8Decode?.map Array.toList

theorem toByteArray_encode (text : List Char) : (encode text).toByteArray = text.utf8Encode := rfl

theorem decode_encode (text : List Char) : decode (encode text) = some text := by
  rw [decode, toByteArray_encode, utf8Decode?_utf8Encode]
  rfl

variable {bytes : List UInt8} {c : Char}

theorem decode_eq_some_iff : decode bytes = some text ↔ bytes = encode text := by
  constructor
  · intro h
    obtain ⟨chars, hch, rfl⟩ := Option.map_eq_some_iff.mp h
    have hso : bytes.toByteArray.utf8Decode?.isSome = true := by rw [hch]; rfl
    have hba := ByteArray.utf8Encode_get_utf8Decode? (h := hso)
    simp only [hch, Option.get_some] at hba
    calc bytes = bytes.toByteArray.data.toList := toList_data_toByteArray.symm
      _ = (encode chars.toList).toByteArray.data.toList := by rw [toByteArray_encode, hba]
      _ = encode chars.toList := toList_data_toByteArray
  · rintro rfl
    exact decode_encode text

/-! ## ASCII -/

theorem utf8EncodeChar_ofNat (h : n < 128) :
    String.utf8EncodeChar (Char.ofNat n) = [UInt8.ofNat n] := by
  have hal : ∀ n < 128, String.utf8EncodeChar (Char.ofNat n) = [UInt8.ofNat n] := by decide
  exact hal n h

theorem decode_ascii (h : ∀ b ∈ bytes, b < 128) :
    decode bytes = some (bytes.map fun b => Char.ofNat b.toNat) := by
  rw [decode_eq_some_iff]
  induction bytes with
  | nil => rfl
  | cons b bytes ih =>
    have hb : b.toNat < 128 := UInt8.lt_iff_toNat_lt.mp (h b (.head _))
    have hta := ih fun c hc => h c (.tail _ hc)
    simp only [encode, map_cons, flatMap_cons] at hta ⊢
    rw [utf8EncodeChar_ofNat hb, UInt8.ofNat_toNat, ← hta]
    rfl

/-! ## ASCII inside a text -/

theorem encode_cons (c : Char) (text : List Char) :
    encode (c :: text) = String.utf8EncodeChar c ++ encode text := rfl

theorem utf8EncodeChar_ascii (h : c.toNat < 128) :
    String.utf8EncodeChar c = [UInt8.ofNat c.toNat] := by
  simpa using utf8EncodeChar_ofNat h

theorem le_of_mem_utf8EncodeChar (h : 128 ≤ c.toNat) (hb : b ∈ String.utf8EncodeChar c) :
    128 ≤ b := by
  have hv : ¬c.val.toNat ≤ 127 := Nat.not_le.mpr h
  have hbt : ∀ n, 128 ≤ n → n < 256 → 128 ≤ UInt8.ofNat n := by
    intro n hlo hh
    rw [UInt8.le_iff_toNat_le, UInt8.toNat_ofNat', Nat.mod_eq_of_lt hh]
    exact hlo
  simp only [String.utf8EncodeChar, if_neg hv] at hb
  split at hb
  · simp only [mem_cons, not_mem_nil, or_false] at hb
    rcases hb with rfl | rfl <;> exact hbt _ (by omega) (by omega)
  split at hb
  · simp only [mem_cons, not_mem_nil, or_false] at hb
    rcases hb with rfl | rfl | rfl <;> exact hbt _ (by omega) (by omega)
  · simp only [mem_cons, not_mem_nil, or_false] at hb
    rcases hb with rfl | rfl | rfl | rfl <;> exact hbt _ (by omega) (by omega)

theorem isInfix_of_append_high {rest : List UInt8} (ha : a < 128)
    (hh : ∀ b ∈ high, 128 ≤ b) (h : a :: l <:+: high ++ rest) : a :: l <:+: rest := by
  induction high with
  | nil => exact h
  | cons b high ih =>
    rw [cons_append, infix_cons_iff, cons_prefix_cons] at h
    obtain ⟨rfl, -⟩ | h := h
    · exact absurd (hh a (.head _)) (UInt8.not_le.mpr ha)
    · exact ih (fun c hc => hh c (.tail _ hc)) h

section Ascii

variable {part text : List Char} (hp : ∀ c ∈ part, c.toNat < 128)

include hp

theorem isPrefix_of_encode (h : encode part <+: encode text) : part <+: text := by
  induction part generalizing text with
  | nil => exact nil_prefix
  | cons a part ih =>
    have ha := hp a (.head _)
    rw [encode_cons, utf8EncodeChar_ascii ha, singleton_append] at h
    cases text with
    | nil => simp [encode] at h
    | cons c =>
      rw [encode_cons] at h
      by_cases hc : c.toNat < 128
      · rw [utf8EncodeChar_ascii hc, singleton_append, cons_prefix_cons] at h
        have hac : a = c := by
          have hby := congrArg UInt8.toNat h.1
          rw [UInt8.toNat_ofNat', UInt8.toNat_ofNat', Nat.mod_eq_of_lt (by omega),
            Nat.mod_eq_of_lt (by omega)] at hby
          exact Char.toNat_inj.mp hby
        rw [hac, cons_prefix_cons]
        exact ⟨rfl, ih (fun d hd => hp d (.tail _ hd)) h.2⟩
      · have hme : UInt8.ofNat a.toNat ∈ String.utf8EncodeChar c := by
          cases hby : String.utf8EncodeChar c with
          | nil => exact absurd hby String.utf8EncodeChar_ne_nil
          | cons =>
            rw [hby, cons_append, cons_prefix_cons] at h
            rw [h.1]
            exact .head _
        have hle := UInt8.le_iff_toNat_le.mp (le_of_mem_utf8EncodeChar (by omega) hme)
        rw [UInt8.toNat_ofNat', Nat.mod_eq_of_lt (by omega)] at hle
        exact absurd hle (by simpa using ha)

theorem isInfix_of_encode (h : encode part <:+: encode text) : part <:+: text := by
  induction text with
  | nil =>
    have hni : encode part = [] := infix_nil.mp h
    exact (isPrefix_of_encode hp (by rw [hni]; exact nil_prefix)).isInfix
  | cons c text ih =>
    by_cases hc : c.toNat < 128
    · rw [encode_cons, utf8EncodeChar_ascii hc, singleton_append, infix_cons_iff] at h
      rcases h with h | h
      · refine (isPrefix_of_encode hp ?_).isInfix
        rwa [encode_cons, utf8EncodeChar_ascii hc]
      · exact infix_cons (ih h)
    · cases part with
      | nil => exact nil_infix
      | cons a part =>
        have ha := hp a (.head _)
        have hlo : UInt8.ofNat a.toNat < 128 := by
          rw [UInt8.lt_iff_toNat_lt, UInt8.toNat_ofNat', Nat.mod_eq_of_lt (by omega)]
          exact ha
        have hh : ∀ b ∈ String.utf8EncodeChar c, 128 ≤ b := fun b hb =>
          le_of_mem_utf8EncodeChar (by omega) hb
        have hby : encode (a :: part) = UInt8.ofNat a.toNat :: encode part := by
          rw [encode_cons, utf8EncodeChar_ascii ha, singleton_append]
        rw [hby] at h
        have hre := isInfix_of_append_high hlo hh h
        rw [← hby] at hre
        exact infix_cons (ih hre)

end Ascii

end Utf8
