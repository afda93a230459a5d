import Mathlib.Algebra.Group.Int.Defs
import Mathlib.Algebra.Group.Nat.Defs

/-!
# Binary.Bytes

Byte-list plumbing: fixed-size byte arrays, big-endian integers, XOR masks,
and the exact reads of a byte stream.
-/

namespace Binary

open List

/-- A byte array of a fixed length: the value carries the proof of its
length, so no reader has to check it again. -/
abbrev Bytes (n : Nat) : Type := { bs : List UInt8 // bs.length = n }

namespace Bytes

def zero (n : Nat) : Bytes n := ⟨List.replicate n 0, List.length_replicate⟩

@[simp] theorem length_val (b : Bytes n) : b.val.length = n := b.property

end Bytes

def ascii (s : String) : List UInt8 := s.toList.map fun c => UInt8.ofNat c.toNat

/-! ## Big-endian integers -/

/-- The low `n` bytes of `v`, most significant first. -/
def encodeBE : Nat → Nat → List UInt8
  | 0, _ => []
  | n + 1, v => encodeBE n (v / 256) ++ [UInt8.ofNat v]

def decodeBE (bs : List UInt8) : Nat := bs.foldl (fun acc b => acc * 256 + b.toNat) 0

@[simp] theorem length_encodeBE (n v : Nat) : (encodeBE n v).length = n := by
  induction n generalizing v with
  | zero => rfl
  | succ n ih => simp [encodeBE, ih]

@[simp] theorem decodeBE_nil : decodeBE [] = 0 := rfl

theorem decodeBE_concat (bs : List UInt8) (b : UInt8) :
    decodeBE (bs ++ [b]) = decodeBE bs * 256 + b.toNat := by
  simp [decodeBE]

variable {n a b : Nat} {xs ys : List UInt8}

/-- **Integer roundtrip**: what fits in `n` bytes is read back. -/
theorem decodeBE_encodeBE (h : v < 256 ^ n) : decodeBE (encodeBE n v) = v := by
  induction n generalizing v with
  | zero => simp at h; simp [encodeBE, h]
  | succ n ih =>
    have hdi : v / 256 < 256 ^ n := by
      exact Nat.div_lt_of_lt_mul (by omega)
    rw [encodeBE, decodeBE_concat, ih hdi]
    have hb : (UInt8.ofNat v).toNat = v % 256 := by simp
    omega

theorem decodeBE_lt (bs : List UInt8) : decodeBE bs < 256 ^ bs.length := by
  -- the fold grows at the end of the string, so the induction peels its last byte
  induction h : bs.length generalizing bs with
  | zero => simp [length_eq_zero_iff.mp h]
  | succ n ih =>
    have hne : bs ≠ [] := by intro hni; simp [hni] at h
    have hsp := dropLast_concat_getLast hne
    have hln : bs.dropLast.length = n := by simp [h]
    have hih := ih bs.dropLast hln
    have hla : (bs.getLast hne).toNat < 256 := UInt8.toNat_lt _
    rw [← hsp, decodeBE_concat]
    omega

theorem encodeBE_decodeBE (h : bs.length = n) : encodeBE n (decodeBE bs) = bs := by
  induction n generalizing bs with
  | zero => simp [length_eq_zero_iff.mp h, encodeBE]
  | succ n ih =>
    have hne : bs ≠ [] := by intro hni; simp [hni] at h
    have hla : (bs.getLast hne).toNat < 256 := UInt8.toNat_lt _
    have hin : encodeBE n (decodeBE bs.dropLast) = bs.dropLast := ih (by simp [h])
    have hdi : (decodeBE bs.dropLast * 256 + (bs.getLast hne).toNat) / 256 =
        decodeBE bs.dropLast := by omega
    have hby : UInt8.ofNat (decodeBE bs.dropLast * 256 + (bs.getLast hne).toNat) =
        bs.getLast hne := by
      simp
    have hva : decodeBE bs = decodeBE bs.dropLast * 256 + (bs.getLast hne).toNat := by
      rw [← decodeBE_concat, dropLast_concat_getLast]
    rw [hva, encodeBE, hdi, hby, hin, dropLast_concat_getLast]

/-! ## XOR masks -/

def xorBytes (data mask : List UInt8) : List UInt8 := List.zipWith (· ^^^ ·) data mask

theorem length_xorBytes (h : data.length ≤ mask.length) :
    (xorBytes data mask).length = data.length := by
  simp [xorBytes, h]

theorem xorBytes_xorBytes (h : data.length ≤ mask.length) :
    xorBytes (xorBytes data mask) mask = data := by
  induction data generalizing mask with
  | nil => simp [xorBytes]
  | cons d ds ih =>
    cases mask with
    | nil => simp at h
    | cons m ms =>
      have hta : xorBytes (xorBytes ds ms) ms = ds := ih (by simpa using h)
      have hhe : d ^^^ m ^^^ m = d := by
        rw [UInt8.xor_assoc, UInt8.xor_self, UInt8.xor_zero]
      simpa [xorBytes, hhe] using hta

/-! ## Slices -/

def slice (a b : Nat) (bs : List UInt8) : List UInt8 := (bs.drop a).take (b - a)

theorem length_slice (h : b ≤ bs.length) : (slice a b bs).length = b - a := by
  simp only [slice, length_take, length_drop]
  omega

theorem slice_append_right (h : xs.length ≤ a) :
    slice a b (xs ++ ys) = slice (a - xs.length) (b - xs.length) ys := by
  have hdro : (xs ++ ys).drop a = ys.drop (a - xs.length) := by
    rw [drop_append, drop_eq_nil_of_le h, nil_append]
  rw [slice]
  congr 1
  omega

theorem slice_append_left (h : b ≤ xs.length) : slice a b (xs ++ ys) = slice a b xs := by
  by_cases hab : a ≤ b
  · rw [slice, slice, drop_append_of_le_length (by omega), take_append_of_le_length]
    rw [length_drop]
    omega
  · have hze : b - a = 0 := by omega
    rw [slice, slice, hze, take_zero, take_zero]

theorem slice_all (h : xs.length = n) : slice 0 n xs = xs := by
  rw [slice, drop_zero, take_of_length_le (by omega)]

def Bytes.slice (a b : Nat) {n : Nat} (bs : Bytes n) (h : b ≤ n) : Bytes (b - a) :=
  ⟨Binary.slice a b bs.val, length_slice (by rw [bs.property]; exact h)⟩

/-- `bs[..n]` as an array, where there are that many bytes. -/
def firstBytes (n : Nat) (bs : List UInt8) : Option (Bytes n) :=
  if h : n ≤ bs.length then some ⟨bs.take n, by rw [List.length_take]; omega⟩ else none

theorem firstBytes_append (b : Bytes n) (rest : List UInt8) :
    firstBytes n (b.val ++ rest) = some b := by
  have hle : n ≤ (b.val ++ rest).length := by simp
  rw [firstBytes, dif_pos hle, Option.some.injEq]
  exact Subtype.ext (take_left' b.property)

/-! ## Exact reads -/

/-- Read exactly `n` bytes from the front of a buffer; `none` when the buffer
is shorter. -/
def takeExact (n : Nat) (buf : List UInt8) : Option (List UInt8 × List UInt8) :=
  if n ≤ buf.length then some (buf.take n, buf.drop n) else none

theorem takeExact_append (h : xs.length = n) : takeExact n (xs ++ ys) = some (xs, ys) := by
  unfold takeExact
  rw [if_pos (by simp [h]), take_left' h, drop_left' h]

theorem takeExact_eq_some (h : takeExact n buf = some (xs, ys)) :
    xs.length = n ∧ buf = xs ++ ys := by
  unfold takeExact at h
  by_cases hn : n ≤ buf.length
  · rw [if_pos hn] at h
    have hpa := Option.some.inj h
    have hxs : buf.take n = xs := congrArg Prod.fst hpa
    have hys : buf.drop n = ys := congrArg Prod.snd hpa
    rw [← hxs, ← hys, take_append_drop, length_take]
    exact ⟨by omega, rfl⟩
  · rw [if_neg hn] at h; contradiction

end Binary
