import Espejismo.Binary.Bytes

/-!
# Binary.Word

Fixed-width integers as a compiled program sees them.  An operation whose result
leaves the type panics (`none`) or wraps, by the build profile.
-/

namespace Binary

/-- Cargo profile: arithmetic overflow panics in `debug`, wraps in `release`. -/
inductive Build where
  | debug
  | release
  deriving DecidableEq, Repr

def InI64 (x : Int) : Prop := -2 ^ 63 ≤ x ∧ x < 2 ^ 63

instance (x : Int) : Decidable (InI64 x) := inferInstanceAs (Decidable (_ ∧ _))

theorem inI64_toInt (x : Int64) : InI64 x.toInt := ⟨x.le_toInt, x.toInt_lt⟩

/-! ## i64 -/

/-- `i64::checked_sub`: the difference, unless it leaves the type. -/
def checkedSubI64 (x y : Int64) : Option Int64 :=
  if InI64 (x.toInt - y.toInt) then some (x - y) else none

def subI64 (b : Build) (x y : Int64) : Option Int64 :=
  match b with
  | .debug => checkedSubI64 x y
  | .release => some (x - y)

/-- `x.abs()` on `i64`: the absolute value of `i64::MIN` is not an `i64`. -/
def absI64 (b : Build) (x : Int64) : Option Int64 :=
  if x = Int64.minValue then
    match b with
    | .debug => none
    | .release => some x
  else some (if x < 0 then -x else x)

variable {x y : Int64}

theorem toInt_sub_of_inI64 (h : InI64 (x.toInt - y.toInt)) : (x - y).toInt = x.toInt - y.toInt := by
  rw [Int64.toInt_sub]
  exact Int.bmod_eq_of_le (by simpa using h.1) (by simpa using h.2)

theorem checkedSubI64_eq_some (h : checkedSubI64 x y = some d) : d.toInt = x.toInt - y.toInt := by
  unfold checkedSubI64 at h
  by_cases hr : InI64 (x.toInt - y.toInt)
  · rw [if_pos hr] at h
    rw [← Option.some.inj h, toInt_sub_of_inI64 hr]
  · rw [if_neg hr] at h; contradiction

theorem checkedSubI64_eq_none : checkedSubI64 x y = none ↔ ¬ InI64 (x.toInt - y.toInt) := by
  unfold checkedSubI64
  by_cases hr : InI64 (x.toInt - y.toInt) <;> simp

theorem absI64_of_ne_min (b : Build) (h : x ≠ Int64.minValue) :
    ∃ a, absI64 b x = some a ∧ a.toInt = x.toInt.natAbs := by
  unfold absI64
  rw [if_neg h]
  refine ⟨_, rfl, ?_⟩
  have hne : x.toInt ≠ -2 ^ 63 := fun he => h (Int64.toInt_inj.mp (by simpa using he))
  have hlo := x.le_toInt
  by_cases hng : x < 0
  · have hlt : x.toInt < 0 := by simpa [Int64.lt_iff_toInt_lt] using hng
    have hexact : (-x.toInt).bmod (2 ^ 64) = -x.toInt :=
      Int.bmod_eq_of_le (by simp; omega) (by simp; omega)
    rw [if_pos hng, Int64.toInt_neg]
    omega
  · have hge : 0 ≤ x.toInt := by
      simpa [Int64.lt_iff_toInt_lt] using hng
    rw [if_neg hng]
    omega

theorem toInt_max (x y : Int64) : (max x y).toInt = max x.toInt y.toInt := by
  change (if x ≤ y then y else x).toInt = _
  by_cases h : x ≤ y
  · rw [if_pos h]
    rw [Int64.le_iff_toInt_le] at h
    omega
  · rw [if_neg h]
    rw [Int64.le_iff_toInt_le] at h
    omega

/-! ## Unsigned integers -/

/-- `x + y` on an unsigned integer of `w` bits. -/
def addUnsigned (w : Nat) (b : Build) (x y : Nat) : Option Nat :=
  if x + y < 2 ^ w then some (x + y)
  else
    match b with
    | .debug => none
    | .release => some ((x + y) % 2 ^ w)

def addU8 : Build → Nat → Nat → Option Nat := addUnsigned 8
def addU64 : Build → Nat → Nat → Option Nat := addUnsigned 64

theorem addU64_lt {x y : Nat} (h : addU64 b x y = some z) : z < 2 ^ 64 := by
  unfold addU64 addUnsigned at h
  grind

theorem addU64_of_lt (b : Build) {x y : Nat} (h : x + y < 2 ^ 64) :
    addU64 b x y = some (x + y) := by
  unfold addU64 addUnsigned
  rw [if_pos h]

def u32Max : Nat := 2 ^ 32 - 1

def usizeMax : Nat := 2 ^ 64 - 1

def satAdd (x y : Nat) : Nat := min (x + y) usizeMax

def satMul (x y : Nat) : Nat := min (x * y) usizeMax

theorem satAdd_of_le {x y : Nat} (h : x + y ≤ usizeMax) : satAdd x y = x + y := Nat.min_eq_left h

inductive PointerWidth where
  | bits32
  | bits64
  deriving DecidableEq, Repr

def PointerWidth.bits : PointerWidth → Nat
  | .bits32 => 32
  | .bits64 => 64

def PointerWidth.usize (width : PointerWidth) (x : Nat) : Nat := x % 2 ^ width.bits

/-! ## Two's-complement bytes -/

def i64FromBE (bs : List UInt8) : Int64 := Int64.ofNat (decodeBE bs)

def i64ToBE (x : Int64) : List UInt8 := encodeBE 8 x.toBitVec.toNat

@[simp] theorem length_i64ToBE (x : Int64) : (i64ToBE x).length = 8 := length_encodeBE _ _

theorem i64FromBE_i64ToBE (x : Int64) : i64FromBE (i64ToBE x) = x := by
  have hlt : x.toBitVec.toNat < 256 ^ 8 := by
    omega
  unfold i64FromBE i64ToBE
  rw [decodeBE_encodeBE hlt]
  simp

end Binary
