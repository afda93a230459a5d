import Espejismo.Error
import Espejismo.Net.Address

/-!
# Text

Texts as the standard library handles them, and the checks that answer with
one.  Texts are lists of characters here.
-/

namespace Espejismo

open Net List

/-- `char::is_whitespace`: the Unicode property `White_Space`. -/
def isWhitespace (c : Char) : Bool :=
  let n := c.toNat
  (0x9 ≤ n && n ≤ 0xd) || n == 0x20 || n == 0x85 || n == 0xa0 || n == 0x1680 ||
    (0x2000 ≤ n && n ≤ 0x200a) || n == 0x2028 || n == 0x2029 || n == 0x202f || n == 0x205f ||
    n == 0x3000

def trimMatches (p : Char → Bool) (text : List Char) : List Char :=
  ((text.dropWhile p).reverse.dropWhile p).reverse

def trim (text : List Char) : List Char := trimMatches isWhitespace text

/-- `strip_prefix`. -/
def stripStart (start text : List Char) : Option (List Char) :=
  if start.isPrefixOf text then some (text.drop start.length) else none

theorem stripStart_append (start rest : List Char) :
    stripStart start (start ++ rest) = some rest := by
  simp [stripStart]

variable {text : List Char} {ok : Bool}

theorem stripStart_eq_some (h : stripStart start text = some rest) : text = start ++ rest := by
  unfold stripStart at h
  split at h
  · next hpr =>
    cases h
    obtain ⟨rest, rfl⟩ := isPrefixOf_iff_prefix.mp hpr
    simp
  · contradiction

theorem stripStart_eq_none (h : ¬start <+: text) : stripStart start text = none := by
  simpa [stripStart] using h

def splitOnce (c : Char) (text : List Char) : Option (List Char × List Char) :=
  match text.dropWhile (· != c) with
  | [] => none
  | _ :: rest => some (text.takeWhile (· != c), rest)

theorem splitOnce_eq_some
    (h : splitOnce c text = some (before, more)) : text = before ++ c :: more ∧ c ∉ before := by
  unfold splitOnce at h
  split at h
  · contradiction
  · next x rest hdr =>
    obtain ⟨rfl, rfl⟩ := Prod.mk.inj (Option.some.inj h)
    have hx : x = c := by
      have hhe := head_dropWhile_not (· != c) (l := text) (by simp [hdr])
      simpa [hdr] using hhe
    subst hx
    refine ⟨by rw [← hdr, takeWhile_append_dropWhile], fun hme => ?_⟩
    simpa using all_eq_true.mp all_takeWhile _ hme

def rsplitOnce (c : Char) (text : List Char) : Option (List Char × List Char) :=
  (splitOnce c text.reverse).map fun (after, before) => (before.reverse, after.reverse)

/-- `contains("://")`. -/
def containsText (needle : List Char) : List Char → Bool
  | [] => needle.isEmpty
  | c :: text => needle.isPrefixOf (c :: text) || containsText needle text

/-- `from_str` of an unsigned integer of `bits` bits: digits, with an optional
plus sign. -/
def parseUnsigned (bits : Nat) (text : List Char) : Option Nat :=
  let digits := match text with
    | '+' :: digits => digits
    | digits => digits
  match readNumber 10 none true (2 ^ bits) digits with
  | some (n, []) => some n
  | _ => none

def parseU16 (text : List Char) : Option Nat := parseUnsigned 16 text

def parseU64 (text : List Char) : Option Nat := parseUnsigned 64 text

def toAsciiLowercase (text : List Char) : List Char := text.map Char.toLower

def eqIgnoreAsciiCase (text other : List Char) : Bool :=
  toAsciiLowercase text == toAsciiLowercase other

def splitWhitespace (text : List Char) : List (List Char) :=
  (text.splitOnP isWhitespace).filter (!·.isEmpty)

theorem forall_mem_splitOnP {l : List α} (h : piece ∈ l.splitOnP p) : ∀ x ∈ piece, p x = false := by
  induction l generalizing piece with
  | nil =>
    rw [splitOnP_nil, mem_singleton] at h
    simp [h]
  | cons x l ih =>
    rw [splitOnP_cons_eq_if_modifyHead] at h
    split at h
    · rcases mem_cons.mp h with rfl | h
      · simp
      · exact ih h
    · next hx =>
      cases hsp : l.splitOnP p with
      | nil => simp [hsp] at h
      | cons =>
        rw [hsp] at h ih
        rcases mem_cons.mp h with rfl | h
        · intro y hy
          rcases mem_cons.mp hy with rfl | hy
          · simpa using hx
          · exact ih (.head _) y hy
        · exact ih (.tail _ h)

theorem isWhitespace_of_mem_splitWhitespace (h : part ∈ splitWhitespace text) :
    ∀ c ∈ part, isWhitespace c = false :=
  forall_mem_splitOnP (mem_filter.mp h).1

def headerEnd : List UInt8 := [13, 10, 13, 10]

/-! ## Checks -/

def ensure (ok : Bool) (text : String) : Except Error Unit :=
  if ok then .ok () else .error (.msg text)

theorem ensure_eq_ok {text : String} : ensure ok text = .ok () ↔ ok = true := by
  cases ok <;> simp [ensure]

theorem ensure_eq_error {text : String} :
    ensure ok text = .error e ↔ ok = false ∧ e = .msg text := by
  cases ok <;> simp [ensure, eq_comm]

theorem ensure_bind_eq_ok {text : String} :
    (ensure ok text >>= f) = .ok a ↔ ok = true ∧ f () = .ok a := by
  cases ok <;> simp [ensure, bind, Except.bind]

theorem ensure_bind_eq_error {text : String} :
    (ensure ok text >>= f) = .error e ↔
      ok = false ∧ e = .msg text ∨ ok = true ∧ f () = .error e := by
  cases ok <;> simp [ensure, bind, Except.bind, eq_comm]

end Espejismo
