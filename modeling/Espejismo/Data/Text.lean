import Mathlib.Data.List.Infix

/-!
# Data.Text

The part of a list through the first occurrence of another (`through`), and
lists cut at a separator of two symbols, as a text is cut into lines at CR LF.
`splitPair` cuts at every occurrence from the left, so joining lists never loses a
cut (`length_splitPair_append`).
-/

namespace Text

open List

variable {α : Type} {a b : α} {l : List α}

/-! ## Through the first occurrence -/

structure EndsAtFirst (needle l : List α) : Prop where
  ends : needle <:+ l
  first : ¬needle <:+: l.dropLast

variable {needle : List α}

theorem EndsAtFirst.eq_of_length_le (h : EndsAtFirst needle l) (h' : EndsAtFirst needle l')
    (hl : l <+: text) (hl' : l' <+: text) (hle : l.length ≤ l'.length) : l = l' := by
  have hp := prefix_of_prefix_length_le hl hl' hle
  by_contra hn
  obtain ⟨rest, rfl⟩ := hp
  have hre : rest ≠ [] := by
    rintro rfl
    exact hn (append_nil l).symm
  refine h'.first (h.ends.isInfix.trans ?_)
  rw [dropLast_append_of_ne_nil hre]
  exact (prefix_append l _).isInfix

theorem EndsAtFirst.eq_of_isPrefix (h : EndsAtFirst needle l) (h' : EndsAtFirst needle l')
    (hl : l <+: text) (hl' : l' <+: text) : l = l' := by
  rcases Nat.le_total l.length l'.length with hle | hle
  · exact h.eq_of_length_le h' hl hl' hle
  · exact (h'.eq_of_length_le h hl' hl hle).symm

/-- The part of a list through the first occurrence of `needle`. -/
def through [DecidableEq α] (needle : List α) : List α → Option (List α)
  | [] => none
  | x :: l =>
    if needle <+: x :: l then some needle else (through needle l).map (x :: ·)

theorem through_eq_none [DecidableEq α] (hn : needle ≠ []) (h : through needle text = none) :
    ¬needle <:+: text := by
  induction text with
  | nil => simpa using hn
  | cons x text ih =>
    unfold through at h
    split at h
    · contradiction
    · next hp =>
      rw [infix_cons_iff, not_or]
      exact ⟨hp, ih (Option.map_eq_none_iff.mp h)⟩

theorem through_eq_some [DecidableEq α] (hn : needle ≠ []) (h : through needle text = some l) :
    l <+: text ∧ EndsAtFirst needle l := by
  induction text generalizing l with
  | nil => contradiction
  | cons x text ih =>
    unfold through at h
    split at h
    · next hp =>
      cases h
      refine ⟨hp, suffix_refl _, fun hi => ?_⟩
      have hle := hi.length_le
      have hpo := length_pos_iff.mpr hn
      rw [length_dropLast] at hle
      omega
    · next hp =>
      obtain ⟨l, hte, rfl⟩ := Option.map_eq_some_iff.mp h
      obtain ⟨hl, hen, hfi⟩ := ih hte
      have hni : l ≠ [] := by
        rintro rfl
        exact hn (suffix_nil.mp hen)
      refine ⟨cons_prefix_cons.mpr ⟨rfl, hl⟩, hen.trans (suffix_cons x l), ?_⟩
      rw [dropLast_cons_of_ne_nil hni, infix_cons_iff, not_or]
      refine ⟨fun hi => hp (hi.trans ?_), hfi⟩
      have hsh := dropLast_prefix l
      exact cons_prefix_cons.mpr ⟨rfl, hsh.trans hl⟩

theorem exists_through [DecidableEq α] (hn : needle ≠ []) (h : needle <:+: text) :
    ∃ l, through needle text = some l := by
  cases hth : through needle text with
  | none => exact absurd h (through_eq_none hn hth)
  | some l => exact ⟨l, rfl⟩

/-! ## Joined lists without a separator -/

theorem not_infix_append_left (hl : a ∉ l) (h : ¬[a, b] <:+: l') : ¬[a, b] <:+: l ++ l' := by
  induction l with
  | nil => exact h
  | cons x l ih =>
    rw [cons_append, infix_cons_iff, cons_prefix_cons]
    rintro (⟨rfl, -⟩ | hi)
    · exact hl (.head _)
    · exact ih (fun hme => hl (.tail _ hme)) hi

theorem not_infix_append_right (h : ¬[a, b] <:+: l) (hl' : b ∉ l') : ¬[a, b] <:+: l ++ l' := by
  induction l with
  | nil =>
    intro hi
    exact hl' (hi.subset (.tail _ (.head _)))
  | cons x l ih =>
    rw [infix_cons_iff, not_or] at h
    rw [cons_append, infix_cons_iff, cons_prefix_cons]
    rintro (⟨rfl, hhe⟩ | hi)
    · cases l with
      | nil => exact hl' (hhe.subset (.head _))
      | cons y l =>
        rw [cons_append, cons_prefix_cons] at hhe
        exact h.1 (by rw [← hhe.1]; exact prefix_append [a, b] l)
    · exact ih h.2 hi

/-! ## Cutting -/

variable [DecidableEq α]

def splitPair (a b : α) : List α → List (List α)
  | [] => [[]]
  | [x] => [[x]]
  | x :: y :: rest =>
    if x = a ∧ y = b then [] :: splitPair a b rest
    else (splitPair a b (y :: rest)).modifyHead (x :: ·)

theorem splitPair_pair (a b : α) (rest : List α) :
    splitPair a b (a :: b :: rest) = [] :: splitPair a b rest := by
  rw [splitPair, if_pos ⟨rfl, rfl⟩]

theorem splitPair_append (ha : a ≠ b) (h : ¬[a, b] <:+: l) (rest : List α) :
    splitPair a b (l ++ a :: b :: rest) = l :: splitPair a b rest := by
  induction l using splitPair.induct a b with
  | case1 => exact splitPair_pair a b rest
  | case2 =>
    rw [cons_append, nil_append, splitPair, if_neg fun hse => ha hse.2, splitPair_pair]
    rfl
  | case3 x y rest' hse =>
    obtain ⟨rfl, rfl⟩ := hse
    exact absurd (prefix_append [x, y] rest').isInfix h
  | case4 x y rest' hse ih =>
    have hta := ih fun hi => h (infix_cons hi)
    rw [cons_append] at hta
    rw [cons_append, cons_append, splitPair, if_neg hse, hta]
    rfl

theorem splitPair_flatMap (ha : a ≠ b) (h : ∀ line ∈ lines, ¬[a, b] <:+: line) (rest : List α) :
    splitPair a b (lines.flatMap (· ++ [a, b]) ++ rest) = lines ++ splitPair a b rest := by
  induction lines with
  | nil => rfl
  | cons line lines ih =>
    have hli := splitPair_append ha (h line (.head _)) (lines.flatMap (· ++ [a, b]) ++ rest)
    rw [ih fun l hl => h l (.tail _ hl)] at hli
    simpa using hli

/-! ## Counting the pieces -/

theorem length_splitPair_cons_cons (ha : a ≠ b) (x y : α) (rest : List α) :
    (splitPair a b (x :: y :: rest)).length =
      (splitPair a b (y :: rest)).length + if x = a ∧ y = b then 1 else 0 := by
  by_cases hse : x = a ∧ y = b
  · obtain ⟨rfl, rfl⟩ := hse
    -- the second symbol of a separator never begins another
    have hsc : (splitPair x y (y :: rest)).length = (splitPair x y rest).length := by
      cases rest with
      | nil => rfl
      | cons => simp [splitPair, ha.symm]
    rw [splitPair_pair, length_cons, hsc, if_pos ⟨rfl, rfl⟩]
  · simp [splitPair, hse]

theorem length_splitPair_pos (a b : α) (l : List α) : 0 < (splitPair a b l).length := by
  induction l using splitPair.induct a b with
  | case1 | case2 => simp [splitPair]
  | case3 x y rest hse => simp [splitPair, hse]
  | case4 x y rest hse ih => simpa [splitPair, hse] using ih

theorem length_splitPair_append (ha : a ≠ b) (l l' : List α) :
    (splitPair a b l).length + (splitPair a b l').length ≤
      (splitPair a b (l ++ l')).length + 1 := by
  induction l with
  | nil => simp [splitPair, Nat.add_comm]
  | cons x l ih =>
    cases l with
    | nil =>
      cases l' with
      | nil => simp [splitPair]
      | cons =>
        rw [singleton_append, length_splitPair_cons_cons ha]
        simp [splitPair]
        omega
    | cons =>
      rw [cons_append] at ih
      rw [cons_append, cons_append, length_splitPair_cons_cons ha, length_splitPair_cons_cons ha]
      omega

theorem length_splitPair_append_pair (ha : a ≠ b) (l rest : List α) :
    (splitPair a b l).length + (splitPair a b rest).length ≤
      (splitPair a b (l ++ a :: b :: rest)).length := by
  have hj := length_splitPair_append ha l (a :: b :: rest)
  rw [splitPair_pair, length_cons] at hj
  omega

theorem length_lt_splitPair_flatMap (ha : a ≠ b) (lines : List (List α)) :
    lines.length < (splitPair a b (lines.flatMap (· ++ [a, b]))).length := by
  induction lines with
  | nil => exact Nat.one_pos
  | cons line lines ih =>
    have hpo := length_splitPair_pos a b line
    have hj := length_splitPair_append_pair ha line (lines.flatMap (· ++ [a, b]))
    rw [flatMap_cons, append_assoc, length_cons]
    exact Nat.lt_of_lt_of_le (by omega) hj

theorem two_le_length_splitPair (ha : a ≠ b) (h : [a, b] <:+: l) :
    2 ≤ (splitPair a b l).length := by
  obtain ⟨s, t, rfl⟩ := h
  have hs := length_splitPair_pos a b s
  have ht := length_splitPair_pos a b t
  have hj := length_splitPair_append_pair ha s t
  rw [append_assoc]
  exact Nat.le_trans (by omega) hj

theorem head_splitPair (h : splitPair a b (y :: l) = p :: ps) : p = [] ∨ ∃ q, p = y :: q := by
  cases l with
  | nil =>
    cases h
    exact .inr ⟨[], rfl⟩
  | cons z l =>
    rw [splitPair] at h
    split at h
    · cases h
      exact .inl rfl
    cases hsp : splitPair a b (z :: l) with
    | nil => simp [hsp] at h
    | cons q =>
      rw [hsp] at h
      cases h
      exact .inr ⟨q, rfl⟩

theorem not_infix_of_mem_splitPair (h : piece ∈ splitPair a b l) : ¬[a, b] <:+: piece := by
  induction l using splitPair.induct a b generalizing piece with
  | case1 =>
    cases mem_singleton.mp h
    simp
  | case2 =>
    cases mem_singleton.mp h
    intro hi
    simpa using hi.length_le
  | case3 x y rest hse ih =>
    rw [splitPair, if_pos hse] at h
    rcases mem_cons.mp h with rfl | h
    · simp
    · exact ih h
  | case4 x y rest hse ih =>
    rw [splitPair, if_neg hse] at h
    cases hsp : splitPair a b (y :: rest) with
    | nil => simp [hsp] at h
    | cons =>
      rw [hsp] at h ih
      rcases mem_cons.mp h with rfl | h
      · rw [infix_cons_iff, cons_prefix_cons, not_or]
        refine ⟨?_, ih (.head _)⟩
        rintro ⟨rfl, hb⟩
        rcases head_splitPair hsp with rfl | ⟨q, rfl⟩
        · simp at hb
        · exact hse ⟨rfl, (cons_prefix_cons.mp hb).1.symm⟩
      · exact ih (.tail _ h)

end Text
