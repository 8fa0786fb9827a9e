/-
# PluginVet.Proofs.Text.Search — what the pieces of a text are

A text begins with `head` exactly when `dropHead?` finds it (`dropHead?_eq_some_iff`), it ends with
`tail` exactly when `dropTail?` does (`dropTail?_eq_some_iff`), and dividing a text at a separator and
joining pieces with it undo each other (`splitOn_intercalate`, `intercalate_splitOn`).

§A heads, tails and occurrences, §B pieces.
-/
import Mathlib.Data.List.Basic
import Mathlib.Data.List.Infix
import PluginVet.Text.Search

namespace PluginVet.Text

/-! ## §A Heads, tails and occurrences -/

theorem dropHead?_append (head rest : List Char) : dropHead? head (head ++ rest) = some rest := by
  induction head with
  | nil => cases rest <;> rfl
  | cons c cs ih => simpa [dropHead?] using ih

theorem dropHead?_eq_some_iff {head s rest : List Char} :
    dropHead? head s = some rest ↔ s = head ++ rest := by
  constructor
  · exact dropHead?_eq_append
  · rintro rfl
    exact dropHead?_append head rest

theorem dropHead?_eq_none_iff {head s : List Char} :
    dropHead? head s = none ↔ ¬ head <+: s := by
  rw [Option.eq_none_iff_forall_ne_some]
  constructor
  · rintro h ⟨rest, rfl⟩
    exact h rest (dropHead?_append head rest)
  · intro h rest hrest
    exact h ⟨rest, (dropHead?_eq_some_iff.mp hrest).symm⟩

theorem isSome_dropHead?_iff {head s : List Char} :
    (dropHead? head s).isSome = true ↔ head <+: s := by
  rw [← not_iff_not, ← dropHead?_eq_none_iff, Bool.not_eq_true, Option.isSome_eq_false_iff,
    Option.isNone_iff_eq_none]

theorem dropTail?_eq_some_iff {tail s rest : List Char} :
    dropTail? tail s = some rest ↔ s = rest ++ tail := by
  rw [dropTail?, Option.map_eq_some_iff]
  constructor
  · rintro ⟨back, hback, rfl⟩
    rw [dropHead?_eq_some_iff, List.reverse_eq_iff] at hback
    rw [hback, List.reverse_append, List.reverse_reverse]
  · rintro rfl
    exact ⟨rest.reverse, dropHead?_eq_some_iff.mpr List.reverse_append, List.reverse_reverse rest⟩

/-- A piece occurs in a text exactly when the text is something, the piece and something more. -/
theorem occursIn_iff {pat s : List Char} : occursIn pat s = true ↔ pat <:+: s := by
  rw [occursIn, Option.isSome_iff_exists]
  constructor
  · rintro ⟨⟨a, b⟩, h⟩
    exact ⟨a, b, (breakOn?_eq_append h).symm⟩
  · intro h
    induction s with
    | nil =>
        obtain rfl := List.infix_nil.mp h
        exact ⟨([], []), rfl⟩
    | cons c cs ih =>
        rw [breakOn?]
        cases hhead : dropHead? pat (c :: cs) with
        | some rest => exact ⟨([], rest), rfl⟩
        | none =>
            rcases List.infix_cons_iff.mp h with ⟨rest, hrest⟩ | hinner
            · exact absurd ⟨rest, hrest⟩ (dropHead?_eq_none_iff.mp hhead)
            · obtain ⟨⟨a, b⟩, hab⟩ := ih hinner
              exact ⟨(c :: a, b), by rw [hab]; rfl⟩

theorem breakOn?_singleton_eq_none_iff {c : Char} {s : List Char} :
    breakOn? [c] s = none ↔ c ∉ s := by
  rw [← Option.isNone_iff_eq_none, ← Option.isSome_eq_false_iff, ← Bool.not_eq_true,
    not_iff_not]
  exact occursIn_iff.trans (List.singleton_infix_iff c s)

/-- The first occurrence stays the first one in a longer text. -/
theorem breakOn?_singleton_append {c : Char} {s a b : List Char}
    (h : breakOn? [c] s = some (a, b)) (t : List Char) :
    breakOn? [c] (s ++ t) = some (a, b ++ t) := by
  induction s generalizing a with
  | nil => cases h
  | cons d s ih =>
      rw [breakOn?] at h
      rw [List.cons_append, breakOn?]
      by_cases hd : c = d
      · rw [dropHead?, if_pos hd, dropHead?] at h ⊢
        obtain ⟨rfl, rfl⟩ := Prod.mk.inj (Option.some.inj h)
        rfl
      · rw [dropHead?, if_neg hd] at h ⊢
        obtain ⟨⟨a', b'⟩, hrest, hpair⟩ := Option.map_eq_some_iff.mp h
        obtain ⟨rfl, rfl⟩ := Prod.mk.inj hpair
        rw [ih hrest]
        rfl

/-! ## §B Pieces -/

theorem splitOn_ne_nil (sep : Char) (s : List Char) : splitOn sep s ≠ [] := by
  cases s with
  | nil => simp [splitOn]
  | cons c cs =>
      rw [splitOn]
      split
      · exact List.cons_ne_nil _ _
      · split <;> exact List.cons_ne_nil _ _

/-- The piece that a character other than the separator is put in front of. -/
theorem splitOn_cons_of_ne {sep c : Char} (hc : c ≠ sep) {s piece : List Char}
    {rest : List (List Char)} (h : splitOn sep s = piece :: rest) :
    splitOn sep (c :: s) = (c :: piece) :: rest := by
  rw [splitOn, if_neg hc, h]

theorem eq_nil_or_cons_of_splitOn {sep : Char} {s : List Char} {rest : List (List Char)}
    (h : splitOn sep s = [] :: rest) : s = [] ∨ ∃ cs, s = sep :: cs := by
  cases s with
  | nil => exact Or.inl rfl
  | cons c cs =>
      by_cases hc : c = sep
      · exact Or.inr ⟨cs, hc ▸ rfl⟩
      · obtain ⟨q, qs, hq⟩ := List.exists_cons_of_ne_nil (splitOn_ne_nil sep cs)
        rw [splitOn_cons_of_ne hc hq] at h
        exact absurd (List.cons.inj h).1 (List.cons_ne_nil c q)

theorem splitOn_append_sep (sep : Char) (a b : List Char) :
    splitOn sep (a ++ sep :: b) = splitOn sep a ++ splitOn sep b := by
  induction a with
  | nil => simp [splitOn]
  | cons c cs ih =>
      by_cases hc : c = sep
      · simp [splitOn, hc, ih]
      · obtain ⟨piece, rest, hcs⟩ := List.exists_cons_of_ne_nil (splitOn_ne_nil sep cs)
        have hab : splitOn sep (cs ++ sep :: b) = piece :: (rest ++ splitOn sep b) := by
          rw [ih, hcs, List.cons_append]
        rw [List.cons_append, splitOn_cons_of_ne hc hab, splitOn_cons_of_ne hc hcs,
          List.cons_append]

theorem not_mem_of_mem_splitOn {sep : Char} {s : List Char} :
    ∀ piece ∈ splitOn sep s, sep ∉ piece := by
  induction s with
  | nil => simp [splitOn]
  | cons c cs ih =>
      by_cases hc : c = sep
      · simpa [splitOn, hc] using ih
      · obtain ⟨piece, rest, hcs⟩ := List.exists_cons_of_ne_nil (splitOn_ne_nil sep cs)
        rw [splitOn_cons_of_ne hc hcs]
        rw [hcs] at ih
        intro p hp
        rcases List.mem_cons.mp hp with rfl | hp
        · have hpiece : sep ∉ piece := ih piece List.mem_cons_self
          simpa [hpiece] using fun h => hc h.symm
        · exact ih p (List.mem_cons_of_mem _ hp)

theorem splitOn_of_not_mem {sep : Char} {s : List Char} (h : sep ∉ s) : splitOn sep s = [s] := by
  induction s with
  | nil => rfl
  | cons c cs ih =>
      have hc : c ≠ sep := fun hc => h (hc ▸ List.mem_cons_self)
      exact splitOn_cons_of_ne hc (ih fun hs => h (List.mem_cons_of_mem c hs))

theorem intercalate_cons_cons (sep : Char) (p q : List Char) (ps : List (List Char)) :
    List.intercalate [sep] (p :: q :: ps) = p ++ sep :: List.intercalate [sep] (q :: ps) := by
  simp [List.intercalate, List.intersperse]

/-- Joining the pieces of a text with the separator gives the text back. -/
theorem intercalate_splitOn (sep : Char) (s : List Char) :
    List.intercalate [sep] (splitOn sep s) = s := by
  induction s with
  | nil => simp [splitOn, List.intercalate]
  | cons c cs ih =>
      obtain ⟨piece, rest, hcs⟩ := List.exists_cons_of_ne_nil (splitOn_ne_nil sep cs)
      rw [hcs] at ih
      by_cases hc : c = sep
      · rw [splitOn, if_pos hc, hcs, intercalate_cons_cons, ih, hc, List.nil_append]
      · rw [splitOn_cons_of_ne hc hcs]
        cases rest with
        | nil => simpa [List.intercalate] using ih
        | cons q qs =>
            rw [intercalate_cons_cons] at ih ⊢
            rw [List.cons_append, ih]

theorem splitOn_intercalate {sep : Char} {pieces : List (List Char)} (hne : pieces ≠ [])
    (h : ∀ piece ∈ pieces, sep ∉ piece) :
    splitOn sep (List.intercalate [sep] pieces) = pieces := by
  induction pieces with
  | nil => exact absurd rfl hne
  | cons p ps ih =>
      have hp : sep ∉ p := h p List.mem_cons_self
      cases ps with
      | nil => simpa [List.intercalate] using splitOn_of_not_mem hp
      | cons q qs =>
          have hqs := ih (List.cons_ne_nil q qs) fun piece hm => h piece (List.mem_cons_of_mem p hm)
          rw [intercalate_cons_cons, splitOn_append_sep, splitOn_of_not_mem hp, hqs]
          rfl

end PluginVet.Text
