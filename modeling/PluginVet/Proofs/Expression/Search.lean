/-
# PluginVet.Proofs.Expression.Search — where in an expression a rule finds its shape

A rule looks for its shape at the beginning of the text, of the text without its first character, and so
on. What it finds so is at the first place that shows anything (`leftmost?_eq_some_iff_first`), and it
finds nothing only where no place does (`leftmost?_eq_none_iff`). Between the pieces of a shape there may
be characters of one class; they are dropped up to the first that is none of them
(`dropWhile_eq_cons_iff`), and a text up to a given character (`tail?_dropWhile_eq_some_iff`).

§A search from left to right, §B gaps.
-/
import Mathlib.Data.List.Infix
import Mathlib.Data.List.TakeWhile
import PluginVet.Expression.Rule
import PluginVet.Proofs.Text.Search

namespace PluginVet.Expression

/-! ## §A Search from left to right -/

section Search

variable {α : Type} {f : List Char → Option α} {s : List Char} {a : α}

theorem leftmost?_eq_none_iff : leftmost? f s = none ↔ ∀ rest, rest <:+ s → f rest = none := by
  induction s with
  | nil =>
      rw [leftmost?]
      cases hf : f [] <;> simp [hf]
  | cons c cs ih =>
      rw [leftmost?]
      cases hf : f (c :: cs) <;> simp [hf, ih, List.suffix_cons_iff]

/-- The first answer comes from a place in front of which no place answers. -/
theorem leftmost?_eq_some_iff :
    leftmost? f s = some a ↔ ∃ rest, rest <:+ s ∧ f rest = some a ∧
      ∀ rest', rest' <:+ s → rest.length < rest'.length → f rest' = none := by
  induction s with
  | nil =>
      rw [leftmost?]
      cases hf : f [] <;> simp [hf]
  | cons c cs ih =>
      rw [leftmost?]
      -- Either the whole text answers, and nothing stands in front of it, or a place in the tail does.
      cases hf : f (c :: cs) with
      | some b =>
          constructor
          · intro h
            refine ⟨c :: cs, List.suffix_rfl, hf.trans h, ?_⟩
            intro rest' hs hlt
            exact absurd hs.length_le (Nat.not_le_of_lt hlt)
          · rintro ⟨rest, hs, hrest, hfirst⟩
            rcases List.suffix_cons_iff.mp hs with rfl | hs
            · exact hf.symm.trans hrest
            · have hlt : rest.length < (c :: cs).length := Nat.lt_succ_of_le hs.length_le
              have hnone := hfirst (c :: cs) List.suffix_rfl hlt
              exact absurd (hf.symm.trans hnone) (Option.some_ne_none b)
      | none =>
          refine ih.trans (exists_congr fun rest => ?_)
          constructor
          · rintro ⟨hs, hrest, hfirst⟩
            refine ⟨hs.trans (List.suffix_cons c cs), hrest, ?_⟩
            intro rest' hs' hlt
            rcases List.suffix_cons_iff.mp hs' with rfl | hs'
            · exact hf
            · exact hfirst rest' hs' hlt
          · rintro ⟨hs, hrest, hfirst⟩
            rcases List.suffix_cons_iff.mp hs with rfl | hs
            · exact absurd (hrest.symm.trans hf) (Option.some_ne_none a)
            · exact ⟨hs, hrest, fun rest' hs' hlt =>
                hfirst rest' (hs'.trans (List.suffix_cons c cs)) hlt⟩

theorem occurs_iff {p : List Char → Bool} :
    occurs p s = true ↔ ∃ rest, rest <:+ s ∧ p rest = true := by
  rw [occurs, Option.isSome_iff_ne_none, Ne, leftmost?_eq_none_iff]
  simp

/-- **`First shows a s`** — of the places in the text that show anything, the first shows `a`. -/
def First (shows : α → List Char → Prop) (a : α) (s : List Char) : Prop :=
  ∃ rest, rest <:+ s ∧ shows a rest ∧
    ∀ a' rest', rest' <:+ s → shows a' rest' → rest'.length ≤ rest.length

section Exact

variable {shows : α → List Char → Prop} (hf : ∀ {a t}, f t = some a ↔ shows a t)
include hf

/-- **`leftmost?_eq_some_iff_first`** — a recogniser that is exact at one place finds the first place. -/
theorem leftmost?_eq_some_iff_first : leftmost? f s = some a ↔ First shows a s := by
  rw [leftmost?_eq_some_iff]
  refine exists_congr fun rest => and_congr_right fun _ => and_congr hf ?_
  constructor
  · intro h a' rest' hs hshows
    by_contra hlt
    have hnone := h rest' hs (Nat.lt_of_not_le hlt)
    rw [hf.mpr hshows] at hnone
    exact Option.some_ne_none a' hnone
  · intro h rest' hs hlt
    cases hr : f rest' with
    | none => rfl
    | some a' =>
        have hle := h a' rest' hs (hf.mp hr)
        exact absurd hle (Nat.not_le_of_lt hlt)

/-- Where some place shows something, there is a first one. -/
theorem exists_first_iff : (∃ a, First shows a s) ↔ ∃ a rest, rest <:+ s ∧ shows a rest := by
  constructor
  · rintro ⟨a, rest, hs, hshows, -⟩
    exact ⟨a, rest, hs, hshows⟩
  · rintro ⟨a, rest, hs, hshows⟩
    cases hl : leftmost? f s with
    | none =>
        have hnone := leftmost?_eq_none_iff.mp hl rest hs
        rw [hf.mpr hshows] at hnone
        exact absurd hnone (Option.some_ne_none a)
    | some a' => exact ⟨a', (leftmost?_eq_some_iff_first hf).mp hl⟩

end Exact

end Search

/-! ## §B Gaps -/

/-- Characters of a class are dropped up to the first one that is not in it. -/
theorem dropWhile_eq_cons_iff {p : Char → Bool} {s rest : List Char} {c : Char} (hc : p c = false) :
    s.dropWhile p = c :: rest ↔ ∃ gap, (∀ x ∈ gap, p x = true) ∧ s = gap ++ c :: rest := by
  constructor
  · intro h
    refine ⟨s.takeWhile p, fun x hx => List.mem_takeWhile_imp hx, ?_⟩
    rw [← h]
    exact List.takeWhile_append_dropWhile.symm
  · rintro ⟨gap, hgap, rfl⟩
    rw [List.dropWhile_append_of_pos hgap, List.dropWhile_cons_of_neg (by simp [hc])]

/-- A text is cut at the first occurrence of a character. -/
theorem tail?_dropWhile_eq_some_iff {q : Char} {s rest : List Char} :
    (s.dropWhile (· != q)).tail? = some rest ↔ ∃ body, q ∉ body ∧ s = body ++ q :: rest := by
  constructor
  · intro h
    obtain ⟨c, hc⟩ : ∃ c, s.dropWhile (· != q) = c :: rest := by
      cases hdrop : s.dropWhile (· != q) with
      | nil =>
          rw [hdrop] at h
          cases h
      | cons c tail =>
          rw [hdrop] at h
          exact ⟨c, congrArg _ (Option.some.inj h)⟩
    have hhead := List.head?_dropWhile_not (· != q) s
    rw [hc] at hhead
    obtain rfl : c = q := by simpa using hhead
    obtain ⟨body, hbody, rfl⟩ := (dropWhile_eq_cons_iff (by simp)).mp hc
    refine ⟨body, fun hmem => ?_, rfl⟩
    simpa using hbody _ hmem
  · rintro ⟨body, hbody, rfl⟩
    have hdrop : (body ++ q :: rest).dropWhile (· != q) = q :: rest := by
      refine (dropWhile_eq_cons_iff (by simp)).mpr ⟨body, fun x hx => ?_, rfl⟩
      rw [bne_iff_ne]
      rintro rfl
      exact hbody hx
    rw [hdrop]
    rfl

/-- White space only. -/
def Blanks (b : List Char) : Prop := ∀ x ∈ b, Text.isBlank x = true

/-- White space is dropped up to a token that does not begin with it. -/
theorem dropBlanks_eq_iff {s rest : List Char} {c : Char} (hc : Text.isBlank c = false) :
    dropBlanks s = c :: rest ↔ ∃ b, Blanks b ∧ s = b ++ c :: rest :=
  dropWhile_eq_cons_iff hc

theorem Blanks.not_mem {b : List Char} {c : Char} (hb : Blanks b) (hc : Text.isBlank c = false) :
    c ∉ b := by
  intro hmem
  exact Bool.false_ne_true (hc.symm.trans (hb c hmem))

theorem Blanks.reverse {b : List Char} (hb : Blanks b) : Blanks b.reverse :=
  fun x hx => hb x (List.mem_reverse.mp hx)

end PluginVet.Expression
