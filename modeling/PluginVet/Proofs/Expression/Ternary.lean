/-
# PluginVet.Proofs.Expression.Ternary — which conditional forms the ternary rule reports

A ternary shows itself by a question mark with a quote behind it, white space aside (`ShowsTernary`). The
alternative operator `?//` is none: behind its question mark stands a slash (`not_beginsTernary`). All the
same the rule looks for the operator in the whole text, and where it finds one it reports nothing
(`ternary_reported_iff`). So one operator in an expression hides a ternary elsewhere in it
(`alternative_hides_ternary`).

§A the two forms, §B reports.
-/
import PluginVet.Proofs.Expression.Search

namespace PluginVet.Expression

variable {s : List Char}

/-! ## §A The two forms -/

/-- **`ShowsTernary s`** — somewhere in the text a quote of either kind stands behind a question mark, with
nothing but white space between. -/
def ShowsTernary (s : List Char) : Prop :=
  ∃ pre blanks quote post, Blanks blanks ∧ (quote = '"' ∨ quote = '\'') ∧
    s = pre ++ '?' :: (blanks ++ quote :: post)

/-- The alternative operator `?//`. -/
def alternative : List Char := ['?', '/', '/']

theorem beginsTernary_iff : beginsTernary s = true ↔
    ∃ blanks quote post, Blanks blanks ∧ (quote = '"' ∨ quote = '\'') ∧
      s = '?' :: (blanks ++ quote :: post) := by
  constructor
  · intro h
    unfold beginsTernary at h
    split at h
    · split at h
      · rename_i hdrop
        obtain ⟨blanks, hblanks, rfl⟩ := (dropBlanks_eq_iff (by decide)).mp hdrop
        exact ⟨blanks, _, _, hblanks, Or.inl rfl, rfl⟩
      · rename_i hdrop
        obtain ⟨blanks, hblanks, rfl⟩ := (dropBlanks_eq_iff (by decide)).mp hdrop
        exact ⟨blanks, _, _, hblanks, Or.inr rfl, rfl⟩
      · cases h
    · cases h
  · rintro ⟨blanks, quote, post, hblanks, rfl | rfl, rfl⟩
    · have hdrop : (blanks ++ '"' :: post).dropWhile Text.isBlank = '"' :: post :=
        (dropBlanks_eq_iff (by decide)).mpr ⟨blanks, hblanks, rfl⟩
      rw [beginsTernary, hdrop]
      rfl
    · have hdrop : (blanks ++ '\'' :: post).dropWhile Text.isBlank = '\'' :: post :=
        (dropBlanks_eq_iff (by decide)).mpr ⟨blanks, hblanks, rfl⟩
      rw [beginsTernary, hdrop]
      rfl

/-- At the place of an alternative operator there begins no ternary. -/
theorem not_beginsTernary (h : beginsAlternative s = true) : beginsTernary s = false := by
  obtain ⟨rest, rfl⟩ := Text.isSome_dropHead?_iff.mp h
  rfl

theorem occurs_beginsTernary_iff : occurs beginsTernary s = true ↔ ShowsTernary s := by
  rw [occurs_iff]
  constructor
  · rintro ⟨rest, ⟨pre, rfl⟩, hrest⟩
    obtain ⟨blanks, quote, post, hblanks, hquote, rfl⟩ := beginsTernary_iff.mp hrest
    exact ⟨pre, blanks, quote, post, hblanks, hquote, rfl⟩
  · rintro ⟨pre, blanks, quote, post, hblanks, hquote, rfl⟩
    exact ⟨_, List.suffix_append pre _,
      beginsTernary_iff.mpr ⟨blanks, quote, post, hblanks, hquote, rfl⟩⟩

theorem occurs_beginsAlternative_iff :
    occurs beginsAlternative s = true ↔ alternative <:+: s := by
  rw [occurs_iff]
  constructor
  · rintro ⟨rest, hs, hrest⟩
    have hhead : alternative <+: rest := Text.isSome_dropHead?_iff.mp hrest
    exact hhead.isInfix.trans hs.isInfix
  · rintro ⟨pre, post, rfl⟩
    refine ⟨alternative ++ post, ⟨pre, (List.append_assoc _ _ _).symm⟩, ?_⟩
    exact Text.isSome_dropHead?_iff.mpr (List.prefix_append _ _)

theorem hasTernary_iff : hasTernary s = true ↔ ShowsTernary s ∧ ¬ alternative <:+: s := by
  rw [hasTernary, Bool.and_eq_true, Bool.not_eq_true', ← Bool.not_eq_true,
    occurs_beginsTernary_iff, occurs_beginsAlternative_iff]

/-! ## §B Reports -/

theorem mem_lint_ternary_iff {pointer : Pointer} {source : String} {r : LintFinding} :
    (r ∈ lint pointer source ∧ r.violation.rule = .ternary) ↔
      hasTernary source.toList = true ∧ r = ⟨.ternary, pointer, source⟩ := by
  constructor
  · rintro ⟨hr, hrule⟩
    obtain ⟨v, hv, rfl⟩ := List.mem_map.mp hr
    cases v with
    | quoting fragment => cases hrule
    | unguarded c => cases hrule
    | ternary =>
        refine ⟨?_, rfl⟩
        simpa [violations] using hv
  · rintro ⟨hternary, rfl⟩
    refine ⟨List.mem_map_of_mem ?_, rfl⟩
    simp [violations, hternary]

/-- **`ternary_reported_iff`** — the ternary rule reports a text exactly if it shows a ternary and no
alternative operator occurs in it, at whatever place. -/
theorem ternary_reported_iff (pointer : Pointer) (source : String) :
    (∃ r ∈ lint pointer source, r.violation.rule = .ternary) ↔
      ShowsTernary source.toList ∧ ¬ alternative <:+: source.toList := by
  rw [← hasTernary_iff]
  constructor
  · rintro ⟨r, hr, hrule⟩
    exact (mem_lint_ternary_iff.mp ⟨hr, hrule⟩).1
  · intro hternary
    exact ⟨_, mem_lint_ternary_iff.mpr ⟨hternary, rfl⟩⟩

/-- An alternative operator, and behind the bar a ternary. -/
def mixedSource : String := ".t?//\"x\" | .done ? \"yes\" : \"no\""

/-- The operator in front of the bar has nothing to do with the ternary behind it and hides it. -/
theorem alternative_hides_ternary :
    ¬ ((∃ r ∈ lint "" mixedSource, r.violation.rule = .ternary) ↔
        ShowsTernary mixedSource.toList) := by
  intro h
  have hblank : Blanks [' '] := by
    intro x hx
    obtain rfl := List.mem_singleton.mp hx
    decide
  have hshows : ShowsTernary mixedSource.toList :=
    ⟨".t?//\"x\" | .done ".toList, [' '], '"', "yes\" : \"no\"".toList, hblank, Or.inl rfl,
      by decide⟩
  obtain ⟨r, hr, hrule⟩ := h.mpr hshows
  have hsome : hasTernary mixedSource.toList = true := (mem_lint_ternary_iff.mp ⟨hr, hrule⟩).1
  have hnone : hasTernary mixedSource.toList = false := by decide
  exact Bool.false_ne_true (hnone.symm.trans hsome)

end PluginVet.Expression
