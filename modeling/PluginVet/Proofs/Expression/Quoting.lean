/-
# PluginVet.Proofs.Expression.Quoting — which quoted literals the quoting rule reports

A literal is a single quote, anything but single quotes, and a single quote. Its position is checked where
`==` stands on either side of it, where `?` stands behind it or `:` in front of it, with nothing but spaces
between. `QuotedShape` says that a text is a literal together with the sign that makes its position such
a one. The recogniser is exact (`quotedShape?_eq_some_iff`): at one place of a text at most one shape
begins, so that the order in which the shapes are tried decides nothing.

**Main statement** (`quoting_reported_iff`): the rule reports a text exactly if a shape occurs in it. The
report comes before those of the other rules, there is no second one, and its message ends in the
leftmost shape.

§A literals, §B shapes, §C the leftmost shape, §D reports.
-/
import PluginVet.Proofs.Expression.Search

namespace PluginVet.Expression

variable {s rest gap l f g sign : List Char}

/-! ## §A Literals -/

/-- Spaces only. -/
def Spaces (gap : List Char) : Prop := ∀ x ∈ gap, x = ' '

/-- **`IsLiteral l`** — a single-quoted literal, which holds no quote inside. -/
def IsLiteral (l : List Char) : Prop := ∃ body, '\'' ∉ body ∧ l = '\'' :: (body ++ ['\''])

theorem dropSpaces_eq_iff {c : Char} (hc : c ≠ ' ') :
    dropSpaces s = c :: rest ↔ ∃ gap, Spaces gap ∧ s = gap ++ c :: rest := by
  rw [dropSpaces, dropWhile_eq_cons_iff (decide_eq_false hc)]
  simp only [decide_eq_true_eq]
  rfl

theorem dropLiteral?_eq_some_iff : dropLiteral? s = some rest ↔ ∃ l, IsLiteral l ∧ s = l ++ rest := by
  constructor
  · intro h
    unfold dropLiteral? at h
    split at h
    · obtain ⟨body, hbody, rfl⟩ := tail?_dropWhile_eq_some_iff.mp h
      exact ⟨_, ⟨body, hbody, rfl⟩, by simp⟩
    · cases h
  · rintro ⟨l, ⟨body, hbody, rfl⟩, rfl⟩
    have htext : '\'' :: (body ++ ['\'']) ++ rest = '\'' :: (body ++ '\'' :: rest) := by simp
    rw [htext]
    exact tail?_dropWhile_eq_some_iff.mpr ⟨body, hbody, rfl⟩

theorem IsLiteral.exists_cons (h : IsLiteral l) : ∃ cs, l = '\'' :: cs := by
  obtain ⟨body, -, rfl⟩ := h
  exact ⟨_, rfl⟩

/-! ## §B Shapes -/

/-- **`QuotedShape f`** — a literal with the sign that makes its position a checked one, and with spaces
between the two. -/
inductive QuotedShape : List Char → Prop
  | comparedBehind {gap l : List Char} (spaces : Spaces gap) (literal : IsLiteral l) :
      QuotedShape (['=', '='] ++ gap ++ l)
  | comparedBefore {l gap : List Char} (literal : IsLiteral l) (spaces : Spaces gap) :
      QuotedShape (l ++ gap ++ ['=', '='])
  | questioned {l gap : List Char} (literal : IsLiteral l) (spaces : Spaces gap) :
      QuotedShape (l ++ gap ++ ['?'])
  | labelled {gap l : List Char} (spaces : Spaces gap) (literal : IsLiteral l) :
      QuotedShape ([':'] ++ gap ++ l)

/-- A literal behind a sign. -/
theorem behind_sign_iff :
    ((Text.dropHead? sign s).bind fun t => dropLiteral? (dropSpaces t)) = some rest ↔
      ∃ gap l, Spaces gap ∧ IsLiteral l ∧ s = sign ++ gap ++ l ++ rest := by
  simp only [Option.bind_eq_some_iff, Text.dropHead?_eq_some_iff, dropLiteral?_eq_some_iff]
  constructor
  · rintro ⟨t, rfl, l, hl, ht⟩
    obtain ⟨cs, rfl⟩ := hl.exists_cons
    obtain ⟨gap, hgap, rfl⟩ := (dropSpaces_eq_iff (by decide)).mp ht
    exact ⟨gap, _, hgap, hl, by simp⟩
  · rintro ⟨gap, l, hgap, hl, rfl⟩
    obtain ⟨cs, rfl⟩ := hl.exists_cons
    exact ⟨gap ++ '\'' :: cs ++ rest, by simp, _, hl,
      (dropSpaces_eq_iff (by decide)).mpr ⟨gap, hgap, by simp⟩⟩

/-- A literal in front of a sign. -/
theorem before_sign_iff {c : Char} (hc : c ≠ ' ') :
    ((dropLiteral? s).bind fun t => Text.dropHead? (c :: sign) (dropSpaces t)) = some rest ↔
      ∃ l gap, IsLiteral l ∧ Spaces gap ∧ s = l ++ gap ++ c :: sign ++ rest := by
  simp only [Option.bind_eq_some_iff, Text.dropHead?_eq_some_iff, dropLiteral?_eq_some_iff,
    List.cons_append, dropSpaces_eq_iff hc]
  constructor
  · rintro ⟨t, ⟨l, hl, rfl⟩, gap, hgap, rfl⟩
    exact ⟨l, gap, hl, hgap, by simp⟩
  · rintro ⟨l, gap, hl, hgap, rfl⟩
    exact ⟨_, ⟨l, hl, by simp⟩, gap, hgap, rfl⟩

theorem comparedBehind?_eq (s : List Char) : comparedBehind? s
    = (Text.dropHead? ['=', '='] s).bind fun t => dropLiteral? (dropSpaces t) := by
  unfold comparedBehind?
  split
  · rfl
  · rename_i hno
    rw [Text.dropHead?_eq_none_iff.mpr]
    · rfl
    · rintro ⟨t, rfl⟩
      exact hno t rfl

theorem labelled?_eq (s : List Char) : labelled? s
    = (Text.dropHead? [':'] s).bind fun t => dropLiteral? (dropSpaces t) := by
  unfold labelled?
  split
  · rfl
  · rename_i hno
    rw [Text.dropHead?_eq_none_iff.mpr]
    · rfl
    · rintro ⟨t, rfl⟩
      exact hno t rfl

theorem comparedBefore?_eq (s : List Char) : comparedBefore? s
    = (dropLiteral? s).bind fun t => Text.dropHead? ['=', '='] (dropSpaces t) := by
  unfold comparedBefore?
  congr 1
  funext t
  split
  · rename_i h
    rw [h]
    rfl
  · rename_i hno
    rw [Text.dropHead?_eq_none_iff.mpr]
    rintro ⟨t', h⟩
    exact hno t' h.symm

theorem questioned?_eq (s : List Char) : questioned? s
    = (dropLiteral? s).bind fun t => Text.dropHead? ['?'] (dropSpaces t) := by
  unfold questioned?
  congr 1
  funext t
  split
  · rename_i h
    rw [h]
    rfl
  · rename_i hno
    rw [Text.dropHead?_eq_none_iff.mpr]
    rintro ⟨t', h⟩
    exact hno t' h.symm

/-- The rest behind the shape with which the text begins. -/
def behindShape? (s : List Char) : Option (List Char) :=
  (comparedBehind? s <|> comparedBefore? s) <|> (questioned? s <|> labelled? s)

theorem exists_shape_of_behindShape? (h : behindShape? s = some rest) :
    ∃ f, QuotedShape f ∧ s = f ++ rest := by
  simp only [behindShape?, Option.orElse_eq_orElse, Option.orElse_eq_or, Option.or_eq_some_iff] at h
  rcases h with (h | ⟨-, h⟩) | ⟨-, h | ⟨-, h⟩⟩
  · rw [comparedBehind?_eq] at h
    obtain ⟨gap, l, hgap, hl, rfl⟩ := behind_sign_iff.mp h
    exact ⟨_, .comparedBehind hgap hl, rfl⟩
  · rw [comparedBefore?_eq] at h
    obtain ⟨l, gap, hl, hgap, rfl⟩ := (before_sign_iff (by decide)).mp h
    exact ⟨_, .comparedBefore hl hgap, rfl⟩
  · rw [questioned?_eq] at h
    obtain ⟨l, gap, hl, hgap, rfl⟩ := (before_sign_iff (by decide)).mp h
    exact ⟨_, .questioned hl hgap, rfl⟩
  · rw [labelled?_eq] at h
    obtain ⟨gap, l, hgap, hl, rfl⟩ := behind_sign_iff.mp h
    exact ⟨_, .labelled hgap hl, rfl⟩

theorem comparedBehind?_of_literal (hl : IsLiteral l) (t : List Char) :
    comparedBehind? (l ++ t) = none := by
  obtain ⟨cs, rfl⟩ := hl.exists_cons
  rfl

/-- Whatever begins with a shape is read as that shape: no other one can begin there. -/
theorem behindShape?_append (hf : QuotedShape f) (rest : List Char) :
    behindShape? (f ++ rest) = some rest := by
  cases hf with
  | @comparedBehind gap l hgap hl =>
      have hread : comparedBehind? (['=', '='] ++ gap ++ l ++ rest) = some rest := by
        rw [comparedBehind?_eq]
        exact behind_sign_iff.mpr ⟨gap, l, hgap, hl, rfl⟩
      rw [behindShape?, hread]
      rfl
  | @comparedBefore l gap hl hgap =>
      have hread : comparedBefore? (l ++ gap ++ ['=', '='] ++ rest) = some rest := by
        rw [comparedBefore?_eq]
        exact (before_sign_iff (by decide)).mpr ⟨l, gap, hl, hgap, rfl⟩
      have hbehind : comparedBehind? (l ++ gap ++ ['=', '='] ++ rest) = none := by
        rw [List.append_assoc, List.append_assoc]
        exact comparedBehind?_of_literal hl _
      rw [behindShape?, hbehind, hread]
      rfl
  | @questioned l gap hl hgap =>
      have hread : questioned? (l ++ gap ++ ['?'] ++ rest) = some rest := by
        rw [questioned?_eq]
        exact (before_sign_iff (by decide)).mpr ⟨l, gap, hl, hgap, rfl⟩
      have hbehind : comparedBehind? (l ++ gap ++ ['?'] ++ rest) = none := by
        rw [List.append_assoc, List.append_assoc]
        exact comparedBehind?_of_literal hl _
      -- Behind the literal and the spaces there is a question mark and so no `==`.
      have hbefore : comparedBefore? (l ++ gap ++ ['?'] ++ rest) = none := by
        have hliteral : dropLiteral? (l ++ gap ++ ['?'] ++ rest) = some (gap ++ '?' :: rest) :=
          dropLiteral?_eq_some_iff.mpr ⟨l, hl, by simp⟩
        have hsign : dropSpaces (gap ++ '?' :: rest) = '?' :: rest :=
          (dropSpaces_eq_iff (by decide)).mpr ⟨gap, hgap, rfl⟩
        rw [comparedBefore?_eq, hliteral, Option.bind_some, hsign]
        rfl
      rw [behindShape?, hbehind, hbefore, hread]
      rfl
  | @labelled gap l hgap hl =>
      have hread : labelled? ([':'] ++ gap ++ l ++ rest) = some rest := by
        rw [labelled?_eq]
        exact behind_sign_iff.mpr ⟨gap, l, hgap, hl, rfl⟩
      rw [behindShape?, hread]
      rfl

/-- **`quotedShape?_eq_some_iff`** — the recogniser answers with the shape that the text begins with. -/
theorem quotedShape?_eq_some_iff : quotedShape? s = some f ↔ QuotedShape f ∧ f <+: s := by
  have hshape : quotedShape? s
      = (behindShape? s).map fun rest => s.take (s.length - rest.length) := rfl
  have htake : ∀ f rest : List Char, (f ++ rest).take ((f ++ rest).length - rest.length) = f := by
    intro f rest
    rw [List.length_append, Nat.add_sub_cancel, List.take_left]
  rw [hshape, Option.map_eq_some_iff]
  constructor
  · rintro ⟨rest, hrest, rfl⟩
    obtain ⟨f, hf, rfl⟩ := exists_shape_of_behindShape? hrest
    rw [htake]
    exact ⟨hf, List.prefix_append f rest⟩
  · rintro ⟨hf, rest, rfl⟩
    exact ⟨rest, behindShape?_append hf rest, htake f rest⟩

/-! ## §C The leftmost shape -/

/-- **`LeftmostShape f s`** — `f` is a shape in the text, and none begins further to the left. -/
def LeftmostShape (f s : List Char) : Prop :=
  ∃ pre post, s = pre ++ f ++ post ∧ QuotedShape f ∧
    ∀ pre' f' post', s = pre' ++ f' ++ post' → QuotedShape f' → pre.length ≤ pre'.length

/-- **`quotedFragment?_eq_some_iff`** — the fragment is the leftmost shape. -/
theorem quotedFragment?_eq_some_iff : quotedFragment? s = some f ↔ LeftmostShape f s := by
  rw [quotedFragment?, leftmost?_eq_some_iff_first quotedShape?_eq_some_iff]
  constructor
  · -- Of two rests of one text, the longer one begins further to the left.
    rintro ⟨rest, ⟨pre, rfl⟩, ⟨hf, post, rfl⟩, hfirst⟩
    refine ⟨pre, post, (List.append_assoc pre f post).symm, hf, fun pre' f' post' hs hf' => ?_⟩
    have hle := hfirst f' (f' ++ post') ⟨pre', by rw [hs, List.append_assoc]⟩
      ⟨hf', List.prefix_append f' post'⟩
    have hlength := congrArg List.length hs
    simp only [List.length_append] at hle hlength
    omega
  · rintro ⟨pre, post, rfl, hf, hfirst⟩
    refine ⟨f ++ post, ⟨pre, (List.append_assoc pre f post).symm⟩,
      ⟨hf, List.prefix_append f post⟩, ?_⟩
    rintro f' rest' ⟨pre', hs⟩ ⟨hf', post', rfl⟩
    rw [← List.append_assoc] at hs
    have hle := hfirst pre' f' post' hs.symm hf'
    have hlength := congrArg List.length hs
    simp only [List.length_append] at hlength ⊢
    omega

theorem exists_leftmostShape_iff : (∃ f, LeftmostShape f s) ↔ ∃ f, QuotedShape f ∧ f <:+: s := by
  simp only [← quotedFragment?_eq_some_iff, quotedFragment?,
    leftmost?_eq_some_iff_first quotedShape?_eq_some_iff, exists_first_iff quotedShape?_eq_some_iff]
  constructor
  · rintro ⟨f, rest, hs, hf, hpre⟩
    exact ⟨f, hf, hpre.isInfix.trans hs.isInfix⟩
  · rintro ⟨f, hf, pre, post, rfl⟩
    exact ⟨f, f ++ post, ⟨pre, (List.append_assoc pre f post).symm⟩, hf, List.prefix_append f post⟩

/-! ## §D Reports -/

/-- The report on a fragment. -/
def quotingReport (pointer : Pointer) (source : String) (fragment : List Char) : LintFinding :=
  ⟨.quoting (String.ofList fragment), pointer, source⟩

/-- The quoting rule comes first, and the other rules do not report for it. -/
theorem lint_eq_quoting_append (pointer : Pointer) (source : String) :
    ∃ others, (∀ r ∈ others, r.violation.rule ≠ .quoting) ∧ lint pointer source
      = ((quotedFragment? source.toList).map (quotingReport pointer source)).toList ++ others := by
  refine ⟨((if hasTernary source.toList then [Violation.ternary] else [])
    ++ ((unguarded? source.toList).map Violation.unguarded).toList).map fun v => ⟨v, pointer, source⟩,
    ?_, ?_⟩
  · intro r hr
    obtain ⟨v, hv, rfl⟩ := List.mem_map.mp hr
    rcases List.mem_append.mp hv with hv | hv
    · split at hv
      · obtain rfl := List.mem_singleton.mp hv
        exact fun h => nomatch h
      · cases hv
    · obtain ⟨c, -, rfl⟩ := Option.map_eq_some_iff.mp (Option.mem_toList.mp hv)
      exact fun h => nomatch h
  · rw [lint, violations, List.append_assoc, List.map_append]
    cases quotedFragment? source.toList <;> rfl

theorem mem_lint_quoting_iff {pointer : Pointer} {source : String} {r : LintFinding} :
    (r ∈ lint pointer source ∧ r.violation.rule = .quoting) ↔
      ∃ f, LeftmostShape f source.toList ∧ r = quotingReport pointer source f := by
  obtain ⟨others, hothers, hlint⟩ := lint_eq_quoting_append pointer source
  simp only [hlint, List.mem_append, Option.mem_toList, Option.map_eq_some_iff,
    quotedFragment?_eq_some_iff]
  constructor
  · rintro ⟨⟨f, hf, rfl⟩ | hr, hrule⟩
    · exact ⟨f, hf, rfl⟩
    · exact absurd hrule (hothers r hr)
  · rintro ⟨f, hf, rfl⟩
    exact ⟨Or.inl ⟨f, hf, rfl⟩, rfl⟩

/-- **`quoting_reported_iff`** — the quoting rule reports a text exactly if a literal in a checked position
occurs in it. The message of the report ends in a fragment exactly if that is the leftmost such shape. No
other report comes before the one of this rule, and none of the others is of this rule. -/
theorem quoting_reported_iff (pointer : Pointer) (source : String) :
    ((∃ r ∈ lint pointer source, r.violation.rule = .quoting) ↔
      ∃ shape, QuotedShape shape ∧ shape <:+: source.toList) ∧
    (∀ fragment : String, (∃ r ∈ lint pointer source, r.violation.rule = .quoting ∧
        r.violation.message
          = "Single-quoted string literal (only double quotes are supported): " ++ fragment) ↔
      LeftmostShape fragment.toList source.toList) ∧
    ∃ others, (∀ r ∈ others, r.violation.rule ≠ .quoting) ∧
      (lint pointer source = others ∨
        ∃ r, r.violation.rule = .quoting ∧ lint pointer source = r :: others) := by
  refine ⟨?_, fun fragment => ?_, ?_⟩
  · rw [← exists_leftmostShape_iff]
    constructor
    · rintro ⟨r, hr, hrule⟩
      obtain ⟨f, hf, -⟩ := mem_lint_quoting_iff.mp ⟨hr, hrule⟩
      exact ⟨f, hf⟩
    · rintro ⟨f, hf⟩
      exact ⟨_, mem_lint_quoting_iff.mpr ⟨f, hf, rfl⟩⟩
  · constructor
    · rintro ⟨r, hr, hrule, hmessage⟩
      obtain ⟨f, hf, rfl⟩ := mem_lint_quoting_iff.mp ⟨hr, hrule⟩
      obtain rfl : String.ofList f = fragment := (String.append_right_inj _).mp hmessage
      rwa [String.toList_ofList]
    · intro hf
      obtain ⟨hr, hrule⟩ := mem_lint_quoting_iff.mpr ⟨_, hf, rfl⟩
      refine ⟨_, hr, hrule, ?_⟩
      rw [quotingReport, String.ofList_toList]
      rfl
  · obtain ⟨others, hothers, hlint⟩ := lint_eq_quoting_append pointer source
    refine ⟨others, hothers, ?_⟩
    rw [hlint]
    cases quotedFragment? source.toList with
    | none => exact Or.inl rfl
    | some f => exact Or.inr ⟨quotingReport pointer source f, rfl, rfl⟩

/-- Two comparisons share the literal between them, and the shape that begins first is reported. -/
example : quotedFragment? ".x == 'a' == 'b'".toList = some "== 'a'".toList := by decide

end PluginVet.Expression
