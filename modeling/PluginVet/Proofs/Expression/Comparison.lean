/-
# PluginVet.Proofs.Expression.Comparison — which comparisons the quoting rule knows

A literal is compared where one of six signs stands beside it, spaces aside. The rule knows one of the
six: a literal beside `==` is reported wherever it stands, one beside `!=`, `<`, `<=`, `>` or `>=` is not
reported for that (`inequality_hides_literal`).

A text is reported exactly if it holds a literal behind `==` or `:`, or in front of `==` or `?`
(`reported_iff`). The sign of an inequality is part of no such place: its first character is none of these
signs and no space, and a `=` behind that makes no `==` unless the text goes on with another `=`. All it
can be is a piece inside a literal, where any other text without a quote would do (`Quotes.replace`). So the
verdict on a text is the same under all five inequalities, and none of them is reported where `==` in its
place is not.

**Main statement**: `comparison_quoting`.

§A pieces of a text, §B reported texts, §C signs of comparisons, §D replaced signs, §E lone literals,
§F verdicts.
-/
import PluginVet.Proofs.Expression.Quoting

namespace PluginVet.Expression

variable {s front rest gap l : List Char}

/-! ## §A Pieces of a text -/

section Pieces

variable {q c : Char} {piece inner outer h : List Char}

/-- A piece without the character `q` stands in front of a given `q` or behind it. -/
theorem piece_beside (hq : q ∉ piece) (heq : front ++ (piece ++ rest) = inner ++ q :: outer) :
    (∃ x, inner = front ++ (piece ++ x) ∧ rest = x ++ q :: outer) ∨
      ∃ x, front = inner ++ q :: x ∧ outer = x ++ (piece ++ rest) := by
  rcases List.append_eq_append_iff.mp heq with ⟨x, rfl, hbehind⟩ | ⟨x, rfl, hfront⟩
  · rcases List.append_eq_append_iff.mp hbehind with ⟨y, rfl, rfl⟩ | ⟨y, rfl, hcut⟩
    · exact Or.inl ⟨y, rfl, rfl⟩
    · -- Whatever is left of the piece begins with `q`, so nothing is left.
      cases y with
      | nil => exact Or.inl ⟨[], by simp, hcut.symm⟩
      | cons d y =>
          obtain rfl : q = d := (List.cons.inj hcut).1
          exact absurd (List.mem_append_right x List.mem_cons_self) hq
  · cases x with
    | nil =>
        cases piece with
        | nil => exact Or.inl ⟨[], by simp, hfront.symm⟩
        | cons d piece =>
            obtain rfl : q = d := (List.cons.inj hfront).1
            exact absurd List.mem_cons_self hq
    | cons d x =>
        obtain ⟨rfl, rfl⟩ := List.cons.inj hfront
        exact Or.inr ⟨x, rfl, rfl⟩

/-- A text has one first `q`. -/
theorem cut_at_first {x y : List Char} (hfront : q ∉ front) (hinner : q ∉ inner)
    (h : front ++ q :: x = inner ++ q :: y) : front = inner ∧ x = y := by
  have hx : ((front ++ q :: x).dropWhile (· != q)).tail? = some x :=
    tail?_dropWhile_eq_some_iff.mpr ⟨front, hfront, rfl⟩
  have hy : ((inner ++ q :: y).dropWhile (· != q)).tail? = some y :=
    tail?_dropWhile_eq_some_iff.mpr ⟨inner, hinner, rfl⟩
  rw [h, hy] at hx
  obtain rfl : y = x := Option.some.inj hx
  exact ⟨List.append_cancel_right h, rfl⟩

/-- The end of a text reaches back to a character that it does not hold at most. -/
theorem suffix_of_not_mem (hc : c ∉ h) (hs : h <:+ front ++ c :: rest) : h <:+ rest := by
  rcases List.suffix_or_suffix_of_suffix hs (List.suffix_append front (c :: rest)) with hs | hs
  · rcases List.suffix_cons_iff.mp hs with rfl | hs
    · exact absurd List.mem_cons_self hc
    · exact hs
  · exact absurd (hs.subset List.mem_cons_self) hc

theorem prefix_of_not_mem (hc : c ∉ h) (hp : h <+: front ++ c :: rest) : h <+: front := by
  rcases List.prefix_or_prefix_of_prefix hp (List.prefix_append front (c :: rest)) with hp | hp
  · exact hp
  · obtain ⟨y, rfl⟩ := hp
    rw [List.prefix_append_right_inj] at hp
    cases y with
    | nil => simp
    | cons d y =>
        obtain rfl : d = c := (List.cons_prefix_cons.mp hp).1
        exact absurd (List.mem_append_right front List.mem_cons_self) hc

end Pieces

/-! ## §B Reported texts -/

/-- A sign behind which a literal is reported ends the text, spaces aside. -/
def EndsInSign (front : List Char) : Prop :=
  ∃ sign gap, (sign = ['=', '='] ∨ sign = [':']) ∧ Spaces gap ∧ sign ++ gap <:+ front

/-- A sign in front of which a literal is reported begins the text, spaces aside. -/
def BeginsWithSign (rest : List Char) : Prop :=
  ∃ gap sign, Spaces gap ∧ (sign = ['=', '='] ∨ sign = ['?']) ∧ gap ++ sign <+: rest

/-- **`Quotes s`** — the text holds a literal that stands beside such a sign. -/
def Quotes (s : List Char) : Prop :=
  ∃ front l rest, IsLiteral l ∧ s = front ++ l ++ rest ∧ (EndsInSign front ∨ BeginsWithSign rest)

theorem quotes_iff : Quotes s ↔ ∃ f, QuotedShape f ∧ f <:+: s := by
  constructor
  · rintro ⟨front, l, rest, hl, rfl, h | h⟩
    · obtain ⟨sign, gap, hsign, hgap, pre, rfl⟩ := h
      refine ⟨sign ++ gap ++ l, ?_, pre, rest, by simp⟩
      rcases hsign with rfl | rfl
      · exact .comparedBehind hgap hl
      · exact .labelled hgap hl
    · obtain ⟨gap, sign, hgap, hsign, post, rfl⟩ := h
      refine ⟨l ++ gap ++ sign, ?_, front, post, by simp⟩
      rcases hsign with rfl | rfl
      · exact .comparedBefore hl hgap
      · exact .questioned hl hgap
  · rintro ⟨f, hf, pre, post, rfl⟩
    cases hf with
    | @comparedBehind gap l hgap hl =>
        refine ⟨pre ++ (['=', '='] ++ gap), l, post, hl, by simp, Or.inl ?_⟩
        exact ⟨_, gap, Or.inl rfl, hgap, List.suffix_append _ _⟩
    | @comparedBefore l gap hl hgap =>
        refine ⟨pre, l, gap ++ ['=', '='] ++ post, hl, by simp, Or.inr ?_⟩
        exact ⟨gap, _, hgap, Or.inl rfl, List.prefix_append _ _⟩
    | @questioned l gap hl hgap =>
        refine ⟨pre, l, gap ++ ['?'] ++ post, hl, by simp, Or.inr ?_⟩
        exact ⟨gap, _, hgap, Or.inr rfl, List.prefix_append _ _⟩
    | @labelled gap l hgap hl =>
        refine ⟨pre ++ ([':'] ++ gap), l, post, hl, by simp, Or.inl ?_⟩
        exact ⟨_, gap, Or.inr rfl, hgap, List.suffix_append _ _⟩

/-- **`Reported pointer source`** — the quoting rule reports the text. -/
def Reported (pointer : Pointer) (source : String) : Prop :=
  ∃ r ∈ lint pointer source, r.violation.rule = .quoting

/-- **`reported_iff`** — reported is what holds a literal beside one of the signs that the rule knows. -/
theorem reported_iff {pointer : Pointer} {source : String} :
    Reported pointer source ↔ Quotes source.toList := by
  rw [quotes_iff, ← exists_leftmostShape_iff]
  constructor
  · rintro ⟨r, hr, hrule⟩
    obtain ⟨f, hf, -⟩ := mem_lint_quoting_iff.mp ⟨hr, hrule⟩
    exact ⟨f, hf⟩
  · rintro ⟨f, hf⟩
    obtain ⟨hr, hrule⟩ := mem_lint_quoting_iff.mpr ⟨f, hf, rfl⟩
    exact ⟨_, hr, hrule⟩

/-! ## §C Signs of comparisons -/

inductive Comparison where
  | equal | unequal | less | lessOrEqual | greater | greaterOrEqual
  deriving DecidableEq

namespace Comparison

def sign : Comparison → String
  | .equal => "=="
  | .unequal => "!="
  | .less => "<"
  | .lessOrEqual => "<="
  | .greater => ">"
  | .greaterOrEqual => ">="

/-- The sign of an inequality is a character of its own with nothing or a `=` behind it. -/
theorem sign_of_ne_equal {op : Comparison} (hop : op ≠ .equal) : ∃ c tail,
    op.sign.toList = c :: tail ∧ (c = '!' ∨ c = '<' ∨ c = '>') ∧ (tail = [] ∨ tail = ['=']) := by
  cases op with
  | equal => exact absurd rfl hop
  | unequal => exact ⟨'!', ['='], rfl, by simp, by simp⟩
  | less => exact ⟨'<', [], rfl, by simp, by simp⟩
  | lessOrEqual => exact ⟨'<', ['='], rfl, by simp, by simp⟩
  | greater => exact ⟨'>', [], rfl, by simp, by simp⟩
  | greaterOrEqual => exact ⟨'>', ['='], rfl, by simp, by simp⟩

theorem quote_not_mem_sign (op : Comparison) : '\'' ∉ op.sign.toList := by
  cases op <;> decide

end Comparison

/-- **`ComparedBy op f`** — the text is a literal with the sign of the comparison on one of its sides, and
with spaces between the two. -/
inductive ComparedBy (op : Comparison) : List Char → Prop
  | behind {gap l : List Char} (spaces : Spaces gap) (literal : IsLiteral l) :
      ComparedBy op (op.sign.toList ++ gap ++ l)
  | before {l gap : List Char} (literal : IsLiteral l) (spaces : Spaces gap) :
      ComparedBy op (l ++ gap ++ op.sign.toList)

theorem QuotedShape.of_comparedBy_equal {f : List Char} (h : ComparedBy .equal f) :
    QuotedShape f := by
  cases h with
  | behind spaces literal => exact .comparedBehind spaces literal
  | before literal spaces => exact .comparedBefore literal spaces

/-! ## §D Replaced signs -/

section Replaced

variable {c : Char} {tail sign : List Char} (hc : c = '!' ∨ c = '<' ∨ c = '>')
include hc

theorem not_mem_space (hgap : Spaces gap) : c ∉ gap := by
  intro hmem
  have hspace := hgap c hmem
  subst hspace
  simp at hc

theorem not_mem_sign_append (hsign : sign = ['=', '='] ∨ sign = [':']) (hgap : Spaces gap) :
    c ∉ sign ++ gap := by
  rw [List.mem_append, not_or]
  refine ⟨?_, not_mem_space hc hgap⟩
  rcases hsign with rfl | rfl <;> rcases hc with rfl | rfl | rfl <;> decide

theorem not_mem_append_sign (hsign : sign = ['=', '='] ∨ sign = ['?']) (hgap : Spaces gap) :
    c ∉ gap ++ sign := by
  rw [List.mem_append, not_or]
  refine ⟨not_mem_space hc hgap, ?_⟩
  rcases hsign with rfl | rfl <;> rcases hc with rfl | rfl | rfl <;> decide

/-- A sign that ends a text behind an inequality stands wholly behind it, unless a `=` follows the
inequality directly. -/
theorem EndsInSign.behind (htail : tail = [] ∨ tail = ['=']) (hrest : ¬ ['='] <+: rest)
    (h : EndsInSign (front ++ (c :: tail ++ rest))) : EndsInSign rest := by
  obtain ⟨sign, gap, hsign, hgap, hs⟩ := h
  have hbehind := suffix_of_not_mem (not_mem_sign_append hc hsign hgap) hs
  refine ⟨sign, gap, hsign, hgap, ?_⟩
  rcases htail with rfl | rfl
  · exact hbehind
  · rcases List.suffix_cons_iff.mp hbehind with heq | hbehind
    · -- The sign would be `==`, and its second half would begin the rest.
      rcases hsign with rfl | rfl
      · obtain rfl : '=' :: gap = rest := (List.cons.inj heq).2
        exact absurd ⟨gap, rfl⟩ hrest
      · exact absurd (List.cons.inj heq).1 (by decide)
    · exact hbehind

theorem BeginsWithSign.before (h : BeginsWithSign (front ++ (c :: tail ++ rest))) :
    BeginsWithSign front := by
  obtain ⟨gap, sign, hgap, hsign, hp⟩ := h
  exact ⟨gap, sign, hgap, hsign, prefix_of_not_mem (not_mem_append_sign hc hsign hgap) hp⟩

end Replaced

theorem EndsInSign.append (h : EndsInSign rest) (front : List Char) : EndsInSign (front ++ rest) := by
  obtain ⟨sign, gap, hsign, hgap, hs⟩ := h
  exact ⟨sign, gap, hsign, hgap, hs.trans (List.suffix_append front rest)⟩

theorem BeginsWithSign.append (h : BeginsWithSign front) (rest : List Char) :
    BeginsWithSign (front ++ rest) := by
  obtain ⟨gap, sign, hgap, hsign, hp⟩ := h
  exact ⟨gap, sign, hgap, hsign, hp.trans (List.prefix_append front rest)⟩

theorem not_prefix_of_append_quote {x : List Char} (h : ¬ ['='] <+: x ++ '\'' :: rest) :
    ¬ ['='] <+: x := fun hx => h (hx.trans (List.prefix_append x _))

/-- **`Quotes.replace`** — a text that is reported with an inequality in it is reported with any text
without a quote in the place of the inequality. -/
theorem Quotes.replace {op : Comparison} {piece : List Char} (hop : op ≠ .equal)
    (hpiece : '\'' ∉ piece) (hrest : ¬ ['='] <+: rest)
    (h : Quotes (front ++ (op.sign.toList ++ rest))) : Quotes (front ++ (piece ++ rest)) := by
  obtain ⟨c, tail, hop, hc, htail⟩ := Comparison.sign_of_ne_equal hop
  have hquote : '\'' ∉ c :: tail := by
    rw [← hop]
    exact op.quote_not_mem_sign
  rw [hop] at h
  obtain ⟨inner, l, outer, ⟨body, hbody, rfl⟩, heq, hsign⟩ := h
  have heq : front ++ (c :: tail ++ rest) = inner ++ '\'' :: (body ++ '\'' :: outer) := by
    rw [heq]
    simp
  rcases piece_beside hquote heq with ⟨x, rfl, rfl⟩ | ⟨x, rfl, hbehind⟩
  · -- The inequality stands in front of the literal.
    refine ⟨front ++ (piece ++ x), _, outer, ⟨body, hbody, rfl⟩, by simp, ?_⟩
    rcases hsign with hsign | hsign
    · have hends := EndsInSign.behind hc htail (not_prefix_of_append_quote hrest) hsign
      exact Or.inl ((hends.append piece).append front)
    · exact Or.inr hsign
  · rcases piece_beside hquote hbehind.symm with ⟨y, rfl, rfl⟩ | ⟨y, rfl, rfl⟩
    · -- It is inside of it.
      refine ⟨inner, _, outer, ⟨x ++ (piece ++ y), ?_, rfl⟩, by simp, hsign⟩
      simp only [List.mem_append, not_or] at hbody ⊢
      exact ⟨hbody.1, hpiece, hbody.2.2⟩
    · -- It stands behind it.
      refine ⟨inner, _, y ++ (piece ++ rest), ⟨body, hbody, rfl⟩, by simp, ?_⟩
      rcases hsign with hsign | hsign
      · exact Or.inl hsign
      · exact Or.inr ((BeginsWithSign.before hc hsign).append (piece ++ rest))

/-! ## §E Lone literals -/

/-- A text with one literal and no other quote is reported for the signs beside this literal. -/
theorem quotes_lone_iff (hfront : '\'' ∉ front) (hl : IsLiteral l) (hrest : '\'' ∉ rest) :
    Quotes (front ++ l ++ rest) ↔ EndsInSign front ∨ BeginsWithSign rest := by
  constructor
  · rintro ⟨inner, l', outer, ⟨body', hbody', rfl⟩, heq, hsign⟩
    obtain ⟨body, hbody, rfl⟩ := hl
    have heq : front ++ '\'' :: (body ++ '\'' :: rest) = inner ++ '\'' :: (body' ++ '\'' :: outer) := by
      simpa using heq
    -- There are two quotes on the left, so there are no more on the right.
    have hcount := congrArg (List.count '\'') heq
    simp only [List.count_append, List.count_cons_self, List.count_eq_zero_of_not_mem hfront,
      List.count_eq_zero_of_not_mem hrest, List.count_eq_zero_of_not_mem hbody,
      List.count_eq_zero_of_not_mem hbody'] at hcount
    have hinner : '\'' ∉ inner := List.count_eq_zero.mp (by omega)
    have houter : '\'' ∉ outer := List.count_eq_zero.mp (by omega)
    obtain ⟨rfl, hbehind⟩ := cut_at_first hfront hinner heq
    obtain ⟨-, rfl⟩ := cut_at_first hbody hbody' hbehind
    exact hsign
  · intro h
    exact ⟨front, l, rest, hl, rfl, h⟩

/-- An inequality in front of a literal ends in no sign that the rule knows. -/
theorem not_endsInSign {op : Comparison} (hop : op ≠ .equal) (hgap : Spaces gap) :
    ¬ EndsInSign (front ++ (op.sign.toList ++ gap)) := by
  obtain ⟨c, tail, hop, hc, htail⟩ := Comparison.sign_of_ne_equal hop
  rw [hop]
  intro h
  have hgap' : ¬ ['='] <+: gap := by
    rintro ⟨t, rfl⟩
    exact absurd (hgap '=' (by simp)) (by decide)
  obtain ⟨sign, gap', hsign, -, hs⟩ := EndsInSign.behind hc htail hgap' h
  have hspaces : ∀ x ∈ sign, x = ' ' :=
    fun x hx => hgap x (hs.subset (List.mem_append_left gap' hx))
  rcases hsign with rfl | rfl <;> simp at hspaces

/-- An inequality behind a literal begins with no sign that the rule knows. -/
theorem not_beginsWithSign {op : Comparison} (hop : op ≠ .equal) (hgap : Spaces gap) :
    ¬ BeginsWithSign (gap ++ (op.sign.toList ++ rest)) := by
  obtain ⟨c, tail, hop, hc, -⟩ := Comparison.sign_of_ne_equal hop
  rw [hop]
  intro h
  obtain ⟨gap', sign, -, hsign, hp⟩ := BeginsWithSign.before hc h
  have hspaces : ∀ x ∈ sign, x = ' ' :=
    fun x hx => hgap x (hp.subset (List.mem_append_right gap' hx))
  rcases hsign with rfl | rfl <;> simp at hspaces

/-! ## §F Verdicts -/

/-- **`comparison_quoting`** — a text with a literal beside `==` is reported. In the place of an inequality,
any other one has the same report on the text, and `==` has one where the inequality has; here the text must
not go on with a `=`, which would be part of the sign. And a text with one literal that an inequality stands
beside is reported only for a sign on the other side of the literal. -/
theorem comparison_quoting (pointer : Pointer) :
    (∀ (source : String) (f : List Char), ComparedBy .equal f → f <:+: source.toList →
      Reported pointer source) ∧
    (∀ (front rest : String) (op op' : Comparison), op ≠ .equal → op' ≠ .equal →
      ¬ ['='] <+: rest.toList →
      (Reported pointer (front ++ op.sign ++ rest) ↔ Reported pointer (front ++ op'.sign ++ rest)) ∧
      (Reported pointer (front ++ op.sign ++ rest) →
        Reported pointer (front ++ Comparison.equal.sign ++ rest))) ∧
    ∀ (front gap l rest : String) (op : Comparison), op ≠ .equal → Spaces gap.toList →
      IsLiteral l.toList → '\'' ∉ front.toList → '\'' ∉ rest.toList →
      (Reported pointer (front ++ op.sign ++ gap ++ l ++ rest) ↔ BeginsWithSign rest.toList) ∧
      (Reported pointer (front ++ l ++ gap ++ op.sign ++ rest) ↔ EndsInSign front.toList) := by
  have hreplace : ∀ (front rest : String) (op op' : Comparison), op ≠ .equal →
      ¬ ['='] <+: rest.toList → Reported pointer (front ++ op.sign ++ rest) →
      Reported pointer (front ++ op'.sign ++ rest) := by
    intro front rest op op' hop hrest h
    simp only [reported_iff, String.toList_append, List.append_assoc] at h ⊢
    exact h.replace hop op'.quote_not_mem_sign hrest
  refine ⟨?_, ?_, ?_⟩
  · intro source f hf hinfix
    rw [reported_iff, quotes_iff]
    exact ⟨f, .of_comparedBy_equal hf, hinfix⟩
  · intro front rest op op' hop hop' hrest
    refine ⟨⟨?_, ?_⟩, ?_⟩
    · exact hreplace front rest op op' hop hrest
    · exact hreplace front rest op' op hop' hrest
    · exact hreplace front rest op .equal hop hrest
  · intro front gap l rest op hop hgap hl hfront hrest
    have hquote : ∀ xs : List Char, '\'' ∉ xs → '\'' ∉ xs ++ (op.sign.toList ++ gap.toList) ∧
        '\'' ∉ gap.toList ++ (op.sign.toList ++ xs) := by
      intro xs hxs
      have hspace : '\'' ∉ gap.toList := fun h => absurd (hgap _ h) (by decide)
      simp [hxs, hspace, op.quote_not_mem_sign]
    constructor
    · have hlone := quotes_lone_iff (hquote _ hfront).1 hl hrest
      rw [or_iff_right (not_endsInSign hop hgap)] at hlone
      simpa [reported_iff] using hlone
    · have hlone := quotes_lone_iff hfront hl (hquote _ hrest).2
      rw [or_iff_left (not_beginsWithSign hop hgap)] at hlone
      simpa [reported_iff] using hlone

/-- A literal behind `!=` alone is not reported, whatever the sign of the inequality. -/
theorem comparison_quoting_unequal : Comparison.unequal ≠ .equal ∧ Spaces " ".toList ∧
    IsLiteral "'a'".toList ∧ '\'' ∉ ".x ".toList ∧ '\'' ∉ "".toList ∧
    ¬ Reported "" (".x " ++ Comparison.unequal.sign ++ " " ++ "'a'" ++ "") ∧
    ¬ Reported "" (".x " ++ Comparison.less.sign ++ " 'a'") ∧
    Reported "" ".x == 'a'" := by
  have hspaces : Spaces " ".toList := fun x hx => List.mem_singleton.mp hx
  have hliteral : IsLiteral "'a'".toList := ⟨['a'], by decide, rfl⟩
  obtain ⟨hequal, hsame, hlone⟩ := comparison_quoting ""
  have hrest : ¬ BeginsWithSign "".toList := by
    rintro ⟨gap, sign, -, rfl | rfl, hp⟩ <;> simp at hp
  have hunequal := mt (hlone ".x " " " "'a'" "" .unequal (by decide) hspaces hliteral (by decide)
    (by decide)).1.mp hrest
  refine ⟨by decide, hspaces, hliteral, by decide, by decide, hunequal, ?_, ?_⟩
  · exact mt (hsame ".x " " 'a'" .less .unequal (by decide) (by decide) (by decide)).1.mp hunequal
  · exact hequal ".x == 'a'" "== 'a'".toList (.behind hspaces hliteral) ⟨".x ".toList, [], rfl⟩

/-- **`inequality_hides_literal`** — a literal beside each of two signs of comparison; replacing the one by
the other makes the report on it disappear. -/
theorem inequality_hides_literal :
    (∃ f, ComparedBy .equal f ∧ f <:+: ".x == 'a'".toList) ∧ Reported "" ".x == 'a'" ∧
    (∃ f, ComparedBy .unequal f ∧ f <:+: ".x != 'a'".toList) ∧ ¬ Reported "" ".x != 'a'" := by
  have hspaces : Spaces [' '] := fun x hx => List.mem_singleton.mp hx
  have hliteral : IsLiteral ['\'', 'a', '\''] := ⟨['a'], by decide, rfl⟩
  refine ⟨⟨_, .behind hspaces hliteral, ['.', 'x', ' '], [], rfl⟩, ?_,
    ⟨_, .behind hspaces hliteral, ['.', 'x', ' '], [], rfl⟩, ?_⟩
  · exact ⟨_, List.mem_cons_self, rfl⟩
  · rintro ⟨r, hr, -⟩
    have hnone : lint "" ".x != 'a'" = [] := by decide
    rw [hnone] at hr
    cases hr

end PluginVet.Expression
