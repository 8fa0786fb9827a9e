/-
# PluginVet.Proofs.Expression.Iteration — which expressions the iteration rule reports

The rule is stated here by what stands in the text: `BareAt` says that a text begins with an iteration
over a collection and no `?` behind it, `IsGuard` spells out the guard idiom with white space between
its tokens. Both recognisers are exact (`bareIteration?_eq_some_iff`, `beginsGuard_iff`).

**Main statement** (`iteration_reported_iff`): a violation is reported exactly where a bare iteration
occurs and the guard idiom occurs nowhere, and it names the collection of the first bare iteration. The
rule is about an iteration that no guard stands around, but the idiom is looked for in the whole text: one
guarded collection silences every bare one (`guard_hides_bare`).

§A bare iterations, §B tokens, §C the guard idiom, §D reports.
-/
import PluginVet.Proofs.Expression.Search

namespace PluginVet.Expression

/-! ## §A Bare iterations -/

/-- `.nodes[]` and its kin. -/
def iterationText (c : Collection) : List Char := '.' :: (c.name.toList ++ ['[', ']'])

/-- **`BareAt c s`** — the text begins with an iteration over `c`, and no `?` follows. -/
def BareAt (c : Collection) (s : List Char) : Prop :=
  ∃ post, s = iterationText c ++ post ∧ post.head? ≠ some '?'

theorem dropCollection?_eq_some_iff {s rest : List Char} {c : Collection} :
    dropCollection? s = some (c, rest) ↔ s = c.name.toList ++ rest := by
  constructor
  · intro h
    obtain ⟨d, -, hd⟩ := List.exists_of_findSome?_eq_some h
    obtain ⟨r, hr, hcr⟩ := Option.map_eq_some_iff.mp hd
    obtain ⟨rfl, rfl⟩ := Prod.mk.inj hcr
    exact Text.dropHead?_eq_some_iff.mp hr
  · rintro rfl
    cases c <;> simp [dropCollection?, Collection.all, Collection.name, Text.dropHead?]

theorem bareIteration?_eq_some_iff {s : List Char} {c : Collection} :
    bareIteration? s = some c ↔ BareAt c s := by
  constructor
  · intro h
    unfold bareIteration? at h
    split at h
    · rename_i rest
      obtain ⟨⟨d, r⟩, hd, hr⟩ := Option.bind_eq_some_iff.mp h
      have hrest := dropCollection?_eq_some_iff.mp hd
      dsimp only at hr
      split at hr
      · exact absurd hr.symm (Option.some_ne_none c)
      · rename_i post hq
        obtain rfl := Option.some.inj hr
        refine ⟨post, by simp [iterationText, hrest], ?_⟩
        intro hpost
        obtain ⟨tail, rfl⟩ := List.head?_eq_some_iff.mp hpost
        exact hq tail rfl
      · exact absurd hr.symm (Option.some_ne_none c)
    · exact absurd h.symm (Option.some_ne_none c)
  · rintro ⟨post, rfl, hpost⟩
    have hs : iterationText c ++ post = '.' :: (c.name.toList ++ ('[' :: ']' :: post)) := by
      simp [iterationText]
    have hc : dropCollection? (c.name.toList ++ ('[' :: ']' :: post)) = some (c, '[' :: ']' :: post) :=
      dropCollection?_eq_some_iff.mpr rfl
    rw [hs]
    simp only [bareIteration?, hc, Option.bind_some]
    split
    · rename_i tail h
      simp only [List.cons.injEq, true_and] at h
      exact absurd (by rw [h]; rfl) hpost
    · rfl
    · rename_i h
      exact absurd rfl (h post)

/-! ## §B Tokens -/

/-- **`Spaced tokens s`** — the text consists of the tokens in order, each with white space in front. -/
inductive Spaced : List (List Char) → List Char → Prop
  | nil : Spaced [] []
  | cons {b token s : List Char} {tokens : List (List Char)} :
      Blanks b → Spaced tokens s → Spaced (token :: tokens) (b ++ token ++ s)

theorem spaced_nil_iff {s : List Char} : Spaced [] s ↔ s = [] := by
  constructor
  · intro h
    cases h
    rfl
  · rintro rfl
    exact .nil

theorem spaced_cons_iff {token s : List Char} {tokens : List (List Char)} :
    Spaced (token :: tokens) s ↔
      ∃ b rest, Blanks b ∧ s = b ++ token ++ rest ∧ Spaced tokens rest := by
  constructor
  · intro h
    cases h with
    | cons hb hs => exact ⟨_, _, hb, rfl, hs⟩
  · rintro ⟨b, rest, hb, rfl, hs⟩
    exact .cons hb hs

/-- The text is the tokens, spaced out, and then `rest`. -/
def Begins (tokens : List (List Char)) (s rest : List Char) : Prop :=
  ∃ g, Spaced tokens g ∧ s = g ++ rest

theorem begins_nil_iff {s rest : List Char} : Begins [] s rest ↔ s = rest := by
  simp [Begins, spaced_nil_iff]

theorem begins_cons_iff {token s rest : List Char} {tokens : List (List Char)} :
    Begins (token :: tokens) s rest ↔
      ∃ mid, (∃ b, Blanks b ∧ s = b ++ token ++ mid) ∧ Begins tokens mid rest := by
  constructor
  · rintro ⟨g, hg, rfl⟩
    obtain ⟨b, g', hb, rfl, hg'⟩ := spaced_cons_iff.mp hg
    exact ⟨g' ++ rest, ⟨b, hb, List.append_assoc _ _ _⟩, g', hg', rfl⟩
  · rintro ⟨mid, ⟨b, hb, rfl⟩, g', hg', rfl⟩
    exact ⟨b ++ token ++ g', .cons hb hg', (List.append_assoc _ _ _).symm⟩

theorem dropSpaced?_eq_some_iff {s rest : List Char} {c : Char} (hc : Text.isBlank c = false) :
    dropSpaced? c s = some rest ↔ ∃ b, Blanks b ∧ s = b ++ [c] ++ rest := by
  simp only [List.append_assoc, List.singleton_append]
  rw [← dropBlanks_eq_iff hc, dropSpaced?]
  cases dropBlanks s with
  | nil => simp
  | cons d ds =>
      by_cases hd : d = c <;> simp [hd]

theorem dropHead?_dropBlanks_eq_some_iff {s rest xs : List Char} {x : Char}
    (hx : Text.isBlank x = false) :
    Text.dropHead? (x :: xs) (dropBlanks s) = some rest ↔
      ∃ b, Blanks b ∧ s = b ++ (x :: xs) ++ rest := by
  rw [Text.dropHead?_eq_some_iff, List.cons_append, dropBlanks_eq_iff hx]
  simp

theorem dropCollection?_dropBlanks_eq_some_iff {s rest : List Char} {c : Collection} :
    dropCollection? (dropBlanks s) = some (c, rest) ↔
      ∃ b, Blanks b ∧ s = b ++ c.name.toList ++ rest := by
  obtain ⟨x, xs, hname, hx⟩ : ∃ x xs, c.name.toList = x :: xs ∧ Text.isBlank x = false := by
    cases c <;> exact ⟨_, _, rfl, by decide⟩
  rw [dropCollection?_eq_some_iff, hname, List.cons_append, dropBlanks_eq_iff hx]
  simp

theorem spaced_append_iff {xs ys : List (List Char)} {s : List Char} :
    Spaced (xs ++ ys) s ↔ ∃ a b, s = a ++ b ∧ Spaced xs a ∧ Spaced ys b := by
  induction xs generalizing s with
  | nil => simp [spaced_nil_iff]
  | cons token xs ih =>
      rw [List.cons_append, spaced_cons_iff]
      constructor
      · rintro ⟨blank, rest, hblank, rfl, hrest⟩
        obtain ⟨a, b, rfl, ha, hb⟩ := ih.mp hrest
        exact ⟨blank ++ token ++ a, b, by simp, .cons hblank ha, hb⟩
      · rintro ⟨a, b, rfl, ha, hb⟩
        obtain ⟨blank, rest, hblank, rfl, hrest⟩ := spaced_cons_iff.mp ha
        exact ⟨blank, rest ++ b, hblank, by simp, ih.mpr ⟨rest, b, rfl, hrest, hb⟩⟩

/-! ## §C The guard idiom -/

/-- What follows the parent's closing parenthesis. -/
def tailTokens (c : Collection) : List (List Char) :=
  [['.'], c.name.toList, ['/', '/'], ['['], [']'], [')']]

/-- **`IsGuard g`** — the text is `((PARENT // {}).COLLECTION // [])`, white space aside. The parent is
not empty and holds no closing parenthesis. -/
def IsGuard (g : List Char) : Prop :=
  ∃ c b parent closing, Blanks b ∧ parent ≠ [] ∧ ')' ∉ parent ∧
    Spaced (['{'] :: ['}'] :: [')'] :: tailTokens c) closing ∧
    g = '(' :: (b ++ ['('] ++ parent ++ ['/', '/'] ++ closing)

/-- The guard idiom occurs in the text. -/
def ShowsGuard (s : List Char) : Prop := ∃ g, g <:+: s ∧ IsGuard g

theorem endsInEmptyObject_iff {u : List Char} :
    endsInEmptyObject u = true ↔ ∃ parent object b, parent ≠ [] ∧ Spaced [['{'], ['}']] object ∧
      Blanks b ∧ u = parent ++ ['/', '/'] ++ object ++ b := by
  constructor
  · intro h
    unfold endsInEmptyObject at h
    split at h
    · rename_i front hfront
      -- The text is read from its end, so that its parts come out reversed.
      obtain ⟨mid, hmid, hopen⟩ := Option.bind_eq_some_iff.mp hfront
      obtain ⟨b₁, hb₁, hu⟩ := (dropSpaced?_eq_some_iff (by decide)).mp hmid
      obtain ⟨b₂, hb₂, hm⟩ := (dropSpaced?_eq_some_iff (by decide)).mp hopen
      split at h
      · rename_i x xs hslash
        obtain ⟨b₃, hb₃, hf⟩ := (dropBlanks_eq_iff (by decide)).mp hslash
        refine ⟨(x :: xs).reverse, b₃.reverse ++ ['{'] ++ (b₂.reverse ++ ['}'] ++ []), b₁.reverse,
          by simp, .cons hb₃.reverse (.cons hb₂.reverse .nil), hb₁.reverse, ?_⟩
        rw [← List.reverse_reverse u, hu, hm, hf]
        simp
      · exact absurd h Bool.false_ne_true
    · exact absurd h Bool.false_ne_true
  · rintro ⟨parent, object, b, hparent, hobject, hb, rfl⟩
    obtain ⟨b₃, rest, hb₃, rfl, hrest⟩ := spaced_cons_iff.mp hobject
    obtain ⟨b₂, nothing, hb₂, rfl, hnothing⟩ := spaced_cons_iff.mp hrest
    obtain rfl := spaced_nil_iff.mp hnothing
    obtain ⟨front, x, rfl⟩ := (List.eq_nil_or_concat' parent).resolve_left hparent
    have hslash : dropBlanks (b₃.reverse ++ '/' :: '/' :: x :: front.reverse)
        = '/' :: '/' :: x :: front.reverse :=
      (dropBlanks_eq_iff (by decide)).mpr ⟨b₃.reverse, hb₃.reverse, rfl⟩
    have hopen : dropSpaced? '{' (b₂.reverse ++ '{' :: (b₃.reverse ++ '/' :: '/' :: x :: front.reverse))
        = some (b₃.reverse ++ '/' :: '/' :: x :: front.reverse) :=
      (dropSpaced?_eq_some_iff (by decide)).mpr ⟨b₂.reverse, hb₂.reverse, by simp⟩
    have hclose : dropSpaced? '}'
        (front ++ [x] ++ ['/', '/'] ++ (b₃ ++ ['{'] ++ (b₂ ++ ['}'] ++ [])) ++ b).reverse
        = some (b₂.reverse ++ '{' :: (b₃.reverse ++ '/' :: '/' :: x :: front.reverse)) :=
      (dropSpaced?_eq_some_iff (by decide)).mpr ⟨b.reverse, hb.reverse, by simp⟩
    simp only [endsInEmptyObject, hclose, Option.bind_some, hopen, hslash]

/-- The text behind a parent's parenthesis, as the recogniser takes it apart. -/
def dropTail? (s : List Char) : Option (List Char) := do
  let (_, rest) ← dropCollection? (dropBlanks (← dropSpaced? '.' s))
  let rest ← Text.dropHead? ['/', '/'] (dropBlanks rest)
  dropSpaced? ')' (← dropSpaced? ']' (← dropSpaced? '[' rest))

theorem dropTail?_eq_some_iff {s rest : List Char} :
    dropTail? s = some rest ↔ ∃ c, Begins (tailTokens c) s rest := by
  simp only [dropTail?, Option.bind_eq_bind, Option.bind_eq_some_iff, Prod.exists, tailTokens,
    begins_cons_iff, begins_nil_iff, dropCollection?_dropBlanks_eq_some_iff,
    dropHead?_dropBlanks_eq_some_iff (x := '/') (by decide), dropSpaced?_eq_some_iff (c := '.') (by decide),
    dropSpaced?_eq_some_iff (c := '[') (by decide), dropSpaced?_eq_some_iff (c := ']') (by decide),
    dropSpaced?_eq_some_iff (c := ')') (by decide)]
  constructor
  · rintro ⟨s₁, h₁, c, s₂, h₂, s₃, h₃, s₄, h₄, s₅, h₅, h₆⟩
    exact ⟨c, s₁, h₁, s₂, h₂, s₃, h₃, s₄, h₄, s₅, h₅, rest, h₆, rfl⟩
  · rintro ⟨c, s₁, h₁, s₂, h₂, s₃, h₃, s₄, h₄, s₅, h₅, _, h₆, rfl⟩
    exact ⟨s₁, h₁, c, s₂, h₂, s₃, h₃, s₄, h₄, s₅, h₅, h₆⟩

theorem not_mem_of_spaced_object {object : List Char} (h : Spaced [['{'], ['}']] object) :
    ')' ∉ object := by
  obtain ⟨b₁, rest, hb₁, rfl, hrest⟩ := spaced_cons_iff.mp h
  obtain ⟨b₂, nothing, hb₂, rfl, hnothing⟩ := spaced_cons_iff.mp hrest
  obtain rfl := spaced_nil_iff.mp hnothing
  have h₁ : ')' ∉ b₁ := hb₁.not_mem (by decide)
  have h₂ : ')' ∉ b₂ := hb₂.not_mem (by decide)
  simp [h₁, h₂]

theorem eq_append_of_tail?_dropWhile {inner behind : List Char}
    (h : (inner.dropWhile (· != ')')).tail? = some behind) :
    inner = inner.takeWhile (· != ')') ++ ')' :: behind := by
  obtain ⟨body, hbody, rfl⟩ := tail?_dropWhile_eq_some_iff.mp h
  have hrun : ∀ x ∈ body, (x != ')') = true := by
    intro x hx
    rw [bne_iff_ne]
    rintro rfl
    exact hbody hx
  rw [List.takeWhile_append_of_pos hrun, List.takeWhile_cons_of_neg (by simp), List.append_nil]

theorem exists_isGuard_of_beginsGuard {s : List Char} (h : beginsGuard s = true) :
    ∃ g, g <+: s ∧ IsGuard g := by
  unfold beginsGuard at h
  split at h
  case h_2 => exact absurd h Bool.false_ne_true
  rename_i rest
  split at h
  case h_2 => exact absurd h Bool.false_ne_true
  rename_i inner hinner
  obtain ⟨hends, htail⟩ := (Bool.and_eq_true _ _).mp h
  obtain ⟨after, hafter⟩ : ∃ r, (inner.dropWhile (· != ')')).tail?.bind dropTail? = some r :=
    Option.isSome_iff_exists.mp htail
  obtain ⟨behind, hbehind, hdrop⟩ := Option.bind_eq_some_iff.mp hafter
  obtain ⟨b₁, hb₁, rfl⟩ := (dropSpaced?_eq_some_iff (by decide)).mp hinner
  obtain ⟨parent, object, b, hparent, hobject, hb, hu⟩ := endsInEmptyObject_iff.mp hends
  obtain ⟨c, g, hg, rfl⟩ := dropTail?_eq_some_iff.mp hdrop
  -- What stands in front of the first closing parenthesis holds none itself.
  have hsplit := eq_append_of_tail?_dropWhile hbehind
  have hparent' : ')' ∉ parent := by
    intro hmem
    have hin : ')' ∈ inner.takeWhile (· != ')') := by simp [hu, hmem]
    simpa using List.mem_takeWhile_imp hin
  refine ⟨'(' :: (b₁ ++ ['('] ++ parent ++ ['/', '/'] ++ (object ++ (b ++ [')'] ++ g))),
    ⟨after, ?_⟩, c, b₁, parent, object ++ (b ++ [')'] ++ g), hb₁, hparent, hparent', ?_, rfl⟩
  · rw [hsplit, hu]
    simp
  · exact (@spaced_append_iff [['{'], ['}']] _ _).mpr ⟨object, _, rfl, hobject, .cons hb hg⟩

theorem beginsGuard_of_isGuard {g after : List Char} (h : IsGuard g) :
    beginsGuard (g ++ after) = true := by
  obtain ⟨c, b₁, parent, closing, hb₁, hparent, hno, hclose, rfl⟩ := h
  obtain ⟨object, rest, rfl, hobject, hrest⟩ :=
    (@spaced_append_iff [['{'], ['}']] _ _).mp hclose
  obtain ⟨b, tail, hb, rfl, htail⟩ := spaced_cons_iff.mp hrest
  have hinner : dropSpaced? '(' (b₁ ++ ['('] ++ parent ++ ['/', '/'] ++
      (object ++ (b ++ [')'] ++ tail)) ++ after)
      = some (parent ++ ['/', '/'] ++ object ++ b ++ ')' :: (tail ++ after)) :=
    (dropSpaced?_eq_some_iff (by decide)).mpr ⟨b₁, hb₁, by simp⟩
  have hends : endsInEmptyObject (parent ++ ['/', '/'] ++ object ++ b) = true :=
    endsInEmptyObject_iff.mpr ⟨parent, object, b, hparent, hobject, hb, rfl⟩
  have hdrop : dropTail? (tail ++ after) = some after :=
    dropTail?_eq_some_iff.mpr ⟨c, tail, htail, rfl⟩
  -- the first closing parenthesis is the parent's own
  have hrun : ∀ x ∈ parent ++ ['/', '/'] ++ object ++ b, (x != ')') = true := by
    intro x hx
    rw [bne_iff_ne]
    rintro rfl
    have hobj := not_mem_of_spaced_object hobject
    have hbl : ')' ∉ b := hb.not_mem (by decide)
    simp [hno, hobj, hbl] at hx
  rw [List.cons_append]
  unfold beginsGuard
  simp only [hinner]
  rw [List.takeWhile_append_of_pos hrun, List.takeWhile_cons_of_neg (by simp), List.append_nil,
    List.dropWhile_append_of_pos hrun, List.dropWhile_cons_of_neg (by simp), hends]
  show (dropTail? (tail ++ after)).isSome = true
  rw [hdrop]
  rfl

theorem beginsGuard_iff {s : List Char} : beginsGuard s = true ↔ ∃ g, g <+: s ∧ IsGuard g := by
  constructor
  · exact exists_isGuard_of_beginsGuard
  · rintro ⟨g, ⟨after, rfl⟩, hg⟩
    exact beginsGuard_of_isGuard hg

theorem occurs_beginsGuard_iff {s : List Char} : occurs beginsGuard s = true ↔ ShowsGuard s := by
  rw [occurs_iff]
  constructor
  · rintro ⟨rest, hrest, hbegins⟩
    obtain ⟨g, hg, hguard⟩ := beginsGuard_iff.mp hbegins
    exact ⟨g, hg.isInfix.trans hrest.isInfix, hguard⟩
  · rintro ⟨g, ⟨pre, post, rfl⟩, hguard⟩
    exact ⟨g ++ post, ⟨pre, (List.append_assoc pre g post).symm⟩, beginsGuard_of_isGuard hguard⟩

/-! ## §D Reports -/

theorem unguarded?_eq_some_iff {s : List Char} {c : Collection} :
    unguarded? s = some c ↔ First BareAt c s ∧ ¬ ShowsGuard s := by
  rw [unguarded?, ← leftmost?_eq_some_iff_first bareIteration?_eq_some_iff, ← occurs_beginsGuard_iff]
  split <;> simp_all

theorem mem_lint_unguarded_iff {pointer : Pointer} {source : String} {c : Collection} :
    ⟨.unguarded c, pointer, source⟩ ∈ lint pointer source ↔
      First BareAt c source.toList ∧ ¬ ShowsGuard source.toList := by
  rw [← unguarded?_eq_some_iff]
  simp [lint, violations]

theorem eq_unguarded_of_mem_lint {pointer : Pointer} {source : String} {f : LintFinding}
    (hf : f ∈ lint pointer source) (hrule : f.violation.rule = .unguardedIteration) :
    ∃ c, f = ⟨.unguarded c, pointer, source⟩ := by
  obtain ⟨v, -, rfl⟩ := List.mem_map.mp hf
  cases v with
  | unguarded c => exact ⟨c, rfl⟩
  | quoting fragment => cases hrule
  | ternary => cases hrule

/-- **`iteration_reported_iff`** — the iteration rule reports a text exactly if a bare iteration occurs
in it and the guard idiom does not, and the report names the collection of the first bare iteration. -/
theorem iteration_reported_iff (pointer : Pointer) (source : String) :
    ((∃ f ∈ lint pointer source, f.violation.rule = .unguardedIteration) ↔
      (∃ c rest, rest <:+ source.toList ∧ BareAt c rest) ∧ ¬ ShowsGuard source.toList) ∧
    ∀ c, ⟨.unguarded c, pointer, source⟩ ∈ lint pointer source ↔
      First BareAt c source.toList ∧ ¬ ShowsGuard source.toList := by
  refine ⟨?_, fun c => mem_lint_unguarded_iff⟩
  rw [← exists_first_iff bareIteration?_eq_some_iff]
  constructor
  · rintro ⟨f, hf, hrule⟩
    obtain ⟨c, rfl⟩ := eq_unguarded_of_mem_lint hf hrule
    obtain ⟨hfirst, hguard⟩ := mem_lint_unguarded_iff.mp hf
    exact ⟨⟨c, hfirst⟩, hguard⟩
  · rintro ⟨⟨c, hfirst⟩, hguard⟩
    exact ⟨_, mem_lint_unguarded_iff.mpr ⟨hfirst, hguard⟩, rfl⟩

/-- A bare iteration that does not lie inside a guard idiom occurs in the text. -/
def ShowsExposed (s : List Char) : Prop :=
  ∃ c pre post, s = pre ++ iterationText c ++ post ∧ post.head? ≠ some '?' ∧
    ∀ before g after, IsGuard g → s = before ++ g ++ after →
      before.length ≤ pre.length → post.length < after.length

theorem getLast?_of_isGuard {g : List Char} (h : IsGuard g) : g.getLast? = some ')' := by
  obtain ⟨c, b₁, parent, closing, -, -, -, hclose, rfl⟩ := h
  obtain ⟨front, last, rfl, -, hlast⟩ :=
    (@spaced_append_iff [['{'], ['}'], [')'], ['.'], c.name.toList, ['/', '/'], ['['], [']']] [[')']] _).mp
      hclose
  obtain ⟨b, nothing, -, rfl, hnothing⟩ := spaced_cons_iff.mp hlast
  obtain rfl := spaced_nil_iff.mp hnothing
  exact List.getLast?_eq_some_iff.mpr
    ⟨'(' :: (b₁ ++ ['('] ++ parent ++ ['/', '/'] ++ (front ++ b)), by simp⟩

/-- The guarded `.nodes` hides the bare `.items`, with which it has nothing to do. -/
theorem guard_hides_bare :
    ¬ ((∃ f ∈ lint "" "((.a // \x7b\x7d).nodes // [])[], .b.items[]",
          f.violation.rule = .unguardedIteration) ↔
        ShowsExposed "((.a // \x7b\x7d).nodes // [])[], .b.items[]".toList) := by
  intro h
  have hexposed : ShowsExposed "((.a // \x7b\x7d).nodes // [])[], .b.items[]".toList := by
    refine ⟨.items, "((.a // \x7b\x7d).nodes // [])[], .b".toList, [], by decide, by decide, ?_⟩
    intro before g after hg hs _
    -- a guard that reached the end of the text would make it end in a parenthesis
    by_contra hafter
    obtain rfl : after = [] := List.length_eq_zero_iff.mp (by simpa using hafter)
    have hlast := congrArg List.getLast? hs
    rw [List.append_nil, List.getLast?_append, getLast?_of_isGuard hg,
      Option.some_or] at hlast
    exact absurd hlast (by decide)
  obtain ⟨f, hf, hrule⟩ := h.mpr hexposed
  obtain ⟨c, rfl⟩ := eq_unguarded_of_mem_lint hf hrule
  have hsome := unguarded?_eq_some_iff.mpr (mem_lint_unguarded_iff.mp hf)
  have hnone : unguarded? "((.a // \x7b\x7d).nodes // [])[], .b.items[]".toList = none := by decide
  exact Option.some_ne_none c (hsome.symm.trans hnone)

end PluginVet.Expression
