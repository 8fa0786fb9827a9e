/-
# PluginVet.Proofs.Coverage — which tools the tests refer to, and which they leave out

A literal is `tool:`, white space, and a name between two quotes. The search takes the first literal of a
source and goes on behind it (`Found`), so a literal can only be passed over where it begins inside one
that is found: then the name of that one ends in `tool:`, and the quote behind the name opens the other
(`found_or_hidden`). Besides, the two quotes of a literal need not be of one kind. But for these two
things the index holds exactly the names that sources refer to (`contains_ofSources_iff`).

The coverage check reports each name that some section of the manifest declares and that is not in the
index, once and at its first section (`untested_tools_reported`). More sources never make it report more.

§A literals, §B the search, §C the index, §D declared tools.
-/
import Mathlib.Data.List.Basic
import PluginVet.Coverage
import PluginVet.Proofs.Expression.Search
import PluginVet.Proofs.Manifest.Sections
import PluginVet.Proofs.Pointer

namespace PluginVet

namespace Coverage

open Expression (Blanks dropWhile_eq_cons_iff)

/-! ## §A Literals -/

/-- A text without quotes that is not empty. -/
def IsName (name : List Char) : Prop := name ≠ [] ∧ ∀ c ∈ name, isQuote c = false

/-- The key in front of a tool's name. -/
def toolKey : List Char := ['t', 'o', 'o', 'l', ':']

/-- **`Literal opening name closing rest s`** — the text `s` begins with a literal, behind which `rest`
stands. -/
structure Literal (opening : Char) (name : List Char) (closing : Char) (rest s : List Char) : Prop where
  opens : isQuote opening = true
  named : IsName name
  closes : isQuote closing = true
  spelled : ∃ gap, Blanks gap ∧ s = toolKey ++ gap ++ opening :: (name ++ closing :: rest)

section Literals

variable {s rest rest' name name' : List Char} {opening opening' closing closing' q q' : Char}

theorem isBlank_of_isQuote (h : isQuote q = true) : Text.isBlank q = false := by
  rcases (by simpa [isQuote] using h : q = '\'' ∨ q = '"') with rfl | rfl <;> decide

theorem isQuote_of_isBlank (h : Text.isBlank q = true) : isQuote q = false := by
  cases hq : isQuote q with
  | false => rfl
  | true => exact absurd (isBlank_of_isQuote hq) (Bool.not_eq_false _ ▸ h)

theorem forall_of_any_isQuote (h : s.any isQuote = false) : ∀ c ∈ s, isQuote c = false :=
  fun c hc => Bool.not_eq_true _ ▸ List.any_eq_false.mp h c hc

/-- A text is cut at its first quote in one way. -/
theorem cut_unique {a b x y : List Char} (ha : ∀ c ∈ a, isQuote c = false)
    (hb : ∀ c ∈ b, isQuote c = false) (hq : isQuote q = true) (hq' : isQuote q' = true)
    (h : a ++ q :: x = b ++ q' :: y) : a = b ∧ q = q' ∧ x = y := by
  induction a generalizing b with
  | nil =>
      cases b with
      | nil => exact ⟨rfl, List.cons.inj h⟩
      | cons c cs =>
          obtain rfl : q = c := (List.cons.inj h).1
          exact absurd hq (Bool.not_eq_true _ ▸ hb q List.mem_cons_self)
  | cons c cs ih =>
      obtain ⟨hc, hcs⟩ := List.forall_mem_cons.mp ha
      cases b with
      | nil =>
          obtain rfl : c = q' := (List.cons.inj h).1
          exact absurd hq' (Bool.not_eq_true _ ▸ hc)
      | cons d ds =>
          obtain ⟨rfl, htail⟩ := List.cons.inj h
          obtain ⟨rfl, hrest⟩ := ih hcs (List.forall_mem_cons.mp hb).2 htail
          exact ⟨rfl, hrest⟩

theorem quotedName?_eq_some_iff : quotedName? s = some (name, rest) ↔ IsName name ∧
    ∃ opening closing, isQuote opening = true ∧ isQuote closing = true ∧
      s = opening :: (name ++ closing :: rest) := by
  constructor
  · intro h
    unfold quotedName? at h
    split at h
    · cases h
    · rename_i opening body
      split at h
      · cases h
      · rename_i hopening
        split at h
        · rename_i c cs closing tail hname hclosing
          obtain ⟨rfl, rfl⟩ := Prod.mk.inj (Option.some.inj h)
          have hquote := List.head?_dropWhile_not (fun c => !isQuote c) body
          rw [hclosing] at hquote
          refine ⟨⟨List.cons_ne_nil c cs, fun x hx => ?_⟩, opening, closing, ?_, ?_, ?_⟩
          · rw [← hname] at hx
            simpa using List.mem_takeWhile_imp hx
          · simpa using hopening
          · simpa using hquote
          · rw [← hname, ← hclosing, List.takeWhile_append_dropWhile]
        · cases h
  · rintro ⟨⟨hne, hplain⟩, opening, closing, hopening, hclosing, rfl⟩
    have hall : ∀ c ∈ name, (!isQuote c) = true := fun c hc => by rw [hplain c hc]; rfl
    have htake : (name ++ closing :: rest).takeWhile (fun c => !isQuote c) = name := by
      rw [List.takeWhile_append_of_pos hall, List.takeWhile_cons_of_neg (by simp [hclosing]),
        List.append_nil]
    have hdrop : (name ++ closing :: rest).dropWhile (fun c => !isQuote c) = closing :: rest :=
      (dropWhile_eq_cons_iff (by simp [hclosing])).mpr ⟨name, hall, rfl⟩
    obtain ⟨c, cs, rfl⟩ := List.exists_cons_of_ne_nil hne
    simp only [quotedName?, hopening, htake, hdrop, Bool.not_true, Bool.false_eq_true, if_false]

theorem reference?_eq_some_iff :
    reference? s = some (name, rest) ↔ ∃ opening closing, Literal opening name closing rest s := by
  rw [reference?, Option.bind_eq_some_iff]
  constructor
  · rintro ⟨tail, htail, hquoted⟩
    obtain ⟨hname, opening, closing, hopening, hclosing, hspelled⟩ :=
      quotedName?_eq_some_iff.mp hquoted
    obtain ⟨gap, hgap, rfl⟩ := (dropWhile_eq_cons_iff (isBlank_of_isQuote hopening)).mp hspelled
    refine ⟨opening, closing, hopening, hname, hclosing, gap, hgap, ?_⟩
    rw [Text.dropHead?_eq_append htail, toolKey, List.append_assoc]
  · rintro ⟨opening, closing, hopening, hname, hclosing, gap, hgap, rfl⟩
    refine ⟨gap ++ opening :: (name ++ closing :: rest), ?_, ?_⟩
    · rw [List.append_assoc]
      exact Text.dropHead?_append _ _
    · refine quotedName?_eq_some_iff.mpr ⟨hname, opening, closing, hopening, hclosing, ?_⟩
      exact (dropWhile_eq_cons_iff (isBlank_of_isQuote hopening)).mpr ⟨gap, hgap, rfl⟩

/-- Before the opening quote of a literal there is none. -/
theorem not_isQuote_lead {gap : List Char} (hgap : Blanks gap) :
    ∀ c ∈ toolKey ++ gap, isQuote c = false := by
  intro c hc
  rcases List.mem_append.mp hc with hc | hc
  · exact forall_of_any_isQuote (by decide) c hc
  · exact isQuote_of_isBlank (hgap c hc)

/-- A text begins with one literal at most. -/
theorem Literal.unique (h : Literal opening name closing rest s)
    (h' : Literal opening' name' closing' rest' s) :
    opening = opening' ∧ name = name' ∧ closing = closing' ∧ rest = rest' := by
  obtain ⟨hopening, hname, hclosing, gap, hgap, rfl⟩ := h
  obtain ⟨hopening', hname', hclosing', gap', hgap', hspelled⟩ := h'
  obtain ⟨-, rfl, hbody⟩ := cut_unique (not_isQuote_lead hgap) (not_isQuote_lead hgap') hopening
    hopening' hspelled
  obtain ⟨rfl, rfl, rfl⟩ := cut_unique hname.2 hname'.2 hclosing hclosing' hbody
  exact ⟨rfl, rfl, rfl, rfl⟩

theorem Literal.suffix (h : Literal opening name closing rest s) : rest <:+ s := by
  obtain ⟨-, -, -, gap, -, rfl⟩ := h
  exact ⟨toolKey ++ gap ++ opening :: (name ++ [closing]), by simp⟩

/-- In the lead of a literal no other one begins: it has only one `t`. -/
theorem lead_ne_append {gap gap' front : List Char} (hgap : Blanks gap) (hfront : front ≠ []) :
    toolKey ++ gap ≠ front ++ (toolKey ++ gap') := by
  obtain ⟨c, cs, rfl⟩ := List.exists_cons_of_ne_nil hfront
  intro h
  obtain ⟨-, htail⟩ := List.cons.inj h
  have hmem : 't' ∈ ['o', 'o', 'l', ':'] ++ gap := by
    show 't' ∈ List.append ['o', 'o', 'l', ':'] gap
    rw [htail]
    exact List.mem_append_right _ List.mem_cons_self
  rcases List.mem_append.mp hmem with hmem | hmem
  · exact absurd hmem (by decide)
  · exact absurd (hgap 't' hmem) (by decide)

/-- **`Literal.inside`** — a literal that begins inside another one, behind its beginning and in front of
its end, begins in the name of it: that name ends in `tool:` and white space, and the quote behind the
name is the opening quote of the inner literal. -/
theorem Literal.inside {place : List Char} (h : Literal opening name closing rest s)
    (h' : Literal opening' name' closing' rest' place) (hs : place <:+ s) (hne : place ≠ s)
    (hrest : ¬ place <:+ rest) : ∃ before gap, Blanks gap ∧ name = before ++ (toolKey ++ gap) ∧
      place = toolKey ++ gap ++ closing :: rest := by
  obtain ⟨hopening, hname, hclosing, gap, hgap, rfl⟩ := h
  obtain ⟨hopening', -, -, gap', hgap', hplace⟩ := h'
  obtain ⟨front, hfront⟩ := hs
  have hbegin : ∀ q tail, isQuote q = true → q :: tail ≠ place := by
    rintro q tail hq rfl
    rw [(List.cons.inj hplace).1] at hq
    exact absurd hq (by decide)
  rcases List.append_eq_append_iff.mp hfront with ⟨lead, hlead, hbody⟩ | ⟨lead, -, hbody⟩
  · -- The inner literal begins in front of the outer one's opening quote.
    have hplain : ∀ c ∈ lead, isQuote c = false := fun c hc =>
      not_isQuote_lead hgap c (hlead ▸ List.mem_append_right _ hc)
    obtain ⟨rfl, -, -⟩ := cut_unique (not_isQuote_lead hgap') hplain hopening' hopening
      (hplace.symm.trans hbody)
    have hfrontne : front ≠ [] := by
      rintro rfl
      exact hne hfront
    exact absurd hlead (lead_ne_append hgap hfrontne)
  · cases lead with
    | nil => exact absurd hbody (hbegin opening _ hopening)
    | cons d before =>
        obtain ⟨-, hinner⟩ := List.cons.inj hbody
        rcases List.append_eq_append_iff.mp hinner with ⟨more, -, hmore⟩ | ⟨more, rfl, hmore⟩
        · -- It begins at the closing quote or behind it.
          cases more with
          | nil => exact absurd hmore (hbegin closing _ hclosing)
          | cons d more => exact absurd ⟨more, (List.cons.inj hmore).2.symm⟩ hrest
        · have hplain : ∀ c ∈ more, isQuote c = false := fun c hc =>
            hname.2 c (List.mem_append_right _ hc)
          obtain ⟨rfl, -, -⟩ := cut_unique (not_isQuote_lead hgap') hplain hopening' hclosing
            (hplace.symm.trans hmore)
          exact ⟨before, gap', hgap', rfl, hmore⟩

end Literals

/-! ## §B The search -/

/-- Some literal stands at the beginning of the text. -/
def Shows (s : List Char) : Prop :=
  ∃ opening name closing rest, Literal opening name closing rest s

/-- Of the places in `s` that show a literal, `place` is the first. -/
def IsFirst (place s : List Char) : Prop :=
  place <:+ s ∧ Shows place ∧
    ∀ place', place' <:+ s → Shows place' → place'.length ≤ place.length

/-- **`Found s place`** — the search in `s` comes to the literal at `place`: it is the first one, or it is
found behind the first one. -/
inductive Found : List Char → List Char → Prop
  | first {s place : List Char} : IsFirst place s → Found s place
  | later {s front rest place name : List Char} {opening closing : Char} :
      IsFirst front s → Literal opening name closing rest front → Found rest place → Found s place

section Search

variable {s rest place name : List Char} {opening closing c : Char}

theorem reference?_eq_none_iff : reference? s = none ↔ ¬ Shows s := by
  rw [Option.eq_none_iff_forall_ne_some]
  constructor
  · rintro h ⟨opening, name, closing, rest, hs⟩
    exact h (name, rest) (reference?_eq_some_iff.mpr ⟨opening, closing, hs⟩)
  · rintro h ⟨name, rest⟩ hs
    obtain ⟨opening, closing, hs⟩ := reference?_eq_some_iff.mp hs
    exact h ⟨opening, name, closing, rest, hs⟩

theorem isFirst_of_literal (h : Literal opening name closing rest s) :
    IsFirst place s ↔ place = s := by
  constructor
  · rintro ⟨hs, -, hfirst⟩
    exact hs.eq_of_length_le (hfirst s List.suffix_rfl ⟨_, _, _, _, h⟩)
  · rintro rfl
    exact ⟨List.suffix_rfl, ⟨_, _, _, _, h⟩, fun _ hs _ => hs.length_le⟩

theorem isFirst_cons (h : ¬ Shows (c :: s)) : IsFirst place (c :: s) ↔ IsFirst place s := by
  have hsuffix : ∀ t, Shows t → (t <:+ c :: s ↔ t <:+ s) := by
    intro t ht
    refine List.suffix_cons_iff.trans ⟨fun hs => hs.resolve_left ?_, Or.inr⟩
    rintro rfl
    exact h ht
  constructor
  · rintro ⟨hs, hshows, hfirst⟩
    exact ⟨(hsuffix place hshows).mp hs, hshows, fun t ht hshown =>
      hfirst t ((hsuffix t hshown).mpr ht) hshown⟩
  · rintro ⟨hs, hshows, hfirst⟩
    exact ⟨(hsuffix place hshows).mpr hs, hshows, fun t ht hshown =>
      hfirst t ((hsuffix t hshown).mp ht) hshown⟩

theorem not_shows_nil : ¬ Shows [] := by
  rintro ⟨opening, name, closing, rest, -, -, -, gap, -, hspelled⟩
  simp [toolKey] at hspelled

theorem not_found_nil : ¬ Found [] place := by
  have hnone : ∀ front, ¬ IsFirst front [] := by
    rintro front ⟨hs, hshows, -⟩
    exact not_shows_nil (List.suffix_nil.mp hs ▸ hshows)
  intro h
  cases h with
  | first hfirst => exact hnone _ hfirst
  | later hfirst _ _ => exact hnone _ hfirst

theorem found_of_literal (h : Literal opening name closing rest s) :
    Found s place ↔ place = s ∨ Found rest place := by
  constructor
  · intro hfound
    cases hfound with
    | first hfirst => exact Or.inl ((isFirst_of_literal h).mp hfirst)
    | later hfirst hliteral hlater =>
        rw [(isFirst_of_literal h).mp hfirst] at hliteral
        obtain ⟨-, -, -, rfl⟩ := hliteral.unique h
        exact Or.inr hlater
  · rintro (rfl | hlater)
    · exact .first ((isFirst_of_literal h).mpr rfl)
    · exact .later ((isFirst_of_literal h).mpr rfl) h hlater

theorem found_cons (h : ¬ Shows (c :: s)) : Found (c :: s) place ↔ Found s place := by
  constructor
  · intro hfound
    cases hfound with
    | first hfirst => exact .first ((isFirst_cons h).mp hfirst)
    | later hfirst hliteral hlater => exact .later ((isFirst_cons h).mp hfirst) hliteral hlater
  · intro hfound
    cases hfound with
    | first hfirst => exact .first ((isFirst_cons h).mpr hfirst)
    | later hfirst hliteral hlater => exact .later ((isFirst_cons h).mpr hfirst) hliteral hlater

/-- **`mem_references_iff`** — the names in a source are those of the literals that are found. -/
theorem mem_references_iff {name : String} : name ∈ references s ↔
    ∃ place opening closing rest, Found s place ∧ Literal opening name.toList closing rest place := by
  fun_induction references s with
  | case1 => simp [not_found_nil]
  | case2 c cs found rest h _ ih =>
      obtain ⟨opening, closing, hliteral⟩ := reference?_eq_some_iff.mp h
      simp only [found_of_literal hliteral, List.mem_cons, ih]
      constructor
      · rintro (rfl | ⟨place, opening', closing', rest', hfound, hplace⟩)
        · exact ⟨_, opening, closing, rest, Or.inl rfl, by rwa [String.toList_ofList]⟩
        · exact ⟨place, opening', closing', rest', Or.inr hfound, hplace⟩
      · rintro ⟨place, opening', closing', rest', rfl | hfound, hplace⟩
        · obtain ⟨-, hname, -, -⟩ := hplace.unique hliteral
          exact Or.inl (by rw [← hname, String.ofList_toList])
        · exact Or.inr ⟨place, opening', closing', rest', hfound, hplace⟩
  | case3 c cs h ih =>
      simp only [found_cons (reference?_eq_none_iff.mp h), ih]

theorem Found.suffix (h : Found s place) : place <:+ s := by
  induction h with
  | first hfirst => exact hfirst.1
  | later hfirst hliteral _ ih =>
      exact (ih.trans hliteral.suffix).trans hfirst.1

/-- **`Hidden s place`** — a literal is found whose name ends in `tool:` and white space, and `place` begins
with that end: the quote behind the name is its first one. -/
def Hidden (s place : List Char) : Prop :=
  ∃ outer opening before gap closing rest, Found s outer ∧ Blanks gap ∧
    Literal opening (before ++ (toolKey ++ gap)) closing rest outer ∧
    place = toolKey ++ gap ++ closing :: rest

theorem Hidden.mono {s' : List Char} (h : Hidden s place)
    (hfound : ∀ outer, Found s outer → Found s' outer) : Hidden s' place := by
  obtain ⟨outer, opening, before, gap, closing, rest, houter, h⟩ := h
  exact ⟨outer, opening, before, gap, closing, rest, hfound outer houter, h⟩

theorem Hidden.suffix (h : Hidden s place) : place <:+ s := by
  obtain ⟨outer, opening, before, gap, closing, rest, hfound, -, ⟨-, -, -, lead, -, rfl⟩, rfl⟩ := h
  refine List.IsSuffix.trans ⟨toolKey ++ lead ++ opening :: before, ?_⟩ hfound.suffix
  simp

/-- **`found_or_hidden`** — a literal is found, or it begins in the name of one that is found. -/
theorem found_or_hidden (hs : place <:+ s) (h : Shows place) : Found s place ∨ Hidden s place := by
  fun_induction references s with
  | case1 => exact absurd (List.suffix_nil.mp hs ▸ h) not_shows_nil
  | case2 c cs name rest href _ ih =>
      obtain ⟨opening, closing, hliteral⟩ := reference?_eq_some_iff.mp href
      by_cases hplace : place = c :: cs
      · exact Or.inl ((found_of_literal hliteral).mpr (Or.inl hplace))
      · by_cases hrest : place <:+ rest
        · have hlift : ∀ p, Found rest p → Found (c :: cs) p := fun p hp =>
            (found_of_literal hliteral).mpr (Or.inr hp)
          exact (ih hrest).imp (hlift place) fun hhidden => hhidden.mono hlift
        · obtain ⟨opening', name', closing', rest', hinner⟩ := h
          obtain ⟨before, gap, hgap, rfl, hspelled⟩ := hliteral.inside hinner hs hplace hrest
          exact Or.inr ⟨c :: cs, opening, before, gap, closing, rest,
            (found_of_literal hliteral).mpr (Or.inl rfl), hgap, hliteral, hspelled⟩
  | case3 c cs href ih =>
      have hnone : ¬ Shows (c :: cs) := reference?_eq_none_iff.mp href
      have hlift : ∀ p, Found cs p → Found (c :: cs) p := fun p => (found_cons hnone).mpr
      have hcs : place <:+ cs := by
        refine (List.suffix_cons_iff.mp hs).resolve_left ?_
        rintro rfl
        exact hnone h
      exact (ih hcs).imp (hlift place) fun hhidden => hhidden.mono hlift

end Search

/-! ## §C The index -/

section Index

variable {sources : List String} {name : String}

theorem contains_ofSources : (ofSources sources).contains name = true ↔
    ∃ source ∈ sources, name ∈ references source.toList := by
  rw [ofSources, Names.contains_ofNames, List.mem_flatMap]

/-- **`RefersTo source name`** — somewhere in the source stands `tool:`, white space, and the name between two
quotes of one kind. -/
def RefersTo (source name : String) : Prop :=
  ∃ place quote rest, place <:+ source.toList ∧ Literal quote name.toList quote rest place

/-- **`contains_ofSources_iff`** — in the index are the names of the literals that the search finds, of
whichever kind each of their two quotes is. A name that a source refers to is that of a literal which is
found, or which is hidden by one. So where every literal that is found has two quotes of one kind, and a
name that does not end in `tool:` and white space, the index holds exactly the names that are referred
to. -/
theorem contains_ofSources_iff (sources : List String) (name : String) :
    ((ofSources sources).contains name = true ↔ ∃ source ∈ sources,
      ∃ place opening closing rest, Found source.toList place ∧
        Literal opening name.toList closing rest place) ∧
    (∀ source, RefersTo source name ↔ ∃ place quote rest,
      Literal quote name.toList quote rest place ∧
        (Found source.toList place ∨ Hidden source.toList place)) ∧
    ((∀ source ∈ sources, ∀ place opening found closing rest, Found source.toList place →
        Literal opening found closing rest place →
          opening = closing ∧ ∀ before gap, Blanks gap → found ≠ before ++ (toolKey ++ gap)) →
      ((ofSources sources).contains name = true ↔ ∃ source ∈ sources, RefersTo source name)) := by
  have hindex : (ofSources sources).contains name = true ↔ ∃ source ∈ sources,
      ∃ place opening closing rest, Found source.toList place ∧
        Literal opening name.toList closing rest place := by
    simp only [contains_ofSources, mem_references_iff]
  have hrefers : ∀ source, RefersTo source name ↔ ∃ place quote rest,
      Literal quote name.toList quote rest place ∧
        (Found source.toList place ∨ Hidden source.toList place) := by
    intro source
    constructor
    · rintro ⟨place, quote, rest, hs, hliteral⟩
      exact ⟨place, quote, rest, hliteral, found_or_hidden hs ⟨_, _, _, _, hliteral⟩⟩
    · rintro ⟨place, quote, rest, hliteral, hplace⟩
      exact ⟨place, quote, rest, hplace.elim Found.suffix Hidden.suffix, hliteral⟩
  refine ⟨hindex, hrefers, fun hplain => hindex.trans (exists_congr fun source => ?_)⟩
  refine and_congr_right fun hsource => ?_
  rw [hrefers]
  constructor
  · rintro ⟨place, opening, closing, rest, hfound, hliteral⟩
    obtain ⟨rfl, -⟩ := hplain source hsource place opening _ closing rest hfound hliteral
    exact ⟨place, opening, rest, hliteral, Or.inl hfound⟩
  · rintro ⟨place, quote, rest, hliteral, hfound | hhidden⟩
    · exact ⟨place, quote, quote, rest, hfound, hliteral⟩
    · obtain ⟨outer, opening, before, gap, closing, rest', houter, hgap, houterliteral, -⟩ := hhidden
      exact absurd rfl ((hplain source hsource outer _ _ _ _ houter houterliteral).2 before gap hgap)

/-- A quote of the other kind closes a name, and so a stray quote hides a reference behind it. -/
theorem other_quote_closes_name :
    ((ofSources ["tool: 'a\""]).contains "a" = true ∧ ¬ RefersTo "tool: 'a\"" "a") ∧
      RefersTo "run(tool: 'oops); run(tool: \"task.get\")" "task.get" ∧
      (ofSources ["run(tool: 'oops); run(tool: \"task.get\")"]).contains "task.get"
        = false := by
  have hblank : Blanks [' '] := by
    intro c hc
    obtain rfl := List.mem_singleton.mp hc
    decide
  refine ⟨⟨by decide +kernel, ?_⟩, ⟨"tool: \"task.get\")".toList, '"', ")".toList, ?_, ?_⟩,
    by decide +kernel⟩
  · -- No kind of quote occurs twice.
    rintro ⟨place, quote, rest, hs, hquote, -, -, gap, -, rfl⟩
    have hcount := hs.sublist.count_le quote
    have htwo : 2 ≤ (toolKey ++ gap ++ quote :: ("a".toList ++ quote :: rest)).count quote := by
      simp only [List.count_append, List.count_cons_self]
      omega
    rcases (by simpa [isQuote] using hquote : quote = '\'' ∨ quote = '"') with rfl | rfl
    · have hone : List.count '\'' "tool: 'a\"".toList = 1 := by decide
      omega
    · have hone : List.count '"' "tool: 'a\"".toList = 1 := by decide
      omega
  · exact ⟨"run(tool: 'oops); run(".toList, by decide⟩
  · exact ⟨by decide, ⟨by decide, forall_of_any_isQuote (by decide)⟩, by decide, [' '], hblank,
      by decide⟩

end Index

end Coverage

/-! ## §D Declared tools -/

namespace Coverage

variable {m : Manifest} {d : DeclaredTool} {ds : List DeclaredTool} {seen : List String}
  {index index' : Index}

theorem firstDeclarations_sublist : (firstDeclarations seen ds).Sublist ds := by
  induction ds generalizing seen with
  | nil => exact .slnil
  | cons d rest ih =>
      rw [firstDeclarations]
      split
      · exact ih.cons d
      · exact ih.cons_cons d

/-- **`mem_firstDeclarations_iff`** — kept is the first declaration of each name that was not seen. -/
theorem mem_firstDeclarations_iff : d ∈ firstDeclarations seen ds ↔
    d.name ∉ seen ∧ ds.find? (·.name = d.name) = some d := by
  induction ds generalizing seen with
  | nil => simp [firstDeclarations]
  | cons e rest ih =>
      rw [firstDeclarations]
      by_cases hname : e.name = d.name
      · rw [List.find?_cons_of_pos (by simpa using hname), Option.some.injEq, hname]
        split
        · rename_i hseen
          have hmem : d.name ∈ seen := List.contains_iff_mem.mp hseen
          rw [ih]
          exact ⟨fun h => absurd hmem h.1, fun h => absurd hmem h.1⟩
        · rename_i hseen
          have hmem : d.name ∉ seen := fun h => hseen (List.contains_iff_mem.mpr h)
          rw [List.mem_cons, ih]
          constructor
          · rintro (rfl | ⟨hnot, -⟩)
            · exact ⟨hmem, rfl⟩
            · exact absurd List.mem_cons_self hnot
          · rintro ⟨-, rfl⟩
            exact Or.inl rfl
      · rw [List.find?_cons_of_neg (by simpa using hname)]
        have hne : d ≠ e := fun h => hname (h ▸ rfl)
        split
        · exact ih
        · rw [List.mem_cons, ih, List.mem_cons]
          simp [hne, Ne.symm hname]

theorem nodup_firstDeclarations : ((firstDeclarations seen ds).map (·.name)).Nodup := by
  induction ds generalizing seen with
  | nil => exact List.nodup_nil
  | cons d rest ih =>
      rw [firstDeclarations]
      split
      · exact ih
      · refine List.nodup_cons.mpr ⟨fun hmem => ?_, ih⟩
        obtain ⟨d', hd', hname⟩ := List.mem_map.mp hmem
        exact (mem_firstDeclarations_iff.mp hd').1 (hname ▸ List.mem_cons_self)

theorem pairwise_untested (m : Manifest) (index : Index) :
    (untested m index).Pairwise DeclaredTool.Before :=
  m.pairwise_tools.sublist (firstDeclarations_sublist.trans List.filter_sublist)

/-- In a list in order, what is found first stands before all else that is looked for. -/
theorem find?_eq_some_iff_of_pairwise {p : DeclaredTool → Bool}
    (hds : ds.Pairwise DeclaredTool.Before) : ds.find? p = some d ↔
      d ∈ ds ∧ p d = true ∧ ∀ d' ∈ ds, p d' = true → d = d' ∨ d.Before d' := by
  induction ds with
  | nil => simp
  | cons e rest ih =>
      obtain ⟨he, hrest⟩ := List.pairwise_cons.mp hds
      by_cases hp : p e = true
      · rw [List.find?_cons_of_pos hp, Option.some.injEq]
        constructor
        · rintro rfl
          refine ⟨List.mem_cons_self, hp, fun d' hd' _ => ?_⟩
          exact (List.mem_cons.mp hd').imp Eq.symm (he d')
        · rintro ⟨hd, -, hfirst⟩
          rcases List.mem_cons.mp hd with rfl | hd
          · rfl
          · rcases hfirst e List.mem_cons_self hp with heq | hbefore
            · exact heq.symm
            · exact absurd hbefore (he d hd).asymm
      · rw [List.find?_cons_of_neg hp, ih hrest]
        have hne : ∀ x, p x = true → x ≠ e := by
          rintro x hx rfl
          exact hp hx
        constructor
        · rintro ⟨hd, hpd, hfirst⟩
          refine ⟨List.mem_cons_of_mem e hd, hpd, fun d' hd' hpd' => ?_⟩
          exact hfirst d' ((List.mem_cons.mp hd').resolve_left (hne d' hpd')) hpd'
        · rintro ⟨hd, hpd, hfirst⟩
          refine ⟨(List.mem_cons.mp hd).resolve_left (hne d hpd), hpd, fun d' hd' hpd' => ?_⟩
          exact hfirst d' (List.mem_cons_of_mem e hd') hpd'

/-- **`mem_untested_iff`** — reported are the tools whose name is not in the index, each at the first
section that declares it. -/
theorem mem_untested_iff : d ∈ untested m index ↔ d.DeclaredIn m ∧ index.contains d.name = false ∧
    ∀ d' : DeclaredTool, d'.DeclaredIn m → d'.name = d.name → d = d' ∨ d.kind.rank < d'.kind.rank := by
  have hsorted : (m.tools.filter fun d => !index.contains d.name).Pairwise DeclaredTool.Before :=
    m.pairwise_tools.sublist List.filter_sublist
  have hbefore : ∀ d', d'.name = d.name → (d.Before d' ↔ d.kind.rank < d'.kind.rank) := by
    intro d' hname
    refine ⟨fun h => h.resolve_right ?_, Or.inl⟩
    rintro ⟨-, hlt⟩
    exact String.lt_irrefl _ (hname ▸ hlt)
  simp only [untested, mem_firstDeclarations_iff, find?_eq_some_iff_of_pairwise hsorted,
    List.mem_filter, Manifest.mem_tools_iff_declaredIn, List.not_mem_nil, not_false_eq_true, true_and,
    Bool.not_eq_true', decide_eq_true_eq, and_assoc]
  refine and_congr_right fun _ => and_congr_right fun hnot => ?_
  constructor
  · intro h d' hd' hname
    exact (h d' ⟨hd', hname ▸ hnot⟩ hname).imp id (hbefore d' hname).mp
  · rintro h d' ⟨hd', -⟩ hname
    exact (h d' hd' hname).imp id (hbefore d' hname).mpr

/-- Each declared name that is not in the index is reported. -/
theorem exists_mem_untested_iff {name : String} : (∃ d ∈ untested m index, d.name = name) ↔
    m.toolNames.contains name = true ∧ index.contains name = false := by
  rw [Manifest.contains_toolNames_iff]
  constructor
  · rintro ⟨d, hd, rfl⟩
    obtain ⟨htool, hnot, -⟩ := mem_untested_iff.mp hd
    exact ⟨⟨d, htool, rfl⟩, hnot⟩
  · rintro ⟨⟨d, hd, rfl⟩, hnot⟩
    have htool : d ∈ m.tools := Manifest.mem_tools_iff_declaredIn.mpr hd
    have hsome : ((m.tools.filter fun d => !index.contains d.name).find?
        (·.name = d.name)).isSome = true :=
      List.find?_isSome.mpr ⟨d, List.mem_filter.mpr ⟨htool, by rw [hnot]; rfl⟩, decide_eq_true rfl⟩
    obtain ⟨first, hfirst⟩ := Option.isSome_iff_exists.mp hsome
    have hname : first.name = d.name := by simpa using List.find?_some hfirst
    exact ⟨first, mem_firstDeclarations_iff.mpr ⟨List.not_mem_nil, hname ▸ hfirst⟩, hname⟩

/-- Lists in order that have the same members are equal. -/
theorem eq_of_pairwise_before {ds ds' : List DeclaredTool} (h : ds.Pairwise DeclaredTool.Before)
    (h' : ds'.Pairwise DeclaredTool.Before) (hmem : ∀ d, d ∈ ds ↔ d ∈ ds') : ds = ds' := by
  have hne : ∀ {d d' : DeclaredTool}, d.Before d' → d ≠ d' := by
    rintro d _ hbefore rfl
    exact hbefore.irrefl
  have hperm : ds.Perm ds' :=
    (List.perm_ext_iff_of_nodup (h.imp hne) (h'.imp hne)).mpr hmem
  exact hperm.eq_of_pairwise (fun _ _ _ _ hab hba => absurd hba hab.asymm) h h'

/-- More names in the index take reports away and change no other. -/
theorem untested_eq_filter (h : ∀ name, index.contains name = true → index'.contains name = true) :
    untested m index' = (untested m index).filter fun d => !index'.contains d.name := by
  refine eq_of_pairwise_before (pairwise_untested m index') ((pairwise_untested m index).filter _) ?_
  intro d
  simp only [List.mem_filter, mem_untested_iff, Bool.not_eq_true']
  constructor
  · rintro ⟨hd, hnot, hfirst⟩
    refine ⟨⟨hd, ?_, hfirst⟩, hnot⟩
    rw [Bool.eq_false_iff]
    intro hin
    exact Bool.false_ne_true (hnot.symm.trans (h d.name hin))
  · rintro ⟨⟨hd, -, hfirst⟩, hnot⟩
    exact ⟨hd, hnot, hfirst⟩

theorem contains_ofSources_mono {sources sources' : List String} {name : String}
    (h : sources ⊆ sources') (hname : (ofSources sources).contains name = true) :
    (ofSources sources').contains name = true := by
  rw [contains_ofSources] at hname ⊢
  obtain ⟨source, hsource, hmem⟩ := hname
  exact ⟨source, h hsource, hmem⟩

theorem findings_sublist {sources sources' : List String} (h : sources ⊆ sources') (m : Manifest) :
    (findings m (ofSources sources')).Sublist (findings m (ofSources sources)) := by
  rw [findings, findings, untested_eq_filter fun name => contains_ofSources_mono h]
  exact List.filter_sublist.map finding

/-- **`untested_tools_reported`** — the declared names are those in the three sections. The coverage check
has one finding for each of them that is not in the index, at the first section that declares it, and the
findings are in the order of the sections and of the names in each. Sources in another order or given
several times change nothing, and with more sources some findings go away at most. -/
theorem untested_tools_reported (m : Manifest) (sources : List String) :
    m.ListsTools m.tools ∧
    (∀ name, m.toolNames.contains name = true ↔
      ∃ d : DeclaredTool, d.DeclaredIn m ∧ d.name = name) ∧
    (∃ reported : List DeclaredTool,
      findings m (ofSources sources) = reported.map (fun d =>
        .plain .missingCoverage (Pointer.ofKeys [d.kind.sectionKey, d.name])
          (d.kind.title ++ " '" ++ d.name ++ "' is not referenced by any test (tool: \"" ++ d.name
            ++ "\")")) ∧
      reported.Pairwise DeclaredTool.Before ∧ (reported.map (·.name)).Nodup ∧
      (∀ name, name ∈ reported.map (·.name) ↔
        m.toolNames.contains name = true ∧ (ofSources sources).contains name = false) ∧
      ∀ d ∈ reported, d.DeclaredIn m ∧ ∀ d' : DeclaredTool, d'.DeclaredIn m → d'.name = d.name →
        d = d' ∨ d.kind.rank < d'.kind.rank) ∧
    (∀ sources' : List String, (∀ source, source ∈ sources' ↔ source ∈ sources) →
      findings m (ofSources sources') = findings m (ofSources sources)) ∧
    ∀ sources', sources ⊆ sources' →
      (findings m (ofSources sources')).Sublist (findings m (ofSources sources)) := by
  refine ⟨m.listsTools, fun _ => Manifest.contains_toolNames_iff,
    ⟨untested m (ofSources sources), rfl, pairwise_untested m _, nodup_firstDeclarations,
      fun name => ?_, fun d hd => ?_⟩,
    fun sources' hsame => ?_, fun sources' h => findings_sublist h m⟩
  · rw [List.mem_map]
    exact exists_mem_untested_iff
  · obtain ⟨htool, -, hfirst⟩ := mem_untested_iff.mp hd
    exact ⟨htool, hfirst⟩
  · have hsub := findings_sublist (fun source h => (hsame source).mpr h) m
    exact hsub.antisymm (findings_sublist (fun source h => (hsame source).mp h) m)

/-- Tools in all sections, of which two have one name. -/
def twiceDeclared : Manifest :=
  { Manifest.empty with
    operations := ⟨[("task.get", ⟨none, none⟩), ("task.list", ⟨none, none⟩)], by decide⟩
    utilities := ⟨[("task.get", ⟨none, none⟩), ("time.now", ⟨none, none⟩)], by decide⟩
    actions := ⟨[("task.drop", ⟨none, none⟩)], by decide⟩ }

/-- A name that two sections declare is reported at the first of them only. -/
theorem untested_tools_reported_twiceDeclared :
    let found := findings twiceDeclared (ofSources ["tool: 'task.list'"])
    found.map (·.pointer) = ["/operations/task.get", "/utilities/time.now", "/actions/task.drop"] ∧
      (⟨.utility, "task.get", ⟨none, none⟩⟩ : DeclaredTool) ∈ twiceDeclared.tools ∧
      ∀ f ∈ found, f.pointer ≠ "/utilities/task.get" := by
  intro found
  obtain ⟨hlists, -, ⟨reported, hfound, -, -, -, hfirst⟩, -⟩ :=
    untested_tools_reported twiceDeclared ["tool: 'task.list'"]
  refine ⟨by decide +kernel, (hlists.declared _).mpr (.utility rfl), fun f hf hpointer => ?_⟩
  rw [show found = _ from hfound] at hf
  obtain ⟨d, hd, rfl⟩ := List.mem_map.mp hf
  have hplace : Pointer.ofKeys [d.kind.sectionKey, d.name] = Pointer.ofKeys ["utilities", "task.get"] :=
    hpointer
  obtain ⟨hkind, hname⟩ : d.kind.sectionKey = "utilities" ∧ d.name = "task.get" := by
    simpa using Pointer.ofKeys_inj.mp hplace
  -- The operation of this name is declared in an earlier section.
  rcases (hfirst d hd).2 ⟨.operation, "task.get", ⟨none, none⟩⟩ (.operation rfl) hname.symm
    with rfl | hlt
  · exact absurd hkind (by decide)
  · exact Nat.not_lt_zero _ hlt

end Coverage

end PluginVet
