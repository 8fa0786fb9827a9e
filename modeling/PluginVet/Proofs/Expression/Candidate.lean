/-
# PluginVet.Proofs.Expression.Candidate — no expression of a mapping block goes unread

`Leads v keys source` says that `keys` lead from a mapping value through nested objects to the
expression `source`. The walk through a value lists what is led to, in the order of the keys and each
expression once (`mem_ways_iff`, `pairwise_ways`), and writes the keys into the pointer
(`expressions_eq`).

The walk leaves out a text that shows no marker. Each rule needs one: a quoted literal an apostrophe, a
ternary a question mark, an iteration its brackets. So a text that is left out breaks no rule
(`violations_of_not_isCandidate`), and the findings of a block are those of all its expressions
(`lintMapping_eq`).

§A ways through a value, §B markers, §C blocks.
-/
import PluginVet.Expression.Candidate
import PluginVet.Proofs.Expression.Iteration
import PluginVet.Proofs.Expression.Quoting
import PluginVet.Proofs.Expression.Ternary
import PluginVet.Proofs.Keyed

namespace PluginVet

namespace MappingValue

/-! ## §A Ways through a value -/

/-- **`Leads v keys source`** — the keys lead from the value to the expression `source`. -/
inductive Leads : MappingValue → List String → String → Prop
  | here {source : String} : Leads (.expression source) [] source
  | inside {fields : List (String × MappingValue)} {key : String} {value : MappingValue}
      {keys : List String} {source : String} :
      (key, value) ∈ fields → Leads value keys source → Leads (.reference fields) (key :: keys) source

mutual

/-- **`Ordered v`** — the keys of the object are strictly increasing, and so at every depth. -/
def Ordered : MappingValue → Prop
  | .reference fields => Keyed.Sorted fields ∧ OrderedFields fields
  | _ => True

def OrderedFields : List (String × MappingValue) → Prop
  | [] => True
  | (_, value) :: rest => value.Ordered ∧ OrderedFields rest

end

mutual

/-- The expressions below a value, each with the keys that lead to it. -/
def ways : MappingValue → List (List String × String)
  | .expression source => [([], source)]
  | .reference fields => waysIn fields
  | .literal _ => []

def waysIn : List (String × MappingValue) → List (List String × String)
  | [] => []
  | (key, value) :: rest => value.ways.map (fun way => (key :: way.1, way.2)) ++ waysIn rest

end

mutual

theorem mem_ways_iff {keys : List String} {source : String} :
    ∀ v : MappingValue, (keys, source) ∈ v.ways ↔ v.Leads keys source
  | .expression s => by
      rw [ways, List.mem_singleton, Prod.mk.injEq]
      constructor
      · rintro ⟨rfl, rfl⟩
        exact .here
      · intro h
        cases h with
        | here => exact ⟨rfl, rfl⟩
  | .literal v => by
      rw [ways]
      exact ⟨fun h => absurd h List.not_mem_nil, fun h => nomatch h⟩
  | .reference fields => by
      rw [ways, mem_waysIn_iff fields]
      constructor
      · rintro ⟨key, value, keys', rfl, hmem, hleads⟩
        exact .inside hmem hleads
      · intro h
        cases h with
        | inside hmem hleads => exact ⟨_, _, _, rfl, hmem, hleads⟩

theorem mem_waysIn_iff {keys : List String} {source : String} :
    ∀ fields : List (String × MappingValue), (keys, source) ∈ waysIn fields ↔
      ∃ key value keys', keys = key :: keys' ∧ (key, value) ∈ fields ∧ value.Leads keys' source
  | [] => by simp [waysIn]
  | (key, value) :: rest => by
      rw [waysIn, List.mem_append, mem_waysIn_iff rest, List.mem_map]
      constructor
      · rintro (⟨⟨keys', s⟩, hway, heq⟩ | ⟨k, v, keys', rfl, hmem, hleads⟩)
        · obtain ⟨rfl, rfl⟩ := Prod.mk.inj heq
          exact ⟨key, value, keys', rfl, List.mem_cons_self, (mem_ways_iff value).mp hway⟩
        · exact ⟨k, v, keys', rfl, List.mem_cons_of_mem _ hmem, hleads⟩
      · rintro ⟨k, v, keys', rfl, hmem, hleads⟩
        rcases List.mem_cons.mp hmem with heq | hmem
        · obtain ⟨rfl, rfl⟩ := Prod.mk.inj heq
          exact Or.inl ⟨(keys', source), (mem_ways_iff v).mpr hleads, rfl⟩
        · exact Or.inr ⟨k, v, keys', rfl, hmem, hleads⟩

end

mutual

/-- **`pairwise_ways`** — the ways through an ordered value are listed in the order of their keys. -/
theorem pairwise_ways : ∀ v : MappingValue, v.Ordered → v.ways.Pairwise (fun a b => a.1 < b.1)
  | .expression _, _ => List.pairwise_singleton _ _
  | .literal _, _ => List.Pairwise.nil
  | .reference fields, h => pairwise_waysIn fields h.1 h.2

theorem pairwise_waysIn : ∀ fields : List (String × MappingValue), Keyed.Sorted fields →
    OrderedFields fields → (waysIn fields).Pairwise (fun a b => a.1 < b.1)
  | [], _, _ => List.Pairwise.nil
  | (key, value) :: rest, hsorted, hordered => by
      rw [waysIn, List.pairwise_append, List.pairwise_map]
      refine ⟨?_, pairwise_waysIn rest hsorted.tail hordered.2, ?_⟩
      · refine (pairwise_ways value hordered.1).imp fun {a b} hab => ?_
        exact List.cons_lt_cons_iff.mpr (Or.inr ⟨rfl, hab⟩)
      · intro a ha ⟨keys, source⟩ hb
        obtain ⟨way, -, rfl⟩ := List.mem_map.mp ha
        obtain ⟨key', value', keys', rfl, hmem, -⟩ := (mem_waysIn_iff rest).mp hb
        exact List.cons_lt_cons_iff.mpr (Or.inl (hsorted.lt_of_mem hmem))

end

end MappingValue

namespace Expression

variable {s : List Char}

/-! ## §B Markers -/

theorem IsLiteral.apostrophe_mem {l : List Char} (h : IsLiteral l) : '\'' ∈ l := by
  obtain ⟨cs, rfl⟩ := h.exists_cons
  exact List.mem_cons_self

/-- Each of the four shapes holds a literal. -/
theorem QuotedShape.apostrophe_mem {f : List Char} (h : QuotedShape f) : '\'' ∈ f := by
  cases h with
  | comparedBehind _ literal => exact List.mem_append_right _ literal.apostrophe_mem
  | comparedBefore literal _ =>
      exact List.mem_append_left _ (List.mem_append_left _ literal.apostrophe_mem)
  | questioned literal _ =>
      exact List.mem_append_left _ (List.mem_append_left _ literal.apostrophe_mem)
  | labelled _ literal => exact List.mem_append_right _ literal.apostrophe_mem

theorem apostrophe_mem_of_quotedFragment? {fragment : List Char}
    (h : quotedFragment? s = some fragment) : '\'' ∈ s := by
  obtain ⟨pre, post, rfl, hshape, -⟩ := quotedFragment?_eq_some_iff.mp h
  exact List.mem_append_left _ (List.mem_append_right _ hshape.apostrophe_mem)

theorem question_mem_of_hasTernary (h : hasTernary s = true) : '?' ∈ s := by
  obtain ⟨⟨pre, blanks, quote, post, -, -, rfl⟩, -⟩ := hasTernary_iff.mp h
  exact List.mem_append_right _ List.mem_cons_self

theorem brackets_infix_of_unguarded? {c : Collection} (h : unguarded? s = some c) :
    ['[', ']'] <:+: s := by
  obtain ⟨⟨rest, hs, ⟨post, rfl, -⟩, -⟩, -⟩ := unguarded?_eq_some_iff.mp h
  refine List.IsInfix.trans ⟨'.' :: c.name.toList, post, ?_⟩ hs.isInfix
  simp [iterationText]

/-- A text that is no candidate shows none of the markers. -/
theorem not_infix_of_not_isCandidate {source : String} (h : isCandidate source = false)
    {marker : List Char} (hmarker : marker ∈ markers) : ¬ marker <:+: source.toList := by
  intro hinfix
  have hany : isCandidate source = true :=
    List.any_eq_true.mpr ⟨marker, hmarker, Text.occursIn_iff.mpr hinfix⟩
  rw [h] at hany
  cases hany

/-- **`violations_of_not_isCandidate`** — a text without markers breaks no rule. -/
theorem violations_of_not_isCandidate {source : String} (h : isCandidate source = false) :
    violations source = [] := by
  have habsent : ∀ c : Char, [c] ∈ markers → c ∉ source.toList := fun c hc hmem =>
    not_infix_of_not_isCandidate h hc ((List.singleton_infix_iff c _).mpr hmem)
  have hquoting : quotedFragment? source.toList = none := by
    cases hq : quotedFragment? source.toList with
    | none => rfl
    | some fragment =>
        exact absurd (apostrophe_mem_of_quotedFragment? hq) (habsent _ (by decide))
  have hternary : hasTernary source.toList = false := by
    cases ht : hasTernary source.toList with
    | false => rfl
    | true => exact absurd (question_mem_of_hasTernary ht) (habsent _ (by decide))
  have hiteration : unguarded? source.toList = none := by
    cases hu : unguarded? source.toList with
    | none => rfl
    | some c =>
        exact absurd (brackets_infix_of_unguarded? hu)
          (not_infix_of_not_isCandidate h (by decide))
  simp [violations, hquoting, hternary, hiteration]

theorem lint_of_not_isCandidate {source : String} (h : isCandidate source = false)
    (pointer : Pointer) : lint pointer source = [] := by
  rw [lint, violations_of_not_isCandidate h]
  rfl

/-! ## §C Blocks -/

mutual

/-- The walk lists the ways through a value and writes their keys behind the value's pointer. -/
theorem expressions_eq : ∀ (v : MappingValue) (pointer : Pointer),
    expressions pointer v = v.ways.map fun way => (way.1.foldl Pointer.child pointer, way.2)
  | .expression _, _ => rfl
  | .literal _, _ => rfl
  | .reference fields, pointer => expressionsIn_eq fields pointer

theorem expressionsIn_eq : ∀ (fields : List (String × MappingValue)) (parent : Pointer),
    expressionsIn parent fields
      = (MappingValue.waysIn fields).map fun way => (way.1.foldl Pointer.child parent, way.2)
  | [], _ => rfl
  | (key, value) :: rest, parent => by
      rw [expressionsIn, MappingValue.waysIn, expressions_eq value, expressionsIn_eq rest,
        List.map_append, List.map_map]
      rfl

end

/-- Leaving out what is no candidate leaves out no finding. -/
theorem lintMapping_eq (parent : Pointer) (entries : Keyed MappingValue) :
    lintMapping parent entries = (MappingValue.waysIn entries).flatMap
      fun way => lint (way.1.foldl Pointer.child parent) way.2 := by
  have hfilter : ∀ xs : List (Pointer × String),
      (xs.filter fun e => isCandidate e.2).flatMap (fun e => lint e.1 e.2)
        = xs.flatMap fun e => lint e.1 e.2 := by
    intro xs
    induction xs with
    | nil => rfl
    | cons e rest ih =>
        rw [List.filter_cons, List.flatMap_cons]
        split
        · rw [List.flatMap_cons, ih]
        · rename_i hplain
          rw [ih, lint_of_not_isCandidate (Bool.not_eq_true _ ▸ hplain), List.nil_append]
  rw [lintMapping, candidates, hfilter, expressionsIn_eq, List.flatMap_map]

/-- A finding of a block is one about an expression that the block leads to. -/
theorem exists_leads_of_mem_lintMapping {parent : Pointer} {entries : Keyed MappingValue}
    {f : LintFinding} (h : f ∈ lintMapping parent entries) :
    ∃ keys, (MappingValue.reference entries).Leads keys f.source ∧
      f.pointer = keys.foldl Pointer.child parent := by
  rw [lintMapping_eq] at h
  obtain ⟨⟨keys, source⟩, hway, hf⟩ := List.mem_flatMap.mp h
  obtain ⟨violation, -, rfl⟩ := List.mem_map.mp hf
  exact ⟨keys, (MappingValue.mem_ways_iff (.reference entries)).mp hway, rfl⟩

/-- **`every_expression_linted`** — the findings of a block are those of all expressions that keys
lead to through nested objects, looked at in the order of these keys, each once, and at the pointer that
the keys spell below the pointer of the block. An expression that is not looked at further because it
shows no marker would have had no finding. -/
theorem every_expression_linted (parent : Pointer) (entries : Keyed MappingValue)
    (h : (MappingValue.reference entries).Ordered) :
    (∃ ways : List (List String × String),
      lintMapping parent entries
        = ways.flatMap (fun way => lint (way.1.foldl Pointer.child parent) way.2) ∧
      (∀ keys source, (keys, source) ∈ ways ↔
        (MappingValue.reference entries).Leads keys source) ∧
      ways.Pairwise (fun a b => a.1 < b.1)) ∧
    ∀ source, isCandidate source = false → ∀ pointer, lint pointer source = [] := by
  refine ⟨⟨MappingValue.waysIn entries, lintMapping_eq parent entries, fun keys source => ?_, ?_⟩,
    fun source hplain pointer => lint_of_not_isCandidate hplain pointer⟩
  · exact MappingValue.mem_ways_iff (.reference entries)
  · exact MappingValue.pairwise_ways (.reference entries) h

/-- An entry that describes a person, beside a plain one. -/
def nestedEntries : Keyed MappingValue :=
  [("assignee", .reference [("person", .reference
      [("id", .expression ".assignee.id"), ("name", .expression ".assignee.name == 'x'")])]),
    ("id", .expression ".id")]

/-- The expressions of a block with a nested object are linted one by one. -/
theorem every_expression_linted_nested : (MappingValue.reference nestedEntries).Ordered ∧
    ∃ ways : List (List String × String),
      lintMapping "/mappings/task" nestedEntries
        = ways.flatMap (fun way => lint (way.1.foldl Pointer.child "/mappings/task") way.2) ∧
      (∀ keys source, (keys, source) ∈ ways ↔
        (MappingValue.reference nestedEntries).Leads keys source) ∧
      ways.Pairwise (fun a b => a.1 < b.1) := by
  have houter : ["assignee", "id"].Pairwise (· < ·) := by decide
  have hperson : ["person"].Pairwise (· < ·) := by decide
  have hinner : ["id", "name"].Pairwise (· < ·) := by decide
  have hordered : (MappingValue.reference nestedEntries).Ordered :=
    ⟨houter, ⟨hperson, ⟨hinner, trivial, trivial, trivial⟩, trivial⟩, trivial, trivial⟩
  exact ⟨hordered, (every_expression_linted "/mappings/task" nestedEntries hordered).1⟩

end Expression

end PluginVet
