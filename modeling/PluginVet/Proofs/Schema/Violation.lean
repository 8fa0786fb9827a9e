/-
# PluginVet.Proofs.Schema.Violation — the fields of a manifest are violated one by one

The violations of a manifest are listed in strictly increasing order, so none is reported twice
(`Compiled.pairwise_violations`). What is in the list is read off the schema: a missing field that is
required, a manifest without tools, and for each field what its value violates by itself
(`fields_violated_apart`). As breaches lie at the same ways below every place, the value of a field
decides only about the violations below that field, unless the field declares tools.

§A order, §B what is listed, §C the fields of a manifest.
-/
import PluginVet.Proofs.Keyed
import PluginVet.Proofs.Schema.Check
import PluginVet.Proofs.Schema.Place
import PluginVet.Schema.Violation

namespace PluginVet.Schema

/-! ## §A Order -/

namespace Violation

variable {a b c x : Violation} {vs : List Violation}

/-- **`Before a b`** — `a` has the smaller path, or the same path and the smaller message. -/
def Before (a b : Violation) : Prop :=
  a.path < b.path ∨ a.path = b.path ∧ a.message < b.message

theorem Before.irrefl : ¬ a.Before a := by
  rintro (h | ⟨-, h⟩)
  · exact String.lt_irrefl _ h
  · exact String.lt_irrefl _ h

theorem Before.trans (hab : a.Before b) (hbc : b.Before c) : a.Before c := by
  rcases hab with hab | ⟨hab, hab'⟩ <;> rcases hbc with hbc | ⟨hbc, hbc'⟩
  · exact Or.inl (String.lt_trans hab hbc)
  · exact Or.inl (hbc ▸ hab)
  · exact Or.inl (hab ▸ hbc)
  · exact Or.inr ⟨hab.trans hbc, String.lt_trans hab' hbc'⟩

/-- Of two texts that are different one is smaller. -/
theorem lt_or_lt_of_ne {s t : String} (h : s ≠ t) : s < t ∨ t < s := by
  by_contra hnone
  obtain ⟨hst, hts⟩ := not_or.mp hnone
  exact h (String.le_antisymm (String.not_lt.mp hts) (String.not_lt.mp hst))

theorem before_or_before_of_ne (h : a ≠ b) : a.Before b ∨ b.Before a := by
  by_cases hpath : a.path = b.path
  · have hmessage : a.message ≠ b.message := fun hm => h (congr (congrArg mk hpath) hm)
    exact (lt_or_lt_of_ne hmessage).imp (fun hlt => Or.inr ⟨hpath, hlt⟩)
      fun hlt => Or.inr ⟨hpath.symm, hlt⟩
  · exact (lt_or_lt_of_ne hpath).imp Or.inl Or.inl

theorem le_iff : le a b = true ↔ ¬ b.Before a := by
  simp only [le, Before, Bool.or_eq_true, Bool.and_eq_true, decide_eq_true_eq, not_or, not_and,
    String.not_lt]
  constructor
  · rintro (hlt | ⟨hpath, hmessage⟩)
    · exact ⟨String.not_lt.mp fun h => String.lt_irrefl _ (String.lt_trans hlt h),
        fun hpath => absurd (hpath ▸ hlt) (String.lt_irrefl _)⟩
    · exact ⟨hpath ▸ String.le_refl _, fun _ => hmessage⟩
  · rintro ⟨hle, hmessage⟩
    by_cases hpath : a.path = b.path
    · exact Or.inr ⟨hpath, hmessage hpath.symm⟩
    · exact Or.inl ((lt_or_lt_of_ne hpath).resolve_right (String.not_lt.mpr hle))

theorem le_total (a b : Violation) : (le a b || le b a) = true := by
  rw [Bool.or_eq_true, le_iff, le_iff]
  by_contra hnone
  obtain ⟨hba, hab⟩ := not_or.mp hnone
  exact Before.irrefl ((not_not.mp hab).trans (not_not.mp hba))

theorem le_trans (hab : le a b = true) (hbc : le b c = true) : le a c = true := by
  rw [le_iff] at hab hbc ⊢
  intro hca
  by_cases h : a = b
  · exact hbc (h ▸ hca)
  · exact hbc (hca.trans ((before_or_before_of_ne h).resolve_right hab))

end Violation

variable {vs : List Violation} {x : Violation}

theorem mem_dropRepeats : x ∈ dropRepeats vs ↔ x ∈ vs := by
  fun_induction dropRepeats vs with
  | case1 => exact Iff.rfl
  | case2 v => exact Iff.rfl
  | case3 v rest ih => simp [ih]
  | case4 v w rest hne ih => rw [List.mem_cons, ih, ← List.mem_cons]

/-- Of a list in order each violation is kept once. -/
theorem pairwise_dropRepeats (h : vs.Pairwise fun a b => Violation.le a b = true) :
    (dropRepeats vs).Pairwise Violation.Before := by
  fun_induction dropRepeats vs with
  | case1 => exact .nil
  | case2 v => exact List.pairwise_singleton _ v
  | case3 v rest ih => exact ih h.tail
  | case4 v w rest hne ih =>
      obtain ⟨hv, hrest⟩ := List.pairwise_cons.mp h
      refine List.pairwise_cons.mpr ⟨fun x hx => ?_, ih hrest⟩
      have hx : x ∈ w :: rest := mem_dropRepeats.mp hx
      have hvx := Violation.le_iff.mp (hv x hx)
      -- The neighbour is different, so what comes behind it is no repetition either.
      have hne' : v ≠ x := by
        rintro rfl
        rcases List.mem_cons.mp hx with rfl | hx
        · exact hne rfl
        · have hwv := Violation.le_iff.mp ((List.pairwise_cons.mp hrest).1 v hx)
          have hvw := Violation.le_iff.mp (hv w List.mem_cons_self)
          exact (Violation.before_or_before_of_ne hne).elim hwv hvw
      exact (Violation.before_or_before_of_ne hne').resolve_right hvx

/-! ## §B What is listed -/

section Listed

variable {c : Compiled} {v : Json}

/-- **`Compiled.mem_violations_iff`** — listed are the breaches of the schema, and of an object that it
declares no tool. -/
theorem Compiled.mem_violations_iff : x ∈ c.violations v ↔
    (∃ b ∈ c.breaches v, x = .ofLocated b) ∨
      ∃ fields, v = .object fields ∧ declaresTool fields = false ∧ x = noToolViolation := by
  have hbroken : x ∈ (c.breaches v).map .ofLocated ↔ ∃ b ∈ c.breaches v, x = .ofLocated b :=
    List.mem_map.trans (exists_congr fun b => and_congr_right fun _ => eq_comm)
  unfold violations
  rw [mem_dropRepeats, List.mem_mergeSort]
  split
  · rename_i fields
    cases hdeclares : declaresTool fields <;> simp [hbroken, hdeclares]
  · rename_i hother
    rw [hbroken]
    refine ⟨Or.inl, fun h => h.resolve_right ?_⟩
    rintro ⟨fields, hv, -⟩
    exact hother fields hv

/-- **`Compiled.pairwise_violations`** — the list is strictly increasing. -/
theorem Compiled.pairwise_violations (c : Compiled) (v : Json) :
    (c.violations v).Pairwise Violation.Before := by
  have hsorted := @List.pairwise_mergeSort _ Violation.le
    (fun _ _ _ => Violation.le_trans) Violation.le_total
  unfold violations
  exact pairwise_dropRepeats (hsorted _)

/-- Nothing is violated where nothing is broken and an object declares a tool. -/
theorem Compiled.violations_eq_nil_iff : c.violations v = [] ↔
    c.breaches v = [] ∧ ∀ fields, v = .object fields → declaresTool fields = true := by
  simp only [List.eq_nil_iff_forall_not_mem, mem_violations_iff, not_or, not_exists, not_and]
  constructor
  · intro h
    refine ⟨fun b hb => (h _).1 b hb rfl, fun fields hv => ?_⟩
    by_contra hdeclares
    exact (h _).2 fields hv (Bool.not_eq_true _ ▸ hdeclares) rfl
  · rintro ⟨hbroken, hdeclares⟩ x
    refine ⟨fun b hb => absurd hb (hbroken b), fun fields hv hnone => ?_⟩
    rw [hdeclares fields hv] at hnone
    cases hnone

end Listed

/-! ## §C The fields of a manifest -/

/-- No reference demands anything. -/
def Referent.nowhere : Referent := fun _ _ _ => []

theorem Referent.relative_nowhere : nowhere.Relative := fun _ _ => .nil

/-- The schema of manifests has no references. -/
theorem breaches_in_plugin (s : Schema) (v : Json) :
    Compiled.breaches ⟨s, plugin.scope⟩ v = breaches .nowhere "" v s := by
  have hrefer : ∀ fuel, Scope.refer (fun name => plugin.scope.lookup name) fuel = .nowhere := by
    intro fuel
    cases fuel with
    | zero => rfl
    | succ fuel => rfl
  rw [Compiled.breaches, hrefer]

/-- The fields that every manifest has. -/
def requiredFields : List String := ["id", "name", "tags"]

def missingField (key : String) : Violation :=
  ⟨"/", Json.quoted key ++ " is a required property"⟩

/-- None of the sections is an object with a field in it. -/
def DeclaresNoTool (fields : List (String × Json)) : Prop :=
  ∀ key ∈ toolSections, ∀ tool tools, Keyed.get? fields key ≠ some (.object (tool :: tools))

theorem declaresTool_eq_false_iff {fields : List (String × Json)} :
    declaresTool fields = false ↔ DeclaresNoTool fields := by
  rw [declaresTool, List.any_eq_false]
  refine forall₂_congr fun key _ => ?_
  constructor
  · rintro h tool tools hget
    rw [hget] at h
    exact h rfl
  · intro h
    split
    · rename_i tool tools hget
      exact absurd hget (h tool tools)
    · exact Bool.false_ne_true

/-- **`InField fields key x`** — `x` is a violation of the value at `key`, taken alone, against the schema of
this field, with the field put in front of its pointer. -/
def InField (fields : List (String × Json)) (key : String) (x : Violation) : Prop :=
  ∃ item s b, Keyed.get? fields key = some item ∧ Keyed.get? Plugin.fields key = some s ∧
    b ∈ Compiled.breaches ⟨s, plugin.scope⟩ item ∧ x = ⟨"/" ++ key ++ b.pointer, b.breach.message⟩

/-- The path of a violation leads into a field. -/
def Violation.IsUnder (x : Violation) (key : String) : Prop :=
  ∃ keys, x.path = Pointer.ofKeys (key :: keys)

variable {fields : List (String × Json)} {key : String}

theorem sorted_fields : Keyed.Sorted Plugin.fields := by
  show (["actions", "adapters", "auth", "description", "icon", "id", "mappings", "name",
    "operations", "platforms", "tags", "utilities", "website"] : List String).Pairwise (· < ·)
  decide

/-- No key of a manifest is escaped. -/
theorem child_of_field {s : Schema} (h : Keyed.get? Plugin.fields key = some s) :
    Pointer.child "" key = "/" ++ key := by
  have hall : ∀ k ∈ Plugin.fields.map Prod.fst, Pointer.child "" k = "/" ++ k := by
    simp only [Plugin.fields, List.map_cons, List.map_nil, List.forall_mem_cons]
    decide
  exact hall key (List.mem_map_of_mem (Keyed.mem_of_get? h))

theorem ofLocated_inside {inner : Pointer} {breach : Breach} :
    Violation.ofLocated ⟨"/" ++ key ++ inner, breach⟩ = ⟨"/" ++ key ++ inner, breach.message⟩ := by
  rw [Violation.ofLocated, Violation.showPointer, if_neg]
  simp

/-- What the schema of manifests finds in an object: a required field is missing, or the value of a field
breaks the schema of the field. -/
theorem mem_breaches_plugin {b : Located} : b ∈ plugin.breaches (.object fields) ↔
    (∃ key ∈ requiredFields, Keyed.get? fields key = none ∧ b = ⟨"", .required key⟩) ∨
      ∃ key s item, Keyed.get? Plugin.fields key = some s ∧ Keyed.get? fields key = some item ∧
        ∃ b' ∈ Compiled.breaches ⟨s, plugin.scope⟩ item,
          b = ⟨"/" ++ key ++ b'.pointer, b'.breach⟩ := by
  have hmissing : b ∈ constraintBreaches .nowhere "" (.object fields) (.required requiredFields) ↔
      ∃ key ∈ requiredFields, Keyed.get? fields key = none ∧ b = ⟨"", .required key⟩ := by
    rw [required_eq, List.mem_map]
    simp only [List.mem_filter, Bool.not_eq_true', Keyed.contains, Option.isSome_eq_false_iff,
      Option.isNone_iff_eq_none, and_assoc]
    exact exists_congr fun key => and_congr_right fun _ => and_congr_right fun _ => eq_comm
  have hfield : b ∈ constraintBreaches .nowhere "" (.object fields) (.properties Plugin.fields) ↔
      ∃ key s item, Keyed.get? Plugin.fields key = some s ∧ Keyed.get? fields key = some item ∧
        ∃ b' ∈ Compiled.breaches ⟨s, plugin.scope⟩ item,
          b = ⟨"/" ++ key ++ b'.pointer, b'.breach⟩ := by
    rw [constraintBreaches, mem_fieldBreaches_iff]
    constructor
    · rintro ⟨⟨key, s⟩, hs, item, hitem, hb⟩
      have hs := (Keyed.get?_eq_some_iff sorted_fields).mpr hs
      rw [child_of_field hs, breaches_at Referent.relative_nowhere] at hb
      obtain ⟨b', hb', rfl⟩ := List.mem_map.mp hb
      exact ⟨key, s, item, hs, hitem, b', breaches_in_plugin s item ▸ hb', rfl⟩
    · rintro ⟨key, s, item, hs, hitem, b', hb', rfl⟩
      refine ⟨(key, s), Keyed.mem_of_get? hs, item, hitem, ?_⟩
      rw [child_of_field hs, breaches_at Referent.relative_nowhere]
      exact List.mem_map.mpr ⟨b', breaches_in_plugin s item ▸ hb', rfl⟩
  have hkind : constraintBreaches .nowhere "" (.object fields) (.kinds true [.object]) = [] := rfl
  have hall : plugin.breaches (.object fields)
      = constraintBreaches .nowhere "" (.object fields) (.properties Plugin.fields)
        ++ (constraintBreaches .nowhere "" (.object fields) (.required requiredFields)
          ++ (constraintBreaches .nowhere "" (.object fields) (.kinds true [.object]) ++ [])) :=
    breaches_in_plugin Plugin.manifest _
  rw [hall, hkind, List.mem_append, List.mem_append, hfield, hmissing]
  simp [or_comm]

/-- A violation in a field has a path into this field. -/
theorem InField.isUnder {x : Violation} (h : InField fields key x) : x.IsUnder key := by
  obtain ⟨item, s, b, -, hs, hb, rfl⟩ := h
  rw [breaches_in_plugin] at hb
  obtain ⟨keys, hkeys⟩ := exists_keys_of_mem_breaches Referent.relative_nowhere hb
  refine ⟨keys, ?_⟩
  have hplace := foldl_child_append ("/" ++ key) "" keys
  rw [String.append_empty] at hplace
  show "/" ++ key ++ b.pointer = _
  rw [hkeys, Pointer.ofKeys, Pointer.ofKeys, List.foldl_cons, child_of_field hs, hplace]

theorem mem_violations_plugin {x : Violation} : x ∈ plugin.violations (.object fields) ↔
    (∃ key ∈ requiredFields, Keyed.get? fields key = none ∧ x = missingField key) ∨
      (DeclaresNoTool fields ∧ x = noToolViolation) ∨ ∃ key, InField fields key x := by
  rw [Compiled.mem_violations_iff]
  constructor
  · rintro (⟨b, hb, rfl⟩ | ⟨fields', hfields, hnone, rfl⟩)
    · rcases mem_breaches_plugin.mp hb with ⟨key, hkey, hget, rfl⟩ | ⟨key, s, item, hs, hitem, b', hb', rfl⟩
      · exact Or.inl ⟨key, hkey, hget, rfl⟩
      · exact Or.inr (Or.inr ⟨key, item, s, b', hitem, hs, hb', ofLocated_inside⟩)
    · obtain rfl := Json.object.inj hfields
      exact Or.inr (Or.inl ⟨declaresTool_eq_false_iff.mp hnone, rfl⟩)
  · rintro (⟨key, hkey, hget, rfl⟩ | ⟨hnone, rfl⟩ | ⟨key, item, s, b, hitem, hs, hb, rfl⟩)
    · exact Or.inl ⟨_, mem_breaches_plugin.mpr (Or.inl ⟨key, hkey, hget, rfl⟩), rfl⟩
    · exact Or.inr ⟨fields, rfl, declaresTool_eq_false_iff.mpr hnone, rfl⟩
    · exact Or.inl ⟨_, mem_breaches_plugin.mpr (Or.inr ⟨key, s, item, hs, hitem, b, hb, rfl⟩),
        ofLocated_inside.symm⟩

/-- **`fields_violated_apart`** — the violations of an object are in strictly increasing order: those of
the required fields that are missing, one if none of the tool sections is an object with a field in it,
and for each field the violations of its value alone, with the field in front of their pointers. Another
value of a field that is no tool section changes nothing outside this field. -/
theorem fields_violated_apart (fields : List (String × Json)) :
    let found := plugin.violations (.object fields)
    found.Pairwise Violation.Before ∧
      (∀ x, x ∈ found ↔
        (∃ key ∈ requiredFields, Keyed.get? fields key = none ∧ x = missingField key) ∨
          (DeclaresNoTool fields ∧ x = noToolViolation) ∨ ∃ key, InField fields key x) ∧
      ∀ key, key ∉ toolSections → Keyed.contains fields key = true → ∀ (value : Json) x,
        ¬ x.IsUnder key →
          (x ∈ plugin.violations (.object (Keyed.insert fields key value)) ↔ x ∈ found) := by
  refine ⟨Compiled.pairwise_violations _ _, fun x => mem_violations_plugin, ?_⟩
  intro key hsection hkey value x hx
  -- Only in the field itself does the object hold anything else.
  have hother : ∀ k, k ≠ key → Keyed.get? (Keyed.insert fields key value) k = Keyed.get? fields k :=
    fun k hk => by rw [Keyed.get?_insert, if_neg (Ne.symm hk)]
  have hmissing : ∀ k, Keyed.get? (Keyed.insert fields key value) k = none ↔
      Keyed.get? fields k = none := by
    intro k
    by_cases hk : k = key
    · subst hk
      rw [Keyed.get?_insert, if_pos rfl]
      exact ⟨nofun, fun h => by rw [Keyed.contains, h] at hkey; cases hkey⟩
    · rw [hother k hk]
  have htools : DeclaresNoTool (Keyed.insert fields key value) ↔ DeclaresNoTool fields := by
    refine forall₂_congr fun k hk => ?_
    rw [hother k fun h => hsection (h ▸ hk)]
  have hinside : ∀ k, InField (Keyed.insert fields key value) k x ↔ InField fields k x := by
    intro k
    by_cases hk : k = key
    · subst hk
      exact ⟨fun h => absurd h.isUnder hx, fun h => absurd h.isUnder hx⟩
    · rw [InField, InField, hother k hk]
  rw [mem_violations_plugin, mem_violations_plugin, htools]
  simp only [hmissing, hinside]

end PluginVet.Schema
