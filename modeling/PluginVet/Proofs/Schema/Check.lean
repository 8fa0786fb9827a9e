/-
# PluginVet.Proofs.Schema.Check — values that break nothing

A value satisfies a schema when it breaks none of its constraints. Each lemma says what that means for
one keyword (`properties_eq_nil_iff` and its like); together they read a schema back as a condition on
values. What references mean is left open throughout.
-/
import Mathlib.Data.List.Basic
import PluginVet.Schema.Check

namespace PluginVet.Schema

variable {refer : Referent} {place : Pointer} {v : Json} {fields : List (String × Json)}
  {constraints : List Constraint}

theorem breachesOfAll_eq_nil_iff : breachesOfAll refer place v constraints = [] ↔
    ∀ c ∈ constraints, constraintBreaches refer place v c = [] := by
  induction constraints with
  | nil => simp [breachesOfAll]
  | cons c rest ih => rw [breachesOfAll, List.append_eq_nil_iff, ih, List.forall_mem_cons]

theorem breaches_all_eq_nil_iff : breaches refer place v (.all constraints) = [] ↔
    ∀ c ∈ constraints, constraintBreaches refer place v c = [] := by
  rw [breaches, breachesOfAll_eq_nil_iff]

theorem kinds_eq_nil_iff {wholeFloats : Bool} {allowed : List Kind} :
    constraintBreaches refer place v (.kinds wholeFloats allowed) = [] ↔
      ∃ k ∈ allowed, kindHolds wholeFloats v k = true := by
  rw [constraintBreaches]
  · simp only [leafBreach?, missingNames, List.map_nil, List.append_nil, List.map_eq_nil_iff,
      ← List.any_eq_true]
    split <;> simp_all
  all_goals simp

/-- Each field that a schema names is looked at by itself. -/
theorem fieldBreaches_eq_flatMap (schemas : List (String × Schema)) :
    fieldBreaches refer place fields schemas = schemas.flatMap fun p =>
      (Keyed.get? fields p.1).elim [] fun item => breaches refer (Pointer.child place p.1) item p.2 := by
  induction schemas with
  | nil => rfl
  | cons p rest ih =>
      obtain ⟨name, s⟩ := p
      rw [fieldBreaches, List.flatMap_cons, ih]
      cases Keyed.get? fields name with
      | none => rfl
      | some item => rfl

theorem fieldBreaches_eq_nil_iff {schemas : List (String × Schema)} :
    fieldBreaches refer place fields schemas = [] ↔ ∀ p ∈ schemas, ∀ item,
      Keyed.get? fields p.1 = some item → breaches refer (Pointer.child place p.1) item p.2 = [] := by
  rw [fieldBreaches_eq_flatMap, List.flatMap_eq_nil_iff]
  refine forall₂_congr fun p _ => ?_
  cases Keyed.get? fields p.1 with
  | none => simp
  | some item => simp

theorem mem_fieldBreaches_iff {schemas : List (String × Schema)} {b : Located} :
    b ∈ fieldBreaches refer place fields schemas ↔ ∃ p ∈ schemas, ∃ item,
      Keyed.get? fields p.1 = some item ∧ b ∈ breaches refer (Pointer.child place p.1) item p.2 := by
  rw [fieldBreaches_eq_flatMap, List.mem_flatMap]
  refine exists_congr fun p => and_congr_right fun _ => ?_
  cases Keyed.get? fields p.1 with
  | none => simp
  | some item => simp

theorem properties_eq_nil_iff {schemas : List (String × Schema)} :
    constraintBreaches refer place (.object fields) (.properties schemas) = [] ↔ ∀ p ∈ schemas,
      ∀ item, Keyed.get? fields p.1 = some item →
        breaches refer (Pointer.child place p.1) item p.2 = [] := by
  rw [constraintBreaches, fieldBreaches_eq_nil_iff]

theorem otherProperties_eq_nil_iff {names : List String} {patterns : List NamedPattern}
    {schema : Schema} :
    constraintBreaches refer place (.object fields) (.otherProperties names patterns schema) = [] ↔
      ∀ f ∈ otherFields names patterns fields,
        breaches refer (Pointer.child place f.1) f.2 schema = [] := by
  rw [constraintBreaches, List.flatMap_eq_nil_iff]

theorem required_eq {names : List String} :
    constraintBreaches refer place (.object fields) (.required names)
      = (names.filter fun name => !Keyed.contains fields name).map fun name =>
        ⟨place, .required name⟩ := by
  rw [constraintBreaches]
  · exact List.map_map
  all_goals simp

/-- Each entry of an array has its place. -/
theorem exists_place_of_mem (place : Pointer) {vs : List Json} {item : Json} (h : item ∈ vs) :
    ∃ p, (p, item) ∈ placedItems place vs := by
  obtain ⟨i, hi, rfl⟩ := List.mem_iff_getElem.mp h
  refine ⟨Pointer.child place (toString i), List.mem_map.mpr ⟨(vs[i], i), ?_, rfl⟩⟩
  rw [List.mem_zipIdx_iff_getElem?]
  exact List.getElem?_eq_getElem hi

theorem items_eq_nil_iff {vs : List Json} {schema : Schema} :
    constraintBreaches refer place (.array vs) (.items 0 schema) = [] ↔
      ∀ p ∈ placedItems place vs, breaches refer p.1 p.2 schema = [] := by
  rw [constraintBreaches, List.flatMap_eq_nil_iff]
  rfl

end PluginVet.Schema
