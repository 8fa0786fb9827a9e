/-
# PluginVet.Proofs.Schema.Place — breaches lie at the same ways below every place

What a schema finds in a value does not depend on where the value stands: the breaches are the same ones
at the same keys below it. `Relative` says so of a list of breaches as a function of the place. Each way
in which a schema puts lists together keeps that, so it holds of every schema (`relative_breaches`),
provided that it holds of what references mean, and it does (`Scope.relative_refer`).

So the breaches of a part of a document are those of the part alone with the part's pointer in front
(`breaches_at`), and each pointer is written from keys (`exists_keys_of_mem_breaches`).

§A lists of breaches, §B schemas, §C places.
-/
import Mathlib.Data.List.Basic
import PluginVet.Proofs.Pointer
import PluginVet.Schema.Check

namespace PluginVet.Schema

/-! ## §A Lists of breaches -/

theorem foldl_child_append (place inner : Pointer) (keys : List String) :
    keys.foldl Pointer.child (place ++ inner) = place ++ keys.foldl Pointer.child inner := by
  induction keys generalizing inner with
  | nil => rfl
  | cons key rest ih =>
      have hchild : Pointer.child (place ++ inner) key = place ++ Pointer.child inner key := by
        simp only [Pointer.child, String.append_assoc]
      rw [List.foldl_cons, List.foldl_cons, hchild, ih]

/-- **`Relative f`** — below every place there are the same breaches at the same keys. -/
def Relative (f : Pointer → List Located) : Prop :=
  ∃ found : List (List String × Breach), ∀ place,
    f place = found.map fun e => ⟨e.1.foldl Pointer.child place, e.2⟩

namespace Relative

variable {f g : Pointer → List Located}

theorem nil : Relative fun _ => [] := ⟨[], fun _ => rfl⟩

/-- Breaches of the value itself. -/
theorem here (bs : List Breach) : Relative fun place => bs.map fun b => ⟨place, b⟩ :=
  ⟨bs.map fun b => ([], b), fun place => by rw [List.map_map]; rfl⟩

theorem append (hf : Relative f) (hg : Relative g) : Relative fun place => f place ++ g place := by
  obtain ⟨found, hfound⟩ := hf
  obtain ⟨found', hfound'⟩ := hg
  refine ⟨found ++ found', fun place => ?_⟩
  show f place ++ g place = _
  rw [hfound, hfound', List.map_append]

theorem flatMap {α : Type} {h : α → Pointer → List Located} {xs : List α}
    (hh : ∀ x ∈ xs, Relative (h x)) : Relative fun place => xs.flatMap fun x => h x place := by
  induction xs with
  | nil => exact nil
  | cons x rest ih =>
      obtain ⟨hx, hrest⟩ := List.forall_mem_cons.mp hh
      simp only [List.flatMap_cons]
      exact hx.append (ih hrest)

/-- What is found in a part of the value. -/
theorem child (hf : Relative f) (key : String) : Relative fun place => f (Pointer.child place key) := by
  obtain ⟨found, hfound⟩ := hf
  refine ⟨found.map fun e => (key :: e.1, e.2), fun place => ?_⟩
  show f (Pointer.child place key) = _
  rw [hfound, List.map_map]
  rfl

/-- What is found inside and reported at the value itself. -/
theorem hoist (hf : Relative f) :
    Relative fun place => (f place).map fun b => ⟨place, b.breach⟩ := by
  obtain ⟨found, hfound⟩ := hf
  refine ⟨found.map fun e => ([], e.2), fun place => ?_⟩
  show (f place).map _ = _
  rw [hfound, List.map_map, List.map_map]
  rfl

/-- Whether anything is found does not depend on the place. -/
theorem isEmpty_eq (hf : Relative f) (place : Pointer) : (f place).isEmpty = (f "").isEmpty := by
  obtain ⟨found, hfound⟩ := hf
  rw [hfound, hfound, List.isEmpty_map, List.isEmpty_map]

theorem ite (hf : Relative f) (hg : Relative g) (c : Prop) [Decidable c] :
    Relative fun place => if c then f place else g place := by
  by_cases hc : c
  · simpa only [if_pos hc] using hf
  · simpa only [if_neg hc] using hg

/-- The place stands in front of what is found in the value alone. -/
theorem eq_map (hf : Relative f) (place : Pointer) :
    f place = (f "").map fun b => ⟨place ++ b.pointer, b.breach⟩ := by
  obtain ⟨found, hfound⟩ := hf
  rw [hfound, hfound, List.map_map]
  refine List.map_congr_left fun e _ => ?_
  have hplace := foldl_child_append place "" e.1
  rw [String.append_empty] at hplace
  rw [Function.comp_apply, hplace]

theorem exists_keys (hf : Relative f) {b : Located} (hb : b ∈ f "") :
    ∃ keys, b.pointer = Pointer.ofKeys keys := by
  obtain ⟨found, hfound⟩ := hf
  rw [hfound] at hb
  obtain ⟨e, -, rfl⟩ := List.mem_map.mp hb
  exact ⟨e.1, rfl⟩

end Relative

/-! ## §B Schemas -/

/-- **`Referent.Relative`** — what a reference demands of a value is the same at every place. -/
def Referent.Relative (refer : Referent) : Prop :=
  ∀ name v, Schema.Relative fun place => refer name place v

/-- The entries of an array with the keys that lead to them. -/
theorem placedItems_eq (place : Pointer) (vs : List Json) :
    placedItems place vs = (vs.zipIdx.map fun e => (toString e.2, e.1)).map fun e =>
      (Pointer.child place e.1, e.2) := by
  rw [placedItems, List.map_map]
  rfl

variable {refer : Referent}

mutual

/-- **`relative_breaches`** — a schema finds the same at every place. -/
theorem relative_breaches (hrefer : refer.Relative) (v : Json) :
    ∀ s : Schema, Relative fun place => breaches refer place v s
  | .always => .nil
  | .never => .here [.never v]
  | .all constraints => by
      simp only [breaches]
      exact relative_breachesOfAll hrefer v constraints

theorem relative_breachesOfAll (hrefer : refer.Relative) (v : Json) :
    ∀ cs : List Constraint, Relative fun place => breachesOfAll refer place v cs
  | [] => .nil
  | c :: rest => by
      simp only [breachesOfAll]
      exact (relative_constraintBreaches hrefer v c).append (relative_breachesOfAll hrefer v rest)

theorem relative_constraintBreaches (hrefer : refer.Relative) (v : Json) :
    ∀ c : Constraint, Relative fun place => constraintBreaches refer place v c
  | .leadingItems schemas => by
      cases v with
      | array vs =>
          simp only [constraintBreaches, placedItems_eq]
          exact relative_leadingBreaches hrefer _ schemas
      | _ => exact .nil
  | .items skipped schema => by
      cases v with
      | array vs =>
          simp only [constraintBreaches, placedItems_eq, ← List.map_drop, List.flatMap_map]
          exact .flatMap fun e _ => (relative_breaches hrefer e.1 schema).child (toString e.2)
      | _ => exact .nil
  | .contains least most schema => by
      cases v with
      | array vs =>
          have hvalid : ∀ item place, (breaches refer place item schema).isEmpty
              = (breaches refer "" item schema).isEmpty :=
            fun item => (relative_breaches hrefer item schema).isEmpty_eq
          simp only [constraintBreaches, hvalid]
          exact (Relative.here [.contains (.array vs)]).ite .nil _
      | _ => exact .nil
  | .properties schemas => by
      cases v with
      | object fields =>
          simp only [constraintBreaches]
          exact relative_fieldBreaches hrefer fields schemas
      | _ => exact .nil
  | .patternProperties schemas => by
      cases v with
      | object fields =>
          simp only [constraintBreaches]
          exact relative_patternBreaches hrefer fields schemas
      | _ => exact .nil
  | .propertyNames schema => by
      cases v with
      | object fields =>
          simp only [constraintBreaches]
          exact .flatMap fun f _ => (relative_breaches hrefer (.string f.1) schema).hoist
      | _ => exact .nil
  | .otherProperties names patterns schema => by
      cases v with
      | object fields =>
          simp only [constraintBreaches]
          exact .flatMap fun f _ => (relative_breaches hrefer f.2 schema).child f.1
      | _ => exact .nil
  | .dependentSchemas schemas => by
      cases v with
      | object fields =>
          simp only [constraintBreaches]
          exact relative_dependentBreaches hrefer _ fields schemas
      | _ => exact .nil
  | .allOf schemas => by
      simp only [constraintBreaches]
      exact relative_breachesOfEach hrefer v schemas
  | .anyOf schemas => by
      simp only [constraintBreaches, validCount_eq hrefer v schemas]
      exact (Relative.here [.anyOf v]).ite .nil _
  | .oneOf schemas => by
      simp only [constraintBreaches, validCount_eq hrefer v schemas]
      split
      · exact .here [.oneOfNone v]
      · exact .nil
      · exact .here [.oneOfMany v]
  | .not schema source => by
      simp only [constraintBreaches, (relative_breaches hrefer v schema).isEmpty_eq]
      exact (Relative.here [.not v source]).ite .nil _
  | .conditional condition consequence alternative => by
      simp only [constraintBreaches, (relative_breaches hrefer v condition).isEmpty_eq]
      exact (relative_breaches hrefer v consequence).ite (relative_breaches hrefer v alternative) _
  | .reference name => by
      simp only [constraintBreaches]
      exact hrefer name v
  | .kinds .. | .options _ | .constant _ | .minimum _ | .maximum _ | .exclusiveMinimum _
  | .exclusiveMaximum _ | .multipleOf _ | .minLength _ | .maxLength _ | .pattern _
  | .formatPattern | .minItems _ | .maxItems _ | .uniqueItems | .noMoreItems _ | .minProperties _
  | .maxProperties _ | .required _ | .noOtherProperties .. | .dependentNames _ => by
      simp only [constraintBreaches]
      exact .here _

theorem relative_breachesOfEach (hrefer : refer.Relative) (v : Json) :
    ∀ schemas : List Schema, Relative fun place => breachesOfEach refer place v schemas
  | [] => .nil
  | s :: rest => by
      simp only [breachesOfEach]
      exact (relative_breaches hrefer v s).append (relative_breachesOfEach hrefer v rest)

theorem validCount_eq (hrefer : refer.Relative) (v : Json) :
    ∀ (schemas : List Schema) (place : Pointer),
      validCount refer place v schemas = validCount refer "" v schemas
  | [], _ => rfl
  | s :: rest, place => by
      rw [validCount, validCount, (relative_breaches hrefer v s).isEmpty_eq place,
        validCount_eq hrefer v rest place]

theorem relative_leadingBreaches (hrefer : refer.Relative) (entries : List (String × Json)) :
    ∀ schemas : List Schema, Relative fun place =>
      leadingBreaches refer (entries.map fun e => (Pointer.child place e.1, e.2)) schemas
  | [] => .nil
  | s :: rest => by
      cases entries with
      | nil => exact .nil
      | cons e more =>
          simp only [List.map_cons, leadingBreaches]
          exact ((relative_breaches hrefer e.2 s).child e.1).append
            (relative_leadingBreaches hrefer more rest)

theorem relative_fieldBreaches (hrefer : refer.Relative) (fields : List (String × Json)) :
    ∀ schemas : List (String × Schema), Relative fun place =>
      fieldBreaches refer place fields schemas
  | [] => .nil
  | (name, s) :: rest => by
      simp only [fieldBreaches]
      refine Relative.append ?_ (relative_fieldBreaches hrefer fields rest)
      cases Keyed.get? fields name with
      | none => exact .nil
      | some item => exact (relative_breaches hrefer item s).child name

theorem relative_patternBreaches (hrefer : refer.Relative) (fields : List (String × Json)) :
    ∀ schemas : List (NamedPattern × Schema), Relative fun place =>
      patternBreaches refer place fields schemas
  | [] => .nil
  | (p, s) :: rest => by
      simp only [patternBreaches]
      exact Relative.append (.flatMap fun f _ => (relative_breaches hrefer f.2 s).child f.1)
        (relative_patternBreaches hrefer fields rest)

theorem relative_dependentBreaches (hrefer : refer.Relative) (v : Json)
    (fields : List (String × Json)) : ∀ schemas : List (String × Schema), Relative fun place =>
      dependentBreaches refer place v fields schemas
  | [] => .nil
  | (name, s) :: rest => by
      simp only [dependentBreaches]
      exact ((relative_breaches hrefer v s).ite .nil _).append
        (relative_dependentBreaches hrefer v fields rest)

end

/-- Following references keeps to the places. -/
theorem Scope.relative_refer (scope : Scope) (fuel : Nat) : (scope.refer fuel).Relative := by
  induction fuel with
  | zero => exact fun _ _ => .nil
  | succ fuel ih =>
      intro name v
      simp only [refer]
      cases scope name with
      | none => exact .nil
      | some s => exact relative_breaches ih v s

/-! ## §C Places -/

variable {v : Json} {s : Schema}

/-- **`breaches_at`** — the breaches of a value at some place are those of the value alone, with the place
in front of their pointers. -/
theorem breaches_at (hrefer : refer.Relative) (place : Pointer) (v : Json) (s : Schema) :
    breaches refer place v s
      = (breaches refer "" v s).map fun b => ⟨place ++ b.pointer, b.breach⟩ :=
  (relative_breaches hrefer v s).eq_map place

theorem exists_keys_of_mem_breaches (hrefer : refer.Relative) {b : Located}
    (hb : b ∈ breaches refer "" v s) : ∃ keys, b.pointer = Pointer.ofKeys keys :=
  (relative_breaches hrefer v s).exists_keys hb

end PluginVet.Schema
