/-
# PluginVet.Proofs.Json.Canonical — values whose objects are in order

A canonical value has strictly increasing keys in each of its objects, so a field is what is found under
its key (`Canonical.get?_of_mem`). An object made of pairs is canonical when their values are
(`canonical_ofPairs`).
-/
import PluginVet.Json.Basic
import PluginVet.Proofs.Keyed

namespace PluginVet.Json

variable {items : List Json} {fields : List (String × Json)}

theorem canonicalItems_iff : CanonicalItems items ↔ ∀ v ∈ items, v.Canonical := by
  induction items with
  | nil => simp [CanonicalItems]
  | cons v rest ih => rw [CanonicalItems, ih, List.forall_mem_cons]

theorem canonicalFields_iff : CanonicalFields fields ↔ ∀ f ∈ fields, f.2.Canonical := by
  induction fields with
  | nil => simp [CanonicalFields]
  | cons f rest ih =>
      obtain ⟨k, v⟩ := f
      rw [CanonicalFields, ih, List.forall_mem_cons]

theorem canonical_array_iff : (array items).Canonical ↔ ∀ v ∈ items, v.Canonical := by
  rw [Canonical, canonicalItems_iff]

theorem canonical_object_iff :
    (object fields).Canonical ↔ Keyed.Sorted fields ∧ ∀ f ∈ fields, f.2.Canonical := by
  rw [Canonical, canonicalFields_iff]

/-- A field of a canonical object is what is found under its key. -/
theorem Canonical.get?_of_mem {f : String × Json} (h : (object fields).Canonical)
    (hf : f ∈ fields) : Keyed.get? fields f.1 = some f.2 :=
  (Keyed.get?_eq_some_iff (canonical_object_iff.mp h).1).mpr hf

theorem Canonical.of_field? {v w : Json} {key : String} (h : v.Canonical)
    (hw : v.field? key = some w) : w.Canonical := by
  cases v with
  | object fields => exact (canonical_object_iff.mp h).2 _ (Keyed.mem_of_get? hw)
  | _ => cases hw

theorem canonical_ofPairs {pairs : List (String × Json)} (h : ∀ p ∈ pairs, p.2.Canonical) :
    (ofPairs pairs).Canonical :=
  canonical_object_iff.mpr
    ⟨Keyed.sorted_ofList pairs, fun p hp => h p (Keyed.mem_of_mem_ofList hp)⟩

/-! ## Objects -/

theorem exists_fields_of_isObject {v : Json} (h : v.isObject = true) :
    ∃ fields, v = .object fields := by
  cases v with
  | object fields => exact ⟨fields, rfl⟩
  | _ => cases h

theorem isObject_of_field? {v w : Json} {key : String} (h : v.field? key = some w) :
    v.isObject = true := by
  cases v with
  | object fields => rfl
  | _ => cases h

theorem field?_of_not_isObject {v : Json} {key : String} (h : ¬ v.isObject = true) :
    v.field? key = none := by
  cases v with
  | object fields => exact absurd rfl h
  | _ => rfl

end PluginVet.Json
