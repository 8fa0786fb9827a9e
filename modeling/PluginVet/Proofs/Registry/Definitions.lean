/-
# PluginVet.Proofs.Registry.Definitions — the first definition of an id holds

A registry grows by `define`, one definition after the other. What a single definition does to the
entities and to the duplicates carries over to a list of them by induction over the list from its end:
the registry of a list of definitions gives each id the properties of the first definition that has it
(`get?_ofDefinitions`), keeps aside exactly the later ones (`duplicates_ofDefinitions`), and so accounts
for each definition once (`size_add_duplicates`).

§A repeated keys, §B one definition, §C a list of definitions.
-/
import Mathlib.Data.List.Induction
import PluginVet.Proofs.Keyed
import PluginVet.Registry.Basic

namespace PluginVet

/-! ## §A Repeated keys -/

section Repeats

variable {α β : Type} {key : α → String} {xs : List α} {x : α}

/-- **`repeats key xs`** — the elements in front of which there is one with the same key. -/
def repeats (key : α → String) (xs : List α) : List α :=
  (xs.zipIdx.filter fun e => (xs.take e.2).any fun x => key x = key e.1).map Prod.fst

theorem repeats_concat (key : α → String) (xs : List α) (x : α) :
    repeats key (xs ++ [x]) = repeats key xs ++ if ∃ y ∈ xs, key y = key x then [x] else [] := by
  unfold repeats
  rw [List.zipIdx_append, List.filter_append, List.map_append]
  congr 1
  · -- In front of an old element stands what stood there before.
    refine congrArg _ (List.filter_congr fun e he => ?_)
    have hlt := (List.mem_zipIdx he).2.1
    rw [Nat.zero_add] at hlt
    rw [List.take_append_of_le_length (Nat.le_of_lt hlt)]
  · have hfront : (xs ++ [x]).take xs.length = xs := List.take_left
    simp only [List.zipIdx_singleton, List.filter_cons, Nat.zero_add, hfront, List.any_eq_true,
      decide_eq_true_eq, List.filter_nil]
    split <;> rfl

theorem repeats_map (key : β → String) (f : α → β) (xs : List α) :
    repeats key (xs.map f) = (repeats (fun x => key (f x)) xs).map f := by
  induction xs using List.reverseRecOn with
  | nil => rfl
  | append_singleton xs x ih =>
      rw [List.map_append, List.map_singleton, repeats_concat, repeats_concat, ih, List.map_append]
      simp only [List.mem_map, exists_exists_and_eq_and]
      split <;> rfl

end Repeats

namespace Registry

variable {r : Registry} {d : Definition} {ds : List Definition} {id : String}

/-! ## §B One definition -/

theorem contains_iff : r.contains id = true ↔ id ∈ r.ids := Keyed.contains_iff

theorem define_of_contains (h : r.contains d.id = true) :
    r.define d = { r with duplicates := r.duplicates ++ [d] } := if_pos h

theorem define_of_not_contains (h : r.contains d.id = false) :
    r.define d = { r with entities := r.entities.insert d.id d.properties } := by
  have hfree : ¬ r.contains d.id = true := Bool.eq_false_iff.mp h
  rw [define, if_neg hfree, add, if_neg hfree]

theorem get?_define (r : Registry) (d : Definition) (id : String) :
    (r.define d).entities.get? id
      = (r.entities.get? id).or (if d.id = id then some d.properties else none) := by
  cases htaken : r.contains d.id with
  | true =>
      rw [define_of_contains htaken]
      split
      · rename_i heq
        obtain ⟨properties, hget⟩ := Option.isSome_iff_exists.mp htaken
        rw [← heq, show r.entities.get? d.id = _ from hget]
        rfl
      · rw [Option.or_none]
  | false =>
      rw [define_of_not_contains htaken]
      show Keyed.get? (Keyed.insert r.entities.entries d.id d.properties) id = _
      rw [Keyed.get?_insert]
      split
      · rename_i heq
        have hget : r.entities.get? id = none := by
          rw [← heq]
          exact Option.isNone_iff_eq_none.mp (Option.isSome_eq_false_iff.mp htaken)
        rw [hget]
        rfl
      · rw [Option.or_none]
        rfl

theorem size_define (r : Registry) (d : Definition) :
    (r.define d).size + (r.define d).duplicates.length = r.size + r.duplicates.length + 1 := by
  cases htaken : r.contains d.id with
  | true =>
      rw [define_of_contains htaken]
      show r.size + (r.duplicates ++ [d]).length = _
      rw [List.length_append, List.length_singleton, Nat.add_assoc]
  | false =>
      rw [define_of_not_contains htaken]
      show (Keyed.insert r.entities.entries d.id d.properties).length + r.duplicates.length = _
      rw [Keyed.length_insert htaken, Nat.add_right_comm]
      rfl

/-! ## §C A list of definitions -/

theorem ofDefinitions_concat (ds : List Definition) (d : Definition) :
    ofDefinitions (ds ++ [d]) = (ofDefinitions ds).define d := List.foldl_append

/-- **`get?_ofDefinitions`** — the entity of an id is what its first definition says. -/
theorem get?_ofDefinitions (ds : List Definition) (id : String) :
    (ofDefinitions ds).entities.get? id
      = (ds.find? fun d => d.id = id).map Definition.properties := by
  induction ds using List.reverseRecOn with
  | nil => rfl
  | append_singleton ds d ih =>
      rw [ofDefinitions_concat, get?_define, ih, List.find?_append, List.find?_singleton]
      cases ds.find? fun d => d.id = id with
      | some first => rfl
      | none =>
          simp only [decide_eq_true_eq, Option.map_none, Option.none_or]
          split <;> rfl

theorem contains_ofDefinitions : (ofDefinitions ds).contains id = true ↔ ∃ d ∈ ds, d.id = id := by
  show ((ofDefinitions ds).entities.get? id).isSome = true ↔ _
  rw [get?_ofDefinitions, Option.isSome_map, List.find?_isSome]
  simp only [decide_eq_true_eq]

theorem properties?_ofDefinitions (ds : List Definition) (id : String) :
    (ofDefinitions ds).properties? id
      = (ds.find? fun d => d.id = id).bind Definition.properties := by
  rw [properties?, get?_ofDefinitions]
  cases ds.find? fun d => d.id = id <;> rfl

/-- **`duplicates_ofDefinitions`** — what is kept aside are the definitions that are not the first of
their id. -/
theorem duplicates_ofDefinitions (ds : List Definition) :
    (ofDefinitions ds).duplicates = repeats Definition.id ds := by
  induction ds using List.reverseRecOn with
  | nil => rfl
  | append_singleton ds d ih =>
      rw [ofDefinitions_concat, duplicates_define, repeats_concat, ih]
      simp only [contains_ofDefinitions]
      split
      · rfl
      · exact (List.append_nil _).symm

/-- **`size_add_duplicates`** — each definition is an entity or a duplicate. -/
theorem size_add_duplicates (ds : List Definition) :
    (ofDefinitions ds).size + (ofDefinitions ds).duplicates.length = ds.length := by
  induction ds using List.reverseRecOn with
  | nil => rfl
  | append_singleton ds d ih =>
      rw [ofDefinitions_concat, size_define, ih, List.length_append, List.length_singleton]

/-- The ids are listed in order, none of them twice. -/
theorem sorted_ids (r : Registry) : r.ids.Pairwise (· < ·) := r.entities.sorted

end Registry

end PluginVet
