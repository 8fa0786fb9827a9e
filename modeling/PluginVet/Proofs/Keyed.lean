/-
# PluginVet.Proofs.Keyed — looking up what was put into a map

Insertion and removal change what is found under one key and nothing else; neither law needs the keys
to be in order. Where they are, an entry is found exactly under its own key (`get?_eq_some_iff`). A map
has the keys of the pairs that it was built from (`contains_ofList`), and all of these pairs where no two
have one key (`get?_ofList_iff`). A set of texts is made up of the texts it was given
(`Names.contains_ofNames`).
-/
import PluginVet.Keyed

namespace PluginVet.Keyed

variable {α : Type u} {m : Keyed α} {key k : String} {value v : α}

theorem get?_insert (m : Keyed α) (key k : String) (value : α) :
    (m.insert key value).get? k = if key = k then some value else m.get? k := by
  induction m with
  | nil => simp [insert, get?]
  | cons p rest ih =>
      obtain ⟨k', v⟩ := p
      unfold insert
      split
      · simp [get?]
      · split
        · rename_i hkey
          subst hkey
          by_cases hk : key = k <;> simp [get?, hk]
        · rename_i hne
          by_cases hk : k' = k
          · subst hk
            simp [get?, hne]
          · simp [get?, hk, ih]

theorem get?_erase (m : Keyed α) (key k : String) :
    (m.erase key).get? k = if key = k then none else m.get? k := by
  induction m with
  | nil => simp [erase, get?]
  | cons p rest ih =>
      obtain ⟨k', v⟩ := p
      have herase : erase ((k', v) :: rest) key
          = if k' = key then erase rest key else (k', v) :: erase rest key := by
        by_cases hk : k' = key <;> simp [erase, hk]
      rw [herase]
      by_cases hk : k' = key
      · subst hk
        rw [if_pos rfl, ih, get?]
        split <;> rfl
      · rw [if_neg hk, get?, get?, ih]
        by_cases hk' : k' = k
        · subst hk'
          simp [Ne.symm hk]
        · rw [if_neg hk', if_neg hk']

theorem mem_of_get? (h : m.get? k = some v) : (k, v) ∈ m := by
  induction m with
  | nil => exact absurd h.symm (Option.some_ne_none v)
  | cons p rest ih =>
      obtain ⟨k', v'⟩ := p
      rw [get?] at h
      split at h
      · rename_i hk
        rw [← hk, Option.some.inj h]
        exact List.mem_cons_self
      · exact List.mem_cons_of_mem _ (ih h)

theorem Sorted.tail {p : String × α} {rest : Keyed α} (h : Sorted (p :: rest)) : rest.Sorted :=
  (List.pairwise_cons.mp h).2

theorem Sorted.lt_of_mem {p q : String × α} {rest : Keyed α} (h : Sorted (p :: rest))
    (hq : q ∈ rest) : p.1 < q.1 :=
  (List.pairwise_cons.mp h).1 q.1 (List.mem_map_of_mem hq)

theorem Sorted.nodup (h : m.Sorted) : (m.map Prod.fst).Nodup := by
  refine List.Pairwise.imp ?_ h
  rintro k k' hlt rfl
  exact String.lt_irrefl k hlt

theorem get?_eq_some_iff (hm : m.Sorted) : m.get? k = some v ↔ (k, v) ∈ m := by
  refine ⟨mem_of_get?, fun h => ?_⟩
  induction m with
  | nil => exact absurd h List.not_mem_nil
  | cons p rest ih =>
      obtain ⟨k', v'⟩ := p
      rcases List.mem_cons.mp h with heq | hmem
      · obtain ⟨rfl, rfl⟩ := Prod.mk.inj heq
        simp [get?]
      · have hne : k' ≠ k := fun hk => String.lt_irrefl k (hk ▸ hm.lt_of_mem hmem)
        rw [get?, if_neg hne]
        exact ih hm.tail hmem

/-- Nothing is found under a key that stands before all others. -/
theorem get?_eq_none_of_lt (h : ∀ p ∈ m, k < p.1) : m.get? k = none := by
  cases hget : m.get? k with
  | none => rfl
  | some v => exact absurd (h _ (mem_of_get? hget)) (String.lt_irrefl k)

theorem eq_or_mem_of_mem_insert {p : String × α} (h : p ∈ m.insert key value) :
    p = (key, value) ∨ p ∈ m := by
  induction m with
  | nil => exact Or.inl (List.mem_singleton.mp h)
  | cons q rest ih =>
      obtain ⟨k', v'⟩ := q
      unfold insert at h
      split at h
      · exact List.mem_cons.mp h
      · split at h
        · rcases List.mem_cons.mp h with h | h
          · exact Or.inl h
          · exact Or.inr (List.mem_cons_of_mem _ h)
        · rcases List.mem_cons.mp h with h | h
          · exact Or.inr (h ▸ List.mem_cons_self)
          · exact (ih h).imp id (List.mem_cons_of_mem _)

theorem mem_of_mem_erase {p : String × α} (h : p ∈ m.erase key) : p ∈ m :=
  (List.mem_filter.mp h).1

theorem mem_of_mem_ofList {pairs : List (String × α)} {p : String × α} (h : p ∈ ofList pairs) :
    p ∈ pairs := by
  suffices hall : ∀ m : Keyed α, p ∈ pairs.foldl (fun m p => m.insert p.1 p.2) m →
      p ∈ m ∨ p ∈ pairs from
    (hall [] h).resolve_left List.not_mem_nil
  clear h
  induction pairs with
  | nil => exact fun m h => Or.inl h
  | cons q rest ih =>
      intro m h
      rcases ih _ h with h | h
      · rcases eq_or_mem_of_mem_insert h with rfl | h
        · exact Or.inr List.mem_cons_self
        · exact Or.inl h
      · exact Or.inr (List.mem_cons_of_mem _ h)

/-- A new key makes the map longer by one. -/
theorem length_insert (h : m.contains key = false) :
    (m.insert key value).length = m.length + 1 := by
  induction m with
  | nil => rfl
  | cons p rest ih =>
      obtain ⟨k', v'⟩ := p
      rw [contains, get?] at h
      rw [insert]
      split
      · rfl
      · split at h
        · cases h
        · rename_i hk
          rw [if_neg (Ne.symm hk), List.length_cons, List.length_cons, ih h]

theorem contains_iff : m.contains key = true ↔ key ∈ m.keys := by
  induction m with
  | nil => simp [contains, get?, keys]
  | cons p rest ih =>
      obtain ⟨k', v'⟩ := p
      rw [contains, keys, List.map_cons, List.mem_cons, get?]
      split
      · rename_i hk
        exact ⟨fun _ => Or.inl hk.symm, fun _ => rfl⟩
      · rename_i hk
        exact ih.trans ⟨Or.inr, fun h => h.resolve_left (Ne.symm hk)⟩

theorem contains_ofList {pairs : List (String × α)} :
    (ofList pairs).contains key = true ↔ key ∈ pairs.map Prod.fst := by
  rw [contains_iff, keys, ofList]
  -- What the map holds already stays in it.
  suffices h : ∀ m : Keyed α, key ∈ (pairs.foldl (fun m p => m.insert p.1 p.2) m).map Prod.fst ↔
      key ∈ m.map Prod.fst ∨ key ∈ pairs.map Prod.fst by
    simpa using h []
  induction pairs with
  | nil => simp
  | cons p rest ih =>
      intro m
      rw [List.foldl_cons, ih, mem_keys_insert, List.map_cons, List.mem_cons, or_assoc,
        or_left_comm]

/-- Where no two pairs have one key, none takes the place of another. -/
theorem get?_ofList_iff {pairs : List (String × α)} (h : (pairs.map Prod.fst).Nodup) :
    (ofList pairs).get? k = some v ↔ (k, v) ∈ pairs := by
  -- The map so far holds none of the keys that are still to come.
  suffices hall : ∀ m : Keyed α, (∀ p ∈ pairs, m.get? p.1 = none) →
      ((pairs.foldl (fun m p => m.insert p.1 p.2) m).get? k = some v ↔
        (k, v) ∈ pairs ∨ m.get? k = some v) by
    simpa [ofList, get?] using hall [] fun _ _ => rfl
  induction pairs with
  | nil => simp
  | cons p rest ih =>
      obtain ⟨hp, hrest⟩ := List.nodup_cons.mp h
      intro m hm
      obtain ⟨hpm, hrestm⟩ := List.forall_mem_cons.mp hm
      have hlater : ∀ q ∈ rest, (m.insert p.1 p.2).get? q.1 = none := by
        intro q hq
        have hne : p.1 ≠ q.1 := fun heq => hp (heq ▸ List.mem_map_of_mem hq)
        rw [get?_insert, if_neg hne]
        exact hrestm q hq
      rw [List.foldl_cons, ih hrest _ hlater, get?_insert, List.mem_cons]
      by_cases hk : p.1 = k
      · subst hk
        rw [if_pos rfl, hpm]
        simp [Prod.ext_iff, eq_comm, or_comm]
      · have hne : (k, v) ≠ p := fun heq => hk (heq ▸ rfl)
        rw [if_neg hk]
        simp [hne]

end PluginVet.Keyed

namespace PluginVet.Names

theorem contains_ofNames {names : List String} {name : String} :
    (ofNames names).contains name = true ↔ name ∈ names := by
  show Keyed.contains (Keyed.ofList (names.map fun n => (n, ()))) name = true ↔ _
  rw [Keyed.contains_ofList]
  simp

end PluginVet.Names
