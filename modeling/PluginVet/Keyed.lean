/-
# PluginVet.Keyed — finite maps from text to values, kept in key order

Everything this library reads, checks or prints by name is a list of pairs in strictly increasing
key order. Text is ordered by code point, which is also the order of its UTF-8 bytes.

`Keyed α` is the bare list, for places where the map is nested inside a recursive type; `Table α`
carries the order as a proof field. Main statements: insertion keeps the order (`sorted_insert`),
so a map built from any list of pairs is ordered (`sorted_ofList`).
-/

namespace PluginVet

/-- A map as its list of pairs. -/
abbrev Keyed (α : Type u) := List (String × α)

namespace Keyed

variable {α : Type u}

/-- **`Sorted m`** — the keys of `m` are strictly increasing, hence pairwise distinct. -/
def Sorted (m : Keyed α) : Prop := (m.map Prod.fst).Pairwise (· < ·)

instance (m : Keyed α) : Decidable m.Sorted :=
  inferInstanceAs (Decidable ((m.map Prod.fst).Pairwise (· < ·)))

def keys (m : Keyed α) : List String := m.map Prod.fst

def get? (m : Keyed α) (key : String) : Option α :=
  match m with
  | [] => none
  | (k, v) :: rest => if k = key then some v else get? rest key

def contains (m : Keyed α) (key : String) : Bool := (m.get? key).isSome

/-- The pair goes to its place in key order; an old value of the same key is replaced. -/
def insert (m : Keyed α) (key : String) (value : α) : Keyed α :=
  match m with
  | [] => [(key, value)]
  | (k, v) :: rest =>
    if key < k then (key, value) :: (k, v) :: rest
    else if key = k then (key, value) :: rest
    else (k, v) :: insert rest key value

def erase (m : Keyed α) (key : String) : Keyed α := m.filter fun p => p.1 ≠ key

/-- Of two pairs with one key the later one wins. -/
def ofList (pairs : List (String × α)) : Keyed α :=
  pairs.foldl (fun m p => m.insert p.1 p.2) []

/-! ## Order of the keys -/

theorem mem_keys_insert {m : Keyed α} {key k : String} {value : α} :
    k ∈ (m.insert key value).map Prod.fst ↔ k = key ∨ k ∈ m.map Prod.fst := by
  induction m with
  | nil => simp [insert]
  | cons p rest ih =>
    obtain ⟨k', v⟩ := p
    unfold insert
    split
    · simp
    · split
      · rename_i h
        subst h
        simp
      · simp only [List.map_cons, List.mem_cons, ih]
        constructor
        · rintro (h | h | h) <;> simp [h]
        · rintro (h | h | h) <;> simp [h]

theorem sorted_nil : Sorted ([] : Keyed α) := List.Pairwise.nil

theorem sorted_insert {m : Keyed α} (h : m.Sorted) (key : String) (value : α) :
    (m.insert key value).Sorted := by
  induction m with
  | nil => simp [insert, Sorted]
  | cons p rest ih =>
    obtain ⟨k, v⟩ := p
    simp only [Sorted, List.map_cons, List.pairwise_cons] at h
    unfold insert
    split
    · rename_i hlt
      simp only [Sorted, List.map_cons, List.pairwise_cons, List.mem_cons]
      refine ⟨?_, h⟩
      rintro k' (rfl | hk')
      · exact hlt
      · exact String.lt_trans hlt (h.1 k' hk')
    · split
      · rename_i heq
        subst heq
        simpa only [Sorted, List.map_cons, List.pairwise_cons] using h
      · rename_i hnlt hne
        simp only [Sorted, List.map_cons, List.pairwise_cons]
        refine ⟨?_, ih h.2⟩
        intro k' hk'
        rcases mem_keys_insert.mp hk' with rfl | hk'
        · exact Classical.byContradiction fun hlt =>
            hne (String.le_antisymm (String.not_lt.mp hlt) (String.not_lt.mp hnlt))
        · exact h.1 k' hk'

theorem sorted_erase {m : Keyed α} (h : m.Sorted) (key : String) : (m.erase key).Sorted :=
  List.Pairwise.sublist (List.filter_sublist.map Prod.fst) h

theorem sorted_ofList (pairs : List (String × α)) : (ofList pairs).Sorted := by
  unfold ofList
  suffices ∀ m : Keyed α, m.Sorted → (pairs.foldl (fun m p => m.insert p.1 p.2) m).Sorted from
    this [] sorted_nil
  induction pairs with
  | nil => exact fun m h => h
  | cons p rest ih => exact fun m h => ih _ (sorted_insert h p.1 p.2)

end Keyed

/-- **`Table α`** — a map whose keys are known to be strictly increasing. -/
structure Table (α : Type u) where
  entries : Keyed α
  sorted : entries.Sorted

namespace Table

variable {α : Type u}

def empty : Table α := ⟨[], Keyed.sorted_nil⟩

instance : Inhabited (Table α) := ⟨empty⟩

def ofList (pairs : List (String × α)) : Table α := ⟨Keyed.ofList pairs, Keyed.sorted_ofList pairs⟩

def insert (t : Table α) (key : String) (value : α) : Table α :=
  ⟨t.entries.insert key value, Keyed.sorted_insert t.sorted key value⟩

def get? (t : Table α) (key : String) : Option α := t.entries.get? key

def contains (t : Table α) (key : String) : Bool := t.entries.contains key

def keys (t : Table α) : List String := t.entries.keys

def isEmpty (t : Table α) : Bool := t.entries.isEmpty

end Table

/-- A set of texts: the table that gives each of them the one value of the unit type. -/
abbrev Names := Table Unit

namespace Names

def ofNames (names : List String) : Names := Table.ofList (names.map fun n => (n, ()))

def toList (s : Names) : List String := s.keys

def add (s : Names) (name : String) : Names := s.insert name ()

def size (s : Names) : Nat := s.entries.length

end Names

end PluginVet
