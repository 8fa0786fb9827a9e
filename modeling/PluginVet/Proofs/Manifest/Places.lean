/-
# PluginVet.Proofs.Manifest.Places — no two places of a manifest have one pointer

Whoever is given a pointer has the text alone. The standard way to read it is to cut it at the slashes and
to undo the escapes in each piece, first that of the slash and then that of the tilde, each throughout the
piece. `decode?` does so, and it gives back the keys that a pointer was written from
(`decode?_ofKeys`): a slash that was escaped is not cut at, and once the slashes are back no tilde stands
in front of a `0` but one that was written for a tilde (`replacePair_escape`).

So pointers differ where the keys do. The two forms of blocks begin with different keys, and the entities of
one form have different names. Below a block, objects whose keys are in order lead to each expression in a
way of its own. A manifest has its objects in order when it was read from a document that has
(`ordered_ofJson`).

§A standard reading, §B manifests in order, §C ways below blocks, §D pointers.
-/
import PluginVet.Proofs.Check.Pointers
import PluginVet.Proofs.References.Issues

namespace PluginVet

namespace Pointer

/-! ## §A Standard reading -/

/-- Every `a` with a `b` behind it becomes, together with that, the one character `new`. -/
def replacePair (a b new : Char) : List Char → List Char
  | [] => []
  | [c] => [c]
  | c :: d :: rest =>
    if c = a ∧ d = b then new :: replacePair a b new rest
    else c :: replacePair a b new (d :: rest)

/-- The key that an escaped key stands for: `~1` becomes a slash, then `~0` becomes a tilde. -/
def decodeKey (key : List Char) : List Char :=
  replacePair '~' '0' '~' (replacePair '~' '1' '/' key)

/-- **`decode? pointer`** — the pieces behind the slashes with their escapes undone. In front of the first
slash there is nothing. -/
def decode? (pointer : Pointer) : Option (List String) :=
  match Text.splitOn '/' pointer.toList with
  | [] :: pieces => some (pieces.map fun piece => String.ofList (decodeKey piece))
  | _ => none

section Replace

variable {a b c d new : Char} {rest : List Char}

theorem replacePair_hit : replacePair a b new (a :: b :: rest) = new :: replacePair a b new rest := by
  rw [replacePair, if_pos ⟨rfl, rfl⟩]

theorem replacePair_of_ne (hc : c ≠ a) :
    replacePair a b new (c :: rest) = c :: replacePair a b new rest := by
  cases rest with
  | nil => rfl
  | cons d rest => rw [replacePair, if_neg fun h => hc h.1]

theorem replacePair_of_next_ne (hd : d ≠ b) :
    replacePair a b new (c :: d :: rest) = c :: replacePair a b new (d :: rest) := by
  rw [replacePair, if_neg fun h => hd h.2]

end Replace

/-- Once the slashes are back, the tildes alone are escaped. -/
theorem replacePair_escape (key : List Char) :
    replacePair '~' '1' '/' (escape key) = Text.replaceChar '~' ['~', '0'] key := by
  induction key with
  | nil => rfl
  | cons c cs ih =>
      by_cases htilde : c = '~'
      · subst htilde
        rw [escape_tilde, replacePair_of_next_ne (by decide), replacePair_of_ne (by decide), ih]
        rfl
      · by_cases hslash : c = '/'
        · subst hslash
          rw [escape_slash, replacePair_hit, ih]
          rfl
        · rw [escape_cons_of_ne htilde hslash, replacePair_of_ne htilde, ih]
          simp [Text.replaceChar, htilde]

theorem replacePair_tildes (key : List Char) :
    replacePair '~' '0' '~' (Text.replaceChar '~' ['~', '0'] key) = key := by
  induction key with
  | nil => rfl
  | cons c cs ih =>
      by_cases htilde : c = '~'
      · subst htilde
        show replacePair '~' '0' '~' ('~' :: '0' :: Text.replaceChar '~' ['~', '0'] cs) = '~' :: cs
        rw [replacePair_hit, ih]
      · have hreplace : Text.replaceChar '~' ['~', '0'] (c :: cs)
            = c :: Text.replaceChar '~' ['~', '0'] cs := by
          simp [Text.replaceChar, htilde]
        rw [hreplace, replacePair_of_ne htilde, ih]

theorem decodeKey_escape (key : List Char) : decodeKey (escape key) = key := by
  rw [decodeKey, replacePair_escape, replacePair_tildes]

/-- **`decode?_ofKeys`** — the standard reading of a pointer gives the keys that it was written from. -/
theorem decode?_ofKeys (keys : List String) : decode? (ofKeys keys) = some keys := by
  cases keys with
  | nil => rfl
  | cons key rest =>
      have hslash : ∀ piece ∈ (key :: rest).map fun k => escape k.toList, '/' ∉ piece := by
        intro piece hpiece
        obtain ⟨k, -, rfl⟩ := List.mem_map.mp hpiece
        exact slash_not_mem_escape k.toList
      have hsplit : Text.splitOn '/' (ofKeys (key :: rest)).toList
          = [] :: (key :: rest).map fun k => escape k.toList := by
        rw [toList_ofKeys_cons, Text.splitOn, if_pos rfl]
        exact congrArg _ (Text.splitOn_intercalate (List.cons_ne_nil _ _) hslash)
      have hread : (fun piece => String.ofList (decodeKey piece)) ∘ (fun k : String => escape k.toList)
          = id := by
        funext k
        show String.ofList (decodeKey (escape k.toList)) = k
        rw [decodeKey_escape, String.ofList_toList]
      unfold decode?
      rw [hsplit]
      show some (List.map _ (List.map _ _)) = _
      rw [List.map_map, hread, List.map_id]

/-- A key may look like an escape itself. -/
example : decode? (ofKeys ["~1", "", "a/~0"]) = some ["~1", "", "a/~0"] := by decide

end Pointer

/-! ## §B Manifests in order -/

namespace MappingValue

theorem orderedFields_iff {fields : List (String × MappingValue)} :
    OrderedFields fields ↔ ∀ f ∈ fields, f.2.Ordered := by
  induction fields with
  | nil => simp [OrderedFields]
  | cons f rest ih =>
      obtain ⟨key, value⟩ := f
      rw [OrderedFields, ih, List.forall_mem_cons]

theorem sorted_ofFields {fields : List (String × Json)} (h : Keyed.Sorted fields) :
    Keyed.Sorted (ofFields fields) := by
  rw [ofFields_eq_map, Keyed.Sorted, List.map_map]
  exact h

mutual

theorem ordered_ofJson : ∀ v : Json, v.Canonical → (ofJson v).Ordered
  | .object fields, h => ⟨sorted_ofFields h.1, orderedFields_ofFields fields h.2⟩
  | .string _, _ => trivial
  | .null, _ => trivial
  | .bool _, _ => trivial
  | .number _, _ => trivial
  | .array _, _ => trivial

theorem orderedFields_ofFields :
    ∀ fields : List (String × Json), Json.CanonicalFields fields → OrderedFields (ofFields fields)
  | [], _ => trivial
  | (_, v) :: rest, h => ⟨ordered_ofJson v h.1, orderedFields_ofFields rest h.2⟩

end

end MappingValue

/-- **`m.Ordered`** — the objects in the mapping blocks have strictly increasing keys, at every depth. -/
def Manifest.Ordered (m : Manifest) : Prop :=
  ∀ b ∈ m.blocks, (MappingValue.reference b.entries.entries).Ordered

namespace Manifest.Decode

variable {α β : Type} {P : α → Prop} {v : Json} {key : String}

theorem foldlM_keeps {f : α → β → Decoded α} {xs : List β} {start r : α} (hstart : P start)
    (hstep : ∀ r x r', x ∈ xs → P r → f r x = .ok r' → P r') (h : xs.foldlM f start = .ok r) :
    P r := by
  induction xs generalizing start with
  | nil =>
      obtain rfl : start = r := Except.ok.inj h
      exact hstart
  | cons x rest ih =>
      rw [List.foldlM_cons] at h
      obtain ⟨next, hnext, h⟩ := bind_eq_ok_iff.mp h
      have hP : P next := hstep start x next List.mem_cons_self hstart hnext
      exact ih hP (fun r y r' hy => hstep r y r' (List.mem_cons_of_mem x hy)) h

/-- What every field keeps of a record, the record has in the end. -/
theorem record_keeps {title : String} {names : List String} {start r : α}
    {set : α → String → Json → Decoded α} (hcanonical : v.Canonical) (hstart : P start)
    (hset : ∀ r key w r', w.Canonical → P r → set r key w = .ok r' → P r')
    (h : record title names start set v = .ok r) : P r := by
  cases v with
  | object fields =>
      refine foldlM_keeps hstart (fun r f r' hf hP hnext => ?_) h
      have hvalue := (Json.canonical_object_iff.mp hcanonical).2 f hf
      split at hnext
      · exact hset r f.1 f.2 r' hvalue hP hnext
      · rwa [← Except.ok.inj hnext]
  | array items =>
      obtain ⟨last, hlast, h⟩ := bind_eq_ok_iff.mp h
      have hP : P last := by
        refine foldlM_keeps hstart (fun r f r' hf hP hnext => ?_) hlast
        have hvalue := Json.canonical_array_iff.mp hcanonical f.2 (List.of_mem_zip hf).2
        exact hset r f.1 f.2 r' hvalue hP hnext
      split at h
      · cases h
      · rwa [← Except.ok.inj h]
  | _ => cases h

theorem ordered_of_mapping {entries : Mapping} (hcanonical : v.Canonical)
    (h : mapping v = .ok entries) : (MappingValue.reference entries.entries).Ordered := by
  refine ⟨entries.sorted, MappingValue.orderedFields_iff.mpr fun e he => ?_⟩
  obtain ⟨w, hw, hread⟩ := exists_field_of_mem_table hcanonical h he
  rw [← Except.ok.inj hread]
  exact MappingValue.ordered_ofJson w (hcanonical.of_field? hw)

theorem ordered_of_adapter {entries : Mapping} (hcanonical : v.Canonical)
    (h : adapter v = .ok entries) : (MappingValue.reference entries.entries).Ordered :=
  record_keeps (P := fun entries : Mapping => (MappingValue.reference entries.entries).Ordered)
    hcanonical (show (MappingValue.reference []).Ordered from ⟨Keyed.sorted_nil, trivial⟩)
    (fun _ _ _ _ hw _ hread => ordered_of_mapping hw hread) h

/-- The blocks of both forms are in order. -/
def OrderedBlocks (m : Manifest) : Prop :=
  ∀ form, ∀ e ∈ (BlockForm.declared m form).entries, (MappingValue.reference e.2.entries).Ordered

theorem orderedBlocks_setField {m m' : Manifest} (hcanonical : v.Canonical) (hm : OrderedBlocks m)
    (h : setField m key v = .ok m') : OrderedBlocks m' := by
  obtain ⟨-, hmappings, hadapters⟩ := setField_keeps h
  intro form e he
  cases form with
  | mapping =>
      by_cases hkey : key = "mappings"
      · subst hkey
        obtain ⟨t, ht, rfl⟩ := map_eq_ok_iff.mp h
        obtain ⟨w, hw, hread⟩ := exists_field_of_mem_table hcanonical ht he
        exact ordered_of_mapping (hcanonical.of_field? hw) hread
      · rw [BlockForm.declared, hmappings hkey] at he
        exact hm .mapping e he
  | adapter =>
      by_cases hkey : key = "adapters"
      · subst hkey
        obtain ⟨t, ht, rfl⟩ := map_eq_ok_iff.mp h
        obtain ⟨w, hw, hread⟩ := exists_field_of_mem_table hcanonical ht he
        exact ordered_of_adapter (hcanonical.of_field? hw) hread
      · rw [BlockForm.declared, hadapters hkey] at he
        exact hm .adapter e he

end Manifest.Decode

namespace Manifest

variable {m : Manifest} {b : Block}

theorem exists_form_of_mem_blocks (hb : b ∈ m.blocks) :
    ∃ form : BlockForm, b.pointer = Pointer.ofKeys (form.keys b.entity) ∧
      (b.entity, b.entries) ∈ (form.declared m).entries := by
  rcases mem_blocks_iff.mp hb with h | h
  · exact ⟨.mapping, h⟩
  · exact ⟨.adapter, h⟩

/-- **`ordered_ofJson`** — a manifest that is read from a document in order is in order. -/
theorem ordered_ofJson {v : Json} (hcanonical : v.Canonical) (hm : Manifest.ofJson v = .ok m) :
    m.Ordered := by
  have hblocks : Decode.OrderedBlocks m := by
    refine Decode.record_keeps hcanonical ?_ ?_ hm
    · intro form e he
      cases form <;> exact absurd he List.not_mem_nil
    · intro r key w r' hw hr hset
      exact Decode.orderedBlocks_setField hw hr hset
  intro b hb
  obtain ⟨form, -, hentry⟩ := exists_form_of_mem_blocks hb
  exact hblocks form _ hentry

/-! ## §C Ways below blocks -/

/-- The expressions of all blocks that are linted, each with its pointer. -/
def candidates (m : Manifest) : List (Pointer × String) :=
  m.blocks.flatMap fun b => Expression.candidates b.pointer b.entries.entries

/-- The pointer to an expression is that of the block with the keys of the way behind it. -/
theorem exists_way_of_mem_candidates {parent : Pointer} {entries : Keyed MappingValue}
    {e : Pointer × String} (h : e ∈ Expression.candidates parent entries) :
    ∃ keys : List String, e.1 = keys.foldl Pointer.child parent := by
  have hmem := (List.mem_filter.mp h).1
  rw [Expression.expressionsIn_eq] at hmem
  obtain ⟨way, -, rfl⟩ := List.mem_map.mp hmem
  exact ⟨way.1, rfl⟩

/-- Different ways below one place are different pointers. -/
theorem pairwise_candidates {keys : List String} {entries : Keyed MappingValue}
    (h : (MappingValue.reference entries).Ordered) :
    (Expression.candidates (Pointer.ofKeys keys) entries).Pairwise fun e e' => e.1 ≠ e'.1 := by
  apply List.Pairwise.filter
  rw [Expression.expressionsIn_eq, List.pairwise_map]
  refine (MappingValue.pairwise_waysIn entries h.1 h.2).imp fun {way way'} hlt hpointer => ?_
  simp only [← Pointer.ofKeys_append] at hpointer
  have hkeys : way.1 = way'.1 := List.append_cancel_left (Pointer.ofKeys_inj.mp hpointer)
  rw [hkeys] at hlt
  exact List.lt_irrefl way'.1 hlt

/-- What lies below one block does not lie below another one. -/
theorem foldl_child_ne {b' : Block} (hb : b ∈ m.blocks) (hb' : b' ∈ m.blocks)
    (hne : b.pointer ≠ b'.pointer) (keys keys' : List String) :
    keys.foldl Pointer.child b.pointer ≠ keys'.foldl Pointer.child b'.pointer := by
  obtain ⟨form, hpointer, -⟩ := exists_form_of_mem_blocks hb
  obtain ⟨form', hpointer', -⟩ := exists_form_of_mem_blocks hb'
  rw [hpointer, hpointer'] at hne ⊢
  intro heq
  rw [← Pointer.ofKeys_append, ← Pointer.ofKeys_append] at heq
  obtain ⟨hform, hentity, -⟩ := BlockForm.keys_append_inj (Pointer.ofKeys_inj.mp heq)
  apply hne
  rw [hform, hentity]

theorem nodup_map_candidates (h : m.Ordered) : (m.candidates.map Prod.fst).Nodup := by
  rw [List.Nodup, List.pairwise_map, candidates, List.pairwise_flatMap]
  constructor
  · intro b hb
    obtain ⟨form, hpointer, -⟩ := exists_form_of_mem_blocks hb
    rw [hpointer]
    exact pairwise_candidates (h b hb)
  · refine m.pairwise_pointer_ne.imp_of_mem ?_
    intro b b' hb hb' hne e he e' he'
    obtain ⟨keys, hkeys⟩ := exists_way_of_mem_candidates he
    obtain ⟨keys', hkeys'⟩ := exists_way_of_mem_candidates he'
    rw [hkeys, hkeys']
    exact foldl_child_ne hb hb' hne keys keys'

end Manifest

/-! ## §D Pointers -/

/-- **`pointers_unique`** — a pointer that is written key by key is read back, in the standard way, as the
keys that it was written from, so different lists of keys give different pointers. No two blocks of a
manifest have one pointer, and no two of the expressions in all its blocks have one, where the objects of
the manifest have their keys in order. They do in every manifest that is read from a document. -/
theorem pointers_unique :
    (∀ keys : List String, Pointer.decode? (keys.foldl Pointer.child "") = some keys) ∧
    Function.Injective (fun keys : List String => keys.foldl Pointer.child "") ∧
    (∀ m : Manifest, (m.blocks.map (·.pointer)).Nodup) ∧
    (∀ m : Manifest, m.Ordered → (m.candidates.map Prod.fst).Nodup) ∧
    ∀ (v : Json) (m : Manifest), v.Canonical → Manifest.ofJson v = .ok m → m.Ordered := by
  refine ⟨Pointer.decode?_ofKeys, ?_, ?_, ?_, ?_⟩
  · intro keys keys' h
    exact Pointer.ofKeys_inj.mp h
  · intro m
    rw [List.Nodup, List.pairwise_map]
    exact m.pairwise_pointer_ne
  · intro m h
    exact Manifest.nodup_map_candidates h
  · intro v m hcanonical hm
    exact Manifest.ordered_ofJson hcanonical hm

/-- A block of each form for one entity; the key of one of them ends like a step down. -/
def nestedDocument : Json :=
  .object [("adapters", .object [("task", .object [("mapping",
      .object [("a", .object [("b", .string ".x | .y")]), ("a/b", .string ".x | .z")])])]),
    ("mappings", .object [("task", .object [("mapping", .object [("a", .string ".x?")])])])]

/-- The two blocks for one entity, and the ways through objects in them, are told from each other. -/
theorem pointers_unique_nested : nestedDocument.Canonical ∧
    ∃ m, Manifest.ofJson nestedDocument = .ok m ∧ m.Ordered ∧
      m.candidates.map Prod.fst = ["/mappings/task/mapping/a", "/adapters/task/mapping/a/b",
        "/adapters/task/mapping/a~1b"] ∧
      (m.candidates.map Prod.fst).Nodup := by
  have hforms : ["adapters", "mappings"].Pairwise (· < ·) := by decide
  have hkeys : ["a", "a/b"].Pairwise (· < ·) := by decide
  have hcanonical : nestedDocument.Canonical := by
    refine ⟨hforms, ⟨List.pairwise_singleton _ _, ?_, trivial⟩, ?_, trivial⟩
    · refine ⟨List.pairwise_singleton _ _, ⟨hkeys, ?_, trivial, trivial⟩, trivial⟩
      exact ⟨List.pairwise_singleton _ _, trivial, trivial⟩
    · refine ⟨List.pairwise_singleton _ _, ⟨List.pairwise_singleton _ _, ?_, trivial⟩, trivial⟩
      exact ⟨List.pairwise_singleton _ _, trivial, trivial⟩
  obtain ⟨m, hm⟩ : ∃ m, Manifest.ofJson nestedDocument = .ok m := ⟨_, rfl⟩
  obtain ⟨-, -, -, hdistinct, hread⟩ := pointers_unique
  have hordered : m.Ordered := hread nestedDocument m hcanonical hm
  refine ⟨hcanonical, m, hm, hordered, ?_, hdistinct m hordered⟩
  obtain rfl := Except.ok.inj hm
  rfl

end PluginVet
