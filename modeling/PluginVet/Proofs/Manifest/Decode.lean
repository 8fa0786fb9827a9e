/-
# PluginVet.Proofs.Manifest.Decode — what a decoded manifest was read from

A decoded table has each of its entries from the field of that name, and a part of a record that was
read from an object is what its field gives, or what the record starts with where there is no such field
(`readFrom_of_record`). So the pointer to a tool leads to the value that the tool was read from
(`exists_node_of_mem_tools`). So does the pointer to a mapping block, with one exception: an adapter need
not be an object with a mapping in it, and the pointer to its block leads nowhere then
(`not_shownIn_iff`).

§A tables, §B records, §C tools, §D adapters and manifests, §E blocks.
-/
import PluginVet.Manifest.Decode
import PluginVet.Proofs.Json.Canonical
import PluginVet.Proofs.Manifest.Sections
import PluginVet.Proofs.Pointer

namespace PluginVet

namespace Manifest.Decode

variable {α β : Type} {v w : Json} {key : String}

/-! ## §A Tables -/

theorem bind_eq_ok_iff {x : Decoded α} {next : α → Decoded β} {b : β} :
    (x >>= next) = .ok b ↔ ∃ a, x = .ok a ∧ next a = .ok b := by
  cases x <;> simp [bind, Except.bind]

theorem map_eq_ok_iff {x : Decoded α} {f : α → β} {b : β} :
    x.map f = .ok b ↔ ∃ a, x = .ok a ∧ f a = b := by
  cases x <;> simp [Except.map]

theorem exists_of_mem_mapM {f : α → Decoded β} {xs : List α} {ys : List β} {y : β}
    (h : xs.mapM f = .ok ys) (hy : y ∈ ys) : ∃ x ∈ xs, f x = .ok y := by
  induction xs generalizing ys with
  | nil =>
      obtain rfl : [] = ys := Except.ok.inj h
      exact absurd hy List.not_mem_nil
  | cons x rest ih =>
      rw [List.mapM_cons] at h
      obtain ⟨first, hfirst, h⟩ := bind_eq_ok_iff.mp h
      obtain ⟨others, hothers, h⟩ := bind_eq_ok_iff.mp h
      obtain rfl : first :: others = ys := Except.ok.inj h
      rcases List.mem_cons.mp hy with rfl | hy
      · exact ⟨x, List.mem_cons_self, hfirst⟩
      · obtain ⟨x', hx', hread⟩ := ih hothers hy
        exact ⟨x', List.mem_cons_of_mem _ hx', hread⟩

/-- **`exists_field_of_mem_table`** — an entry of a decoded table was read from the field of its name. -/
theorem exists_field_of_mem_table {value : Json → Decoded α} {t : Table α} {p : String × α}
    (hcanonical : v.Canonical) (h : table value v = .ok t) (hp : p ∈ t.entries) :
    ∃ w, v.field? p.1 = some w ∧ value w = .ok p.2 := by
  cases v with
  | object fields =>
      obtain ⟨pairs, hpairs, rfl⟩ := map_eq_ok_iff.mp h
      obtain ⟨f, hf, hread⟩ := exists_of_mem_mapM hpairs (Keyed.mem_of_mem_ofList hp)
      obtain ⟨x, hx, rfl⟩ := map_eq_ok_iff.mp hread
      exact ⟨f.2, hcanonical.get?_of_mem hf, hx⟩
  | _ => cases h

/-! ## §B Records -/

/-- **`ReadFrom v key decode other x`** — `x` is read from the field of `v` under `key`, and is `other`
where there is no such field. -/
def ReadFrom (v : Json) (key : String) (decode : Json → Decoded α) (other x : α) : Prop :=
  match v.field? key with
  | some w => decode w = .ok x
  | none => x = other

theorem ReadFrom.of_some {decode : Json → Decoded α} {other x : α}
    (h : ReadFrom v key decode other x) (hw : v.field? key = some w) : decode w = .ok x := by
  unfold ReadFrom at h
  rwa [hw] at h

theorem ReadFrom.of_none {decode : Json → Decoded α} {other x : α}
    (h : ReadFrom v key decode other x) (hnone : v.field? key = none) : x = other := by
  unfold ReadFrom at h
  rwa [hnone] at h

/-- **`readFrom_of_record`** — a part of a record is read from the one field that decides it. -/
theorem readFrom_of_record {title : String} {names : List String} {start r : α}
    {set : α → String → Json → Decoded α} (part : α → β) (decode : Json → Decoded β)
    (hkey : key ∈ names) (hread : ∀ r v r', set r key v = .ok r' → decode v = .ok (part r'))
    (hkept : ∀ r, ∀ k ∈ names, ∀ v r', k ≠ key → set r k v = .ok r' → part r' = part r)
    (hcanonical : v.Canonical) (hobject : v.isObject = true)
    (h : record title names start set v = .ok r) : ReadFrom v key decode (part start) (part r) := by
  obtain ⟨fields, rfl⟩ := Json.exists_fields_of_isObject hobject
  have hsorted := (Json.canonical_object_iff.mp hcanonical).1
  clear hcanonical hobject
  rw [record] at h
  -- `start` is what the record has come to in front of the remaining fields.
  induction fields generalizing start with
  | nil =>
      obtain rfl : start = r := Except.ok.inj h
      exact rfl
  | cons f rest ih =>
      obtain ⟨k, v⟩ := f
      rw [List.foldlM_cons] at h
      obtain ⟨next, hnext, h⟩ := bind_eq_ok_iff.mp h
      have hrest := ih h hsorted.tail
      by_cases hk : k = key
      · -- No later field has this key, so the part stays what it is now.
        subst hk
        have hlater : (Json.object rest).field? k = none :=
          Keyed.get?_eq_none_of_lt fun p hp => hsorted.lt_of_mem hp
        rw [if_pos (List.contains_iff_mem.mpr hkey)] at hnext
        rw [hrest.of_none hlater]
        unfold ReadFrom
        rw [Json.field?, Keyed.get?, if_pos rfl]
        exact hread _ _ _ hnext
      · have hstep : part next = part start := by
          split at hnext
          · rename_i hname
            exact hkept _ k (List.contains_iff_mem.mp hname) _ _ hk hnext
          · rw [Except.ok.inj hnext]
        rw [hstep] at hrest
        unfold ReadFrom
        rw [Json.field?, Keyed.get?, if_neg hk]
        exact hrest

/-! ## §C Tools -/

theorem eq_string_of_optionalText {text : String} (h : optionalText v = .ok (some text)) :
    v = .string text := by
  cases v with
  | string s =>
      obtain rfl : s = text := Option.some.inj (Except.ok.inj h)
      rfl
  | _ => cases h

theorem readFrom_returns {t : Tool} (hcanonical : v.Canonical) (hobject : v.isObject = true)
    (h : tool v = .ok t) : ReadFrom v "returns" optionalText none t.returns := by
  refine readFrom_of_record Tool.returns optionalText (by decide) ?_ ?_ hcanonical hobject h
  · intro t v t' hset
    obtain ⟨x, hx, rfl⟩ := map_eq_ok_iff.mp hset
    exact hx
  · intro t k _ v t' hk hset
    unfold setToolField at hset
    split at hset
    · obtain ⟨x, -, rfl⟩ := map_eq_ok_iff.mp hset
      rfl
    · exact absurd rfl hk
    · rw [Except.ok.inj hset]

/-- **`at?_returns`** — a declared return type stands in its own field, unless the tool is an array. -/
theorem at?_returns {t : Tool} {returned : String} (hcanonical : v.Canonical) (h : tool v = .ok t)
    (hreturned : t.returns = some returned) :
    v.at? ["returns"] = if v.isObject then some (.string returned) else none := by
  rw [Json.at?_singleton rfl]
  split
  · rename_i hobject
    have hreturns := readFrom_returns hcanonical hobject h
    rw [hreturned] at hreturns
    cases hfield : v.field? "returns" with
    | none => cases hreturns.of_none hfield
    | some w => rw [eq_string_of_optionalText (hreturns.of_some hfield)]
  · rename_i hobject
    exact Json.field?_of_not_isObject hobject

/-! ## §D Adapters and manifests -/

theorem readFrom_mapping {entries : Mapping} (hcanonical : v.Canonical) (hobject : v.isObject = true)
    (h : adapter v = .ok entries) : ReadFrom v "mapping" mapping .empty entries := by
  refine readFrom_of_record (fun entries => entries) mapping (List.mem_singleton_self _)
    (fun _ _ _ hset => hset) ?_ hcanonical hobject h
  intro r k hk v r' hne
  exact absurd (List.mem_singleton.mp hk) hne

/-- A field leaves alone what the fields of other names give. -/
theorem setField_keeps {m m' : Manifest} (h : setField m key v = .ok m') :
    (∀ kind, key ≠ ToolKind.sectionKey kind → m'.toolSection kind = m.toolSection kind) ∧
      (key ≠ "mappings" → m'.mappings = m.mappings) ∧
      (key ≠ "adapters" → m'.adapters = m.adapters) := by
  unfold setField at h
  split at h
  -- One part is written in each case, or none; it is the one of this key.
  all_goals first
    | obtain ⟨x, -, rfl⟩ := map_eq_ok_iff.mp h
    | obtain rfl := Except.ok.inj h
  all_goals refine ⟨fun kind hkey => ?_, fun hkey => ?_, fun hkey => ?_⟩
  all_goals first
    | rfl
    | exact absurd rfl hkey
    | cases kind <;> first | rfl | exact absurd rfl hkey

end Manifest.Decode

namespace Manifest

open Decode (ReadFrom readFrom_of_record map_eq_ok_iff exists_field_of_mem_table)

variable {v : Json} {m : Manifest}

/-- **`exists_node_of_mem_section`** — what a section of a manifest declares was read from the value of that
name in the field of that section. -/
theorem exists_node_of_mem_section {α : Type} {value : Json → Decode.Decoded α} {key : String}
    {t : Table α} {p : String × α} (hcanonical : v.Canonical)
    (h : ReadFrom v key (Decode.table value) .empty t) (hp : p ∈ t.entries) :
    ∃ node, v.at? [key, p.1] = some node ∧ value node = .ok p.2 := by
  cases hw : v.field? key with
  | none =>
      rw [h.of_none hw] at hp
      exact absurd hp List.not_mem_nil
  | some w =>
      obtain ⟨node, hnode, hread⟩ :=
        exists_field_of_mem_table (hcanonical.of_field? hw) (h.of_some hw) hp
      refine ⟨node, ?_, hread⟩
      rw [Json.at?_cons_of_field? hw, Json.at?_cons_of_field? hnode]
      rfl

section Decoded

variable (hcanonical : v.Canonical) (hobject : v.isObject = true) (hm : Manifest.ofJson v = .ok m)
include hcanonical hobject hm

theorem readFrom_toolSection (kind : ToolKind) :
    ReadFrom v kind.sectionKey (Decode.table Decode.tool) .empty (m.toolSection kind) := by
  have hkey : kind.sectionKey ∈ Decode.fieldNames := by cases kind <;> decide
  have hstart : Manifest.empty.toolSection kind = .empty := by cases kind <;> rfl
  rw [← hstart]
  refine readFrom_of_record (·.toolSection kind) _ hkey ?_ ?_ hcanonical hobject hm
  · intro m v m' hset
    cases kind with
    | _ =>
        obtain ⟨x, hx, rfl⟩ := map_eq_ok_iff.mp hset
        exact hx
  · exact fun m k _ v m' hk hset => (Decode.setField_keeps hset).1 kind hk

theorem readFrom_mappings :
    ReadFrom v "mappings" (Decode.table Decode.mapping) .empty m.mappings := by
  refine readFrom_of_record Manifest.mappings _ (by decide) ?_ ?_ hcanonical hobject hm
  · intro m v m' hset
    obtain ⟨x, hx, rfl⟩ := map_eq_ok_iff.mp hset
    exact hx
  · exact fun m k _ v m' hk hset => (Decode.setField_keeps hset).2.1 hk

theorem readFrom_adapters :
    ReadFrom v "adapters" (Decode.table Decode.adapter) .empty m.adapters := by
  refine readFrom_of_record Manifest.adapters _ (by decide) ?_ ?_ hcanonical hobject hm
  · intro m v m' hset
    obtain ⟨x, hx, rfl⟩ := map_eq_ok_iff.mp hset
    exact hx
  · exact fun m k _ v m' hk hset => (Decode.setField_keeps hset).2.2 hk

/-- **`exists_node_of_mem_tools`** — the pointer to a tool leads to the value that the tool was read from. -/
theorem exists_node_of_mem_tools {d : DeclaredTool} (hd : d ∈ m.tools) :
    ∃ node, v.atPointer? d.pointer = some node ∧ Decode.tool node = .ok d.tool := by
  have hentry := mem_tools_iff.mp hd
  rw [DeclaredTool.pointer, Json.atPointer?_ofKeys]
  exact exists_node_of_mem_section hcanonical
    (readFrom_toolSection hcanonical hobject hm d.kind) hentry

end Decoded

end Manifest

/-! ## §E Blocks -/

namespace Block

variable {v : Json} {m : Manifest} {b : Block}

/-- **`ReadAs b w`** — the entries of the block are what is read from `w`. -/
def ReadAs (b : Block) (w : Json) : Prop := Manifest.Decode.mapping w = .ok b.entries

/-- **`ShownIn b v`** — the pointer of the block leads to the value that its entries were read from. -/
def ShownIn (b : Block) (v : Json) : Prop := ∃ w, v.atPointer? b.pointer = some w ∧ b.ReadAs w

/-- **`LacksMapping b v`** — the block is that of an adapter which is no object with a field for it: the
object has no such field, or the adapter is an array. -/
def LacksMapping (b : Block) (v : Json) : Prop :=
  b.pointer = Pointer.ofKeys ["adapters", b.entity, "mapping"] ∧
    ∃ adapter, v.at? ["adapters", b.entity] = some adapter ∧ adapter.field? "mapping" = none ∧
      Manifest.Decode.adapter adapter = .ok b.entries

theorem LacksMapping.atPointer?_eq_none (h : b.LacksMapping v) : v.atPointer? b.pointer = none := by
  obtain ⟨hpointer, adapter, hadapter, hfield, -⟩ := h
  have hmapping : adapter.at? ["mapping"] = none := (Json.at?_singleton rfl adapter).trans hfield
  rw [hpointer, Json.atPointer?_ofKeys]
  show v.at? (["adapters", b.entity] ++ ["mapping"]) = none
  rw [Json.at?_append, hadapter]
  exact hmapping

end Block

namespace Manifest

variable {v : Json} {m : Manifest} {b : Block}

section Decoded

variable (hcanonical : v.Canonical) (hobject : v.isObject = true) (hm : Manifest.ofJson v = .ok m)
  (hb : b ∈ m.blocks)
include hcanonical hobject hm hb

theorem shownIn_or_lacksMapping : b.ShownIn v ∨ b.LacksMapping v := by
  rcases mem_blocks_iff.mp hb with ⟨hpointer, hentry⟩ | ⟨hpointer, hentry⟩
  · obtain ⟨node, hnode, hread⟩ := exists_node_of_mem_section hcanonical
      (readFrom_mappings hcanonical hobject hm) hentry
    refine Or.inl ⟨node, ?_, hread⟩
    rw [hpointer, Json.atPointer?_ofKeys, hnode]
  · -- The mapping of an adapter lies one key further down, if there is one.
    obtain ⟨node, hnode, hread⟩ := exists_node_of_mem_section hcanonical
      (readFrom_adapters hcanonical hobject hm) hentry
    cases hfield : node.field? "mapping" with
    | none => exact Or.inr ⟨hpointer, node, hnode, hfield, hread⟩
    | some w =>
        have hmapping := Decode.readFrom_mapping (hcanonical.of_at? hnode)
          (Json.isObject_of_field? hfield) hread
        refine Or.inl ⟨w, ?_, hmapping.of_some hfield⟩
        rw [hpointer, Json.atPointer?_ofKeys]
        show v.at? (["adapters", b.entity] ++ ["mapping"]) = some w
        rw [Json.at?_append, hnode]
        exact (Json.at?_singleton rfl node).trans hfield

/-- **`not_shownIn_iff`** — a block is not shown exactly where its adapter lacks the field for it. -/
theorem not_shownIn_iff : ¬ b.ShownIn v ↔ b.LacksMapping v := by
  constructor
  · exact (shownIn_or_lacksMapping hcanonical hobject hm hb).resolve_left
  · rintro h ⟨node, hnode, -⟩
    rw [h.atPointer?_eq_none] at hnode
    cases hnode

end Decoded

end Manifest

end PluginVet
