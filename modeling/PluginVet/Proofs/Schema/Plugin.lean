/-
# PluginVet.Proofs.Schema.Plugin — the schema of manifests and their decoder agree

The schema of manifests and the decoder describe the same format in two ways. Here the first is shown
to refine the second, part by part: `Grants s decode` says that whatever satisfies the schema `s` can be
decoded, and it passes from the parts of tables and records to the whole. So a manifest without
violations is always decoded (`grants_manifest`), and a descriptor that is refused as no
manifest has schema findings too (`schema_refines_manifest`).

§A kinds of values, §B granted decoders, §C the parts of a manifest, §D descriptors.
-/
import PluginVet.Proofs.Schema.Check
import PluginVet.Proofs.Schema.Violation
import PluginVet.Proofs.Validation
import PluginVet.Proofs.Yaml.Decode

namespace PluginVet

open Manifest (Decode.text Decode.optionalText Decode.texts Decode.table Decode.record)
open Manifest.Decode (Decoded)

namespace Schema

variable {refer : Referent} {place : Pointer} {v : Json} {constraints : List Constraint} {s : Schema}
  {α β : Type}

/-! ## §A Kinds of values -/

section Kinds

variable {kind : Kind} (hkind : Constraint.kinds true [kind] ∈ constraints)
  (hv : breaches refer place v (.all constraints) = [])
include hkind hv

theorem kindHolds_of_only : kindHolds true v kind = true := by
  obtain ⟨k, hk, hholds⟩ := kinds_eq_nil_iff.mp (breaches_all_eq_nil_iff.mp hv _ hkind)
  rwa [List.mem_singleton.mp hk] at hholds

end Kinds

theorem exists_text_of_kind (h : kindHolds true v .string = true) : ∃ text, v = .string text := by
  cases v <;> simp_all [kindHolds]

theorem exists_items_of_kind (h : kindHolds true v .array = true) : ∃ items, v = .array items := by
  cases v <;> simp_all [kindHolds]

theorem exists_fields_of_kind (h : kindHolds true v .object = true) :
    ∃ fields, v = .object fields := by
  cases v <;> simp_all [kindHolds]

/-! ## §B Granted decoders -/

/-- **`Grants s decode`** — every canonical value that satisfies `s` can be decoded. -/
def Grants (s : Schema) (decode : Json → Decoded α) : Prop :=
  ∀ refer place v, v.Canonical → breaches refer place v s = [] → ∃ x, decode v = .ok x

theorem Grants.map {decode : Json → Decoded α} {decode' : Json → Decoded β} (h : Grants s decode)
    (f : α → β) (hf : ∀ v, decode' v = (decode v).map f) : Grants s decode' := by
  intro refer place v hcanonical hv
  obtain ⟨x, hx⟩ := h refer place v hcanonical hv
  exact ⟨f x, by rw [hf, hx]; rfl⟩

theorem grants_text (hkind : Constraint.kinds true [.string] ∈ constraints) :
    Grants (.all constraints) Decode.text := by
  intro refer place v _ hv
  obtain ⟨text, rfl⟩ := exists_text_of_kind (kindHolds_of_only hkind hv)
  exact ⟨text, rfl⟩

theorem grants_optionalText (hkind : Constraint.kinds true [.string] ∈ constraints) :
    Grants (.all constraints) Decode.optionalText := by
  intro refer place v _ hv
  obtain ⟨text, rfl⟩ := exists_text_of_kind (kindHolds_of_only hkind hv)
  exact ⟨some text, rfl⟩

/-- A list is decoded where each of its members is. -/
theorem exists_mapM {f : α → Except Mismatch β} {xs : List α} (h : ∀ x ∈ xs, ∃ y, f x = .ok y) :
    ∃ ys, xs.mapM f = .ok ys := by
  induction xs with
  | nil => exact ⟨[], rfl⟩
  | cons x rest ih =>
      obtain ⟨⟨y, hy⟩, hrest⟩ := List.forall_mem_cons.mp h
      obtain ⟨ys, hys⟩ := ih hrest
      exact ⟨y :: ys, by rw [List.mapM_cons, hy, hys]; rfl⟩

/-- A fold goes through where each of its steps does, whatever it has come to. -/
theorem exists_foldlM {step : β → α → Except Mismatch β} {xs : List α}
    (h : ∀ x ∈ xs, ∀ acc, ∃ acc', step acc x = .ok acc') (start : β) :
    ∃ last, xs.foldlM step start = .ok last := by
  induction xs generalizing start with
  | nil => exact ⟨start, rfl⟩
  | cons x rest ih =>
      obtain ⟨hx, hrest⟩ := List.forall_mem_cons.mp h
      obtain ⟨acc, hacc⟩ := hx start
      obtain ⟨last, hlast⟩ := ih hrest acc
      exact ⟨last, by rw [List.foldlM_cons, hacc]; exact hlast⟩

theorem grants_texts (hitems : Constraint.items 0 s ∈ constraints)
    (hkind : Constraint.kinds true [.array] ∈ constraints) (hs : Grants s Decode.text) :
    Grants (.all constraints) Decode.texts := by
  intro refer place v hcanonical hv
  obtain ⟨items, rfl⟩ := exists_items_of_kind (kindHolds_of_only hkind hv)
  have hall := items_eq_nil_iff.mp (breaches_all_eq_nil_iff.mp hv _ hitems)
  refine exists_mapM fun item hitem => ?_
  obtain ⟨p, hp⟩ := exists_place_of_mem place hitem
  exact hs _ p item (Json.canonical_array_iff.mp hcanonical item hitem) (hall _ hp)

theorem grants_table {decode : Json → Decoded α}
    (hother : Constraint.otherProperties [] [] s ∈ constraints)
    (hkind : Constraint.kinds true [.object] ∈ constraints) (hs : Grants s decode) :
    Grants (.all constraints) (Decode.table decode) := by
  intro refer place v hcanonical hv
  obtain ⟨fields, rfl⟩ := exists_fields_of_kind (kindHolds_of_only hkind hv)
  have hall := otherProperties_eq_nil_iff.mp (breaches_all_eq_nil_iff.mp hv _ hother)
  have hvalues : ∀ f ∈ fields, ∃ x, (decode f.2).map (fun x => (f.1, x)) = .ok x := by
    intro f hf
    have hfield : f ∈ otherFields [] [] fields := by
      rw [otherFields]
      simpa using hf
    obtain ⟨x, hx⟩ := hs _ _ f.2 ((Json.canonical_object_iff.mp hcanonical).2 f hf)
      (hall f hfield)
    exact ⟨(f.1, x), by rw [hx]; rfl⟩
  obtain ⟨pairs, hpairs⟩ := exists_mapM hvalues
  exact ⟨Table.ofList pairs, by rw [Decode.table, hpairs]; rfl⟩

/-- A record is decoded where the schema has a part for each field that grants what is read there. -/
theorem grants_record {title : String} {names : List String} {start : α}
    {set : α → String → Json → Decoded α} {schemas : List (String × Schema)}
    (hproperties : Constraint.properties schemas ∈ constraints)
    (hkind : Constraint.kinds true [.object] ∈ constraints)
    (hset : ∀ name ∈ names, ∃ s, (name, s) ∈ schemas ∧ ∀ r, Grants s (set r name)) :
    Grants (.all constraints) (Decode.record title names start set) := by
  intro refer place v hcanonical hv
  obtain ⟨fields, rfl⟩ := exists_fields_of_kind (kindHolds_of_only hkind hv)
  have hall := properties_eq_nil_iff.mp (breaches_all_eq_nil_iff.mp hv _ hproperties)
  refine exists_foldlM (fun f hf r => ?_) start
  split
  · rename_i hname
    obtain ⟨s, hs, hgrants⟩ := hset f.1 (List.contains_iff_mem.mp hname)
    exact hgrants r _ _ f.2 ((Json.canonical_object_iff.mp hcanonical).2 f hf)
      (hall _ hs f.2 (hcanonical.get?_of_mem hf))
  · exact ⟨r, rfl⟩

/-! ## §C The parts of a manifest -/

namespace Plugin

theorem grants_tool : Grants tool Manifest.Decode.tool := by
  have htext : Grants text Decode.optionalText := grants_optionalText List.mem_cons_self
  refine grants_record List.mem_cons_self (by simp) fun name hname => ?_
  rcases List.mem_cons.mp hname with rfl | hname
  · exact ⟨text, by simp, fun t => htext.map (fun x => { t with description := x }) fun _ => rfl⟩
  · rw [List.mem_singleton.mp hname]
    exact ⟨text, by simp, fun t => htext.map (fun x => { t with returns := x }) fun _ => rfl⟩

theorem grants_toolMap : Grants toolMap (Decode.table Manifest.Decode.tool) :=
  grants_table List.mem_cons_self (by simp) grants_tool

/-- Whatever stands in a mapping can be decoded. -/
theorem grants_mapping : Grants mapping Manifest.Decode.mapping :=
  grants_table List.mem_cons_self (by simp) fun _ _ _ _ _ => ⟨_, rfl⟩

theorem grants_adapter : Grants adapter Manifest.Decode.adapter := by
  refine grants_record List.mem_cons_self (by simp) fun name hname => ?_
  rw [List.mem_singleton.mp hname]
  exact ⟨mapping, List.mem_cons_self, fun _ => grants_mapping⟩

/-- **`grants_manifest`** — each field that the decoder of manifests reads has a part of the schema that
grants it. -/
theorem grants_manifest : Grants manifest Manifest.ofJson := by
  have htext : ∀ {cs : List Constraint}, Constraint.kinds true [.string] ∈ cs →
      Grants (.all cs) Decode.optionalText := grants_optionalText
  refine grants_record List.mem_cons_self (by simp) fun name hname => ?_
  simp only [Manifest.Decode.fieldNames, List.mem_cons, List.not_mem_nil, or_false] at hname
  rcases hname with rfl | rfl | rfl | rfl | rfl | rfl | rfl | rfl | rfl
  · exact ⟨_, Keyed.mem_of_get? rfl, fun m =>
      (htext (by simp)).map (fun x => { m with id := x }) fun _ => rfl⟩
  · exact ⟨_, Keyed.mem_of_get? rfl, fun m =>
      (htext (by simp)).map (fun x => { m with name := x }) fun _ => rfl⟩
  · exact ⟨_, Keyed.mem_of_get? rfl, fun m =>
      (htext (by simp)).map (fun x => { m with description := x }) fun _ => rfl⟩
  · exact ⟨_, Keyed.mem_of_get? rfl, fun m =>
      (grants_texts List.mem_cons_self (by simp) (grants_text List.mem_cons_self)).map
        (fun x => { m with tags := x }) fun _ => rfl⟩
  · exact ⟨_, Keyed.mem_of_get? rfl, fun m =>
      grants_toolMap.map (fun x => { m with operations := x }) fun _ => rfl⟩
  · exact ⟨_, Keyed.mem_of_get? rfl, fun m =>
      grants_toolMap.map (fun x => { m with utilities := x }) fun _ => rfl⟩
  · exact ⟨_, Keyed.mem_of_get? rfl, fun m =>
      grants_toolMap.map (fun x => { m with actions := x }) fun _ => rfl⟩
  · exact ⟨_, Keyed.mem_of_get? rfl, fun m =>
      (grants_table List.mem_cons_self (by simp) grants_mapping).map
        (fun x => { m with mappings := x }) fun _ => rfl⟩
  · exact ⟨_, Keyed.mem_of_get? rfl, fun m =>
      (grants_table List.mem_cons_self (by simp) grants_adapter).map
        (fun x => { m with adapters := x }) fun _ => rfl⟩

end Plugin

end Schema

/-! ## §D Descriptors -/

variable {b : Rulebook} {t : FileTree} {dir : Path} {o : Checks} {f : Finding}

theorem not_prefix_append {lead head : List Char} (h : ¬ lead <+: head) (h' : ¬ head <+: lead)
    (rest : List Char) : ¬ lead <+: head ++ rest := fun hpre =>
  (List.prefix_or_prefix_of_prefix hpre (List.prefix_append head rest)).elim h h'

/-- A descriptor without a document is not reported like a document that is no manifest. -/
theorem DescriptorError.not_structureMessage (cause : DescriptorError) :
    ¬ "Frontmatter does not match the manifest structure".toList <+: cause.message.toList := by
  -- The messages are told apart within the first words.
  suffices h : ¬ "Frontmatter d".toList <+: cause.message.toList from
    fun hlead => h (List.IsPrefix.trans (by decide) hlead)
  cases cause with
  | missing file =>
      show ¬ _ <+: ("Descriptor file " ++ file ++ " not found").toList
      rw [String.toList_append, String.toList_append, List.append_assoc]
      exact not_prefix_append (by decide) (by decide) _
  | unreadable cause => cases cause <;> decide
  | malformed cause =>
      cases cause with
      | missing => decide
      | yaml cause =>
          show ¬ _ <+: ("Frontmatter is not valid YAML: " ++ cause.message).toList
          rw [String.toList_append]
          exact not_prefix_append (by decide) (by decide) _
      | notAMapping found =>
          show ¬ _ <+: ("Frontmatter must be a mapping, found " ++ found.describe).toList
          rw [String.toList_append]
          exact not_prefix_append (by decide) (by decide) _

theorem Descriptor.ofJson_eq_document {v v' : Json} {cause : Mismatch}
    (h : ofJson v' = .document v cause) : v' = v ∧ Manifest.ofJson v = .error cause := by
  unfold ofJson at h
  split at h
  · cases h
  · rename_i hrefused
    obtain ⟨rfl, rfl⟩ := Descriptor.document.inj h
    exact ⟨rfl, hrefused⟩

/-- A document that is no manifest comes from a front matter, so it is canonical. -/
theorem Descriptor.of_read_eq_document {file : String} {v : Json} {cause : Mismatch}
    (h : read t dir file = .document v cause) :
    v.Canonical ∧ Manifest.ofJson v = .error cause := by
  unfold read at h
  split at h
  · cases h
  · split at h
    · rename_i content _
      unfold ofText at h
      split at h
      · rename_i v' hparse
        obtain ⟨rfl, hrefused⟩ := ofJson_eq_document h
        exact ⟨FrontMatter.canonical_of_parse hparse, hrefused⟩
      · cases h
    · cases h

/-- **`schema_refines_manifest`** — a document value without violations of the schema of manifests is
decoded as a manifest. Where plugins are held to that schema, a plugin whose descriptor is reported as
not matching the structure of a manifest therefore has a schema finding as well. -/
theorem schema_refines_manifest :
    (∀ v : Json, v.Canonical → Schema.plugin.violations v = [] → ∃ m, Manifest.ofJson v = .ok m) ∧
      ∀ (b : Rulebook) (t : FileTree) (o : Checks) (shown : String) (p : Plugin),
        b.schema = Schema.plugin → ∀ f ∈ (b.validate t o shown p).findings, f.category = .parse →
          "Frontmatter does not match the manifest structure".toList <+: f.message.toList →
            ∃ g ∈ (b.validate t o shown p).findings, g.category = .schema := by
  have haccepted : ∀ v : Json, v.Canonical → Schema.plugin.violations v = [] →
      ∃ m, Manifest.ofJson v = .ok m := fun v hcanonical hv =>
    Schema.Plugin.grants_manifest _ _ v hcanonical (Schema.Compiled.violations_eq_nil_iff.mp hv).1
  refine ⟨haccepted, fun b t o shown p hschema f hf hparse hlead => ?_⟩
  obtain ⟨d, hd⟩ : ∃ d, Descriptor.read t p.directory b.settings.descriptorFile = d := ⟨_, rfl⟩
  rw [Rulebook.validate, hd] at hf ⊢
  cases d with
  | none cause =>
      rw [List.mem_singleton.mp hf] at hlead
      exact absurd hlead cause.not_structureMessage
  | manifest v m => exact absurd hparse (Rulebook.category_ne_parse_of_manifest hf)
  | document v cause =>
      obtain ⟨hcanonical, hrefused⟩ := Descriptor.of_read_eq_document hd
      cases hviolations : Schema.plugin.violations v with
      | nil =>
          obtain ⟨m, hm⟩ := haccepted v hcanonical hviolations
          rw [hrefused] at hm
          cases hm
      | cons violation rest =>
          refine ⟨Rulebook.violationFinding violation, List.mem_append_left _ ?_, rfl⟩
          rw [Rulebook.schemaFindings, hschema, hviolations]
          exact List.mem_cons_self

/-- A manifest that declares one tool. -/
def oneToolManifest : Json :=
  .object [("id", .string "todo"), ("name", .string "Todo"),
    ("operations", .object [("task.list", .object [("description", .string "List tasks"),
      ("returns", .string "task[]")])]),
    ("tags", .array [.string "tasks"])]

/-- The manifest of one tool violates nothing and is decoded. -/
theorem oneToolManifest_decoded : oneToolManifest.Canonical ∧
    Schema.plugin.violations oneToolManifest = [] ∧ ∃ m, Manifest.ofJson oneToolManifest = .ok m := by
  have hfields : ["id", "name", "operations", "tags"].Pairwise (· < ·) := by decide
  have htools : ["task.list"].Pairwise (· < ·) := by decide
  have htool : ["description", "returns"].Pairwise (· < ·) := by decide
  have hcanonical : oneToolManifest.Canonical :=
    ⟨hfields, trivial, trivial, ⟨htools, ⟨htool, trivial, trivial, trivial⟩, trivial⟩,
      ⟨trivial, trivial⟩, trivial⟩
  have hviolations : Schema.plugin.violations oneToolManifest = [] := by
    refine Schema.Compiled.violations_eq_nil_iff.mpr ⟨?_, fun fields h => ?_⟩
    · rfl
    · rw [← Json.object.inj h]
      rfl
  exact ⟨hcanonical, hviolations, schema_refines_manifest.1 _ hcanonical hviolations⟩

end PluginVet
