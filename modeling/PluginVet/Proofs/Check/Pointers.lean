/-
# PluginVet.Proofs.Check.Pointers — findings point at what they report

Five checks write pointers into a document that they have not seen: they know the manifest that was read
from it. Each pointer is spelled from the names in the manifest, so it leads to the value of that name if
the document spells the declaration out as an object (`finding_pointers`). A tool or an adapter may also
be given as an array of its fields, and an adapter may go without a mapping. The pointer to a return
type, or to anything in such a block, then leads nowhere (`field_arrays_unreachable`).

§A mapping values, §B blocks, §C checks, §D findings.
-/
import PluginVet.Coverage
import PluginVet.Proofs.Check.Entities
import PluginVet.Proofs.Coverage
import PluginVet.Proofs.Expression.Candidate
import PluginVet.Proofs.Manifest.Decode
import PluginVet.References.Audit

namespace PluginVet

/-! ## §A Mapping values -/

namespace MappingValue

theorem ofFields_eq_map (fields : List (String × Json)) :
    ofFields fields = fields.map fun f => (f.1, ofJson f.2) := by
  induction fields with
  | nil => rfl
  | cons f rest ih =>
      obtain ⟨k, v⟩ := f
      rw [ofFields, ih]
      rfl

theorem eq_string_of_ofJson {v : Json} {source : String} (h : ofJson v = .expression source) :
    v = .string source := by
  cases v with
  | string s =>
      obtain rfl : s = source := expression.inj h
      rfl
  | _ => cases h

theorem eq_object_of_ofJson {v : Json} {fields : List (String × MappingValue)}
    (h : ofJson v = .reference fields) :
    ∃ fs, v = .object fs ∧ fields = fs.map fun f => (f.1, ofJson f.2) := by
  cases v with
  | object fs =>
      obtain rfl : ofFields fs = fields := reference.inj h
      exact ⟨fs, rfl, ofFields_eq_map fs⟩
  | _ => cases h

/-- **`at?_of_leads`** — keys lead through a document value as they lead through what was read from it. -/
theorem at?_of_leads {value : MappingValue} {keys : List String} {source : String}
    (h : value.Leads keys source) {v : Json} (hcanonical : v.Canonical) (hv : ofJson v = value) :
    v.at? keys = some (.string source) := by
  -- Each object on the way was read from an object with the same keys.
  induction h generalizing v with
  | here => exact congrArg some (eq_string_of_ofJson hv)
  | inside hmem hleads ih =>
      obtain ⟨fs, rfl, rfl⟩ := eq_object_of_ofJson hv
      obtain ⟨f, hf, hpair⟩ := List.mem_map.mp hmem
      obtain ⟨rfl, hvalue⟩ := Prod.mk.inj hpair
      have hfield : (Json.object fs).field? f.1 = some f.2 := hcanonical.get?_of_mem hf
      rw [Json.at?_cons_of_field? hfield]
      exact ih (hcanonical.of_field? hfield) hvalue

end MappingValue

/-! ## §B Blocks -/

namespace Block

variable {v : Json} {m : Manifest} {b : Block}

/-- **`Reaches b v pointer P`** — where the block is shown, the pointer leads to a value with the property
`P`; where its adapter lacks it, the pointer leads nowhere. -/
def Reaches (b : Block) (v : Json) (pointer : Pointer) (P : Json → Prop) : Prop :=
  (b.ShownIn v → ∃ w, v.atPointer? pointer = some w ∧ P w) ∧
    (b.LacksMapping v → v.atPointer? pointer = none)

theorem reaches_pointer : b.Reaches v b.pointer b.ReadAs := ⟨id, LacksMapping.atPointer?_eq_none⟩

theorem atPointer?_below (hb : b ∈ m.blocks) (keys : List String) :
    v.atPointer? (keys.foldl Pointer.child b.pointer)
      = (v.atPointer? b.pointer).bind (·.at? keys) := by
  rcases Manifest.mem_blocks_iff.mp hb with ⟨hpointer, -⟩ | ⟨hpointer, -⟩
  · rw [hpointer, Json.atPointer?_foldl_child]
  · rw [hpointer, Json.atPointer?_foldl_child]

/-- What keys lead to in the value of a block is reached below the pointer of the block. -/
theorem reaches_below (hb : b ∈ m.blocks) (keys : List String) {P : Json → Prop}
    (h : ∀ node, v.atPointer? b.pointer = some node → b.ReadAs node →
      ∃ w, node.at? keys = some w ∧ P w) :
    b.Reaches v (keys.foldl Pointer.child b.pointer) P := by
  unfold Reaches
  rw [atPointer?_below hb]
  constructor
  · rintro ⟨node, hnode, hread⟩
    rw [hnode]
    exact h node hnode hread
  · intro hlacks
    rw [hlacks.atPointer?_eq_none]
    rfl

section Canonical

variable (hcanonical : v.Canonical) (hb : b ∈ m.blocks)
include hcanonical

theorem exists_field_of_readAs {node : Json} {key : String} {value : MappingValue}
    (hnode : v.atPointer? b.pointer = some node) (hread : b.ReadAs node)
    (hentry : (key, value) ∈ b.entries.entries) :
    ∃ w, node.field? key = some w ∧ w.Canonical ∧ MappingValue.ofJson w = value := by
  have hcanonical' := hcanonical.of_atPointer? hnode
  obtain ⟨w, hw, hvalue⟩ := Manifest.Decode.exists_field_of_mem_table hcanonical' hread hentry
  exact ⟨w, hw, hcanonical'.of_field? hw, Except.ok.inj hvalue⟩

include hb

/-- **`reaches_entry`** — a key of a block leads to what the entry was read from. -/
theorem reaches_entry {key : String} {value : MappingValue}
    (hentry : (key, value) ∈ b.entries.entries) :
    b.Reaches v (Pointer.child b.pointer key) (MappingValue.ofJson · = value) := by
  refine reaches_below hb [key] fun node hnode hread => ?_
  obtain ⟨w, hw, -, hvalue⟩ := exists_field_of_readAs hcanonical hnode hread hentry
  exact ⟨w, Json.at?_cons_of_field? hw [], hvalue⟩

/-- **`reaches_expression`** — the keys that lead to an expression of a block lead to its text. -/
theorem reaches_expression {keys : List String} {source : String}
    (hleads : (MappingValue.reference b.entries.entries).Leads keys source) :
    b.Reaches v (keys.foldl Pointer.child b.pointer) (· = .string source) := by
  refine reaches_below hb keys fun node hnode hread => ⟨_, ?_, rfl⟩
  cases hleads with
  | inside hentry hleads =>
      obtain ⟨w, hw, hcanonical', hvalue⟩ := exists_field_of_readAs hcanonical hnode hread hentry
      rw [Json.at?_cons_of_field? hw]
      exact MappingValue.at?_of_leads hleads hcanonical' hvalue

end Canonical

end Block

/-! ## §C Checks -/

/-- A problem is a stray entry of its block, or it is about the block as a whole. -/
theorem MappingProblem.mem_strays_or_unregistered {r : Registry} {reported : List String}
    {blocks : List Block} {p : MappingProblem} (h : p ∈ ofBlocks r reported blocks) :
    p ∈ strays r p.block ∨ p = .unknownEntity p.block ∧ r.contains p.block.entity = false := by
  induction blocks generalizing reported with
  | nil => exact absurd h List.not_mem_nil
  | cons b rest ih =>
      unfold ofBlocks at h
      split at h
      · rcases List.mem_append.mp h with h | h
        · exact Or.inl ((block_of_mem_strays h).symm ▸ h)
        · exact ih h
      · rename_i hunknown
        split at h
        · exact ih h
        · rcases List.mem_cons.mp h with rfl | h
          · exact Or.inr ⟨rfl, Bool.not_eq_true _ ▸ hunknown⟩
          · exact ih h

theorem MappingProblem.exists_entry_of_mem_strays {r : Registry} {b : Block} {p : MappingProblem}
    (h : p ∈ strays r b) :
    ∃ key value valid, (key, value) ∈ b.entries.entries ∧ p = .unknownProperty b key valid := by
  unfold strays at h
  split at h
  · exact absurd h List.not_mem_nil
  · rename_i valid hvalid
    obtain ⟨⟨key, value⟩, hentry, rfl⟩ := List.mem_map.mp h
    exact ⟨key, value, valid, (List.mem_filter.mp hentry).1, rfl⟩

namespace References

variable {b : Block} {field : String} {i : Issue}

theorem exists_entry_of_mem_keys (h : field ∈ (ofBlock b).keys) :
    ∃ value, (field, value) ∈ b.entries.entries := by
  obtain ⟨reference, hreference, rfl⟩ := List.mem_map.mp h
  obtain ⟨⟨key, value⟩, hentry, hsome⟩ :=
    List.mem_filterMap.mp (Keyed.mem_of_mem_ofList hreference)
  obtain ⟨target, -, rfl⟩ := Option.map_eq_some_iff.mp hsome
  exact ⟨value, hentry⟩

theorem pointer_of_mem_missingIssues (h : i ∈ missingIssues b) : i.pointer = b.pointer := by
  obtain ⟨expectation, -, rfl⟩ := List.mem_map.mp h
  rfl

theorem pointer_of_displayIssue? (h : displayIssue? b field = some i) :
    i.pointer = Pointer.child b.pointer field := by
  unfold displayIssue? at h
  split at h
  · cases h
  · rw [← Option.some.inj h]

theorem exists_block_of_mem_references {path : String} {m : Manifest} {pointer : Pointer}
    (h : pointer ∈ (audit path m).references.keys) : ∃ b ∈ m.blocks, pointer = b.pointer := by
  obtain ⟨entry, hentry, rfl⟩ := List.mem_map.mp h
  obtain ⟨b, hb, rfl⟩ := List.mem_map.mp (Keyed.mem_of_mem_ofList hentry)
  exact ⟨b, (List.mem_filter.mp hb).1, rfl⟩

end References

/-! ## §D Findings -/

namespace Manifest

variable {v : Json} {m : Manifest} {r : Registry} {b : Block}

section Decoded

variable (hcanonical : v.Canonical) (hobject : v.isObject = true) (hm : Manifest.ofJson v = .ok m)
include hcanonical hobject hm

theorem reaches_of_mem_returnFindings {f : Finding} (hf : f ∈ m.returnFindings r) :
    ∃ d ∈ m.tools, ∃ entity node returned, f = UnknownReturn.finding r ⟨d, entity⟩ ∧
      v.atPointer? d.pointer = some node ∧ Decode.tool node = .ok d.tool ∧
      d.tool.returns = some returned ∧
      v.atPointer? f.pointer = if node.isObject then some (.string returned) else none := by
  obtain ⟨u, hu, rfl⟩ := List.mem_map.mp hf
  obtain ⟨hd, ⟨returned, hreturned, -⟩, -⟩ := mem_unknownReturns.mp hu
  obtain ⟨node, hnode, hread⟩ := exists_node_of_mem_tools hcanonical hobject hm hd
  refine ⟨u.declared, hd, u.entity, node, returned, rfl, hnode, hread, hreturned, ?_⟩
  -- The pointer is that of the tool with one more key.
  show v.atPointer? (["returns"].foldl Pointer.child (Pointer.ofKeys _)) = _
  rw [Json.atPointer?_foldl_child]
  show (v.atPointer? u.declared.pointer).bind _ = _
  rw [hnode]
  exact Decode.at?_returns (hcanonical.of_atPointer? hnode) hread hreturned

theorem reaches_of_mem_coverage {index : Coverage.Index} {f : Finding}
    (hf : f ∈ Coverage.findings m index) :
    ∃ d ∈ m.tools, ∃ node, f = Coverage.finding d ∧ v.atPointer? f.pointer = some node ∧
      Decode.tool node = .ok d.tool := by
  obtain ⟨d, hd, rfl⟩ := List.mem_map.mp hf
  have htool := (List.mem_filter.mp (Coverage.firstDeclarations_sublist.mem hd)).1
  obtain ⟨node, hnode, hread⟩ := exists_node_of_mem_tools hcanonical hobject hm htool
  exact ⟨d, htool, node, rfl, hnode, hread⟩

end Decoded

variable (hcanonical : v.Canonical)
include hcanonical

theorem reaches_of_mem_mappingFindings {flagged : Names} {f : Finding}
    (hf : f ∈ m.mappingFindings r flagged) :
    ∃ b ∈ m.blocks,
      (f = MappingProblem.finding r (.unknownEntity b) ∧ b.Reaches v f.pointer b.ReadAs) ∨
      ∃ key value valid, (key, value) ∈ b.entries.entries ∧
        f = MappingProblem.finding r (.unknownProperty b key valid) ∧
        b.Reaches v f.pointer (MappingValue.ofJson · = value) := by
  obtain ⟨p, hp, rfl⟩ := List.mem_map.mp hf
  have hb := (block_of_mem_mappingProblems hp).1
  refine ⟨p.block, hb, ?_⟩
  rcases MappingProblem.mem_strays_or_unregistered hp with hstray | ⟨hunknown, -⟩
  · obtain ⟨key, value, valid, hentry, heq⟩ := MappingProblem.exists_entry_of_mem_strays hstray
    rw [heq]
    exact Or.inr ⟨key, value, valid, hentry, rfl, Block.reaches_entry hcanonical hb hentry⟩
  · rw [hunknown]
    exact Or.inl ⟨rfl, Block.reaches_pointer⟩

theorem reaches_of_mem_issues {path : String} {i : References.Issue}
    (hi : i ∈ (References.audit path m).issues) :
    ∃ b ∈ m.blocks, (i ∈ References.missingIssues b ∧ b.Reaches v i.pointer b.ReadAs) ∨
      ∃ field value, (field, value) ∈ b.entries.entries ∧
        References.displayIssue? b field = some i ∧
        b.Reaches v i.pointer (MappingValue.ofJson · = value) := by
  obtain ⟨b, hb, hi⟩ := List.mem_flatMap.mp hi
  refine ⟨b, hb, ?_⟩
  rcases List.mem_append.mp hi with hi | hi
  · refine Or.inl ⟨hi, ?_⟩
    rw [References.pointer_of_mem_missingIssues hi]
    exact Block.reaches_pointer
  · obtain ⟨field, hfield, hissue⟩ := List.mem_filterMap.mp hi
    obtain ⟨value, hentry⟩ := References.exists_entry_of_mem_keys hfield
    refine Or.inr ⟨field, value, hentry, hissue, ?_⟩
    rw [References.pointer_of_displayIssue? hissue]
    exact Block.reaches_entry hcanonical hb hentry

theorem reaches_of_mem_lintMapping {f : Expression.LintFinding} (hb : b ∈ m.blocks)
    (hf : f ∈ Expression.lintMapping b.pointer b.entries.entries) :
    b.Reaches v f.pointer (· = .string f.source) := by
  obtain ⟨keys, hleads, hpointer⟩ := Expression.exists_leads_of_mem_lintMapping hf
  rw [hpointer]
  exact Block.reaches_expression hcanonical hb hleads

end Manifest

/-- **`finding_pointers`** — where the pointers of all findings and issues lead, in the document that the
manifest was read from. That of a missing test leads to the tool; that of an unknown return type to this
text, if the tool is an object and not an array. All others are about a block: they lead to the block, to
the entry or to the expression that they report, if the block is shown, and nowhere if its adapter lacks
it; one of the two holds. -/
theorem finding_pointers (v : Json) (m : Manifest) (r : Registry) (flagged : Names)
    (index : Coverage.Index) (path : String) (hcanonical : v.Canonical) (hobject : v.isObject = true)
    (hm : Manifest.ofJson v = .ok m) :
    (∀ f ∈ m.returnFindings r, ∃ d ∈ m.tools, ∃ entity node returned,
      f = UnknownReturn.finding r ⟨d, entity⟩ ∧ v.atPointer? d.pointer = some node ∧
      Manifest.Decode.tool node = .ok d.tool ∧ d.tool.returns = some returned ∧
      v.atPointer? f.pointer = if node.isObject then some (.string returned) else none) ∧
    (∀ f ∈ Coverage.findings m index, ∃ d ∈ m.tools, ∃ node, f = Coverage.finding d ∧
      v.atPointer? f.pointer = some node ∧ Manifest.Decode.tool node = .ok d.tool) ∧
    (∀ b ∈ m.blocks, ¬ b.ShownIn v ↔ b.LacksMapping v) ∧
    (∀ f ∈ m.mappingFindings r flagged, ∃ b ∈ m.blocks,
      (f = MappingProblem.finding r (.unknownEntity b) ∧ b.Reaches v f.pointer b.ReadAs) ∨
      ∃ key value valid, (key, value) ∈ b.entries.entries ∧
        f = MappingProblem.finding r (.unknownProperty b key valid) ∧
        b.Reaches v f.pointer (MappingValue.ofJson · = value)) ∧
    (∀ i ∈ (References.audit path m).issues, ∃ b ∈ m.blocks,
      (i ∈ References.missingIssues b ∧ b.Reaches v i.pointer b.ReadAs) ∨
      ∃ field value, (field, value) ∈ b.entries.entries ∧
        References.displayIssue? b field = some i ∧
        b.Reaches v i.pointer (MappingValue.ofJson · = value)) ∧
    (∀ pointer ∈ (References.audit path m).references.keys, ∃ b ∈ m.blocks,
      pointer = b.pointer ∧ b.Reaches v pointer b.ReadAs) ∧
    ∀ b ∈ m.blocks, ∀ f ∈ Expression.lintMapping b.pointer b.entries.entries,
      b.Reaches v f.pointer (· = .string f.source) := by
  refine ⟨fun f hf => ?_, fun f hf => ?_, fun b hb => ?_, fun f hf => ?_, fun i hi => ?_,
    fun pointer hpointer => ?_, fun b hb f hf => ?_⟩
  · exact Manifest.reaches_of_mem_returnFindings hcanonical hobject hm hf
  · exact Manifest.reaches_of_mem_coverage hcanonical hobject hm hf
  · exact Manifest.not_shownIn_iff hcanonical hobject hm hb
  · exact Manifest.reaches_of_mem_mappingFindings hcanonical hf
  · exact Manifest.reaches_of_mem_issues hcanonical hi
  · obtain ⟨b, hb, rfl⟩ := References.exists_block_of_mem_references hpointer
    exact ⟨b, hb, rfl, Block.reaches_pointer⟩
  · exact Manifest.reaches_of_mem_lintMapping hcanonical hb hf

/-- A tool and a block, both spelled out as objects. -/
def spelledOut : Json :=
  .object [("mappings", .object [("task", .object [("title", .string ".name == 'x'")])]),
    ("operations", .object [("task.list", .object [("returns", .string "tsk[]")])])]

/-- Where all is spelled out, a missing test is reported at the tool and an expression at its text. -/
theorem finding_pointers_spelledOut : spelledOut.Canonical ∧ spelledOut.isObject = true ∧
    ∃ m, Manifest.ofJson spelledOut = .ok m ∧
      (∀ f ∈ Coverage.findings m .empty, ∃ node, spelledOut.atPointer? f.pointer = some node) ∧
      ∀ b ∈ m.blocks, ∀ f ∈ Expression.lintMapping b.pointer b.entries.entries,
        spelledOut.atPointer? f.pointer = some (.string f.source) := by
  have hsections : ["mappings", "operations"].Pairwise (· < ·) := by decide
  have hcanonical : spelledOut.Canonical :=
    ⟨hsections, ⟨List.pairwise_singleton _ _, ⟨List.pairwise_singleton _ _, trivial, trivial⟩,
        trivial⟩,
      ⟨List.pairwise_singleton _ _, ⟨List.pairwise_singleton _ _, trivial, trivial⟩, trivial⟩,
      trivial⟩
  obtain ⟨m, hm⟩ : ∃ m, Manifest.ofJson spelledOut = .ok m := ⟨_, rfl⟩
  obtain ⟨-, hcoverage, hshown, -, -, -, hlint⟩ :=
    finding_pointers spelledOut m .empty .empty .empty "" hcanonical rfl hm
  refine ⟨hcanonical, rfl, m, hm, fun f hf => ?_, fun b hb f hf => ?_⟩
  · obtain ⟨d, -, node, -, hnode, -⟩ := hcoverage f hf
    exact ⟨node, hnode⟩
  · -- There are no adapters, so every block is shown.
    have hnot : ¬ b.LacksMapping spelledOut := by
      rintro ⟨-, adapter, hadapter, -⟩
      have hnone : spelledOut.at? ["adapters", b.entity] = none := rfl
      rw [hnone] at hadapter
      cases hadapter
    obtain ⟨w, hw, rfl⟩ := (hlint b hb f hf).1
      (Classical.not_not.mp fun h => hnot ((hshown b hb).mp h))
    exact hw

/-- An adapter and a tool, each given as the array of its fields. -/
def fieldArrays : Json :=
  .object [("adapters", .object [("post", .array [.object [("title", .string ".title")]])]),
    ("operations", .object [("post.list", .array [.string "List posts", .string "pst"])])]

/-- **`field_arrays_unreachable`** — the pointers to a return type and to a block that arrays hold lead
nowhere, though both are there. -/
theorem field_arrays_unreachable : ∃ m, Manifest.ofJson fieldArrays = .ok m ∧
    (∃ f ∈ m.returnFindings .empty, f.pointer = "/operations/post.list/returns" ∧
      fieldArrays.atPointer? f.pointer = none) ∧
    fieldArrays.atPointer? "/operations/post.list/1" = some (.string "pst") ∧
    (∃ i ∈ (References.audit "" m).issues, i.pointer = "/adapters/post/mapping" ∧
      fieldArrays.atPointer? i.pointer = none) ∧
    ∃ b ∈ m.blocks, ∃ node, fieldArrays.atPointer? "/adapters/post/0" = some node ∧ b.ReadAs node := by
  refine ⟨_, rfl, ⟨_, List.mem_cons_self, ?_, ?_⟩, ?_, ⟨_, List.mem_cons_self, ?_, ?_⟩,
    ⟨_, List.mem_cons_self, _, rfl, ?_⟩⟩
  · rfl
  · rfl
  · rfl
  · rfl
  · rfl
  · rfl

end PluginVet
