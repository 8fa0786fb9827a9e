/-
# PluginVet.Proofs.Manifest.Sections — what the sections of a manifest declare, and the order of it

A manifest declares each tool in one of three sections and each mapping block in one of two forms. Checks
and reports never look at the sections themselves, they go through two lists. The lists hold what the
sections and forms hold, and nothing else: `listsTools` says so of the tools, which are ordered by section
and then by name, and `listsBlocks` of the blocks, of which those under `mappings` come first. So the first
block about an entity is the one under `mappings`, or that of its adapter where there is none
(`find?_blocks_eq_some_iff`).

§A tools, §B blocks.
-/
import PluginVet.Manifest.Basic
import PluginVet.Proofs.Keyed

namespace PluginVet

variable {m : Manifest}

/-! ## §A Tools -/

/-- The place of a section in the order of declarations. -/
def ToolKind.rank : ToolKind → Nat
  | .operation => 0
  | .utility => 1
  | .action => 2

namespace DeclaredTool

variable {d d' : DeclaredTool}

/-- **`Before d d'`** — `d` is declared in an earlier section, or in the same one under a smaller name. -/
def Before (d d' : DeclaredTool) : Prop :=
  d.kind.rank < d'.kind.rank ∨ d.kind = d'.kind ∧ d.name < d'.name

theorem Before.irrefl : ¬ d.Before d := by
  rintro (h | ⟨-, h⟩)
  · exact Nat.lt_irrefl _ h
  · exact String.lt_irrefl _ h

theorem Before.asymm (h : d.Before d') : ¬ d'.Before d := by
  rcases h with h | ⟨hkind, h⟩ <;> rintro (h' | ⟨hkind', h'⟩)
  · exact Nat.lt_asymm h h'
  · exact Nat.lt_irrefl _ (hkind' ▸ h)
  · exact Nat.lt_irrefl _ (hkind ▸ h')
  · exact String.lt_irrefl _ (String.lt_trans h h')

/-- **`d.DeclaredIn m`** — one of the three sections has the tool under its name. -/
inductive DeclaredIn (m : Manifest) : DeclaredTool → Prop
  | operation {name : String} {tool : Tool} :
      m.operations.get? name = some tool → DeclaredIn m ⟨.operation, name, tool⟩
  | utility {name : String} {tool : Tool} :
      m.utilities.get? name = some tool → DeclaredIn m ⟨.utility, name, tool⟩
  | action {name : String} {tool : Tool} :
      m.actions.get? name = some tool → DeclaredIn m ⟨.action, name, tool⟩

theorem declaredIn_iff : d.DeclaredIn m ↔ (m.toolSection d.kind).get? d.name = some d.tool := by
  constructor
  · rintro (h | h | h) <;> exact h
  · obtain ⟨kind, name, tool⟩ := d
    cases kind with
    | operation => exact .operation
    | utility => exact .utility
    | action => exact .action

end DeclaredTool

/-- **`m.ListsTools ds`** — the list has the tools that some section declares, ordered by section and then
by name. -/
structure Manifest.ListsTools (m : Manifest) (ds : List DeclaredTool) : Prop where
  ordered : ds.Pairwise DeclaredTool.Before
  declared : ∀ d : DeclaredTool, d ∈ ds ↔ d.DeclaredIn m

namespace Manifest

variable {d : DeclaredTool}

theorem kind_of_mem_toolsOf {kind : ToolKind} (h : d ∈ m.toolsOf kind) : d.kind = kind := by
  obtain ⟨e, -, rfl⟩ := List.mem_map.mp h
  rfl

theorem pairwise_toolsOf (m : Manifest) (kind : ToolKind) :
    (m.toolsOf kind).Pairwise DeclaredTool.Before := by
  rw [toolsOf, List.pairwise_map]
  have hsorted := List.pairwise_map.mp (m.toolSection kind).sorted
  exact hsorted.imp fun h => Or.inr ⟨rfl, h⟩

/-- Tools are listed section by section, and by name in each. -/
theorem pairwise_tools (m : Manifest) : m.tools.Pairwise DeclaredTool.Before := by
  have hacross : ∀ {kind kind' : ToolKind}, kind.rank < kind'.rank →
      ∀ d ∈ m.toolsOf kind, ∀ d' ∈ m.toolsOf kind', d.Before d' := by
    intro kind kind' hlt d hd d' hd'
    rw [← kind_of_mem_toolsOf hd, ← kind_of_mem_toolsOf hd'] at hlt
    exact Or.inl hlt
  rw [tools, List.pairwise_append, List.pairwise_append]
  refine ⟨⟨m.pairwise_toolsOf _, m.pairwise_toolsOf _, hacross (by decide)⟩,
    m.pairwise_toolsOf _, fun d hd => ?_⟩
  rcases List.mem_append.mp hd with hd | hd
  · exact hacross (by decide) d hd
  · exact hacross (by decide) d hd

theorem mem_tools_iff : d ∈ m.tools ↔ (d.name, d.tool) ∈ (m.toolSection d.kind).entries := by
  obtain ⟨kind, name, tool⟩ := d
  simp only [tools, toolsOf, List.mem_append, List.mem_map, DeclaredTool.mk.injEq, Prod.exists]
  cases kind <;> simp

theorem mem_tools_iff_declaredIn : d ∈ m.tools ↔ d.DeclaredIn m := by
  rw [mem_tools_iff, DeclaredTool.declaredIn_iff]
  exact (Keyed.get?_eq_some_iff (m.toolSection d.kind).sorted).symm

/-- **`listsTools`** — `tools` lists what the sections declare. -/
theorem listsTools (m : Manifest) : m.ListsTools m.tools :=
  ⟨m.pairwise_tools, fun _ => mem_tools_iff_declaredIn⟩

/-- A name is among those of the tools if some section declares it. -/
theorem contains_toolNames_iff {name : String} :
    m.toolNames.contains name = true ↔ ∃ d : DeclaredTool, d.DeclaredIn m ∧ d.name = name := by
  rw [toolNames, Names.contains_ofNames, List.mem_map]
  simp only [mem_tools_iff_declaredIn]

end Manifest

/-! ## §B Blocks -/

/-- The two forms in which blocks are declared. -/
inductive BlockForm where
  | mapping | adapter

namespace BlockForm

def rank : BlockForm → Nat
  | .mapping => 0
  | .adapter => 1

/-- The declared blocks of this form, by entity. -/
def declared (m : Manifest) : BlockForm → Table Mapping
  | .mapping => m.mappings
  | .adapter => m.adapters

/-- The keys that lead to the block of an entity. -/
def keys (entity : String) : BlockForm → List String
  | .mapping => ["mappings", entity]
  | .adapter => ["adapters", entity, "mapping"]

/-- The block of an entity, as it is declared in this form. -/
def block (form : BlockForm) (b : String × Mapping) : Block :=
  ⟨b.1, Pointer.ofKeys (form.keys b.1), b.2⟩

end BlockForm

/-- **`b.DeclaredAs m form`** — the manifest has the block in this form, and the block has the pointer to
the place of its declaration. -/
inductive Block.DeclaredAs (m : Manifest) : BlockForm → Block → Prop
  | mapping {entity : String} {entries : Mapping} : m.mappings.get? entity = some entries →
      DeclaredAs m .mapping ⟨entity, Pointer.ofKeys ["mappings", entity], entries⟩
  | adapter {entity : String} {entries : Mapping} : m.adapters.get? entity = some entries →
      DeclaredAs m .adapter ⟨entity, Pointer.ofKeys ["adapters", entity, "mapping"], entries⟩

/-- **`form.Lists m bs`** — the list has the blocks that are declared in this form, ordered by entity. -/
structure BlockForm.Lists (form : BlockForm) (m : Manifest) (bs : List Block) : Prop where
  ordered : (bs.map (·.entity)).Pairwise (· < ·)
  declared : ∀ b : Block, b ∈ bs ↔ b.DeclaredAs m form

/-- **`m.ListsBlocks bs`** — the list has the blocks under `mappings`, and behind them those of adapters. -/
def Manifest.ListsBlocks (m : Manifest) (bs : List Block) : Prop :=
  ∃ mapped adapted, bs = mapped ++ adapted ∧ BlockForm.mapping.Lists m mapped ∧
    BlockForm.adapter.Lists m adapted

/-- **`m.FirstBlock entity b`** — the block is that of the entity under `mappings`, or that of its adapter
if there is none under `mappings`. -/
inductive Manifest.FirstBlock (m : Manifest) (entity : String) : Block → Prop
  | mapping {entries : Mapping} : m.mappings.get? entity = some entries →
      FirstBlock m entity ⟨entity, Pointer.ofKeys ["mappings", entity], entries⟩
  | adapter {entries : Mapping} : m.mappings.get? entity = none →
      m.adapters.get? entity = some entries →
      FirstBlock m entity ⟨entity, Pointer.ofKeys ["adapters", entity, "mapping"], entries⟩

namespace BlockForm

variable {form : BlockForm} {b : Block}

theorem declaredAs_iff : b.DeclaredAs m form ↔ b.pointer = Pointer.ofKeys (form.keys b.entity) ∧
    (b.entity, b.entries) ∈ (form.declared m).entries := by
  rw [← Keyed.get?_eq_some_iff (form.declared m).sorted]
  constructor
  · rintro (h | h) <;> exact ⟨rfl, h⟩
  · obtain ⟨entity, pointer, entries⟩ := b
    rintro ⟨hpointer, h⟩
    obtain rfl : pointer = Pointer.ofKeys (form.keys entity) := hpointer
    cases form with
    | mapping => exact .mapping h
    | adapter => exact .adapter h

theorem mem_map_block :
    b ∈ (form.declared m).entries.map form.block ↔ b.DeclaredAs m form := by
  rw [List.mem_map, declaredAs_iff]
  constructor
  · rintro ⟨e, he, rfl⟩
    exact ⟨rfl, he⟩
  · rintro ⟨hpointer, hentry⟩
    exact ⟨_, hentry, by rw [block, ← hpointer]⟩

theorem lists (form : BlockForm) (m : Manifest) :
    form.Lists m ((form.declared m).entries.map form.block) := by
  refine ⟨?_, fun b => mem_map_block⟩
  rw [List.map_map]
  exact (form.declared m).sorted

/-- Of the blocks of one form there is one about an entity at most. -/
theorem find?_map_block (form : BlockForm) (entries : Keyed Mapping) (entity : String) :
    (entries.map form.block).find? (·.entity = entity)
      = (entries.get? entity).map fun found => form.block (entity, found) := by
  induction entries with
  | nil => rfl
  | cons e rest ih =>
      obtain ⟨key, found⟩ := e
      rw [List.map_cons, Keyed.get?]
      by_cases hkey : key = entity
      · subst hkey
        rw [List.find?_cons_of_pos (by simp [block]), if_pos rfl]
        rfl
      · rw [List.find?_cons_of_neg (by simp [block, hkey]), if_neg hkey, ih]

end BlockForm

namespace Manifest

variable {b : Block} {entity : String}

theorem blocks_eq (m : Manifest) : m.blocks
    = m.mappings.entries.map BlockForm.mapping.block ++ m.adapters.entries.map BlockForm.adapter.block :=
  rfl

/-- **`listsBlocks`** — `blocks` lists what is declared in either form. -/
theorem listsBlocks (m : Manifest) : m.ListsBlocks m.blocks :=
  ⟨_, _, m.blocks_eq, BlockForm.mapping.lists m, BlockForm.adapter.lists m⟩

theorem mem_blocks_iff : b ∈ m.blocks ↔
    b.pointer = Pointer.ofKeys ["mappings", b.entity] ∧ (b.entity, b.entries) ∈ m.mappings.entries ∨
    b.pointer = Pointer.ofKeys ["adapters", b.entity, "mapping"] ∧
      (b.entity, b.entries) ∈ m.adapters.entries := by
  rw [blocks_eq, List.mem_append]
  exact or_congr (BlockForm.mem_map_block.trans BlockForm.declaredAs_iff)
    (BlockForm.mem_map_block.trans BlockForm.declaredAs_iff)

/-- **`find?_blocks_eq_some_iff`** — the block that is found first is that under `mappings`, if there is
one. -/
theorem find?_blocks_eq_some_iff :
    m.blocks.find? (·.entity = entity) = some b ↔ m.FirstBlock entity b := by
  rw [blocks_eq, List.find?_append, BlockForm.find?_map_block, BlockForm.find?_map_block]
  constructor
  · intro h
    cases hmapping : m.mappings.entries.get? entity with
    | some entries =>
        rw [hmapping] at h
        obtain rfl := Option.some.inj h
        exact .mapping hmapping
    | none =>
        rw [hmapping] at h
        obtain ⟨entries, hadapter, rfl⟩ := Option.map_eq_some_iff.mp h
        exact .adapter hmapping hadapter
  · rintro (hmapping | ⟨hnone, hadapter⟩)
    · rw [show m.mappings.entries.get? entity = _ from hmapping]
      rfl
    · rw [show m.mappings.entries.get? entity = _ from hnone,
        show m.adapters.entries.get? entity = _ from hadapter]
      rfl

theorem FirstBlock.entity_eq (h : m.FirstBlock entity b) : b.entity = entity := by
  cases h <;> rfl

end Manifest

end PluginVet
