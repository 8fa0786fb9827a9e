/-
# PluginVet.Proofs.Check.Entities — every unknown entity is reported once

Two checks look for entities that are not registered: one at the return types of tools, the other at
mapping blocks. The entities that the first one reports are flagged for the second one. So whatever
unknown entity a declared tool refers to or a declared block is about is reported, and none by both checks
(`unknown_entities_reported_once`).

§A what tools refer to, §B return types, §C mapping blocks, §D both checks.
-/
import Mathlib.Data.List.Forall2
import PluginVet.Check.Mappings
import PluginVet.Check.Returns
import PluginVet.Proofs.Manifest.Sections
import PluginVet.Proofs.Text.Search

namespace PluginVet

variable {r : Registry} {m : Manifest} {e : String}

/-! ## §A What tools refer to -/

/-- **`RefersTo t e`** — the tool returns `e` or a list of `e`, and not `void`. -/
def Tool.RefersTo (t : Tool) (e : String) : Prop :=
  ∃ returned, t.returns = some returned ∧ returned ≠ "void" ∧
    (returned = e ++ "[]" ∨ returned = e ∧ ∀ e', returned ≠ e' ++ "[]")

/-- A list marker is what `dropTail?` takes off. -/
theorem eq_append_marker_iff {returned : String} :
    returned = e ++ "[]" ↔ Text.dropTail? ['[', ']'] returned.toList = some e.toList := by
  rw [Text.dropTail?_eq_some_iff, ← String.toList_inj, String.toList_append]
  rfl

theorem Tool.entity?_eq_some_iff {t : Tool} : t.entity? = some e ↔ t.RefersTo e := by
  unfold entity? RefersTo
  split
  · rename_i h
    simp [h]
  · rename_i h
    simp [h]
  · rename_i returned hvoid h
    have hnot : returned ≠ "void" := hvoid
    simp only [h, Option.some.injEq, exists_eq_left', ne_eq, hnot, not_false_eq_true, true_and,
      eq_append_marker_iff]
    cases hmarker : Text.dropTail? ['[', ']'] returned.toList with
    | none => simp
    | some stem =>
        constructor
        · intro h
          obtain rfl := Option.some.inj h
          exact Or.inl (congrArg some String.toList_ofList.symm)
        · rintro (h | ⟨-, hplain⟩)
          · exact congrArg some ((congrArg String.ofList (Option.some.inj h)).trans
              String.ofList_toList)
          · exact absurd (congrArg some String.toList_ofList.symm) (hplain (String.ofList stem))

/-- Some tool that a section declares refers to the entity. -/
def Manifest.RefersTo (m : Manifest) (e : String) : Prop :=
  ∃ d : DeclaredTool, d.DeclaredIn m ∧ d.tool.RefersTo e

/-- The entity has a block under `mappings` or an adapter. -/
def Manifest.Maps (m : Manifest) (e : String) : Prop :=
  m.mappings.contains e = true ∨ m.adapters.contains e = true

theorem Manifest.maps_iff : m.Maps e ↔ ∃ b, m.FirstBlock e b := by
  rw [Maps, Table.contains, Table.contains, Keyed.contains, Keyed.contains, Option.isSome_iff_exists,
    Option.isSome_iff_exists]
  constructor
  · intro h
    cases hmapping : m.mappings.entries.get? e with
    | some entries => exact ⟨_, .mapping hmapping⟩
    | none =>
        rw [hmapping] at h
        obtain ⟨entries, hadapter⟩ := h.resolve_left (by simp)
        exact ⟨_, .adapter hmapping hadapter⟩
  · rintro ⟨_, hmapping | ⟨-, hadapter⟩⟩
    · exact Or.inl ⟨_, hmapping⟩
    · exact Or.inr ⟨_, hadapter⟩

/-! ## §B Return types -/

/-- The tool refers to an entity that is not registered. -/
def Registry.Misses (r : Registry) (d : DeclaredTool) : Prop :=
  ∃ e, d.tool.RefersTo e ∧ r.contains e = false

/-- What the return check finds at a tool is an unregistered entity that the tool refers to. -/
theorem Manifest.unknownReturn?_eq_some_iff {d : DeclaredTool} {u : UnknownReturn} :
    unknownReturn? r d = some u ↔
      u.declared = d ∧ d.tool.RefersTo u.entity ∧ r.contains u.entity = false := by
  obtain ⟨declared, entity⟩ := u
  rw [← Tool.entity?_eq_some_iff, unknownReturn?]
  cases d.tool.entity? with
  | none => simp
  | some e =>
      show (if r.contains e then none else some (UnknownReturn.mk d e)) = some _ ↔ _
      rw [Option.some.injEq]
      constructor
      · intro h
        split at h
        · cases h
        · rename_i hunknown
          obtain ⟨rfl, rfl⟩ := UnknownReturn.mk.inj (Option.some.inj h)
          exact ⟨rfl, rfl, Bool.not_eq_true _ ▸ hunknown⟩
      · rintro ⟨rfl, rfl, hunknown⟩
        rw [hunknown]
        rfl

theorem Registry.misses_iff {d : DeclaredTool} :
    r.Misses d ↔ (Manifest.unknownReturn? r d).isSome = true := by
  rw [Option.isSome_iff_exists]
  constructor
  · rintro ⟨e, he⟩
    exact ⟨⟨d, e⟩, Manifest.unknownReturn?_eq_some_iff.mpr ⟨rfl, he⟩⟩
  · rintro ⟨u, hu⟩
    exact ⟨u.entity, (Manifest.unknownReturn?_eq_some_iff.mp hu).2⟩

instance (r : Registry) : DecidablePred r.Misses :=
  fun _ => decidable_of_iff _ Registry.misses_iff.symm

/-- The tools that refer to an unregistered entity are found one by one, in order. -/
theorem Manifest.unknownReturns_forall₂ (m : Manifest) (r : Registry) :
    List.Forall₂ (fun d u => unknownReturn? r d = some u) (m.tools.filter (r.Misses ·))
      (m.unknownReturns r) := by
  rw [unknownReturns]
  induction m.tools with
  | nil => exact .nil
  | cons d rest ih =>
      rw [List.filter_cons, List.filterMap_cons]
      cases hd : unknownReturn? r d with
      | none =>
          have hknown : ¬ r.Misses d := by simp [Registry.misses_iff, hd]
          simpa [hknown] using ih
      | some u =>
          have hmisses : r.Misses d := by simp [Registry.misses_iff, hd]
          simpa [hmisses] using And.intro hd ih

theorem Manifest.mem_unknownReturns {u : UnknownReturn} : u ∈ m.unknownReturns r ↔
    u.declared ∈ m.tools ∧ u.declared.tool.RefersTo u.entity ∧ r.contains u.entity = false := by
  rw [unknownReturns, List.mem_filterMap]
  constructor
  · rintro ⟨d, hd, hu⟩
    obtain ⟨rfl, hrefers, hunknown⟩ := unknownReturn?_eq_some_iff.mp hu
    exact ⟨hd, hrefers, hunknown⟩
  · rintro ⟨hd, h⟩
    exact ⟨u.declared, hd, unknownReturn?_eq_some_iff.mpr ⟨rfl, h⟩⟩

/-- **`contains_unknownEntities`** — flagged are the unregistered entities that some tool refers to. -/
theorem Manifest.contains_unknownEntities : (m.unknownEntities r).contains e = true ↔
    r.contains e = false ∧ m.RefersTo e := by
  rw [unknownEntities, Names.contains_ofNames, List.mem_map]
  constructor
  · rintro ⟨u, hu, rfl⟩
    obtain ⟨hd, hrefers, hunknown⟩ := mem_unknownReturns.mp hu
    exact ⟨hunknown, u.declared, mem_tools_iff_declaredIn.mp hd, hrefers⟩
  · rintro ⟨hunknown, d, hd, hrefers⟩
    have hmem : d ∈ m.tools := mem_tools_iff_declaredIn.mpr hd
    exact ⟨⟨d, e⟩, mem_unknownReturns.mpr ⟨hmem, hrefers, hunknown⟩, rfl⟩

/-! ## §C Mapping blocks -/

namespace MappingProblem

variable {b : Block} {blocks : List Block} {reported : List String} {p : MappingProblem}

/-- The block that a problem lies in. -/
def block : MappingProblem → Block
  | unknownEntity b => b
  | unknownProperty b _ _ => b

theorem block_of_mem_strays (h : p ∈ strays r b) : p.block = b := by
  unfold strays at h
  split at h
  · exact absurd h List.not_mem_nil
  · obtain ⟨entry, -, rfl⟩ := List.mem_map.mp h
    rfl

theorem block_mem_of_mem_ofBlocks (h : p ∈ ofBlocks r reported blocks) : p.block ∈ blocks := by
  induction blocks generalizing reported with
  | nil => exact absurd h List.not_mem_nil
  | cons b rest ih =>
      unfold ofBlocks at h
      split at h
      · rcases List.mem_append.mp h with h | h
        · exact block_of_mem_strays h ▸ List.mem_cons_self
        · exact List.mem_cons_of_mem _ (ih h)
      · split at h
        · exact List.mem_cons_of_mem _ (ih h)
        · rcases List.mem_cons.mp h with rfl | h
          · exact List.mem_cons_self
          · exact List.mem_cons_of_mem _ (ih h)

/-- **`ofBlocks_about_unknown`** — about an entity that is not registered there is one problem, at its first
block, unless it was reported before. -/
theorem ofBlocks_about_unknown (he : r.contains e = false) :
    (ofBlocks r reported blocks).filter (·.block.entity = e)
      = if reported.contains e then []
        else ((blocks.find? (·.entity = e)).map unknownEntity).toList := by
  induction blocks generalizing reported with
  | nil => simp [ofBlocks]
  | cons b rest ih =>
      unfold ofBlocks
      by_cases hb : b.entity = e
      · subst hb
        rw [if_neg (by simp [he]), List.find?_cons_of_pos (by simp)]
        split
        · rename_i hreported
          rw [ih, if_pos hreported]
        · -- From here on the entity counts as reported.
          rw [List.filter_cons_of_pos (by simp [block]), ih, if_pos (by simp)]
          rfl
      · have hother : ∀ p ∈ strays r b, ¬ decide (p.block.entity = e) = true := by
          intro p hp
          simpa [block_of_mem_strays hp] using hb
        rw [List.find?_cons_of_neg (by simp [hb])]
        split
        · rw [List.filter_append, List.filter_eq_nil_iff.mpr hother, List.nil_append, ih]
        · split
          · exact ih
          · rw [List.filter_cons_of_neg (by simp [block, hb]), ih]
            have hne : e ≠ b.entity := Ne.symm hb
            simp [hne]

end MappingProblem

/-! ## §D Both checks -/

section Flagged

variable {flagged : Names} {b : Block}

theorem Manifest.block_of_mem_mappingProblems {p : MappingProblem}
    (h : p ∈ m.mappingProblems r flagged) :
    p.block ∈ m.blocks ∧ flagged.contains p.block.entity = false := by
  simpa using List.mem_filter.mp (MappingProblem.block_mem_of_mem_ofBlocks h)

/-- About an unknown entity that is not flagged there is one problem, at its first block. -/
theorem Manifest.mappingProblems_about_unknown (hunknown : r.contains e = false)
    (hflagged : flagged.contains e = false) (hfirst : m.FirstBlock e b) :
    (m.mappingProblems r flagged).filter (·.block.entity = e) = [.unknownEntity b] := by
  have hkept : (m.blocks.filter fun b => !flagged.contains b.entity).find? (·.entity = e)
      = m.blocks.find? (·.entity = e) := by
    rw [List.find?_filter]
    congr 1
    funext b
    by_cases hb : b.entity = e <;> simp [hb, hflagged]
  rw [mappingProblems, MappingProblem.ofBlocks_about_unknown hunknown, hkept,
    find?_blocks_eq_some_iff.mpr hfirst]
  rfl

end Flagged

/-- **`unknown_entities_reported_once`** — the return check has one finding for each tool that refers to
an unregistered entity, in the order of the tools: that of the sections, and by name in each. It flags
exactly these entities. The mapping check finds nothing in the blocks of a flagged entity, and about any
other unregistered entity that has a block it has the one finding that the first of its blocks is about no
known entity; blocks under `mappings` come before adapters. So every unregistered entity that a declared
tool refers to or that has a block is reported by one of the two checks, and none by both. -/
theorem unknown_entities_reported_once (m : Manifest) (r : Registry) :
    let flagged := m.unknownEntities r
    let problems := m.mappingProblems r flagged
    let reportedAtReturn := fun e => ∃ u ∈ m.unknownReturns r, u.entity = e
    let reportedAtBlock := fun e => ∃ p ∈ problems, p.block.entity = e
    m.ListsTools m.tools ∧ m.ListsBlocks m.blocks ∧
      List.Forall₂ (fun d f => ∃ e, d.tool.RefersTo e ∧ r.contains e = false ∧
        f = .plain .unknownEntity (Pointer.ofKeys [d.kind.sectionKey, d.name, "returns"])
          (d.kind.title ++ " '" ++ d.name ++ "' returns unknown entity '" ++ e
            ++ "'. Valid entities: " ++ r.describeIds))
        (m.tools.filter (r.Misses ·)) (m.returnFindings r) ∧
      (∀ e, flagged.contains e = true ↔ r.contains e = false ∧ m.RefersTo e) ∧
      m.mappingFindings r flagged = problems.map (MappingProblem.finding r) ∧
      (∀ p ∈ problems, p.block ∈ m.blocks ∧ flagged.contains p.block.entity = false) ∧
      (∀ e b, r.contains e = false → flagged.contains e = false → m.FirstBlock e b →
        m.blocks.find? (·.entity = e) = some b ∧
        (problems.filter (·.block.entity = e)).map (MappingProblem.finding r)
          = [.plain .unknownEntity b.pointer
              ("Mapping targets unknown entity '" ++ e ++ "'. Valid entities: " ++ r.describeIds)]) ∧
      (∀ e, r.contains e = false → m.RefersTo e ∨ m.Maps e →
        reportedAtReturn e ∨ reportedAtBlock e) ∧
      ∀ e, ¬ (reportedAtReturn e ∧ reportedAtBlock e) := by
  intro flagged problems reportedAtReturn reportedAtBlock
  have hflagged : ∀ e, flagged.contains e = true ↔ r.contains e = false ∧ m.RefersTo e :=
    fun _ => Manifest.contains_unknownEntities
  have hreturns : ∀ e, reportedAtReturn e ↔ flagged.contains e = true := by
    intro e
    show _ ↔ (Names.ofNames _).contains e = true
    rw [Names.contains_ofNames, List.mem_map]
  have hfirst : ∀ e b, r.contains e = false → flagged.contains e = false → m.FirstBlock e b →
      problems.filter (·.block.entity = e) = [.unknownEntity b] :=
    fun _ _ => Manifest.mappingProblems_about_unknown
  refine ⟨m.listsTools, m.listsBlocks, ?_, hflagged, rfl,
    fun _ => Manifest.block_of_mem_mappingProblems, ?_, ?_, ?_⟩
  · rw [Manifest.returnFindings, List.forall₂_map_right_iff]
    refine (Manifest.unknownReturns_forall₂ m r).imp fun d u hu => ?_
    obtain ⟨rfl, hrefers, hunknown⟩ := Manifest.unknownReturn?_eq_some_iff.mp hu
    exact ⟨u.entity, hrefers, hunknown, rfl⟩
  · intro e b hunknown hflag hb
    refine ⟨Manifest.find?_blocks_eq_some_iff.mpr hb, ?_⟩
    rw [hfirst e b hunknown hflag hb, ← hb.entity_eq]
    rfl
  · intro e hunknown hnamed
    cases hflag : flagged.contains e with
    | true => exact Or.inl ((hreturns e).mpr hflag)
    | false =>
        have hnot : ¬ m.RefersTo e := fun h =>
          Bool.false_ne_true (hflag.symm.trans ((hflagged e).mpr ⟨hunknown, h⟩))
        obtain ⟨first, hb⟩ := Manifest.maps_iff.mp (hnamed.resolve_left hnot)
        have hone := hfirst e first hunknown hflag hb
        have hmem : MappingProblem.unknownEntity first ∈ problems.filter (·.block.entity = e) :=
          hone ▸ List.mem_singleton_self _
        obtain ⟨hp, hpe⟩ := List.mem_filter.mp hmem
        exact Or.inr ⟨_, hp, by simpa using hpe⟩
  · rintro e ⟨hret, p, hp, rfl⟩
    have hflag := (hreturns _).mp hret
    rw [(Manifest.block_of_mem_mappingProblems hp).2] at hflag
    cases hflag

/-- Tools of three sections and blocks of both forms, about more entities than one registry knows. -/
def manyEntities : Manifest :=
  { Manifest.empty with
    operations := ⟨[("task.list", ⟨none, some "task[]"⟩), ("user.get", ⟨none, some "user"⟩)], by decide⟩
    utilities := ⟨[("user.find", ⟨none, some "user[]"⟩)], by decide⟩
    actions := ⟨[("label.add", ⟨none, some "label"⟩), ("task.drop", ⟨none, some "void"⟩)], by decide⟩
    mappings := ⟨[("place", .empty), ("task", .empty), ("user", .empty)], by decide⟩
    adapters := ⟨[("event", .empty), ("place", .empty)], by decide⟩ }

/-- Where tasks alone are registered, users and labels are reported at the tools that return them, and
places and events at the first of their blocks. -/
theorem unknown_entities_reported_once_manyEntities :
    let r := Registry.empty.add "task" none
    let flagged := manyEntities.unknownEntities r
    let problems := manyEntities.mappingProblems r flagged
    (manyEntities.returnFindings r).map (·.pointer)
        = ["/operations/user.get/returns", "/utilities/user.find/returns", "/actions/label.add/returns"] ∧
      (∀ e ∈ ["user", "label"], flagged.contains e = true) ∧
      (problems.map (MappingProblem.finding r)).map (·.pointer)
        = ["/mappings/place", "/adapters/event/mapping"] ∧
      ∀ e ∈ ["place", "event"], (problems.filter (·.block.entity = e)).length = 1 := by
  intro r flagged problems
  obtain ⟨-, -, -, hflagged, -, -, hfirst, -, -⟩ := unknown_entities_reported_once manyEntities r
  have huser : manyEntities.RefersTo "user" :=
    ⟨⟨.utility, "user.find", ⟨none, some "user[]"⟩⟩, .utility rfl,
      Tool.entity?_eq_some_iff.mp (by decide)⟩
  have hlabel : manyEntities.RefersTo "label" :=
    ⟨⟨.action, "label.add", ⟨none, some "label"⟩⟩, .action rfl,
      Tool.entity?_eq_some_iff.mp (by decide)⟩
  have hplace := (hfirst "place" _ (by decide) (by decide +kernel) (.mapping rfl)).2
  have hevent := (hfirst "event" _ (by decide) (by decide +kernel) (.adapter rfl rfl)).2
  simp only [List.forall_mem_cons, List.not_mem_nil, false_imp_iff, implies_true, and_true]
  refine ⟨by decide +kernel, ⟨?_, ?_⟩, by decide +kernel, ?_, ?_⟩
  · exact (hflagged _).mpr ⟨by decide, huser⟩
  · exact (hflagged _).mpr ⟨by decide, hlabel⟩
  · simpa using congrArg List.length hplace
  · simpa using congrArg List.length hevent

end PluginVet
