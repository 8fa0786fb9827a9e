/-
# PluginVet.Proofs.Check.Properties — undeclared keys are reported one by one

Where the entity of a mapping block declares properties, the keys of the block have to be among them. A
key counts by the part in front of its first point (`property_eq_iff`); internal keys and nested objects
do not count. The mapping check has one finding for each other key that is not declared, in the order of
the sections, of the entities and of their keys, and each at a pointer of its own
(`undeclared_keys_reported`).

§A keys, §B entries, §C pointers, §D what is found.
-/
import Mathlib.Data.List.Forall2
import Mathlib.Data.List.TakeWhile
import PluginVet.Check.Mappings
import PluginVet.Proofs.Check.Pointers

namespace PluginVet

/-! ## §A Keys -/

/-- **`FirstPart key part`** — `part` is what the key has in front of its first point, or the whole key if
there is none. -/
def FirstPart (key part : String) : Prop :=
  '.' ∉ part.toList ∧ (key = part ∨ ∃ rest, key = part ++ "." ++ rest)

theorem takeWhile_ne_eq_iff {c : Char} {s body : List Char} : s.takeWhile (· ≠ c) = body ↔
    c ∉ body ∧ (s = body ∨ ∃ rest, s = body ++ c :: rest) := by
  constructor
  · rintro rfl
    refine ⟨fun h => ?_, ?_⟩
    · simpa using List.mem_takeWhile_imp h
    · have hsplit : s.takeWhile (· ≠ c) ++ s.dropWhile (· ≠ c) = s := List.takeWhile_append_dropWhile
      have hhead := List.head?_dropWhile_not (· ≠ c) s
      cases hdrop : s.dropWhile (· ≠ c) with
      | nil =>
          rw [hdrop, List.append_nil] at hsplit
          exact Or.inl hsplit.symm
      | cons d rest =>
          rw [hdrop] at hsplit hhead
          obtain rfl : d = c := by simpa using hhead
          exact Or.inr ⟨rest, hsplit.symm⟩
  · rintro ⟨hbody, hs⟩
    have hkept : ∀ x ∈ body, decide (x ≠ c) = true := by
      intro x hx
      rw [decide_eq_true_eq]
      rintro rfl
      exact hbody hx
    rcases hs with rfl | ⟨rest, rfl⟩
    · exact List.takeWhile_eq_self_iff.mpr hkept
    · rw [List.takeWhile_append_of_pos hkept, List.takeWhile_cons_of_neg (by simp), List.append_nil]

namespace MappingProblem

theorem property_eq_iff {key part : String} : property key = part ↔ FirstPart key part := by
  have hlists : ∀ rest : String, key = part ++ "." ++ rest ↔
      key.toList = part.toList ++ '.' :: rest.toList := by
    intro rest
    rw [← String.toList_inj, String.toList_append, String.toList_append, List.append_assoc]
    rfl
  rw [property, FirstPart, ← String.toList_inj, String.toList_ofList, takeWhile_ne_eq_iff,
    ← String.toList_inj]
  simp only [hlists]
  refine and_congr_right fun _ => or_congr_right ?_
  exact ⟨fun ⟨rest, h⟩ => ⟨String.ofList rest, by rw [h, String.toList_ofList]⟩,
    fun ⟨rest, h⟩ => ⟨rest.toList, h⟩⟩

theorem isInternal_iff {key : String} : isInternal key = true ↔ ∃ rest, key = "_" ++ rest := by
  rw [isInternal, Option.isSome_iff_exists]
  constructor
  · rintro ⟨rest, h⟩
    refine ⟨String.ofList rest, ?_⟩
    rw [← String.toList_inj, Text.dropHead?_eq_some_iff.mp h, String.toList_append]
    exact congrArg _ String.toList_ofList.symm
  · rintro ⟨rest, rfl⟩
    refine ⟨rest.toList, Text.dropHead?_eq_some_iff.mpr ?_⟩
    rw [String.toList_append]
    rfl

/-- A stray entry of a block whose entity is not flagged. -/
def isStrayIn (r : Registry) (flagged : Names) (entity : String) (e : String × MappingValue) : Bool :=
  !flagged.contains entity && (r.properties? entity).any (isStray · e)

end MappingProblem

theorem MappingValue.isReference_iff {value : MappingValue} :
    value.isReference = true ↔ ∃ fields, value = .reference fields := by
  cases value <;> simp [isReference]

/-! ## §B Entries -/

/-- An entry of a mapping block with the place of its declaration. -/
structure MappingEntry where
  form : BlockForm
  entity : String
  key : String
  value : MappingValue

variable {m : Manifest} {r : Registry} {flagged : Names} {form form' : BlockForm}
  {entity entity' : String}

namespace MappingEntry

variable {e e' : MappingEntry}

def pointer (e : MappingEntry) : Pointer := Pointer.ofKeys (e.form.keys e.entity ++ [e.key])

/-- **`e.DeclaredIn m`** — the manifest has this entry at this place. -/
def DeclaredIn (m : Manifest) (e : MappingEntry) : Prop :=
  ∃ entries, (e.form.declared m).get? e.entity = some entries ∧ entries.get? e.key = some e.value

/-- Entries under `mappings` come first, then by entity, then by key. -/
def Before (e e' : MappingEntry) : Prop :=
  e.form.rank < e'.form.rank ∨ e.form = e'.form ∧
    (e.entity < e'.entity ∨ e.entity = e'.entity ∧ e.key < e'.key)

/-- The key begins with an underscore. -/
def IsInternal (e : MappingEntry) : Prop := ∃ rest, e.key = "_" ++ rest

/-- The value is an object. -/
def IsNested (e : MappingEntry) : Prop := ∃ fields, e.value = .reference fields

/-- **`e.Undeclared r`** — the entity is registered with a set of properties, the entry has to be one of
them, and it is none. -/
def Undeclared (r : Registry) (e : MappingEntry) : Prop :=
  ¬ e.IsInternal ∧ ¬ e.IsNested ∧ ∃ valid, r.entities.get? e.entity = some (some valid) ∧
    ∀ part, FirstPart e.key part → valid.contains part = false

/-- The block that holds the entry reports it. -/
def isReported (r : Registry) (flagged : Names) (e : MappingEntry) : Bool :=
  MappingProblem.isStrayIn r flagged e.entity (e.key, e.value)

theorem isReported_iff :
    e.isReported r flagged = true ↔ flagged.contains e.entity = false ∧ e.Undeclared r := by
  have hpart : ∀ valid : Names, (∀ part, FirstPart e.key part → valid.contains part = false) ↔
      valid.contains (MappingProblem.property e.key) = false := by
    intro valid
    simp only [← MappingProblem.property_eq_iff, forall_eq']
  simp only [isReported, MappingProblem.isStrayIn, MappingProblem.isStray, Registry.properties?,
    Bool.and_eq_true, Bool.not_eq_true', Bool.not_eq_true, Option.any_eq_true,
    Option.join_eq_some_iff, Undeclared, IsInternal, IsNested, hpart,
    ← MappingProblem.isInternal_iff, ← MappingValue.isReference_iff]
  tauto

end MappingEntry

/-- The entries of one block. -/
def BlockForm.entriesOf (form : BlockForm) (b : String × Mapping) : List MappingEntry :=
  b.2.entries.map fun e => ⟨form, b.1, e.1, e.2⟩

def BlockForm.entries (m : Manifest) (form : BlockForm) : List MappingEntry :=
  (form.declared m).entries.flatMap form.entriesOf

/-- All entries of a manifest, block by block. -/
def Manifest.mappingEntries (m : Manifest) : List MappingEntry :=
  BlockForm.mapping.entries m ++ BlockForm.adapter.entries m

theorem BlockForm.mem_entries_iff {e : MappingEntry} :
    e ∈ form.entries m ↔ e.form = form ∧ e.DeclaredIn m := by
  simp only [entries, entriesOf, List.mem_flatMap, List.mem_map, Prod.exists]
  constructor
  · rintro ⟨entity, entries, hblock, key, value, hentry, rfl⟩
    exact ⟨rfl, entries, (Keyed.get?_eq_some_iff (form.declared m).sorted).mpr hblock,
      (Keyed.get?_eq_some_iff entries.sorted).mpr hentry⟩
  · rintro ⟨rfl, entries, hblock, hentry⟩
    exact ⟨e.entity, entries, Keyed.mem_of_get? hblock, e.key, e.value, Keyed.mem_of_get? hentry, rfl⟩

theorem Manifest.mem_mappingEntries_iff {e : MappingEntry} :
    e ∈ m.mappingEntries ↔ e.DeclaredIn m := by
  rw [mappingEntries, List.mem_append, BlockForm.mem_entries_iff, BlockForm.mem_entries_iff,
    ← or_and_right]
  exact and_iff_right (by cases e.form <;> simp)

theorem BlockForm.pairwise_entries (m : Manifest) (form : BlockForm) :
    (form.entries m).Pairwise MappingEntry.Before := by
  rw [entries, List.pairwise_flatMap]
  refine ⟨fun b _ => ?_, ?_⟩
  · rw [entriesOf, List.pairwise_map]
    exact (List.pairwise_map.mp b.2.sorted).imp fun h => Or.inr ⟨rfl, Or.inr ⟨rfl, h⟩⟩
  · refine (List.pairwise_map.mp (form.declared m).sorted).imp fun h x hx y hy => ?_
    obtain ⟨-, -, rfl⟩ := List.mem_map.mp hx
    obtain ⟨-, -, rfl⟩ := List.mem_map.mp hy
    exact Or.inr ⟨rfl, Or.inl h⟩

theorem Manifest.pairwise_mappingEntries (m : Manifest) :
    m.mappingEntries.Pairwise MappingEntry.Before := by
  rw [mappingEntries, List.pairwise_append]
  refine ⟨BlockForm.pairwise_entries m _, BlockForm.pairwise_entries m _, fun x hx y hy => Or.inl ?_⟩
  rw [(BlockForm.mem_entries_iff.mp hx).1, (BlockForm.mem_entries_iff.mp hy).1]
  decide

/-! ## §C Pointers -/

/-- The blocks of one entity, and what lies below them, share no place with those of another one. -/
theorem BlockForm.keys_append_inj {more more' : List String}
    (h : form.keys entity ++ more = form'.keys entity' ++ more') :
    form = form' ∧ entity = entity' ∧ more = more' := by
  cases form <;> cases form' <;> simp_all [keys]

namespace MappingEntry

variable {e e' : MappingEntry}

theorem eq_of_pointer_eq (he : e.DeclaredIn m) (he' : e'.DeclaredIn m) (h : e.pointer = e'.pointer) :
    e = e' := by
  obtain ⟨form, entity, key, value⟩ := e
  obtain ⟨form', entity', key', value'⟩ := e'
  obtain ⟨rfl, rfl, hkey⟩ := BlockForm.keys_append_inj (Pointer.ofKeys_inj.mp h)
  obtain rfl : key = key' := List.singleton_inj.mp hkey
  obtain ⟨entries, hblock, hentry⟩ := he
  obtain ⟨entries', hblock', hentry'⟩ := he'
  obtain rfl : entries = entries' := Option.some.inj (hblock.symm.trans hblock')
  rw [show value = value' from Option.some.inj (hentry.symm.trans hentry')]

theorem Before.pointer_ne (h : e.Before e') : e.pointer ≠ e'.pointer := by
  intro hpointer
  obtain ⟨hform, hentity, hkey⟩ := BlockForm.keys_append_inj (Pointer.ofKeys_inj.mp hpointer)
  have hkey : e.key = e'.key := List.singleton_inj.mp hkey
  rcases h with h | ⟨-, h | ⟨-, h⟩⟩
  · exact Nat.lt_irrefl _ (hform ▸ h)
  · exact String.lt_irrefl _ (hentity ▸ h)
  · exact String.lt_irrefl _ (hkey ▸ h)

end MappingEntry

/-! ## §D What is found -/

/-- **`e.Reports r f`** — the finding `f` is at the entry `e`, names the part of its key that counts, and
lists the properties of its entity in order. -/
def MappingEntry.Reports (r : Registry) (e : MappingEntry) (f : Finding) : Prop :=
  ∃ valid part names, r.entities.get? e.entity = some (some valid) ∧ FirstPart e.key part ∧
    names.Pairwise (· < ·) ∧ (∀ name, name ∈ names ↔ valid.contains name = true) ∧
    f = .plain .unknownProperty e.pointer ("Entity '" ++ e.entity ++ "' has no property '" ++ part
      ++ "'. Valid: " ++ ", ".intercalate names)

theorem Registry.get?_of_unregistered (h : r.contains entity = false) :
    r.entities.get? entity = none :=
  Option.isNone_iff_eq_none.mp (Option.isSome_eq_false_iff.mp h)

namespace MappingProblem

variable {b : Block} {blocks : List Block} {reported : List String} {p : MappingProblem}

theorem strays_of_unregistered (h : r.contains b.entity = false) : strays r b = [] := by
  rw [strays, Registry.properties?, Registry.get?_of_unregistered h]
  rfl

/-- The findings about the entries of a block. -/
def straysFound (r : Registry) (flagged : Names) (b : Block) : List Finding :=
  if flagged.contains b.entity then [] else (strays r b).map (finding r)

/-- The findings are those of the stray entries. The default stands for no properties, where no entry is
stray. -/
theorem straysFound_eq : straysFound r flagged b
    = (b.entries.entries.filter (isStrayIn r flagged b.entity)).map fun e =>
      finding r (.unknownProperty b e.1 ((r.properties? b.entity).getD .empty)) := by
  unfold straysFound strays isStrayIn
  cases flagged.contains b.entity with
  | true => simp
  | false => cases r.properties? b.entity <;> simp

theorem category_of_mem_strays (h : p ∈ strays r b) : (finding r p).category = .unknownProperty := by
  obtain ⟨-, -, -, -, rfl⟩ := exists_entry_of_mem_strays h
  rfl

/-- Of the findings of all blocks those about entries are those of one block after the other. -/
theorem filter_map_ofBlocks :
    ((ofBlocks r reported (blocks.filter fun b => !flagged.contains b.entity)).map
        (finding r)).filter (·.category = .unknownProperty)
      = blocks.flatMap (straysFound r flagged) := by
  induction blocks generalizing reported with
  | nil => rfl
  | cons b rest ih =>
      rw [List.flatMap_cons, straysFound]
      cases hflag : flagged.contains b.entity with
      | true =>
          rw [List.filter_cons_of_neg (by simp [hflag]), ih]
          rfl
      | false =>
          rw [List.filter_cons_of_pos (by simp [hflag]), ofBlocks]
          cases hknown : r.contains b.entity with
          | true =>
              have hall : ∀ f ∈ (strays r b).map (finding r),
                  decide (f.category = .unknownProperty) = true := by
                intro f hf
                obtain ⟨p, hp, rfl⟩ := List.mem_map.mp hf
                exact decide_eq_true (category_of_mem_strays hp)
              rw [if_pos rfl, List.map_append, List.filter_append, ih, List.filter_eq_self.mpr hall]
              rfl
          | false =>
              rw [strays_of_unregistered hknown]
              cases reported.contains b.entity with
              | true => exact ih
              | false => exact ih

end MappingProblem

theorem BlockForm.reports_block (form : BlockForm) (b : String × Mapping) :
    List.Forall₂ (MappingEntry.Reports r)
      ((form.entriesOf b).filter (MappingEntry.isReported r flagged))
      (MappingProblem.straysFound r flagged (form.block b)) := by
  rw [entriesOf, List.filter_map, List.forall₂_map_left_iff, MappingProblem.straysFound_eq,
    List.forall₂_map_right_iff]
  refine List.forall₂_same.mpr fun e he => ?_
  have hstray := (Bool.and_eq_true_iff.mp (List.mem_filter.mp he).2).2
  obtain ⟨valid, hvalid, -⟩ := (Option.any_eq_true _ _).mp hstray
  have hproperties : r.properties? (form.block b).entity = some valid := hvalid
  rw [hproperties]
  exact ⟨valid, MappingProblem.property e.1, valid.toList, Option.join_eq_some_iff.mp hvalid,
    MappingProblem.property_eq_iff.mp rfl, valid.sorted, fun _ => Keyed.contains_iff.symm,
    congrArg (Finding.plain _ · _) (Pointer.ofKeys_append _ [e.1]).symm⟩

theorem BlockForm.reports_entries (m : Manifest) (form : BlockForm) :
    List.Forall₂ (MappingEntry.Reports r)
      ((form.entries m).filter (MappingEntry.isReported r flagged))
      (((form.declared m).entries.map form.block).flatMap (MappingProblem.straysFound r flagged)) := by
  rw [entries, List.filter_flatMap, List.flatMap_map]
  induction (form.declared m).entries with
  | nil => exact .nil
  | cons b rest ih => exact List.rel_append (form.reports_block b) ih

/-- **`Manifest.reports_mappingFindings`** — the entries that are undeclared are found one by one. -/
theorem Manifest.reports_mappingFindings (m : Manifest) (r : Registry) (flagged : Names) :
    List.Forall₂ (MappingEntry.Reports r)
      (m.mappingEntries.filter (MappingEntry.isReported r flagged))
      ((m.mappingFindings r flagged).filter (·.category = .unknownProperty)) := by
  rw [mappingFindings, mappingProblems, MappingProblem.filter_map_ofBlocks, blocks_eq,
    List.flatMap_append, mappingEntries, List.filter_append]
  exact List.rel_append (BlockForm.mapping.reports_entries m) (BlockForm.adapter.reports_entries m)

/-- The pointer of a finding leads to a block of the entity that it is about or to something in it, and this
entity is not one that is registered without properties. -/
theorem Manifest.exists_keys_of_mem_mappingFindings {f : Finding} (hf : f ∈ m.mappingFindings r flagged) :
    ∃ (form : BlockForm) (entity : String) (more : List String),
      f.pointer = Pointer.ofKeys (form.keys entity ++ more) ∧
        r.entities.get? entity ≠ some none := by
  obtain ⟨p, hp, rfl⟩ := List.mem_map.mp hf
  have hform : ∃ form : BlockForm, p.block.pointer = Pointer.ofKeys (form.keys p.block.entity) := by
    rcases mem_blocks_iff.mp (block_of_mem_mappingProblems hp).1 with ⟨h, -⟩ | ⟨h, -⟩
    · exact ⟨.mapping, h⟩
    · exact ⟨.adapter, h⟩
  obtain ⟨form, hpointer⟩ := hform
  rcases MappingProblem.mem_strays_or_unregistered hp with hstray | ⟨hunknown, hnot⟩
  · obtain ⟨key, value, valid, hentry, heq⟩ := MappingProblem.exists_entry_of_mem_strays hstray
    refine ⟨form, p.block.entity, [key], ?_, fun hnone => ?_⟩
    · rw [Pointer.ofKeys_append, ← hpointer, heq]
      rfl
    · rw [MappingProblem.strays, Registry.properties?, hnone] at hstray
      exact List.not_mem_nil hstray
  · refine ⟨form, p.block.entity, [], ?_, fun hnone => ?_⟩
    · rw [List.append_nil, ← hpointer, hunknown]
      rfl
    · exact Option.some_ne_none none (hnone.symm.trans (Registry.get?_of_unregistered hnot))

theorem MappingEntry.map_pointer_of_reports {reported : List MappingEntry} {found : List Finding}
    (h : List.Forall₂ (MappingEntry.Reports r) reported found) :
    found.map (·.pointer) = reported.map MappingEntry.pointer := by
  induction h with
  | nil => rfl
  | cons hreports _ ih =>
      obtain ⟨-, -, -, -, -, -, -, rfl⟩ := hreports
      exact congrArg _ ih

/-- **`undeclared_keys_reported`** — the mapping check has one finding about a property for each undeclared
entry whose entity is not flagged, in the order of the entries, and no two at the same place. So nested
objects are never reported. About the blocks of an entity that is registered without properties there is
no finding at all. Where an entity has the empty set of properties, all keys are reported that are not
internal and have no nested object. -/
theorem undeclared_keys_reported (m : Manifest) (r : Registry) (flagged : Names) :
    let found := (m.mappingFindings r flagged).filter (·.category = .unknownProperty)
    (∃ reported : List MappingEntry, List.Forall₂ (MappingEntry.Reports r) reported found ∧
      reported.Pairwise MappingEntry.Before ∧
      ∀ e, e ∈ reported ↔ e.DeclaredIn m ∧ flagged.contains e.entity = false ∧ e.Undeclared r) ∧
    (found.map (·.pointer)).Nodup ∧
    (∀ e : MappingEntry, e.DeclaredIn m → e.IsNested → e.pointer ∉ found.map (·.pointer)) ∧
    (∀ (form : BlockForm) entity more, r.entities.get? entity = some none →
      ∀ f ∈ m.mappingFindings r flagged, f.pointer ≠ Pointer.ofKeys (form.keys entity ++ more)) ∧
    ∀ (e : MappingEntry) valid, e.DeclaredIn m → flagged.contains e.entity = false →
      r.entities.get? e.entity = some (some valid) → valid.isEmpty = true →
      (e.pointer ∈ found.map (·.pointer) ↔ ¬ e.IsInternal ∧ ¬ e.IsNested) := by
  intro found
  have hreports := m.reports_mappingFindings r flagged
  have hpairwise : (m.mappingEntries.filter (MappingEntry.isReported r flagged)).Pairwise
      MappingEntry.Before := m.pairwise_mappingEntries.sublist List.filter_sublist
  have hmem : ∀ e, e ∈ m.mappingEntries.filter (MappingEntry.isReported r flagged) ↔
      e.DeclaredIn m ∧ flagged.contains e.entity = false ∧ e.Undeclared r := by
    intro e
    rw [List.mem_filter, Manifest.mem_mappingEntries_iff, MappingEntry.isReported_iff]
  have hpointers : found.map (·.pointer)
      = (m.mappingEntries.filter (MappingEntry.isReported r flagged)).map MappingEntry.pointer :=
    MappingEntry.map_pointer_of_reports hreports
  -- At the place of an entry there is a finding exactly if the entry itself is reported.
  have hat : ∀ e : MappingEntry, e.DeclaredIn m → (e.pointer ∈ found.map (·.pointer) ↔
      flagged.contains e.entity = false ∧ e.Undeclared r) := by
    intro e he
    rw [hpointers, List.mem_map]
    constructor
    · rintro ⟨e', he', hpointer⟩
      obtain ⟨hdeclared, h⟩ := (hmem e').mp he'
      obtain rfl := MappingEntry.eq_of_pointer_eq hdeclared he hpointer
      exact h
    · exact fun h => ⟨e, (hmem e).mpr ⟨he, h⟩, rfl⟩
  refine ⟨⟨_, hreports, hpairwise, hmem⟩, ?_, ?_, ?_, ?_⟩
  · rw [hpointers]
    exact List.pairwise_map.mpr (hpairwise.imp MappingEntry.Before.pointer_ne)
  · intro e he hnested hfound
    exact ((hat e he).mp hfound).2.2.1 hnested
  · intro form entity more hnone f hf hpointer
    obtain ⟨form', entity', more', hpointer', hsome⟩ := Manifest.exists_keys_of_mem_mappingFindings hf
    rw [hpointer', Pointer.ofKeys_inj] at hpointer
    obtain ⟨-, rfl, -⟩ := BlockForm.keys_append_inj hpointer
    exact hsome hnone
  · intro e valid he hflag hvalid hempty
    have hnone : ∀ part, valid.contains part = false := by
      obtain ⟨entries, hsorted⟩ := valid
      obtain rfl : entries = [] := List.isEmpty_iff.mp hempty
      exact fun part => rfl
    rw [hat e he, MappingEntry.Undeclared]
    exact ⟨fun ⟨_, hinternal, hnested, _⟩ => ⟨hinternal, hnested⟩,
      fun ⟨hinternal, hnested⟩ => ⟨hflag, hinternal, hnested, valid, hvalid, fun part _ => hnone part⟩⟩

end PluginVet
