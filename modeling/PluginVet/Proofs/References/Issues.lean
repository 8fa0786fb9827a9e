/-
# PluginVet.Proofs.References.Issues — what the audit of typed references finds

An entry of a mapping block refers to an entity if its value is an object with the entity's id as its only
key and an identifying field inside. The audit is exact: block by block it has an issue for each expected
reference that no entry makes, and then one for each reference beside which display fields are missing
(`audit_exact`). Blocks have pointers of their own, so that the references found in one block never take
the place of those of another, and the exit code says which kinds of issues there are.

§A entries that refer, §B blocks, §C pointers, §D references, §E severities, §F audits.
-/
import PluginVet.Proofs.Check.Properties

namespace PluginVet

open References

/-! ## §A Entries that refer -/

/-- **`value.RefersTo target`** — an object whose only key is `target`, with an object that identifies an
entity behind it. -/
def MappingValue.RefersTo (value : MappingValue) (target : String) : Prop :=
  ∃ fields, value = .reference [(target, .reference fields)] ∧
    ∃ key ∈ fields.map Prod.fst, key ∈ identityFields

theorem References.target?_eq_some_iff {value : MappingValue} {target : String} :
    target? value = some target ↔ value.RefersTo target := by
  have hidentity : ∀ fields : List (String × MappingValue),
      (fields.any fun f => identityFields.contains f.1) = true ↔
        ∃ key ∈ fields.map Prod.fst, key ∈ identityFields := by
    intro fields
    simp [List.any_eq_true]
  constructor
  · intro h
    unfold target? at h
    split at h
    · rename_i found fields
      split at h
      · rename_i hany
        obtain rfl := Option.some.inj h
        exact ⟨fields, rfl, (hidentity fields).mp hany⟩
      · cases h
    · cases h
  · rintro ⟨fields, rfl, hkey⟩
    exact if_pos ((hidentity fields).mpr hkey)

namespace Block

variable {b : Block} {field target : String}

/-- **`b.RefersUnder field target`** — the entry of this name refers to the entity. -/
def RefersUnder (b : Block) (field target : String) : Prop :=
  ∃ value, b.entries.get? field = some value ∧ value.RefersTo target

/-- **`b.Lacks x`** — no entry, of whatever name, refers to the expected entity. -/
def Lacks (b : Block) (x : Expectation) : Prop := ∀ field, ¬ b.RefersUnder field x.target

/-- **`b.LeavesBare field`** — the entry refers to an entity, and not all of its display fields are there. -/
def LeavesBare (b : Block) (field : String) : Prop :=
  (∃ target, b.RefersUnder field target) ∧ ∃ key ∈ displayFields field, b.entries.get? key = none

/-- The entries have different names, also those that refer. -/
theorem nodup_referring (b : Block) : ((b.entries.entries.filterMap fun e =>
    (target? e.2).map fun found => (e.1, found)).map Prod.fst).Nodup := by
  have hkeys : ∀ entries : Keyed MappingValue,
      (entries.filterMap fun e => (target? e.2).map fun found => (e.1, found)).map Prod.fst
        = (entries.filter fun e => (target? e.2).isSome).map Prod.fst := by
    intro entries
    induction entries with
    | nil => rfl
    | cons e rest ih =>
        rw [List.filterMap_cons, List.filter_cons]
        cases target? e.2 with
        | none => exact ih
        | some found => exact congrArg (e.1 :: ·) ih
  rw [hkeys]
  exact b.entries.sorted.nodup.sublist (List.filter_sublist.map Prod.fst)

/-- **`get?_ofBlock`** — the table of a block has the entries that refer. -/
theorem get?_ofBlock : (ofBlock b).get? field = some target ↔ b.RefersUnder field target := by
  show Keyed.get? (Keyed.ofList _) field = some target ↔ _
  rw [Keyed.get?_ofList_iff b.nodup_referring, List.mem_filterMap, RefersUnder]
  constructor
  · rintro ⟨⟨key, value⟩, hentry, htarget⟩
    obtain ⟨found, hfound, hpair⟩ := Option.map_eq_some_iff.mp htarget
    obtain ⟨rfl, rfl⟩ := Prod.mk.inj hpair
    exact ⟨value, (Keyed.get?_eq_some_iff b.entries.sorted).mpr hentry, target?_eq_some_iff.mp hfound⟩
  · rintro ⟨value, hvalue, hrefers⟩
    refine ⟨(field, value), Keyed.mem_of_get? hvalue, ?_⟩
    rw [target?_eq_some_iff.mpr hrefers]
    rfl

theorem mem_keys_ofBlock : field ∈ (ofBlock b).keys ↔ ∃ target, b.RefersUnder field target := by
  show field ∈ (ofBlock b).entries.keys ↔ _
  rw [← Keyed.contains_iff, Keyed.contains, Option.isSome_iff_exists]
  exact exists_congr fun _ => get?_ofBlock

theorem isMet_iff {x : Expectation} :
    isMet (ofBlock b) x = true ↔ ∃ field, b.RefersUnder field x.target := by
  rw [isMet, List.any_eq_true]
  constructor
  · rintro ⟨⟨field, found⟩, hmem, htarget⟩
    obtain rfl : found = x.target := beq_iff_eq.mp htarget
    exact ⟨field, get?_ofBlock.mp ((Keyed.get?_eq_some_iff (ofBlock b).sorted).mpr hmem)⟩
  · rintro ⟨field, hrefers⟩
    exact ⟨(field, x.target), Keyed.mem_of_get? (get?_ofBlock.mpr hrefers), beq_self_eq_true _⟩

theorem not_isMet_iff {x : Expectation} : (!isMet (ofBlock b) x) = true ↔ b.Lacks x := by
  rw [Bool.not_eq_true', ← Bool.not_eq_true, isMet_iff, Lacks, not_exists]

theorem mem_missingDisplay {key : String} : key ∈ missingDisplay b field ↔
    key ∈ displayFields field ∧ b.entries.get? key = none := by
  rw [missingDisplay, List.mem_filter, Bool.not_eq_true', Table.contains, Keyed.contains,
    Option.isSome_eq_false_iff, Option.isNone_iff_eq_none]
  rfl

end Block

/-! ## §B Blocks -/

namespace Block

variable {b : Block}

/-- **`b.ReportsLack x i`** — the issue on an expected reference that is missing: an error, unless the
reference is optional. -/
def ReportsLack (b : Block) (x : Expectation) (i : Issue) : Prop :=
  (i.severity = .error ↔ x.optional = false) ∧ i.entity = b.entity ∧ i.pointer = b.pointer ∧
    i.message = "Missing typed reference: " ++ x.field ++ " → " ++ x.target ++ " (" ++ x.reason ++ ")"

/-- **`b.ReportsBare field i`** — the warning at a reference beside which display fields are missing. It
names these, in the order of the table. -/
def ReportsBare (b : Block) (field : String) (i : Issue) : Prop :=
  ∃ missing : List String, missing.Sublist (displayFields field) ∧
    (∀ key, key ∈ missing ↔ key ∈ displayFields field ∧ b.entries.get? key = none) ∧
    i = { severity := .warning
          entity := b.entity
          pointer := Pointer.child b.pointer field
          message := "Typed reference '" ++ field ++ "' has no display fields: "
            ++ ", ".intercalate missing }

/-- **`b.AuditedAs issues`** — the issues of a block: one for each expected reference that it lacks, in the
order of the table, and then one for each reference that it leaves bare, in the order of the entries. -/
def AuditedAs (b : Block) (issues : List Issue) : Prop :=
  ∃ (lacking : List Expectation) (bare : List String) (onLack onBare : List Issue),
    issues = onLack ++ onBare ∧
    lacking.Sublist (expected b.entity) ∧ (∀ x, x ∈ lacking ↔ x ∈ expected b.entity ∧ b.Lacks x) ∧
    List.Forall₂ b.ReportsLack lacking onLack ∧
    bare.Pairwise (· < ·) ∧ (∀ field, field ∈ bare ↔ b.LeavesBare field) ∧
    List.Forall₂ b.ReportsBare bare onBare

theorem reportsLack_missingIssue (b : Block) (x : Expectation) :
    b.ReportsLack x (missingIssue b x) := by
  refine ⟨?_, rfl, rfl, rfl⟩
  show (if x.optional then Severity.warning else .error) = .error ↔ _
  cases x.optional <;> decide

theorem missingDisplay_ne_nil_iff {field : String} : missingDisplay b field ≠ [] ↔
    ∃ key ∈ displayFields field, b.entries.get? key = none := by
  rw [← List.isEmpty_eq_false_iff, List.isEmpty_eq_false_iff_exists_mem]
  exact exists_congr fun _ => mem_missingDisplay

theorem displayIssue?_eq_none_iff {field : String} :
    displayIssue? b field = none ↔ missingDisplay b field = [] := by
  unfold displayIssue?
  split <;> simp_all

theorem reportsBare_of_displayIssue? {field : String} {i : Issue} (h : displayIssue? b field = some i) :
    b.ReportsBare field i := by
  unfold displayIssue? at h
  split at h
  · cases h
  · exact ⟨missingDisplay b field, List.filter_sublist, fun _ => mem_missingDisplay,
      (Option.some.inj h).symm⟩

theorem forall₂_displayIssues (b : Block) (fields : List String) :
    List.Forall₂ b.ReportsBare (fields.filter fun field => (displayIssue? b field).isSome)
      (fields.filterMap (displayIssue? b)) := by
  induction fields with
  | nil => exact .nil
  | cons field rest ih =>
      rw [List.filter_cons, List.filterMap_cons]
      cases hissue : displayIssue? b field with
      | none => exact ih
      | some i => exact .cons (reportsBare_of_displayIssue? hissue) ih

theorem leavesBare_iff {field : String} : b.LeavesBare field ↔
    field ∈ (ofBlock b).keys ∧ (displayIssue? b field).isSome = true := by
  rw [mem_keys_ofBlock, LeavesBare, ← missingDisplay_ne_nil_iff, ← Option.isNone_eq_false_iff,
    ← Bool.not_eq_true, Option.isNone_iff_eq_none, displayIssue?_eq_none_iff]

/-- **`auditedAs_blockIssues`** — the issues that the audit has for a block are those that it should have. -/
theorem auditedAs_blockIssues (b : Block) : b.AuditedAs (blockIssues b) := by
  refine ⟨(expected b.entity).filter fun x => !isMet (ofBlock b) x,
    (ofBlock b).keys.filter fun field => (displayIssue? b field).isSome, missingIssues b, _, rfl,
    List.filter_sublist, fun x => ?_, ?_, ?_, fun field => ?_, b.forall₂_displayIssues _⟩
  · rw [List.mem_filter, not_isMet_iff]
  · rw [missingIssues, List.forall₂_map_right_iff]
    exact List.forall₂_same.mpr fun x _ => b.reportsLack_missingIssue x
  · exact (ofBlock b).sorted.sublist List.filter_sublist
  · rw [List.mem_filter, leavesBare_iff]

end Block

/-! ## §C Pointers -/

theorem BlockForm.keys_inj {form form' : BlockForm} {entity entity' : String}
    (h : form.keys entity = form'.keys entity') : form = form' ∧ entity = entity' := by
  have happend : form.keys entity ++ [] = form'.keys entity' ++ [] := by rw [h]
  obtain ⟨hform, hentity, -⟩ := keys_append_inj happend
  exact ⟨hform, hentity⟩

/-- No two blocks of a manifest have the same pointer. -/
theorem Manifest.pairwise_pointer_ne (m : Manifest) :
    m.blocks.Pairwise fun b b' => b.pointer ≠ b'.pointer := by
  have hform : ∀ form : BlockForm, ((form.declared m).entries.map form.block).Pairwise
      fun b b' => b.pointer ≠ b'.pointer := by
    intro form
    rw [List.pairwise_map]
    refine (List.pairwise_map.mp (form.declared m).sorted).imp fun {e e'} h hpointer => ?_
    obtain ⟨-, hentity⟩ := BlockForm.keys_inj (Pointer.ofKeys_inj.mp hpointer)
    exact String.lt_irrefl _ (hentity ▸ h)
  -- The first key tells the two forms from each other.
  rw [blocks_eq, List.pairwise_append]
  refine ⟨hform .mapping, hform .adapter, fun b hb b' hb' hpointer => ?_⟩
  obtain ⟨e, -, rfl⟩ := List.mem_map.mp hb
  obtain ⟨e', -, rfl⟩ := List.mem_map.mp hb'
  obtain ⟨hforms, -⟩ := BlockForm.keys_inj (Pointer.ofKeys_inj.mp hpointer)
  cases hforms

/-! ## §D References -/

namespace Block

variable {b : Block}

/-- **`b.Refers`** — some entry of the block refers to an entity. -/
def Refers (b : Block) : Prop := ∃ field target, b.RefersUnder field target

/-- **`b.Tabulates found`** — the table has the entries of the block that refer, and no others. -/
def Tabulates (b : Block) (found : Table String) : Prop :=
  ∀ field target, found.get? field = some target ↔ b.RefersUnder field target

theorem tabulates_ofBlock (b : Block) : b.Tabulates (ofBlock b) := fun _ _ => get?_ofBlock

theorem isEmpty_ofBlock_eq_false_iff : (!(ofBlock b).isEmpty) = true ↔ b.Refers := by
  rw [Bool.not_eq_true', Table.isEmpty, List.isEmpty_eq_false_iff_exists_mem]
  constructor
  · rintro ⟨⟨field, target⟩, hmem⟩
    exact ⟨field, target, get?_ofBlock.mp ((Keyed.get?_eq_some_iff (ofBlock b).sorted).mpr hmem)⟩
  · rintro ⟨field, target, hrefers⟩
    exact ⟨(field, target), Keyed.mem_of_get? (get?_ofBlock.mpr hrefers)⟩

end Block

/-- What the audit has under a pointer is the table of the block with this pointer. -/
theorem get?_references_iff {path : String} {m : Manifest} {pointer : Pointer} {found : Table String} :
    (audit path m).references.get? pointer = some found ↔
      ∃ b ∈ m.blocks, b.Refers ∧ b.pointer = pointer ∧ ofBlock b = found := by
  have hnodup : (((m.blocks.filter fun b => !(ofBlock b).isEmpty).map
      fun b => (b.pointer, ofBlock b)).map Prod.fst).Nodup := by
    rw [List.map_map, List.nodup_iff_pairwise_ne, List.pairwise_map]
    exact m.pairwise_pointer_ne.sublist List.filter_sublist
  show Keyed.get? (Keyed.ofList _) pointer = some found ↔ _
  rw [Keyed.get?_ofList_iff hnodup, List.mem_map]
  simp only [List.mem_filter, Block.isEmpty_ofBlock_eq_false_iff, Prod.mk.injEq, and_assoc]

/-! ## §E Severities -/

namespace Block

variable {b : Block}

/-- **`b.LacksRequired`** — the block lacks a reference that is not optional. -/
def LacksRequired (b : Block) : Prop :=
  ∃ x ∈ expected b.entity, x.optional = false ∧ b.Lacks x

/-- **`b.FallsShort`** — the block lacks an optional reference, or has one without its display fields. -/
def FallsShort (b : Block) : Prop :=
  (∃ x ∈ expected b.entity, x.optional = true ∧ b.Lacks x) ∨ ∃ field, b.LeavesBare field

theorem mem_missingIssues {i : Issue} : i ∈ missingIssues b ↔
    ∃ x ∈ expected b.entity, b.Lacks x ∧ missingIssue b x = i := by
  rw [missingIssues, List.mem_map]
  simp only [List.mem_filter, not_isMet_iff, and_assoc]

theorem severity_of_displayIssue? {field : String} {i : Issue} (h : displayIssue? b field = some i) :
    i.severity = .warning := by
  obtain ⟨missing, -, -, rfl⟩ := reportsBare_of_displayIssue? h
  rfl

theorem severity_missingIssue_eq_warning_iff {x : Expectation} :
    (missingIssue b x).severity = .warning ↔ x.optional = true := by
  show (if x.optional then Severity.warning else .error) = .warning ↔ _
  cases x.optional <;> decide

theorem exists_error_iff :
    (∃ i ∈ blockIssues b, i.severity = .error) ↔ b.LacksRequired := by
  constructor
  · rintro ⟨i, hi, herror⟩
    rcases List.mem_append.mp hi with hi | hi
    · obtain ⟨x, hx, hlacks, rfl⟩ := mem_missingIssues.mp hi
      exact ⟨x, hx, (b.reportsLack_missingIssue x).1.mp herror, hlacks⟩
    · obtain ⟨field, -, hissue⟩ := List.mem_filterMap.mp hi
      rw [severity_of_displayIssue? hissue] at herror
      cases herror
  · rintro ⟨x, hx, hoptional, hlacks⟩
    exact ⟨missingIssue b x, List.mem_append_left _ (mem_missingIssues.mpr ⟨x, hx, hlacks, rfl⟩),
      (b.reportsLack_missingIssue x).1.mpr hoptional⟩

theorem exists_warning_iff :
    (∃ i ∈ blockIssues b, i.severity = .warning) ↔ b.FallsShort := by
  constructor
  · rintro ⟨i, hi, hwarning⟩
    rcases List.mem_append.mp hi with hi | hi
    · obtain ⟨x, hx, hlacks, rfl⟩ := mem_missingIssues.mp hi
      exact Or.inl ⟨x, hx, severity_missingIssue_eq_warning_iff.mp hwarning, hlacks⟩
    · obtain ⟨field, hfield, hissue⟩ := List.mem_filterMap.mp hi
      exact Or.inr ⟨field, leavesBare_iff.mpr ⟨hfield, Option.isSome_iff_exists.mpr ⟨i, hissue⟩⟩⟩
  · rintro (⟨x, hx, hoptional, hlacks⟩ | ⟨field, hbare⟩)
    · exact ⟨missingIssue b x, List.mem_append_left _ (mem_missingIssues.mpr ⟨x, hx, hlacks, rfl⟩),
        severity_missingIssue_eq_warning_iff.mpr hoptional⟩
    · obtain ⟨hfield, hissue⟩ := leavesBare_iff.mp hbare
      obtain ⟨i, hissue⟩ := Option.isSome_iff_exists.mp hissue
      exact ⟨i, List.mem_append_right _ (List.mem_filterMap.mpr ⟨field, hfield, hissue⟩),
        severity_of_displayIssue? hissue⟩

end Block

namespace References.AuditReport

theorem count_pos_iff {r : AuditReport} {s : Severity} :
    0 < r.count s ↔ ∃ p ∈ r.plugins, ∃ i ∈ p.issues, i.severity = s := by
  rw [count, List.length_pos_iff_exists_mem]
  simp only [List.mem_flatMap, List.mem_filter, beq_iff_eq]
  exact ⟨fun ⟨i, p, hp, hi⟩ => ⟨p, hp, i, hi⟩, fun ⟨p, hp, i, hi⟩ => ⟨i, p, hp, hi⟩⟩

variable {checked : Nat} {ms : List (String × Manifest)}

/-- An issue of some severity in a report comes from a block of an audited manifest. -/
theorem count_audits_pos_iff {s : Severity} :
    0 < count ⟨checked, ms.map fun e => audit e.1 e.2⟩ s ↔
      ∃ e ∈ ms, ∃ b ∈ e.2.blocks, ∃ i ∈ blockIssues b, i.severity = s := by
  rw [count_pos_iff]
  constructor
  · rintro ⟨p, hp, i, hi, hs⟩
    obtain ⟨e, he, rfl⟩ := List.mem_map.mp hp
    obtain ⟨b, hb, hi⟩ := List.mem_flatMap.mp hi
    exact ⟨e, he, b, hb, i, hi, hs⟩
  · rintro ⟨e, he, b, hb, i, hi, hs⟩
    exact ⟨_, List.mem_map_of_mem he, i, List.mem_flatMap.mpr ⟨b, hb, hi⟩, hs⟩

theorem errors_pos_iff : 0 < errors ⟨checked, ms.map fun e => audit e.1 e.2⟩ ↔
    ∃ e ∈ ms, ∃ b ∈ e.2.blocks, b.LacksRequired := by
  rw [errors, count_audits_pos_iff]
  simp only [Block.exists_error_iff]

theorem warnings_pos_iff : 0 < warnings ⟨checked, ms.map fun e => audit e.1 e.2⟩ ↔
    ∃ e ∈ ms, ∃ b ∈ e.2.blocks, b.FallsShort := by
  rw [warnings, count_audits_pos_iff]
  simp only [Block.exists_warning_iff]

theorem exitCode_eq_iff (r : AuditReport) (strict : Bool) :
    (r.exitCode strict = 1 ↔ 0 < r.errors) ∧
    (r.exitCode strict = 2 ↔ ¬ 0 < r.errors ∧ strict = true ∧ 0 < r.warnings) ∧
    (r.exitCode strict = 0 ↔ ¬ 0 < r.errors ∧ ¬ (strict = true ∧ 0 < r.warnings)) := by
  simp only [exitCode, Bool.and_eq_true, decide_eq_true_eq]
  by_cases herrors : 0 < r.errors
  · simp [herrors]
  · rw [if_neg herrors]
    by_cases hwarnings : strict = true ∧ 0 < r.warnings
    · simp [herrors, hwarnings]
    · simp only [herrors, hwarnings]
      decide

end References.AuditReport

/-! ## §F Audits -/

/-- **`audit_exact`** — the blocks of a manifest are those under `mappings`, and behind them those of
adapters. The issues come block by block, and those of a block are the references that it lacks and then
those that it leaves bare. Every block that refers to entities has a table of its own. The exit code of a
report is one if some block lacks a required reference; else two if warnings count and some block gives
rise to one; else zero. -/
theorem audit_exact :
    (∀ (path : String) (m : Manifest), let a := audit path m
      a.path = path ∧ m.ListsBlocks m.blocks ∧
      (∃ issues, a.issues = issues.flatten ∧ List.Forall₂ Block.AuditedAs m.blocks issues) ∧
      (m.blocks.Pairwise fun b b' => b.pointer ≠ b'.pointer) ∧
      (∀ b ∈ m.blocks, b.Refers →
        ∃ found, a.references.get? b.pointer = some found ∧ b.Tabulates found) ∧
      ∀ pointer found, a.references.get? pointer = some found →
        ∃ b ∈ m.blocks, b.pointer = pointer ∧ b.Refers ∧ b.Tabulates found) ∧
    ∀ (checked : Nat) (ms : List (String × Manifest)) (strict : Bool),
      let exitCode := AuditReport.exitCode ⟨checked, ms.map fun e => audit e.1 e.2⟩ strict
      let failing := ∃ e ∈ ms, ∃ b ∈ e.2.blocks, b.LacksRequired
      let wanting := ∃ e ∈ ms, ∃ b ∈ e.2.blocks, b.FallsShort
      (exitCode = 1 ↔ failing) ∧
      (exitCode = 2 ↔ ¬ failing ∧ strict = true ∧ wanting) ∧
      (exitCode = 0 ↔ ¬ failing ∧ ¬ (strict = true ∧ wanting)) := by
  constructor
  · intro path m a
    refine ⟨rfl, m.listsBlocks, ⟨m.blocks.map blockIssues, List.flatMap_def, ?_⟩,
      m.pairwise_pointer_ne, ?_, ?_⟩
    · rw [List.forall₂_map_right_iff]
      exact List.forall₂_same.mpr fun b _ => b.auditedAs_blockIssues
    · exact fun b hb hrefers =>
        ⟨ofBlock b, get?_references_iff.mpr ⟨b, hb, hrefers, rfl, rfl⟩, b.tabulates_ofBlock⟩
    · intro pointer found hfound
      obtain ⟨b, hb, hrefers, hpointer, rfl⟩ := get?_references_iff.mp hfound
      exact ⟨b, hb, hpointer, hrefers, b.tabulates_ofBlock⟩
  · intro checked ms strict exitCode failing wanting
    have hcode := AuditReport.exitCode_eq_iff ⟨checked, ms.map fun e => audit e.1 e.2⟩ strict
    rwa [AuditReport.errors_pos_iff, AuditReport.warnings_pos_iff] at hcode

end PluginVet
