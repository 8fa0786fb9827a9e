/-
# PluginVet.Proofs.Check.Switches — switching checks off takes nothing but their own findings away

Three groups of checks are optional: those of references, of the icon and of the tests. Each finding has
a category that only one group gives, or one that no switch concerns. So the findings of a run with some
switches off are read off those of a full run by their categories (`switches_filter_findings`).

What is no manifest is not checked any further: the one parse finding says so, and beside it there are
at most schema findings. Where the schema does not hold, references are not looked at.

§A what switches keep, §B findings that exclude others.
-/
import PluginVet.Proofs.Validation

namespace PluginVet

variable {b : Rulebook} {t : FileTree} {dir : Path} {v : Json} {m : Manifest} {f : Finding}
  {o : Checks}

/-! ## §A What switches keep -/

/-- **`admits`** — the switch that findings of a category need; parse, schema and expression findings
need none. -/
def Checks.admits (o : Checks) : Category → Bool
  | .unknownEntity | .unknownProperty => o.references
  | .iconMissing => o.icon
  | .missingCoverage => o.coverage
  | .parse | .schema | .expression _ => true

namespace Checks

/-- The findings that are left with some checks switched off. -/
def kept (o : Checks) (fs : List Finding) : List Finding := fs.filter fun f => o.admits f.category

theorem kept_append (o : Checks) (fs fs' : List Finding) :
    o.kept (fs ++ fs') = o.kept fs ++ o.kept fs' :=
  List.filter_append fs fs'

/-- Findings that all need the same switch are kept or dropped together. -/
theorem kept_of_admits {fs : List Finding} (on : Bool) (h : ∀ f ∈ fs, o.admits f.category = on) :
    o.kept fs = if on then fs else [] := by
  cases on with
  | true => exact List.filter_eq_self.mpr h
  | false =>
      refine List.filter_eq_nil_iff.mpr fun f hf => ?_
      rw [h f hf]
      exact Bool.false_ne_true

theorem kept_schemaFindings : o.kept (b.schemaFindings v) = b.schemaFindings v :=
  kept_of_admits true fun f hf => by
    rw [Rulebook.category_of_mem_schemaFindings hf, admits]

theorem kept_lintFindings : o.kept m.lintFindings = m.lintFindings :=
  kept_of_admits true fun f hf => by
    obtain ⟨rule, hrule⟩ := Manifest.category_of_mem_lintFindings hf
    rw [hrule, admits]

theorem kept_referenceFindings :
    o.kept (b.referenceFindings v m) = if o.references then b.referenceFindings v m else [] :=
  kept_of_admits _ fun f hf => by
    rcases Rulebook.category_of_mem_referenceFindings hf with hf | hf <;> rw [hf, admits]

theorem kept_iconFindings :
    o.kept (b.iconFindings t dir) = if o.icon then b.iconFindings t dir else [] :=
  kept_of_admits _ fun f hf => by rw [Rulebook.category_of_mem_iconFindings hf, admits]

theorem kept_coverageFindings :
    o.kept (b.coverageFindings t dir m) = if o.coverage then b.coverageFindings t dir m else [] :=
  kept_of_admits _ fun f hf => by rw [Rulebook.category_of_mem_coverageFindings hf, admits]

end Checks

/-- **`findings_eq_kept`** — with switches off the checks find what they find with all switches on, but
for what needs a switch. -/
theorem Rulebook.findings_eq_kept (b : Rulebook) (t : FileTree) (dir : Path) (o : Checks)
    (d : Descriptor) : b.findings t dir o d = o.kept (b.findings t dir .full d) := by
  cases d with
  | none cause => rfl
  | document v cause =>
      rw [findings, findings, Checks.kept_append, Checks.kept_schemaFindings]
      rfl
  | manifest v m =>
      simp only [findings, Checks.full, if_true, Checks.kept_append, Checks.kept_schemaFindings,
        Checks.kept_referenceFindings, Checks.kept_lintFindings, Checks.kept_iconFindings,
        Checks.kept_coverageFindings]

/-! ## §B Findings that exclude others -/

namespace Rulebook

/-- References are looked at only where the schema holds. -/
theorem referenceFindings_of_mem_schemaFindings (h : f ∈ b.schemaFindings v) (m : Manifest) :
    b.referenceFindings v m = [] := by
  obtain ⟨violation, hviolation, -⟩ := List.mem_map.mp h
  have hviolations : (b.schema.violations v).isEmpty = false := by
    rw [Bool.eq_false_iff]
    intro hempty
    rw [List.isEmpty_iff.mp hempty] at hviolation
    exact absurd hviolation List.not_mem_nil
  rw [referenceFindings, hviolations]
  rfl

/-- What is no manifest has one parse finding, and schema findings at most beside it. -/
theorem findings_without_manifest {d : Descriptor} (h : d.manifest? = none) :
    ((b.findings t dir o d).filter (·.category = .parse)).length = 1 ∧
      ∀ g ∈ b.findings t dir o d, g.category = .parse ∨ g.category = .schema := by
  cases d with
  | none cause =>
      refine ⟨rfl, fun g hg => Or.inl ?_⟩
      rw [List.mem_singleton.mp hg]
      rfl
  | document v cause =>
      have hschema : (b.schemaFindings v).filter (·.category = .parse) = [] := by
        refine List.filter_eq_nil_iff.mpr fun g hg => ?_
        rw [category_of_mem_schemaFindings hg]
        decide
      constructor
      · rw [findings, List.filter_append, hschema]
        rfl
      · intro g hg
        rcases List.mem_append.mp hg with hg | hg
        · exact Or.inr (category_of_mem_schemaFindings hg)
        · rw [List.mem_singleton.mp hg]
          exact Or.inl rfl
  | manifest v m => cases h

/-- Where there is no manifest, no tool is counted and the tests are not looked at. -/
theorem validate_without_manifest {p : Plugin}
    (h : (Descriptor.read t p.directory b.settings.descriptorFile).manifest? = none) (o : Checks)
    (shown : String) : (b.validate t o shown p).tools = 0 ∧
      (b.validate t o shown p).coverageChecked = false := by
  simp only [validate, h, Option.isSome_none, Bool.and_false, and_self]

/-- Schema findings and findings on references never stand in one report. -/
theorem no_references_beside_schema {d : Descriptor} {g : Finding} (hf : f ∈ b.findings t dir o d)
    (hschema : f.category = .schema) (hg : g ∈ b.findings t dir o d) :
    g.category ≠ .unknownEntity ∧ g.category ≠ .unknownProperty := by
  have hnone : d.manifest? = none → g.category ≠ .unknownEntity ∧ g.category ≠ .unknownProperty := by
    intro h
    rcases (findings_without_manifest h).2 g hg with hcategory | hcategory
    · rw [hcategory]
      exact ⟨nofun, nofun⟩
    · rw [hcategory]
      exact ⟨nofun, nofun⟩
  cases d with
  | none cause => exact hnone rfl
  | document v cause => exact hnone rfl
  | manifest v m =>
      have hmem := mem_findingsOf hf
      rw [hschema] at hmem
      have hempty : b.referenceFindings v m = [] := referenceFindings_of_mem_schemaFindings hmem m
      have hof := mem_findingsOf hg
      constructor
      · intro hentity
        rw [hentity, findingsOf, hempty] at hof
        exact absurd hof List.not_mem_nil
      · intro hproperty
        rw [hproperty, findingsOf, hempty] at hof
        exact absurd hof List.not_mem_nil

end Rulebook

/-- **`switches_filter_findings`** — switching checks off takes away the findings of their categories and
no others, and keeps the order of the rest. A parse finding stands alone but for schema findings, and
then no tool was counted and the tests were not looked at. Beside a schema finding there is none on
references. -/
theorem switches_filter_findings (b : Rulebook) (t : FileTree) (o : Checks) (shown : String)
    (p : Plugin) :
    let r := b.validate t o shown p
    r.findings = (b.validate t .full shown p).findings.filter (fun f => o.admits f.category) ∧
      (∀ f ∈ r.findings, f.category = .parse →
        (r.findings.filter (·.category = .parse)).length = 1 ∧
          (∀ g ∈ r.findings, g.category = .parse ∨ g.category = .schema) ∧
          r.tools = 0 ∧ r.coverageChecked = false) ∧
      (∀ f ∈ r.findings, f.category = .schema →
        ∀ g ∈ r.findings, g.category ≠ .unknownEntity ∧ g.category ≠ .unknownProperty) := by
  intro r
  refine ⟨b.findings_eq_kept t p.directory o _, fun f hf hparse => ?_, fun f hf hschema g hg => ?_⟩
  · -- A manifest has no parse finding, so there is none.
    have hnone : (Descriptor.read t p.directory b.settings.descriptorFile).manifest? = none := by
      have hmem : f ∈ b.findings t p.directory o (.read t p.directory b.settings.descriptorFile) := hf
      cases hd : Descriptor.read t p.directory b.settings.descriptorFile with
      | none cause => rfl
      | document v cause => rfl
      | manifest v m =>
          rw [hd] at hmem
          exact absurd hparse (Rulebook.category_ne_parse_of_manifest hmem)
    obtain ⟨hone, hothers⟩ : (r.findings.filter (·.category = .parse)).length = 1 ∧
        ∀ g ∈ r.findings, g.category = .parse ∨ g.category = .schema :=
      Rulebook.findings_without_manifest hnone
    exact ⟨hone, hothers, Rulebook.validate_without_manifest hnone o shown⟩
  · exact Rulebook.no_references_beside_schema hf hschema hg

end PluginVet
