/-
# PluginVet.Proofs.Validation — a verdict looks at nothing but the plugin's own directory

The checks of a plugin look for its descriptor, its icon and its tests behind the plugin's directory.
Where these are contained paths, two directories with equal content get the same findings, wherever
they lie (`validate_congr`). Each check has categories of its own, by which its findings are told apart.

§A directories with the same content, §B what the checks read, §C the verdict, §D categories.
-/
import PluginVet.Proofs.FileTree.Route
import PluginVet.Validation

namespace PluginVet

/-! ## §A Directories with the same content -/

/-- **`SameBelow t dir t' dir'`** — contained paths find the same behind both directories. -/
def FileTree.SameBelow (t : FileTree) (dir : Path) (t' : FileTree) (dir' : Path) : Prop :=
  ∀ next : Path, next.isContained = true → ∀ x,
    t.find (dir.join next) = .ok x ↔ t'.find (dir'.join next) = .ok x

namespace FileTree

variable {t t' : FileTree} {dir dir' p p' : Path}

/-- Behind paths of which both lead to the same directory, or neither to any, the same is found. -/
theorem sameBelow_of_openTo_iff (ht : t.Proper) (ht' : t'.Proper) (hdir : dir.text.toList ≠ [])
    (hdir' : dir'.text.toList ≠ []) (hopen : t.OpenTo dir ↔ t'.OpenTo dir')
    (h : t.OpenTo dir → t.at? (t.placeOf dir) = t'.at? (t'.placeOf dir')) :
    SameBelow t dir t' dir' := by
  intro next hnext x
  rw [find_join_eq_ok_iff ht hdir hnext, find_join_eq_ok_iff ht' hdir' hnext, ← hopen]
  refine and_congr_right fun hdirectory => ?_
  have hat : t.at? (t.placeOf dir ++ next.names) = t'.at? (t'.placeOf dir' ++ next.names) := by
    show t.root.at? _ = t'.root.at? _
    rw [FileNode.at?_append, FileNode.at?_append]
    exact congrArg (Option.bind · _) (h hdirectory)
  rw [hat]

theorem sameBelow_of_at?_eq (ht : t.Proper) (ht' : t'.Proper) (hdir : dir.text.toList ≠ [])
    (hdir' : dir'.text.toList ≠ []) (hopen : t.OpenTo dir) (hopen' : t'.OpenTo dir')
    (h : t.at? (t.placeOf dir) = t'.at? (t'.placeOf dir')) : SameBelow t dir t' dir' :=
  sameBelow_of_openTo_iff ht ht' hdir hdir' ⟨fun _ => hopen', fun _ => hopen⟩ fun _ => h

/-- Paths that lead to the same directory, in one tree or in two, have the same behind them. -/
theorem sameBelow_of_isDirectory (ht : t.Proper) (ht' : t'.Proper) (hd : t.isDirectory dir = true)
    (hd' : t'.isDirectory dir' = true) (h : t.at? (t.placeOf dir) = t'.at? (t'.placeOf dir')) :
    SameBelow t dir t' dir' := by
  obtain ⟨htext, hopen⟩ := (isDirectory_iff ht).mp hd
  obtain ⟨htext', hopen'⟩ := (isDirectory_iff ht').mp hd'
  exact sameBelow_of_at?_eq ht ht' htext htext' hopen hopen' h

theorem holds_congr (h : ∀ x, t.find p = .ok x ↔ t'.find p' = .ok x) (what : FileNode → Bool) :
    t.holds p what = t'.holds p' what := by
  rw [Bool.eq_iff_iff, holds_iff, holds_iff]
  exact exists_congr fun x => and_congr_left fun _ => h x

/-- What a walk that enters every directory meets does not depend on where the walk begins. -/
theorem map_below_congr (limit depth : Nat) (path path' : Path) (node : FileNode) :
    (below limit (fun _ => true) path depth node).map (fun e => (e.name, e.node))
      = (below limit (fun _ => true) path' depth node).map fun e => (e.name, e.node) := by
  -- The induction is on the levels that are left; the paths differ more with each of them.
  suffices h : ∀ fuel depth path path' node, limit + 1 - depth ≤ fuel →
      (below limit (fun _ => true) path depth node).map (fun e => (e.name, e.node))
        = (below limit (fun _ => true) path' depth node).map fun e => (e.name, e.node) from
    h _ depth path path' node (Nat.le_refl _)
  intro fuel
  induction fuel with
  | zero =>
      intro depth path path' node hfuel
      have hdeep : ¬ depth ≤ limit := by omega
      cases node with
      | file bytes => rfl
      | link target => rfl
      | directory es => rw [below, below, if_neg hdeep, if_neg hdeep]
  | succ fuel ih =>
      intro depth path path' node hfuel
      cases node with
      | file bytes => rfl
      | link target => rfl
      | directory es =>
          rw [below, below]
          split
          · induction es with
            | nil => rw [belowAll, belowAll]
            | cons p rest ihrest =>
                obtain ⟨name, node⟩ := p
                rw [belowAll, belowAll, List.map_append, List.map_append, List.map_cons,
                  List.map_cons, ihrest]
                dsimp only
                rw [if_pos rfl, if_pos rfl,
                  ih (depth + 1) (path.child name) (path'.child name) node (by omega)]
          · rfl

end FileTree

open FileTree (SameBelow)

/-- The paths that the checks look for behind a plugin's directory stay below it. -/
structure PluginSettings.StaysInside (s : PluginSettings) : Prop where
  descriptor : Path.isContained ⟨s.descriptorFile⟩ = true
  tests : Path.isContained ⟨s.testsDir⟩ = true
  icons : ∀ icon ∈ s.iconFiles, Path.isContained ⟨icon⟩ = true

variable {t t' : FileTree} {dir dir' : Path} {b : Rulebook}

/-! ## §B What the checks read -/

theorem Descriptor.read_of_not_isFile {file : String} (h : t.isFile (dir.child file) = false) :
    read t dir file = .none (.missing file) := by
  rw [read, h]
  rfl

theorem Descriptor.read_of_find {file content : String} {bytes : ByteArray}
    (hfind : t.find (dir.child file) = .ok (.file bytes))
    (htext : FileTree.textOf (.file bytes) = .ok content) : read t dir file = ofText content := by
  have hfile : t.isFile (dir.child file) = true := FileTree.holds_iff.mpr ⟨_, hfind, rfl⟩
  have hread : t.readText (dir.child file) = .ok content := by
    rw [FileTree.readText, hfind]
    exact htext
  rw [read, hfile, hread]
  rfl

theorem Descriptor.read_congr {file : String} (hfile : Path.isContained ⟨file⟩ = true)
    (h : SameBelow t dir t' dir') : read t dir file = read t' dir' file := by
  have hfind := h ⟨file⟩ hfile
  unfold read
  rw [show t.isFile (dir.child file) = t'.isFile (dir'.child file) from
    FileTree.holds_congr hfind _]
  split
  · rfl
  · rename_i hpresent
    rw [Bool.not_eq_true, Bool.not_eq_false'] at hpresent
    obtain ⟨x, hx, -⟩ := FileTree.holds_iff.mp hpresent
    have hx' : t.find (dir.child file) = .ok x := (hfind x).mpr hx
    rw [FileTree.readText, FileTree.readText, hx, hx']

namespace Rulebook

theorem iconFindings_congr (hicons : ∀ icon ∈ b.settings.iconFiles, Path.isContained ⟨icon⟩ = true)
    (h : SameBelow t dir t' dir') : b.iconFindings t dir = b.iconFindings t' dir' := by
  have hany : (b.settings.iconFiles.any fun icon => t.isFile (dir.child icon))
      = b.settings.iconFiles.any fun icon => t'.isFile (dir'.child icon) := by
    rw [Bool.eq_iff_iff, List.any_eq_true, List.any_eq_true]
    refine exists_congr fun icon => and_congr_right fun hicon => ?_
    rw [show t.isFile (dir.child icon) = t'.isFile (dir'.child icon) from
      FileTree.holds_congr (h ⟨icon⟩ (hicons icon hicon)) _]
  rw [iconFindings, iconFindings, hany]

/-- Names and contents decide which files are scanned; the paths of the entries do not. -/
theorem sources_congr (globs : List Glob) {es es' : List FileTree.Entry}
    (h : es.map (fun e => (e.name, e.node)) = es'.map fun e => (e.name, e.node)) :
    (es.filter fun e => e.node.isFile && Glob.anyMatches globs e.name).map Coverage.sourceOf
      = (es'.filter fun e => e.node.isFile && Glob.anyMatches globs e.name).map
        Coverage.sourceOf := by
  induction es generalizing es' with
  | nil => rw [List.map_eq_nil_iff.mp h.symm]
  | cons e rest ih =>
      obtain ⟨e', rest', rfl, he, hrest⟩ := List.map_eq_cons_iff.mp h.symm
      obtain ⟨hname, hnode⟩ := Prod.mk.inj he
      have hsource : Coverage.sourceOf e' = Coverage.sourceOf e := by
        rw [Coverage.sourceOf, Coverage.sourceOf, hnode]
      rw [List.filter_cons, List.filter_cons, hname, hnode]
      split
      · rw [List.map_cons, List.map_cons, hsource, ih hrest.symm]
      · exact ih hrest.symm

theorem testIndex_congr (htests : Path.isContained ⟨b.settings.testsDir⟩ = true)
    (h : SameBelow t dir t' dir') : b.testIndex t dir = b.testIndex t' dir' := by
  have hfind := h ⟨b.settings.testsDir⟩ htests
  rw [testIndex, testIndex, Coverage.scan, Coverage.scan]
  congr 1
  rw [Coverage.testFiles, Coverage.testFiles]
  cases hx : t.find (dir.child b.settings.testsDir) with
  | ok x =>
      have hx' : t'.find (dir'.child b.settings.testsDir) = .ok x := (hfind x).mp hx
      rw [hx']
      exact sources_congr _ (FileTree.map_below_congr ..)
  | error e =>
      cases hx' : t'.find (dir'.child b.settings.testsDir) with
      | ok x =>
          have hfound : t.find (dir.child b.settings.testsDir) = .ok x := (hfind x).mpr hx'
          rw [hx] at hfound
          cases hfound
      | error e' => rfl

/-! ## §C The verdict -/

/-- A plugin without a document has one finding, which says why. -/
theorem findings_validate_of_none {p : Plugin} {cause : DescriptorError} (o : Checks) (shown : String)
    (h : Descriptor.read t p.directory b.settings.descriptorFile = .none cause) :
    (b.validate t o shown p).findings = [.whole .parse cause.message] := by
  rw [validate, h]
  rfl

theorem findings_congr (hinside : b.settings.StaysInside) (h : SameBelow t dir t' dir') (o : Checks)
    (d : Descriptor) : b.findings t dir o d = b.findings t' dir' o d := by
  cases d with
  | none cause => rfl
  | document v cause => rfl
  | manifest v m =>
      rw [findings, findings, iconFindings_congr hinside.icons h, coverageFindings, coverageFindings,
        testIndex_congr hinside.tests h]

/-- **`validate_congr`** — plugins of one name whose directories have the same content get the same
report. -/
theorem validate_congr {p p' : Plugin} (hinside : b.settings.StaysInside)
    (h : SameBelow t p.directory t' p'.directory) (hname : p.name = p'.name) (o : Checks)
    (shown : String) : b.validate t o shown p = b.validate t' o shown p' := by
  rw [validate, validate, Descriptor.read_congr hinside.descriptor h,
    findings_congr hinside h, hname]

end Rulebook

/-! ## §D Categories -/

section Categories

variable {v : Json} {m : Manifest} {f : Finding} {o : Checks}

theorem Manifest.category_of_mem_lintFindings (h : f ∈ m.lintFindings) :
    ∃ rule, f.category = .expression rule := by
  obtain ⟨block, -, hf⟩ := List.mem_flatMap.mp h
  obtain ⟨lint, -, rfl⟩ := List.mem_map.mp hf
  exact ⟨lint.violation.rule, rfl⟩

namespace Rulebook

theorem category_of_mem_schemaFindings (h : f ∈ b.schemaFindings v) : f.category = .schema := by
  obtain ⟨violation, -, rfl⟩ := List.mem_map.mp h
  rfl

theorem category_of_mem_referenceFindings (h : f ∈ b.referenceFindings v m) :
    f.category = .unknownEntity ∨ f.category = .unknownProperty := by
  unfold referenceFindings at h
  split at h
  · rcases List.mem_append.mp h with hreturn | hmapping
    · obtain ⟨u, -, rfl⟩ := List.mem_map.mp hreturn
      exact Or.inl rfl
    · obtain ⟨problem, -, rfl⟩ := List.mem_map.mp hmapping
      cases problem with
      | unknownEntity block => exact Or.inl rfl
      | unknownProperty block key valid => exact Or.inr rfl
  · exact absurd h List.not_mem_nil

theorem category_of_mem_iconFindings (h : f ∈ b.iconFindings t dir) : f.category = .iconMissing := by
  unfold iconFindings at h
  split at h
  · exact absurd h List.not_mem_nil
  · rw [List.mem_singleton.mp h]
    rfl

theorem category_of_mem_coverageFindings (h : f ∈ b.coverageFindings t dir m) :
    f.category = .missingCoverage := by
  obtain ⟨declared, -, rfl⟩ := List.mem_map.mp h
  rfl

/-- The findings on a manifest by the check that gives findings of a category. -/
def findingsOf (b : Rulebook) (t : FileTree) (dir : Path) (v : Json) (m : Manifest) :
    Category → List Finding
  | .parse => []
  | .schema => b.schemaFindings v
  | .unknownEntity | .unknownProperty => b.referenceFindings v m
  | .expression _ => m.lintFindings
  | .missingCoverage => b.coverageFindings t dir m
  | .iconMissing => b.iconFindings t dir

/-- **`mem_findingsOf`** — a finding on a manifest comes from the check of its category. -/
theorem mem_findingsOf (h : f ∈ b.findings t dir o (.manifest v m)) :
    f ∈ b.findingsOf t dir v m f.category := by
  rw [findings, List.mem_append, List.mem_append, List.mem_append, List.mem_append] at h
  rcases h with (((hschema | hreference) | hlint) | hicon) | hcoverage
  · rw [category_of_mem_schemaFindings hschema]
    exact hschema
  · split at hreference
    · rcases category_of_mem_referenceFindings hreference with hf | hf
      · rw [hf]
        exact hreference
      · rw [hf]
        exact hreference
    · exact absurd hreference List.not_mem_nil
  · obtain ⟨rule, hf⟩ := Manifest.category_of_mem_lintFindings hlint
    rw [hf]
    exact hlint
  · split at hicon
    · rw [category_of_mem_iconFindings hicon]
      exact hicon
    · exact absurd hicon List.not_mem_nil
  · split at hcoverage
    · rw [category_of_mem_coverageFindings hcoverage]
      exact hcoverage
    · exact absurd hcoverage List.not_mem_nil

/-- Every finding on a manifest is about something other than how the descriptor was read. -/
theorem category_ne_parse_of_manifest (h : f ∈ b.findings t dir o (.manifest v m)) :
    f.category ≠ .parse := by
  intro hparse
  have hmem := mem_findingsOf h
  rw [hparse] at hmem
  exact absurd hmem List.not_mem_nil

end Rulebook

end Categories

end PluginVet
