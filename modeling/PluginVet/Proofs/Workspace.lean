/-
# PluginVet.Proofs.Workspace — what a run does step by step

An opened workspace keeps the promises of its settings: the plugins directory has a path, and the
quarantine directory is a plain one below it. A run is a fold of visits, so what one visit does to the
tree and to the report (`visit_moves`, `visit_report`) carries over to all of a run by induction over
the plugins (`visits_moves`, `mem_zip_visits`).

§A opened workspaces, §B discovered plugins, §C reports, §D visits, §E runs, §F a small repository.
-/
import Mathlib.Data.List.Induction
import PluginVet.Proofs.Discovery
import PluginVet.Workspace

namespace PluginVet

/-! ## §A Opened workspaces -/

/-- **`IsOpened w`** — `w` is the workspace of some settings that were usable. -/
def Workspace.IsOpened (w : Workspace) : Prop :=
  ∃ environment t c, (Config.openWorkspace environment t c).value = .ok w

/-- The names of the quarantine directory, seen from the plugins directory. -/
def Workspace.aside (w : Workspace) : Location := w.config.quarantine.dir.names

namespace Config

variable {environment : Environment} {t : FileTree} {c : Config} {w : Workspace}

theorem validate_eq_ok_iff : c.validate = .ok () ↔ c.problems = [] := by
  unfold validate
  cases c.problems with
  | nil => exact ⟨fun _ => rfl, fun _ => rfl⟩
  | cons p rest =>
      constructor
      · intro h
        cases h
      · intro h
        cases h

theorem isPlain_of_problems (h : c.problems = []) : c.quarantine.dir.isPlain = true := by
  have hquarantine : c.quarantine.problems = [] := (List.append_eq_nil_iff.mp h).2
  unfold QuarantineSettings.problems at hquarantine
  split at hquarantine
  · assumption
  · cases hquarantine

theorem problems_of_prepare {r : Schema.Compiled × List Glob}
    (h : prepare environment t c = .ok r) : c.problems = [] := by
  unfold prepare at h
  cases hvalid : c.validate with
  | error p =>
      rw [hvalid] at h
      cases h
  | ok u => exact validate_eq_ok_iff.mp hvalid

theorem furnish_eq_ok {schema : Schema.Compiled} {registry : Registry} {globs : List Glob}
    (h : furnish environment t c schema registry globs = .ok w) :
    ∃ dir, t.isDirectory dir = true ∧ w = ⟨c, dir, ⟨schema, registry, c.plugins, globs⟩⟩ := by
  unfold furnish at h
  cases hdir : c.pluginsDir environment with
  | error e =>
      rw [hdir] at h
      cases h
  | ok dir =>
      rw [hdir] at h
      simp only [Except.mapError, bind, Except.bind] at h
      split at h
      · rename_i hdirectory
        exact ⟨dir, hdirectory, (Except.ok.inj h).symm⟩
      · cases h

/-- **`openWorkspace_eq_ok`** — what a workspace takes over from the settings and the tree. -/
theorem openWorkspace_eq_ok (h : (openWorkspace environment t c).value = .ok w) :
    c.problems = [] ∧ w.config = c ∧ w.rules.settings = c.plugins ∧
      t.isDirectory w.pluginsDir = true := by
  unfold openWorkspace at h
  split at h
  · cases h
  · rename_i schema globs hprepare
    split at h
    · cases h
    · rename_i source _
      obtain ⟨dir, hdirectory, rfl⟩ := furnish_eq_ok h
      exact ⟨problems_of_prepare hprepare, rfl, rfl, hdirectory⟩

/-- A path that is absolute leads where it says. -/
theorem resolve_of_absolute {p : Path} (hexpand : Expansion.expand environment p = .ok p)
    (habsolute : p.isAbsolute = true) : c.resolve environment p = .ok p := by
  rw [resolve, hexpand]
  simp only [bind, Except.bind, habsolute, if_true]
  rfl

theorem exists_globs_of_problems (h : c.problems = []) : ∃ globs, c.plugins.globs = .ok globs := by
  unfold problems at h
  have hplugins : c.plugins.problems = [] :=
    (List.append_eq_nil_iff.mp (List.append_eq_nil_iff.mp (List.append_eq_nil_iff.mp h).1).1).2
  unfold PluginSettings.problems at hplugins
  have hglobs := (List.append_eq_nil_iff.mp hplugins).2
  split at hglobs
  · rename_i globs hok
    exact ⟨globs, hok⟩
  · cases hglobs

/-- **`exists_openWorkspace`** — usable settings that keep the standard schema are opened wherever their
directories exist. -/
theorem exists_openWorkspace {registryDir pluginsDir : Path} {es : List (String × FileNode)}
    (hproblems : c.problems = []) (hschema : c.schemaPath = none)
    (hregistry : c.registryDir environment = .ok registryDir)
    (hentities : t.find registryDir = .ok (.directory es))
    (hplugins : c.pluginsDir environment = .ok pluginsDir)
    (hdirectory : t.isDirectory pluginsDir = true) :
    ∃ w, (openWorkspace environment t c).value = .ok w ∧ w.config = c ∧
      w.pluginsDir = pluginsDir := by
  obtain ⟨globs, hglobs⟩ := exists_globs_of_problems hproblems
  have hprepare : prepare environment t c = .ok (Schema.plugin, globs) := by
    rw [prepare, validate_eq_ok_iff.mpr hproblems, schemaFile, hschema, hglobs]
    rfl
  have hload : ∃ source, c.loadRegistry environment t = .ok source := by
    rw [loadRegistry, hregistry]
    simp only [Except.mapError, bind, Except.bind, Registry.load, hentities]
    exact ⟨_, rfl⟩
  obtain ⟨source, hsource⟩ := hload
  refine ⟨⟨c, pluginsDir, ⟨Schema.plugin, source.loaded.registry, c.plugins, globs⟩⟩, ?_, rfl, rfl⟩
  rw [openWorkspace, hprepare]
  simp only [hsource, furnish, hplugins, Except.mapError, bind, Except.bind, hdirectory]
  rfl

end Config

namespace Workspace

variable {w : Workspace}

theorem IsOpened.isPlain (hw : w.IsOpened) : w.config.quarantine.dir.isPlain = true := by
  obtain ⟨environment, t, c, h⟩ := hw
  obtain ⟨hproblems, rfl, -, -⟩ := Config.openWorkspace_eq_ok h
  exact Config.isPlain_of_problems hproblems

theorem IsOpened.settings (hw : w.IsOpened) : w.rules.settings = w.config.plugins := by
  obtain ⟨environment, t, c, h⟩ := hw
  obtain ⟨-, rfl, hsettings, -⟩ := Config.openWorkspace_eq_ok h
  exact hsettings

theorem IsOpened.pluginsDir_ne_nil (hw : w.IsOpened) : w.pluginsDir.text.toList ≠ [] := by
  obtain ⟨environment, t, c, h⟩ := hw
  obtain ⟨-, -, -, hdir⟩ := Config.openWorkspace_eq_ok h
  intro hnil
  have hempty : w.pluginsDir.text.isEmpty = true :=
    String.isEmpty_iff.mpr (String.toList_inj.mp hnil)
  rw [FileTree.isDirectory, FileTree.holds, FileTree.find, FileTree.locate, if_pos hempty] at hdir
  exact absurd hdir Bool.false_ne_true

/-! ## §B Discovered plugins -/

variable {t : FileTree} {m : Location} {p : Plugin}

/-- Discovery enters no directory that has the first name of the quarantine directory. -/
theorem not_along_of_allows (hw : w.IsOpened) (hm : ∀ name ∈ m, w.discovery.allows name = true)
    (hne : m ≠ []) : ¬ Location.Along w.aside m := by
  obtain ⟨-, hnames, hcomponents⟩ := Path.isPlain_spec hw.isPlain
  obtain ⟨top, rest, hrest⟩ := List.exists_cons_of_ne_nil hnames
  obtain ⟨name, rest', rfl⟩ := List.exists_cons_of_ne_nil hne
  have hskipped : top ∈ w.discovery.skipDirs := by
    refine List.mem_append_right _ ?_
    rw [QuarantineSettings.topName?, hcomponents, hrest]
    exact List.mem_singleton.mpr rfl
  have hdistinct : top ≠ name := by
    rintro rfl
    have hallowed := hm top List.mem_cons_self
    simp only [Discovery.allows, Bool.and_eq_true, Bool.not_eq_true', List.contains_eq_mem,
      decide_eq_false_iff_not] at hallowed
    exact hallowed.2 hskipped
  show ¬ Location.Along w.config.quarantine.dir.names (name :: rest')
  rw [hrest]
  rintro (h | h)
  · exact hdistinct (List.cons_prefix_cons.mp h).1
  · exact hdistinct (List.cons_prefix_cons.mp h).1.symm

theorem mem_discover (hw : w.IsOpened) (ht : t.Proper) : p ∈ (w.discovery.discover t).plugins ↔
    ∃ m, w.discovery.Finds t m ∧ p = w.discovery.pluginAt m :=
  Discovery.mem_discover_iff ht hw.pluginsDir_ne_nil

theorem place_of_finds (h : w.discovery.Finds t m) (ht : t.Proper) :
    (w.discovery.pluginAt m).place = m :=
  Discovery.place_pluginAt h.named (h.isEntryName ht) _

/-- Where the directory of a plugin at given names lies, and where its path leads through. -/
theorem directory_spec (hw : w.IsOpened) (hne : m ≠ []) (hm : ∀ name ∈ m, Path.IsEntryName name)
    (t : FileTree) : (w.discovery.pluginAt m).directory.text.toList ≠ [] ∧
      t.placeOf (w.discovery.pluginAt m).directory = t.placeOf w.pluginsDir ++ m ∧
      (t.OpenTo (w.discovery.pluginAt m).directory ↔
        t.OpenTo w.pluginsDir ∧ t.root.DirAt (t.placeOf w.pluginsDir ++ m)) := by
  have hroot := hw.pluginsDir_ne_nil
  have hrel := Discovery.isContained_pluginAt hne hm w.discovery
  have hnames : Path.names ⟨(w.discovery.pluginAt m).relPath⟩ = m := Discovery.place_pluginAt hne hm _
  have hdirectory : (w.discovery.pluginAt m).directory
      = w.pluginsDir.join ⟨(w.discovery.pluginAt m).relPath⟩ := Plugin.directory_inside _ _
  rw [hdirectory, FileTree.placeOf_join hroot hrel, FileTree.openTo_join_iff hroot hrel, hnames]
  exact ⟨Path.text_join_ne_nil hroot (Path.isContained_iff.mp hrel).1, rfl, Iff.rfl⟩

theorem placeOf_directory (hw : w.IsOpened) (ht : t.Proper) (h : w.discovery.Finds t m) :
    t.placeOf (w.discovery.pluginAt m).directory = t.placeOf w.pluginsDir ++ m :=
  (directory_spec hw h.named (h.isEntryName ht) t).2.1

/-- What contained paths find behind the directory of a plugin. -/
theorem find_behind_iff {next : Path} {x : FileNode} (hw : w.IsOpened) (ht : t.Proper) (hne : m ≠ [])
    (hm : ∀ name ∈ m, Path.IsEntryName name) (hnext : next.isContained = true) :
    t.find ((w.discovery.pluginAt m).directory.join next) = .ok x ↔
      (t.OpenTo w.pluginsDir ∧ t.root.DirAt (t.placeOf w.pluginsDir ++ m)) ∧
        t.at? (t.placeOf w.pluginsDir ++ m ++ next.names) = some x ∧ FileTree.AsksFor next x := by
  obtain ⟨htext, hplace, hopen⟩ := directory_spec hw hne hm t
  rw [FileTree.find_join_eq_ok_iff ht htext hnext, hplace, hopen]

end Workspace

/-! ## §C Reports -/

/-- The plugin reported on was moved. -/
def PluginReport.wasMoved (r : PluginReport) : Bool := r.quarantine.any Outcome.isMoved

/-- The plugins that reports show as moved. -/
def movedOf (ps : List Plugin) (reports : List PluginReport) : List Plugin :=
  ((ps.zip reports).filter fun e => e.2.wasMoved).map Prod.fst

theorem mem_movedOf {ps : List Plugin} {reports : List PluginReport} {p : Plugin} :
    p ∈ movedOf ps reports ↔ ∃ r, (p, r) ∈ ps.zip reports ∧ r.wasMoved = true := by
  simp [movedOf]

theorem movedOf_concat {ps : List Plugin} {reports : List PluginReport}
    (hlength : reports.length = ps.length) (p : Plugin) (r : PluginReport) :
    movedOf (ps ++ [p]) (reports ++ [r])
      = movedOf ps reports ++ if r.wasMoved then [p] else [] := by
  unfold movedOf
  rw [List.zip_append hlength.symm, List.filter_append, List.map_append]
  congr 1
  cases hr : r.wasMoved <;> simp [hr]

namespace Workspace

open FileTree (Moves)

variable {w : Workspace} {t : FileTree} {o : RunOptions} {run : Run} {ps : List Plugin}
  {p : Plugin} {m : Location}

/-! ## §D Visits -/

/-- The report on a plugin in a run, with what came of moving it. -/
def reportOn (w : Workspace) (o : RunOptions) (t : FileTree) (p : Plugin) : PluginReport :=
  let r := w.validate t o.checks p
  if w.isToMove o p r then { r with quarantine := some (w.quarantine.relocate t p.relPath).outcome }
  else r

theorem findings_reportOn (w : Workspace) (o : RunOptions) (t : FileTree) (p : Plugin) :
    (w.reportOn o t p).findings = (w.validate t o.checks p).findings := by
  unfold reportOn
  dsimp only
  split <;> rfl

theorem passed_reportOn (w : Workspace) (o : RunOptions) (t : FileTree) (p : Plugin) :
    (w.reportOn o t p).passed = (w.validate t o.checks p).passed := by
  rw [PluginReport.passed, findings_reportOn]
  rfl

/-- A plugin has a quarantine outcome exactly when it was to be moved. -/
theorem isSome_quarantine_reportOn :
    (w.reportOn o t p).quarantine.isSome = w.isToMove o p (w.validate t o.checks p) := by
  unfold reportOn
  dsimp only
  split
  · rename_i h
    rw [h]
    rfl
  · rename_i h
    rw [Bool.not_eq_true] at h
    rw [h]
    rfl

theorem isSome_of_wasMoved {r : PluginReport} (h : r.wasMoved = true) :
    r.quarantine.isSome = true := by
  unfold PluginReport.wasMoved at h
  cases hq : r.quarantine with
  | none =>
      rw [hq] at h
      cases h
  | some outcome => rfl

theorem isToMove_spec {r : PluginReport} (h : w.isToMove o p r = true) :
    o.quarantine = true ∧ w.config.quarantine.enabled = true ∧ r.passed = false ∧
      w.quarantine.isQuarantined p.relPath = false := by
  unfold isToMove at h
  simpa only [Bool.and_eq_true, Bool.not_eq_true', and_assoc] using h

theorem wasMoved_reportOn : (w.reportOn o t p).wasMoved = true ↔
    w.isToMove o p (w.validate t o.checks p) = true ∧
      (w.quarantine.relocate t p.relPath).outcome.isMoved = true := by
  cases hto : w.isToMove o p (w.validate t o.checks p) with
  | false =>
      refine ⟨fun h => ?_, fun h => absurd h.1 Bool.false_ne_true⟩
      have hsome := isSome_of_wasMoved h
      rw [isSome_quarantine_reportOn, hto] at hsome
      cases hsome
  | true =>
      rw [reportOn, if_pos hto]
      exact ⟨fun h => ⟨rfl, h⟩, fun h => h.2⟩

theorem visit_report (w : Workspace) (o : RunOptions) (run : Run) (p : Plugin) :
    (w.visit o run p).report.plugins = run.report.plugins ++ [w.reportOn o run.tree p] := by
  unfold visit reportOn
  dsimp only
  split <;> rfl

theorem visit_tree_of_not_isToMove
    (h : w.isToMove o p (w.validate run.tree o.checks p) = false) :
    (w.visit o run p).tree = run.tree := by
  unfold visit
  dsimp only
  rw [h]
  rfl

/-- **`visit_moves`** — one visit carries the plugin's directory if the report says so, and makes nothing
but directories otherwise. -/
theorem visit_moves (hw : w.IsOpened) (ht : run.tree.Proper) (p : Plugin) :
    Moves (run.tree.placeOf w.pluginsDir) w.aside run.tree
      (if (w.reportOn o run.tree p).wasMoved then [p.place] else []) (w.visit o run p).tree := by
  have hroot := hw.pluginsDir_ne_nil
  have hplain := hw.isPlain
  unfold visit reportOn
  dsimp only
  split
  · rename_i h
    obtain ⟨-, -, -, hout⟩ := isToMove_spec h
    exact Quarantine.relocate_moves hroot hplain ht hout
  · exact .start

/-! ## §E Runs -/

/-- A run over given plugins. -/
def visits (w : Workspace) (o : RunOptions) (t : FileTree) (warnings : List Warning)
    (ps : List Plugin) : Run :=
  ps.foldl (w.visit o) ⟨t, ⟨[]⟩, [], warnings⟩

theorem run_eq_visits (w : Workspace) (t : FileTree) (s : Selection) (o : RunOptions) :
    w.run t s o = w.visits o t (w.select t s).warnings (w.select t s).value :=
  rfl

section Visits

variable {warnings : List Warning}

theorem visits_concat (ps : List Plugin) (p : Plugin) :
    w.visits o t warnings (ps ++ [p]) = w.visit o (w.visits o t warnings ps) p := by
  rw [visits, List.foldl_concat]
  rfl

theorem length_visits (ps : List Plugin) :
    (w.visits o t warnings ps).report.plugins.length = ps.length := by
  induction ps using List.reverseRecOn with
  | nil => rfl
  | append_singleton before p ih =>
      rw [visits_concat, visit_report, List.length_append, List.length_append, ih]
      rfl

/-- The reports on the first plugins are those of a run over them alone, and the next report is made in
the tree that this run leaves. -/
theorem exists_reports_append (before : List Plugin) (p : Plugin) (after : List Plugin) :
    ∃ later, (w.visits o t warnings (before ++ p :: after)).report.plugins
      = (w.visits o t warnings before).report.plugins
        ++ w.reportOn o (w.visits o t warnings before).tree p :: later := by
  induction after using List.reverseRecOn with
  | nil =>
      refine ⟨[], ?_⟩
      rw [visits_concat, visit_report]
  | append_singleton middle q ih =>
      obtain ⟨later, hlater⟩ := ih
      rw [← List.cons_append, ← List.append_assoc, visits_concat, visit_report, hlater]
      exact ⟨_, List.append_assoc ..⟩

theorem mem_zip_visits (before : List Plugin) (p : Plugin) (after : List Plugin) :
    (p, w.reportOn o (w.visits o t warnings before).tree p) ∈ (before ++ p :: after).zip
      (w.visits o t warnings (before ++ p :: after)).report.plugins := by
  obtain ⟨later, hlater⟩ : ∃ later, (w.visits o t warnings (before ++ p :: after)).report.plugins = _ :=
    exists_reports_append before p after
  rw [hlater, List.zip_append (length_visits before).symm]
  exact List.mem_append_right _ List.mem_cons_self

/-- Each report is one on its plugin in some tree on the way. -/
theorem exists_reportOn {r : PluginReport} (h : (p, r) ∈
    ps.zip (w.visits o t warnings ps).report.plugins) : ∃ t', r = w.reportOn o t' p := by
  induction ps using List.reverseRecOn with
  | nil => exact absurd h List.not_mem_nil
  | append_singleton before q ih =>
      rw [visits_concat, visit_report, List.zip_append (length_visits before).symm] at h
      rcases List.mem_append.mp h with h | h
      · exact ih h
      · obtain ⟨rfl, rfl⟩ := Prod.mk.inj (List.mem_singleton.mp h)
        exact ⟨_, rfl⟩

/-- **`visits_moves`** — the directories that a run carries are those of the plugins that its reports
show as moved, in this order. -/
theorem visits_moves (hw : w.IsOpened) (ht : t.Proper) (ps : List Plugin) :
    Moves (t.placeOf w.pluginsDir) w.aside t
      ((movedOf ps (w.visits o t warnings ps).report.plugins).map Plugin.place)
      (w.visits o t warnings ps).tree := by
  induction ps using List.reverseRecOn with
  | nil => exact .start
  | append_singleton before p ih =>
      -- The last visit starts from a tree in which the plugins directory lies at the same place.
      have hstep := visit_moves (o := o) hw (ih.proper ht) p
      rw [ih.placeOf_eq] at hstep
      rw [visits_concat, visit_report, movedOf_concat (length_visits before), List.map_append]
      refine ih.trans ?_
      rwa [apply_ite (List.map Plugin.place)]

/-- Where nothing is to be moved, the tree stays as it is. -/
theorem visits_tree (h : ∀ p ∈ ps, w.isToMove o p (w.validate t o.checks p) = false) :
    (w.visits o t warnings ps).tree = t := by
  induction ps using List.reverseRecOn with
  | nil => rfl
  | append_singleton before p ih =>
      have hbefore := ih fun q hq => h q (List.mem_append_left _ hq)
      rw [visits_concat, visit_tree_of_not_isToMove, hbefore]
      rw [hbefore]
      exact h p (List.mem_append_right _ (List.mem_singleton.mpr rfl))

/-- What a run moves was not in the quarantine tree and failed its checks in the same run. -/
theorem mem_movedOf_visits (h : p ∈ movedOf ps (w.visits o t warnings ps).report.plugins) :
    p ∈ ps ∧ Path.isContained ⟨p.relPath⟩ = true ∧
      ∃ r, (p, r) ∈ ps.zip (w.visits o t warnings ps).report.plugins ∧ r.passed = false := by
  obtain ⟨r, hmem, hr⟩ := mem_movedOf.mp h
  obtain ⟨t', rfl⟩ := exists_reportOn hmem
  obtain ⟨hto, hmoved⟩ := wasMoved_reportOn.mp hr
  obtain ⟨-, -, hfailed, -⟩ := isToMove_spec hto
  refine ⟨(List.of_mem_zip hmem).1, Quarantine.isContained_of_moved hmoved, _, hmem, ?_⟩
  rw [passed_reportOn, hfailed]

end Visits

/-- **`placeOf_source`** — where a contained plugin lies, and where it is moved to. -/
theorem placeOf_source (hw : w.IsOpened) (hp : Path.isContained ⟨p.relPath⟩ = true) (t : FileTree) :
    t.placeOf (w.quarantine.source p.relPath) = t.placeOf w.pluginsDir ++ p.place ∧
      t.placeOf (w.quarantine.destination p.relPath)
        = t.placeOf w.pluginsDir ++ w.aside ++ p.place :=
  Quarantine.placeOf_below hw.pluginsDir_ne_nil hw.isPlain hp t

/-- A plugin that is found can be moved where its place in the quarantine tree is free. -/
theorem isMoved_of_finds {before : Location} {name : String} (hw : w.IsOpened) (ht : t.Proper)
    (hm : w.discovery.Finds t m) (hsplit : m = before ++ [name])
    (hholder : t.root.DirAt (t.placeOf w.pluginsDir ++ (w.aside ++ before)))
    (hfree : t.root.at? (t.placeOf w.pluginsDir ++ (w.aside ++ before ++ [name])) = none) :
    (w.quarantine.relocate t (w.discovery.pluginAt m).relPath).outcome.isMoved = true := by
  subst hsplit
  have hnames := hm.isEntryName ht
  refine Quarantine.isMoved_relocate hw.pluginsDir_ne_nil hw.isPlain ht hm.opened
    (Discovery.isContained_pluginAt hm.named hnames _) (place_of_finds hm ht) hholder ?_ hm.present
    (not_along_of_allows hw hm.allowed hm.named) hfree
  rw [Discovery.relPath_pluginAt hm.named hnames, Path.lead_intercalate hm.named hnames, List.map_append]
  exact List.getLast?_concat

end Workspace

/-! ## §F A small repository -/

/-- Settings with the plugins in a directory of one's own choice. -/
def Config.small (pluginsDir : Path) : Config :=
  { Config.standard with
    plugins := { PluginSettings.standard with dir := pluginsDir, testFilePatterns := [] }
    registry := { RegistrySettings.standard with dir := ⟨"/entities"⟩ } }

theorem Config.registryDir_small (pluginsDir : Path) :
    (small pluginsDir).registryDir Table.empty = .ok ⟨"/entities"⟩ := by
  have hexpand : Expansion.expand Table.empty ⟨"/entities"⟩ = .ok ⟨"/entities"⟩ := rfl
  have habsolute : Path.isAbsolute ⟨"/entities"⟩ = true := rfl
  exact resolve_of_absolute hexpand habsolute

/-- A tree with a registry of no entities and the given entries of the plugins directory. -/
def FileTree.small (plugins : List (String × FileNode)) : FileTree :=
  ⟨.directory [("entities", .directory []), ("plugins", .directory plugins)], []⟩

theorem FileTree.at?_small (plugins : List (String × FileNode)) (name : String) (rest : Location) :
    (small plugins).root.at? (["plugins"] ++ name :: rest)
      = (Keyed.get? plugins name).bind fun child => child.at? rest := by
  have hdir : (small plugins).root.at? ["plugins"] = some (.directory plugins) := rfl
  rw [FileNode.at?_append, hdir]
  show (FileNode.directory plugins).at? (name :: rest) = _
  rw [FileNode.at?_cons]
  rfl

theorem FileTree.proper_small {plugins : List (String × FileNode)}
    (h : (FileNode.directory plugins).Proper) : (small plugins).Proper := by
  have hsorted : ["entities", "plugins"].Pairwise (· < ·) := by decide
  refine .directory hsorted ?_ ?_
  · simp only [List.forall_mem_cons, List.not_mem_nil, false_imp_iff, implies_true, and_true]
    decide
  · simp only [List.forall_mem_cons, List.not_mem_nil, false_imp_iff, implies_true, and_true]
    exact ⟨FileNode.proper_empty, h⟩

theorem FileTree.openTo_small (plugins : List (String × FileNode)) :
    (small plugins).OpenTo ⟨"/plugins"⟩ := by
  intro l hl
  have hway : (small plugins).wayTo ⟨"/plugins"⟩ = [[], ["plugins"]] := rfl
  rw [hway] at hl
  rcases List.mem_cons.mp hl with rfl | hl
  · exact ⟨_, rfl⟩
  · obtain rfl := List.mem_singleton.mp hl
    exact ⟨_, rfl⟩

/-- The small repository can be opened wherever its plugins directory is one. -/
theorem Workspace.exists_small {pluginsDir : Path} {plugins : List (String × FileNode)}
    (hplugins : (FileNode.directory plugins).Proper)
    (hproblems : (Config.small pluginsDir).problems = [])
    (hexpand : Expansion.expand Table.empty pluginsDir = .ok pluginsDir)
    (habsolute : pluginsDir.isAbsolute = true)
    (hopen : (FileTree.small plugins).OpenTo pluginsDir) (htext : pluginsDir.text.toList ≠ []) :
    ∃ w : Workspace, w.IsOpened ∧ w.config = Config.small pluginsDir ∧ w.pluginsDir = pluginsDir := by
  have ht := FileTree.proper_small hplugins
  have hentities : (FileTree.small plugins).find ⟨"/entities"⟩ = .ok (.directory []) :=
    (FileTree.find_eq_ok_iff ht).mpr ⟨by decide, ⟨⟨_, rfl⟩, rfl, trivial⟩, rfl⟩
  obtain ⟨w, hw, hconfig, hdir⟩ := Config.exists_openWorkspace hproblems rfl
    (Config.registryDir_small pluginsDir) hentities (Config.resolve_of_absolute hexpand habsolute)
    ((FileTree.isDirectory_iff ht).mpr ⟨htext, hopen⟩)
  exact ⟨w, ⟨_, _, _, hw⟩, hconfig, hdir⟩

/-- A plugin whose descriptor is an empty file. -/
def FileNode.emptyPlugin : FileNode := .directory [("readme.md", .file .empty)]

theorem FileNode.proper_emptyPlugin : emptyPlugin.Proper := by
  refine .directory (List.pairwise_singleton _ _) ?_ ?_
  · simp only [List.forall_mem_cons, List.not_mem_nil, false_imp_iff, implies_true, and_true]
    decide
  · simp only [List.forall_mem_cons, List.not_mem_nil, false_imp_iff, implies_true, and_true]
    exact .file _

/-- The plugins directory that holds one such plugin. -/
def FileTree.onePlugin : List (String × FileNode) := [("a", .emptyPlugin)]

theorem FileTree.proper_onePlugin : (FileNode.directory onePlugin).Proper := by
  refine .directory (List.pairwise_singleton _ _) ?_ ?_
  · simp only [onePlugin, List.forall_mem_cons, List.not_mem_nil, false_imp_iff, implies_true,
      and_true]
    decide
  · simp only [onePlugin, List.forall_mem_cons, List.not_mem_nil, false_imp_iff, implies_true,
      and_true]
    exact FileNode.proper_emptyPlugin

theorem Workspace.exists_onePlugin : ∃ w : Workspace, w.IsOpened ∧
    w.config = Config.small ⟨"/plugins"⟩ ∧ w.pluginsDir = ⟨"/plugins"⟩ :=
  exists_small FileTree.proper_onePlugin (by decide) rfl rfl (FileTree.openTo_small _) (by decide)

/-- Discovery in a small repository passes over what the standard settings name. -/
theorem Workspace.skipDirs_small {w : Workspace} {pluginsDir : Path}
    (hconfig : w.config = Config.small pluginsDir) :
    w.discovery.skipDirs = ["node_modules", "tests", ".needs-work"] := by
  show w.config.plugins.skipDirs ++ w.config.quarantine.topName?.toList = _
  rw [hconfig]
  show PluginSettings.standard.skipDirs ++ QuarantineSettings.standard.topName?.toList = _
  rfl

/-- Such a plugin is found in the small repository, wherever the path of the plugins directory begins. -/
theorem Workspace.finds_emptyPlugin {w : Workspace} {pluginsDir : Path} {name : String}
    {plugins : List (String × FileNode)} (hw : w.IsOpened)
    (hplugins : (FileNode.directory plugins).Proper) (hconfig : w.config = Config.small pluginsDir)
    (hopen : (FileTree.small plugins).OpenTo w.pluginsDir)
    (hplace : (FileTree.small plugins).placeOf w.pluginsDir = ["plugins"])
    (hget : Keyed.get? plugins name = some .emptyPlugin) (hallowed : w.discovery.allows name = true) :
    w.discovery.Finds (FileTree.small plugins) [name] := by
  have hdescriptor : w.discovery.descriptorFile = "readme.md" := by
    show w.config.plugins.descriptorFile = _
    rw [hconfig]
    rfl
  have hat : (FileTree.small plugins).root.at? (["plugins"] ++ [name]) = some .emptyPlugin := by
    rw [FileTree.at?_small, hget]
    rfl
  have hname : Path.IsEntryName name :=
    (FileNode.Proper.at? (FileTree.proper_small hplugins) hat).2 name (by simp)
  have hfile : (FileTree.small plugins).root.fileAt?
      ((FileTree.small plugins).placeOf w.discovery.pluginsDir ++ [name]
        ++ Path.names ⟨w.discovery.descriptorFile⟩) = some .empty := by
    rw [show (FileTree.small plugins).placeOf w.discovery.pluginsDir = _ from hplace, hdescriptor,
      FileNode.fileAt?, FileNode.at?_append, hat]
    rfl
  refine Discovery.finds_name (FileTree.proper_small hplugins) hw.pluginsDir_ne_nil hopen ?_ ?_
    hname hallowed ?_ hfile
  · rw [hdescriptor]
    decide
  · rw [hdescriptor]
    decide
  · rw [show (FileTree.small plugins).placeOf w.discovery.pluginsDir = _ from hplace]
    exact ⟨_, hat⟩

end PluginVet
