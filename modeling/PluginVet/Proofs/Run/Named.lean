/-
# PluginVet.Proofs.Run.Named — a run over plugins that are named

The names may stand in any order and more than once, and a plugin may lie in another one. A failing
plugin is moved before the next name has its turn, so what a report says depends on what was moved
before. As long as that leaves alone the way to the plugin and what lies there, the report is the one
that a run over this plugin alone gives on the tree as it was (`validate_spared`); once something on
the way has been moved, the report is that there is no descriptor (`findings_of_lost`).

Whether failing plugins are in each other's way is seen in the tree as it was. Where none is, the
order of the names and their repetition change no verdict (`run_named_verdicts`).

§A what a move leaves alone, §B verdicts after moves, §C the order of the names, §D two named plugins.
-/
import PluginVet.Proofs.Run.Convergence

namespace PluginVet

open FileTree (Moves)
open Location (Along)

namespace Workspace

variable {w : Workspace} {t t' : FileTree} {o : RunOptions} {warnings : List Warning}
  {s s' : Selection} {p q : Plugin} {ps : List Plugin} {ns : Location} {moved : List Location}

/-! ## §A What a move leaves alone -/

/-- **`Spares w t ns p`** — the directory at `ns` lies neither on the way to the plugin `p` nor in it. -/
def Spares (w : Workspace) (t : FileTree) (ns : Location) (p : Plugin) : Prop :=
  (∀ l ∈ t.wayTo p.directory, ¬ t.placeOf w.pluginsDir ++ ns <+: l) ∧
    ¬ t.placeOf p.directory <+: t.placeOf w.pluginsDir ++ ns

/-- **`Aloof w t p`** — the plugin lies apart from the quarantine tree, and the way to it needs no
directory that is made with that tree. -/
structure Aloof (w : Workspace) (t : FileTree) (p : Plugin) : Prop where
  outside : ¬ Along (t.placeOf w.pluginsDir ++ w.aside) (t.placeOf p.directory)
  settled : ∀ l ∈ t.wayTo p.directory, Along (t.placeOf w.pluginsDir ++ w.aside) l →
    l <+: t.placeOf p.directory ∨ t.root.DirAt l

section Contained

variable (hw : w.IsOpened) (hp : Path.isContained ⟨p.relPath⟩ = true)
  (hdir : p.directory = w.quarantine.source p.relPath)
include hw hp hdir

/-- The way to a contained plugin is the one to the plugins directory and goes on with its names. -/
theorem mem_wayTo_iff {l : Location} : l ∈ t.wayTo p.directory ↔
    l ∈ t.wayTo w.pluginsDir ∨ ∃ before, before <+: p.place ∧ l = t.placeOf w.pluginsDir ++ before := by
  have hroot := hw.pluginsDir_ne_nil
  have htrail := FileTree.trail_join_contained hroot hp
  have habs := FileTree.isAbsolute_join_contained hroot hp
  rw [hdir, FileTree.wayTo, FileTree.origin]
  show l ∈ Location.way (if (w.pluginsDir.join ⟨p.relPath⟩).isAbsolute then [] else t.workplace)
    (w.pluginsDir.join ⟨p.relPath⟩).trail ↔ _
  rw [htrail, habs, Location.mem_way_append, Location.mem_way_into]
  rfl

/-- A contained plugin is spared where it lies neither above nor below what is moved. -/
theorem spares_of_contained (hway : ∀ l ∈ t.wayTo w.pluginsDir, ¬ t.placeOf w.pluginsDir ++ ns <+: l)
    (hapart : ¬ Along ns p.place) : w.Spares t ns p := by
  refine ⟨fun l hl hpre => ?_, fun hpre => ?_⟩
  · rcases (mem_wayTo_iff hw hp hdir).mp hl with hl | ⟨before, hbefore, rfl⟩
    · exact hway l hl hpre
    · exact hapart (Or.inl (((List.prefix_append_right_inj _).mp hpre).trans hbefore))
  · rw [hdir, (placeOf_source hw hp t).1, List.prefix_append_right_inj] at hpre
    exact hapart (Or.inr hpre)

theorem aloof_of_contained (hopen : t.OpenTo w.pluginsDir) (hout : ¬ Along w.aside p.place) :
    w.Aloof t p := by
  have hplace : t.placeOf p.directory = t.placeOf w.pluginsDir ++ p.place := by
    rw [hdir]
    exact (placeOf_source hw hp t).1
  refine ⟨?_, fun l hl _ => ?_⟩
  · rwa [hplace, Location.along_append_iff]
  · rcases (mem_wayTo_iff hw hp hdir).mp hl with hl | ⟨before, hbefore, rfl⟩
    · exact Or.inr (hopen l hl)
    · rw [hplace]
      exact Or.inl ((List.prefix_append_right_inj _).mpr hbefore)

end Contained

/-! ## §B Verdicts after moves -/

section Moved

variable (hw : w.IsOpened) (ht : t.Proper) (hinside : w.config.plugins.StaysInside)
  (hmoves : Moves (t.placeOf w.pluginsDir) w.aside t moved t') (htext : p.directory.text.toList ≠ [])

include hmoves in
theorem openTo_spared_iff (haloof : w.Aloof t p) (hspared : ∀ ns ∈ moved, w.Spares t ns p) :
    t'.OpenTo p.directory ↔ t.OpenTo p.directory := by
  have hway := hmoves.wayTo_eq p.directory
  have hplace := hmoves.placeOf_eq p.directory
  constructor
  · intro hopen l hl
    by_cases halong : Along (t.placeOf w.pluginsDir ++ w.aside) l
    · rcases haloof.settled l hl halong with hpre | hdir
      · -- What lies above the plugin is a directory where the plugin is one.
        have hpresent : t.root.DirAt ([] ++ t.placeOf p.directory) := by
          refine (hmoves.dirAt_iff (fun ns hns => ?_) haloof.outside).mp (hplace ▸ hopen.dirAt)
          exact (hspared ns hns).1 _ (Location.reach_mem_way _ _)
        exact hpresent.above hpre
      · exact hdir
    · exact (hmoves.dirAt_iff (fun ns hns => (hspared ns hns).1 l hl) halong).mp
        (hopen l (hway ▸ hl))
  · intro hopen l hl
    rw [hway] at hl
    exact hmoves.dirAt (fun ns hns => (hspared ns hns).1 l hl) (hopen l hl)

include hw ht hinside hmoves htext

/-- **`validate_spared`** — a plugin that is spared by all that was moved has the verdict that it had. -/
theorem validate_spared (haloof : w.Aloof t p) (hspared : ∀ ns ∈ moved, w.Spares t ns p)
    (o : Checks) : w.validate t' o p = w.validate t o p := by
  refine Rulebook.validate_congr (hw.settings.symm ▸ hinside) ?_ rfl o _
  refine FileTree.sameBelow_of_openTo_iff (hmoves.proper ht) ht htext htext
    (openTo_spared_iff hmoves haloof hspared) fun _ => ?_
  rw [hmoves.placeOf_eq]
  refine hmoves.at?_of_apart (fun ns hns => ?_) haloof.outside
  rintro (hpre | hpre)
  · exact (hspared ns hns).1 _ (Location.reach_mem_way _ _) hpre
  · exact (hspared ns hns).2 hpre

/-- **`findings_of_lost`** — a plugin has no descriptor once something on the way to it was moved. -/
theorem findings_of_lost {l : Location} (hns : ns ∈ moved) (hl : l ∈ t.wayTo p.directory)
    (hpre : t.placeOf w.pluginsDir ++ ns <+: l) (o : Checks) : (w.validate t' o p).findings
      = [.whole .parse (DescriptorError.missing w.config.plugins.descriptorFile).message] := by
  have hclosed : ¬ t'.OpenTo p.directory := by
    intro hopen
    obtain ⟨es, hes⟩ := hopen l (hmoves.wayTo_eq p.directory ▸ hl)
    obtain ⟨r, rfl⟩ := hpre
    rw [FileNode.at?_append_eq_none (hmoves.gone hns)] at hes
    cases hes
  rw [← hw.settings] at hinside ⊢
  refine Rulebook.findings_validate_of_none _ _ (Descriptor.read_of_not_isFile ?_)
  rw [Bool.eq_false_iff]
  intro hfile
  obtain ⟨x, hfind, -⟩ := FileTree.holds_iff.mp hfile
  exact hclosed ((FileTree.find_join_eq_ok_iff (hmoves.proper ht) htext hinside.descriptor).mp
    hfind).1

end Moved

/-! ## §C The order of the names -/

/-- **`Leaves w t o q p`** — should the plugin `q` be moved for what the tree `t` says of it, then the plugin
`p` is spared. -/
def Leaves (w : Workspace) (t : FileTree) (o : RunOptions) (q p : Plugin) : Prop :=
  w.isToMove o q (w.validate t o.checks q) = true → Path.isContained ⟨q.relPath⟩ = true →
    w.Spares t q.place p

theorem text_directory_ne_nil (hw : w.IsOpened) (hp : p ∈ (w.select t s).value) :
    p.directory.text.toList ≠ [] := by
  obtain ⟨relPath, rfl⟩ := Discovery.exists_inside_of_mem_select hp
  rw [Plugin.directory_inside]
  cases habsolute : Path.isAbsolute ⟨(Plugin.inside w.discovery.pluginsDir relPath).relPath⟩ with
  | false => exact Path.text_join_ne_nil hw.pluginsDir_ne_nil habsolute
  | true =>
      obtain ⟨cs, hcs⟩ := Path.isAbsolute_iff.mp habsolute
      rw [Path.join, if_pos habsolute, hcs]
      exact List.cons_ne_nil _ _

/-- The same names in another order select the same plugins in another order. -/
theorem select_perm (hnames : s'.names.Perm s.names) (hfilter : s'.filter = s.filter) :
    (w.select t s').value.Perm (w.select t s).value := by
  have hadmits : s'.admits = s.admits := by
    funext p
    rw [Selection.admits, Selection.admits, hfilter]
  have hcandidates : (s'.candidates w.discovery t).plugins.Perm
      (s.candidates w.discovery t).plugins := by
    obtain ⟨names, filter⟩ := s
    obtain ⟨names', filter'⟩ := s'
    cases names with
    | nil =>
        obtain rfl : names' = [] := hnames.eq_nil
        exact List.Perm.refl _
    | cons name rest =>
        cases names' with
        | nil => exact absurd hnames.symm.eq_nil (List.cons_ne_nil name rest)
        | cons name' rest' => exact hnames.map _
  show ((s'.candidates w.discovery t).plugins.filter s'.admits).Perm
    ((s.candidates w.discovery t).plugins.filter s.admits)
  rw [hadmits]
  exact hcandidates.filter _

/-- The run over one selected plugin that moves nothing. -/
theorem run_alone (hp : p ∈ (w.select t s).value) (checks : Checks) :
    (w.run t ⟨[p.relPath], none⟩ ⟨checks, false⟩).report.plugins = [w.validate t checks p] := by
  have hself : (w.select t ⟨[p.relPath], none⟩).value = [p] := by
    obtain ⟨relPath, rfl⟩ := Discovery.exists_inside_of_mem_select hp
    exact congrArg (fun q => [q]) (Discovery.inside_relPath w.pluginsDir relPath)
  rw [run_eq_visits, hself]
  exact visits_report fun _ _ => rfl

/-- What a run has moved was to be moved for its verdict. -/
theorem isToMove_of_mem_movedOf
    (hverdicts : (w.visits o t warnings ps).report.plugins.map PluginReport.verdict
      = ps.map (w.validate t o.checks))
    (hq : q ∈ movedOf ps (w.visits o t warnings ps).report.plugins) :
    w.isToMove o q (w.validate t o.checks q) = true ∧ Path.isContained ⟨q.relPath⟩ = true := by
  obtain ⟨r, hr, hmoved⟩ := mem_movedOf.mp hq
  have hverdict := verdict_of_mem_zip hverdicts hr
  obtain ⟨t₁, rfl⟩ := exists_reportOn hr
  obtain ⟨hto, houtcome⟩ := wasMoved_reportOn.mp hmoved
  rw [verdict_reportOn] at hverdict
  exact ⟨hverdict ▸ hto, Quarantine.isContained_of_moved houtcome⟩

section Runs

variable (hw : w.IsOpened) (ht : t.Proper) (hinside : w.config.plugins.StaysInside)
include hw ht hinside

/-- **`visits_verdict_of_leaves`** — where each plugin is left alone by those that are named before it, every
report gives the verdict on the tree as it was. -/
theorem visits_verdict_of_leaves (htext : ∀ p ∈ ps, p.directory.text.toList ≠ [])
    (haloof : ∀ p ∈ ps, w.Aloof t p) (hleaves : ps.Pairwise (w.Leaves t o)) :
    (w.visits o t warnings ps).report.plugins.map PluginReport.verdict
      = ps.map (w.validate t o.checks) := by
  induction ps using List.reverseRecOn with
  | nil => rfl
  | append_singleton before p ih =>
      have hlast : p ∈ before ++ [p] := List.mem_append_right _ (List.mem_singleton.mpr rfl)
      obtain ⟨hbefore, -, hspared⟩ := List.pairwise_append.mp hleaves
      have hverdicts := ih (fun q hq => htext q (List.mem_append_left _ hq))
        (fun q hq => haloof q (List.mem_append_left _ hq)) hbefore
      -- What has been moved so far was to be moved in the tree as it was, so it spares `p`.
      have hsame : w.validate (w.visits o t warnings before).tree o.checks p
          = w.validate t o.checks p := by
        refine validate_spared hw ht hinside (visits_moves hw ht before) (htext p hlast)
          (haloof p hlast) (List.forall_mem_map.mpr fun q hq => ?_) _
        obtain ⟨hto, hcontained⟩ := isToMove_of_mem_movedOf hverdicts hq
        have hmem := (mem_movedOf_visits hq).1
        exact hspared q hmem p (List.mem_singleton.mpr rfl) hto hcontained
      rw [visits_concat, visit_report, List.map_append, List.map_append, hverdicts]
      show _ ++ [(w.reportOn o _ _).verdict] = _ ++ [_]
      rw [verdict_reportOn, hsame]

end Runs

/-- **`run_named_verdicts`** — the report on a plugin gives the verdict of the run over that plugin alone on
the tree as it was, if all that was moved before spares it; if something on the way to it was moved,
the report is that there is no descriptor. So where no failing plugin is in another's way, nor named
twice, the order of the names changes no verdict. -/
theorem run_named_verdicts (hw : w.IsOpened) (ht : t.Proper)
    (hinside : w.config.plugins.StaysInside) (s : Selection) (o : RunOptions) :
    (∀ before p after, (w.select t s).value = before ++ p :: after →
      ∃ earlier r later, (w.run t s o).report.plugins = earlier ++ r :: later ∧
        earlier.length = before.length ∧
        (w.Aloof t p → (∀ q ∈ movedOf before earlier, w.Spares t q.place p) →
          (w.run t ⟨[p.relPath], none⟩ ⟨o.checks, false⟩).report.plugins = [r.verdict]) ∧
        ((∃ q ∈ movedOf before earlier, ∃ l ∈ t.wayTo p.directory,
            t.placeOf w.pluginsDir ++ q.place <+: l) →
          r.findings
            = [.whole .parse (DescriptorError.missing w.config.plugins.descriptorFile).message])) ∧
      ((∀ p ∈ (w.select t s).value, w.Aloof t p) →
        (w.select t s).value.Pairwise (fun q p => w.Leaves t o q p ∧ w.Leaves t o p q) →
        ∀ s' : Selection, s'.names.Perm s.names → s'.filter = s.filter →
          ∀ p r, (p, r) ∈ (w.select t s').value.zip (w.run t s' o).report.plugins →
            (w.run t ⟨[p.relPath], none⟩ ⟨o.checks, false⟩).report.plugins = [r.verdict]) := by
  constructor
  · intro before p after hsplit
    have hp : p ∈ (w.select t s).value := by
      rw [hsplit]
      exact List.mem_append_right _ List.mem_cons_self
    have htext := text_directory_ne_nil hw hp
    have hmoves : Moves (t.placeOf w.pluginsDir) w.aside t _
        (w.visits o t (w.select t s).warnings before).tree := visits_moves hw ht before
    obtain ⟨later, hreports⟩ : ∃ later, (w.run t s o).report.plugins = _ ++ _ :: later := by
      rw [run_eq_visits, hsplit]
      exact exists_reports_append before p after
    refine ⟨_, _, later, hreports, length_visits before, fun haloof hspared => ?_, ?_⟩
    · rw [run_alone hp, verdict_reportOn,
        validate_spared hw ht hinside hmoves htext haloof (List.forall_mem_map.mpr hspared)]
    · rintro ⟨q, hq, l, hl, hpre⟩
      rw [findings_reportOn]
      exact findings_of_lost hw ht hinside hmoves htext (List.mem_map_of_mem hq) hl hpre _
  · intro haloof hapart s' hnames hfilter p r hr
    have hperm : (w.select t s').value.Perm (w.select t s).value := select_perm hnames hfilter
    -- To be out of each other's way does not depend on the order.
    have hapart' := (hperm.pairwise_iff fun h => And.symm h).mpr hapart
    have hverdicts : (w.run t s' o).report.plugins.map PluginReport.verdict
        = (w.select t s').value.map (w.validate t o.checks) :=
      visits_verdict_of_leaves hw ht hinside (fun q hq => text_directory_ne_nil hw hq)
        (fun q hq => haloof q (hperm.mem_iff.mp hq)) (hapart'.imp And.left)
    rw [run_alone (List.of_mem_zip hr).1, verdict_of_mem_zip hverdicts hr]

/-! ## §D Two named plugins -/

section TwoPlugins

variable (hw : w.IsOpened) (hconfig : w.config = Config.small ⟨"/plugins"⟩)
  (hdir : w.pluginsDir = ⟨"/plugins"⟩)
include hw hconfig hdir

/-- Both plugins are found under the plain path of the plugins directory. -/
theorem finds_named {name : String} (hname : name = "a" ∨ name = "b") :
    w.discovery.Finds .twoPlugins [name] := by
  have hopen : FileTree.twoPlugins.OpenTo w.pluginsDir := hdir ▸ FileTree.openTo_small _
  have hplace : FileTree.twoPlugins.placeOf w.pluginsDir = ["plugins"] := by
    rw [hdir]
    rfl
  have hskipped := skipDirs_small hconfig
  rcases hname with rfl | rfl
  · refine finds_emptyPlugin hw FileTree.proper_twoEntries hconfig hopen hplace rfl ?_
    rw [Discovery.allows, hskipped]
    rfl
  · refine finds_emptyPlugin hw FileTree.proper_twoEntries hconfig hopen hplace rfl ?_
    rw [Discovery.allows, hskipped]
    rfl

theorem aloof_named {name : String} (hname : name = "a" ∨ name = "b") :
    w.Aloof .twoPlugins (w.discovery.pluginAt [name]) := by
  have ht := FileTree.proper_small FileTree.proper_twoEntries
  have hm := finds_named hw hconfig hdir hname
  refine aloof_of_contained hw (Discovery.isContained_pluginAt hm.named (hm.isEntryName ht) _)
    (Plugin.directory_inside _ _) hm.opened ?_
  rw [place_of_finds hm ht]
  exact not_along_of_allows hw hm.allowed hm.named

/-- Neither plugin is in the other's way. -/
theorem spares_named {name name' : String} (hname : name = "a" ∨ name = "b")
    (hname' : name' = "a" ∨ name' = "b") (hne : name ≠ name') :
    w.Spares .twoPlugins [name] (w.discovery.pluginAt [name']) := by
  have ht := FileTree.proper_small FileTree.proper_twoEntries
  have hm := finds_named hw hconfig hdir hname
  have hm' := finds_named hw hconfig hdir hname'
  refine spares_of_contained hw (Discovery.isContained_pluginAt hm'.named (hm'.isEntryName ht) _)
    (Plugin.directory_inside _ _) (fun l hl hpre => ?_) ?_
  · -- The way to the plugins directory ends above both of them.
    have hplace : FileTree.twoPlugins.placeOf w.pluginsDir = ["plugins"] := by
      rw [hdir]
      rfl
    have hway : FileTree.twoPlugins.wayTo w.pluginsDir = [[], ["plugins"]] := by
      rw [hdir]
      rfl
    have hshort : ∀ k ∈ FileTree.twoPlugins.wayTo w.pluginsDir, k.length ≤ 1 := by
      rw [hway]
      decide
    have hlong := hpre.length_le.trans (hshort l hl)
    rw [hplace] at hlong
    simp at hlong
  · rw [place_of_finds hm' ht]
    refine hm.not_along hm' fun heq => hne ?_
    exact (List.cons.inj heq).1

end TwoPlugins

/-- The two plugins get their own verdicts also in the other order; one of them, named twice, has no
descriptor the second time. -/
theorem run_named_verdicts_twoPlugins : ∃ w : Workspace, w.IsOpened ∧ FileTree.twoPlugins.Proper ∧
    w.config.plugins.StaysInside ∧
    (∀ p r, (p, r) ∈ (w.select .twoPlugins ⟨["b", "a"], none⟩).value.zip
        (w.run .twoPlugins ⟨["b", "a"], none⟩ ⟨.full, true⟩).report.plugins →
      (w.run .twoPlugins ⟨[p.relPath], none⟩ ⟨.full, false⟩).report.plugins = [r.verdict]) ∧
    ∃ first second,
      (w.run .twoPlugins ⟨["a", "a"], none⟩ ⟨.full, true⟩).report.plugins = [first, second] ∧
      first.findings = [.whole .parse (DescriptorError.malformed .missing).message] ∧
      second.findings = [.whole .parse (DescriptorError.missing "readme.md").message] := by
  have hopened : ∃ w : Workspace, w.IsOpened ∧ w.config = Config.small ⟨"/plugins"⟩ ∧
      w.pluginsDir = ⟨"/plugins"⟩ :=
    exists_small FileTree.proper_twoEntries (by decide) rfl rfl (FileTree.openTo_small _) (by decide)
  obtain ⟨w, hw, hconfig, hdir⟩ := hopened
  have ht : FileTree.twoPlugins.Proper := FileTree.proper_small FileTree.proper_twoEntries
  have hinside : w.config.plugins.StaysInside := hconfig ▸ staysInside_small _
  have ha := finds_named hw hconfig hdir (Or.inl rfl)
  have hb := finds_named hw hconfig hdir (Or.inr rfl)
  refine ⟨w, hw, ht, hinside, ?_, ?_⟩
  · -- Named in the order `a`, `b` the plugins are out of each other's way.
    have hselect : (w.select .twoPlugins ⟨["a", "b"], none⟩).value
        = [w.discovery.pluginAt ["a"], w.discovery.pluginAt ["b"]] := rfl
    refine (run_named_verdicts hw ht hinside ⟨["a", "b"], none⟩ ⟨.full, true⟩).2 ?_ ?_
      ⟨["b", "a"], none⟩ (List.Perm.swap ..) rfl
    · rw [hselect]
      simp only [List.forall_mem_cons, List.not_mem_nil, false_imp_iff, implies_true, and_true]
      exact ⟨aloof_named hw hconfig hdir (Or.inl rfl), aloof_named hw hconfig hdir (Or.inr rfl)⟩
    · rw [hselect, List.pairwise_pair]
      refine ⟨fun _ _ => ?_, fun _ _ => ?_⟩
      · rw [place_of_finds ha ht]
        exact spares_named hw hconfig hdir (Or.inl rfl) (Or.inr rfl) (by decide)
      · rw [place_of_finds hb ht]
        exact spares_named hw hconfig hdir (Or.inr rfl) (Or.inl rfl) (by decide)
  · have hat : FileTree.twoPlugins.root.at? (FileTree.twoPlugins.placeOf w.pluginsDir ++ ["a"])
        = some .emptyPlugin := by
      rw [hdir]
      rfl
    have hmoved : (w.reportOn ⟨.full, true⟩ .twoPlugins (w.discovery.pluginAt ["a"])).wasMoved
        = true := by
      refine wasMoved_emptyPlugin hw ht hconfig ha hat ?_ ?_
      · rw [hdir]
        exact ⟨[], rfl⟩
      · rw [hdir]
        rfl
    obtain ⟨second, hrun⟩ : ∃ second,
        (w.run .twoPlugins ⟨["a", "a"], none⟩ ⟨.full, true⟩).report.plugins
          = [w.reportOn ⟨.full, true⟩ .twoPlugins (w.discovery.pluginAt ["a"]), second] := by
      show ∃ second, (w.visit _ (w.visit _ ⟨.twoPlugins, ⟨[]⟩, [], _⟩ (w.discovery.pluginAt ["a"]))
        (w.discovery.pluginAt ["a"])).report.plugins = _
      rw [visit_report, visit_report]
      exact ⟨_, rfl⟩
    obtain ⟨earlier, r, later, hreports, hlength, -, hlost⟩ :=
      (run_named_verdicts hw ht hinside ⟨["a", "a"], none⟩ ⟨.full, true⟩).1
        [w.discovery.pluginAt ["a"]] (w.discovery.pluginAt ["a"]) [] rfl
    obtain ⟨first, rfl⟩ := List.length_eq_one_iff.mp hlength
    rw [hrun, List.singleton_append, List.cons.injEq, List.cons.injEq] at hreports
    obtain ⟨rfl, rfl, -⟩ := hreports
    refine ⟨_, second, hrun, ?_, ?_⟩
    · rw [findings_reportOn]
      exact findings_emptyPlugin hw ht hconfig ha hat
    · -- The way to the second one ends where the first one was.
      have hway := Location.reach_mem_way (FileTree.origin FileTree.twoPlugins.workplace
        (w.discovery.pluginAt ["a"]).directory) (w.discovery.pluginAt ["a"]).directory.trail
      have hplace := placeOf_directory hw ht ha
      rw [hlost ⟨_, mem_movedOf.mpr ⟨_, List.mem_singleton.mpr rfl, hmoved⟩, _, hway, ?_⟩, hconfig]
      · rfl
      · rw [place_of_finds ha ht, ← hplace]
        exact List.prefix_refl _

end Workspace

end PluginVet
