/-
# PluginVet.Proofs.Run.Convergence — moving plugins changes no verdict

A run over all discovered plugins validates each of them after others have been moved. The moved ones
lie apart from the rest, because no plugin lies in another one and none has the name of the quarantine
directory; so each plugin gets the verdict that it has in the tree as it was, and the next run finds
exactly the plugins that were not moved.

That holds as long as the path of the plugins directory itself leads through none of the plugins that
are moved. A path such as `plugins/a/..` does, and once `a` is moved it leads nowhere.

§A what is found afterwards, §B verdicts, §C the next run, §D a plugins directory behind a plugin.
-/
import PluginVet.Proofs.Validation
import PluginVet.Proofs.Workspace

namespace PluginVet

open FileTree (Moves pathTo SameBelow)
open Location (Along)

/-! ## §A What is found afterwards -/

namespace Discovery

variable {d : Discovery} {t t' : FileTree} {aside m : Location} {moved : List Location}

section Moved

variable (ht : t.Proper) (hroot : d.pluginsDir.text.toList ≠ [])
  (hfile : Path.isContained ⟨d.descriptorFile⟩ = true)
  (hmoves : Moves (t.placeOf d.pluginsDir) aside t moved t')
  (hopen : t.OpenTo d.pluginsDir) (hopen' : t'.OpenTo d.pluginsDir)
  (hfound : ∀ ns ∈ moved, d.Finds t ns)
  (haside : ∀ m, m ≠ [] → (∀ name ∈ m, d.allows name = true) → ¬ Along aside m)
include ht hroot hfile hmoves hopen hopen' hfound haside

/-- A directory at or below none of the moved plugins holds a descriptor where it held one before. -/
theorem holdsDescriptor_moved (hne : m ≠ []) (hallowed : ∀ name ∈ m, d.allows name = true)
    (hm : ∀ name ∈ m, Path.IsEntryName name) (hapart : ∀ ns ∈ moved, ¬ ns <+: m) :
    d.holdsDescriptor t' (pathTo d.pluginsDir m) = d.holdsDescriptor t (pathTo d.pluginsDir m) := by
  have halong := haside m hne hallowed
  rw [Bool.eq_iff_iff, holdsDescriptor_iff (hmoves.proper ht) hroot hfile hm, hmoves.placeOf_eq,
    hmoves.dirAt_below_iff halong hapart]
  by_cases hmeets : ∃ ns ∈ moved, ns <+: m ++ Path.names ⟨d.descriptorFile⟩
  · -- Then a moved plugin lies below `m`, which held no descriptor, and holds none now.
    obtain ⟨ns, hns, hpre⟩ := hmeets
    have hbelow : m <+: ns := by
      rcases List.prefix_or_prefix_of_prefix hpre (List.prefix_append m _) with h | h
      · exact absurd h (hapart ns hns)
      · exact h
    have hnone : d.holdsDescriptor t (pathTo d.pluginsDir m) = false :=
      (hfound ns hns).first m hne hbelow fun heq => hapart ns hns (heq ▸ List.prefix_refl m)
    rw [hnone]
    refine ⟨?_, fun h => absurd h Bool.false_ne_true⟩
    rintro ⟨-, -, hsome, -⟩
    obtain ⟨r, hr⟩ := hpre
    have hgone := FileNode.at?_append_eq_none (hmoves.gone hns) r
    rw [List.append_assoc, ← hr, ← List.append_assoc, FileNode.fileAt?, hgone] at hsome
    exact absurd hsome Bool.false_ne_true
  · -- Otherwise the place of the descriptor is untouched.
    have hsame : t'.root.fileAt? (t.placeOf d.pluginsDir ++ m ++ Path.names ⟨d.descriptorFile⟩)
        = t.root.fileAt? (t.placeOf d.pluginsDir ++ m ++ Path.names ⟨d.descriptorFile⟩) := by
      rw [List.append_assoc]
      refine hmoves.fileAt? (fun ns hns hpre => hmeets ⟨ns, hns, ?_⟩) fun hpre => halong ?_
      · exact (List.prefix_append_right_inj _).mp hpre
      · exact Location.along_of_common ((List.prefix_append_right_inj _).mp hpre)
          (List.prefix_append m _)
    rw [holdsDescriptor_iff ht hroot hfile hm, hsame]
    exact ⟨fun h => ⟨hopen, h.2⟩, fun h => ⟨hopen', h.2⟩⟩

/-- **`finds_moved_iff`** — after plugins have been moved, the others are found and nothing else. -/
theorem finds_moved_iff : d.Finds t' m ↔ d.Finds t m ∧ m ∉ moved := by
  have hplace := hmoves.placeOf_eq d.pluginsDir
  have hdescriptors : (∀ name ∈ m, d.allows name = true) → (∀ name ∈ m, Path.IsEntryName name) →
      (∀ ns ∈ moved, ¬ ns <+: m) → ∀ upper, upper ≠ [] → upper <+: m →
        d.holdsDescriptor t' (pathTo d.pluginsDir upper)
          = d.holdsDescriptor t (pathTo d.pluginsDir upper) := by
    intro hallowed hm hapart upper hne hpre
    apply holdsDescriptor_moved ht hroot hfile hmoves hopen hopen' hfound haside hne
    · exact fun name hname => hallowed name (hpre.subset hname)
    · exact fun name hname => hm name (hpre.subset hname)
    · exact fun ns hns h => hapart ns hns (h.trans hpre)
  constructor
  · intro h
    have hapart : ∀ ns ∈ moved, ¬ ns <+: m := by
      rintro ns hns ⟨r, rfl⟩
      obtain ⟨es, hes⟩ := h.present
      rw [hplace, ← List.append_assoc, FileNode.at?_append_eq_none (hmoves.gone hns)] at hes
      cases hes
    have hpresent := h.present
    rw [hplace, hmoves.dirAt_below_iff (haside m h.named h.allowed) hapart] at hpresent
    refine ⟨h.transfer hopen hpresent fun upper hne hpre => ?_, fun hmem => ?_⟩
    · exact (hdescriptors h.allowed (h.isEntryName (hmoves.proper ht)) hapart upper hne hpre).symm
    · exact hapart m hmem (List.prefix_refl m)
  · rintro ⟨h, hnot⟩
    have hapart : ∀ ns ∈ moved, ¬ ns <+: m := by
      intro ns hns hpre
      rw [(hfound ns hns).eq_of_above h hpre] at hns
      exact hnot hns
    refine h.transfer hopen' ?_ (hdescriptors h.allowed (h.isEntryName ht) hapart)
    rw [hplace, hmoves.dirAt_below_iff (haside m h.named h.allowed) hapart]
    exact h.present

end Moved

end Discovery

/-! ## §B Verdicts -/

/-- A report without what came of moving the plugin. -/
def PluginReport.verdict (r : PluginReport) : PluginReport := { r with quarantine := none }

section Reports

variable {ps : List Plugin} {reports : List PluginReport} {p : Plugin} {r r' : PluginReport}

theorem verdict_of_mem_zip {f : Plugin → PluginReport}
    (h : reports.map PluginReport.verdict = ps.map f) (hmem : (p, r) ∈ ps.zip reports) :
    r.verdict = f p := by
  have hpair : (p, r.verdict) ∈ ps.zip (reports.map PluginReport.verdict) := by
    rw [List.zip_map_right]
    exact List.mem_map.mpr ⟨(p, r), hmem, rfl⟩
  rw [h, ← List.map_prod_left_eq_zip] at hpair
  obtain ⟨q, -, hq⟩ := List.mem_map.mp hpair
  obtain ⟨rfl, hr⟩ := Prod.mk.inj hq
  exact hr.symm

theorem eq_of_mem_zip (hnodup : ps.Nodup) (h : (p, r) ∈ ps.zip reports)
    (h' : (p, r') ∈ ps.zip reports) : r = r' := by
  induction ps generalizing reports with
  | nil => exact absurd h List.not_mem_nil
  | cons q rest ih =>
      cases reports with
      | nil => exact absurd h List.not_mem_nil
      | cons first others =>
          obtain ⟨hfresh, hrest⟩ := List.nodup_cons.mp hnodup
          rw [List.zip_cons_cons] at h h'
          rcases List.mem_cons.mp h with heq | hlater
          · obtain ⟨rfl, rfl⟩ := Prod.mk.inj heq
            rcases List.mem_cons.mp h' with heq' | hlater'
            · exact (Prod.mk.inj heq').2.symm
            · exact absurd (List.of_mem_zip hlater').1 hfresh
          · rcases List.mem_cons.mp h' with heq' | hlater'
            · obtain ⟨rfl, rfl⟩ := Prod.mk.inj heq'
              exact absurd (List.of_mem_zip hlater).1 hfresh
            · exact ih hrest hlater hlater'

/-- Where no plugin stands twice, the moved ones are told apart by their reports. -/
theorem mem_movedOf_iff_wasMoved (hnodup : ps.Nodup) (h : (p, r) ∈ ps.zip reports) :
    p ∈ movedOf ps reports ↔ r.wasMoved = true := by
  rw [mem_movedOf]
  refine ⟨fun ⟨r', hmem, hmoved⟩ => ?_, fun hmoved => ⟨r, h, hmoved⟩⟩
  rw [eq_of_mem_zip hnodup h hmem]
  exact hmoved

theorem exists_mem_zip (hlength : reports.length = ps.length) (h : r ∈ reports) :
    ∃ p, (p, r) ∈ ps.zip reports := by
  have hmem : r ∈ (ps.zip reports).map Prod.snd := by
    rwa [List.map_snd_zip hlength.le]
  obtain ⟨e, he, rfl⟩ := List.mem_map.mp hmem
  exact ⟨e.1, he⟩

/-- Plugins and reports filtered alike still belong together. -/
theorem map_filter_of_zip {keep : Plugin → Bool} {keep' : PluginReport → Bool}
    {f : Plugin → PluginReport} {g : PluginReport → PluginReport}
    (hlength : reports.length = ps.length)
    (h : ∀ e ∈ ps.zip reports, keep e.1 = keep' e.2 ∧ f e.1 = g e.2) :
    (ps.filter keep).map f = (reports.filter keep').map g := by
  induction ps generalizing reports with
  | nil =>
      rw [List.eq_nil_of_length_eq_zero hlength]
      rfl
  | cons p rest ih =>
      cases reports with
      | nil => cases hlength
      | cons r others =>
          rw [List.zip_cons_cons] at h
          obtain ⟨⟨hkeep, hvalue⟩, hrest⟩ := List.forall_mem_cons.mp h
          have hothers := ih (Nat.succ.inj hlength) hrest
          simp only at hkeep hvalue
          rw [List.filter_cons, List.filter_cons, hkeep]
          split
          · rw [List.map_cons, List.map_cons, hvalue, hothers]
          · exact hothers

end Reports

namespace Workspace

variable {w : Workspace} {t t' : FileTree} {o : RunOptions} {warnings : List Warning}
  {ps : List Plugin} {p : Plugin} {m : Location} {moved : List Location}

theorem verdict_reportOn (w : Workspace) (o : RunOptions) (t : FileTree) (p : Plugin) :
    (w.reportOn o t p).verdict = w.validate t o.checks p := by
  unfold reportOn
  dsimp only
  split <;> rfl

/-- The way to the plugins directory stays open where it leads through no moved directory. -/
theorem openTo_moved (hmoves : Moves (t.placeOf w.pluginsDir) w.aside t moved t')
    (hopen : t.OpenTo w.pluginsDir)
    (hway : ∀ ns ∈ moved, ∀ l ∈ t.wayTo w.pluginsDir, ¬ t.placeOf w.pluginsDir ++ ns <+: l) :
    t'.OpenTo w.pluginsDir := by
  intro l hl
  rw [hmoves.wayTo_eq] at hl
  exact hmoves.dirAt (fun ns hns => hway ns hns l hl) (hopen l hl)

/-- A plugin that lies apart from the moved ones gets the verdict that it got before. -/
theorem validate_moved (hw : w.IsOpened) (ht : t.Proper) (hinside : w.config.plugins.StaysInside)
    (hmoves : Moves (t.placeOf w.pluginsDir) w.aside t moved t') (hopen' : t'.OpenTo w.pluginsDir)
    (hm : w.discovery.Finds t m) (hapart : ∀ ns ∈ moved, ¬ Along ns m) (o : Checks) :
    w.validate t' o (w.discovery.pluginAt m) = w.validate t o (w.discovery.pluginAt m) := by
  have hsame := hmoves.at?_below (not_along_of_allows hw hm.allowed hm.named) hapart
  have hdir' : t'.root.DirAt (t.placeOf w.pluginsDir ++ m) := by
    rw [FileNode.DirAt, hsame]
    exact hm.present
  obtain ⟨htext, hat, hopened⟩ := directory_spec hw hm.named (hm.isEntryName ht) t
  obtain ⟨-, hat', hopened'⟩ := directory_spec hw hm.named (hm.isEntryName ht) t'
  rw [hmoves.placeOf_eq w.pluginsDir] at hat' hopened'
  refine Rulebook.validate_congr (hw.settings.symm ▸ hinside) ?_ rfl o _
  refine FileTree.sameBelow_of_at?_eq (hmoves.proper ht) ht htext htext
    (hopened'.mpr ⟨hopen', hdir'⟩) (hopened.mpr ⟨hm.opened, hm.present⟩) ?_
  rw [hat, hat']
  exact hsame

/-- The way to the plugins directory leads through none of the plugins that fail. -/
def WayClear (w : Workspace) (t : FileTree) (o : Checks) (ps : List Plugin) : Prop :=
  ∀ p ∈ ps, (w.validate t o p).passed = false →
    ∀ l ∈ t.wayTo w.pluginsDir, ¬ t.placeOf p.directory <+: l

section Found

variable (hw : w.IsOpened) (ht : t.Proper) (hinside : w.config.plugins.StaysInside)
  (hfound : ∀ p ∈ ps, ∃ m, w.discovery.Finds t m ∧ p = w.discovery.pluginAt m)
  (hclear : w.WayClear t o.checks ps)
include hw ht hfound hclear

/-- What has been moved of some plugins leaves the way to the plugins directory open. -/
theorem openTo_visits (hp : p ∈ ps)
    (hverdicts : (w.visits o t warnings ps).report.plugins.map PluginReport.verdict
      = ps.map (w.validate t o.checks)) :
    (w.visits o t warnings ps).tree.OpenTo w.pluginsDir := by
  obtain ⟨m, hm, -⟩ := hfound p hp
  refine openTo_moved (visits_moves hw ht ps) hm.opened fun ns hns l hl => ?_
  obtain ⟨q, hq, rfl⟩ := List.mem_map.mp hns
  obtain ⟨hmem, -, r, hr, hfailed⟩ := mem_movedOf_visits hq
  have hverdict := verdict_of_mem_zip hverdicts hr
  obtain ⟨k, hk, rfl⟩ := hfound q hmem
  rw [place_of_finds hk ht, ← placeOf_directory hw ht hk]
  refine hclear _ hmem ?_ l hl
  rw [← hverdict]
  exact hfailed

include hinside

/-- A plugin that was not moved with the others gets the verdict that it got before. -/
theorem validate_visits (hm : w.discovery.Finds t m)
    (hverdicts : (w.visits o t warnings ps).report.plugins.map PluginReport.verdict
      = ps.map (w.validate t o.checks))
    (hkept : w.discovery.pluginAt m ∉ movedOf ps (w.visits o t warnings ps).report.plugins) :
    w.validate (w.visits o t warnings ps).tree o.checks (w.discovery.pluginAt m)
      = w.validate t o.checks (w.discovery.pluginAt m) := by
  cases hcases : ps with
  | nil => rfl
  | cons first rest =>
      rw [← hcases]
      have hfirst : first ∈ ps := hcases ▸ List.mem_cons_self
      have hopen' := openTo_visits hw ht hfound hclear hfirst hverdicts
      refine validate_moved hw ht hinside (visits_moves hw ht ps) hopen' hm ?_ _
      intro ns hns
      obtain ⟨q, hq, rfl⟩ := List.mem_map.mp hns
      obtain ⟨k, hk, rfl⟩ := hfound q (mem_movedOf_visits hq).1
      rw [place_of_finds hk ht]
      exact hk.not_along hm fun heq => hkept (heq ▸ hq)

/-- **`visits_verdict`** — in a run over discovered plugins each of them gets the verdict that it has in
the tree as it was. -/
theorem visits_verdict (hnodup : ps.Nodup) :
    (w.visits o t warnings ps).report.plugins.map PluginReport.verdict
      = ps.map (w.validate t o.checks) := by
  induction ps using List.reverseRecOn with
  | nil => rfl
  | append_singleton before p ih =>
      have hfound' : ∀ q ∈ before, ∃ m, w.discovery.Finds t m ∧ q = w.discovery.pluginAt m :=
        fun q hq => hfound q (List.mem_append_left _ hq)
      have hclear' : w.WayClear t o.checks before :=
        fun q hq => hclear q (List.mem_append_left _ hq)
      obtain ⟨hbefore, -, hfresh⟩ := List.nodup_append.mp hnodup
      have hverdicts := ih hfound' hclear' hbefore
      obtain ⟨m, hm, rfl⟩ := hfound p (List.mem_append_right _ (List.mem_singleton.mpr rfl))
      -- No plugin is visited twice, so this one has not been moved yet.
      have hkept : w.discovery.pluginAt m ∉
          movedOf before (w.visits o t warnings before).report.plugins := by
        intro hmem
        exact hfresh _ (mem_movedOf_visits hmem).1 _ (List.mem_singleton.mpr rfl) rfl
      have hsame := validate_visits hw ht hinside hfound' hclear' hm hverdicts hkept
      rw [visits_concat, visit_report, List.map_append, List.map_append, hverdicts]
      show _ ++ [(w.reportOn o _ _).verdict] = _ ++ [_]
      rw [verdict_reportOn, hsame]

/-- Afterwards discovery lists the plugins that were not moved. -/
theorem discover_visits (hnodup : ps.Nodup) :
    (w.discovery.discover (w.visits o t warnings ps).tree).plugins
      = (w.discovery.discover t).plugins.filter
          fun p => p ∉ movedOf ps (w.visits o t warnings ps).report.plugins := by
  have hmoves : Moves (t.placeOf w.pluginsDir) w.aside t _ (w.visits o t warnings ps).tree :=
    visits_moves hw ht ps
  have hverdicts : (w.visits o t warnings ps).report.plugins.map PluginReport.verdict
      = ps.map (w.validate t o.checks) := visits_verdict hw ht hinside hfound hclear hnodup
  cases hcases : ps with
  | nil => exact (List.filter_eq_self.mpr fun _ _ => rfl).symm
  | cons first rest =>
      rw [← hcases]
      -- One plugin that was found shows that the plugins directory was open.
      have hfirst : first ∈ ps := hcases ▸ List.mem_cons_self
      obtain ⟨m₀, hm₀, -⟩ := hfound first hfirst
      have hopen' := openTo_visits hw ht hfound hclear hfirst hverdicts
      have hmovedFound : ∀ ns ∈ (movedOf ps
          (w.visits o t warnings ps).report.plugins).map Plugin.place, w.discovery.Finds t ns := by
        intro ns hns
        obtain ⟨q, hq, rfl⟩ := List.mem_map.mp hns
        obtain ⟨k, hk, rfl⟩ := hfound q (mem_movedOf_visits hq).1
        rwa [place_of_finds hk ht]
      refine Discovery.discover_filter_eq ht (hmoves.proper ht) hw.pluginsDir_ne_nil fun m => ?_
      have hiff := Discovery.finds_moved_iff (d := w.discovery) (m := m) ht hw.pluginsDir_ne_nil
        hinside.descriptor hmoves hm₀.opened hopen' hmovedFound
        fun _ hne hallowed => not_along_of_allows hw hallowed hne
      rw [hiff, decide_eq_true_eq]
      refine and_congr_right fun hm => not_congr ⟨fun h => ?_, fun h => ?_⟩
      · obtain ⟨q, hq, hplace⟩ := List.mem_map.mp h
        obtain ⟨k, hk, rfl⟩ := hfound q (mem_movedOf_visits hq).1
        rw [place_of_finds hk ht] at hplace
        exact hplace ▸ hq
      · exact List.mem_map.mpr ⟨_, h, place_of_finds hm ht⟩

/-- The plugins that were not moved get the verdicts that they got in the run. -/
theorem map_validate_kept (hnodup : ps.Nodup) :
    (ps.filter fun p => p ∉ movedOf ps (w.visits o t warnings ps).report.plugins).map
        (w.validate (w.visits o t warnings ps).tree o.checks)
      = ((w.visits o t warnings ps).report.plugins.filter fun r => !r.wasMoved).map
        PluginReport.verdict := by
  have hverdicts : (w.visits o t warnings ps).report.plugins.map PluginReport.verdict
      = ps.map (w.validate t o.checks) := visits_verdict hw ht hinside hfound hclear hnodup
  have hvalidate : ∀ p ∈ ps.filter
      (fun p => p ∉ movedOf ps (w.visits o t warnings ps).report.plugins),
      w.validate (w.visits o t warnings ps).tree o.checks p = w.validate t o.checks p := by
    intro p hp
    obtain ⟨hmem, hkept⟩ := List.mem_filter.mp hp
    obtain ⟨m, hm, rfl⟩ := hfound p hmem
    exact validate_visits hw ht hinside hfound hclear hm hverdicts (of_decide_eq_true hkept)
  rw [List.map_congr_left hvalidate]
  apply map_filter_of_zip (length_visits ps)
  intro e he
  refine ⟨?_, (verdict_of_mem_zip hverdicts he).symm⟩
  rw [decide_not, Bool.not_inj_iff, Bool.eq_iff_iff, decide_eq_true_eq]
  exact mem_movedOf_iff_wasMoved hnodup he

/-- The way to the plugins directory stays clear of what fails. -/
theorem wayClear_visits (hnodup : ps.Nodup) : w.WayClear (w.visits o t warnings ps).tree o.checks
    (ps.filter fun p => p ∉ movedOf ps (w.visits o t warnings ps).report.plugins) := by
  have hverdicts : (w.visits o t warnings ps).report.plugins.map PluginReport.verdict
      = ps.map (w.validate t o.checks) := visits_verdict hw ht hinside hfound hclear hnodup
  have hmoves : Moves (t.placeOf w.pluginsDir) w.aside t _ (w.visits o t warnings ps).tree :=
    visits_moves hw ht ps
  intro p hp hfailed l hl
  obtain ⟨hmem, hkept⟩ := List.mem_filter.mp hp
  obtain ⟨m, hm, rfl⟩ := hfound p hmem
  rw [validate_visits hw ht hinside hfound hclear hm hverdicts (of_decide_eq_true hkept)] at hfailed
  rw [hmoves.wayTo_eq] at hl
  rw [hmoves.placeOf_eq]
  exact hclear _ hmem hfailed l hl

end Found

/-! ## §C The next run -/

/-- A run that moves nothing reports on each plugin as it is. -/
theorem visits_report (h : ∀ p ∈ ps, w.isToMove o p (w.validate t o.checks p) = false) :
    (w.visits o t warnings ps).report.plugins = ps.map (w.validate t o.checks) := by
  induction ps using List.reverseRecOn with
  | nil => rfl
  | append_singleton before p ih =>
      have hbefore : ∀ q ∈ before, w.isToMove o q (w.validate t o.checks q) = false :=
        fun q hq => h q (List.mem_append_left _ hq)
      have hp := h p (List.mem_append_right _ (List.mem_singleton.mpr rfl))
      rw [visits_concat, visit_report, ih hbefore, visits_tree hbefore, List.map_append, reportOn,
        if_neg (Bool.eq_false_iff.mp hp)]
      rfl

/-- Plugins that are found never lie in the quarantine tree. -/
theorem not_isQuarantined (hw : w.IsOpened) (ht : t.Proper) (hm : w.discovery.Finds t m) :
    w.quarantine.isQuarantined (w.discovery.pluginAt m).relPath = false := by
  have hcontained := Discovery.isContained_pluginAt hm.named (hm.isEntryName ht) w.discovery
  rw [Bool.eq_false_iff]
  intro h
  have hpre := (Quarantine.isQuarantined_iff_of_contained hw.pluginsDir_ne_nil hw.isPlain
    hcontained).mp h
  rw [show Path.names ⟨(w.discovery.pluginAt m).relPath⟩ = m from place_of_finds hm ht] at hpre
  exact not_along_of_allows hw hm.allowed hm.named (Or.inl hpre)

theorem isToMove_of_passed {r : PluginReport} (h : r.passed = true) : w.isToMove o p r = false := by
  rw [isToMove, h, Bool.not_true, Bool.and_false, Bool.false_and]

/-- Where failing plugins are moved, one that stays without a conflict or a failure has passed. -/
theorem passed_of_unmoved {r : PluginReport} (hw : w.IsOpened) (ht : t.Proper)
    (henabled : w.config.quarantine.enabled = true) (ho : o.quarantine = true)
    (hp : ∃ m, w.discovery.Finds t m ∧ p = w.discovery.pluginAt m)
    (h : (p, r) ∈ ps.zip (w.visits o t warnings ps).report.plugins)
    (houtcomes : ∀ outcome ∈ r.quarantine, outcome.isMoved = true) (hkept : r.wasMoved = false) :
    r.passed = true := by
  obtain ⟨m, hm, rfl⟩ := hp
  obtain ⟨t₁, rfl⟩ := exists_reportOn h
  have hnone : (w.reportOn o t₁ (w.discovery.pluginAt m)).quarantine.isSome = false := by
    cases hquarantine : (w.reportOn o t₁ (w.discovery.pluginAt m)).quarantine with
    | none => rfl
    | some outcome =>
        have hmoved := houtcomes outcome hquarantine
        rw [PluginReport.wasMoved, hquarantine] at hkept
        cases hmoved.symm.trans hkept
  rw [isSome_quarantine_reportOn, isToMove, ho, henabled, not_isQuarantined hw ht hm] at hnone
  rw [passed_reportOn]
  simpa using hnone

section Selected

variable {s : Selection} (hw : w.IsOpened) (ht : t.Proper) (hnames : s.names = [])
include hw ht hnames

/-- A selection without names covers plugins that are found, each of them once. -/
theorem select_spec : (w.select t s).value = (w.discovery.discover t).plugins.filter s.admits ∧
    (w.select t s).value.Nodup ∧
      ∀ p ∈ (w.select t s).value, ∃ m, w.discovery.Finds t m ∧ p = w.discovery.pluginAt m := by
  have hselect : (w.select t s).value = (w.discovery.discover t).plugins.filter s.admits := by
    show (s.select w.discovery t).plugins = _
    rw [Selection.select, Selection.candidates, hnames]
  rw [hselect]
  refine ⟨rfl, (Discovery.nodup_discover _ ht.sound).filter _, fun p hp => ?_⟩
  exact (mem_discover hw ht).mp (List.mem_filter.mp hp).1

variable {checks : Checks} (hinside : w.config.plugins.StaysInside)
  (hclear : w.WayClear t checks (w.select t s).value)
include hinside hclear

/-- The next selection covers the plugins that were not moved. -/
theorem select_run {o : RunOptions} (ho : o.checks = checks) :
    (w.select (w.run t s o).tree s).value = (w.select t s).value.filter
      fun p => p ∉ movedOf (w.select t s).value (w.run t s o).report.plugins := by
  subst ho
  obtain ⟨hselect, hnodup, hfound⟩ := select_spec hw ht hnames
  have hmoves : Moves (t.placeOf w.pluginsDir) w.aside t _
      (w.visits o t (w.select t s).warnings (w.select t s).value).tree :=
    visits_moves hw ht (w.select t s).value
  rw [run_eq_visits, (select_spec hw (hmoves.proper ht) hnames).1,
    discover_visits hw ht hinside hfound hclear hnodup, List.filter_comm, ← hselect]

end Selected

/-- **`run_converges`** — moving plugins changes no verdict, and the next run reports on the plugins that
were not moved, each with the same findings; where nothing failed to be moved, that run passes and
changes nothing. The path of the plugins directory must not lead through a failing plugin. -/
theorem run_converges (hw : w.IsOpened) (ht : t.Proper) (hinside : w.config.plugins.StaysInside)
    (henabled : w.config.quarantine.enabled = true) {s : Selection} (hnames : s.names = [])
    {checks : Checks} (hclear : w.WayClear t checks (w.select t s).value) :
    let r := w.run t s ⟨checks, true⟩
    let again := w.run r.tree s ⟨checks, true⟩
    r.report.plugins.map PluginReport.verdict = (w.run t s ⟨checks, false⟩).report.plugins ∧
      again.report.plugins.map PluginReport.verdict
        = (r.report.plugins.filter fun r' => !r'.wasMoved).map PluginReport.verdict ∧
      ((∀ r' ∈ r.report.plugins, ∀ outcome ∈ r'.quarantine, outcome.isMoved = true) →
        again.report.passed = true ∧ again.tree = r.tree) := by
  intro r again
  obtain ⟨-, hnodup, hfound⟩ := select_spec hw ht hnames
  have ht' : r.tree.Proper := (visits_moves hw ht (w.select t s).value).proper ht
  obtain ⟨-, hnodup', hfound'⟩ := select_spec hw ht' hnames
  have hverdicts : r.report.plugins.map PluginReport.verdict
      = (w.select t s).value.map (w.validate t checks) :=
    visits_verdict hw ht hinside hfound hclear hnodup
  have hstill : (w.run t s ⟨checks, false⟩).report.plugins
      = (w.select t s).value.map (w.validate t checks) := visits_report fun _ _ => rfl
  have hselect : (w.select r.tree s).value = (w.select t s).value.filter
      fun p => p ∉ movedOf (w.select t s).value r.report.plugins :=
    select_run hw ht hnames hinside hclear rfl
  have hclear' : w.WayClear r.tree checks (w.select r.tree s).value := by
    rw [hselect]
    exact wayClear_visits hw ht hinside hfound hclear hnodup
  have hagain : again.report.plugins.map PluginReport.verdict
      = (w.select r.tree s).value.map (w.validate r.tree checks) :=
    visits_verdict hw ht' hinside hfound' hclear' hnodup'
  have hsame : (w.select r.tree s).value.map (w.validate r.tree checks)
      = (r.report.plugins.filter fun r' => !r'.wasMoved).map PluginReport.verdict := by
    rw [hselect]
    exact map_validate_kept hw ht hinside hfound hclear hnodup
  refine ⟨hverdicts.trans hstill.symm, hagain.trans hsame, fun houtcomes => ?_⟩
  -- With nothing in its way, whatever failed has been moved; what is left passes.
  have hpassed : ∀ r' ∈ again.report.plugins.map PluginReport.verdict, r'.passed = true := by
    intro r' hr'
    rw [hagain, hsame] at hr'
    obtain ⟨r₁, hr₁, rfl⟩ := List.mem_map.mp hr'
    obtain ⟨hr₁, hkept⟩ := List.mem_filter.mp hr₁
    obtain ⟨p, hp⟩ := exists_mem_zip (length_visits _) hr₁
    show r₁.passed = true
    exact passed_of_unmoved hw ht henabled rfl (hfound p (List.of_mem_zip hp).1) hp
      (houtcomes r₁ hr₁) (Bool.not_eq_eq_eq_not.mp hkept)
  constructor
  · rw [RunReport.passed, List.all_eq_true]
    exact fun r' hr' => hpassed r'.verdict (List.mem_map_of_mem hr')
  · refine visits_tree fun p hp => isToMove_of_passed (hpassed _ ?_)
    rw [hagain]
    exact List.mem_map_of_mem hp

theorem staysInside_small (pluginsDir : Path) : (Config.small pluginsDir).plugins.StaysInside where
  descriptor := by
    show Path.isContained ⟨"readme.md"⟩ = true
    decide
  tests := by
    show Path.isContained ⟨"tests"⟩ = true
    decide
  icons := by
    show ∀ icon ∈ PluginSettings.standard.iconFiles, _
    decide

/-- The run that moves the one plugin of a small repository converges. -/
theorem run_converges_onePlugin : ∃ w : Workspace, ∃ t : FileTree, w.IsOpened ∧ t.Proper ∧
    w.config.plugins.StaysInside ∧ w.config.quarantine.enabled = true ∧
    w.WayClear t .full (w.select t .all).value ∧
    (w.run t .all ⟨.full, true⟩).report.plugins.map PluginReport.verdict
      = (w.run t .all ⟨.full, false⟩).report.plugins := by
  obtain ⟨w, hw, hconfig, hdir⟩ := exists_onePlugin
  have ht := FileTree.proper_small FileTree.proper_onePlugin
  have hinside : w.config.plugins.StaysInside := hconfig ▸ staysInside_small _
  have henabled : w.config.quarantine.enabled = true := by
    rw [hconfig]
    rfl
  have hclear : w.WayClear (FileTree.small FileTree.onePlugin) .full
      (w.select (FileTree.small FileTree.onePlugin) .all).value := by
    intro p hp _ l hl hpre
    obtain ⟨m, hm, rfl⟩ := (select_spec hw ht rfl).2.2 p hp
    have hplace : (FileTree.small FileTree.onePlugin).placeOf ⟨"/plugins"⟩ = ["plugins"] := rfl
    have hway : (FileTree.small FileTree.onePlugin).wayTo ⟨"/plugins"⟩ = [[], ["plugins"]] := rfl
    rw [placeOf_directory hw ht hm, hdir, hplace] at hpre
    rw [hdir, hway] at hl
    have hshort : l.length ≤ 1 := by
      rcases List.mem_cons.mp hl with rfl | hl
      · exact Nat.zero_le 1
      · rw [List.mem_singleton.mp hl]
        exact Nat.le_refl 1
    have hlong := hpre.length_le
    rw [List.length_append, List.length_singleton] at hlong
    have hpos := List.length_pos_of_ne_nil hm.named
    omega
  exact ⟨w, _, hw, ht, hinside, henabled, hclear,
    (run_converges hw ht hinside henabled rfl hclear).1⟩

end Workspace

/-! ## §D A plugins directory behind a plugin -/

/-- A plugins directory with two plugins and an empty quarantine directory. -/
def FileTree.twoEntries : List (String × FileNode) :=
  [(".needs-work", .directory []), ("a", .emptyPlugin), ("b", .emptyPlugin)]

def FileTree.twoPlugins : FileTree := small twoEntries

theorem FileTree.proper_twoEntries : (FileNode.directory twoEntries).Proper := by
  have hsorted : [".needs-work", "a", "b"].Pairwise (· < ·) := by decide
  refine .directory hsorted ?_ ?_
  · simp only [twoEntries, List.forall_mem_cons, List.not_mem_nil, false_imp_iff, implies_true, and_true]
    decide
  · simp only [twoEntries, List.forall_mem_cons, List.not_mem_nil, false_imp_iff, implies_true, and_true]
    exact ⟨FileNode.proper_empty, FileNode.proper_emptyPlugin, FileNode.proper_emptyPlugin⟩

theorem FileTree.openTo_twoPlugins : twoPlugins.OpenTo ⟨"/plugins/a/.."⟩ := by
  have hway : twoPlugins.wayTo ⟨"/plugins/a/.."⟩
      = [[], ["plugins"], ["plugins", "a"], ["plugins"]] := rfl
  intro l hl
  rw [hway] at hl
  simp only [List.mem_cons, List.not_mem_nil, or_false] at hl
  rcases hl with rfl | rfl | rfl | rfl
  · exact ⟨_, rfl⟩
  · exact ⟨_, rfl⟩
  · exact ⟨_, rfl⟩
  · exact ⟨_, rfl⟩

theorem FileNode.dirAt_emptyPlugin {l : Location} (h : emptyPlugin.DirAt l) : l = [] := by
  obtain ⟨es, hes⟩ := h
  cases l with
  | nil => rfl
  | cons name rest =>
      rw [FileNode.at?_cons] at hes
      obtain ⟨child, hget, hchild⟩ := Option.bind_eq_some_iff.mp hes
      obtain rfl : child = .file .empty := by
        simp only [emptyPlugin, entries, Keyed.get?] at hget
        split at hget
        · exact (Option.some.inj hget).symm
        · cases hget
      cases rest with
      | nil => cases Option.some.inj hchild
      | cons x xs =>
          rw [FileNode.at?_cons] at hchild
          cases hchild

namespace Workspace

section EmptyPlugin

variable {w : Workspace} {t : FileTree} {pluginsDir : Path} {m : Location} (hw : w.IsOpened)
  (ht : t.Proper) (hconfig : w.config = Config.small pluginsDir)
include hw ht hconfig

/-- A plugin with an empty descriptor lacks a front matter. -/
theorem findings_emptyPlugin (hm : w.discovery.Finds t m)
    (hat : t.root.at? (t.placeOf w.pluginsDir ++ m) = some .emptyPlugin) :
    (w.validate t .full (w.discovery.pluginAt m)).findings
      = [.whole .parse (DescriptorError.malformed .missing).message] := by
  have hfile : w.rules.settings.descriptorFile = "readme.md" := by
    rw [hw.settings, hconfig]
    rfl
  have hfind : t.find ((w.discovery.pluginAt m).directory.join ⟨"readme.md"⟩)
      = .ok (.file .empty) := by
    refine (find_behind_iff hw ht hm.named (hm.isEntryName ht) (by decide)).mpr
      ⟨⟨hm.opened, hm.present⟩, ?_, fun h => absurd h (by decide)⟩
    show t.root.at? _ = _
    rw [FileNode.at?_append, hat]
    rfl
  have hread : Descriptor.read t (w.discovery.pluginAt m).directory "readme.md"
      = Descriptor.ofText "" := Descriptor.read_of_find hfind rfl
  refine Rulebook.findings_validate_of_none _ _ ?_
  rw [hfile, hread]
  rfl

/-- Such a plugin is moved where the quarantine directory has no entry of its name. -/
theorem wasMoved_emptyPlugin {name : String} (hm : w.discovery.Finds t [name])
    (hat : t.root.at? (t.placeOf w.pluginsDir ++ [name]) = some .emptyPlugin)
    (hholder : t.root.DirAt (t.placeOf w.pluginsDir ++ [".needs-work"]))
    (hfree : t.root.at? (t.placeOf w.pluginsDir ++ [".needs-work", name]) = none) :
    (w.reportOn ⟨.full, true⟩ t (w.discovery.pluginAt [name])).wasMoved = true := by
  have haside : w.aside = [".needs-work"] := by
    rw [aside, hconfig]
    show Path.names ⟨".needs-work"⟩ = _
    decide
  refine wasMoved_reportOn.mpr ⟨?_, isMoved_of_finds hw ht hm (List.nil_append [name]).symm ?_ ?_⟩
  · rw [isToMove, PluginReport.passed, findings_emptyPlugin hw ht hconfig hm hat,
      not_isQuarantined hw ht hm, hconfig]
    rfl
  · rw [haside]
    exact hholder
  · rw [haside]
    exact hfree

end EmptyPlugin

section TwoPlugins

variable {w : Workspace} {m : Location} (hw : w.IsOpened)
  (hconfig : w.config = Config.small ⟨"/plugins/a/.."⟩) (hdir : w.pluginsDir = ⟨"/plugins/a/.."⟩)
include hw hconfig hdir

theorem finds_twoPlugins_iff : w.discovery.Finds .twoPlugins m ↔ m = ["a"] ∨ m = ["b"] := by
  have hopen : FileTree.twoPlugins.OpenTo w.pluginsDir := hdir ▸ FileTree.openTo_twoPlugins
  have hplace : FileTree.twoPlugins.placeOf w.pluginsDir = ["plugins"] := by
    rw [hdir]
    rfl
  have hskipped := skipDirs_small hconfig
  constructor
  · intro h
    obtain ⟨name, rest, rfl⟩ := List.exists_cons_of_ne_nil h.named
    have hpresent := h.present
    rw [show FileTree.twoPlugins.placeOf w.discovery.pluginsDir = ["plugins"] from hplace] at hpresent
    obtain ⟨es, hes⟩ := hpresent
    have hchild := (FileTree.at?_small FileTree.twoEntries name rest).symm.trans hes
    simp only [FileTree.twoEntries, Keyed.get?] at hchild
    split at hchild
    · -- The quarantine directory is passed over.
      rename_i hname
      have hallowed := h.allowed name List.mem_cons_self
      rw [← hname, Discovery.allows, hskipped] at hallowed
      exact absurd hallowed Bool.false_ne_true
    · split at hchild
      · rename_i hname
        rw [← hname, FileNode.dirAt_emptyPlugin ⟨es, hchild⟩]
        exact Or.inl rfl
      · split at hchild
        · rename_i hname
          rw [← hname, FileNode.dirAt_emptyPlugin ⟨es, hchild⟩]
          exact Or.inr rfl
        · cases hchild
  · rintro (rfl | rfl)
    · refine finds_emptyPlugin hw FileTree.proper_twoEntries hconfig hopen hplace rfl ?_
      rw [Discovery.allows, hskipped]
      rfl
    · refine finds_emptyPlugin hw FileTree.proper_twoEntries hconfig hopen hplace rfl ?_
      rw [Discovery.allows, hskipped]
      rfl

theorem select_twoPlugins : (w.select .twoPlugins .all).value
    = [w.discovery.pluginAt ["a"], w.discovery.pluginAt ["b"]] := by
  have hfinds : ∀ m, w.discovery.Finds .twoPlugins m ↔ m = ["a"] ∨ m = ["b"] :=
    fun m => finds_twoPlugins_iff hw hconfig hdir
  have ht := FileTree.proper_small FileTree.proper_twoEntries
  have hrelPath : ∀ m, w.discovery.Finds .twoPlugins m →
      (w.discovery.pluginAt m).relPath = "/".intercalate m :=
    fun m hm => Discovery.relPath_pluginAt hm.named (hm.isEntryName ht) _
  have ha := hrelPath ["a"] ((hfinds _).mpr (Or.inl rfl))
  have hb := hrelPath ["b"] ((hfinds _).mpr (Or.inr rfl))
  have hfound : (w.discovery.discover .twoPlugins).plugins
      = [w.discovery.pluginAt ["a"], w.discovery.pluginAt ["b"]] := by
    refine Discovery.discover_eq ht hw.pluginsDir_ne_nil ?_ ?_ fun p => ?_
    · refine List.nodup_cons.mpr ⟨fun h => ?_, List.nodup_singleton _⟩
      have heq := congrArg Plugin.relPath (List.mem_singleton.mp h)
      rw [ha, hb] at heq
      exact absurd heq (by decide)
    · refine List.pairwise_pair.mpr ?_
      rw [ha, hb]
      decide
    · simp only [List.mem_cons, List.not_mem_nil, or_false, hfinds]
      constructor
      · rintro (rfl | rfl)
        · exact ⟨_, Or.inl rfl, rfl⟩
        · exact ⟨_, Or.inr rfl, rfl⟩
      · rintro ⟨m, rfl | rfl, rfl⟩
        · exact Or.inl rfl
        · exact Or.inr rfl
  show (Selection.all.select w.discovery .twoPlugins).plugins = _
  rw [Selection.select, Selection.candidates]
  show (w.discovery.discover .twoPlugins).plugins.filter (fun _ => true) = _
  rw [hfound]
  rfl

/-- Both plugins lack a front matter. -/
theorem findings_twoPlugins (hm : m = ["a"] ∨ m = ["b"]) :
    (w.validate .twoPlugins .full (w.discovery.pluginAt m)).findings
      = [.whole .parse (DescriptorError.malformed .missing).message] := by
  refine findings_emptyPlugin hw (FileTree.proper_small FileTree.proper_twoEntries) hconfig
    ((finds_twoPlugins_iff hw hconfig hdir).mpr hm) ?_
  rw [hdir]
  rcases hm with rfl | rfl
  · rfl
  · rfl

/-- Once `a` is moved, the path of the plugins directory leads nowhere. -/
theorem findings_after_twoPlugins {t : FileTree}
    (hmoves : Moves (FileTree.twoPlugins.placeOf w.pluginsDir) w.aside .twoPlugins [["a"]] t) :
    (w.validate t .full (w.discovery.pluginAt ["b"])).findings
      = [.whole .parse (DescriptorError.missing "readme.md").message] := by
  have hb := (finds_twoPlugins_iff hw hconfig hdir).mpr (Or.inr rfl)
  have ht := FileTree.proper_small FileTree.proper_twoEntries
  have hfile : w.rules.settings.descriptorFile = "readme.md" := by
    rw [hw.settings, hconfig]
    rfl
  have hclosed : ¬ t.OpenTo w.pluginsDir := by
    intro hopen
    have hway : ["plugins", "a"] ∈ t.wayTo w.pluginsDir := by
      rw [hmoves.wayTo_eq, hdir]
      show ["plugins", "a"] ∈ [[], ["plugins"], ["plugins", "a"], ["plugins"]]
      decide
    obtain ⟨es, hes⟩ := hopen _ hway
    have hgone := hmoves.gone (List.mem_singleton.mpr rfl)
    rw [hdir] at hgone
    exact absurd (hgone.symm.trans hes).symm (Option.some_ne_none _)
  refine Rulebook.findings_validate_of_none _ _ ?_
  rw [hfile]
  refine Descriptor.read_of_not_isFile ?_
  rw [Bool.eq_false_iff]
  intro h
  obtain ⟨x, hfind, -⟩ := FileTree.holds_iff.mp h
  obtain ⟨⟨hopen, -⟩, -⟩ := (find_behind_iff hw (hmoves.proper ht) hb.named (hb.isEntryName ht)
    (by decide)).mp hfind
  exact hclosed hopen

theorem wasMoved_twoPlugins :
    (w.reportOn ⟨.full, true⟩ .twoPlugins (w.discovery.pluginAt ["a"])).wasMoved = true := by
  refine wasMoved_emptyPlugin hw (FileTree.proper_small FileTree.proper_twoEntries) hconfig
    ((finds_twoPlugins_iff hw hconfig hdir).mpr (Or.inl rfl)) ?_ ?_ ?_
  · rw [hdir]
    rfl
  · rw [hdir]
    exact ⟨[], rfl⟩
  · rw [hdir]
    rfl

end TwoPlugins

/-- A plugins directory given as `plugins/a/..` is lost with the plugin `a`, and the verdict on the next
plugin with it. -/
theorem verdict_behind_plugin : ∃ w : Workspace, w.IsOpened ∧ FileTree.twoPlugins.Proper ∧
    w.config.plugins.StaysInside ∧ w.config.quarantine.enabled = true ∧
    w.pluginsDir = ⟨"/plugins/a/.."⟩ ∧
    (w.run .twoPlugins .all ⟨.full, true⟩).report.plugins.map PluginReport.verdict
      ≠ (w.run .twoPlugins .all ⟨.full, false⟩).report.plugins := by
  have hopened : ∃ w : Workspace, w.IsOpened ∧ w.config = Config.small ⟨"/plugins/a/.."⟩ ∧
      w.pluginsDir = ⟨"/plugins/a/.."⟩ :=
    exists_small FileTree.proper_twoEntries (by decide) rfl rfl FileTree.openTo_twoPlugins (by decide)
  obtain ⟨w, hw, hconfig, hdir⟩ := hopened
  have ht := FileTree.proper_small FileTree.proper_twoEntries
  have hinside : w.config.plugins.StaysInside := hconfig ▸ staysInside_small _
  have henabled : w.config.quarantine.enabled = true := by
    rw [hconfig]
    rfl
  refine ⟨w, hw, ht, hinside, henabled, hdir, fun h => ?_⟩
  let start : Run := ⟨.twoPlugins, ⟨[]⟩, [], (w.select .twoPlugins .all).warnings⟩
  have hmoves : Moves (start.tree.placeOf w.pluginsDir) w.aside start.tree _
      (w.visit ⟨.full, true⟩ start (w.discovery.pluginAt ["a"])).tree := visit_moves hw ht _
  rw [if_pos (wasMoved_twoPlugins hw hconfig hdir),
    place_of_finds ((finds_twoPlugins_iff hw hconfig hdir).mpr (Or.inl rfl)) ht] at hmoves
  have hstill : (w.run .twoPlugins .all ⟨.full, false⟩).report.plugins
      = (w.select .twoPlugins .all).value.map (w.validate .twoPlugins .full) :=
    visits_report fun _ _ => rfl
  have hreports : (w.run .twoPlugins .all ⟨.full, true⟩).report.plugins
      = [w.reportOn ⟨.full, true⟩ start.tree (w.discovery.pluginAt ["a"]),
        w.reportOn ⟨.full, true⟩ (w.visit ⟨.full, true⟩ start (w.discovery.pluginAt ["a"])).tree
          (w.discovery.pluginAt ["b"])] := by
    rw [run_eq_visits, select_twoPlugins hw hconfig hdir]
    show (w.visit _ (w.visit _ start _) _).report.plugins = _
    rw [visit_report, visit_report]
    rfl
  rw [hstill, hreports, select_twoPlugins hw hconfig hdir] at h
  have hsecond := congrArg PluginReport.findings (List.cons.inj (List.cons.inj h).2).1
  rw [verdict_reportOn, findings_after_twoPlugins hw hconfig hdir hmoves,
    findings_twoPlugins hw hconfig hdir (Or.inr rfl)] at hsecond
  exact absurd hsecond (by decide)

end Workspace

end PluginVet
