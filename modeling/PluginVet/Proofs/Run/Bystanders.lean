/-
# PluginVet.Proofs.Run.Bystanders — which plugins a run leaves in place

A run moves nothing but what it has found failing, yet it moves whole directories: a plugin stays as it
was exactly when nothing above or below it is moved (`run_keeps_plugin`). Over all discovered plugins
that is each plugin that did not fail itself, since none of them lies in another. Named paths may lie
above a plugin or below it: a category has no descriptor, so it fails, and it goes with its plugins.
-/
import PluginVet.Proofs.Workspace

namespace PluginVet

open Location (Along)
open FileTree (Moves)

namespace Workspace

variable {w : Workspace} {t : FileTree} {p : Plugin}

/-- **`run_keeps_plugin`** — what a run moves has failed in it, and a discovered plugin stays in place with
its content exactly when nothing above or below it is moved. Without explicit names that is whenever
the run has no failing report on the plugin. -/
theorem run_keeps_plugin (hw : w.IsOpened) (ht : t.Proper) (s : Selection) (o : RunOptions)
    (hp : p ∈ (w.discovery.discover t).plugins) :
    let ps := (w.select t s).value
    let r := w.run t s o
    let moved := movedOf ps r.report.plugins
    (∀ q ∈ moved, ∃ r', (q, r') ∈ ps.zip r.report.plugins ∧ r'.passed = false) ∧
      (r.tree.at? (t.placeOf p.directory) = t.at? (t.placeOf p.directory) ↔
        ∀ q ∈ moved, ¬ Along q.place p.place) ∧
      (s.names = [] → (∀ r', (p, r') ∈ ps.zip r.report.plugins → r'.passed = true) →
        r.tree.at? (t.placeOf p.directory) = t.at? (t.placeOf p.directory)) := by
  intro ps r moved
  obtain ⟨m, hm, rfl⟩ := (mem_discover hw ht).mp hp
  have hmoves : Moves (t.placeOf w.pluginsDir) w.aside t (moved.map Plugin.place) r.tree :=
    visits_moves hw ht ps
  rw [placeOf_directory hw ht hm, place_of_finds hm ht]
  have hintact : r.tree.at? (t.placeOf w.pluginsDir ++ m) = t.at? (t.placeOf w.pluginsDir ++ m) ↔
      ∀ q ∈ moved, ¬ Along q.place m :=
    (hmoves.at?_below_iff (not_along_of_allows hw hm.allowed hm.named) hm.present).trans
      List.forall_mem_map
  refine ⟨fun q hq => (mem_movedOf_visits hq).2.2, hintact, fun hnames hpassed => hintact.mpr ?_⟩
  intro q hq halong
  obtain ⟨hmem, -, r', hr', hfailed⟩ := mem_movedOf_visits hq
  have hfound : q ∈ (w.discovery.discover t).plugins := by
    have hselected : q ∈ (s.select w.discovery t).plugins := hmem
    rw [Selection.select, Selection.candidates, hnames] at hselected
    exact (List.mem_filter.mp hselected).1
  -- Without names only discovered plugins are moved, and none of these lies in another.
  obtain ⟨m', hm', rfl⟩ := (mem_discover hw ht).mp hfound
  rw [place_of_finds hm' ht] at halong
  obtain rfl : m' = m := by
    by_contra hne
    exact hm'.not_along hm hne halong
  rw [hpassed r' hr'] at hfailed
  cases hfailed

/-- The one plugin of a small repository stays in place exactly when the run does not move it. -/
theorem run_keeps_plugin_onePlugin : ∃ w : Workspace, ∃ p : Plugin, w.IsOpened ∧
    (FileTree.small FileTree.onePlugin).Proper ∧
    p ∈ (w.discovery.discover (FileTree.small FileTree.onePlugin)).plugins ∧
    ((w.run (FileTree.small FileTree.onePlugin) .all .standard).tree.at?
        ((FileTree.small FileTree.onePlugin).placeOf p.directory)
      = (FileTree.small FileTree.onePlugin).at?
        ((FileTree.small FileTree.onePlugin).placeOf p.directory) ↔
      ∀ q ∈ movedOf (w.select (FileTree.small FileTree.onePlugin) .all).value
        (w.run (FileTree.small FileTree.onePlugin) .all .standard).report.plugins,
        ¬ Along q.place p.place) := by
  obtain ⟨w, hw, hconfig, hdir⟩ := exists_onePlugin
  have ht := FileTree.proper_small FileTree.proper_onePlugin
  have hopen : (FileTree.small FileTree.onePlugin).OpenTo w.pluginsDir :=
    hdir ▸ FileTree.openTo_small _
  have hplace : (FileTree.small FileTree.onePlugin).placeOf w.pluginsDir = ["plugins"] := by
    rw [hdir]
    rfl
  have hallowed : w.discovery.allows "a" = true := by
    rw [Discovery.allows, skipDirs_small hconfig]
    rfl
  have hfinds : w.discovery.Finds (FileTree.small FileTree.onePlugin) ["a"] :=
    finds_emptyPlugin hw FileTree.proper_onePlugin hconfig hopen hplace rfl hallowed
  have hp := (mem_discover hw ht).mpr ⟨_, hfinds, rfl⟩
  exact ⟨w, _, hw, ht, hp, (run_keeps_plugin hw ht .all .standard hp).2.1⟩

end Workspace

end PluginVet
