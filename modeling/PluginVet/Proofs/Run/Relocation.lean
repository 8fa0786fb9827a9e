/-
# PluginVet.Proofs.Run.Relocation — a verdict goes with the plugin's directory

What the checks say of a plugin is decided by the content of its directory. Two directories with equal
content agree in it, in whatever trees and at whatever places they lie; so neither a change elsewhere
nor a move of the directory itself makes a difference (`verdict_depends_on_directory`).

A run moves a plugin right after its checks, and goes on. Nothing that it does later reaches into the
directory that was moved: the plugin is gone from where it lay, and its destination is taken
(`visit_keeps`). At the end of the run the directory is found at its destination as it was when
it was checked (`visits_destination`).

§A what the checks say, §B destinations after a run, §C the verdict, §D a plugin that was moved.
-/
import PluginVet.Proofs.Run.Convergence

namespace PluginVet

open FileTree (Moves SameBelow)
open Location (Along)
open PluginVet.Path (Step)

/-! ## §A What the checks say -/

/-- **`AgreesWith r r'`** — two reports give the same findings in the same order, count the same tools, and
have both looked at the tests or both not. -/
def PluginReport.AgreesWith (r r' : PluginReport) : Prop :=
  r.findings = r'.findings ∧ r.tools = r'.tools ∧ r.coverageChecked = r'.coverageChecked

theorem Rulebook.validate_agrees {b : Rulebook} {t t' : FileTree} {p p' : Plugin}
    (hinside : b.settings.StaysInside)
    (h : SameBelow t p.directory t' p'.directory) (o : Checks) (shown shown' : String) :
    (b.validate t o shown p).AgreesWith (b.validate t' o shown' p') := by
  rw [validate, validate, Descriptor.read_congr hinside.descriptor h, findings_congr hinside h]
  exact ⟨rfl, rfl, rfl⟩

/-! ## §B Destinations after a run -/

namespace Workspace

variable {w : Workspace} {t : FileTree} {o : RunOptions} {warnings : List Warning}
  {ps : List Plugin} {p : Plugin} {r : PluginReport} {run : Run} {m : Location}

/-- A selected plugin lies at its path below the plugins directory. -/
theorem directory_of_mem_select {s : Selection} (h : p ∈ (w.select t s).value) :
    p.directory = w.quarantine.source p.relPath := by
  obtain ⟨relPath, rfl⟩ := Discovery.exists_inside_of_mem_select h
  exact Plugin.directory_inside w.pluginsDir relPath

/-- A visit leaves alone what stands at the destination of a plugin that is gone. -/
theorem visit_keeps (hw : w.IsOpened) (ht : run.tree.Proper)
    (hgone : run.tree.root.at? (run.tree.placeOf w.pluginsDir ++ m) = none)
    (hthere : run.tree.root.DirAt (run.tree.placeOf w.pluginsDir ++ (w.aside ++ m))) (p : Plugin) :
    (w.visit o run p).tree.root.at? (run.tree.placeOf w.pluginsDir ++ (w.aside ++ m))
      = run.tree.root.at? (run.tree.placeOf w.pluginsDir ++ (w.aside ++ m)) := by
  unfold visit
  dsimp only
  split
  · rename_i hto
    obtain ⟨-, -, -, hout⟩ := isToMove_spec hto
    exact Quarantine.at?_relocate_of_gone hw.pluginsDir_ne_nil hw.isPlain ht hout hgone hthere
  · rfl

theorem visit_tree_of_isToMove (h : w.isToMove o p (w.validate run.tree o.checks p) = true) :
    (w.visit o run p).tree = (w.quarantine.relocate run.tree p.relPath).tree := by
  unfold visit
  dsimp only
  rw [h]
  rfl

/-- A plugin that was moved has left its place. -/
theorem gone_visits (hw : w.IsOpened) (ht : t.Proper)
    (h : (p, r) ∈ ps.zip (w.visits o t warnings ps).report.plugins) (hmoved : r.wasMoved = true) :
    (w.visits o t warnings ps).tree.root.at?
      ((w.visits o t warnings ps).tree.placeOf w.pluginsDir ++ p.place) = none := by
  have hmoves : Moves (t.placeOf w.pluginsDir) w.aside t _ (w.visits o t warnings ps).tree :=
    visits_moves hw ht ps
  rw [hmoves.placeOf_eq]
  exact hmoves.gone (List.mem_map_of_mem (mem_movedOf.mpr ⟨r, h, hmoved⟩))

/-- **`Rests w o t t' p r`** — the plugin was checked in the tree `t`, with the report `r`, and the
directory that was checked is the one at the plugin's destination in the tree `t'`. -/
structure Rests (w : Workspace) (o : RunOptions) (t t' : FileTree) (p : Plugin) (r : PluginReport) :
    Prop where
  proper : t.Proper
  reported : r = w.reportOn o t p
  contained : Path.isContained ⟨p.relPath⟩ = true
  present : t.isDirectory (w.quarantine.source p.relPath) = true
  kept : t'.root.at? (t'.placeOf w.pluginsDir ++ (w.aside ++ p.place))
    = t.root.at? (t.placeOf w.pluginsDir ++ p.place)

theorem Rests.dirAt {t' : FileTree} (h : w.Rests o t t' p r) (hw : w.IsOpened) :
    t'.root.DirAt (t'.placeOf w.pluginsDir ++ (w.aside ++ p.place)) := by
  obtain ⟨es, hes⟩ := ((FileTree.isDirectory_iff h.proper).mp h.present).2.dirAt
  rw [(placeOf_source hw h.contained t).1] at hes
  exact ⟨es, h.kept.trans hes⟩

/-- **`visits_destination`** — after a run each plugin that was moved rests at its destination. -/
theorem visits_destination (hw : w.IsOpened) (ht : t.Proper)
    (h : (p, r) ∈ ps.zip (w.visits o t warnings ps).report.plugins) (hmoved : r.wasMoved = true) :
    ∃ t₀, w.Rests o t₀ (w.visits o t warnings ps).tree p r := by
  induction ps using List.reverseRecOn with
  | nil => exact absurd h List.not_mem_nil
  | append_singleton before q ih =>
      have hmoves : Moves (t.placeOf w.pluginsDir) w.aside t _ (w.visits o t warnings before).tree :=
        visits_moves hw ht before
      have hproper := hmoves.proper ht
      have hplace := (visit_moves (o := o) hw hproper q).placeOf_eq w.pluginsDir
      rw [visits_concat, visit_report, List.zip_append (length_visits before).symm] at h
      rw [visits_concat]
      rcases List.mem_append.mp h with h | h
      · -- Moved before: the visit keeps what stands at the destination.
        obtain ⟨t₀, hrests⟩ := ih h
        refine ⟨t₀, { hrests with kept := ?_ }⟩
        rw [hplace, visit_keeps hw hproper (gone_visits hw ht h hmoved) (hrests.dirAt hw) q]
        exact hrests.kept
      · -- Moved by the visit itself.
        obtain ⟨rfl, rfl⟩ := Prod.mk.inj (List.mem_singleton.mp h)
        obtain ⟨hto, houtcome⟩ := wasMoved_reportOn.mp hmoved
        refine ⟨_, hproper, rfl, Quarantine.isContained_of_moved houtcome,
          Quarantine.isDirectory_source_of_moved hw.pluginsDir_ne_nil hw.isPlain hproper houtcome, ?_⟩
        rw [hplace, visit_tree_of_isToMove hto, ← List.append_assoc]
        exact Quarantine.at?_relocate_destination hw.pluginsDir_ne_nil hw.isPlain hproper houtcome

section Rests

variable {t' : FileTree} {d : Path} (hrests : w.Rests o t t' p r) (hw : w.IsOpened)
  (ht' : t'.Proper)
include hrests hw ht'

/-- Under any path to its destination the plugin gets the verdict that it got before it was moved. -/
theorem Rests.agrees (hinside : w.config.plugins.StaysInside)
    (hsource : p.directory = w.quarantine.source p.relPath) (hd : t'.isDirectory d = true)
    (hplace : t'.placeOf d = t'.placeOf (w.quarantine.destination p.relPath)) (shown : String) :
    r.AgreesWith (w.rules.validate t' o.checks shown (.placedAt d p.relPath)) := by
  have hsame : t.at? (t.placeOf p.directory) = t'.at? (t'.placeOf d) := by
    rw [hsource, hplace, (placeOf_source hw hrests.contained t).1,
      (placeOf_source hw hrests.contained t').2, List.append_assoc]
    exact hrests.kept.symm
  have hbelow : SameBelow t p.directory t' (Plugin.placedAt d p.relPath).directory :=
    FileTree.sameBelow_of_isDirectory hrests.proper ht' (hsource ▸ hrests.present) hd hsame
  have hverdict : r.verdict = w.validate t o.checks p := by
    rw [hrests.reported]
    exact verdict_reportOn w o t p
  have hagrees := Rulebook.validate_agrees (hw.settings.symm ▸ hinside) hbelow o.checks
    (w.shownPath p) shown
  show r.verdict.AgreesWith _
  rw [hverdict]
  exact hagrees

/-- Where the path of the plugins directory never goes up, that of the destination leads there. -/
theorem Rests.isDirectory (hup : Step.up ∉ w.pluginsDir.trail) :
    t'.isDirectory (w.quarantine.destination p.relPath) = true := by
  have hdir := hrests.dirAt hw
  have habove : t'.root.DirAt (t'.placeOf w.pluginsDir) := by
    have h := hdir.above List.nil_prefix
    rwa [List.append_nil] at h
  exact Quarantine.isDirectory_destination hw.pluginsDir_ne_nil hw.isPlain ht' hrests.contained
    (FileTree.openTo_of_dirAt hup habove) hdir

end Rests

end Workspace

/-! ## §C The verdict -/

/-- A change apart from a plugin makes no difference while the plugin's path still leads to it. -/
theorem Rulebook.validate_update {b : Rulebook} {p : Plugin} {t : FileTree} {l : Location}
    {new : Option FileNode} (hinside : b.settings.StaysInside) (ht : t.Proper)
    (ht' : (t.update l new).Proper) (hd : t.isDirectory p.directory = true)
    (hapart : ¬ Along l (t.placeOf p.directory))
    (hleads : Step.up ∉ p.directory.trail ∨ (t.update l new).isDirectory p.directory = true)
    (o : Checks) (shown : String) :
    b.validate (t.update l new) o shown p = b.validate t o shown p := by
  obtain ⟨habove, hbelow⟩ := Location.not_along_iff.mp hapart
  have hsame : (t.update l new).at? ((t.update l new).placeOf p.directory)
      = t.at? (t.placeOf p.directory) := FileNode.at?_update_of_apart habove hbelow
  have hd' : (t.update l new).isDirectory p.directory = true := by
    refine hleads.elim (fun hup => ?_) id
    obtain ⟨htext, hopen⟩ := (FileTree.isDirectory_iff ht).mp hd
    obtain ⟨es, hes⟩ := hopen.dirAt
    exact (FileTree.isDirectory_iff ht').mpr
      ⟨htext, FileTree.openTo_of_dirAt hup ⟨es, hsame.trans hes⟩⟩
  exact validate_congr hinside (FileTree.sameBelow_of_isDirectory ht' ht hd' hd hsame) rfl o shown

namespace Workspace

section TwoPlugins

variable {w : Workspace} (hw : w.IsOpened) (hconfig : w.config = Config.small ⟨"/plugins/a/.."⟩)
  (hdir : w.pluginsDir = ⟨"/plugins/a/.."⟩)
include hw hconfig hdir

/-- The plugin `a` is moved first. -/
theorem moved_twoPlugins : ∃ r, (w.discovery.pluginAt ["a"], r) ∈
    (w.select .twoPlugins .all).value.zip (w.run .twoPlugins .all ⟨.full, true⟩).report.plugins ∧
      r.wasMoved = true := by
  have hmoved := wasMoved_twoPlugins hw hconfig hdir
  refine ⟨_, ?_, hmoved⟩
  rw [run_eq_visits, select_twoPlugins hw hconfig hdir]
  show _ ∈ List.zip _ (w.visit _ (w.visit _ _ _) _).report.plugins
  rw [visit_report, visit_report]
  exact List.mem_cons_self

theorem isDirectory_moved_twoPlugins :
    (w.run .twoPlugins .all ⟨.full, true⟩).tree.isDirectory ⟨"/plugins/.needs-work/a"⟩ = true ∧
      (w.run .twoPlugins .all ⟨.full, true⟩).tree.placeOf ⟨"/plugins/.needs-work/a"⟩
        = (w.run .twoPlugins .all ⟨.full, true⟩).tree.placeOf
          (w.quarantine.destination (w.discovery.pluginAt ["a"]).relPath) := by
  have ht := FileTree.proper_small FileTree.proper_twoEntries
  obtain ⟨r, hmem, hmoved⟩ := moved_twoPlugins hw hconfig hdir
  obtain ⟨t₀, hrests⟩ : ∃ t₀, w.Rests ⟨.full, true⟩ t₀ (w.run .twoPlugins .all ⟨.full, true⟩).tree
      (w.discovery.pluginAt ["a"]) r := visits_destination hw ht hmem hmoved
  have ht' : (w.run .twoPlugins .all ⟨.full, true⟩).tree.Proper :=
    (visits_moves hw ht (w.select .twoPlugins .all).value).proper ht
  have hplace : (w.discovery.pluginAt ["a"]).place = ["a"] :=
    place_of_finds ((finds_twoPlugins_iff hw hconfig hdir).mpr (Or.inl rfl)) ht
  have haside : w.aside = [".needs-work"] := by
    rw [aside, hconfig]
    rfl
  have hthere := hrests.dirAt hw
  have hsame := (placeOf_source hw hrests.contained
    (w.run .twoPlugins .all ⟨.full, true⟩).tree).2
  rw [hplace, haside, hdir] at hthere hsame
  exact ⟨(FileTree.isDirectory_iff ht').mpr ⟨by decide, FileTree.openTo_of_dirAt (by decide) hthere⟩,
    hsame.symm⟩

end TwoPlugins

end Workspace

end PluginVet
