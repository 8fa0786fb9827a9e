/-
# PluginVet.Proofs.Run.Files — no run loses, doubles or alters a file

A run leaves every file with its content in exactly one place: where it was, or, below a plugin that
the report shows as moved, at the same names behind the quarantine directory. No file appears, and
what lies in the quarantine tree stays there.
-/
import PluginVet.Proofs.Workspace

namespace PluginVet

/-- **`FilesGo f t t'`** — the files of `t'` are those of `t`, each at the place that `f` gives it and
no two of them at the same. -/
structure FilesGo (f : Location → Location) (t t' : FileTree) : Prop where
  kept : ∀ l bytes, t.root.fileAt? l = some bytes → t'.root.fileAt? (f l) = some bytes
  known : ∀ l bytes, t'.root.fileAt? l = some bytes → ∃ k, t.root.fileAt? k = some bytes ∧ f k = l
  distinct : ∀ k k', (t.root.fileAt? k).isSome → (t.root.fileAt? k').isSome → f k = f k' → k = k'

namespace FileTree

variable {base aside : Location} {moved : List Location} {t t' : FileTree}

theorem Moves.filesGo (h : Moves base aside t moved t') :
    FilesGo (carriedTo base aside moved) t t' where
  kept _ _ hl := h.fileAt?_carriedTo hl
  known _ _ hl := h.exists_carriedTo hl
  distinct k k' hk hk' heq := by
    obtain ⟨bytes, hbytes⟩ := Option.isSome_iff_exists.mp hk
    obtain ⟨bytes', hbytes'⟩ := Option.isSome_iff_exists.mp hk'
    exact h.carriedTo_injective hbytes hbytes' heq

/-- What lies in `base ++ aside` is neither moved nor removed. -/
theorem Moves.aside_kept {l : Location} (h : Moves base aside t moved t') (hl : base ++ aside <+: l) :
    (∀ bytes, t.root.fileAt? l = some bytes → t'.root.fileAt? l = some bytes) ∧
      (t.root.DirAt l → t'.root.DirAt l) := by
  have hmoved : ∀ ns ∈ moved, ¬ base ++ ns <+: l := by
    intro ns hns hpre
    exact h.not_along hns (Location.along_append_iff.mp (Location.along_of_common hl hpre))
  refine ⟨fun bytes hbytes => ?_, h.dirAt hmoved⟩
  rw [← h.carriedTo_of_aside hl]
  exact h.fileAt?_carriedTo hbytes

end FileTree

namespace Workspace

variable {w : Workspace} {t : FileTree}

/-- **`run_keeps_files`** — what a run does to the files of a tree without links. `placeOf` is where the
plugins directory lies, and `w.aside` are the names that lead from there to the quarantine tree. -/
theorem run_keeps_files (hw : w.IsOpened) (ht : t.Proper) (s : Selection) (o : RunOptions) :
    let base := t.placeOf w.pluginsDir
    let ps := (w.select t s).value
    let r := w.run t s o
    r.report.plugins.length = ps.length ∧
      FilesGo (FileTree.carriedTo base w.aside ((movedOf ps r.report.plugins).map Plugin.place))
        t r.tree ∧
      (∀ l, base ++ w.aside <+: l →
        (∀ bytes, t.root.fileAt? l = some bytes → r.tree.root.fileAt? l = some bytes) ∧
          (t.root.DirAt l → r.tree.root.DirAt l)) ∧
      (∀ p ∈ movedOf ps r.report.plugins,
        t.placeOf (w.quarantine.source p.relPath) = base ++ p.place ∧
          t.placeOf (w.quarantine.destination p.relPath) = base ++ w.aside ++ p.place) ∧
      (∀ p r', (p, r') ∈ ps.zip r.report.plugins →
        Path.startsWith ⟨p.relPath⟩ w.config.quarantine.dir = true → r'.quarantine = none) ∧
      (o.quarantine = false ∨ w.config.quarantine.enabled = false → r.tree = t) := by
  intro base ps r
  have hmoves : FileTree.Moves base w.aside t
      ((movedOf ps r.report.plugins).map Plugin.place) r.tree := visits_moves hw ht ps
  refine ⟨length_visits ps, hmoves.filesGo, fun l hl => hmoves.aside_kept hl, ?_, ?_, ?_⟩
  · intro p hp
    obtain ⟨-, hcontained, -⟩ := mem_movedOf_visits hp
    exact placeOf_source hw hcontained t
  · intro p r' hmem hstarts
    obtain ⟨t', rfl⟩ := exists_reportOn hmem
    have hin : w.quarantine.isQuarantined p.relPath = true :=
      Quarantine.isQuarantined_of_startsWith hw.pluginsDir_ne_nil hw.isPlain hstarts
    -- An outcome is given only to a plugin that was to be moved, and this one was not.
    cases hq : (w.reportOn o t' p).quarantine with
    | none => rfl
    | some outcome =>
        have hsome : (w.reportOn o t' p).quarantine.isSome = true := by
          rw [hq]
          rfl
        rw [isSome_quarantine_reportOn] at hsome
        obtain ⟨-, -, -, hout⟩ := isToMove_spec hsome
        exact absurd (hin.symm.trans hout) (by decide)
  · intro hoff
    refine visits_tree fun p _ => ?_
    rw [isToMove]
    rcases hoff with h | h
    · rw [h]
      rfl
    · rw [h, Bool.and_false]
      rfl

/-- The run that moves the one plugin of a small repository. -/
theorem run_keeps_files_onePlugin : ∃ w : Workspace, w.IsOpened ∧
    (FileTree.small FileTree.onePlugin).Proper ∧
    FilesGo
      (FileTree.carriedTo ((FileTree.small FileTree.onePlugin).placeOf w.pluginsDir) w.aside
        ((movedOf (w.select (FileTree.small FileTree.onePlugin) .all).value
          (w.run (FileTree.small FileTree.onePlugin) .all .standard).report.plugins).map Plugin.place))
      (FileTree.small FileTree.onePlugin)
      (w.run (FileTree.small FileTree.onePlugin) .all .standard).tree := by
  obtain ⟨w, hw, -, -⟩ := exists_onePlugin
  have ht := FileTree.proper_small FileTree.proper_onePlugin
  exact ⟨w, hw, ht, (run_keeps_files hw ht .all .standard).2.1⟩

end Workspace

end PluginVet
