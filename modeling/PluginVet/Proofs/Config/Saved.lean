/-
# PluginVet.Proofs.Config.Saved — loading settings, saving them and loading them again

A loaded configuration has its root as seen from the working directory, and that is how the root is
written. Loading takes a relative root as seen from the directory of the file. So what is loaded a second
time has that directory in front of its root once more (`reload_saved`): it is the same if the root is
absolute, as it is where the path of the file is, or if the file lies in the working directory. In any other
case the places are different ones, `conf/conf/r` in place of `conf/r` (`directory_doubled_on_reload`).

That the text of the settings reads back as the settings is a hypothesis.

§A saved files, §B roots behind a directory, §C reloaded settings, §D a directory that is doubled.
-/
import PluginVet.Proofs.Config.Root

namespace PluginVet

open Expansion (expand IsFixed)

namespace Config

variable {t t' : FileTree} {file p e : Path} {c : Config} {environment : Environment}

/-! ## §A Saved files -/

/-- Whether settings are usable does not depend on their root. -/
theorem validate_anchor (c : Config) (file : Path) : (c.anchor file).validate = c.validate := by
  unfold anchor
  split
  · rfl
  · cases file.parent? <;> rfl

/-- Settings that were loaded from a file can be saved in it, and this is what is loaded next. -/
theorem ofFile_save (hload : ofFile t file = .ok c) (hread : read c.toYaml = .ok c) :
    ∃ t', c.save t file = .ok t' ∧ ofFile t' file = .ok (c.anchor file) := by
  obtain ⟨content, written, hcontent, -, -, hvalid⟩ := ofFile_eq_ok_iff.mp hload
  obtain ⟨t', hsave, hsaved⟩ := FileTree.readText_writeText hcontent c.toYaml
  refine ⟨t', hsave, ofFile_eq_ok_iff.mpr ⟨c.toYaml, c, hsaved, hread, rfl, ?_⟩⟩
  rw [validate_anchor]
  exact hvalid

end Config

/-! ## §B Roots behind a directory -/

namespace Path

variable {dir r e : Path}

theorem filterMap_component?_eq_nil_iff {steps : List Step} (h : .stay ∉ steps) :
    steps.filterMap Step.component? = [] ↔ steps = [] := by
  cases steps with
  | nil => exact iff_of_true rfl rfl
  | cons step rest =>
      cases step with
      | stay => exact absurd List.mem_cons_self h
      | up => simp [Step.component?]
      | into name => simp [Step.component?]

/-- A path below a directory that is named twice is the same only if the directory is the one where it
stands. -/
theorem components_join_join_iff (hdir : dir.text.toList ≠ []) (hr : r.isAbsolute = false)
    (hjoin : (dir.join r).isAbsolute = false) (he : e.isAbsolute = false) :
    ((dir.join (dir.join r)).join e).components = ((dir.join r).join e).components ↔
      dir.trail = [] := by
  have hinner := text_join_ne_nil hdir hr
  have houter := text_join_ne_nil hdir hjoin
  rw [components_join houter he, components_join hinner he, components_join hdir hjoin,
    components_join hdir hr, trail_join hdir hr, List.filterMap_append,
    ← filterMap_component?_eq_nil_iff dir.stay_not_mem_trail]
  rw [List.append_left_inj, List.append_right_inj, List.append_left_eq_self]

end Path

/-! ## §C Reloaded settings -/

namespace Config

variable {t : FileTree} {file : Path} {c : Config}

/-- **`reload_saved`** — settings that are saved where they came from are loaded as the same ones, but with
the directory of the file in front of a relative root once more. With an absolute root, written as one or
made one by the path of the file, and without a directory they are the same altogether. If they are not,
then a path that is absolute leads where it led, and any other one leads past the directory twice; if nothing
in the root is replaced, that is another place unless the directory is the one where it stands. -/
theorem reload_saved (hload : ofFile t file = .ok c) (hread : read c.toYaml = .ok c) :
    ∃ dir content written t' again, file.parent? = some dir ∧
      t.readText file = .ok content ∧ read content = .ok written ∧
      c.save t file = .ok t' ∧ ofFile t' file = .ok again ∧
      again = { c with root := dir.join c.root } ∧
      (written.root.isAbsolute = true ∨ file.isAbsolute = true ∨ dir.text = "" → again = c) ∧
      (written.root.isAbsolute = false → file.isAbsolute = false → dir.text ≠ "" → again ≠ c ∧
        ∀ environment p e, expand environment p = .ok e →
          (e.isAbsolute = true → again.resolve environment p = c.resolve environment p) ∧
          (e.isAbsolute = false → IsFixed c.root → ∃ place place',
            c.resolve environment p = .ok place ∧ again.resolve environment p = .ok place' ∧
              place'.trail = dir.trail ++ place.trail ∧
              (place'.components = place.components ↔ dir.trail = []))) := by
  obtain ⟨dir, content, written, hdir, habsolute, hcontent, hwritten, hc, -⟩ := exists_written hload
  obtain ⟨t', hsave, hagain⟩ := ofFile_save hload hread
  rw [anchor_of_parent hdir] at hagain
  have hroot : c.root = dir.join written.root := by rw [hc]
  refine ⟨dir, content, written, t', _, hdir, hcontent, hwritten, hsave, hagain, rfl, ?_, ?_⟩
  · intro hcase
    suffices hsame : dir.join c.root = c.root by rw [hsame]
    by_cases htext : dir.text = ""
    · exact Path.join_of_empty htext c.root
    · refine Path.join_of_absolute ?_
      rw [hroot]
      by_cases hr : written.root.isAbsolute = true
      · rwa [Path.join_of_absolute hr]
      · have hfile := (hcase.resolve_left hr).resolve_right htext
        rw [Path.isAbsolute_join (Path.text_ne_nil_of_ne_empty htext) (Bool.eq_false_iff.mpr hr),
          habsolute, hfile]
  · intro hr hfile htext
    have hnil := Path.text_ne_nil_of_ne_empty htext
    have hrelative : c.root.isAbsolute = false := by
      rw [hroot, Path.isAbsolute_join hnil hr, habsolute, hfile]
    have hinner : c.root.text.toList ≠ [] := hroot ▸ Path.text_join_ne_nil hnil hr
    refine ⟨fun hsame => ?_, ?_⟩
    · -- The directory in front makes the root longer.
      have htexts := congrArg (·.root.text.toList.length) hsame
      simp only [Path.join_of_relative hrelative, String.toList_append, List.length_append] at htexts
      exact hnil (List.length_eq_zero_iff.mp (by omega))
    · intro environment p e hexpand
      refine ⟨fun he => ?_, fun he hfixed => ?_⟩
      · rw [resolve_of_expand hexpand, resolve_of_expand hexpand, if_pos he, if_pos he]
      · have hdirFixed : IsFixed dir :=
          ((Expansion.isFixed_join_iff hnil hr).mp (hroot ▸ hfixed)).1
        have hagainFixed : IsFixed (dir.join c.root) :=
          (Expansion.isFixed_join_iff hnil hrelative).mpr ⟨hdirFixed, hfixed.1⟩
        refine ⟨c.root.join e, (dir.join c.root).join e, resolve_of_root hfixed.expand_eq hexpand,
          resolve_of_root hagainFixed.expand_eq hexpand, ?_, ?_⟩
        · rw [Path.trail_join (Path.text_join_ne_nil hnil hrelative) he, Path.trail_join hnil hrelative,
            Path.trail_join hinner he, List.append_assoc]
        · rw [hroot] at hrelative ⊢
          exact Path.components_join_join_iff hnil hr hrelative he

/-! ## §D A directory that is doubled -/

/-- Settings with little in them. -/
def brief (root : Path) : Config where
  version := supportedVersion
  root := root
  schemaPath := none
  plugins := ⟨⟨"p"⟩, "d", ["i"], "t", [], [], 1⟩
  registry := ⟨⟨"e"⟩, [], [], 1⟩
  quarantine := ⟨true, ⟨"q"⟩⟩

theorem toList_toYaml (c : Config) : c.toYaml.toList = Yaml.Written.entriesText 0 c.entries :=
  String.toList_ofList

set_option maxRecDepth 100000 in
theorem readsAs_brief {s : String} {root : Path} (hroot : root = ⟨"r"⟩ ∨ root = ⟨"conf/r"⟩)
    (h : s.toList = Yaml.Written.entriesText 0 (entries (brief root))) :
    readsAs s (brief root) = true := by
  unfold readsAs read Yaml.decodeOnly Yaml.documents Yaml.events Yaml.tokenize
  rw [h]
  rcases hroot with rfl | rfl
  · decide +kernel
  · decide +kernel

/-- The text of these settings reads back as the settings. -/
theorem read_brief {root : Path} (hroot : root = ⟨"r"⟩ ∨ root = ⟨"conf/r"⟩) :
    read (brief root).toYaml = .ok (brief root) :=
  read_of_readsAs (readsAs_brief hroot (toList_toYaml _))

theorem ofFile_brief : ofFile (holding (brief ⟨"r"⟩).toYaml) ⟨"conf/x.yaml"⟩ = .ok (brief ⟨"conf/r"⟩) := by
  refine ofFile_eq_ok_iff.mpr ⟨_, _, readText_holding _, read_brief (Or.inl rfl), ?_, rfl⟩
  rw [anchor_of_parent parent_holding]
  decide

/-- Plugins beside the file are looked for in another place when the settings are loaded again. -/
theorem directory_doubled_on_reload :
    ofFile (holding (brief ⟨"r"⟩).toYaml) ⟨"conf/x.yaml"⟩ = .ok (brief ⟨"conf/r"⟩) ∧
    read (brief ⟨"conf/r"⟩).toYaml = .ok (brief ⟨"conf/r"⟩) ∧
    ∃ t' again place place', (brief ⟨"conf/r"⟩).save (holding (brief ⟨"r"⟩).toYaml) ⟨"conf/x.yaml"⟩ = .ok t' ∧
      ofFile t' ⟨"conf/x.yaml"⟩ = .ok again ∧
      (brief ⟨"conf/r"⟩).pluginsDir .empty = .ok place ∧ again.pluginsDir .empty = .ok place' ∧
      place'.components ≠ place.components := by
  have hread : read (brief ⟨"conf/r"⟩).toYaml = .ok (brief ⟨"conf/r"⟩) := read_brief (Or.inr rfl)
  obtain ⟨dir, content, written, t', again, hdir, hcontent, hwritten, hsave, hagain, hroot, -, hother⟩ :=
    reload_saved ofFile_brief hread
  obtain rfl : dir = ⟨"conf"⟩ := Option.some.inj (hdir.symm.trans parent_holding)
  obtain rfl : content = (brief ⟨"r"⟩).toYaml := Except.ok.inj (hcontent.symm.trans (readText_holding _))
  obtain rfl : written = brief ⟨"r"⟩ := Except.ok.inj (hwritten.symm.trans (read_brief (Or.inl rfl)))
  obtain ⟨-, hplaces⟩ := hother (by decide) (by decide) (by decide)
  have hplugins : expand .empty ⟨"p"⟩ = .ok ⟨"p"⟩ := IsFixed.expand_eq ⟨by decide, by decide⟩
  obtain ⟨-, hmoved⟩ := hplaces .empty ⟨"p"⟩ ⟨"p"⟩ hplugins
  obtain ⟨place, place', hplace, hplace', -, hsame⟩ := hmoved (by decide) ⟨by decide, by decide⟩
  refine ⟨ofFile_brief, hread, t', again, place, place', hsave, hagain, hplace, ?_, ?_⟩
  · rw [hroot] at hplace' ⊢
    exact hplace'
  · rw [Ne, hsame]
    decide

end Config

end PluginVet
