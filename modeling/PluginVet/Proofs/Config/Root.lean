/-
# PluginVet.Proofs.Config.Root — where the root of a configuration file is

A configuration file is read from a directory, and a root that is written as a relative path is joined to
that directory when the file is loaded. Variables and the tilde are replaced later, each time a path is
resolved. If the written root is absolute, or there is no directory to join it to, it makes no difference
which comes first; nor does it if nothing in the directory is replaced and what the root expands to is
relative. In all other cases `resolve_loaded` says what comes of it: what looks like a variable or a tilde
in the name of the directory is replaced, a tilde in front of the root is not, and an absolute value stays
below the directory. So a root in the home directory is looked for beside the file
(`home_root_stays_below`, `root_moves_with_file`).

§A loaded settings, §B resolved paths, §C the root of a file, §D a root in the home directory.
-/
import PluginVet.Config.File
import PluginVet.Proofs.Expansion
import PluginVet.Proofs.FileTree.Content

namespace PluginVet

open Expansion (expand substituted IsFixed LeavesOpen expand_eq_ok_iff expand_join_eq_ok_iff
  expand_of_slash substituted_of_not_mem)

namespace Path

variable {base next p : Path}

theorem join_of_absolute (h : next.isAbsolute = true) : base.join next = next :=
  if_pos h

theorem join_of_empty (hbase : base.text = "") (next : Path) : base.join next = next := by
  unfold join
  split
  · rfl
  · rw [hbase]
    simp

theorem text_ne_nil_of_ne_empty (h : base.text ≠ "") : base.text.toList ≠ [] :=
  fun hnil => h (String.toList_inj.mp hnil)

/-- An absolute path is expanded to an absolute path. -/
theorem isAbsolute_expand {environment : Environment} {e : Path} (hp : p.isAbsolute = true)
    (h : expand environment p = .ok e) : e.isAbsolute = true := by
  obtain ⟨behind, hbehind⟩ := isAbsolute_iff.mp hp
  have hopen : LeavesOpen [] → '}' ∉ behind := by
    rintro ⟨rest, hrest, -⟩
    cases List.suffix_nil.mp hrest
  have hpath : p.text.toList = [] ++ '/' :: behind := hbehind
  obtain ⟨x, y, hx, -, he⟩ := (expand_of_slash hpath hopen).mp h
  obtain rfl : [] = x := Option.some.inj hx
  exact isAbsolute_iff.mpr ⟨y, he⟩

end Path

namespace Config

variable {t : FileTree} {file p e : Path} {c : Config} {environment : Environment}

/-! ## §A Loaded settings -/

theorem anchor_of_parent {dir : Path} (h : file.parent? = some dir) (c : Config) :
    c.anchor file = { c with root := dir.join c.root } := by
  unfold anchor
  split
  · rename_i habsolute
    rw [Path.join_of_absolute habsolute]
  · rw [h]

theorem ofFile_eq_ok_iff : ofFile t file = .ok c ↔ ∃ content written,
    t.readText file = .ok content ∧ read content = .ok written ∧ written.anchor file = c ∧
      c.validate = .ok () := by
  unfold ofFile
  cases t.readText file with
  | error cause => simp
  | ok content =>
      dsimp only
      cases hread : read content with
      | error cause => simp [hread]
      | ok written =>
          dsimp only
          cases hvalid : (written.anchor file).validate with
          | error problem =>
              simp only [reduceCtorEq, false_iff]
              rintro ⟨_, _, hcontent, hwritten, rfl, hok⟩
              obtain rfl := Except.ok.inj hcontent
              obtain rfl := Except.ok.inj (hread.symm.trans hwritten)
              cases hvalid.symm.trans hok
          | ok done =>
              constructor
              · intro h
                obtain rfl := Except.ok.inj h
                exact ⟨content, written, rfl, hread, rfl, hvalid⟩
              · rintro ⟨_, _, hcontent, hwritten, rfl, -⟩
                obtain rfl := Except.ok.inj hcontent
                obtain rfl := Except.ok.inj (hread.symm.trans hwritten)
                rfl

/-- The settings in a file are those of its text, with the root joined to the directory of the file. -/
theorem exists_written (h : ofFile t file = .ok c) : ∃ dir content written,
    file.parent? = some dir ∧ dir.isAbsolute = file.isAbsolute ∧ t.readText file = .ok content ∧
      read content = .ok written ∧ c = { written with root := dir.join written.root } ∧
      c.validate = .ok () := by
  obtain ⟨content, written, hcontent, hread, hanchor, hvalid⟩ := ofFile_eq_ok_iff.mp h
  obtain ⟨bytes, hfind, -⟩ := FileTree.readText_eq_ok_iff.mp hcontent
  obtain ⟨dir, hdir, habsolute⟩ := FileTree.exists_parent_of_find hfind
  exact ⟨dir, content, written, hdir, habsolute, hcontent, hread,
    hanchor ▸ anchor_of_parent hdir written, hvalid⟩

/-! ## §B Resolved paths -/

theorem resolve_of_expand (h : expand environment p = .ok e) : c.resolve environment p =
    if e.isAbsolute then .ok e else (expand environment c.root).map (·.join e) := by
  rw [resolve, h]
  simp only [bind, Except.bind, pure, Except.pure]
  split
  · rfl
  · cases expand environment c.root <;> rfl

theorem resolve_of_root {base : Path} (hroot : expand environment c.root = .ok base)
    (h : expand environment p = .ok e) : c.resolve environment p = .ok (base.join e) := by
  rw [resolve_of_expand h, hroot]
  split
  · rename_i habsolute
    rw [Path.join_of_absolute habsolute]
  · rfl

theorem resolve_eq_ok_iff {place : Path} (h : expand environment p = .ok e)
    (hrelative : e.isAbsolute = false) : c.resolve environment p = .ok place ↔
      ∃ base, expand environment c.root = .ok base ∧ place = base.join e := by
  rw [resolve_of_expand h, if_neg (by simp [hrelative])]
  cases expand environment c.root with
  | error cause => simp [Except.map]
  | ok base => simp [Except.map, eq_comm]

/-! ## §C The root of a file -/

/-- **`SeenAlike dir root r`** — a root that expands to `r` is where it is from whatever directory: it is
written as an absolute path, or there is no directory, or neither the directory nor a tilde stands in the
way of a relative path. -/
def SeenAlike (dir root r : Path) : Prop :=
  root.isAbsolute = true ∨ dir.text = "" ∨
    IsFixed dir ∧ ¬ ['~'] <+: root.text.toList ∧ r.isAbsolute = false

theorem expand_join_of_seenAlike {dir root r : Path} (halike : SeenAlike dir root r)
    (h : expand environment root = .ok r) : expand environment (dir.join root) = .ok (dir.join r) := by
  by_cases hroot : root.isAbsolute = true
  · rw [Path.join_of_absolute hroot, Path.join_of_absolute (Path.isAbsolute_expand hroot h), h]
  by_cases hdir : dir.text = ""
  · rw [Path.join_of_empty hdir, Path.join_of_empty hdir, h]
  obtain ⟨hfixed, htilde, hr⟩ := (halike.resolve_left hroot).resolve_left hdir
  -- Without a tilde the root expands to its values, which is what stands behind the directory.
  obtain ⟨values, hvalues, hhomed⟩ := expand_eq_ok_iff.mp h
  rw [Expansion.homed, if_neg htilde] at hhomed
  refine (expand_join_eq_ok_iff (Path.text_ne_nil_of_ne_empty hdir) (Bool.eq_false_iff.mpr hroot)
    fun hopen => absurd hopen hfixed.not_leavesOpen).mpr ⟨dir, values, hfixed.expand_eq, hvalues, ?_⟩
  rw [Path.join_of_relative hr, ← hhomed, String.ofList_toList]

/-- A relative path below a directory in which nothing is replaced leads below that directory. -/
theorem isAbsolute_of_expand_join {dir root base : Path} (hfixed : IsFixed dir) (hdir : dir.text ≠ "")
    (hroot : root.isAbsolute = false) (h : expand environment (dir.join root) = .ok base) :
    base.text.toList ≠ [] ∧ base.isAbsolute = dir.isAbsolute := by
  have hnil := Path.text_ne_nil_of_ne_empty hdir
  obtain ⟨d, values, hd, -, rfl⟩ := (expand_join_eq_ok_iff hnil hroot
    fun hopen => absurd hopen hfixed.not_leavesOpen).mp h
  obtain rfl := Except.ok.inj (hfixed.expand_eq.symm.trans hd)
  obtain ⟨ch, cs, hcs⟩ := List.exists_cons_of_ne_nil hnil
  have htext : (dir.text ++ dir.gap ++ String.ofList values).toList
      = ch :: (cs ++ dir.gap.toList ++ values) := by
    rw [String.toList_append, String.toList_append, String.toList_ofList, hcs]
    rfl
  refine ⟨htext ▸ List.cons_ne_nil _ _, ?_⟩
  rw [Bool.eq_iff_iff, Path.isAbsolute_iff, Path.isAbsolute_iff, hcs, htext]
  simp

/-- **`resolve_loaded`** — where the paths of a loaded configuration lead. An absolute path is what it
expands to. Other paths begin at the root as seen from the directory of the file, if that is where it is
from every directory; in general they begin at the directory after its own expansion, with the values in
the root behind it. Where nothing in the directory is replaced, a relative directory gives a relative place,
whatever the root expands to. -/
theorem resolve_loaded (h : ofFile t file = .ok c) : ∃ dir content written,
    file.parent? = some dir ∧ t.readText file = .ok content ∧ read content = .ok written ∧
    c = { written with root := dir.join written.root } ∧
    ∀ environment p e, expand environment p = .ok e →
      (e.isAbsolute = true → c.resolve environment p = .ok e) ∧
      (∀ r, expand environment written.root = .ok r → SeenAlike dir written.root r →
        c.resolve environment p = .ok ((dir.join r).join e)) ∧
      (written.root.isAbsolute = false → dir.text ≠ "" → e.isAbsolute = false →
        (LeavesOpen dir.text.toList → '}' ∉ written.root.text.toList) → ∀ place,
          (c.resolve environment p = .ok place ↔ ∃ d values,
            expand environment dir = .ok d ∧ substituted environment written.root = .ok values ∧
              place = Path.join ⟨d.text ++ dir.gap ++ String.ofList values⟩ e)) ∧
      (written.root.isAbsolute = false → dir.text ≠ "" → e.isAbsolute = false → IsFixed dir →
        ∀ place, c.resolve environment p = .ok place → place.isAbsolute = dir.isAbsolute) := by
  obtain ⟨dir, content, written, hdir, -, hcontent, hread, hroot, -⟩ := exists_written h
  have hroot' : c.root = dir.join written.root := by rw [hroot]
  refine ⟨dir, content, written, hdir, hcontent, hread, hroot, ?_⟩
  intro environment p e hexpand
  refine ⟨?_, ?_, ?_, ?_⟩
  · intro habsolute
    rw [resolve_of_expand hexpand, if_pos habsolute]
  · intro r hr halike
    exact resolve_of_root (hroot' ▸ expand_join_of_seenAlike halike hr) hexpand
  · intro hrelative htext he hopen place
    rw [resolve_eq_ok_iff hexpand he, hroot']
    simp only [expand_join_eq_ok_iff (Path.text_ne_nil_of_ne_empty htext) hrelative hopen]
    constructor
    · rintro ⟨_, ⟨d, values, hd, hvalues, rfl⟩, rfl⟩
      exact ⟨d, values, hd, hvalues, rfl⟩
    · rintro ⟨d, values, hd, hvalues, rfl⟩
      exact ⟨_, ⟨d, values, hd, hvalues, rfl⟩, rfl⟩
  · intro hrelative htext he hfixed place hplace
    obtain ⟨base, hbase, rfl⟩ := (resolve_eq_ok_iff hexpand he).mp hplace
    rw [hroot'] at hbase
    obtain ⟨hnil, habsolute⟩ := isAbsolute_of_expand_join hfixed htext hrelative hbase
    rw [Path.isAbsolute_join hnil he, habsolute]

/-! ## §D A root in the home directory -/

/-- The text reads as the settings. -/
def readsAs (s : String) (c : Config) : Bool :=
  match read s with
  | .ok found => found = c
  | .error _ => false

theorem read_of_readsAs {s : String} (h : readsAs s c = true) : read s = .ok c := by
  unfold readsAs at h
  split at h
  · rename_i found hfound
    rw [hfound, of_decide_eq_true h]
  · cases h

/-- A tree with one configuration file, in a directory of its own. -/
def holding (content : String) : FileTree where
  root := .directory [("conf", .directory [("x.yaml", .file content.toUTF8)])]
  workplace := []

theorem readText_holding (content : String) :
    (holding content).readText ⟨"conf/x.yaml"⟩ = .ok content := by
  refine FileTree.readText_eq_ok_iff.mpr ⟨_, ?_, FileTree.fromUTF8?_toUTF8 content⟩
  exact FileTree.find_of_names ["conf", "x.yaml"] (by decide) (by decide) rfl (FileNode.file_ne_link _)

theorem parent_holding : Path.parent? ⟨"conf/x.yaml"⟩ = some ⟨"conf"⟩ := by
  decide

def homeEnvironment : Environment := Table.ofList [("HOME", "/home/tester")]

/-- Settings with a root in the home directory. -/
def homeSettings : Config := { standard with root := ⟨"~/repo"⟩ }

set_option maxRecDepth 100000 in
theorem read_home : read "root: ~/repo\n" = .ok homeSettings := by
  refine read_of_readsAs ?_
  decide +kernel

theorem expand_plugins : expand homeEnvironment ⟨"plugins"⟩ = .ok ⟨"plugins"⟩ :=
  IsFixed.expand_eq ⟨by decide, by decide⟩

theorem ofFile_home :
    ofFile (holding "root: ~/repo\n") ⟨"conf/x.yaml"⟩ = .ok { homeSettings with root := ⟨"conf/~/repo"⟩ } := by
  refine ofFile_eq_ok_iff.mpr ⟨_, _, readText_holding _, read_home, ?_, ?_⟩
  · rw [anchor_of_parent parent_holding]
    decide
  · rfl

/-- The plugins are looked for below the configuration file, and not in the home directory. -/
theorem home_root_stays_below :
    ofFile (holding "root: ~/repo\n") ⟨"conf/x.yaml"⟩ = .ok { homeSettings with root := ⟨"conf/~/repo"⟩ } ∧
    pluginsDir homeEnvironment { homeSettings with root := ⟨"conf/~/repo"⟩ }
      = .ok ⟨"conf/~/repo/plugins"⟩ := by
  obtain ⟨dir, content, written, hdir, hcontent, hread, -, hplaces⟩ := resolve_loaded ofFile_home
  obtain rfl : dir = ⟨"conf"⟩ := Option.some.inj (hdir.symm.trans parent_holding)
  obtain rfl : content = "root: ~/repo\n" := Except.ok.inj (hcontent.symm.trans (readText_holding _))
  obtain rfl : written = homeSettings := Except.ok.inj (hread.symm.trans read_home)
  have hconf : IsFixed ⟨"conf"⟩ := ⟨by decide, by decide⟩
  obtain ⟨-, -, hlaw, -⟩ := hplaces homeEnvironment ⟨"plugins"⟩ ⟨"plugins"⟩ expand_plugins
  refine ⟨ofFile_home, (hlaw (by decide) (by decide) (by decide)
    (fun hopen => absurd hopen hconf.not_leavesOpen) _).mpr ⟨⟨"conf"⟩, "~/repo".toList, hconf.expand_eq,
    substituted_of_not_mem (by decide), by decide⟩⟩

/-- The root is not the same from every directory. -/
theorem root_moves_with_file : ¬ ∀ (t : FileTree) (file : Path) (c : Config), ofFile t file = .ok c →
    ∀ dir content written, file.parent? = some dir → t.readText file = .ok content →
      read content = .ok written → ∀ environment p e r, expand environment p = .ok e →
        expand environment written.root = .ok r →
          c.resolve environment p = .ok ((dir.join r).join e) := by
  intro h
  have hhome : expand homeEnvironment ⟨"~/repo"⟩ = .ok ⟨"/home/tester/repo"⟩ := by
    refine expand_eq_ok_iff.mpr ⟨"~/repo".toList, substituted_of_not_mem (by decide), ?_⟩
    decide
  have hclaimed := h (holding "root: ~/repo\n") ⟨"conf/x.yaml"⟩ _ ofFile_home _ _ _ parent_holding
    (readText_holding _) read_home homeEnvironment _ _ _ expand_plugins hhome
  have hfixed : IsFixed ⟨"conf/~/repo"⟩ := ⟨by decide, by decide⟩
  have hplace : pluginsDir homeEnvironment { homeSettings with root := ⟨"conf/~/repo"⟩ } = _ :=
    resolve_of_root hfixed.expand_eq expand_plugins
  exact absurd (Except.ok.inj (hclaimed.symm.trans hplace)) (by decide)

end Config

end PluginVet
