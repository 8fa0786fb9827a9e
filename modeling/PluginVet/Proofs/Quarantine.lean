/-
# PluginVet.Proofs.Quarantine — what an attempt to move a plugin does to the tree

The quarantine tree lies at a plain path `dir` below the plugins directory. An attempt to move a plugin
makes directories on the way to it and, if it succeeds, carries the plugin's directory to the same names
behind `dir` (`relocate_cases`, `relocate_moves`). There the plugin is found as it was
(`at?_relocate_destination`). An attempt changes nothing else, whatever path it is given
(`at?_relocate_of_apart`); so a plugin that has been moved rests (`at?_relocate_of_gone`).

§A plugins in the quarantine tree, §B moving, §C later attempts.
-/
import PluginVet.Proofs.FileTree.Change
import PluginVet.Quarantine

namespace PluginVet

/-! ## §A Plugins in the quarantine tree -/

theorem Path.drop_eq_some_iff {cs cs' rest : List Path.Component} :
    Path.below?.drop cs cs' = some rest ↔ cs' = cs ++ rest := by
  induction cs generalizing cs' with
  | nil =>
      show some cs' = some rest ↔ cs' = rest
      exact Option.some_inj
  | cons c cs ih =>
      cases cs' with
      | nil =>
          constructor
          · intro h
            cases h
          · intro h
            cases h
      | cons c' cs' =>
          rw [Path.below?.drop]
          by_cases hc : c = c'
          · rw [if_pos hc, ih, hc, List.cons_append, List.cons.injEq]
            exact ⟨fun h => ⟨rfl, h⟩, fun h => h.2⟩
          · rw [if_neg hc]
            constructor
            · intro h
              cases h
            · intro h
              exact absurd (List.cons.inj h).1.symm hc

theorem Path.below?_eq_some_iff {base p : Path} {rest : List Path.Component} :
    Path.below? base p = some rest ↔ p.components = base.components ++ rest :=
  Path.drop_eq_some_iff

theorem Path.startsWith_iff {base p : Path} :
    p.startsWith base = true ↔ base.components <+: p.components := by
  rw [startsWith, Option.isSome_iff_exists]
  constructor
  · rintro ⟨rest, hrest⟩
    exact ⟨rest, (below?_eq_some_iff.mp hrest).symm⟩
  · rintro ⟨rest, hrest⟩
    exact ⟨rest, below?_eq_some_iff.mpr hrest.symm⟩

namespace Quarantine

open Location (Along)
open FileTree (Moves)

variable {pluginsDir dir : Path} {t : FileTree} {relPath : String}

/-- The quarantine at `dir` below the plugins directory. -/
abbrev below (pluginsDir dir : Path) : Quarantine := ⟨pluginsDir, pluginsDir.join dir⟩

/-- The guard refuses the empty path and whatever does not consist of names. -/
theorem isMovable_iff :
    isMovable relPath = true ↔ relPath.toList ≠ [] ∧ Path.isContained ⟨relPath⟩ = true := by
  rw [isMovable, Bool.and_eq_true, Bool.not_eq_true', ← Bool.not_eq_true, String.isEmpty_iff,
    ← String.toList_inj]
  rfl

section Below

variable (hroot : pluginsDir.text.toList ≠ []) (hdir : dir.isPlain = true)
include hroot hdir

theorem isQuarantined_iff (hrel : Path.isAbsolute ⟨relPath⟩ = false) :
    (below pluginsDir dir).isQuarantined relPath = true ↔
      dir.names.map .name <+: (Path.trail ⟨relPath⟩).filterMap Path.Step.component? := by
  obtain ⟨hcontained, -, -⟩ := Path.isPlain_spec hdir
  obtain ⟨hrelative, htrail⟩ := Path.isContained_iff.mp hcontained
  show (pluginsDir.join ⟨relPath⟩).startsWith (pluginsDir.join dir) = true ↔ _
  rw [Path.startsWith_iff, Path.components_join hroot hrelative, Path.components_join hroot hrel,
    List.prefix_append_right_inj, htrail, Path.filterMap_component?_map_into]

theorem isQuarantined_iff_of_contained (hrel : Path.isContained ⟨relPath⟩ = true) :
    (below pluginsDir dir).isQuarantined relPath = true ↔ dir.names <+: Path.names ⟨relPath⟩ := by
  obtain ⟨hrelative, htrail⟩ := Path.isContained_iff.mp hrel
  have hinj : Function.Injective Path.Component.name := fun _ _ h => Path.Component.name.inj h
  rw [isQuarantined_iff hroot hdir hrelative, htrail, Path.filterMap_component?_map_into]
  exact List.prefix_map_iff_of_injective hinj

/-- A path that begins with the names of the quarantine directory lies in the quarantine tree. -/
theorem isQuarantined_of_startsWith (h : Path.startsWith ⟨relPath⟩ dir = true) :
    (below pluginsDir dir).isQuarantined relPath = true := by
  obtain ⟨-, hne, hcomponents⟩ := Path.isPlain_spec hdir
  rw [Path.startsWith_iff, hcomponents, Path.components_eq] at h
  obtain ⟨name, rest, hnames⟩ := List.exists_cons_of_ne_nil hne
  -- A name in front excludes a root and a leading point.
  have hleading : Path.leading ⟨relPath⟩ = [] := by
    cases hlead : Path.leading ⟨relPath⟩ with
    | nil => rfl
    | cons c cs =>
        rw [hnames, hlead] at h
        obtain ⟨rfl, -⟩ := List.cons_prefix_cons.mp h
        unfold Path.leading at hlead
        split at hlead
        · cases hlead
        · split at hlead <;> cases hlead
  have hrel : Path.isAbsolute ⟨relPath⟩ = false := by
    rw [Bool.eq_false_iff]
    intro habs
    rw [Path.leading, if_pos habs] at hleading
    cases hleading
  rw [isQuarantined_iff hroot hdir hrel]
  rwa [hleading, List.nil_append] at h

end Below

/-! ## §B Moving -/

/-- **`Attempted pluginsDir dir t relPath t₁`** — as far as its path and its destination go the plugin can
be moved, and `t₁` is the tree once the directories above the destination are made. -/
structure Attempted (pluginsDir dir : Path) (t : FileTree) (relPath : String) (t₁ : FileTree) :
    Prop where
  contained : Path.isContained ⟨relPath⟩ = true
  opened : t.OpenTo pluginsDir
  present : t.root.DirAt (t.placeOf pluginsDir ++ Path.names ⟨relPath⟩)
  free : t.exists? ((below pluginsDir dir).destination relPath) = false
  made : ∀ towards, towards <+: dir.names ++ Path.names ⟨relPath⟩ →
    Moves (t.placeOf pluginsDir) towards t [] t₁

theorem Attempted.at?_made {t₁ : FileTree} {l : Location} (h : Attempted pluginsDir dir t relPath t₁)
    (hl : ¬ Along (t.placeOf pluginsDir ++ dir.names ++ Path.names ⟨relPath⟩) l) :
    t₁.root.at? l = t.root.at? l := by
  refine (h.made _ (List.prefix_refl _)).at?_of_apart (fun ns hns => absurd hns List.not_mem_nil) ?_
  rwa [← List.append_assoc]

section Below

variable (hroot : pluginsDir.text.toList ≠ []) (hdir : dir.isPlain = true)
include hroot hdir

/-- The path of the destination, behind that of the plugins directory. -/
theorem destination_spec (hrel : Path.isContained ⟨relPath⟩ = true) :
    ((below pluginsDir dir).destination relPath).trail
        = pluginsDir.trail ++ (dir.names ++ Path.names ⟨relPath⟩).map .into ∧
      ((below pluginsDir dir).destination relPath).isAbsolute = pluginsDir.isAbsolute := by
  obtain ⟨hcontained, -, -⟩ := Path.isPlain_spec hdir
  obtain ⟨hrelative, -⟩ := Path.isContained_iff.mp hcontained
  have hjoin := Path.text_join_ne_nil hroot hrelative
  show ((pluginsDir.join dir).join ⟨relPath⟩).trail = _ ∧
    ((pluginsDir.join dir).join ⟨relPath⟩).isAbsolute = _
  constructor
  · rw [FileTree.trail_join_contained hjoin hrel, FileTree.trail_join_contained hroot hcontained,
      List.append_assoc, List.map_append]
  · rw [Path.isAbsolute_join hjoin (Path.isContained_iff.mp hrel).1,
      Path.isAbsolute_join hroot hrelative]

/-- What is made lies on the way to the destination, and so on the way to all that lies above it. -/
theorem ensureParent_moves {towards : Location} (ht : t.Proper) (hopen : t.OpenTo pluginsDir)
    (hrel : Path.isContained ⟨relPath⟩ = true)
    (htowards : towards <+: dir.names ++ Path.names ⟨relPath⟩) :
    Moves (t.placeOf pluginsDir) towards t []
      (ensureParent t ((below pluginsDir dir).destination relPath)).1 := by
  obtain ⟨-, hne, -⟩ := Path.isPlain_spec hdir
  obtain ⟨htrail, habs⟩ := destination_spec hroot hdir hrel
  obtain ⟨upper, last, hnames⟩ := (List.eq_nil_or_concat
    (dir.names ++ Path.names ⟨relPath⟩)).resolve_left (List.append_ne_nil_of_left_ne_nil hne _)
  rw [List.concat_eq_append] at hnames
  rw [hnames, List.map_append, ← List.append_assoc] at htrail
  obtain ⟨parent, hparent, hptrail, hpabs⟩ := Path.trail_parent? htrail
  have halong : Along towards upper := by
    refine Location.along_of_common htowards ?_
    rw [hnames]
    exact List.prefix_append upper [last]
  rw [ensureParent, hparent]
  show Moves _ _ t [] (ensureDirectory t parent).1
  unfold ensureDirectory
  split
  · split <;> exact .start
  · exact FileTree.createDirectories_moves ht hopen hptrail (hpabs.trans habs) halong

/-- Where a contained plugin and its destination lie. -/
theorem placeOf_below (hrel : Path.isContained ⟨relPath⟩ = true) (t : FileTree) :
    t.placeOf ((below pluginsDir dir).source relPath)
        = t.placeOf pluginsDir ++ Path.names ⟨relPath⟩ ∧
      t.placeOf ((below pluginsDir dir).destination relPath)
        = t.placeOf pluginsDir ++ dir.names ++ Path.names ⟨relPath⟩ := by
  obtain ⟨htrail, habs⟩ := destination_spec hroot hdir hrel
  rw [List.append_assoc]
  exact ⟨FileTree.placeOf_join hroot hrel t, FileTree.placeOf_behind htrail habs t⟩

theorem move_cases (ht : t.Proper)
    (hfree : t.exists? ((below pluginsDir dir).destination relPath) = false) :
    (((below pluginsDir dir).move t relPath).1 = t ∧
        ((below pluginsDir dir).move t relPath).2 ≠ none) ∨
      ∃ t₁, Attempted pluginsDir dir t relPath t₁ ∧
        ((((below pluginsDir dir).move t relPath).1 = t₁ ∧
            ((below pluginsDir dir).move t relPath).2 ≠ none) ∨
          ∃ t₂, t₁.rename ((below pluginsDir dir).source relPath)
              ((below pluginsDir dir).destination relPath) = .ok t₂ ∧
            (below pluginsDir dir).move t relPath = (t₂, none)) := by
  rw [move]
  split
  · exact Or.inl ⟨rfl, Option.some_ne_none _⟩
  · rename_i hmovable
    rw [Bool.not_eq_true, Bool.not_eq_false', isMovable_iff] at hmovable
    split
    · exact Or.inl ⟨rfl, Option.some_ne_none _⟩
    · rename_i hdirectory
      rw [Bool.not_eq_true, Bool.not_eq_false', FileTree.isDirectory_iff ht] at hdirectory
      obtain ⟨hopen, hpresent⟩ := (FileTree.openTo_join_iff hroot hmovable.2).mp hdirectory.2
      refine Or.inr ⟨_, ⟨hmovable.2, hopen, hpresent, hfree,
        fun _ => ensureParent_moves hroot hdir ht hopen hmovable.2⟩, ?_⟩
      -- From here on a failure leaves the directories that have been made.
      split
      · rename_i hfailed
        rw [hfailed]
        exact Or.inl ⟨rfl, Option.some_ne_none _⟩
      · rename_i hready
        rw [hready]
        split
        · rename_i hrename
          exact Or.inr ⟨_, hrename, rfl⟩
        · exact Or.inl ⟨rfl, Option.some_ne_none _⟩

/-- **`relocate_cases`** — an attempt leaves the tree as it was, or makes directories, or makes them and
moves the plugin. -/
theorem relocate_cases (ht : t.Proper) (relPath : String) :
    let r := (below pluginsDir dir).relocate t relPath
    (r.tree = t ∧ r.outcome.isMoved = false) ∨
      ∃ t₁, Attempted pluginsDir dir t relPath t₁ ∧
        ((r.tree = t₁ ∧ r.outcome.isMoved = false) ∨
          (t₁.rename ((below pluginsDir dir).source relPath)
              ((below pluginsDir dir).destination relPath) = .ok r.tree ∧
            r.outcome.isMoved = true)) := by
  dsimp only
  unfold relocate
  dsimp only
  split
  · exact Or.inl ⟨rfl, rfl⟩
  · rename_i hexists
    have hcases := move_cases hroot hdir ht (Bool.eq_false_iff.mpr hexists)
    split
    · rename_i t₂ hmoved
      rw [hmoved] at hcases
      rcases hcases with ⟨-, hfailed⟩ | ⟨t₁, hattempted, ⟨-, hfailed⟩ | ⟨t₂, hrename, heq⟩⟩
      · exact absurd rfl hfailed
      · exact absurd rfl hfailed
      · obtain ⟨rfl, -⟩ := Prod.mk.inj heq
        exact Or.inr ⟨t₁, hattempted, Or.inr ⟨hrename, rfl⟩⟩
    · rename_i t₂ e hfailed
      rw [hfailed] at hcases
      rcases hcases with ⟨htree, -⟩ | ⟨t₁, hattempted, ⟨htree, -⟩ | ⟨t₂, -, heq⟩⟩
      · exact Or.inl ⟨htree, rfl⟩
      · exact Or.inr ⟨t₁, hattempted, Or.inl ⟨htree, rfl⟩⟩
      · cases (Prod.mk.inj heq).2

/-- A move that succeeds carries the plugin's directory to a place apart from it. -/
theorem Attempted.renamed {t₁ t₂ : FileTree} (h : Attempted pluginsDir dir t relPath t₁)
    (ht : t.Proper) (hrename : t₁.rename ((below pluginsDir dir).source relPath)
      ((below pluginsDir dir).destination relPath) = .ok t₂) :
    let src := t.placeOf pluginsDir ++ Path.names ⟨relPath⟩
    let dst := t.placeOf pluginsDir ++ dir.names ++ Path.names ⟨relPath⟩
    ¬ Along dst src ∧ t₁.root.DirAt dst.dropLast ∧
      (t₁.root.at? dst = none ∨ t₁.root.at? dst = some (.directory [])) ∧
      ∃ es, t₁.root.at? src = some (.directory es) ∧
        t₂ = { t₁ with root := t₁.root.carry src dst (.directory es) } := by
  intro src dst
  obtain ⟨-, hne, -⟩ := Path.isPlain_spec hdir
  have hmade := h.made _ (List.prefix_refl _)
  have hsrc : t₁.placeOf ((below pluginsDir dir).source relPath) = src := by
    rw [hmade.placeOf_eq]
    exact (placeOf_below hroot hdir h.contained t).1
  have hdst : t₁.placeOf ((below pluginsDir dir).destination relPath) = dst := by
    rw [hmade.placeOf_eq]
    exact (placeOf_below hroot hdir h.contained t).2
  have hlonger : src.length < dst.length := by
    have hpos := List.length_pos_of_ne_nil hne
    simp only [src, dst, List.length_append]
    omega
  -- Making the directory above the destination has left the plugin in place.
  obtain ⟨es, hes⟩ : t₁.root.DirAt src :=
    hmade.dirAt (fun ns hns => absurd hns List.not_mem_nil) h.present
  have hdistinct : src ≠ dst := fun heq => Nat.ne_of_lt hlonger (congrArg List.length heq)
  rw [← hsrc, ← hdst] at hdistinct
  obtain ⟨hholder, hinside, hfree, heq⟩ :=
    FileTree.rename_eq_ok (hmade.proper ht) (by rwa [hsrc]) hrename hdistinct
  rw [hsrc, hdst] at heq hinside
  rw [hdst] at hholder hfree
  refine ⟨?_, hholder, hfree, es, hes, heq⟩
  -- A directory is not moved into itself.
  rintro (hpre | hpre)
  · exact absurd hpre.length_le (Nat.not_le_of_lt hlonger)
  · refine hinside (List.prefix_of_prefix_length_le hpre (List.dropLast_prefix dst) ?_)
    rw [List.length_dropLast]
    omega

/-- **`relocate_moves`** — an attempt to move a plugin carries its directory or makes nothing but
directories. -/
theorem relocate_moves (ht : t.Proper)
    (hout : (below pluginsDir dir).isQuarantined relPath = false) :
    Moves (t.placeOf pluginsDir) dir.names t
      (if ((below pluginsDir dir).relocate t relPath).outcome.isMoved then [Path.names ⟨relPath⟩]
        else [])
      ((below pluginsDir dir).relocate t relPath).tree := by
  rcases relocate_cases hroot hdir ht relPath with
    ⟨htree, hmoved⟩ | ⟨t₁, hattempted, ⟨htree, hmoved⟩ | ⟨hrename, hmoved⟩⟩
  · rw [htree, hmoved]
    exact .start
  · rw [htree, hmoved]
    exact hattempted.made _ (List.prefix_append _ _)
  · obtain ⟨hapart, hholder, hfree, es, hes, htree⟩ := hattempted.renamed hroot hdir ht hrename
    rw [htree, hmoved]
    refine Moves.carry (hattempted.made _ (List.prefix_append _ _)) ?_ hes hholder hfree
    -- A plugin whose names lead towards the quarantine tree would be moved into itself.
    rintro (hpre | hpre)
    · rw [← isQuarantined_iff_of_contained hroot hdir hattempted.contained, hout] at hpre
      exact Bool.false_ne_true hpre
    · refine hapart (Or.inr ?_)
      rw [List.append_assoc, List.prefix_append_right_inj]
      exact hpre.trans (List.prefix_append _ _)

/-- An attempt changes nothing but what lies along the destination and, if the plugin is moved, along
the plugin. -/
theorem at?_relocate_of_apart {l : Location} (ht : t.Proper)
    (hdst : ¬ Along (t.placeOf pluginsDir ++ dir.names ++ Path.names ⟨relPath⟩) l)
    (hsrc : ((below pluginsDir dir).relocate t relPath).outcome.isMoved = true →
      ¬ Along (t.placeOf pluginsDir ++ Path.names ⟨relPath⟩) l) :
    ((below pluginsDir dir).relocate t relPath).tree.root.at? l = t.root.at? l := by
  rcases relocate_cases hroot hdir ht relPath with
    ⟨htree, -⟩ | ⟨t₁, hattempted, hcases⟩
  · rw [htree]
  · have hmade := hattempted.at?_made hdst
    rcases hcases with ⟨htree, -⟩ | ⟨hrename, hmoved⟩
    · rw [htree, hmade]
    · obtain ⟨-, -, -, es, -, htree⟩ := hattempted.renamed hroot hdir ht hrename
      rw [htree, ← hmade]
      exact FileNode.at?_carry_of_apart (Location.not_along_iff.mp (hsrc hmoved))
        (Location.not_along_iff.mp hdst)

/-- **`at?_relocate_destination`** — what is moved is found at the destination as it was. -/
theorem at?_relocate_destination (ht : t.Proper)
    (hmoved : ((below pluginsDir dir).relocate t relPath).outcome.isMoved = true) :
    ((below pluginsDir dir).relocate t relPath).tree.root.at?
        (t.placeOf pluginsDir ++ dir.names ++ Path.names ⟨relPath⟩)
      = t.root.at? (t.placeOf pluginsDir ++ Path.names ⟨relPath⟩) := by
  rcases relocate_cases hroot hdir ht relPath with
    ⟨-, hno⟩ | ⟨t₁, hattempted, ⟨-, hno⟩ | ⟨hrename, -⟩⟩
  · cases hno.symm.trans hmoved
  · cases hno.symm.trans hmoved
  · obtain ⟨hapart, hholder, -, es, hes, htree⟩ := hattempted.renamed hroot hdir ht hrename
    have hmade := hattempted.at?_made hapart
    obtain ⟨hinside, houtside⟩ := Location.not_along_iff.mp hapart
    have hcarried : ∀ node, (t₁.root.carry _ _ node).at? _ = node.at? [] := fun node =>
      FileNode.at?_carry_destination hholder houtside hinside []
    simp only [List.append_nil] at hcarried
    rw [htree, ← hmade, hes]
    exact hcarried (.directory es)

section Free

variable {m : List String} {name : String} (ht : t.Proper) (hopen : t.OpenTo pluginsDir)
  (hrel : Path.isContained ⟨relPath⟩ = true) (hnames : Path.names ⟨relPath⟩ = m ++ [name])
  (hholder : t.root.DirAt (t.placeOf pluginsDir ++ (dir.names ++ m)))
include ht hopen hrel hnames hholder

/-- The directory that is to hold the plugin is left as it is. -/
theorem ensureParent_of_dirAt :
    ensureParent t ((below pluginsDir dir).destination relPath) = (t, none) := by
  obtain ⟨-, hne, -⟩ := Path.isPlain_spec hdir
  obtain ⟨htrail, habs⟩ := destination_spec hroot hdir hrel
  rw [hnames, ← List.append_assoc, List.map_append, ← List.append_assoc] at htrail
  obtain ⟨parent, hparent, hptrail, hpabs⟩ := Path.trail_parent? htrail
  have htext : parent.text.toList ≠ [] := by
    refine Path.text_ne_nil_of_trail fun hnil => ?_
    rw [hptrail, List.map_append, List.append_eq_nil_iff, List.append_eq_nil_iff] at hnil
    exact hne (List.map_eq_nil_iff.mp hnil.2.1)
  have hdirectory : t.isDirectory parent = true := (FileTree.isDirectory_iff ht).mpr
    ⟨htext, (FileTree.openTo_behind_iff hptrail (hpabs.trans habs)).mpr ⟨hopen, hholder⟩⟩
  rw [ensureParent, hparent]
  show ensureDirectory t parent = (t, none)
  rw [ensureDirectory, if_pos (FileTree.exists?_of_isDirectory hdirectory), if_pos hdirectory]

variable (hlast : (Path.lead ⟨relPath⟩).getLast? = some (.into name))
  (hpresent : t.root.DirAt (t.placeOf pluginsDir ++ (m ++ [name])))
  (hapart : ¬ Along dir.names (m ++ [name]))
  (hfree : t.root.at? (t.placeOf pluginsDir ++ (dir.names ++ m ++ [name])) = none)
include hlast hpresent hapart hfree

theorem exists_rename_of_free : ∃ t', t.rename ((below pluginsDir dir).source relPath)
    ((below pluginsDir dir).destination relPath) = .ok t' := by
  obtain ⟨hcontained, -, -⟩ := Path.isPlain_spec hdir
  obtain ⟨hrelative, -⟩ := Path.isContained_iff.mp hrel
  have hjoin := Path.text_join_ne_nil hroot (Path.isContained_iff.mp hcontained).1
  have hends : ∀ base : Path, base.text.toList ≠ [] →
      (base.join ⟨relPath⟩).lead.getLast? = some (.into name) := by
    intro base hbase
    rw [Path.lead_join hbase hrelative, List.getLast?_append, hlast]
    rfl
  obtain ⟨es, hes⟩ := hpresent
  obtain ⟨htrail, habs⟩ := destination_spec hroot hdir hrel
  rw [hnames, ← List.append_assoc] at htrail
  have hsource := FileTree.trail_join_contained hroot hrel
  rw [hnames] at hsource
  have hfrom : t.root.DirAt (t.placeOf pluginsDir ++ m) := by
    refine FileNode.dirAt_of_at?_append (r := [name]) (List.cons_ne_nil _ _) ?_
    rw [List.append_assoc, hes]
    rfl
  -- Both paths end in slots of directories that exist.
  obtain ⟨a, ha, hsrc, -⟩ := FileTree.ending_behind ht (Path.text_join_ne_nil hroot hrelative)
    hsource (FileTree.isAbsolute_join_contained hroot hrel) (hends _ hroot) hopen hfrom
  obtain ⟨b, hb, hdst, hbelow⟩ := FileTree.ending_behind ht (Path.text_join_ne_nil hjoin hrelative)
    htrail habs (hends _ hjoin) hopen hholder
  have hat : t.at? a.location = some (.directory es) := by
    rw [hsrc]
    exact hes
  refine FileTree.exists_rename ha hb hat ?_ ?_
  · rw [hdst]
    exact hfree
  · rw [hsrc, hbelow, List.prefix_append_right_inj]
    exact fun h => hapart (Location.along_of_common (List.prefix_append dir.names m) h)

/-- **`isMoved_relocate`** — a plugin that lies apart from the quarantine directory is moved where its
place there is free. -/
theorem isMoved_relocate : ((below pluginsDir dir).relocate t relPath).outcome.isMoved = true := by
  obtain ⟨htrail, habs⟩ := destination_spec hroot hdir hrel
  have hmissing : t.exists? ((below pluginsDir dir).destination relPath) = false := by
    rw [Bool.eq_false_iff]
    intro h
    obtain ⟨x, hfind, -⟩ := FileTree.holds_iff.mp h
    have hat := ((FileTree.find_eq_ok_iff ht).mp hfind).2.2
    rw [FileTree.placeOf_behind htrail habs, hnames, ← List.append_assoc dir.names] at hat
    cases hat.symm.trans hfree
  have hmovable : isMovable relPath = true := by
    refine isMovable_iff.mpr ⟨fun htext => ?_, hrel⟩
    obtain rfl : relPath = "" := String.toList_inj.mp htext
    exact List.append_ne_nil_of_right_ne_nil m (List.cons_ne_nil name []) hnames.symm
  have hdirectory : t.isDirectory ((below pluginsDir dir).source relPath) = true := by
    refine (FileTree.isDirectory_iff ht).mpr
      ⟨Path.text_join_ne_nil hroot (Path.isContained_iff.mp hrel).1, ?_⟩
    refine (FileTree.openTo_join_iff hroot hrel).mpr ⟨hopen, ?_⟩
    rw [hnames]
    exact hpresent
  obtain ⟨t', hrename⟩ :=
    exists_rename_of_free hroot hdir ht hopen hrel hnames hholder hlast hpresent hapart hfree
  have hmove : (below pluginsDir dir).move t relPath = (t', none) := by
    rw [move, hmovable, hdirectory, ensureParent_of_dirAt hroot hdir ht hopen hrel hnames hholder]
    simp only [Bool.not_true, Bool.false_eq_true, if_false, hrename]
  simp only [relocate, hmissing, Bool.false_eq_true, if_false, hmove]
  rfl

end Free

/-! ## §C Later attempts -/

/-- The path of a destination leads to the directory there. -/
theorem isDirectory_destination (ht : t.Proper) (hrel : Path.isContained ⟨relPath⟩ = true)
    (hopen : t.OpenTo pluginsDir)
    (h : t.root.DirAt (t.placeOf pluginsDir ++ (dir.names ++ Path.names ⟨relPath⟩))) :
    t.isDirectory ((below pluginsDir dir).destination relPath) = true := by
  obtain ⟨htrail, habs⟩ := destination_spec hroot hdir hrel
  obtain ⟨hcontained, -, -⟩ := Path.isPlain_spec hdir
  have hjoin := Path.text_join_ne_nil hroot (Path.isContained_iff.mp hcontained).1
  exact (FileTree.isDirectory_iff ht).mpr
    ⟨Path.text_join_ne_nil hjoin (Path.isContained_iff.mp hrel).1,
      (FileTree.openTo_behind_iff htrail habs).mpr ⟨hopen, h⟩⟩

/-- What is moved was a directory that its path led to. -/
theorem isDirectory_source_of_moved (ht : t.Proper)
    (hmoved : ((below pluginsDir dir).relocate t relPath).outcome.isMoved = true) :
    t.isDirectory ((below pluginsDir dir).source relPath) = true := by
  rcases relocate_cases hroot hdir ht relPath with
    ⟨-, hno⟩ | ⟨t₁, hattempted, -⟩
  · cases hno.symm.trans hmoved
  · have hrel := hattempted.contained
    exact (FileTree.isDirectory_iff ht).mpr
      ⟨Path.text_join_ne_nil hroot (Path.isContained_iff.mp hrel).1,
        (FileTree.openTo_join_iff hroot hrel).mpr ⟨hattempted.opened, hattempted.present⟩⟩

/-- **`at?_relocate_of_gone`** — an attempt leaves alone what stands at the destination of names under
which there is no plugin any more. -/
theorem at?_relocate_of_gone {m : Location} (ht : t.Proper)
    (hout : (below pluginsDir dir).isQuarantined relPath = false)
    (hgone : t.root.at? (t.placeOf pluginsDir ++ m) = none)
    (hthere : t.root.DirAt (t.placeOf pluginsDir ++ (dir.names ++ m))) :
    ((below pluginsDir dir).relocate t relPath).tree.root.at?
        (t.placeOf pluginsDir ++ (dir.names ++ m))
      = t.root.at? (t.placeOf pluginsDir ++ (dir.names ++ m)) := by
  rcases relocate_cases hroot hdir ht relPath with
    ⟨htree, -⟩ | ⟨t₁, hattempted, -⟩
  · rw [htree]
  · have hapart : ¬ Along (Path.names ⟨relPath⟩) m := by
      rintro (⟨r, rfl⟩ | ⟨r, hr⟩)
      · -- Above what stands there the destination is a directory, so the attempt is a conflict.
        rw [← List.append_assoc dir.names] at hthere
        have htaken := isDirectory_destination hroot hdir ht hattempted.contained hattempted.opened
          (hthere.above (List.prefix_append _ r))
        cases hattempted.free.symm.trans (FileTree.exists?_of_isDirectory htaken)
      · -- Below what is gone there is no plugin to be moved.
        obtain ⟨es, hes⟩ := hattempted.present
        rw [← hr, ← List.append_assoc, FileNode.at?_append_eq_none hgone] at hes
        cases hes
    refine at?_relocate_of_apart hroot hdir ht ?_ fun hmoved => ?_
    · rwa [List.append_assoc, Location.along_append_iff, Location.along_append_iff]
    · have hmoves := relocate_moves hroot hdir ht hout
      rw [if_pos hmoved] at hmoves
      have hapart' := hmoves.not_along (List.mem_singleton.mpr rfl)
      rw [Location.along_append_iff]
      rintro (hpre | hpre)
      · exact hapart' (Location.along_of_common (List.prefix_append _ m) hpre)
      · exact hapart' (Or.inl ((List.prefix_append _ m).trans hpre))

end Below

/-- What the guard refuses is not moved. -/
theorem isMovable_of_moved {q : Quarantine} (h : (q.relocate t relPath).outcome.isMoved = true) :
    isMovable relPath = true := by
  unfold relocate at h
  dsimp only at h
  split at h
  · cases h
  · split at h
    · rename_i t' hmoved
      rw [move] at hmoved
      split at hmoved
      · cases (Prod.mk.inj hmoved).2
      · rename_i hmovable
        rwa [Bool.not_eq_true, Bool.not_eq_false'] at hmovable
    · cases h

/-- What is moved has a contained path. -/
theorem isContained_of_moved {q : Quarantine} (h : (q.relocate t relPath).outcome.isMoved = true) :
    Path.isContained ⟨relPath⟩ = true :=
  (isMovable_iff.mp (isMovable_of_moved h)).2

end Quarantine

end PluginVet
