/-
# PluginVet.Proofs.Attempt — what an attempt to move leaves of a tree

Before anything is moved, the directory above the destination is made. If the move then fails, nothing is
taken back: the tree is as it was but for directories above the destination (`Prepared`). Where the
destination exists, where the path is refused, and where there is no directory to be moved, nothing has
been made yet.

If the move succeeds, the tree has been prepared in the same way, and one entry of it has gone from the
place that the plugin's path ends in to the place that the destination ends in (`Renamed`). All this
holds in any tree, with links in it or not, and for any two directories (`relocate_effects`).

§A one entry carried, §B attempts, §C a quarantine inside the plugin.
-/
import PluginVet.Proofs.FileTree.Growth
import PluginVet.Proofs.Workspace

namespace PluginVet

open Location (Along)

/-! ## §A One entry carried -/

namespace FileTree

variable {t t' : FileTree} {a b l : Location} {src dst : Path}

/-- What stands at the destination gives way to what comes there: an empty directory to a directory, a
file or a link to a file or a link. -/
def GivesWay (there : Option FileNode) (x : FileNode) : Prop :=
  there = none ∨ (there = some (.directory []) ∧ x.isDirectory = true) ∨
    ∃ old, there = some old ∧ old.isDirectory = false ∧ x.isDirectory = false

/-- **`Renamed a b t t'`** — `t'` is `t` with the entry at `a` carried to `b`; nothing else has changed. -/
inductive Renamed (a b : Location) (t : FileTree) : FileTree → Prop where
  | same (h : a = b) : Renamed a b t t
  | away {x : FileNode} (present : t.root.at? a = some x) (apart : ¬ Along a b)
      (holder : t.root.DirAt b.dropLast) (gives : GivesWay (t.root.at? b) x) :
      Renamed a b t { t with root := t.root.carry a b x }

/-- What stood at the old place and below it is found at the new one. -/
theorem Renamed.at?_destination (h : Renamed a b t t') (l : Location) :
    t'.root.at? (b ++ l) = t.root.at? (a ++ l) := by
  cases h with
  | same h => rw [h]
  | away present apart holder gives =>
      obtain ⟨hapart, hapart'⟩ := Location.not_along_iff.mp apart
      show (t.root.carry a b _).at? (b ++ l) = _
      rw [FileNode.at?_carry_destination holder hapart hapart', FileNode.at?_append, present]
      rfl

theorem Renamed.at?_source (h : Renamed a b t t') (hne : a ≠ b) (l : Location) :
    t'.root.at? (a ++ l) = none := by
  cases h with
  | same h => exact absurd h hne
  | away present apart holder gives =>
      obtain ⟨hapart, hapart'⟩ := Location.not_along_iff.mp apart
      exact FileNode.at?_carry_source (present ▸ rfl) hapart hapart' l

theorem Renamed.at?_of_apart (h : Renamed a b t t') (ha : ¬ Along a l) (hb : ¬ Along b l) :
    t'.root.at? l = t.root.at? l := by
  cases h with
  | same h => rfl
  | away present apart holder gives =>
      exact FileNode.at?_carry_of_apart (Location.not_along_iff.mp ha) (Location.not_along_iff.mp hb)

/-- Of two slots that are the same in no way, neither lies above the other. -/
theorem not_along_of_slots {a b : Slot} (hinside : ¬ a.location <+: b.directory)
    (habove : ¬ b.location <+: a.directory) (hne : a.location ≠ b.location) :
    ¬ Along a.location b.location := by
  rintro (h | h)
  · rcases List.prefix_concat_iff.mp h with heq | hpre
    · exact hne heq
    · exact hinside hpre
  · rcases List.prefix_concat_iff.mp h with heq | hpre
    · exact hne heq.symm
    · exact habove hpre

/-- **`renamed_of_rename`** — what has happened where a path was moved. -/
theorem renamed_of_rename (h : t.rename src dst = .ok t') :
    ∃ a b, t.ending src = .ok (.slot a) ∧ t.ending dst = .ok (.slot b) ∧
      Renamed a.location b.location t t' := by
  obtain ⟨a, b, hbefore, hafter⟩ := exists_slots_of_rename h
  refine ⟨a, b, hbefore, hafter, ?_⟩
  have hholder := dirAt_of_ending_slot hafter
  rw [rename, hbefore, hafter] at h
  cases hat : t.at? a.location with
  | none =>
      simp only [bind, Except.bind, hat] at h
      cases h
  | some x =>
      simp only [bind, Except.bind, hat] at h
      split at h
      · cases h
      split at h
      · cases h
      rename_i hinside
      split at h
      · cases h
      rename_i habove
      rw [List.isPrefixOf_iff_prefix] at hinside habove
      split at h
      · rename_i heq
        rw [← Except.ok.inj h]
        exact .same heq
      rename_i hne
      have hapart := not_along_of_slots hinside habove hne
      -- The entry is carried if nothing is in its way, or if what is there gives way.
      have hcarried : GivesWay (t.at? b.location) x ∧
          t' = (t.update a.location none).update b.location (some x) := by
        cases hthere : t.at? b.location with
        | none =>
            rw [hthere] at h
            exact ⟨Or.inl rfl, (Except.ok.inj h).symm⟩
        | some old =>
            rw [hthere] at h
            cases x with
            | directory es =>
                cases old with
                | directory held =>
                    cases held with
                    | nil => exact ⟨Or.inr (Or.inl ⟨rfl, rfl⟩), (Except.ok.inj h).symm⟩
                    | cons entry rest => cases h
                | file bytes => cases h
                | link target => cases h
            | file bytes =>
                cases old with
                | directory held => cases held <;> cases h
                | file bytes' => exact ⟨Or.inr (Or.inr ⟨_, rfl, rfl, rfl⟩), (Except.ok.inj h).symm⟩
                | link target => exact ⟨Or.inr (Or.inr ⟨_, rfl, rfl, rfl⟩), (Except.ok.inj h).symm⟩
            | link target =>
                cases old with
                | directory held => cases held <;> cases h
                | file bytes => exact ⟨Or.inr (Or.inr ⟨_, rfl, rfl, rfl⟩), (Except.ok.inj h).symm⟩
                | link target' => exact ⟨Or.inr (Or.inr ⟨_, rfl, rfl, rfl⟩), (Except.ok.inj h).symm⟩
      obtain ⟨hgives, rfl⟩ := hcarried
      exact .away hat hapart hholder hgives

end FileTree

/-! ## §B Attempts -/

namespace Quarantine

open FileTree (Prepared Renamed)

variable {q : Quarantine} {t : FileTree} {relPath : String}

theorem ensureParent_prepared (t : FileTree) (p : Path) : Prepared p t (ensureParent t p).1 := by
  unfold ensureParent
  split
  · rename_i parent hparent
    unfold ensureDirectory
    split
    · split <;> exact .start
    · exact FileTree.createChain_prepared _ (.parent hparent)
  · exact .start

/-- **`move_effects`** — a move that is refused at once leaves the tree as it was; any other prepares it first. -/
theorem move_effects (q : Quarantine) (t : FileTree) (relPath : String) :
    match q.move t relPath with
    | (t', some _) => Prepared (q.destination relPath) t t' ∧
        (isMovable relPath = false ∨ t.isDirectory (q.source relPath) = false → t' = t)
    | (t', none) => t.isDirectory (q.source relPath) = true ∧
        ∃ t₁, Prepared (q.destination relPath) t t₁ ∧
          t₁.rename (q.source relPath) (q.destination relPath) = .ok t' := by
  have hprepared := ensureParent_prepared t (q.destination relPath)
  rw [move]
  cases hmovable : isMovable relPath with
  | false => exact ⟨.start, fun _ => rfl⟩
  | true =>
      cases hdirectory : t.isDirectory (q.source relPath) with
      | false => exact ⟨.start, fun _ => rfl⟩
      | true =>
          have hnone : ∀ {tree : FileTree}, true = false ∨ true = false → tree = t := by
            rintro tree (h | h) <;> cases h
          simp only [Bool.not_true, Bool.false_eq_true, if_false]
          cases hready : ensureParent t (q.destination relPath) with
          | mk t₁ failure =>
              rw [hready] at hprepared
              cases failure with
              | some e => exact ⟨hprepared, hnone⟩
              | none =>
                  dsimp only
                  cases hrename : t₁.rename (q.source relPath) (q.destination relPath) with
                  | error e => exact ⟨hprepared, hnone⟩
                  | ok t₂ => exact ⟨trivial, t₁, hprepared, hrename⟩

/-- **`relocate_effects`** — a conflict leaves the tree as it was. A failure leaves it as it was but for
directories that were missing above the destination, and does not even make these where the path is
refused or leads to no directory. A move makes such directories, carries the entry that the plugin's
path ends in to the place that the destination ends in, and changes nothing else. -/
theorem relocate_effects (q : Quarantine) (t : FileTree) (relPath : String) :
    let r := q.relocate t relPath
    (∀ shown, r.outcome = .conflict shown → r.tree = t) ∧
      (∀ shown error, r.outcome = .failed shown error →
        Prepared (q.destination relPath) t r.tree ∧ t.root.GrowsTo r.tree.root ∧
          (isMovable relPath = false ∨ t.isDirectory (q.source relPath) = false → r.tree = t)) ∧
      (∀ shown, r.outcome = .moved shown → ∃ t₁ a b,
        Prepared (q.destination relPath) t t₁ ∧ t.root.GrowsTo t₁.root ∧
          t.ending (q.source relPath) = .ok (.slot a) ∧
          t₁.ending (q.destination relPath) = .ok (.slot b) ∧
          Renamed a.location b.location t₁ r.tree ∧
          (∀ l, r.tree.at? (b.location ++ l) = t₁.at? (a.location ++ l)) ∧
          (a.location ≠ b.location → ∀ l, r.tree.at? (a.location ++ l) = none) ∧
          ∀ l, ¬ Along a.location l → ¬ Along b.location l → r.tree.at? l = t₁.at? l) := by
  dsimp only
  rw [relocate]
  split
  · -- The destination exists, and nothing has been touched.
    refine ⟨fun _ _ => rfl, fun shown error h => ?_, fun shown h => ?_⟩
    · cases h
    · cases h
  · have heffects := move_effects q t relPath
    cases hmove : q.move t relPath with
    | mk t' failure =>
        rw [hmove] at heffects
        cases failure with
        | some e =>
            obtain ⟨hprepared, hrefused⟩ := heffects
            refine ⟨fun shown h => ?_, fun shown error _ => ?_, fun shown h => ?_⟩
            · cases h
            · exact ⟨hprepared, hprepared.growsTo.1, hrefused⟩
            · cases h
        | none =>
            obtain ⟨hdirectory, t₁, hprepared, hrename⟩ := heffects
            refine ⟨fun shown h => ?_, fun shown error h => ?_, fun shown _ => ?_⟩
            · cases h
            · cases h
            · obtain ⟨hgrow, hplace⟩ := hprepared.growsTo
              obtain ⟨a, b, hsource, hdestination, hrenamed⟩ := FileTree.renamed_of_rename hrename
              -- The plugin's path was that of a directory, and making others has not changed its end.
              obtain ⟨e, hend⟩ := FileTree.exists_ending_of_isDirectory hdirectory
              have hsame := FileTree.ending_of_growsTo hgrow hplace hend
              rw [hsource] at hsame
              obtain rfl := Except.ok.inj hsame
              exact ⟨t₁, a, b, hprepared, hgrow, hend, hdestination, hrenamed,
                hrenamed.at?_destination, hrenamed.at?_source, fun l => hrenamed.at?_of_apart⟩

/-! ## §C A quarantine inside the plugin -/

/-- A quarantine directory inside the plugin `a`. -/
def inward : Quarantine := ⟨⟨"/plugins"⟩, ⟨"/plugins/a/held"⟩⟩

theorem inward_paths : inward.source "a" = ⟨"/plugins/a"⟩ ∧
    inward.destination "a" = ⟨"/plugins/a/held/a"⟩ ∧
    (inward.destination "a").parent? = some ⟨"/plugins/a/held"⟩ := by
  decide

/-- The tree with one plugin in which that directory has been made. -/
def withHeld : FileTree :=
  (FileTree.small FileTree.onePlugin).update ["plugins", "a", "held"] (some (.directory []))

theorem proper_withHeld : withHeld.Proper := by
  refine FileNode.Proper.update (FileTree.proper_small FileTree.proper_onePlugin) fun m hm => ?_
  obtain rfl := Option.some.inj hm
  exact ⟨FileNode.proper_empty, by decide⟩

theorem dirAt_onePlugin : ∀ l ∈ [[], ["plugins"], ["plugins", "a"]],
    (FileTree.small FileTree.onePlugin).root.DirAt l := by
  simp only [List.forall_mem_cons, List.not_mem_nil, false_imp_iff, implies_true, and_true]
  exact ⟨⟨_, rfl⟩, ⟨_, rfl⟩, ⟨_, rfl⟩⟩

theorem dirAt_withHeld : ∀ l ∈ [[], ["plugins"], ["plugins", "a"], ["plugins", "a", "held"]],
    withHeld.root.DirAt l := by
  simp only [List.forall_mem_cons, List.not_mem_nil, false_imp_iff, implies_true, and_true]
  exact ⟨⟨_, rfl⟩, ⟨_, rfl⟩, ⟨_, rfl⟩, ⟨_, rfl⟩⟩

theorem not_exists_small {p : Path} (h : (FileTree.small FileTree.onePlugin).root.at?
    ((FileTree.small FileTree.onePlugin).placeOf p) = none) :
    (FileTree.small FileTree.onePlugin).exists? p = false := by
  rw [Bool.eq_false_iff]
  intro hexists
  obtain ⟨x, hfind, -⟩ := FileTree.holds_iff.mp hexists
  have hat := ((FileTree.find_eq_ok_iff (FileTree.proper_small FileTree.proper_onePlugin)).mp
    hfind).2.2
  cases hat.symm.trans h

theorem ensureParent_inward :
    ensureParent (FileTree.small FileTree.onePlugin) (inward.destination "a") = (withHeld, none) := by
  have ht := FileTree.proper_small FileTree.proper_onePlugin
  have hmissing : (FileTree.small FileTree.onePlugin).exists? ⟨"/plugins/a/held"⟩ = false :=
    not_exists_small rfl
  have hend : (FileTree.small FileTree.onePlugin).ending ⟨"/plugins/a/held"⟩
      = .ok (.slot ⟨["plugins", "a"], "held", false⟩) :=
    (FileTree.ending_eq_ok_iff ht).mpr ⟨by decide, dirAt_onePlugin, rfl⟩
  rw [ensureParent, inward_paths.2.2]
  show ensureDirectory _ _ = _
  rw [ensureDirectory, hmissing]
  simp only [Bool.false_eq_true, if_false]
  rw [FileTree.createDirectories, FileTree.createChain, FileTree.createDirectory, FileTree.create, hend]
  rfl

/-- A directory is not moved into itself. -/
theorem rename_inward :
    withHeld.rename (inward.source "a") (inward.destination "a") = .error .invalidArgument := by
  have hbefore : withHeld.ending ⟨"/plugins/a"⟩ = .ok (.slot ⟨["plugins"], "a", false⟩) := by
    refine (FileTree.ending_eq_ok_iff proper_withHeld).mpr ⟨by decide, fun l hl => ?_, rfl⟩
    exact dirAt_withHeld l (List.mem_append_left [["plugins", "a"], ["plugins", "a", "held"]] hl)
  have hafter : withHeld.ending ⟨"/plugins/a/held/a"⟩
      = .ok (.slot ⟨["plugins", "a", "held"], "a", false⟩) :=
    (FileTree.ending_eq_ok_iff proper_withHeld).mpr ⟨by decide, dirAt_withHeld, rfl⟩
  rw [inward_paths.1, inward_paths.2.1, FileTree.rename, hbefore, hafter]
  rfl

/-- **`failed_attempt_leaves_directory`** — the attempt fails, and the directory made for it stays. -/
theorem failed_attempt_leaves_directory :
    (inward.relocate (.small FileTree.onePlugin) "a").outcome
        = .failed "plugins/a/held/a" "Invalid argument (os error 22)" ∧
      (inward.relocate (.small FileTree.onePlugin) "a").tree ≠ .small FileTree.onePlugin := by
  have ht := FileTree.proper_small FileTree.proper_onePlugin
  have hmissing : (FileTree.small FileTree.onePlugin).exists? (inward.destination "a") = false := by
    rw [inward_paths.2.1]
    exact not_exists_small rfl
  have hdirectory : (FileTree.small FileTree.onePlugin).isDirectory (inward.source "a") = true := by
    rw [inward_paths.1]
    exact (FileTree.isDirectory_iff ht).mpr ⟨by decide, dirAt_onePlugin⟩
  have hmovable : isMovable "a" = true := by decide
  have hmove : inward.move (.small FileTree.onePlugin) "a"
      = (withHeld, some (.file .invalidArgument)) := by
    rw [move, hmovable, hdirectory, ensureParent_inward]
    simp only [Bool.not_true, Bool.false_eq_true, if_false, rename_inward]
  have hshown : inward.display (inward.destination "a") = "plugins/a/held/a" := by decide
  rw [relocate, hmissing, hmove, hshown]
  refine ⟨rfl, fun h => ?_⟩
  -- The directory `held` is in the one tree and not in the other.
  have hat : withHeld.at? ["plugins", "a", "held"]
      = (FileTree.small FileTree.onePlugin).at? ["plugins", "a", "held"] :=
    congrArg (FileTree.at? · _) h
  cases hat

end Quarantine

end PluginVet
