/-
# PluginVet.Proofs.FileTree.Change — what operations on a tree come down to

Making directories and moving one are single changes at the place of a path (`create_eq_ok`,
`rename_eq_ok`). Making a chain of directories below an open path never touches that path and adds
nothing but empty directories (`createDirectories_moves`).

§A one directory, §B chains of directories, §C moving.
-/
import PluginVet.Proofs.FileTree.Moves
import PluginVet.Proofs.FileTree.Route

namespace PluginVet.FileTree

open Location (Along)
open PluginVet.Path (Step)

variable {t t' : FileTree} {p base src dst : Path} {node : FileNode} {aside : Location}
  {m : List String}

/-- A path means the same place in both trees, and leads through the same ones. -/
theorem Moves.placeOf_eq {root : Location} {moved : List Location}
    (h : Moves root aside t moved t') (p : Path) : t'.placeOf p = t.placeOf p := by
  rw [placeOf, placeOf, h.workplace]

theorem Moves.wayTo_eq {root : Location} {moved : List Location}
    (h : Moves root aside t moved t') (p : Path) : t'.wayTo p = t.wayTo p := by
  rw [wayTo, wayTo, h.workplace]

/-! ## §A One directory -/

theorem create_eq_ok (ht : t.Proper) (h : t.create p node = .ok t') :
    t.root.DirAt (t.placeOf p).dropLast ∧ t.root.at? (t.placeOf p) = none ∧
      (∀ name ∈ (t.placeOf p).getLast?, Path.IsEntryName name) ∧
      t' = t.update (t.placeOf p) (some node) := by
  rw [create] at h
  cases hend : t.ending p with
  | error e =>
      rw [hend] at h
      cases h
  | ok e =>
      rw [hend] at h
      cases e with
      | fixed => cases h
      | slot s =>
          obtain ⟨hplace, hdir, hname⟩ := ending_eq_slot ht hend
          rw [← hplace, s.dropLast_location]
          cases hat : t.at? s.location with
          | some x =>
              simp only [bind, Except.bind, hat] at h
              cases h
          | none =>
              simp only [bind, Except.bind, hat] at h
              refine ⟨hdir, hat, fun name hlast => ?_, (Except.ok.inj h).symm⟩
              rw [Slot.location, List.getLast?_concat] at hlast
              exact Option.some.inj hlast ▸ hname

/-- Where a path leads to a directory already, nothing is made. -/
theorem createDirectory_of_openTo (ht : t.Proper) (hp : p.text.toList ≠ []) (hopen : t.OpenTo p) :
    t.createDirectory p = .error .exists := by
  obtain ⟨e, hend⟩ := ending_of_openTo ht hp hopen
  rw [createDirectory, create, hend]
  cases e with
  | fixed => rfl
  | slot s =>
      obtain ⟨hplace, -, -⟩ := ending_eq_slot ht hend
      obtain ⟨es, hes⟩ := hopen.dirAt
      have hat : t.at? s.location = some (.directory es) := by
        rw [hplace]
        exact hes
      simp only [bind, Except.bind, hat]

/-! ## §B Chains of directories -/

theorem createDirectory_moves (ht : t.Proper) (hp : p.trail = base.trail ++ m.map .into)
    (habs : p.isAbsolute = base.isAbsolute) (halong : aside.Along m)
    (h : t.createDirectory p = .ok t') : Moves (t.placeOf base) aside t [] t' := by
  obtain ⟨hdir, hvacant, hname, rfl⟩ := create_eq_ok ht h
  refine .make .start ?_ hdir hvacant hname
  rw [placeOf_behind hp habs]
  exact Location.along_append_iff.mpr halong

/-- **`createChain_moves`** — a chain of directories is made behind an open path, whose own directories
are never missing. -/
theorem createChain_moves (ht : t.Proper) (hopen : t.OpenTo base) (fuel : Nat)
    (hp : p.trail = base.trail ++ m.map .into) (habs : p.isAbsolute = base.isAbsolute)
    (halong : aside.Along m) : Moves (t.placeOf base) aside t [] (createChain fuel t p).1 := by
  induction fuel generalizing p m with
  | zero => exact .start
  | succ fuel ih =>
      rw [createChain]
      split
      · exact .start
      · rename_i htext
        have htext : p.text.toList ≠ [] := fun h =>
          htext (String.isEmpty_iff.mpr (String.toList_inj.mp h))
        split
        · rename_i t' hmade
          exact createDirectory_moves ht hp habs halong hmade
        · rename_i hnotFound
          rcases List.eq_nil_or_concat m with rfl | ⟨upper, last, rfl⟩
          · -- The directory to be made is the open one, so it cannot be missing.
            have hopen' : t.OpenTo p := by
              rw [List.map_nil, List.append_nil] at hp
              intro l hl
              rw [wayTo, hp, origin, habs] at hl
              exact hopen l hl
            rw [createDirectory_of_openTo ht htext hopen'] at hnotFound
            cases hnotFound
          · rw [List.concat_eq_append] at hp halong
            have hp' : p.trail = (base.trail ++ upper.map .into) ++ [.into last] := by
              rw [hp, List.map_append, List.append_assoc]
              rfl
            -- The directories above are made first, on the way to the same place.
            obtain ⟨q, hparent, hq, hqabs⟩ := Path.trail_parent? hp'
            rw [hparent]
            have hupper : aside.Along upper := by
              rcases halong with h | h
              · exact Location.along_of_common h (List.prefix_append upper [last])
              · exact Or.inr ((List.prefix_append upper [last]).trans h)
            have hchain := ih hq (hqabs.trans habs) hupper
            dsimp only
            split
            · rename_i t' hfirst
              rw [hfirst] at hchain
              unfold createOrKeep
              split
              · rename_i t'' hmade
                have h := createDirectory_moves (hchain.proper ht) hp habs halong hmade
                rw [hchain.placeOf_eq] at h
                exact hchain.trans h
              · split <;> exact hchain
            · rename_i t' e hfirst
              rw [hfirst] at hchain
              exact hchain
        · split <;> exact .start

theorem createDirectories_moves (ht : t.Proper) (hopen : t.OpenTo base)
    (hp : p.trail = base.trail ++ m.map .into) (habs : p.isAbsolute = base.isAbsolute)
    (halong : aside.Along m) : Moves (t.placeOf base) aside t [] (t.createDirectories p).1 :=
  createChain_moves ht hopen _ hp habs halong

/-! ## §C Moving -/

/-- Only slots are renamed. -/
theorem exists_slots_of_rename (h : t.rename src dst = .ok t') :
    ∃ a b, t.ending src = .ok (.slot a) ∧ t.ending dst = .ok (.slot b) := by
  rw [rename] at h
  cases hbefore : t.ending src with
  | error e =>
      rw [hbefore] at h
      cases h
  | ok before =>
      cases hafter : t.ending dst with
      | error e =>
          rw [hbefore, hafter] at h
          cases h
      | ok after =>
          rw [hbefore, hafter] at h
          cases before with
          | fixed => cases h
          | slot a =>
              cases after with
              | fixed => cases h
              | slot b => exact ⟨a, b, rfl, rfl⟩

/-- **`rename_eq_ok`** — what has happened where a directory was moved. -/
theorem rename_eq_ok {es : List (String × FileNode)} (ht : t.Proper)
    (hsrc : t.root.at? (t.placeOf src) = some (.directory es))
    (h : t.rename src dst = .ok t') (hne : t.placeOf src ≠ t.placeOf dst) :
    t.root.DirAt (t.placeOf dst).dropLast ∧ ¬ t.placeOf src <+: (t.placeOf dst).dropLast ∧
      (t.root.at? (t.placeOf dst) = none ∨ t.root.at? (t.placeOf dst) = some (.directory [])) ∧
      t' = { t with root := t.root.carry (t.placeOf src) (t.placeOf dst) (.directory es) } := by
  obtain ⟨a, b, hbefore, hafter⟩ := exists_slots_of_rename h
  obtain ⟨ha, -, -⟩ := ending_eq_slot ht hbefore
  obtain ⟨hb, hdir, -⟩ := ending_eq_slot ht hafter
  rw [← ha] at hsrc hne ⊢
  rw [← hb] at hne ⊢
  rw [b.dropLast_location]
  have hat : t.at? a.location = some (.directory es) := hsrc
  rw [rename, hbefore, hafter] at h
  simp only [bind, Except.bind, hat, FileNode.isDirectory, Bool.not_true, Bool.and_false,
    Bool.false_eq_true, if_false, if_neg hne] at h
  split at h
  · cases h
  · rename_i hinside
    split at h
    · cases h
    · refine ⟨hdir, fun hpre => hinside (List.isPrefixOf_iff_prefix.mpr hpre), ?_⟩
      -- What is at the destination gives way only if it is an empty directory.
      cases hfree : t.at? b.location with
      | none =>
          rw [hfree] at h
          exact ⟨Or.inl hfree, (Except.ok.inj h).symm⟩
      | some x =>
          rw [hfree] at h
          cases x with
          | file bytes => cases h
          | link target => cases h
          | directory held =>
              cases held with
              | cons entry rest => cases h
              | nil => exact ⟨Or.inr hfree, (Except.ok.inj h).symm⟩

/-- A directory can be moved to a free place that is not inside it. -/
theorem exists_rename {a b : Slot} {es : List (String × FileNode)}
    (hbefore : t.ending src = .ok (.slot a)) (hafter : t.ending dst = .ok (.slot b))
    (hsrc : t.at? a.location = some (.directory es)) (hfree : t.at? b.location = none)
    (hinside : ¬ a.location <+: b.directory) : ∃ t', t.rename src dst = .ok t' := by
  have hdistinct : a.location ≠ b.location := by
    intro h
    rw [h, hfree] at hsrc
    cases hsrc
  have habove : ¬ b.location <+: a.directory := by
    rintro ⟨r, hr⟩
    have hgone : t.root.at? (b.location ++ (r ++ [a.name])) = none :=
      FileNode.at?_append_eq_none hfree _
    rw [← List.append_assoc, hr] at hgone
    cases hsrc.symm.trans hgone
  rw [← List.isPrefixOf_iff_prefix] at hinside habove
  rw [rename, hbefore, hafter]
  simp only [bind, Except.bind, hsrc, hfree, FileNode.isDirectory, Bool.not_true, Bool.and_false,
    Bool.false_eq_true, if_false, if_neg hinside, if_neg habove, if_neg hdistinct]
  exact ⟨_, rfl⟩

end PluginVet.FileTree
