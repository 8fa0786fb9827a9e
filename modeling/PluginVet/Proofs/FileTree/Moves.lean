/-
# PluginVet.Proofs.FileTree.Moves — directories carried to another part of a tree

`Moves base aside t moved t'` says how `t'` comes out of `t`: empty directories are made on the way to
the part `base ++ aside`, and directories from below `base` are carried into it, each to its own path
there. What such a sequence of changes does to the files is an induction over it: every file of `t` is
found again at one place (`fileAt?_carriedTo`), no two of them meet there (`carriedTo_injective`), and
`t'` has no other files (`exists_carriedTo`).

What lies apart from the carried directories and from `base ++ aside` is untouched (`Moves.at?_of_apart`).

§A one directory carried, §B sequences of changes, §C what they leave alone, §D where files go.
-/
import PluginVet.Proofs.FileTree.Update

namespace PluginVet

/-! ## §A One directory carried -/

namespace FileNode

variable {n node : FileNode} {src dst l r : Location}

theorem at?_update_self_append (hl : l ≠ []) (hdir : n.DirAt l.dropLast) (new : Option FileNode)
    (r : Location) : (n.update new l).at? (l ++ r) = new.bind fun m => m.at? r := by
  obtain ⟨before, name, rfl⟩ := (List.eq_nil_or_concat l).resolve_left hl
  rw [List.concat_eq_append, List.dropLast_concat] at hdir
  rw [List.concat_eq_append]
  exact at?_update_append hdir new name r

/-- The tree with the node at `src` put to `dst`. -/
def carry (n : FileNode) (src dst : Location) (node : FileNode) : FileNode :=
  (n.update none src).update (some node) dst

section Carry

variable (hsrc : (n.at? src).isSome) (hdst : n.DirAt dst.dropLast) (hapart : ¬ src <+: dst)
  (hapart' : ¬ dst <+: src)

include hapart in
theorem ne_nil_of_apart : src ≠ [] := fun h => hapart (h ▸ List.nil_prefix)

include hsrc hapart in
theorem dirAt_dropLast_source : n.DirAt src.dropLast := by
  refine dirAt_of_at?_append (r := [src.getLast (ne_nil_of_apart hapart)]) (List.cons_ne_nil _ _) ?_
  rwa [List.dropLast_append_getLast]

include hdst hapart in
theorem dirAt_update_dropLast : (n.update none src).DirAt dst.dropLast :=
  (dirAt_update_iff fun h => hapart (h.trans (List.dropLast_prefix dst))).mpr hdst

include hdst hapart hapart' in
theorem at?_carry_destination (r : Location) :
    (n.carry src dst node).at? (dst ++ r) = node.at? r :=
  at?_update_self_append (ne_nil_of_apart hapart') (dirAt_update_dropLast hdst hapart) _ r

include hsrc hapart hapart' in
theorem at?_carry_source (r : Location) : (n.carry src dst node).at? (src ++ r) = none := by
  have hsource : (n.carry src dst node).at? src = none := by
    rw [carry, at?_update_of_apart hapart' hapart]
    have h := at?_update_self_append (ne_nil_of_apart hapart) (dirAt_dropLast_source hsrc hapart)
      none []
    rwa [List.append_nil] at h
  exact at?_append_eq_none hsource r

theorem at?_carry_of_apart (h : ¬ src <+: l ∧ ¬ l <+: src) (h' : ¬ dst <+: l ∧ ¬ l <+: dst) :
    (n.carry src dst node).at? l = n.at? l := by
  rw [carry, at?_update_of_apart h'.1 h'.2, at?_update_of_apart h.1 h.2]

theorem dirAt_carry_iff (h : ¬ src <+: l) (h' : ¬ dst <+: l) :
    (n.carry src dst node).DirAt l ↔ n.DirAt l := by
  rw [carry, dirAt_update_iff h', dirAt_update_iff h]

theorem fileAt?_carry (h : ¬ src <+: l) (h' : ¬ dst <+: l) :
    (n.carry src dst node).fileAt? l = n.fileAt? l := by
  rw [carry, fileAt?_update h', fileAt?_update h]

end Carry

/-! An empty directory made where there was nothing. -/

section Make

variable (hl : n.DirAt l.dropLast) (hvacant : n.at? l = none)

include hvacant in
theorem ne_nil_of_vacant : l ≠ [] := by
  rintro rfl
  exact absurd hvacant (Option.some_ne_none n)

include hl hvacant in
theorem at?_make (h : ¬ r <+: l) :
    (n.update (some (.directory [])) l).at? r = n.at? r := by
  by_cases hr : l <+: r
  · obtain ⟨rest, rfl⟩ := hr
    rw [at?_update_self_append (ne_nil_of_vacant hvacant) hl, at?_append_eq_none hvacant]
    cases rest with
    | nil =>
        rw [List.append_nil] at h
        exact absurd (List.prefix_refl l) h
    | cons name rest' => rfl
  · exact at?_update_of_apart hr h

include hl hvacant in
theorem fileAt?_make (r : Location) :
    (n.update (some (.directory [])) l).fileAt? r = n.fileAt? r := by
  by_cases hr : r <+: l
  · by_cases hlr : l <+: r
    · obtain rfl : r = l := hr.eq_of_length_le hlr.length_le
      have hnew : (n.update (some (.directory [])) r).DirAt r := by
        have h := at?_update_self_append (ne_nil_of_vacant hvacant) hl (some (.directory [])) []
        rw [List.append_nil] at h
        exact ⟨[], h⟩
      rw [hnew.fileAt?_eq_none, fileAt?, hvacant]
    · exact fileAt?_update hlr
  · exact fileAt?_congr (at?_make hl hvacant hr)

end Make

end FileNode

/-! ## §B Sequences of changes -/

/-- One of two locations lies at or below the other. -/
def Location.Along (l l' : Location) : Prop := l <+: l' ∨ l' <+: l

namespace Location

variable {base l l' l'' : Location}

theorem along_of_common (h : l <+: l'') (h' : l' <+: l'') : l.Along l' :=
  List.prefix_or_prefix_of_prefix h h'

theorem along_append_iff : Along (base ++ l) (base ++ l') ↔ l.Along l' := by
  rw [Along, Along, List.prefix_append_right_inj, List.prefix_append_right_inj]

theorem not_along_iff : ¬ l.Along l' ↔ ¬ l <+: l' ∧ ¬ l' <+: l := not_or

end Location

namespace FileTree

open Location (Along along_of_common along_append_iff not_along_iff)

/-- **`Moves base aside t moved t'`** — `t'` comes out of `t` by making empty directories on the way to
`base ++ aside` and below, and by carrying the directories `moved` from below `base` into it. -/
inductive Moves (base aside : Location) (t : FileTree) : List Location → FileTree → Prop where
  | start : Moves base aside t [] t
  | make {moved : List Location} {t' : FileTree} {l : Location}
      (before : Moves base aside t moved t') (along : Along (base ++ aside) l)
      (holder : t'.root.DirAt l.dropLast) (vacant : t'.root.at? l = none)
      (spelled : ∀ name ∈ l.getLast?, Path.IsEntryName name) :
      Moves base aside t moved (t'.update l (some (.directory [])))
  | carry {moved : List Location} {t' : FileTree} {ns : Location}
      {es : List (String × FileNode)}
      (before : Moves base aside t moved t') (outside : ¬ aside.Along ns)
      (present : t'.root.at? (base ++ ns) = some (.directory es))
      (holder : t'.root.DirAt (base ++ aside ++ ns).dropLast)
      (free : t'.root.at? (base ++ aside ++ ns) = none ∨
        t'.root.at? (base ++ aside ++ ns) = some (.directory [])) :
      Moves base aside t (moved ++ [ns])
        { t' with root := t'.root.carry (base ++ ns) (base ++ aside ++ ns) (.directory es) }

variable {base aside ns l l' : Location} {t t' t'' : FileTree} {moved moved' : List Location}
  {bytes bytes' : ByteArray}

theorem Moves.trans (h : Moves base aside t moved t') (h' : Moves base aside t' moved' t'') :
    Moves base aside t (moved ++ moved') t'' := by
  induction h' with
  | start => rwa [List.append_nil]
  | make _ along holder vacant spelled ih => exact .make ih along holder vacant spelled
  | carry _ outside present holder free ih =>
      rw [← List.append_assoc]
      exact .carry ih outside present holder free

theorem Moves.not_along (h : Moves base aside t moved t') (hns : ns ∈ moved) :
    ¬ aside.Along ns := by
  induction h with
  | start => exact absurd hns List.not_mem_nil
  | make _ _ _ _ _ ih => exact ih hns
  | carry _ outside _ _ _ ih =>
      rcases List.mem_append.mp hns with hns | hns
      · exact ih hns
      · obtain rfl := List.mem_singleton.mp hns
        exact outside

/-- The place of a carried directory and the place that it is carried to lie apart. -/
theorem source_apart (base : Location) (h : ¬ aside.Along ns) :
    ¬ base ++ ns <+: base ++ aside ++ ns ∧ ¬ base ++ aside ++ ns <+: base ++ ns := by
  rw [List.append_assoc, ← not_along_iff, along_append_iff]
  rintro (hns | hns)
  · exact h (along_of_common (List.prefix_append aside ns) hns)
  · exact h (Or.inl ((List.prefix_append aside ns).trans hns))

theorem Moves.workplace (h : Moves base aside t moved t') : t'.workplace = t.workplace := by
  induction h with
  | start => rfl
  | make _ _ _ _ _ ih => exact ih
  | carry _ _ _ _ _ ih => exact ih

theorem Moves.proper (h : Moves base aside t moved t') (ht : t.Proper) : t'.Proper := by
  induction h with
  | start => exact ht
  | make _ _ _ _ spelled ih =>
      refine FileNode.Proper.update ih fun m hm => ?_
      obtain rfl := Option.some.inj hm
      exact ⟨FileNode.proper_empty, spelled⟩
  | @carry _ t' ns es _ _ present _ _ ih =>
      obtain ⟨hnode, hspelled⟩ := FileNode.Proper.at? ih present
      have hremoved : (t'.root.update none (base ++ ns)).Proper :=
        FileNode.Proper.update ih fun m hm => absurd hm.symm (Option.some_ne_none m)
      refine FileNode.Proper.update hremoved fun m hm => ?_
      obtain rfl := Option.some.inj hm
      refine ⟨hnode, fun name hname => ?_⟩
      -- The last name stays what it was, and that one is in the tree.
      cases ns with
      | nil =>
          rename_i outside _ _
          exact absurd (Or.inr List.nil_prefix) outside
      | cons x xs =>
          refine hspelled name (List.mem_append_right base ?_)
          rw [List.getLast?_append_of_ne_nil _ (List.cons_ne_nil x xs)] at hname
          exact List.mem_of_getLast? hname

/-! ## §C What they leave alone -/

theorem along_of_below_aside (h : base ++ aside <+: l') (h' : Along l' l) :
    Along (base ++ aside) l := by
  rcases h' with h' | h'
  · exact Or.inl (h.trans h')
  · exact along_of_common h h'

theorem along_of_above (h : Along (base ++ aside) l') (h' : l <+: l') : Along (base ++ aside) l := by
  rcases h with h | h
  · exact along_of_common h h'
  · exact Or.inr (h'.trans h)

theorem prefix_aside (base aside ns : Location) : base ++ aside <+: base ++ aside ++ ns :=
  List.prefix_append _ _

/-- A carried directory is no longer where it was. -/
theorem Moves.gone (h : Moves base aside t moved t') (hns : ns ∈ moved) :
    t'.root.at? (base ++ ns) = none := by
  induction h with
  | start => exact absurd hns List.not_mem_nil
  | @make _ t' l before along holder vacant _ ih =>
      -- What is made lies on the way to `base ++ aside` or below it, so nothing comes back.
      have hno := before.not_along hns
      show (t'.root.update _ l).at? (base ++ ns) = none
      rw [FileNode.at?_make holder vacant, ih hns]
      exact fun hpre => hno (along_append_iff.mp (along_of_above along hpre))
  | @carry _ t' ns' es before outside present holder _ ih =>
      obtain ⟨hapart, hapart'⟩ := source_apart base outside
      have hsrc : (t'.root.at? (base ++ ns')).isSome := by rw [present]; rfl
      rcases List.mem_append.mp hns with hns | hns
      · have hno := before.not_along hns
        by_cases hbelow : base ++ ns' <+: base ++ ns
        · obtain ⟨r, hr⟩ := hbelow
          rw [← hr]
          exact FileNode.at?_carry_source hsrc hapart hapart' r
        · -- Had a directory above the new one been carried before, the new one would be missing.
          have habove : ¬ base ++ ns <+: base ++ ns' := by
            rintro ⟨r, hr⟩
            rw [← hr, FileNode.at?_append_eq_none (ih hns)] at hsrc
            exact absurd hsrc Bool.false_ne_true
          have hdst : ¬ Along (base ++ aside ++ ns') (base ++ ns) := by
            rw [List.append_assoc, along_append_iff]
            rintro (h | h)
            · exact hno (Or.inl ((List.prefix_append aside ns').trans h))
            · exact hno (along_of_common (List.prefix_append aside ns') h)
          show (t'.root.carry _ _ _).at? (base ++ ns) = none
          rw [FileNode.at?_carry_of_apart ⟨hbelow, habove⟩ (not_along_iff.mp hdst), ih hns]
      · obtain rfl := List.mem_singleton.mp hns
        have h : (t'.root.carry (base ++ ns) (base ++ aside ++ ns) (.directory es)).at?
            (base ++ ns ++ []) = none := FileNode.at?_carry_source hsrc hapart hapart' []
        rwa [List.append_nil] at h

/-- What lies apart from the carried directories and from where they go to is untouched. -/
theorem Moves.at?_of_apart (h : Moves base aside t moved t')
    (hmoved : ∀ ns ∈ moved, ¬ Along (base ++ ns) l) (haside : ¬ Along (base ++ aside) l) :
    t'.root.at? l = t.root.at? l := by
  induction h with
  | start => rfl
  | @make _ t' l' _ along holder vacant _ ih =>
      show (t'.root.update _ l').at? l = t.root.at? l
      rw [FileNode.at?_make holder vacant fun h => haside (along_of_above along h), ih hmoved]
  | @carry moved' t' ns' es _ _ _ _ _ ih =>
      have hsrc : ¬ Along (base ++ ns') l := hmoved ns' (by simp)
      have hdst : ¬ Along (base ++ aside ++ ns') l :=
        fun h => haside (along_of_below_aside (prefix_aside base aside ns') h)
      show (t'.root.carry _ _ _).at? l = t.root.at? l
      rw [FileNode.at?_carry_of_apart (not_along_iff.mp hsrc) (not_along_iff.mp hdst)]
      exact ih fun ns hns => hmoved ns (List.mem_append_left _ hns)

/-- A directory stays one unless it is carried away. -/
theorem Moves.dirAt (h : Moves base aside t moved t') (hmoved : ∀ ns ∈ moved, ¬ base ++ ns <+: l)
    (hl : t.root.DirAt l) : t'.root.DirAt l := by
  induction h with
  | start => exact hl
  | @make _ t' l' _ _ _ vacant _ ih =>
      have hdir := ih hmoved
      refine (FileNode.dirAt_update_iff ?_).mpr hdir
      rintro ⟨r, rfl⟩
      obtain ⟨es, hes⟩ := hdir
      rw [FileNode.at?_append_eq_none vacant] at hes
      exact absurd hes.symm (Option.some_ne_none _)
  | @carry moved' t' ns' es _ outside _ holder free ih =>
      have hdir := ih fun ns hns => hmoved ns (List.mem_append_left _ hns)
      obtain ⟨hapart, hapart'⟩ := source_apart base outside
      by_cases hdst : base ++ aside ++ ns' <+: l
      · obtain ⟨r, rfl⟩ := hdst
        -- Below the free place there was no directory but an empty one in the place itself.
        obtain ⟨es', hes'⟩ := hdir
        rw [FileNode.at?_append] at hes'
        rcases free with hfree | hfree
        · rw [hfree] at hes'
          exact absurd hes'.symm (Option.some_ne_none _)
        · rw [hfree] at hes'
          cases r with
          | nil => exact ⟨es, FileNode.at?_carry_destination holder hapart hapart' []⟩
          | cons name rest => exact absurd hes'.symm (Option.some_ne_none _)
      · exact (FileNode.dirAt_carry_iff (hmoved ns' (by simp)) hdst).mpr hdir

theorem Moves.dirAt_iff (h : Moves base aside t moved t')
    (hmoved : ∀ ns ∈ moved, ¬ base ++ ns <+: l) (haside : ¬ Along (base ++ aside) l) :
    t'.root.DirAt l ↔ t.root.DirAt l := by
  refine ⟨fun hl => ?_, h.dirAt hmoved⟩
  induction h with
  | start => exact hl
  | @make _ t' l' _ along holder vacant _ ih =>
      refine ih hmoved ?_
      obtain ⟨es, hes⟩ := hl
      have hsame := FileNode.at?_make holder vacant fun h => haside (along_of_above along h)
      exact ⟨es, hsame.symm.trans hes⟩
  | @carry moved' t' ns' es _ _ _ _ _ ih =>
      refine ih (fun ns hns => hmoved ns (List.mem_append_left _ hns)) ?_
      refine (FileNode.dirAt_carry_iff (hmoved ns' (by simp)) fun hdst => ?_).mp hl
      exact haside (Or.inl ((prefix_aside base aside ns').trans hdst))

/-- What was carried away had been a directory from the beginning. -/
theorem Moves.dirAt_source (h : Moves base aside t moved t') (hns : ns ∈ moved) :
    t.root.DirAt (base ++ ns) := by
  induction h with
  | start => exact absurd hns List.not_mem_nil
  | make _ _ _ _ _ ih => exact ih hns
  | @carry moved' t' ns' es before outside present _ _ ih =>
      rcases List.mem_append.mp hns with hns | hns
      · exact ih hns
      · obtain rfl := List.mem_singleton.mp hns
        have hmissing : ∀ k ∈ moved', ¬ base ++ k <+: base ++ ns := by
          rintro k hk ⟨r, hr⟩
          rw [← hr, FileNode.at?_append_eq_none (before.gone hk)] at present
          cases present
        refine (before.dirAt_iff hmissing fun h => outside ?_).mp ⟨es, present⟩
        exact along_append_iff.mp h

theorem Moves.fileAt? (h : Moves base aside t moved t')
    (hmoved : ∀ ns ∈ moved, ¬ base ++ ns <+: l) (haside : ¬ base ++ aside <+: l) :
    t'.root.fileAt? l = t.root.fileAt? l := by
  induction h with
  | start => rfl
  | @make _ t' l' _ _ holder vacant _ ih =>
      show (t'.root.update _ l').fileAt? l = t.root.fileAt? l
      rw [FileNode.fileAt?_make holder vacant, ih hmoved]
  | @carry moved' t' ns' es _ _ _ _ _ ih =>
      show (t'.root.carry _ _ _).fileAt? l = t.root.fileAt? l
      rw [FileNode.fileAt?_carry (hmoved ns' (by simp))
        fun hdst => haside ((prefix_aside base aside ns').trans hdst)]
      exact ih fun ns hns => hmoved ns (List.mem_append_left _ hns)

section Below

variable {m : Location} (h : Moves base aside t moved t') (haside : ¬ Along aside m)
include h haside

theorem Moves.at?_below (hmoved : ∀ ns ∈ moved, ¬ Along ns m) :
    t'.root.at? (base ++ m) = t.root.at? (base ++ m) := by
  apply h.at?_of_apart
  · intro ns hns
    rw [along_append_iff]
    exact hmoved ns hns
  · rw [along_append_iff]
    exact haside

theorem Moves.dirAt_below_iff (hmoved : ∀ ns ∈ moved, ¬ ns <+: m) :
    t'.root.DirAt (base ++ m) ↔ t.root.DirAt (base ++ m) := by
  apply h.dirAt_iff
  · intro ns hns
    rw [List.prefix_append_right_inj]
    exact hmoved ns hns
  · rw [along_append_iff]
    exact haside

/-- **`Moves.at?_below_iff`** — a directory stays in place with its content exactly where nothing above or
below it is carried away. -/
theorem Moves.at?_below_iff (hm : t.root.DirAt (base ++ m)) :
    t'.root.at? (base ++ m) = t.root.at? (base ++ m) ↔ ∀ ns ∈ moved, ¬ Along ns m := by
  refine ⟨fun hsame ns hns => ?_, h.at?_below haside⟩
  rintro (⟨k, rfl⟩ | ⟨k, rfl⟩)
  · -- The directory is gone with one above it.
    obtain ⟨es, hes⟩ := hm
    rw [hes, ← List.append_assoc, FileNode.at?_append_eq_none (h.gone hns)] at hsame
    cases hsame
  · -- The directory has lost one below it.
    have hgone := h.gone hns
    obtain ⟨es, hes⟩ := h.dirAt_source hns
    rw [← List.append_assoc, FileNode.at?_append] at hgone hes
    rw [hsame, hes] at hgone
    cases hgone

end Below

/-! ## §D Where files go -/

/-- **`carriedTo`** — where the file at `l` is found once the directories `moved` are carried: at the
rest of its path behind `base`, seen from `base ++ aside`, if it lay in one of them. -/
def carriedTo (base aside : Location) (moved : List Location) (l : Location) : Location :=
  if ∃ ns ∈ moved, base ++ ns <+: l then base ++ aside ++ l.drop base.length else l

theorem carriedTo_of_mem (hns : ns ∈ moved) (r : Location) :
    carriedTo base aside moved (base ++ ns ++ r) = base ++ aside ++ ns ++ r := by
  have hmem : ∃ ns' ∈ moved, base ++ ns' <+: base ++ ns ++ r :=
    ⟨ns, hns, List.prefix_append _ _⟩
  rw [carriedTo, if_pos hmem, List.append_assoc base ns r, List.drop_left, ← List.append_assoc]

theorem carriedTo_of_not_mem (h : ∀ ns ∈ moved, ¬ base ++ ns <+: l) :
    carriedTo base aside moved l = l :=
  if_neg fun ⟨ns, hns, hpre⟩ => h ns hns hpre

/-- What lies in `base ++ aside` already stays there. -/
theorem Moves.carriedTo_of_aside (h : Moves base aside t moved t') (hl : base ++ aside <+: l) :
    carriedTo base aside moved l = l := by
  refine carriedTo_of_not_mem fun ns hns hpre => h.not_along hns ?_
  exact along_append_iff.mp (along_of_common hl hpre)

theorem mem_or_not_mem (base : Location) (moved : List Location) (l : Location) :
    (∃ ns ∈ moved, ∃ r, l = base ++ ns ++ r) ∨ ∀ ns ∈ moved, ¬ base ++ ns <+: l := by
  by_cases h : ∃ ns ∈ moved, base ++ ns <+: l
  · obtain ⟨ns, hns, r, hr⟩ := h
    exact Or.inl ⟨ns, hns, r, hr.symm⟩
  · exact Or.inr fun ns hns hpre => h ⟨ns, hns, hpre⟩

/-- The place to which a directory is carried held no file. -/
theorem fileAt?_of_free
    (free : t.root.at? l = none ∨ t.root.at? l = some (.directory [])) (r : Location) :
    t.root.fileAt? (l ++ r) = none := by
  unfold FileNode.fileAt?
  rw [FileNode.at?_append]
  rcases free with h | h <;> rw [h]
  · rfl
  · cases r <;> rfl

/-- **`fileAt?_carriedTo`** — every file is found again, with its content. -/
theorem Moves.fileAt?_carriedTo (h : Moves base aside t moved t')
    (hl : t.root.fileAt? l = some bytes) :
    t'.root.fileAt? (carriedTo base aside moved l) = some bytes := by
  induction h with
  | start =>
      rwa [carriedTo_of_not_mem fun ns hns => absurd hns List.not_mem_nil]
  | @make moved' t' l' _ _ holder vacant _ ih =>
      show (t'.root.update _ l').fileAt? _ = some bytes
      rw [FileNode.fileAt?_make holder vacant, ih]
  | @carry moved' t' ns' es before outside present holder free ih =>
      obtain ⟨hapart, hapart'⟩ := source_apart base outside
      have hkeep : ∀ {k : Location}, t'.root.fileAt? k = some bytes → ¬ base ++ ns' <+: k →
          (t'.root.carry (base ++ ns') (base ++ aside ++ ns') (.directory es)).fileAt? k
            = some bytes := by
        intro k hk hsrc
        rw [FileNode.fileAt?_carry hsrc, hk]
        rintro ⟨r, rfl⟩
        rw [fileAt?_of_free free] at hk
        exact absurd hk.symm (Option.some_ne_none bytes)
      rcases mem_or_not_mem base moved' l with ⟨ns, hns, r, rfl⟩ | hmoved
      · -- Carried before: now it lies in `base ++ aside`, where nothing is taken from.
        rw [carriedTo_of_mem hns] at ih
        rw [carriedTo_of_mem (List.mem_append_left _ hns)]
        refine hkeep ih fun hpre => outside ?_
        rw [List.append_assoc, List.append_assoc, List.prefix_append_right_inj] at hpre
        exact along_of_common (List.prefix_append aside (ns ++ r)) hpre
      · rw [carriedTo_of_not_mem hmoved] at ih
        by_cases hsrc : base ++ ns' <+: l
        · obtain ⟨r, rfl⟩ := hsrc
          rw [carriedTo_of_mem (List.mem_append_right _ (List.mem_singleton.mpr rfl))]
          show (t'.root.carry _ _ _).fileAt? _ = some bytes
          rw [FileNode.fileAt?_eq_some_iff, FileNode.at?_carry_destination holder hapart hapart']
          rw [FileNode.fileAt?_eq_some_iff, FileNode.at?_append, present] at ih
          exact ih
        · rw [carriedTo_of_not_mem
            (List.forall_mem_append.mpr ⟨hmoved, List.forall_mem_singleton.mpr hsrc⟩)]
          exact hkeep ih hsrc

/-- **`exists_carriedTo`** — there are no files but those that were there before. -/
theorem Moves.exists_carriedTo (h : Moves base aside t moved t')
    (hl : t'.root.fileAt? l = some bytes) :
    ∃ k, t.root.fileAt? k = some bytes ∧ carriedTo base aside moved k = l := by
  induction h generalizing l with
  | start =>
      exact ⟨l, hl, carriedTo_of_not_mem fun ns hns => absurd hns List.not_mem_nil⟩
  | @make moved' t' l' _ _ holder vacant _ ih =>
      have hfile : (t'.root.update (some (.directory [])) l').fileAt? l = some bytes := hl
      rw [FileNode.fileAt?_make holder vacant] at hfile
      exact ih hfile
  | @carry moved' t' ns' es before outside present holder free ih =>
      obtain ⟨hapart, hapart'⟩ := source_apart base outside
      have hcarried : (t'.root.carry (base ++ ns') (base ++ aside ++ ns') (.directory es)).fileAt? l
          = some bytes := hl
      by_cases hdst : base ++ aside ++ ns' <+: l
      · -- The file lies in what was carried last, and lay at the same names in its source.
        obtain ⟨r, rfl⟩ := hdst
        rw [FileNode.fileAt?_eq_some_iff, FileNode.at?_carry_destination holder hapart hapart']
          at hcarried
        have hbefore : t'.root.fileAt? (base ++ ns' ++ r) = some bytes := by
          rw [FileNode.fileAt?_eq_some_iff, FileNode.at?_append, present]
          exact hcarried
        obtain ⟨k, hk, hkto⟩ := ih hbefore
        rcases mem_or_not_mem base moved' k with ⟨ns, hns, r', rfl⟩ | hmoved
        · rw [carriedTo_of_mem hns, List.append_assoc, List.append_assoc, List.append_assoc] at hkto
          have heq := List.append_cancel_left hkto
          refine absurd (along_of_common (List.prefix_append aside (ns ++ r')) ?_) outside
          exact ⟨r, heq.symm⟩
        · rw [carriedTo_of_not_mem hmoved] at hkto
          subst hkto
          exact ⟨_, hk, carriedTo_of_mem (List.mem_append_right _ (List.mem_singleton.mpr rfl)) r⟩
      · -- The file lies elsewhere, and the last change left it alone.
        have hsrc : ¬ base ++ ns' <+: l := by
          rintro ⟨r, rfl⟩
          rw [FileNode.fileAt?_eq_some_iff,
            FileNode.at?_carry_source (by rw [present]; rfl) hapart hapart'] at hcarried
          exact absurd hcarried.symm (Option.some_ne_none _)
        rw [FileNode.fileAt?_carry hsrc hdst] at hcarried
        obtain ⟨k, hk, hkto⟩ := ih hcarried
        refine ⟨k, hk, ?_⟩
        rcases mem_or_not_mem base moved' k with ⟨ns, hns, r, rfl⟩ | hmoved
        · rw [carriedTo_of_mem hns] at hkto
          rw [carriedTo_of_mem (List.mem_append_left _ hns), hkto]
        · rw [carriedTo_of_not_mem hmoved] at hkto
          subst hkto
          exact carriedTo_of_not_mem
            (List.forall_mem_append.mpr ⟨hmoved, List.forall_mem_singleton.mpr hsrc⟩)

/-- Nothing lay where a carried directory goes to. -/
theorem Moves.fileAt?_destination (h : Moves base aside t moved t') (hns : ns ∈ moved)
    (r : Location) : t.root.fileAt? (base ++ aside ++ ns ++ r) = none := by
  induction h with
  | start => exact absurd hns List.not_mem_nil
  | make _ _ _ _ _ ih => exact ih hns
  | @carry moved' t' ns' es before outside present holder free ih =>
      rcases List.mem_append.mp hns with hns | hns
      · exact ih hns
      · obtain rfl := List.mem_singleton.mp hns
        cases hfile : t.root.fileAt? (base ++ aside ++ ns ++ r) with
        | none => rfl
        | some bytes =>
            have hlater := before.fileAt?_carriedTo hfile
            rw [before.carriedTo_of_aside ((prefix_aside base aside ns).trans (List.prefix_append _ r)),
              fileAt?_of_free free] at hlater
            exact absurd hlater.symm (Option.some_ne_none bytes)

/-- **`carriedTo_injective`** — no two files meet. -/
theorem Moves.carriedTo_injective (h : Moves base aside t moved t')
    (hl : t.root.fileAt? l = some bytes) (hl' : t.root.fileAt? l' = some bytes')
    (heq : carriedTo base aside moved l = carriedTo base aside moved l') : l = l' := by
  rcases mem_or_not_mem base moved l with ⟨ns, hns, r, rfl⟩ | hmoved <;>
    rcases mem_or_not_mem base moved l' with ⟨ns', hns', r', rfl⟩ | hmoved'
  · rw [carriedTo_of_mem hns, carriedTo_of_mem hns', List.append_assoc (base ++ aside),
      List.append_assoc (base ++ aside)] at heq
    rw [List.append_assoc base, List.append_assoc base, List.append_cancel_left heq]
  · -- A file that stays would lie where the carried one goes to.
    rw [carriedTo_of_mem hns, carriedTo_of_not_mem hmoved'] at heq
    rw [← heq, h.fileAt?_destination hns] at hl'
    exact absurd hl'.symm (Option.some_ne_none bytes')
  · rw [carriedTo_of_mem hns', carriedTo_of_not_mem hmoved] at heq
    rw [heq, h.fileAt?_destination hns'] at hl
    exact absurd hl.symm (Option.some_ne_none bytes)
  · rwa [carriedTo_of_not_mem hmoved, carriedTo_of_not_mem hmoved'] at heq

end FileTree

end PluginVet
