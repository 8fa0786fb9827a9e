/-
# PluginVet.Proofs.FileTree.Growth — making directories takes nothing away

Before something is put into a directory, the directory is made, with those above it that are missing.
What comes after may fail, and then the tree has grown: all that was there is there, and what is new
are directories (`GrowsTo`). A path that could be followed leads to the same place as before, also
through links (`follow_of_growsTo`). For this it is enough that directories, links and files stay what
they are, whatever the files contain (`Keeps`, `follow_of_keeps`).

Nothing here asks for a proper tree. `Prepared p t t'` says which directories are made, those that are
missing above the path `p`.

§A grown trees, §B paths in a grown tree, §C directories above a path.
-/
import PluginVet.Proofs.FileTree.Change

namespace PluginVet

open PluginVet.Path (Step)

/-! ## §A Grown trees -/

namespace FileNode

variable {n n' n'' : FileNode} {l : Location}

/-- **`GrowsTo n n'`** — what is a directory in `n` is one in `n'`, and both have the same files and links
at the same places. -/
structure GrowsTo (n n' : FileNode) : Prop where
  directories : ∀ l, n.DirAt l → n'.DirAt l
  others : ∀ l x, x.isDirectory = false → (n'.at? l = some x ↔ n.at? l = some x)

/-- **`Keeps n n'`** — directories of `n` are directories in `n'`, links lead where they led, and files are
files, whatever they contain. -/
structure Keeps (n n' : FileNode) : Prop where
  directories : ∀ l, n.DirAt l → n'.DirAt l
  links : ∀ l target, n.at? l = some (.link target) → n'.at? l = some (.link target)
  files : ∀ l bytes, n.at? l = some (.file bytes) → ∃ bytes', n'.at? l = some (.file bytes')

theorem GrowsTo.keeps (h : n.GrowsTo n') : n.Keeps n' where
  directories := h.directories
  links l target hl := (h.others l (.link target) rfl).mpr hl
  files l bytes hl := ⟨bytes, (h.others l (.file bytes) rfl).mpr hl⟩

theorem GrowsTo.refl (n : FileNode) : n.GrowsTo n :=
  ⟨fun _ h => h, fun _ _ _ => Iff.rfl⟩

theorem GrowsTo.trans (h : n.GrowsTo n') (h' : n'.GrowsTo n'') : n.GrowsTo n'' where
  directories l hl := h'.directories l (h.directories l hl)
  others l x hx := (h'.others l x hx).trans (h.others l x hx)

theorem not_dirAt_of_at? {x : FileNode} (hx : x.isDirectory = false) (h : n.at? l = some x) :
    ¬ n.DirAt l := by
  rintro ⟨es, hes⟩
  obtain rfl : x = .directory es := Option.some.inj (h.symm.trans hes)
  cases hx

theorem directory_ne_link (es : List (String × FileNode)) (target : Path) :
    directory es ≠ link target := by
  intro h
  cases h

theorem file_ne_link (bytes : ByteArray) (target : Path) : file bytes ≠ link target := by
  intro h
  cases h

/-- A tree grows by an empty directory in a vacant place. -/
theorem growsTo_make (hl : n.DirAt l.dropLast) (hvacant : n.at? l = none) :
    n.GrowsTo (n.update (some (.directory [])) l) where
  directories r hr := by
    refine (dirAt_update_iff ?_).mpr hr
    rintro ⟨rest, rfl⟩
    obtain ⟨es, hes⟩ := hr
    rw [at?_append_eq_none hvacant] at hes
    cases hes
  others r x hx := by
    by_cases hbelow : l <+: r
    · -- At the new directory there was nothing, and below it there is nothing.
      obtain ⟨rest, rfl⟩ := hbelow
      rw [at?_update_self_append (ne_nil_of_vacant hvacant) hl, at?_append_eq_none hvacant]
      cases rest with
      | nil =>
          constructor
          · intro h
            obtain rfl := Option.some.inj h
            cases hx
          · intro h
            cases h
      | cons name rest' => exact Iff.rfl
    · rcases at?_update_eq_or (some (.directory [])) hbelow with hsame | ⟨hnew, hold⟩
      · rw [hsame]
      · exact ⟨fun h => absurd hnew (not_dirAt_of_at? hx h),
          fun h => absurd hold (not_dirAt_of_at? hx h)⟩

end FileNode

namespace FileTree

variable {root root' : FileNode} {t t' : FileTree} {here l : Location} {links : Nat}
  {steps steps' : List Step} {p : Path}

/-! ## §B Paths in a grown tree -/

/-- What a name leads to lies in a directory, and is the entry of that name. -/
theorem get?_of_at?_concat {es : List (String × FileNode)} {name : String}
    (hes : root.at? here = some (.directory es)) :
    Keyed.get? es name = root.at? (here ++ [name]) :=
  ((FileNode.isSome_at?_move hes).2.2 name).symm

section Follow

variable {name : String} {x : FileNode} {target : Path} {rest : List Step}

theorem follow_stay (h : root.DirAt here) :
    follow root links here (.stay :: rest) = follow root links here rest := by
  obtain ⟨es, hes⟩ := h
  rw [follow, hes]

theorem follow_up (h : root.DirAt here) :
    follow root links here (.up :: rest) = follow root links here.dropLast rest := by
  obtain ⟨es, hes⟩ := h
  rw [follow, hes]

theorem follow_into (h : root.at? (here ++ [name]) = some x) (hx : ∀ target, x ≠ .link target) :
    follow root links here (.into name :: rest)
      = follow root links (here ++ [name]) rest := by
  obtain ⟨es, hes⟩ : root.DirAt here :=
    FileNode.dirAt_of_at?_append (List.cons_ne_nil name []) (h ▸ rfl)
  rw [follow, hes]
  dsimp only
  rw [get?_of_at?_concat hes, h]
  cases x with
  | link target => exact absurd rfl (hx target)
  | file bytes => rfl
  | directory es' => rfl

theorem follow_into_missing (hhere : root.DirAt here) (h : root.at? (here ++ [name]) = none) :
    follow root links here (.into name :: rest) = .error .notFound := by
  obtain ⟨es, hes⟩ := hhere
  rw [follow, hes]
  dsimp only
  rw [get?_of_at?_concat hes, h]

/-- A link on the way is replaced by the steps of its target. -/
theorem follow_into_link (h : root.at? (here ++ [name]) = some (.link target))
    (htext : ¬ target.text.isEmpty = true) :
    follow root (links + 1) here (.into name :: rest)
      = follow root links (origin here target) (target.steps ++ rest) := by
  obtain ⟨es, hes⟩ : root.DirAt here :=
    FileNode.dirAt_of_at?_append (List.cons_ne_nil name []) (h ▸ rfl)
  rw [follow, hes]
  dsimp only
  rw [get?_of_at?_concat hes, h]
  dsimp only
  rw [if_neg htext]

end Follow

/-- Names lead to the node at them, if that is no link itself. -/
theorem follow_names (ns : List String) {x : FileNode} (h : root.at? (here ++ ns) = some x)
    (hx : ∀ target, x ≠ .link target) :
    follow root links here (ns.map .into) = .ok (here ++ ns) := by
  induction ns generalizing here with
  | nil => rw [List.map_nil, follow, List.append_nil]
  | cons name rest ih =>
      rw [List.append_cons] at h ⊢
      -- What lies above a node is a directory and so no link either.
      obtain ⟨y, hy, hlink⟩ : ∃ y, root.at? (here ++ [name]) = some y ∧ ∀ target, y ≠ .link target := by
        cases rest with
        | nil => exact ⟨x, List.append_nil (here ++ [name]) ▸ h, hx⟩
        | cons next rest' =>
            obtain ⟨es, hes⟩ : root.DirAt (here ++ [name]) :=
              FileNode.dirAt_of_at?_append (List.cons_ne_nil next rest') (h ▸ rfl)
            exact ⟨.directory es, hes, FileNode.directory_ne_link es⟩
      rw [List.map_cons, follow_into hy hlink]
      exact ih h

theorem find_of_names (ns : List String) {x : FileNode} (htext : p.text.toList ≠ [])
    (hsteps : p.steps = ns.map .into) (h : t.at? (origin t.workplace p ++ ns) = some x)
    (hx : ∀ target, x ≠ .link target) : t.find p = .ok x := by
  refine find_eq_ok_iff_locate.mpr ⟨_, locate_eq_ok_iff_follow.mpr ⟨htext, ?_⟩, h⟩
  rw [hsteps]
  exact follow_names ns h hx

/-- **`follow_of_keeps`** — steps that can be followed lead to the same place in a tree that keeps what they
pass, and also where they may pass more links. -/
theorem follow_of_keeps {links' : Nat} (hkeeps : root.Keeps root') (hle : links ≤ links')
    (h : follow root links here steps = .ok l) : follow root' links' here steps = .ok l := by
  fun_induction follow root links here steps generalizing links' with
  | case1 links here =>
      rw [follow]
      exact h
  | case2 links here rest es hes ih =>
      rw [follow_stay (hkeeps.directories here ⟨es, hes⟩)]
      exact ih hle h
  | case3 links here rest es hes ih =>
      rw [follow_up (hkeeps.directories here ⟨es, hes⟩)]
      exact ih hle h
  | case4 => cases h
  | case5 => cases h
  | case6 => cases h
  | case7 here rest es hes name target hlink htext links ih =>
      -- A link is the same one in the other tree.
      rw [get?_of_at?_concat hes] at hlink
      obtain ⟨more, rfl⟩ := Nat.exists_eq_add_of_le hle
      rw [show Nat.succ links + more = links + more + 1 by omega,
        follow_into_link (hkeeps.links _ _ hlink) htext]
      exact ih (Nat.le_add_right links more) h
  | case8 links here rest es hes name x hx hnode ih =>
      rw [get?_of_at?_concat hes] at hnode
      cases x with
      | link target => exact absurd rfl (hx target)
      | file bytes =>
          obtain ⟨bytes', hbytes'⟩ := hkeeps.files _ _ hnode
          rw [follow_into hbytes' (FileNode.file_ne_link bytes')]
          exact ih hle h
      | directory es' =>
          obtain ⟨es'', hes''⟩ := hkeeps.directories _ ⟨es', hnode⟩
          rw [follow_into hes'' (FileNode.directory_ne_link es'')]
          exact ih hle h
  | case9 => cases h

/-- **`follow_of_growsTo`** — steps that can be followed lead to the same place in a grown tree. -/
theorem follow_of_growsTo (hgrow : root.GrowsTo root')
    (h : follow root links here steps = .ok l) : follow root' links here steps = .ok l :=
  follow_of_keeps hgrow.keeps (Nat.le_refl links) h

/-- Steps are followed in two parts: the first ones lead to a place from which any others go on, through
no more links than are left. -/
theorem exists_follow_of_append_le (h : follow root links here (steps ++ steps') = .ok l) :
    ∃ middle links', follow root links here steps = .ok middle ∧ links' ≤ links ∧
      ∀ further, follow root links here (steps ++ further)
        = follow root links' middle further := by
  fun_induction follow root links here steps with
  | case1 links here => exact ⟨here, links, rfl, Nat.le_refl links, fun _ => rfl⟩
  | case2 links here rest es hes ih =>
      rw [List.cons_append, follow_stay ⟨es, hes⟩] at h
      obtain ⟨middle, links', hmiddle, hle, hon⟩ := ih h
      refine ⟨middle, links', hmiddle, hle, fun further => ?_⟩
      rw [List.cons_append, follow_stay ⟨es, hes⟩, hon]
  | case3 links here rest es hes ih =>
      rw [List.cons_append, follow_up ⟨es, hes⟩] at h
      obtain ⟨middle, links', hmiddle, hle, hon⟩ := ih h
      refine ⟨middle, links', hmiddle, hle, fun further => ?_⟩
      rw [List.cons_append, follow_up ⟨es, hes⟩, hon]
  | case4 links here rest es hes name hnone =>
      rw [List.cons_append, follow, hes] at h
      simp only [hnone] at h
      cases h
  | case5 links here rest es hes name target hlink htext =>
      rw [List.cons_append, follow, hes] at h
      simp only [hlink, if_pos htext] at h
      cases h
  | case6 here rest es hes name target hlink htext =>
      rw [List.cons_append, follow, hes] at h
      simp only [hlink, if_neg htext] at h
      cases h
  | case7 here rest es hes name target hlink htext links ih =>
      rw [get?_of_at?_concat hes] at hlink
      rw [List.cons_append, Nat.succ_eq_add_one, follow_into_link hlink htext, ← List.append_assoc] at h
      obtain ⟨middle, links', hmiddle, hle, hon⟩ := ih h
      refine ⟨middle, links', hmiddle, Nat.le_succ_of_le hle, fun further => ?_⟩
      rw [List.cons_append, Nat.succ_eq_add_one, follow_into_link hlink htext, ← List.append_assoc, hon]
  | case8 links here rest es hes name x hx hnode ih =>
      rw [get?_of_at?_concat hes] at hnode
      rw [List.cons_append, follow_into hnode hx] at h
      obtain ⟨middle, links', hmiddle, hle, hon⟩ := ih h
      refine ⟨middle, links', hmiddle, hle, fun further => ?_⟩
      rw [List.cons_append, follow_into hnode hx, hon]
  | case9 links here step rest hno =>
      rw [List.cons_append, follow] at h
      split at h
      · rename_i es hes
        exact absurd hes (hno es)
      · cases h

theorem exists_follow_of_append (h : follow root links here (steps ++ steps') = .ok l) :
    ∃ middle links', follow root links here steps = .ok middle ∧
      ∀ further, follow root links here (steps ++ further)
        = follow root links' middle further := by
  obtain ⟨middle, links', hmiddle, -, hon⟩ := exists_follow_of_append_le h
  exact ⟨middle, links', hmiddle, hon⟩

/-- Only from a directory there is a further step. -/
theorem dirAt_of_follow_cons {step : Step} {rest : List Step}
    (h : follow root links here (step :: rest) = .ok l) : root.DirAt here := by
  rw [follow] at h
  split at h
  · rename_i es hes
    exact ⟨es, hes⟩
  · cases h

/-- Steps that lead to a directory begin in one. -/
theorem dirAt_of_follow (h : follow root links here steps = .ok l) (hl : root.DirAt l) :
    root.DirAt here := by
  cases steps with
  | nil =>
      rw [follow] at h
      exact Except.ok.inj h ▸ hl
  | cons step rest => exact dirAt_of_follow_cons h

/-- A name that is missing in a directory leads to nothing. -/
theorem not_exists_of_names (before : List String) (name : String)
    (hsteps : p.steps = (before ++ [name]).map .into)
    (hdir : t.root.DirAt (origin t.workplace p ++ before))
    (hmissing : t.root.at? (origin t.workplace p ++ before ++ [name]) = none) :
    t.exists? p = false := by
  rw [Bool.eq_false_iff]
  intro h
  obtain ⟨x, hfind, -⟩ := holds_iff.mp h
  obtain ⟨l, hlocate, -⟩ := find_eq_ok_iff_locate.mp hfind
  obtain ⟨es, hes⟩ := hdir
  have hfollow := (locate_eq_ok_iff_follow.mp hlocate).2
  rw [hsteps, List.map_append] at hfollow
  obtain ⟨middle, links', hmiddle, hon⟩ := exists_follow_of_append hfollow
  obtain rfl := Except.ok.inj
    (hmiddle.symm.trans (follow_names before hes (FileNode.directory_ne_link es)))
  rw [hon, List.map_singleton, follow_into_missing ⟨es, hes⟩ hmissing] at hfollow
  cases hfollow

/-- What a path ends in, read off the way to the directory in front of its last piece. -/
theorem ending_eq_of_follow {dir : Location} (htext : ¬ p.text.isEmpty = true)
    (h : follow t.root linkLimit (origin t.workplace p) p.lead.dropLast = .ok dir)
    (hdir : t.root.DirAt dir) : t.ending p = .ok (endingIn dir p) := by
  obtain ⟨es, hes⟩ := hdir
  have hsplit : splitLast p
      = (p.lead.dropLast, p.lead.getLast?, (Text.dropTail? [Path.slash] p.text.toList).isSome) := rfl
  have hat : t.at? dir = some (.directory es) := hes
  rw [ending, if_neg htext, hsplit]
  dsimp only
  rw [h]
  simp only [bind, Except.bind, hat, endingIn]
  cases p.lead.getLast? with
  | none => rfl
  | some s => cases s <;> rfl

theorem ending_eq_ok {e : Ending} (h : t.ending p = .ok e) : ¬ p.text.isEmpty = true ∧
    ∃ dir, follow t.root linkLimit (origin t.workplace p) p.lead.dropLast = .ok dir ∧
      t.root.DirAt dir ∧ e = endingIn dir p := by
  have hsplit : splitLast p
      = (p.lead.dropLast, p.lead.getLast?, (Text.dropTail? [Path.slash] p.text.toList).isSome) := rfl
  by_cases htext : p.text.isEmpty = true
  · rw [ending, if_pos htext] at h
    cases h
  · cases hfollow : follow t.root linkLimit (origin t.workplace p) p.lead.dropLast with
    | error cause =>
        rw [ending, if_neg htext, hsplit] at h
        dsimp only at h
        rw [hfollow] at h
        cases h
    | ok dir =>
        by_cases hdir : t.root.DirAt dir
        · rw [ending_eq_of_follow htext hfollow hdir] at h
          exact ⟨htext, dir, rfl, hdir, (Except.ok.inj h).symm⟩
        · rw [ending, if_neg htext, hsplit] at h
          dsimp only at h
          rw [hfollow] at h
          simp only [bind, Except.bind] at h
          split at h
          · rename_i es hes
            exact absurd ⟨es, hes⟩ hdir
          · cases h

/-- A slot lies in a directory that exists. -/
theorem dirAt_of_ending_slot {s : Slot} (h : t.ending p = .ok (.slot s)) :
    t.root.DirAt s.location.dropLast := by
  obtain ⟨-, dir, -, hdir, hs⟩ := ending_eq_ok h
  rw [s.dropLast_location]
  unfold endingIn at hs
  split at hs
  · obtain rfl := Ending.slot.inj hs
    exact hdir
  · cases hs

/-- **`ending_of_growsTo`** — in a grown tree a path ends where it ended before. -/
theorem ending_of_growsTo {e : Ending} (hgrow : t.root.GrowsTo t'.root)
    (hplace : t'.workplace = t.workplace) (h : t.ending p = .ok e) : t'.ending p = .ok e := by
  obtain ⟨htext, dir, hfollow, hdir, rfl⟩ := ending_eq_ok h
  apply ending_eq_of_follow htext
  · rw [hplace]
    exact follow_of_growsTo hgrow hfollow
  · exact hgrow.directories dir hdir

/-- The path of a directory has an end. -/
theorem exists_ending_of_isDirectory (h : t.isDirectory p = true) : ∃ e, t.ending p = .ok e := by
  obtain ⟨x, hfind, -⟩ := holds_iff.mp h
  obtain ⟨l, hlocate, -⟩ := find_eq_ok_iff_locate.mp hfind
  obtain ⟨htext, hlocate⟩ := locate_eq_ok_iff_follow.mp hlocate
  have htext : ¬ p.text.isEmpty = true := fun h => htext (String.isEmpty_iff.mp h ▸ rfl)
  -- Behind the last directory there is the last piece, or the slash at the end.
  obtain ⟨step, rest, hsteps⟩ : ∃ step rest, p.steps = p.lead.dropLast ++ step :: rest := by
    rcases List.eq_nil_or_concat p.lead with hnil | ⟨before, final, hlead⟩
    · obtain ⟨step, rest, hcons⟩ := List.exists_cons_of_ne_nil p.steps_ne_nil
      exact ⟨step, rest, by rw [hnil, hcons]; rfl⟩
    · rw [List.concat_eq_append] at hlead
      rw [hlead, List.dropLast_concat]
      rcases p.steps_eq_or with hall | hall
      · exact ⟨final, [], by rw [hall, hlead]⟩
      · exact ⟨final, [.stay], by rw [hall, hlead, List.append_assoc]; rfl⟩
  rw [hsteps] at hlocate
  obtain ⟨dir, links', hfollow, hon⟩ := exists_follow_of_append hlocate
  exact ⟨_, ending_eq_of_follow htext hfollow (dirAt_of_follow_cons ((hon _).symm.trans hlocate))⟩

/-! ## §C Directories above a path -/

end FileTree

/-- **`Above p q`** — the path `q` is left of `p` without one or more of its last components. -/
inductive Path.Above (p : Path) : Path → Prop where
  | parent {q : Path} (h : p.parent? = some q) : Above p q
  | higher {q r : Path} (below : Above p q) (h : q.parent? = some r) : Above p r

namespace FileTree

/-- **`Prepared p t t'`** — `t'` comes out of `t` by making directories above the path `p`, each in a place
where there was nothing. -/
inductive Prepared (p : Path) (t : FileTree) : FileTree → Prop where
  | start : Prepared p t t
  | make {t' : FileTree} {upper : Path} {s : Slot} (before : Prepared p t t')
      (above : p.Above upper) (slot : t'.ending upper = .ok (.slot s))
      (missing : t'.at? s.location = none) :
      Prepared p t (t'.update s.location (some (.directory [])))

variable {q : Path}

/-- **`Prepared.growsTo`** — what is made takes nothing away. -/
theorem Prepared.growsTo (h : Prepared p t t') :
    t.root.GrowsTo t'.root ∧ t'.workplace = t.workplace := by
  induction h with
  | start => exact ⟨.refl _, rfl⟩
  | make before above slot missing ih =>
      refine ⟨ih.1.trans ?_, ih.2⟩
      exact FileNode.growsTo_make (dirAt_of_ending_slot slot) missing

theorem Prepared.createDirectory {t'' : FileTree} (h : Prepared p t t') (habove : p.Above q)
    (hmade : t'.createDirectory q = .ok t'') : Prepared p t t'' := by
  rw [FileTree.createDirectory, create] at hmade
  cases hend : t'.ending q with
  | error e =>
      rw [hend] at hmade
      cases hmade
  | ok e =>
      rw [hend] at hmade
      cases e with
      | fixed => cases hmade
      | slot s =>
          cases hat : t'.at? s.location with
          | some x =>
              simp only [bind, Except.bind, hat] at hmade
              cases hmade
          | none =>
              simp only [bind, Except.bind, hat] at hmade
              rw [← Except.ok.inj hmade]
              exact .make h habove hend hat

/-- **`createChain_prepared`** — a chain of directories is made above the path, also where it is not
finished. -/
theorem createChain_prepared (fuel : Nat) (habove : p.Above q) :
    Prepared p t (createChain fuel t q).1 := by
  -- Each call is about the directory above the last one, so `q` is any path above `p`.
  induction fuel generalizing q with
  | zero => exact .start
  | succ fuel ih =>
      rw [createChain]
      split
      · exact .start
      · split
        · rename_i t' hmade
          exact Prepared.start.createDirectory habove hmade
        · split
          · exact .start
          · rename_i upper hparent
            have hchain := ih (.higher habove hparent)
            split
            · -- What is above has been made, and `q` comes last.
              rename_i t' hfirst
              rw [hfirst] at hchain
              unfold createOrKeep
              split
              · rename_i t'' hmade
                exact hchain.createDirectory habove hmade
              · split <;> exact hchain
            · rename_i t' e hfirst
              rw [hfirst] at hchain
              exact hchain
        · split <;> exact .start

end FileTree

end PluginVet
