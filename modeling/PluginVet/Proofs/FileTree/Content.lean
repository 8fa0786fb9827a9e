/-
# PluginVet.Proofs.FileTree.Content — what is written into a file is what is read there

Reading follows all links of a path at once, while writing goes to the last piece of the path and, if a
link stands there, starts again from its target. Both come to the same file (`putAt_of_follow`). The file
gets new content and nothing else changes, so the path leads to it as before (`write_file`).

§A rewritten files, §B paths of files, §C writing.
-/
import PluginVet.Proofs.FileTree.Growth

namespace PluginVet

open PluginVet.Path (Step)

/-! ## §A Rewritten files -/

namespace FileNode

variable {n : FileNode} {l : Location} {old bytes : ByteArray}

theorem dirAt_dropLast (hl : l ≠ []) (h : (n.at? l).isSome = true) : n.DirAt l.dropLast := by
  refine dirAt_of_at?_append (List.cons_ne_nil (l.getLast hl) []) ?_
  rwa [List.dropLast_append_getLast hl]

theorem at?_rewritten (h : n.at? l = some (.file old)) :
    (n.update (some (.file bytes)) l).at? l = some (.file bytes) := by
  by_cases hl : l = []
  · rw [hl, update]
    rfl
  · have hdir := dirAt_dropLast hl (Option.isSome_of_eq_some h)
    have hself := at?_update_self_append hl hdir (some (.file bytes)) []
    rwa [List.append_nil] at hself

theorem at?_below_file (h : n.at? l = some (.file old)) {name : String} {r : Location} :
    n.at? (l ++ name :: r) = none := by
  rw [at?_append, h]
  rfl

/-- A file with new content takes nothing else away. -/
theorem keeps_rewritten (h : n.at? l = some (.file old)) :
    n.Keeps (n.update (some (.file bytes)) l) := by
  -- Below the file there is nothing, and elsewhere only directories get other entries.
  have hother : ∀ l' x, l' ≠ l → n.at? l' = some x →
      (n.update (some (.file bytes)) l).at? l' = some x ∨
        (n.update (some (.file bytes)) l).DirAt l' ∧ n.DirAt l' := by
    intro l' x hne hx
    have hbelow : ¬ l <+: l' := by
      rintro ⟨r, rfl⟩
      cases r with
      | nil => exact hne (List.append_nil l)
      | cons name r =>
          rw [at?_below_file h] at hx
          cases hx
    exact (at?_update_eq_or (some (.file bytes)) hbelow).imp_left fun heq => heq.trans hx
  constructor
  · rintro l' ⟨es, hes⟩
    have hne : l' ≠ l := by
      rintro rfl
      cases h.symm.trans hes
    exact (hother l' _ hne hes).elim (fun hsame => ⟨es, hsame⟩) And.left
  · intro l' target hlink
    have hne : l' ≠ l := by
      rintro rfl
      cases h.symm.trans hlink
    exact (hother l' _ hne hlink).resolve_right fun hdir => not_dirAt_of_at? rfl hlink hdir.2
  · intro l' bytes' hfile
    by_cases hl' : l' = l
    · exact ⟨bytes, by rw [hl', at?_rewritten h]⟩
    · exact ⟨bytes', (hother l' _ hl' hfile).resolve_right fun hdir => not_dirAt_of_at? rfl hfile hdir.2⟩

end FileNode

/-! ## §B Paths of files -/

namespace Path

/-- A slash at the end of a path is a step of its own. -/
theorem steps_of_slash {p : Path} (h : (Text.dropTail? [slash] p.text.toList).isSome = true) :
    p.steps = p.lead ++ [.stay] := by
  obtain ⟨front, hfront⟩ := Option.isSome_iff_exists.mp h
  have hpieces : p.pieces = Text.splitOn slash front ++ [[]] := by
    rw [pieces, Text.dropTail?_eq_some_iff.mp hfront, Text.splitOn_append_sep]
    rfl
  have hsteps : p.steps = (dropEmptyPieces p.pieces).map Step.ofPiece := rfl
  rw [hsteps, lead, hpieces, dropEmptyPieces_append _ (List.cons_ne_nil _ _)]
  simp [dropEmptyPieces, Step.ofPiece]

end Path

namespace FileTree

variable {t : FileTree} {root : FileNode} {here l : Location} {links : Nat} {p : Path}
  {steps : List Step} {old bytes : ByteArray}

/-- The last step to something that is no directory is a name. -/
theorem exists_name_of_follow {step : Step} (h : follow root links here [step] = .ok l)
    (hl : ¬ root.DirAt l) : ∃ name, step = .into name := by
  have hhere := dirAt_of_follow_cons h
  cases step with
  | stay =>
      rw [follow_stay hhere, follow] at h
      exact absurd (Except.ok.inj h ▸ hhere) hl
  | up =>
      rw [follow_up hhere, follow] at h
      obtain rfl := Except.ok.inj h
      by_cases hroot : here = []
      · rw [hroot] at hhere hl
        exact absurd hhere hl
      · obtain ⟨es, hes⟩ := hhere
        exact absurd (FileNode.dirAt_dropLast hroot (hes ▸ rfl)) hl
  | into name => exact ⟨name, rfl⟩

/-- A path to something that is no directory ends in a name, without a slash behind it. -/
theorem exists_slot_of_follow (h : follow root links here p.steps = .ok l)
    (hl : ¬ root.DirAt l) : ∃ dir name links',
      follow root links here p.lead.dropLast = .ok dir ∧ links' ≤ links ∧ root.DirAt dir ∧
      p.lead.getLast? = some (.into name) ∧ endingIn dir p = .slot ⟨dir, name, false⟩ ∧
      follow root links' dir [.into name] = .ok l := by
  have hsplit : ∀ before step, p.steps = before ++ [step] → ∃ dir name links',
      follow root links here before = .ok dir ∧ links' ≤ links ∧ root.DirAt dir ∧
      step = .into name ∧ follow root links' dir [.into name] = .ok l := by
    intro before step hsteps
    rw [hsteps] at h
    obtain ⟨dir, links', hdir, hle, hon⟩ := exists_follow_of_append_le h
    rw [hon] at h
    obtain ⟨name, rfl⟩ := exists_name_of_follow h hl
    exact ⟨dir, name, links', hdir, hle, dirAt_of_follow_cons h, rfl, h⟩
  rcases p.steps_eq_or with hsteps | hsteps
  · obtain ⟨before, step, hlead⟩ := (List.eq_nil_or_concat p.lead).resolve_left
      fun hnil => p.steps_ne_nil (hsteps.trans hnil)
    rw [List.concat_eq_append] at hlead
    obtain ⟨dir, name, links', hdir, hle, hhere, rfl, hon⟩ := hsplit before step (hsteps.trans hlead)
    have hslash : (Text.dropTail? [Path.slash] p.text.toList).isSome = false := by
      rw [Bool.eq_false_iff]
      intro hslash
      have hlonger := congrArg List.length (hsteps.symm.trans (Path.steps_of_slash hslash))
      simp at hlonger
    have hlast : p.lead.getLast? = some (.into name) := by rw [hlead, List.getLast?_concat]
    refine ⟨dir, name, links', ?_, hle, hhere, hlast, ?_, hon⟩
    · rw [hlead, List.dropLast_concat]
      exact hdir
    · rw [endingIn, hlast, hslash]
  · -- A slash at the end stays in a directory.
    obtain ⟨dir, name, links', -, -, -, hstay, -⟩ := hsplit p.lead .stay hsteps
    cases hstay

/-- The path of a file has a parent. -/
theorem exists_parent_of_find (h : t.find p = .ok (.file bytes)) :
    ∃ dir, p.parent? = some dir ∧ dir.isAbsolute = p.isAbsolute := by
  obtain ⟨l, hlocate, hat⟩ := find_eq_ok_iff_locate.mp h
  obtain ⟨-, hfollow⟩ := locate_eq_ok_iff_follow.mp hlocate
  obtain ⟨dir, name, -, -, -, -, hlast, -⟩ :=
    exists_slot_of_follow hfollow (FileNode.not_dirAt_of_at? rfl hat)
  have hname : .into name ∈ p.trail := List.mem_filter.mpr ⟨List.mem_of_getLast? hlast, rfl⟩
  obtain ⟨before, last, htrail⟩ := (List.eq_nil_or_concat p.trail).resolve_left (List.ne_nil_of_mem hname)
  rw [List.concat_eq_append] at htrail
  obtain ⟨dir, hdir, -, habsolute⟩ := Path.trail_parent? htrail
  exact ⟨dir, hdir, habsolute⟩

/-! ## §C Writing -/

/-- A link that stands for a file leads to it. -/
theorem exists_follow_of_link {name : String} {target : Path}
    (hlink : root.at? (here ++ [name]) = some (.link target))
    (h : follow root links here [.into name] = .ok l) : ∃ fewer, links = fewer + 1 ∧
      ¬ target.text.isEmpty = true ∧ follow root fewer (origin here target) target.steps = .ok l := by
  obtain ⟨es, hes⟩ := dirAt_of_follow_cons h
  have hget := (get?_of_at?_concat hes).trans hlink
  by_cases htext : target.text.isEmpty = true
  · rw [follow, hes] at h
    simp only [hget, if_pos htext] at h
    cases h
  · cases links with
    | zero =>
        rw [follow, hes] at h
        simp only [hget, if_neg htext] at h
        cases h
    | succ fewer =>
        rw [follow_into_link hlink htext, List.append_nil] at h
        exact ⟨fewer, rfl, htext, h⟩

section Put

variable {node : FileNode} {more : Nat} {dir : Location} {name : String}

theorem putAt_of_file (hend : ending { t with workplace := here } p = .ok (.slot ⟨dir, name, false⟩))
    (hold : t.at? (dir ++ [name]) = some (.file old)) :
    putAt t node more here p = .ok (t.update (dir ++ [name]) (some node)) := by
  rw [putAt, hend]
  simp only [bind, Except.bind, Slot.location, hold]
  rfl

theorem putAt_of_link {target : Path}
    (hend : ending { t with workplace := here } p = .ok (.slot ⟨dir, name, false⟩))
    (hlink : t.at? (dir ++ [name]) = some (.link target)) :
    putAt t node (more + 1) here p = putAt t node more dir target := by
  rw [putAt, hend]
  simp only [bind, Except.bind, Slot.location, hlink]

/-- **`putAt_of_follow`** — writing comes to the file that reading comes to. -/
theorem putAt_of_follow (htext : ¬ p.text.isEmpty = true)
    (h : follow t.root links (origin here p) p.steps = .ok l)
    (hold : t.at? l = some (.file old)) (hlimit : links ≤ linkLimit) (hmore : links ≤ more) :
    putAt t node more here p = .ok (t.update l (some node)) := by
  induction links using Nat.strongRecOn generalizing more here p with
  | ind links ih =>
      obtain ⟨dir, name, links', hdir, hle, hhere, -, hslot, hon⟩ :=
        exists_slot_of_follow h (FileNode.not_dirAt_of_at? rfl hold)
      have hend : ending { t with workplace := here } p = .ok (.slot ⟨dir, name, false⟩) := by
        have hfollow := follow_of_keeps (FileNode.GrowsTo.refl t.root).keeps hlimit hdir
        rw [← hslot]
        exact ending_eq_of_follow (t := { t with workplace := here }) htext hfollow hhere
      cases hnode : t.root.at? (dir ++ [name]) with
      | none =>
          rw [follow_into_missing hhere hnode] at hon
          cases hon
      | some x =>
          by_cases hlink : ∃ target, x = .link target
          · -- The target is read with fewer links to go, and that is why writing comes to an end.
            obtain ⟨target, rfl⟩ := hlink
            obtain ⟨fewer, rfl, htarget, hfollow⟩ := exists_follow_of_link hnode hon
            obtain ⟨rest, rfl⟩ := Nat.exists_eq_add_of_le (Nat.le_trans hle hmore)
            rw [show fewer + 1 + rest = fewer + rest + 1 by omega, putAt_of_link hend hnode]
            exact ih fewer hle htarget hfollow (by omega) (Nat.le_add_right fewer rest)
          · rw [follow_into hnode fun target hx => hlink ⟨target, hx⟩, follow] at hon
            obtain rfl := Except.ok.inj hon
            exact putAt_of_file hend hold

end Put

/-- **`write_file`** — writing to a file replaces its content, and its path leads to it as before. -/
theorem write_file (h : t.find p = .ok (.file old)) (bytes : ByteArray) : ∃ l,
    t.at? l = some (.file old) ∧ t.write p bytes = .ok (t.update l (some (.file bytes))) ∧
    (t.update l (some (.file bytes))).find p = .ok (.file bytes) := by
  obtain ⟨l, hlocate, hat⟩ := find_eq_ok_iff_locate.mp h
  obtain ⟨htext, hfollow⟩ := locate_eq_ok_iff_follow.mp hlocate
  have hempty : ¬ p.text.isEmpty = true := fun h => htext (String.isEmpty_iff.mp h ▸ rfl)
  refine ⟨l, hat, putAt_of_follow hempty hfollow hat (Nat.le_refl _) (Nat.le_refl _), ?_⟩
  refine find_eq_ok_iff_locate.mpr ⟨l, locate_eq_ok_iff_follow.mpr ⟨htext, ?_⟩, ?_⟩
  · exact follow_of_keeps (FileNode.keeps_rewritten hat) (Nat.le_refl _) hfollow
  · exact FileNode.at?_rewritten hat

theorem readText_eq_ok_iff {s : String} : t.readText p = .ok s ↔
    ∃ bytes, t.find p = .ok (.file bytes) ∧ String.fromUTF8? bytes = some s := by
  rw [readText]
  cases t.find p with
  | error cause => simp [bind, Except.bind]
  | ok x =>
      cases x with
      | file bytes =>
          simp only [bind, Except.bind, textOf, contentOf, Except.ok.injEq, FileNode.file.injEq,
            exists_eq_left']
          cases String.fromUTF8? bytes <;> simp
      | link target => simp [bind, Except.bind, textOf, contentOf]
      | directory es => simp [bind, Except.bind, textOf, contentOf]

theorem fromUTF8?_toUTF8 (s : String) : String.fromUTF8? s.toUTF8 = some s := by
  rw [String.fromUTF8?, String.toUTF8_eq_toByteArray, dif_pos s.isValidUTF8]
  rfl

/-- **`readText_writeText`** — a text that was written to a file is what is read from it. -/
theorem readText_writeText {before : String} (h : t.readText p = .ok before) (s : String) :
    ∃ t', t.writeText p s = .ok t' ∧ t'.readText p = .ok s := by
  obtain ⟨bytes, hfind, -⟩ := readText_eq_ok_iff.mp h
  obtain ⟨l, -, hwrite, hread⟩ := write_file hfind s.toUTF8
  exact ⟨_, hwrite, readText_eq_ok_iff.mpr ⟨s.toUTF8, hread, fromUTF8?_toUTF8 s⟩⟩

end FileTree

end PluginVet
