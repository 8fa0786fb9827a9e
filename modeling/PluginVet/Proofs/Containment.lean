/-
# PluginVet.Proofs.Containment — what moves lies in the plugins tree, links aside

The guard against paths that lead out of the plugins tree looks at the text of a plugin's path, and the
tree then follows links. So names behind a directory lead to the place that they spell, or there is a link
on the way (`follow_names_or_link`). With this the end of a contained path behind a base is determined
(`ending_join`): it lies below the place of the base at the names of the path, unless one of these but the
last is a link.

**Main statement** (`relocate_stays_inside`): whatever is moved was an entry strictly below the plugins
directory and is one strictly below the quarantine directory, both with their links resolved, unless there
is a link on the way that the plugin's path describes below either of them. Such a link leads a move to
a directory that has nothing to do with the plugins (`link_leads_outside`).

§A links on the way, §B the end of a contained path, §C what is moved, §D a link out of the plugins tree.
-/
import PluginVet.Proofs.Attempt

namespace PluginVet

open PluginVet.Path (Step)

/-! ## §A Links on the way -/

/-- **`LinkOnWay n l ns`** — one of the names behind the location `l`, but not the last, is a link's. -/
def FileNode.LinkOnWay (n : FileNode) (l : Location) (ns : List String) : Prop :=
  ∃ upper target, upper ≠ [] ∧ upper <+: ns ∧ upper ≠ ns ∧ n.at? (l ++ upper) = some (.link target)

namespace FileTree

variable {root : FileNode} {t t' : FileTree} {here l : Location} {links : Nat} {steps : List Step}
  {ns : List String} {p base next : Path}

/-- **`ResolvesTo t p l`** — the path leads, through whatever links, to the directory at `l`. -/
def ResolvesTo (t : FileTree) (p : Path) (l : Location) : Prop :=
  t.locate p = .ok l ∧ t.root.DirAt l

/-- Steps into names lead to these names, unless one of them is that of a link. -/
theorem follow_names_or_link (h : follow root links here steps = .ok l)
    (hsteps : steps.filter (· ≠ .stay) = ns.map .into) : l = here ++ ns ∨
      ∃ upper target, upper ≠ [] ∧ upper <+: ns ∧ root.at? (here ++ upper) = some (.link target) := by
  -- The induction is on the steps and not along the walk: it stops at the first link.
  induction steps generalizing here ns with
  | nil =>
      obtain rfl : ns = [] := List.map_eq_nil_iff.mp hsteps.symm
      rw [follow] at h
      exact Or.inl ((Except.ok.inj h).symm.trans (List.append_nil here).symm)
  | cons step rest ih =>
      have hhere := dirAt_of_follow_cons h
      cases step with
      | stay =>
          rw [follow_stay hhere] at h
          exact ih h hsteps
      | up =>
          have hup : .up ∈ ns.map Step.into := hsteps ▸ List.mem_cons_self
          obtain ⟨name, -, hname⟩ := List.mem_map.mp hup
          cases hname
      | into name =>
          have hcons : ns.map Step.into = .into name :: rest.filter (· ≠ .stay) := hsteps.symm
          obtain ⟨first, ns, rfl, hname, hrest⟩ := List.map_eq_cons_iff.mp hcons
          obtain rfl := (Step.into.inj hname).symm
          cases hat : root.at? (here ++ [name]) with
          | none =>
              rw [follow_into_missing hhere hat] at h
              cases h
          | some x =>
              by_cases hlink : ∃ target, x = .link target
              · obtain ⟨target, rfl⟩ := hlink
                exact Or.inr ⟨[name], target, List.cons_ne_nil _ _, by simp, hat⟩
              · rw [follow_into hat fun target hx => hlink ⟨target, hx⟩] at h
                rcases ih h hrest.symm with rfl | ⟨upper, target, -, hpre, hupper⟩
                · exact Or.inl (List.append_cons here name ns).symm
                · refine Or.inr ⟨name :: upper, target, List.cons_ne_nil _ _,
                    List.cons_prefix_cons.mpr ⟨rfl, hpre⟩, ?_⟩
                  rw [List.append_cons]
                  exact hupper

/-- Making directories makes no links and takes none away. -/
theorem linkOnWay_of_growsTo (hgrow : t.root.GrowsTo t'.root) :
    t'.root.LinkOnWay l ns ↔ t.root.LinkOnWay l ns := by
  refine exists_congr fun upper => exists_congr fun target => ?_
  rw [hgrow.others _ (.link target) rfl]

/-- A directory that a path leads to is the one it leads to in a grown tree. -/
theorem ResolvesTo.of_growsTo (h : t.ResolvesTo p l) (hgrow : t.root.GrowsTo t'.root)
    (hplace : t'.workplace = t.workplace) : t'.ResolvesTo p l := by
  obtain ⟨htext, hfollow⟩ := locate_eq_ok_iff_follow.mp h.1
  refine ⟨locate_eq_ok_iff_follow.mpr ⟨htext, ?_⟩, hgrow.directories l h.2⟩
  rw [hplace]
  exact follow_of_growsTo hgrow hfollow

theorem ResolvesTo.unique {l' : Location} (h : t.ResolvesTo p l) (h' : t.ResolvesTo p l') : l = l' :=
  Except.ok.inj (h.1.symm.trans h'.1)

/-! ## §B The end of a contained path -/

/-- The steps of a path without a slash at its end lead to the same directory. -/
theorem resolvesTo_of_lead (htext : p.text.toList ≠ [])
    (h : follow t.root linkLimit (origin t.workplace p) p.lead = .ok l)
    (hl : t.root.DirAt l) : t.ResolvesTo p l := by
  refine ⟨locate_eq_ok_iff_follow.mpr ⟨htext, ?_⟩, hl⟩
  rcases p.steps_eq_or with hsteps | hsteps
  · rw [hsteps]
    exact h
  · have hnil : follow t.root linkLimit (origin t.workplace p) (p.lead ++ []) = .ok l := by
      rw [List.append_nil]
      exact h
    -- A slash at the end is one more step, which leads nowhere but needs a directory.
    obtain ⟨middle, links', hmiddle, hon⟩ := exists_follow_of_append hnil
    obtain rfl := Except.ok.inj (hmiddle.symm.trans h)
    rw [hsteps, hon, follow_stay hl, follow]

/-- **`ending_join`** — a contained path ends below the directory that its base leads to, at its own names
or behind a link. -/
theorem ending_join {s : Slot} (hbase : base.text.toList ≠ []) (htext : next.text.toList ≠ [])
    (hnext : next.isContained = true) (h : t.ending (base.join next) = .ok (.slot s)) :
    ∃ dir, t.ResolvesTo base dir ∧ next.names ≠ [] ∧
      (s.location = dir ++ next.names ∨ t.root.LinkOnWay dir next.names) := by
  obtain ⟨hrelative, htrail⟩ := Path.isContained_iff.mp hnext
  obtain ⟨before, last, hlead⟩ :=
    (List.eq_nil_or_concat next.lead).resolve_left (Path.lead_ne_nil hrelative htext)
  rw [List.concat_eq_append] at hlead
  obtain ⟨-, dir', hfollow, hdir', hend⟩ := ending_eq_ok h
  have horigin : origin t.workplace (base.join next) = origin t.workplace base := by
    rw [origin, origin, Path.isAbsolute_join hbase hrelative]
  have hjoined : (base.join next).lead = base.lead ++ before ++ [last] := by
    rw [Path.lead_join hbase hrelative, hlead, List.append_assoc]
  rw [horigin, hjoined, List.dropLast_concat] at hfollow
  obtain ⟨dir, links', hdir, hon⟩ := exists_follow_of_append hfollow
  rw [hon] at hfollow
  -- Only a name at the end of the path makes a slot.
  obtain ⟨name, rfl, hlocation⟩ : ∃ name, last = .into name ∧ s.location = dir' ++ [name] := by
    rw [endingIn, hjoined, List.getLast?_concat] at hend
    cases last with
    | stay => cases hend
    | up => cases hend
    | into name =>
        obtain rfl := Ending.slot.inj hend
        exact ⟨name, rfl, rfl⟩
  have hnames : before.filter (· ≠ .stay) ++ [.into name] = next.names.map .into := by
    rw [← htrail]
    show _ = next.lead.filter (· ≠ .stay)
    rw [hlead, List.filter_append]
    rfl
  -- So the last of the names is the slot's own, and those before it lead to its directory.
  obtain ⟨ns, rest, hsplit, hns, hname⟩ := List.map_eq_append_iff.mp hnames.symm
  obtain ⟨last, rfl, hlast⟩ := List.map_eq_singleton_iff.mp hname
  obtain rfl := Step.into.inj hlast
  rw [hsplit]
  refine ⟨dir, resolvesTo_of_lead hbase hdir (dirAt_of_follow hfollow hdir'), by simp, ?_⟩
  rcases follow_names_or_link hfollow hns.symm with rfl | ⟨upper, target, hne, hpre, hat⟩
  · exact Or.inl (hlocation.trans (List.append_assoc dir ns [last]))
  · refine Or.inr ⟨upper, target, hne, hpre.trans (List.prefix_append ns [last]), ?_, hat⟩
    rintro rfl
    have hlength := hpre.length_le
    rw [List.length_append, List.length_singleton] at hlength
    omega

end FileTree

/-! ## §C What is moved -/

namespace Quarantine

open FileTree (Prepared Renamed ResolvesTo)

variable {q : Quarantine} {t : FileTree} {relPath : String}

/-- Only names below the place where it begins make a path that is not refused. -/
theorem relocate_of_refused (h : isMovable relPath = false) : (q.relocate t relPath).tree = t := by
  rw [relocate]
  split
  · rfl
  · rw [move, h]
    rfl

theorem prepared_of_not_moved (h : (q.relocate t relPath).outcome.isMoved = false) :
    Prepared (q.destination relPath) t (q.relocate t relPath).tree := by
  have heffects := move_effects q t relPath
  rw [relocate] at h ⊢
  split at h
  · rename_i hexists
    rw [if_pos hexists]
    exact .start
  · rename_i hfree
    rw [if_neg hfree]
    cases hmove : q.move t relPath with
    | mk t' failure =>
        rw [hmove] at heffects h
        cases failure with
        | some e => exact heffects.1
        | none => cases h

/-- A move carries the entry that the plugin's path ends in to the place that the destination ends in. -/
theorem exists_renamed_of_moved (h : (q.relocate t relPath).outcome.isMoved = true) :
    ∃ t₁ a b, Prepared (q.destination relPath) t t₁ ∧ t.ending (q.source relPath) = .ok (.slot a) ∧
      t₁.ending (q.destination relPath) = .ok (.slot b) ∧
      Renamed a.location b.location t₁ (q.relocate t relPath).tree := by
  have heffects := move_effects q t relPath
  rw [relocate] at h ⊢
  split at h
  · cases h
  · rename_i hfree
    rw [if_neg hfree]
    cases hmove : q.move t relPath with
    | mk t' failure =>
        rw [hmove] at heffects h
        cases failure with
        | some e => cases h
        | none =>
            obtain ⟨hdirectory, t₁, hprepared, hrename⟩ := heffects
            obtain ⟨hgrow, hplace⟩ := hprepared.growsTo
            obtain ⟨a, b, hsource, hdestination, hrenamed⟩ := FileTree.renamed_of_rename hrename
            -- Where the source ends was settled before the directories were made.
            obtain ⟨e, hend⟩ := FileTree.exists_ending_of_isDirectory hdirectory
            have hsame := FileTree.ending_of_growsTo hgrow hplace hend
            obtain rfl := Except.ok.inj (hsource.symm.trans hsame)
            exact ⟨t₁, a, b, hprepared, hend, hdestination, hrenamed⟩

/-- **`relocate_stays_inside`** — a path that is empty, absolute or climbs changes nothing, and where
nothing is moved there are at most new directories above the destination. What is moved was at the names
of its path below the directory that the path of the plugins directory leads to, and it comes to the same
names below the one that the path of the quarantine directory leads to. The one or the other may be
wrong only where a link is among these names, the last one aside. -/
theorem relocate_stays_inside (q : Quarantine) (t : FileTree) (relPath : String)
    (hplugins : q.pluginsDir.text.toList ≠ []) (hquarantine : q.quarantineDir.text.toList ≠ []) :
    let r := q.relocate t relPath
    let ns := Path.names ⟨relPath⟩
    (relPath.toList = [] ∨ Path.isAbsolute ⟨relPath⟩ = true ∨ .up ∈ Path.trail ⟨relPath⟩ →
      r.tree = t) ∧
    (r.outcome.isMoved = false → Prepared (q.destination relPath) t r.tree) ∧
    (r.outcome.isMoved = true → ∃ t₁ a b base aside,
      Prepared (q.destination relPath) t t₁ ∧ Renamed a b t₁ r.tree ∧
        t.ResolvesTo q.pluginsDir base ∧ t₁.ResolvesTo q.quarantineDir aside ∧
        (∀ l, t.ResolvesTo q.quarantineDir l → l = aside) ∧ ns ≠ [] ∧
        (a = base ++ ns ∨ t.root.LinkOnWay base ns) ∧
        (b = aside ++ ns ∨ t.root.LinkOnWay aside ns)) := by
  dsimp only
  refine ⟨fun h => ?_, prepared_of_not_moved, fun hmoved => ?_⟩
  · refine relocate_of_refused (Bool.eq_false_iff.mpr fun hmovable => ?_)
    obtain ⟨htext, hcontained⟩ := isMovable_iff.mp hmovable
    obtain ⟨hrelative, htrail⟩ := Path.isContained_iff.mp hcontained
    rcases h with h | h | h
    · exact htext h
    · rw [hrelative] at h
      cases h
    · rw [htrail] at h
      obtain ⟨name, -, hname⟩ := List.mem_map.mp h
      cases hname
  · obtain ⟨htext, hcontained⟩ := isMovable_iff.mp (isMovable_of_moved hmoved)
    obtain ⟨t₁, a, b, hprepared, hsource, hdestination, hrenamed⟩ := exists_renamed_of_moved hmoved
    obtain ⟨hgrow, hplace⟩ := hprepared.growsTo
    obtain ⟨base, hbase, hns, ha⟩ := FileTree.ending_join hplugins htext hcontained hsource
    obtain ⟨aside, haside, -, hb⟩ := FileTree.ending_join hquarantine htext hcontained hdestination
    refine ⟨t₁, a.location, b.location, base, aside, hprepared, hrenamed, hbase, haside,
      fun l hl => (hl.of_growsTo hgrow hplace).unique haside, hns, ha, hb.imp_right ?_⟩
    exact (FileTree.linkOnWay_of_growsTo hgrow).mp

/-! ## §D A link out of the plugins tree -/

/-- What comes of a move to a free place in a directory that exists. -/
theorem relocate_eq_moved (parent : Path) {t' : FileTree} {es es' : List (String × FileNode)}
    (hmovable : isMovable relPath = true) (hmissing : t.exists? (q.destination relPath) = false)
    (hsource : t.find (q.source relPath) = .ok (.directory es))
    (hparent : (q.destination relPath).parent? = some parent)
    (hready : t.find parent = .ok (.directory es'))
    (hrename : t.rename (q.source relPath) (q.destination relPath) = .ok t') :
    q.relocate t relPath = ⟨t', .moved (q.display (q.destination relPath))⟩ := by
  have hdirectory : t.isDirectory (q.source relPath) = true := FileTree.holds_iff.mpr ⟨_, hsource, rfl⟩
  have hexists : t.exists? parent = true := FileTree.holds_iff.mpr ⟨_, hready, rfl⟩
  have hisDirectory : t.isDirectory parent = true := FileTree.holds_iff.mpr ⟨_, hready, rfl⟩
  have hensured : ensureParent t (q.destination relPath) = (t, none) := by
    rw [ensureParent, hparent]
    simp only [ensureDirectory, hexists, hisDirectory, if_true]
  have hmove : q.move t relPath = (t', none) := by
    rw [move, hmovable, hdirectory, hensured]
    simp only [Bool.not_true, Bool.false_eq_true, if_false, hrename]
  simp only [relocate, hmissing, Bool.false_eq_true, if_false, hmove]

/-- A plugins directory with a plugin `a` and a link to a directory beside it. -/
def outsideTree : FileTree :=
  ⟨.directory [("outside", .directory [("x", .directory [])]),
    ("plugins", .directory [(".needs-work", .directory [("link", .directory [])]),
      ("a", .directory []), ("link", .link ⟨"../outside"⟩)])], []⟩

def needsWork : Quarantine := ⟨⟨"/plugins"⟩, ⟨"/plugins/.needs-work"⟩⟩

theorem needsWork_paths :
    needsWork.source "a" = ⟨"/plugins/a"⟩ ∧
      needsWork.destination "a" = ⟨"/plugins/.needs-work/a"⟩ ∧
      needsWork.source "link/x" = ⟨"/plugins/link/x"⟩ ∧
      needsWork.destination "link/x" = ⟨"/plugins/.needs-work/link/x"⟩ := by
  decide

theorem isMoved_outsideTree : (needsWork.relocate outsideTree "a").outcome.isMoved = true := by
  obtain ⟨hsource, hdestination, -, -⟩ := needsWork_paths
  have hfind : outsideTree.find ⟨"/plugins/a"⟩ = .ok (.directory []) :=
    FileTree.find_of_names ["plugins", "a"] (by decide) (by decide) rfl (FileNode.directory_ne_link _)
  have hready : outsideTree.find ⟨"/plugins/.needs-work"⟩
      = .ok (.directory [("link", .directory [])]) :=
    FileTree.find_of_names ["plugins", ".needs-work"] (by decide) (by decide) rfl
      (FileNode.directory_ne_link _)
  have hbefore : outsideTree.ending ⟨"/plugins/a"⟩ = .ok (.slot ⟨["plugins"], "a", false⟩) :=
    FileTree.ending_eq_of_follow (by decide)
      (FileTree.follow_names ["plugins"] rfl (FileNode.directory_ne_link _)) ⟨_, rfl⟩
  have hafter : outsideTree.ending ⟨"/plugins/.needs-work/a"⟩
      = .ok (.slot ⟨["plugins", ".needs-work"], "a", false⟩) :=
    FileTree.ending_eq_of_follow (by decide)
      (FileTree.follow_names ["plugins", ".needs-work"] rfl (FileNode.directory_ne_link _)) ⟨_, rfl⟩
  obtain ⟨t', hrename⟩ : ∃ t',
      outsideTree.rename ⟨"/plugins/a"⟩ ⟨"/plugins/.needs-work/a"⟩ = .ok t' := by
    rw [FileTree.rename, hbefore, hafter]
    exact ⟨_, rfl⟩
  have hmissing : outsideTree.exists? ⟨"/plugins/.needs-work/a"⟩ = false :=
    FileTree.not_exists_of_names ["plugins", ".needs-work"] "a" (by decide) ⟨_, rfl⟩ rfl
  rw [← hsource] at hfind hrename
  rw [← hdestination] at hmissing hrename
  rw [relocate_eq_moved ⟨"/plugins/.needs-work"⟩ (by decide) hmissing hfind (by decide) hready
    hrename]
  rfl

/-- In the tree with the link, the plugin beside it is moved from below the one directory to below the
other. -/
theorem relocate_stays_inside_beside_link :
    needsWork.pluginsDir.text.toList ≠ [] ∧ needsWork.quarantineDir.text.toList ≠ [] ∧
      (needsWork.relocate outsideTree "a").outcome.isMoved = true ∧
      ∃ t₁ a b base aside, Renamed a b t₁ (needsWork.relocate outsideTree "a").tree ∧
        outsideTree.ResolvesTo needsWork.pluginsDir base ∧
        t₁.ResolvesTo needsWork.quarantineDir aside ∧
        (a = base ++ Path.names ⟨"a"⟩ ∨ outsideTree.root.LinkOnWay base (Path.names ⟨"a"⟩)) ∧
        (b = aside ++ Path.names ⟨"a"⟩ ∨ outsideTree.root.LinkOnWay aside (Path.names ⟨"a"⟩)) := by
  have hplugins : needsWork.pluginsDir.text.toList ≠ [] := by decide
  have hquarantine : needsWork.quarantineDir.text.toList ≠ [] := by decide
  obtain ⟨t₁, a, b, base, aside, -, hrenamed, hbase, haside, -, -, ha, hb⟩ :=
    (relocate_stays_inside needsWork outsideTree "a" hplugins hquarantine).2.2 isMoved_outsideTree
  exact ⟨hplugins, hquarantine, isMoved_outsideTree, t₁, a, b, base, aside, hrenamed, hbase, haside,
    ha, hb⟩

/-- The steps into the link lead out of the plugins directory. -/
theorem follow_link (rest : List Step) : FileTree.follow outsideTree.root FileTree.linkLimit []
      (.into "plugins" :: .into "link" :: rest)
    = FileTree.follow outsideTree.root 39 ["outside"] rest := by
  obtain ⟨es, hes⟩ : ∃ es, outsideTree.root.at? ([] ++ ["plugins"]) = some (.directory es) := ⟨_, rfl⟩
  have hlink : outsideTree.root.at? (["plugins"] ++ ["link"]) = some (.link ⟨"../outside"⟩) := rfl
  obtain ⟨es', hes'⟩ : ∃ es, outsideTree.root.at? ([] ++ ["outside"]) = some (.directory es) := ⟨_, rfl⟩
  have hsteps : Path.steps ⟨"../outside"⟩ = [.up, .into "outside"] := by decide
  rw [FileTree.follow_into hes (FileNode.directory_ne_link es)]
  show FileTree.follow outsideTree.root (39 + 1) ["plugins"] _ = _
  rw [FileTree.follow_into_link hlink (by decide), hsteps]
  show FileTree.follow outsideTree.root 39 ["plugins"] (.up :: .into "outside" :: rest) = _
  have hdir : outsideTree.root.DirAt ["plugins"] := ⟨es, hes⟩
  rw [FileTree.follow_up hdir]
  exact FileTree.follow_into hes' (FileNode.directory_ne_link es')

/-- The tree in which the directory beside the plugins directory has been moved. -/
def drainedTree : FileTree :=
  (outsideTree.update ["outside", "x"] none).update ["plugins", ".needs-work", "link", "x"]
    (some (.directory []))

theorem relocate_link :
    needsWork.relocate outsideTree "link/x" = ⟨drainedTree, .moved "plugins/.needs-work/link/x"⟩ := by
  obtain ⟨-, -, hsource, hdestination⟩ := needsWork_paths
  have hfind : outsideTree.find ⟨"/plugins/link/x"⟩ = .ok (.directory []) := by
    have hsteps : Path.steps ⟨"/plugins/link/x"⟩ = [.into "plugins", .into "link", .into "x"] := by
      decide
    have hplace : FileTree.follow outsideTree.root 39 ["outside"] [.into "x"]
        = .ok ["outside", "x"] := FileTree.follow_names ["x"] rfl (FileNode.directory_ne_link _)
    refine FileTree.find_eq_ok_iff_locate.mpr ⟨["outside", "x"],
      FileTree.locate_eq_ok_iff_follow.mpr ⟨by decide, ?_⟩, rfl⟩
    rw [hsteps]
    exact (follow_link [.into "x"]).trans hplace
  have hready : outsideTree.find ⟨"/plugins/.needs-work/link"⟩ = .ok (.directory []) :=
    FileTree.find_of_names ["plugins", ".needs-work", "link"] (by decide) (by decide) rfl
      (FileNode.directory_ne_link _)
  have hmissing : outsideTree.exists? ⟨"/plugins/.needs-work/link/x"⟩ = false :=
    FileTree.not_exists_of_names ["plugins", ".needs-work", "link"] "x" (by decide) ⟨_, rfl⟩ rfl
  have hbefore : outsideTree.ending ⟨"/plugins/link/x"⟩ = .ok (.slot ⟨["outside"], "x", false⟩) := by
    have hlead : (Path.lead ⟨"/plugins/link/x"⟩).dropLast = [.into "plugins", .into "link"] := by
      decide
    refine FileTree.ending_eq_of_follow (by decide) ?_ ⟨_, rfl⟩
    rw [hlead]
    refine (follow_link []).trans ?_
    rw [FileTree.follow]
  have hafter : outsideTree.ending ⟨"/plugins/.needs-work/link/x"⟩
      = .ok (.slot ⟨["plugins", ".needs-work", "link"], "x", false⟩) :=
    FileTree.ending_eq_of_follow (by decide)
      (FileTree.follow_names ["plugins", ".needs-work", "link"] rfl (FileNode.directory_ne_link _))
      ⟨_, rfl⟩
  have hrename : outsideTree.rename ⟨"/plugins/link/x"⟩ ⟨"/plugins/.needs-work/link/x"⟩
      = .ok drainedTree := by
    rw [FileTree.rename, hbefore, hafter]
    rfl
  have hshown : needsWork.display ⟨"/plugins/.needs-work/link/x"⟩ = "plugins/.needs-work/link/x" := by
    decide
  rw [← hsource] at hfind hrename
  rw [← hdestination] at hmissing hrename hshown
  rw [relocate_eq_moved ⟨"/plugins/.needs-work/link"⟩ (by decide) hmissing hfind (by decide) hready
    hrename, hshown]

/-- **`link_leads_outside`** — the path has names only, and what it moves lies outside the plugins
directory. -/
theorem link_leads_outside :
    outsideTree.ResolvesTo needsWork.pluginsDir ["plugins"] ∧
      (needsWork.relocate outsideTree "link/x").outcome.isMoved = true ∧
      ∃ l, ¬ ["plugins"] <+: l ∧ outsideTree.root.DirAt l ∧
        (needsWork.relocate outsideTree "link/x").tree.root.at? l = none := by
  rw [relocate_link]
  refine ⟨⟨?_, _, rfl⟩, rfl, ["outside", "x"], by decide, ⟨_, rfl⟩, rfl⟩
  exact FileTree.locate_eq_ok_iff_follow.mpr
    ⟨by decide, FileTree.follow_names ["plugins"] rfl (FileNode.directory_ne_link _)⟩

end Quarantine

end PluginVet
