/-
# PluginVet.Proofs.FileTree.Route — where paths lead

In a proper tree no step of a path depends on what is there: `placeOf` is the location that a path
names, and `wayTo` lists the locations on the way to it. What the tree decides is whether the way is
open, that is, whether the path leads through directories only.

A contained path behind one whose way is open names what lies at its names below
(`find_join_eq_ok_iff`), so whether something is found depends only on the node at that place.

§A places, §B following steps, §C finding nodes, §D paths behind each other, §E slots.
-/
import PluginVet.FileTree.Change
import PluginVet.Proofs.FileTree.Update

namespace PluginVet

open PluginVet.Path (Step)

/-! ## §A Places -/

/-- Where a step leads, whatever is there. -/
def Path.Step.move (here : Location) : Step → Location
  | .stay => here
  | .up => here.dropLast
  | .into name => here ++ [name]

namespace Location

/-- Where steps lead. -/
def reach (here : Location) (steps : List Step) : Location := steps.foldl Step.move here

/-- The locations on the way, both ends included. -/
def way (here : Location) : List Step → List Location
  | [] => [here]
  | s :: rest => here :: way (s.move here) rest

variable {here l : Location} {steps steps' : List Step} {ns : List String}

theorem reach_append (here : Location) (steps steps' : List Step) :
    reach here (steps ++ steps') = reach (reach here steps) steps' :=
  List.foldl_append

theorem reach_into (here : Location) (ns : List String) :
    reach here (ns.map .into) = here ++ ns := by
  induction ns generalizing here with
  | nil => exact (List.append_nil here).symm
  | cons name rest ih =>
      show reach (here ++ [name]) (rest.map .into) = here ++ name :: rest
      rw [ih, List.append_assoc, List.singleton_append]

theorem reach_filter (here : Location) (steps : List Step) :
    reach here (steps.filter (· ≠ .stay)) = reach here steps := by
  induction steps generalizing here with
  | nil => rfl
  | cons s rest ih =>
      cases s with
      | stay => exact ih here
      | up => exact ih here.dropLast
      | into name => exact ih (here ++ [name])

theorem self_mem_way (here : Location) (steps : List Step) : here ∈ way here steps := by
  cases steps <;> exact List.mem_cons_self

theorem reach_mem_way (here : Location) (steps : List Step) :
    reach here steps ∈ way here steps := by
  induction steps generalizing here with
  | nil => exact List.mem_cons_self
  | cons s rest ih => exact List.mem_cons_of_mem here (ih (s.move here))

theorem mem_way_append :
    l ∈ way here (steps ++ steps') ↔ l ∈ way here steps ∨ l ∈ way (reach here steps) steps' := by
  induction steps generalizing here with
  | nil =>
      refine ⟨Or.inr, ?_⟩
      rintro (h | h)
      · obtain rfl := List.mem_singleton.mp h
        exact self_mem_way l steps'
      · exact h
  | cons s rest ih =>
      show l ∈ here :: way (s.move here) (rest ++ steps') ↔ l ∈ here :: way (s.move here) rest ∨ _
      rw [List.mem_cons, List.mem_cons, ih, or_assoc]
      rfl

theorem mem_way_filter : l ∈ way here (steps.filter (· ≠ .stay)) ↔ l ∈ way here steps := by
  induction steps generalizing here with
  | nil => rfl
  | cons s rest ih =>
      cases s with
      | stay =>
          show l ∈ way here (rest.filter (· ≠ .stay)) ↔ l ∈ here :: way here rest
          rw [ih, List.mem_cons]
          refine ⟨Or.inr, ?_⟩
          rintro (rfl | h)
          · exact self_mem_way l rest
          · exact h
      | up =>
          show l ∈ here :: way here.dropLast (rest.filter (· ≠ .stay)) ↔ l ∈ here :: way _ rest
          rw [List.mem_cons, List.mem_cons, ih]
          rfl
      | into name =>
          show l ∈ here :: way (here ++ [name]) (rest.filter (· ≠ .stay)) ↔ l ∈ here :: way _ rest
          rw [List.mem_cons, List.mem_cons, ih]
          rfl

theorem mem_way_into : l ∈ way here (ns.map .into) ↔ ∃ before, before <+: ns ∧ l = here ++ before := by
  induction ns generalizing here with
  | nil =>
      constructor
      · intro h
        exact ⟨[], List.prefix_refl [], by rw [List.mem_singleton.mp h, List.append_nil]⟩
      · rintro ⟨before, hbefore, rfl⟩
        rw [List.prefix_nil.mp hbefore, List.append_nil]
        exact List.mem_singleton.mpr rfl
  | cons name rest ih =>
      show l ∈ here :: way (here ++ [name]) (rest.map .into) ↔ _
      rw [List.mem_cons, ih]
      constructor
      · rintro (rfl | ⟨before, hbefore, rfl⟩)
        · exact ⟨[], List.nil_prefix, (List.append_nil l).symm⟩
        · exact ⟨name :: before, List.cons_prefix_cons.mpr ⟨rfl, hbefore⟩, by simp⟩
      · rintro ⟨before, hbefore, rfl⟩
        cases before with
        | nil => exact Or.inl (List.append_nil here)
        | cons x xs =>
            obtain ⟨rfl, hxs⟩ := List.cons_prefix_cons.mp hbefore
            exact Or.inr ⟨xs, hxs, by simp⟩

end Location

open Location (reach way)

/-! ## §B Following steps -/

namespace FileNode

/-- **`Walkable n here steps`** — each step begins in a directory and leads to a node. -/
def Walkable (n : FileNode) : Location → List Step → Prop
  | _, [] => True
  | here, s :: rest => n.DirAt here ∧ (n.at? (s.move here)).isSome ∧ n.Walkable (s.move here) rest

variable {n : FileNode} {here l : Location} {steps steps' : List Step}

theorem walkable_append : n.Walkable here (steps ++ steps') ↔
    n.Walkable here steps ∧ n.Walkable (reach here steps) steps' := by
  induction steps generalizing here with
  | nil => exact ⟨fun h => ⟨trivial, h⟩, fun h => h.2⟩
  | cons s rest ih =>
      show n.DirAt here ∧ _ ∧ n.Walkable (s.move here) (rest ++ steps') ↔
        (n.DirAt here ∧ _ ∧ n.Walkable (s.move here) rest) ∧ _
      rw [ih, and_assoc, and_assoc]
      rfl

theorem DirAt.isSome (h : n.DirAt l) : (n.at? l).isSome := by
  obtain ⟨es, hes⟩ := h
  rw [hes]
  rfl

/-- What lies above a directory is a directory. -/
theorem DirAt.above {ns before : List String} (h : n.DirAt (here ++ ns)) (hpre : before <+: ns) :
    n.DirAt (here ++ before) := by
  obtain ⟨rest, rfl⟩ := hpre
  rw [← List.append_assoc] at h
  cases rest with
  | nil => rwa [List.append_nil] at h
  | cons name rest => exact dirAt_of_at?_append (List.cons_ne_nil name rest) h.isSome

/-- A way that ends in a directory is one through directories. -/
theorem walkable_and_dirAt_iff :
    n.Walkable here steps ∧ n.DirAt (reach here steps) ↔ ∀ l ∈ way here steps, n.DirAt l := by
  induction steps generalizing here with
  | nil =>
      refine ⟨fun h l hl => ?_, fun h => ⟨trivial, h here List.mem_cons_self⟩⟩
      rw [List.mem_singleton.mp hl]
      exact h.2
  | cons s rest ih =>
      constructor
      · rintro ⟨⟨hhere, -, hrest⟩, hend⟩ l hl
        rcases List.mem_cons.mp hl with rfl | hl
        · exact hhere
        · exact ih.mp ⟨hrest, hend⟩ l hl
      · intro h
        obtain ⟨hrest, hend⟩ := ih.mpr fun l hl => h l (List.mem_cons_of_mem here hl)
        refine ⟨⟨h here List.mem_cons_self, ?_, hrest⟩, hend⟩
        exact (h _ (List.mem_cons_of_mem here (Location.self_mem_way _ rest))).isSome

theorem dirAt_way_filter_iff :
    (∀ l ∈ way here (steps.filter (· ≠ .stay)), n.DirAt l) ↔ ∀ l ∈ way here steps, n.DirAt l :=
  forall_congr' fun _ => imp_congr_left Location.mem_way_filter

/-- Names lead through directories where the last of them is one. -/
theorem walkable_names_iff {ns : List String} (h : steps.filter (· ≠ .stay) = ns.map .into) :
    n.Walkable here steps ∧ n.DirAt (reach here steps) ↔ n.DirAt (here ++ ns) := by
  rw [walkable_and_dirAt_iff, ← dirAt_way_filter_iff, h]
  constructor
  · intro hway
    exact hway _ (Location.mem_way_into.mpr ⟨ns, List.prefix_refl ns, rfl⟩)
  · intro hdir l hl
    obtain ⟨before, hpre, rfl⟩ := Location.mem_way_into.mp hl
    exact hdir.above hpre

/-- What a step must find, seen from a directory. -/
theorem isSome_at?_move {es : List (String × FileNode)} (hes : n.at? here = some (.directory es)) :
    (n.at? (Step.stay.move here)).isSome ∧ (n.at? (Step.up.move here)).isSome ∧
      ∀ name, n.at? ((Step.into name).move here) = Keyed.get? es name := by
  refine ⟨by rw [Step.move, hes]; rfl, ?_, ?_⟩
  · show (n.at? here.dropLast).isSome
    cases hup : n.at? here.dropLast with
    | some m => rfl
    | none =>
        rcases List.eq_nil_or_concat here with rfl | ⟨before, last, rfl⟩
        · exact absurd hup (Option.some_ne_none n)
        · rw [List.concat_eq_append] at hes hup
          rw [List.dropLast_concat] at hup
          rw [at?_append_eq_none hup] at hes
          exact absurd hes.symm (Option.some_ne_none _)
  · intro name
    show n.at? (here ++ [name]) = _
    rw [at?_append, hes]
    show (directory es).at? [name] = Keyed.get? es name
    rw [at?_cons]
    cases h : Keyed.get? es name <;> simp [entries, h]

end FileNode

namespace FileTree

open FileNode (walkable_and_dirAt_iff walkable_append)

variable {root : FileNode} {here l : Location} {steps : List Step} {links : Nat}

/-- **`follow_eq_ok_iff`** — in a proper tree steps are followed where each of them can be made, to the
place that they reach. -/
theorem follow_eq_ok_iff (hroot : root.Proper) :
    follow root links here steps = .ok l ↔
      root.Walkable here steps ∧ l = reach here steps := by
  induction steps generalizing here with
  | nil =>
      rw [follow]
      constructor
      · intro h
        exact ⟨trivial, (Except.ok.inj h).symm⟩
      · rintro ⟨-, rfl⟩
        rfl
  | cons s rest ih =>
      have hwalk : root.Walkable here (s :: rest) ∧ l = reach here (s :: rest) ↔
          root.DirAt here ∧ (root.at? (s.move here)).isSome ∧
            root.Walkable (s.move here) rest ∧ l = reach (s.move here) rest := by
        show (root.DirAt here ∧ _ ∧ _) ∧ _ ↔ _
        rw [and_assoc, and_assoc]
        rfl
      rw [follow, hwalk]
      split
      · rename_i es hes
        -- From a directory only a name can lead nowhere, and in a proper tree to no link.
        obtain ⟨hstay, hup, hinto⟩ := FileNode.isSome_at?_move hes
        have hdir : root.DirAt here := ⟨es, hes⟩
        cases s with
        | stay =>
            show follow root links here rest = .ok l ↔ _
            rw [ih]
            exact ⟨fun h => ⟨hdir, hstay, h⟩, fun h => h.2.2⟩
        | up =>
            show follow root links here.dropLast rest = .ok l ↔ _
            rw [ih]
            exact ⟨fun h => ⟨hdir, hup, h⟩, fun h => h.2.2⟩
        | into name =>
            have hname := hinto name
            dsimp only
            split
            · rename_i hnone
              rw [hname, hnone]
              refine ⟨fun h => ?_, fun h => absurd h.2.1 Bool.false_ne_true⟩
              cases h
            · rename_i target hlink
              exact absurd (hname.trans hlink) hroot.not_link
            · rename_i node hnode hsome
              rw [ih, hname, hsome]
              exact ⟨fun h => ⟨hdir, rfl, h⟩, fun h => h.2.2⟩
      · rename_i hno
        constructor
        · intro h
          cases h
        · rintro ⟨⟨es, hes⟩, -⟩
          exact absurd hes (hno es)

/-! ## §C Finding nodes -/

variable {t : FileTree} {p base next : Path} {x : FileNode} {ns : List String}

/-- **`placeOf t p`** — the location that a path names where there are no links. -/
def placeOf (t : FileTree) (p : Path) : Location := reach (origin t.workplace p) p.trail

/-- The locations through which a path leads. -/
def wayTo (t : FileTree) (p : Path) : List Location := way (origin t.workplace p) p.trail

/-- **`OpenTo t p`** — the path leads through directories to a directory. -/
def OpenTo (t : FileTree) (p : Path) : Prop := ∀ l ∈ t.wayTo p, t.root.DirAt l

theorem placeOf_eq (t : FileTree) (p : Path) :
    t.placeOf p = reach (origin t.workplace p) p.steps := by
  rw [placeOf, ← Path.filter_steps, Location.reach_filter]

theorem OpenTo.dirAt (h : t.OpenTo p) : t.root.DirAt (t.placeOf p) := h _ (Location.reach_mem_way _ _)

theorem openTo_iff :
    t.OpenTo p ↔ t.root.Walkable (origin t.workplace p) p.steps ∧ t.root.DirAt (t.placeOf p) := by
  rw [placeOf_eq, walkable_and_dirAt_iff, ← FileNode.dirAt_way_filter_iff, Path.filter_steps]
  rfl

/-- Where a path leads, links included. -/
theorem locate_eq_ok_iff_follow : t.locate p = .ok l ↔ p.text.toList ≠ [] ∧
    follow t.root linkLimit (origin t.workplace p) p.steps = .ok l := by
  have hempty : p.text.isEmpty = true ↔ p.text.toList = [] := by
    rw [String.isEmpty_iff, ← String.toList_inj]
    rfl
  rw [locate]
  split
  · rename_i htext
    refine ⟨fun h => ?_, fun h => absurd (hempty.mp htext) h.1⟩
    cases h
  · rename_i htext
    exact ⟨fun h => ⟨fun hnil => htext (hempty.mpr hnil), h⟩, fun h => h.2⟩

theorem find_eq_ok_iff_locate : t.find p = .ok x ↔ ∃ l, t.locate p = .ok l ∧ t.at? l = some x := by
  rw [find]
  cases t.locate p with
  | error cause =>
      constructor
      · intro h
        cases h
      · rintro ⟨l, h, -⟩
        cases h
  | ok l =>
      simp only [bind, Except.bind]
      split
      · rename_i n hn
        constructor
        · intro h
          exact ⟨l, rfl, hn.trans (congrArg some (Except.ok.inj h))⟩
        · rintro ⟨l', hl', hat⟩
          obtain rfl := Except.ok.inj hl'
          exact congrArg Except.ok (Option.some.inj (hn.symm.trans hat))
      · rename_i hn
        constructor
        · intro h
          cases h
        · rintro ⟨l', hl', hat⟩
          obtain rfl := Except.ok.inj hl'
          exact absurd (hat.symm.trans hn) (Option.some_ne_none x)

theorem text_ne_nil_of_find (h : t.find p = .ok x) : p.text.toList ≠ [] := by
  obtain ⟨l, hlocate, -⟩ := find_eq_ok_iff_locate.mp h
  exact (locate_eq_ok_iff_follow.mp hlocate).1

/-- What a path names in a sound tree is sound. -/
theorem sound_of_find (ht : t.Sound) (h : t.find p = .ok x) : x.Sound := by
  obtain ⟨l, -, hat⟩ := find_eq_ok_iff_locate.mp h
  exact (FileNode.Sound.at? ht hat).1

/-- **`locate_eq_ok_iff`** — a path whose steps can be made is found at its place. -/
theorem locate_eq_ok_iff (ht : t.Proper) : t.locate p = .ok l ↔
    p.text.toList ≠ [] ∧ t.root.Walkable (origin t.workplace p) p.steps ∧ l = t.placeOf p := by
  rw [locate_eq_ok_iff_follow, follow_eq_ok_iff ht, placeOf_eq]

/-- **`find_eq_ok_iff`** — what a path finds is the node at its place. -/
theorem find_eq_ok_iff (ht : t.Proper) : t.find p = .ok x ↔
    p.text.toList ≠ [] ∧ t.root.Walkable (origin t.workplace p) p.steps ∧
      t.at? (t.placeOf p) = some x := by
  rw [find_eq_ok_iff_locate]
  constructor
  · rintro ⟨l, hlocate, hat⟩
    obtain ⟨htext, hwalk, rfl⟩ := (locate_eq_ok_iff ht).mp hlocate
    exact ⟨htext, hwalk, hat⟩
  · rintro ⟨htext, hwalk, hat⟩
    exact ⟨_, (locate_eq_ok_iff ht).mpr ⟨htext, hwalk, rfl⟩, hat⟩

theorem holds_iff {what : FileNode → Bool} :
    t.holds p what = true ↔ ∃ x, t.find p = .ok x ∧ what x = true := by
  unfold holds
  cases hfind : t.find p with
  | error e =>
      constructor
      · intro h
        exact absurd h Bool.false_ne_true
      · rintro ⟨x, hx, -⟩
        cases hx
  | ok x =>
      constructor
      · intro h
        exact ⟨x, rfl, h⟩
      · rintro ⟨y, hy, h⟩
        exact Except.ok.inj hy ▸ h

theorem exists?_of_isDirectory (h : t.isDirectory p = true) : t.exists? p = true := by
  obtain ⟨x, hfind, -⟩ := holds_iff.mp h
  exact holds_iff.mpr ⟨x, hfind, rfl⟩

theorem isDirectory_of_find {es : List (String × FileNode)} (h : t.find p = .ok (.directory es)) :
    t.isDirectory p = true :=
  holds_iff.mpr ⟨_, h, rfl⟩

theorem isDirectory_iff (ht : t.Proper) :
    t.isDirectory p = true ↔ p.text.toList ≠ [] ∧ t.OpenTo p := by
  rw [isDirectory, holds_iff, openTo_iff]
  constructor
  · rintro ⟨x, hfind, hx⟩
    obtain ⟨htext, hwalk, hat⟩ := (find_eq_ok_iff ht).mp hfind
    cases x with
    | directory es => exact ⟨htext, hwalk, es, hat⟩
    | file bytes => exact absurd hx Bool.false_ne_true
    | link target => exact absurd hx Bool.false_ne_true
  · rintro ⟨htext, hwalk, es, hes⟩
    exact ⟨.directory es, (find_eq_ok_iff ht).mpr ⟨htext, hwalk, hes⟩, rfl⟩

/-- A path that never goes up leads to the directory that it names. -/
theorem openTo_of_dirAt (hup : .up ∉ p.trail) (h : t.root.DirAt (t.placeOf p)) : t.OpenTo p := by
  have htrail := Path.trail_eq_map_names hup
  intro l hl
  rw [placeOf, htrail, Location.reach_into] at h
  rw [wayTo, htrail] at hl
  obtain ⟨before, hpre, rfl⟩ := Location.mem_way_into.mp hl
  exact h.above hpre

/-! ## §D Paths behind each other -/

theorem dirAt_way_behind :
    (∀ l ∈ way (origin t.workplace base) (base.trail ++ ns.map .into), t.root.DirAt l) ↔
      t.OpenTo base ∧ t.root.DirAt (t.placeOf base ++ ns) := by
  simp only [Location.mem_way_append, Location.mem_way_into]
  constructor
  · intro h
    exact ⟨fun l hl => h l (Or.inl hl), h _ (Or.inr ⟨ns, List.prefix_refl ns, rfl⟩)⟩
  · rintro ⟨hopen, hdir⟩ l (hl | ⟨before, hpre, rfl⟩)
    · exact hopen l hl
    · exact hdir.above hpre

section Behind

variable (hp : p.trail = base.trail ++ ns.map .into) (habs : p.isAbsolute = base.isAbsolute)
include hp habs

/-- A path that goes on with names behind another one leads to these names there. -/
theorem placeOf_behind (t : FileTree) : t.placeOf p = t.placeOf base ++ ns := by
  rw [placeOf, hp, Location.reach_append, Location.reach_into, origin, habs]
  rfl

theorem openTo_behind_iff :
    t.OpenTo p ↔ t.OpenTo base ∧ t.root.DirAt (t.placeOf base ++ ns) := by
  rw [OpenTo, wayTo, origin, hp, habs]
  exact dirAt_way_behind

end Behind

section Join

variable (hbase : base.text.toList ≠ []) (hnext : next.isContained = true)
include hbase hnext

theorem trail_join_contained : (base.join next).trail = base.trail ++ next.names.map .into := by
  obtain ⟨hrelative, htrail⟩ := Path.isContained_iff.mp hnext
  rw [Path.trail_join hbase hrelative, ← htrail]

theorem isAbsolute_join_contained : (base.join next).isAbsolute = base.isAbsolute :=
  Path.isAbsolute_join hbase (Path.isContained_iff.mp hnext).1

theorem placeOf_join (t : FileTree) : t.placeOf (base.join next) = t.placeOf base ++ next.names :=
  placeOf_behind (trail_join_contained hbase hnext) (isAbsolute_join_contained hbase hnext) t

theorem openTo_join_iff : t.OpenTo (base.join next) ↔
    t.OpenTo base ∧ t.root.DirAt (t.placeOf base ++ next.names) :=
  openTo_behind_iff (trail_join_contained hbase hnext) (isAbsolute_join_contained hbase hnext)

end Join

/-- A slash or point at the end of a path asks for a directory. -/
def AsksFor (p : Path) (x : FileNode) : Prop :=
  p.steps.getLast? = some .stay → x.isDirectory = true

/-- The steps of a contained path can be made where its names lead to a node. -/
theorem walkable_contained_iff (hnext : next.isContained = true)
    (hx : root.at? (l ++ next.names) = some x) : root.Walkable l next.steps ↔ AsksFor next x := by
  obtain ⟨before, s, hsteps⟩ := (List.eq_nil_or_concat next.steps).resolve_left next.steps_ne_nil
  rw [List.concat_eq_append] at hsteps
  have htrail : (before ++ [s]).filter (· ≠ .stay) = next.names.map .into := by
    rw [← hsteps, Path.filter_steps, (Path.isContained_iff.mp hnext).2]
  have hend : (root.at? (s.move (reach l before))).isSome := by
    have hmove : s.move (reach l before) = l ++ next.names := by
      show reach (reach l before) [s] = _
      rw [← Location.reach_append, ← Location.reach_filter, htrail, Location.reach_into]
    rw [hmove, hx]
    rfl
  have hsplit : root.Walkable l next.steps ↔ root.Walkable l before ∧ root.DirAt (reach l before) := by
    rw [hsteps, FileNode.walkable_append]
    exact ⟨fun h => ⟨h.1, h.2.1⟩, fun h => ⟨h.1, h.2, hend, trivial⟩⟩
  rw [hsplit, AsksFor, hsteps, List.getLast?_concat, Option.some.injEq]
  rw [List.filter_append] at htrail
  cases s with
  | stay =>
      -- The point at the end must find a directory at the node itself.
      have hbefore : before.filter (· ≠ .stay) = next.names.map .into := by
        rw [← htrail]
        exact (List.append_nil _).symm
      rw [FileNode.walkable_names_iff hbefore, FileNode.isDirectory_iff]
      constructor
      · rintro ⟨es, hes⟩ -
        exact ⟨es, Option.some.inj (hx.symm.trans hes)⟩
      · intro h
        obtain ⟨es, rfl⟩ := h rfl
        exact ⟨es, hx⟩
  | up =>
      have hup : Step.up ∈ next.names.map Step.into := by
        rw [← htrail]
        exact List.mem_append_right _ (List.mem_singleton.mpr rfl)
      simp at hup
  | into name =>
      -- The name at the end is found in a directory, whatever it names.
      have hname : before.filter (· ≠ .stay) ++ [.into name] = next.names.map .into := htrail
      obtain ⟨upper, last, hnames⟩ : ∃ upper last, next.names = upper ++ [last] := by
        have hne : next.names ≠ [] := by
          intro h
          rw [h] at hname
          exact absurd hname (List.append_ne_nil_of_right_ne_nil _ (List.cons_ne_nil _ _))
        exact ⟨_, _, (List.dropLast_append_getLast hne).symm⟩
      rw [hnames, List.map_append] at hname
      have hdir : root.DirAt (l ++ upper) := by
        apply FileNode.dirAt_of_at?_append (List.cons_ne_nil last [])
        rw [List.append_assoc, ← hnames, hx]
        rfl
      rw [FileNode.walkable_names_iff (List.append_inj' hname rfl).1]
      constructor
      · intro _ h
        cases h
      · intro _
        exact hdir

/-- **`find_join_eq_ok_iff`** — what a contained path finds behind another one. -/
theorem find_join_eq_ok_iff (ht : t.Proper) (hbase : base.text.toList ≠ [])
    (hnext : next.isContained = true) : t.find (base.join next) = .ok x ↔
      t.OpenTo base ∧ t.at? (t.placeOf base ++ next.names) = some x ∧ AsksFor next x := by
  have hrelative := (Path.isContained_iff.mp hnext).1
  have horigin : origin t.workplace (base.join next) = origin t.workplace base := by
    rw [origin, origin, isAbsolute_join_contained hbase hnext]
  have hlead : base.lead.filter (· ≠ .stay) = base.trail := rfl
  have hplace : reach (origin t.workplace base) base.lead = t.placeOf base := by
    rw [← Location.reach_filter, hlead]
    rfl
  have hopen : t.OpenTo base ↔ t.root.Walkable (origin t.workplace base) base.lead ∧
      t.root.DirAt (t.placeOf base) := by
    rw [← hplace, FileNode.walkable_and_dirAt_iff, ← FileNode.dirAt_way_filter_iff, hlead]
    rfl
  rw [find_eq_ok_iff ht, placeOf_join hbase hnext, horigin, Path.steps_join hbase hrelative,
    FileNode.walkable_append, hplace, hopen]
  constructor
  · rintro ⟨-, ⟨hwalk, hsteps⟩, hx⟩
    -- There is at least one step behind `base`, and it begins in a directory.
    have hdir : t.root.DirAt (t.placeOf base) := by
      obtain ⟨s, rest, hs⟩ := List.exists_cons_of_ne_nil next.steps_ne_nil
      rw [hs] at hsteps
      exact hsteps.1
    exact ⟨⟨hwalk, hdir⟩, hx, (walkable_contained_iff hnext hx).mp hsteps⟩
  · rintro ⟨⟨hwalk, hdir⟩, hx, hasks⟩
    exact ⟨Path.text_join_ne_nil hbase hrelative,
      ⟨hwalk, (walkable_contained_iff hnext hx).mpr hasks⟩, hx⟩

/-! ## §E Slots -/

/-- What a path ends in, if it leads to the directory `dir` in front of its last piece. -/
def endingIn (dir : Location) (p : Path) : Ending :=
  match p.lead.getLast? with
  | some (.into name) =>
    .slot ⟨dir, name, (Text.dropTail? [Path.slash] p.text.toList).isSome⟩
  | _ => .fixed

/-- **`ending_eq_ok_iff`** — the end of a path is known where the way in front of it is open. -/
theorem ending_eq_ok_iff {e : Ending} (ht : t.Proper) : t.ending p = .ok e ↔
    p.text.toList ≠ [] ∧ (∀ l ∈ way (origin t.workplace p) p.lead.dropLast, t.root.DirAt l) ∧
      e = endingIn (reach (origin t.workplace p) p.lead.dropLast) p := by
  have hempty : p.text.isEmpty = true ↔ p.text.toList = [] := by
    rw [String.isEmpty_iff, ← String.toList_inj]
    rfl
  rw [ending, ← walkable_and_dirAt_iff]
  by_cases htext : p.text.toList = []
  · rw [if_pos (hempty.mpr htext)]
    refine ⟨fun h => ?_, fun h => absurd htext h.1⟩
    cases h
  · rw [if_neg fun h => htext (hempty.mp h)]
    have hsplit : splitLast p
        = (p.lead.dropLast, p.lead.getLast?, (Text.dropTail? [Path.slash] p.text.toList).isSome) := rfl
    rw [hsplit]
    dsimp only
    cases hfollow : follow t.root linkLimit (origin t.workplace p) p.lead.dropLast with
    | error cause =>
        constructor
        · intro h
          cases h
        · rintro ⟨-, ⟨hwalk, -⟩, -⟩
          rw [(follow_eq_ok_iff ht).mpr ⟨hwalk, rfl⟩] at hfollow
          cases hfollow
    | ok dir =>
        obtain ⟨hwalk, rfl⟩ := (follow_eq_ok_iff ht).mp hfollow
        simp only [bind, Except.bind]
        split
        · rename_i es hes
          have hdir : t.root.DirAt _ := ⟨es, hes⟩
          unfold endingIn
          cases p.lead.getLast? with
          | none =>
              exact ⟨fun h => ⟨htext, ⟨hwalk, hdir⟩, (Except.ok.inj h).symm⟩,
                fun h => congrArg Except.ok h.2.2.symm⟩
          | some s =>
              cases s <;>
              exact ⟨fun h => ⟨htext, ⟨hwalk, hdir⟩, (Except.ok.inj h).symm⟩,
                fun h => congrArg Except.ok h.2.2.symm⟩
        · rename_i hno
          constructor
          · intro h
            cases h
          · rintro ⟨-, ⟨-, es, hes⟩, -⟩
            exact absurd hes (hno es)

/-- A slot is the place of its path, in a directory that exists, under a name that can be spelled. -/
theorem ending_eq_slot {s : Slot} (ht : t.Proper) (h : t.ending p = .ok (.slot s)) :
    s.location = t.placeOf p ∧ t.root.DirAt s.directory ∧ Path.IsEntryName s.name := by
  obtain ⟨-, hway, hs⟩ := (ending_eq_ok_iff ht).mp h
  unfold endingIn at hs
  split at hs
  · rename_i name hlast
    obtain rfl := Ending.slot.inj hs
    have hlead : p.lead = p.lead.dropLast ++ [.into name] :=
      (List.dropLast_append_getLast? _ hlast).symm
    refine ⟨?_, hway _ (Location.reach_mem_way _ _), Path.isEntryName_of_mem_names (p := p) ?_⟩
    · show reach (origin t.workplace p) p.lead.dropLast ++ [name] = reach _ p.trail
      have htrail : p.trail = p.lead.filter (· ≠ .stay) := rfl
      rw [htrail, Location.reach_filter]
      conv => rhs; rw [hlead, Location.reach_append]
      rfl
    · refine List.mem_filterMap.mpr ⟨.into name, List.mem_filter.mpr ⟨?_, rfl⟩, rfl⟩
      show Step.into name ∈ p.lead
      rw [hlead]
      exact List.mem_append_right _ (List.mem_singleton.mpr rfl)
  · cases hs

/-- The place that a slot names is never the place of its directory. -/
theorem Slot.dropLast_location (s : Slot) : s.location.dropLast = s.directory :=
  List.dropLast_concat

/-- **`ending_behind`** — a path that ends in a name has a slot where the way in front of it is open. -/
theorem ending_behind {m : List String} {name : String} (ht : t.Proper) (hp : p.text.toList ≠ [])
    (htrail : p.trail = base.trail ++ (m ++ [name]).map .into)
    (habs : p.isAbsolute = base.isAbsolute) (hlast : p.lead.getLast? = some (.into name))
    (hopen : t.OpenTo base) (hdir : t.root.DirAt (t.placeOf base ++ m)) :
    ∃ s, t.ending p = .ok (.slot s) ∧ s.location = t.placeOf base ++ (m ++ [name]) ∧
      s.directory = t.placeOf base ++ m := by
  have hlead : p.lead = p.lead.dropLast ++ [.into name] :=
    (List.dropLast_append_getLast? _ hlast).symm
  have hbefore : p.lead.dropLast.filter (· ≠ .stay) = base.trail ++ m.map .into := by
    have hsplit : p.trail = p.lead.dropLast.filter (· ≠ .stay) ++ [.into name] := by
      conv => lhs; rw [Path.trail, Path.trailOf, ← Path.lead, hlead, List.filter_append]
      rfl
    rw [htrail, List.map_append, ← List.append_assoc] at hsplit
    exact (List.append_cancel_right hsplit).symm
  have hway : ∀ l ∈ way (origin t.workplace p) p.lead.dropLast, t.root.DirAt l := by
    rw [← FileNode.dirAt_way_filter_iff, hbefore, origin, habs]
    exact dirAt_way_behind.mpr ⟨hopen, hdir⟩
  have hend := (ending_eq_ok_iff ht).mpr ⟨hp, hway, rfl⟩
  rw [endingIn, hlast] at hend
  obtain ⟨hplace, -, -⟩ := ending_eq_slot ht hend
  rw [placeOf_behind htrail habs] at hplace
  refine ⟨_, hend, hplace, ?_⟩
  rw [← Slot.dropLast_location, hplace, ← List.append_assoc, List.dropLast_concat]

theorem ending_of_openTo (ht : t.Proper) (hp : p.text.toList ≠ []) (h : t.OpenTo p) :
    ∃ e, t.ending p = .ok e := by
  refine ⟨_, (ending_eq_ok_iff ht).mpr ⟨hp, fun l hl => h l ?_, rfl⟩⟩
  rw [wayTo, show p.trail = p.lead.filter (· ≠ .stay) from rfl, Location.mem_way_filter]
  have hsplit : p.lead = p.lead.dropLast ++ p.lead.drop (p.lead.length - 1) := by
    rw [List.dropLast_eq_take, List.take_append_drop]
  rw [hsplit]
  exact Location.mem_way_append.mpr (Or.inl hl)

end FileTree

end PluginVet
