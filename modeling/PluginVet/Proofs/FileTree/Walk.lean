/-
# PluginVet.Proofs.FileTree.Walk — what a walk lists

A walk of an ordered tree lists what lies at names below its first directory, as deep as its limit goes,
where each directory on the way is one that it enters (`Met`). It lists these entries in the strict order
of their locations, names being compared from the first one on (`places_below`), so that nothing is
listed twice.

§A paths of entries, §B what a walk meets, §C the entries of a walk.
-/
import Mathlib.Data.List.Nodup
import PluginVet.FileTree.Walk
import PluginVet.Proofs.FileTree.Update

namespace PluginVet.FileTree

open PluginVet.Path (IsEntryName Step)

variable {limit depth : Nat} {enter : Entry → Bool} {path : Path} {node child : FileNode} {e : Entry}
  {name : String} {m m' l rest : Location}

/-! ## §A Paths of entries -/

/-- The path of what lies at names below a path. -/
def pathTo (path : Path) (m : Location) : Path := m.foldl Path.child path

theorem isContained_name (h : IsEntryName name) :
    Path.isContained ⟨name⟩ = true ∧ Path.names ⟨name⟩ = [name] ∧
      Path.steps ⟨name⟩ = [.into name] := by
  have hne : [name] ≠ [] := List.cons_ne_nil _ _
  have hall : ∀ n ∈ [name], IsEntryName n := fun n hn => List.mem_singleton.mp hn ▸ h
  have htext : "/".intercalate [name] = name := String.intercalate_singleton
  have htrail := Path.trail_intercalate hne hall
  have habs := Path.isAbsolute_intercalate hne hall
  have hsteps := Path.steps_intercalate hne hall
  rw [htext] at htrail habs hsteps
  have hnames : Path.names ⟨name⟩ = [name] := by
    rw [Path.names, htrail]
    rfl
  exact ⟨Path.isContained_iff.mpr ⟨habs, by rw [hnames, htrail]⟩, hnames, hsteps⟩

theorem text_pathTo_ne_nil (hpath : path.text.toList ≠ []) (hm : ∀ name ∈ m, IsEntryName name) :
    (pathTo path m).text.toList ≠ [] := by
  induction m generalizing path with
  | nil => exact hpath
  | cons name rest ih =>
      obtain ⟨hname, hrest⟩ := List.forall_mem_cons.mp hm
      obtain ⟨hcontained, -, -⟩ := isContained_name hname
      exact ih (Path.text_join_ne_nil hpath (Path.isContained_iff.mp hcontained).1) hrest

theorem trail_pathTo (hpath : path.text.toList ≠ []) (hm : ∀ name ∈ m, IsEntryName name) :
    (pathTo path m).trail = path.trail ++ m.map .into ∧
      (pathTo path m).isAbsolute = path.isAbsolute ∧
      (pathTo path m).components = path.components ++ m.map .name := by
  induction m generalizing path with
  | nil => exact ⟨(List.append_nil _).symm, rfl, (List.append_nil _).symm⟩
  | cons name rest ih =>
      obtain ⟨hname, hrest⟩ := List.forall_mem_cons.mp hm
      obtain ⟨hcontained, hnames, -⟩ := isContained_name hname
      obtain ⟨hrelative, htrail⟩ := Path.isContained_iff.mp hcontained
      rw [hnames] at htrail
      have hchild := Path.text_join_ne_nil hpath hrelative
      obtain ⟨iht, iha, ihc⟩ := ih hchild hrest
      refine ⟨?_, ?_, ?_⟩
      · show (pathTo (path.join ⟨name⟩) rest).trail = _
        rw [iht, Path.trail_join hpath hrelative, htrail, List.append_assoc]
        rfl
      · show (pathTo (path.join ⟨name⟩) rest).isAbsolute = _
        rw [iha, Path.isAbsolute_join hpath hrelative]
      · show (pathTo (path.join ⟨name⟩) rest).components = _
        rw [ihc, Path.components_join hpath hrelative, htrail, List.append_assoc]
        rfl

theorem pathTo_concat (path : Path) (m : Location) (name : String) :
    pathTo path (m ++ [name]) = (pathTo path m).child name :=
  List.foldl_concat ..

/-! ## §B What a walk meets -/

/-- What is met at `name` in the directory at the names `m`. -/
def entryAt (path : Path) (depth : Nat) (m : Location) (name : String) (child : FileNode) : Entry :=
  ⟨(pathTo path m).child name, name, depth + m.length, child⟩

/-- The directories on the way to the names `m` exist, and each of them is entered. -/
def Entered (enter : Entry → Bool) : Path → Nat → FileNode → Location → Prop
  | _, _, _, [] => True
  | path, depth, node, name :: rest =>
    ∃ child, Keyed.get? node.entries name = some child ∧
      enter ⟨path.child name, name, depth, child⟩ = true ∧
      Entered enter (path.child name) (depth + 1) child rest

theorem entryAt_cons (first : String) : entryAt path depth (first :: m) name child
      = entryAt (path.child first) (depth + 1) m name child := by
  simp only [entryAt, List.length_cons, Entry.mk.injEq, and_true, true_and]
  exact ⟨rfl, by omega⟩

theorem at?_directory_cons {es : List (String × FileNode)} (h : Keyed.get? es name = some child)
    (m : Location) : (FileNode.directory es).at? (name :: m) = child.at? m := by
  rw [FileNode.at?_cons]
  show (Keyed.get? es name).bind _ = _
  rw [h]
  rfl

/-- **`Met limit enter path depth node l e`** — the entry `e` is what stands at the location `l` below the
node, near enough, behind directories that are entered. -/
def Met (limit : Nat) (enter : Entry → Bool) (path : Path) (depth : Nat) (node : FileNode)
    (l : Location) (e : Entry) : Prop :=
  ∃ m name child, l = m ++ [name] ∧ Entered enter path depth node m ∧ node.at? l = some child ∧
    depth + m.length ≤ limit ∧ e = entryAt path depth m name child

theorem Met.isDirectory (h : Met limit enter path depth node l e) : node.isDirectory = true := by
  obtain ⟨m, name, child, rfl, -, hat, -⟩ := h
  obtain ⟨es, hes⟩ := FileNode.dirAt_of_at?_append (n := node) (l := []) (r := m ++ [name]) (by simp)
    (by rw [List.nil_append, hat]; rfl)
  rw [Option.some.inj hes]
  rfl

theorem met_cons_iff {es : List (String × FileNode)} :
    Met limit enter path depth (.directory es) (name :: rest) e ↔ depth ≤ limit ∧
      ∃ child, Keyed.get? es name = some child ∧
        (rest = [] ∧ e = ⟨path.child name, name, depth, child⟩ ∨
          enter ⟨path.child name, name, depth, child⟩ = true ∧
            Met limit enter (path.child name) (depth + 1) child rest e) := by
  constructor
  · rintro ⟨m, last, node, hl, hentered, hat, hnear, rfl⟩
    rw [FileNode.at?_cons] at hat
    obtain ⟨child, hget, hat⟩ := Option.bind_eq_some_iff.mp hat
    refine ⟨by omega, child, hget, ?_⟩
    cases m with
    | nil =>
        obtain ⟨rfl, rfl⟩ := List.cons.inj hl
        obtain rfl := Option.some.inj hat
        exact Or.inl ⟨rfl, rfl⟩
    | cons first m =>
        obtain ⟨rfl, rfl⟩ := List.cons.inj hl
        obtain ⟨child', hget', henter, hentered⟩ := hentered
        obtain rfl := Option.some.inj (hget.symm.trans hget')
        rw [List.length_cons] at hnear
        exact Or.inr ⟨henter, m, last, node, rfl, hentered, hat, by omega, entryAt_cons name⟩
  · rintro ⟨hdepth, child, hget, ⟨rfl, rfl⟩ | ⟨henter, m, last, node, rfl, hentered, hat, hnear, rfl⟩⟩
    · exact ⟨[], name, child, rfl, trivial, at?_directory_cons hget [], hdepth, rfl⟩
    · refine ⟨name :: m, last, node, rfl, ⟨child, hget, henter, hentered⟩, ?_, ?_, ?_⟩
      · rw [at?_directory_cons hget]
        exact hat
      · rw [List.length_cons]
        omega
      · rw [entryAt_cons]

theorem met_concat_iff : Met limit enter path depth node (m ++ [name]) e ↔
    Entered enter path depth node m ∧ depth + m.length ≤ limit ∧
      ∃ child, node.at? (m ++ [name]) = some child ∧ e = entryAt path depth m name child := by
  constructor
  · rintro ⟨m', name', child, hl, hentered, hat, hnear, rfl⟩
    obtain ⟨rfl, hname⟩ := List.append_inj' hl rfl
    obtain rfl := List.singleton_inj.mp hname
    exact ⟨hentered, hnear, child, hat, rfl⟩
  · rintro ⟨hentered, hnear, child, hat, rfl⟩
    exact ⟨m, name, child, rfl, hentered, hat, hnear, rfl⟩

theorem Met.ne_nil (h : Met limit enter path depth node l e) : l ≠ [] := by
  obtain ⟨m, last, -, rfl, -⟩ := h
  exact List.append_ne_nil_of_right_ne_nil m (List.cons_ne_nil last [])

/-! ## §C The entries of a walk -/

/-- **`Places entries met`** — the entries in order are those that `met` finds at locations in strictly
increasing order. -/
def Places (entries : List Entry) (met : Location → Entry → Prop) : Prop :=
  ∃ ps : List (Location × Entry), ps.map Prod.snd = entries ∧ (ps.map Prod.fst).Pairwise (· < ·) ∧
    ∀ l e, (l, e) ∈ ps ↔ met l e

theorem Places.congr {entries : List Entry} {met met' : Location → Entry → Prop}
    (h : Places entries met) (hmet : ∀ l e, met l e ↔ met' l e) : Places entries met' := by
  obtain ⟨ps, hentries, hsorted, hps⟩ := h
  exact ⟨ps, hentries, hsorted, fun l e => (hps l e).trans (hmet l e)⟩

theorem places_nil : Places [] fun _ _ => False :=
  ⟨[], rfl, List.Pairwise.nil, fun _ _ => List.mem_nil_iff _⟩

/-- An entry in front of what is met inside it, and that in front of what has a later first name. -/
theorem Places.cons {inside later : List Entry} {metInside metLater : Location → Entry → Prop}
    (name : String) (e : Entry) (hinside : Places inside metInside) (hlater : Places later metLater)
    (hnamed : ∀ l e, metInside l e → l ≠ [])
    (hbehind : ∀ l e, metLater l e → ∃ k rest, l = k :: rest ∧ name < k) :
    Places (e :: inside ++ later) fun l e' => (l = [name] ∧ e' = e) ∨
      (∃ rest, l = name :: rest ∧ metInside rest e') ∨ metLater l e' := by
  obtain ⟨ps, rfl, hsorted, hps⟩ := hinside
  obtain ⟨qs, rfl, hsorted', hqs⟩ := hlater
  refine ⟨([name], e) :: ps.map (fun p => (name :: p.1, p.2)) ++ qs, ?_, ?_, fun l e' => ?_⟩
  · simp only [List.cons_append, List.map_cons, List.map_append, List.map_map]
    rfl
  · have hfront : ∀ l ∈ (([name], e) :: ps.map fun p => (name :: p.1, p.2)).map Prod.fst,
        ∃ rest, l = name :: rest := by
      simp only [List.map_cons, List.map_map, List.forall_mem_cons, List.forall_mem_map]
      exact ⟨⟨[], rfl⟩, fun p _ => ⟨p.1, rfl⟩⟩
    rw [List.map_append, List.pairwise_append]
    refine ⟨?_, hsorted', ?_⟩
    · rw [List.map_cons, List.pairwise_cons, List.map_map]
      constructor
      · simp only [List.forall_mem_map]
        rintro ⟨l, e'⟩ hp
        obtain ⟨k, rest, rfl⟩ := List.exists_cons_of_ne_nil (hnamed l e' ((hps l e').mp hp))
        exact List.cons_lt_cons_iff.mpr (Or.inr ⟨rfl, List.nil_lt_cons k rest⟩)
      · rw [List.pairwise_map] at hsorted ⊢
        exact hsorted.imp fun h => List.cons_lt_cons_iff.mpr (Or.inr ⟨rfl, h⟩)
    · intro l hl l' hl'
      obtain ⟨rest, rfl⟩ := hfront l hl
      obtain ⟨⟨l', e'⟩, hq, rfl⟩ := List.mem_map.mp hl'
      obtain ⟨k, rest', rfl, hlt⟩ := hbehind l' e' ((hqs l' e').mp hq)
      exact List.cons_lt_cons_iff.mpr (Or.inl hlt)
  · rw [List.cons_append, List.mem_cons, List.mem_append, hqs, List.mem_map, Prod.mk.injEq]
    refine or_congr_right (or_congr_left ⟨?_, ?_⟩)
    · rintro ⟨⟨rest, e''⟩, hp, heq⟩
      obtain ⟨rfl, rfl⟩ := Prod.mk.inj heq
      exact ⟨rest, rfl, (hps rest e'').mp hp⟩
    · rintro ⟨rest, rfl, hmet⟩
      exact ⟨(rest, e'), (hps rest e').mpr hmet, rfl⟩

theorem places_belowAll {es : List (String × FileNode)} (hsorted : Keyed.Sorted es)
    (hinside : ∀ p ∈ es, Places (below limit enter (path.child p.1) (depth + 1) p.2)
      (Met limit enter (path.child p.1) (depth + 1) p.2)) :
    Places (belowAll limit enter path depth es) fun l e => ∃ name rest child, l = name :: rest ∧
      (name, child) ∈ es ∧ (rest = [] ∧ e = ⟨path.child name, name, depth, child⟩ ∨
        enter ⟨path.child name, name, depth, child⟩ = true ∧
          Met limit enter (path.child name) (depth + 1) child rest e) := by
  induction es with
  | nil =>
      rw [belowAll]
      exact places_nil.congr fun l e =>
        ⟨False.elim, fun ⟨_, _, _, _, h, _⟩ => absurd h List.not_mem_nil⟩
  | cons p later ih =>
      obtain ⟨k, v⟩ := p
      have hentered : Places
          (if enter ⟨path.child k, k, depth, v⟩ then below limit enter (path.child k) (depth + 1) v
            else [])
          fun l e => enter ⟨path.child k, k, depth, v⟩ = true ∧
            Met limit enter (path.child k) (depth + 1) v l e := by
        split
        · rename_i henter
          exact (hinside (k, v) List.mem_cons_self).congr fun l e => by simp [henter]
        · rename_i hpassed
          exact places_nil.congr fun l e => by simp [hpassed]
      have hlater := ih hsorted.tail fun p hp => hinside p (List.mem_cons_of_mem _ hp)
      rw [belowAll]
      refine (hentered.cons k ⟨path.child k, k, depth, v⟩ hlater ?_ ?_).congr fun l e => ?_
      · rintro l e ⟨-, hmet⟩
        exact hmet.ne_nil
      · rintro l e ⟨name, rest, child, rfl, hmem, -⟩
        exact ⟨name, rest, rfl, hsorted.lt_of_mem hmem⟩
      · constructor
        · rintro (⟨rfl, rfl⟩ | ⟨rest, rfl, hmet⟩ | ⟨name, rest, child, rfl, hmem, hmet⟩)
          · exact ⟨k, [], v, rfl, List.mem_cons_self, Or.inl ⟨rfl, rfl⟩⟩
          · exact ⟨k, rest, v, rfl, List.mem_cons_self, Or.inr hmet⟩
          · exact ⟨name, rest, child, rfl, List.mem_cons_of_mem _ hmem, hmet⟩
        · rintro ⟨name, rest, child, rfl, hmem, hmet⟩
          rcases List.mem_cons.mp hmem with heq | hmem
          · obtain ⟨rfl, rfl⟩ := Prod.mk.inj heq
            rcases hmet with ⟨rfl, rfl⟩ | hmet
            · exact Or.inl ⟨rfl, rfl⟩
            · exact Or.inr (Or.inl ⟨rest, rfl, hmet⟩)
          · exact Or.inr (Or.inr ⟨name, rest, child, rfl, hmem, hmet⟩)

/-- **`places_below`** — a walk lists what it meets, and the locations of its entries are strictly
increasing: a directory comes in front of what it holds, and siblings come in the order of their names. -/
theorem places_below (hnode : node.Ordered) :
    Places (below limit enter path depth node) (Met limit enter path depth node) := by
  induction hnode generalizing path depth with
  | file bytes => exact places_nil.congr fun l e => ⟨False.elim, fun h => by cases h.isDirectory⟩
  | link target => exact places_nil.congr fun l e => ⟨False.elim, fun h => by cases h.isDirectory⟩
  | @directory es hsorted hchildren ih =>
      rw [below]
      split
      · rename_i hdepth
        refine (places_belowAll hsorted fun p hp => ih p hp).congr fun l e => ?_
        constructor
        · rintro ⟨name, rest, child, rfl, hmem, hmet⟩
          exact met_cons_iff.mpr ⟨hdepth, child, (Keyed.get?_eq_some_iff hsorted).mpr hmem, hmet⟩
        · intro h
          obtain ⟨name, rest, rfl⟩ := List.exists_cons_of_ne_nil h.ne_nil
          obtain ⟨-, child, hget, hmet⟩ := met_cons_iff.mp h
          exact ⟨name, rest, child, rfl, Keyed.mem_of_get? hget, hmet⟩
      · rename_i hdeep
        refine places_nil.congr fun l e => ⟨False.elim, ?_⟩
        rintro ⟨m, last, child, -, -, -, hnear, -⟩
        omega

end PluginVet.FileTree
