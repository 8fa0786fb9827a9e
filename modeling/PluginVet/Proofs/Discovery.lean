/-
# PluginVet.Proofs.Discovery — which plugins are found

`Outermost d t limit m` says that at the names `m` below the plugins directory there is a directory that
holds a descriptor, reached through directories that hold none. A walk of any tree, with links in it or
not, meets plugins exactly there (`met_isPlugin_iff`), and discovery lists them by their paths.

In a tree without links this is what `Finds d t m` says in terms of places. There discovery lists what is
found (`mem_discover_iff`), in the order of the paths and nothing twice (`discover_eq`). No plugin found
lies in another one (`Finds.eq_of_above`).

**Main statement** (`discover_outermost`): discovery lists the outermost directories with a descriptor,
strictly by path.

§A plugins at names, §B what is found, §C the list of plugins, §D outermost directories.
-/
import Mathlib.Data.List.Sort
import PluginVet.Plugin
import PluginVet.Proofs.FileTree.Growth
import PluginVet.Proofs.FileTree.Route
import PluginVet.Proofs.FileTree.Walk
import PluginVet.Proofs.Quarantine

namespace PluginVet

open FileTree (pathTo)
open PluginVet.Path (IsEntryName Step)

/-- The names that lead from the plugins directory to a plugin. -/
def Plugin.place (p : Plugin) : Location := Path.names ⟨p.relPath⟩

/-- A plugin's directory is the one at its path. -/
theorem Plugin.directory_inside (pluginsDir : Path) (relPath : String) :
    (inside pluginsDir relPath).directory = pluginsDir.join ⟨(inside pluginsDir relPath).relPath⟩ := by
  simp only [inside]

namespace Discovery

variable {d : Discovery} {t : FileTree} {m m' : Location} {p : Plugin}

/-! ## §A Plugins at names -/

/-- The plugin at names below the plugins directory. -/
def pluginAt (d : Discovery) (m : Location) : Plugin :=
  Plugin.inside d.pluginsDir ("/".intercalate m)

theorem trimSlashes_of_ends {cs : List Char} (hhead : ∀ rest, cs ≠ Path.slash :: rest)
    (hlast : ∀ before, cs ≠ before ++ [Path.slash]) : Plugin.trimSlashes cs = cs := by
  have hfront : cs.dropWhile (· = Path.slash) = cs := by
    cases cs with
    | nil => rfl
    | cons c rest =>
        have hc : c ≠ Path.slash := fun h => hhead rest (h ▸ rfl)
        simp [hc]
  have hback : cs.reverse.dropWhile (· = Path.slash) = cs.reverse := by
    cases hrev : cs.reverse with
    | nil => rfl
    | cons c rest =>
        have hc : c ≠ Path.slash := by
          rintro rfl
          have hcs := congrArg List.reverse hrev
          rw [List.reverse_reverse, List.reverse_cons] at hcs
          exact hlast _ hcs
        simp [hc]
  rw [Plugin.trimSlashes, hfront, Text.dropEndWhile, hback, List.reverse_reverse]

theorem head?_dropWhile_slash_ne (cs : List Char) :
    (cs.dropWhile (· = Path.slash)).head? ≠ some Path.slash := by
  intro h
  have hhead := List.head?_dropWhile_not (fun c => decide (c = Path.slash)) cs
  rw [h] at hhead
  exact absurd rfl (of_decide_eq_false hhead)

/-- Trimming leaves no slash at either end, so that a second time it takes nothing off. -/
theorem trimSlashes_trimSlashes (cs : List Char) :
    Plugin.trimSlashes (Plugin.trimSlashes cs) = Plugin.trimSlashes cs := by
  refine trimSlashes_of_ends (fun rest h => ?_) (fun before h => ?_)
  · have hprefix : Plugin.trimSlashes cs <+: cs.dropWhile (· = Path.slash) :=
      List.reverse_suffix.mp (by
        rw [Plugin.trimSlashes, Text.dropEndWhile, List.reverse_reverse]
        exact List.dropWhile_suffix _)
    obtain ⟨more, hmore⟩ := h ▸ hprefix
    exact head?_dropWhile_slash_ne cs (hmore ▸ rfl)
  · have hreverse := congrArg List.reverse h
    rw [Plugin.trimSlashes, Text.dropEndWhile, List.reverse_reverse, List.reverse_concat] at hreverse
    exact head?_dropWhile_slash_ne _ (congrArg List.head? hreverse)

/-- A plugin is the one at its own path. -/
theorem inside_relPath (pluginsDir : Path) (relPath : String) :
    Plugin.inside pluginsDir (Plugin.inside pluginsDir relPath).relPath
      = Plugin.inside pluginsDir relPath := by
  have htrim := trimSlashes_trimSlashes relPath.toList
  simp only [Plugin.inside, String.toList_ofList, htrim]

section PluginAt

variable (hne : m ≠ []) (hm : ∀ name ∈ m, IsEntryName name)
include hne hm

theorem relPath_pluginAt (d : Discovery) : (d.pluginAt m).relPath = "/".intercalate m := by
  have htrim : Plugin.trimSlashes ("/".intercalate m).toList = ("/".intercalate m).toList := by
    refine trimSlashes_of_ends (fun rest h => ?_) (fun before h => ?_)
    · have habs : Path.isAbsolute ⟨"/".intercalate m⟩ = true := Path.isAbsolute_iff.mpr ⟨rest, h⟩
      rw [Path.isAbsolute_intercalate hne hm] at habs
      cases habs
    · -- With a slash at its end the text would have an empty last piece.
      have hpieces := Path.pieces_intercalate hne hm
      rw [Path.pieces, h, Text.splitOn_append_sep] at hpieces
      have hempty : [] ∈ m.map String.toList := by
        rw [← hpieces]
        exact List.mem_append_right _ (List.mem_singleton.mpr rfl)
      obtain ⟨name, hname, hnil⟩ := List.mem_map.mp hempty
      exact (hm name hname).1 hnil
  show String.ofList (Plugin.trimSlashes ("/".intercalate m).toList) = _
  rw [htrim, String.ofList_toList]

theorem place_pluginAt (d : Discovery) : (d.pluginAt m).place = m := by
  rw [Plugin.place, relPath_pluginAt hne hm, Path.names_intercalate hne hm]

theorem isContained_pluginAt (d : Discovery) :
    Path.isContained ⟨(d.pluginAt m).relPath⟩ = true := by
  rw [relPath_pluginAt hne hm, Path.isContained_intercalate hne hm]

omit hne in
theorem pluginOf_eq {e : FileTree.Entry} (hroot : d.pluginsDir.text.toList ≠ [])
    (he : e.path = pathTo d.pluginsDir m) : d.pluginOf e = d.pluginAt m := by
  have hbelow : Path.below? d.pluginsDir e.path = some (m.map .name) := by
    rw [Path.below?_eq_some_iff, he, (FileTree.trail_pathTo hroot hm).2.2]
  rw [pluginOf, Path.relativeTo, hbelow, pluginAt]
  show Plugin.inside d.pluginsDir (Path.slashed (m.map .name)) = _
  rw [Path.slashed_map_name]

end PluginAt

/-! ## §B What is found -/

/-- A name under which plugins and categories may lie. -/
def allows (d : Discovery) (name : String) : Bool :=
  !(Text.dropHead? ['.'] name.toList).isSome && !d.skipDirs.contains name

/-- **`Described d t limit m`** — the names lead from the plugins directory through allowed names, at most
`limit` of them, to a directory that holds a descriptor. No link is followed on this way. -/
structure Described (d : Discovery) (t : FileTree) (limit : Nat) (m : Location) : Prop where
  named : m ≠ []
  near : m.length ≤ limit
  allowed : ∀ name ∈ m, d.allows name = true
  present : ∃ node, t.find d.pluginsDir = .ok node ∧ node.DirAt m
  holds : d.holdsDescriptor t (pathTo d.pluginsDir m) = true

/-- **`Outermost d t limit m`** — there is such a directory at the names `m`, and none on the way to it. -/
def Outermost (d : Discovery) (t : FileTree) (limit : Nat) (m : Location) : Prop :=
  d.Described t limit m ∧ ∀ upper, upper <+: m → upper ≠ m → ¬ d.Described t limit upper

theorem Described.above {limit : Nat} {upper : Location} (h : d.Described t limit m)
    (hne : upper ≠ []) (hpre : upper <+: m)
    (holds : d.holdsDescriptor t (pathTo d.pluginsDir upper) = true) :
    d.Described t limit upper where
  named := hne
  near := hpre.length_le.trans h.near
  allowed name hname := h.allowed name (hpre.subset hname)
  present := by
    obtain ⟨node, hfind, hdir⟩ := h.present
    have hbelow : node.DirAt ([] ++ m) := hdir
    exact ⟨node, hfind, hbelow.above hpre⟩
  holds := holds

theorem Described.isEntryName {limit : Nat} (h : d.Described t limit m) (ht : t.Sound) :
    ∀ name ∈ m, IsEntryName name := by
  obtain ⟨node, hfind, es, hes⟩ := h.present
  exact ((FileTree.sound_of_find ht hfind).at? hes).2

/-- The directories on the way to an outermost one hold no descriptor. -/
theorem outermost_iff {limit : Nat} : d.Outermost t limit m ↔ d.Described t limit m ∧
    ∀ upper, upper ≠ [] → upper <+: m → upper ≠ m →
      d.holdsDescriptor t (pathTo d.pluginsDir upper) = false := by
  refine and_congr_right fun h => ⟨fun hfirst upper hne hpre hproper => ?_,
    fun hfirst upper hpre hproper hupper => ?_⟩
  · refine Bool.eq_false_iff.mpr fun holds => ?_
    exact hfirst upper hpre hproper (h.above hne hpre holds)
  · have hnone := hfirst upper hupper.named hpre hproper
    rw [hupper.holds] at hnone
    cases hnone

/-- No outermost directory lies in another one. -/
theorem Outermost.eq_of_above {limit : Nat} (h : d.Outermost t limit m)
    (h' : d.Outermost t limit m') (hpre : m <+: m') : m = m' := by
  by_contra hne
  exact h'.2 m hpre hne h.1

/-- **`Finds d t m`** — a plugin is found at the names `m` below the plugins directory. -/
structure Finds (d : Discovery) (t : FileTree) (m : Location) : Prop where
  opened : t.OpenTo d.pluginsDir
  named : m ≠ []
  near : m.length ≤ max d.maxDepth 1
  allowed : ∀ name ∈ m, d.allows name = true
  present : t.root.DirAt (t.placeOf d.pluginsDir ++ m)
  described : d.holdsDescriptor t (pathTo d.pluginsDir m) = true
  first : ∀ upper, upper ≠ [] → upper <+: m → upper ≠ m →
    d.holdsDescriptor t (pathTo d.pluginsDir upper) = false

theorem Finds.isEntryName (h : d.Finds t m) (ht : t.Proper) : ∀ name ∈ m, IsEntryName name := by
  obtain ⟨es, hes⟩ := h.present
  intro name hname
  exact (FileNode.Proper.at? ht hes).2 name (List.mem_append_right _ hname)

/-- No plugin lies in another one. -/
theorem Finds.eq_of_above (h : d.Finds t m) (h' : d.Finds t m') (hpre : m <+: m') : m = m' := by
  by_contra hne
  have hnone := h'.first m h.named hpre hne
  rw [h.described] at hnone
  cases hnone

theorem Finds.not_along (h : d.Finds t m) (h' : d.Finds t m') (hne : m ≠ m') :
    ¬ Location.Along m m' := by
  rintro (hpre | hpre)
  · exact hne (h.eq_of_above h' hpre)
  · exact hne (h'.eq_of_above h hpre).symm

/-- A plugin is found in any tree that agrees on the descriptors above it. -/
theorem Finds.transfer {t' : FileTree} (h : d.Finds t m) (hopen : t'.OpenTo d.pluginsDir)
    (hpresent : t'.root.DirAt (t'.placeOf d.pluginsDir ++ m))
    (hsame : ∀ upper, upper ≠ [] → upper <+: m →
      d.holdsDescriptor t' (pathTo d.pluginsDir upper)
        = d.holdsDescriptor t (pathTo d.pluginsDir upper)) : d.Finds t' m where
  opened := hopen
  named := h.named
  near := h.near
  allowed := h.allowed
  present := hpresent
  described := by
    rw [hsame m h.named (List.prefix_refl m)]
    exact h.described
  first upper hne hpre hproper := by
    rw [hsame upper hne hpre]
    exact h.first upper hne hpre hproper

/-- **`holdsDescriptor_iff`** — a directory holds a descriptor where its contained path leads to a file
behind the directory. -/
theorem holdsDescriptor_iff (ht : t.Proper) (hroot : d.pluginsDir.text.toList ≠ [])
    (hfile : Path.isContained ⟨d.descriptorFile⟩ = true) (hm : ∀ name ∈ m, IsEntryName name) :
    d.holdsDescriptor t (pathTo d.pluginsDir m) = true ↔
      t.OpenTo d.pluginsDir ∧ t.root.DirAt (t.placeOf d.pluginsDir ++ m) ∧
        (t.root.fileAt? (t.placeOf d.pluginsDir ++ m ++ Path.names ⟨d.descriptorFile⟩)).isSome ∧
        (Path.steps ⟨d.descriptorFile⟩).getLast? ≠ some .stay := by
  obtain ⟨htrail, habs, -⟩ := FileTree.trail_pathTo hroot hm
  rw [holdsDescriptor, FileTree.isFile, FileTree.holds_iff]
  simp only [FileTree.find_join_eq_ok_iff ht (FileTree.text_pathTo_ne_nil hroot hm) hfile,
    FileTree.openTo_behind_iff htrail habs, FileTree.placeOf_behind htrail habs]
  constructor
  · rintro ⟨x, ⟨⟨hopen, hdir⟩, hat, hasks⟩, hx⟩
    cases x with
    | file bytes =>
        refine ⟨hopen, hdir, ?_, fun hstay => ?_⟩
        · rw [FileNode.fileAt?_eq_some_iff.mpr hat]
          rfl
        · cases hasks hstay
    | directory es => cases hx
    | link target => cases hx
  · rintro ⟨hopen, hdir, hsome, hlast⟩
    obtain ⟨bytes, hbytes⟩ := Option.isSome_iff_exists.mp hsome
    exact ⟨.file bytes, ⟨⟨hopen, hdir⟩, FileNode.fileAt?_eq_some_iff.mp hbytes,
      fun hstay => absurd hstay hlast⟩, rfl⟩

/-- A directory directly below the plugins directory is found by its descriptor. -/
theorem finds_name {name : String} {bytes : ByteArray} (ht : t.Proper)
    (hroot : d.pluginsDir.text.toList ≠ []) (hopen : t.OpenTo d.pluginsDir)
    (hfile : Path.isContained ⟨d.descriptorFile⟩ = true)
    (hlast : (Path.steps ⟨d.descriptorFile⟩).getLast? ≠ some .stay)
    (hname : IsEntryName name) (hallowed : d.allows name = true)
    (hdir : t.root.DirAt (t.placeOf d.pluginsDir ++ [name]))
    (hdescriptor : t.root.fileAt?
      (t.placeOf d.pluginsDir ++ [name] ++ Path.names ⟨d.descriptorFile⟩) = some bytes) :
    d.Finds t [name] where
  opened := hopen
  named := List.cons_ne_nil name []
  near := Nat.le_max_right _ _
  allowed n hn := List.mem_singleton.mp hn ▸ hallowed
  present := hdir
  described := by
    refine (holdsDescriptor_iff ht hroot hfile fun n hn => List.mem_singleton.mp hn ▸ hname).mpr
      ⟨hopen, hdir, ?_, hlast⟩
    rw [hdescriptor]
    rfl
  first upper hne hpre hproper := by
    obtain ⟨x, xs, rfl⟩ := List.exists_cons_of_ne_nil hne
    obtain ⟨rfl, hxs⟩ := List.cons_prefix_cons.mp hpre
    rw [List.prefix_nil.mp hxs] at hproper
    exact absurd rfl hproper

/-- A category is a directory of an allowed name that holds no descriptor. -/
theorem isCategory_iff {path : Path} {name : String} {depth : Nat} {child : FileNode} :
    d.isCategory t ⟨path.child name, name, depth, child⟩ = true ↔
      child.DirAt [] ∧ d.allows name = true ∧ d.holdsDescriptor t (path.child name) = false := by
  have hdir : child.isDirectory = true ↔ child.DirAt [] := by
    rw [FileNode.isDirectory_iff]
    exact exists_congr fun es => ⟨fun h => h ▸ rfl, fun h => Option.some.inj h⟩
  rw [← hdir]
  simp only [isCategory, regards, allows, Bool.and_eq_true, Bool.not_eq_true', and_assoc]

/-- The directories on the way to a plugin are categories. -/
theorem entered_isCategory_iff {path : Path} {depth : Nat} {node : FileNode} :
    FileTree.Entered (d.isCategory t) path depth node m ↔
      (m = [] ∨ node.DirAt m) ∧ (∀ name ∈ m, d.allows name = true) ∧
        ∀ upper, upper ≠ [] → upper <+: m → d.holdsDescriptor t (pathTo path upper) = false := by
  induction m generalizing path depth node with
  | nil =>
      refine ⟨fun _ => ⟨Or.inl rfl, fun _ h => absurd h List.not_mem_nil, fun upper hne h => ?_⟩,
        fun _ => trivial⟩
      exact absurd (List.prefix_nil.mp h) hne
  | cons name rest ih =>
      show (∃ child, _ ∧ _ ∧ FileTree.Entered _ _ _ _ rest) ↔ _
      constructor
      · rintro ⟨child, hget, henter, hrest⟩
        obtain ⟨hdir, hallowed, hnone⟩ := isCategory_iff.mp henter
        obtain ⟨hdirs, hall, hupper⟩ := ih.mp hrest
        refine ⟨Or.inr ?_, List.forall_mem_cons.mpr ⟨hallowed, hall⟩, ?_⟩
        · show ∃ es, node.at? (name :: rest) = some (.directory es)
          rw [FileNode.at?_cons, hget]
          rcases hdirs with rfl | hdirs
          · exact hdir
          · exact hdirs
        · intro upper hne hpre
          cases upper with
          | nil => exact absurd rfl hne
          | cons x xs =>
              obtain ⟨rfl, hxs⟩ := List.cons_prefix_cons.mp hpre
              by_cases hnil : xs = []
              · subst hnil
                exact hnone
              · exact hupper xs hnil hxs
      · rintro ⟨hdirs, hall, hupper⟩
        obtain ⟨es, hes⟩ := hdirs.resolve_left (List.cons_ne_nil _ _)
        rw [FileNode.at?_cons] at hes
        obtain ⟨child, hget, hchild⟩ := Option.bind_eq_some_iff.mp hes
        obtain ⟨hallowed, hall⟩ := List.forall_mem_cons.mp hall
        have hbelow : child.DirAt ([] ++ rest) := ⟨es, hchild⟩
        -- A directory lies below the first one, or it is the last itself.
        have hfirst := hbelow.above List.nil_prefix
        refine ⟨child, hget, isCategory_iff.mpr ⟨?_, hallowed, ?_⟩, ih.mpr ⟨?_, hall, ?_⟩⟩
        · exact hfirst
        · exact hupper [name] (List.cons_ne_nil _ _) (by simp)
        · exact Or.inr hbelow
        · intro upper hne hpre
          exact hupper (name :: upper) (List.cons_ne_nil _ _)
            (List.cons_prefix_cons.mpr ⟨rfl, hpre⟩)

/-! ## §C The list of plugins -/

/-- The plugins that a walk of the plugins directory meets, in its order. -/
def walked (d : Discovery) (t : FileTree) (node : FileNode) : List Plugin :=
  ((FileTree.below (max d.maxDepth 1) (d.isCategory t) d.pluginsDir 1 node).filter
    (d.isPlugin t)).map d.pluginOf

theorem discover_of_find {node : FileNode} (h : t.find d.pluginsDir = .ok node) :
    (d.discover t).plugins = (d.walked t node).mergeSort byPath := by
  rw [discover, FileTree.walk, h]
  rfl

theorem discover_of_error {cause : FileError} (h : t.find d.pluginsDir = .error cause) :
    (d.discover t).plugins = [] := by
  rw [discover, FileTree.walk, h]

/-- **`met_isPlugin_iff`** — a walk meets a plugin exactly at the names of an outermost directory. -/
theorem met_isPlugin_iff {node : FileNode} {limit : Nat} (hfind : t.find d.pluginsDir = .ok node) :
    (∃ e, FileTree.Met limit (d.isCategory t) d.pluginsDir 1 node m e ∧ d.isPlugin t e = true) ↔
      d.Outermost t limit m := by
  rcases List.eq_nil_or_concat m with rfl | ⟨before, name, rfl⟩
  · exact ⟨fun ⟨e, hmet, _⟩ => absurd rfl hmet.ne_nil, fun h => absurd rfl h.1.named⟩
  rw [List.concat_eq_append, outermost_iff]
  constructor
  · rintro ⟨e, hmet, hplugin⟩
    obtain ⟨hentered, hnear, child, hat, rfl⟩ := FileTree.met_concat_iff.mp hmet
    obtain ⟨-, hall, hupper⟩ := entered_isCategory_iff.mp hentered
    obtain ⟨⟨hdirectory, hallowed⟩, hdescribed⟩ :
        (child.isDirectory = true ∧ d.allows name = true) ∧
          d.holdsDescriptor t ((pathTo d.pluginsDir before).child name) = true := by
      simpa only [isPlugin, regards, allows, FileTree.entryAt, Bool.and_eq_true,
        Bool.not_eq_true', and_assoc] using hplugin
    obtain ⟨es, rfl⟩ := FileNode.isDirectory_iff.mp hdirectory
    refine ⟨⟨by simp, ?_, ?_, ⟨node, hfind, es, hat⟩, ?_⟩, fun upper hne hpre hproper => ?_⟩
    · rw [List.length_append, List.length_singleton, Nat.add_comm]
      exact hnear
    · intro n hn
      rcases List.mem_append.mp hn with hn | hn
      · exact hall n hn
      · exact List.mem_singleton.mp hn ▸ hallowed
    · rw [FileTree.pathTo_concat]
      exact hdescribed
    · exact hupper upper hne ((List.prefix_concat_iff.mp hpre).resolve_left hproper)
  · rintro ⟨h, hfirst⟩
    obtain ⟨node', hfind', es, hat⟩ := h.present
    obtain rfl := Except.ok.inj (hfind'.symm.trans hfind)
    have hdescribed := h.holds
    rw [FileTree.pathTo_concat] at hdescribed
    have hnear := h.near
    rw [List.length_append, List.length_singleton, Nat.add_comm] at hnear
    -- The directories above hold no descriptor, so the walk enters each of them.
    refine ⟨FileTree.entryAt d.pluginsDir 1 before name (.directory es),
      FileTree.met_concat_iff.mpr ⟨entered_isCategory_iff.mpr ⟨?_, ?_, ?_⟩, hnear, _, hat, rfl⟩, ?_⟩
    · refine Or.inr (FileNode.dirAt_of_at?_append (List.cons_ne_nil name []) ?_)
      rw [hat]
      rfl
    · exact fun n hn => h.allowed n (List.mem_append_left _ hn)
    · intro upper hne hpre
      refine hfirst upper hne (hpre.trans (List.prefix_append _ _)) fun heq => ?_
      have hlength := hpre.length_le
      rw [heq, List.length_append, List.length_singleton] at hlength
      omega
    · have hallowed := h.allowed name (List.mem_append_right _ (List.mem_singleton.mpr rfl))
      simp only [allows, Bool.and_eq_true] at hallowed
      simp only [isPlugin, regards, FileTree.entryAt, FileNode.isDirectory, hdescribed, hallowed.1,
        hallowed.2, Bool.and_self]

/-- **`exists_walked_eq`** — the plugins that a walk meets are those at the outermost directories, each
once. -/
theorem exists_walked_eq {node : FileNode} (ht : t.Sound) (hroot : d.pluginsDir.text.toList ≠ [])
    (hfind : t.find d.pluginsDir = .ok node) :
    ∃ ms : List Location, d.walked t node = ms.map d.pluginAt ∧ ms.Nodup ∧
      ∀ m, m ∈ ms ↔ d.Outermost t (max d.maxDepth 1) m := by
  obtain ⟨ps, hentries, hsorted, hps⟩ : FileTree.Places
      (FileTree.below (max d.maxDepth 1) (d.isCategory t) d.pluginsDir 1 node) _ :=
    FileTree.places_below (FileTree.sound_of_find ht hfind).ordered
  have hmem : ∀ m, m ∈ (ps.filter fun p => d.isPlugin t p.2).map Prod.fst ↔
      d.Outermost t (max d.maxDepth 1) m := by
    intro m
    rw [← met_isPlugin_iff hfind, List.mem_map]
    constructor
    · rintro ⟨⟨l, e⟩, hp, rfl⟩
      obtain ⟨hp, hplugin⟩ := List.mem_filter.mp hp
      exact ⟨e, (hps l e).mp hp, hplugin⟩
    · rintro ⟨e, hmet, hplugin⟩
      exact ⟨(m, e), List.mem_filter.mpr ⟨(hps m e).mpr hmet, hplugin⟩, rfl⟩
  refine ⟨(ps.filter fun p => d.isPlugin t p.2).map Prod.fst, ?_, ?_, hmem⟩
  · -- A plugin is named after its entry's path, which spells the location.
    rw [walked, ← hentries, List.filter_map, List.map_map, List.map_map]
    refine List.map_congr_left fun ⟨l, e⟩ hp => ?_
    have hnames := ((hmem l).mp (List.mem_map_of_mem hp)).1.isEntryName ht
    obtain ⟨m, name, child, rfl, -, -, -, rfl⟩ := (hps l e).mp (List.mem_filter.mp hp).1
    exact pluginOf_eq hnames hroot (FileTree.pathTo_concat d.pluginsDir m name).symm
  · have hnodup : (ps.map Prod.fst).Nodup := by
      refine hsorted.imp fun {l l'} h (heq : l = l') => ?_
      rw [heq] at h
      exact List.lt_irrefl l' h
    exact hnodup.sublist (List.filter_sublist.map Prod.fst)

/-- Discovery sorts these plugins. -/
theorem exists_discover_eq (d : Discovery) (ht : t.Sound) :
    ∃ ms : List Location, (d.discover t).plugins = (ms.map d.pluginAt).mergeSort byPath ∧ ms.Nodup ∧
      ∀ m, m ∈ ms ↔ d.Outermost t (max d.maxDepth 1) m := by
  cases hfind : t.find d.pluginsDir with
  | error cause =>
      refine ⟨[], by rw [discover_of_error hfind, List.map_nil, List.mergeSort_nil], List.nodup_nil,
        fun m => ⟨fun h => absurd h List.not_mem_nil, fun h => ?_⟩⟩
      obtain ⟨node, hfind', -⟩ := h.1.present
      rw [hfind] at hfind'
      cases hfind'
  | ok node =>
      have hroot : d.pluginsDir.text.toList ≠ [] := FileTree.text_ne_nil_of_find hfind
      obtain ⟨ms, hwalked, hms⟩ := exists_walked_eq ht hroot hfind
      exact ⟨ms, by rw [discover_of_find hfind, hwalked], hms⟩

/-- Plugins at different names are different. -/
theorem pluginAt_injective (hne : m ≠ []) (hm : ∀ name ∈ m, IsEntryName name) (hne' : m' ≠ [])
    (hm' : ∀ name ∈ m', IsEntryName name) (heq : (d.pluginAt m).relPath = (d.pluginAt m').relPath) :
    m = m' := by
  have hplace : (d.pluginAt m).place = (d.pluginAt m').place := congrArg (Path.names ⟨·⟩) heq
  rwa [place_pluginAt hne hm, place_pluginAt hne' hm'] at hplace

theorem mem_discover_iff_outermost (ht : t.Sound) : p ∈ (d.discover t).plugins ↔
    ∃ m, d.Outermost t (max d.maxDepth 1) m ∧ p = d.pluginAt m := by
  obtain ⟨ms, hplugins, -, hms⟩ := exists_discover_eq d ht
  rw [hplugins, List.mem_mergeSort, List.mem_map]
  exact exists_congr fun m => and_congr (hms m) eq_comm

theorem nodup_discover (d : Discovery) (ht : t.Sound) : (d.discover t).plugins.Nodup := by
  obtain ⟨ms, hplugins, hnodup, hms⟩ := exists_discover_eq d ht
  rw [hplugins]
  refine (List.mergeSort_perm _ _).nodup_iff.mpr (hnodup.map_on fun m hm m' hm' heq => ?_)
  have h := ((hms m).mp hm).1
  have h' := ((hms m').mp hm').1
  exact pluginAt_injective h.named (h.isEntryName ht) h'.named (h'.isEntryName ht)
    (congrArg Plugin.relPath heq)

/-- In a tree without links, what is found is what lies outermost. -/
theorem finds_iff_outermost (ht : t.Proper) (hroot : d.pluginsDir.text.toList ≠ []) :
    d.Finds t m ↔ d.Outermost t (max d.maxDepth 1) m := by
  rw [outermost_iff]
  constructor
  · intro h
    obtain ⟨hwalk, es, hes⟩ := FileTree.openTo_iff.mp h.opened
    have hfind := (FileTree.find_eq_ok_iff ht).mpr ⟨hroot, hwalk, hes⟩
    obtain ⟨es', hes'⟩ := h.present
    rw [FileNode.at?_append, hes] at hes'
    exact ⟨⟨h.named, h.near, h.allowed, ⟨_, hfind, es', hes'⟩, h.described⟩, h.first⟩
  · rintro ⟨h, hfirst⟩
    obtain ⟨node, hfind, es, hes⟩ := h.present
    obtain ⟨-, hwalk, hnode⟩ := (FileTree.find_eq_ok_iff ht).mp hfind
    have hpresent : t.root.at? (t.placeOf d.pluginsDir ++ m) = some (.directory es) := by
      rw [FileNode.at?_append, show t.root.at? _ = some node from hnode]
      exact hes
    have hbase : t.root.DirAt (t.placeOf d.pluginsDir) :=
      FileNode.dirAt_of_at?_append h.named (hpresent ▸ rfl)
    exact ⟨FileTree.openTo_iff.mpr ⟨hwalk, hbase⟩, h.named, h.near, h.allowed, ⟨es, hpresent⟩,
      h.holds, hfirst⟩

/-- **`mem_discover_iff`** — discovery lists the plugins that are found, and nothing else. -/
theorem mem_discover_iff (ht : t.Proper) (hroot : d.pluginsDir.text.toList ≠ []) :
    p ∈ (d.discover t).plugins ↔ ∃ m, d.Finds t m ∧ p = d.pluginAt m := by
  simp only [mem_discover_iff_outermost ht.sound, finds_iff_outermost ht hroot]

/-- Plugins that are found at different names are different. -/
theorem Finds.pluginAt_injective (h : d.Finds t m) (h' : d.Finds t m') (ht : t.Proper)
    (heq : (d.pluginAt m).relPath = (d.pluginAt m').relPath) : m = m' :=
  Discovery.pluginAt_injective h.named (h.isEntryName ht) h'.named (h'.isEntryName ht) heq

theorem sorted_discover (d : Discovery) (t : FileTree) :
    (d.discover t).plugins.Pairwise fun a b => a.relPath ≤ b.relPath := by
  cases hfind : t.find d.pluginsDir with
  | error cause =>
      rw [discover_of_error hfind]
      exact List.Pairwise.nil
  | ok node =>
      rw [discover_of_find hfind]
      have hsorted := @List.pairwise_mergeSort _ byPath
        (fun a b c hab hbc => decide_eq_true
          (String.le_trans (of_decide_eq_true hab) (of_decide_eq_true hbc)))
        (fun a b => by
          simp only [byPath, Bool.or_eq_true, decide_eq_true_eq]
          exact String.le_total a.relPath b.relPath)
        (d.walked t node)
      exact hsorted.imp fun h => of_decide_eq_true h

/-- **`discover_eq`** — the plugins that are found have only one order by path. -/
theorem discover_eq {ps : List Plugin} (ht : t.Proper) (hroot : d.pluginsDir.text.toList ≠ [])
    (hnodup : ps.Nodup) (hsorted : ps.Pairwise fun a b => a.relPath ≤ b.relPath)
    (hmem : ∀ p, p ∈ ps ↔ ∃ m, d.Finds t m ∧ p = d.pluginAt m) : (d.discover t).plugins = ps := by
  have hfound : ∀ p, p ∈ (d.discover t).plugins ↔ p ∈ ps := fun p =>
    (mem_discover_iff ht hroot).trans (hmem p).symm
  have hperm : (d.discover t).plugins.Perm ps :=
    (List.perm_ext_iff_of_nodup (nodup_discover d ht.sound) hnodup).mpr hfound
  refine hperm.eq_of_pairwise ?_ (sorted_discover d t) hsorted
  intro a b ha hb hab hba
  obtain ⟨m, hm, rfl⟩ := (mem_discover_iff ht hroot).mp ha
  obtain ⟨m', hm', rfl⟩ := (hmem b).mp hb
  rw [hm.pluginAt_injective hm' ht (String.le_antisymm hab hba)]

/-- **`discover_filter_eq`** — where of what was found some is found still, and nothing else, discovery
lists the rest in the same order. -/
theorem discover_filter_eq {t' : FileTree} {keep : Plugin → Bool} (ht : t.Proper) (ht' : t'.Proper)
    (hroot : d.pluginsDir.text.toList ≠ [])
    (h : ∀ m, d.Finds t' m ↔ d.Finds t m ∧ keep (d.pluginAt m) = true) :
    (d.discover t').plugins = (d.discover t).plugins.filter keep := by
  refine discover_eq ht' hroot ((nodup_discover d ht.sound).filter _) ((sorted_discover d t).filter _) ?_
  intro p
  rw [List.mem_filter, mem_discover_iff ht hroot]
  constructor
  · rintro ⟨⟨m, hm, rfl⟩, hkeep⟩
    exact ⟨m, (h m).mpr ⟨hm, hkeep⟩, rfl⟩
  · rintro ⟨m, hm, rfl⟩
    obtain ⟨hfound, hkeep⟩ := (h m).mp hm
    exact ⟨⟨m, hfound, rfl⟩, hkeep⟩

/-- Named or discovered, a selected plugin lies at a path below the plugins directory. -/
theorem exists_inside_of_mem_select {s : Selection} (h : p ∈ (s.select d t).plugins) :
    ∃ relPath, p = Plugin.inside d.pluginsDir relPath := by
  have hmem : p ∈ (s.candidates d t).plugins := (List.mem_filter.mp h).1
  unfold Selection.candidates at hmem
  split at hmem
  · unfold discover at hmem
    split at hmem
    · rw [List.mem_mergeSort] at hmem
      obtain ⟨e, -, rfl⟩ := List.mem_map.mp hmem
      exact ⟨_, rfl⟩
    · exact absurd hmem List.not_mem_nil
  · obtain ⟨relPath, -, rfl⟩ := List.mem_map.mp hmem
    exact ⟨relPath, rfl⟩

/-! ## §D Outermost directories -/

/-- **`discover_outermost`** — discovery lists exactly the plugins in the outermost directories with a
descriptor, at the paths that their names spell. The paths are strictly increasing, so that none is listed
twice, and none lies below another one. A depth of zero counts as one: what lies directly in the plugins
directory is always looked at. -/
theorem discover_outermost (d : Discovery) {t : FileTree} (ht : t.Sound) :
    (∀ p, p ∈ (d.discover t).plugins ↔
      ∃ m, d.Outermost t (max d.maxDepth 1) m ∧ p = d.pluginAt m) ∧
    (∀ m, d.Outermost t (max d.maxDepth 1) m →
      (d.pluginAt m).relPath = "/".intercalate m ∧ (d.pluginAt m).place = m) ∧
    ((d.discover t).plugins.map Plugin.relPath).Pairwise (· < ·) ∧
    (d.discover t).plugins.Pairwise fun p p' => ¬ p.place <+: p'.place ∧ ¬ p'.place <+: p.place := by
  have hplace : ∀ m, d.Outermost t (max d.maxDepth 1) m →
      (d.pluginAt m).relPath = "/".intercalate m ∧ (d.pluginAt m).place = m := fun m hm =>
    ⟨relPath_pluginAt hm.1.named (hm.1.isEntryName ht) d,
      place_pluginAt hm.1.named (hm.1.isEntryName ht) d⟩
  refine ⟨fun p => mem_discover_iff_outermost ht, hplace, ?_, ?_⟩
  · -- Of two plugins in the list none has the path of the other, so the order by path is strict.
    rw [List.pairwise_map]
    refine ((nodup_discover d ht).and (sorted_discover d t)).imp_of_mem fun {p p'} hp hp' h => ?_
    by_contra hlt
    have heq : p.relPath = p'.relPath := String.le_antisymm h.2 (String.not_lt.mp hlt)
    obtain ⟨m, hm, rfl⟩ := (mem_discover_iff_outermost ht).mp hp
    obtain ⟨m', hm', rfl⟩ := (mem_discover_iff_outermost ht).mp hp'
    exact h.1 (congrArg d.pluginAt (pluginAt_injective hm.1.named (hm.1.isEntryName ht) hm'.1.named
      (hm'.1.isEntryName ht) heq))
  · refine (nodup_discover d ht).imp_of_mem fun {p p'} hp hp' hne => ?_
    obtain ⟨m, hm, rfl⟩ := (mem_discover_iff_outermost ht).mp hp
    obtain ⟨m', hm', rfl⟩ := (mem_discover_iff_outermost ht).mp hp'
    rw [(hplace m hm).2, (hplace m' hm').2]
    constructor
    · intro hpre
      exact hne (congrArg d.pluginAt (hm.eq_of_above hm' hpre))
    · intro hpre
      exact hne (congrArg d.pluginAt (hm'.eq_of_above hm hpre).symm)

/-- A plugin beside a link to it. -/
def linkedEntries : List (String × FileNode) :=
  [("a", .directory [("readme.md", .file .empty)]), ("b", .link ⟨"a"⟩)]

def linkedTree : FileTree := ⟨.directory [("plugins", .directory linkedEntries)], []⟩

/-- A discovery that is told to go no level down. -/
def shallow : Discovery := ⟨⟨"/plugins"⟩, "readme.md", [], 0⟩

theorem sound_linkedTree : linkedTree.Sound := by
  have hsorted : ["a", "b"].Pairwise (· < ·) := by decide
  have ha : (FileNode.directory [("readme.md", .file .empty)]).Sound := by
    refine .directory (List.pairwise_singleton _ _) ?_ ?_
    · simp only [List.forall_mem_cons, List.not_mem_nil, false_imp_iff, implies_true, and_true]
      decide
    · simp only [List.forall_mem_cons, List.not_mem_nil, false_imp_iff, implies_true, and_true]
      exact .file _
  have hplugins : (FileNode.directory linkedEntries).Sound := by
    refine .directory hsorted ?_ ?_
    · simp only [linkedEntries, List.forall_mem_cons, List.not_mem_nil, false_imp_iff, implies_true,
        and_true]
      decide
    · simp only [linkedEntries, List.forall_mem_cons, List.not_mem_nil, false_imp_iff, implies_true,
        and_true]
      exact ⟨ha, .link _⟩
  refine .directory (List.pairwise_singleton _ _) ?_ ?_
  · simp only [List.forall_mem_cons, List.not_mem_nil, false_imp_iff, implies_true, and_true]
    decide
  · simp only [List.forall_mem_cons, List.not_mem_nil, false_imp_iff, implies_true, and_true]
    exact hplugins

theorem outermost_linkedTree : shallow.Outermost linkedTree 1 ["a"] := by
  have hfind : linkedTree.find ⟨"/plugins"⟩ = .ok (.directory linkedEntries) :=
    FileTree.find_of_names ["plugins"] (by decide) (by decide) rfl (FileNode.directory_ne_link _)
  have hdescriptor : linkedTree.find ⟨"/plugins/a/readme.md"⟩ = .ok (.file .empty) :=
    FileTree.find_of_names ["plugins", "a", "readme.md"] (by decide) (by decide) rfl
      (FileNode.file_ne_link _)
  have hpath : (pathTo shallow.pluginsDir ["a"]).join ⟨"readme.md"⟩ = ⟨"/plugins/a/readme.md"⟩ := by
    decide
  refine ⟨⟨by decide, by decide, by decide, ⟨_, hfind, _, rfl⟩, ?_⟩, ?_⟩
  · show linkedTree.isFile ((pathTo shallow.pluginsDir ["a"]).join ⟨"readme.md"⟩) = true
    rw [hpath]
    exact FileTree.holds_iff.mpr ⟨_, hdescriptor, rfl⟩
  · intro upper hpre hproper hupper
    obtain ⟨name, rest, rfl⟩ := List.exists_cons_of_ne_nil hupper.named
    obtain ⟨rfl, hrest⟩ := List.cons_prefix_cons.mp hpre
    exact hproper (by rw [List.prefix_nil.mp hrest])

/-- In the tree with a link, only the plugin itself is listed. -/
theorem discover_outermost_linked : linkedTree.Sound ∧
    (∀ p, p ∈ (shallow.discover linkedTree).plugins ↔
      ∃ m, shallow.Outermost linkedTree 1 m ∧ p = shallow.pluginAt m) ∧
    shallow.pluginAt ["a"] ∈ (shallow.discover linkedTree).plugins := by
  have hlist := (discover_outermost shallow sound_linkedTree).1
  exact ⟨sound_linkedTree, hlist, (hlist _).mpr ⟨["a"], outermost_linkedTree, rfl⟩⟩

/-- The plugin is listed although it lies deeper than zero levels down. -/
theorem zero_depth_lists_plugin : ¬ ∀ p, p ∈ (shallow.discover linkedTree).plugins ↔
    ∃ m, shallow.Outermost linkedTree shallow.maxDepth m ∧ p = shallow.pluginAt m := by
  intro h
  obtain ⟨m, hm, -⟩ := (h (shallow.pluginAt ["a"])).mp
    ((mem_discover_iff_outermost sound_linkedTree).mpr ⟨["a"], outermost_linkedTree, rfl⟩)
  exact hm.1.named (List.length_eq_zero_iff.mp (Nat.le_zero.mp hm.1.near))

end Discovery

end PluginVet
