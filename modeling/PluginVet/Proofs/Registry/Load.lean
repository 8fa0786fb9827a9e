/-
# PluginVet.Proofs.Registry.Load — the registry of a directory

What a directory of files declares can be said without a walk and without a registry: which locations
hold registry files (`LoadOptions.Admits`), and what the documents of the file at a location declare
(`declarationsAt`). Loading visits these files in the order of their locations
(`exists_registryFiles`), and its statements are these declarations (`filterMap_fileStatements`). The
registry is then theirs, the first declaration of an id being the one that holds
(`load_keeps_first_declarations`).

§A declarations, §B the statements of a file, §C the files, §D the registry, §E a small registry.
-/
import PluginVet.Proofs.FileTree.Walk
import PluginVet.Proofs.Registry.Definitions
import PluginVet.Proofs.Text.Search
import PluginVet.Registry.Statement

namespace PluginVet.Registry

open FileTree (Entered Entry Met Places entryAt pathTo)

/-! ## §A Declarations -/

/-- An entity as a document declares it. -/
structure Declaration where
  id : String
  /-- The keys of the properties that are texts; absent where the properties are no mapping. -/
  keys : Option (List String)
  /-- The file. -/
  path : Path

def Declaration.toDefinition (d : Declaration) : Definition := ⟨d.id, d.keys.map Names.ofNames, d.path⟩

/-- The keys of a mapping that are texts. -/
def declaredKeys (properties : Option Yaml.Value) : Option (List String) :=
  (properties.bind Yaml.Value.entries?).map fun es => es.filterMap fun e => e.1.text?

/-- What a document declares: the entity whose id it gives, if that is a text; without any id, the
entities that it lists under ids that are texts. -/
def declarationsOf (path : Path) (v : Yaml.Value) : List Declaration :=
  match v.get? "id" with
  | some id => (id.text?.map fun id => ⟨id, declaredKeys (v.get? "properties"), path⟩).toList
  | none =>
    match (v.get? "entities").bind Yaml.Value.entries? with
    | some entries => entries.filterMap fun e =>
      e.1.text?.map fun id => ⟨id, declaredKeys (e.2.get? "properties"), path⟩
    | none => []

/-- The values of the documents in front of the first one that has none. -/
def leadingValues (ds : List Yaml.Document) : List Yaml.Value :=
  (ds.takeWhile fun d => d.value.isOk).filterMap fun d => d.value.toOption

/-- **`declarationsAt root node l`** — what the file at a location below the directory `node` declares. -/
def declarationsAt (root : Path) (node : FileNode) (l : Location) : List Declaration :=
  match (node.fileAt? l).bind String.fromUTF8? with
  | some content =>
    (leadingValues (Yaml.documents content)).flatMap (declarationsOf (pathTo root l))
  | none => []

/-- **`Admits o node l`** — the file at the location `l` below the directory `node` is to be read. -/
structure LoadOptions.Admits (o : LoadOptions) (node : FileNode) (l : Location) : Prop where
  file : (node.fileAt? l).isSome
  near : l.length ≤ o.maxDepth
  named : ∃ name ∈ l.getLast?, (Path.extension? name = some "yaml" ∨
    Path.extension? name = some "yml") ∧ name ∉ o.skipFiles
  entered : ∀ name ∈ l.dropLast, name.toList.head? ≠ some '.' ∧ name ∉ o.skipDirs

/-! ## §B The statements of a file -/

def Statement.definition? : Statement → Option Definition
  | .definition d => some d
  | .warning _ => none

variable {path root : Path} {node child : FileNode} {o : LoadOptions} {m l : Location} {e : Entry}
  {name : String} {depth : Nat}

theorem propertyNames_eq (properties : Option Yaml.Value) :
    propertyNames properties = (declaredKeys properties).map Names.ofNames := by
  rw [propertyNames, declaredKeys, Option.map_map]
  rfl

theorem filterMap_documentStatements (path : Path) (v : Yaml.Value) :
    (documentStatements path v).filterMap Statement.definition?
      = (declarationsOf path v).map Declaration.toDefinition := by
  rw [documentStatements, declarationsOf]
  cases v.get? "id" with
  | some id =>
      dsimp only
      cases id.text? with
      | none => rfl
      | some text =>
          rw [propertyNames_eq]
          rfl
  | none =>
      dsimp only
      cases (v.get? "entities").bind Yaml.Value.entries? with
      | none => rfl
      | some entries =>
          dsimp only
          rw [List.filterMap_map, List.map_filterMap]
          refine List.filterMap_congr fun e _ => ?_
          show Statement.definition? (match e.1.text? with | some id => _ | none => _) = _
          cases e.1.text? with
          | none => rfl
          | some text =>
              rw [propertyNames_eq]
              rfl

theorem filterMap_streamStatements (path : Path) (total number : Nat) (ds : List Yaml.Document) :
    (streamStatements path total number ds).filterMap Statement.definition?
      = ((leadingValues ds).flatMap (declarationsOf path)).map Declaration.toDefinition := by
  induction ds generalizing number with
  | nil => rfl
  | cons d rest ih =>
      rw [streamStatements, leadingValues]
      cases hvalue : d.value with
      | error cause => 
          rw [List.takeWhile_cons_of_neg (by rw [hvalue]; exact Bool.false_ne_true)]
          rfl
      | ok v =>
          rw [List.takeWhile_cons_of_pos (by rw [hvalue]; rfl), List.filterMap_append, ih,
            filterMap_documentStatements, List.filterMap_cons_some (by rw [hvalue]; rfl),
            List.flatMap_cons, List.map_append]
          rfl

/-- **`filterMap_fileStatements`** — the definitions in what a file has to say are what it declares. -/
theorem filterMap_fileStatements (hat : node.at? l = some e.node) (hpath : e.path = pathTo root l) :
    (fileStatements e).filterMap Statement.definition?
      = (declarationsAt root node l).map Declaration.toDefinition := by
  have hfile : (node.fileAt? l).bind String.fromUTF8? = (FileTree.textOf e.node).toOption := by
    rw [FileNode.fileAt?, hat]
    cases e.node with
    | directory es => rfl
    | link target => rfl
    | file bytes =>
        show String.fromUTF8? bytes = (FileTree.textOf (.file bytes)).toOption
        simp only [FileTree.textOf, FileTree.contentOf, bind, Except.bind]
        cases String.fromUTF8? bytes <;> rfl
  rw [fileStatements, declarationsAt, hfile]
  cases FileTree.textOf e.node with
  | error cause => rfl
  | ok content =>
      rw [← hpath]
      exact filterMap_streamStatements e.path _ 0 _

/-! ## §C The files -/

theorem skips_eq_false_iff : o.skips e = false ↔
    e.name.toList.head? ≠ some '.' ∧ e.name ∉ o.skipDirs := by
  have hhidden : (Text.dropHead? ['.'] e.name.toList).isSome = true ↔
      e.name.toList.head? = some '.' := by
    rw [Option.isSome_iff_exists]
    simp only [Text.dropHead?_eq_some_iff]
    cases e.name.toList with
    | nil => simp
    | cons c cs => simp
  rw [LoadOptions.skips, Bool.or_eq_false_iff, Bool.eq_false_iff, Ne, hhidden,
    List.contains_eq_mem, decide_eq_false_iff_not]

/-- A walk for registry files goes down every way whose names are not skipped. -/
theorem entered_skips_iff (hat : (node.at? m).isSome) :
    Entered (fun e => !o.skips e) path depth node m ↔
      ∀ name ∈ m, name.toList.head? ≠ some '.' ∧ name ∉ o.skipDirs := by
  induction m generalizing path depth node with
  | nil => exact ⟨fun _ name h => absurd h List.not_mem_nil, fun _ => trivial⟩
  | cons name rest ih =>
      rw [FileNode.at?_cons] at hat
      obtain ⟨child, hget, hchild⟩ : ∃ child, Keyed.get? node.entries name = some child ∧
          (child.at? rest).isSome := by
        cases hget : Keyed.get? node.entries name with
        | none =>
            rw [hget] at hat
            cases hat
        | some child =>
            rw [hget] at hat
            exact ⟨child, rfl, hat⟩
      rw [List.forall_mem_cons, ← ih hchild]
      constructor
      · rintro ⟨child', hget', henter, hentered⟩
        obtain rfl := Option.some.inj (hget.symm.trans hget')
        exact ⟨skips_eq_false_iff.mp ((Bool.not_eq_true' _).mp henter), hentered⟩
      · rintro ⟨hname, hentered⟩
        exact ⟨child, hget, (Bool.not_eq_true' _).mpr (skips_eq_false_iff.mpr hname), hentered⟩

theorem reads_iff : o.reads e = true ↔ e.node.isFile = true ∧
    (Path.extension? e.name = some "yaml" ∨ Path.extension? e.name = some "yml") ∧
      e.name ∉ o.skipFiles := by
  simp [LoadOptions.reads, and_assoc]

theorem isSome_at?_of_append {r : Location} (hat : node.at? (m ++ r) = some child) :
    (node.at? m).isSome := by
  cases habove : node.at? m with
  | some above => rfl
  | none =>
      rw [FileNode.at?_append_eq_none habove] at hat
      cases hat

/-- The walk meets and reads at a location what stands there exactly if the options admit it. -/
theorem admits_iff (root : Path) : o.Admits node l ↔
    ∃ e, Met o.maxDepth (fun e => !o.skips e) root 1 node l e ∧ o.reads e = true := by
  constructor
  · rintro ⟨hfile, hnear, ⟨name, hlast, hname⟩, hentered⟩
    obtain ⟨bytes, hbytes⟩ := Option.isSome_iff_exists.mp hfile
    have hat := FileNode.fileAt?_eq_some_iff.mp hbytes
    obtain ⟨m, rfl⟩ := List.getLast?_eq_some_iff.mp hlast
    rw [List.length_append, List.length_singleton] at hnear
    rw [List.dropLast_concat] at hentered
    have habove := isSome_at?_of_append hat
    exact ⟨_, ⟨m, name, .file bytes, rfl, (entered_skips_iff habove).mpr hentered, hat, by omega, rfl⟩,
      reads_iff.mpr ⟨rfl, hname⟩⟩
  · rintro ⟨e, ⟨m, name, child, rfl, hentered, hat, hnear, rfl⟩, hreads⟩
    obtain ⟨hfile, hname⟩ := reads_iff.mp hreads
    have habove := isSome_at?_of_append hat
    refine ⟨?_, ?_, ⟨name, List.getLast?_concat, hname⟩, ?_⟩
    · cases child with
      | file bytes =>
          rw [FileNode.fileAt?_eq_some_iff.mpr hat]
          rfl
      | link target => cases hfile
      | directory es => cases hfile
    · rw [List.length_append, List.length_singleton]
      omega
    · rw [List.dropLast_concat]
      exact (entered_skips_iff habove).mp hentered

/-- **`exists_registryFiles`** — the registry files stand, in the order in which they are read, at the
locations that the options admit, in increasing order. -/
theorem exists_registryFiles (o : LoadOptions) (root : Path) (hnode : node.Ordered) :
    Places (registryFiles o root node) fun l e =>
      Met o.maxDepth (fun e => !o.skips e) root 1 node l e ∧ o.reads e = true := by
  obtain ⟨ps, hentries, hsorted, hps⟩ : Places
      (FileTree.below o.maxDepth (fun e => !o.skips e) root 1 node) _ := FileTree.places_below hnode
  refine ⟨ps.filter fun p => o.reads p.2, ?_, ?_, fun l e => ?_⟩
  · rw [registryFiles, ← hentries, List.filter_map]
    rfl
  · exact hsorted.sublist (List.filter_sublist.map Prod.fst)
  · rw [List.mem_filter, hps]

/-! ## §D The registry -/

/-- The registry that statements make is that of the definitions among them. -/
theorem registry_foldl_note (statements : List Statement) (loaded : Loaded) :
    (statements.foldl Loaded.note loaded).registry
      = (statements.filterMap Statement.definition?).foldl define loaded.registry := by
  induction statements generalizing loaded with
  | nil => rfl
  | cons s rest ih =>
      rw [List.foldl_cons, ih]
      cases s with
      | definition d => rfl
      | warning w => rfl

/-- The registry of a directory is that of the declarations in its files, location by location. -/
theorem exists_files (o : LoadOptions) (root : Path) (hnode : node.Ordered) :
    ∃ files : List Location, files.Pairwise (· < ·) ∧
      (∀ l, l ∈ files ↔ o.Admits node l) ∧
      (statements o root node).filterMap Statement.definition?
        = (files.flatMap (declarationsAt root node)).map Declaration.toDefinition := by
  obtain ⟨ps, hentries, hsorted, hps⟩ := exists_registryFiles o root hnode
  refine ⟨ps.map Prod.fst, hsorted, fun l => ?_, ?_⟩
  · rw [admits_iff root, List.mem_map]
    constructor
    · rintro ⟨⟨l, e⟩, hp, rfl⟩
      exact ⟨e, (hps l e).mp hp⟩
    · rintro ⟨e, he⟩
      exact ⟨(l, e), (hps l e).mpr he, rfl⟩
  · rw [statements, ← hentries, List.filterMap_flatMap, List.flatMap_map, List.map_flatMap,
      List.flatMap_map]
    refine List.flatMap_congr fun p hp => ?_
    obtain ⟨⟨m, name, child, hl, -, hat, -, he⟩, -⟩ := (hps p.1 p.2).mp hp
    refine filterMap_fileStatements ?_ ?_
    · rw [he]
      exact hat
    · rw [he, hl, FileTree.pathTo_concat]
      rfl

/-- **`KeepsFirst declared r`** — the registry `r` knows the declared ids, in order. Each of them has the
keys of its first declaration as the names of its properties, and the later declarations, with their
files, are the duplicates; so each declaration is an entity or a duplicate. -/
structure KeepsFirst (declared : List Declaration) (r : Registry) : Prop where
  sorted : r.ids.Pairwise (· < ·)
  ids : ∀ id, id ∈ r.ids ↔ ∃ d ∈ declared, d.id = id
  properties : ∀ id, Option.Rel (fun names keys => ∀ key, names.contains key = true ↔ key ∈ keys)
    (r.properties? id) ((declared.find? fun d => d.id = id).bind Declaration.keys)
  duplicates : r.duplicates.map (fun d => (d.id, d.path))
    = (repeats Declaration.id declared).map fun d => (d.id, d.path)
  accounted : r.size + r.duplicates.length = declared.length

theorem keepsFirst_ofDefinitions (declared : List Declaration) :
    KeepsFirst declared (ofDefinitions (declared.map Declaration.toDefinition)) where
  sorted := sorted_ids _
  ids id := by
    rw [← contains_iff, contains_ofDefinitions]
    simp only [List.mem_map, exists_exists_and_eq_and]
    rfl
  properties id := by
    rw [properties?_ofDefinitions, List.find?_map]
    show Option.Rel _ (((declared.find? fun d => d.id = id).map _).bind _) _
    cases declared.find? fun d => d.id = id with
    | none => exact .none
    | some first =>
        show Option.Rel _ (first.keys.map Names.ofNames) first.keys
        cases first.keys with
        | none => exact .none
        | some keys => exact .some fun key => Names.contains_ofNames
  duplicates := by
    rw [duplicates_ofDefinitions, repeats_map, List.map_map]
    rfl
  accounted := by rw [size_add_duplicates, List.length_map]

/-- **`load_keeps_first_declarations`** — every directory has a registry, which keeps the first
declarations. Its files are the admitted ones in the order of their locations, so that each directory
is gone through to its end before its next sibling. -/
theorem load_keeps_first_declarations {t : FileTree} {o : LoadOptions} {root : Path}
    {es : List (String × FileNode)} (hfind : t.find root = .ok (.directory es))
    (hordered : (FileNode.directory es).Ordered) :
    ∃ (files : List Location) (loaded : Loaded), load t o root = .ok loaded ∧
      files.Pairwise (· < ·) ∧ (∀ l, l ∈ files ↔ o.Admits (.directory es) l) ∧
        KeepsFirst (files.flatMap (declarationsAt root (.directory es))) loaded.registry := by
  obtain ⟨files, hsorted, hfiles, hstatements⟩ := exists_files o root hordered
  refine ⟨files, (statements o root (.directory es)).foldl Loaded.note ⟨.empty, []⟩, ?_, hsorted, hfiles,
    ?_⟩
  · rw [load, hfind]
    rfl
  · rw [registry_foldl_note, hstatements]
    exact keepsFirst_ofDefinitions _

/-! ## §E A small registry -/

/-- A directory with one registry file and a link to it. -/
def oneFile : List (String × FileNode) :=
  [("latest.yaml", .link ⟨"task.yaml"⟩), ("task.yaml", .file "id: task".toUTF8)]

theorem ordered_oneFile : (FileNode.directory oneFile).Ordered := by
  have hsorted : ["latest.yaml", "task.yaml"].Pairwise (· < ·) := by decide
  refine .directory hsorted ?_
  simp only [oneFile, List.forall_mem_cons, List.not_mem_nil, false_imp_iff, implies_true, and_true]
  exact ⟨.link _, .file _⟩

theorem find_oneFile :
    FileTree.find ⟨.directory oneFile, []⟩ ⟨"/"⟩ = .ok (.directory oneFile) := by
  have hsteps : Path.steps ⟨"/"⟩ = [.stay] := by decide
  have hlocate : FileTree.locate ⟨.directory oneFile, []⟩ ⟨"/"⟩ = .ok [] := by
    rw [FileTree.locate, if_neg (by decide), hsteps, FileTree.follow]
    show FileTree.follow _ _ _ [] = _
    rw [FileTree.follow]
    rfl
  rw [FileTree.find, hlocate]
  rfl

/-- The file is read and the link is not. -/
theorem load_oneFile : ∃ (files : List Location) (loaded : Loaded),
    load ⟨.directory oneFile, []⟩ .standard ⟨"/"⟩ = .ok loaded ∧
      ["task.yaml"] ∈ files ∧ ["latest.yaml"] ∉ files ∧
        KeepsFirst (files.flatMap (declarationsAt ⟨"/"⟩ (.directory oneFile))) loaded.registry := by
  obtain ⟨files, loaded, hload, -, hfiles, hkeeps⟩ :=
    load_keeps_first_declarations (o := .standard) find_oneFile ordered_oneFile
  refine ⟨files, loaded, hload, (hfiles _).mpr ?_, fun h => ?_, hkeeps⟩
  · exact ⟨rfl, by decide, ⟨"task.yaml", rfl, Or.inl (by decide), by decide⟩, by decide⟩
  · cases ((hfiles _).mp h).file

end PluginVet.Registry
