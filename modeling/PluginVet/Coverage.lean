/-
# PluginVet.Coverage — which tools the tests of a plugin call

Test sources are searched for `tool: 'name'` with either kind of quotes. An index is the set of names
found; a declared tool that is not in it lacks coverage, and a name that several sections declare is
reported at the first of them.

§A references in a source, §B the index, §C tests in a directory, §D the check.
-/
import PluginVet.Finding
import PluginVet.FileTree.Walk
import PluginVet.Glob
import PluginVet.Manifest.Basic
import PluginVet.Text.Lossy

namespace PluginVet.Coverage

/-! ## §A References -/

def isQuote (c : Char) : Bool := c = '\'' || c = '"'

/-- The text between two quotes, which is not empty, and what stands behind the second one. -/
def quotedName? (s : List Char) : Option (List Char × List Char) :=
  match s with
  | [] => none
  | q :: body =>
    if !isQuote q then none
    else match body.takeWhile (fun c => !isQuote c), body.dropWhile (fun c => !isQuote c) with
      | c :: cs, _ :: rest => some (c :: cs, rest)
      | _, _ => none

/-- A reference at the very beginning of a text: its name, and the text behind it. -/
def reference? (s : List Char) : Option (List Char × List Char) :=
  (Text.dropHead? ['t', 'o', 'o', 'l', ':'] s).bind fun rest =>
    quotedName? (rest.dropWhile Text.isBlank)

theorem length_dropWhile_le (p : Char → Bool) (s : List Char) :
    (s.dropWhile p).length ≤ s.length :=
  (List.dropWhile_suffix p).length_le

theorem length_quotedName? {s name rest : List Char} (h : quotedName? s = some (name, rest)) :
    rest.length < s.length := by
  unfold quotedName? at h
  split at h
  · simp at h
  · rename_i q body
    split at h
    · simp at h
    · split at h
      · rename_i c cs d tail _ hd
        simp only [Option.some.injEq, Prod.mk.injEq] at h
        have := length_dropWhile_le (fun c => !isQuote c) body
        rw [hd, h.2] at this
        simp only [List.length_cons] at this ⊢
        omega
      · simp at h

theorem length_reference? {s name rest : List Char} (h : reference? s = some (name, rest)) :
    rest.length < s.length := by
  simp only [reference?, Option.bind_eq_some_iff] at h
  obtain ⟨tail, ht, hq⟩ := h
  have h1 := length_quotedName? hq
  have h2 := length_dropWhile_le Text.isBlank tail
  have h3 := congrArg List.length (Text.dropHead?_eq_append ht)
  simp only [List.length_append, List.length_cons, List.length_nil] at h3
  omega

/-- **`references s`** — the names in a text from left to right; the search goes on behind each. -/
def references (s : List Char) : List String :=
  match s with
  | [] => []
  | c :: cs =>
    match h : reference? (c :: cs) with
    | some (name, rest) =>
      have := length_reference? h
      String.ofList name :: references rest
    | none => references cs
termination_by s.length
decreasing_by
  · exact this
  · exact Nat.lt_succ_self _

/-! ## §B The index -/

/-- The names that some test refers to. -/
abbrev Index := Names

def ofSources (sources : List String) : Index :=
  Names.ofNames (sources.flatMap fun s => references s.toList)

/-! ## §C Tests in a directory -/

/-- The test files below a directory; no directory has none. -/
def testFiles (t : FileTree) (dir : Path) (patterns : List Glob) (maxDepth : Nat) :
    List FileTree.Entry :=
  match t.find dir with
  | .ok node =>
    (FileTree.below maxDepth (fun _ => true) dir 1 node).filter fun e =>
      e.node.isFile && Glob.anyMatches patterns e.name
  | .error _ => []

/-- The text of a test file, whatever its bytes are. -/
def sourceOf (e : FileTree.Entry) : String :=
  match e.node with
  | .file bytes => Text.decodeLossy bytes
  | _ => ""

/-- **`scan`** — the index of the test files below a directory. -/
def scan (t : FileTree) (dir : Path) (patterns : List Glob) (maxDepth : Nat) : Index :=
  ofSources ((testFiles t dir patterns maxDepth).map sourceOf)

/-! ## §D The check -/

/-- Declarations whose name none before them has. -/
def firstDeclarations (seen : List String) : List DeclaredTool → List DeclaredTool
  | [] => []
  | d :: rest =>
    if seen.contains d.name then firstDeclarations seen rest
    else d :: firstDeclarations (d.name :: seen) rest

def message (d : DeclaredTool) : String :=
  d.kind.title ++ " '" ++ d.name ++ "' is not referenced by any test (tool: \"" ++ d.name ++ "\")"

def finding (d : DeclaredTool) : Finding := .plain .missingCoverage d.pointer (message d)

/-- The declared tools that no test refers to, each name once. -/
def untested (m : Manifest) (index : Index) : List DeclaredTool :=
  firstDeclarations [] (m.tools.filter fun d => !index.contains d.name)

/-- **`findings`** — the coverage check. -/
def findings (m : Manifest) (index : Index) : List Finding := (untested m index).map finding

end PluginVet.Coverage
