/-
# PluginVet.Proofs.Path.Steps — the way that a path describes

A path is read twice: as components, where it is compared or shown, and as steps, where it is followed.
Both come from its pieces. The `trail` of a path is its steps without those that lead nowhere; it also
determines the components behind the beginning (`components_eq`), and joining two paths joins their
trails (`trail_join`).

A contained path is relative and its trail consists of names (`isContained_iff`).

§A pieces and steps, §B joining, §C contained paths, §D names that a path can spell, §E parents.
-/
import PluginVet.FileTree.Resolve
import PluginVet.Proofs.Text.Search

namespace PluginVet.Path

variable {p base next : Path} {name : String} {ns : List String}

/-! ## §A Pieces and steps -/

/-- What stands between the slashes of a path. -/
def pieces (p : Path) : List (List Char) := Text.splitOn slash p.text.toList

/-- The steps of the pieces that are not empty. -/
def lead (p : Path) : List Step := (p.pieces.filter (· ≠ [])).map Step.ofPiece

/-- The steps of pieces, without those that lead nowhere. -/
def trailOf (ps : List (List Char)) : List Step :=
  ((ps.filter (· ≠ [])).map Step.ofPiece).filter (· ≠ .stay)

/-- **`trail p`** — the steps of a path that lead somewhere. -/
def trail (p : Path) : List Step := trailOf p.pieces

/-- What a step is among the components of a path. -/
def Step.component? : Step → Option Component
  | .stay => none
  | .up => some .parent
  | .into name => some (.name name)

def Step.name? : Step → Option String
  | .into name => some name
  | _ => none

/-- The names that a path leads into. -/
def names (p : Path) : List String := p.trail.filterMap Step.name?

theorem Component.ofPiece?_eq (piece : List Char) :
    Component.ofPiece? piece = (Step.ofPiece piece).component? := by
  unfold Component.ofPiece? Step.ofPiece
  split
  · rfl
  · rfl
  · rfl
  · rename_i hnil hdot hdots
    have hidle : ¬ (decide (piece = []) || decide (piece = ['.'])) = true := by
      simpa using ⟨hnil, hdot⟩
    rw [if_neg hidle, if_neg hdots]
    rfl

theorem text_ne_nil_of_trail (h : p.trail ≠ []) : p.text.toList ≠ [] := by
  intro hnil
  rw [trail, pieces, hnil] at h
  exact h rfl

theorem filterMap_component?_filter (steps : List Step) :
    (steps.filter (· ≠ .stay)).filterMap Step.component? = steps.filterMap Step.component? := by
  induction steps with
  | nil => rfl
  | cons s rest ih =>
      cases s with
      | stay => simpa [Step.component?, List.filterMap_cons] using ih
      | up => simpa [Step.component?] using ih
      | into name => simpa [Step.component?] using ih

/-- The components of a path behind its beginning are those of its trail. -/
theorem components_eq (p : Path) :
    p.components = p.leading ++ p.trail.filterMap Step.component? := by
  have hpieces : ∀ ps : List (List Char), ps.filterMap Component.ofPiece?
      = ((ps.filter (· ≠ [])).map Step.ofPiece).filterMap Step.component? := by
    intro ps
    induction ps with
    | nil => rfl
    | cons piece rest ih =>
        cases piece with
        | nil => simpa [Component.ofPiece?, List.filterMap_cons] using ih
        | cons c cs =>
            rw [List.filterMap_cons, Component.ofPiece?_eq, ih]
            simp [List.filterMap_cons]
  rw [trail, trailOf, filterMap_component?_filter, ← hpieces]
  rfl

theorem dropEmptyPieces_append (ps : List (List Char)) {qs : List (List Char)} (hqs : qs ≠ []) :
    dropEmptyPieces (ps ++ qs) = ps.filter (· ≠ []) ++ dropEmptyPieces qs := by
  induction ps with
  | nil => rfl
  | cons piece rest ih =>
      have hne : rest ++ qs ≠ [] := List.append_ne_nil_of_right_ne_nil rest hqs
      rw [List.cons_append, dropEmptyPieces, ih]
      · cases piece <;> simp
      · exact hne

/-- A slash at the end of a path is the only step that its pieces do not give. -/
theorem steps_eq_or (p : Path) : p.steps = p.lead ∨ p.steps = p.lead ++ [.stay] := by
  obtain ⟨ps, last, hps⟩ :=
    (List.eq_nil_or_concat p.pieces).resolve_left (Text.splitOn_ne_nil slash p.text.toList)
  have hsteps : p.steps = (dropEmptyPieces p.pieces).map Step.ofPiece := rfl
  rw [hsteps, lead, hps, List.concat_eq_append, dropEmptyPieces_append ps (List.cons_ne_nil _ _)]
  cases last with
  | nil => exact Or.inr (by simp [dropEmptyPieces, Step.ofPiece])
  | cons c cs => exact Or.inl (by simp [dropEmptyPieces])

theorem steps_ne_nil (p : Path) : p.steps ≠ [] := by
  rcases p.steps_eq_or with h | h
  · intro hnil
    obtain ⟨ps, last, hps⟩ :=
      (List.eq_nil_or_concat p.pieces).resolve_left (Text.splitOn_ne_nil slash p.text.toList)
    have hsteps : p.steps = (dropEmptyPieces p.pieces).map Step.ofPiece := rfl
    rw [hsteps, hps, List.concat_eq_append, dropEmptyPieces_append ps (List.cons_ne_nil _ _)] at hnil
    exact absurd hnil (by simp [dropEmptyPieces])
  · rw [h]
    exact List.append_ne_nil_of_right_ne_nil _ (List.cons_ne_nil _ _)

theorem filter_steps (p : Path) : p.steps.filter (· ≠ .stay) = p.trail := by
  rcases p.steps_eq_or with h | h
  · rw [h]
    rfl
  · rw [h, List.filter_append]
    exact List.append_nil p.trail

/-! ## §B Joining -/

theorem isAbsolute_iff : p.isAbsolute = true ↔ ∃ cs, p.text.toList = slash :: cs := by
  simp [isAbsolute, Option.isSome_iff_exists, Text.dropHead?_eq_some_iff]

/-- The pieces of two paths behind each other; a slash at the end of the first one is not doubled. -/
theorem pieces_join (hbase : base.text.toList ≠ []) (hnext : next.isAbsolute = false) :
    ∃ ps, ps ≠ [] ∧ (base.pieces = ps ∨ base.pieces = ps ++ [[]]) ∧
      (base.join next).pieces = ps ++ next.pieces := by
  have hempty : base.text.isEmpty = false := by
    rw [Bool.eq_false_iff]
    intro h
    exact hbase (by rw [String.isEmpty_iff.mp h]; rfl)
  unfold join
  rw [if_neg (by simp [hnext]), hempty, Bool.false_or]
  split
  · rename_i hslash
    obtain ⟨rest, hrest⟩ := Option.isSome_iff_exists.mp hslash
    obtain ⟨r, hr, -⟩ := Option.map_eq_some_iff.mp hrest
    have hr : base.text.toList = r.reverse ++ [slash] := by
      have := congrArg List.reverse (Text.dropHead?_eq_append hr)
      simpa using this
    refine ⟨Text.splitOn slash r.reverse, Text.splitOn_ne_nil _ _, Or.inr ?_, ?_⟩
    · rw [pieces, hr, Text.splitOn_append_sep]
      rfl
    · rw [pieces, String.toList_append, hr, List.append_assoc]
      exact Text.splitOn_append_sep slash r.reverse next.text.toList
  · refine ⟨base.pieces, Text.splitOn_ne_nil _ _, Or.inl rfl, ?_⟩
    rw [pieces, String.toList_append, String.toList_append, List.append_assoc]
    exact Text.splitOn_append_sep slash base.text.toList next.text.toList

theorem lead_join (hbase : base.text.toList ≠ []) (hnext : next.isAbsolute = false) :
    (base.join next).lead = base.lead ++ next.lead := by
  obtain ⟨ps, -, hps | hps, hjoin⟩ := pieces_join hbase hnext
  · simp [lead, hjoin, hps]
  · simp [lead, hjoin, hps]

theorem trail_join (hbase : base.text.toList ≠ []) (hnext : next.isAbsolute = false) :
    (base.join next).trail = base.trail ++ next.trail := by
  have htrail : ∀ p : Path, p.trail = p.lead.filter (· ≠ .stay) := fun _ => rfl
  rw [htrail, lead_join hbase hnext, List.filter_append]
  rfl

theorem steps_join (hbase : base.text.toList ≠ []) (hnext : next.isAbsolute = false) :
    (base.join next).steps = base.lead ++ next.steps := by
  obtain ⟨ps, -, hps, hjoin⟩ := pieces_join hbase hnext
  have hlead : (ps.filter (· ≠ [])).map Step.ofPiece = base.lead := by
    rcases hps with hps | hps
    · rw [lead, hps]
    · simp [lead, hps]
  have hsteps : ∀ p : Path, p.steps = (dropEmptyPieces p.pieces).map Step.ofPiece := fun _ => rfl
  have hne : next.pieces ≠ [] := Text.splitOn_ne_nil _ _
  rw [hsteps, hjoin, dropEmptyPieces_append ps hne,
    List.map_append, hlead]
  rfl

theorem text_join_ne_nil (hbase : base.text.toList ≠ []) (hnext : next.isAbsolute = false) :
    (base.join next).text.toList ≠ [] := by
  unfold join
  rw [if_neg (by simp [hnext])]
  split
  · rw [String.toList_append]
    exact List.append_ne_nil_of_left_ne_nil hbase _
  · rw [String.toList_append, String.toList_append]
    exact List.append_ne_nil_of_left_ne_nil (List.append_ne_nil_of_left_ne_nil hbase _) _

theorem isAbsolute_join (hbase : base.text.toList ≠ []) (hnext : next.isAbsolute = false) :
    (base.join next).isAbsolute = base.isAbsolute := by
  obtain ⟨c, cs, hcs⟩ := List.exists_cons_of_ne_nil hbase
  have hhead : ∃ tail, (base.join next).text.toList = c :: tail := by
    unfold join
    rw [if_neg (by simp [hnext])]
    split <;> simp [hcs]
  obtain ⟨tail, htail⟩ := hhead
  rw [Bool.eq_iff_iff, isAbsolute_iff, isAbsolute_iff, htail, hcs]
  simp

theorem leading_join (hbase : base.text.toList ≠ []) (hnext : next.isAbsolute = false) :
    (base.join next).leading = base.leading := by
  obtain ⟨ps, hne, hps, hjoin⟩ := pieces_join hbase hnext
  obtain ⟨piece, rest, rfl⟩ := List.exists_cons_of_ne_nil hne
  have hleading : ∀ p : Path, p.leading = if p.isAbsolute then [.root]
      else if p.pieces.head? = some ['.'] then [.here] else [] := by
    intro p
    unfold leading pieces
    split
    · rfl
    · split
      · rename_i h
        simp [h]
      · rename_i h
        rw [if_neg]
        intro hhead
        obtain ⟨tail, htail⟩ := List.head?_eq_some_iff.mp hhead
        exact h tail htail
  rw [hleading, hleading, isAbsolute_join hbase hnext, hjoin]
  rcases hps with hps | hps <;> simp [hps]

theorem components_join (hbase : base.text.toList ≠ []) (hnext : next.isAbsolute = false) :
    (base.join next).components = base.components ++ next.trail.filterMap Step.component? := by
  rw [components_eq, components_eq, leading_join hbase hnext, trail_join hbase hnext,
    List.filterMap_append, List.append_assoc]

/-! ## §C Contained paths -/

theorem stay_not_mem_trail (p : Path) : .stay ∉ p.trail := by
  intro h
  exact absurd (List.mem_filter.mp h).2 (by decide)

theorem trail_eq_map_names (h : .up ∉ p.trail) : p.trail = p.names.map .into := by
  have hsteps : ∀ steps : List Step, .stay ∉ steps → .up ∉ steps →
      steps = (steps.filterMap Step.name?).map .into := by
    intro steps hstay hup
    induction steps with
    | nil => rfl
    | cons s rest ih =>
        rw [List.mem_cons, not_or] at hstay hup
        cases s with
        | stay => exact absurd rfl hstay.1
        | up => exact absurd rfl hup.1
        | into name =>
            show Step.into name :: rest = Step.into name :: (rest.filterMap Step.name?).map .into
            rw [← ih hstay.2 hup.2]
  exact hsteps p.trail p.stay_not_mem_trail h

theorem root_mem_leading : .root ∈ p.leading ↔ p.isAbsolute = true := by
  unfold leading
  split
  · rename_i h
    simp [h]
  · rename_i h
    split <;> simp [h]

theorem parent_not_mem_leading (p : Path) : .parent ∉ p.leading := by
  unfold leading
  split
  · simp
  · split <;> simp

theorem not_mem_filterMap_component? (steps : List Step) :
    .root ∉ steps.filterMap Step.component? ∧ .here ∉ steps.filterMap Step.component? := by
  constructor <;>
  · intro h
    obtain ⟨s, -, hs⟩ := List.mem_filterMap.mp h
    cases s <;> simp [Step.component?] at hs

theorem parent_mem_filterMap_component? (steps : List Step) :
    .parent ∈ steps.filterMap Step.component? ↔ .up ∈ steps := by
  rw [List.mem_filterMap]
  constructor
  · rintro ⟨s, hs, hparent⟩
    cases s with
    | up => exact hs
    | stay => simp [Step.component?] at hparent
    | into name => simp [Step.component?] at hparent
  · intro h
    exact ⟨.up, h, rfl⟩

/-- **`isContained_iff`** — a path that stays below where it begins is relative and consists of
names. -/
theorem isContained_iff :
    p.isContained = true ↔ p.isAbsolute = false ∧ p.trail = p.names.map .into := by
  have hcontained : p.isContained = true ↔ .root ∉ p.components ∧ .parent ∉ p.components := by
    unfold isContained
    rw [List.all_eq_true]
    constructor
    · intro h
      exact ⟨fun hroot => absurd (h _ hroot) Bool.false_ne_true,
        fun hparent => absurd (h _ hparent) Bool.false_ne_true⟩
    · rintro ⟨hroot, hparent⟩ c hc
      cases c with
      | root => exact absurd hc hroot
      | parent => exact absurd hc hparent
      | here => rfl
      | name n => rfl
  have hnames : .up ∉ p.trail ↔ p.trail = p.names.map .into := by
    refine ⟨trail_eq_map_names, fun h hup => ?_⟩
    rw [h] at hup
    simp at hup
  rw [hcontained, components_eq, List.mem_append, List.mem_append, not_or, not_or,
    root_mem_leading, parent_mem_filterMap_component?, Bool.not_eq_true, hnames]
  exact ⟨fun h => ⟨h.1.1, h.2.2⟩,
    fun h => ⟨⟨h.1, (not_mem_filterMap_component? _).1⟩, p.parent_not_mem_leading, h.2⟩⟩

theorem filterMap_component?_map_into (ns : List String) :
    (ns.map Step.into).filterMap Step.component? = ns.map .name := by
  rw [List.filterMap_map]
  exact congrFun (List.filterMap_eq_map (f := Component.name)) ns

/-- A relative path begins with no slash, so that its first piece is empty only where it is the only one. -/
theorem text_eq_nil_of_first_nil {rest : List (List Char)} (hrelative : p.isAbsolute = false)
    (hsplit : Text.splitOn slash p.text.toList = [] :: rest) : p.text.toList = [] := by
  rcases Text.eq_nil_or_cons_of_splitOn hsplit with h | ⟨cs, h⟩
  · exact h
  · exact absurd (isAbsolute_iff.mpr ⟨cs, h⟩) (by simp [hrelative])

theorem lead_ne_nil (hrelative : p.isAbsolute = false) (htext : p.text.toList ≠ []) : p.lead ≠ [] := by
  intro h
  obtain ⟨piece, rest, hsplit⟩ := List.exists_cons_of_ne_nil
    (Text.splitOn_ne_nil slash p.text.toList)
  have hfilter := List.map_eq_nil_iff.mp h
  rw [pieces, hsplit, List.filter_eq_nil_iff] at hfilter
  obtain rfl : piece = [] := by simpa using hfilter piece List.mem_cons_self
  exact htext (text_eq_nil_of_first_nil hrelative hsplit)

/-- A relative path that shows no leading point and no name has no text. -/
theorem text_eq_nil_of_no_names (hrelative : p.isAbsolute = false) (hleading : p.leading = [])
    (hpieces : p.pieces.filterMap Component.ofPiece? = []) : p.text.toList = [] := by
  obtain ⟨piece, rest, hsplit⟩ := List.exists_cons_of_ne_nil
    (Text.splitOn_ne_nil slash p.text.toList)
  have hno : Component.ofPiece? piece = none := by
    refine List.filterMap_eq_nil_iff.mp hpieces piece ?_
    rw [pieces, hsplit]
    exact List.mem_cons_self
  unfold leading at hleading
  rw [if_neg (by simp [hrelative]), hsplit] at hleading
  -- Such a first piece is empty, since a point would be a leading one.
  cases piece with
  | nil => exact text_eq_nil_of_first_nil hrelative hsplit
  | cons c cs =>
      unfold Component.ofPiece? at hno
      split at hno
      · rename_i h
        exact absurd h (List.cons_ne_nil _ _)
      · rename_i h
        rw [h] at hleading
        simp at hleading
      · simp at hno
      · simp at hno

theorem leading_eq_nil (hrelative : p.isAbsolute = false) (hhere : .here ∉ p.components) :
    p.leading = [] := by
  rw [components_eq, List.mem_append, not_or] at hhere
  have hleading := hhere.1
  unfold leading at hleading ⊢
  rw [if_neg (by simp [hrelative])] at hleading ⊢
  split at hleading
  · exact absurd (List.mem_singleton.mpr rfl) hleading
  · rfl

/-- A plain path is contained, names something, and all of its components are names. -/
theorem isPlain_spec (h : p.isPlain = true) :
    p.isContained = true ∧ p.names ≠ [] ∧ p.components = p.names.map .name := by
  unfold isPlain at h
  rw [Bool.and_eq_true, List.all_eq_true] at h
  obtain ⟨hempty, hall⟩ := h
  have hhere : .here ∉ p.components := fun hc => absurd (hall _ hc) Bool.false_ne_true
  have hcontained : p.isContained = true := by
    unfold isContained
    rw [List.all_eq_true]
    intro c hc
    have hname := hall c hc
    cases c <;> first | rfl | exact hname
  obtain ⟨hrelative, htrail⟩ := isContained_iff.mp hcontained
  have hleading := leading_eq_nil hrelative hhere
  have hcomponents : p.components = p.names.map .name := by
    rw [components_eq, hleading, htrail, filterMap_component?_map_into, List.nil_append]
  refine ⟨hcontained, fun hnil => ?_, hcomponents⟩
  have hpieces : p.pieces.filterMap Component.ofPiece? = [] := by
    have hsplit : p.components = p.leading ++ p.pieces.filterMap Component.ofPiece? := rfl
    rw [hcomponents, hnil, hleading] at hsplit
    exact hsplit.symm
  have htext : p.text = "" :=
    String.toList_inj.mp (text_eq_nil_of_no_names hrelative hleading hpieces)
  rw [htext] at hempty
  exact absurd hempty (by decide)

/-! ## §D Names that a path can spell -/

/-- A name that is a piece of a path and no more than a name. -/
def IsEntryName (name : String) : Prop :=
  name.toList ≠ [] ∧ name.toList ≠ ['.'] ∧ name.toList ≠ ['.', '.'] ∧ slash ∉ name.toList

instance : Decidable (IsEntryName name) := inferInstanceAs (Decidable (_ ∧ _ ∧ _ ∧ _))

theorem IsEntryName.ofPiece (h : IsEntryName name) : Step.ofPiece name.toList = .into name := by
  obtain ⟨hnil, hdot, hdots, -⟩ := h
  simp [Step.ofPiece, hnil, hdot, hdots]

theorem isEntryName_of_mem_names (h : name ∈ p.names) : IsEntryName name := by
  obtain ⟨s, hs, hname⟩ := List.mem_filterMap.mp h
  obtain ⟨piece, hpiece, hof⟩ := List.mem_map.mp (List.mem_filter.mp hs).1
  rw [List.mem_filter] at hpiece
  have hslash := Text.not_mem_of_mem_splitOn piece hpiece.1
  unfold Step.ofPiece at hof
  split at hof
  · rw [← hof] at hname
    exact absurd hname.symm (Option.some_ne_none name)
  · rename_i hidle
    split at hof
    · rw [← hof] at hname
      exact absurd hname.symm (Option.some_ne_none name)
    · rename_i hdots
      rw [← hof] at hname
      obtain rfl : String.ofList piece = name := Option.some.inj hname
      simp only [Bool.or_eq_true, decide_eq_true_eq, not_or] at hidle
      refine ⟨?_, ?_, ?_, ?_⟩ <;> rw [String.toList_ofList]
      · exact hidle.1
      · exact hidle.2
      · exact hdots
      · exact hslash

theorem slashed_map_name (ns : List String) : slashed (ns.map .name) = "/".intercalate ns := by
  unfold slashed
  rw [List.filterMap_map]
  congr 1
  exact List.filterMap_some

section Spelled

variable (hne : ns ≠ []) (hns : ∀ name ∈ ns, IsEntryName name)
include hne hns

/-- The pieces of names with slashes between them are the names. -/
theorem pieces_intercalate : pieces ⟨"/".intercalate ns⟩ = ns.map String.toList := by
  rw [pieces, String.toList_intercalate]
  refine Text.splitOn_intercalate (fun h => hne (List.map_eq_nil_iff.mp h)) ?_
  intro piece hpiece
  obtain ⟨name, hname, rfl⟩ := List.mem_map.mp hpiece
  exact (hns name hname).2.2.2

theorem lead_intercalate : lead ⟨"/".intercalate ns⟩ = ns.map .into := by
  rw [lead, pieces_intercalate hne hns, List.filter_eq_self.mpr, List.map_map]
  · exact List.map_congr_left fun name hname => (hns name hname).ofPiece
  · intro piece hpiece
    obtain ⟨name, hname, rfl⟩ := List.mem_map.mp hpiece
    exact decide_eq_true (hns name hname).1

theorem trail_intercalate : trail ⟨"/".intercalate ns⟩ = ns.map .into := by
  show (lead ⟨"/".intercalate ns⟩).filter (· ≠ .stay) = ns.map .into
  rw [lead_intercalate hne hns, List.filter_eq_self]
  intro s hs
  obtain ⟨name, -, rfl⟩ := List.mem_map.mp hs
  rfl

theorem isAbsolute_intercalate : isAbsolute ⟨"/".intercalate ns⟩ = false := by
  rw [Bool.eq_false_iff]
  intro h
  obtain ⟨cs, hcs⟩ := isAbsolute_iff.mp h
  have hpieces := pieces_intercalate hne hns
  rw [pieces, hcs, Text.splitOn, if_pos rfl] at hpieces
  obtain ⟨name, rest, rfl⟩ := List.exists_cons_of_ne_nil hne
  exact (hns name List.mem_cons_self).1 (List.cons.inj hpieces).1.symm

theorem names_intercalate : names ⟨"/".intercalate ns⟩ = ns := by
  rw [names, trail_intercalate hne hns, List.filterMap_map]
  exact List.filterMap_some

theorem isContained_intercalate : isContained ⟨"/".intercalate ns⟩ = true := by
  rw [isContained_iff, names_intercalate hne hns, trail_intercalate hne hns]
  exact ⟨isAbsolute_intercalate hne hns, rfl⟩

theorem steps_intercalate : steps ⟨"/".intercalate ns⟩ = ns.map .into := by
  rcases steps_eq_or ⟨"/".intercalate ns⟩ with h | h
  · rw [h, lead_intercalate hne hns]
  · -- The last piece is a name, so no slash stands at the end.
    obtain ⟨before, last, rfl⟩ : ∃ before last, ns = before ++ [last] :=
      ⟨ns.dropLast, ns.getLast hne, (List.dropLast_append_getLast hne).symm⟩
    have hlast : last.toList ≠ [] := (hns last (by simp)).1
    have hsteps : steps ⟨"/".intercalate (before ++ [last])⟩
        = (dropEmptyPieces (pieces ⟨"/".intercalate (before ++ [last])⟩)).map Step.ofPiece := rfl
    rw [pieces_intercalate hne hns, List.map_append,
      List.map_cons, List.map_nil,
      dropEmptyPieces_append _ (List.cons_ne_nil _ _), List.map_append] at hsteps
    rw [hsteps, ← lead_intercalate hne hns, lead, pieces_intercalate hne hns]
    simp [dropEmptyPieces, hlast]

end Spelled

/-! ## §E Parents -/

theorem trailOf_append (ps qs : List (List Char)) :
    trailOf (ps ++ qs) = trailOf ps ++ trailOf qs := by
  simp [trailOf]

theorem trailOf_cons_idle {piece : List Char} (h : isIdle piece = true) (ps : List (List Char)) :
    trailOf (piece :: ps) = trailOf ps := by
  unfold isIdle at h
  rcases Bool.or_eq_true_iff.mp h with h | h <;>
  · obtain rfl := of_decide_eq_true h
    rfl

theorem trailOf_singleton {piece : List Char} (h : isIdle piece = false) :
    trailOf [piece] = [Step.ofPiece piece] := by
  unfold isIdle at h
  rw [Bool.or_eq_false_iff, decide_eq_false_iff_not, decide_eq_false_iff_not] at h
  have hstay : Step.ofPiece piece ≠ .stay := by
    unfold Step.ofPiece
    rw [if_neg (by simp [h])]
    split <;> exact fun h => Step.noConfusion h
  simp [trailOf, h.1, hstay]

theorem trailOf_eq_nil {ps : List (List Char)} (h : ∀ piece ∈ ps, isIdle piece = true) :
    trailOf ps = [] := by
  induction ps with
  | nil => rfl
  | cons piece rest ih =>
      rw [trailOf_cons_idle (h piece List.mem_cons_self)]
      exact ih fun q hq => h q (List.mem_cons_of_mem piece hq)

theorem dropIdleEnd_append (ps : List (List Char)) :
    ∃ idle, ps = dropIdleEnd ps ++ idle ∧ ∀ piece ∈ idle, isIdle piece = true := by
  refine ⟨(ps.reverse.takeWhile isIdle).reverse, ?_, ?_⟩
  · rw [dropIdleEnd, ← List.reverse_append, List.takeWhile_append_dropWhile, List.reverse_reverse]
  · intro piece h
    exact List.all_eq_true.mp List.all_takeWhile piece (List.mem_reverse.mp h)

theorem trailOf_dropIdleEnd (ps : List (List Char)) : trailOf (dropIdleEnd ps) = trailOf ps := by
  obtain ⟨idle, hps, hidle⟩ := dropIdleEnd_append ps
  have h := congrArg trailOf hps
  rw [trailOf_append, trailOf_eq_nil hidle, List.append_nil] at h
  exact h.symm

theorem prefix_dropIdleEnd (ps : List (List Char)) : dropIdleEnd ps <+: ps := by
  obtain ⟨idle, hps, -⟩ := dropIdleEnd_append ps
  exact ⟨idle, hps.symm⟩

theorem trailOf_splitOn_joinPieces {ps : List (List Char)} (h : ∀ piece ∈ ps, slash ∉ piece) :
    trailOf (Text.splitOn slash (joinPieces ps)) = trailOf ps := by
  cases ps with
  | nil => rfl
  | cons piece rest => rw [joinPieces, Text.splitOn_intercalate (List.cons_ne_nil _ _) h]

/-- **`Restores p head ps`** — `head` in front of the first few pieces of `ps` gives a path that leads just
as far as these pieces do, and begins where `p` begins; all of `ps` leads as far as `p`. -/
structure Restores (p : Path) (head : List Char) (ps : List (List Char)) : Prop where
  whole : trailOf ps = p.trail
  part : ∀ front, front <+: ps → trail ⟨String.ofList (head ++ joinPieces front)⟩ = trailOf front
  start : ∀ front, front <+: ps →
    isAbsolute ⟨String.ofList (head ++ joinPieces front)⟩ = p.isAbsolute

theorem pieces_ofList (s : List Char) : pieces ⟨String.ofList s⟩ = Text.splitOn slash s := by
  rw [pieces, String.toList_ofList]

theorem isAbsolute_ofList {s : List Char} :
    isAbsolute ⟨String.ofList s⟩ = true ↔ ∃ cs, s = slash :: cs := by
  rw [isAbsolute_iff, String.toList_ofList]

theorem slash_not_mem_of_prefix_splitOn {s : List Char} {front : List (List Char)}
    (hfront : front <+: Text.splitOn slash s) : ∀ piece ∈ front, slash ∉ piece :=
  fun piece hpiece => Text.not_mem_of_mem_splitOn piece (hfront.subset hpiece)

theorem restores_of_root {cs : List Char} (htext : p.text.toList = slash :: cs) :
    Restores p [slash] (Text.splitOn slash cs) where
  whole := by
    rw [trail, pieces, htext, Text.splitOn, if_pos rfl, trailOf_cons_idle rfl]
  part front hfront := by
    rw [trail, pieces_ofList, List.singleton_append, Text.splitOn, if_pos rfl, trailOf_cons_idle rfl]
    exact trailOf_splitOn_joinPieces (slash_not_mem_of_prefix_splitOn hfront)
  start front _ := by
    rw [Bool.eq_iff_iff, isAbsolute_ofList, isAbsolute_iff, htext]
    exact ⟨fun _ => ⟨cs, rfl⟩, fun _ => ⟨joinPieces front, rfl⟩⟩

theorem restores_of_dot {cs : List Char} {rest : List (List Char)} (htext : p.text.toList = '.' :: cs)
    (hrest : Text.splitOn slash cs = [] :: rest) : Restores p ['.'] (Text.splitOn slash cs) where
  whole := by
    rw [trail, pieces, htext, Text.splitOn_cons_of_ne (by decide) hrest, hrest,
      trailOf_cons_idle rfl, trailOf_cons_idle rfl]
  part front hfront := by
    rw [trail, pieces_ofList, List.singleton_append]
    cases front with
    | nil => rfl
    | cons piece front' =>
        have hsplit := Text.splitOn_intercalate (List.cons_ne_nil piece front')
          (slash_not_mem_of_prefix_splitOn hfront)
        rw [hrest, List.cons_prefix_cons] at hfront
        obtain ⟨rfl, -⟩ := hfront
        rw [joinPieces, Text.splitOn_cons_of_ne (by decide) hsplit, trailOf_cons_idle rfl,
          trailOf_cons_idle rfl]
  start front _ := by
    have hdot : '.' ≠ slash := by decide
    rw [Bool.eq_iff_iff, isAbsolute_ofList, isAbsolute_iff, htext]
    constructor
    · rintro ⟨cs', h⟩
      exact absurd (List.cons.inj h).1 hdot
    · rintro ⟨cs', h⟩
      exact absurd (List.cons.inj h).1 hdot

theorem restores_of_relative (hrelative : p.isAbsolute = false) :
    Restores p [] (Text.splitOn slash p.text.toList) where
  whole := rfl
  part front hfront := by
    rw [trail, pieces_ofList]
    exact trailOf_splitOn_joinPieces (slash_not_mem_of_prefix_splitOn hfront)
  start front hfront := by
    rw [hrelative, Bool.eq_false_iff]
    intro h
    obtain ⟨cs, hcs⟩ := isAbsolute_ofList.mp h
    -- A slash at the beginning of the shorter path would be one at the beginning of `p`.
    cases front with
    | nil => exact absurd hcs.symm (List.cons_ne_nil _ _)
    | cons piece front' =>
        have hsplit := Text.splitOn_intercalate (List.cons_ne_nil piece front')
          (slash_not_mem_of_prefix_splitOn hfront)
        rw [List.nil_append, joinPieces] at hcs
        rw [hcs, Text.splitOn, if_pos rfl] at hsplit
        obtain ⟨rfl, -⟩ := List.cons.inj hsplit
        obtain ⟨tail, htail⟩ := hfront
        rcases Text.eq_nil_or_cons_of_splitOn htail.symm with hnil | ⟨cs', hcons⟩
        · rw [hnil] at htail
          have hfront' : front' ++ tail = [] := (List.cons.inj htail).2
          rw [(List.append_eq_nil_iff.mp hfront').1] at hcs
          exact absurd hcs.symm (List.cons_ne_nil _ _)
        · exact Bool.false_ne_true (hrelative.symm.trans (isAbsolute_iff.mpr ⟨cs', hcons⟩))

/-- A path with a leading component begins with a slash or with a point. -/
theorem headAndPieces_spec (p : Path) : Restores p p.headAndPieces.1 p.headAndPieces.2 := by
  unfold headAndPieces
  split
  · rename_i c cs x xs htext hleading
    by_cases hc : c = slash
    · subst hc
      exact restores_of_root htext
    · have hrelative : p.isAbsolute ≠ true := by
        intro h
        obtain ⟨cs', hcs'⟩ := isAbsolute_iff.mp h
        rw [htext] at hcs'
        exact hc (List.cons.inj hcs').1
      obtain ⟨piece, rest, hsplit⟩ := List.exists_cons_of_ne_nil (Text.splitOn_ne_nil slash cs)
      unfold leading at hleading
      rw [if_neg hrelative, htext, Text.splitOn_cons_of_ne hc hsplit] at hleading
      split at hleading
      · rename_i rest' hdot
        obtain ⟨hpiece, -⟩ := List.cons.inj hdot
        obtain ⟨rfl, rfl⟩ := List.cons.inj hpiece
        exact restores_of_dot htext hsplit
      · exact absurd hleading (List.cons_ne_nil x xs).symm
  · rename_i hno
    apply restores_of_relative
    rw [Bool.eq_false_iff]
    intro h
    obtain ⟨cs, hcs⟩ := isAbsolute_iff.mp h
    exact hno slash cs .root [] hcs (by rw [leading, if_pos h])

/-- **`trail_parent?`** — the parent of a path leads one step less far. -/
theorem trail_parent? {before : List Step} {last : Step} (h : p.trail = before ++ [last]) :
    ∃ q, p.parent? = some q ∧ q.trail = before ∧ q.isAbsolute = p.isAbsolute := by
  have hspec := p.headAndPieces_spec
  unfold parent?
  generalize p.headAndPieces = parts at hspec ⊢
  obtain ⟨head, ps⟩ := parts
  have htrail : trailOf ps = p.trail := hspec.whole
  dsimp only
  split
  · rename_i hnil
    rw [List.reverse_eq_nil_iff] at hnil
    rw [← htrail, ← trailOf_dropIdleEnd, hnil] at h
    exact absurd h.symm (List.append_ne_nil_of_right_ne_nil before (List.cons_ne_nil last []))
  · rename_i piece rest hrest
    have hps : dropIdleEnd ps = rest.reverse ++ [piece] := by
      have := congrArg List.reverse hrest
      simpa using this
    have hkept : (dropIdleEnd rest.reverse) <+: ps :=
      (prefix_dropIdleEnd _).trans
        ((hps ▸ List.prefix_append rest.reverse [piece]).trans (prefix_dropIdleEnd _))
    refine ⟨_, rfl, ?_, hspec.start _ hkept⟩
    -- The piece that is cut off is no idle one, so it is the last step.
    have hpiece : isIdle piece = false := by
      have : (ps.reverse.dropWhile isIdle) = piece :: rest := by
        rw [← hrest, dropIdleEnd, List.reverse_reverse]
      have hhead := List.head_dropWhile_not isIdle (by rw [this]; exact List.cons_ne_nil _ _)
      simpa [this] using hhead
    rw [hspec.part _ hkept, trailOf_dropIdleEnd]
    rw [← htrail, ← trailOf_dropIdleEnd, hps, trailOf_append] at h
    rw [trailOf_singleton hpiece] at h
    exact (List.append_inj' h rfl).1

end PluginVet.Path
