/-
# PluginVet.Proofs.FrontMatter — where the structured block ends

A descriptor is looked at line by line here. `Enclosed closes content between closing` says that the
text opens with a delimiter line and that `closing` is the first later line with the property `closes`;
`between` are the lines in front of it.

**Main statement** (`extract_eq_some_iff`): the block ends in front of the first line that *begins* with
three dashes, whatever follows them, and all carriage returns at its end are dropped. Delimiters are
meant to be whole lines (`Delimited`). That reading is kept exactly where the first such line is a whole
delimiter and the text in front of it does not end in two carriage returns; a longer rule of dashes ends
the block early (`longer_dashes_end_block`).

§A lines, §B the closing line, §C the opening line, §D blocks.
-/
import Mathlib.Data.List.Infix
import PluginVet.FrontMatter
import PluginVet.Proofs.Text.Search

namespace PluginVet.FrontMatter

/-! ## §A Lines -/

/-- The lines of a text, without the line feeds. A carriage return stays with its line. -/
def lines (content : List Char) : List (List Char) := Text.splitOn '\n' content

/-- Lines with line feeds between them. -/
def joined (ls : List (List Char)) : List Char := List.intercalate ['\n'] ls

/-- **`IsDelimiter line`** — the line is three dashes, up to a carriage return at its end. -/
def IsDelimiter (line : List Char) : Prop := line = delimiter ∨ line = delimiter ++ ['\r']

/-- **`Enclosed closes content between closing`** — behind the opening delimiter, `closing` is the first
line that closes the block, and `between` are the lines in front of it. -/
def Enclosed (closes : List Char → Prop) (content : List Char) (between : List (List Char))
    (closing : List Char) : Prop :=
  ∃ opening later, lines content = opening :: (between ++ closing :: later) ∧
    IsDelimiter opening ∧ closes closing ∧ ∀ line ∈ between, ¬ closes line

/-- The text without the carriage return of a line break behind it. -/
def dropReturn (text : List Char) : List Char := (Text.dropTail? ['\r'] text).getD text

/-- **`Delimited content block`** — the block stands between whole delimiter lines: it is the text from
the opening one to the next, without the line break in front of that. -/
def Delimited (content block : String) : Prop :=
  ∃ between closing, Enclosed IsDelimiter content.toList between closing ∧
    block = String.ofList (dropReturn (joined between))

variable {line closing : List Char} {between ls : List (List Char)}

theorem IsDelimiter.prefix (h : IsDelimiter line) : delimiter <+: line := by
  rcases h with rfl | rfl
  · exact List.prefix_rfl
  · exact List.prefix_append _ _

theorem IsDelimiter.newline_not_mem (h : IsDelimiter line) : '\n' ∉ line := by
  rcases h with rfl | rfl <;> decide

theorem lines_append (h : '\n' ∉ line) (rest : List Char) :
    lines (line ++ '\n' :: rest) = line :: lines rest := by
  rw [lines, Text.splitOn_append_sep, Text.splitOn_of_not_mem h]
  rfl

theorem joined_cons_cons (line next : List Char) (more : List (List Char)) :
    joined (line :: next :: more) = line ++ '\n' :: joined (next :: more) :=
  Text.intercalate_cons_cons '\n' line next more

theorem joined_singleton (line : List Char) : joined [line] = line := by
  simp [joined, List.intercalate]

theorem joined_lines (content : List Char) : joined (lines content) = content :=
  Text.intercalate_splitOn '\n' content

/-- A text begins with dashes exactly when its first line does. -/
theorem prefix_joined_iff (line : List Char) (more : List (List Char)) :
    delimiter <+: joined (line :: more) ↔ delimiter <+: line := by
  cases more with
  | nil => rw [joined_singleton]
  | cons next rest =>
      rw [joined_cons_cons]
      constructor
      · intro h
        rcases List.prefix_or_prefix_of_prefix h (List.prefix_append line _) with h' | h'
        · exact h'
        · -- A shorter line would put its line feed among the dashes.
          by_contra hne
          obtain ⟨dashes, hdashes⟩ := h'
          rw [← hdashes, List.prefix_append_right_inj] at h
          cases dashes with
          | nil =>
              rw [List.append_nil] at hdashes
              exact hne (hdashes ▸ List.prefix_rfl)
          | cons c cs =>
              obtain rfl : c = '\n' := (List.cons_prefix_cons.mp h).1
              have hmem : '\n' ∈ delimiter := hdashes ▸ List.mem_append_right _ List.mem_cons_self
              exact absurd hmem (by decide)
      · exact fun h => h.trans (List.prefix_append _ _)

/-! ## §B The closing line -/

/-- Lines up to the first one that begins with dashes. -/
def UpToDashes (ls between : List (List Char)) : Prop :=
  ∃ closing later, ls = between ++ closing :: later ∧ delimiter <+: closing ∧
    ∀ line ∈ between, ¬ delimiter <+: line

theorem not_upToDashes_nil : ¬ UpToDashes [] between := by
  rintro ⟨closing, later, h, -⟩
  exact List.append_ne_nil_of_right_ne_nil _ (List.cons_ne_nil _ _) h.symm

theorem upToDashes_cons_of_dashes (hline : delimiter <+: line) :
    UpToDashes (line :: ls) between ↔ between = [] := by
  constructor
  · rintro ⟨closing, later, h, -, hfirst⟩
    cases between with
    | nil => rfl
    | cons b bs =>
        obtain ⟨rfl, -⟩ := List.cons.inj h
        exact absurd hline (hfirst _ List.mem_cons_self)
  · rintro rfl
    exact ⟨line, ls, rfl, hline, fun _ h => absurd h List.not_mem_nil⟩

theorem upToDashes_cons_of_not (hline : ¬ delimiter <+: line) :
    UpToDashes (line :: ls) between ↔ ∃ tail, between = line :: tail ∧ UpToDashes ls tail := by
  constructor
  · rintro ⟨closing, later, h, hclosing, hfirst⟩
    cases between with
    | nil =>
        obtain ⟨rfl, -⟩ := List.cons.inj h
        exact absurd hclosing hline
    | cons b bs =>
        obtain ⟨rfl, rfl⟩ := List.cons.inj h
        exact ⟨bs, rfl, closing, later, rfl, hclosing,
          fun l hl => hfirst l (List.mem_cons_of_mem _ hl)⟩
  · rintro ⟨tail, rfl, closing, later, rfl, hclosing, hfirst⟩
    exact ⟨closing, later, rfl, hclosing, List.forall_mem_cons.mpr ⟨hline, hfirst⟩⟩

/-- Within one line there is no line feed with dashes behind it. -/
theorem breakOn?_line (h : '\n' ∉ line) : Text.breakOn? ('\n' :: delimiter) line = none := by
  induction line with
  | nil => rfl
  | cons c cs ih =>
      have hc : ¬ '\n' = c := fun hc => h (hc ▸ List.mem_cons_self)
      rw [Text.breakOn?, Text.dropHead?, if_neg hc, ih fun hcs => h (List.mem_cons_of_mem c hcs)]
      rfl

/-- Behind a line the search finds the dashes at once, or it goes on in the next line. -/
theorem breakOn?_line_append (h : '\n' ∉ line) (rest : List Char) :
    Text.breakOn? ('\n' :: delimiter) (line ++ '\n' :: rest)
      = match Text.dropHead? delimiter rest with
        | some behind => some (line, behind)
        | none => (Text.breakOn? ('\n' :: delimiter) rest).map
            fun (front, behind) => (line ++ '\n' :: front, behind) := by
  induction line with
  | nil =>
      rw [List.nil_append, Text.breakOn?, Text.dropHead?, if_pos rfl]
      cases Text.dropHead? delimiter rest <;> rfl
  | cons c cs ih =>
      have hc : ¬ '\n' = c := fun hc => h (hc ▸ List.mem_cons_self)
      rw [List.cons_append, Text.breakOn?, Text.dropHead?, if_neg hc,
        ih fun hcs => h (List.mem_cons_of_mem c hcs)]
      cases Text.dropHead? delimiter rest with
      | some behind => rfl
      | none => simp [Option.map_map, Function.comp_def]

/-- The search in lines that follow one another: it stops in front of the first line with dashes, if
that is not the first of all. -/
theorem breakOn?_joined (hls : ∀ l ∈ line :: ls, '\n' ∉ l) (front : List Char) :
    (∃ behind, Text.breakOn? ('\n' :: delimiter) (joined (line :: ls)) = some (front, behind)) ↔
      ∃ tail, UpToDashes ls tail ∧ front = joined (line :: tail) := by
  induction ls generalizing line front with
  | nil =>
      rw [joined_singleton, breakOn?_line (hls line List.mem_cons_self)]
      constructor
      · rintro ⟨behind, h⟩
        cases h
      · rintro ⟨tail, h, -⟩
        exact absurd h not_upToDashes_nil
  | cons next more ih =>
      obtain ⟨hline, hmore⟩ := List.forall_mem_cons.mp hls
      rw [joined_cons_cons, breakOn?_line_append hline]
      by_cases hnext : delimiter <+: next
      · obtain ⟨behind, hbehind⟩ : ∃ behind,
            Text.dropHead? delimiter (joined (next :: more)) = some behind :=
          Option.isSome_iff_exists.mp
            (Text.isSome_dropHead?_iff.mpr ((prefix_joined_iff next more).mpr hnext))
        simp only [hbehind, upToDashes_cons_of_dashes hnext, exists_eq_left, joined_singleton]
        constructor
        · rintro ⟨b, h⟩
          exact (Prod.mk.inj (Option.some.inj h)).1.symm
        · rintro rfl
          exact ⟨behind, rfl⟩
      · have hnone : Text.dropHead? delimiter (joined (next :: more)) = none :=
          Text.dropHead?_eq_none_iff.mpr (mt (prefix_joined_iff next more).mp hnext)
        simp only [hnone, upToDashes_cons_of_not hnext, Option.map_eq_some_iff, Prod.mk.injEq,
          Prod.exists]
        constructor
        · rintro ⟨b, f, b', h, rfl, rfl⟩
          obtain ⟨tail, htail, rfl⟩ := (ih hmore f).mp ⟨b', h⟩
          exact ⟨next :: tail, ⟨tail, rfl, htail⟩, (joined_cons_cons line next tail).symm⟩
        · rintro ⟨_, ⟨tail, rfl, htail⟩, rfl⟩
          obtain ⟨b', h⟩ := (ih hmore (joined (next :: tail))).mpr ⟨tail, htail, rfl⟩
          exact ⟨b', _, b', h, (joined_cons_cons line next tail).symm, rfl⟩

/-! ## §C The opening line -/

variable {opening rest content block : List Char} {closes closes' : List Char → Prop}

theorem dropLineBreak?_eq_some_iff {cs : List Char} :
    dropLineBreak? cs = some rest ↔ cs = '\n' :: rest ∨ cs = '\r' :: '\n' :: rest := by
  constructor
  · intro h
    unfold dropLineBreak? at h
    split at h
    · exact Or.inr (Option.some.inj h ▸ rfl)
    · exact Or.inl (Option.some.inj h ▸ rfl)
    · cases h
  · rintro (rfl | rfl) <;> rfl

theorem opened_iff : (Text.dropHead? delimiter content).bind dropLineBreak? = some rest ↔
    ∃ opening, IsDelimiter opening ∧ content = opening ++ '\n' :: rest := by
  simp only [Option.bind_eq_some_iff, Text.dropHead?_eq_some_iff, dropLineBreak?_eq_some_iff]
  constructor
  · rintro ⟨_, rfl, rfl | rfl⟩
    · exact ⟨delimiter, Or.inl rfl, rfl⟩
    · exact ⟨delimiter ++ ['\r'], Or.inr rfl, rfl⟩
  · rintro ⟨opening, rfl | rfl, rfl⟩
    · exact ⟨_, rfl, Or.inl rfl⟩
    · exact ⟨'\r' :: '\n' :: rest, rfl, Or.inr rfl⟩

theorem enclosed_iff : Enclosed closes content between closing ↔
    ∃ opening rest later, IsDelimiter opening ∧ content = opening ++ '\n' :: rest ∧
      lines rest = between ++ closing :: later ∧ closes closing ∧ ∀ line ∈ between, ¬ closes line := by
  constructor
  · rintro ⟨opening, later, hlines, hopening, hclosing, hfirst⟩
    obtain ⟨next, more, hnext⟩ : ∃ next more, between ++ closing :: later = next :: more :=
      List.exists_cons_of_ne_nil (List.append_ne_nil_of_right_ne_nil _ (List.cons_ne_nil _ _))
    have hcontent : content = opening ++ '\n' :: joined (next :: more) := by
      rw [← joined_cons_cons, ← hnext, ← hlines, joined_lines]
    have hrest : lines (joined (next :: more)) = between ++ closing :: later := by
      rw [hcontent, lines_append hopening.newline_not_mem] at hlines
      exact (List.cons.inj hlines).2
    exact ⟨opening, _, later, hopening, hcontent, hrest, hclosing, hfirst⟩
  · rintro ⟨opening, rest, later, hopening, rfl, hrest, hclosing, hfirst⟩
    exact ⟨opening, later, by rw [lines_append hopening.newline_not_mem, hrest], hopening, hclosing,
      hfirst⟩

/-- Behind the opening line the block is what stands in front of the dashes. -/
theorem extractChars_append (hopening : IsDelimiter opening) (rest : List Char) :
    extractChars (opening ++ '\n' :: rest) = some block ↔
      ∃ between, UpToDashes (lines rest) between ∧
        block = Text.dropEndWhile (· = '\r') (joined between) := by
  have hopen : (Text.dropHead? delimiter (opening ++ '\n' :: rest)).bind dropLineBreak? = some rest :=
    opened_iff.mpr ⟨opening, hopening, rfl⟩
  have hextract : extractChars (opening ++ '\n' :: rest)
      = ((Text.dropHead? delimiter (opening ++ '\n' :: rest)).bind dropLineBreak?).bind fun rest =>
        if (Text.dropHead? delimiter rest).isSome then some []
        else (Text.breakOn? ('\n' :: delimiter) rest).bind fun (front, _) =>
          some (Text.dropEndWhile (· = '\r') front) := by
    rw [Option.bind_assoc]
    rfl
  obtain ⟨line, ls, hls⟩ := List.exists_cons_of_ne_nil (Text.splitOn_ne_nil '\n' rest)
  have hrest : rest = joined (line :: ls) := hls ▸ (joined_lines rest).symm
  have hclean : ∀ l ∈ line :: ls, '\n' ∉ l := hls ▸ Text.not_mem_of_mem_splitOn
  rw [hextract, hopen, Option.bind_some, lines, hls]
  by_cases hline : delimiter <+: line
  · have hdashes : (Text.dropHead? delimiter rest).isSome = true :=
      Text.isSome_dropHead?_iff.mpr (hrest ▸ (prefix_joined_iff line ls).mpr hline)
    rw [if_pos hdashes]
    simp only [upToDashes_cons_of_dashes hline, exists_eq_left, Option.some.injEq]
    exact eq_comm
  · have hdashes : ¬ (Text.dropHead? delimiter rest).isSome = true :=
      mt Text.isSome_dropHead?_iff.mp (hrest ▸ mt (prefix_joined_iff line ls).mp hline)
    rw [if_neg hdashes, hrest]
    simp only [upToDashes_cons_of_not hline, Option.bind_eq_some_iff, Option.some.injEq, Prod.exists]
    constructor
    · rintro ⟨front, behind, h, rfl⟩
      obtain ⟨tail, htail, rfl⟩ := (breakOn?_joined hclean front).mp ⟨behind, h⟩
      exact ⟨line :: tail, ⟨tail, rfl, htail⟩, rfl⟩
    · rintro ⟨_, ⟨tail, rfl, htail⟩, rfl⟩
      obtain ⟨behind, h⟩ := (breakOn?_joined hclean _).mpr ⟨tail, htail, rfl⟩
      exact ⟨_, behind, h, rfl⟩

/-- **`extractChars_eq_some_iff`** — the block reaches up to the first line that begins with dashes. -/
theorem extractChars_eq_some_iff : extractChars content = some block ↔
    ∃ between closing, Enclosed (delimiter <+: ·) content between closing ∧
      block = Text.dropEndWhile (· = '\r') (joined between) := by
  constructor
  · intro h
    obtain ⟨opening, rest, hopening, rfl⟩ : ∃ opening rest, IsDelimiter opening ∧
        content = opening ++ '\n' :: rest := by
      obtain ⟨behind, hbehind, h'⟩ := Option.bind_eq_some_iff.mp h
      obtain ⟨rest, hrest, -⟩ := Option.bind_eq_some_iff.mp h'
      obtain ⟨opening, hopen⟩ := opened_iff.mp (Option.bind_eq_some_iff.mpr ⟨behind, hbehind, hrest⟩)
      exact ⟨opening, rest, hopen⟩
    obtain ⟨between, ⟨closing, later, hlines, hclosing, hfirst⟩, hblock⟩ :=
      (extractChars_append hopening rest).mp h
    exact ⟨between, closing,
      enclosed_iff.mpr ⟨opening, rest, later, hopening, rfl, hlines, hclosing, hfirst⟩, hblock⟩
  · rintro ⟨between, closing, henclosed, hblock⟩
    obtain ⟨opening, rest, later, hopening, rfl, hlines, hclosing, hfirst⟩ :=
      enclosed_iff.mp henclosed
    exact (extractChars_append hopening rest).mpr
      ⟨between, ⟨closing, later, hlines, hclosing, hfirst⟩, hblock⟩

/-! ## §D Blocks -/

/-- Where more lines close, the block ends at the same line or in front of it. -/
theorem Enclosed.eq_or_append (h : Enclosed closes content between closing)
    {between' : List (List Char)} {closing' : List Char}
    (h' : Enclosed closes' content between' closing') (hmore : ∀ line, closes line → closes' line) :
    (between = between' ∧ closing = closing') ∨ ∃ more, between = between' ++ closing' :: more := by
  obtain ⟨opening, later, hlines, -, hclosing, -⟩ := h
  obtain ⟨opening', later', hlines', -, -, hfirst'⟩ := h'
  have hsame : between ++ closing :: later = between' ++ closing' :: later' :=
    (List.cons.inj (hlines.symm.trans hlines')).2
  rcases List.append_eq_append_iff.mp hsame with ⟨more, hbetween', hrest⟩ | ⟨more, hbetween, hrest⟩
  · cases more with
    | nil => exact Or.inl ⟨by simpa using hbetween'.symm, (List.cons.inj hrest).1⟩
    | cons line more =>
        -- The closing line would be one of those that do not close.
        obtain ⟨rfl, -⟩ := List.cons.inj hrest
        have hmem : closing ∈ between' := by
          rw [hbetween']
          exact List.mem_append_right _ List.mem_cons_self
        exact absurd (hmore _ hclosing) (hfirst' _ hmem)
  · cases more with
    | nil => exact Or.inl ⟨by simpa using hbetween, (List.cons.inj hrest).1.symm⟩
    | cons line more =>
        obtain ⟨rfl, -⟩ := List.cons.inj hrest
        exact Or.inr ⟨more, hbetween⟩

/-- Where any line closes a block, so does a first one. -/
theorem Enclosed.exists_first (h : Enclosed closes content between closing)
    (hmore : ∀ line, closes line → closes' line) :
    ∃ between' closing', Enclosed closes' content between' closing' := by
  classical
  obtain ⟨opening, later, hlines, hopening, hclosing, -⟩ := h
  obtain ⟨closing', hfind⟩ : ∃ closing',
      (between ++ closing :: later).find? (fun line => decide (closes' line)) = some closing' := by
    refine Option.isSome_iff_exists.mp (List.find?_isSome.mpr ⟨closing, ?_, ?_⟩)
    · exact List.mem_append_right _ List.mem_cons_self
    · exact decide_eq_true (hmore closing hclosing)
  obtain ⟨hcloses, between', later', hsplit, hfirst⟩ := List.find?_eq_some_iff_append.mp hfind
  refine ⟨between', closing', opening, later', by rw [hlines, hsplit], hopening,
    of_decide_eq_true hcloses, fun line hline => ?_⟩
  simpa using hfirst line hline

theorem length_joined_lt (hclosing : delimiter <+: closing) (between more : List (List Char)) :
    (joined between).length + 2 < (joined (between ++ closing :: more)).length := by
  have hdashes : 3 ≤ closing.length := hclosing.length_le
  induction between with
  | nil =>
      have hprefix : closing <+: joined (closing :: more) := by
        cases more with
        | nil => rw [joined_singleton]
        | cons next rest => exact joined_cons_cons closing next rest ▸ List.prefix_append _ _
      have hlength := hprefix.length_le
      show 0 + 2 < (joined (closing :: more)).length
      omega
  | cons line rest ih =>
      cases rest with
      | nil =>
          rw [List.nil_append] at ih
          have hempty : (joined ([] : List (List Char))).length = 0 := rfl
          rw [List.singleton_append, joined_cons_cons, joined_singleton, List.length_append,
            List.length_cons]
          omega
      | cons next rest =>
          rw [List.cons_append, List.cons_append, joined_cons_cons, joined_cons_cons,
            List.length_append, List.length_append, List.length_cons, List.length_cons,
            ← List.cons_append]
          omega

theorem length_dropEndWhile_le (p : Char → Bool) (text : List Char) :
    (Text.dropEndWhile p text).length ≤ text.length := by
  have hreverse : text.reverse.length = text.length := List.length_reverse
  rw [Text.dropEndWhile, List.length_reverse, ← hreverse]
  exact (List.dropWhile_suffix p).length_le

theorem length_le_dropReturn (text : List Char) : text.length ≤ (dropReturn text).length + 1 := by
  rw [dropReturn]
  cases h : Text.dropTail? ['\r'] text with
  | none => exact Nat.le_succ _
  | some front =>
      rw [Text.dropTail?_eq_some_iff.mp h, List.length_append]
      rfl

theorem dropReturn_reverse (back : List Char) : dropReturn back.reverse
    = if back.head? = some '\r' then back.tail.reverse else back.reverse := by
  rw [dropReturn, Text.dropTail?, List.reverse_reverse]
  cases back with
  | nil => rfl
  | cons c cs =>
      by_cases hc : '\r' = c
      · subst hc
        rfl
      · simp [Text.dropHead?, hc, Ne.symm hc]

/-- Dropping all carriage returns at the end drops the one of a line break, unless there are two. -/
theorem dropEndWhile_eq_dropReturn_iff (text : List Char) :
    Text.dropEndWhile (· = '\r') text = dropReturn text ↔ ¬ ['\r', '\r'] <:+ text := by
  -- The text is looked at from its end.
  obtain ⟨back, rfl⟩ : ∃ back : List Char, text = back.reverse :=
    ⟨text.reverse, (List.reverse_reverse text).symm⟩
  have hsuffix : ['\r', '\r'] <:+ back.reverse ↔ ['\r', '\r'] <+: back :=
    List.reverse_prefix.symm.trans (by simp)
  rw [hsuffix, Text.dropEndWhile, dropReturn_reverse, List.reverse_reverse]
  cases back with
  | nil => simp
  | cons c cs =>
      by_cases hc : c = '\r'
      · subst hc
        cases cs with
        | nil => simp
        | cons d ds =>
            by_cases hd : d = '\r'
            · have hshorter := (List.dropWhile_suffix (l := ds) fun c => decide (c = '\r')).length_le
              have hne : List.dropWhile (fun c => decide (c = '\r')) ds ≠ '\r' :: ds := by
                intro h
                rw [h, List.length_cons] at hshorter
                omega
              simpa [hd] using hne
            · simp [hd, Ne.symm hd]
      · simp [hc, Ne.symm hc]

/-- **`extract_eq_some_iff`** — the block ends in front of the first later line that begins with three
dashes, without carriage returns at its end. It is the text between two whole delimiter lines exactly
for the descriptors whose first such line is a whole delimiter and whose block has no two carriage
returns at its end. -/
theorem extract_eq_some_iff (content : String) :
    (∀ block, extract content = some block ↔
      ∃ between closing, Enclosed (delimiter <+: ·) content.toList between closing ∧
        block = String.ofList (Text.dropEndWhile (· = '\r') (joined between))) ∧
    ((∀ block, extract content = some block ↔ Delimited content block) ↔
      ∀ between closing, Enclosed (delimiter <+: ·) content.toList between closing →
        IsDelimiter closing ∧ ¬ ['\r', '\r'] <:+ joined between) := by
  have hdashes : ∀ line, IsDelimiter line → delimiter <+: line := fun _ => IsDelimiter.prefix
  have hextract : ∀ block, extract content = some block ↔
      ∃ between closing, Enclosed (delimiter <+: ·) content.toList between closing ∧
        block = String.ofList (Text.dropEndWhile (· = '\r') (joined between)) := by
    intro block
    rw [extract, Option.map_eq_some_iff]
    constructor
    · rintro ⟨cs, hcs, rfl⟩
      obtain ⟨between, closing, h, rfl⟩ := extractChars_eq_some_iff.mp hcs
      exact ⟨between, closing, h, rfl⟩
    · rintro ⟨between, closing, h, rfl⟩
      exact ⟨_, extractChars_eq_some_iff.mpr ⟨between, closing, h, rfl⟩, rfl⟩
  refine ⟨hextract, fun hagree between closing h => ?_, fun hwhole block => ?_⟩
  · obtain ⟨between', closing', h', hblock⟩ :=
      (hagree _).mp ((hextract _).mpr ⟨between, closing, h, rfl⟩)
    have htext : Text.dropEndWhile (· = '\r') (joined between) = dropReturn (joined between') :=
      String.ofList_injective hblock
    rcases h'.eq_or_append h hdashes with ⟨rfl, rfl⟩ | ⟨more, rfl⟩
    · obtain ⟨-, -, -, -, hclosing, -⟩ := h'
      exact ⟨hclosing, (dropEndWhile_eq_dropReturn_iff _).mp htext⟩
    · -- A block that goes on behind the dashes is too long to be the same.
      obtain ⟨-, -, -, -, hclosing, -⟩ := h
      have hlonger := length_joined_lt hclosing between more
      have hreturn := length_le_dropReturn (joined (between ++ closing :: more))
      have hshorter := length_dropEndWhile_le (· = '\r') (joined between)
      rw [htext] at hshorter
      omega
  · rw [hextract]
    constructor
    · rintro ⟨between, closing, h, rfl⟩
      obtain ⟨hclosing, hreturns⟩ := hwhole between closing h
      obtain ⟨opening, later, hlines, hopening, -, hfirst⟩ := h
      refine ⟨between, closing, ⟨opening, later, hlines, hopening, hclosing, ?_⟩, ?_⟩
      · exact fun line hline hdelimiter => hfirst line hline hdelimiter.prefix
      · rw [(dropEndWhile_eq_dropReturn_iff _).mpr hreturns]
    · rintro ⟨between, closing, h, rfl⟩
      obtain ⟨between', closing', h'⟩ := h.exists_first hdashes
      obtain ⟨hclosing', hreturns⟩ := hwhole between' closing' h'
      rcases h.eq_or_append h' hdashes with ⟨rfl, rfl⟩ | ⟨more, rfl⟩
      · exact ⟨between, closing, h', by rw [(dropEndWhile_eq_dropReturn_iff _).mpr hreturns]⟩
      · obtain ⟨-, -, -, -, -, hfirst⟩ := h
        exact absurd hclosing' (hfirst closing' (List.mem_append_right _ List.mem_cons_self))

/-- A rule of four dashes ends the block, though it is no delimiter and one follows. -/
theorem longer_dashes_end_block :
    Delimited "---\nid: a\n----\nname: b\n---\n" "id: a\n----\nname: b" ∧
      extract "---\nid: a\n----\nname: b\n---\n" = some "id: a" := by
  refine ⟨⟨["id: a".toList, "----".toList, "name: b".toList], delimiter,
    ⟨delimiter, [[]], by decide, Or.inl rfl, Or.inl rfl, ?_⟩, by decide⟩, by decide⟩
  simp only [List.forall_mem_cons, List.not_mem_nil, false_imp_iff, implies_true, and_true,
    IsDelimiter]
  decide

end PluginVet.FrontMatter
