/-
# PluginVet.Proofs.Registry.Unread — the documents left unread

A file is read up to its first document that is refused, and the warning about it says how many documents
follow. That number comes from `countDocuments`, which looks for separator lines and does not read the
stream. The reader finds a document at other lines, too, and none at some that the count takes for content.
On plain lines the two differ by the documents that the count overlooks and by one that a stream is heralded
with (`countDocuments_add_overlooked`), and the warning is off by as much (`unread_documents`).

§A lines, §B plain lines, §C the first content, §D the count, §E the warning.
-/
import Mathlib.Data.List.DropRight
import PluginVet.Proofs.FileTree.Content
import PluginVet.Proofs.Text.Search
import PluginVet.Proofs.Yaml.Document
import PluginVet.Registry.Statement

namespace PluginVet

/-! ## §A Lines -/

namespace Yaml

/-- A line feed ends a line of the stream, as other characters do. -/
theorem flatMap_linesOf_splitOn (cs : List Char) :
    (Text.splitOn '\n' cs).flatMap linesOf = linesOf cs := by
  induction cs with
  | nil => simp [Text.splitOn, linesOf]
  | cons ch cs ih =>
      by_cases hch : ch = '\n'
      · have hnil : linesOf [] = [[]] := by simp [linesOf]
        rw [hch, Text.splitOn, if_pos rfl, List.flatMap_cons, ih, linesOf_cons_break rfl, hnil]
        rfl
      · obtain ⟨line, rest, hcs⟩ := List.exists_cons_of_ne_nil (Text.splitOn_ne_nil '\n' cs)
        rw [hcs, List.flatMap_cons] at ih
        rw [Text.splitOn_cons_of_ne hch hcs, List.flatMap_cons]
        cases hbreak : isBreak ch with
        | true => rw [linesOf_cons_break hbreak, linesOf_cons_break hbreak, ← ih, List.cons_append]
        | false =>
            rw [linesOf_cons_of_not_break hbreak, linesOf_cons_of_not_break hbreak, ← ih, linesOf_eq line]
            rfl

theorem linesOf_append {text : List Char} (h : ∀ ch ∈ text, isBreak ch = false) (cs : List Char) :
    linesOf (text ++ cs) = (linesOf cs).modifyHead (text ++ ·) := by
  induction text with
  | nil =>
      rw [List.nil_append, linesOf_eq cs]
      rfl
  | cons ch text ih =>
      obtain ⟨hch, htext⟩ := List.forall_mem_cons.mp h
      rw [List.cons_append, linesOf_cons_of_not_break hch, ih htext, linesOf_eq cs]
      rfl

theorem linesOf_replicate (n : Nat) : linesOf (List.replicate n '\r') = List.replicate (n + 1) [] := by
  induction n with
  | zero => simp [linesOf]
  | succ n ih => rw [List.replicate_succ, linesOf_cons_break rfl, ih, ← List.replicate_succ]

end Yaml

namespace Registry

open Yaml (beginsBare beginsDocument isBreak isIdle linesOf)

variable {line text : List Char} {lines : List (List Char)} {s : String} {n : Nat}

/-! ## §B Plain lines -/

/-- A line without the returns at its end. -/
def lineText (line : List Char) : List Char := Text.dropEndWhile (· = '\r') line

/-- **`PlainLine line`** — the line ends where the reader has its end, and so does what is written on it. -/
structure PlainLine (line : List Char) : Prop where
  /-- No line break but CR LF and LF. -/
  breaks : ∀ ch ∈ lineText line, isBreak ch = false
  /-- White space with nothing or three dashes in front of it is made of spaces and tabs. -/
  blanks : Text.trimEnd line = [] ∨ Text.trimEnd line = ['-', '-', '-'] →
    ∀ ch ∈ lineText line, Text.isBlank ch = true → ch = ' ' ∨ ch = '\t'

theorem plainLine_iff : PlainLine line ↔ ((lineText line).all fun ch => !isBreak ch) = true ∧
    (Text.trimEnd line = [] ∨ Text.trimEnd line = ['-', '-', '-'] →
      ((lineText line).all fun ch => !Text.isBlank ch || ch = ' ' || ch = '\t') = true) := by
  have hblank : ∀ ch, (!Text.isBlank ch || ch = ' ' || ch = '\t') = true ↔
      (Text.isBlank ch = true → ch = ' ' ∨ ch = '\t') := by
    intro ch
    cases Text.isBlank ch <;> simp
  simp only [List.all_eq_true, Bool.not_eq_true', hblank]
  exact ⟨fun h => ⟨h.breaks, h.blanks⟩, fun h => ⟨h.1, h.2⟩⟩

instance (line : List Char) : Decidable (PlainLine line) := decidable_of_iff _ plainLine_iff.symm

theorem lineText_append (line : List Char) : ∃ n, line = lineText line ++ List.replicate n '\r' := by
  refine ⟨(line.rtakeWhile (· = '\r')).length, ?_⟩
  have hreturns : line.rtakeWhile (· = '\r') = List.replicate (line.rtakeWhile (· = '\r')).length '\r' :=
    List.eq_replicate_of_mem fun ch hch =>
      of_decide_eq_true (List.mem_rtakeWhile_imp (p := (· = '\r')) hch)
  rw [← hreturns]
  exact List.rdropWhile_append_rtakeWhile.symm

theorem dropWhile_dropWhile {p q : Char → Bool} (h : ∀ ch, q ch = true → p ch = true) (cs : List Char) :
    (cs.dropWhile q).dropWhile p = cs.dropWhile p := by
  induction cs with
  | nil => rfl
  | cons ch cs ih =>
      cases hq : q ch with
      | true => simp [hq, h ch hq, ih]
      | false => simp [hq]

theorem trimEnd_lineText (line : List Char) : Text.trimEnd (lineText line) = Text.trimEnd line := by
  have hreturn : ∀ ch, decide (ch = '\r') = true → Text.isBlank ch = true := by
    intro ch hch
    rw [of_decide_eq_true hch]
    decide
  rw [Text.trimEnd, Text.dropEndWhile, lineText, Text.dropEndWhile, List.reverse_reverse,
    dropWhile_dropWhile hreturn]
  rfl

theorem trimEnd_append (cs : List Char) :
    ∃ blanks, cs = Text.trimEnd cs ++ blanks ∧ ∀ ch ∈ blanks, Text.isBlank ch = true :=
  ⟨cs.rtakeWhile Text.isBlank, List.rdropWhile_append_rtakeWhile.symm,
    fun _ hch => List.mem_rtakeWhile_imp hch⟩

/-- For the reader a plain line is a line and nothing behind it. -/
theorem PlainLine.exists_linesOf (h : PlainLine line) :
    ∃ n, linesOf line = lineText line :: List.replicate n [] := by
  obtain ⟨n, hline⟩ := lineText_append line
  refine ⟨n, ?_⟩
  rw [hline, Yaml.linesOf_append h.breaks, Yaml.linesOf_replicate, List.replicate_succ,
    List.modifyHead_cons, List.append_nil, ← hline]

/-- A line that begins a document as `isSeparator` does not know it. -/
def isTabbed (line : List Char) : Bool := (Text.dropHead? ['-', '-', '-', '\t'] line).isSome

theorem isSeparator_iff : isSeparator line = true ↔
    line = ['-', '-', '-'] ∨ ∃ rest, line = ['-', '-', '-'] ++ ' ' :: rest := by
  rw [isSeparator, Bool.or_eq_true, decide_eq_true_eq, Text.isSome_dropHead?_iff]
  exact or_congr_right (exists_congr fun rest => eq_comm)

theorem isTabbed_iff : isTabbed line = true ↔ ∃ rest, line = ['-', '-', '-'] ++ '\t' :: rest := by
  rw [isTabbed, Text.isSome_dropHead?_iff]
  exact exists_congr fun rest => eq_comm

theorem not_isTabbed_of_isSeparator (h : isSeparator line = true) : isTabbed line = false := by
  rw [Bool.eq_false_iff, Ne, isTabbed_iff]
  rintro ⟨rest, rfl⟩
  rcases isSeparator_iff.mp h with hnothing | ⟨rest', hblank⟩
  · cases hnothing
  · exact absurd (List.cons.inj (List.append_cancel_left hblank)).1 (by decide)

theorem isSeparator_head? {ch : Char} (h : isBreak ch = false) :
    Yaml.Cursor.isSeparator (some ch) = true ↔ ch = ' ' ∨ ch = '\t' := by
  simp [Yaml.Cursor.isSeparator, Yaml.isSpaceOrTab, h]

/-- Dashes are no white space, and stand in front of it. -/
theorem exists_behind_dashes {rest blanks : List Char} (h : text ++ blanks = ['-', '-', '-'] ++ rest)
    (hblanks : ∀ ch ∈ blanks, Text.isBlank ch = true) :
    ∃ more, text = ['-', '-', '-'] ++ more ∧ rest = more ++ blanks := by
  rcases List.append_eq_append_iff.mp h with ⟨dashes, hdashes, hrest⟩ | hmore
  · have hnil : dashes = [] := by
      refine List.eq_nil_iff_forall_not_mem.mpr fun ch hch => ?_
      have hblank := hblanks ch (hrest ▸ List.mem_append_left rest hch)
      have hdash : ch ∈ ['-', '-', '-'] := hdashes ▸ List.mem_append_right text hch
      obtain rfl : ch = '-' := by simpa using hdash
      exact absurd hblank (by decide)
    rw [hnil, List.append_nil] at hdashes
    rw [hnil, List.nil_append] at hrest
    exact ⟨[], by rw [← hdashes, List.append_nil], hrest.symm⟩
  · exact hmore

/-- **`PlainLine.beginsDocument_eq`** — a plain line begins a document if it is counted, and also if a tab
follows its dashes. -/
theorem PlainLine.beginsDocument_eq (h : PlainLine line) : Yaml.beginsDocument (lineText line) =
    (isSeparator (Text.trimEnd line) || isTabbed (Text.trimEnd line)) := by
  obtain ⟨blanks, htext, hblanks⟩ := trimEnd_append (lineText line)
  have hbreaks := h.breaks
  have hplain := h.blanks
  rw [trimEnd_lineText] at htext
  generalize Text.trimEnd line = trimmed at htext hplain ⊢
  rw [htext] at hbreaks hplain ⊢
  rw [Bool.eq_iff_iff, Bool.or_eq_true, Yaml.beginsDocument_iff, isSeparator_iff, isTabbed_iff]
  constructor
  · rintro ⟨rest, hrest, hseparator⟩
    obtain ⟨more, rfl, rfl⟩ := exists_behind_dashes hrest hblanks
    cases more with
    | nil => exact Or.inl (Or.inl rfl)
    | cons ch more =>
        have hbreak : isBreak ch = false := hbreaks ch (by simp)
        rcases (isSeparator_head? hbreak).mp hseparator with rfl | rfl
        · exact Or.inl (Or.inr ⟨more, rfl⟩)
        · exact Or.inr ⟨more, rfl⟩
  · rintro ((rfl | ⟨rest, rfl⟩) | ⟨rest, rfl⟩)
    · refine ⟨blanks, rfl, ?_⟩
      cases blanks with
      | nil => rfl
      | cons ch blanks =>
          have hmem : ch ∈ ['-', '-', '-'] ++ ch :: blanks := by simp
          exact (isSeparator_head? (hbreaks ch hmem)).mpr
            (hplain (Or.inr rfl) ch hmem (hblanks ch List.mem_cons_self))
    · exact ⟨' ' :: (rest ++ blanks), rfl, rfl⟩
    · exact ⟨'\t' :: (rest ++ blanks), rfl, rfl⟩

theorem PlainLine.countP_linesOf (h : PlainLine line) : (linesOf line).countP beginsDocument =
    (if isSeparator (Text.trimEnd line) then 1 else 0) + if isTabbed (Text.trimEnd line) then 1 else 0 := by
  obtain ⟨n, hlines⟩ := h.exists_linesOf
  have hempty : (List.replicate n ([] : List Char)).countP beginsDocument = 0 := by
    rw [List.countP_replicate]
    rfl
  rw [hlines, List.countP_cons, hempty, h.beginsDocument_eq, Nat.zero_add]
  cases hseparator : isSeparator (Text.trimEnd line) with
  | true =>
      rw [not_isTabbed_of_isSeparator hseparator]
      rfl
  | false => rw [Bool.false_or, if_neg Bool.false_ne_true, Nat.zero_add]

theorem countP_flatMap_linesOf (h : ∀ line ∈ lines, PlainLine line) :
    (lines.flatMap linesOf).countP beginsDocument =
      (lines.map Text.trimEnd).countP isSeparator + (lines.map Text.trimEnd).countP isTabbed := by
  induction lines with
  | nil => rfl
  | cons line lines ih =>
      obtain ⟨hline, hlines⟩ := List.forall_mem_cons.mp h
      rw [List.flatMap_cons, List.countP_append, hline.countP_linesOf, ih hlines, List.map_cons,
        List.countP_cons, List.countP_cons]
      omega

/-! ## §C The first content -/

theorem beginsBare_replicate (n : Nat) (lines : List (List Char)) :
    beginsBare (List.replicate n [] ++ lines) = beginsBare lines := by
  induction n with
  | zero => rfl
  | succ n ih => rw [List.replicate_succ, List.cons_append, Yaml.beginsBare_cons_of_idle rfl, ih]

theorem not_beginsDocument_of_isIdle (h : isIdle text = true) : Yaml.beginsDocument text = false := by
  rw [Bool.eq_false_iff, Ne, Yaml.beginsDocument_iff]
  rintro ⟨rest, rfl, -⟩
  cases h

theorem hasContent_eq_false_iff : hasContent line = false ↔ line = [] ∨ ∃ rest, line = '#' :: rest := by
  fun_cases hasContent line with
  | case1 => simp
  | case2 rest => simp
  | case3 line hnil hcomment =>
      refine iff_of_false nofun ?_
      rintro (rfl | ⟨rest, rfl⟩)
      · exact hnil rfl
      · exact hcomment rest rfl

/-- White space alone is no content. -/
theorem isIdle_of_blank (h : ∀ ch ∈ text, ch = ' ' ∨ ch = '\t')
    (htab : (Yaml.content text).head? ≠ some '\t') : isIdle text = true := by
  have hmark : Yaml.dropMark text = text :=
    Yaml.dropMark_eq fun hhead => absurd (h _ (List.mem_of_mem_head? hhead)) (by decide)
  rw [isIdle]
  cases hhead : (Yaml.content text).head? with
  | none => rfl
  | some ch =>
      rw [Yaml.content, hmark] at hhead htab
      have hspace := List.head?_dropWhile_not (· = ' ') text
      rw [hhead] at hspace htab
      have hmem : ch ∈ text := (List.dropWhile_sublist _).mem (List.mem_of_mem_head? hhead)
      rcases h ch hmem with rfl | rfl
      · simp at hspace
      · exact absurd rfl htab

/-- A plain line that the stream begins with has content. -/
theorem PlainLine.hasContent (h : PlainLine line) (hidle : isIdle (lineText line) = false)
    (htab : (Yaml.content (lineText line)).head? ≠ some '\t') :
    Registry.hasContent (Text.trimEnd line) = true := by
  rw [← Bool.not_eq_false]
  rw [Bool.eq_false_iff] at hidle
  intro hempty
  apply hidle
  obtain ⟨blanks, htext, hblanks⟩ := trimEnd_append (lineText line)
  rw [trimEnd_lineText] at htext
  rcases hasContent_eq_false_iff.mp hempty with hnil | ⟨rest, hrest⟩
  · refine isIdle_of_blank (fun ch hch => ?_) htab
    rw [hnil, List.nil_append] at htext
    exact h.blanks (Or.inl hnil) ch hch (hblanks ch (htext ▸ hch))
  · rw [htext, hrest]
    rfl

/-- **`hasContent_of_beginsBare`** — content that the stream begins with is seen in front of the first
separator. -/
theorem hasContent_of_beginsBare (h : ∀ line ∈ lines, PlainLine line)
    (hbare : beginsBare (lines.flatMap linesOf) = true) :
    ((lines.map Text.trimEnd).takeWhile fun l => !isSeparator l).any hasContent = true := by
  induction lines with
  | nil => cases hbare
  | cons line lines ih =>
      obtain ⟨hline, hlines⟩ := List.forall_mem_cons.mp h
      obtain ⟨n, hsplit⟩ := hline.exists_linesOf
      rw [List.flatMap_cons, hsplit, List.cons_append] at hbare
      have hseparator : Yaml.beginsDocument (lineText line) = false →
          isSeparator (Text.trimEnd line) = false := by
        rw [hline.beginsDocument_eq, Bool.or_eq_false_iff]
        exact And.left
      -- Either the first line is passed by both, or it is the content.
      cases hidle : isIdle (lineText line) with
      | true =>
          rw [Yaml.beginsBare_cons_of_idle hidle, beginsBare_replicate] at hbare
          simp [hseparator (not_beginsDocument_of_isIdle hidle), ih hlines hbare]
      | false =>
          rw [Yaml.beginsBare_cons hidle, Bool.and_eq_true, Bool.and_eq_true, Bool.not_eq_true',
            bne_iff_ne] at hbare
          simp [hseparator hbare.2, hline.hasContent hidle hbare.1.1]

/-! ## §D The count -/

/-- The lines of a text. -/
def linesOfText (s : String) : List (List Char) := Text.splitOn '\n' s.toList

/-- **`PlainLines s`** — this holds of all lines of the text. -/
def PlainLines (s : String) : Prop := ∀ line ∈ linesOfText s, PlainLine line

instance (s : String) : Decidable (PlainLines s) :=
  inferInstanceAs (Decidable (∀ line ∈ linesOfText s, PlainLine line))

/-- A byte order mark hides the line that begins the first document. -/
def beginsMarked (s : String) : Bool :=
  s.toList.head? = some '\ufeff' && Yaml.beginsDocument (Yaml.dropMark s.toList)

/-- How many lines begin a document and are not counted: a tab follows their dashes, or the byte order mark
stands in front of them. -/
def overlooked (s : String) : Nat :=
  ((linesOfText s).map Text.trimEnd).countP isTabbed + if beginsMarked s then 1 else 0

/-- The count sees content in front of the first separator. -/
def seesContent (s : String) : Bool :=
  (((linesOfText s).map Text.trimEnd).takeWhile fun l => !isSeparator l).any hasContent

/-- **`heralded s`** — the count takes what stands in front of the first separator for a document, and the
stream begins with none: with an indented comment, say, or a directive. -/
def heralded (s : String) : Bool := seesContent s && !beginsBare (Yaml.streamLines s)

theorem countDocuments_eq (s : String) : countDocuments s =
    ((linesOfText s).map Text.trimEnd).countP isSeparator + if seesContent s then 1 else 0 := by
  rw [List.countP_eq_length_filter]
  rfl

/-- Without its byte order mark a text begins as many documents, and one more on its first line. -/
theorem countP_streamLines (s : String) : (Yaml.streamLines s).countP beginsDocument =
    (linesOf s.toList).countP beginsDocument + if beginsMarked s then 1 else 0 := by
  rw [Yaml.streamLines, beginsMarked]
  by_cases hmark : s.toList.head? = some '\ufeff'
  · obtain ⟨rest, hrest⟩ := List.head?_eq_some_iff.mp hmark
    have hlater : Yaml.laterDocuments ('\ufeff' :: rest) = Yaml.laterDocuments rest := by
      rw [Yaml.laterDocuments, Yaml.tail_linesOf_cons (by decide), Yaml.laterDocuments]
    have hfirst : Yaml.beginsDocument ('\ufeff' :: rest) = false := rfl
    rw [hrest, Yaml.dropMark, Yaml.countP_linesOf, Yaml.countP_linesOf, hlater, hfirst]
    simp
    omega
  · rw [Yaml.dropMark_eq hmark]
    simp [hmark]

/-- The line with the byte order mark is content for the count. -/
theorem hasContent_of_marked (h : line.head? = some '\ufeff') :
    isSeparator (Text.trimEnd line) = false ∧ hasContent (Text.trimEnd line) = true := by
  obtain ⟨rest, rfl⟩ := List.head?_eq_some_iff.mp h
  obtain ⟨blanks, hline, hblanks⟩ := trimEnd_append ('\ufeff' :: rest)
  cases htrimmed : Text.trimEnd ('\ufeff' :: rest) with
  | nil =>
      rw [htrimmed, List.nil_append] at hline
      exact absurd (hblanks '\ufeff' (hline ▸ List.mem_cons_self)) (by decide)
  | cons ch trimmed =>
      rw [htrimmed, List.cons_append] at hline
      obtain rfl := (List.cons.inj hline).1
      exact ⟨by simp [isSeparator, Text.dropHead?], rfl⟩

/-- Content that the stream begins with is seen. -/
theorem seesContent_of_beginsBare (h : PlainLines s) (hbare : beginsBare (Yaml.streamLines s) = true) :
    seesContent s = true := by
  by_cases hmark : s.toList.head? = some '\ufeff'
  · obtain ⟨rest, hrest⟩ := List.head?_eq_some_iff.mp hmark
    obtain ⟨line, lines, hlines⟩ := List.exists_cons_of_ne_nil (Text.splitOn_ne_nil '\n' rest)
    have hsplit : linesOfText s = ('\ufeff' :: line) :: lines := by
      rw [linesOfText, hrest, Text.splitOn_cons_of_ne (by decide) hlines]
    have hmarked : ('\ufeff' :: line).head? = some '\ufeff' := rfl
    obtain ⟨hseparator, hcontent⟩ := hasContent_of_marked hmarked
    simp [seesContent, hsplit, hseparator, hcontent]
  · rw [Yaml.streamLines, Yaml.dropMark_eq hmark, ← Yaml.flatMap_linesOf_splitOn] at hbare
    exact hasContent_of_beginsBare h hbare

/-- **`countDocuments_add_overlooked`** — the count is the number of documents but for those that it
overlooks, and one more for a heralded stream. -/
theorem countDocuments_add_overlooked (h : Yaml.ReadsAs s n) (hplain : PlainLines s) :
    countDocuments s + overlooked s = n + if heralded s then 1 else 0 := by
  have hsees := seesContent_of_beginsBare hplain
  have hlines := countP_flatMap_linesOf hplain
  rw [linesOfText, Yaml.flatMap_linesOf_splitOn] at hlines
  rw [countDocuments_eq, h.eq_beginnings, Yaml.beginnings, countP_streamLines, hlines, overlooked, heralded,
    linesOfText]
  cases hbare : beginsBare (Yaml.streamLines s) with
  | true =>
      -- The content that the stream begins with is the one document that the count adds.
      rw [hsees hbare]
      simp
      omega
  | false =>
      rw [Bool.not_false, Bool.and_true, if_neg Bool.false_ne_true]
      omega

/-! ## §E The warning -/

variable {path : Path} {d : Yaml.Document} {before after : List Yaml.Document} {cause : Yaml.Fault}

/-- The documents in front of the one that is refused have their say, and those behind it have none. -/
theorem streamStatements_refused (hbefore : ∀ d ∈ before, d.value.isOk = true)
    (hd : d.value = .error cause) (total number : Nat) :
    streamStatements path total number (before ++ d :: after) =
      (before.filterMap fun d => d.value.toOption).flatMap (documentStatements path) ++
        [.warning (.malformed path (number + before.length + 1) cause
          (total - (number + before.length + 1)))] := by
  induction before generalizing number with
  | nil =>
      rw [List.nil_append, streamStatements, hd]
      rfl
  | cons first before ih =>
      obtain ⟨hfirst, hbefore⟩ := List.forall_mem_cons.mp hbefore
      rw [List.cons_append, streamStatements]
      cases hvalue : first.value with
      | error cause' =>
          rw [hvalue] at hfirst
          cases hfirst
      | ok v =>
          rw [List.filterMap_cons_some (by rw [hvalue]; rfl), List.flatMap_cons, List.append_assoc]
          dsimp only
          rw [ih hbefore, List.length_cons, Nat.add_right_comm number 1, ← Nat.add_assoc number]

/-- The void document has a value. -/
theorem isVoid_of_refused (hd : d.value = .error cause) (htrouble : d.trouble = none) :
    d.root.isVoid = false := by
  cases hvoid : d.root.isVoid with
  | false => rfl
  | true =>
      have hroot : d.root = .void := by
        unfold Yaml.Node.isVoid at hvoid
        split at hvoid
        · assumption
        · cases hvoid
      rw [Yaml.Document.value, hroot, htrouble, Yaml.toValue] at hd
      cases hd

/-- **`unread_documents`** — the documents of a text that is read without trouble are those that its lines
show. The count of them differs in two ways on plain lines: it overlooks documents, and of a heralded
stream it sees one too many. A file with such a text has its say up to the first document that is refused,
and is off by as much in the number of those behind it. -/
theorem unread_documents (h : Yaml.ReadsAs s n) :
    n = Yaml.beginnings s ∧
    (PlainLines s → countDocuments s + overlooked s = n + if heralded s then 1 else 0) ∧
    ∀ (e : FileTree.Entry) (before after : List Yaml.Document) (d : Yaml.Document) (cause : Yaml.Fault),
      FileTree.textOf e.node = .ok s → Yaml.documents s = before ++ d :: after →
      (∀ d ∈ before, d.value.isOk = true) → d.value = .error cause →
      ∃ unread, fileStatements e =
          (before.filterMap fun d => d.value.toOption).flatMap (documentStatements e.path) ++
            [.warning (.malformed e.path (before.length + 1) cause unread)] ∧
        (PlainLines s → unread = after.length + (if heralded s then 1 else 0) - overlooked s) := by
  refine ⟨h.eq_beginnings, countDocuments_add_overlooked h, ?_⟩
  intro e before after d cause htext hdocuments hbefore hd
  refine ⟨countDocuments s - (before.length + 1), ?_, fun hplain => ?_⟩
  · rw [fileStatements, htext]
    dsimp only
    rw [hdocuments, streamStatements_refused hbefore hd, Nat.zero_add]
  · -- A document that is refused is not the void one, so that all documents in the list are counted.
    have hmem : d ∈ Yaml.documents s := by simp [hdocuments]
    have hlength := h.length_eq hmem (isVoid_of_refused hd (h.good d hmem))
    have hcount := countDocuments_add_overlooked h hplain
    rw [hdocuments, List.length_append, List.length_cons] at hlength
    omega

/-- A stream of one document, which repeats a key, behind a comment that is indented. -/
def repeatedKey : String := "  # header\n---\nid: a\nid: a\n"

set_option maxRecDepth 100000 in
theorem value_repeatedKey : ∃ d cause, Yaml.documents repeatedKey = [] ++ d :: [] ∧ d.value = .error cause := by
  have hone : (Yaml.documents repeatedKey).map (fun d => d.value.isOk) = [false] := by decide +kernel
  obtain ⟨d, hd, hvalue⟩ := List.map_eq_singleton_iff.mp hone
  cases h : d.value with
  | ok v =>
      rw [h] at hvalue
      cases hvalue
  | error cause => exact ⟨d, cause, hd, h⟩

set_option maxRecDepth 100000 in
/-- The warning about it says that one document is left unread. -/
theorem unread_repeatedKey : Yaml.ReadsAs repeatedKey 1 ∧ ∃ cause,
    fileStatements ⟨⟨"a.yaml"⟩, "a.yaml", 1, .file repeatedKey.toUTF8⟩ =
      [.warning (.malformed ⟨"a.yaml"⟩ 1 cause 1)] := by
  have hreads : Yaml.ReadsAs repeatedKey 1 := by decide +kernel
  have hplain : PlainLines repeatedKey := by decide +kernel
  have htext : FileTree.textOf (.file repeatedKey.toUTF8) = .ok repeatedKey := by
    simp only [FileTree.textOf, FileTree.contentOf, bind, Except.bind, FileTree.fromUTF8?_toUTF8]
  have hfirst : ∀ d ∈ ([] : List Yaml.Document), d.value.isOk = true :=
    fun _ hd => absurd hd List.not_mem_nil
  obtain ⟨d, cause, hdocuments, hd⟩ := value_repeatedKey
  obtain ⟨-, -, hfile⟩ := unread_documents hreads
  obtain ⟨unread, hstatements, hunread⟩ := hfile ⟨⟨"a.yaml"⟩, "a.yaml", 1, .file repeatedKey.toUTF8⟩
    [] [] d cause htext hdocuments hfirst hd
  have hone : unread = 1 := (hunread hplain).trans (by decide +kernel)
  rw [hone] at hstatements
  exact ⟨hreads, cause, hstatements⟩

set_option maxRecDepth 100000 in
/-- An indented comment and a directive are counted as a document, and two documents with tabs behind their
dashes as one. -/
theorem countDocuments_differs :
    (Yaml.ReadsAs "  # header\n---\nid: a\n" 1 ∧ countDocuments "  # header\n---\nid: a\n" = 2) ∧
    (Yaml.ReadsAs "%YAML 1.2\n---\nid: a\n" 1 ∧ countDocuments "%YAML 1.2\n---\nid: a\n" = 2) ∧
    (Yaml.ReadsAs "---\ta\n---\tb\n" 2 ∧ countDocuments "---\ta\n---\tb\n" = 1) := by
  decide +kernel

end Registry

end PluginVet
