/-
# PluginVet.Proofs.Yaml.Cursor — the documents that lie ahead of a cursor

A document begins with a line of its own: three dashes and then a blank or nothing. How many of these
lines are unread (`Cursor.ahead`) changes only where one of them is read. A way along a line that does not
begin at one keeps the number (`Along.ahead`), and so does every line break (`Cursor.ahead_skipBreak`).

§A lines, §B documents ahead, §C ways along a line, §D line breaks.
-/
import PluginVet.Yaml.Scalar

namespace PluginVet.Yaml

variable {ch : Char} {cs rest : List Char} {c c' c'' : Cursor} {p : Char → Bool} {n : Nat}

/-! ## §A Lines -/

/-- **`beginsDocument cs`** — three dashes, and then a blank, a line break or nothing. -/
def beginsDocument : List Char → Bool
  | '-' :: '-' :: '-' :: rest => Cursor.isSeparator rest.head?
  | _ => false

theorem beginsDocument_iff : beginsDocument cs = true ↔
    ∃ rest, cs = ['-', '-', '-'] ++ rest ∧ Cursor.isSeparator rest.head? = true := by
  constructor
  · fun_cases beginsDocument cs with
    | case1 rest => exact fun h => ⟨rest, rfl, h⟩
    | case2 cs hcs => exact fun h => absurd h Bool.false_ne_true
  · rintro ⟨rest, rfl, h⟩
    exact h

/-- The lines of a text. Between CR and LF, which are one line break, there is an empty one. -/
def linesOf (cs : List Char) : List (List Char) := cs.splitOnP isBreak

/-- How many documents begin with a line of their own behind the first line. -/
def laterDocuments (cs : List Char) : Nat := (linesOf cs).tail.countP beginsDocument

theorem linesOf_cons_break (h : isBreak ch = true) (cs : List Char) :
    linesOf (ch :: cs) = [] :: linesOf cs := by
  rw [linesOf, List.splitOnP_cons_eq_if_modifyHead, if_pos h, linesOf]

theorem linesOf_cons_of_not_break (h : isBreak ch = false) (cs : List Char) :
    linesOf (ch :: cs) = (linesOf cs).modifyHead (ch :: ·) := by
  rw [linesOf, List.splitOnP_cons_eq_if_modifyHead, if_neg (by simp [h]), linesOf]

/-- The first line is what stands in front of the first line break. -/
theorem linesOf_eq (cs : List Char) :
    linesOf cs = cs.takeWhile (!isBreak ·) :: (linesOf cs).tail := by
  induction cs with
  | nil => simp [linesOf]
  | cons ch cs ih =>
      cases h : isBreak ch with
      | true => simp [linesOf_cons_break h, h]
      | false =>
          rw [linesOf_cons_of_not_break h, ih]
          simp [h]

theorem isSeparator_head?_takeWhile (cs : List Char) :
    Cursor.isSeparator (cs.takeWhile (!isBreak ·)).head? = Cursor.isSeparator cs.head? := by
  cases cs with
  | nil => rfl
  | cons ch cs => cases h : isBreak ch <;> simp [h, Cursor.isSeparator]

/-- Whether a document begins is seen on the first line. -/
theorem beginsDocument_takeWhile (cs : List Char) :
    beginsDocument (cs.takeWhile (!isBreak ·)) = beginsDocument cs := by
  have hdash : isBreak '-' = false := by decide
  fun_cases beginsDocument cs with
  | case1 rest => simp [hdash, beginsDocument, isSeparator_head?_takeWhile]
  | case2 cs hcs =>
      rw [beginsDocument]
      intro rest h
      refine hcs (rest ++ cs.dropWhile (!isBreak ·)) ?_
      calc cs = cs.takeWhile (!isBreak ·) ++ cs.dropWhile (!isBreak ·) :=
            List.takeWhile_append_dropWhile.symm
        _ = '-' :: '-' :: '-' :: (rest ++ cs.dropWhile (!isBreak ·)) := by rw [h]; rfl

theorem countP_linesOf (cs : List Char) : (linesOf cs).countP beginsDocument =
    (if beginsDocument cs then 1 else 0) + laterDocuments cs := by
  rw [linesOf_eq, List.countP_cons, beginsDocument_takeWhile, laterDocuments, Nat.add_comm]

@[simp]
theorem laterDocuments_nil : laterDocuments [] = 0 := by simp [laterDocuments, linesOf]

theorem laterDocuments_cons_break (h : isBreak ch = true) (cs : List Char) :
    laterDocuments (ch :: cs) = (if beginsDocument cs then 1 else 0) + laterDocuments cs := by
  rw [laterDocuments, linesOf_cons_break h, List.tail_cons, countP_linesOf]

theorem tail_linesOf_cons (h : isBreak ch = false) (cs : List Char) :
    (linesOf (ch :: cs)).tail = (linesOf cs).tail := by
  rw [linesOf_cons_of_not_break h, linesOf_eq cs, List.modifyHead_cons, List.tail_cons, List.tail_cons]

/-! ## §B Documents ahead -/

namespace Cursor

/-- A line that begins a document begins here. -/
def AtDocument (c : Cursor) : Prop := c.mark.column = 0 ∧ beginsDocument c.rest = true

instance (c : Cursor) : Decidable c.AtDocument := inferInstanceAs (Decidable (_ ∧ _))

/-- **`ahead`** — how many documents begin with a line of their own in the unread text. -/
def ahead (c : Cursor) : Nat := (if c.AtDocument then 1 else 0) + laterDocuments c.rest

theorem ahead_of_not_atDocument (h : ¬ c.AtDocument) : c.ahead = laterDocuments c.rest := by
  rw [ahead, if_neg h, Nat.zero_add]

theorem ahead_of_column (h : c.mark.column = 0) :
    c.ahead = (linesOf c.rest).countP beginsDocument := by
  simp only [ahead, AtDocument, h, true_and, countP_linesOf]

theorem not_atDocument_of_peek? (h : c.peek? ≠ some '-') : ¬ c.AtDocument := by
  rintro ⟨-, hbegins⟩
  obtain ⟨rest, hrest, -⟩ := beginsDocument_iff.mp hbegins
  exact h (by rw [peek?, hrest]; rfl)

theorem not_atDocument_of_column (h : c.mark.column ≠ 0) : ¬ c.AtDocument := fun hc => h hc.1

/-- The lexer sees a line that begins a document, and takes `...` for one of the same kind. -/
theorem atDocumentIndicator_of_atDocument (h : c.AtDocument) : c.atDocumentIndicator = true := by
  obtain ⟨hcolumn, hbegins⟩ := h
  obtain ⟨rest, hrest, hseparator⟩ := beginsDocument_iff.mp hbegins
  simp [atDocumentIndicator, ahead?, hcolumn, hrest, hseparator]

theorem atBreak_of_peek? (h : c.peek? = some ch) : c.atBreak = isBreak ch := by
  rw [atBreak, h, Option.any_some]

theorem atBreak_of_rest (h : c.rest = ch :: rest) : c.atBreak = isBreak ch := by
  rw [atBreak, peek?, h, List.head?_cons, Option.any_some]

theorem skip_of_rest (h : c.rest = ch :: rest) :
    c.skip = ⟨rest, ⟨c.mark.index + 1, c.mark.line, c.mark.column + 1⟩⟩ := by
  rw [skip, h]

theorem skip_of_nil (h : c.rest = []) : c.skip = c := by
  rw [skip, h]

theorem rest_skipBy (c : Cursor) (n : Nat) : (c.skipBy n).rest = c.rest.drop n := by
  induction n generalizing c with
  | zero => rfl
  | succ n ih =>
      rw [skipBy, ih]
      cases hrest : c.rest with
      | nil => rw [skip_of_nil hrest, hrest, List.drop_nil, List.drop_nil]
      | cons ch rest => rw [skip_of_rest hrest, List.drop_succ_cons]

theorem rest_skipWhile (c : Cursor) (p : Char → Bool) : (c.skipWhile p).rest = c.rest.dropWhile p := by
  rw [skipWhile, rest_skipBy]
  calc c.rest.drop (c.rest.takeWhile p).length
      = (c.rest.takeWhile p ++ c.rest.dropWhile p).drop (c.rest.takeWhile p).length := by
        rw [List.takeWhile_append_dropWhile]
    _ = c.rest.dropWhile p := List.drop_left

theorem peek?_skip (c : Cursor) : c.skip.peek? = c.ahead? 1 := by
  cases hrest : c.rest with
  | nil => simp [skip_of_nil hrest, peek?, ahead?, hrest]
  | cons ch rest => simp [skip_of_rest hrest, peek?, ahead?, hrest]

end Cursor

/-! ## §C Ways along a line -/

/-- **`Along c c'`** — from one place of a line to a later one of the same line. -/
inductive Along : Cursor → Cursor → Prop
  | refl (c : Cursor) : Along c c
  | skip {c c' : Cursor} : c.atBreak = false → Along c.skip c' → Along c c'

namespace Along

theorem trans (h : Along c c') (h' : Along c' c'') : Along c c'' := by
  induction h with
  | refl => exact h'
  | skip hbreak _ ih => exact .skip hbreak (ih h')

theorem one (h : c.atBreak = false) : Along c c.skip := .skip h (.refl _)

theorem of_isAt (h : c.isAt ch = true) (hch : isBreak ch = false) : Along c c.skip := by
  apply one
  rw [Cursor.atBreak_of_peek? (beq_iff_eq.mp h), hch]

theorem skipBy (h : ∀ ch ∈ c.rest.take n, isBreak ch = false) : Along c (c.skipBy n) := by
  induction n generalizing c with
  | zero => exact .refl c
  | succ n ih =>
      rw [Cursor.skipBy]
      cases hrest : c.rest with
      | nil =>
          rw [Cursor.skip_of_nil hrest]
          apply ih
          simp [hrest]
      | cons ch rest =>
          rw [hrest, List.take_succ_cons, List.forall_mem_cons] at h
          refine .skip ?_ (ih ?_)
          · rw [Cursor.atBreak_of_rest hrest, h.1]
          · rw [Cursor.skip_of_rest hrest]
            exact h.2

theorem skipWhile (h : ∀ ch, p ch = true → isBreak ch = false) : Along c (c.skipWhile p) := by
  apply skipBy
  intro ch hch
  rw [← List.prefix_iff_eq_take.mp (List.takeWhile_prefix p)] at hch
  exact h ch (List.all_eq_true.mp List.all_takeWhile ch hch)

/-- On a way that does not begin at a document no document begins. -/
theorem not_atDocument (h : Along c c') (hc : ¬ c.AtDocument) : ¬ c'.AtDocument := by
  induction h with
  | refl => exact hc
  | @skip c c' _ _ ih =>
      apply ih
      cases hrest : c.rest with
      | nil => rwa [Cursor.skip_of_nil hrest]
      | cons ch rest =>
          rw [Cursor.skip_of_rest hrest]
          exact Cursor.not_atDocument_of_column (Nat.succ_ne_zero _)

theorem tail_linesOf (h : Along c c') : (linesOf c'.rest).tail = (linesOf c.rest).tail := by
  induction h with
  | refl => rfl
  | @skip c c' hbreak _ ih =>
      rw [ih]
      cases hrest : c.rest with
      | nil => rw [Cursor.skip_of_nil hrest, hrest]
      | cons ch rest =>
          rw [Cursor.atBreak_of_rest hrest] at hbreak
          rw [Cursor.skip_of_rest hrest, tail_linesOf_cons hbreak]

/-- Behind the beginning of a line no line begins. -/
theorem eq_or_column (h : Along c c') : c' = c ∨ c'.mark.column ≠ 0 := by
  induction h with
  | refl => exact Or.inl rfl
  | @skip c c' _ _ ih =>
      cases hrest : c.rest with
      | nil => rwa [Cursor.skip_of_nil hrest] at ih
      | cons ch rest =>
          rw [Cursor.skip_of_rest hrest] at ih
          rcases ih with rfl | hcolumn
          · exact Or.inr (Nat.succ_ne_zero _)
          · exact Or.inr hcolumn

theorem length_rest (h : Along c c') : c'.rest.length ≤ c.rest.length := by
  induction h with
  | refl => exact Nat.le_refl _
  | @skip c c' _ _ ih =>
      refine Nat.le_trans ih ?_
      cases hrest : c.rest with
      | nil => exact Nat.le_of_eq (by rw [Cursor.skip_of_nil hrest, hrest])
      | cons ch rest =>
          rw [Cursor.skip_of_rest hrest]
          exact Nat.le_succ _

/-- **`Along.ahead`** — the documents ahead stay the same along a line that does not begin one. -/
theorem ahead (h : Along c c') (hc : ¬ c.AtDocument) : c'.ahead = c.ahead := by
  rw [Cursor.ahead_of_not_atDocument (h.not_atDocument hc), Cursor.ahead_of_not_atDocument hc,
    laterDocuments, h.tail_linesOf, laterDocuments]

/-- The next character and the one behind it. -/
theorem two (hc : c.atBreak = false) (hnext : c.ahead? 1 = some ch) (hch : isBreak ch = false) :
    Along c (c.skipBy 2) := by
  refine .skip hc (one ?_)
  rw [Cursor.atBreak_of_peek? (by rw [Cursor.peek?_skip, hnext]), hch]

end Along

/-- Behind the three dashes one document less is ahead. -/
theorem Cursor.ahead_skip_document (h : c.AtDocument) : (c.skipBy 3).ahead + 1 = c.ahead := by
  obtain ⟨rest, hrest, -⟩ := beginsDocument_iff.mp h.2
  have hway : Along c (c.skipBy 3) := by
    apply Along.skipBy
    rw [hrest]
    simp [isBreak]
  have hcolumn : (c.skipBy 3).mark.column ≠ 0 := by
    rcases hway.eq_or_column with hsame | hcolumn
    · have hlength := congrArg (·.rest.length) hsame
      simp only [rest_skipBy, List.length_drop, hrest, List.length_append, List.length_cons] at hlength
      omega
    · exact hcolumn
  rw [ahead_of_not_atDocument (not_atDocument_of_column hcolumn), laterDocuments, hway.tail_linesOf, ahead,
    if_pos h, laterDocuments, Nat.add_comm]

/-- A character that begins no document and no line. -/
theorem Cursor.ahead_skip_of_isAt (h : c.isAt ch = true) (hbreak : isBreak ch = false) (hdash : ch ≠ '-') :
    c.skip.ahead = c.ahead := by
  apply (Along.of_isAt h hbreak).ahead
  apply not_atDocument_of_peek?
  rw [beq_iff_eq.mp h]
  exact fun hpeek => hdash (Option.some.inj hpeek)

/-- Blanks and other characters that begin no document and no line. -/
theorem Cursor.ahead_skipBy (h : ∀ ch ∈ c.rest.take n, isBreak ch = false ∧ ch ≠ '-') :
    (c.skipBy n).ahead = c.ahead := by
  cases n with
  | zero => rfl
  | succ n =>
      apply (Along.skipBy fun ch hch => (h ch hch).1).ahead
      apply not_atDocument_of_peek?
      intro hpeek
      obtain ⟨rest, hrest⟩ := List.head?_eq_some_iff.mp hpeek
      rw [hrest, List.take_succ_cons] at h
      exact (h '-' List.mem_cons_self).2 rfl

theorem Cursor.ahead_skipWhile (h : ∀ ch, p ch = true → isBreak ch = false ∧ ch ≠ '-') :
    (c.skipWhile p).ahead = c.ahead := by
  apply ahead_skipBy
  intro ch hch
  rw [← List.prefix_iff_eq_take.mp (List.takeWhile_prefix p)] at hch
  exact h ch (List.all_eq_true.mp List.all_takeWhile ch hch)

/-! ## §D Line breaks -/

namespace Cursor

/-- In front of a line break all documents that are ahead begin behind it. -/
theorem ahead_of_break (hrest : c.rest = ch :: rest) (h : isBreak ch = true) :
    c.ahead = (linesOf rest).countP beginsDocument := by
  have hstart : ¬ c.AtDocument := by
    apply not_atDocument_of_peek?
    rw [peek?, hrest, List.head?_cons]
    intro hdash
    rw [Option.some.inj hdash] at h
    cases h
  rw [ahead_of_not_atDocument hstart, hrest, laterDocuments_cons_break h, countP_linesOf]

theorem ahead_skipBreak (c : Cursor) : c.skipBreak.ahead = c.ahead := by
  fun_cases skipBreak c with
  | case1 rest hrest =>
      rw [ahead_of_break hrest rfl, linesOf_cons_break rfl]
      exact ahead_of_column rfl
  | case2 ch rest _ hrest hbreak =>
      rw [ahead_of_break hrest hbreak]
      exact ahead_of_column rfl
  | case3 => rfl
  | case4 => rfl

/-- One step over a blank or a line break. -/
theorem ahead_skipSeparator (h : c.atBlank = true ∨ c.atBreak = true) :
    c.skipSeparator.ahead = c.ahead := by
  rw [skipSeparator]
  split
  · exact c.ahead_skipBreak
  · rename_i hbreak
    have hblank := h.resolve_right hbreak
    apply (Along.one (Bool.eq_false_iff.mpr hbreak)).ahead
    apply not_atDocument_of_peek?
    intro hpeek
    rw [atBlank, hpeek] at hblank
    cases hblank

end Cursor

end PluginVet.Yaml
