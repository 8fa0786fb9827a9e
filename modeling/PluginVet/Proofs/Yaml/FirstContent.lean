/-
# PluginVet.Proofs.Yaml.FirstContent — what a stream begins with

The first document of a stream may do without a line that begins it: then the stream begins with the
document's content. Which of the two it is can be seen on the lines (`beginsBare`), and the lexer sees the
same when it has passed blank lines and comments (`Lexer.beginsBare_skipToToken`).

§A lines with content, §B content ahead of a cursor, §C content ahead of a lexer.
-/
import PluginVet.Proofs.Yaml.Scalar
import PluginVet.Yaml.Token

namespace PluginVet.Yaml

variable {ch : Char} {cs rest line : List Char} {lines : List (List Char)} {c : Cursor} {fuel : Nat}

/-! ## §A Lines with content -/

/-- The text without a byte order mark at its beginning. -/
def dropMark : List Char → List Char
  | '\ufeff' :: rest => rest
  | cs => cs

theorem dropMark_eq (h : cs.head? ≠ some '\ufeff') : dropMark cs = cs := by
  unfold dropMark
  split
  · exact absurd rfl h
  · rfl

/-- What stands behind the spaces at the beginning of a line. -/
def content (line : List Char) : List Char := (dropMark line).dropWhile (· = ' ')

/-- A line with nothing but a comment or not even that. -/
def isIdle (line : List Char) : Bool := (content line).head?.all (· = '#')

/-- The first line with content is neither a directive nor one that begins a document. A tab is not
content, and where it stands in front of any the text cannot be read. -/
def beginsBare (lines : List (List Char)) : Bool :=
  match lines.dropWhile isIdle with
  | [] => false
  | line :: _ => (content line).head? != some '\t' && line.head? != some '%' && !beginsDocument line

theorem beginsBare_cons_of_idle (h : isIdle line = true) (lines : List (List Char)) :
    beginsBare (line :: lines) = beginsBare lines := by
  simp [beginsBare, h]

theorem beginsBare_cons (h : isIdle line = false) (lines : List (List Char)) :
    beginsBare (line :: lines) =
      ((content line).head? != some '\t' && line.head? != some '%' && !beginsDocument line) := by
  simp [beginsBare, h]

theorem dropWhile_takeWhile {p q : Char → Bool} (h : ∀ ch, p ch = true → q ch = true) (cs : List Char) :
    (cs.takeWhile q).dropWhile p = (cs.dropWhile p).takeWhile q := by
  induction cs with
  | nil => rfl
  | cons ch cs ih =>
      cases hp : p ch with
      | true => simp [hp, h ch hp, ih]
      | false => cases hq : q ch <;> simp [hp, hq]

theorem dropMark_takeWhile (cs : List Char) :
    dropMark (cs.takeWhile (!isBreak ·)) = (dropMark cs).takeWhile (!isBreak ·) := by
  have hmark : isBreak '\ufeff' = false := by decide
  fun_cases dropMark cs with
  | case1 rest => simp [hmark, dropMark]
  | case2 cs hcs =>
      rw [dropMark]
      intro rest h
      refine hcs (rest ++ cs.dropWhile (!isBreak ·)) ?_
      calc cs = cs.takeWhile (!isBreak ·) ++ cs.dropWhile (!isBreak ·) :=
            List.takeWhile_append_dropWhile.symm
        _ = '\ufeff' :: (rest ++ cs.dropWhile (!isBreak ·)) := by rw [h]; rfl

theorem content_takeWhile (cs : List Char) :
    content (cs.takeWhile (!isBreak ·)) = (content cs).takeWhile (!isBreak ·) := by
  have hspace : ∀ ch, decide (ch = ' ') = true → (!isBreak ch) = true := by
    intro ch hch
    rw [of_decide_eq_true hch]
    decide
  rw [content, dropMark_takeWhile, dropWhile_takeWhile hspace, ← content]

/-- Whether a line is idle is seen on the text that begins with it. -/
theorem isIdle_takeWhile (cs : List Char) :
    isIdle (cs.takeWhile (!isBreak ·)) = (content cs).head?.all (fun ch => ch = '#' || isBreak ch) := by
  rw [isIdle, content_takeWhile]
  cases content cs with
  | nil => rfl
  | cons ch rest => cases hbreak : isBreak ch <;> simp [hbreak]

/-! ## §B Content ahead of a cursor -/

namespace Cursor

/-- Behind the blanks at the beginning of a line. -/
def toContent (tabs : Bool) (c : Cursor) : Cursor :=
  let c := if c.mark.column = 0 && c.isAt '\ufeff' then c.skip else c
  c.skipWhile fun ch => ch = ' ' || (tabs && ch = '\t')

/-- Behind the comment that begins here. -/
def toLineEnd (c : Cursor) : Cursor := if c.isAt '#' then c.skipWhile (!isBreak ·) else c

/-- The content ahead is neither a directive nor a line that begins a document. -/
def beginsBare (c : Cursor) : Bool :=
  !c.rest.isEmpty && !c.isAt '\t' && !(c.mark.column = 0 && c.isAt '%') && !c.AtDocument

theorem along_toContent (tabs : Bool) (c : Cursor) : Along c (c.toContent tabs) := by
  have hblanks : ∀ c : Cursor, Along c (c.skipWhile fun ch => ch = ' ' || (tabs && ch = '\t')) := by
    intro c
    refine .skipWhile fun ch => not_break_of (p := fun ch => ch = ' ' || (tabs && ch = '\t')) ?_
    cases tabs <;> decide
  rw [toContent]
  split
  · rename_i h
    exact (Along.of_isAt (Bool.and_eq_true_iff.mp h).2 rfl).trans (hblanks _)
  · exact hblanks c

theorem ahead_toContent (tabs : Bool) (c : Cursor) : (c.toContent tabs).ahead = c.ahead := by
  have hblanks : ∀ c : Cursor,
      (c.skipWhile fun ch => ch = ' ' || (tabs && ch = '\t')).ahead = c.ahead := by
    intro c
    apply ahead_skipWhile
    intro ch hch
    simp only [Bool.or_eq_true, Bool.and_eq_true, decide_eq_true_eq] at hch
    rcases hch with rfl | ⟨-, rfl⟩ <;> decide
  rw [toContent, hblanks]
  split
  · rename_i h
    exact ahead_skip_of_isAt (Bool.and_eq_true_iff.mp h).2 rfl (by decide)
  · rfl

theorem ahead_toLineEnd (c : Cursor) : c.toLineEnd.ahead = c.ahead := by
  rw [toLineEnd]
  split
  · rename_i h
    apply (along_skipLine c).ahead
    apply not_atDocument_of_peek?
    rw [beq_iff_eq.mp h]
    decide
  · rfl

theorem rest_toContent (h : c.mark.column = 0) : (c.toContent false).rest = content c.rest := by
  have hspace : (fun ch => decide (ch = ' ') || (false && decide (ch = '\t'))) = (· = ' ') := by
    funext ch
    rw [Bool.false_and, Bool.or_false]
  rw [toContent, rest_skipWhile, hspace, content]
  congr 1
  cases hrest : c.rest with
  | nil => simp [isAt, peek?, hrest, dropMark]
  | cons ch rest =>
      by_cases hmark : ch = '\ufeff'
      · subst hmark
        simp [h, isAt, peek?, hrest, dropMark, skip_of_rest hrest]
      · simp [h, isAt, peek?, hrest, dropMark, hmark]

/-- Content at the beginning of a line is there already. -/
theorem toContent_eq (hrest : c.rest = ch :: rest) (hmark : ch ≠ '\ufeff') (hspace : ch ≠ ' ') :
    c.toContent false = c := by
  have hat : c.isAt '\ufeff' = false := by
    simp [isAt, peek?, hrest, hmark]
  simp [toContent, hat, skipWhile, hrest, hspace, skipBy]

/-- Content behind something else does not stand at the beginning of the line. -/
theorem column_toContent (h : c.mark.column = 0) (hrest : c.rest = ch :: rest)
    (hch : ch = '\ufeff' ∨ ch = ' ') : (c.toContent false).mark.column ≠ 0 := by
  have hlength : (content c.rest).length ≤ rest.length := by
    have hrest' : content c.rest = rest.dropWhile (· = ' ') := by
      rw [hrest]
      rcases hch with rfl | rfl <;> rfl
    rw [hrest']
    exact (List.dropWhile_sublist _).length_le
  rcases (along_toContent false c).eq_or_column with hsame | hcolumn
  · rw [← rest_toContent h, hsame, hrest, List.length_cons] at hlength
    omega
  · exact hcolumn

/-- **`beginsBare_toContent`** — if the line that begins here has content, then this tells how the stream
begins. -/
theorem beginsBare_toContent (h : c.mark.column = 0)
    (hidle : isIdle (c.rest.takeWhile (!isBreak ·)) = false) :
    (c.toContent false).toLineEnd = c.toContent false ∧ (c.toContent false).atBreak = false ∧
      (c.toContent false).beginsBare = Yaml.beginsBare (linesOf c.rest) := by
  have hcontent := hidle
  rw [isIdle_takeWhile, ← rest_toContent h] at hcontent
  cases hrest' : (c.toContent false).rest with
  | nil => simp [hrest'] at hcontent
  | cons d rest' =>
      simp only [hrest', List.head?_cons, Option.all_some, Bool.or_eq_false_iff,
        decide_eq_false_iff_not] at hcontent
      refine ⟨?_, ?_, ?_⟩
      · simp [toLineEnd, isAt, peek?, hrest', hcontent.1]
      · rw [atBreak_of_rest hrest', hcontent.2]
      · have htab : (content (c.rest.takeWhile (!isBreak ·))).head? = some d := by
          rw [content_takeWhile, ← rest_toContent h, hrest']
          simp [hcontent.2]
        rw [linesOf_eq, beginsBare_cons hidle, beginsDocument_takeWhile, htab]
        cases hrest : c.rest with
        | nil =>
            rw [rest_toContent h, hrest] at hrest'
            cases hrest'
        | cons ch rest =>
            -- A directive and a document line stand at the very beginning of their line.
            by_cases hch : ch = '\ufeff' ∨ ch = ' '
            · have hcolumn := column_toContent h hrest hch
              have hline : ((ch :: rest).takeWhile (!isBreak ·)).head? ≠ some '%' := by
                rcases hch with rfl | rfl <;> simp [isBreak]
              have hdocument : beginsDocument (ch :: rest) = false := by
                rcases hch with rfl | rfl <;> rfl
              simp [beginsBare, hrest', hcolumn, AtDocument, hline, hdocument, isAt, peek?, bne]
            · rw [not_or] at hch
              rw [toContent_eq hrest hch.1 hch.2] at hrest' ⊢
              obtain ⟨rfl, rfl⟩ := List.cons.inj (hrest.symm.trans hrest')
              simp [beginsBare, AtDocument, h, hrest, isAt, peek?, hcontent.2, bne]

/-- Behind a line without content the stream begins with the next one. -/
theorem beginsBare_toLineEnd (h : c.mark.column = 0)
    (hidle : isIdle (c.rest.takeWhile (!isBreak ·)) = true) :
    ((c.toContent false).toLineEnd.atBreak = false → (c.toContent false).toLineEnd.rest = []) ∧
      Yaml.beginsBare (linesOf (c.toContent false).toLineEnd.rest).tail = Yaml.beginsBare (linesOf c.rest) := by
  have hway : Along c (c.toContent false).toLineEnd :=
    (along_toContent false c).trans (along_skipComment _)
  refine ⟨?_, ?_⟩
  · rw [isIdle_takeWhile, ← rest_toContent h] at hidle
    intro hbreak
    rw [toLineEnd] at hbreak ⊢
    split at hbreak
    · rename_i hcomment
      rw [if_pos hcomment, rest_skipWhile]
      cases hrest : (c.toContent false).rest.dropWhile (!isBreak ·) with
      | nil => rfl
      | cons d rest =>
          have hd := List.head?_dropWhile_not (!isBreak ·) (c.toContent false).rest
          rw [atBreak_of_rest ((rest_skipWhile ..).trans hrest)] at hbreak
          simp [hrest, hbreak] at hd
    · rename_i hcomment
      rw [if_neg hcomment]
      cases hrest : (c.toContent false).rest with
      | nil => rfl
      | cons d rest =>
          rw [atBreak_of_rest hrest] at hbreak
          simp [isAt, peek?, hrest] at hcomment
          simp [hrest, hbreak, hcomment] at hidle
  · rw [hway.tail_linesOf, linesOf_eq c.rest, List.tail_cons, beginsBare_cons_of_idle hidle]

/-- Behind a line break the next line begins. -/
theorem skipBreak_spec (h : c.atBreak = true) : c.skipBreak.mark.column = 0 ∧
    c.skipBreak.rest.length < c.rest.length ∧
    Yaml.beginsBare (linesOf c.skipBreak.rest) = Yaml.beginsBare (linesOf c.rest).tail := by
  fun_cases skipBreak c with
  | case1 rest hrest =>
      refine ⟨rfl, ?_, ?_⟩
      · rw [hrest]
        exact Nat.lt_succ_of_lt (Nat.lt_succ_self rest.length)
      · rw [hrest, linesOf_cons_break rfl, List.tail_cons, linesOf_cons_break rfl,
          beginsBare_cons_of_idle rfl]
  | case2 ch rest _ hrest hbreak =>
      refine ⟨rfl, ?_, ?_⟩
      · simp [hrest]
      · rw [hrest, linesOf_cons_break hbreak, List.tail_cons]
  | case3 ch rest _ hrest hbreak => exact absurd ((atBreak_of_rest hrest).symm.trans h) hbreak
  | case4 hrest => simp [atBreak, peek?, hrest] at h

end Cursor

/-! ## §C Content ahead of a lexer -/

namespace Lexer

variable {l l' : Lexer}

theorem skipToToken_succ (fuel : Nat) (l : Lexer) : skipToToken (fuel + 1) l =
    if (l.cursor.toContent (l.inFlow || !l.keyAllowed)).toLineEnd.atBreak then
      skipToToken fuel { l with
        cursor := (l.cursor.toContent (l.inFlow || !l.keyAllowed)).toLineEnd.skipBreak
        keyAllowed := l.keyAllowed || !l.inFlow }
    else { l with cursor := (l.cursor.toContent (l.inFlow || !l.keyAllowed)).toLineEnd } := rfl

/-- Between tokens nothing but the place changes, and whether a key may begin there. -/
theorem skipToToken_spec (fuel : Nat) (l : Lexer) : ∃ c allowed,
    skipToToken fuel l = { l with cursor := c, keyAllowed := allowed } ∧ c.ahead = l.cursor.ahead := by
  induction fuel generalizing l with
  | zero => exact ⟨l.cursor, l.keyAllowed, rfl, rfl⟩
  | succ fuel ih =>
      have hahead := (Cursor.ahead_toLineEnd _).trans
        (Cursor.ahead_toContent (l.inFlow || !l.keyAllowed) l.cursor)
      rw [skipToToken_succ]
      split
      · obtain ⟨c, allowed, heq, hc⟩ := ih { l with
          cursor := (l.cursor.toContent (l.inFlow || !l.keyAllowed)).toLineEnd.skipBreak
          keyAllowed := l.keyAllowed || !l.inFlow }
        exact ⟨c, allowed, heq, hc.trans ((Cursor.ahead_skipBreak _).trans hahead)⟩
      · exact ⟨_, l.keyAllowed, rfl, hahead⟩

/-- At its beginning the lexer finds what the stream begins with. -/
theorem beginsBare_skipToToken (hcolumn : l.cursor.mark.column = 0) (hkey : l.keyAllowed = true)
    (hflow : l.inFlow = false) (hfuel : l.cursor.rest.length < fuel) :
    (skipToToken fuel l).cursor.beginsBare = beginsBare (linesOf l.cursor.rest) := by
  induction fuel generalizing l with
  | zero => omega
  | succ fuel ih =>
      have htabs : (l.inFlow || !l.keyAllowed) = false := by rw [hflow, hkey]; rfl
      rw [skipToToken_succ, htabs]
      cases hidle : isIdle (l.cursor.rest.takeWhile (!isBreak ·)) with
      | false =>
          obtain ⟨hend, hbreak, hbare⟩ := Cursor.beginsBare_toContent hcolumn hidle
          rw [hend, if_neg (by rw [hbreak]; decide)]
          exact hbare
      | true =>
          obtain ⟨hend, hbare⟩ := Cursor.beginsBare_toLineEnd hcolumn hidle
          have hlength := ((Cursor.along_toContent false l.cursor).trans
            (along_skipComment (l.cursor.toContent false))).length_rest
          split
          · rename_i hbreak
            obtain ⟨hnext, hless, hlines⟩ := Cursor.skipBreak_spec hbreak
            have hfuel : ((l.cursor.toContent false).toLineEnd.skipBreak).rest.length < fuel := by
              have : (l.cursor.toContent false).toLineEnd.rest.length ≤ l.cursor.rest.length := hlength
              omega
            refine (ih (l := { l with
              cursor := (l.cursor.toContent false).toLineEnd.skipBreak
              keyAllowed := l.keyAllowed || !l.inFlow }) hnext ?_ hflow hfuel).trans (hlines.trans hbare)
            show (l.keyAllowed || !l.inFlow) = true
            rw [hkey]
            rfl
          · rename_i hbreak
            have hnil := hend (Bool.eq_false_iff.mpr hbreak)
            rw [← hbare, hnil]
            simp [Cursor.beginsBare, hnil, linesOf, beginsBare]

end Lexer

end PluginVet.Yaml
