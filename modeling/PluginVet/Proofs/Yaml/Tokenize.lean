/-
# PluginVet.Proofs.Yaml.Tokenize — the tokens of a stream and its document lines

A step of the lexer reads the tokens of the next content (`Lexer.Outcome`): those of a document, one that
stands between documents, or the end of the stream. In each case the document starts among the tokens and
the documents that lie ahead are as many together as before (`Lexer.step_spec`). So at the end there is a
document start for each line that begins a document, and the second token tells whether the stream begins
with content (`tokenize_spec`).

§A tokens between documents, §B steps, §C runs.
-/
import PluginVet.Proofs.Yaml.FirstContent
import PluginVet.Proofs.Yaml.Token

namespace PluginVet.Yaml

variable {ch : Char} {cs : List Char} {c : Cursor} {b : Bool} {fuel total : Nat}

namespace Lexer

variable {l l' : Lexer}

/-! ## §A Tokens between documents -/

/-- A lexer that has nothing but the start of the stream. -/
structure Fresh (l : Lexer) : Prop where
  size : l.tokens.size = 1
  first : ∀ t, l.tokens[0]? = some t → t.kind = .streamStart
  outer : l.outer = []
  keys : l.keys = [none]

/-- **`Pushes t l l'`** — behind bare ones the token `t` is added, and nothing else if the stream only
begins. -/
def Pushes (t : Token) (l l' : Lexer) : Prop :=
  ∃ l₁, Adds l l₁ ∧ (Fresh l → Fresh l₁) ∧ l'.tokens = l₁.tokens.push t ∧ l'.keys = l₁.keys

theorem closeBlocks_of_outer (h : l.outer = []) (column : Int) : l.closeBlocks column = l := by
  simp [closeBlocks, h, closeBlocksFrom]

theorem close_spec {l₁ : Lexer} {column : Int} (h : (l.closeBlocks column).removeKey = .ok l₁) :
    AddsHere l l₁ ∧ (Fresh l → Fresh l₁) := by
  refine ⟨(addsHere_closeBlocks column l).trans (addsHere_removeKey h), fun hl => ?_⟩
  rw [closeBlocks_of_outer hl.outer, removeKey, hl.keys] at h
  cases h
  exact hl

/-- **`Outcome l l'`** — what the tokens of the next content are: those of a document, one that stands
between documents, or the end of the stream. -/
inductive Outcome (l l' : Lexer) : Prop
  | content : l.cursor.beginsBare = true → Grows l l' → Outcome l l'
  | between (t : Token) : Pushes t l l' → t.kind ≠ .streamEnd → t.kind.isBare = l.cursor.beginsBare →
      (l'.cursor.ahead + if t.kind = .documentStart then 1 else 0) = l.cursor.ahead →
      l'.ended = l.ended → Outcome l l'
  | finish (t : Token) : Pushes t l l' → t.kind = .streamEnd → l.cursor.beginsBare = false →
      l.cursor.ahead = 0 → l'.ended = true → Outcome l l'

theorem outcome_atEnd (h : l.atEnd = .ok l') (hrest : l.cursor.rest = []) : Outcome l l' := by
  have hnone : ∀ c : Cursor, c.rest = [] → c.ahead = 0 := by
    intro c hc
    simp [Cursor.ahead, Cursor.AtDocument, hc, beginsDocument]
  unfold atEnd at h
  extract_lets _ m lAtEnd at h
  have hstay : Adds l lAtEnd :=
    .of_tokens rfl ((hnone _ rfl).trans (hnone _ hrest).symm) rfl fun k hk => Or.inl hk
  obtain ⟨l₁, hclose, h⟩ := scan_bind_eq_ok_iff.mp h
  obtain ⟨hadds, hfresh⟩ := close_spec hclose
  cases h
  refine .finish ⟨.streamEnd, m, m⟩ ⟨l₁, hstay.trans hadds.toAdds, ?_, rfl, rfl⟩ rfl ?_ (hnone _ hrest) rfl
  · exact fun hl => hfresh ⟨hl.size, hl.first, hl.outer, hl.keys⟩
  · simp [Cursor.beginsBare, hrest]

theorem outcome_atDirective (h : l.atDirective = .ok l') (hcolumn : l.cursor.mark.column = 0)
    (hat : l.cursor.isAt '%' = true) : Outcome l l' := by
  obtain ⟨l₁, hclose, h⟩ := scan_bind_eq_ok_iff.mp h
  obtain ⟨hadds, hfresh⟩ := close_spec hclose
  obtain ⟨⟨token, c⟩, hdirective, h⟩ := scan_bind_eq_ok_iff.mp h
  have hpeek := beq_iff_eq.mp hat
  have hdocument : ¬ l.cursor.AtDocument := Cursor.not_atDocument_of_peek? (by rw [hpeek]; decide)
  rw [hadds.cursor] at hdirective
  obtain ⟨hahead, hkind⟩ :=
    ahead_scanDirective hdirective ((Cursor.atBreak_of_peek? hpeek).trans rfl) hdocument
  cases h
  refine .between token ⟨l₁, hadds.toAdds, hfresh, rfl, rfl⟩ ?_ ?_ ?_ hadds.ended
  · intro hend
    rw [hend] at hkind
    cases hkind
  · simp [TokenKind.isBare, hkind, Cursor.beginsBare, hcolumn, hat]
  · rw [if_neg, Nat.add_zero]
    · exact hahead
    · intro hstart
      rw [hstart] at hkind
      cases hkind

theorem indicator_cases (h : c.atDocumentIndicator = true) :
    c.AtDocument ∨ ∃ rest, c.rest = '.' :: '.' :: '.' :: rest := by
  unfold Cursor.atDocumentIndicator at h
  simp only [Bool.and_eq_true, decide_eq_true_eq] at h
  obtain ⟨⟨hcolumn, hseparator⟩, hmatch⟩ := h
  split at hmatch
  · rename_i rest hrest
    refine Or.inl ⟨hcolumn, ?_⟩
    rw [hrest, beginsDocument]
    simpa [Cursor.ahead?, hrest] using hseparator
  · rename_i rest hrest
    exact Or.inr ⟨rest, hrest⟩
  · cases hmatch

theorem outcome_atDocumentIndicator (h : l.atDocumentIndicator = .ok l')
    (hindicator : l.cursor.atDocumentIndicator = true) : Outcome l l' := by
  obtain ⟨l₁, hclose, h⟩ := scan_bind_eq_ok_iff.mp h
  obtain ⟨hadds, hfresh⟩ := close_spec hclose
  have hcursor := hadds.cursor
  rcases indicator_cases hindicator with hdocument | ⟨rest, hrest⟩
  · have hat : l.cursor.isAt '-' = true := by
      cases hat : l.cursor.isAt '-' with
      | true => rfl
      | false =>
          exact absurd hdocument (Cursor.not_atDocument_of_peek? (by simpa [Cursor.isAt] using hat))
    rw [if_pos hat] at h
    cases h
    refine .between _ ⟨l₁, hadds.toAdds, hfresh, rfl, rfl⟩ ?_ ?_ ?_ hadds.ended
    · exact TokenKind.noConfusion
    · simp [TokenKind.isBare, Cursor.beginsBare, hdocument]
    · rw [← Cursor.ahead_skip_document hdocument, ← hcursor]
      rfl
  · have hpeek : l.cursor.peek? = some '.' := by rw [Cursor.peek?, hrest, List.head?_cons]
    have hat : ¬ l.cursor.isAt '-' = true := by
      rw [Cursor.isAt, hpeek]
      decide
    have hdocument : ¬ l.cursor.AtDocument := Cursor.not_atDocument_of_peek? (by rw [hpeek]; decide)
    have hway : Along l.cursor (l.cursor.skipBy 3) := by
      apply Along.skipBy
      rw [hrest]
      simp [isBreak]
    rw [if_neg hat] at h
    cases h
    refine .between _ ⟨l₁, hadds.toAdds, hfresh, rfl, rfl⟩ ?_ ?_ ?_ hadds.ended
    · exact TokenKind.noConfusion
    · simp [TokenKind.isBare, Grammar.isDirective, Cursor.beginsBare, hdocument, hrest, Cursor.isAt, hpeek]
    · rw [← hway.ahead hdocument, ← hcursor]
      rfl

/-- No token begins with a tab. -/
theorem peek?_ne_tab_of_dispatch (h : l.dispatch = .ok l') : l.cursor.peek? ≠ some '\t' := by
  intro hpeek
  obtain ⟨rest, hrest⟩ := List.head?_eq_some_iff.mp hpeek
  have hindicator : l.cursor.atDocumentIndicator = false := by
    simp [Cursor.atDocumentIndicator, hrest]
  have htab : isSpaceOrTab '\t' = true := by decide
  simp [dispatch, hpeek, hindicator, beginsPlain, htab, fail_ne_ok] at h

theorem outcome_dispatch (h : l.dispatch = .ok l') : Outcome l l' := by
  cases hpeek : l.cursor.peek? with
  | none =>
      have hrest : l.cursor.rest = [] := List.head?_eq_none_iff.mp hpeek
      refine outcome_atEnd ?_ hrest
      simpa [dispatch, hpeek] using h
  | some ch =>
      by_cases hdirective : (l.cursor.mark.column = 0 && ch = '%') = true
      · obtain ⟨hcolumn, hch⟩ := Bool.and_eq_true_iff.mp hdirective
        refine outcome_atDirective ?_ (of_decide_eq_true hcolumn) ?_
        · simpa [dispatch, hpeek, hdirective] using h
        · rw [Cursor.isAt, hpeek, of_decide_eq_true hch, beq_self_eq_true]
      · by_cases hindicator : l.cursor.atDocumentIndicator = true
        · refine outcome_atDocumentIndicator ?_ hindicator
          simpa [dispatch, hpeek, hdirective, hindicator] using h
        · refine .content ?_ (grows_dispatch h hpeek hdirective hindicator)
          have hrest : l.cursor.rest ≠ [] := by
            intro hnil
            rw [Cursor.peek?, hnil] at hpeek
            cases hpeek
          have hdocument := not_atDocument_of_indicator hindicator
          have htab : l.cursor.isAt '\t' = false := by
            simpa [Cursor.isAt] using peek?_ne_tab_of_dispatch h
          have hat : (l.cursor.mark.column = 0 && l.cursor.isAt '%') = false := by
            rw [Cursor.isAt, hpeek, Option.some_beq_some]
            exact Bool.eq_false_iff.mpr hdirective
          simp [Cursor.beginsBare, hrest, hdocument, htab, hat]

/-! ## §B Steps -/

section Pushes

variable {t : Token}

theorem Pushes.starts (h : Pushes t l l') :
    l'.starts = l.starts + if t.kind = .documentStart then 1 else 0 := by
  obtain ⟨l₁, hadds, -, htokens, -⟩ := h
  rw [Lexer.starts, htokens, Array.countP_push, ← Lexer.starts, hadds.starts]
  simp

theorem Pushes.size (h : Pushes t l l') : l.tokens.size < l'.tokens.size := by
  obtain ⟨l₁, hadds, -, htokens, -⟩ := h
  have hsize := hadds.size
  rw [htokens, Array.size_push]
  omega

theorem Pushes.exists_front (h : Pushes t l l') (hl : l.Unfinished) :
    ∃ front : Array Token, l'.tokens = front.push t ∧ ∀ t ∈ front, t.kind ≠ .streamEnd := by
  obtain ⟨l₁, hadds, -, htokens, -⟩ := h
  exact ⟨l₁.tokens, htokens, hadds.unfinished hl⟩

theorem Pushes.unfinished (h : Pushes t l l') (hl : l.Unfinished) (ht : t.kind ≠ .streamEnd) :
    l'.Unfinished := by
  obtain ⟨front, htokens, hfront⟩ := h.exists_front hl
  intro t' ht'
  rw [htokens, Array.mem_push] at ht'
  rcases ht' with hold | rfl
  · exact hfront t' hold
  · exact ht

/-- Behind the second token nothing changes it. -/
theorem Pushes.opening (h : Pushes t l l') (hl : l.Opening b) (hsize : 2 ≤ l.tokens.size) :
    l'.Opening b := by
  obtain ⟨l₁, hadds, -, htokens, hkeys⟩ := h
  have hl₁ := hadds.opening b hl
  have hsize₁ := hadds.size
  refine ⟨?_, ?_, ?_, ?_⟩
  · have := hl₁.size
    rw [htokens, Array.size_push]
    omega
  · rw [htokens, Array.getElem?_push, if_neg (by omega)]
    exact hl₁.first
  · rw [htokens, Array.getElem?_push, if_neg (by omega)]
    exact hl₁.second
  · rw [hkeys]
    exact hl₁.keys

/-- The first token behind the start of the stream is the second one. -/
theorem Pushes.opening_fresh (h : Pushes t l l') (hl : Fresh l) : l'.Opening t.kind.isBare := by
  obtain ⟨l₁, -, hfresh, htokens, hkeys⟩ := h
  have hl₁ := hfresh hl
  refine ⟨?_, ?_, ?_, ?_⟩
  · rw [htokens, Array.size_push, hl₁.size, lowest]
    split <;> decide
  · rw [htokens, Array.getElem?_push, if_neg (by rw [hl₁.size]; decide)]
    exact hl₁.first
  · intro t' ht'
    rw [htokens, Array.getElem?_push, if_pos hl₁.size.symm] at ht'
    exact Option.some.inj ht' ▸ rfl
  · intro k hk
    rw [hkeys, hl₁.keys] at hk
    simp at hk

theorem Fresh.opening (h : Fresh l) : l.Opening true := by
  refine ⟨?_, h.first, ?_, ?_⟩
  · rw [h.size]
    decide
  · intro t ht
    rw [Array.getElem?_eq_none (Nat.le_of_eq h.size)] at ht
    cases ht
  · intro k hk
    rw [h.keys] at hk
    simp at hk

end Pushes

/-- **`Reading total bare l`** — the lexer is not at the end of its text. As many documents as `total`
begin with a line of their own, and `bare` says whether the stream begins without one. -/
structure Reading (total : Nat) (bare : Bool) (l : Lexer) : Prop where
  documents : l.starts + l.cursor.ahead = total
  ended : l.ended = false
  unfinished : l.Unfinished
  opening : l.Opening bare
  size : 2 ≤ l.tokens.size

/-- **`Finished total bare tokens`** — these are the tokens of such a text. -/
structure Finished (total : Nat) (bare : Bool) (tokens : Array Token) : Prop where
  last : ∃ (front : Array Token) (t : Token), tokens = front.push t ∧ t.kind = .streamEnd ∧
    ∀ t ∈ front, t.kind ≠ .streamEnd
  starts : tokens.countP (·.kind == .documentStart) = total
  first : ∀ t, tokens[0]? = some t → t.kind = .streamStart
  second : ∀ t, tokens[1]? = some t → t.kind.isBare = bare
  size : 2 ≤ tokens.size

/-- **`Outcome.spec`** — what the tokens of the next content make of a lexer, be it a fresh one. -/
theorem Outcome.spec {bare : Bool} (h : Outcome l l') (hdocuments : l.starts + l.cursor.ahead = total)
    (hended : l.ended = false) (hunfinished : l.Unfinished)
    (hbegins : Fresh l ∧ l.cursor.beginsBare = bare ∨ l.Opening bare ∧ 2 ≤ l.tokens.size) :
    Reading total bare l' ∨ l'.ended = true ∧ Finished total bare l'.tokens := by
  have hone : 1 ≤ l.tokens.size := by
    rcases hbegins with ⟨hfresh, -⟩ | ⟨-, hsize⟩
    · exact Nat.le_of_eq hfresh.size.symm
    · omega
  have hopening : ∀ t, Pushes t l l' → t.kind.isBare = l.cursor.beginsBare → l'.Opening bare := by
    intro t hpushes hkind
    rcases hbegins with ⟨hfresh, hbare⟩ | ⟨hopening, hsize⟩
    · rw [← hbare, ← hkind]
      exact hpushes.opening_fresh hfresh
    · exact hpushes.opening hopening hsize
  cases h with
  | content hcontent hgrows =>
      refine Or.inl ⟨?_, hgrows.ended.trans hended, hgrows.unfinished hunfinished, ?_, ?_⟩
      · rw [hgrows.starts, hgrows.ahead, hdocuments]
      · apply hgrows.opening
        rcases hbegins with ⟨hfresh, hbare⟩ | ⟨hopening, -⟩
        · rw [← hbare, hcontent]
          exact hfresh.opening
        · exact hopening
      · have := hgrows.more
        omega
  | between t hpushes ht hkind hahead hsame =>
      have hsize := hpushes.size
      refine Or.inl ⟨?_, hsame.trans hended, hpushes.unfinished hunfinished ht, hopening t hpushes hkind, ?_⟩
      · rw [hpushes.starts]
        omega
      · omega
  | finish t hpushes ht hbare hahead hdone =>
      -- No document is ahead any more, so that all of them have begun.
      have hsize := hpushes.size
      obtain ⟨front, htokens, hfront⟩ := hpushes.exists_front hunfinished
      have hopening := hopening t hpushes (by rw [ht, hbare]; rfl)
      refine Or.inr ⟨hdone, ⟨front, t, htokens, ht, hfront⟩, ?_, hopening.first, hopening.second, ?_⟩
      · rw [← Lexer.starts, hpushes.starts, ht, if_neg (by decide)]
        omega
      · omega

/-- A step goes to the next content, reads its tokens and forgets stale keys. -/
theorem step_cases (h : l.step = .ok l') : ∃ before after, Adds l before ∧ (Fresh l → Fresh before) ∧
    before.cursor = (skipToToken (l.cursor.rest.length + 1) l).cursor ∧ Outcome before after ∧
    Adds after l' ∧ l'.tokens = after.tokens := by
  obtain ⟨l₁, hstale, h⟩ := scan_bind_eq_ok_iff.mp h
  obtain ⟨after, hdispatch, h⟩ := scan_bind_eq_ok_iff.mp h
  obtain ⟨l₂, hstale', h⟩ := scan_bind_eq_ok_iff.mp h
  cases h
  obtain ⟨c, allowed, hskip, hahead⟩ := skipToToken_spec (l.cursor.rest.length + 1) l
  obtain ⟨keys, rfl, hkeys, hnone⟩ := dropStale_spec hstale
  obtain ⟨keys', rfl, hkeys', -⟩ := dropStale_spec hstale'
  rw [hskip] at hkeys hnone hdispatch ⊢
  have hnext : Adds l { l with cursor := c, keyAllowed := allowed, keys := keys } :=
    .of_tokens rfl hahead rfl fun k hk => Or.inl (hkeys k hk)
  refine ⟨_, after, hnext.trans (addsHere_closeBlocks _ _).toAdds, ?_, (addsHere_closeBlocks _ _).cursor,
    outcome_dispatch hdispatch, .of_tokens rfl rfl rfl fun k hk => Or.inl (hkeys' k hk), rfl⟩
  intro hl
  have hclose : Fresh { l with cursor := c, keyAllowed := allowed, keys := keys } :=
    ⟨hl.size, hl.first, hl.outer, hnone hl.keys⟩
  rw [closeBlocks_of_outer hclose.outer]
  exact hclose

/-- What a step leaves keeps its meaning when stale keys are forgotten. -/
theorem Reading.adds {bare : Bool} (hl : Reading total bare l) (h : Adds l l') : Reading total bare l' := by
  refine ⟨?_, h.ended.trans hl.ended, h.unfinished hl.unfinished, h.opening bare hl.opening, ?_⟩
  · rw [h.starts, h.ahead, hl.documents]
  · exact Nat.le_trans hl.size h.size

/-- **`step_spec`** — what a step makes of a lexer, be it a fresh one at the first content. -/
theorem step_spec {bare : Bool} (h : l.step = .ok l') (hdocuments : l.starts + l.cursor.ahead = total)
    (hended : l.ended = false) (hunfinished : l.Unfinished)
    (hbegins : Fresh l ∧ (skipToToken (l.cursor.rest.length + 1) l).cursor.beginsBare = bare ∨
      l.Opening bare ∧ 2 ≤ l.tokens.size) :
    Reading total bare l' ∨ l'.ended = true ∧ Finished total bare l'.tokens := by
  obtain ⟨before, after, hbefore, hfresh, hcursor, houtcome, hafter, htokens⟩ := step_cases h
  have hspec : Reading total bare after ∨ after.ended = true ∧ Finished total bare after.tokens := by
    refine houtcome.spec ?_ (hbefore.ended.trans hended) (hbefore.unfinished hunfinished) ?_
    · rw [hbefore.starts, hbefore.ahead, hdocuments]
    · rcases hbegins with ⟨hl, hbare⟩ | ⟨hopening, hsize⟩
      · exact Or.inl ⟨hfresh hl, hcursor ▸ hbare⟩
      · exact Or.inr ⟨hbefore.opening bare hopening, Nat.le_trans hsize hbefore.size⟩
  -- Stale keys that are forgotten behind the tokens change nothing that matters here.
  rcases hspec with hreading | ⟨hdone, hfinished⟩
  · exact Or.inl (hreading.adds hafter)
  · exact Or.inr ⟨hafter.ended.trans hdone, htokens ▸ hfinished⟩

/-! ## §C Runs -/

theorem run_spec {bare : Bool} {trouble : Option Trouble} (h : run fuel l = (l', trouble))
    (hl : Reading total bare l ∨ l.ended = true ∧ Finished total bare l.tokens) :
    Reading total bare l' ∨ trouble = none ∧ Finished total bare l'.tokens := by
  induction fuel generalizing l with
  | zero =>
      cases h
      exact hl.imp_right fun h => ⟨rfl, h.2⟩
  | succ fuel ih =>
      rw [run] at h
      split at h
      · cases h
        exact hl.imp_right fun h => ⟨rfl, h.2⟩
      · rename_i hended
        have hreading := hl.resolve_right fun h => hended h.1
        split at h
        · rename_i next hstep
          exact ih h (step_spec hstep hreading.documents hreading.ended hreading.unfinished
            (Or.inr ⟨hreading.opening, hreading.size⟩))
        · cases h
          exact Or.inl hreading

end Lexer

theorem Lexer.fresh_ofChars (cs : List Char) : Lexer.Fresh (.ofChars cs) := by
  refine ⟨rfl, ?_, rfl, rfl⟩
  intro t ht
  exact Option.some.inj ht ▸ rfl

theorem Lexer.unfinished_ofChars (cs : List Char) : (Lexer.ofChars cs).Unfinished := by
  intro t ht
  obtain rfl : t = ⟨.streamStart, Mark.start, Mark.start⟩ := Array.mem_singleton.mp ht
  exact nofun

/-- **`run_ofChars`** — a run over a text has read it to its end, or no end is among the tokens. -/
theorem Lexer.run_ofChars {l : Lexer} {trouble : Option Trouble}
    (h : Lexer.run (fuel + 1) (.ofChars cs) = (l, trouble)) : l.Unfinished ∨ trouble = none ∧
      Lexer.Finished ((linesOf cs).countP beginsDocument) (beginsBare (linesOf cs)) l.tokens := by
  have hended : (Lexer.ofChars cs).ended = false := rfl
  rw [Lexer.run, hended, if_neg Bool.false_ne_true] at h
  split at h
  · rename_i next hstep
    have hstarts : (Lexer.ofChars cs).starts = 0 := rfl
    have hahead : (Lexer.ofChars cs).cursor.ahead = (linesOf cs).countP beginsDocument :=
      Cursor.ahead_of_column rfl
    have hbegins := Lexer.beginsBare_skipToToken (l := .ofChars cs) rfl rfl rfl (Nat.lt_succ_self _)
    have hnext := Lexer.step_spec hstep (by rw [hstarts, hahead, Nat.zero_add]) rfl
      (Lexer.unfinished_ofChars cs) (Or.inl ⟨Lexer.fresh_ofChars cs, hbegins⟩)
    exact (Lexer.run_spec h hnext).imp_left fun h => h.unfinished
  · cases h
    exact Or.inl (Lexer.unfinished_ofChars cs)

/-- The lines of a stream. A byte order mark at the beginning is no part of them. -/
def streamLines (s : String) : List (List Char) := linesOf (dropMark s.toList)

/-- The tokens of a text that a run has gone through. -/
def Lexer.certainTokens (result : Lexer × Option Trouble) : List Token × Option Trouble :=
  match result.2 with
  | none => (result.1.tokens.toList, none)
  | some t => ((result.1.tokens.extract 0 result.1.settled).toList, some t)

theorem tokenize_of_unreadable {s : String} {offset : Nat} (h : unreadableAt? 0 s.toList = some offset) :
    tokenize s = ([], some (.unreadable .controlCharacter offset)) := by
  unfold tokenize
  dsimp only
  rw [h]

theorem tokenize_of_readable {s : String} (h : unreadableAt? 0 s.toList = none) : tokenize s =
    Lexer.certainTokens (Lexer.run ((dropMark s.toList).length + 2) (.ofChars (dropMark s.toList))) := by
  unfold tokenize Lexer.certainTokens
  dsimp only
  rw [h]
  rfl

/-- **`tokenize_spec`** — a text whose tokens have an end is read in full: among the tokens are as many
document starts as lines that begin a document, and the first token is bare or not like the first content
of the text. -/
theorem tokenize_spec {s : String} {tokens : List Token} {trouble : Option Trouble}
    (h : tokenize s = (tokens, trouble)) : (∀ t ∈ tokens, t.kind ≠ .streamEnd) ∨ trouble = none ∧
      Lexer.Finished ((streamLines s).countP beginsDocument) (beginsBare (streamLines s)) tokens.toArray := by
  cases hreadable : unreadableAt? 0 s.toList with
  | some offset =>
      rw [tokenize_of_unreadable hreadable] at h
      cases h
      exact Or.inl fun t ht => absurd ht List.not_mem_nil
  | none =>
      rw [tokenize_of_readable hreadable] at h
      cases hrun : Lexer.run ((dropMark s.toList).length + 2) (.ofChars (dropMark s.toList)) with
      | mk l trouble' =>
          rw [hrun] at h
          have hspec := Lexer.run_ofChars hrun
          cases trouble' with
          | none =>
              cases h
              exact hspec.imp_left fun hl t ht => hl t (Array.mem_toList_iff.mp ht)
          | some trouble' =>
              cases h
              have hl := hspec.resolve_right fun hfinished => Option.some_ne_none _ hfinished.1
              refine Or.inl fun t ht => hl t ?_
              rw [Array.toList_extract, List.extract_eq_take_drop] at ht
              exact Array.mem_toList_iff.mp (List.mem_of_mem_take ht)

end PluginVet.Yaml
