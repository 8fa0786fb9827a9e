/-
# PluginVet.Proofs.Yaml.Token — the tokens within a document

Most steps of the lexer add tokens that neither begin a document nor stand between two, and leave the
documents ahead as they are (`Lexer.Adds`). A key that turns out to be one puts a token in front of others,
which are those of its own document: the token behind the start of the stream stays what it is
(`Lexer.Opening`). All tokens of a document are added like this (`Lexer.grows_dispatch`).

§A what is added, §B keys and blocks, §C tokens of a document.
-/
import PluginVet.Proofs.Yaml.Tag

namespace PluginVet.Yaml

/-- A token other than those which stand between documents. A document end is among them: it ends the
document in front of it and begins none. -/
def TokenKind.isBare (kind : TokenKind) : Bool :=
  !Grammar.isDirective kind && kind != .documentStart && kind != .streamEnd

namespace Lexer

variable {ch : Char} {c c' : Cursor} {kind : TokenKind} {mark start stop : Mark} {b : Bool}
  {n column : Nat} {l l' l'' : Lexer} {k : PossibleKey}

/-! ## §A What is added -/

/-- Number of documents so far that began with a line of their own. -/
def starts (l : Lexer) : Nat := l.tokens.countP (·.kind == .documentStart)

/-- The end of the stream is not among the tokens. -/
def Unfinished (l : Lexer) : Prop := ∀ t ∈ l.tokens, t.kind ≠ .streamEnd

/-- The first place where a token may be put in front of others: behind the start of the stream, and
behind the token that follows if it belongs to a document's own line or directives. -/
def lowest (bare : Bool) : Nat := if bare then 1 else 2

/-- **`Opening b l`** — the token behind the start of the stream is bare or not, as `b` says, and stays
so whatever keys are put in. -/
structure Opening (b : Bool) (l : Lexer) : Prop where
  size : lowest b ≤ l.tokens.size
  first : ∀ t, l.tokens[0]? = some t → t.kind = .streamStart
  second : ∀ t, l.tokens[1]? = some t → t.kind.isBare = b
  keys : ∀ k, some k ∈ l.keys → lowest b ≤ k.position

/-- **`Adds l l'`** — only bare tokens are added, and the same documents are ahead. -/
structure Adds (l l' : Lexer) : Prop where
  ahead : l'.cursor.ahead = l.cursor.ahead
  starts : l'.starts = l.starts
  ended : l'.ended = l.ended
  unfinished : l.Unfinished → l'.Unfinished
  size : l.tokens.size ≤ l'.tokens.size
  opening : ∀ b, l.Opening b → l'.Opening b

theorem one_le_lowest (b : Bool) : 1 ≤ lowest b := by cases b <;> decide

theorem Adds.refl (l : Lexer) : Adds l l :=
  ⟨rfl, rfl, rfl, id, Nat.le_refl _, fun _ => id⟩

theorem Adds.trans (h : Adds l l') (h' : Adds l' l'') : Adds l l'' where
  ahead := h'.ahead.trans h.ahead
  starts := h'.starts.trans h.starts
  ended := h'.ended.trans h.ended
  unfinished := h'.unfinished ∘ h.unfinished
  size := Nat.le_trans h.size h'.size
  opening b := h'.opening b ∘ h.opening b

/-- **`Grows l l'`** — so much and at least one token. -/
structure Grows (l l' : Lexer) : Prop extends Adds l l' where
  more : l.tokens.size < l'.tokens.size

theorem Adds.grows (h : Adds l l') (h' : Grows l' l'') : Grows l l'' :=
  ⟨h.trans h'.toAdds, Nat.lt_of_le_of_lt h.size h'.more⟩

/-- Nothing is added. The pending keys are old ones, or one for the next token. -/
theorem Adds.of_tokens (htokens : l'.tokens = l.tokens) (hahead : l'.cursor.ahead = l.cursor.ahead)
    (hended : l'.ended = l.ended)
    (hkeys : ∀ k, some k ∈ l'.keys → some k ∈ l.keys ∨ k.position = l.tokens.size) : Adds l l' where
  ahead := hahead
  starts := by rw [Lexer.starts, htokens, Lexer.starts]
  ended := hended
  unfinished h := by rwa [Unfinished, htokens]
  size := Nat.le_of_eq (congrArg Array.size htokens.symm)
  opening b h := by
    refine ⟨?_, ?_, ?_, ?_⟩
    · rw [htokens]
      exact h.size
    · rw [htokens]
      exact h.first
    · rw [htokens]
      exact h.second
    · intro k hk
      rcases hkeys k hk with hold | hnew
      · exact h.keys k hold
      · rw [hnew]
        exact h.size

theorem ne_of_isBare (h : kind.isBare = true) : kind ≠ .documentStart ∧ kind ≠ .streamEnd := by
  simp only [TokenKind.isBare, Bool.and_eq_true, bne_iff_ne] at h
  exact ⟨h.1.2, h.2⟩

/-- A bare token in a place where one may be put leaves the second token what it is. -/
theorem Opening.of_insert {position : Nat} {t : Token} (hb : l.Opening b) (ht : t.kind.isBare = true)
    (htokens : l'.tokens.toList = l.tokens.toList.insertIdx position t)
    (hposition : position ≤ l.tokens.size) (hlowest : lowest b ≤ position)
    (hsize : l.tokens.size ≤ l'.tokens.size) (hkeys : ∀ k, some k ∈ l'.keys → some k ∈ l.keys) :
    l'.Opening b := by
  refine ⟨Nat.le_trans hb.size hsize, ?_, ?_, fun k hk => hb.keys k (hkeys k hk)⟩
  · intro t' ht'
    have hone := one_le_lowest b
    rw [← Array.getElem?_toList, htokens, List.getElem?_insertIdx, if_pos (by omega),
      Array.getElem?_toList] at ht'
    exact hb.first t' ht'
  · intro t' ht'
    rw [← Array.getElem?_toList, htokens, List.getElem?_insertIdx] at ht'
    split at ht'
    · rw [Array.getElem?_toList] at ht'
      exact hb.second t' ht'
    · cases b with
      | true =>
          split at ht'
          · rw [if_pos (by simpa using by omega)] at ht'
            exact Option.some.inj ht' ▸ ht
          · have := one_le_lowest true
            omega
      | false =>
          -- In front of the second token nothing is put.
          have : lowest false = 2 := rfl
          omega

/-- One bare token more, at a place where one may be put. -/
theorem Grows.of_insert {position : Nat} {t : Token} (ht : t.kind.isBare = true)
    (htokens : l'.tokens.toList = l.tokens.toList.insertIdx position t)
    (hposition : position ≤ l.tokens.size) (hlowest : ∀ b, l.Opening b → lowest b ≤ position)
    (hahead : l'.cursor.ahead = l.cursor.ahead) (hended : l'.ended = l.ended)
    (hkeys : ∀ k, some k ∈ l'.keys → some k ∈ l.keys) : Grows l l' := by
  have hperm : l'.tokens.toList.Perm (t :: l.tokens.toList) := by
    rw [htokens]
    exact List.perm_insertIdx t l.tokens.toList hposition
  have hsize : l'.tokens.size = l.tokens.size + 1 := by
    simpa using hperm.length_eq
  refine ⟨⟨hahead, ?_, hended, ?_, ?_, ?_⟩, ?_⟩
  · have hkind := (ne_of_isBare ht).1
    rw [Lexer.starts, ← Array.countP_toList, hperm.countP_eq, List.countP_cons_of_neg (by simpa using hkind),
      Array.countP_toList, Lexer.starts]
  · intro hl t' ht'
    rcases List.mem_cons.mp (hperm.mem_iff.mp (Array.mem_toList_iff.mpr ht')) with rfl | hold
    · exact (ne_of_isBare ht).2
    · exact hl t' (Array.mem_toList_iff.mp hold)
  · omega
  · exact fun b hb => hb.of_insert ht htokens hposition (hlowest b hb) (by omega) hkeys
  · omega

theorem Grows.of_push {t : Token} (ht : t.kind.isBare = true) (htokens : l'.tokens = l.tokens.push t)
    (hahead : l'.cursor.ahead = l.cursor.ahead) (hended : l'.ended = l.ended)
    (hkeys : ∀ k, some k ∈ l'.keys → some k ∈ l.keys) : Grows l l' := by
  refine .of_insert ht ?_ (Nat.le_refl _) (fun b hb => hb.size) hahead hended hkeys
  rw [htokens, Array.toList_push, ← Array.length_toList, List.insertIdx_length_self]

/-! ## §B Keys and blocks -/

/-- **`AddsHere l l'`** — so much, while the cursor stays where it is. -/
structure AddsHere (l l' : Lexer) : Prop extends Adds l l' where
  cursor : l'.cursor = l.cursor

theorem AddsHere.refl (l : Lexer) : AddsHere l l := ⟨.refl l, rfl⟩

theorem AddsHere.trans (h : AddsHere l l') (h' : AddsHere l' l'') : AddsHere l l'' :=
  ⟨h.toAdds.trans h'.toAdds, h'.cursor.trans h.cursor⟩

theorem addsHere_push (h : kind.isBare = true) (l : Lexer) (start stop : Mark) :
    AddsHere l (l.push kind start stop) :=
  ⟨Grows.toAdds (.of_push (t := ⟨kind, start, stop⟩) h rfl rfl rfl fun _ => id), rfl⟩

theorem addsHere_insertAt (h : kind.isBare = true) (hk : some k ∈ l.keys) (mark : Mark) :
    AddsHere l (l.insertAt k.position kind mark) := by
  unfold insertAt
  extract_lets t
  split
  · rename_i hposition
    refine ⟨Grows.toAdds (.of_insert (t := t) h (Array.toList_insertIdx hposition) hposition ?_ rfl rfl
      fun _ => id), rfl⟩
    exact fun b hb => hb.keys k hk
  · exact ⟨Grows.toAdds (.of_push (t := t) h rfl rfl rfl fun _ => id), rfl⟩

theorem addsHere_removeKey (h : l.removeKey = .ok l') : AddsHere l l' := by
  unfold removeKey at h
  split at h
  · rename_i k rest hkeys
    split at h
    · exact absurd h fail_ne_ok
    · cases h
      refine ⟨.of_tokens rfl rfl rfl fun k hk => Or.inl ?_, rfl⟩
      rw [hkeys]
      simpa using Or.inr hk
  · cases h
    exact .refl _

theorem addsHere_saveKey (h : l.saveKey = .ok l') : AddsHere l l' := by
  unfold saveKey at h
  split at h
  · obtain ⟨l₁, hremove, h⟩ := scan_bind_eq_ok_iff.mp h
    cases h
    refine (addsHere_removeKey hremove).trans ⟨.of_tokens rfl rfl rfl ?_, rfl⟩
    intro k hk
    rcases List.mem_cons.mp hk with hnew | hold
    · exact Or.inr (Option.some.inj hnew ▸ rfl)
    · exact Or.inl (List.mem_of_mem_drop hold)
  · cases h
    exact .refl _

theorem addsHere_openBlock (h : kind.isBare = true) (position : Option Nat)
    (hposition : ∀ p, position = some p → ∃ k, some k ∈ l.keys ∧ k.position = p) (column : Nat)
    (mark : Mark) : AddsHere l (l.openBlock column position kind mark) := by
  unfold openBlock
  split
  · exact .refl l
  · split
    · extract_lets l₁
      have hl₁ : AddsHere l l₁ := ⟨.of_tokens rfl rfl rfl fun k hk => Or.inl hk, rfl⟩
      cases position with
      | none => exact hl₁.trans (addsHere_push h l₁ mark mark)
      | some p =>
          obtain ⟨k, hk, rfl⟩ := hposition p rfl
          exact hl₁.trans (addsHere_insertAt (l := l₁) h hk mark)
    · exact .refl l

theorem addsHere_closeBlocksFrom (column : Int) (parents : List Int) (l : Lexer) :
    AddsHere l (closeBlocksFrom column parents l) := by
  induction parents generalizing l with
  | nil => exact .refl l
  | cons parent rest ih =>
      rw [closeBlocksFrom]
      split
      · refine .trans ?_ (ih _)
        exact ⟨Grows.toAdds (.of_push (t := ⟨.blockEnd, l.mark, l.mark⟩) rfl rfl rfl rfl fun _ => id), rfl⟩
      · exact .refl l

theorem addsHere_closeBlocks (column : Int) (l : Lexer) : AddsHere l (l.closeBlocks column) := by
  unfold closeBlocks
  split
  · exact .refl l
  · exact addsHere_closeBlocksFrom column l.outer l

theorem exists_of_mem_mapM_scan {α β : Type} {f : α → Scan β} {xs : List α} {ys : List β} {y : β}
    (h : xs.mapM f = .ok ys) (hy : y ∈ ys) : ∃ x ∈ xs, f x = .ok y := by
  induction xs generalizing ys with
  | nil =>
      rw [List.mapM_nil] at h
      cases h
      cases hy
  | cons x xs ih =>
      rw [List.mapM_cons] at h
      obtain ⟨y', hx, h⟩ := scan_bind_eq_ok_iff.mp h
      obtain ⟨ys', hxs, h⟩ := scan_bind_eq_ok_iff.mp h
      cases h
      rcases List.mem_cons.mp hy with rfl | hy
      · exact ⟨x, List.mem_cons_self, hx⟩
      · obtain ⟨x', hx', heq⟩ := ih hxs hy
        exact ⟨x', List.mem_cons_of_mem x hx', heq⟩

/-- Stale keys are dropped, and nothing else happens. -/
theorem dropStale_spec (h : l.dropStale = .ok l') : ∃ keys, l' = { l with keys := keys } ∧
    (∀ k, some k ∈ keys → some k ∈ l.keys) ∧ (l.keys = [none] → keys = [none]) := by
  obtain ⟨keys, hkeys, h⟩ := scan_bind_eq_ok_iff.mp h
  cases h
  refine ⟨keys, rfl, fun k hk => ?_, fun hnone => ?_⟩
  · obtain ⟨pending, hpending, heq⟩ := exists_of_mem_mapM_scan hkeys hk
    cases pending with
    | none => cases heq
    | some k' =>
        dsimp only at heq
        split at heq
        · split at heq
          · exact absurd heq fail_ne_ok
          · cases heq
        · cases heq
          exact hpending
  · rw [hnone] at hkeys
    exact (Except.ok.inj hkeys).symm

/-! ## §C Tokens of a document -/

theorem refuse_ne_ok {α : Type} {problem : Problem} {a : α} : l.refuse problem ≠ (.ok a : Scan α) := by
  intro h
  cases h

/-- Behind what is added in front of it the token of the next character is taken. -/
theorem AddsHere.take_one (h : AddsHere l l') (hkind : kind.isBare = true)
    (hskip : l.cursor.skip.ahead = l.cursor.ahead) (htokens : l''.tokens = (l'.take 1 kind).tokens)
    (hcursor : l''.cursor = (l'.take 1 kind).cursor) (hended : l''.ended = l'.ended)
    (hkeys : ∀ k, some k ∈ l''.keys → some k ∈ l'.keys) : Grows l l'' := by
  refine h.grows (.of_push (t := ⟨kind, l'.mark, (l'.cursor.skipBy 1).mark⟩) hkind htokens ?_ hended hkeys)
  rw [hcursor, h.cursor, ← hskip, ← h.cursor]
  rfl

theorem grows_atFlowStart (h : l.atFlowStart kind = .ok l') (hkind : kind.isBare = true)
    (hskip : l.cursor.skip.ahead = l.cursor.ahead) : Grows l l' := by
  obtain ⟨l₁, hsave, h⟩ := scan_bind_eq_ok_iff.mp h
  cases h
  refine (addsHere_saveKey hsave).take_one hkind hskip rfl rfl rfl ?_
  intro k hk
  exact (List.mem_cons.mp hk).resolve_left nofun

theorem grows_atFlowEnd (h : l.atFlowEnd kind = .ok l') (hkind : kind.isBare = true)
    (hskip : l.cursor.skip.ahead = l.cursor.ahead) : Grows l l' := by
  obtain ⟨l₁, hremove, h⟩ := scan_bind_eq_ok_iff.mp h
  cases h
  have hclosed : AddsHere l₁
      (if l₁.inFlow then { l₁ with keys := l₁.keys.drop 1, flowDepth := l₁.flowDepth - 1 } else l₁) := by
    split
    · exact ⟨.of_tokens rfl rfl rfl fun k hk => Or.inl (List.mem_of_mem_drop hk), rfl⟩
    · exact .refl l₁
  exact ((addsHere_removeKey hremove).trans hclosed).take_one hkind hskip rfl rfl rfl fun _ => id

theorem grows_atFlowEntry (h : l.atFlowEntry = .ok l')
    (hskip : l.cursor.skip.ahead = l.cursor.ahead) : Grows l l' := by
  obtain ⟨l₁, hremove, h⟩ := scan_bind_eq_ok_iff.mp h
  cases h
  exact (addsHere_removeKey hremove).take_one rfl hskip rfl rfl rfl fun _ => id

theorem grows_atBlockEntry (h : l.atBlockEntry = .ok l')
    (hskip : l.cursor.skip.ahead = l.cursor.ahead) : Grows l l' := by
  unfold atBlockEntry at h
  split at h
  · exact absurd h refuse_ne_ok
  · obtain ⟨l₁, hremove, h⟩ := scan_bind_eq_ok_iff.mp h
    cases h
    exact ((addsHere_openBlock rfl none nofun _ _).trans (addsHere_removeKey hremove)).take_one rfl hskip
      rfl rfl rfl fun _ => id

theorem grows_atKey (h : l.atKey = .ok l') (hskip : l.cursor.skip.ahead = l.cursor.ahead) :
    Grows l l' := by
  unfold atKey at h
  split at h
  · exact absurd h refuse_ne_ok
  · obtain ⟨l₁, hremove, h⟩ := scan_bind_eq_ok_iff.mp h
    cases h
    exact ((addsHere_openBlock rfl none nofun _ _).trans (addsHere_removeKey hremove)).take_one rfl hskip
      rfl rfl rfl fun _ => id

theorem keys_insertAt (l : Lexer) (position : Nat) (kind : TokenKind) (mark : Mark) :
    (l.insertAt position kind mark).keys = l.keys := by
  unfold insertAt
  extract_lets
  split <;> rfl

theorem keys_openBlock (l : Lexer) (column : Nat) (position : Option Nat) (kind : TokenKind)
    (mark : Mark) : (l.openBlock column position kind mark).keys = l.keys := by
  unfold openBlock
  split
  · rfl
  · split
    · extract_lets l₁
      cases position with
      | none => rfl
      | some p => exact keys_insertAt l₁ p kind mark
    · rfl

theorem grows_atValue (h : l.atValue = .ok l') (hskip : l.cursor.skip.ahead = l.cursor.ahead) :
    Grows l l' := by
  unfold atValue at h
  split at h
  · rename_i k rest hkeys
    have hk : some k ∈ l.keys := by
      rw [hkeys]
      exact List.mem_cons_self
    extract_lets l₁ l₂ at h
    have hl₁ : AddsHere l l₁ := addsHere_insertAt rfl hk k.mark
    have hl₂ : AddsHere l₁ l₂ := by
      refine addsHere_openBlock rfl (some k.position) ?_ _ _
      rintro _ ⟨⟩
      exact ⟨k, (keys_insertAt ..).symm ▸ hk, rfl⟩
    cases h
    refine (hl₁.trans hl₂).take_one rfl hskip rfl rfl rfl ?_
    intro k' hk'
    rw [keys_openBlock, keys_insertAt, hkeys]
    exact List.mem_cons_of_mem _ ((List.mem_cons.mp hk').resolve_left nofun)
  · split at h
    · exact absurd h refuse_ne_ok
    · cases h
      exact (addsHere_openBlock rfl none nofun _ _).take_one rfl hskip rfl rfl rfl fun _ => id

/-- Behind what is added in front of it a token is read. -/
theorem AddsHere.read {t : Token} (h : AddsHere l l') (ht : t.kind.isBare = true)
    (htokens : l''.tokens = l'.tokens.push t) (hahead : l''.cursor.ahead = l.cursor.ahead)
    (hended : l''.ended = l'.ended) (hkeys : l''.keys = l'.keys) : Grows l l'' := by
  refine h.grows (.of_push ht htokens ?_ hended ?_)
  · rw [hahead, h.cursor]
  · rw [hkeys]
    exact fun _ => id

theorem grows_atAnchor {isAlias : Bool} (h : l.atAnchor isAlias = .ok l')
    (hbreak : l.cursor.atBreak = false) (hc : ¬ l.cursor.AtDocument) : Grows l l' := by
  obtain ⟨l₁, hsave, h⟩ := scan_bind_eq_ok_iff.mp h
  obtain ⟨⟨name, c⟩, hname, h⟩ := scan_bind_eq_ok_iff.mp h
  have hl₁ := addsHere_saveKey hsave
  rw [hl₁.cursor] at hname
  cases h
  refine hl₁.read ?_ rfl ((along_anchorName hname hbreak).ahead hc) rfl rfl
  cases isAlias <;> rfl

theorem grows_atTag (h : l.atTag = .ok l') (hbreak : l.cursor.atBreak = false)
    (hc : ¬ l.cursor.AtDocument) : Grows l l' := by
  obtain ⟨l₁, hsave, h⟩ := scan_bind_eq_ok_iff.mp h
  obtain ⟨⟨handle, suffix, c⟩, htag, h⟩ := scan_bind_eq_ok_iff.mp h
  have hl₁ := addsHere_saveKey hsave
  rw [hl₁.cursor] at htag
  cases h
  exact hl₁.read rfl rfl ((along_scanTag htag hbreak).ahead hc) rfl rfl

theorem grows_atBlockScalar {folds : Bool} (h : l.atBlockScalar folds = .ok l')
    (hbreak : l.cursor.atBreak = false) (hc : ¬ l.cursor.AtDocument) : Grows l l' := by
  obtain ⟨l₁, hremove, h⟩ := scan_bind_eq_ok_iff.mp h
  obtain ⟨⟨text, stop, c⟩, hscalar, h⟩ := scan_bind_eq_ok_iff.mp h
  have hl₁ := addsHere_removeKey hremove
  rw [hl₁.cursor] at hscalar
  cases h
  exact hl₁.read rfl rfl (ahead_blockScalar hscalar hbreak hc) rfl rfl

theorem grows_atQuoted {single : Bool} (h : l.atQuoted single = .ok l')
    (hbreak : l.cursor.atBreak = false) (hc : ¬ l.cursor.AtDocument) : Grows l l' := by
  obtain ⟨l₁, hsave, h⟩ := scan_bind_eq_ok_iff.mp h
  obtain ⟨⟨text, c⟩, hscalar, h⟩ := scan_bind_eq_ok_iff.mp h
  have hl₁ := addsHere_saveKey hsave
  rw [hl₁.cursor] at hscalar
  cases h
  exact hl₁.read rfl rfl (ahead_quotedScalar hscalar hc hbreak) rfl rfl

theorem grows_atPlain (h : l.atPlain = .ok l') : Grows l l' := by
  obtain ⟨l₁, hsave, h⟩ := scan_bind_eq_ok_iff.mp h
  obtain ⟨⟨text, stop, c, broken⟩, hscalar, h⟩ := scan_bind_eq_ok_iff.mp h
  have hl₁ := addsHere_saveKey hsave
  rw [hl₁.cursor] at hscalar
  cases h
  exact hl₁.read rfl rfl (ahead_plainScalar hscalar) rfl rfl

/-- Whatever a choice gives, one of its branches gives it. -/
theorem of_ite {α : Type} {p : Prop} [Decidable p] {x y : Scan α} {a : α} {goal : Prop}
    (h : (if p then x else y) = .ok a) (hx : p → x = .ok a → goal) (hy : ¬ p → y = .ok a → goal) :
    goal := by
  by_cases hp : p
  · exact hx hp ((if_pos hp).symm.trans h)
  · exact hy hp ((if_neg hp).symm.trans h)

/-- **`grows_dispatch`** — what is neither the end of the text nor a directive nor a line between documents
adds tokens of a document. -/
theorem grows_dispatch (h : l.dispatch = .ok l') (hpeek : l.cursor.peek? = some ch)
    (hdirective : ¬ (l.cursor.mark.column = 0 && ch = '%') = true)
    (hindicator : ¬ l.cursor.atDocumentIndicator = true) : Grows l l' := by
  have hc := not_atDocument_of_indicator hindicator
  have hbreak := Cursor.atBreak_of_peek? hpeek
  have hskip : isBreak ch = false → l.cursor.skip.ahead = l.cursor.ahead := fun hch =>
    (Along.one (hbreak.trans hch)).ahead hc
  have hand : ∀ {d : Char} {p : Bool}, (ch = d && p) = true → ch = d := fun hch =>
    of_decide_eq_true (Bool.and_eq_true_iff.mp hch).1
  unfold dispatch at h
  extract_lets c spaced at h
  rw [show c.peek? = some ch from hpeek] at h
  dsimp only at h
  rw [if_neg hdirective, if_neg hindicator] at h
  refine of_ite h (fun hch h => ?_) fun _ h => ?_
  · exact grows_atFlowStart h rfl (hskip (by rw [hch]; rfl))
  refine of_ite h (fun hch h => ?_) fun _ h => ?_
  · exact grows_atFlowStart h rfl (hskip (by rw [hch]; rfl))
  refine of_ite h (fun hch h => ?_) fun _ h => ?_
  · exact grows_atFlowEnd h rfl (hskip (by rw [hch]; rfl))
  refine of_ite h (fun hch h => ?_) fun _ h => ?_
  · exact grows_atFlowEnd h rfl (hskip (by rw [hch]; rfl))
  refine of_ite h (fun hch h => ?_) fun _ h => ?_
  · exact grows_atFlowEntry h (hskip (by rw [hch]; rfl))
  refine of_ite h (fun hch h => ?_) fun _ h => ?_
  · exact grows_atBlockEntry h (hskip (by rw [hand hch]; rfl))
  refine of_ite h (fun hch h => ?_) fun _ h => ?_
  · exact grows_atKey h (hskip (by rw [hand hch]; rfl))
  refine of_ite h (fun hch h => ?_) fun _ h => ?_
  · exact grows_atValue h (hskip (by rw [hand hch]; rfl))
  refine of_ite h (fun hch h => ?_) fun _ h => ?_
  · exact grows_atAnchor h (by rw [hbreak, hch]; rfl) hc
  refine of_ite h (fun hch h => ?_) fun _ h => ?_
  · exact grows_atAnchor h (by rw [hbreak, hch]; rfl) hc
  refine of_ite h (fun hch h => ?_) fun _ h => ?_
  · exact grows_atTag h (by rw [hbreak, hch]; rfl) hc
  refine of_ite h (fun hch h => ?_) fun _ h => ?_
  · exact grows_atBlockScalar h (by rw [hbreak, hand hch]; rfl) hc
  refine of_ite h (fun hch h => ?_) fun _ h => ?_
  · exact grows_atBlockScalar h (by rw [hbreak, hand hch]; rfl) hc
  refine of_ite h (fun hch h => ?_) fun _ h => ?_
  · exact grows_atQuoted h (by rw [hbreak, hch]; rfl) hc
  refine of_ite h (fun hch h => ?_) fun _ h => ?_
  · exact grows_atQuoted h (by rw [hbreak, hch]; rfl) hc
  refine of_ite h (fun _ h => ?_) fun _ h => ?_
  · exact grows_atPlain h
  · exact absurd h fail_ne_ok

end Lexer

end PluginVet.Yaml
