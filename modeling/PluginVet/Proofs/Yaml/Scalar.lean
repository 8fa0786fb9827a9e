/-
# PluginVet.Proofs.Yaml.Scalar — scalars hold no document

A scalar ends in front of the line that begins the next document: a plain and a quoted one look for it
wherever a line begins, and the lines of a block scalar are indented. So as many documents are ahead behind
a scalar as in front of it.

§A results, §B plain scalars, §C quoted scalars, §D block scalars.
-/
import PluginVet.Proofs.Yaml.Cursor

namespace PluginVet.Yaml

variable {α β : Type} {ch : Char} {c c' : Cursor} {began : Mark} {f f' : Folding} {fuel n : Nat}
  {inFlow single : Bool}

/-! ## §A Results -/

section Results

variable {x : Scan α} {next : α → Scan β} {b : β}

theorem scan_bind_eq_ok_iff : (x >>= next) = .ok b ↔ ∃ a, x = .ok a ∧ next a = .ok b := by
  cases x <;> simp [bind, Except.bind]

theorem fail_ne_ok {problem : Problem} {construct : Construct} {a : α} :
    c.fail problem construct began ≠ (.ok a : Scan α) := by
  intro h
  cases h

end Results

/-! ## §B Plain scalars -/

theorem not_atDocument_of_indicator (h : ¬ c.atDocumentIndicator = true) : ¬ c.AtDocument :=
  fun hc => h (Cursor.atDocumentIndicator_of_atDocument hc)

theorem atBreak_of_not_atSeparator (h : ¬ c.atSeparator = true) : c.atBreak = false := by
  rw [Cursor.atSeparator] at h
  rw [Cursor.atBreak]
  cases hch : c.peek? with
  | none => rfl
  | some ch =>
      rw [hch, Cursor.isSeparator, Bool.or_eq_true, not_or] at h
      exact Bool.eq_false_iff.mpr h.2

theorem along_plainRun {s s' : PlainState} (h : plainRun inFlow began fuel s = .ok s') :
    Along s.cursor s'.cursor := by
  fun_induction plainRun inFlow began fuel s with
  | case1 s => exact Except.ok.inj h ▸ .refl _
  | case2 => exact Except.ok.inj h ▸ .refl _
  | case3 => exact absurd h fail_ne_ok
  | case4 => exact Except.ok.inj h ▸ .refl _
  | case5 => exact Except.ok.inj h ▸ .refl _
  | case6 fuel s c hseparator _ _ ch rest hrest ih =>
      exact .skip (atBreak_of_not_atSeparator hseparator) (ih h)

theorem ahead_plainGap {indent : Nat} (h : plainGap indent began fuel c f = .ok (c', f')) :
    c'.ahead = c.ahead := by
  fun_induction plainGap indent began fuel c f with
  | case1 => cases h; rfl
  | case2 => exact absurd h fail_ne_ok
  | case3 fuel c f hgap _ ih =>
      rw [ih h]
      exact Cursor.ahead_skipSeparator (Bool.or_eq_true_iff.mp hgap)
  | case4 => cases h; rfl

theorem ahead_plainLoop {indent : Nat} {s s' : PlainState}
    (h : plainLoop inFlow indent began fuel s = .ok s') : s'.cursor.ahead = s.cursor.ahead := by
  induction fuel generalizing s with
  | zero => cases h; rfl
  | succ fuel ih =>
      rw [plainLoop] at h
      split at h
      · cases h; rfl
      · rename_i hstop
        rw [Bool.or_eq_true, not_or] at hstop
        obtain ⟨run, hrun, h⟩ := scan_bind_eq_ok_iff.mp h
        have hahead := (along_plainRun hrun).ahead (not_atDocument_of_indicator hstop.1)
        split at h
        · obtain ⟨⟨c, f⟩, hgap, h⟩ := scan_bind_eq_ok_iff.mp h
          rw [← hahead, ← ahead_plainGap hgap]
          dsimp only at h
          split at h
          · cases h; rfl
          · exact ih h
        · cases h
          exact hahead

theorem ahead_plainScalar {indent : Nat} {text : String} {stop : Mark} {broken : Bool}
    (h : plainScalar inFlow indent c = .ok (text, stop, c', broken)) : c'.ahead = c.ahead := by
  obtain ⟨s, hloop, h⟩ := scan_bind_eq_ok_iff.mp h
  cases h
  exact ahead_plainLoop hloop

/-! ## §C Quoted scalars -/

/-- A class without the five line breaks. -/
theorem not_break_of {p : Char → Bool} (hp : ['\n', '\r', '\x85', '\u2028', '\u2029'].all (!p ·) = true)
    (h : p ch = true) : isBreak ch = false := by
  rw [Bool.eq_false_iff]
  intro hbreak
  have hmem : ch ∈ ['\n', '\r', '\x85', '\u2028', '\u2029'] := by
    simpa [isBreak, or_assoc] using hbreak
  have hnot := List.all_eq_true.mp hp ch hmem
  rw [h] at hnot
  cases hnot

theorem isSome_of_foldl_hex {ds : List Char} {acc : Option Nat} {v : Nat}
    (h : ds.foldl (fun acc d => acc.bind fun v => (hexDigitValue? d).map (v * 16 + ·)) acc = some v) :
    acc.isSome = true ∧ ∀ d ∈ ds, (hexDigitValue? d).isSome = true := by
  induction ds generalizing acc with
  | nil => exact ⟨Option.isSome_of_eq_some h, by simp⟩
  | cons d ds ih =>
      obtain ⟨hacc, hds⟩ := ih h
      cases acc with
      | none => cases hacc
      | some v =>
          dsimp only [Option.bind_some] at hacc
          rw [Option.isSome_map] at hacc
          exact ⟨rfl, List.forall_mem_cons.mpr ⟨hacc, hds⟩⟩

theorem along_hexCode {code : Nat} (h : hexCode? n c.rest = some code) : Along c (c.skipBy n) := by
  unfold hexCode? at h
  simp only at h
  split at h
  · apply Along.skipBy
    intro ch hch
    exact not_break_of (p := fun d => (hexDigitValue? d).isSome) (by decide)
      ((isSome_of_foldl_hex h).2 ch hch)
  · cases h

theorem along_quotedEscape (hc : c.atBreak = false) (h : quotedEscape began c = .ok (ch, c')) :
    Along c c' := by
  unfold quotedEscape at h
  split at h
  · exact absurd h fail_ne_ok
  all_goals
    rename_i hmeaning
    obtain ⟨e, he, hmeaning⟩ := Option.bind_eq_some_iff.mp hmeaning
    have hbreak : isBreak e = false :=
      not_break_of (p := fun e => (escapeMeaning? e).isSome) (by decide) (Option.isSome_of_eq_some hmeaning)
    have htwo : Along c (c.skipBy 2) := .two hc he hbreak
  · cases h
    exact htwo
  · simp only at h
    split at h
    · exact absurd h fail_ne_ok
    · rename_i hcode
      split at h
      · exact absurd h fail_ne_ok
      · cases h
        exact htwo.trans (along_hexCode hcode)

theorem ahead_quotedRun (h : quotedRun single began fuel c f = .ok (c', f')) (hc : ¬ c.AtDocument) :
    c'.ahead = c.ahead := by
  fun_induction quotedRun single began fuel c f with
  | case1 => cases h; rfl
  | case2 => cases h; rfl
  | case3 => cases h; rfl
  | case4 fuel c f hseparator rest _ hquote hrest ih =>
      have hnext : c.ahead? 1 = some '\'' := by
        rw [Cursor.ahead?, hrest, List.drop_succ_cons, List.drop_zero, hquote]
      have hway : Along c (c.skipBy 2) := .two (atBreak_of_not_atSeparator hseparator) hnext rfl
      rw [ih h (hway.not_atDocument hc), hway.ahead hc]
  | case5 => cases h; rfl
  | case6 fuel c f hseparator ch rest _ _ _ ih =>
      have hway := Along.one (atBreak_of_not_atSeparator hseparator)
      rw [ih h (hway.not_atDocument hc), hway.ahead hc]
  | case7 => cases h; rfl
  | case8 fuel c f hseparator =>
      -- The line break behind the backslash belongs to the scalar.
      cases h
      rw [Cursor.ahead_skipBreak, (Along.one (atBreak_of_not_atSeparator hseparator)).ahead hc]
  | case9 fuel c f hseparator rest _ _ _ _ ih =>
      obtain ⟨⟨value, c₁⟩, hescape, h⟩ := scan_bind_eq_ok_iff.mp h
      have hway := along_quotedEscape (atBreak_of_not_atSeparator hseparator) hescape
      rw [ih value c₁ h (hway.not_atDocument hc), hway.ahead hc]
  | case10 fuel c f hseparator ch rest _ _ _ _ ih =>
      have hway := Along.one (atBreak_of_not_atSeparator hseparator)
      rw [ih h (hway.not_atDocument hc), hway.ahead hc]

theorem ahead_quotedGap : (quotedGap fuel c f).1.ahead = c.ahead := by
  fun_induction quotedGap fuel c f with
  | case1 => rfl
  | case2 fuel c f hgap ih =>
      rw [ih]
      exact Cursor.ahead_skipSeparator (Bool.or_eq_true_iff.mp hgap)
  | case3 => rfl

theorem ahead_quotedLoop {text : String} (h : quotedLoop single began fuel c f = .ok (text, c')) :
    c'.ahead = c.ahead := by
  induction fuel generalizing c f with
  | zero => exact absurd h fail_ne_ok
  | succ fuel ih =>
      rw [quotedLoop] at h
      split at h
      · exact absurd h fail_ne_ok
      · rename_i hindicator
        split at h
        · exact absurd h fail_ne_ok
        · obtain ⟨⟨c₁, f₁⟩, hrun, h⟩ := scan_bind_eq_ok_iff.mp h
          rw [← ahead_quotedRun hrun (not_atDocument_of_indicator hindicator)]
          dsimp only at h
          by_cases hquote : c₁.isAt (if single then '\'' else '"') = true
          · rw [if_pos hquote] at h
            cases h
            apply Cursor.ahead_skip_of_isAt hquote <;> cases single <;> decide
          · rw [if_neg hquote] at h
            exact (ih h).trans ahead_quotedGap

theorem ahead_quotedScalar {text : String} (h : quotedScalar single c = .ok (text, c'))
    (hc : ¬ c.AtDocument) (hbreak : c.atBreak = false) : c'.ahead = c.ahead := by
  rw [ahead_quotedLoop h, (Along.one hbreak).ahead hc]

/-! ## §D Block scalars -/

theorem along_incrementAt {increment : Nat} (h : incrementAt began c = .ok (increment, c')) :
    Along c c' := by
  unfold incrementAt at h
  split at h
  · rename_i ch hpeek
    split at h
    · exact absurd h fail_ne_ok
    · split at h
      · rename_i hdigit
        cases h
        exact .of_isAt (beq_iff_eq.mpr hpeek) (not_break_of (p := Char.isDigit) (by decide) hdigit)
      · cases h
        exact .refl c
  · cases h
    exact .refl c

theorem along_chompingAt {chomping : Chomping} (h : chompingAt? c = some chomping) : Along c c.skip := by
  unfold chompingAt? at h
  split at h
  · rename_i hplus
    exact .of_isAt hplus rfl
  · split at h
    · rename_i hminus
      exact .of_isAt hminus rfl
    · cases h

theorem along_blockHeader {header : BlockHeader} (h : blockHeader began c = .ok (header, c')) :
    Along c c' := by
  unfold blockHeader at h
  split at h
  · rename_i chomping hchomping
    obtain ⟨⟨increment, c₁⟩, hincrement, h⟩ := scan_bind_eq_ok_iff.mp h
    cases h
    exact (along_chompingAt hchomping).trans (along_incrementAt hincrement)
  · obtain ⟨⟨increment, c₁⟩, hincrement, h⟩ := scan_bind_eq_ok_iff.mp h
    have hway := along_incrementAt hincrement
    dsimp only at h
    split at h
    · cases h
      exact hway
    · split at h
      · rename_i chomping hchomping
        cases h
        exact hway.trans (along_chompingAt hchomping)
      · cases h
        exact hway

theorem along_skipBlanks (c : Cursor) : Along c (c.skipWhile isSpaceOrTab) :=
  .skipWhile fun _ => not_break_of (by decide)

theorem along_skipLine (c : Cursor) : Along c (c.skipWhile (!isBreak ·)) :=
  .skipWhile fun _ => not_break_of (p := (!isBreak ·)) (by decide)

theorem along_skipComment (c : Cursor) :
    Along c (if c.isAt '#' then c.skipWhile (!isBreak ·) else c) := by
  split
  · exact along_skipLine c
  · exact .refl c

theorem ahead_restOfLine {construct : Construct} (h : restOfLine construct began c = .ok c')
    (hc : ¬ c.AtDocument) : c'.ahead = c.ahead := by
  have hway := (along_skipBlanks c).trans (along_skipComment _)
  unfold restOfLine at h
  extract_lets blanks comment at h
  split at h
  · cases h
    rw [Cursor.ahead_skipBreak, hway.ahead hc]
  · exact absurd h fail_ne_ok

/-- Any number of the spaces ahead. -/
theorem ahead_skipSpaces (h : n ≤ (c.rest.takeWhile (· = ' ')).length) : (c.skipBy n).ahead = c.ahead := by
  apply Cursor.ahead_skipBy
  intro ch hch
  have hspaces : c.rest.take n <+: c.rest.takeWhile (· = ' ') := by
    rw [List.prefix_iff_eq_take.mp (List.takeWhile_prefix (· = ' '))]
    exact List.take_prefix_take_left h
  have hspace : ch = ' ' := by
    simpa using List.all_eq_true.mp List.all_takeWhile ch (hspaces.subset hch)
  subst hspace
  decide

theorem ahead_blockBreaks {indent : Nat} {s s' : BreakState}
    (h : blockBreaks indent began fuel s = .ok s') : s'.cursor.ahead = s.cursor.ahead := by
  fun_induction blockBreaks indent began fuel s with
  | case1 => cases h; rfl
  | case2 => exact absurd h fail_ne_ok
  | case3 fuel s width room c widest _ _ ih =>
      have hroom : room ≤ width := by
        simp only [room]
        split <;> omega
      rw [ih h, Cursor.ahead_skipBreak]
      exact ahead_skipSpaces hroom
  | case4 fuel s width room =>
      have hroom : room ≤ width := by
        simp only [room]
        split <;> omega
      cases h
      exact ahead_skipSpaces hroom

theorem ahead_blockLines {folds : Bool} {indent : Nat} {s s' : BlockState} (hindent : 0 < indent)
    (h : blockLines folds indent began fuel s = .ok s') : s'.cursor.ahead = s.cursor.ahead := by
  induction fuel generalizing s with
  | zero => cases h; rfl
  | succ fuel ih =>
      rw [blockLines] at h
      dsimp only at h
      split at h
      · rename_i hcolumn
        obtain ⟨b, hbreaks, h⟩ := scan_bind_eq_ok_iff.mp h
        rw [ih h, ahead_blockBreaks hbreaks, Cursor.ahead_skipBreak]
        apply (along_skipLine s.cursor).ahead
        apply Cursor.not_atDocument_of_column
        omega
      · cases h; rfl

/-- The content of a block scalar is indented, whether its header says how far or not. -/
theorem indent_pos (parent : Int) (widest given : Nat) :
    0 < if given = 0 then inferredIndent parent widest else given := by
  unfold inferredIndent
  split <;> omega

theorem ahead_blockScalar {folds : Bool} {parent : Int} {text : String} {stop : Mark}
    (h : blockScalar folds parent c = .ok (text, stop, c')) (hbreak : c.atBreak = false)
    (hc : ¬ c.AtDocument) : c'.ahead = c.ahead := by
  obtain ⟨⟨header, c₁⟩, hheader, h⟩ := scan_bind_eq_ok_iff.mp h
  have hway := (Along.one hbreak).trans (along_blockHeader hheader)
  dsimp only at h
  obtain ⟨c₂, hline, h⟩ := scan_bind_eq_ok_iff.mp h
  obtain ⟨b, hbreaks, h⟩ := scan_bind_eq_ok_iff.mp h
  obtain ⟨s, hlines, h⟩ := scan_bind_eq_ok_iff.mp h
  cases h
  rw [← hway.ahead hc, ← ahead_restOfLine hline (hway.not_atDocument hc), ← ahead_blockBreaks hbreaks]
  exact ahead_blockLines (indent_pos ..) hlines

end PluginVet.Yaml
