/-
# PluginVet.Proofs.Yaml.Tag — names, tags and directives hold no document

Names and tags lie within a line (`along_anchorName`, `along_scanTag`). A directive takes its line, which
is not one that begins a document (`ahead_scanDirective`).

§A names, §B tags, §C directives.
-/
import PluginVet.Proofs.Yaml.Scalar
import PluginVet.Yaml.Event

namespace PluginVet.Yaml

variable {ch : Char} {c c' : Cursor} {began : Mark} {construct : Construct} {fuel n : Nat}
  {verbatim isDirective inFlow : Bool} {octets octets' : List UInt8} {acc acc' : ByteArray}
  {lead word : List Char} {handle suffix name : String}

/-! ## §A Names -/

theorem isBreak_of_isWord (h : isWord ch = true) : isBreak ch = false :=
  not_break_of (p := isWord) (by decide) h

theorem along_anchorName (h : Lexer.anchorName construct c = .ok (name, c')) (hc : c.atBreak = false) :
    Along c c' := by
  unfold Lexer.anchorName at h
  extract_lets word after closed at h
  split at h
  · exact absurd h fail_ne_ok
  · obtain ⟨-, rfl⟩ := Prod.mk.inj (Except.ok.inj h)
    exact .skip hc (.skipWhile fun _ => isBreak_of_isWord)

theorem along_tagHandle (h : Lexer.tagHandle isDirective began c = .ok (word, c')) : Along c c' := by
  unfold Lexer.tagHandle at h
  split at h
  · exact absurd h fail_ne_ok
  · rename_i hbang
    extract_lets name after at h
    have hbang : c.isAt '!' = true := by simpa using hbang
    have hway : Along c after := (Along.of_isAt hbang rfl).trans (.skipWhile fun _ => isBreak_of_isWord)
    split at h
    · rename_i hclosed
      cases h
      exact hway.trans (.of_isAt hclosed rfl)
    · split at h
      · exact absurd h fail_ne_ok
      · obtain ⟨-, rfl⟩ := Prod.mk.inj (Except.ok.inj h)
        exact hway

/-! ## §B Tags -/

theorem along_uriOctet {octet : Nat} (h : Lexer.uriOctet? c = some octet) : Along c (c.skipBy 3) := by
  unfold Lexer.uriOctet? at h
  split at h
  · rename_i a b rest hrest
    obtain ⟨va, ha, h⟩ := Option.bind_eq_some_iff.mp h
    obtain ⟨vb, hb, -⟩ := Option.bind_eq_some_iff.mp h
    have hhex : ∀ {d v}, hexDigitValue? d = some v → isBreak d = false := fun hd =>
      not_break_of (p := fun d => (hexDigitValue? d).isSome) (by decide) (Option.isSome_of_eq_some hd)
    apply Along.skipBy
    rw [hrest]
    simp [hhex ha, hhex hb]
    decide
  · cases h

theorem along_uriTail (h : Lexer.uriTail construct began n octets c = .ok (octets', c')) : Along c c' := by
  induction n generalizing octets c with
  | zero =>
      cases h
      exact .refl _
  | succ n ih =>
      rw [Lexer.uriTail] at h
      split at h
      · exact absurd h fail_ne_ok
      · rename_i octet hoctet
        split at h
        · exact (along_uriOctet hoctet).trans (ih h)
        · exact absurd h fail_ne_ok

theorem along_uriEscape (h : Lexer.uriEscape construct began c = .ok (octets, c')) : Along c c' := by
  unfold Lexer.uriEscape at h
  split at h
  · exact absurd h fail_ne_ok
  · rename_i octet hoctet
    extract_lets width at h
    split at h
    · exact absurd h fail_ne_ok
    · exact (along_uriOctet hoctet).trans (along_uriTail h)

theorem isBreak_of_isUriChar (h : Lexer.isUriChar verbatim ch = true) : isBreak ch = false := by
  refine not_break_of (p := Lexer.isUriChar verbatim) ?_ h
  cases verbatim <;> decide

theorem along_uriLoop (h : Lexer.uriLoop verbatim construct began fuel acc c = .ok (acc', c')) :
    Along c c' := by
  fun_induction Lexer.uriLoop verbatim construct began fuel acc c with
  | case1 => cases h; exact .refl _
  | case2 => cases h; exact .refl _
  | case3 => cases h; exact .refl _
  | case4 fuel acc c rest hrest _ ih =>
      obtain ⟨⟨octets, c₁⟩, hescape, h⟩ := scan_bind_eq_ok_iff.mp h
      exact (along_uriEscape hescape).trans (ih octets c₁ h)
  | case5 fuel acc c ch rest hrest huri _ ih =>
      have hbreak : isBreak ch = false := isBreak_of_isUriChar (by simpa using huri)
      exact .skip (by rwa [Cursor.atBreak_of_rest hrest]) (ih h)

theorem along_tagUri (h : Lexer.tagUri verbatim isDirective lead began c = .ok (suffix, c')) :
    Along c c' := by
  unfold Lexer.tagUri at h
  obtain ⟨⟨octets, after⟩, hloop, h⟩ := scan_bind_eq_ok_iff.mp h
  dsimp only at h
  split at h
  · exact absurd h fail_ne_ok
  · cases h
    exact along_uriLoop hloop

theorem along_scanTag (h : Lexer.scanTag inFlow c = .ok (handle, suffix, c')) (hc : c.atBreak = false) :
    Along c c' := by
  unfold Lexer.scanTag at h
  extract_lets _ finish at h
  have hfinish : ∀ {h s c₁}, finish (h, s, c₁) = .ok (handle, suffix, c') → c₁ = c' := by
    intro h s c₁ heq
    simp only [finish] at heq
    split at heq
    · cases heq; rfl
    · exact absurd heq fail_ne_ok
  split at h
  · rename_i hverbatim
    obtain ⟨⟨suffix₁, c₁⟩, huri, h⟩ := scan_bind_eq_ok_iff.mp h
    have hway : Along c c₁ := (Along.two hc (beq_iff_eq.mp hverbatim) rfl).trans (along_tagUri huri)
    dsimp only at h
    split at h
    · rename_i hclosed
      exact hfinish h ▸ hway.trans (.of_isAt hclosed rfl)
    · obtain ⟨_, hfail, -⟩ := scan_bind_eq_ok_iff.mp h
      exact absurd hfail fail_ne_ok
  · obtain ⟨⟨handle₁, c₁⟩, hhandle, h⟩ := scan_bind_eq_ok_iff.mp h
    have hway := along_tagHandle hhandle
    dsimp only at h
    split at h
    · obtain ⟨⟨suffix₁, c₂⟩, huri, h⟩ := scan_bind_eq_ok_iff.mp h
      exact hfinish h ▸ hway.trans (along_tagUri huri)
    · obtain ⟨⟨suffix₁, c₂⟩, huri, h⟩ := scan_bind_eq_ok_iff.mp h
      have hend : c₂ = c' := by
        dsimp only at h
        split at h <;> exact hfinish h
      exact hend ▸ hway.trans (along_tagUri huri)

/-! ## §C Directives -/

theorem along_versionNumber (h : Lexer.versionNumber began c = .ok (n, c')) : Along c c' := by
  unfold Lexer.versionNumber at h
  extract_lets digits at h
  split at h
  · exact absurd h fail_ne_ok
  · split at h
    · exact absurd h fail_ne_ok
    · obtain ⟨-, rfl⟩ := Prod.mk.inj (Except.ok.inj h)
      exact .skipWhile fun _ => not_break_of (by decide)

theorem along_directiveBody {kind : TokenKind} (h : Lexer.directiveBody name began c = .ok (kind, c')) :
    Along c c' ∧ Grammar.isDirective kind = true := by
  unfold Lexer.directiveBody at h
  split at h
  · obtain ⟨⟨major, c₁⟩, hmajor, h⟩ := scan_bind_eq_ok_iff.mp h
    dsimp only at h
    split at h
    · rename_i hdot
      obtain ⟨⟨minor, c₂⟩, hminor, h⟩ := scan_bind_eq_ok_iff.mp h
      cases h
      refine ⟨?_, rfl⟩
      exact (along_skipBlanks c).trans ((along_versionNumber hmajor).trans
        ((Along.of_isAt hdot rfl).trans (along_versionNumber hminor)))
    · exact absurd h fail_ne_ok
  · split at h
    · obtain ⟨⟨handle, c₁⟩, hhandle, h⟩ := scan_bind_eq_ok_iff.mp h
      dsimp only at h
      split at h
      · exact absurd h fail_ne_ok
      · obtain ⟨⟨lead, c₂⟩, hlead, h⟩ := scan_bind_eq_ok_iff.mp h
        dsimp only at h
        split at h
        · cases h
          refine ⟨?_, rfl⟩
          exact (along_skipBlanks c).trans ((along_tagHandle hhandle).trans
            ((along_skipBlanks c₁).trans (along_tagUri hlead)))
        · exact absurd h fail_ne_ok
    · exact absurd h fail_ne_ok

theorem ahead_scanDirective {token : Token} (h : Lexer.scanDirective c = .ok (token, c'))
    (hbreak : c.atBreak = false) (hc : ¬ c.AtDocument) :
    c'.ahead = c.ahead ∧ Grammar.isDirective token.kind = true := by
  unfold Lexer.scanDirective at h
  extract_lets began c₁ word c₂ at h
  have hname : Along c c₂ := .skip hbreak (.skipWhile fun _ => isBreak_of_isWord)
  split at h
  · exact absurd h fail_ne_ok
  · split at h
    · exact absurd h fail_ne_ok
    · obtain ⟨⟨kind, c₃⟩, hbody, h⟩ := scan_bind_eq_ok_iff.mp h
      obtain ⟨after, hline, h⟩ := scan_bind_eq_ok_iff.mp h
      obtain ⟨hway, hkind⟩ := along_directiveBody hbody
      cases h
      refine ⟨?_, hkind⟩
      rw [ahead_restOfLine hline ((hname.trans hway).not_atDocument hc), (hname.trans hway).ahead hc]

end PluginVet.Yaml
