/-
# PluginVet.Proofs.Expansion — the parts of a path are expanded apart

What a slash divides is read piece by piece and independently, because no name of a variable goes past a
slash. So the expansion of a joined path is that of the directory, followed by the values in the path
below it (`expand_join_eq_ok_iff`). The one exception is a brace behind a dollar sign that the directory
leaves open (`LeavesOpen`). A tilde is something only at the very beginning: behind a directory it stays,
and a value that is an absolute path stays below the directory too.

§A pieces, §B values, §C expansion, §D joined paths.
-/
import PluginVet.Expansion
import PluginVet.Proofs.Path.Steps

namespace PluginVet

namespace Expansion

variable {environment : Environment} {s a b cs : List Char} {path : Path}

/-! ## §A Pieces -/

/-- The next pieces of a text and what is left of it. -/
def readPiece (s : List Char) : List Piece × List Char :=
  match s with
  | [] => ([], [])
  | '$' :: '{' :: rest =>
    match Text.breakOn? ['}'] rest with
    | some (inner, after) => ([Piece.ofBraces inner], after)
    | none => ([.plain '$', .plain '{'], rest)
  | '$' :: '$' :: rest => ([.plain '$'], rest)
  | '$' :: rest =>
    match rest.takeWhile isNameCharacter with
    | [] => ([.plain '$'], rest)
    | name => ([.variable (String.ofList name) none], rest.drop name.length)
  | c :: rest => ([.plain c], rest)

theorem readPiece_cons_of_ne {c : Char} (hc : c ≠ '$') (rest : List Char) :
    readPiece (c :: rest) = ([.plain c], rest) := by
  unfold readPiece
  split <;> simp_all

theorem pieces_nil (fuel : Nat) : pieces fuel [] = [] := by
  cases fuel <;> rfl

theorem pieces_succ (fuel : Nat) (s : List Char) :
    pieces (fuel + 1) s = (readPiece s).1 ++ pieces fuel (readPiece s).2 := by
  fun_cases readPiece s with
  | case1 => exact (pieces_nil fuel).symm
  | case2 rest inner after h => simp only [pieces, h]; rfl
  | case3 rest h => simp only [pieces, h]; rfl
  | case4 rest => simp only [pieces]; rfl
  | case5 rest hbrace hdollar h => simp only [pieces, h]; rfl
  | case6 rest hbrace hdollar hname => simp only [pieces]; rfl
  | case7 c rest hbrace hdollar hname => simp only [pieces]; rfl

theorem suffix_readPiece (s : List Char) : (readPiece s).2 <:+ s := by
  fun_cases readPiece s with
  | case1 => exact List.suffix_rfl
  | case2 rest inner after h =>
      exact ⟨'$' :: '{' :: (inner ++ ['}']), by rw [Text.breakOn?_eq_append h]; simp⟩
  | case3 rest h => exact ⟨['$', '{'], rfl⟩
  | case4 rest => exact ⟨['$', '$'], rfl⟩
  | case5 rest hbrace hdollar h => exact List.suffix_cons '$' rest
  | case6 rest hbrace hdollar hname => exact (List.drop_suffix _ rest).trans (List.suffix_cons '$' rest)
  | case7 c rest hbrace hdollar hname => exact List.suffix_cons c rest

theorem length_readPiece (h : s ≠ []) : (readPiece s).2.length < s.length := by
  fun_cases readPiece s with
  | case1 => exact absurd rfl h
  | case2 rest inner after hbreak =>
      have hlength := congrArg List.length (Text.breakOn?_eq_append hbreak)
      simp only [List.length_append, List.length_cons, List.length_nil] at hlength ⊢
      omega
  | case3 rest hbreak => exact Nat.lt_succ_of_lt (Nat.lt_succ_self _)
  | case4 rest => exact Nat.lt_succ_of_lt (Nat.lt_succ_self _)
  | case5 rest hbrace hdollar hname => exact Nat.lt_succ_self _
  | case6 rest hbrace hdollar hname =>
      exact Nat.lt_succ_of_le (List.drop_suffix _ rest).length_le
  | case7 c rest hbrace hdollar hname => exact Nat.lt_succ_self _

/-- The number of characters is fuel enough. -/
theorem pieces_eq_of_le {fuel fuel' : Nat} (h : s.length ≤ fuel) (h' : s.length ≤ fuel') :
    pieces fuel s = pieces fuel' s := by
  induction fuel generalizing fuel' s with
  | zero =>
      obtain rfl := List.length_eq_zero_iff.mp (Nat.le_zero.mp h)
      rw [pieces_nil, pieces_nil]
  | succ fuel ih =>
      by_cases hs : s = []
      · rw [hs, pieces_nil, pieces_nil]
      · have hrest := length_readPiece hs
        cases fuel' with
        | zero => omega
        | succ fuel' =>
            rw [pieces_succ, pieces_succ]
            exact congrArg _ (ih (by omega) (by omega))

/-- The pieces of a whole text. -/
def piecesOf (s : List Char) : List Piece := pieces s.length s

theorem piecesOf_eq (h : s ≠ []) : piecesOf s = (readPiece s).1 ++ piecesOf (readPiece s).2 := by
  have hrest := length_readPiece h
  rw [piecesOf, pieces_eq_of_le (Nat.le_refl _) (Nat.le_succ _), pieces_succ]
  exact congrArg _ (pieces_eq_of_le (Nat.le_of_lt hrest) (Nat.le_refl _))

/-- **`LeavesOpen s`** — the brace behind some dollar sign is never closed. -/
def LeavesOpen (s : List Char) : Prop := ∃ rest, '$' :: '{' :: rest <:+ s ∧ '}' ∉ rest

theorem LeavesOpen.of_suffix (hsuffix : a <:+ s) (h : LeavesOpen a) : LeavesOpen s := by
  obtain ⟨rest, hrest, hopen⟩ := h
  exact ⟨rest, hrest.trans hsuffix, hopen⟩

theorem takeWhile_append_slash (a b : List Char) :
    (a ++ '/' :: b).takeWhile isNameCharacter = a.takeWhile isNameCharacter := by
  have hslash : isNameCharacter '/' = false := by decide
  induction a with
  | nil => rw [List.nil_append, List.takeWhile_cons_of_neg (by simp [hslash]), List.takeWhile_nil]
  | cons c a ih => rw [List.cons_append, List.takeWhile_cons, List.takeWhile_cons, ih]

/-- No slash is the sign that would make a dollar sign something else. -/
theorem append_slash_ne_cons {c : Char} (hc : '/' ≠ c) (h : ∀ t, a ≠ c :: t) (t : List Char) :
    a ++ '/' :: b ≠ c :: t := by
  cases a with
  | nil => exact fun heq => hc (List.cons.inj heq).1
  | cons d rest => exact fun heq => h rest (congrArg (· :: rest) (List.cons.inj heq).1)

/-- What comes next in a text does not depend on what stands behind a slash. -/
theorem readPiece_append_slash (ha : a ≠ []) (hopen : LeavesOpen a → '}' ∉ b) :
    readPiece (a ++ '/' :: b) = ((readPiece a).1, (readPiece a).2 ++ '/' :: b) := by
  fun_cases readPiece a with
  | case1 => exact absurd rfl ha
  | case2 rest inner after h =>
      simp only [List.cons_append, readPiece, Text.breakOn?_singleton_append h]
  | case3 rest h =>
      -- The brace is closed neither in front of the slash nor behind it.
      have hrest := Text.breakOn?_singleton_eq_none_iff.mp h
      have hnone : Text.breakOn? ['}'] (rest ++ '/' :: b) = none := by
        rw [Text.breakOn?_singleton_eq_none_iff, List.mem_append, List.mem_cons]
        rintro (hmem | hslash | hmem)
        · exact hrest hmem
        · exact absurd hslash (by decide)
        · exact hopen ⟨rest, List.suffix_rfl, hrest⟩ hmem
      simp only [List.cons_append, readPiece, hnone]
  | case4 rest => rfl
  | case5 rest hbrace hdollar h =>
      have hbrace' := append_slash_ne_cons (b := b) (by decide) hbrace
      have hdollar' := append_slash_ne_cons (b := b) (by decide) hdollar
      rw [← takeWhile_append_slash rest b] at h
      simp only [List.cons_append, readPiece, h]
  | case6 rest hbrace hdollar hname =>
      have hbrace' := append_slash_ne_cons (b := b) (by decide) hbrace
      have hdollar' := append_slash_ne_cons (b := b) (by decide) hdollar
      have hlength : (rest.takeWhile isNameCharacter).length ≤ rest.length :=
        (List.takeWhile_prefix isNameCharacter).length_le
      simp only [List.cons_append, readPiece, takeWhile_append_slash,
        List.drop_append_of_le_length hlength]
  | case7 c rest hbrace hdollar hname =>
      exact readPiece_cons_of_ne hname (rest ++ '/' :: b)

/-- **`piecesOf_append_slash`** — what a slash divides is taken apart independently. -/
theorem piecesOf_append_slash (hopen : LeavesOpen a → '}' ∉ b) :
    piecesOf (a ++ '/' :: b) = piecesOf a ++ .plain '/' :: piecesOf b := by
  induction hn : a.length using Nat.strongRecOn generalizing a with
  | ind n ih =>
      by_cases ha : a = []
      · -- The slash comes next, and it is a piece of its own.
        subst ha
        exact piecesOf_eq (List.cons_ne_nil '/' b)
      · have hrest := length_readPiece ha
        rw [piecesOf_eq (List.append_ne_nil_of_left_ne_nil ha _), piecesOf_eq ha,
          readPiece_append_slash ha hopen, List.append_assoc]
        exact congrArg _ (ih _ (hn ▸ hrest) (fun h => hopen (h.of_suffix (suffix_readPiece a))) rfl)

theorem piecesOf_of_not_mem (h : '$' ∉ s) : piecesOf s = s.map .plain := by
  induction s with
  | nil => rfl
  | cons c rest ih =>
      rw [List.mem_cons, not_or] at h
      rw [piecesOf_eq (List.cons_ne_nil c rest), readPiece_cons_of_ne (Ne.symm h.1), ih h.2]
      rfl

/-! ## §B Values -/

/-- What a piece stands for, if it does for something. -/
def Piece.value? (environment : Environment) : Piece → Option (List Char)
  | .plain c => some [c]
  | .variable name fallback => ((environment.get? name).map String.toList).or fallback

theorem Piece.toOption_value (path : Path) (piece : Piece) :
    (piece.value environment path).toOption = piece.value? environment := by
  cases piece with
  | plain c => rfl
  | «variable» name fallback =>
      simp only [Piece.value, Piece.value?]
      cases environment.get? name with
      | some value => rfl
      | none => cases fallback <;> rfl

/-- What pieces stand for all together. -/
def valueOf? (environment : Environment) : List Piece → Option (List Char)
  | [] => some []
  | piece :: rest =>
    (piece.value? environment).bind fun value => (valueOf? environment rest).map (value ++ ·)

theorem valueOf?_append (ps qs : List Piece) : valueOf? environment (ps ++ qs)
    = (valueOf? environment ps).bind fun value => (valueOf? environment qs).map (value ++ ·) := by
  induction ps with
  | nil => simp [valueOf?]
  | cons p ps ih =>
      rw [List.cons_append, valueOf?, valueOf?, ih]
      cases p.value? environment with
      | none => rfl
      | some value => cases valueOf? environment ps <;> simp [Function.comp_def]

theorem valueOf?_map_plain (s : List Char) : valueOf? environment (s.map .plain) = some s := by
  induction s with
  | nil => rfl
  | cons c rest ih =>
      rw [List.map_cons, valueOf?, ih]
      rfl

/-- The values in a path do not depend on the path that an error would name. -/
theorem toOption_substituted :
    (substituted environment path).toOption = valueOf? environment (piecesOf path.text.toList) := by
  have hpieces : ∀ ps : List Piece, ((ps.mapM (Piece.value environment path)).map List.flatten).toOption
      = valueOf? environment ps := by
    intro ps
    induction ps with
    | nil => rfl
    | cons p ps ih =>
        rw [valueOf?, ← p.toOption_value path, ← ih, List.mapM_cons]
        cases p.value environment path with
        | error e => rfl
        | ok value => cases ps.mapM (Piece.value environment path) <;> rfl
  rw [← hpieces]
  rfl

theorem substituted_eq_ok_iff : substituted environment path = .ok cs ↔
    valueOf? environment (piecesOf path.text.toList) = some cs := by
  rw [← toOption_substituted]
  cases substituted environment path with
  | error e => simp [Except.toOption]
  | ok value => simp [Except.toOption]

theorem valueOf?_append_slash (hopen : LeavesOpen a → '}' ∉ b) :
    valueOf? environment (piecesOf (a ++ '/' :: b)) = some cs ↔
      ∃ x y, valueOf? environment (piecesOf a) = some x ∧ valueOf? environment (piecesOf b) = some y ∧
        cs = x ++ '/' :: y := by
  have hbehind : valueOf? environment (.plain '/' :: piecesOf b)
      = (valueOf? environment (piecesOf b)).map ('/' :: ·) := rfl
  rw [piecesOf_append_slash hopen, valueOf?_append, hbehind, Option.bind_eq_some_iff]
  simp only [Option.map_map, Option.map_eq_some_iff, Function.comp_apply]
  constructor
  · rintro ⟨x, hx, y, hy, h⟩
    exact ⟨x, y, hx, hy, h.symm⟩
  · rintro ⟨x, y, hx, hy, h⟩
    exact ⟨x, hx, y, hy, h.symm⟩

/-! ## §C Expansion -/

/-- Values `cs` of the text `s`, with a tilde that `s` begins with as the home directory. -/
def homed (environment : Environment) (s cs : List Char) : List Char :=
  if ['~'] <+: s then tilde environment cs else cs

theorem tilde_of_no_home (h : home? environment = none) (cs : List Char) : tilde environment cs = cs := by
  simp [tilde, h]

theorem tilde_of_not_begins (h : ¬ ['~'] <+: cs) : tilde environment cs = cs := by
  unfold tilde
  split <;> simp_all

/-- The home directory takes the place of a tilde that stands alone or in front of a slash. -/
theorem tilde_cons {home : String} (h : home? environment = some home) (rest : List Char) :
    tilde environment ('~' :: rest)
      = if rest = [] ∨ ['/'] <+: rest then home.toList ++ rest else '~' :: rest := by
  cases rest with
  | nil => simp [tilde, h]
  | cons c rest =>
      by_cases hc : c = '/'
      · subst hc
        simp [tilde, h]
      · simp [tilde, h, hc, Ne.symm hc]

theorem tilde_append_slash (a b : List Char) :
    tilde environment (a ++ '/' :: b) = tilde environment a ++ '/' :: b := by
  cases hhome : home? environment with
  | none => rw [tilde_of_no_home hhome, tilde_of_no_home hhome]
  | some home =>
      cases a with
      | nil => simp [tilde]
      | cons c rest =>
          by_cases hc : c = '~'
          · subst hc
            rw [List.cons_append, tilde_cons hhome, tilde_cons hhome]
            cases rest with
            | nil => simp
            | cons d rest => by_cases hd : d = '/' <;> simp [hd, eq_comm]
          · rw [tilde_of_not_begins (by simp [Ne.symm hc]), tilde_of_not_begins (by simp [Ne.symm hc])]

theorem homed_append_slash (s t a b : List Char) :
    homed environment (s ++ '/' :: t) (a ++ '/' :: b) = homed environment s a ++ '/' :: b := by
  have hbegins : ['~'] <+: s ++ '/' :: t ↔ ['~'] <+: s := by
    cases s with
    | nil => simp
    | cons c s => simp
  unfold homed
  simp only [hbegins, tilde_append_slash]
  split <;> rfl

/-- **`expand_eq_ok_iff`** — a path is expanded if all its variables have values. -/
theorem expand_eq_ok_iff {e : Path} : expand environment path = .ok e ↔
    ∃ cs, substituted environment path = .ok cs ∧
      e.text.toList = homed environment path.text.toList cs := by
  have hhomed : ∀ cs : List Char,
      (if (Text.dropHead? ['~'] cs).isSome && !(Text.dropHead? ['~'] path.text.toList).isSome
        then cs else tilde environment cs) = homed environment path.text.toList cs := by
    intro cs
    simp only [homed, Bool.and_eq_true, Bool.not_eq_true', Bool.eq_false_iff, Text.isSome_dropHead?_iff,
      ne_eq]
    by_cases hwritten : ['~'] <+: path.text.toList
    · simp [hwritten]
    · by_cases hvalue : ['~'] <+: cs
      · simp [hwritten, hvalue]
      · simp [hwritten, hvalue, tilde_of_not_begins hvalue]
  cases hvalues : substituted environment path with
  | error cause => simp [expand, hvalues, bind, Except.bind]
  | ok cs =>
      have hexpand : expand environment path
          = .ok ⟨String.ofList (homed environment path.text.toList cs)⟩ := by
        rw [← hhomed, expand, hvalues]
        simp only [bind, Except.bind, pure, Except.pure]
        split <;> rfl
      rw [hexpand]
      constructor
      · intro h
        obtain rfl := Except.ok.inj h
        exact ⟨cs, rfl, String.toList_ofList⟩
      · rintro ⟨cs', hcs, he⟩
        obtain rfl := Except.ok.inj hcs
        rw [← he, String.ofList_toList]

/-- **`IsFixed p`** — there is nothing in the path that expansion would replace. -/
def IsFixed (p : Path) : Prop := '$' ∉ p.text.toList ∧ ¬ ['~'] <+: p.text.toList

theorem substituted_of_not_mem (h : '$' ∉ path.text.toList) :
    substituted environment path = .ok path.text.toList := by
  rw [substituted_eq_ok_iff, piecesOf_of_not_mem h, valueOf?_map_plain]

theorem IsFixed.expand_eq (h : IsFixed path) : expand environment path = .ok path := by
  refine expand_eq_ok_iff.mpr ⟨_, substituted_of_not_mem h.1, ?_⟩
  rw [homed, if_neg h.2]

theorem IsFixed.not_leavesOpen (h : IsFixed path) : ¬ LeavesOpen path.text.toList := by
  rintro ⟨rest, hsuffix, -⟩
  exact h.1 (hsuffix.subset List.mem_cons_self)

/-! ## §D Joined paths -/

end Expansion

namespace Path

variable {base next : Path}

/-- What `join` puts between a path and what is seen from it. -/
def gap (base : Path) : String :=
  if base.text.isEmpty || (Text.dropTail? [slash] base.text.toList).isSome then "" else "/"

theorem join_of_relative (h : next.isAbsolute = false) :
    base.join next = ⟨base.text ++ base.gap ++ next.text⟩ := by
  rw [join, gap, h, if_neg Bool.false_ne_true]
  split
  · rw [String.append_empty]
  · rfl

theorem exists_append_gap (base : Path) (cs : List Char) :
    ∃ d : Path, d.text.toList ++ base.gap.toList = cs ++ [slash] := by
  unfold gap
  split
  · exact ⟨⟨String.ofList (cs ++ [slash])⟩, by rw [String.toList_ofList]; exact List.append_nil _⟩
  · exact ⟨⟨String.ofList cs⟩, by rw [String.toList_ofList]; rfl⟩

/-- A path and the gap behind it end in a slash, which is one or the other's. -/
theorem exists_front (hbase : base.text.toList ≠ []) :
    ∃ front, base.text.toList ++ base.gap.toList = front ++ [slash] ∧
      (base.text.toList = front ∨ base.text.toList = front ++ [slash]) := by
  have hempty : base.text.isEmpty = false := by
    rw [Bool.eq_false_iff]
    intro h
    exact hbase (by rw [String.isEmpty_iff.mp h]; rfl)
  rw [gap, hempty, Bool.false_or]
  cases htail : Text.dropTail? [slash] base.text.toList with
  | none => exact ⟨base.text.toList, rfl, Or.inl rfl⟩
  | some front =>
      have hfront := Text.dropTail?_eq_some_iff.mp htail
      exact ⟨front, (List.append_nil _).trans hfront, Or.inr hfront⟩

end Path

namespace Expansion

theorem LeavesOpen.append_slash (h : LeavesOpen a) : LeavesOpen (a ++ ['/']) := by
  obtain ⟨rest, ⟨front, hfront⟩, hopen⟩ := h
  refine ⟨rest ++ ['/'], ⟨front, ?_⟩, ?_⟩
  · rw [← hfront]
    simp
  · simpa using hopen

theorem expand_of_slash {front behind : List Char} {e : Path}
    (hpath : path.text.toList = front ++ '/' :: behind) (hopen : LeavesOpen front → '}' ∉ behind) :
    expand environment path = .ok e ↔
      ∃ x y, valueOf? environment (piecesOf front) = some x ∧
        valueOf? environment (piecesOf behind) = some y ∧
        e.text.toList = homed environment front x ++ '/' :: y := by
  simp only [expand_eq_ok_iff, substituted_eq_ok_iff, hpath, valueOf?_append_slash hopen]
  constructor
  · rintro ⟨_, ⟨x, y, hx, hy, rfl⟩, he⟩
    exact ⟨x, y, hx, hy, by rw [he, homed_append_slash]⟩
  · rintro ⟨x, y, hx, hy, he⟩
    exact ⟨_, ⟨x, y, hx, hy, rfl⟩, by rw [he, homed_append_slash]⟩

/-- **`expand_join_eq_ok_iff`** — below a directory only the variables of a path count, and the path stays
there whatever their values are. -/
theorem expand_join_eq_ok_iff {dir p e : Path} (hdir : dir.text.toList ≠ [])
    (hp : p.isAbsolute = false) (hopen : LeavesOpen dir.text.toList → '}' ∉ p.text.toList) :
    expand environment (dir.join p) = .ok e ↔
      ∃ d values, expand environment dir = .ok d ∧ substituted environment p = .ok values ∧
        e = ⟨d.text ++ dir.gap ++ String.ofList values⟩ := by
  obtain ⟨front, hgap, hfront⟩ := Path.exists_front hdir
  have htext : (dir.join p).text.toList = front ++ '/' :: p.text.toList := by
    rw [Path.join_of_relative hp, String.toList_append, String.toList_append, hgap, List.append_assoc]
    rfl
  have hopen' : LeavesOpen front → '}' ∉ p.text.toList := by
    intro h
    rcases hfront with hfront | hfront
    · exact hopen (hfront ▸ h)
    · exact hopen (hfront ▸ h.append_slash)
  have hd : ∀ d : Path, expand environment dir = .ok d ↔ ∃ x,
      valueOf? environment (piecesOf front) = some x ∧
        d.text.toList ++ dir.gap.toList = homed environment front x ++ ['/'] := by
    intro d
    -- The slash is the gap's, or it is the last character of the directory.
    rcases hfront with hfront | hfront
    · rw [hfront] at hgap
      have hslash : dir.gap.toList = ['/'] := List.append_cancel_left hgap
      simp only [expand_eq_ok_iff, substituted_eq_ok_iff, hfront, hslash, List.append_left_inj]
    · rw [hfront] at hgap
      have hslash := List.append_right_eq_self.mp hgap
      rw [expand_of_slash hfront fun _ => List.not_mem_nil, hslash, List.append_nil]
      exact ⟨fun ⟨x, _, hx, hnil, hd⟩ => ⟨x, hx, Option.some.inj hnil ▸ hd⟩,
        fun ⟨x, hx, hd⟩ => ⟨x, [], hx, rfl, hd⟩⟩
  rw [expand_of_slash htext hopen']
  constructor
  · rintro ⟨x, values, hx, hvalues, he⟩
    obtain ⟨d, hdx⟩ := dir.exists_append_gap (homed environment front x)
    refine ⟨d, values, (hd d).mpr ⟨x, hx, hdx⟩, substituted_eq_ok_iff.mpr hvalues, ?_⟩
    rw [Path.mk.injEq, ← String.toList_inj, he, String.toList_append, String.toList_append,
      String.toList_ofList, hdx, List.append_assoc]
    rfl
  · rintro ⟨d, values, hexpand, hvalues, rfl⟩
    obtain ⟨x, hx, hdx⟩ := (hd d).mp hexpand
    refine ⟨x, values, hx, substituted_eq_ok_iff.mp hvalues, ?_⟩
    rw [String.toList_append, String.toList_append, String.toList_ofList, hdx, List.append_assoc]
    rfl

/-- A joined path has nothing to replace if the directory has not and the path below it names no variable. -/
theorem isFixed_join_iff {dir p : Path} (hdir : dir.text.toList ≠ []) (hp : p.isAbsolute = false) :
    IsFixed (dir.join p) ↔ IsFixed dir ∧ '$' ∉ p.text.toList := by
  have hgap : '$' ∉ dir.gap.toList := by
    unfold Path.gap
    split <;> decide
  obtain ⟨c, cs, hcs⟩ := List.exists_cons_of_ne_nil hdir
  have hbegins : ['~'] <+: (dir.join p).text.toList ↔ ['~'] <+: dir.text.toList := by
    rw [Path.join_of_relative hp, String.toList_append, String.toList_append, hcs]
    simp
  have hdollar : '$' ∈ (dir.join p).text.toList ↔ '$' ∈ dir.text.toList ∨ '$' ∈ p.text.toList := by
    rw [Path.join_of_relative hp, String.toList_append, String.toList_append, List.mem_append,
      List.mem_append, or_iff_left hgap]
  rw [IsFixed, IsFixed, hbegins, hdollar, not_or]
  exact and_right_comm

end Expansion

end PluginVet
