/-
# PluginVet.Proofs.Yaml.Event — one document for each document start

A node is read without a document start being taken and without a document being begun or ended
(`Grammar.quietNodes`): `Quiet` says so of a step, and each function of the grammar is put together from
steps that are. So a document that was begun is read to its end (`Grammar.Reads.one`), and a stream to the
end of its tokens (`Grammar.readsAll_documents`). With what the tokens are, the events of a text are those of
the documents that its lines show (`events_spec`).

§A results, §B steps within a document, §C nodes, §D documents, §E streams.
-/
import PluginVet.Proofs.Yaml.Tokenize

namespace PluginVet.Yaml

/-- An event within a document. -/
def Event.isContent : Event → Bool
  | .documentStart => false
  | .documentEnd => false
  | _ => true

namespace Grammar

variable {α β : Type} {x : Grammar α} {f : α → Grammar β} {k : Grammar β} {a a' : α} {b : β}
  {t : Token} {e : Event} {u : Unit} {r r' r'' : Reader} {fuel : Nat}

/-! ## §A Results -/

/-- What a step makes of a reader. -/
def outcome (x : Grammar α) (r : Reader) : Except Trouble α × Reader := x.run r

/-- **`Gives x r a r'`** — the step succeeds with `a` and leaves `r'`. -/
def Gives (x : Grammar α) (r : Reader) (a : α) (r' : Reader) : Prop := outcome x r = (.ok a, r')

theorem outcome_bind (x : Grammar α) (f : α → Grammar β) (r : Reader) : outcome (x >>= f) r =
    match outcome x r with
    | (.ok a, r₁) => outcome (f a) r₁
    | (.error t, r₁) => (.error t, r₁) := by
  change (ExceptT.bindCont f (outcome x r).1 : StateM Reader (Except Trouble β)) (outcome x r).2 = _
  rcases outcome x r with ⟨t | a, r₁⟩ <;> rfl

theorem gives_bind_iff : Gives (x >>= f) r b r' ↔ ∃ a r₁, Gives x r a r₁ ∧ Gives (f a) r₁ b r' := by
  unfold Gives
  rw [outcome_bind]
  rcases outcome x r with ⟨t | a, r₁⟩
  · simp
  · simp [and_assoc]

theorem gives_pure_iff : Gives (pure a) r a' r' ↔ a = a' ∧ r = r' := by
  change ((Except.ok a, r) : Except Trouble α × Reader) = _ ↔ _
  simp

theorem not_gives_throw {trouble : Trouble} : ¬ Gives (throw trouble : Grammar α) r a r' := by
  intro h
  cases h

theorem gives_peek_iff : Gives peek r t r' ↔ r.tokens.head? = some t ∧ r = r' := by
  rcases r with ⟨tokens, trouble, handles, events⟩
  cases tokens with
  | nil =>
      change ((Except.error trouble, _) : Except Trouble Token × Reader) = _ ↔ _
      simp
  | cons t' tokens =>
      change ((Except.ok t', _) : Except Trouble Token × Reader) = _ ↔ _
      simp

theorem gives_advance_iff : Gives advance r u r' ↔ { r with tokens := r.tokens.drop 1 } = r' := by
  change ((Except.ok (), _) : Except Trouble Unit × Reader) = _ ↔ _
  simp

theorem gives_emit_iff : Gives (emit e) r u r' ↔ { r with events := e :: r.events } = r' := by
  change ((Except.ok (), _) : Except Trouble Unit × Reader) = _ ↔ _
  simp

theorem gives_get_iff : Gives get r r'' r' ↔ r = r'' ∧ r = r' := by
  change ((Except.ok r, r) : Except Trouble Reader × Reader) = _ ↔ _
  simp

/-! ## §B Steps within a document -/

/-- **`Passes r r'`** — some tokens are taken, none of which starts a document, and some events are
emitted, none of which begins or ends one. -/
structure Passes (r r' : Reader) : Prop where
  tokens : ∃ taken, r.tokens = taken ++ r'.tokens ∧ ∀ t ∈ taken, t.kind ≠ .documentStart
  events : ∃ given, r'.events = given ++ r.events ∧ ∀ e ∈ given, e.isContent = true

theorem Passes.refl (r : Reader) : Passes r r := ⟨⟨[], rfl, nofun⟩, ⟨[], rfl, nofun⟩⟩

theorem Passes.trans (h : Passes r r') (h' : Passes r' r'') : Passes r r'' := by
  obtain ⟨⟨taken, htokens, htaken⟩, given, hevents, hgiven⟩ := h
  obtain ⟨⟨taken', htokens', htaken'⟩, given', hevents', hgiven'⟩ := h'
  refine ⟨⟨taken ++ taken', ?_, ?_⟩, ⟨given' ++ given, ?_, ?_⟩⟩
  · rw [htokens, htokens', List.append_assoc]
  · exact List.forall_mem_append.mpr ⟨htaken, htaken'⟩
  · rw [hevents', hevents, List.append_assoc]
  · exact List.forall_mem_append.mpr ⟨hgiven', hgiven⟩

/-- **`Quiet x`** — if the step succeeds, it stays within a document. -/
def Quiet (x : Grammar α) : Prop := ∀ r a r', Gives x r a r' → Passes r r'

/-- **`QuietAt t x`** — the same where `t` is the next token. -/
def QuietAt (t : Token) (x : Grammar α) : Prop :=
  ∀ r a r', r.tokens.head? = some t → Gives x r a r' → Passes r r'

theorem Quiet.at (h : Quiet x) (t : Token) : QuietAt t x := fun r a r' _ => h r a r'

theorem Quiet.pure (a : α) : Quiet (pure a : Grammar α) := by
  intro r a' r' h
  obtain ⟨-, rfl⟩ := gives_pure_iff.mp h
  exact .refl r

theorem Quiet.throw (trouble : Trouble) : Quiet (throw trouble : Grammar α) :=
  fun _ _ _ h => absurd h not_gives_throw

theorem Quiet.refuse {problem : Problem} {construct : Construct} {began mark : Mark} :
    Quiet (refuse problem construct began mark : Grammar α) := .throw _

theorem Quiet.emit (h : e.isContent = true) : Quiet (emit e) := by
  intro r u r' hgives
  obtain rfl := gives_emit_iff.mp hgives
  exact ⟨⟨[], rfl, nofun⟩, ⟨[e], rfl, List.forall_mem_singleton.mpr h⟩⟩

theorem Quiet.bind (hx : Quiet x) (hf : ∀ a, Quiet (f a)) : Quiet (x >>= f) := by
  intro r b r' h
  obtain ⟨a, r₁, hfirst, hrest⟩ := gives_bind_iff.mp h
  exact (hx r a r₁ hfirst).trans (hf a r₁ b r' hrest)

theorem Quiet.ite {p : Bool} {y : Grammar α} (hx : Quiet x) (hy : Quiet y) :
    Quiet (if p then x else y) := by
  split
  · exact hx
  · exact hy

theorem Quiet.emitNothing {mark : Mark} : Quiet (emitNothing mark) := .emit rfl

/-- Whatever token is next. -/
theorem Quiet.peek {next : Token → Grammar β} (h : ∀ t, QuietAt t (next t)) : Quiet (peek >>= next) := by
  intro r b r' hgives
  obtain ⟨t, r₁, hpeek, hrest⟩ := gives_bind_iff.mp hgives
  obtain ⟨hhead, rfl⟩ := gives_peek_iff.mp hpeek
  exact h t r b r' hhead hrest

theorem QuietAt.peek {next : Token → Grammar β} (h : QuietAt t (next t)) : QuietAt t (peek >>= next) := by
  intro r b r' hhead hgives
  obtain ⟨t', r₁, hpeek, hrest⟩ := gives_bind_iff.mp hgives
  obtain ⟨hhead', rfl⟩ := gives_peek_iff.mp hpeek
  obtain rfl := Option.some.inj (hhead.symm.trans hhead')
  exact h r b r' hhead hrest

theorem QuietAt.bind (hx : QuietAt t x) (hf : ∀ a, Quiet (f a)) : QuietAt t (x >>= f) := by
  intro r b r' hhead h
  obtain ⟨a, r₁, hfirst, hrest⟩ := gives_bind_iff.mp h
  exact (hx r a r₁ hhead hfirst).trans (hf a r₁ b r' hrest)

/-- The next token is taken. -/
theorem QuietAt.advance (ht : t.kind ≠ .documentStart) : QuietAt t advance := by
  intro r u r' hhead hgives
  obtain ⟨rest, hrest⟩ := List.head?_eq_some_iff.mp hhead
  obtain rfl := gives_advance_iff.mp hgives
  refine ⟨⟨[t], ?_, List.forall_mem_singleton.mpr ht⟩, ⟨[], rfl, nofun⟩⟩
  rw [hrest]
  rfl

/-- An event is emitted in front of the next token. -/
theorem QuietAt.emit (he : e.isContent = true) (hk : QuietAt t k) :
    QuietAt t (emit e >>= fun _ => k) := by
  intro r b r' hhead h
  obtain ⟨u, r₁, hfirst, hrest⟩ := gives_bind_iff.mp h
  have hpasses := Quiet.emit he r u r₁ hfirst
  obtain rfl := gives_emit_iff.mp hfirst
  exact hpasses.trans (hk _ b r' hhead hrest)

/-! ## §C Nodes -/

theorem quiet_resolveTag {began mark : Mark} {handle suffix : String} :
    Quiet (resolveTag began mark handle suffix) := by
  unfold resolveTag
  split
  · exact .pure _
  · intro r b r' h
    obtain ⟨r₁, r₂, hget, h⟩ := gives_bind_iff.mp h
    obtain ⟨rfl, rfl⟩ := gives_get_iff.mp hget
    split at h
    · exact Quiet.pure _ r b r' h
    · exact Quiet.refuse r b r' h

theorem quietAt_properties (first : Token) : QuietAt first (properties first) := by
  unfold properties
  split
  · rename_i name hkind
    refine .bind (.advance (by rw [hkind]; nofun)) fun _ => .peek fun next => ?_
    split
    · rename_i handle suffix hnext
      refine .bind (.advance (by rw [hnext]; nofun)) fun _ => .peek fun t => Quiet.at ?_ t
      exact quiet_resolveTag.bind fun _ => .pure _
    · exact Quiet.at (.pure _) next
  · rename_i handle suffix hkind
    refine .bind (.advance (by rw [hkind]; nofun)) fun _ => .peek fun next => ?_
    split
    · rename_i name hnext
      refine .bind (.advance (by rw [hnext]; nofun)) fun _ => .peek fun t => Quiet.at ?_ t
      exact quiet_resolveTag.bind fun _ => .pure _
    · exact Quiet.at (quiet_resolveTag.bind fun _ => .pure _) next
  · exact Quiet.at (.pure _) first

/-- **`QuietNodes fuel`** — the nodes and collections that so much fuel reads stay within a document. -/
structure QuietNodes (fuel : Nat) : Prop where
  node : ∀ block indentless, Quiet (node fuel block indentless)
  blockSequence : ∀ began, Quiet (blockSequence fuel began)
  indentlessSequence : Quiet (indentlessSequence fuel)
  blockMapping : ∀ began, Quiet (blockMapping fuel began)
  blockValue : Quiet (blockValue fuel)
  flowSequence : ∀ first began, Quiet (flowSequence fuel first began)
  flowPair : Quiet (flowPair fuel)
  flowMapping : ∀ first began, Quiet (flowMapping fuel first began)
  flowValue : Quiet (flowValue fuel)

/-- Entries of a flow collection are separated by commas. -/
theorem quietAt_separated {first : Bool} {t : Token} {kind : TokenKind} {problem : Problem}
    {construct : Construct} {began mark : Mark} (hkind : t.kind = kind) {rest : Unit → Grammar Unit}
    (hrest : Quiet (rest ())) : QuietAt t (if !first then
      if kind == .flowEntry then advance >>= rest else refuse problem construct began mark >>= rest
      else rest ()) := by
  split
  · split
    · rename_i hentry
      refine .bind (.advance ?_) fun _ => hrest
      rw [hkind, beq_iff_eq.mp hentry]
      nofun
    · exact Quiet.at (.bind .refuse fun _ => hrest) t
  · exact hrest.at t

theorem kind_of_beq {kind : TokenKind} {p : Bool} (h : (p && t.kind == kind) = true)
    (hkind : kind ≠ .documentStart) : t.kind ≠ .documentStart := by
  rw [beq_iff_eq.mp (Bool.and_eq_true_iff.mp h).2]
  exact hkind

theorem kind_of_opensNothing {ends : List TokenKind} (h : opensNothing ends t = true)
    (hends : .documentStart ∉ ends) : t.kind ≠ .documentStart := by
  intro hkind
  obtain ⟨kind, hmem, heq⟩ := List.any_eq_true.mp h
  rw [beq_iff_eq.mp heq, hkind] at hmem
  exact hends hmem

section Nodes

variable (h : QuietNodes fuel)
include h

theorem QuietNodes.node_succ (block indentless : Bool) : Quiet (Grammar.node (fuel + 1) block indentless) := by
  rw [Grammar.node]
  refine .peek fun first => ?_
  split
  · rename_i name hkind
    exact .emit rfl (.advance (by rw [hkind]; nofun))
  · refine (quietAt_properties first).bind fun ⟨props, began, _⟩ => .peek fun t => ?_
    split
    · rename_i text style hkind
      exact .emit rfl (.advance (by rw [hkind]; nofun))
    · rename_i hkind
      exact .emit rfl (.bind (.advance (by rw [hkind]; nofun)) fun _ => h.flowSequence true t.start)
    · rename_i hkind
      exact .emit rfl (.bind (.advance (by rw [hkind]; nofun)) fun _ => h.flowMapping true t.start)
    · split
      · exact .emit rfl (h.indentlessSequence.at t)
      · split
        · rename_i hopens
          exact .emit rfl (.bind (.advance (kind_of_beq hopens nofun)) fun _ => h.blockSequence t.start)
        · split
          · rename_i hopens
            exact .emit rfl (.bind (.advance (kind_of_beq hopens nofun)) fun _ => h.blockMapping t.start)
          · split
            · exact Quiet.at (.emit rfl) t
            · exact Quiet.at .refuse t

theorem QuietNodes.blockSequence_succ (began : Mark) :
    Quiet (Grammar.blockSequence (fuel + 1) began) := by
  rw [Grammar.blockSequence]
  refine .peek fun t => ?_
  split
  · rename_i hkind
    refine .bind (.advance (by rw [hkind]; nofun)) fun _ => .peek fun next => Quiet.at ?_ next
    exact .ite (.bind .emitNothing fun _ => h.blockSequence began)
      (.bind (h.node true false) fun _ => h.blockSequence began)
  · rename_i hkind
    exact .emit rfl (.advance (by rw [hkind]; nofun))
  · exact Quiet.at .refuse t

theorem QuietNodes.indentlessSequence_succ : Quiet (Grammar.indentlessSequence (fuel + 1)) := by
  rw [Grammar.indentlessSequence]
  refine .peek fun t => ?_
  split
  · rename_i hkind
    refine .bind (.advance (by rw [hkind]; nofun)) fun _ => .peek fun next => Quiet.at ?_ next
    exact .ite (.bind .emitNothing fun _ => h.indentlessSequence)
      (.bind (h.node true false) fun _ => h.indentlessSequence)
  · exact Quiet.at (.emit rfl) t

theorem QuietNodes.blockMapping_succ (began : Mark) :
    Quiet (Grammar.blockMapping (fuel + 1) began) := by
  have hrest : Quiet (Grammar.blockValue fuel >>= fun _ => Grammar.blockMapping fuel began) :=
    .bind h.blockValue fun _ => h.blockMapping began
  rw [Grammar.blockMapping]
  refine .peek fun t => ?_
  split
  · rename_i hkind
    refine .bind (.advance (by rw [hkind]; nofun)) fun _ => .peek fun next => Quiet.at ?_ next
    exact .ite (.bind .emitNothing fun _ => hrest) (.bind (h.node true true) fun _ => hrest)
  · rename_i hkind
    exact .emit rfl (.advance (by rw [hkind]; nofun))
  · exact Quiet.at .refuse t

theorem QuietNodes.blockValue_succ : Quiet (Grammar.blockValue (fuel + 1)) := by
  rw [Grammar.blockValue]
  refine .peek fun t => ?_
  split
  · rename_i hkind
    refine .bind (.advance (by rw [hkind]; nofun)) fun _ => .peek fun next => Quiet.at ?_ next
    exact .ite .emitNothing (h.node true true)
  · exact Quiet.at .emitNothing t

theorem QuietNodes.flowValue_succ : Quiet (Grammar.flowValue (fuel + 1)) := by
  rw [Grammar.flowValue]
  refine .peek fun t => ?_
  split
  · rename_i hkind
    refine .bind (.advance (by rw [hkind]; nofun)) fun _ => .peek fun next => Quiet.at ?_ next
    exact .ite .emitNothing (h.node false false)
  · exact Quiet.at .emitNothing t

theorem QuietNodes.flowSequence_succ (first : Bool) (began : Mark) :
    Quiet (Grammar.flowSequence (fuel + 1) first began) := by
  rw [Grammar.flowSequence]
  refine .peek fun t => ?_
  split
  · rename_i hkind
    exact .emit rfl (.advance (by rw [hkind]; nofun))
  · refine quietAt_separated rfl (.peek fun t => ?_)
    split
    · rename_i hkind
      exact .emit rfl (.bind (.advance (by rw [hkind]; nofun)) fun _ =>
        .bind h.flowPair fun _ => h.flowSequence false began)
    · rename_i hkind
      exact .emit rfl (.advance (by rw [hkind]; nofun))
    · exact Quiet.at (.bind (h.node false false) fun _ => h.flowSequence false began) t

theorem QuietNodes.flowMapping_succ (first : Bool) (began : Mark) :
    Quiet (Grammar.flowMapping (fuel + 1) first began) := by
  have hrest : Quiet (Grammar.flowValue fuel >>= fun _ => Grammar.flowMapping fuel false began) :=
    .bind h.flowValue fun _ => h.flowMapping false began
  rw [Grammar.flowMapping]
  refine .peek fun t => ?_
  split
  · rename_i hkind
    exact .emit rfl (.advance (by rw [hkind]; nofun))
  · refine quietAt_separated rfl (.peek fun t => ?_)
    split
    · rename_i hkind
      refine .bind (.advance (by rw [hkind]; nofun)) fun _ => .peek fun next => Quiet.at ?_ next
      exact .ite (.bind .emitNothing fun _ => hrest) (.bind (h.node false false) fun _ => hrest)
    · rename_i hkind
      exact .emit rfl (.advance (by rw [hkind]; nofun))
    · refine Quiet.at (.bind (h.node false false) fun _ => .peek fun next => Quiet.at ?_ next) t
      exact .bind .emitNothing fun _ => h.flowMapping false began

theorem QuietNodes.flowPair_succ : Quiet (Grammar.flowPair (fuel + 1)) := by
  rw [Grammar.flowPair]
  refine .peek fun t => ?_
  extract_lets finish value
  have hend : Quiet (finish ()) := .peek fun t => Quiet.at (.emit rfl) t
  have hvalue : Quiet (value ()) := by
    refine .peek fun t => ?_
    split
    · rename_i hkind
      refine .bind (.advance (by rw [hkind]; nofun)) fun _ => .peek fun next => Quiet.at ?_ next
      exact .ite (.bind .emitNothing fun _ => hend) (.bind (h.node false false) fun _ => hend)
    · exact Quiet.at (.bind .emitNothing fun _ => hend) t
  split
  · rename_i hnothing
    have hkind := kind_of_opensNothing hnothing (by decide)
    exact .emit rfl (.bind (.advance hkind) fun _ => hvalue)
  · exact Quiet.at (.bind (h.node false false) fun _ => hvalue) t

end Nodes

/-- **`quietNodes`** — nodes stay within a document. -/
theorem quietNodes (fuel : Nat) : QuietNodes fuel := by
  induction fuel with
  | zero =>
      exact ⟨fun _ _ => .pure (), fun _ => .pure (), .pure (), fun _ => .pure (), .pure (),
        fun _ _ => .pure (), .pure (), fun _ _ => .pure (), .pure ()⟩
  | succ fuel ih =>
      exact ⟨ih.node_succ, ih.blockSequence_succ, ih.indentlessSequence_succ, ih.blockMapping_succ,
        ih.blockValue_succ, ih.flowSequence_succ, ih.flowPair_succ, ih.flowMapping_succ,
        ih.flowValue_succ⟩

/-! ## §D Documents -/

theorem gives_modify_iff {g : Reader → Reader} : Gives (modify g) r u r' ↔ g r = r' := by
  change ((Except.ok (), _) : Except Trouble Unit × Reader) = _ ↔ _
  simp

/-- **`Skips r r'`** — some tokens are taken, none of which starts a document, and nothing is emitted. -/
structure Skips (r r' : Reader) : Prop where
  tokens : ∃ taken, r.tokens = taken ++ r'.tokens ∧ ∀ t ∈ taken, t.kind ≠ .documentStart
  events : r'.events = r.events

theorem Skips.refl (r : Reader) : Skips r r := ⟨⟨[], rfl, nofun⟩, rfl⟩

theorem Skips.one (hhead : r.tokens.head? = some t) (ht : t.kind ≠ .documentStart)
    (h : Skips { r with tokens := r.tokens.drop 1 } r') : Skips r r' := by
  obtain ⟨⟨taken, htokens, htaken⟩, hevents⟩ := h
  obtain ⟨rest, hrest⟩ := List.head?_eq_some_iff.mp hhead
  refine ⟨⟨t :: taken, ?_, List.forall_mem_cons.mpr ⟨ht, htaken⟩⟩, hevents⟩
  rw [hrest] at htokens ⊢
  rw [List.cons_append, ← htokens]
  rfl

theorem skips_skipDocumentEnds (h : Gives (skipDocumentEnds fuel) r u r') : Skips r r' := by
  induction fuel generalizing r with
  | zero =>
      obtain ⟨-, rfl⟩ := gives_pure_iff.mp h
      exact .refl r
  | succ fuel ih =>
      rw [skipDocumentEnds] at h
      obtain ⟨t, r₁, hpeek, h⟩ := gives_bind_iff.mp h
      obtain ⟨hhead, rfl⟩ := gives_peek_iff.mp hpeek
      split at h
      · rename_i hkind
        obtain ⟨u₁, r₁, hadvance, h⟩ := gives_bind_iff.mp h
        obtain rfl := gives_advance_iff.mp hadvance
        exact .one hhead (by rw [hkind]; nofun) (ih h)
      · obtain ⟨-, rfl⟩ := gives_pure_iff.mp h
        exact .refl r

theorem skips_directives {versioned : Bool} {handles handles' : List (String × String)}
    (h : Gives (directives fuel versioned handles) r handles' r') : Skips r r' := by
  induction fuel generalizing r versioned handles with
  | zero =>
      obtain ⟨-, rfl⟩ := gives_pure_iff.mp h
      exact .refl r
  | succ fuel ih =>
      rw [directives] at h
      obtain ⟨t, r₁, hpeek, h⟩ := gives_bind_iff.mp h
      obtain ⟨hhead, rfl⟩ := gives_peek_iff.mp hpeek
      split at h
      · rename_i major minor hkind
        split at h
        · exact absurd h not_gives_throw
        · split at h
          · exact absurd h not_gives_throw
          · obtain ⟨u₁, r₁, hadvance, h⟩ := gives_bind_iff.mp h
            obtain rfl := gives_advance_iff.mp hadvance
            exact .one hhead (by rw [hkind]; nofun) (ih h)
      · rename_i handle lead hkind
        split at h
        · exact absurd h not_gives_throw
        · obtain ⟨u₁, r₁, hadvance, h⟩ := gives_bind_iff.mp h
          obtain rfl := gives_advance_iff.mp hadvance
          exact .one hhead (by rw [hkind]; nofun) (ih h)
      · obtain ⟨-, rfl⟩ := gives_pure_iff.mp h
        exact .refl r

theorem quiet_documentContent : Quiet (documentContent fuel) := by
  rw [documentContent]
  refine .peek fun t => Quiet.at ?_ t
  exact .ite .emitNothing ((quietNodes fuel).node true false)

theorem skips_documentEnd (h : Gives documentEnd r u r') :
    Skips { r with events := .documentEnd :: r.events } r' := by
  rw [documentEnd] at h
  obtain ⟨t, r₁, hpeek, h⟩ := gives_bind_iff.mp h
  obtain ⟨hhead, rfl⟩ := gives_peek_iff.mp hpeek
  split at h
  · rename_i hkind
    obtain ⟨u₁, r₁, hemit, h⟩ := gives_bind_iff.mp h
    obtain rfl := gives_emit_iff.mp hemit
    obtain rfl := gives_advance_iff.mp h
    exact .one hhead (by rw [hkind]; nofun) (.refl _)
  · obtain rfl := gives_emit_iff.mp h
    exact .refl _

/-- The events of a document with the given content. -/
def enclosed (body : List Event) : List Event := .documentStart :: body ++ [.documentEnd]

/-- **`Reads starts bodies r r'`** — documents are read, and as many of them as `starts` began with a line
of their own. -/
structure Reads (starts : Nat) (bodies : List (List Event)) (r r' : Reader) : Prop where
  tokens : ∃ taken, r.tokens = taken ++ r'.tokens ∧
    taken.countP (·.kind == .documentStart) = starts
  events : r'.events.reverse = r.events.reverse ++ bodies.flatMap enclosed
  bodies : ∀ body ∈ bodies, ∀ e ∈ body, e.isContent = true

theorem Skips.reads (h : Skips r r') : Reads 0 [] r r' := by
  obtain ⟨⟨taken, htokens, htaken⟩, hevents⟩ := h
  refine ⟨⟨taken, htokens, ?_⟩, ?_, nofun⟩
  · simpa [List.countP_eq_zero] using htaken
  · simp [hevents]

theorem Reads.trans {m n : Nat} {bodies bodies' : List (List Event)} (h : Reads m bodies r r')
    (h' : Reads n bodies' r' r'') : Reads (m + n) (bodies ++ bodies') r r'' := by
  obtain ⟨⟨taken, htokens, hcount⟩, hevents, hbodies⟩ := h
  obtain ⟨⟨taken', htokens', hcount'⟩, hevents', hbodies'⟩ := h'
  refine ⟨⟨taken ++ taken', ?_, ?_⟩, ?_, List.forall_mem_append.mpr ⟨hbodies, hbodies'⟩⟩
  · rw [htokens, htokens', List.append_assoc]
  · rw [List.countP_append, hcount, hcount']
  · rw [hevents', hevents, List.flatMap_append, List.append_assoc]

/-- A document that has begun is read to its end. -/
theorem Reads.one {r₁ : Reader} (h : Passes { r with events := .documentStart :: r.events } r₁)
    (hend : Gives documentEnd r₁ u r') : ∃ body, Reads 0 [body] r r' := by
  obtain ⟨⟨taken, htokens, htaken⟩, given, hevents, hgiven⟩ := h
  obtain ⟨⟨taken', htokens', htaken'⟩, hevents'⟩ := skips_documentEnd hend
  refine ⟨given.reverse, ⟨taken ++ taken', ?_, ?_⟩, ?_, ?_⟩
  · rw [List.append_assoc, ← htokens', ← htokens]
  · simpa [List.countP_eq_zero] using And.intro htaken htaken'
  · simp [hevents', hevents, enclosed]
  · simpa using hgiven

/-- The line that a document begins with is taken. -/
theorem Reads.start {n : Nat} {bodies : List (List Event)} (hhead : r.tokens.head? = some t)
    (ht : t.kind = .documentStart) (h : Reads n bodies { r with tokens := r.tokens.drop 1 } r') :
    Reads (n + 1) bodies r r' := by
  obtain ⟨rest, hrest⟩ := List.head?_eq_some_iff.mp hhead
  obtain ⟨⟨taken, htokens, hcount⟩, hevents, hbodies⟩ := h
  refine ⟨⟨t :: taken, ?_, ?_⟩, hevents, hbodies⟩
  · rw [hrest] at htokens ⊢
    rw [List.cons_append, ← htokens]
    rfl
  · rw [List.countP_cons, hcount, ht]
    rfl

theorem Reads.length {n : Nat} {bodies : List (List Event)} (h : Reads n bodies r r') :
    r'.tokens.length + n ≤ r.tokens.length := by
  obtain ⟨taken, htokens, hcount⟩ := h.tokens
  have hle := List.countP_le_length (l := taken) (p := (·.kind == .documentStart))
  rw [htokens, List.length_append]
  omega

/-- A document and those behind it, where no document end stands in front of it. -/
def nextDocument (fuel : Nat) (isFirst : Bool) : Grammar Unit := do
  let t ← peek
  if t.kind == .streamEnd then pure ()
  else if isFirst && !isDirective t.kind && t.kind != .documentStart then
    modify fun r => { r with handles := defaultHandles }
    emit .documentStart
    node (2 * fuel) true false
    documentEnd
    documents fuel false
  else
    let handles ← directives (fuel + 1) false []
    modify fun r => { r with handles := withDefaults handles }
    let t ← peek
    match t.kind with
    | .documentStart =>
      emit .documentStart
      advance
      documentContent (2 * fuel)
      documentEnd
      documents fuel false
    | _ => throw (.malformed .expectedDocumentStart t.start none)

theorem documents_first (fuel : Nat) : documents (fuel + 1) true = nextDocument fuel true := rfl

theorem documents_later (fuel : Nat) : documents (fuel + 1) false =
    (skipDocumentEnds (fuel + 1) >>= fun _ => nextDocument fuel false) := rfl

/-- **`ReadsAll extra r r'`** — all documents are read: one for each token that starts one, and `extra`
more. -/
def ReadsAll (extra : Nat) (r r' : Reader) : Prop :=
  ∃ starts bodies, Reads starts bodies r r' ∧ bodies.length = starts + extra ∧
    ∃ t, r'.tokens.head? = some t ∧ t.kind = .streamEnd

theorem ReadsAll.behind {extra n : Nat} {bodies : List (List Event)} (h : Reads n bodies r r')
    (hlength : bodies.length = n + extra) (hrest : ReadsAll 0 r' r'') : ReadsAll extra r r'' := by
  obtain ⟨starts, bodies', hreads, hlength', hend⟩ := hrest
  refine ⟨n + starts, bodies ++ bodies', h.trans hreads, ?_, hend⟩
  rw [List.length_append]
  omega

/-- A document that begins with its content. -/
theorem reads_bareDocument {k : Grammar Unit} (h : Gives (do
      modify fun r => { r with handles := defaultHandles }
      emit .documentStart
      node fuel true false
      documentEnd
      k) r u r') :
    ∃ body r₁, Reads 0 [body] r r₁ ∧ Gives k r₁ u r' := by
  obtain ⟨u₁, r₁, hmodify, h⟩ := gives_bind_iff.mp h
  obtain rfl := gives_modify_iff.mp hmodify
  obtain ⟨u₂, r₂, hemit, h⟩ := gives_bind_iff.mp h
  obtain rfl := gives_emit_iff.mp hemit
  obtain ⟨u₃, r₃, hnode, h⟩ := gives_bind_iff.mp h
  obtain ⟨u₄, r₄, hclose, h⟩ := gives_bind_iff.mp h
  obtain ⟨body, hone⟩ := Reads.one ((quietNodes fuel).node true false _ _ _ hnode) hclose
  exact ⟨body, r₄, ⟨hone.tokens, hone.events, hone.bodies⟩, h⟩

/-- A document that begins with a line of its own. -/
theorem reads_startedDocument {k : Grammar Unit} (hhead : r.tokens.head? = some t)
    (hkind : t.kind = .documentStart) (h : Gives (do
      emit .documentStart
      advance
      documentContent fuel
      documentEnd
      k) r u r') :
    ∃ body r₁, Reads 1 [body] r r₁ ∧ Gives k r₁ u r' := by
  obtain ⟨u₁, r₁, hemit, h⟩ := gives_bind_iff.mp h
  obtain rfl := gives_emit_iff.mp hemit
  obtain ⟨u₂, r₂, hadvance, h⟩ := gives_bind_iff.mp h
  obtain rfl := gives_advance_iff.mp hadvance
  obtain ⟨u₃, r₃, hcontent, h⟩ := gives_bind_iff.mp h
  obtain ⟨u₄, r₄, hclose, h⟩ := gives_bind_iff.mp h
  obtain ⟨body, hone⟩ := Reads.one
    (r := { r with tokens := r.tokens.drop 1 }) (quiet_documentContent _ _ _ hcontent) hclose
  exact ⟨body, r₄, .start hhead hkind ⟨hone.tokens, hone.events, hone.bodies⟩, h⟩

/-- The first document may begin with its content. -/
theorem readsAll_nextDocument {isFirst : Bool} (h : Gives (nextDocument fuel isFirst) r u r')
    (hlater : ∀ r₁, r₁.tokens.length + (if isFirst then 0 else 1) ≤ r.tokens.length →
      Gives (documents fuel false) r₁ u r' → ReadsAll 0 r₁ r') :
    ReadsAll (if isFirst && r.tokens.head?.any (·.kind.isBare) then 1 else 0) r r' := by
  obtain ⟨t, r₁, hpeek, h⟩ := gives_bind_iff.mp h
  obtain ⟨hhead, rfl⟩ := gives_peek_iff.mp hpeek
  rw [hhead, Option.any_some]
  split at h
  · rename_i hend
    have hkind := beq_iff_eq.mp hend
    obtain ⟨-, rfl⟩ := gives_pure_iff.mp h
    refine ⟨0, [], (Skips.refl r).reads, ?_, t, hhead, hkind⟩
    simp [hkind, TokenKind.isBare]
  · rename_i hend
    have hsame : (isFirst && t.kind.isBare) =
        (isFirst && !isDirective t.kind && t.kind != .documentStart) := by
      simp [TokenKind.isBare, bne, Bool.eq_false_iff.mpr hend, Bool.and_assoc]
    split at h
    · rename_i hbare
      obtain ⟨body, r₁, hreads, h⟩ := reads_bareDocument h
      rw [hsame, if_pos hbare]
      refine .behind hreads rfl (hlater r₁ ?_ h)
      rw [if_pos (Bool.and_eq_true_iff.mp (Bool.and_eq_true_iff.mp hbare).1).1]
      exact hreads.length
    · rename_i hbare
      obtain ⟨handles, r₁, hdirectives, h⟩ := gives_bind_iff.mp h
      obtain ⟨u₁, r₂, hmodify, h⟩ := gives_bind_iff.mp h
      obtain rfl := gives_modify_iff.mp hmodify
      obtain ⟨t', r₂, hpeek, h⟩ := gives_bind_iff.mp h
      obtain ⟨hhead', rfl⟩ := gives_peek_iff.mp hpeek
      split at h
      · rename_i hkind
        obtain ⟨body, r₂, hstart, h⟩ := reads_startedDocument hhead' hkind h
        have hreads : Reads (0 + 1) ([] ++ [body]) r r₂ :=
          (skips_directives hdirectives).reads.trans ⟨hstart.tokens, hstart.events, hstart.bodies⟩
        rw [hsame, if_neg hbare]
        refine .behind hreads rfl (hlater r₂ ?_ h)
        have hlength := hreads.length
        split <;> omega
      · exact absurd h not_gives_throw

/-- **`readsAll_documents`** — all documents of a stream are read. -/
theorem readsAll_documents {isFirst : Bool} (h : Gives (documents fuel isFirst) r u r')
    (hfuel : r.tokens.length + (if isFirst then 1 else 0) < fuel) :
    ReadsAll (if isFirst && r.tokens.head?.any (·.kind.isBare) then 1 else 0) r r' := by
  induction fuel generalizing r isFirst with
  | zero => omega
  | succ fuel ih =>
      -- Each later document takes a token at least, and the first one may take none.
      cases isFirst with
      | true =>
          rw [documents_first] at h
          refine readsAll_nextDocument h fun r₁ hr₁ h₁ => ih h₁ ?_
          simp only [if_true, Bool.false_eq_true, if_false] at hr₁ hfuel ⊢
          omega
      | false =>
          rw [documents_later] at h
          obtain ⟨u₁, r₁, hskip, h⟩ := gives_bind_iff.mp h
          have hskips := (skips_skipDocumentEnds hskip).reads
          refine .behind hskips rfl (readsAll_nextDocument h fun r₂ hr₂ h₂ => ih h₂ ?_)
          have hlength := hskips.length
          simp only [Bool.false_eq_true, if_false] at hr₂ hfuel ⊢
          omega

/-! ## §E Streams -/

theorem gives_documents_of_stream (h : Gives (stream fuel) r u r') : ∃ t rest, r.tokens = t :: rest ∧
    Gives (documents fuel true) { r with tokens := rest } u r' := by
  obtain ⟨t, r₁, hpeek, h⟩ := gives_bind_iff.mp h
  obtain ⟨hhead, rfl⟩ := gives_peek_iff.mp hpeek
  obtain ⟨u₁, r₁, hadvance, h⟩ := gives_bind_iff.mp h
  obtain rfl := gives_advance_iff.mp hadvance
  obtain ⟨rest, hrest⟩ := List.head?_eq_some_iff.mp hhead
  rw [hrest] at h
  exact ⟨t, rest, hrest, h⟩

end Grammar

/-- The end of a stream is its last token. -/
theorem Lexer.Finished.eq_nil {total : Nat} {bare : Bool} {tokens front rest : List Token} {t : Token}
    (h : Lexer.Finished total bare tokens.toArray) (htokens : tokens = front ++ t :: rest)
    (ht : t.kind = .streamEnd) : rest = [] := by
  obtain ⟨before, last, hlast, -, hbefore⟩ := h.last
  rcases List.eq_nil_or_concat rest with hnil | ⟨rest', last', rfl⟩
  · exact hnil
  · have hlist := congrArg Array.toList hlast
    rw [Array.toList_push, htokens, List.concat_eq_append] at hlist
    have hsame : front ++ t :: rest' ++ [last'] = before.toList ++ [last] := by
      simpa using hlist
    have hmem : t ∈ before.toList := by
      rw [← (List.append_inj' hsame rfl).1]
      simp
    exact absurd ht (hbefore t (Array.mem_toList_iff.mp hmem))

/-- What a reader has given when it stops. -/
def Grammar.given (result : Except Trouble Unit × Reader) : List Event × Option Trouble :=
  match result.1 with
  | .ok () => (result.2.events.reverse, none)
  | .error t => (result.2.events.reverse, some t)

theorem events_eq {s : String} {tokens : List Token} {trouble : Option Trouble}
    (h : tokenize s = (tokens, trouble)) : events s = Grammar.given
      (Grammar.outcome (Grammar.stream (tokens.length + 4))
        ⟨tokens, trouble.getD (.unreadable .unexpectedEnd 0), Grammar.defaultHandles, []⟩) := by
  unfold events Grammar.given
  rw [h]
  rfl

theorem gives_stream_of_events {s : String} {tokens : List Token} {trouble : Option Trouble}
    {found : List Event} (htokenize : tokenize s = (tokens, trouble)) (h : events s = (found, none)) :
    ∃ r r', r.tokens = tokens ∧ r.events = [] ∧
      Grammar.Gives (Grammar.stream (tokens.length + 4)) r () r' ∧ found = r'.events.reverse := by
  rw [events_eq htokenize] at h
  refine ⟨⟨tokens, trouble.getD (.unreadable .unexpectedEnd 0), Grammar.defaultHandles, []⟩, ?_⟩
  cases houtcome : Grammar.outcome (Grammar.stream (tokens.length + 4))
      ⟨tokens, trouble.getD (.unreadable .unexpectedEnd 0), Grammar.defaultHandles, []⟩ with
  | mk result r' =>
      rw [houtcome] at h
      cases result with
      | ok u => exact ⟨r', rfl, rfl, houtcome, (Prod.mk.inj h).1.symm⟩
      | error t => cases (Prod.mk.inj h).2

/-- **`events_spec`** — the events of a text that is read without trouble are those of its documents, of
which there is one for each line that begins one, and one more if the stream begins with content. -/
theorem events_spec {s : String} {found : List Event} (h : events s = (found, none)) :
    ∃ bodies : List (List Event), found = bodies.flatMap Grammar.enclosed ∧
      (∀ body ∈ bodies, ∀ e ∈ body, e.isContent = true) ∧
      bodies.length = (streamLines s).countP beginsDocument +
        (if beginsBare (streamLines s) then 1 else 0) := by
  cases htokenize : tokenize s with
  | mk tokens trouble =>
      obtain ⟨r, r', htokens, hevents, hstream, rfl⟩ := gives_stream_of_events htokenize h
      obtain ⟨t, rest, hrest, hdocuments⟩ := Grammar.gives_documents_of_stream hstream
      have hfuel : rest.length + 1 < tokens.length + 4 := by
        rw [← htokens, hrest, List.length_cons]
        omega
      obtain ⟨starts, bodies, hreads, hlength, last, hhead, hlast⟩ :=
        Grammar.readsAll_documents hdocuments hfuel
      obtain ⟨taken, htaken, hcount⟩ := hreads.tokens
      obtain ⟨more, hmore⟩ := List.head?_eq_some_iff.mp hhead
      have hall : tokens = t :: taken ++ last :: more := by
        rw [← htokens, hrest, List.cons_append, ← hmore]
        exact congrArg _ htaken
      refine ⟨bodies, ?_, hreads.bodies, ?_⟩
      · simpa [hevents] using hreads.events
      · rcases tokenize_spec htokenize with hunfinished | ⟨-, hfinished⟩
        · exact absurd hlast (hunfinished last (by simp [hall]))
        · obtain rfl := hfinished.eq_nil hall hlast
          have hread : rest = taken ++ [last] := htaken.trans (by rw [hmore])
          have hfirst : t.kind = .streamStart := hfinished.first t (by simp [hall])
          have hstarts : starts = (streamLines s).countP beginsDocument := by
            rw [← hfinished.starts, List.countP_toArray, hall, ← hcount]
            simp [hfirst, hlast]
          have hbare : rest.head?.any (·.kind.isBare) = beginsBare (streamLines s) := by
            cases hhead : rest.head? with
            | none => simp [hread] at hhead
            | some t' =>
                rw [Option.any_some]
                apply hfinished.second
                obtain ⟨rest', hrest'⟩ := List.head?_eq_some_iff.mp hhead
                rw [← htokens, hrest, hrest']
                rfl
          rw [hlength, hstarts, ← hbare, Bool.true_and]

end PluginVet.Yaml
