/-
# PluginVet.Proofs.Yaml.Document — how many documents a text holds

A tree is made of the events of one document (`Builder.followsNodes`), so the events of so many documents
make as many trees, unless one of them is in trouble (`length_documentsFrom`). Together with the events of
a text this gives its documents from its lines alone: there is one for each line that begins a document, and
one more if the text begins with content (`documents_of_good`, `ReadsAs.eq_beginnings`).

§A trees, §B documents, §C texts.
-/
import PluginVet.Proofs.Yaml.Event
import PluginVet.Yaml.Node

namespace PluginVet.Yaml

namespace Builder

variable {b b' b'' : Builder} {fuel : Nat}

/-! ## §A Trees -/

/-- **`Follows b b'`** — the events in front of `b'` are read, and they lie within a document; or nothing
more can be read. -/
def Follows (b b' : Builder) : Prop :=
  b'.events = [] ∨ ∃ passed, b.events = passed ++ b'.events ∧ ∀ e ∈ passed, e.isContent = true

theorem Follows.refl (b : Builder) : Follows b b := Or.inr ⟨[], rfl, nofun⟩

theorem Follows.trans (h : Follows b b') (h' : Follows b' b'') : Follows b b'' := by
  rcases h' with hend | ⟨passed', hevents', hpassed'⟩
  · exact Or.inl hend
  · rcases h with hend | ⟨passed, hevents, hpassed⟩
    · rw [hend] at hevents'
      exact Or.inl (List.append_eq_nil_iff.mp hevents'.symm).2
    · refine Or.inr ⟨passed ++ passed', ?_, List.forall_mem_append.mpr ⟨hpassed, hpassed'⟩⟩
      rw [hevents, hevents', List.append_assoc]

/-- An event of a document is read. -/
theorem Follows.one {e : Event} {rest : List Event} (h : b.events = e :: rest)
    (he : e.isContent = true) (h' : b'.events = rest) : Follows b b' :=
  Or.inr ⟨[e], by rw [h, h']; rfl, List.forall_mem_singleton.mpr he⟩

theorem events_advance {e : Event} {rest : List Event} (h : b.events = e :: rest) :
    b.advance.events = rest := by
  rw [show b.advance.events = b.events.drop 1 from rfl, h, List.drop_succ_cons, List.drop_zero]

theorem events_enter (b : Builder) (p : Properties) : (b.enter p).events = b.events := by
  unfold enter
  split <;> rfl

theorem events_close (b : Builder) (p : Properties) (number : Nat) (n : Node) :
    (b.close p number n).events = b.events := by
  unfold close
  split <;> rfl

theorem Follows.close (b : Builder) (p : Properties) (number : Nat) (n : Node) :
    Follows b (b.close p number n) := by
  rw [Follows, events_close]
  exact Follows.refl b

/-- **`FollowsNodes fuel`** — so it is with the nodes and collections that so much fuel reads. -/
structure FollowsNodes (fuel : Nat) : Prop where
  node : ∀ b, Follows b (node fuel b).2
  items : ∀ b, Follows b (sequenceItems fuel b).2
  entries : ∀ b, Follows b (mappingEntries fuel b).2

theorem FollowsNodes.node_succ (h : FollowsNodes fuel) (b : Builder) :
    Follows b (Builder.node (fuel + 1) b).2 := by
  rw [Builder.node]
  split
  · rename_i name mark rest hevents
    split
    · exact .one hevents rfl (events_advance hevents)
    · exact Or.inl rfl
  · rename_i text style p mark rest hevents
    refine .one hevents rfl (events_advance (e := .scalar text style p mark) ?_)
    rw [events_close, events_enter, hevents]
  · rename_i p mark rest hevents
    have hopen : Follows b (b.enter p).advance :=
      .one hevents rfl (events_advance ((events_enter b p).trans hevents))
    exact (hopen.trans (h.items _)).trans (.close _ _ _ _)
  · rename_i p mark rest hevents
    have hopen : Follows b (b.enter p).advance :=
      .one hevents rfl (events_advance ((events_enter b p).trans hevents))
    exact (hopen.trans (h.entries _)).trans (.close _ _ _ _)
  · exact Or.inl rfl

theorem FollowsNodes.items_succ (h : FollowsNodes fuel) (b : Builder) :
    Follows b (sequenceItems (fuel + 1) b).2 := by
  rw [sequenceItems]
  split
  · exact .refl b
  · rename_i rest hevents
    exact .one hevents rfl (events_advance hevents)
  · exact (h.node b).trans (h.items _)

theorem FollowsNodes.entries_succ (h : FollowsNodes fuel) (b : Builder) :
    Follows b (mappingEntries (fuel + 1) b).2 := by
  rw [mappingEntries]
  split
  · exact .refl b
  · rename_i rest hevents
    exact .one hevents rfl (events_advance hevents)
  · exact ((h.node b).trans (h.node _)).trans (h.entries _)

/-- **`followsNodes`** — a tree is made of the events of one document. -/
theorem followsNodes (fuel : Nat) : FollowsNodes fuel := by
  induction fuel with
  | zero => exact ⟨fun b => .refl b, fun b => .refl b, fun b => .refl b⟩
  | succ fuel ih => exact ⟨ih.node_succ, ih.items_succ, ih.entries_succ⟩

end Builder

/-! ## §B Documents -/

/-- The content of an empty stream, which is no document. -/
def Node.isVoid : Node → Bool
  | .void => true
  | _ => false

theorem isVoid_node (fuel : Nat) (b : Builder) : (Builder.node fuel b).1.isVoid = false := by
  cases fuel with
  | zero => rfl
  | succ fuel =>
      rw [Builder.node]
      split
      · split <;> rfl
      · rfl
      · rfl
      · rfl
      · rfl

/-- Behind a tree that ends with its document the next document stands. -/
theorem events_node {fuel : Nat} {b : Builder} {body rest more : List Event}
    (hevents : b.events = body ++ .documentEnd :: rest) (hbody : ∀ e ∈ body, e.isContent = true)
    (hmore : (Builder.node fuel b).2.events = .documentEnd :: more) : more = rest := by
  rcases (Builder.followsNodes fuel).node b with hend | ⟨passed, hpassed, hcontent⟩
  · rw [hend] at hmore
    cases hmore
  · -- Both ways the events up to the first that ends a document are the same.
    rw [hmore, hevents] at hpassed
    have hcut := congrArg (List.dropWhile Event.isContent) hpassed
    rw [List.dropWhile_append_of_pos hbody, List.dropWhile_append_of_pos hcontent] at hcut
    exact (List.cons.inj hcut).2.symm

theorem length_events_node (fuel : Nat) (b : Builder) :
    (Builder.node fuel b).2.events.length ≤ b.events.length := by
  rcases (Builder.followsNodes fuel).node b with hend | ⟨passed, hpassed, -⟩
  · rw [hend]
    exact Nat.zero_le _
  · rw [hpassed, List.length_append]
    omega

/-- The document that begins first, and those behind it if it ends. -/
theorem documentsFrom_start (trouble : Option Trouble) (fuel : Nat) (rest : List Event) :
    ∃ b : Builder, b.events = rest ∧ documentsFrom trouble (fuel + 1) (.documentStart :: rest) =
      match (Builder.node (rest.length + 1) b).2.events with
      | .documentEnd :: more =>
        ⟨(Builder.node (rest.length + 1) b).1, (Builder.node (rest.length + 1) b).2.anchors,
          (Builder.node (rest.length + 1) b).2.count, none⟩ :: documentsFrom trouble fuel more
      | _ =>
        [⟨(Builder.node (rest.length + 1) b).1, (Builder.node (rest.length + 1) b).2.anchors,
          (Builder.node (rest.length + 1) b).2.count, some (Builder.node (rest.length + 1) b).2.trouble⟩] :=
  ⟨⟨rest, trouble.getD (.unreadable .unexpectedEnd 0), .none, 0⟩, rfl, rfl⟩

/-- A stream in trouble has a document in trouble. -/
theorem exists_trouble_documentsFrom {trouble : Trouble} {fuel : Nat} {found : List Event}
    (hfuel : found.length < fuel) : ∃ d ∈ documentsFrom (some trouble) fuel found, d.trouble ≠ none := by
  induction fuel generalizing found with
  | zero => omega
  | succ fuel ih =>
      by_cases hstart : ∃ rest, found = .documentStart :: rest
      · obtain ⟨rest, rfl⟩ := hstart
        obtain ⟨b, hb, heq⟩ := documentsFrom_start (some trouble) fuel rest
        have hlength := length_events_node (rest.length + 1) b
        rw [heq]
        split
        · rename_i more hmore
          rw [hmore, hb, List.length_cons] at hlength
          rw [List.length_cons] at hfuel
          obtain ⟨d, hd, htrouble⟩ := ih (show more.length < fuel by omega)
          exact ⟨d, List.mem_cons_of_mem _ hd, htrouble⟩
        · exact ⟨_, List.mem_singleton_self _, nofun⟩
      · unfold documentsFrom
        split
        · exact absurd ⟨_, rfl⟩ hstart
        · exact ⟨_, List.mem_singleton_self _, nofun⟩

/-- **`length_documentsFrom`** — the events of so many documents make as many documents, unless one of them
is in trouble. -/
theorem length_documentsFrom {fuel : Nat} {bodies : List (List Event)}
    (hbodies : ∀ body ∈ bodies, ∀ e ∈ body, e.isContent = true) (hfuel : bodies.length < fuel)
    (h : ∀ d ∈ documentsFrom none fuel (bodies.flatMap Grammar.enclosed), d.trouble = none) :
    (documentsFrom none fuel (bodies.flatMap Grammar.enclosed)).length = bodies.length ∧
      ∀ d ∈ documentsFrom none fuel (bodies.flatMap Grammar.enclosed), d.root.isVoid = false := by
  induction bodies generalizing fuel with
  | nil =>
      cases fuel with
      | zero => omega
      | succ fuel =>
          have hnone : documentsFrom none (fuel + 1) [] = [] := rfl
          rw [List.flatMap_nil, hnone]
          exact ⟨rfl, fun _ hd => absurd hd List.not_mem_nil⟩
  | cons body bodies ih =>
      obtain ⟨hbody, hbodies⟩ := List.forall_mem_cons.mp hbodies
      rw [List.length_cons] at hfuel
      cases fuel with
      | zero => omega
      | succ fuel =>
          have hevents : (body :: bodies).flatMap Grammar.enclosed =
              .documentStart :: (body ++ .documentEnd :: bodies.flatMap Grammar.enclosed) := by
            simp [Grammar.enclosed]
          obtain ⟨b, hb, heq⟩ := documentsFrom_start none fuel
            (body ++ .documentEnd :: bodies.flatMap Grammar.enclosed)
          rw [hevents, heq] at h ⊢
          revert h
          split
          · rename_i more hmore
            obtain rfl := events_node hb hbody hmore
            intro h
            obtain ⟨hlength, hvoid⟩ := ih hbodies (by omega) (List.forall_mem_cons.mp h).2
            refine ⟨?_, List.forall_mem_cons.mpr ⟨?_, hvoid⟩⟩
            · rw [List.length_cons, List.length_cons, hlength]
            · exact isVoid_node ..
          · intro h
            cases h _ (List.mem_singleton_self _)

/-! ## §C Texts -/

theorem length_le_events (bodies : List (List Event)) :
    bodies.length ≤ (bodies.flatMap Grammar.enclosed).length := by
  induction bodies with
  | nil => exact Nat.zero_le _
  | cons body bodies ih =>
      rw [List.flatMap_cons, List.length_append, List.length_cons, Grammar.enclosed, List.length_append,
        List.length_cons]
      omega

/-- The document of a stream without any. -/
def voidDocument : Document := ⟨.void, .none, 1, none⟩

theorem documents_eq {s : String} {found : List Event} {trouble : Option Trouble}
    (h : events s = (found, trouble)) : documents s =
      match documentsFrom trouble (found.length + 1) found with
      | [] => [voidDocument]
      | ds => ds := by
  unfold documents
  rw [h]
  rfl

/-- The documents of a text as its lines show them: one for each line that begins a document, and one more
if the text begins with content. -/
def beginnings (s : String) : Nat :=
  (streamLines s).countP beginsDocument + if beginsBare (streamLines s) then 1 else 0

/-- **`documents_of_good`** — a text that is read without trouble holds the documents that its lines show. -/
theorem documents_of_good {s : String} (hgood : ∀ d ∈ documents s, d.trouble = none) :
    documents s = [voidDocument] ∧ beginnings s = 0 ∨
      (documents s).length = beginnings s ∧ ∀ d ∈ documents s, d.root.isVoid = false := by
  cases hevents : events s with
  | mk found trouble =>
      have hdocuments := documents_eq hevents
      have hfound : ∀ d ∈ documentsFrom trouble (found.length + 1) found, d.trouble = none := by
        intro d hd
        apply hgood
        rw [hdocuments]
        split
        · rename_i hnil
          rw [hnil] at hd
          cases hd
        · exact hd
      cases trouble with
      | some trouble =>
          obtain ⟨d, hd, htrouble⟩ := exists_trouble_documentsFrom (Nat.lt_succ_self found.length)
          exact absurd (hfound d hd) htrouble
      | none =>
          obtain ⟨bodies, rfl, hbodies, hlength⟩ := events_spec hevents
          obtain ⟨hsame, hvoid⟩ :=
            length_documentsFrom hbodies (Nat.lt_succ_of_le (length_le_events bodies)) hfound
          have hcount : (documentsFrom none ((bodies.flatMap Grammar.enclosed).length + 1)
              (bodies.flatMap Grammar.enclosed)).length = beginnings s := hsame.trans hlength
          rw [hdocuments]
          split
          · rename_i hnil
            rw [hnil] at hcount
            exact Or.inl ⟨rfl, hcount.symm⟩
          · exact Or.inr ⟨hcount, hvoid⟩

/-- **`ReadsAs s n`** — the text is read without trouble, as `n` documents. -/
structure ReadsAs (s : String) (n : Nat) : Prop where
  good : ∀ d ∈ documents s, d.trouble = none
  count : (documents s).countP (!·.root.isVoid) = n

instance (s : String) (n : Nat) : Decidable (ReadsAs s n) :=
  decidable_of_iff
    ((∀ d ∈ documents s, d.trouble.isNone = true) ∧ (documents s).countP (!·.root.isVoid) = n)
    ⟨fun h => ⟨fun d hd => Option.isNone_iff_eq_none.mp (h.1 d hd), h.2⟩,
      fun h => ⟨fun d hd => Option.isNone_iff_eq_none.mpr (h.good d hd), h.count⟩⟩

theorem ReadsAs.eq_beginnings {s : String} {n : Nat} (h : ReadsAs s n) : n = beginnings s := by
  obtain ⟨hgood, rfl⟩ := h
  rcases documents_of_good hgood with ⟨hvoid, hnone⟩ | ⟨hlength, hroots⟩
  · rw [hvoid, hnone]
    rfl
  · rw [← hlength, List.countP_eq_length]
    intro d hd
    rw [hroots d hd]
    rfl

/-- A document that is not the void one is counted with all others. -/
theorem ReadsAs.length_eq {s : String} {n : Nat} {d : Document} (h : ReadsAs s n) (hd : d ∈ documents s)
    (hroot : d.root.isVoid = false) : (documents s).length = n := by
  rw [h.eq_beginnings]
  rcases documents_of_good h.good with ⟨hvoid, -⟩ | ⟨hlength, -⟩
  · rw [hvoid, List.mem_singleton] at hd
    rw [hd] at hroot
    cases hroot
  · exact hlength

end PluginVet.Yaml
