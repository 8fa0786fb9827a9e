/-
# PluginVet.Proofs.Yaml.Decode — what a walk through a document can give

`Yields P walk` says that every value a walk ends with has the property `P`; it passes through the
steps of a walk (`Yields.bind`, `Yields.mapM`). With it the values read from a stream, and so those of
every front matter, are shown to be canonical (`canonical_of_parse`).

§A walks, §B document values.
-/
import PluginVet.FrontMatter
import PluginVet.Proofs.Json.Canonical

namespace PluginVet.Yaml

/-! ## §A Walks -/

/-- **`Yields P walk`** — whatever value the walk ends with has the property `P`. -/
def Yields {α : Type} (P : α → Prop) (walk : Decode α) : Prop :=
  ∀ n a n', walk.run n = .ok (a, n') → P a

namespace Yields

variable {α β : Type} {P : α → Prop} {Q : β → Prop} {walk : Decode α}

theorem pure {a : α} (h : P a) : Yields P (pure a : Decode α) := by
  intro n a' n' hrun
  obtain ⟨rfl, -⟩ := Prod.mk.inj (Except.ok.inj hrun)
  exact h

theorem fault (f : Fault) : Yields P (fault f : Decode α) := by
  intro n a n' hrun
  cases hrun

theorem bind {next : α → Decode β} (hwalk : Yields P walk) (hnext : ∀ a, P a → Yields Q (next a)) :
    Yields Q (walk >>= next) := by
  intro n b n' hrun
  rw [StateT.run_bind] at hrun
  cases hfirst : walk.run n with
  | error f =>
      rw [hfirst] at hrun
      cases hrun
  | ok r =>
      rw [hfirst] at hrun
      exact hnext r.1 (hwalk n r.1 r.2 hfirst) r.2 b n' hrun

/-- What the first walk gives need not matter. -/
theorem behind {next : α → Decode β} (hnext : ∀ a, Yields Q (next a)) :
    Yields Q (walk >>= next) :=
  bind (P := fun _ => True) (fun _ _ _ _ => trivial) fun a _ => hnext a

theorem mapM {as : List α} {walkOf : α → Decode β} (h : ∀ a ∈ as, Yields Q (walkOf a)) :
    Yields (fun bs => ∀ b ∈ bs, Q b) (as.mapM walkOf) := by
  induction as with
  | nil =>
      rw [List.mapM_nil]
      exact Yields.pure fun _ hb => absurd hb List.not_mem_nil
  | cons a rest ih =>
      obtain ⟨ha, hrest⟩ := List.forall_mem_cons.mp h
      rw [List.mapM_cons]
      exact ha.bind fun b hb => (ih hrest).bind fun bs hbs =>
        Yields.pure (List.forall_mem_cons.mpr ⟨hb, hbs⟩)

end Yields

/-! ## §B Document values -/

theorem canonical_of_atom {a : Atom} {v : Json} (h : a.toJson = .ok v) : v.Canonical := by
  cases a with
  | nothing => exact Except.ok.inj h ▸ trivial
  | bool b => exact Except.ok.inj h ▸ trivial
  | text s => exact Except.ok.inj h ▸ trivial
  | int n =>
      rw [Atom.toJson] at h
      split at h
      · exact Except.ok.inj h ▸ trivial
      · cases h
  | float x =>
      rw [← Except.ok.inj h, Json.ofFloat]
      split <;> trivial

theorem yields_liftAt {α : Type} {P : α → Prop} {place : Place} {mark : Mark}
    {result : Except Mismatch α} (h : ∀ a, result = .ok a → P a) :
    Yields P (liftAt place mark result) := by
  cases result with
  | ok a => exact Yields.pure (h a rfl)
  | error cause => exact Yields.fault _

theorem yields_scalar (text : String) (style : ScalarStyle) (tag : Option String) (place : Place)
    (mark : Mark) : Yields Json.Canonical (do
      refuseOwnTag tag place mark
      liftAt place mark (Atom.ofScalar text style tag >>= Atom.toJson)) := by
  refine Yields.behind fun _ => yields_liftAt fun v hv => ?_
  cases hatom : Atom.ofScalar text style tag with
  | error cause =>
      rw [hatom] at hv
      cases hv
  | ok a =>
      rw [hatom] at hv
      exact canonical_of_atom hv

/-- **`yields_toJson`** — document values are canonical, for an object keeps its pairs by key. -/
theorem yields_toJson (src : Source) (depth : Nat) (place : Place) (n : Node) :
    Yields Json.Canonical (toJson src depth place n) := by
  induction depth using Nat.strongRecOn generalizing place n with
  | ind depth ih =>
      rw [toJson.eq_def]
      refine Yields.behind fun target => ?_
      cases target with
      | scalar text style tag mark => exact yields_scalar text style tag place mark
      | sequence items tag mark =>
          refine Yields.behind fun _ => ?_
          cases depth with
          | zero => exact Yields.fault _
          | succ depth =>
              refine Yields.bind (Yields.mapM fun item _ => ih depth (Nat.lt_succ_self _) _ _)
                fun values h => ?_
              exact Yields.pure (Json.canonical_array_iff.mpr h)
      | mapping entries tag mark =>
          refine Yields.behind fun _ => ?_
          cases depth with
          | zero => exact Yields.fault _
          | succ depth =>
              refine Yields.bind (P := fun fields => ∀ f ∈ fields, f.2.Canonical)
                (Yields.mapM fun entry _ => ?_) fun fields h => ?_
              · exact Yields.behind fun key => (ih depth (Nat.lt_succ_self _) _ _).bind
                  fun value hvalue => Yields.pure hvalue
              · exact Yields.pure (Json.canonical_ofPairs h)
      | void => exact Yields.pure trivial
      | _ => exact Yields.fault _

theorem canonical_of_readJson {s : String} {v : Json} (h : readJson s = .ok v) : v.Canonical := by
  unfold readJson decodeOnly at h
  split at h
  · cases h
  · rename_i d rest _
    cases hrun : (toJson d.source maxDepth .root d.root).run 0 with
    | error f =>
        rw [hrun] at h
        cases h
    | ok r =>
        rw [hrun] at h
        have hvalue := yields_toJson _ _ _ _ 0 r.1 r.2 hrun
        simp only [bind, Except.bind] at h
        split at h
        · cases h
        · split at h
          · exact Except.ok.inj h ▸ hvalue
          · cases h

end PluginVet.Yaml

namespace PluginVet.FrontMatter

/-- **`canonical_of_parse`** — the front matter of a descriptor is a canonical object. -/
theorem canonical_of_parse {content : String} {v : Json} (h : parse content = .ok v) :
    v.Canonical := by
  unfold parse at h
  split at h
  · cases h
  · split at h
    · cases h
    · rename_i fields hread
      exact Except.ok.inj h ▸ Yaml.canonical_of_readJson hread
    · cases h
    · cases h
    · cases h

end PluginVet.FrontMatter
