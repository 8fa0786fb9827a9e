/-
# PluginVet.Proofs.References.Audit — what an audit of several plugins gives

Every plugin contributes to an audit what it contributes alone: its entry, if its descriptor holds a
manifest, and nothing otherwise. A descriptor that is no text is the exception. Such a file is no
concern of one plugin only, for it ends the whole audit (`audit_readable_iff`), and the plugins beside
it go without their entries (`one_descriptor_ends_audit`).

§A one plugin, §B several plugins, §C selections, §D a broken descriptor beside another, §E the report.
-/
import PluginVet.Proofs.Workspace

namespace PluginVet

open References (PluginAudit AuditReport)

namespace Workspace

variable {w : Workspace} {t : FileTree} {p : Plugin} {ps : List Plugin}

/-! ## §A One plugin -/

/-- **`Unreadable w t p`** — the descriptor of the plugin is a file whose bytes are no text. -/
def Unreadable (w : Workspace) (t : FileTree) (p : Plugin) : Prop :=
  ∃ bytes, t.find (w.descriptorOf p) = .ok (.file bytes) ∧ String.fromUTF8? bytes = none

/-- The manifest in the text of a file. -/
def heldBy? : FileNode → Option Manifest
  | .file bytes => (String.fromUTF8? bytes).bind References.manifest?
  | .link _ | .directory _ => none

/-- **`audited? w t p`** — the audit of the manifest in the plugin's descriptor, if it holds one. -/
def audited? (w : Workspace) (t : FileTree) (p : Plugin) : Option PluginAudit :=
  ((t.find (w.descriptorOf p)).toOption.bind heldBy?).map (References.audit (w.shownPath p))

theorem audited?_of_find {x : FileNode} (h : t.find (w.descriptorOf p) = .ok x) :
    w.audited? t p = (heldBy? x).map (References.audit (w.shownPath p)) := by
  rw [audited?, h]
  rfl

theorem auditPlugin_of_find {bytes : ByteArray} (h : t.find (w.descriptorOf p) = .ok (.file bytes)) :
    w.auditPlugin t p = match String.fromUTF8? bytes with
      | some content => .ok ((References.manifest? content).map (References.audit (w.shownPath p)))
      | none => .error .notText := by
  rw [auditPlugin, References.auditDescriptor, FileTree.readText, h]
  simp only [FileTree.textOf, FileTree.contentOf, bind, Except.bind]
  cases String.fromUTF8? bytes <;> rfl

theorem auditPlugin_of_readable (h : ¬ w.Unreadable t p)
    (hfile : t.isFile (w.descriptorOf p) = true) : w.auditPlugin t p = .ok (w.audited? t p) := by
  obtain ⟨node, hfind, hnode⟩ := FileTree.holds_iff.mp hfile
  cases node with
  | file bytes =>
      obtain ⟨content, hcontent⟩ : ∃ content, String.fromUTF8? bytes = some content :=
        Option.ne_none_iff_exists'.mp fun htext => h ⟨bytes, hfind, htext⟩
      rw [auditPlugin_of_find hfind, audited?_of_find hfind, heldBy?, hcontent]
      rfl
  | link target => exact absurd hnode Bool.false_ne_true
  | directory es => exact absurd hnode Bool.false_ne_true

theorem audited?_of_not_isFile (hfile : ¬ t.isFile (w.descriptorOf p) = true) :
    w.audited? t p = none := by
  cases hfind : t.find (w.descriptorOf p) with
  | error e =>
      rw [audited?, hfind]
      rfl
  | ok x =>
      rw [audited?_of_find hfind]
      cases x with
      | file bytes => exact absurd (FileTree.holds_iff.mpr ⟨_, hfind, rfl⟩) hfile
      | link target => rfl
      | directory es => rfl

/-! ## §B Several plugins -/

theorem auditAll_cons (w : Workspace) (t : FileTree) (p : Plugin) (rest : List Plugin) :
    w.auditAll t (p :: rest) =
      let later := w.auditAll t rest
      if t.isFile (w.descriptorOf p) = true then
        match w.auditPlugin t p with
        | .error e => ⟨.error e, []⟩
        | .ok a => ⟨later.value.map (a.toList ++ ·), later.warnings⟩
      else ⟨later.value, .noDescriptor p.relPath :: later.warnings⟩ := by
  rfl

theorem auditAll_cons_of_unreadable (h : w.Unreadable t p) (rest : List Plugin) :
    (w.auditAll t (p :: rest)).value = .error .notText := by
  obtain ⟨bytes, hfind, htext⟩ := h
  have hfile : t.isFile (w.descriptorOf p) = true := FileTree.holds_iff.mpr ⟨_, hfind, rfl⟩
  have haudit : w.auditPlugin t p = .error .notText := by
    rw [auditPlugin_of_find hfind, htext]
  rw [auditAll_cons, if_pos hfile, haudit]

theorem auditAll_cons_of_readable (h : ¬ w.Unreadable t p) (rest : List Plugin) :
    (w.auditAll t (p :: rest)).value
      = (w.auditAll t rest).value.map ((w.audited? t p).toList ++ ·) := by
  by_cases hfile : t.isFile (w.descriptorOf p) = true
  · rw [auditAll_cons, if_pos hfile, auditPlugin_of_readable h hfile]
  · rw [auditAll_cons, if_neg hfile, audited?_of_not_isFile hfile]
    cases (w.auditAll t rest).value <;> rfl

/-- The first descriptor that is no text ends the audit. -/
theorem auditAll_of_unreadable (h : ∃ p ∈ ps, w.Unreadable t p) :
    (w.auditAll t ps).value = .error .notText := by
  induction ps with
  | nil =>
      obtain ⟨p, hp, -⟩ := h
      exact absurd hp List.not_mem_nil
  | cons p rest ih =>
      -- What plugins in front of the broken one contribute is lost with it.
      by_cases hp : w.Unreadable t p
      · exact auditAll_cons_of_unreadable hp rest
      · obtain ⟨q, hq, hunreadable⟩ := h
        rcases List.mem_cons.mp hq with rfl | hq
        · exact absurd hunreadable hp
        · rw [auditAll_cons_of_readable hp, ih ⟨q, hq, hunreadable⟩]
          rfl

theorem auditAll_of_readable (h : ∀ p ∈ ps, ¬ w.Unreadable t p) :
    (w.auditAll t ps).value = .ok (ps.filterMap (w.audited? t)) := by
  induction ps with
  | nil => rfl
  | cons p rest ih =>
      obtain ⟨hp, hrest⟩ := List.forall_mem_cons.mp h
      rw [auditAll_cons_of_readable hp, ih hrest, List.filterMap_cons]
      cases w.audited? t p <;> rfl

/-! ## §C Selections -/

theorem audit_of_unreadable {s : Selection} (h : ∃ p ∈ (w.select t s).value, w.Unreadable t p) :
    (w.audit t s).value = .error .notText := by
  show (w.auditAll t _).value.map _ = _
  rw [auditAll_of_unreadable h]
  rfl

theorem audit_of_readable {s : Selection} (h : ∀ p ∈ (w.select t s).value, ¬ w.Unreadable t p) :
    (w.audit t s).value
      = .ok ⟨(w.select t s).value.length, (w.select t s).value.filterMap (w.audited? t)⟩ := by
  show (w.auditAll t _).value.map _ = _
  rw [auditAll_of_readable h]
  rfl

theorem select_named (w : Workspace) (t : FileTree) (name : String) :
    (w.select t ⟨[name], none⟩).value = [Plugin.inside w.pluginsDir name] := rfl

/-! ## §D A broken descriptor beside another -/

/-- Two plugins, the first with a descriptor of one byte that begins no character. -/
def brokenBeside : List (String × FileNode) :=
  [("a", .directory [("readme.md", .file ⟨#[0xFF]⟩)]), ("b", .emptyPlugin)]

theorem proper_brokenBeside : (FileNode.directory brokenBeside).Proper := by
  have hsorted : ["a", "b"].Pairwise (· < ·) := by decide
  refine .directory hsorted ?_ ?_
  · simp only [brokenBeside, List.forall_mem_cons, List.not_mem_nil, false_imp_iff, implies_true,
      and_true]
    decide
  · simp only [brokenBeside, List.forall_mem_cons, List.not_mem_nil, false_imp_iff, implies_true,
      and_true]
    refine ⟨.directory (List.pairwise_singleton _ _) ?_ ?_, FileNode.proper_emptyPlugin⟩
    · simp only [List.forall_mem_cons, List.not_mem_nil, false_imp_iff, implies_true, and_true]
      decide
    · simp only [List.forall_mem_cons, List.not_mem_nil, false_imp_iff, implies_true, and_true]
      exact .file _

theorem exists_brokenBeside : ∃ w : Workspace, w.IsOpened ∧
    w.config = Config.small ⟨"/plugins"⟩ ∧ w.pluginsDir = ⟨"/plugins"⟩ :=
  exists_small proper_brokenBeside (by decide) rfl rfl (FileTree.openTo_small _) (by decide)

theorem descriptorOf_small (hconfig : w.config = Config.small ⟨"/plugins"⟩)
    (hdir : w.pluginsDir = ⟨"/plugins"⟩) (name : String) :
    w.descriptorOf (Plugin.inside w.pluginsDir name)
      = (Plugin.inside ⟨"/plugins"⟩ name).directory.child "readme.md" := by
  rw [descriptorOf, hconfig, hdir]
  rfl

section BrokenBeside

variable (hconfig : w.config = Config.small ⟨"/plugins"⟩) (hdir : w.pluginsDir = ⟨"/plugins"⟩)
include hconfig hdir

theorem unreadable_brokenBeside :
    w.Unreadable (.small brokenBeside) (Plugin.inside w.pluginsDir "a") := by
  refine ⟨⟨#[0xFF]⟩, ?_, by decide⟩
  rw [descriptorOf_small hconfig hdir]
  exact (FileTree.find_eq_ok_iff (FileTree.proper_small proper_brokenBeside)).mpr
    ⟨by decide, ⟨⟨_, rfl⟩, rfl, ⟨_, rfl⟩, rfl, ⟨_, rfl⟩, rfl, trivial⟩, rfl⟩

theorem find_beside_broken :
    (FileTree.small brokenBeside).find (w.descriptorOf (Plugin.inside w.pluginsDir "b"))
      = .ok (.file .empty) := by
  rw [descriptorOf_small hconfig hdir]
  exact (FileTree.find_eq_ok_iff (FileTree.proper_small proper_brokenBeside)).mpr
    ⟨by decide, ⟨⟨_, rfl⟩, rfl, ⟨_, rfl⟩, rfl, ⟨_, rfl⟩, rfl, trivial⟩, rfl⟩

theorem readable_beside_broken :
    ¬ w.Unreadable (.small brokenBeside) (Plugin.inside w.pluginsDir "b") := by
  rintro ⟨bytes, hfind, htext⟩
  rw [find_beside_broken hconfig hdir] at hfind
  cases hfind
  exact absurd htext (by decide)

/-- An empty file holds no manifest. -/
theorem audited?_beside_broken :
    w.audited? (.small brokenBeside) (Plugin.inside w.pluginsDir "b") = none := by
  have htext : String.fromUTF8? ByteArray.empty = some "" := by decide
  have hmanifest : References.manifest? "" = none := rfl
  rw [audited?_of_find (find_beside_broken hconfig hdir), heldBy?, htext, Option.bind_some, hmanifest,
    Option.map_none]

end BrokenBeside

/-! ## §E The report -/

/-- **`audit_readable_iff`** — an audit gives a report exactly when no descriptor of a selected plugin is
a file that is no text. The report counts the plugins and has the entries of those with a manifest, in
order; where there is none, the cause is such a descriptor. Audited alone, a plugin has the same entry,
and it is refused only for its own descriptor. -/
theorem audit_readable_iff (w : Workspace) (t : FileTree) (s : Selection) :
    let ps := (w.select t s).value
    let alone := fun p : Plugin => (w.audit t ⟨[p.relPath], none⟩).value
    (∀ r, (w.audit t s).value = .ok r ↔
      (∀ p ∈ ps, ¬ w.Unreadable t p) ∧ r = ⟨ps.length, ps.filterMap (w.audited? t)⟩) ∧
    (∀ e, (w.audit t s).value = .error e ↔ (∃ p ∈ ps, w.Unreadable t p) ∧ e = .notText) ∧
    ∀ p ∈ ps, (w.Unreadable t p ∧ alone p = .error .notText) ∨
      (¬ w.Unreadable t p ∧ alone p = .ok ⟨1, (w.audited? t p).toList⟩) := by
  intro ps alone
  refine ⟨fun r => ?_, fun e => ?_, fun p hp => ?_⟩
  · by_cases h : ∃ p ∈ ps, w.Unreadable t p
    · rw [audit_of_unreadable h]
      constructor
      · intro hr
        cases hr
      · rintro ⟨hreadable, -⟩
        obtain ⟨p, hp, hunreadable⟩ := h
        exact absurd hunreadable (hreadable p hp)
    · have hreadable : ∀ p ∈ ps, ¬ w.Unreadable t p := fun p hp hunreadable => h ⟨p, hp, hunreadable⟩
      rw [audit_of_readable hreadable, Except.ok.injEq]
      exact ⟨fun hr => ⟨hreadable, hr.symm⟩, fun hr => hr.2.symm⟩
  · by_cases h : ∃ p ∈ ps, w.Unreadable t p
    · rw [audit_of_unreadable h, Except.error.injEq]
      exact ⟨fun he => ⟨h, he.symm⟩, fun he => he.2.symm⟩
    · rw [audit_of_readable fun p hp hunreadable => h ⟨p, hp, hunreadable⟩]
      constructor
      · intro he
        cases he
      · exact fun he => absurd he.1 h
  · -- Named by its own path, the plugin is selected again.
    have hself : (w.select t ⟨[p.relPath], none⟩).value = [p] := by
      obtain ⟨relPath, rfl⟩ := Discovery.exists_inside_of_mem_select hp
      rw [select_named]
      exact congrArg (fun q => [q]) (Discovery.inside_relPath w.pluginsDir relPath)
    by_cases h : w.Unreadable t p
    · refine Or.inl ⟨h, audit_of_unreadable ?_⟩
      rw [hself]
      exact ⟨p, List.mem_singleton.mpr rfl, h⟩
    · refine Or.inr ⟨h, ?_⟩
      show (w.audit t ⟨[p.relPath], none⟩).value = _
      rw [audit_of_readable (by rw [hself]; simpa using h), hself, List.filterMap_cons]
      cases w.audited? t p <;> rfl

/-- The plugin beside the broken descriptor keeps its own report. -/
theorem audit_beside_broken : ∃ (w : Workspace) (p : Plugin), w.IsOpened ∧
    p ∈ (w.select (.small brokenBeside) ⟨["a", "b"], none⟩).value ∧
    (w.audit (.small brokenBeside) ⟨[p.relPath], none⟩).value
      = .ok ⟨1, (w.audited? (.small brokenBeside) p).toList⟩ := by
  obtain ⟨w, hw, hconfig, hdir⟩ := exists_brokenBeside
  have hp : Plugin.inside w.pluginsDir "b"
      ∈ (w.select (.small brokenBeside) ⟨["a", "b"], none⟩).value :=
    List.mem_cons_of_mem _ List.mem_cons_self
  refine ⟨w, _, hw, hp, ?_⟩
  rcases (audit_readable_iff w (.small brokenBeside) ⟨["a", "b"], none⟩).2.2 _ hp
    with ⟨hunreadable, -⟩ | ⟨-, halone⟩
  · exact absurd hunreadable (readable_beside_broken hconfig hdir)
  · exact halone

/-- **`one_descriptor_ends_audit`** — one byte that is no text in a descriptor takes the report from the
plugin beside it, which audited alone has one. -/
theorem one_descriptor_ends_audit : ∃ w : Workspace, w.IsOpened ∧
    (FileTree.small brokenBeside).Proper ∧
    (w.audit (.small brokenBeside) ⟨["a", "b"], none⟩).value = .error .notText ∧
    (w.audit (.small brokenBeside) ⟨["b"], none⟩).value = .ok ⟨1, []⟩ := by
  obtain ⟨w, hw, hconfig, hdir⟩ := exists_brokenBeside
  refine ⟨w, hw, FileTree.proper_small proper_brokenBeside, audit_of_unreadable ?_, ?_⟩
  · exact ⟨_, List.mem_cons_self, unreadable_brokenBeside hconfig hdir⟩
  · have hreadable : ∀ p ∈ (w.select (.small brokenBeside) ⟨["b"], none⟩).value,
        ¬ w.Unreadable (.small brokenBeside) p := by
      rw [select_named]
      exact List.forall_mem_singleton.mpr (readable_beside_broken hconfig hdir)
    rw [audit_of_readable hreadable, select_named,
      List.filterMap_cons_none (audited?_beside_broken hconfig hdir)]
    rfl

end Workspace

end PluginVet
