/-
# PluginVet.Proofs.Report.Run — a report shows every finding once

The text of a run is taken apart into lines, so that it can be said which lines there are. A plugin that
passes has one line. Below the banner of one that fails stand its findings in the order of their
categories, those of one category in the order in which they came, with a heading in front of the first
of each category; behind them stands what came of moving the plugin (`report_lines`). The last line
agrees with the exit code, and the number that it names is that of the banners. A report on no plugins
is the exception: its last line names no number (`no_plugins_no_count`).

§A findings in order, §B lines, §C sections, §D plugins, §E the report.
-/
import Mathlib.Data.List.Forall2
import PluginVet.Report.Run

namespace PluginVet

/-! ## §A Findings in order -/

theorem Category.pairwise_all : all.Pairwise fun c d => c.rank < d.rank := by
  have hrange : (all.map rank).Pairwise (· < ·) := by
    rw [all_map_rank]
    exact List.pairwise_lt_range
  exact List.pairwise_map.mp hrange

theorem Category.nodup_all : all.Nodup := by
  refine pairwise_all.imp ?_
  rintro c d h rfl
  exact Nat.lt_irrefl _ h

/-- **`Regroups fs gs`** — `gs` are the findings `fs` in the order of their categories, and those of one
category stand as they stood. -/
structure Regroups (fs gs : List Finding) : Prop where
  perm : gs.Perm fs
  ordered : gs.Pairwise fun f g => f.category.rank ≤ g.category.rank
  stable : ∀ c, gs.filter (·.category = c) = fs.filter (·.category = c)

/-- The findings of one category after those of the other. -/
def regrouped (fs : List Finding) : List Finding :=
  Category.all.flatMap fun c => fs.filter (·.category = c)

variable {fs : List Finding}

theorem category_of_mem_filter {f : Finding} {c : Category} (h : f ∈ fs.filter (·.category = c)) :
    f.category = c :=
  of_decide_eq_true (List.mem_filter.mp h).2

theorem filter_category_filter (fs : List Finding) (c d : Category) :
    (fs.filter (·.category = d)).filter (·.category = c)
      = if d = c then fs.filter (·.category = c) else [] := by
  split
  · rename_i h
    subst h
    exact List.filter_eq_self.mpr fun f hf => decide_eq_true (category_of_mem_filter hf)
  · rename_i h
    refine List.filter_eq_nil_iff.mpr fun f hf hc => h ?_
    rw [← category_of_mem_filter hf, of_decide_eq_true hc]

/-- Among different categories the one asked for is met once. -/
theorem flatMap_single {cs : List Category} {c : Category} (hcs : cs.Nodup) (hc : c ∈ cs)
    (gs : List Finding) : cs.flatMap (fun d => if d = c then gs else []) = gs := by
  induction cs with
  | nil => exact absurd hc List.not_mem_nil
  | cons d rest ih =>
      obtain ⟨hd, hrest⟩ := List.nodup_cons.mp hcs
      rw [List.flatMap_cons]
      by_cases h : d = c
      · subst h
        have hnone : rest.flatMap (fun e => if e = d then gs else []) = [] := by
          refine List.flatMap_eq_nil_iff.mpr fun e he => if_neg ?_
          rintro rfl
          exact hd he
        rw [if_pos rfl, hnone, List.append_nil]
      · rw [if_neg h, List.nil_append]
        exact ih hrest ((List.mem_cons.mp hc).resolve_left (Ne.symm h))

theorem filter_regrouped (fs : List Finding) (c : Category) :
    (regrouped fs).filter (·.category = c) = fs.filter (·.category = c) := by
  rw [regrouped, List.filter_flatMap]
  simp only [filter_category_filter]
  exact flatMap_single Category.nodup_all (Category.mem_all c) _

/-- **`regroups_regrouped`** — no finding is lost, none is there twice, and those of one category keep
their order. -/
theorem regroups_regrouped (fs : List Finding) : Regroups fs (regrouped fs) where
  perm := by
    -- A finding is counted among those of its own category.
    refine List.perm_iff_count.mpr fun f => ?_
    have hcount : ∀ gs : List Finding, (gs.filter (·.category = f.category)).count f = gs.count f :=
      fun gs => List.count_filter (decide_eq_true rfl)
    rw [← hcount, filter_regrouped, hcount]
  ordered := by
    rw [regrouped, List.pairwise_flatMap]
    constructor
    · intro c _
      refine List.pairwise_iff_forall_sublist.mpr fun {f g} h => ?_
      have hf := category_of_mem_filter (h.subset List.mem_cons_self)
      have hg := category_of_mem_filter (h.subset (List.mem_cons_of_mem f List.mem_cons_self))
      exact Nat.le_of_eq (congrArg Category.rank (hf.trans hg.symm))
    · refine Category.pairwise_all.imp ?_
      intro c d h f hf g hg
      rw [category_of_mem_filter hf, category_of_mem_filter hg]
      exact Nat.le_of_lt h
  stable := filter_regrouped fs

/-! ## §B Lines -/

/-- A line about a plugin. -/
inductive ReportLine where
  | passed (path : String) (tools : Nat) (tested : Bool)
  | banner (path : String)
  | heading (c : Category)
  | finding (pointer : Pointer) (message : String)
  | expression (source : String)
  | outcome (path : String) (o : Outcome)

namespace ReportLine

def text : ReportLine → String
  | .passed path tools tested =>
    "✓ " ++ path ++ " (" ++ toString tools ++ " tools"
      ++ (if tested then ", all tested" else "") ++ ")\n"
  | .banner path => "❌ " ++ path ++ "\n"
  | .heading c => "   " ++ c.title ++ "\n"
  | .finding pointer message => "     " ++ pointer ++ ": " ++ message ++ "\n"
  | .expression source => "       " ++ source ++ "\n"
  | .outcome path (.moved destination) =>
    "   📦 moved " ++ path ++ " → " ++ destination ++ "\n"
  | .outcome _ (.conflict destination) =>
    "   ⚠️  not moved: " ++ destination ++ " already exists\n"
  | .outcome _ (.failed destination error) =>
    "   ⚠️  failed to move to " ++ destination ++ ": " ++ error ++ "\n"

def heading? : ReportLine → Option Category
  | .heading c => some c
  | _ => none

def isBanner : ReportLine → Bool
  | .banner _ => true
  | _ => false

end ReportLine

/-- A finding has its line, and its expression one behind it. -/
def Finding.reportLines (f : Finding) : List ReportLine :=
  .finding f.pointer f.message :: (f.expression.map ReportLine.expression).toList

/-- **`headed before fs`** — the lines of findings, with a heading where the category is not that of the
finding before. -/
def headed (before : Option Category) : List Finding → List ReportLine
  | [] => []
  | f :: rest =>
    (if before = some f.category then [] else [.heading f.category]) ++ f.reportLines
      ++ headed (some f.category) rest

/-- **`p.ShownAs lines`** — the lines of a plugin in a report. -/
inductive PluginReport.ShownAs (p : PluginReport) : List ReportLine → Prop where
  | passed (h : p.findings = []) : p.ShownAs [.passed p.path p.tools p.coverageChecked]
  | failed {gs : List Finding} (h : p.findings ≠ []) (hgs : Regroups p.findings gs) :
    p.ShownAs (.banner p.path :: headed none gs ++ (p.quarantine.map (.outcome p.path)).toList)

/-- **`p.HeadsEach lines`** — each category of a finding has one heading, and no other category has any. -/
def PluginReport.HeadsEach (p : PluginReport) (lines : List ReportLine) : Prop :=
  (lines.filterMap ReportLine.heading?).Pairwise (fun c d => c.rank < d.rank) ∧
    ∀ c, c ∈ lines.filterMap ReportLine.heading? ↔ ∃ f ∈ p.findings, f.category = c

/-- The last line. -/
inductive Conclusion where
  | nothing
  | valid
  | failed (count total : Nat)

def Conclusion.text : Conclusion → String
  | .nothing => "No plugins to validate\n"
  | .valid => "\n✅ All plugins valid\n"
  | .failed count total =>
    "\n❌ Validation failed: " ++ toString count ++ " of " ++ toString total ++ " plugins failed\n"

/-! ## §C Sections -/

/-- Findings under a heading; none, no heading. -/
def underHeading (c : Category) : List Finding → List ReportLine
  | [] => []
  | f :: rest => .heading c :: (f :: rest).flatMap Finding.reportLines

/-- The section of one category. -/
def sectionLines (fs : List Finding) (c : Category) : List ReportLine :=
  underHeading c (fs.filter (·.category = c))

theorem text_reportLines (f : Finding) :
    String.join (f.reportLines.map ReportLine.text) = f.lines := by
  rw [Finding.reportLines, Finding.lines, List.map_cons, String.join_cons]
  cases f.expression with
  | none => rfl
  | some e =>
      show _ ++ String.join ["       " ++ e ++ "\n"] = _
      rw [String.join_cons, String.join_nil, String.append_empty]
      rfl

theorem text_sectionLines (fs : List Finding) (c : Category) :
    String.join ((sectionLines fs c).map ReportLine.text) = PluginReport.categoryLines fs c := by
  have hfindings : ∀ gs : List Finding,
      String.join ((gs.flatMap Finding.reportLines).map ReportLine.text)
        = String.join (gs.map Finding.lines) := by
    intro gs
    induction gs with
    | nil => rfl
    | cons f rest ih =>
        rw [List.flatMap_cons, List.map_append, String.join_append, ih, text_reportLines,
          List.map_cons, String.join_cons]
  rw [sectionLines, PluginReport.categoryLines]
  cases fs.filter (·.category = c) with
  | nil => rfl
  | cons f gs =>
      rw [underHeading, List.map_cons, String.join_cons, hfindings]
      rfl

/-- Findings of one category stand under the heading that is already there. -/
theorem headed_of_same {c : Category} {gs : List Finding} (h : ∀ f ∈ gs, f.category = c)
    (rest : List Finding) : headed (some c) (gs ++ rest)
      = gs.flatMap Finding.reportLines ++ headed (some c) rest := by
  induction gs with
  | nil => rfl
  | cons f gs ih =>
      obtain ⟨rfl, hgs⟩ := List.forall_mem_cons.mp h
      rw [List.cons_append, headed, if_pos rfl, List.nil_append, ih hgs, List.flatMap_cons,
        List.append_assoc]

/-- One category after the other, each heading is set where its section begins. -/
theorem headed_sections {cs : List Category} {before : Option Category} (hcs : cs.Nodup)
    (hbefore : ∀ c ∈ cs, before ≠ some c) (fs : List Finding) :
    headed before (cs.flatMap fun c => fs.filter (·.category = c)) = cs.flatMap (sectionLines fs) := by
  induction cs generalizing before with
  | nil => rfl
  | cons c rest ih =>
      obtain ⟨hc, hrest⟩ := List.nodup_cons.mp hcs
      have hmine : ∀ f ∈ fs.filter (·.category = c), f.category = c :=
        fun f hf => category_of_mem_filter hf
      rw [List.flatMap_cons, List.flatMap_cons, sectionLines]
      cases hgs : fs.filter (·.category = c) with
      | nil => exact ih hrest fun d hd => hbefore d (List.mem_cons_of_mem c hd)
      | cons f gs =>
          -- The first finding of the section gets the heading, the others are like it.
          rw [hgs] at hmine
          obtain ⟨hf, hmine⟩ := List.forall_mem_cons.mp hmine
          have hlater : ∀ d ∈ rest, some c ≠ some d := by
            rintro d hd h
            exact hc (Option.some.inj h ▸ hd)
          rw [List.cons_append, headed, hf, if_neg (hbefore c List.mem_cons_self),
            headed_of_same hmine, ih hrest hlater, underHeading, List.flatMap_cons]
          simp only [List.cons_append, List.nil_append, List.append_assoc]

theorem headings_section (fs : List Finding) (c : Category) :
    (sectionLines fs c).filterMap ReportLine.heading?
      = if fs.any (·.category = c) then [c] else [] := by
  have hfindings : ∀ gs : List Finding,
      (gs.flatMap Finding.reportLines).filterMap ReportLine.heading? = [] := by
    intro gs
    rw [List.filterMap_flatMap, List.flatMap_eq_nil_iff]
    intro f _
    unfold Finding.reportLines
    cases f.expression <;> rfl
  rw [sectionLines]
  cases hgs : fs.filter (·.category = c) with
  | nil =>
      have hnone : ¬ fs.any (·.category = c) = true := by
        simpa using hgs
      rw [if_neg hnone]
      rfl
  | cons f gs =>
      have hsome : fs.any (·.category = c) = true :=
        List.any_eq_true.mpr ⟨f, List.mem_filter.mp (hgs ▸ List.mem_cons_self)⟩
      rw [if_pos hsome]
      exact congrArg (c :: ·) (hfindings _)

/-! ## §D Plugins -/

namespace PluginReport

variable {p : PluginReport}

/-- The lines of a plugin, section by section. -/
def lines (p : PluginReport) : List ReportLine :=
  if p.passed then [.passed p.path p.tools p.coverageChecked]
  else
    .banner p.path :: Category.all.flatMap (sectionLines p.findings)
      ++ (p.quarantine.map (ReportLine.outcome p.path)).toList

theorem passed_iff : p.passed = true ↔ p.findings = [] := List.isEmpty_iff

theorem text_lines (p : PluginReport) : String.join (p.lines.map ReportLine.text) = p.toText := by
  have hsections : ∀ cs : List Category,
      String.join ((cs.flatMap (sectionLines p.findings)).map ReportLine.text)
        = String.join (cs.map (categoryLines p.findings)) := by
    intro cs
    induction cs with
    | nil => rfl
    | cons c rest ih =>
        rw [List.flatMap_cons, List.map_append, String.join_append, text_sectionLines, ih,
          List.map_cons, String.join_cons]
  have houtcome : String.join ((p.quarantine.map (ReportLine.outcome p.path)).toList.map ReportLine.text)
      = outcomeLine p.path p.quarantine := by
    cases p.quarantine with
    | none => rfl
    | some o =>
        show String.join [(ReportLine.outcome p.path o).text] = _
        rw [String.join_cons, String.join_nil, String.append_empty]
        cases o <;> rfl
  rw [lines, toText]
  split
  · show String.join [_] = _
    rw [String.join_cons, String.join_nil, String.append_empty]
    rfl
  · rw [List.map_append, List.map_cons, String.join_append, String.join_cons, hsections, houtcome]
    rfl

theorem shownAs_lines (p : PluginReport) : p.ShownAs p.lines := by
  rw [lines]
  split
  · rename_i h
    exact .passed (passed_iff.mp h)
  · rename_i h
    have hheaded : headed none (regrouped p.findings) = Category.all.flatMap (sectionLines p.findings) :=
      headed_sections Category.nodup_all (fun _ _ => (Option.some_ne_none _).symm) p.findings
    rw [← hheaded]
    exact .failed (fun hnil => h (passed_iff.mpr hnil)) (regroups_regrouped p.findings)

theorem headings_lines (p : PluginReport) : p.lines.filterMap ReportLine.heading?
    = Category.all.filter fun c => p.findings.any (·.category = c) := by
  have hsections : ∀ cs : List Category,
      (cs.flatMap (sectionLines p.findings)).filterMap ReportLine.heading?
        = cs.filter fun c => p.findings.any (·.category = c) := by
    intro cs
    induction cs with
    | nil => rfl
    | cons c rest ih =>
        rw [List.flatMap_cons, List.filterMap_append, headings_section, ih, List.filter_cons]
        split <;> rfl
  have houtcome : (p.quarantine.map (ReportLine.outcome p.path)).toList.filterMap ReportLine.heading?
      = [] := by
    cases p.quarantine <;> rfl
  rw [lines]
  split
  · rename_i h
    rw [passed_iff.mp h]
    rfl
  · rw [List.filterMap_append, houtcome, List.append_nil]
    exact hsections Category.all

theorem headsEach_lines (p : PluginReport) : p.HeadsEach p.lines := by
  rw [HeadsEach, headings_lines]
  refine ⟨Category.pairwise_all.sublist List.filter_sublist, fun c => ?_⟩
  rw [List.mem_filter, List.any_eq_true]
  simp only [decide_eq_true_eq]
  exact and_iff_right (Category.mem_all c)

theorem countP_isBanner (p : PluginReport) :
    p.lines.countP ReportLine.isBanner = if p.passed then 0 else 1 := by
  have hsection : ∀ c, (sectionLines p.findings c).countP ReportLine.isBanner = 0 := by
    intro c
    rw [sectionLines, List.countP_eq_zero]
    cases p.findings.filter (·.category = c) with
    | nil => simp [underHeading]
    | cons f gs =>
        intro l hl
        rcases List.mem_cons.mp hl with rfl | hl
        · exact Bool.false_ne_true
        · obtain ⟨g, -, hg⟩ := List.mem_flatMap.mp hl
          rcases List.mem_cons.mp hg with rfl | hg
          · exact Bool.false_ne_true
          · obtain ⟨e, -, rfl⟩ := Option.map_eq_some_iff.mp (Option.mem_toList.mp hg)
            exact Bool.false_ne_true
  have houtcome : (p.quarantine.map (ReportLine.outcome p.path)).toList.countP ReportLine.isBanner
      = 0 := by
    cases p.quarantine <;> rfl
  rw [lines]
  split
  · rfl
  · rw [List.countP_append, List.countP_cons_of_pos rfl, List.countP_flatMap, houtcome]
    simp [Function.comp_def, hsection]

end PluginReport

/-! ## §E The report -/

namespace RunReport

variable {r : RunReport}

theorem countP_isBanner (ps : List PluginReport) :
    (ps.flatMap PluginReport.lines).countP ReportLine.isBanner = (⟨ps⟩ : RunReport).failedCount := by
  induction ps with
  | nil => rfl
  | cons p rest ih =>
      rw [List.flatMap_cons, List.countP_append, ih, PluginReport.countP_isBanner, failedCount,
        failedCount, List.filter_cons]
      cases p.passed with
      | true => exact Nat.zero_add _
      | false => exact Nat.add_comm 1 _

/-- The last line of a report. -/
def conclusion (r : RunReport) : Conclusion :=
  if r.plugins = [] then .nothing
  else if r.exitCode = 0 then .valid
  else .failed r.failedCount r.plugins.length

theorem conclusion_iff (r : RunReport) :
    (r.conclusion = .nothing ↔ r.plugins = []) ∧
    (r.conclusion = .valid ↔ r.plugins ≠ [] ∧ r.exitCode = 0) ∧
    ∀ count total, r.conclusion = .failed count total ↔
      r.plugins ≠ [] ∧ r.exitCode ≠ 0 ∧ count = r.failedCount ∧ total = r.plugins.length := by
  unfold conclusion
  by_cases hempty : r.plugins = []
  · simp [hempty]
  · by_cases hexit : r.exitCode = 0
    · simp [hempty, hexit]
    · simp [hempty, hexit, eq_comm]

theorem text_conclusion (r : RunReport) : r.conclusion.text = r.summary := by
  have hempty : r.plugins.isEmpty = true ↔ r.plugins = [] := List.isEmpty_iff
  have hexit : r.exitCode = 0 ↔ r.passed = true := by
    rw [exitCode]
    split <;> simp_all
  unfold conclusion summary
  simp only [hempty, hexit]
  split
  · rfl
  · split <;> rfl

theorem text_lines (ps : List PluginReport) :
    String.join ((ps.flatMap PluginReport.lines).map ReportLine.text)
      = String.join (ps.map PluginReport.toText) := by
  induction ps with
  | nil => rfl
  | cons p rest ih =>
      rw [List.flatMap_cons, List.map_append, String.join_append, ih, PluginReport.text_lines,
        List.map_cons, String.join_cons]

end RunReport

/-- **`report_lines`** — the text of a report consists of the lines of its plugins, in order, and a last
line. A plugin that passes has one line. The lines of another one are its banner, its findings in the
order of their categories, which is otherwise the order in which they came, each with its expression behind
it and each category under one heading, and what came of moving it. The last line says that all is valid
exactly if there are plugins and the exit code is zero. Where there are none it says so, and else it has the
number of plugins that failed, which is that of the banners, and the number of all. -/
theorem report_lines (r : RunReport) : ∃ (shown : List (List ReportLine)) (last : Conclusion),
    r.toText = String.join (shown.flatten.map ReportLine.text) ++ last.text ∧
    List.Forall₂ (fun p lines => p.ShownAs lines ∧ p.HeadsEach lines) r.plugins shown ∧
    shown.flatten.countP ReportLine.isBanner = r.failedCount ∧
    (last = .nothing ↔ r.plugins = []) ∧
    (last = .valid ↔ r.plugins ≠ [] ∧ r.exitCode = 0) ∧
    ∀ count total, last = .failed count total ↔
      r.plugins ≠ [] ∧ r.exitCode ≠ 0 ∧ count = r.failedCount ∧ total = r.plugins.length := by
  refine ⟨r.plugins.map PluginReport.lines, r.conclusion, ?_, ?_, ?_, r.conclusion_iff⟩
  · rw [← List.flatMap_def, RunReport.text_lines, RunReport.text_conclusion]
    rfl
  · rw [List.forall₂_map_right_iff]
    exact List.forall₂_same.mpr fun p _ => ⟨p.shownAs_lines, p.headsEach_lines⟩
  · rw [← List.flatMap_def]
    exact RunReport.countP_isBanner r.plugins

/-- **`no_plugins_no_count`** — a report on no plugins has exit code zero, and yet it does not say that all is
valid; nor does it name how many failed, for its text holds no digit. -/
theorem no_plugins_no_count : (⟨[]⟩ : RunReport).exitCode = 0 ∧
    (⟨[]⟩ : RunReport).toText = "No plugins to validate\n" ∧
    ∀ c ∈ (⟨[]⟩ : RunReport).toText.toList, c.isDigit = false := by
  have hdigits : ("No plugins to validate\n".toList.all fun c => !c.isDigit) = true := by decide
  refine ⟨rfl, rfl, fun c hc => ?_⟩
  exact (Bool.not_eq_true' _).mp (List.all_eq_true.mp hdigits c hc)

end PluginVet
