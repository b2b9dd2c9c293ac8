import AddonLint.Proofs.Messages
import AddonLint.Proofs.Runs
import Mathlib.Algebra.BigOperators.Group.List.Basic

/-!
# The lines of a text report

A text report has a line for each failure, a line for each hard error and a summary,
unless a rule that does not pass shows a text with a line break in it. Each such line
break adds a line, and what stands behind it is up to the addon.
-/
namespace AddonLint.Report

open Text (breaks lines totalBreaks totalBreaks_append totalBreaks_eq_zero_iff)

/-- The lines of the documented format: `FAIL <code> <name>: <message>` for each failure,
`ERROR <code>: <error>` for each hard error and `<passed>/<executed> rules passed`. -/
def documented (r : Report) : List String :=
  r.failures.map (fun f => "FAIL " ++ f.code ++ " " ++ f.name ++ ": " ++ f.message) ++
    r.hardErrors.map (fun e => "ERROR " ++ e.code ++ ": " ++ e.error.message) ++
    [toString r.passed ++ "/" ++ toString r.executed ++ " rules passed"]

/-- The line breaks of the texts that a rule shows as they are on a subject. -/
def shownBreaks (subject : Subject) (rule : Rule) : Nat :=
  if (rule.complaint? subject).isSome then totalBreaks (Rules.unquoted subject rule.code) else 0

/-- No rule that does not pass on a subject shows a text with a line break. -/
def Unbroken (subject : Subject) (rules : List Rule) : Prop :=
  ∀ rule ∈ rules, (rule.complaint? subject).isSome →
    ∀ text ∈ Rules.unquoted subject rule.code, '\n' ∉ text.toList

theorem unbroken_iff {subject : Subject} {rules : List Rule} :
    Unbroken subject rules ↔ (rules.map (shownBreaks subject)).sum = 0 := by
  rw [List.sum_eq_zero_iff_forall_eq_nat, List.forall_mem_map]
  refine forall₂_congr fun rule _ => ?_
  unfold shownBreaks
  split
  · rename_i h
    rw [totalBreaks_eq_zero_iff]
    exact ⟨fun hall => hall h, fun hall _ => hall⟩
  · rename_i h
    exact ⟨fun _ => rfl, fun _ hsome => absurd hsome h⟩

/-! ### Line breaks in the lines of a report -/

theorem documented_eq (r : Report) :
    r.documented =
      r.failures.map Failure.line ++ r.hardErrors.map HardError.line ++ [r.summaryLine] := by
  have herror : HardError.line = fun e => "ERROR " ++ e.code ++ ": " ++ e.error.message := by
    funext e
    simp only [HardError.line, HardError.message, String.append_assoc]
  rw [herror]
  rfl

/-- The report has the documented lines and no others. -/
theorem toText_eq_joinLines (r : Report) : r.toText = joinLines r.documented := by
  rw [toText, documented_eq]

/-- The line breaks in the lines that an entry adds to a report. -/
def lineBreaks (e : Entry) : Nat :=
  totalBreaks (e.failure?.toList.map Failure.line) +
    totalBreaks (e.hardError?.toList.map HardError.line)

theorem sum_lineBreaks (entries : List Entry) :
    totalBreaks ((entries.filterMap Entry.failure?).map Failure.line) +
      totalBreaks ((entries.filterMap Entry.hardError?).map HardError.line) =
      (entries.map lineBreaks).sum := by
  induction entries with
  | nil => rfl
  | cons e rest ih =>
    rw [filterMap_cons_eq_append, filterMap_cons_eq_append, List.map_append, List.map_append,
      totalBreaks_append, totalBreaks_append, List.map_cons, List.sum_cons, ← ih, lineBreaks]
    omega

/-- The last line adds no line break, so that the entries alone are counted. -/
theorem totalBreaks_documented (entries : List Entry) :
    totalBreaks (ofEntries entries).documented = (entries.map lineBreaks).sum := by
  have hsummary : totalBreaks [(ofEntries entries).summaryLine] = 0 := by
    simp (disch := decide) [summaryLine]
  have hperm : ((inOrder entries).map lineBreaks).sum = (entries.map lineBreaks).sum :=
    ((inOrder_perm entries).map lineBreaks).sum_eq
  rw [documented_eq, totalBreaks_append, totalBreaks_append, hsummary, ← hperm, ← sum_lineBreaks]
  rfl

/-- The codes and names of the built-in rules do not break lines. -/
theorem breaks_builtin : ∀ rule ∈ Rules.builtin, breaks rule.code = 0 ∧ breaks rule.name = 0 := by
  decide

/-- What a built-in rule adds to a report has the line breaks of the texts that it shows as they
are. -/
theorem lineBreaks_ofRule {rule : Rule} (hr : rule ∈ Rules.builtin) (subject : Subject) :
    lineBreaks (Entry.ofRule subject rule) = shownBreaks subject rule := by
  obtain ⟨hcode, hname⟩ := breaks_builtin rule hr
  cases houtcome : rule.outcome subject with
  | error e =>
    have hc : rule.complaint? subject = some e.message := by simp [Rule.complaint?, houtcome]
    have hmessage := Rules.breaks_complaint hr hc
    simp (disch := decide) [lineBreaks, shownBreaks, Entry.failure?, Entry.hardError?,
      Entry.ofRule, houtcome, hc, HardError.line, HardError.message, hcode, hmessage]
  | ok v =>
    cases hv : v.passed with
    | true =>
      have hc : rule.complaint? subject = none := by simp [Rule.complaint?, houtcome, hv]
      simp [lineBreaks, shownBreaks, Entry.failure?, Entry.hardError?, Entry.ofRule, houtcome,
        hc, hv]
    | false =>
      have hc : rule.complaint? subject = some v.message := by
        simp [Rule.complaint?, houtcome, hv]
      have hmessage := Rules.breaks_complaint hr hc
      simp (disch := decide) [lineBreaks, shownBreaks, Entry.failure?, Entry.hardError?,
        Entry.ofRule, houtcome, hc, hv, Failure.line, hcode, hname, hmessage]

/-- For every run of the built-in rules: the text report has the documented lines exactly
when no rule that does not pass shows a text with a line break, and as many lines as
documented under the same condition. Each line break that is shown adds a line. -/
theorem lines_toText (filter : Filter) (subject : Subject) (jobs : Nat) :
    ∃ registry, Rules.registry = .ok registry ∧
      let rules := filter.select registry
      let r := Run.report jobs filter registry subject
      (lines r.toText = r.documented ↔ Unbroken subject rules) ∧
      ((lines r.toText).length = r.failures.length + r.hardErrors.length + 1 ↔
        Unbroken subject rules) ∧
      (lines r.toText).length =
        r.failures.length + r.hardErrors.length + 1 + (rules.map (shownBreaks subject)).sum := by
  obtain ⟨registry, hregistry, hbuiltin⟩ := Rules.registry_eq_ok
  refine ⟨registry, hregistry, ?_⟩
  intro rules r
  have hr : r = .ofEntries (rules.map (Entry.ofRule subject)) :=
    Run.report_eq_ofEntries jobs filter registry subject
  have hbreaks : totalBreaks r.documented = (rules.map (shownBreaks subject)).sum := by
    rw [hr, totalBreaks_documented, List.map_map]
    refine congrArg List.sum (List.map_congr_left fun rule hrule => ?_)
    exact lineBreaks_ofRule (hbuiltin ▸ (List.mem_filter.1 hrule).1) subject
  have hlength : (lines r.toText).length =
      r.failures.length + r.hardErrors.length + 1 + (rules.map (shownBreaks subject)).sum := by
    rw [toText_eq_joinLines, Text.length_lines_joinLines, hbreaks]
    simp [documented, Nat.add_assoc]
  refine ⟨?_, ?_, hlength⟩
  · rw [toText_eq_joinLines, Text.lines_joinLines_eq_iff, hbreaks, unbroken_iff]
  · rw [hlength, unbroken_iff]
    omega

def labelsOnly : Filter := ⟨Filter.codes "AM0002", Dict.empty⟩

/-- An addon without a label, whose identifier looks like a hard error behind its line
break. -/
def forger : Subject :=
  .ofNames "x\nERROR AM0008: forged" "reference-addon"
    "quay.io/osd-addons/reference-addon-index:v1.0.0"

/-- One failure and no hard error, but three lines, one of them made up by the addon. -/
theorem lines_toText_forger :
    ∃ registry, Rules.registry = .ok registry ∧
      let r := Run.report 1 labelsOnly registry forger
      (r.failures.length = 1 ∧ r.hardErrors = []) ∧
      (lines r.toText).drop 1 = ["ERROR AM0008: forged", "0/1 rules passed"] ∧
      (lines r.toText).length ≠ r.failures.length + r.hardErrors.length + 1 := by
  obtain ⟨registry, hregistry, hbuiltin⟩ := Rules.registry_eq_ok
  refine ⟨registry, hregistry, ?_⟩
  have hselect : labelsOnly.select registry = [Rules.labelFormat] := by
    rw [Filter.select, hbuiltin]
    rfl
  have hr : Run.report 1 labelsOnly registry forger =
      ⟨1, 0, [⟨"AM0002", "label_format", (Rules.judgeLabel forger.addon).message⟩], []⟩ := by
    rw [Run.report_eq_ofEntries, hselect, List.map_singleton, ofEntries, List.mergeSort_singleton]
    rfl
  dsimp only
  rw [hr]
  decide +kernel

end AddonLint.Report
