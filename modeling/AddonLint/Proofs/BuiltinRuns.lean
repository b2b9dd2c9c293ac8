import AddonLint.Proofs.Conditions

/-!
# Runs of the built-in rules

A run of the built-in rules is judged by their conditions alone. It succeeds when those of all
selected rules hold. Each selected rule whose condition does not hold leaves one trace in the
report, the others leave none, and no rule but the one on service versions is ever without a
verdict.
-/
namespace AddonLint.Rules

open Report (Entry)

/-- What a report says about a rule is one failure or one hard error, with a text. -/
def ReportedOnce (r : Report) (rule : Rule) : Prop :=
  (∃ message, message ≠ "" ∧ r.about rule.code = ([⟨rule.code, rule.name, message⟩], [])) ∨
    ∃ error, error.message ≠ "" ∧ r.about rule.code = ([], [⟨rule.code, error⟩])

section Answers

variable {subject : Subject} {rule : Rule} {r : Report}

theorem Answers.exists_pass_iff (h : Answers subject rule) :
    (∃ v, rule.runner subject = .verdict v ∧ v.passed = true) ↔ Holds subject rule.code := by
  cases h with
  | verdict hrun h =>
    cases h with
    | pass h => exact iff_of_true ⟨_, hrun, rfl⟩ h
    | fail h hmessage =>
      refine iff_of_false ?_ h
      rintro ⟨v, hother, hv⟩
      cases hrun.symm.trans hother
      cases hv
  | malformed hrun hcode h =>
    refine iff_of_false ?_ h
    rintro ⟨v, hother, -⟩
    cases hrun.symm.trans hother

/-- What a report says about a rule is what the rule itself came to. -/
def Shows (r : Report) (subject : Subject) (rule : Rule) : Prop :=
  r.about rule.code = ((Entry.ofRule subject rule).failure?.toList,
    (Entry.ofRule subject rule).hardError?.toList)

theorem Answers.about_of_holds (h : Answers subject rule) (hr : Shows r subject rule)
    (hholds : Holds subject rule.code) : r.about rule.code = ([], []) := by
  obtain ⟨v, hrun, hv⟩ := h.exists_pass_iff.mpr hholds
  rw [hr, Entry.failure?, Entry.hardError?, Entry.ofRule, Rule.outcome, hrun]
  simp [RunnerEnd.outcome, hv]

theorem malformedInput_ne_empty (reason : String) :
    (RuleError.malformedInput reason).message ≠ "" := by
  change "malformed input: " ++ reason ≠ ""
  simp

/-- A violated condition is reported in one entry, as a failure or as a hard error. -/
theorem Answers.reportedOnce (h : Answers subject rule) (hr : Shows r subject rule)
    (hviolated : ¬Holds subject rule.code) : ReportedOnce r rule := by
  rw [Shows, Entry.failure?, Entry.hardError?, Entry.ofRule, Rule.outcome] at hr
  cases h with
  | verdict hrun h =>
    cases h with
    | pass h => exact absurd h hviolated
    | @fail message h hmessage =>
      simp only [hrun, RunnerEnd.outcome, Verdict.fail, Bool.false_eq_true, if_false,
        Option.toList_some, Option.toList_none] at hr
      exact .inl ⟨message, hmessage, hr⟩
  | @malformed reason hrun hcode h =>
    simp only [hrun, RunnerEnd.outcome, Option.toList_some, Option.toList_none] at hr
    exact .inr ⟨.malformedInput reason, malformedInput_ne_empty reason, hr⟩

/-- Only the rule on service versions may end without a verdict. -/
theorem Answers.code_of_error (h : Answers subject rule)
    (herror : (∃ e, rule.runner subject = .error e) ∨
      ∃ payload, rule.runner subject = .crashed payload) : rule.code = "AM0008" := by
  cases h with
  | verdict hrun h =>
    rcases herror with ⟨e, he⟩ | ⟨payload, hp⟩
    · cases hrun.symm.trans he
    · cases hrun.symm.trans hp
  | malformed hrun hcode h => exact hcode

end Answers

/-- The conditions of the selected rules decide what a run says, for every filter and every number
of workers. -/
theorem report_conditions (filter : Filter) (subject : Subject) (jobs : Nat) :
    ∃ registry, Rules.registry = .ok registry ∧
      registry.rules.map Rule.code =
        ["AM0001", "AM0002", "AM0003", "AM0004", "AM0005", "AM0006", "AM0007", "AM0008"] ∧
      let rules := filter.select registry
      let r := Run.report jobs filter registry subject
      (r.isSuccess = true ↔ ∀ rule ∈ rules, Holds subject rule.code) ∧
        (∀ rule ∈ rules, Holds subject rule.code → r.about rule.code = ([], [])) ∧
        (∀ rule ∈ rules, ¬Holds subject rule.code → ReportedOnce r rule) ∧
        (∀ code ∉ rules.map Rule.code, r.about code = ([], [])) ∧
        ∀ h ∈ r.hardErrors, h.code = "AM0008" := by
  obtain ⟨registry, hregistry, hbuiltin⟩ := registry_eq_ok
  refine ⟨registry, hregistry, by rw [hbuiltin]; rfl, ?_⟩
  intro rules r
  have hr : r = .ofEntries (rules.map (Entry.ofRule subject)) :=
    Run.report_eq_ofEntries jobs filter registry subject
  have hanswers : ∀ rule ∈ rules, Answers subject rule := fun rule hrule =>
    answers_builtin (hbuiltin ▸ (List.mem_filter.mp hrule).1) subject
  have hcodes : (rules.map (Entry.ofRule subject)).map Entry.code = rules.map Rule.code := by
    rw [List.map_map]
    rfl
  have hnodup : (rules.map Rule.code).Nodup := by
    have hall : (registry.rules.map Rule.code).Nodup := by rw [hbuiltin]; decide
    exact hall.sublist (List.filter_sublist.map Rule.code)
  have hshows : ∀ rule ∈ rules, Shows r subject rule := fun rule hrule => by
    rw [Shows, hr]
    exact Report.about_ofEntries (hcodes ▸ hnodup) (List.mem_map_of_mem hrule)
  refine ⟨?_, ?_, ?_, ?_, ?_⟩
  · rw [hr, Run.isSuccess_ofEntries_iff]
    exact forall₂_congr fun rule hrule => (hanswers rule hrule).exists_pass_iff
  · exact fun rule hrule => (hanswers rule hrule).about_of_holds (hshows rule hrule)
  · exact fun rule hrule => (hanswers rule hrule).reportedOnce (hshows rule hrule)
  · exact fun code hcode => hr ▸ Report.about_of_not_mem (hcodes ▸ hcode)
  · intro h hh
    rw [hr] at hh
    obtain ⟨rule, hrule, ⟨e, he, rfl⟩ | ⟨payload, hp, rfl⟩⟩ := Run.mem_hardErrors_iff.mp hh
    · exact (hanswers rule hrule).code_of_error (.inl ⟨e, he⟩)
    · exact (hanswers rule hrule).code_of_error (.inr ⟨payload, hp⟩)

end AddonLint.Rules
