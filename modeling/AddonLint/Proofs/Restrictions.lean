import AddonLint.Proofs.Filters
import AddonLint.Proofs.Runs

/-!
# Rules do not influence each other

What a run says about a rule does not depend on which other rules are selected. The
report under a filter is the report on all rules, restricted to the codes that the
filter includes. So keeping some rules is the same as leaving out all others, and what
is said when some rules are kept and when they are left out makes up the full report.
-/
namespace AddonLint

namespace Report

/-- A report lists a failure or a hard error under a code. -/
def mentions (r : Report) (code : String) : Bool :=
  r.failureCodes.contains code || r.hardErrorCodes.contains code

/-- What a report on some rules says about those of them whose codes are selected. A rule
that is not mentioned passed. -/
def restrict (r : Report) (rules : List Rule) (selected : String → Bool) : Report where
  executed := rules.countP fun rule => selected rule.code
  passed := rules.countP fun rule => !r.mentions rule.code && selected rule.code
  failures := r.failures.filter fun f => selected f.code
  hardErrors := r.hardErrors.filter fun e => selected e.code

/-- Two reports make up a third one: nothing of it is lost or repeated, and no code is
mentioned in both of them. -/
structure Splits (full r s : Report) : Prop where
  executed : r.executed + s.executed = full.executed
  passed : r.passed + s.passed = full.passed
  failures : (r.failures ++ s.failures).Perm full.failures
  hardErrors : (r.hardErrors ++ s.hardErrors).Perm full.hardErrors
  disjoint : ∀ code, r.mentions code = true → s.mentions code = false

theorem mentions_eq_false_iff {r : Report} {code : String} :
    r.mentions code = false ↔ code ∉ r.failureCodes ∧ code ∉ r.hardErrorCodes := by
  simp [mentions]

/-- A restricted report mentions nothing but selected codes. -/
theorem mentions_restrict {r : Report} {rules : List Rule} {selected : String → Bool}
    {code : String} (h : (r.restrict rules selected).mentions code = true) :
    selected code = true := by
  rw [mentions, Bool.or_eq_true, List.contains_iff_mem, List.contains_iff_mem] at h
  rcases h with h | h
  · obtain ⟨f, hf, rfl⟩ := List.mem_map.1 h
    exact (List.mem_filter.1 hf).2
  · obtain ⟨e, he, rfl⟩ := List.mem_map.1 h
    exact (List.mem_filter.1 he).2

/-- A selection and its opposite divide a report on all rules between them. -/
theorem splits_restrict {full : Report} {rules : List Rule}
    (hexecuted : full.executed = rules.length)
    (hpassed : full.passed = rules.countP fun rule => !full.mentions rule.code)
    (selected : String → Bool) :
    Splits full (full.restrict rules selected)
      (full.restrict rules fun code => !selected code) := by
  constructor
  case executed =>
    have hcount := List.length_eq_countP_add_countP (l := rules) fun rule => selected rule.code
    simpa [restrict, hexecuted] using hcount.symm
  case passed =>
    have hcount := List.countP_eq_countP_filter_add rules
      (fun rule => !full.mentions rule.code) fun rule => selected rule.code
    simpa [restrict, hpassed, List.countP_filter] using hcount.symm
  case failures => exact List.filter_append_perm _ _
  case hardErrors => exact List.filter_append_perm _ _
  case disjoint =>
    intro code h
    by_contra hmentions
    have hnot := mentions_restrict (Bool.not_eq_false _ ▸ hmentions)
    rw [mentions_restrict h] at hnot
    cases hnot

theorem inOrder_of_pairwise {entries : List Entry}
    (h : entries.Pairwise fun a b => a.code < b.code) : inOrder entries = entries := by
  refine List.mergeSort_of_pairwise (h.imp fun hlt => decide_eq_true ?_)
  exact String.not_lt.1 (String.lt_asymm hlt)

/-- What is said about entries in the order of their codes. -/
theorem ofEntries_of_pairwise {entries : List Entry}
    (h : entries.Pairwise fun a b => a.code < b.code) :
    ofEntries entries =
      { executed := entries.length
        passed := entries.countP Entry.isPass
        failures := entries.filterMap Entry.failure?
        hardErrors := entries.filterMap Entry.hardError? } := by
  have hsame : (entries.mergeSort fun a b => a.rule.code ≤ b.rule.code) = entries :=
    inOrder_of_pairwise h
  rw [ofEntries, hsame]

end Report

namespace Run

open Report (Entry)

theorem isPass_ofRule_iff {subject : Subject} {rule : Rule} :
    (Entry.ofRule subject rule).isPass = true ↔
      ∃ v, rule.runner subject = .verdict v ∧ v.passed = true := by
  unfold Entry.isPass Entry.ofRule Rule.outcome
  cases rule.runner subject <;> simp [RunnerEnd.outcome]

/-- A rule passes in a run on rules with different codes when it is not mentioned. -/
theorem isPass_ofRule_eq {subject : Subject} {rules : List Rule}
    (hn : (rules.map Rule.code).Nodup) {rule : Rule} (hr : rule ∈ rules) :
    (Entry.ofRule subject rule).isPass =
      !(Report.ofEntries (rules.map (Entry.ofRule subject))).mentions rule.code := by
  rw [Bool.eq_iff_iff, isPass_ofRule_iff, Bool.not_eq_true', Report.mentions_eq_false_iff,
    (accounts_ofEntries hn).passed_iff rule hr]

theorem pairwise_ofRule {rules : List Rule} (h : rules.Pairwise fun a b => a.code < b.code)
    (subject : Subject) :
    (rules.map (Entry.ofRule subject)).Pairwise fun a b => a.code < b.code :=
  List.pairwise_map.2 h

/-- Running selected rules only comes to selecting from the report on all of them. -/
theorem ofEntries_filter {rules : List Rule} (h : rules.Pairwise fun a b => a.code < b.code)
    (subject : Subject) (selected : String → Bool) :
    Report.ofEntries
        ((rules.filter fun rule => selected rule.code).map (Entry.ofRule subject)) =
      (Report.ofEntries (rules.map (Entry.ofRule subject))).restrict rules selected := by
  have hn : (rules.map Rule.code).Nodup := List.pairwise_map.2 (h.imp String.ne_of_lt)
  have hmap : (rules.filter fun rule => selected rule.code).map (Entry.ofRule subject) =
      (rules.map (Entry.ofRule subject)).filter fun e => selected e.code := by
    rw [List.filter_map]
    rfl
  rw [Report.ofEntries_of_pairwise (pairwise_ofRule (h.filter _) subject), Report.restrict,
    Report.mk.injEq]
  refine ⟨?_, ?_, ?_, ?_⟩
  · rw [List.length_map, List.countP_eq_length_filter]
  · rw [List.countP_map, List.countP_filter]
    refine List.countP_congr fun rule hrule => ?_
    rw [Function.comp_apply, isPass_ofRule_eq hn hrule]
  · rw [hmap, ← Report.filter_filterMap_code Entry.code_of_failure?,
      Report.ofEntries_of_pairwise (pairwise_ofRule h subject)]
  · rw [hmap, ← Report.filter_filterMap_code Entry.code_of_hardError?,
      Report.ofEntries_of_pairwise (pairwise_ofRule h subject)]

theorem select_all (registry : Registry) : Filter.all.select registry = registry.rules :=
  List.filter_eq_self.2 fun _ _ => rfl

/-- Rules that a filter leaves out have no influence on the others, nor have the workers. -/
theorem report_eq_restrict {registry : Registry} (h : registry.WellKeyed) (jobs jobs' : Nat)
    (filter : Filter) (subject : Subject) :
    report jobs filter registry subject =
      (report jobs' .all registry subject).restrict registry.rules filter.includes := by
  rw [report_eq_ofEntries, report_eq_ofEntries, select_all]
  exact ofEntries_filter h.pairwise_rules subject filter.includes

/-- Only the registered codes that a filter includes matter for a run. -/
theorem report_congr {registry : Registry} (h : registry.WellKeyed) {filter filter' : Filter}
    (hincludes : ∀ code, registry.contains code = true → filter.includes code = filter'.includes code)
    (jobs jobs' : Nat) (subject : Subject) :
    report jobs filter registry subject = report jobs' filter' registry subject := by
  have hselect : filter.select registry = filter'.select registry := by
    refine List.filter_congr fun rule hrule => hincludes rule.code ?_
    exact Dict.contains_iff.2 ⟨rule, (Registry.mem_rules_iff h).1 hrule⟩
  rw [report_eq_ofEntries, report_eq_ofEntries, hselect]

/-- Two filters without common code that together select all divide the full report. -/
theorem splits_report {registry : Registry} (h : registry.WellKeyed) {filter filter' : Filter}
    (hnot : ∀ code, filter'.includes code = !filter.includes code) (jobs : Nat)
    (subject : Subject) :
    Report.Splits (report jobs .all registry subject) (report jobs filter registry subject)
      (report jobs filter' registry subject) := by
  have hfull := report_eq_restrict h jobs jobs .all subject
  have hincludes : filter'.includes = fun code => !filter.includes code := funext hnot
  rw [report_eq_restrict h jobs jobs filter, report_eq_restrict h jobs jobs filter', hincludes]
  refine Report.splits_restrict ?_ ?_ filter.includes
  · rw [congrArg Report.executed hfull]
    exact congrFun List.countP_true registry.rules
  · rw [congrArg Report.passed hfull]
    refine List.countP_congr fun rule _ => ?_
    have hall : Filter.all.includes rule.code = true := rfl
    rw [hall, Bool.and_true]

/-! ### Lists of codes and their complements -/

/-- A code stands in a comma-separated list as it is. -/
theorem isField_of_validCode {code : String} (h : Registry.ValidCode code) :
    Text.IsField code := by
  obtain ⟨hne, halnum⟩ := h
  refine ⟨hne, fun hcomma => absurd (halnum _ hcomma) (by decide), ?_⟩
  refine ⟨⟨[], [], by simp, nofun, nofun⟩, fun c hc => ?_, fun c hc => ?_⟩
  · exact Text.not_isBlank_of_isAlphanum (halnum c (List.mem_of_mem_head? hc))
  · exact Text.not_isBlank_of_isAlphanum (halnum c (List.mem_of_mem_getLast? hc))

def complement (registry : Registry) (listed : List String) : List String :=
  registry.keys.filter fun code => !listed.contains code

theorem mem_complement_iff {registry : Registry} {listed : List String} {code : String} :
    code ∈ complement registry listed ↔ registry.contains code = true ∧ code ∉ listed := by
  rw [complement, List.mem_filter, Dict.mem_keys_iff, Bool.not_eq_true', ← Bool.not_eq_true,
    List.contains_iff_mem]

theorem listed_empty : Text.Listed "" = ∅ := Filter.codes_eq_empty_iff.1 rfl

section Lists

variable {offers : List Rule} {listed : List String}

/-- Joined codes of a registry name themselves. -/
theorem listed_codes (h : ∀ code ∈ listed, (Registry.ofOffers offers).contains code = true) :
    Text.Listed (String.intercalate "," listed) = {code | code ∈ listed} :=
  Text.listed_intercalate fun code hcode =>
    isField_of_validCode (Registry.contains_ofOffers_iff.1 (h code hcode)).1

theorem known_codes (h : ∀ code ∈ listed, (Registry.ofOffers offers).contains code = true) :
    Filter.Known (Registry.ofOffers offers) (Text.Listed (String.intercalate "," listed)) := by
  rw [listed_codes h]
  exact h

theorem nonempty_codes (h : ∀ code ∈ listed, (Registry.ofOffers offers).contains code = true)
    (hne : listed ≠ []) : (Text.Listed (String.intercalate "," listed)).Nonempty := by
  obtain ⟨code, rest, rfl⟩ := List.exists_cons_of_ne_nil hne
  exact ⟨code, (listed_codes h).symm ▸ List.mem_cons_self⟩

/-- A list of registered codes is read as the filter that keeps them. -/
theorem exists_keeping (h : ∀ code ∈ listed, (Registry.ofOffers offers).contains code = true)
    (hne : listed ≠ []) :
    ∃ filter, Filter.parse "" (String.intercalate "," listed) (Registry.ofOffers offers) =
        .ok filter ∧ ∀ code, filter.includes code = true ↔ code ∈ listed := by
  have hnone : Filter.Known (Registry.ofOffers offers) (Text.Listed "") :=
    listed_empty ▸ Filter.known_empty _
  refine ⟨_, Filter.parse_of_known (.inl listed_empty) hnone (known_codes h), fun code => ?_⟩
  rw [Filter.includes_of_enabled (nonempty_codes h hne), listed_codes h]
  rfl

/-- A list of registered codes is also read as the filter that leaves them out. -/
theorem exists_leaving (h : ∀ code ∈ listed, (Registry.ofOffers offers).contains code = true) :
    ∃ filter, Filter.parse (String.intercalate "," listed) "" (Registry.ofOffers offers) =
        .ok filter ∧ ∀ code, filter.includes code = true ↔ code ∉ listed := by
  have hnone : Filter.Known (Registry.ofOffers offers) (Text.Listed "") :=
    listed_empty ▸ Filter.known_empty _
  refine ⟨_, Filter.parse_of_known (.inr listed_empty) (known_codes h) hnone, fun code => ?_⟩
  rw [Filter.includes_of_not_enabled listed_empty, listed_codes h]
  rfl

end Lists

/-- A run under a filter reports what the run of all rules reports about the codes that the
filter includes. Keeping some rules is the same as leaving out the others; keeping them and
leaving them out makes up the full report. -/
theorem report_restricted (offers : List Rule) (subject : Subject) (jobs : Nat) :
    let registry := Registry.ofOffers offers
    let run := fun filter => report jobs filter registry subject
    (∀ filter, run filter = (run .all).restrict registry.rules filter.includes) ∧
    ∀ listed : List String, listed ≠ [] → (∀ code ∈ listed, registry.contains code = true) →
      let raw := String.intercalate "," listed
      let rawOthers := String.intercalate "," (complement registry listed)
      ∃ keeping leavingOthers leaving,
        Filter.parse "" raw registry = .ok keeping ∧
        Filter.parse rawOthers "" registry = .ok leavingOthers ∧
        Filter.parse raw "" registry = .ok leaving ∧
        run keeping = run leavingOthers ∧
        Report.Splits (run .all) (run keeping) (run leaving) := by
  intro registry run
  have hkeyed : registry.WellKeyed := Registry.wellKeyed_ofOffers offers
  refine ⟨fun filter => report_eq_restrict hkeyed jobs jobs filter subject, ?_⟩
  intro listed hne hknown raw rawOthers
  obtain ⟨keeping, hkeeping, hkeeps⟩ := exists_keeping hknown hne
  obtain ⟨leavingOthers, hleavingOthers, hleavesOthers⟩ :=
    exists_leaving fun code hcode => (mem_complement_iff.1 hcode).1
  obtain ⟨leaving, hleaving, hleaves⟩ := exists_leaving hknown
  refine ⟨keeping, leavingOthers, leaving, hkeeping, hleavingOthers, hleaving, ?_, ?_⟩
  · refine report_congr hkeyed (fun code hcode => ?_) jobs jobs subject
    rw [Bool.eq_iff_iff, hkeeps, hleavesOthers, mem_complement_iff]
    exact ⟨fun hmem hother => hother.2 hmem, fun hno => not_not.1 fun hnot => hno ⟨hcode, hnot⟩⟩
  · refine splits_report hkeyed (fun code => ?_) jobs subject
    rw [Bool.eq_iff_iff, hleaves, Bool.not_eq_true', ← Bool.not_eq_true, hkeeps]

/-- A rule that no addon satisfies. -/
def objector : Rule := ⟨"AM2", "objector", "", fun _ => .verdict (.fail "no")⟩

theorem report_restricted_objector :
    let registry := Registry.ofOffers [Registry.holder, objector, Registry.bystander]
    let run := fun filter => report 2 filter registry (.ofNames "a" "a" "i")
    (∀ code ∈ ["AM2"], registry.contains code = true) ∧
      complement registry ["AM2"] = ["AM0", "AM1"] ∧
      ∃ keeping leavingOthers leaving,
        Filter.parse "" "AM2" registry = .ok keeping ∧
        Filter.parse "AM0,AM1" "" registry = .ok leavingOthers ∧
        Filter.parse "AM2" "" registry = .ok leaving ∧
        run keeping = run leavingOthers ∧
        Report.Splits (run .all) (run keeping) (run leaving) := by
  intro registry run
  have hknown : ∀ code ∈ ["AM2"], registry.contains code = true := by decide +kernel
  have hothers : complement registry ["AM2"] = ["AM0", "AM1"] := by decide +kernel
  have hresult := (report_restricted [Registry.holder, objector, Registry.bystander]
    (.ofNames "a" "a" "i") 2).2 ["AM2"] (by decide) hknown
  rw [hothers] at hresult
  exact ⟨hknown, hothers, hresult⟩

end Run

end AddonLint
