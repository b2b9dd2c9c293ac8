import AddonLint.Proofs.Accounting
import AddonLint.Proofs.ByteOrder
import AddonLint.Proofs.Chunks
import AddonLint.Proofs.Registrations

/-!
# Runs account for every selected rule

Workers take consecutive chunks of the selected rules and their entries are joined
in order, so a run with any number of workers gives the report of a run with one.
A worker that dies turns its own chunk into hard errors and touches no other chunk.
In every report each selected rule is found exactly once.
-/
namespace AddonLint.Run

open Report (Entry)

/-! ### The entries of a fan-out -/

theorem map_rule_collect (subject : Subject) (dead : Bool) (chunk : List Rule) :
    (collect subject dead chunk).map Entry.rule = chunk := by
  cases dead <;> simp [collect, Entry.ofRule, Function.comp_def]

theorem chunkSize_length_pos {rules : List Rule} (h : 2 ≤ rules.length) {jobs : Nat}
    (hj : 2 ≤ jobs) : 0 < chunkSize rules.length jobs :=
  chunkSize_pos (by omega) (by omega)

/-- No rule is lost, repeated or moved by sharing, whoever dies. -/
theorem map_rule_fanOut (dead : Nat → Bool) (subject : Subject) {jobs : Nat} {rules : List Rule}
    (hs : 0 < chunkSize rules.length jobs) :
    (fanOut dead subject jobs rules).map Entry.rule = rules := by
  unfold fanOut
  rw [List.map_flatMap]
  simp only [map_rule_collect]
  rw [List.flatMap_def, List.zipIdx_map_fst, flatten_chunks hs]

/-- Workers that all live bring back what a single one would. -/
theorem fanOut_of_alive (subject : Subject) {jobs : Nat} {rules : List Rule}
    (hs : 0 < chunkSize rules.length jobs) :
    fanOut (fun _ => false) subject jobs rules = rules.map (Entry.ofRule subject) := by
  let shares := chunks (chunkSize rules.length jobs) rules
  calc fanOut (fun _ => false) subject jobs rules
      = (shares.zipIdx.map fun p => p.1.map (Entry.ofRule subject)).flatten := rfl
    _ = (shares.map (List.map (Entry.ofRule subject))).flatten := by
        conv_rhs => rw [← List.zipIdx_map_fst 0 shares, List.map_map]
        rfl
    _ = rules.map (Entry.ofRule subject) := by
        rw [← List.map_flatten, flatten_chunks hs]

/-- Sharing is invisible: any number of workers reports what one reports. -/
theorem report_eq_ofEntries (jobs : Nat) (filter : Filter) (registry : Registry)
    (subject : Subject) :
    report jobs filter registry subject =
      .ofEntries ((filter.select registry).map (Entry.ofRule subject)) := by
  unfold report reportWithDeaths
  dsimp only
  split
  · rfl
  · rename_i h
    have hpos := effectiveJobs_pos jobs
    rw [fanOut_of_alive subject (chunkSize_length_pos (by omega) (by omega))]

def shareEntry (dead : Nat → Bool) (subject : Subject) (worker : Nat) (rule : Rule) : Entry :=
  if dead worker then ⟨rule, lost⟩ else Entry.ofRule subject rule

theorem shareEntry_mem_fanOut {dead : Nat → Bool} {subject : Subject} {jobs worker : Nat}
    {rules share : List Rule} {rule : Rule}
    (hshare : (chunks (chunkSize rules.length jobs) rules)[worker]? = some share)
    (hrule : rule ∈ share) :
    shareEntry dead subject worker rule ∈ fanOut dead subject jobs rules := by
  refine List.mem_flatMap.2 ⟨(share, worker), List.mk_mem_zipIdx_iff_getElem?.2 hshare, ?_⟩
  unfold shareEntry collect
  dsimp only
  split
  · exact List.mem_map.2 ⟨rule, hrule, rfl⟩
  · exact List.mem_map.2 ⟨rule, hrule, rfl⟩

/-! ### Reports of runs with dead workers -/

theorem reportWithDeaths_of_fanOut {dead : Nat → Bool} {jobs : Nat} {filter : Filter}
    {registry : Registry} {subject : Subject} (hj : 2 ≤ jobs)
    (hr : 2 ≤ (filter.select registry).length) :
    reportWithDeaths dead jobs filter registry subject =
      .ofEntries (fanOut dead subject jobs (filter.select registry)) := by
  have hjobs : effectiveJobs jobs = jobs := Nat.max_eq_left (by omega)
  unfold reportWithDeaths
  dsimp only
  rw [hjobs, if_neg (by omega)]

theorem reportWithDeaths_of_alone {dead : Nat → Bool} {jobs : Nat} {filter : Filter}
    {registry : Registry} {subject : Subject}
    (h : (filter.select registry).length < 2 ∨ jobs ≤ 1) :
    reportWithDeaths dead jobs filter registry subject =
      .ofEntries ((filter.select registry).map (Entry.ofRule subject)) := by
  unfold reportWithDeaths effectiveJobs
  dsimp only
  rw [if_pos (by omega)]

/-- The selected rules have different codes, and so have their entries. -/
theorem nodup_code_entries {registry : Registry} (h : registry.WellKeyed) {filter : Filter}
    {entries : List Entry} (he : entries.map Entry.rule = filter.select registry) :
    (entries.map Entry.code).Nodup := by
  have hcodes : entries.map Entry.code = (filter.select registry).map Rule.code := by
    rw [← he, List.map_map]
    rfl
  rw [hcodes]
  exact Filter.nodup_codes_select h filter

theorem map_rule_ofRule (subject : Subject) (rules : List Rule) :
    (rules.map (Entry.ofRule subject)).map Entry.rule = rules := by
  simp [Entry.ofRule, Function.comp_def]

theorem code_shareEntry (dead : Nat → Bool) (subject : Subject) (worker : Nat) (rule : Rule) :
    (shareEntry dead subject worker rule).code = rule.code := by
  unfold shareEntry
  split <;> rfl

/-- The number of workers does not show in the report. When workers die, the rules of
their shares are hard errors, one for each, and all other rules are reported as by one
worker; no rule is lost, repeated or invented. -/
theorem report_workers (offers : List Rule) (filter : Filter) (subject : Subject) (jobs : Nat)
    (dead : Nat → Bool) :
    let registry := Registry.ofOffers offers
    let rules := filter.select registry
    let sequential := report 1 filter registry subject
    let shares := chunks (chunkSize rules.length jobs) rules
    let r := reportWithDeaths dead jobs filter registry subject
    report jobs filter registry subject = sequential ∧
    (2 ≤ jobs ∧ 2 ≤ rules.length →
      shares.flatten = rules ∧
      (fanOut dead subject jobs rules).map Entry.rule = rules ∧
      r.executed = rules.length ∧
      r.passed + r.failures.length + r.hardErrors.length = r.executed ∧
      (∀ code, code ∉ rules.map Rule.code → r.about code = ([], [])) ∧
      ∀ worker share rule, shares[worker]? = some share ∧ rule ∈ share →
        r.about rule.code =
          if dead worker then
            ([], [⟨rule.code, .crashed "rule worker thread died"⟩])
          else sequential.about rule.code) := by
  intro registry rules sequential shares r
  have hkeyed : registry.WellKeyed := Registry.wellKeyed_ofOffers offers
  refine ⟨by rw [report_eq_ofEntries, ← report_eq_ofEntries 1], ?_⟩
  rintro ⟨hj, hr⟩
  have hs : 0 < chunkSize rules.length jobs := chunkSize_length_pos hr hj
  have hreport : r = .ofEntries (fanOut dead subject jobs rules) := reportWithDeaths_of_fanOut hj hr
  have hsequential : sequential = .ofEntries (rules.map (Entry.ofRule subject)) :=
    report_eq_ofEntries 1 filter registry subject
  have hrules : (fanOut dead subject jobs rules).map Entry.rule = rules :=
    map_rule_fanOut dead subject hs
  have hnodup := nodup_code_entries hkeyed hrules
  have hcodes : (fanOut dead subject jobs rules).map Entry.code = rules.map Rule.code := by
    conv_rhs => rw [← hrules, List.map_map]
    rfl
  rw [hreport]
  refine ⟨flatten_chunks hs rules, hrules, ?_, Report.executed_eq_sum _, fun code hcode => ?_, ?_⟩
  · rw [Report.executed_ofEntries, ← List.length_map (f := Entry.rule), hrules]
  · exact Report.about_of_not_mem (hcodes ▸ hcode)
  · rintro worker share rule ⟨hshare, hrule⟩
    have hmem : shareEntry dead subject worker rule ∈ fanOut dead subject jobs rules :=
      shareEntry_mem_fanOut hshare hrule
    have habout := Report.about_ofEntries hnodup hmem
    rw [code_shareEntry] at habout
    rw [habout]
    unfold shareEntry
    split
    · rfl
    · have hmem : rule ∈ rules := by
        rw [← flatten_chunks hs rules]
        exact List.mem_flatten.2 ⟨share, List.mem_of_getElem? hshare, hrule⟩
      have hone := Report.about_ofEntries
        (nodup_code_entries hkeyed (map_rule_ofRule subject rules))
        (List.mem_map_of_mem (f := Entry.ofRule subject) hmem)
      rw [hsequential]
      exact hone.symm

/-! ### The accounts of a run -/

/-- A report accounts for each of the rules exactly once, as their runners ended on the
subject. -/
structure Accounts (subject : Subject) (rules : List Rule) (r : Report) : Prop where
  executed : r.executed = rules.length
  total : r.passed + r.failures.length + r.hardErrors.length = r.executed
  mem_failures : ∀ f, f ∈ r.failures ↔ ∃ rule ∈ rules, ∃ v,
    rule.runner subject = .verdict v ∧ v.passed = false ∧ f = ⟨rule.code, rule.name, v.message⟩
  mem_hardErrors : ∀ h, h ∈ r.hardErrors ↔ ∃ rule ∈ rules,
    (∃ e, rule.runner subject = .error e ∧ h = ⟨rule.code, e⟩) ∨
    ∃ payload, rule.runner subject = .crashed payload ∧ h = ⟨rule.code, .crashed payload.reason⟩
  failed_iff : ∀ rule ∈ rules, rule.code ∈ r.failureCodes ↔
    ∃ v, rule.runner subject = .verdict v ∧ v.passed = false
  errored_iff : ∀ rule ∈ rules, rule.code ∈ r.hardErrorCodes ↔
    (∃ e, rule.runner subject = .error e) ∨ ∃ payload, rule.runner subject = .crashed payload
  passed_iff : ∀ rule ∈ rules, rule.code ∉ r.failureCodes ∧ rule.code ∉ r.hardErrorCodes ↔
    ∃ v, rule.runner subject = .verdict v ∧ v.passed = true
  failures_sorted : r.failureCodes.Pairwise Text.BytesLt
  hardErrors_sorted : r.hardErrorCodes.Pairwise Text.BytesLt
  disjoint : r.failureCodes.Disjoint r.hardErrorCodes
  success_iff : r.isSuccess = true ↔ r.passed = r.executed

theorem outcome_eq_ok_iff {subject : Subject} {rule : Rule} {v : Verdict} :
    rule.outcome subject = .ok v ↔ rule.runner subject = .verdict v := by
  unfold Rule.outcome
  cases rule.runner subject <;> simp [RunnerEnd.outcome]

/-- A runner that breaks off is reported like one that ends with an error. -/
theorem outcome_eq_error_iff {subject : Subject} {rule : Rule} {e : RuleError} :
    rule.outcome subject = .error e ↔ rule.runner subject = .error e ∨
      ∃ payload, rule.runner subject = .crashed payload ∧ e = .crashed payload.reason := by
  unfold Rule.outcome
  cases rule.runner subject <;> simp [RunnerEnd.outcome, eq_comm]

section Entries

variable {subject : Subject} {rules : List Rule}

theorem mem_failures_iff {f : Report.Failure} :
    f ∈ (Report.ofEntries (rules.map (Entry.ofRule subject))).failures ↔ ∃ rule ∈ rules, ∃ v,
      rule.runner subject = .verdict v ∧ v.passed = false ∧
        f = ⟨rule.code, rule.name, v.message⟩ := by
  simp only [Report.mem_failures_ofEntries, List.mem_map, exists_exists_and_eq_and,
    Entry.failure?_eq_some_iff, Entry.ofRule, outcome_eq_ok_iff]

theorem mem_hardErrors_iff {h : Report.HardError} :
    h ∈ (Report.ofEntries (rules.map (Entry.ofRule subject))).hardErrors ↔ ∃ rule ∈ rules,
      (∃ e, rule.runner subject = .error e ∧ h = ⟨rule.code, e⟩) ∨
      ∃ payload, rule.runner subject = .crashed payload ∧
        h = ⟨rule.code, .crashed payload.reason⟩ := by
  simp only [Report.mem_hardErrors_ofEntries, List.mem_map, exists_exists_and_eq_and,
    Entry.hardError?_eq_some_iff, Entry.ofRule, outcome_eq_error_iff]
  refine exists_congr fun rule => and_congr_right fun _ => ⟨?_, ?_⟩
  · rintro ⟨e, he | ⟨payload, hp, rfl⟩, rfl⟩
    · exact Or.inl ⟨e, he, rfl⟩
    · exact Or.inr ⟨payload, hp, rfl⟩
  · rintro (⟨e, he, rfl⟩ | ⟨payload, hp, rfl⟩)
    · exact ⟨e, Or.inl he, rfl⟩
    · exact ⟨_, Or.inr ⟨payload, hp, rfl⟩, rfl⟩

theorem mem_failureCodes_iff (hn : (rules.map Rule.code).Nodup) {rule : Rule}
    (hr : rule ∈ rules) :
    rule.code ∈ (Report.ofEntries (rules.map (Entry.ofRule subject))).failureCodes ↔
      ∃ v, rule.runner subject = .verdict v ∧ v.passed = false := by
  constructor
  · intro h
    obtain ⟨f, hf, hcode⟩ := List.mem_map.1 h
    obtain ⟨other, ho, v, hv, hp, rfl⟩ := mem_failures_iff.1 hf
    obtain rfl := List.inj_on_of_nodup_map hn ho hr hcode
    exact ⟨v, hv, hp⟩
  · rintro ⟨v, hv, hp⟩
    exact List.mem_map.2 ⟨_, mem_failures_iff.2 ⟨rule, hr, v, hv, hp, rfl⟩, rfl⟩

theorem mem_hardErrorCodes_iff (hn : (rules.map Rule.code).Nodup) {rule : Rule}
    (hr : rule ∈ rules) :
    rule.code ∈ (Report.ofEntries (rules.map (Entry.ofRule subject))).hardErrorCodes ↔
      (∃ e, rule.runner subject = .error e) ∨
        ∃ payload, rule.runner subject = .crashed payload := by
  constructor
  · intro h
    obtain ⟨x, hx, hcode⟩ := List.mem_map.1 h
    obtain ⟨other, ho, ⟨e, he, rfl⟩ | ⟨payload, hp, rfl⟩⟩ := mem_hardErrors_iff.1 hx
    · obtain rfl := List.inj_on_of_nodup_map hn ho hr hcode
      exact Or.inl ⟨e, he⟩
    · obtain rfl := List.inj_on_of_nodup_map hn ho hr hcode
      exact Or.inr ⟨payload, hp⟩
  · rintro (⟨e, he⟩ | ⟨payload, hp⟩)
    · exact List.mem_map.2 ⟨_, mem_hardErrors_iff.2 ⟨rule, hr, Or.inl ⟨e, he, rfl⟩⟩, rfl⟩
    · exact List.mem_map.2 ⟨_, mem_hardErrors_iff.2 ⟨rule, hr, Or.inr ⟨payload, hp, rfl⟩⟩, rfl⟩

/-- Rules with different codes are accounted for whatever their runners do. -/
theorem accounts_ofEntries (hn : (rules.map Rule.code).Nodup) :
    Accounts subject rules (.ofEntries (rules.map (Entry.ofRule subject))) := by
  have hcodes : (rules.map (Entry.ofRule subject)).map Entry.code = rules.map Rule.code := by
    rw [List.map_map]
    rfl
  have hn' : ((rules.map (Entry.ofRule subject)).map Entry.code).Nodup := hcodes ▸ hn
  constructor
  case executed => rw [Report.executed_ofEntries, List.length_map]
  case total => exact Report.executed_eq_sum _
  case mem_failures => exact fun f => mem_failures_iff
  case mem_hardErrors => exact fun h => mem_hardErrors_iff
  case failed_iff => exact fun rule hr => mem_failureCodes_iff hn hr
  case errored_iff => exact fun rule hr => mem_hardErrorCodes_iff hn hr
  case passed_iff =>
    intro rule hr
    rw [mem_failureCodes_iff hn hr, mem_hardErrorCodes_iff hn hr]
    cases hrun : rule.runner subject with
    | verdict v => cases hv : v.passed <;> simp [hv]
    | error e => simp
    | crashed payload => simp
  case failures_sorted =>
    exact (Report.pairwise_failureCodes hn').imp Text.bytesLt_iff.2
  case hardErrors_sorted =>
    exact (Report.pairwise_hardErrorCodes hn').imp Text.bytesLt_iff.2
  case disjoint =>
    intro code hfailed herrored
    obtain ⟨f, hf, rfl⟩ := List.mem_map.1 hfailed
    obtain ⟨rule, hr, v, hv, -, rfl⟩ := mem_failures_iff.1 hf
    rcases (mem_hardErrorCodes_iff hn hr).1 herrored with ⟨e, he⟩ | ⟨payload, hp⟩
    · rw [hv] at he
      cases he
    · rw [hv] at hp
      cases hp
  case success_iff => exact Report.isSuccess_iff _

/-- A run succeeds if, and only if, each of its rules passes. -/
theorem isSuccess_ofEntries_iff :
    (Report.ofEntries (rules.map (Entry.ofRule subject))).isSuccess = true ↔
      ∀ rule ∈ rules, ∃ v, rule.runner subject = .verdict v ∧ v.passed = true := by
  simp only [Report.isSuccess, Bool.and_eq_true, List.isEmpty_iff, List.eq_nil_iff_forall_not_mem]
  constructor
  · rintro ⟨hfailures, herrors⟩ rule hrule
    cases hrun : rule.runner subject with
    | verdict v =>
      by_cases hv : v.passed = true
      · exact ⟨v, rfl, hv⟩
      · have hv : v.passed = false := by rwa [Bool.not_eq_true] at hv
        exact absurd (mem_failures_iff.2 ⟨rule, hrule, v, hrun, hv, rfl⟩) (hfailures _)
    | error e => exact absurd (mem_hardErrors_iff.2 ⟨rule, hrule, .inl ⟨e, hrun, rfl⟩⟩) (herrors _)
    | crashed payload =>
      exact absurd (mem_hardErrors_iff.2 ⟨rule, hrule, .inr ⟨payload, hrun, rfl⟩⟩) (herrors _)
  · intro hpass
    constructor
    · intro f hf
      obtain ⟨rule, hrule, v, hv, hfailed, -⟩ := mem_failures_iff.1 hf
      obtain ⟨v', hv', hpassed⟩ := hpass rule hrule
      cases hv.symm.trans hv'
      rw [hfailed] at hpassed
      cases hpassed
    · intro x hx
      obtain ⟨rule, hrule, ⟨e, he, -⟩ | ⟨payload, hp, -⟩⟩ := mem_hardErrors_iff.1 hx
      · obtain ⟨v, hv, -⟩ := hpass rule hrule
        cases he.symm.trans hv
      · obtain ⟨v, hv, -⟩ := hpass rule hrule
        cases hp.symm.trans hv

end Entries

/-- Whatever the runners do, whichever rules are selected and however many workers share
them, the report accounts for each selected rule exactly once. -/
theorem report_accounts (offers : List Rule) (filter : Filter) (subject : Subject) (jobs : Nat) :
    let registry := Registry.ofOffers offers
    let r := report jobs filter registry subject
    r.executed = registry.rules.countP (fun rule => filter.includes rule.code) ∧
      Accounts subject (filter.select registry) r := by
  intro registry r
  have haccounts : Accounts subject (filter.select registry) r := by
    have hreport : r = .ofEntries ((filter.select registry).map (Entry.ofRule subject)) :=
      report_eq_ofEntries jobs filter registry subject
    rw [hreport]
    exact accounts_ofEntries (Filter.nodup_codes_select (Registry.wellKeyed_ofOffers offers) filter)
  refine ⟨?_, haccounts⟩
  rw [haccounts.executed, List.countP_eq_length_filter]
  rfl

end AddonLint.Run
