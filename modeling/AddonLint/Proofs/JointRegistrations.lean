import AddonLint.Proofs.FirstOffers

/-!
# Registering several rules at once

Rules that are registered one after the other stop at the first that is refused, and
those before it stay. If their codes are valid and increase, the one that is refused
has the least of their codes that were taken before, so the registry has gained exactly
the rules with smaller codes. What a registry held before is never touched.
-/
namespace AddonLint.Registry

variable {registry next after : Registry} {rule : Rule} {rules added more : List Rule}

/-- A registry has gained some rules: each stands under its own code, which was free, and
nothing else has changed. -/
structure Gains (registry : Registry) (added : List Rule) (after : Registry) : Prop where
  free : ∀ rule ∈ added, registry.contains rule.code = false
  get?_iff : ∀ code rule, after.get? code = some rule ↔
    registry.get? code = some rule ∨ rule ∈ added ∧ rule.code = code
  perm : after.rules.Perm (registry.rules ++ added)

/-- The first code of some rules, in the order of bytes, that is taken. -/
structure FirstTaken (registry : Registry) (rules : List Rule) (code : String) : Prop where
  mem : ∃ rule ∈ rules, rule.code = code
  taken : registry.contains code = true
  least : ∀ rule ∈ rules, registry.contains rule.code = true →
    rule.code = code ∨ Text.BytesLt code rule.code

/-! ### One rule -/

theorem register_eq_ok_iff :
    registry.register rule = .ok next ↔
      ValidCode rule.code ∧ registry.contains rule.code = false ∧
        next = registry.insert rule.code rule := by
  constructor
  · intro h
    obtain ⟨hvalid, hfree⟩ := exists_register_eq_ok_iff.1 ⟨next, h⟩
    rw [register_of_new hvalid hfree] at h
    exact ⟨hvalid, hfree, (Except.ok.inj h).symm⟩
  · rintro ⟨hvalid, hfree, rfl⟩
    exact register_of_new hvalid hfree

/-- The step: a rule that is registered is gained. -/
theorem gains_register (h : registry.register rule = .ok next) : Gains registry [rule] next := by
  obtain ⟨-, hfree, rfl⟩ := register_eq_ok_iff.1 h
  have hnone := Dict.contains_eq_false_iff.1 hfree
  constructor
  case free =>
    intro r hr
    rw [List.mem_singleton.1 hr]
    exact hfree
  case get?_iff =>
    intro code r
    rw [Dict.get?_insert, List.mem_singleton]
    by_cases hcode : code = rule.code
    · rw [if_pos hcode, hcode, hnone, Option.some_inj]
      constructor
      · rintro rfl
        exact .inr ⟨rfl, rfl⟩
      · rintro (hr | ⟨rfl, -⟩)
        · cases hr
        · rfl
    · rw [if_neg hcode]
      refine ⟨.inl, fun hr => hr.resolve_right ?_⟩
      rintro ⟨rfl, rfl⟩
      exact hcode rfl
  case perm =>
    have hperm : (Dict.insertEntry rule.code rule registry.entries).Perm
        ((rule.code, rule) :: registry.entries) := Dict.perm_insertEntry hnone
    exact (hperm.map Prod.snd).trans (List.perm_append_singleton rule registry.rules).symm

/-! ### Many rules -/

theorem gains_nil (registry : Registry) : Gains registry [] registry := by
  constructor
  case free => exact nofun
  case get?_iff => simp
  case perm => rw [List.append_nil]

theorem Gains.contains_iff (h : Gains registry added after) {code : String} :
    after.contains code = true ↔
      registry.contains code = true ∨ ∃ rule ∈ added, rule.code = code := by
  simp only [Dict.contains_iff, h.get?_iff, exists_or]

theorem Gains.contains_eq_false (h : Gains registry added after) {code : String}
    (hnot : after.contains code = false) : registry.contains code = false := by
  refine Bool.eq_false_iff.2 fun hc => ?_
  rw [h.contains_iff.2 (.inl hc)] at hnot
  cases hnot

/-- Rules may be gained one batch after the other. -/
theorem Gains.trans (h : Gains registry added next) (h' : Gains next more after) :
    Gains registry (added ++ more) after := by
  constructor
  case free =>
    intro rule hrule
    rcases List.mem_append.1 hrule with hrule | hrule
    · exact h.free rule hrule
    · exact h.contains_eq_false (h'.free rule hrule)
  case get?_iff =>
    intro code rule
    rw [h'.get?_iff, h.get?_iff, List.mem_append, or_and_right, or_assoc]
  case perm =>
    rw [← List.append_assoc]
    exact h'.perm.trans (h.perm.append_right more)

/-- What was there is still found, and nothing else is found in its place. -/
theorem Gains.keeps (h : Gains registry added after) (hkeyed : registry.WellKeyed)
    (hrule : rule ∈ registry.rules) : rule ∈ after.rules ∧ after.get? rule.code = some rule ∧
      ∀ other ∈ after.rules, other.code = rule.code → other = rule := by
  have hget : registry.get? rule.code = some rule := (mem_rules_iff hkeyed).1 hrule
  refine ⟨h.perm.mem_iff.2 (List.mem_append_left _ hrule), (h.get?_iff _ _).2 (.inl hget), ?_⟩
  intro other hother hcode
  rcases List.mem_append.1 (h.perm.mem_iff.1 hother) with hold | hnew
  · have hother := (mem_rules_iff hkeyed).1 hold
    rw [hcode, hget] at hother
    exact (Option.some_inj.1 hother).symm
  · have hfree := h.free other hnew
    rw [hcode, Dict.contains_eq_false_iff, hget] at hfree
    cases hfree

/-- No gained rule replaces another one. -/
theorem Gains.size_eq (h : Gains registry added after) :
    after.size = registry.size + added.length := by
  have hlength := h.perm.length_eq
  simpa only [rules, Dict.values, List.length_append, List.length_map, Dict.size] using hlength

/-- The run: the rules before the first refusal are gained, and nothing comes of the others. -/
theorem registerAll_cases (rules : List Rule) (registry : Registry) :
    ∃ added after, Gains registry added after ∧
      (rules = added ∧ registry.registerAll rules = (after, none) ∨
        ∃ rule rest e, rules = added ++ rule :: rest ∧ after.register rule = .error e ∧
          registry.registerAll rules = (after, some e)) := by
  induction rules generalizing registry with
  | nil => exact ⟨[], registry, gains_nil registry, .inl ⟨rfl, rfl⟩⟩
  | cons rule rest ih =>
    rw [registerAll]
    cases hr : registry.register rule with
    | error e => exact ⟨[], registry, gains_nil registry, .inr ⟨rule, rest, e, rfl, hr, rfl⟩⟩
    | ok next =>
      obtain ⟨added, after, hgains, hend⟩ := ih next
      refine ⟨rule :: added, after, (gains_register hr).trans hgains, ?_⟩
      rcases hend with ⟨rfl, hall⟩ | ⟨refused, others, e, rfl, he, hall⟩
      · exact .inl ⟨rfl, hall⟩
      · exact .inr ⟨refused, others, e, rfl, he, hall⟩

/-! ### Rules with increasing codes -/

theorem FirstTaken.not_free {code : String} (h : FirstTaken registry rules code) :
    ¬ ∀ rule ∈ rules, registry.contains rule.code = false := by
  intro hfree
  obtain ⟨rule, hrule, rfl⟩ := h.mem
  have htaken := h.taken
  rw [hfree rule hrule] at htaken
  cases htaken

theorem FirstTaken.unique {code code' : String} (h : FirstTaken registry rules code)
    (h' : FirstTaken registry rules code') : code = code' := by
  obtain ⟨rule, hrule, rfl⟩ := h.mem
  obtain ⟨rule', hrule', rfl⟩ := h'.mem
  rcases h.least rule' hrule' h'.taken with heq | hlt
  · exact heq.symm
  · rcases h'.least rule hrule h.taken with heq | hgt
    · exact heq
    · exact absurd (Text.bytesLt_iff.1 hgt) (String.lt_asymm (Text.bytesLt_iff.1 hlt))

/-- A taken code behind free ones that are smaller is the first taken one. -/
theorem firstTaken_of_free {smaller larger : List Rule}
    (hsorted : (smaller ++ rule :: larger).Pairwise fun a b => a.code < b.code)
    (hfree : ∀ r ∈ smaller, registry.contains r.code = false)
    (htaken : registry.contains rule.code = true) :
    FirstTaken registry (smaller ++ rule :: larger) rule.code := by
  constructor
  case mem => exact ⟨rule, by simp, rfl⟩
  case taken => exact htaken
  case least =>
    intro r hr hc
    rcases List.mem_append.1 hr with hr | hr
    · rw [hfree r hr] at hc
      cases hc
    · rcases List.mem_cons.1 hr with rfl | hr
      · exact .inl rfl
      · have hlt := (List.pairwise_cons.1 (List.pairwise_append.1 hsorted).2.1).1 r hr
        exact .inr (Text.bytesLt_iff.2 hlt)

theorem filter_bytesLt {smaller larger : List Rule}
    (hsorted : (smaller ++ rule :: larger).Pairwise fun a b => a.code < b.code) :
    ((smaller ++ rule :: larger).filter fun r => Text.BytesLt r.code rule.code) = smaller := by
  obtain ⟨-, htail, hsmaller⟩ := List.pairwise_append.1 hsorted
  have hlarger := (List.pairwise_cons.1 htail).1
  have hkept : smaller.filter (fun r => Text.BytesLt r.code rule.code) = smaller := by
    refine List.filter_eq_self.2 fun r hr => decide_eq_true ?_
    exact Text.bytesLt_iff.2 (hsmaller r hr rule List.mem_cons_self)
  have hdropped : (rule :: larger).filter (fun r => Text.BytesLt r.code rule.code) = [] := by
    refine List.filter_eq_nil_iff.2 fun r hr => ?_
    rw [decide_eq_true_eq, Text.bytesLt_iff]
    rcases List.mem_cons.1 hr with rfl | hr
    · exact String.lt_irrefl _
    · exact String.lt_asymm (hlarger r hr)
  rw [List.filter_append, hkept, hdropped, List.append_nil]

/-- The two ways in which rules with valid and increasing codes are registered: all of them,
or those before the first that is taken. -/
theorem registerAll_of_sorted (hvalid : ∀ r ∈ rules, ValidCode r.code)
    (hsorted : rules.Pairwise fun a b => a.code < b.code) (registry : Registry) :
    (∀ r ∈ rules, registry.contains r.code = false) ∧
        (registry.registerAll rules).2 = none ∧
        Gains registry rules (registry.registerAll rules).1 ∨
      ∃ code, FirstTaken registry rules code ∧
        (registry.registerAll rules).2 = some (.duplicateRuleCode code) ∧
        Gains registry (rules.filter fun r => Text.BytesLt r.code code)
          (registry.registerAll rules).1 := by
  obtain ⟨added, after, hgains, hend⟩ := registerAll_cases rules registry
  rcases hend with ⟨rfl, hall⟩ | ⟨rule, rest, e, rfl, he, hall⟩
  · rw [hall]
    exact .inl ⟨hgains.free, rfl, hgains⟩
  · right
    have hnew : ¬ ∃ r ∈ added, r.code = rule.code := by
      rintro ⟨r, hr, heq⟩
      have hlt := (List.pairwise_append.1 hsorted).2.2 r hr rule List.mem_cons_self
      rw [heq] at hlt
      exact String.lt_irrefl _ hlt
    rcases register_eq_error_iff.1 he with ⟨hinvalid, -⟩ | ⟨-, hc, rfl⟩
    · exact absurd (hvalid rule (by simp)) hinvalid
    · have htaken := (hgains.contains_iff.1 hc).resolve_right hnew
      refine ⟨rule.code, firstTaken_of_free hsorted hgains.free htaken, ?_, ?_⟩
      · rw [hall]
      · rw [hall, filter_bytesLt hsorted]
        exact hgains

/-! ### The built-in rules -/

/-- All built-in rules are registered if none of their codes is taken, and otherwise those with
codes less than the first taken one, which is named. Either way nothing else changes: a rule
that was there before keeps its place, and no other one has its code. -/
theorem registerAll_builtin (offers : List Rule) :
    let registry := ofOffers offers
    let after := (registry.registerAll Rules.builtin).1
    let refusal := (registry.registerAll Rules.builtin).2
    (refusal = none ↔ ∀ rule ∈ Rules.builtin, registry.contains rule.code = false) ∧
    (refusal = none → Gains registry Rules.builtin after ∧ after.size = registry.size + 8) ∧
    (∀ e, refusal = some e ↔
      ∃ code, FirstTaken registry Rules.builtin code ∧ e = .duplicateRuleCode code) ∧
    (∀ code, refusal = some (.duplicateRuleCode code) →
      Gains registry (Rules.builtin.filter fun rule => Text.BytesLt rule.code code) after) ∧
    ∀ rule ∈ registry.rules, rule ∈ after.rules ∧ after.get? rule.code = some rule ∧
      ∀ other ∈ after.rules, other.code = rule.code → other = rule := by
  intro registry after refusal
  have hkeyed : registry.WellKeyed := wellKeyed_ofOffers offers
  have hvalid : ∀ r ∈ Rules.builtin, ValidCode r.code := fun r hr =>
    isValidCode_iff.1 (Rules.isValidCode_builtin r hr)
  rcases registerAll_of_sorted hvalid Rules.pairwise_builtin registry with
    ⟨hfree, hnone, hgains⟩ | ⟨code, hfirst, hsome, hgains⟩
  · -- No built-in code is taken.
    have hnone : refusal = none := hnone
    refine ⟨iff_of_true hnone hfree, fun _ => ⟨hgains, hgains.size_eq⟩, fun e => ?_,
      fun code h => ?_, fun rule hrule => hgains.keeps hkeyed hrule⟩
    · rw [hnone]
      refine ⟨nofun, ?_⟩
      rintro ⟨code, hfirst, -⟩
      exact absurd hfree hfirst.not_free
    · rw [hnone] at h
      cases h
  · have hsome : refusal = some (.duplicateRuleCode code) := hsome
    have hne : refusal ≠ none := by
      rw [hsome]
      exact Option.some_ne_none _
    refine ⟨iff_of_false hne hfirst.not_free, fun h => absurd h hne, fun e => ?_, fun c h => ?_,
      fun rule hrule => hgains.keeps hkeyed hrule⟩
    · rw [hsome, Option.some_inj]
      constructor
      · rintro rfl
        exact ⟨code, hfirst, rfl⟩
      · rintro ⟨c, hc, rfl⟩
        rw [hfirst.unique hc]
    · rw [hsome, Option.some_inj, ConfigError.duplicateRuleCode.injEq] at h
      rw [← h]
      exact hgains

/-- A rule that has the code of a built-in one. -/
def squatter : Rule := ⟨"AM0003", "squatter", "", fun _ => .verdict .pass⟩

theorem registerAll_builtin_squatter :
    let registry := ofOffers [squatter, bystander]
    let after := (registry.registerAll Rules.builtin).1
    (registry.registerAll Rules.builtin).2 = some (.duplicateRuleCode "AM0003") ∧
      Gains registry [Rules.defaultChannel, Rules.labelFormat] after ∧
      squatter ∈ registry.rules ∧ after.get? "AM0003" = some squatter ∧
      ((ofOffers [bystander]).registerAll Rules.builtin).2 = none ∧
      ((ofOffers [bystander]).registerAll Rules.builtin).1.size = 9 := by
  intro registry after
  obtain ⟨-, -, hrefused, hgains, hkept⟩ := registerAll_builtin [squatter, bystander]
  have hfirst : FirstTaken registry Rules.builtin "AM0003" :=
    ⟨by decide +kernel, by decide +kernel, by decide +kernel⟩
  have hsome := (hrefused _).2 ⟨"AM0003", hfirst, rfl⟩
  have hsorted : ([Rules.defaultChannel, Rules.labelFormat] ++ Rules.operatorName ::
      [Rules.icon, Rules.testHarness, Rules.targetNamespace, Rules.indexImage,
        Rules.serviceVersion]).Pairwise fun a b => a.code < b.code := Rules.pairwise_builtin
  have hsmaller : (Rules.builtin.filter fun rule => Text.BytesLt rule.code "AM0003") =
      [Rules.defaultChannel, Rules.labelFormat] := filter_bytesLt hsorted
  have hheld : squatter ∈ registry.rules := List.mem_cons_of_mem _ List.mem_cons_self
  obtain ⟨hall, hnew, -⟩ := registerAll_builtin [bystander]
  have hnone := hall.2 (by decide +kernel)
  exact ⟨hsome, hsmaller ▸ hgains _ hsome, hheld, (hkept squatter hheld).2.1, hnone,
    (hnew hnone).2⟩

end AddonLint.Registry
