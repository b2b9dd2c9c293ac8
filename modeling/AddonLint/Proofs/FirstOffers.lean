import AddonLint.Proofs.Dictionaries
import AddonLint.Proofs.Numerals
import AddonLint.Proofs.Registrations

/-!
# The first rule offered under a code keeps it

Rules are offered to the empty registry one after the other. An offer is taken if its
code is valid and no earlier offer was taken under it, and is refused otherwise, which
changes nothing. So the registry holds, for each valid code that was offered, the first
rule offered under it, and the order of the offers matters only among rules of one code.
-/
namespace AddonLint.Registry

/-- A non-empty text of letters and digits of ASCII. -/
def ValidCode (code : String) : Prop := code ≠ "" ∧ ∀ c ∈ code.toList, c.isAlphanum = true

/-- A rule that is offered after others is taken. -/
def Accepts (earlier : List Rule) (rule : Rule) : Prop :=
  ∃ registry, (ofOffers earlier).register rule = .ok registry

/-- One of the offers under a code was taken. -/
def Taken (offers : List Rule) (code : String) : Prop :=
  ∃ earlier rule later, offers = earlier ++ rule :: later ∧ Accepts earlier rule ∧ rule.code = code

/-- The rule is the first one that is offered under a code, which is valid. -/
def FirstOffer (offers : List Rule) (code : String) (rule : Rule) : Prop :=
  ValidCode code ∧ rule.code = code ∧
    ∃ earlier later, offers = earlier ++ rule :: later ∧ ∀ other ∈ earlier, other.code ≠ code

theorem isCodeChar_iff {c : Char} : isCodeChar c = true ↔ c.isAlphanum = true := by
  simp only [isCodeChar, Numeral.isAlphanum_iff, Bool.or_eq_true, Bool.and_eq_true,
    decide_eq_true_eq, or_assoc]

theorem isValidCode_iff {code : String} : isValidCode code = true ↔ ValidCode code := by
  simp only [isValidCode, ValidCode, Bool.and_eq_true, decide_eq_true_eq, List.all_eq_true,
    isCodeChar_iff]

/-! ### One offer -/

/-- An invalid code is refused even if it were free. -/
theorem register_of_invalid {registry : Registry} {rule : Rule} (h : ¬ ValidCode rule.code) :
    registry.register rule = .error (.invalidRuleCode rule.code) := by
  have hfalse : isValidCode rule.code = false := Bool.eq_false_iff.2 fun ht => h (isValidCode_iff.1 ht)
  rw [register, hfalse]
  rfl

/-- A taken code is refused, whatever rule wants it. -/
theorem register_of_contains {registry : Registry} {rule : Rule} (hvalid : ValidCode rule.code)
    (h : registry.contains rule.code = true) :
    registry.register rule = .error (.duplicateRuleCode rule.code) := by
  rw [register, isValidCode_iff.2 hvalid, h]
  rfl

theorem register_of_new {registry : Registry} {rule : Rule} (hvalid : ValidCode rule.code)
    (h : registry.contains rule.code = false) :
    registry.register rule = .ok (registry.insert rule.code rule) := by
  rw [register, isValidCode_iff.2 hvalid, h]
  rfl

theorem exists_register_eq_ok_iff {registry : Registry} {rule : Rule} :
    (∃ registry', registry.register rule = .ok registry') ↔
      ValidCode rule.code ∧ registry.contains rule.code = false := by
  constructor
  · rintro ⟨registry', h⟩
    by_cases hvalid : ValidCode rule.code
    · refine ⟨hvalid, Bool.eq_false_iff.2 fun hc => ?_⟩
      rw [register_of_contains hvalid hc] at h
      cases h
    · rw [register_of_invalid hvalid] at h
      cases h
  · rintro ⟨hvalid, hnew⟩
    exact ⟨_, register_of_new hvalid hnew⟩

theorem register_eq_error_iff {registry : Registry} {rule : Rule} {e : ConfigError} :
    registry.register rule = .error e ↔
      ¬ ValidCode rule.code ∧ e = .invalidRuleCode rule.code ∨
      ValidCode rule.code ∧ registry.contains rule.code = true ∧
        e = .duplicateRuleCode rule.code := by
  by_cases hvalid : ValidCode rule.code
  · cases hc : registry.contains rule.code with
    | false => simp [register_of_new hvalid hc, hvalid]
    | true => simp [register_of_contains hvalid hc, hvalid, eq_comm (b := e)]
  · simp [register_of_invalid hvalid, hvalid, eq_comm (b := e)]

theorem offer_of_ok {registry registry' : Registry} {rule : Rule}
    (h : registry.register rule = .ok registry') : registry.offer rule = registry' := by
  rw [offer, h]

theorem offer_of_error {registry : Registry} {rule : Rule} {e : ConfigError}
    (h : registry.register rule = .error e) : registry.offer rule = registry := by
  rw [offer, h]

/-- An offer adds its rule under its own code, if that is valid and free. -/
theorem get?_offer (registry : Registry) (rule : Rule) {code : String} (h : ValidCode code) :
    (registry.offer rule).get? code =
      (registry.get? code).or (if rule.code = code then some rule else none) := by
  by_cases hvalid : ValidCode rule.code
  · cases hc : registry.contains rule.code with
    | true =>
      obtain ⟨held, hheld⟩ := Dict.contains_iff.1 hc
      rw [offer_of_error (register_of_contains hvalid hc)]
      split
      · rename_i heq
        rw [← heq, hheld]
        rfl
      · rw [Option.or_none]
    | false =>
      rw [offer_of_ok (register_of_new hvalid hc)]
      split
      · rename_i heq
        rw [← heq, Dict.get?_insert_self, Dict.contains_eq_false_iff.1 hc]
        rfl
      · rename_i hne
        rw [Dict.get?_insert_of_ne _ _ fun heq => hne heq.symm, Option.or_none]
  · have hne : rule.code ≠ code := fun heq => hvalid (heq ▸ h)
    rw [offer_of_error (register_of_invalid hvalid), if_neg hne, Option.or_none]

theorem get?_offer_of_invalid (registry : Registry) (rule : Rule) {code : String}
    (h : ¬ ValidCode code) : (registry.offer rule).get? code = registry.get? code := by
  cases hr : registry.register rule with
  | error e => rw [offer_of_error hr]
  | ok registry' =>
    obtain ⟨hvalid, hnew⟩ := exists_register_eq_ok_iff.1 ⟨registry', hr⟩
    rw [offer_of_ok (register_of_new hvalid hnew)]
    exact Dict.get?_insert_of_ne _ _ fun heq => h (heq ▸ hvalid)

/-! ### Many offers -/

/-- What a code led to before, it still leads to; a free one goes to the first offer. -/
theorem get?_foldl_offer (offers : List Rule) (registry : Registry) {code : String}
    (h : ValidCode code) :
    (offers.foldl offer registry).get? code =
      (registry.get? code).or (offers.find? fun rule => rule.code = code) := by
  induction offers generalizing registry with
  | nil => rw [List.foldl_nil, List.find?_nil, Option.or_none]
  | cons rule rest ih =>
    rw [List.foldl_cons, ih, get?_offer registry rule h, Option.or_assoc, List.find?_cons]
    by_cases hc : rule.code = code <;> simp [hc]

theorem get?_foldl_offer_of_invalid (offers : List Rule) (registry : Registry) {code : String}
    (h : ¬ ValidCode code) : (offers.foldl offer registry).get? code = registry.get? code := by
  induction offers generalizing registry with
  | nil => rfl
  | cons rule rest ih => rw [List.foldl_cons, ih, get?_offer_of_invalid registry rule h]

theorem get?_ofOffers (offers : List Rule) {code : String} (h : ValidCode code) :
    (ofOffers offers).get? code = offers.find? fun rule => rule.code = code :=
  get?_foldl_offer offers Dict.empty h

theorem get?_ofOffers_of_invalid (offers : List Rule) {code : String} (h : ¬ ValidCode code) :
    (ofOffers offers).get? code = none :=
  get?_foldl_offer_of_invalid offers Dict.empty h

theorem get?_ofOffers_eq_some_iff {offers : List Rule} {code : String} {rule : Rule} :
    (ofOffers offers).get? code = some rule ↔ FirstOffer offers code rule := by
  by_cases h : ValidCode code
  · simp only [get?_ofOffers offers h, List.find?_eq_some_iff_append, FirstOffer, h, true_and,
      decide_eq_true_eq, Bool.not_eq_true', decide_eq_false_iff_not]
  · rw [get?_ofOffers_of_invalid offers h]
    exact ⟨nofun, fun hfirst => absurd hfirst.1 h⟩

theorem contains_ofOffers_iff {offers : List Rule} {code : String} :
    (ofOffers offers).contains code = true ↔
      ValidCode code ∧ ∃ rule ∈ offers, rule.code = code := by
  rw [Dict.contains, Option.isSome_iff_ne_none]
  by_cases h : ValidCode code
  · simp [get?_ofOffers offers h, h]
  · simp [get?_ofOffers_of_invalid offers h, h]

/-- A code is in the registry when one of its offers was taken. -/
theorem taken_iff {offers : List Rule} {code : String} :
    Taken offers code ↔ (ofOffers offers).contains code = true := by
  constructor
  · rintro ⟨earlier, rule, later, rfl, haccepts, rfl⟩
    have hvalid := (exists_register_eq_ok_iff.1 haccepts).1
    exact contains_ofOffers_iff.2 ⟨hvalid, rule, by simp, rfl⟩
  · intro h
    obtain ⟨rule, hrule⟩ := Dict.contains_iff.1 h
    obtain ⟨hvalid, rfl, earlier, later, rfl, hne⟩ := get?_ofOffers_eq_some_iff.1 hrule
    refine ⟨earlier, rule, later, rfl, exists_register_eq_ok_iff.2 ⟨hvalid, ?_⟩, rfl⟩
    refine Bool.eq_false_iff.2 fun hc => ?_
    obtain ⟨-, other, hother, hcode⟩ := contains_ofOffers_iff.1 hc
    exact hne other hother hcode

theorem accepts_iff {earlier : List Rule} {rule : Rule} :
    Accepts earlier rule ↔ ValidCode rule.code ∧ ¬ Taken earlier rule.code := by
  rw [Accepts, exists_register_eq_ok_iff, taken_iff, Bool.not_eq_true]

theorem ofOffers_concat (earlier : List Rule) (rule : Rule) :
    ofOffers (earlier ++ [rule]) = (ofOffers earlier).offer rule := by
  rw [ofOffers, List.foldl_append]
  rfl

theorem ofOffers_concat_of_refused {earlier : List Rule} {rule : Rule} {e : ConfigError}
    (h : (ofOffers earlier).register rule = .error e) :
    ofOffers (earlier ++ [rule]) = ofOffers earlier := by
  rw [ofOffers_concat, offer_of_error h]

theorem mem_rules_iff {registry : Registry} (h : registry.WellKeyed) {rule : Rule} :
    rule ∈ registry.rules ↔ registry.get? rule.code = some rule := by
  rw [Dict.get?_eq_some_iff, rules, Dict.values, List.mem_map]
  constructor
  · rintro ⟨e, he, rfl⟩
    have hkey : e = (e.2.code, e.2) := Prod.ext (h e he) rfl
    exact hkey ▸ he
  · exact fun he => ⟨_, he, rfl⟩

theorem keys_eq_map_code {registry : Registry} (h : registry.WellKeyed) :
    registry.keys = registry.rules.map (·.code) := by
  rw [rules, Dict.values, List.map_map]
  exact List.map_congr_left h

/-- Among rules with different codes, the first one of a code is the only one. -/
theorem find?_code_eq_some_iff {offers : List Rule} (h : (offers.map (·.code)).Nodup)
    {code : String} {rule : Rule} :
    offers.find? (fun r => r.code = code) = some rule ↔ rule ∈ offers ∧ rule.code = code := by
  constructor
  · intro hfind
    exact ⟨List.mem_of_find?_eq_some hfind, by simpa using List.find?_some hfind⟩
  · rintro ⟨hrule, rfl⟩
    cases hfind : offers.find? fun r => r.code = rule.code with
    | none => simpa using List.find?_eq_none.1 hfind rule hrule
    | some other =>
      have hother := List.mem_of_find?_eq_some hfind
      have hcode : other.code = rule.code := by simpa using List.find?_some hfind
      rw [List.inj_on_of_nodup_map h hother hrule hcode]

/-- Offers with distinct codes may come in any order. -/
theorem ofOffers_perm {offers offers' : List Rule} (hperm : offers.Perm offers')
    (h : (offers.map (·.code)).Nodup) : ofOffers offers' = ofOffers offers := by
  have h' : (offers'.map (·.code)).Nodup := (hperm.map _).nodup_iff.1 h
  refine Dict.ext_get? fun code => ?_
  by_cases hvalid : ValidCode code
  · rw [get?_ofOffers offers hvalid, get?_ofOffers offers' hvalid]
    ext rule
    rw [find?_code_eq_some_iff h, find?_code_eq_some_iff h', hperm.mem_iff]
  · rw [get?_ofOffers_of_invalid offers hvalid, get?_ofOffers_of_invalid offers' hvalid]

/-- Rules offered in any sequence. Each offer is taken exactly if its code is valid and no
earlier offer was taken under it; a refusal says which of the two is wrong and leaves the
registry as it was. In the end the registry holds the first rule of each valid code under
that code, lists them in the byte order of the codes, and does not depend on the order of
the offers if their codes differ. -/
theorem ofOffers_first (offers : List Rule) :
    let registry := ofOffers offers
    (∀ earlier rule later, offers = earlier ++ rule :: later →
      (Accepts earlier rule ↔ ValidCode rule.code ∧ ¬ Taken earlier rule.code) ∧
      (∀ e, (ofOffers earlier).register rule = .error e ↔
        ¬ ValidCode rule.code ∧ e = .invalidRuleCode rule.code ∨
        ValidCode rule.code ∧ Taken earlier rule.code ∧ e = .duplicateRuleCode rule.code) ∧
      (¬ Accepts earlier rule → ofOffers (earlier ++ [rule]) = ofOffers earlier)) ∧
    (∀ code rule, registry.get? code = some rule ↔ FirstOffer offers code rule) ∧
    (∀ rule, rule ∈ registry.rules ↔ FirstOffer offers rule.code rule) ∧
    registry.keys = registry.rules.map (·.code) ∧
    (registry.rules.map (·.code)).Pairwise Text.BytesLt ∧
    registry.size = registry.rules.length ∧
    (∀ code, registry.contains code = true ↔ ∃ rule, registry.get? code = some rule) ∧
    ∀ offers', offers.Perm offers' → (offers.map (·.code)).Nodup →
      ofOffers offers' = registry := by
  intro registry
  have hkeyed : registry.WellKeyed := wellKeyed_ofOffers offers
  refine ⟨?_, fun code rule => get?_ofOffers_eq_some_iff, fun rule => ?_, keys_eq_map_code hkeyed,
    ?_, ?_, fun code => Dict.contains_iff, fun offers' hperm hn => ofOffers_perm hperm hn⟩
  · intro earlier rule later _
    refine ⟨accepts_iff, fun e => ?_, fun hrefused => ?_⟩
    · rw [register_eq_error_iff, taken_iff]
    · cases hr : (ofOffers earlier).register rule with
      | ok registry' => exact absurd ⟨registry', hr⟩ hrefused
      | error e => exact ofOffers_concat_of_refused hr
  · rw [mem_rules_iff hkeyed, get?_ofOffers_eq_some_iff]
  · exact List.pairwise_map.2 (hkeyed.pairwise_rules.imp Text.bytesLt_iff.2)
  · rw [rules, Dict.values, List.length_map, Dict.size]

/-- A rule, a second one that wants its code, and one with a code of its own. -/
def holder : Rule := ⟨"AM1", "holder", "", fun _ => .verdict .pass⟩

def claimant : Rule := ⟨"AM1", "claimant", "", fun _ => .verdict (.fail "")⟩

def bystander : Rule := ⟨"AM0", "bystander", "", fun _ => .verdict .pass⟩

theorem ofOffers_first_claimant :
    [holder, claimant, bystander] = [holder] ++ claimant :: [bystander] ∧
      ¬ Accepts [holder] claimant ∧
      ofOffers ([holder] ++ [claimant]) = ofOffers [holder] ∧
      [holder, bystander].Perm [bystander, holder] ∧
      ([holder, bystander].map (·.code)).Nodup ∧
      ofOffers [bystander, holder] = ofOffers [holder, bystander] := by
  obtain ⟨hoffers, -⟩ := ofOffers_first [holder, claimant, bystander]
  obtain ⟨haccepts, -, hrefused⟩ := hoffers [holder] claimant [bystander] rfl
  have htaken : Taken [holder] claimant.code := taken_iff.2 (by decide +kernel)
  have hnot : ¬ Accepts [holder] claimant := fun h => (haccepts.1 h).2 htaken
  have hperm : [holder, bystander].Perm [bystander, holder] := .swap ..
  have hcodes : ([holder, bystander].map (·.code)).Nodup := by decide
  obtain ⟨-, -, -, -, -, -, -, horder⟩ := ofOffers_first [holder, bystander]
  exact ⟨rfl, hnot, hrefused hnot, hperm, hcodes, horder _ hperm hcodes⟩

end AddonLint.Registry
