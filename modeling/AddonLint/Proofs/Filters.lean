import AddonLint.Proofs.FieldLists
import AddonLint.Proofs.FirstOffers
import Mathlib.Data.Set.Card

/-!
# What two lists of codes select

A filter is read from a list of codes to leave out and a list of codes to keep, of
which one has to be empty. Every listed code has to be registered, and the least one
that is not is named. Then the filter keeps exactly the listed rules, or leaves out
exactly the listed ones, or keeps all, and nothing but the two sets of codes shows in it.
-/
namespace AddonLint.Filter

open Text (Listed)

/-- The first code of a set, in the order of bytes, that is not registered. -/
structure FirstUnknown (registry : Registry) (listed : Set String) (code : String) : Prop where
  mem : code ∈ listed
  unknown : registry.contains code = false
  least : ∀ other ∈ listed, registry.contains other = false →
    other = code ∨ Text.BytesLt code other

def Known (registry : Registry) (listed : Set String) : Prop :=
  ∀ code ∈ listed, registry.contains code = true

/-! ### The set of a list -/

theorem contains_codes {raw code : String} :
    (codes raw).contains code = true ↔ code ∈ Listed raw := by
  rw [codes, TextSet.contains_ofList, Text.mem_fields_iff]

theorem codes_eq_empty_iff {raw : String} : codes raw = Dict.empty ↔ Listed raw = ∅ := by
  simp only [TextSet.eq_empty_iff, Set.eq_empty_iff_forall_notMem, ← contains_codes,
    Bool.not_eq_true]

theorem codes_ne_empty_iff {raw : String} : codes raw ≠ Dict.empty ↔ (Listed raw).Nonempty := by
  rw [Ne, codes_eq_empty_iff, Set.nonempty_iff_ne_empty]

/-- Order, repetition, blanks and empty fields of a list do not show in its set. -/
theorem codes_eq_iff {raw raw' : String} : codes raw = codes raw' ↔ Listed raw = Listed raw' := by
  constructor
  · intro h
    ext code
    rw [← contains_codes, ← contains_codes, h]
  · exact fun h => TextSet.ext_contains fun code => by rw [contains_codes, contains_codes, h]

/-! ### Unknown codes -/

/-- The first hit in an increasing list is the least of all hits. -/
theorem find?_eq_some_iff_least {texts : List String} (hs : texts.Pairwise (· < ·))
    {p : String → Bool} {text : String} :
    texts.find? p = some text ↔
      text ∈ texts ∧ p text = true ∧ ∀ other ∈ texts, p other = true → other = text ∨ text < other := by
  constructor
  · intro h
    obtain ⟨hp, before, after, rfl, hbefore⟩ := List.find?_eq_some_iff_append.1 h
    refine ⟨by simp, hp, fun other hother hpo => ?_⟩
    rcases List.mem_append.1 hother with hother | hother
    · have hfalse := hbefore other hother
      rw [hpo] at hfalse
      cases hfalse
    · rcases List.mem_cons.1 hother with rfl | hother
      · exact .inl rfl
      · exact .inr ((List.pairwise_cons.1 (List.pairwise_append.1 hs).2.1).1 other hother)
  · rintro ⟨hmem, hp, hleast⟩
    cases h : texts.find? p with
    | none => exact absurd hp (List.find?_eq_none.1 h text hmem)
    | some found =>
      obtain ⟨hpf, before, after, rfl, hbefore⟩ := List.find?_eq_some_iff_append.1 h
      rcases hleast found (by simp) hpf with rfl | hlt
      · rfl
      · -- A hit before the first one would have been found.
        rcases List.mem_append.1 hmem with htext | htext
        · have hfalse := hbefore text htext
          rw [hp] at hfalse
          cases hfalse
        · rcases List.mem_cons.1 htext with rfl | htext
          · rfl
          · have hgt := (List.pairwise_cons.1 (List.pairwise_append.1 hs).2.1).1 text htext
            exact absurd hgt (String.lt_asymm hlt)

/-- Among several unknown codes the least one is reported. -/
theorem unknownCode?_eq_some_iff {registry : Registry} {raw code : String} :
    unknownCode? registry (codes raw) = some code ↔ FirstUnknown registry (Listed raw) code := by
  rw [unknownCode?, TextSet.toList, find?_eq_some_iff_least (Dict.pairwise_keys _)]
  simp only [Dict.mem_keys_iff, contains_codes, Bool.not_eq_true', ← Text.bytesLt_iff]
  exact ⟨fun ⟨hmem, hunknown, hleast⟩ => ⟨hmem, hunknown, hleast⟩,
    fun ⟨hmem, hunknown, hleast⟩ => ⟨hmem, hunknown, hleast⟩⟩

theorem unknownCode?_eq_none_iff {registry : Registry} {raw : String} :
    unknownCode? registry (codes raw) = none ↔ Known registry (Listed raw) := by
  simp only [unknownCode?, TextSet.toList, List.find?_eq_none, Dict.mem_keys_iff, contains_codes,
    Known, Bool.not_eq_true', Bool.not_eq_false]

theorem known_empty (registry : Registry) : Known registry ∅ := fun _ h => h.elim

/-! ### Reading a filter -/

section Reading

variable {registry : Registry} {disabled enabled : String}

/-- Two lists are refused before any code is looked up. -/
theorem parse_of_conflict (hd : (Listed disabled).Nonempty) (he : (Listed enabled).Nonempty) :
    parse disabled enabled registry = .error .conflictingFilters := by
  rw [parse]
  exact if_pos ⟨codes_ne_empty_iff.2 hd, codes_ne_empty_iff.2 he⟩

theorem parse_of_one (h : Listed disabled = ∅ ∨ Listed enabled = ∅) :
    parse disabled enabled registry =
      match unknownCode? registry (codes disabled), unknownCode? registry (codes enabled) with
      | some code, _ => .error (.unknownRuleCode code .disabled)
      | none, some code => .error (.unknownRuleCode code .enabled)
      | none, none => .ok ⟨codes enabled, codes disabled⟩ := by
  rw [parse]
  refine if_neg fun hboth => ?_
  rcases h with h | h
  · exact hboth.1 (codes_eq_empty_iff.2 h)
  · exact hboth.2 (codes_eq_empty_iff.2 h)

theorem parse_of_unknown_disabled {code : String} (he : Listed enabled = ∅)
    (h : FirstUnknown registry (Listed disabled) code) :
    parse disabled enabled registry = .error (.unknownRuleCode code .disabled) := by
  rw [parse_of_one (.inr he), unknownCode?_eq_some_iff.2 h]

theorem parse_of_unknown_enabled {code : String} (hd : Listed disabled = ∅)
    (h : FirstUnknown registry (Listed enabled) code) :
    parse disabled enabled registry = .error (.unknownRuleCode code .enabled) := by
  have hknown : Known registry (Listed disabled) := hd ▸ known_empty registry
  rw [parse_of_one (.inl hd), unknownCode?_eq_none_iff.2 hknown, unknownCode?_eq_some_iff.2 h]

theorem parse_of_known (hone : Listed disabled = ∅ ∨ Listed enabled = ∅)
    (hd : Known registry (Listed disabled)) (he : Known registry (Listed enabled)) :
    parse disabled enabled registry = .ok ⟨codes enabled, codes disabled⟩ := by
  rw [parse_of_one hone, unknownCode?_eq_none_iff.2 hd, unknownCode?_eq_none_iff.2 he]

theorem known_or_firstUnknown (registry : Registry) (raw : String) :
    Known registry (Listed raw) ∨ ∃ code, FirstUnknown registry (Listed raw) code := by
  cases h : unknownCode? registry (codes raw) with
  | none => exact .inl (unknownCode?_eq_none_iff.1 h)
  | some code => exact .inr ⟨code, unknownCode?_eq_some_iff.1 h⟩

variable (registry disabled enabled) in
/-- The four ways in which reading a filter ends. -/
theorem parse_cases :
    ((Listed disabled).Nonempty ∧ (Listed enabled).Nonempty ∧
      parse disabled enabled registry = .error .conflictingFilters) ∨
    (Listed enabled = ∅ ∧ ∃ code, FirstUnknown registry (Listed disabled) code ∧
      parse disabled enabled registry = .error (.unknownRuleCode code .disabled)) ∨
    (Listed disabled = ∅ ∧ ∃ code, FirstUnknown registry (Listed enabled) code ∧
      parse disabled enabled registry = .error (.unknownRuleCode code .enabled)) ∨
    ((Listed disabled = ∅ ∨ Listed enabled = ∅) ∧ Known registry (Listed disabled) ∧
      Known registry (Listed enabled) ∧
      parse disabled enabled registry = .ok ⟨codes enabled, codes disabled⟩) := by
  rcases (Listed enabled).eq_empty_or_nonempty with he | he
  · rcases known_or_firstUnknown registry disabled with hd | ⟨code, hd⟩
    · have hknown : Known registry (Listed enabled) := he ▸ known_empty registry
      exact .inr (.inr (.inr ⟨.inr he, hd, hknown, parse_of_known (.inr he) hd hknown⟩))
    · exact .inr (.inl ⟨he, code, hd, parse_of_unknown_disabled he hd⟩)
  · rcases (Listed disabled).eq_empty_or_nonempty with hd | hd
    · rcases known_or_firstUnknown registry enabled with hknown | ⟨code, hunknown⟩
      · have hknown' : Known registry (Listed disabled) := hd ▸ known_empty registry
        exact .inr (.inr (.inr ⟨.inl hd, hknown', hknown, parse_of_known (.inl hd) hknown' hknown⟩))
      · exact .inr (.inr (.inl ⟨hd, code, hunknown, parse_of_unknown_enabled hd hunknown⟩))
    · exact .inl ⟨hd, he, parse_of_conflict hd he⟩

theorem parse_eq_conflict_iff :
    parse disabled enabled registry = .error .conflictingFilters ↔
      (Listed disabled).Nonempty ∧ (Listed enabled).Nonempty := by
  refine ⟨fun h => ?_, fun ⟨hd, he⟩ => parse_of_conflict hd he⟩
  rcases parse_cases registry disabled enabled with
    ⟨hd, he, -⟩ | ⟨-, code, -, hp⟩ | ⟨-, code, -, hp⟩ | ⟨-, -, -, hp⟩
  · exact ⟨hd, he⟩
  all_goals
    rw [hp] at h
    cases h

theorem parse_eq_unknown_disabled_iff {code : String} :
    parse disabled enabled registry = .error (.unknownRuleCode code .disabled) ↔
      Listed enabled = ∅ ∧ FirstUnknown registry (Listed disabled) code := by
  refine ⟨fun h => ?_, fun ⟨he, hd⟩ => parse_of_unknown_disabled he hd⟩
  rcases parse_cases registry disabled enabled with
    ⟨-, -, hp⟩ | ⟨he, code, hd, hp⟩ | ⟨-, code, -, hp⟩ | ⟨-, -, -, hp⟩
  all_goals
    rw [hp] at h
    cases h
  exact ⟨he, hd⟩

theorem parse_eq_unknown_enabled_iff {code : String} :
    parse disabled enabled registry = .error (.unknownRuleCode code .enabled) ↔
      Listed disabled = ∅ ∧ FirstUnknown registry (Listed enabled) code := by
  refine ⟨fun h => ?_, fun ⟨hd, he⟩ => parse_of_unknown_enabled hd he⟩
  rcases parse_cases registry disabled enabled with
    ⟨-, -, hp⟩ | ⟨-, code, -, hp⟩ | ⟨hd, code, he, hp⟩ | ⟨-, -, -, hp⟩
  all_goals
    rw [hp] at h
    cases h
  exact ⟨hd, he⟩

/-- A filter is made exactly of at most one list, all of whose codes are known. -/
theorem parse_eq_ok_iff {filter : Filter} :
    parse disabled enabled registry = .ok filter ↔
      (Listed disabled = ∅ ∨ Listed enabled = ∅) ∧ Known registry (Listed disabled) ∧
        Known registry (Listed enabled) ∧ filter = ⟨codes enabled, codes disabled⟩ := by
  constructor
  · intro h
    rcases parse_cases registry disabled enabled with
      ⟨-, -, hp⟩ | ⟨-, code, -, hp⟩ | ⟨-, code, -, hp⟩ | ⟨hone, hd, he, hp⟩
    all_goals
      rw [hp] at h
      cases h
    exact ⟨hone, hd, he, rfl⟩
  · rintro ⟨hone, hd, he, rfl⟩
    exact parse_of_known hone hd he

end Reading

/-! ### The rules that are selected -/

section Selecting

variable {registry : Registry} {disabled enabled : String} {filter : Filter}

theorem includes_of_enabled (he : (Listed enabled).Nonempty) {code : String} :
    includes ⟨codes enabled, codes disabled⟩ code = true ↔ code ∈ Listed enabled := by
  rw [includes, if_pos (codes_ne_empty_iff.2 he), contains_codes]

/-- Without an enabling list everything is selected but for the disabled codes. -/
theorem includes_of_not_enabled (he : Listed enabled = ∅) {code : String} :
    includes ⟨codes enabled, codes disabled⟩ code = true ↔ code ∉ Listed disabled := by
  rw [includes, if_neg fun h => h (codes_eq_empty_iff.2 he)]
  split
  · rw [← contains_codes, Bool.not_eq_true', Bool.not_eq_true]
  · rename_i hd
    rw [codes_eq_empty_iff.1 (not_not.1 hd)]
    simp

theorem mem_select_iff {rule : Rule} :
    rule ∈ filter.select registry ↔ rule ∈ registry.rules ∧ filter.includes rule.code = true :=
  List.mem_filter

theorem mem_codes_select_iff (h : registry.WellKeyed) {code : String} :
    code ∈ (filter.select registry).map (·.code) ↔
      registry.contains code = true ∧ filter.includes code = true := by
  rw [← Dict.mem_keys_iff, Registry.keys_eq_map_code h, List.mem_map, List.mem_map]
  simp only [mem_select_iff]
  constructor
  · rintro ⟨rule, ⟨hrule, hincludes⟩, rfl⟩
    exact ⟨⟨rule, hrule, rfl⟩, hincludes⟩
  · rintro ⟨⟨rule, hrule, rfl⟩, hincludes⟩
    exact ⟨rule, ⟨hrule, hincludes⟩, rfl⟩

theorem mem_select_of_enabled (hp : parse disabled enabled registry = .ok filter)
    (he : (Listed enabled).Nonempty) {rule : Rule} :
    rule ∈ filter.select registry ↔ rule ∈ registry.rules ∧ rule.code ∈ Listed enabled := by
  obtain ⟨-, -, -, rfl⟩ := parse_eq_ok_iff.1 hp
  rw [mem_select_iff, includes_of_enabled he]

/-- Different codes are counted by the set of them. -/
theorem ncard_eq_length {texts : List String} (hn : texts.Nodup) {s : Set String}
    (h : ∀ text, text ∈ texts ↔ text ∈ s) : s.ncard = texts.length := by
  have hs : s = (texts.toFinset : Set String) := by
    ext text
    rw [List.coe_toFinset, ← h]
    rfl
  rw [hs, Set.ncard_coe_finset, List.toFinset_card_of_nodup hn]

theorem codes_select_of_enabled (h : registry.WellKeyed)
    (hp : parse disabled enabled registry = .ok filter) (he : (Listed enabled).Nonempty)
    (code : String) :
    code ∈ (filter.select registry).map (·.code) ↔ code ∈ Listed enabled := by
  obtain ⟨-, -, hknown, rfl⟩ := parse_eq_ok_iff.1 hp
  rw [mem_codes_select_iff h, includes_of_enabled he]
  exact ⟨fun hcode => hcode.2, fun hcode => ⟨hknown code hcode, hcode⟩⟩

/-- A code that is listed twice selects one rule. -/
theorem length_select_of_enabled (h : registry.WellKeyed)
    (hp : parse disabled enabled registry = .ok filter) (he : (Listed enabled).Nonempty) :
    (filter.select registry).length = (Listed enabled).ncard := by
  rw [ncard_eq_length (nodup_codes_select h filter) (codes_select_of_enabled h hp he),
    List.length_map]

theorem mem_select_of_disabled (hp : parse disabled enabled registry = .ok filter)
    (hd : (Listed disabled).Nonempty) {rule : Rule} :
    rule ∈ filter.select registry ↔ rule ∈ registry.rules ∧ rule.code ∉ Listed disabled := by
  obtain ⟨hone, -, -, rfl⟩ := parse_eq_ok_iff.1 hp
  rw [mem_select_iff, includes_of_not_enabled (hone.resolve_left hd.ne_empty)]

theorem select_of_unlisted (hp : parse disabled enabled registry = .ok filter)
    (hd : Listed disabled = ∅) (he : Listed enabled = ∅) :
    filter.select registry = registry.rules := by
  obtain ⟨-, -, -, rfl⟩ := parse_eq_ok_iff.1 hp
  refine List.filter_eq_self.2 fun rule _ => (includes_of_not_enabled he).2 ?_
  rw [hd]
  exact id

end Selecting

/-- Texts that name the same codes are read as the same filter. -/
theorem eq_of_listed_eq {registry registry' : Registry} {disabled enabled disabled' enabled' : String}
    {filter filter' : Filter} (hd : Listed disabled' = Listed disabled)
    (he : Listed enabled' = Listed enabled) (hp : parse disabled enabled registry = .ok filter)
    (hp' : parse disabled' enabled' registry' = .ok filter') : filter' = filter := by
  obtain ⟨-, -, -, rfl⟩ := parse_eq_ok_iff.1 hp
  obtain ⟨-, -, -, rfl⟩ := parse_eq_ok_iff.1 hp'
  rw [codes_eq_iff.2 hd, codes_eq_iff.2 he]

/-- How two raw lists are read as a filter over any registry, on what the filter depends, and
which rules it selects there. -/
theorem parse_listed (offers : List Rule) (disabled enabled : String) :
    let registry := Registry.ofOffers offers
    let D := Listed disabled
    let E := Listed enabled
    ((∃ filter, parse disabled enabled registry = .ok filter) ↔
      (D = ∅ ∨ E = ∅) ∧ Known registry D ∧ Known registry E) ∧
    (parse disabled enabled registry = .error .conflictingFilters ↔ D.Nonempty ∧ E.Nonempty) ∧
    (∀ code, parse disabled enabled registry = .error (.unknownRuleCode code .disabled) ↔
      E = ∅ ∧ FirstUnknown registry D code) ∧
    (∀ code, parse disabled enabled registry = .error (.unknownRuleCode code .enabled) ↔
      D = ∅ ∧ FirstUnknown registry E code) ∧
    (∀ e, parse disabled enabled registry = .error e →
      e = .conflictingFilters ∨ ∃ code list, e = .unknownRuleCode code list) ∧
    (∀ disabled' enabled', Listed disabled' = D → Listed enabled' = E →
      parse disabled' enabled' registry = parse disabled enabled registry) ∧
    ∀ filter, parse disabled enabled registry = .ok filter →
      (∀ offers' disabled' enabled' filter', Listed disabled' = D → Listed enabled' = E →
        parse disabled' enabled' (Registry.ofOffers offers') = .ok filter' → filter' = filter) ∧
      (E.Nonempty →
        (∀ rule, rule ∈ filter.select registry ↔ rule ∈ registry.rules ∧ rule.code ∈ E) ∧
        (∀ code, code ∈ (filter.select registry).map (·.code) ↔ code ∈ E) ∧
        (filter.select registry).length = E.ncard ∧ 1 ≤ (filter.select registry).length) ∧
      (D.Nonempty →
        ∀ rule, rule ∈ filter.select registry ↔ rule ∈ registry.rules ∧ rule.code ∉ D) ∧
      (D = ∅ → E = ∅ → filter.select registry = registry.rules) := by
  intro registry D E
  have hkeyed : registry.WellKeyed := Registry.wellKeyed_ofOffers offers
  refine ⟨?_, parse_eq_conflict_iff, fun code => parse_eq_unknown_disabled_iff,
    fun code => parse_eq_unknown_enabled_iff, fun e h => ?_, fun disabled' enabled' hd he => ?_,
    fun filter hp => ⟨fun offers' disabled' enabled' filter' hd he hp' =>
      eq_of_listed_eq hd he hp hp', fun he => ⟨fun rule => mem_select_of_enabled hp he,
      codes_select_of_enabled hkeyed hp he, length_select_of_enabled hkeyed hp he, ?_⟩,
      fun hd rule => mem_select_of_disabled hp hd, select_of_unlisted hp⟩⟩
  · constructor
    · rintro ⟨filter, hp⟩
      obtain ⟨hone, hd, he, -⟩ := parse_eq_ok_iff.1 hp
      exact ⟨hone, hd, he⟩
    · rintro ⟨hone, hd, he⟩
      exact ⟨_, parse_of_known hone hd he⟩
  · rcases parse_cases registry disabled enabled with
      ⟨-, -, hp⟩ | ⟨-, code, -, hp⟩ | ⟨-, code, -, hp⟩ | ⟨-, -, -, hp⟩
    all_goals
      rw [hp] at h
      cases h
    · exact .inl rfl
    · exact .inr ⟨code, _, rfl⟩
    · exact .inr ⟨code, _, rfl⟩
  · rw [parse, parse, codes_eq_iff.2 hd, codes_eq_iff.2 he]
  · obtain ⟨code, hcode⟩ := he
    have hmem := (codes_select_of_enabled hkeyed hp ⟨code, hcode⟩ code).2 hcode
    rw [← List.length_map (f := Rule.code)]
    exact List.length_pos_of_mem hmem

/-- One code, written twice and between blanks of several kinds. -/
def padded : String := "\u3000AM1,, AM1\t"

theorem parse_listed_padded :
    let registry := Registry.ofOffers [Registry.holder, Registry.bystander]
    Listed "" = Listed " ," ∧ Listed "AM1" = Listed padded ∧ (Listed padded).Nonempty ∧
      parse "" "AM1" registry = parse " ," padded registry ∧
      ∃ filter, parse " ," padded registry = .ok filter ∧
        ∀ rule, rule ∈ filter.select registry ↔ rule ∈ registry.rules ∧ rule.code ∈ Listed padded := by
  intro registry
  have hnone : Listed "" = Listed " ," := codes_eq_iff.1 (by decide +kernel)
  have hcode : Listed "AM1" = Listed padded := codes_eq_iff.1 (by decide +kernel)
  have hne : (Listed padded).Nonempty := ⟨"AM1", Text.mem_fields_iff.1 (by decide +kernel)⟩
  obtain ⟨hok, -, -, -, -, hcongr, hselect⟩ :=
    parse_listed [Registry.holder, Registry.bystander] " ," padded
  have hempty : Listed " ," = ∅ := codes_eq_empty_iff.1 (by decide +kernel)
  have hknown : Known registry (Listed padded) :=
    unknownCode?_eq_none_iff.1 (by decide +kernel)
  have hknown' : Known registry (Listed " ,") := hempty ▸ known_empty registry
  obtain ⟨filter, hp⟩ := hok.2 ⟨.inl hempty, hknown', hknown⟩
  exact ⟨hnone, hcode, hne, hcongr "" "AM1" hnone hcode, filter, hp, ((hselect filter hp).2.1 hne).1⟩

end AddonLint.Filter
