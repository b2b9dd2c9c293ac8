import AddonLint.Rule.Filter
import AddonLint.Rules.Builtin
import Mathlib.Order.Basic

/-!
# Registries made by registering rules

The registries of interest come from the empty one by registering rules one after
the other. In each of them a rule stands under its own code, so its rules are in
strictly increasing order of their codes and no two of them share one.
-/
namespace AddonLint.Registry

/-- The registry after a rule was offered to it; a refusal leaves it as it was. -/
def offer (registry : Registry) (rule : Rule) : Registry :=
  match registry.register rule with
  | .ok registry => registry
  | .error _ => registry

/-- The registry after rules were offered one after the other to the empty one. -/
def ofOffers (offers : List Rule) : Registry := offers.foldl offer Dict.empty

/-- Each rule stands under its own code. -/
def WellKeyed (registry : Registry) : Prop := ∀ e ∈ registry.entries, e.1 = e.2.code

theorem wellKeyed_empty : WellKeyed Dict.empty := nofun

theorem wellKeyed_register {registry registry' : Registry} {rule : Rule}
    (h : WellKeyed registry) (hr : registry.register rule = .ok registry') :
    WellKeyed registry' := by
  unfold register at hr
  split at hr
  · cases hr
  · split at hr
    · cases hr
    · cases hr
      intro e he
      rcases Dict.mem_insertEntry he with rfl | he
      · rfl
      · exact h e he

theorem wellKeyed_offer {registry : Registry} (h : WellKeyed registry) (rule : Rule) :
    WellKeyed (registry.offer rule) := by
  unfold offer
  split
  · rename_i hr
    exact wellKeyed_register h hr
  · exact h

theorem wellKeyed_foldl_offer (offers : List Rule) {registry : Registry}
    (h : WellKeyed registry) : WellKeyed (offers.foldl offer registry) := by
  induction offers generalizing registry with
  | nil => exact h
  | cons rule offers ih => exact ih (wellKeyed_offer h rule)

/-- No sequence of offers puts a rule under the code of another one. -/
theorem wellKeyed_ofOffers (offers : List Rule) : WellKeyed (ofOffers offers) :=
  wellKeyed_foldl_offer offers wellKeyed_empty

/-- The rules of a well-keyed registry come in the order of their codes. -/
theorem WellKeyed.pairwise_rules {registry : Registry} (h : WellKeyed registry) :
    registry.rules.Pairwise fun a b => a.code < b.code := by
  refine List.pairwise_map.2 (registry.sorted.imp_of_mem ?_)
  intro a b ha hb hlt
  rwa [← h a ha, ← h b hb]

/-! ### Rules registered by increasing code -/

/-- A key behind all others goes to the end. -/
theorem insertEntry_of_lt {α : Type} {key : String} {value : α} {entries : List (String × α)}
    (h : ∀ e ∈ entries, e.1 < key) :
    Dict.insertEntry key value entries = entries ++ [(key, value)] := by
  induction entries with
  | nil => rfl
  | cons e rest ih =>
    have hlt : e.1 < key := h e List.mem_cons_self
    have hne : key ≠ e.1 := fun heq => String.lt_irrefl key (heq ▸ hlt)
    rw [Dict.insertEntry, if_neg (String.lt_asymm hlt), if_neg hne,
      ih fun e he => h e (List.mem_cons_of_mem _ he), List.cons_append]

theorem contains_of_lt {registry : Registry} {code : String}
    (h : ∀ e ∈ registry.entries, e.1 < code) : registry.contains code = false := by
  have hnone : registry.entries.lookup code = none := by
    refine List.lookup_eq_none_iff.2 fun e he => ?_
    exact bne_iff_ne.2 (String.ne_of_lt (h e he)).symm
  rw [Dict.contains, Dict.get?, hnone]
  rfl

/-- A code above all others goes to the end of the registry. -/
theorem register_of_lt {registry : Registry} {rule : Rule} (hvalid : isValidCode rule.code = true)
    (h : ∀ e ∈ registry.entries, e.1 < rule.code) :
    ∃ registry', registry.register rule = .ok registry' ∧
      registry'.entries = registry.entries ++ [(rule.code, rule)] := by
  refine ⟨registry.insert rule.code rule, ?_, insertEntry_of_lt h⟩
  rw [register, hvalid, contains_of_lt h]
  rfl

/-- Valid rules with increasing codes behind those of a registry are all accepted, and
come after its rules in their order. -/
theorem registerAll_of_pairwise {rules : List Rule}
    (hvalid : ∀ r ∈ rules, isValidCode r.code = true)
    (hsorted : rules.Pairwise fun a b => a.code < b.code) {registry : Registry}
    (hnew : ∀ e ∈ registry.entries, ∀ r ∈ rules, e.1 < r.code) :
    ∃ registry', registry.registerAll rules = (registry', none) ∧
      registry'.rules = registry.rules ++ rules := by
  induction rules generalizing registry with
  | nil => exact ⟨registry, rfl, (List.append_nil _).symm⟩
  | cons rule rest ih =>
    obtain ⟨hrule, hrest⟩ := List.pairwise_cons.1 hsorted
    obtain ⟨next, hnext, hentries⟩ := register_of_lt (hvalid rule List.mem_cons_self)
      fun e he => hnew e he rule List.mem_cons_self
    have hlt : ∀ e ∈ next.entries, ∀ r ∈ rest, e.1 < r.code := by
      intro e he r hr
      rw [hentries] at he
      rcases List.mem_append.1 he with he | he
      · exact hnew e he r (List.mem_cons_of_mem _ hr)
      · rw [List.mem_singleton.1 he]
        exact hrule r hr
    obtain ⟨last, hlast, hrules⟩ := ih (fun r hr => hvalid r (List.mem_cons_of_mem _ hr)) hrest hlt
    refine ⟨last, by rw [registerAll, hnext]; exact hlast, ?_⟩
    rw [hrules, Registry.rules, Dict.values, hentries]
    simp [Registry.rules, Dict.values]

end AddonLint.Registry

namespace AddonLint.Rules

theorem isValidCode_builtin : ∀ r ∈ builtin, Registry.isValidCode r.code = true := by decide

theorem pairwise_builtin : builtin.Pairwise fun a b => a.code < b.code := by decide

/-- No built-in rule is refused, and the registry holds them in their order. -/
theorem registry_eq_ok : ∃ registry, Rules.registry = .ok registry ∧ registry.rules = builtin := by
  obtain ⟨registry, hall, hrules⟩ :=
    Registry.registerAll_of_pairwise isValidCode_builtin pairwise_builtin
      (fun e (he : e ∈ Dict.empty.entries) => nomatch he)
  exact ⟨registry, by rw [Rules.registry, hall], hrules⟩

end AddonLint.Rules

namespace AddonLint.Filter

/-- A filter keeps the order of the rules it selects. -/
theorem pairwise_select {registry : Registry} (h : registry.WellKeyed) (filter : Filter) :
    (filter.select registry).Pairwise fun a b => a.code < b.code :=
  h.pairwise_rules.filter _

/-- No filter selects a code twice. -/
theorem nodup_codes_select {registry : Registry} (h : registry.WellKeyed) (filter : Filter) :
    ((filter.select registry).map (·.code)).Nodup :=
  List.pairwise_map.2 ((pairwise_select h filter).imp String.ne_of_lt)

end AddonLint.Filter
