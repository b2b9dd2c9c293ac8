import AddonLint.Proofs.Fallible
import AddonLint.Schema.Yaml

/-!
# Closed records know their keys

A closed record that is read from a YAML text stands there as a mapping whose keys are all names of
its fields, or as nothing at all. This holds however the mapping and its keys are reached: directly
or through an alias.
-/
namespace AddonLint.Yaml

/-- Whatever the reading comes to has a property, unless it fails. -/
def Yields {α : Type} (x : Decode α) (P : α → Prop) : Prop := ∀ n p, x.run n = .ok p → P p.1

section

variable {α β σ : Type} {P : α → Prop} {Q : β → Prop}

/-- What a step yields is all that the next step may rely on. -/
theorem Yields.bind {x : Decode α} {f : α → Decode β} (hx : Yields x P)
    (hf : ∀ a, P a → Yields (f a) Q) : Yields (x >>= f) Q := by
  intro n r h
  rw [StateT.run_bind, Fallible.bind_eq_ok_iff] at h
  obtain ⟨p, hp, hr⟩ := h
  exact hf p.1 (hx n p hp) p.2 r hr

theorem yields_pure {a : α} (h : P a) : Yields (pure a) P := by
  intro n p hp
  cases hp
  exact h

theorem yields_throw (e : Error) : Yields (throw e : Decode α) P := by
  rintro n p ⟨⟩

theorem yields_true (x : Decode α) : Yields x fun _ => True := fun _ _ _ => trivial

/-- What never succeeds can be followed by anything. -/
theorem Yields.bind_never {x : Decode α} {f : α → Decode β} (hx : Yields x fun _ => False) :
    Yields (x >>= f) Q := hx.bind fun _ h => h.elim

theorem Yields.mono {x : Decode α} {P' : α → Prop} (hx : Yields x P) (h : ∀ a, P a → P' a) :
    Yields x P' := fun n p hp => h p.1 (hx n p hp)

/-- What each step of a fold establishes about its item holds of all items. -/
theorem yields_foldlM {R : α → Prop} {step : σ → α → Decode σ} {items : List α}
    (hstep : ∀ s, ∀ item ∈ items, Yields (step s item) fun _ => R item) (s : σ) :
    Yields (items.foldlM step s) fun _ => ∀ item ∈ items, R item := by
  induction items generalizing s with
  | nil => exact yields_pure fun item hitem => by cases hitem
  | cons first rest ih =>
    rw [List.foldlM_cons]
    refine (hstep s first List.mem_cons_self).bind fun s' hfirst => ?_
    have hrest := ih (fun s item hitem => hstep s item (List.mem_cons_of_mem first hitem)) s'
    exact hrest.mono fun _ h => List.forall_mem_cons.2 ⟨hfirst, h⟩

end

/-- The node that a node stands for: itself, or what its alias leads to. -/
def Document.target? (document : Document) : Node → Option Node
  | .missing => none
  | .alias anchor => document.anchoredNode? anchor
  | node => some node

/-- A key that stands for one of some known texts. -/
def Document.KnownKey (document : Document) (known : List String) (key : Node) : Prop :=
  ∃ anchor tag text style, document.target? key = some (.scalar anchor tag text style) ∧
    text ∈ known

/-- A node that stands for a mapping whose keys are all known, or for nothing at all. -/
inductive Document.KnownKeys (document : Document) (known : List String) (node : Node) : Prop where
  | nothing {anchor : Option Nat} {tag : Option String}
      (target : document.target? node = some (.scalar anchor tag "" .plain))
  | mapping {anchor : Option Nat} {tag : Option String} {entries : List (Node × Node)}
      (target : document.target? node = some (.mapping anchor tag entries))
      (keys : ∀ e ∈ entries, document.KnownKey known e.1)

namespace Site

variable {α : Type} {P : α → Prop} (site : Site)

theorem yields_fault (cause : Fault) : Yields (site.fault cause : Decode α) P := yields_throw _

theorem yields_broken : Yields (site.broken : Decode α) P := yields_throw _

theorem yields_wrongType (node : Node) (expected : String) :
    Yields (site.wrongType node expected : Decode α) P := by
  rw [wrongType.eq_def]
  split
  · split
    · exact site.yields_fault _
    · exact site.yields_fault _
  · exact site.yields_fault _
  · exact site.yields_fault _
  · exact site.yields_broken

theorem yields_follow (node : Node) :
    Yields (site.follow node) fun target => site.document.target? node = some target := by
  rw [follow.eq_def]
  split
  · refine (yields_true get).bind fun jumps _ => ?_
    dsimp only
    split
    · exact (yields_throw _).bind_never
    · refine (yields_true _).bind fun _ _ => ?_
      split
      · rename_i hnode
        exact yields_pure hnode
      · exact site.yields_broken
  · exact site.yields_broken
  · rename_i halias hmissing
    refine yields_pure ?_
    rw [Document.target?]
    · exact hmissing
    · exact halias

/-- A key that was read is a scalar, perhaps behind an alias. -/
theorem yields_key (expected : String) (node : Node) :
    Yields (site.key expected node) fun found => ∃ anchor tag style,
      site.document.target? node = some (.scalar anchor tag found.1 style) := by
  refine (site.yields_follow node).bind fun target htarget => ?_
  split
  · exact yields_pure ⟨_, _, _, htarget⟩
  · exact yields_pure ⟨_, _, _, htarget⟩
  · exact site.yields_wrongType _ _

end Site

end AddonLint.Yaml

namespace AddonLint

open Yaml

/-- A value is only ever put into the slot of a field with its name. -/
theorem FieldList.yields_fill (name : String) (depth : Nat) (site : Site) (step : Step)
    (node : Node) : (fs : FieldList) → (slots : fs.Slots) →
    Yields (fs.fill name depth site step node slots) fun filled =>
      filled.isSome = true → name ∈ fs.keys
  | .nil, _ => yields_pure fun h => by cases h
  | .cons key _ schema rest, (slot, slots) => by
    rw [fill]
    split
    · rename_i hkey
      exact fun _ _ _ _ => List.mem_cons.2 (.inl hkey.symm)
    · refine (yields_fill name depth site step node rest slots).bind fun filled hfilled => ?_
      refine yields_pure fun h => List.mem_cons_of_mem key (hfilled ?_)
      rwa [Option.isSome_map] at h

namespace Schema

variable {expected : String} {fields : FieldList}

/-- An unknown key is refused, so every key of a mapping that was read is known. -/
theorem yields_closedRecord (depth : Nat) (site : Site) (node : Node) :
    Yields ((record expected true fields).ofNode depth site node) fun _ =>
      site.document.KnownKeys fields.keys node := by
  rw [ofNode]
  refine (site.yields_follow node).bind fun target htarget => ?_
  dsimp only
  split
  · split
    · exact (yields_throw _).bind_never
    · refine (yields_foldlM (R := fun e => site.document.KnownKey fields.keys e.1)
        (fun slots entry _ => ?_) _).bind fun slots hkeys => ?_
      · refine (site.yields_key _ entry.1).bind fun found hfound => ?_
        refine (fields.yields_fill found.1 _ site _ _ slots).bind fun filled hfilled => ?_
        -- A slot was filled, or the record refuses the key.
        split
        · obtain ⟨anchor, tag, style, hscalar⟩ := hfound
          exact yields_pure ⟨anchor, tag, found.1, style, hscalar, hfilled rfl⟩
        · exact (site.yields_fault _).bind_never
      · split
        · exact yields_pure (.mapping htarget hkeys)
        · exact site.yields_fault _
  · split
    · rename_i hblank
      obtain ⟨rfl, rfl⟩ : _ = "" ∧ _ = ScalarStyle.plain := by
        simpa only [isBlankScalar, Bool.and_eq_true, decide_eq_true_eq] using hblank
      exact fun _ _ _ => .nothing htarget
    · exact (site.yields_wrongType _ _).bind_never
  · exact (site.yields_wrongType _ _).bind_never

/-- A closed record that is read from a text is the only document there. -/
theorem exists_document_of_ofYaml {text : String} {vals : fields.Vals}
    (h : (record expected true fields).ofYaml text = .ok vals) :
    ∃ document, Document.ofText text = [document] ∧
      document.KnownKeys fields.keys document.root := by
  rw [ofYaml.eq_def] at h
  split at h
  · cases h
  · rename_i document hdocument
    obtain ⟨p, hread, -⟩ := Fallible.bind_eq_ok_iff.1 h
    exact ⟨document, hdocument, yields_closedRecord _ ⟨document, []⟩ _ 0 p hread⟩
  · obtain ⟨_, -, h⟩ := Fallible.bind_eq_ok_iff.1 h
    cases h

end Schema

end AddonLint
