import AddonLint.Proofs.Conditions

/-!
# The parts of an image reference

An image on quay.io is written as the host, an organisation, a repository and an optional tag or
digest. No organisation has a slash and no repository a mark that a tag or digest starts with, so
there is only one way to take such a text apart, and the parts use up all of it.
-/
namespace AddonLint.ImageReference

open Computability

/-- A character of one class and then any number of characters of another. -/
def IsWord (start further : List (Char × Char)) (s : String) : Prop :=
  ∃ c tail, s.toList = c :: tail ∧ within start c = true ∧ ∀ d ∈ tail, within further d = true

/-- Nothing, a tag of up to 128 characters, or a digest of 64 digits. -/
inductive OptionalSuffix : String → Prop
  | none : OptionalSuffix ""
  | tag {name : String} (hname : IsWord tagStart tagChars name) (hlength : name.length ≤ 128) :
      OptionalSuffix (":" ++ name)
  | digest {digits : String} (hdigits : ∀ c ∈ digits.toList, within digestChars c = true)
      (hlength : digits.length = 64) : OptionalSuffix ("@sha256:" ++ digits)

structure Parts where
  organisation : String
  repository : String
  suffix : String

/-- A text that is made of the parts, and of nothing else. -/
structure Parts.Form (parts : Parts) (s : String) : Prop where
  text : s = "quay.io/" ++ parts.organisation ++ "/" ++ parts.repository ++ parts.suffix
  organisation : IsWord nameStart organisationChars parts.organisation
  repository : IsWord nameStart repositoryChars parts.repository
  suffix : OptionalSuffix parts.suffix

/-! ### From the pattern to its parts -/

theorem mem_word_mul {start further : List (Char × Char)} {rest : Language Char} {cs : List Char} :
    cs ∈ oneOf start * ((oneOf further)∗ * rest) ↔
      ∃ word : String, IsWord start further word ∧ ∃ tail ∈ rest, cs = word.toList ++ tail := by
  rw [mem_oneOf_mul]
  constructor
  · rintro ⟨c, _, hc, hmul, rfl⟩
    obtain ⟨run, hrun, tail, htail, rfl⟩ := Language.mem_mul.mp hmul
    have hrun := List.all_eq_true.mp (mem_oneOf_kstar.mp hrun)
    refine ⟨String.ofList (c :: run), ⟨c, run, String.toList_ofList, hc, hrun⟩, tail, htail, ?_⟩
    rw [String.toList_ofList, List.cons_append]
  · rintro ⟨word, ⟨c, run, hword, hc, hrun⟩, tail, htail, rfl⟩
    have hmul : run ++ tail ∈ (oneOf further)∗ * rest :=
      Language.mem_mul.mpr ⟨run, mem_oneOf_kstar.mpr (List.all_eq_true.mpr hrun), tail, htail, rfl⟩
    exact ⟨c, run ++ tail, hc, hmul, by rw [hword, List.cons_append]⟩

theorem mem_tag_iff {name : String} :
    name.toList ∈ oneOf tagStart * (1 + oneOf tagChars) ^ 127 ↔
      IsWord tagStart tagChars name ∧ name.length ≤ 128 := by
  simp only [mem_oneOf_mul, mem_optional_pow, List.all_eq_true, ← String.length_toList]
  constructor
  · rintro ⟨c, tail, hc, ⟨hlength, htail⟩, hname⟩
    refine ⟨⟨c, tail, hname, hc, htail⟩, ?_⟩
    rw [hname, List.length_cons]
    omega
  · rintro ⟨⟨c, tail, hname, hc, htail⟩, hlength⟩
    rw [hname, List.length_cons] at hlength
    exact ⟨c, tail, hc, ⟨by omega, htail⟩, hname⟩

theorem eq_append_ofList {s beginning : String} {tail : List Char}
    (h : s.toList = beginning.toList ++ tail) : s = beginning ++ String.ofList tail := by
  rw [← String.toList_inj, h, String.toList_append, String.toList_ofList]

theorem mem_suffixPattern_iff {s : String} : s.toList ∈ suffixPattern ↔ OptionalSuffix s := by
  rw [suffixPattern, Language.mem_add, Language.mem_one, Language.mem_add, mem_literal_mul,
    mem_literal_mul]
  constructor
  · rintro (h | ⟨tail, htail, h⟩ | ⟨tail, htail, h⟩)
    · obtain rfl := String.toList_eq_nil_iff.mp h
      exact .none
    · rw [← String.toList_ofList (l := tail), mem_tag_iff] at htail
      exact eq_append_ofList h ▸ .tag htail.1 htail.2
    · rw [mem_oneOf_pow, List.all_eq_true, ← String.toList_ofList (l := tail),
        String.length_toList] at htail
      exact eq_append_ofList h ▸ .digest htail.2 htail.1
  · intro h
    cases h with
    | none => exact .inl rfl
    | @tag name hname hlength =>
      exact .inr (.inl ⟨name.toList, mem_tag_iff.mpr ⟨hname, hlength⟩, String.toList_append⟩)
    | @digest digits hdigits hlength =>
      refine .inr (.inr ⟨digits.toList, mem_oneOf_pow.mpr ⟨?_, ?_⟩, String.toList_append⟩)
      · rw [String.length_toList, hlength]
      · exact List.all_eq_true.mpr hdigits

/-- The pattern describes exactly the texts that have parts. -/
theorem mem_quayPattern_iff {s : String} :
    s.toList ∈ quayPattern ↔ ∃ parts : Parts, parts.Form s := by
  simp only [quayPattern, mem_literal_mul, mem_word_mul]
  constructor
  · rintro ⟨_, ⟨organisation, horganisation, _, ⟨_, ⟨repository, hrepository, tail, htail, rfl⟩,
      rfl⟩, rfl⟩, h⟩
    rw [← String.toList_ofList (l := tail), mem_suffixPattern_iff] at htail
    refine ⟨⟨organisation, repository, String.ofList tail⟩, ?_, horganisation, hrepository, htail⟩
    rw [← String.toList_inj, h]
    simp only [String.toList_append, String.toList_ofList, List.append_assoc]
  · rintro ⟨parts, htext, horganisation, hrepository, hsuffix⟩
    have htail := mem_suffixPattern_iff.mpr hsuffix
    refine ⟨_, ⟨_, horganisation, _, ⟨_, ⟨_, hrepository, _, htail, rfl⟩, rfl⟩, rfl⟩, ?_⟩
    rw [htext]
    simp only [String.toList_append, List.append_assoc]

/-! ### There is one way to take a text apart -/

/-- A class lies in another if each of its ranges does. -/
theorem within_mono {ranges others : List (Char × Char)}
    (h : ∀ range ∈ ranges, ∃ other ∈ others, other.1 ≤ range.1 ∧ range.2 ≤ other.2) {c : Char}
    (hc : within ranges c = true) : within others c = true := by
  obtain ⟨range, hrange, hin⟩ := List.any_eq_true.mp hc
  obtain ⟨other, hother, hlow, hhigh⟩ := h range hrange
  rw [Bool.and_eq_true, decide_eq_true_eq, decide_eq_true_eq] at hin
  refine List.any_eq_true.mpr ⟨other, hother, ?_⟩
  rw [Bool.and_eq_true, decide_eq_true_eq, decide_eq_true_eq]
  exact ⟨Char.le_trans hlow hin.1, Char.le_trans hin.2 hhigh⟩

/-- If the first character may also stand further on, then all characters are of the further
class. -/
theorem IsWord.forall_within {start further : List (Char × Char)} {s : String}
    (h : IsWord start further s)
    (hstart : ∀ range ∈ start, ∃ other ∈ further, other.1 ≤ range.1 ∧ range.2 ≤ other.2) :
    ∀ c ∈ s.toList, within further c = true := by
  obtain ⟨c, tail, hs, hc, htail⟩ := h
  rw [hs]
  exact List.forall_mem_cons.mpr ⟨within_mono hstart hc, htail⟩

/-- What follows a word does not start with a character of it, so the word ends in one place. -/
theorem append_unique {further : List (Char × Char)} {word word' : String}
    {rest rest' : List Char} (hword : ∀ c ∈ word.toList, within further c = true)
    (hword' : ∀ c ∈ word'.toList, within further c = true)
    (hrest : ∀ c ∈ rest.head?, within further c = false)
    (hrest' : ∀ c ∈ rest'.head?, within further c = false)
    (h : word.toList ++ rest = word'.toList ++ rest') : word = word' ∧ rest = rest' := by
  have hrun := Text.run_iff.mpr ⟨rfl, hword, hrest⟩
  have hrun' := Text.run_iff.mpr ⟨h, hword', hrest'⟩
  exact ⟨String.toList_inj.mp (hrun.1.symm.trans hrun'.1), hrun.2.symm.trans hrun'.2⟩

namespace Parts.Form

variable {parts parts' : Parts} {s : String}

theorem toList_eq (h : parts.Form s) :
    s.toList = "quay.io/".toList ++ (parts.organisation.toList ++
      '/' :: (parts.repository.toList ++ parts.suffix.toList)) := by
  rw [h.text]
  simp only [String.toList_append, List.append_assoc]
  rfl

theorem unique (h : parts.Form s) (h' : parts'.Form s) : parts = parts' := by
  have horganisation := h.organisation.forall_within (by decide)
  have horganisation' := h'.organisation.forall_within (by decide)
  have hrepository := h.repository.forall_within (by decide)
  have hrepository' := h'.repository.forall_within (by decide)
  have hslash (tail : List Char) :
      ∀ c ∈ ('/' :: tail).head?, within organisationChars c = false := by
    rintro c ⟨⟩
    decide
  have htail := List.append_cancel_left (h.toList_eq.symm.trans h'.toList_eq)
  obtain ⟨horg, htail⟩ :=
    append_unique horganisation horganisation' (hslash _) (hslash _) htail
  obtain ⟨hrepo, hsuffix⟩ := append_unique hrepository hrepository'
    (head_suffix (mem_suffixPattern_iff.mpr h.suffix))
    (head_suffix (mem_suffixPattern_iff.mpr h'.suffix)) (List.cons_eq_cons.mp htail).2
  cases parts
  cases parts'
  cases horg
  cases hrepo
  cases String.toList_inj.mp hsuffix
  rfl

end Parts.Form

/-! ### Nothing stands around the parts -/

/-- Letters, digits and the marks of a reference. -/
def referenceChars : List (Char × Char) := tagChars ++ [('/', '/'), (':', ':'), ('@', '@')]

theorem OptionalSuffix.forall_within {s : String} (h : OptionalSuffix s) :
    ∀ c ∈ s.toList, within referenceChars c = true := by
  cases h with
  | none => exact nofun
  | tag hname _ =>
    rw [String.toList_append, List.forall_mem_append]
    have htag := hname.forall_within (by decide)
    exact ⟨List.all_eq_true.mp (by decide), fun c hc => within_mono (by decide) (htag c hc)⟩
  | digest hdigits _ =>
    rw [String.toList_append, List.forall_mem_append]
    have hmark : ∀ c ∈ "@sha256:".toList, within referenceChars c = true :=
      List.all_eq_true.mp (by decide)
    exact ⟨hmark, fun c hc => within_mono (by decide) (hdigits c hc)⟩

/-- Letters, digits and marks make up a reference; a blank or a line feed is none of them. -/
theorem Parts.Form.forall_within {parts : Parts} {s : String} (h : parts.Form s) :
    ∀ c ∈ s.toList, within referenceChars c = true := by
  have horganisation := h.organisation.forall_within (by decide)
  have hrepository := h.repository.forall_within (by decide)
  rw [h.toList_eq, List.forall_mem_append, List.forall_mem_append, List.forall_mem_cons,
    List.forall_mem_append]
  have hhost : ∀ c ∈ "quay.io/".toList, within referenceChars c = true :=
    List.all_eq_true.mp (by decide)
  refine ⟨hhost, fun c hc => ?_, by decide, fun c hc => ?_, h.suffix.forall_within⟩
  · exact within_mono (by decide) (horganisation c hc)
  · exact within_mono (by decide) (hrepository c hc)

/-- The host starts in one place only: a text in front of it has the host itself in front. -/
theorem Parts.Form.host_prefix {parts parts' : Parts} {s before reference : String}
    (h : parts.Form s) (h' : parts'.Form reference) (hs : s = before ++ reference)
    (hne : before ≠ "") : "quay.io/".toList <+: before.toList := by
  have hbefore : before.toList <+: s.toList := by
    rw [hs, String.toList_append]
    exact List.prefix_append _ _
  have hhost : "quay.io/".toList <+: s.toList := h.toList_eq ▸ List.prefix_append _ _
  rcases List.prefix_or_prefix_of_prefix hhost hbefore with hprefix | ⟨more, hmore⟩
  · exact hprefix
  · have hsplit : before.toList ++ reference.toList = before.toList ++ (more ++
        (parts.organisation.toList ++ '/' :: (parts.repository.toList ++ parts.suffix.toList))) := by
      rw [← String.toList_append, ← hs, h.toList_eq, ← hmore, List.append_assoc]
    have hmiddle := List.append_cancel_left hsplit
    cases more with
    | nil => exact List.append_nil before.toList ▸ hmore ▸ List.prefix_rfl
    | cons c more =>
      -- Within the host itself, no later character is its first one.
      rw [h'.toList_eq] at hmiddle
      obtain rfl : 'q' = c := (List.cons_eq_cons.mp hmiddle).1
      obtain ⟨b, bs, hb⟩ := List.exists_cons_of_ne_nil (String.toList_eq_nil_iff.not.mpr hne)
      rw [hb] at hmore
      have hq : 'q' ∈ "uay.io/".toList := by
        have htail : bs ++ 'q' :: more = "uay.io/".toList := (List.cons_eq_cons.mp hmore).2
        rw [← htail]
        exact List.mem_append_right bs List.mem_cons_self
      exact absurd hq (by decide)

end AddonLint.ImageReference

namespace AddonLint.Rules

open ImageReference (Parts within referenceChars mem_quayPattern_iff)

/-- The rule on the test harness accepts the texts that are made of a host, an organisation, a
repository and an optional tag or digest, each of them in one way only. -/
theorem testHarness_references (subject : Subject) :
    (testHarness.runner subject = .verdict .pass ↔
        ∃ parts : Parts, parts.Form subject.addon.testHarness) ∧
      (testHarness.runner subject = .verdict .pass →
        ∃! parts : Parts, parts.Form subject.addon.testHarness) ∧
      (∀ c ∈ subject.addon.testHarness.toList, within referenceChars c = false →
        testHarness.runner subject ≠ .verdict .pass) ∧
      (∀ text, subject.addon.testHarness = text ++ "\n" →
        testHarness.runner subject ≠ .verdict .pass) ∧
      ∀ before reference, subject.addon.testHarness = before ++ reference → before ≠ "" →
        (∃ parts : Parts, parts.Form reference) → ¬"quay.io/".toList <+: before.toList →
          testHarness.runner subject ≠ .verdict .pass := by
  have hpass : testHarness.runner subject = .verdict .pass ↔
      ∃ parts : Parts, parts.Form subject.addon.testHarness := by
    change RunnerEnd.verdict (judgeTestHarness subject.addon) = _ ↔ _
    rw [RunnerEnd.verdict.injEq, (decides_judgeTestHarness subject.addon).eq_pass_iff, HarnessFits,
      mem_quayPattern_iff]
  have hforeign (c : Char) (hc : c ∈ subject.addon.testHarness.toList)
      (hout : within referenceChars c = false) :
      testHarness.runner subject ≠ .verdict .pass := by
    intro h
    obtain ⟨parts, hparts⟩ := hpass.mp h
    exact Bool.false_ne_true (hout.symm.trans (hparts.forall_within c hc))
  refine ⟨hpass, ?_, hforeign, ?_, ?_⟩
  · intro h
    obtain ⟨parts, hparts⟩ := hpass.mp h
    exact ⟨parts, hparts, fun other hother => hother.unique hparts⟩
  · intro text htext
    refine hforeign '\n' ?_ (by decide)
    rw [htext, String.toList_append]
    exact List.mem_append_right _ (by decide)
  · rintro before reference hsplit hne ⟨parts', hparts'⟩ hhost h
    obtain ⟨parts, hparts⟩ := hpass.mp h
    exact hhost (hparts.host_prefix hparts' hsplit hne)

end AddonLint.Rules
