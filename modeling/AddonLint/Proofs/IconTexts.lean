import AddonLint.Proofs.Conditions
import Mathlib.Logic.Relation

/-!
# Texts of an icon

Line feeds and carriage returns in the text of an icon do not count, wherever they stand. Without
them the text has to be the one base64 text of an image, and there are three ways to fail: no text
at all, the text of no byte string, and the text of bytes that are no image. A text of line breaks
alone stands for no bytes and fails in the third way.
-/
namespace AddonLint.Rules

/-- The subject with another text of its icon. -/
def withIcon (subject : Subject) (text : String) : Subject :=
  { subject with addon := { subject.addon with icon := text } }

/-- One line break more. -/
inductive AddsBreak : List Char → List Char → Prop
  | insert (before after : List Char) {c : Char} (hc : c = '\n' ∨ c = '\r') :
      AddsBreak (before ++ after) (before ++ c :: after)

/-- The texts differ by line breaks that are put in or taken out. -/
def Rewrapped (s t : String) : Prop := Relation.EqvGen AddsBreak s.toList t.toList

/-- The text is the base64 text of the bytes, apart from line breaks. -/
def Encodes (s : String) (bytes : List UInt8) : Prop :=
  (s.toList.filter fun c => c ≠ '\n' && c ≠ '\r') = Base64.encode bytes

def EncodesImage (s : String) : Prop := ∃ bytes, Encodes s bytes ∧ Png.isImage bytes = true

/-- What may be wrong with the text of an icon. -/
inductive IconFault where
  | missing
  | undecodable
  | noImage

namespace IconFault

/-- The words for a fault, in front of the identifier of the addon. -/
def words : IconFault → String
  | missing => "`icon` not found under the addon metadata of "
  | undecodable => "`icon` found to be improperly base64 populated under the addon metadata of "
  | noImage =>
    "`icon`'s base64 value found to correspond to a non-png data under the addon metadata of "

def Applies : IconFault → String → Prop
  | missing, s => s = ""
  | undecodable, s => s ≠ "" ∧ ¬∃ bytes, Encodes s bytes
  | noImage, s => s ≠ "" ∧ ∃ bytes, Encodes s bytes ∧ Png.isImage bytes = false

theorem words_injective {fault other : IconFault} {id : String}
    (h : fault.words ++ id = other.words ++ id) : fault = other := by
  have hwords : fault.words = other.words := by
    rw [← String.toList_inj, String.toList_append, String.toList_append] at h
    exact String.toList_inj.mp (List.append_cancel_right h)
  cases fault <;> cases other <;> first | rfl | exact absurd hwords (by decide)

end IconFault

/-! ### The verdict on a text -/

/-- A text stands for at most one byte string. -/
theorem Encodes.unique {s : String} {bytes others : List UInt8} (h : Encodes s bytes)
    (h' : Encodes s others) : bytes = others :=
  Base64.encode_injective (h.symm.trans h')

theorem encodes_iff {s : String} {bytes : List UInt8} :
    Encodes s bytes ↔ Base64.decode (withoutBreaks s) = some bytes :=
  Base64.decode_eq_some_iff.symm

theorem encodesImage_or_fault (s : String) :
    EncodesImage s ∨ ∃ fault : IconFault, fault.Applies s := by
  by_cases hempty : s = ""
  · exact .inr ⟨.missing, hempty⟩
  by_cases hbytes : ∃ bytes, Encodes s bytes
  · obtain ⟨bytes, hbytes⟩ := hbytes
    cases himage : Png.isImage bytes with
    | true => exact .inl ⟨bytes, hbytes, himage⟩
    | false => exact .inr ⟨.noImage, hempty, bytes, hbytes, himage⟩
  · exact .inr ⟨.undecodable, hempty, hbytes⟩

theorem judgeIcon_of_image {addon : AddonMetadata} (h : EncodesImage addon.icon) :
    judgeIcon addon = .pass := by
  obtain ⟨bytes, hbytes, himage⟩ := h
  have hne : addon.icon ≠ "" := by
    intro hempty
    have hnil : Encodes addon.icon [] := by rw [hempty]; rfl
    obtain rfl := hbytes.unique hnil
    cases himage
  simp only [judgeIcon, if_neg hne, encodes_iff.mp hbytes, himage]
  rfl

theorem judgeIcon_of_fault {addon : AddonMetadata} {fault : IconFault}
    (h : fault.Applies addon.icon) : judgeIcon addon = .fail (fault.words ++ addon.id) := by
  cases fault with
  | missing =>
    have hempty : addon.icon = "" := h
    simp only [judgeIcon, if_pos hempty]
    rfl
  | undecodable =>
    obtain ⟨hne, hnone⟩ := h
    have hdecode : Base64.decode (withoutBreaks addon.icon) = none :=
      Option.eq_none_iff_forall_ne_some.mpr fun bytes hbytes =>
        hnone ⟨bytes, encodes_iff.mpr hbytes⟩
    simp only [judgeIcon, if_neg hne, hdecode]
    rfl
  | noImage =>
    obtain ⟨hne, bytes, hbytes, himage⟩ := h
    simp only [judgeIcon, if_neg hne, encodes_iff.mp hbytes, himage]
    rfl

theorem runner_icon_of_image (subject : Subject) {s : String} (h : EncodesImage s) :
    icon.runner (withIcon subject s) = .verdict .pass :=
  congrArg RunnerEnd.verdict (judgeIcon_of_image h)

theorem runner_icon_of_fault (subject : Subject) {s : String} {fault : IconFault}
    (h : fault.Applies s) :
    icon.runner (withIcon subject s) = .verdict (.fail (fault.words ++ subject.addon.id)) :=
  congrArg RunnerEnd.verdict (judgeIcon_of_fault h)

theorem runner_icon_eq_pass_iff {subject : Subject} {s : String} :
    icon.runner (withIcon subject s) = .verdict .pass ↔ EncodesImage s := by
  refine ⟨fun h => ?_, runner_icon_of_image subject⟩
  rcases encodesImage_or_fault s with himage | ⟨fault, hfault⟩
  · exact himage
  · have hfail := runner_icon_of_fault subject hfault
    cases congrArg Verdict.passed (RunnerEnd.verdict.inj (hfail.symm.trans h))

theorem runner_icon_eq_fail_iff {subject : Subject} {s : String} {fault : IconFault} :
    icon.runner (withIcon subject s) = .verdict (.fail (fault.words ++ subject.addon.id)) ↔
      fault.Applies s := by
  refine ⟨fun h => ?_, runner_icon_of_fault subject⟩
  rcases encodesImage_or_fault s with himage | ⟨other, hother⟩
  · have hpass := runner_icon_of_image subject himage
    cases congrArg Verdict.passed (RunnerEnd.verdict.inj (hpass.symm.trans h))
  · have hfail := runner_icon_of_fault subject hother
    have hmessage := congrArg Verdict.message (RunnerEnd.verdict.inj (hfail.symm.trans h))
    exact IconFault.words_injective hmessage ▸ hother

/-! ### Line breaks -/

theorem filter_of_addsBreak {cs ds : List Char} (h : AddsBreak cs ds) :
    (cs.filter fun c => c ≠ '\n' && c ≠ '\r') = ds.filter fun c => c ≠ '\n' && c ≠ '\r' := by
  cases h with
  | @insert before after c hc =>
    have hdropped : ¬(c ≠ '\n' && c ≠ '\r' : Bool) = true := by
      rcases hc with rfl | rfl
      · decide
      · decide
    rw [List.filter_append, List.filter_append,
      List.filter_cons_of_neg (p := fun c => c ≠ '\n' && c ≠ '\r') hdropped]

/-- Line breaks leave the other characters and their order alone. -/
theorem filter_of_rewrapped {cs ds : List Char} (h : Relation.EqvGen AddsBreak cs ds) :
    (cs.filter fun c => c ≠ '\n' && c ≠ '\r') = ds.filter fun c => c ≠ '\n' && c ≠ '\r' := by
  induction h with
  | rel _ _ hstep => exact filter_of_addsBreak hstep
  | refl _ => rfl
  | symm _ _ _ ih => exact ih.symm
  | trans _ _ _ _ _ ih ih' => exact ih.trans ih'

/-- Wrapping a text differently does not change what it stands for. -/
theorem encodes_congr {s t : String} (h : Rewrapped s t) (bytes : List UInt8) :
    Encodes s bytes ↔ Encodes t bytes := by
  rw [Encodes, Encodes, filter_of_rewrapped h]

/-! ### Texts that are refused -/

/-- A group is complete or missing, so one character more is never let pass. -/
theorem not_encodes_of_inserted {s t : String} {before after : List Char} {c : Char}
    (hs : s.toList = before ++ c :: after) (ht : t.toList = before ++ after) (hline : c ≠ '\n')
    (hreturn : c ≠ '\r') {bytes : List UInt8} (h : Encodes t bytes) (others : List UInt8) :
    ¬Encodes s others := by
  intro h'
  have hcount := Base64.four_dvd_length_encode bytes
  have hcount' := Base64.four_dvd_length_encode others
  have hkept : (c ≠ '\n' && c ≠ '\r' : Bool) = true := by simp [hline, hreturn]
  rw [← h, ht, List.filter_append, List.length_append] at hcount
  rw [← h', hs, List.filter_append,
    List.filter_cons_of_pos (p := fun c => c ≠ '\n' && c ≠ '\r') hkept, List.length_append,
    List.length_cons] at hcount'
  omega

theorem digit_in_alphabet :
    ∀ n < 64, (Base64.digit n).isAlphanum = true ∨ Base64.digit n = '+' ∨ Base64.digit n = '/' := by
  decide

/-- Blanks other than line breaks are not tolerated. -/
theorem Encodes.in_alphabet {s : String} {bytes : List UInt8} (h : Encodes s bytes) {c : Char}
    (hc : c ∈ s.toList) (hline : c ≠ '\n') (hreturn : c ≠ '\r') :
    c.isAlphanum = true ∨ c = '+' ∨ c = '/' ∨ c = '=' := by
  have hkept : c ∈ s.toList.filter fun c => c ≠ '\n' && c ≠ '\r' := by
    simp [hc, hline, hreturn]
  rw [h] at hkept
  rcases Base64.exists_digit_of_mem hkept with hpad | ⟨n, hn, rfl⟩
  · exact .inr (.inr (.inr hpad))
  · rcases digit_in_alphabet n hn with halnum | hplus | hslash
    · exact .inl halnum
    · exact .inr (.inl hplus)
    · exact .inr (.inr (.inl hslash))

/-- Line breaks in the text of an icon make no difference, and apart from them it passes exactly if
it is the one text of an image. Otherwise the message tells which of the three faults it has. -/
theorem icon_texts (subject : Subject) (s : String) :
    let passes (text : String) : Prop := icon.runner (withIcon subject text) = .verdict .pass
    let unbroken : List Char := s.toList.filter fun c => c ≠ '\n' && c ≠ '\r'
    (∀ t, Rewrapped s t → (passes s ↔ passes t)) ∧
      (passes s ↔ ∃ bytes, Encodes s bytes ∧ Png.isImage bytes = true) ∧
      (passes s → ∃! bytes, Encodes s bytes) ∧
      (∀ t before after c, passes t → t.toList = before ++ after → s.toList = before ++ c :: after →
        c ≠ '\n' → c ≠ '\r' → ¬passes s) ∧
      (∀ c ∈ s.toList, passes s → c ≠ '\n' → c ≠ '\r' →
        c.isAlphanum = true ∨ c = '+' ∨ c = '/' ∨ c = '=') ∧
      (∀ k bytes, 0 < k → unbroken ++ List.replicate k '=' = Base64.encode bytes → ¬passes s) ∧
      (∀ before a n, n < 64 → n % 16 ≠ 0 →
        unbroken = before ++ [a, Base64.digit n, '=', '='] → ¬passes s) ∧
      (∀ before a b n, n < 64 → n % 4 ≠ 0 →
        unbroken = before ++ [a, b, Base64.digit n, '='] → ¬passes s) ∧
      ∀ fault : IconFault,
        icon.runner (withIcon subject s) = .verdict (.fail (fault.words ++ subject.addon.id)) ↔
          fault.Applies s := by
  simp only [runner_icon_eq_pass_iff, runner_icon_eq_fail_iff]
  refine ⟨?_, Iff.rfl, ?_, ?_, ?_, ?_, ?_, ?_, fun _ => trivial⟩
  · intro t hst
    simp only [EncodesImage, encodes_congr hst]
  · rintro ⟨bytes, hbytes, -⟩
    exact ⟨bytes, hbytes, fun others hothers => hothers.unique hbytes⟩
  · rintro t before after c ⟨bytes, hbytes, -⟩ ht hs hline hreturn ⟨others, hothers, -⟩
    exact not_encodes_of_inserted hs ht hline hreturn hbytes others hothers
  · rintro c hc ⟨bytes, hbytes, -⟩ hline hreturn
    exact hbytes.in_alphabet hc hline hreturn
  · rintro k bytes hk hpadded ⟨others, hothers, -⟩
    exact Base64.encode_ne_of_append_pads hk hpadded others hothers.symm
  · rintro before a n hn hbits htext ⟨bytes, hbytes, -⟩
    exact hbits (Base64.unused_bits_two hn (hbytes.symm.trans htext))
  · rintro before a b n hn hbits htext ⟨bytes, hbytes, -⟩
    exact hbits (Base64.unused_bits_one hn (hbytes.symm.trans htext))

end AddonLint.Rules
