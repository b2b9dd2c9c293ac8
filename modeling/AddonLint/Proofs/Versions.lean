import AddonLint.SemVer
import Mathlib.Data.Prod.Lex

/-!
# The numeric order of versions

Plain versions are compared by their three numbers, major first. The order is
the lexicographic one on triples of natural numbers, so it is linear and a plain
version is determined by its place in it.
-/
namespace AddonLint.SemVer

/-- The three numbers of a version, to be compared from left to right. -/
def numbers (v : SemVer) : ℕ ×ₗ ℕ ×ₗ ℕ :=
  toLex (v.major.toNat, toLex (v.minor.toNat, v.patch.toNat))

/-- Versions are compared number by number, not digit by digit. -/
theorem precedes_iff (v w : SemVer) : v.precedes w = true ↔ v.numbers < w.numbers := by
  simp only [precedes, numbers, Prod.Lex.toLex_lt_toLex]
  have hmajor : v.major = w.major ↔ v.major.toNat = w.major.toNat := UInt64.toNat_inj.symm
  have hminor : v.minor = w.minor ↔ v.minor.toNat = w.minor.toNat := UInt64.toNat_inj.symm
  split
  · rename_i hne
    have hne' : v.major.toNat ≠ w.major.toNat := fun h => hne (hmajor.2 h)
    simp only [decide_eq_true_eq, UInt64.lt_iff_toNat_lt]
    omega
  · rename_i heq
    have heq' := hmajor.1 (not_not.1 heq)
    split
    · rename_i hne
      have hne' : v.minor.toNat ≠ w.minor.toNat := fun h => hne (hminor.2 h)
      simp only [decide_eq_true_eq, UInt64.lt_iff_toNat_lt]
      omega
    · rename_i heqm
      have heqm' := hminor.1 (not_not.1 heqm)
      simp only [decide_eq_true_eq, UInt64.lt_iff_toNat_lt]
      omega

/-- Nothing but its numbers tells a plain version from another one. -/
theorem eq_of_numbers_eq {v w : SemVer} (hv : v.isPlain = true) (hw : w.isPlain = true)
    (h : v.numbers = w.numbers) : v = w := by
  obtain ⟨major, minor, patch, pre, build⟩ := v
  obtain ⟨major', minor', patch', pre', build'⟩ := w
  simp only [numbers, EmbeddingLike.apply_eq_iff_eq, Prod.mk.injEq, UInt64.toNat_inj] at h
  simp only [isPlain, Bool.and_eq_true, String.isEmpty_iff] at hv hw
  obtain ⟨rfl, rfl, rfl⟩ := h
  obtain ⟨rfl, rfl⟩ := hv
  obtain ⟨rfl, rfl⟩ := hw
  rfl

theorem isPlain_of_parsePlain? {s : String} {v : SemVer} (h : parsePlain? s = some v) :
    v.isPlain = true := by
  unfold parsePlain? at h
  split at h
  · split at h
    · rename_i hplain
      cases h
      exact hplain
    · cases h
  · cases h

/-- A member of a list that no other member exceeds. -/
def IsGreatest (versions : List SemVer) (v : SemVer) : Prop :=
  v ∈ versions ∧ ∀ w ∈ versions, w.numbers ≤ v.numbers

theorem greatest?_eq_none_iff {versions : List SemVer} :
    greatest? versions = none ↔ versions = [] := by
  cases versions with
  | nil => simp [greatest?]
  | cons v rest =>
    simp only [greatest?]
    split <;> simp

theorem isGreatest_of_greatest? {versions : List SemVer} {v : SemVer}
    (h : greatest? versions = some v) : IsGreatest versions v := by
  induction versions generalizing v with
  | nil => cases h
  | cons u rest ih =>
    simp only [greatest?] at h
    cases hrest : greatest? rest with
    | none =>
      obtain rfl := greatest?_eq_none_iff.1 hrest
      simp only [hrest, Option.some.injEq] at h
      subst h
      exact ⟨List.mem_cons_self, fun w hw => (List.mem_singleton.1 hw) ▸ le_rfl⟩
    | some w =>
      obtain ⟨hmem, hmax⟩ := ih hrest
      simp only [hrest, Option.some.injEq] at h
      by_cases hlt : w.precedes u = true
      · rw [if_pos hlt] at h
        subst h
        have hle : w.numbers ≤ u.numbers := ((precedes_iff w u).1 hlt).le
        refine ⟨List.mem_cons_self, fun x hx => ?_⟩
        rcases List.mem_cons.1 hx with rfl | hx
        · exact le_rfl
        · exact (hmax x hx).trans hle
      · rw [if_neg hlt] at h
        subst h
        have hle : u.numbers ≤ w.numbers := not_lt.1 fun h => hlt ((precedes_iff w u).2 h)
        refine ⟨List.mem_cons_of_mem u hmem, fun x hx => ?_⟩
        rcases List.mem_cons.1 hx with rfl | hx
        · exact hle
        · exact hmax x hx

/-- Plain versions have at most one greatest member, so a search that finds one finds it. -/
theorem IsGreatest.unique {versions : List SemVer} (hplain : ∀ v ∈ versions, v.isPlain = true)
    {v w : SemVer} (hv : IsGreatest versions v) (hw : IsGreatest versions w) : v = w :=
  eq_of_numbers_eq (hplain v hv.1) (hplain w hw.1) (le_antisymm (hw.2 v hv.1) (hv.2 w hw.1))

end AddonLint.SemVer
