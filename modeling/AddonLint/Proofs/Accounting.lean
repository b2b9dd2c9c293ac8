import AddonLint.Proofs.ByteOrder
import AddonLint.Report.Basic
import Mathlib.Data.List.Basic
import Mathlib.Data.List.Nodup
import Mathlib.Data.List.Perm.Basic

/-!
# What a report says about its entries

A report is made by sorting entries and reading their outcomes off. Each entry
leaves exactly one trace: it counts as passed, or it is listed as a failure, or as
a hard error. Entries with different codes can be told apart in the report.
-/
namespace AddonLint.Report

/-- The failures and hard errors that a report lists under a code. -/
def about (r : Report) (code : String) : List Failure × List HardError :=
  (r.failures.filter (·.code = code), r.hardErrors.filter (·.code = code))

def failureCodes (r : Report) : List String := r.failures.map (·.code)

def hardErrorCodes (r : Report) : List String := r.hardErrors.map (·.code)

/-- The entries in the order of their codes. -/
def inOrder (entries : List Entry) : List Entry :=
  entries.mergeSort fun a b => a.rule.code ≤ b.rule.code

namespace Entry

def code (e : Entry) : String := e.rule.code

theorem failure?_eq_some_iff {e : Entry} {f : Failure} :
    e.failure? = some f ↔ ∃ v, e.outcome = .ok v ∧ v.passed = false ∧
      f = ⟨e.rule.code, e.rule.name, v.message⟩ := by
  unfold failure?
  cases e.outcome with
  | error error => simp
  | ok v => cases hv : v.passed <;> simp [hv, eq_comm (a := f)]

theorem hardError?_eq_some_iff {e : Entry} {h : HardError} :
    e.hardError? = some h ↔ ∃ error, e.outcome = .error error ∧ h = ⟨e.rule.code, error⟩ := by
  unfold hardError?
  cases e.outcome <;> simp [eq_comm (a := h)]

theorem code_of_failure? {e : Entry} {f : Failure} (h : e.failure? = some f) :
    f.code = e.code := by
  obtain ⟨v, -, -, rfl⟩ := failure?_eq_some_iff.1 h
  rfl

theorem code_of_hardError? {e : Entry} {h : HardError} (hh : e.hardError? = some h) :
    h.code = e.code := by
  obtain ⟨error, -, rfl⟩ := hardError?_eq_some_iff.1 hh
  rfl

/-- A rule that passes, fails or reaches no verdict does nothing else. -/
theorem traces (e : Entry) :
    (if e.isPass = true then 1 else 0) + e.failure?.toList.length + e.hardError?.toList.length
      = 1 := by
  unfold isPass failure? hardError?
  cases e.outcome with
  | error error => simp
  | ok v => cases hv : v.passed <;> simp [hv]

end Entry

theorem inOrder_perm (entries : List Entry) : (inOrder entries).Perm entries :=
  List.mergeSort_perm ..

theorem mem_inOrder {entries : List Entry} {e : Entry} : e ∈ inOrder entries ↔ e ∈ entries :=
  (inOrder_perm entries).mem_iff

/-- Distinct codes come out in strictly increasing order. -/
theorem pairwise_inOrder {entries : List Entry} (h : (entries.map Entry.code).Nodup) :
    (inOrder entries).Pairwise fun a b => a.code < b.code :=
  Text.pairwise_mergeSort_lt Entry.code h

/-! ### Counting -/

theorem filterMap_cons_eq_append {β : Type} (g : Entry → Option β) (e : Entry)
    (rest : List Entry) : (e :: rest).filterMap g = (g e).toList ++ rest.filterMap g := by
  simp only [List.filterMap_eq_flatMap_toList, List.flatMap_cons]

/-- Every entry is counted once: as a pass, as a failure or as a hard error. -/
theorem length_eq_traces (entries : List Entry) :
    entries.countP Entry.isPass + (entries.filterMap Entry.failure?).length +
      (entries.filterMap Entry.hardError?).length = entries.length := by
  induction entries with
  | nil => rfl
  | cons e rest ih =>
    have htrace := e.traces
    rw [List.countP_cons, filterMap_cons_eq_append, filterMap_cons_eq_append, List.length_append,
      List.length_append, List.length_cons]
    omega

theorem executed_ofEntries (entries : List Entry) :
    (ofEntries entries).executed = entries.length := (inOrder_perm entries).length_eq

/-- Passes, failures and hard errors add up to the rules that ran. -/
theorem executed_eq_sum (entries : List Entry) :
    (ofEntries entries).passed + (ofEntries entries).failures.length +
      (ofEntries entries).hardErrors.length = (ofEntries entries).executed :=
  length_eq_traces (inOrder entries)

theorem isSuccess_iff (entries : List Entry) :
    (ofEntries entries).isSuccess = true ↔
      (ofEntries entries).passed = (ofEntries entries).executed := by
  have hsum := executed_eq_sum entries
  simp only [isSuccess, Bool.and_eq_true, List.isEmpty_iff, ← List.length_eq_zero_iff]
  omega

/-! ### Membership and order -/

theorem mem_failures_ofEntries {entries : List Entry} {f : Failure} :
    f ∈ (ofEntries entries).failures ↔ ∃ e ∈ entries, e.failure? = some f := by
  change f ∈ (inOrder entries).filterMap Entry.failure? ↔ _
  simp only [List.mem_filterMap, mem_inOrder]

theorem mem_hardErrors_ofEntries {entries : List Entry} {h : HardError} :
    h ∈ (ofEntries entries).hardErrors ↔ ∃ e ∈ entries, e.hardError? = some h := by
  change h ∈ (inOrder entries).filterMap Entry.hardError? ↔ _
  simp only [List.mem_filterMap, mem_inOrder]

theorem pairwise_failureCodes {entries : List Entry} (h : (entries.map Entry.code).Nodup) :
    (ofEntries entries).failureCodes.Pairwise (· < ·) := by
  change (((inOrder entries).filterMap Entry.failure?).map (·.code)).Pairwise (· < ·)
  refine List.pairwise_map.2 ((pairwise_inOrder h).filterMap _ ?_)
  intro a b hab f hf g hg
  rwa [Entry.code_of_failure? hf, Entry.code_of_failure? hg]

theorem pairwise_hardErrorCodes {entries : List Entry} (h : (entries.map Entry.code).Nodup) :
    (ofEntries entries).hardErrorCodes.Pairwise (· < ·) := by
  change (((inOrder entries).filterMap Entry.hardError?).map (·.code)).Pairwise (· < ·)
  refine List.pairwise_map.2 ((pairwise_inOrder h).filterMap _ ?_)
  intro a b hab f hf g hg
  rwa [Entry.code_of_hardError? hf, Entry.code_of_hardError? hg]

/-! ### One entry among others -/

/-- With distinct codes, the code of an entry singles it out. -/
theorem filter_code_eq {entries : List Entry} (h : (entries.map Entry.code).Nodup) {e : Entry}
    (he : e ∈ entries) : entries.filter (fun x => x.code = e.code) = [e] := by
  induction entries with
  | nil => cases he
  | cons x rest ih =>
    obtain ⟨hx, hrest⟩ := List.nodup_cons.1 h
    rcases List.mem_cons.1 he with rfl | he
    · have hnil : rest.filter (fun y => y.code = e.code) = [] := by
        refine List.filter_eq_nil_iff.2 fun y hy hcode => hx ?_
        exact (of_decide_eq_true hcode) ▸ List.mem_map_of_mem hy
      rw [List.filter_cons_of_pos (by simp), hnil]
    · have hne : x.code ≠ e.code := fun hcode => hx (hcode ▸ List.mem_map_of_mem he)
      rw [List.filter_cons_of_neg (by simp [hne]), ih hrest he]

/-- Items that carry the code of their entry can be selected through the entries. -/
theorem filter_filterMap_code {β : Type} {g : Entry → Option β} {code : β → String}
    (hg : ∀ {e b}, g e = some b → code b = e.code) (entries : List Entry) (p : String → Bool) :
    (entries.filterMap g).filter (fun b => p (code b)) =
      (entries.filter fun e => p e.code).filterMap g := by
  rw [List.filter_filterMap, List.filterMap_filter]
  congr 1
  funext e
  cases he : g e with
  | none => simp
  | some b => cases hp : p e.code <;> simp [hg he, hp]

/-- What is said about a code is said by the entries of that code. -/
theorem about_of_filter_code {entries matching : List Entry} {code : String}
    (h : (inOrder entries).filter (fun e => e.code = code) = matching) :
    (ofEntries entries).about code =
      (matching.filterMap Entry.failure?, matching.filterMap Entry.hardError?) := by
  have hf := filter_filterMap_code (g := Entry.failure?) Entry.code_of_failure?
    (inOrder entries) fun c => c = code
  have hh := filter_filterMap_code (g := Entry.hardError?) Entry.code_of_hardError?
    (inOrder entries) fun c => c = code
  rw [h] at hf hh
  exact Prod.ext hf hh

/-- When codes are not shared, an entry alone decides what is said about its code. -/
theorem about_ofEntries {entries : List Entry} (h : (entries.map Entry.code).Nodup) {e : Entry}
    (he : e ∈ entries) :
    (ofEntries entries).about e.code = (e.failure?.toList, e.hardError?.toList) := by
  have hnodup : ((inOrder entries).map Entry.code).Nodup :=
    ((inOrder_perm entries).map Entry.code).nodup_iff.2 h
  rw [about_of_filter_code (filter_code_eq hnodup (mem_inOrder.2 he))]
  cases hf : e.failure? <;> cases hh : e.hardError? <;> simp [hf, hh]

/-- A report says nothing about the codes of other rules. -/
theorem about_of_not_mem {entries : List Entry} {code : String}
    (h : code ∉ entries.map Entry.code) : (ofEntries entries).about code = ([], []) := by
  refine about_of_filter_code (List.filter_eq_nil_iff.2 fun e he hcode => h ?_)
  exact (of_decide_eq_true hcode) ▸ List.mem_map_of_mem (mem_inOrder.1 he)

end AddonLint.Report
