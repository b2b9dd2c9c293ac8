import AddonLint.Run
import Mathlib.Data.List.Basic

/-!
# Sharing rules among workers

A list cut into chunks of a positive size is put together again by joining the
chunks. The size chosen for any number of workers is positive, so sharing neither
loses nor repeats a rule, and every chunk has a rule in it. It is the least size with
which the workers suffice, so there are no more chunks than workers.
-/
namespace AddonLint.Run

variable {α : Type}

/-- Pieces of at least one item make up the list. -/
theorem flatten_chunks {size : Nat} (hs : 0 < size) (items : List α) :
    (chunks size items).flatten = items := by
  fun_induction chunks size items with
  | case1 items h =>
    obtain rfl := h.resolve_left (Nat.ne_of_gt hs)
    rfl
  | case2 items h ih => rw [List.flatten_cons, ih, List.take_append_drop]

theorem chunkSize_pos {count jobs : Nat} (hc : 0 < count) (hj : 0 < jobs) :
    0 < chunkSize count jobs := by
  unfold chunkSize
  exact Nat.div_pos (by omega) hj

/-- The size of the chunks is the least with which the workers suffice. -/
theorem chunkSize_le_iff {count jobs size : Nat} (hj : 0 < jobs) :
    chunkSize count jobs ≤ size ↔ count ≤ size * jobs := by
  unfold chunkSize
  rw [Nat.div_le_iff_le_mul hj]
  omega

/-- Some number of chunks is enough if it is for the items. -/
theorem length_chunks_le_iff {size : Nat} (hs : 0 < size) (items : List α) (n : Nat) :
    (chunks size items).length ≤ n ↔ items.length ≤ n * size := by
  fun_induction chunks size items generalizing n with
  | case1 items h =>
    obtain rfl := h.resolve_left (Nat.ne_of_gt hs)
    simp
  | case2 items h ih =>
    have hpos : 0 < items.length := List.length_pos_iff.2 fun hnil => h (.inr hnil)
    rw [List.length_cons]
    cases n with
    | zero => omega
    | succ n =>
      rw [Nat.succ_le_succ_iff, ih, List.length_drop, Nat.succ_mul]
      omega

theorem ne_nil_of_mem_chunks {size : Nat} {items chunk : List α}
    (h : chunk ∈ chunks size items) : chunk ≠ [] := by
  fun_induction chunks size items with
  | case1 => cases h
  | case2 items hne ih =>
    rcases List.mem_cons.1 h with rfl | h
    · obtain ⟨hs, hitems⟩ := not_or.1 hne
      exact fun hnil => (List.take_eq_nil_iff.1 hnil).elim hs hitems
    · exact ih h

/-- Twice divided and rounded up: there are no more chunks than workers. -/
theorem length_chunks_le_jobs {jobs : Nat} (hj : 0 < jobs) {items : List α} (hne : items ≠ []) :
    (chunks (chunkSize items.length jobs) items).length ≤ jobs := by
  have hs : 0 < chunkSize items.length jobs := chunkSize_pos (List.length_pos_iff.2 hne) hj
  rw [length_chunks_le_iff hs, Nat.mul_comm]
  exact (chunkSize_le_iff hj).1 (Nat.le_refl _)

theorem length_chunks_le_length {size : Nat} (hs : 0 < size) (items : List α) :
    (chunks size items).length ≤ items.length := by
  rw [length_chunks_le_iff hs]
  exact Nat.le_mul_of_pos_right _ hs

theorem chunks_ne_nil {size : Nat} (hs : 0 < size) {items : List α} (hne : items ≠ []) :
    chunks size items ≠ [] := by
  intro hnil
  have hflat := flatten_chunks hs items
  rw [hnil] at hflat
  exact hne hflat.symm

/-- A configured number of zero stands for one worker. -/
theorem effectiveJobs_pos (jobs : Nat) : 0 < effectiveJobs jobs := by
  unfold effectiveJobs
  omega

end AddonLint.Run
