import AddonLint.Proofs.Runs
import AddonLint.Run.Crew

/-!
# How many workers a run starts

A run asks nothing of its crew if there is one worker only or less than two rules.
Otherwise it starts one worker for each chunk of the rules, and no more than it may: as
the size of the chunks is the number of rules divided by the number of workers and
rounded up, the number of chunks, rounded up again, does not exceed the number of workers.
-/
namespace AddonLint.Run

open Report (Entry)

/-! ### Runs with any crew -/

section Crews

variable {m : Type → Type} [Monad m] {Worker : Type} (crew : Crew m Worker) {jobs : Nat}
  {filter : Filter} {registry : Registry} {subject : Subject}

/-- A run by a single worker, or of a single rule, asks nothing of its crew. -/
theorem reportM_of_alone (h : (filter.select registry).length < 2 ∨ jobs ≤ 1) :
    reportM crew jobs filter registry subject =
      pure (some (.ofEntries ((filter.select registry).map (Entry.ofRule subject)))) := by
  unfold reportM effectiveJobs
  dsimp only
  rw [if_pos (by omega)]

/-- Otherwise the chunks are shared out, and their size is not zero. -/
theorem reportM_of_shared (hr : 2 ≤ (filter.select registry).length) (hj : 2 ≤ jobs) :
    reportM crew jobs filter registry subject = do
      let rules := filter.select registry
      let entries ← crew.shareOut (chunks (chunkSize rules.length jobs) rules)
      return some (.ofEntries entries) := by
  have hjobs : effectiveJobs jobs = jobs := Nat.max_eq_left (by omega)
  have hs := chunkSize_length_pos hr hj
  unfold reportM
  dsimp only
  rw [hjobs, if_neg (by omega), chunks?, if_neg (by omega)]

end Crews

/-! ### The record of a crew -/

section Record

variable (dead : Nat → Bool) (subject : Subject)

theorem run_launch (share : List Rule) (started : List (List Rule)) :
    ((recorder dead subject).launch share).run started =
      pure ((share, share, started.length), started ++ [share]) := rfl

/-- Workers are started in the order of their shares and numbered on. -/
theorem run_mapM_launch (shares started : List (List Rule)) :
    (shares.mapM (recorder dead subject).launch).run started =
      pure ((shares.zipIdx started.length).map fun p => (p.1, p), started ++ shares) := by
  induction shares generalizing started with
  | nil =>
    rw [List.append_nil]
    rfl
  | cons share rest ih =>
    have hrest := ih (started ++ [share])
    rw [List.length_append, List.length_singleton, List.append_assoc] at hrest
    simp only [List.mapM_cons, StateT.run_bind, run_launch, pure_bind, hrest]
    rfl

theorem finish_recorder (share : List Rule) (worker : Nat) :
    (recorder dead subject).finish (share, share, worker) =
      pure (collect subject (dead worker) share) := by
  unfold collect
  cases hdead : dead worker <;> simp [Crew.finish, recorder, entriesOf, hdead]

/-- One worker is started for each share, in the order of the shares. -/
theorem run_shareOut (shares : List (List Rule)) :
    ((recorder dead subject).shareOut shares).run [] =
      pure (shares.zipIdx.flatMap fun p => collect subject (dead p.2) p.1, shares) := by
  have hfinish : ((recorder dead subject).finish ∘ fun p : List Rule × Nat => (p.1, p)) =
      fun p => pure (collect subject (dead p.2) p.1) :=
    funext fun p => finish_recorder dead subject p.1 p.2
  simp only [Crew.shareOut, StateT.run_bind, run_mapM_launch, pure_bind, List.mapM_map, hfinish,
    List.mapM_pure]
  rfl

end Record

section Recorded

variable {dead : Nat → Bool} {jobs : Nat} {filter : Filter} {registry : Registry}
  {subject : Subject}

/-- With fewer than two rules or workers, none is started. -/
theorem recorded_of_alone (h : (filter.select registry).length < 2 ∨ jobs ≤ 1) :
    recorded dead jobs filter registry subject =
      (some (reportWithDeaths dead jobs filter registry subject), []) := by
  rw [recorded, reportM_of_alone _ h, reportWithDeaths_of_alone h]
  rfl

/-- The recorded run is the run that has no crew, and starts a worker for each chunk. -/
theorem recorded_of_shared (hr : 2 ≤ (filter.select registry).length) (hj : 2 ≤ jobs) :
    recorded dead jobs filter registry subject =
      (some (reportWithDeaths dead jobs filter registry subject),
        chunks (chunkSize (filter.select registry).length jobs) (filter.select registry)) := by
  rw [recorded, reportM_of_shared _ hr hj, reportWithDeaths_of_fanOut hj hr]
  simp only [StateT.run_bind, run_shareOut, pure_bind]
  rfl

end Recorded

/-- A run always comes to a report, since it never cuts the rules into chunks of size zero. With two
rules and two workers or more, the size of the chunks is the number of rules divided by the number
of workers and rounded up, and one worker is started for each of them: at least one and never more
than there are rules or were asked for. With less, no worker is started. -/
theorem report_crew (dead : Nat → Bool) (jobs : Nat) (filter : Filter) (registry : Registry)
    (subject : Subject) :
    let rules := filter.select registry
    let size := chunkSize rules.length jobs
    let outcome := (recorded dead jobs filter registry subject).1
    let shares := (recorded dead jobs filter registry subject).2
    outcome = some (reportWithDeaths dead jobs filter registry subject) ∧
    (2 ≤ rules.length ∧ 2 ≤ jobs →
      (∀ s, size ≤ s ↔ rules.length ≤ s * jobs) ∧ 1 ≤ size ∧ size ≤ rules.length ∧
      shares = chunks size rules ∧ (∀ share ∈ shares, share ≠ []) ∧ shares.flatten = rules ∧
      1 ≤ shares.length ∧ shares.length ≤ min rules.length jobs) ∧
    (rules.length < 2 ∨ jobs = 0 ∨ jobs = 1 → shares = []) := by
  intro rules size outcome shares
  by_cases h : 2 ≤ rules.length ∧ 2 ≤ jobs
  · obtain ⟨hr, hj⟩ := h
    have hrecorded : (outcome, shares) =
        (some (reportWithDeaths dead jobs filter registry subject), chunks size rules) :=
      recorded_of_shared hr hj
    obtain ⟨houtcome, hshares⟩ := Prod.mk.inj hrecorded
    have hne : rules ≠ [] := List.length_pos_iff.1 (by omega)
    have hceil : ∀ s, size ≤ s ↔ rules.length ≤ s * jobs := fun s => chunkSize_le_iff (by omega)
    have hs : 1 ≤ size := chunkSize_length_pos hr hj
    have hsize : size ≤ rules.length := (hceil _).2 (Nat.le_mul_of_pos_right _ (by omega))
    refine ⟨houtcome, fun _ => ⟨hceil, hs, hsize, hshares, ?_, ?_, ?_, ?_⟩, fun hless => ?_⟩
    · rw [hshares]
      exact fun share => ne_nil_of_mem_chunks
    · rw [hshares, flatten_chunks hs]
    · rw [hshares]
      exact List.length_pos_iff.2 (chunks_ne_nil hs hne)
    · rw [hshares]
      exact Nat.le_min.2 ⟨length_chunks_le_length hs rules, length_chunks_le_jobs (by omega) hne⟩
    · omega
  · have hless : rules.length < 2 ∨ jobs ≤ 1 := by omega
    have hrecorded : (outcome, shares) =
        (some (reportWithDeaths dead jobs filter registry subject), []) := recorded_of_alone hless
    obtain ⟨houtcome, hshares⟩ := Prod.mk.inj hrecorded
    exact ⟨houtcome, fun hmany => absurd hmany h, fun _ => hshares⟩

/-- As many workers as a machine can count, and none at all. -/
theorem report_crew_largest :
    let registry := Registry.ofOffers Rules.builtin
    let rules := Filter.all.select registry
    let shares := fun jobs =>
      (recorded (fun _ => false) jobs .all registry (.ofNames "a" "a" "i")).2
    2 ≤ rules.length ∧ 2 ≤ UInt64.size - 1 ∧ (shares (UInt64.size - 1)).flatten = rules ∧
      1 ≤ (shares (UInt64.size - 1)).length ∧ (shares (UInt64.size - 1)).length ≤ rules.length ∧
      shares 0 = [] := by
  intro registry rules shares
  have hr : 2 ≤ rules.length := by decide +kernel
  have hj : 2 ≤ UInt64.size - 1 := by decide
  obtain ⟨-, hshared, -⟩ :=
    report_crew (fun _ => false) (UInt64.size - 1) .all registry (.ofNames "a" "a" "i")
  obtain ⟨-, -, -, -, -, hflatten, hpos, hle⟩ := hshared ⟨hr, hj⟩
  obtain ⟨-, -, hnone⟩ := report_crew (fun _ => false) 0 .all registry (.ofNames "a" "a" "i")
  exact ⟨hr, hj, hflatten, hpos, Nat.le_trans hle (Nat.min_le_left ..), hnone (.inr (.inl rfl))⟩

end AddonLint.Run
