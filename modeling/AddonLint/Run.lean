import AddonLint.Report.Basic
import AddonLint.Rule.Filter

/-!
# Runs

A run applies every selected rule to the subject. Several workers may share the rules: each takes
one chunk of them, and the chunks are joined in order, so the number of workers does not show in
the report. The rules of a worker that dies are reported as rules without a verdict.
-/
namespace AddonLint.Run

open Report (Entry)

/-- Consecutive pieces of a list, each of `size` items but for a shorter last one. -/
def chunks {α : Type} (size : Nat) (items : List α) : List (List α) :=
  if size = 0 ∨ items = [] then []
  else items.take size :: chunks size (items.drop size)
termination_by items.length
decreasing_by
  rename_i h
  have : items.length ≠ 0 := fun h0 => h (Or.inr (List.length_eq_zero_iff.1 h0))
  simp only [List.length_drop]
  omega

/-- The size of the chunks when `count` rules are shared by at most `jobs` workers. -/
def chunkSize (count jobs : Nat) : Nat := (count + jobs - 1) / jobs

/-- The outcome of a rule whose worker died. -/
def lost : Outcome := .error (.crashed "rule worker thread died")

/-- What a worker brings back for its chunk. -/
def collect (subject : Subject) (dead : Bool) (chunk : List Rule) : List Entry :=
  if dead then chunk.map fun rule => ⟨rule, lost⟩ else chunk.map (Entry.ofRule subject)

/-- Share the rules among at most `jobs` workers. The workers at the positions given by `dead` do
not bring anything back. -/
def fanOut (dead : Nat → Bool) (subject : Subject) (jobs : Nat) (rules : List Rule) : List Entry :=
  (chunks (chunkSize rules.length jobs) rules).zipIdx.flatMap fun (chunk, worker) =>
    collect subject (dead worker) chunk

/-- The number of workers that a configured number stands for; there is always one. -/
def effectiveJobs (jobs : Nat) : Nat := max jobs 1

/-- Run the selected rules on a subject, some of the workers dying. -/
def reportWithDeaths (dead : Nat → Bool) (jobs : Nat) (filter : Filter) (registry : Registry)
    (subject : Subject) : Report :=
  let rules := filter.select registry
  let jobs := effectiveJobs jobs
  if jobs = 1 ∨ rules.length < 2 then .ofEntries (rules.map (Entry.ofRule subject))
  else .ofEntries (fanOut dead subject jobs rules)

/-- Run the selected rules on a subject. -/
def report (jobs : Nat) (filter : Filter) (registry : Registry) (subject : Subject) : Report :=
  reportWithDeaths (fun _ => false) jobs filter registry subject

end AddonLint.Run
