import AddonLint.Run

/-!
# Crews

A run that shares its rules starts a worker for each share before it waits for the first of them,
and then takes what they bring back in their order. Starting and waiting are left to a crew and may
have effects, which happen when they are asked for and not otherwise.
-/
namespace AddonLint.Run

open Report (Entry)

/-- How workers are started and waited for. A worker that has died brings nothing back. -/
structure Crew (m : Type → Type) (Worker : Type) where
  start : (share : List Rule) → m Worker
  await : Worker → m (Option (List Entry))

/-- Consecutive pieces of a list. There are none of size zero. -/
def chunks? {α : Type} (size : Nat) (items : List α) : Option (List (List α)) :=
  if size = 0 then none else some (chunks size items)

/-- The entries of a share, whatever its worker brings back. -/
def entriesOf (share : List Rule) (brought : Option (List Entry)) : List Entry :=
  brought.getD (share.map fun rule => ⟨rule, lost⟩)

namespace Crew

variable {m : Type → Type} [Monad m] {Worker : Type} (crew : Crew m Worker)

def launch (share : List Rule) : m (List Rule × Worker) := do
  return (share, ← crew.start share)

def finish (worker : List Rule × Worker) : m (List Entry) := do
  return entriesOf worker.1 (← crew.await worker.2)

/-- The entries of all shares, with one worker for each. -/
def shareOut (shares : List (List Rule)) : m (List Entry) := do
  let workers ← shares.mapM crew.launch
  let entries ← workers.mapM crew.finish
  return entries.flatten

end Crew

/-- Run the selected rules on a subject, with a crew. There is no report if the rules are to be
shared in pieces of size zero. -/
def reportM {m : Type → Type} [Monad m] {Worker : Type} (crew : Crew m Worker) (jobs : Nat)
    (filter : Filter) (registry : Registry) (subject : Subject) : m (Option Report) := do
  let rules := filter.select registry
  let jobs := effectiveJobs jobs
  if jobs = 1 ∨ rules.length < 2 then
    return some (.ofEntries (rules.map (Entry.ofRule subject)))
  else
    match chunks? (chunkSize rules.length jobs) rules with
    | none => return none
    | some shares => return some (.ofEntries (← crew.shareOut shares))

/-- A crew that writes down the shares it starts workers for. The workers judge by the subject, and
those at the positions given by `dead` die. -/
def recorder (dead : Nat → Bool) (subject : Subject) :
    Crew (StateM (List (List Rule))) (List Rule × Nat) where
  start share := do
    let started ← get
    set (started ++ [share])
    return (share, started.length)
  await worker :=
    return if dead worker.2 then none else some (worker.1.map (Entry.ofRule subject))

/-- What a run comes to, and the shares that it starts workers for. -/
def recorded (dead : Nat → Bool) (jobs : Nat) (filter : Filter) (registry : Registry)
    (subject : Subject) : Option Report × List (List Rule) :=
  (reportM (recorder dead subject) jobs filter registry subject).run []

end AddonLint.Run
