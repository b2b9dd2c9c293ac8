import AddonLint.Extraction.Deadline

/-!
# Calls with a deadline tell the truth

Whatever happens to the calls, and in whatever order, a call comes to the answer to its own
question or to one of the two errors of the deadline. So bundles that come out of a call are
those that the other extractor has for its image and operator.
-/
namespace AddonLint.Deadline

variable {inner : Extractor} {deadline : Duration}

/-- A signal that a call may hear: the answer to its question, or that there is none. -/
def Call.MayHear (inner : Extractor) (c : Call) : Signal → Prop
  | .answer extracted => extracted = inner c.image c.operator
  | .gone => True
  | .elapsed => True

/-- A call that is undecided, or was decided by a signal that it may hear. -/
def Call.Honest (inner : Extractor) (deadline : Duration) (c : Call) : Prop :=
  ∀ result ∈ c.result, ∃ signal, c.MayHear inner signal ∧ result = settle c.image deadline signal

/-- A signal that a call may hear keeps it honest, also a late one. -/
theorem Call.Honest.hear {c : Call} (h : c.Honest inner deadline) (signal : Signal)
    (hsignal : c.MayHear inner signal) : (c.hear deadline signal).Honest inner deadline := by
  unfold Call.hear
  split
  · exact h
  · rintro result ⟨⟩
    exact ⟨signal, hsignal, rfl⟩

theorem Call.Honest.finish {c : Call} (h : c.Honest inner deadline) (signal : Signal)
    (hsignal : c.MayHear inner signal) : (c.finish deadline signal).Honest inner deadline := by
  unfold Call.finish
  split
  · have hidle : Call.Honest inner deadline { c with working := false } := h
    exact hidle.hear signal hsignal
  · exact h

theorem honest_modify {calls : List Call} (h : ∀ c ∈ calls, c.Honest inner deadline)
    {change : Call → Call}
    (hchange : ∀ c, c.Honest inner deadline → (change c).Honest inner deadline) (n : Nat) :
    ∀ c ∈ calls.modify n change, c.Honest inner deadline := by
  intro c hc
  obtain ⟨i, hi⟩ := List.mem_iff_getElem?.1 hc
  rw [List.getElem?_modify] at hi
  obtain ⟨before, hbefore, rfl⟩ := Option.map_eq_some_iff.1 hi
  have hhonest := h before (List.mem_of_getElem? hbefore)
  split
  · exact hchange before hhonest
  · exact hhonest

/-- An event leaves every call honest. -/
theorem honest_step {calls : List Call} (h : ∀ c ∈ calls, c.Honest inner deadline)
    (event : Event) : ∀ c ∈ step inner deadline calls event, c.Honest inner deadline := by
  cases event with
  | start image operator =>
    intro c hc
    rcases List.mem_append.1 hc with hc | hc
    · exact h c hc
    · obtain rfl := List.mem_singleton.1 hc
      exact nofun
  | answer n =>
    exact honest_modify h (fun c hc => hc.finish (.answer (inner c.image c.operator)) rfl) n
  | die n => exact honest_modify h (fun c hc => hc.finish .gone trivial) n
  | elapse n => exact honest_modify h (fun c hc => hc.hear .elapsed trivial) n

/-- No events make up an answer that the other extractor did not give. -/
theorem honest_foldl (events : List Event) {calls : List Call}
    (h : ∀ c ∈ calls, c.Honest inner deadline) :
    ∀ c ∈ events.foldl (step inner deadline) calls, c.Honest inner deadline := by
  induction events generalizing calls with
  | nil => exact h
  | cons event rest ih => exact ih (honest_step h event)

/-- All calls of a run are honest. -/
theorem honest_run (events : List Event) :
    ∀ c ∈ run inner deadline events, c.Honest inner deadline := honest_foldl events nofun

/-- Bundles can only come from the other extractor. -/
theorem Call.Honest.bundles {c : Call} (h : c.Honest inner deadline) {bundles : List Bundle}
    (hc : c.result = some (.ok bundles)) : inner c.image c.operator = .ok bundles := by
  obtain ⟨signal, hsignal, hresult⟩ := h _ hc
  cases signal with
  | answer extracted =>
    rw [hresult]
    exact hsignal.symm
  | gone => cases hresult
  | elapsed => cases hresult

/-- An extractor that answers as calls with a deadline do. For each question there may have been
other calls before and besides it, and anything may have happened to them. -/
def Bounds (inner : Extractor) (deadline : Duration) (outer : Extractor) : Prop :=
  ∀ image operator, ∃ events, ∃ c ∈ run inner deadline events,
    c.image = image ∧ c.operator = operator ∧ c.result = some (outer image operator)

theorem Bounds.bundles {outer : Extractor} (h : Bounds inner deadline outer)
    {image operator : String} {bundles : List Bundle} (hbundles : outer image operator = .ok bundles) :
    inner image operator = .ok bundles := by
  obtain ⟨events, c, hc, rfl, rfl, hresult⟩ := h image operator
  rw [hbundles] at hresult
  exact (honest_run events c hc).bundles hresult

theorem bounds_inTime (inner : Extractor) (deadline : Duration) :
    Bounds inner deadline (inTime inner deadline) := by
  intro image operator
  refine ⟨[.start image operator, .answer 0], _, List.mem_singleton_self _, rfl, rfl, rfl⟩

end AddonLint.Deadline
