import AddonLint.Proofs.Returns

/-!
# Late answers

Calls under way together return what each of them would return alone, and an answer that comes
too late is not returned by any of them. The same holds of calls without channels, which hear of
their workers at once: both return the same.
-/
namespace AddonLint.Deadline

variable {deadline : Duration}

/-! ### Calls without channels -/

/-- What a move is to the calls alone. To look into a channel is nothing to them. -/
def Move.event? : Move → Option Event
  | .start image operator => some (.start image operator)
  | .send n => some (.answer n)
  | .exit n => some (.die n)
  | .look _ => none
  | .expire n => some (.elapse n)

namespace Call

variable {extractor : Extractor} {call : Nat} {c : Call}

/-- What a move makes of a call with a number. -/
def after (extractor : Extractor) (deadline : Duration) (call : Nat) (c : Call) : Move → Call
  | .start _ _ => c
  | .send n =>
    if n = call then c.finish deadline (.answer (extractor c.image c.operator)) else c
  | .exit n => if n = call then c.finish deadline .gone else c
  | .look _ => c
  | .expire n => if n = call then c.hear deadline .elapsed else c

theorem after_of_not_decides {move : Move} (h : move.decides call = false) :
    c.after extractor deadline call move = c := by
  cases move with
  | start _ _ => rfl
  | send n => exact if_neg (of_decide_eq_false h)
  | exit n => exact if_neg (of_decide_eq_false h)
  | look _ => rfl
  | expire n => exact if_neg (of_decide_eq_false h)

theorem result_hear {signal : Signal} {result : Extracted} (h : c.result = some result) :
    (c.hear deadline signal).result = some result := by
  unfold Call.hear
  rw [h]
  exact h

theorem result_finish {signal : Signal} {result : Extracted} (h : c.result = some result) :
    (c.finish deadline signal).result = some result := by
  unfold Call.finish
  split_ifs
  · exact result_hear h
  · exact h

/-- What a call came to is final: no later move changes it. -/
theorem result_after {result : Extracted} (h : c.result = some result) (move : Move) :
    (c.after extractor deadline call move).result = some result := by
  have hif {p : Prop} [Decidable p] {other : Call} (hother : other.result = some result) :
      (if p then other else c).result = some result := by
    split_ifs
    · exact hother
    · exact h
  cases move with
  | start _ _ => exact h
  | send n => exact hif (result_finish h)
  | exit n => exact hif (result_finish h)
  | look _ => exact h
  | expire n => exact hif (result_hear h)

theorem foldl_after_of_not_decides {moves : List Move}
    (h : ∀ move ∈ moves, move.decides call = false) :
    moves.foldl (Call.after extractor deadline call) c = c := by
  induction moves with
  | nil => rfl
  | cons move rest ih =>
    obtain ⟨hmove, hrest⟩ := List.forall_mem_cons.mp h
    rw [List.foldl_cons, after_of_not_decides hmove, ih hrest]

theorem result_foldl_after {result : Extracted} (h : c.result = some result) (moves : List Move) :
    (moves.foldl (Call.after extractor deadline call) c).result = some result := by
  induction moves generalizing c with
  | nil => exact h
  | cons move rest ih => exact ih (result_after h move)

end Call

section Calls

variable {extractor : Extractor}

def stepCalls (extractor : Extractor) (deadline : Duration) (calls : List Call) (move : Move) :
    List Call :=
  match move.event? with
  | some event => step extractor deadline calls event
  | none => calls

/-- Looking into a channel aside, the moves are the events of the calls. -/
theorem foldl_events (calls : List Call) (moves : List Move) :
    (moves.filterMap Move.event?).foldl (step extractor deadline) calls =
      moves.foldl (stepCalls extractor deadline) calls := by
  induction moves generalizing calls with
  | nil => rfl
  | cons move rest ih => cases move <;> exact ih _

theorem length_stepCalls (calls : List Call) (move : Move) :
    (stepCalls extractor deadline calls move).length = calls.length + starts [move] := by
  cases move with
  | start image operator => exact List.length_append
  | send n => exact List.length_modify _ _ _
  | exit n => exact List.length_modify _ _ _
  | look n => rfl
  | expire n => exact List.length_modify _ _ _

theorem length_foldl_stepCalls (calls : List Call) (moves : List Move) :
    (moves.foldl (stepCalls extractor deadline) calls).length = calls.length + starts moves := by
  induction moves generalizing calls with
  | nil => rfl
  | cons move rest ih =>
    rw [List.foldl_cons, ih, length_stepCalls, starts_cons move rest, Nat.add_assoc]

theorem getElem?_stepCalls {calls : List Call} {call : Nat} {c : Call} (h : calls[call]? = some c)
    (move : Move) :
    (stepCalls extractor deadline calls move)[call]? =
      some (c.after extractor deadline call move) := by
  have hmodify (n : Nat) (change : Call → Call) :
      (calls.modify n change)[call]? = some (if n = call then change c else c) := by
    rw [List.getElem?_modify, h]
    rfl
  cases move with
  | start image operator =>
    exact (List.getElem?_append_left (List.getElem?_eq_some_iff.mp h).1).trans h
  | send n => exact hmodify n _
  | exit n => exact hmodify n _
  | look n => exact h
  | expire n => exact hmodify n _

/-- A call depends on the moves, but not on the other calls. -/
theorem getElem?_foldl_stepCalls {calls : List Call} {call : Nat} {c : Call}
    (h : calls[call]? = some c) (moves : List Move) :
    (moves.foldl (stepCalls extractor deadline) calls)[call]? =
      some (moves.foldl (Call.after extractor deadline call) c) := by
  induction moves generalizing calls c with
  | nil => exact h
  | cons move rest ih => exact ih (getElem?_stepCalls h move)

/-- A call without a channel is what its own moves after its start make of it. -/
theorem getElem?_run_events (before after : List Move) (image operator : String) :
    (run extractor deadline
        ((before ++ .start image operator :: after).filterMap Move.event?))[starts before]? =
      some (after.foldl (Call.after extractor deadline (starts before))
        ⟨image, operator, true, none⟩) := by
  rw [run, foldl_events, List.foldl_append, List.foldl_cons]
  refine getElem?_foldl_stepCalls ?_ after
  have hlength : (before.foldl (stepCalls extractor deadline) []).length = starts before :=
    (length_foldl_stepCalls [] before).trans (Nat.zero_add _)
  rw [← hlength]
  exact List.getElem?_concat_length

/-- A call returns what it comes to without a channel. -/
theorem result_of_returns {moves : List Move} {r : Return}
    (hr : r ∈ (System.run (fun _ => extractor) deadline moves).returns) :
    ∃ c, (run extractor deadline (moves.filterMap Move.event?))[r.call]? = some c ∧
      c.result = some r.result := by
  obtain ⟨before, image, operator, waiting, move, rest, rfl, hcall, hwaiting, hcases⟩ :=
    System.cases_of_returns hr
  refine ⟨_, hcall ▸ getElem?_run_events before _ image operator, ?_⟩
  rw [List.foldl_append, List.foldl_cons, Call.foldl_after_of_not_decides hwaiting]
  refine Call.result_foldl_after ?_ rest
  rcases hcases with ⟨rfl, hreturn⟩ | ⟨rfl, hreturn⟩ | ⟨rfl, hreturn⟩
  all_goals
    rw [congrArg Return.result hreturn, Call.after, if_pos rfl]
    rfl

end Calls

/-- What becomes of the calls that are under way together, whatever their workers do and in
whatever order. The first move that decides a call says what it returns: the other extractor's own
answer for the image and operator of the call, an error that names the image because the worker
has ended without an answer, or one that names the image and the deadline because the time has
elapsed. A call never returns twice, and does return if its time elapses. An answer that comes
after that is not returned by any call. And calls return what they come to without channels. -/
theorem calls_return (inner : Nat → Extractor) (deadline : Duration) (moves : List Move) :
    let s := System.run inner deadline moves
    (∀ before image operator after, moves = before ++ .start image operator :: after →
      let call := starts before
      (∀ waiting rest, after = waiting ++ .send call :: rest →
          (∀ move ∈ waiting, move.decides call = false) →
            s.returnsOf call = if rest.any (Move.heeds call) then
              [⟨call, some call, inner call image operator⟩] else []) ∧
        (∀ waiting rest, after = waiting ++ .exit call :: rest →
          (∀ move ∈ waiting, move.decides call = false) →
            s.returnsOf call = if rest.any (Move.heeds call) then
              [⟨call, none, .error (.aborted image "extraction worker exited without a result")⟩]
              else []) ∧
        (∀ waiting rest, after = waiting ++ .expire call :: rest →
          (∀ move ∈ waiting, move.decides call = false) →
            s.returnsOf call = [⟨call, none, .error (.timeout image deadline)⟩] ∧
              s.channels[call]?.map Channel.messages = some [] ∧
                ∀ r ∈ s.returns, r.source ≠ some call) ∧
        ((∀ move ∈ after, move.decides call = false) → s.returnsOf call = []) ∧
        (s.returnsOf call).length ≤ 1 ∧
        (.expire call ∈ after → (s.returnsOf call).length = 1)) ∧
      (∀ r ∈ s.returns, ∀ worker, r.source = some worker → worker = r.call) ∧
      ∀ extractor : Extractor, (inner = fun _ => extractor) → ∀ r ∈ s.returns,
        ∃ c, (run extractor deadline (moves.filterMap Move.event?))[r.call]? = some c ∧
          c.result = some r.result := by
  intro s
  have hsource : ∀ r ∈ s.returns, ∀ worker, r.source = some worker → worker = r.call := by
    intro r hr worker hworker
    obtain ⟨_, _, _, _, _, _, -, -, -, hcases⟩ := System.cases_of_returns hr
    rcases hcases with ⟨-, hreturn⟩ | ⟨-, hreturn⟩ | ⟨-, hreturn⟩ <;> rw [hreturn] at hworker
    · exact (Option.some.inj hworker).symm
    · cases hworker
    · cases hworker
  refine ⟨?_, hsource, fun extractor hconstant r hr => result_of_returns (hconstant ▸ hr)⟩
  rintro before image operator after rfl call
  have hshows : s.Shows call
      (after.foldl (View.step inner deadline call) (.fresh image operator)) :=
    System.shows_run before after image operator
  refine ⟨?_, ?_, ?_, ?_, ?_, ?_⟩
  · rintro waiting rest rfl hwaiting
    exact hshows.returns.trans (View.returns_of_send hwaiting rest)
  · rintro waiting rest rfl hwaiting
    exact hshows.returns.trans (View.returns_of_exit hwaiting rest)
  · rintro waiting rest rfl hwaiting
    have hover : View.Over ⟨call, none, settle image deadline .elapsed⟩
        ((waiting ++ .expire call :: rest).foldl (View.step inner deadline call)
          (.fresh image operator)) := View.over_of_expire hwaiting rest
    have hreturns := hshows.returns.trans hover.returns
    refine ⟨hreturns, ?_, fun r hr hworker => ?_⟩
    · rw [hshows.channel, Option.map_some, hover.messages]
    have hmem : r ∈ s.returnsOf call :=
      List.mem_filter.mpr ⟨hr, decide_eq_true (hsource r hr call hworker).symm⟩
    rw [hreturns, List.mem_singleton] at hmem
    rw [hmem] at hworker
    cases hworker
  · intro hnone
    rw [hshows.returns, View.foldl_fresh hnone]
    rfl
  · rw [hshows.returns]
    exact View.length_returns_le after
  · intro hexpire
    rw [hshows.returns]
    exact View.length_returns_of_expire hexpire

/-- Two calls under way together. The worker of the first one answers too late, while the second
call is looking for its own answer, and the second worker answers in time. -/
def crossing : List Move :=
  [.start "a" "x", .start "b" "y", .look 1, .expire 0, .send 0, .look 1, .send 1, .exit 0, .look 1]

theorem calls_return_crossing :
    let answers : Nat → Extractor := fun n image operator =>
      .error (.aborted (image ++ operator) (toString n))
    let s := System.run answers (.ofSeconds 5) crossing
    s.returnsOf 0 = [⟨0, none, .error (.timeout "a" (.ofSeconds 5))⟩] ∧
      s.returnsOf 1 = [⟨1, some 1, answers 1 "b" "y"⟩] := by
  intro answers s
  obtain ⟨hcalls, -⟩ := calls_return answers (.ofSeconds 5) crossing
  obtain ⟨-, -, hlate, -⟩ := hcalls [] "a" "x" _ rfl
  obtain ⟨hanswered, -⟩ := hcalls [.start "a" "x"] "b" "y" _ rfl
  exact ⟨(hlate [.start "b" "y", .look 1] _ rfl (by decide)).1,
    hanswered [.look 1, .expire 0, .send 0, .look 1] _ rfl (by decide)⟩

end AddonLint.Deadline
