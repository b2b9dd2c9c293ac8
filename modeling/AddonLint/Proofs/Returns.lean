import AddonLint.Proofs.Channels

/-!
# What calls return

The first of three moves decides a call: its worker sends an answer or ends, or its time elapses.
A call that is decided by its worker returns when it next looks into its channel, and at the
latest when its time elapses. What happens afterwards is lost.
-/
namespace AddonLint.Deadline

variable {inner : Nat → Extractor} {deadline : Duration}

/-- The moves that may decide a call. -/
def Move.decides (call : Nat) : Move → Bool
  | .send n => n = call
  | .exit n => n = call
  | .expire n => n = call
  | _ => false

/-- The moves by which a call returns once it is decided. -/
def Move.heeds (call : Nat) : Move → Bool
  | .look n => n = call
  | .expire n => n = call
  | _ => false

/-! ### What a call comes to -/

/-- What a receiver gets before its time has elapsed it also gets afterwards, and the end of the
sender does not take it away. -/
theorem Channel.receive?_stays {c : Channel} {received : Received}
    (h : c.receive? false = some received) :
    (∀ elapsed, c.receive? elapsed = some received) ∧
      c.dropSender.receive? false = some received := by
  obtain ⟨messages, sender, receiver⟩ := c
  cases receiver with
  | false => cases h
  | true =>
    cases messages with
    | cons m rest => exact ⟨fun _ => h, h⟩
    | nil =>
      cases sender with
      | false => exact ⟨fun _ => h, h⟩
      | true => cases h

theorem Channel.send_of_dropped {c : Channel} (h : c.receiver = false) (m : Message) :
    c.send m = c := by
  unfold Channel.send
  rw [h]
  rfl

theorem Channel.receive?_of_dropped {c : Channel} (h : c.receiver = false) (elapsed : Bool) :
    c.receive? elapsed = none := by
  unfold Channel.receive?
  rw [h]
  rfl

namespace View

variable {call : Nat} {image operator : String} {v : View} {r : Return}

/-- The call returns this as soon as it looks into the channel. -/
structure Decided (deadline : Duration) (call : Nat) (r : Return) (v : View) : Prop where
  stage : v.stage ≠ .asking
  return? : v.return? deadline call false = some r
  returns : v.returns = []

/-- The call has returned this, and no message waits for it any more. -/
structure Over (r : Return) (v : View) : Prop where
  receiver : v.channel.receiver = false
  messages : v.channel.messages = []
  returns : v.returns = [r]

/-- Before it is decided, a call goes on waiting. -/
theorem step_fresh {move : Move} (h : move.decides call = false) :
    (fresh image operator).step inner deadline call move = fresh image operator := by
  cases move with
  | start _ _ => rfl
  | send n => exact if_neg fun hn => of_decide_eq_false h hn.1
  | exit n => exact if_neg (of_decide_eq_false h)
  | look n =>
    by_cases hn : n = call
    · exact if_pos hn
    · exact if_neg hn
  | expire n => exact if_neg (of_decide_eq_false h)

theorem decided_send (inner : Nat → Extractor) (deadline : Duration) (call : Nat)
    (image operator : String) :
    Decided deadline call ⟨call, some call, inner call image operator⟩
      ((fresh image operator).step inner deadline call (.send call)) := by
  have hstep : (fresh image operator).step inner deadline call (.send call) =
      ⟨image, operator, .answered, ⟨[⟨call, inner call image operator⟩], true, true⟩, []⟩ :=
    if_pos ⟨rfl, rfl⟩
  have hstage : Stage.answered ≠ .asking := by decide
  rw [hstep]
  exact ⟨hstage, rfl, rfl⟩

/-- The end of a worker without an answer decides its call as well as an answer does. -/
theorem decided_exit (inner : Nat → Extractor) (deadline : Duration) (call : Nat)
    (image operator : String) :
    Decided deadline call ⟨call, none, settle image deadline .gone⟩
      ((fresh image operator).step inner deadline call (.exit call)) := by
  have hstep : (fresh image operator).step inner deadline call (.exit call) =
      ⟨image, operator, .ended, ⟨[], false, true⟩, []⟩ := if_pos rfl
  have hstage : Stage.ended ≠ .asking := by decide
  rw [hstep]
  exact ⟨hstage, rfl, rfl⟩

/-- A call whose time ends without anything in its channel is over at once. -/
theorem over_expire (inner : Nat → Extractor) (deadline : Duration) (call : Nat)
    (image operator : String) :
    Over ⟨call, none, settle image deadline .elapsed⟩
      ((fresh image operator).step inner deadline call (.expire call)) := by
  have hstep : (fresh image operator).step inner deadline call (.expire call) =
      ⟨image, operator, .asking, ⟨[], true, false⟩,
        [⟨call, none, settle image deadline .elapsed⟩]⟩ := if_pos rfl
  rw [hstep]
  exact ⟨rfl, rfl, rfl⟩

/-- A decided call returns when it looks, whether its time has ended or not. -/
theorem Decided.receive (h : Decided deadline call r v) (elapsed : Bool) :
    Over r (v.receive deadline call elapsed) := by
  obtain ⟨received, hreceived, rfl⟩ := Option.map_eq_some_iff.mp h.return?
  have hreturn : v.return? deadline call elapsed =
      some (conclude deadline call v.image received) := by
    rw [View.return?, (Channel.receive?_stays hreceived).1]
    rfl
  unfold View.receive
  rw [hreturn, h.returns]
  exact ⟨rfl, rfl, rfl⟩

/-- A decided call returns with its next move. -/
theorem Decided.over (h : Decided deadline call r v) {move : Move}
    (hmove : move.heeds call = true) : Over r (v.step inner deadline call move) := by
  cases move with
  | start _ _ => cases hmove
  | send n => cases hmove
  | exit n => cases hmove
  | look n =>
    have hstep : v.step inner deadline call (.look n) = v.receive deadline call false :=
      if_pos (of_decide_eq_true hmove)
    rw [hstep]
    exact h.receive false
  | expire n =>
    have hstep : v.step inner deadline call (.expire n) = v.receive deadline call true :=
      if_pos (of_decide_eq_true hmove)
    rw [hstep]
    exact h.receive true

/-- Nothing else changes what a decided call will return. -/
theorem Decided.step (h : Decided deadline call r v) {move : Move}
    (hmove : move.heeds call = false) :
    Decided deadline call r (v.step inner deadline call move) := by
  cases move with
  | start _ _ => exact h
  | send n =>
    have hstep : v.step inner deadline call (.send n) = v := if_neg fun hn => h.stage hn.2
    rw [hstep]
    exact h
  | exit n =>
    by_cases hn : n = call
    · have hstep : v.step inner deadline call (.exit n) =
          { v with stage := .ended, channel := v.channel.dropSender } := if_pos hn
      have hstage : Stage.ended ≠ .asking := by decide
      rw [hstep]
      obtain ⟨received, hreceived, rfl⟩ := Option.map_eq_some_iff.mp h.return?
      refine ⟨hstage, ?_, h.returns⟩
      rw [View.return?, (Channel.receive?_stays hreceived).2]
      rfl
    · have hstep : v.step inner deadline call (.exit n) = v := if_neg hn
      rw [hstep]
      exact h
  | look n =>
    have hstep : v.step inner deadline call (.look n) = v := if_neg (of_decide_eq_false hmove)
    rw [hstep]
    exact h
  | expire n =>
    have hstep : v.step inner deadline call (.expire n) = v := if_neg (of_decide_eq_false hmove)
    rw [hstep]
    exact h

theorem Over.receive (h : Over r v) (elapsed : Bool) : v.receive deadline call elapsed = v := by
  unfold View.receive View.return?
  rw [Channel.receive?_of_dropped h.receiver]
  rfl

/-- After a call has returned, an answer of its worker is dropped, and the call stays as it is. -/
theorem Over.step (h : Over r v) (move : Move) : Over r (v.step inner deadline call move) := by
  cases move with
  | start _ _ => exact h
  | send n =>
    unfold View.step
    dsimp only
    split_ifs
    · rw [Channel.send_of_dropped h.receiver]
      exact ⟨h.receiver, h.messages, h.returns⟩
    · exact h
  | exit n =>
    unfold View.step
    dsimp only
    split_ifs
    · exact ⟨h.receiver, h.messages, h.returns⟩
    · exact h
  | look n =>
    unfold View.step
    dsimp only
    rw [h.receive, ite_self]
    exact h
  | expire n =>
    unfold View.step
    dsimp only
    rw [h.receive, ite_self]
    exact h

/-! ### The moves after the start of a call -/

theorem foldl_fresh {moves : List Move} (h : ∀ move ∈ moves, move.decides call = false) :
    moves.foldl (View.step inner deadline call) (fresh image operator) = fresh image operator := by
  induction moves with
  | nil => rfl
  | cons move rest ih =>
    obtain ⟨hmove, hrest⟩ := List.forall_mem_cons.mp h
    rw [List.foldl_cons, step_fresh hmove, ih hrest]

theorem Over.foldl (h : Over r v) (moves : List Move) :
    Over r (moves.foldl (View.step inner deadline call) v) := by
  induction moves generalizing v with
  | nil => exact h
  | cons move rest ih => exact ih (h.step move)

/-- A decided call returns once if it ever looks into its channel. -/
theorem Decided.returns_foldl (h : Decided deadline call r v) (moves : List Move) :
    (moves.foldl (View.step inner deadline call) v).returns =
      if moves.any (Move.heeds call) then [r] else [] := by
  induction moves generalizing v with
  | nil => exact h.returns
  | cons move rest ih =>
    rw [List.foldl_cons, List.any_cons]
    cases hmove : move.heeds call with
    | true => exact ((h.over hmove).foldl rest).returns
    | false => exact ih (h.step hmove)

section Returns

variable {waiting : List Move} (hwaiting : ∀ move ∈ waiting, move.decides call = false)
  (rest : List Move)

include hwaiting

theorem returns_of_send :
    ((waiting ++ .send call :: rest).foldl (View.step inner deadline call)
        (fresh image operator)).returns =
      if rest.any (Move.heeds call) then [⟨call, some call, inner call image operator⟩]
      else [] := by
  rw [List.foldl_append, foldl_fresh hwaiting, List.foldl_cons]
  exact (decided_send inner deadline call image operator).returns_foldl rest

theorem returns_of_exit :
    ((waiting ++ .exit call :: rest).foldl (View.step inner deadline call)
        (fresh image operator)).returns =
      if rest.any (Move.heeds call) then [⟨call, none, settle image deadline .gone⟩] else [] := by
  rw [List.foldl_append, foldl_fresh hwaiting, List.foldl_cons]
  exact (decided_exit inner deadline call image operator).returns_foldl rest

theorem over_of_expire :
    Over ⟨call, none, settle image deadline .elapsed⟩
      ((waiting ++ .expire call :: rest).foldl (View.step inner deadline call)
        (fresh image operator)) := by
  rw [List.foldl_append, foldl_fresh hwaiting, List.foldl_cons]
  exact (over_expire inner deadline call image operator).foldl rest

end Returns

end View

/-- Either no move decides a call, or there is a first one of three kinds that does. -/
theorem first_decides (call : Nat) (moves : List Move) :
    (∀ move ∈ moves, move.decides call = false) ∨
      ∃ waiting move rest, moves = waiting ++ move :: rest ∧
        (∀ move ∈ waiting, move.decides call = false) ∧
        (move = .send call ∨ move = .exit call ∨ move = .expire call) := by
  cases hfind : moves.find? (Move.decides call) with
  | none =>
    left
    simpa using List.find?_eq_none.mp hfind
  | some move =>
    obtain ⟨hdecides, waiting, rest, rfl, hwaiting⟩ := List.find?_eq_some_iff_append.mp hfind
    refine .inr ⟨waiting, move, rest, rfl, by simpa using hwaiting, ?_⟩
    cases move with
    | start _ _ => cases hdecides
    | send n => exact .inl (congrArg Move.send (of_decide_eq_true hdecides))
    | exit n => exact .inr (.inl (congrArg Move.exit (of_decide_eq_true hdecides)))
    | look n => cases hdecides
    | expire n => exact .inr (.inr (congrArg Move.expire (of_decide_eq_true hdecides)))

namespace View

variable {call : Nat} {image operator : String}

/-- No call returns twice. -/
theorem length_returns_le (moves : List Move) :
    (moves.foldl (View.step inner deadline call) (fresh image operator)).returns.length ≤ 1 := by
  rcases first_decides call moves with hnone | ⟨waiting, move, rest, rfl, hwaiting, rfl | rfl | rfl⟩
  · rw [foldl_fresh hnone]
    exact Nat.zero_le 1
  · rw [returns_of_send hwaiting]
    split_ifs
    · exact Nat.le_refl 1
    · exact Nat.zero_le 1
  · rw [returns_of_exit hwaiting]
    split_ifs
    · exact Nat.le_refl 1
    · exact Nat.zero_le 1
  · rw [(over_of_expire hwaiting rest).returns]
    exact Nat.le_refl 1

/-- A call returns at the latest when its time elapses. -/
theorem length_returns_of_expire {moves : List Move} (h : .expire call ∈ moves) :
    (moves.foldl (View.step inner deadline call) (fresh image operator)).returns.length = 1 := by
  have hdecides : (Move.expire call).decides call = true := decide_eq_true rfl
  rcases first_decides call moves with hnone | ⟨waiting, move, rest, rfl, hwaiting, hmove⟩
  · exact absurd hdecides (Bool.eq_false_iff.mp (hnone _ h))
  · -- If the worker decides the call, the end of its time comes later and makes it return.
    have hlater (hne : move ≠ .expire call) : rest.any (Move.heeds call) = true := by
      refine List.any_eq_true.mpr ⟨.expire call, ?_, decide_eq_true rfl⟩
      rcases List.mem_append.mp h with hmem | hmem
      · exact absurd hdecides (Bool.eq_false_iff.mp (hwaiting _ hmem))
      · exact (List.mem_cons.mp hmem).resolve_left hne.symm
    rcases hmove with rfl | rfl | rfl
    · rw [returns_of_send hwaiting, hlater Move.noConfusion]
      rfl
    · rw [returns_of_exit hwaiting, hlater Move.noConfusion]
      rfl
    · rw [(over_of_expire hwaiting rest).returns]
      rfl

end View

/-- The start of a call in some moves. -/
theorem exists_start {call : Nat} {moves : List Move} (h : call < starts moves) :
    ∃ before image operator after,
      moves = before ++ .start image operator :: after ∧ starts before = call := by
  induction moves generalizing call with
  | nil => exact absurd h (Nat.not_lt_zero call)
  | cons move rest ih =>
    rw [starts_cons] at h
    have hlater {other : Nat} (hother : other < starts rest)
        (hcall : starts [move] + other = call) :
        ∃ before image operator after,
          move :: rest = before ++ .start image operator :: after ∧ starts before = call := by
      obtain ⟨before, image, operator, after, rfl, hstarts⟩ := ih hother
      exact ⟨move :: before, image, operator, after, rfl, by rw [starts_cons, hstarts, hcall]⟩
    cases move with
    | start image operator =>
      have hone : starts [.start image operator] = 1 := rfl
      cases call with
      | zero => exact ⟨[], image, operator, rest, rfl, rfl⟩
      | succ other =>
        have hother : other < starts rest := by omega
        exact hlater hother (by omega)
    | send n => exact hlater (Nat.zero_add (starts rest) ▸ h) (Nat.zero_add call)
    | exit n => exact hlater (Nat.zero_add (starts rest) ▸ h) (Nat.zero_add call)
    | look n => exact hlater (Nat.zero_add (starts rest) ▸ h) (Nat.zero_add call)
    | expire n => exact hlater (Nat.zero_add (starts rest) ▸ h) (Nat.zero_add call)

namespace System

/-- Why a call has returned: one of three moves was the first to decide it. -/
theorem cases_of_returns {moves : List Move} {r : Return}
    (hr : r ∈ (run inner deadline moves).returns) :
    ∃ before image operator waiting move rest,
      moves = before ++ .start image operator :: (waiting ++ move :: rest) ∧
        starts before = r.call ∧ (∀ move ∈ waiting, move.decides r.call = false) ∧
        (move = .send r.call ∧ r = ⟨r.call, some r.call, inner r.call image operator⟩ ∨
          move = .exit r.call ∧ r = ⟨r.call, none, settle image deadline .gone⟩ ∨
          move = .expire r.call ∧ r = ⟨r.call, none, settle image deadline .elapsed⟩) := by
  have hstarted := (wired_run moves).started r hr
  rw [length_callers_run] at hstarted
  obtain ⟨before, image, operator, after, rfl, hcall⟩ := exists_start hstarted
  have hmem : r ∈ (run inner deadline (before ++ .start image operator :: after)).returnsOf
      (starts before) := List.mem_filter.mpr ⟨hr, decide_eq_true hcall.symm⟩
  rw [(shows_run before after image operator).returns, hcall] at hmem
  rcases first_decides r.call after with hnone | ⟨waiting, move, rest, rfl, hwaiting, hmove⟩
  · rw [View.foldl_fresh hnone] at hmem
    cases hmem
  refine ⟨before, image, operator, waiting, move, rest, rfl, hcall, hwaiting, ?_⟩
  rcases hmove with rfl | rfl | rfl
  · rw [View.returns_of_send hwaiting, List.mem_ite_nil_right, List.mem_singleton] at hmem
    exact .inl ⟨rfl, hmem.2⟩
  · rw [View.returns_of_exit hwaiting, List.mem_ite_nil_right, List.mem_singleton] at hmem
    exact .inr (.inl ⟨rfl, hmem.2⟩)
  · rw [(View.over_of_expire hwaiting rest).returns, List.mem_singleton] at hmem
    exact .inr (.inr ⟨rfl, hmem⟩)

end System

end AddonLint.Deadline
