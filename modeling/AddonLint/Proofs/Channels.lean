import AddonLint.Extraction.Channel
import Mathlib.Data.List.Basic
import Mathlib.Tactic.SplitIfs

/-!
# Calls hear of their own workers only

Every call makes a channel of its own, and only its worker sends to it. So whatever else is under
way, what becomes of a call depends on the moves of its worker and of itself alone.
-/
namespace AddonLint.Deadline

variable {inner : Nat → Extractor} {deadline : Duration}

/-- The start of a call. -/
def Move.isStart : Move → Bool
  | .start _ _ => true
  | _ => false

def starts (moves : List Move) : Nat := moves.countP Move.isStart

theorem starts_cons (move : Move) (rest : List Move) :
    starts (move :: rest) = starts [move] + starts rest := by
  rw [← List.singleton_append]
  exact List.countP_append

/-! ### One call by itself -/

/-- A call with its worker and the channel between them. -/
structure View where
  image : String
  operator : String
  stage : Stage
  channel : Channel
  returns : List Return

namespace View

def fresh (image operator : String) : View := ⟨image, operator, .asking, .fresh, []⟩

/-- What the call returns if it looks into the channel. -/
def return? (deadline : Duration) (call : Nat) (elapsed : Bool) (v : View) : Option Return :=
  (v.channel.receive? elapsed).map (conclude deadline call v.image)

def receive (deadline : Duration) (call : Nat) (elapsed : Bool) (v : View) : View :=
  match v.return? deadline call elapsed with
  | none => v
  | some r => { v with channel := v.channel.dropReceiver, returns := v.returns ++ [r] }

/-- Only the moves of the worker and of the call itself matter. -/
def step (inner : Nat → Extractor) (deadline : Duration) (call : Nat) (v : View) : Move → View
  | .start _ _ => v
  | .send n =>
    if n = call ∧ v.stage = .asking then
      { v with
        stage := .answered, channel := v.channel.send ⟨n, inner n v.image v.operator⟩ }
    else v
  | .exit n =>
    if n = call then { v with stage := .ended, channel := v.channel.dropSender } else v
  | .look n => if n = call then v.receive deadline call false else v
  | .expire n => if n = call then v.receive deadline call true else v

end View

namespace System

/-- Every worker and every call uses the channel of its own number. -/
structure Wired (s : System) : Prop where
  workers_length : s.workers.length = s.channels.length
  callers_length : s.callers.length = s.channels.length
  worker : ∀ (n : Nat) (w : Worker), s.workers[n]? = some w → w.channel = n
  caller : ∀ (n : Nat) (c : Caller), s.callers[n]? = some c → c.channel = n
  started : ∀ r ∈ s.returns, r.call < s.callers.length

/-- What there is of a call in the system. -/
structure Shows (s : System) (call : Nat) (v : View) : Prop where
  worker : s.workers[call]? = some ⟨v.image, v.operator, call, v.stage⟩
  caller : s.callers[call]? = some ⟨v.image, call⟩
  channel : s.channels[call]? = some v.channel
  returns : s.returnsOf call = v.returns

@[simp] theorem call_conclude (call : Nat) (image : String) (received : Received) :
    (conclude deadline call image received).call = call := by
  cases received <;> rfl

/-! ### Every channel has one worker and one call -/

section Lists

variable {α : Type} {P : Nat → α → Prop} {xs : List α}

/-- A property of every element and its place also holds with one more element. -/
theorem forall_getElem?_concat (h : ∀ (n : Nat) (a : α), xs[n]? = some a → P n a) {x : α}
    (hx : P xs.length x) : ∀ (n : Nat) (a : α), (xs ++ [x])[n]? = some a → P n a := by
  intro n a ha
  rw [List.getElem?_append] at ha
  split_ifs at ha with hn
  · exact h n a ha
  · rw [List.getElem?_singleton, Option.ite_none_right_eq_some] at ha
    obtain ⟨hzero, heq⟩ := ha
    obtain rfl := Option.some.inj heq
    obtain rfl : n = xs.length := by omega
    exact hx

theorem forall_getElem?_modify (h : ∀ (n : Nat) (a : α), xs[n]? = some a → P n a) {f : α → α}
    (hf : ∀ n a, P n a → P n (f a)) (i : Nat) :
    ∀ (n : Nat) (a : α), (xs.modify i f)[n]? = some a → P n a := by
  intro n a ha
  rw [List.getElem?_modify] at ha
  obtain ⟨b, hb, rfl⟩ := Option.map_eq_some_iff.mp ha
  split_ifs with hi
  · exact hf n b (h n b hb)
  · exact h n b hb

end Lists

theorem wired_empty : Wired empty := by
  constructor <;> simp [empty]

theorem Wired.receive {s : System} (hs : s.Wired) (elapsed : Bool) (call : Nat) :
    (s.receive deadline elapsed call).Wired := by
  unfold System.receive
  split
  next => exact hs
  next caller hcaller =>
    split
    next => exact hs
    next received hreceived =>
      refine ⟨?_, ?_, hs.worker, hs.caller, ?_⟩
      · rw [List.length_modify, hs.workers_length]
      · rw [List.length_modify, hs.callers_length]
      · intro r hr
        rcases List.mem_append.mp hr with hr | hr
        · exact hs.started r hr
        · obtain rfl := List.mem_singleton.mp hr
          rw [call_conclude]
          exact (List.getElem?_eq_some_iff.mp hcaller).1

theorem Wired.change {s : System} (hs : s.Wired) (n : Nat) (stage : Stage) (channel : Nat)
    (change : Channel → Channel) :
    Wired
      { s with
        workers := s.workers.modify n fun w => { w with stage := stage }
        channels := s.channels.modify channel change } := by
  refine ⟨?_, ?_, ?_, hs.caller, hs.started⟩
  · simp only [List.length_modify, hs.workers_length]
  · simp only [List.length_modify, hs.callers_length]
  · exact forall_getElem?_modify (f := fun w => { w with stage := stage }) hs.worker
      (fun _ _ h => h) n

/-- No move connects a worker or a call to the channel of another one. -/
theorem Wired.step {s : System} (hs : s.Wired) (move : Move) :
    (s.step inner deadline move).Wired := by
  cases move with
  | start image operator =>
    refine ⟨?_, ?_, forall_getElem?_concat hs.worker hs.workers_length.symm,
      forall_getElem?_concat hs.caller hs.callers_length.symm, fun r hr => ?_⟩
    · simp only [System.step, List.length_append, hs.workers_length]
      rfl
    · simp only [System.step, List.length_append, hs.callers_length]
      rfl
    · have hstarted := hs.started r hr
      simp only [System.step, List.length_append]
      omega
  | send n =>
    unfold System.step
    dsimp only
    split
    next => exact hs
    next w hw =>
      split_ifs
      · exact hs.change n .answered _ _
      · exact hs
  | exit n =>
    unfold System.step
    dsimp only
    split
    next => exact hs
    next w hw => exact hs.change n .ended _ _
  | look call => exact hs.receive false call
  | expire call => exact hs.receive true call

/-! ### What happens to one call -/

section Shows

variable {s : System} {call : Nat} {v : View}

theorem returnsOf_concat (s : System) (call : Nat) (r : Return) (channels : List Channel) :
    returnsOf { s with channels := channels, returns := s.returns ++ [r] } call =
      s.returnsOf call ++ if r.call = call then [r] else [] := by
  unfold returnsOf
  rw [List.filter_append, List.filter_singleton]
  simp

theorem Shows.receive (h : Shows s call v) (elapsed : Bool) :
    Shows (s.receive deadline elapsed call) call (v.receive deadline call elapsed) := by
  unfold System.receive View.receive View.return?
  simp only [h.caller, h.channel, Option.bind_some]
  cases v.channel.receive? elapsed with
  | none => exact h
  | some received =>
    refine ⟨h.worker, h.caller, ?_, ?_⟩
    · dsimp only
      rw [List.getElem?_modify_eq, h.channel]
      rfl
    · rw [returnsOf_concat, call_conclude, if_pos rfl, h.returns]
      rfl

/-- A call that looks into its own channel changes nothing for another call. -/
theorem Shows.receive_other (h : Shows s call v) (hs : s.Wired) {other : Nat} (hne : other ≠ call)
    (elapsed : Bool) : Shows (s.receive deadline elapsed other) call v := by
  unfold System.receive
  cases hcaller : s.callers[other]? with
  | none => exact h
  | some caller =>
    obtain hchannel : caller.channel = other := hs.caller other caller hcaller
    dsimp only
    cases s.channels[caller.channel]?.bind (Channel.receive? elapsed) with
    | none => exact h
    | some received =>
      refine ⟨h.worker, h.caller, ?_, ?_⟩
      · dsimp only
        rw [hchannel, List.getElem?_modify_ne _ _ hne, h.channel]
      · rw [returnsOf_concat, call_conclude, if_neg hne, List.append_nil, h.returns]

/-- A worker and its channel change together. -/
theorem Shows.change (h : Shows s call v) (stage : Stage) (change : Channel → Channel) :
    Shows
      { s with
        workers := s.workers.modify call fun w => { w with stage := stage }
        channels := s.channels.modify call change }
      call { v with stage := stage, channel := change v.channel } := by
  refine ⟨?_, h.caller, ?_, h.returns⟩
  · dsimp only
    rw [List.getElem?_modify_eq, h.worker]
    rfl
  · dsimp only
    rw [List.getElem?_modify_eq, h.channel]
    rfl

theorem Shows.change_other (h : Shows s call v) {other : Nat} (hne : other ≠ call)
    (work : Worker → Worker) (change : Channel → Channel) :
    Shows
      { s with
        workers := s.workers.modify other work
        channels := s.channels.modify other change }
      call v := by
  refine ⟨?_, h.caller, ?_, h.returns⟩
  · dsimp only
    rw [List.getElem?_modify_ne _ _ hne, h.worker]
  · dsimp only
    rw [List.getElem?_modify_ne _ _ hne, h.channel]

/-- A move does to a call what it does to the call by itself. -/
theorem Shows.step (h : Shows s call v) (hs : s.Wired) (move : Move) :
    Shows (s.step inner deadline move) call (v.step inner deadline call move) := by
  cases move with
  | start image operator =>
    -- The new worker, call and channel come behind those that are there.
    have hleft {α : Type} {xs : List α} {a x : α} (ha : xs[call]? = some a) :
        (xs ++ [x])[call]? = some a := by
      rw [List.getElem?_append_left (List.getElem?_eq_some_iff.mp ha).1, ha]
    exact ⟨hleft h.worker, hleft h.caller, hleft h.channel, h.returns⟩
  | send n =>
    by_cases hn : n = call
    · subst hn
      simp only [System.step, View.step, h.worker, true_and]
      split_ifs
      · exact h.change .answered _
      · exact h
    · simp only [System.step, View.step, hn, false_and, if_false]
      cases hw : s.workers[n]? with
      | none => exact h
      | some w =>
        dsimp only
        rw [hs.worker n w hw]
        split_ifs
        · exact h.change_other hn _ _
        · exact h
  | exit n =>
    by_cases hn : n = call
    · subst hn
      simp only [System.step, View.step, h.worker, if_true]
      exact h.change .ended _
    · simp only [System.step, View.step, hn, if_false]
      cases hw : s.workers[n]? with
      | none => exact h
      | some w =>
        dsimp only
        rw [hs.worker n w hw]
        exact h.change_other hn _ _
  | look n =>
    by_cases hn : n = call
    · subst hn
      simpa only [System.step, View.step, if_true] using h.receive false
    · simpa only [System.step, View.step, hn, if_false] using h.receive_other hs hn false
  | expire n =>
    by_cases hn : n = call
    · subst hn
      simpa only [System.step, View.step, if_true] using h.receive true
    · simpa only [System.step, View.step, hn, if_false] using h.receive_other hs hn true

theorem Wired.foldl (hs : s.Wired) (moves : List Move) :
    (moves.foldl (System.step inner deadline) s).Wired := by
  induction moves generalizing s with
  | nil => exact hs
  | cons move rest ih => exact ih (hs.step move)

/-- A call and its worker are all that matters to the call, through any moves. -/
theorem Shows.foldl (h : Shows s call v) (hs : s.Wired) (moves : List Move) :
    Shows (moves.foldl (System.step inner deadline) s) call
      (moves.foldl (View.step inner deadline call) v) := by
  induction moves generalizing s v with
  | nil => exact h
  | cons move rest ih => exact ih (h.step hs move) (hs.step move)

end Shows

theorem wired_run (moves : List Move) : (run inner deadline moves).Wired := wired_empty.foldl moves

theorem callers_receive (s : System) (elapsed : Bool) (call : Nat) :
    (s.receive deadline elapsed call).callers = s.callers := by
  unfold System.receive
  split
  next => rfl
  next => split <;> rfl

theorem length_callers_step (s : System) (move : Move) :
    (s.step inner deadline move).callers.length = s.callers.length + starts [move] := by
  cases move with
  | start image operator => exact List.length_append
  | send n =>
    unfold System.step
    dsimp only
    split
    next => rfl
    next => split_ifs <;> rfl
  | exit n =>
    unfold System.step
    dsimp only
    split <;> rfl
  | look call => exact congrArg List.length (callers_receive s false call)
  | expire call => exact congrArg List.length (callers_receive s true call)

theorem length_callers_foldl (s : System) (moves : List Move) :
    (moves.foldl (System.step inner deadline) s).callers.length =
      s.callers.length + starts moves := by
  induction moves generalizing s with
  | nil => rfl
  | cons move rest ih =>
    rw [List.foldl_cons, ih, length_callers_step, starts_cons move rest, Nat.add_assoc]

variable (inner deadline) in
theorem length_callers_run (moves : List Move) :
    (run inner deadline moves).callers.length = starts moves :=
  (length_callers_foldl empty moves).trans (Nat.zero_add _)

/-- A call in a run is what its own moves after its start make of it. -/
theorem shows_run (before after : List Move) (image operator : String) :
    Shows (run inner deadline (before ++ .start image operator :: after)) (starts before)
      (after.foldl (View.step inner deadline (starts before)) (.fresh image operator)) := by
  have hs : (run inner deadline before).Wired := wired_run before
  have hcallers := length_callers_run inner deadline before
  have hchannels := hs.callers_length.symm.trans hcallers
  have hworkers := hs.workers_length.trans hchannels
  have hstart : Shows ((run inner deadline before).step inner deadline (.start image operator))
      (starts before) (.fresh image operator) := by
    refine ⟨?_, ?_, ?_, ?_⟩
    · simp only [System.step, ← hworkers, List.getElem?_concat_length, View.fresh]
      rw [hworkers, hchannels]
    · simp only [System.step, ← hcallers, List.getElem?_concat_length, View.fresh]
      rw [hcallers, hchannels]
    · simp only [System.step, ← hchannels, List.getElem?_concat_length, View.fresh]
    · refine List.filter_eq_nil_iff.mpr fun r hr => ?_
      have hstarted := hs.started r hr
      rw [decide_eq_true_eq]
      omega
  have hrun : run inner deadline (before ++ .start image operator :: after) =
      after.foldl (System.step inner deadline)
        ((run inner deadline before).step inner deadline (.start image operator)) := by
    rw [run, List.foldl_append, List.foldl_cons]
    rfl
  rw [hrun]
  exact hstart.foldl (hs.step _) after

end System

end AddonLint.Deadline
