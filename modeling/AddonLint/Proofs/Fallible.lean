import Mathlib.Data.List.Forall2

/-!
# Computations that may fail

What a sequence of fallible steps comes to: it succeeds when all its steps do, and
otherwise it fails as its first failing step does.
-/
namespace AddonLint.Fallible

variable {ε ε' α β : Type}

theorem exists_ok_of_isSome {x : Except ε α} (h : x.toOption.isSome = true) :
    ∃ a, x = .ok a := by
  cases x with
  | ok a => exact ⟨a, rfl⟩
  | error e => cases h

theorem eq_ok_of_toOption {x : Except ε α} {a : α} (h : x.toOption = some a) : x = .ok a := by
  cases x with
  | ok a' =>
    cases h
    rfl
  | error e => cases h

theorem bind_eq_ok_iff {x : Except ε α} {f : α → Except ε β} {b : β} :
    x >>= f = .ok b ↔ ∃ a, x = .ok a ∧ f a = .ok b := by
  cases x with
  | ok a => simp [bind, Except.bind]
  | error e => simp [bind, Except.bind]

/-- Two steps fail with the error of the first one that fails. -/
theorem bind_eq_error_iff {x : Except ε α} {f : α → Except ε β} {e : ε} :
    x >>= f = .error e ↔ x = .error e ∨ ∃ a, x = .ok a ∧ f a = .error e := by
  cases x with
  | ok a => simp [bind, Except.bind]
  | error e => simp [bind, Except.bind]

theorem map_eq_ok_iff {x : Except ε α} {f : α → β} {b : β} :
    x.map f = .ok b ↔ ∃ a, x = .ok a ∧ f a = b := by
  cases x <;> simp [Except.map]

theorem map_eq_error_iff {x : Except ε α} {f : α → β} {e : ε} :
    x.map f = .error e ↔ x = .error e := by
  cases x <;> simp [Except.map]

@[simp] theorem mapError_eq_ok_iff {x : Except ε α} {f : ε → ε'} {a : α} :
    x.mapError f = .ok a ↔ x = .ok a := by
  cases x <;> simp [Except.mapError]

theorem mapM_eq_ok_iff {f : α → Except ε β} {xs : List α} {ys : List β} :
    xs.mapM f = .ok ys ↔ List.Forall₂ (fun x y => f x = .ok y) xs ys := by
  induction xs generalizing ys with
  | nil =>
    rw [List.mapM_nil, List.forall₂_nil_left_iff]
    exact ⟨fun h => by cases h; rfl, fun h => by rw [h]; rfl⟩
  | cons x xs ih =>
    simp only [List.mapM_cons, bind_eq_ok_iff, ih, List.forall₂_cons_left_iff]
    constructor
    · rintro ⟨y, hy, rest, hrest, hys⟩
      cases hys
      exact ⟨y, rest, hy, hrest, rfl⟩
    · rintro ⟨y, rest, hy, hrest, rfl⟩
      exact ⟨y, hy, rest, hrest, rfl⟩

/-- A traversal succeeds if its step does on every item. -/
theorem exists_mapM_eq_ok {f : α → Except ε β} {xs : List α} (h : ∀ x ∈ xs, ∃ y, f x = .ok y) :
    ∃ ys, xs.mapM f = .ok ys := by
  simp only [mapM_eq_ok_iff]
  induction xs with
  | nil => exact ⟨[], .nil⟩
  | cons x xs ih =>
    obtain ⟨y, hy⟩ := h x List.mem_cons_self
    obtain ⟨ys, hys⟩ := ih fun z hz => h z (List.mem_cons_of_mem x hz)
    exact ⟨y :: ys, .cons hy hys⟩

theorem exists_ok_of_mapM {f : α → Except ε β} {xs : List α} {ys : List β}
    (h : xs.mapM f = .ok ys) {x : α} (hx : x ∈ xs) : ∃ y, f x = .ok y := by
  induction mapM_eq_ok_iff.1 h with
  | nil => cases hx
  | @cons x' y xs ys hy htail ih =>
    rcases List.mem_cons.1 hx with rfl | hx
    · exact ⟨y, hy⟩
    · exact ih (mapM_eq_ok_iff.2 htail) hx

/-- A traversal fails as the first item does that fails. -/
theorem mapM_eq_error_iff {f : α → Except ε β} {xs : List α} {e : ε} :
    xs.mapM f = .error e ↔ ∃ before x after, xs = before ++ x :: after ∧
      (∀ y ∈ before, ∃ b, f y = .ok b) ∧ f x = .error e := by
  induction xs with
  | nil => exact iff_of_false nofun (by simp)
  | cons x xs ih =>
    rw [List.mapM_cons, bind_eq_error_iff]
    constructor
    · rintro (hx | ⟨b, hb, h⟩)
      · exact ⟨[], x, xs, rfl, nofun, hx⟩
      · rcases bind_eq_error_iff.1 h with hxs | ⟨ys, -, h⟩
        · obtain ⟨before, y, after, rfl, hbefore, hy⟩ := ih.1 hxs
          refine ⟨x :: before, y, after, rfl, fun z hz => ?_, hy⟩
          rcases List.mem_cons.1 hz with rfl | hz
          · exact ⟨b, hb⟩
          · exact hbefore z hz
        · cases h
    · rintro ⟨before, y, after, hsplit, hbefore, hy⟩
      cases before with
      | nil =>
        cases hsplit
        exact .inl hy
      | cons z before =>
        cases hsplit
        obtain ⟨b, hb⟩ := hbefore x List.mem_cons_self
        have htail : ∀ z ∈ before, ∃ b, f z = .ok b := fun z hz =>
          hbefore z (List.mem_cons_of_mem x hz)
        have hxs := ih.2 ⟨before, y, after, rfl, htail, hy⟩
        exact .inr ⟨b, hb, bind_eq_error_iff.2 (.inl hxs)⟩

theorem exists_error_of_mapM {f : α → Except ε β} {xs : List α} {e : ε}
    (h : xs.mapM f = .error e) : ∃ x ∈ xs, f x = .error e := by
  obtain ⟨before, x, after, rfl, -, hx⟩ := mapM_eq_error_iff.1 h
  exact ⟨x, List.mem_append_right before List.mem_cons_self, hx⟩

/-- Of items in increasing order, the first one that fails is the least one. -/
theorem mapM_eq_error_iff_of_increasing {f : String → Except ε β} {xs : List String}
    (hxs : xs.Pairwise (· < ·)) {e : ε} :
    xs.mapM f = .error e ↔
      ∃ x ∈ xs, f x = .error e ∧ ∀ y ∈ xs, y < x → ∃ b, f y = .ok b := by
  rw [mapM_eq_error_iff]
  constructor
  · rintro ⟨before, x, after, rfl, hbefore, hx⟩
    have hafter : ∀ y ∈ after, x < y :=
      (List.pairwise_cons.1 (List.pairwise_append.1 hxs).2.1).1
    refine ⟨x, List.mem_append_right before List.mem_cons_self, hx, fun y hy hlt => ?_⟩
    rcases List.mem_append.1 hy with hy | hy
    · exact hbefore y hy
    · rcases List.mem_cons.1 hy with rfl | hy
      · exact absurd hlt (String.lt_irrefl y)
      · exact absurd hlt (String.lt_asymm (hafter y hy))
  · rintro ⟨x, hmem, hx, hearlier⟩
    obtain ⟨before, after, rfl⟩ := List.append_of_mem hmem
    refine ⟨before, x, after, rfl, fun y hy => ?_, hx⟩
    have hlt : y < x := (List.pairwise_append.1 hxs).2.2 y hy x List.mem_cons_self
    exact hearlier y (List.mem_append_left _ hy) hlt

theorem mapM_congr_left {f g : α → Except ε β} {xs : List α} (h : ∀ x ∈ xs, f x = g x) :
    xs.mapM f = xs.mapM g := by
  induction xs with
  | nil => rfl
  | cons x xs ih =>
    have htail := ih fun z hz => h z (List.mem_cons_of_mem x hz)
    rw [List.mapM_cons, List.mapM_cons, h x List.mem_cons_self, htail]

theorem mapM_map {γ : Type} (f : α → Except ε β) (g : β → γ) (xs : List α) :
    (xs.mapM fun x => (f x).map g) = (xs.mapM f).map (List.map g) := by
  induction xs with
  | nil => rfl
  | cons x xs ih =>
    rw [List.mapM_cons, List.mapM_cons, ih]
    cases f x with
    | error e => rfl
    | ok y => cases xs.mapM f <;> rfl

/-- Two traversals come to the same, unless one of them fails where their steps differ. -/
theorem mapM_eq_or_error {f g : α → Except ε β} {P Q : ε → Prop} {xs : List α}
    (h : ∀ x ∈ xs, g x = f x ∨ (∃ e, P e ∧ f x = .error e) ∨ ∃ e, Q e ∧ g x = .error e) :
    xs.mapM g = xs.mapM f ∨ (∃ e, P e ∧ xs.mapM f = .error e) ∨
      ∃ e, Q e ∧ xs.mapM g = .error e := by
  induction xs with
  | nil => exact .inl rfl
  | cons x xs ih =>
    have htail := ih fun z hz => h z (List.mem_cons_of_mem x hz)
    simp only [List.mapM_cons]
    rcases h x List.mem_cons_self with hx | ⟨e, he, hx⟩ | ⟨e, he, hx⟩
    · rw [hx]
      cases f x with
      | error e => exact .inl rfl
      | ok y =>
        rcases htail with hxs | ⟨e, he, hxs⟩ | ⟨e, he, hxs⟩
        · rw [hxs]
          exact .inl rfl
        · rw [hxs]
          exact .inr (.inl ⟨e, he, rfl⟩)
        · rw [hxs]
          exact .inr (.inr ⟨e, he, rfl⟩)
    · rw [hx]
      exact .inr (.inl ⟨e, he, rfl⟩)
    · rw [hx]
      exact .inr (.inr ⟨e, he, rfl⟩)

theorem mapM_eq_some {f : α → Option β} {xs : List α} {ys : List β}
    (h : List.Forall₂ (fun x y => f x = some y) xs ys) : xs.mapM f = some ys := by
  induction h with
  | nil => rfl
  | cons hxy _ ih =>
    rw [List.mapM_cons, hxy, ih]
    rfl

/-- The results of a traversal are those of its items. -/
theorem mem_iff_of_mapM {f : α → Except ε β} {xs : List α} {ys : List β}
    (h : xs.mapM f = .ok ys) {y : β} : y ∈ ys ↔ ∃ x ∈ xs, f x = .ok y := by
  induction mapM_eq_ok_iff.1 h with
  | nil => simp
  | @cons x z xs ys hz htail ih =>
    simp only [List.mem_cons, exists_eq_or_imp, hz, Except.ok.injEq,
      ih (mapM_eq_ok_iff.2 htail), eq_comm (a := y)]

/-- An order of the items carries over to the results. -/
theorem pairwise_of_mapM {f : α → Except ε β} {R : α → α → Prop} {S : β → β → Prop}
    {xs : List α} {ys : List β} (h : xs.mapM f = .ok ys) (hxs : xs.Pairwise R)
    (hstep : ∀ {x x' y y'}, R x x' → f x = .ok y → f x' = .ok y' → S y y') : ys.Pairwise S := by
  induction mapM_eq_ok_iff.1 h with
  | nil => exact .nil
  | @cons x y xs ys hy htail ih =>
    obtain ⟨hx, hxs⟩ := List.pairwise_cons.1 hxs
    have htail := mapM_eq_ok_iff.2 htail
    refine List.pairwise_cons.2 ⟨fun y' hy' => ?_, ih htail hxs⟩
    obtain ⟨x', hx', hread⟩ := (mem_iff_of_mapM htail).1 hy'
    exact hstep (hx x' hx') hy hread

end AddonLint.Fallible
