import AddonLint.Proofs.SettingsLayers
import AddonLint.Proofs.Stages

/-!
# Numbers that a later layer replaces

A configuration file, the environment variables and the options of the command line are layers of
settings, each over the ones before. A number that a later layer replaces makes no difference to
the settings in the end. But what file and variables leave is checked on its own, before the options
come over it, so a zero there is refused even if an option would replace it.
-/
namespace AddonLint.Settings

open Validate (Input)

/-! ## Numbers and their layers -/

/-- The settings that are numbers. -/
inductive Quantity where
  | extractTimeout
  | jobs
  deriving DecidableEq, Repr

namespace Quantity

def key : Quantity → String
  | .extractTimeout => "extract_timeout_secs"
  | .jobs => "jobs"

def variableName : Quantity → String
  | .extractTimeout => Overrides.timeoutVariable
  | .jobs => Overrides.jobsVariable

/-- The number that replaces the one of the settings. -/
def given (o : Overrides) : Quantity → Option UInt64
  | .extractTimeout => o.extractTimeout
  | .jobs => o.jobs

def value (s : Settings) : Quantity → UInt64
  | .extractTimeout => s.extractTimeout
  | .jobs => s.jobs

/-- A number comes from the layer on top if that gives it. -/
theorem value_merge (q : Quantity) (s : Settings) (o : Overrides) :
    value (s.merge o) q = (given o q).getD (value s q) := by
  cases q <;> rfl

end Quantity

open Quantity (given value)

/-- The layers over the defaults. -/
inductive Layer where
  | file
  | environment
  | options
  deriving DecidableEq, Repr

/-- The place of a layer: a higher one lies over a lower one. -/
def Layer.rank : Layer → Nat
  | .file => 0
  | .environment => 1
  | .options => 2

/-- A layer gives a number. -/
def Supplies (i : Input) (q : Quantity) (n : UInt64) : Layer → Prop
  | .file => ∃ o, FileGives i.files i.config o ∧ given o q = some n
  | .environment => NumberGiven (i.lookup q.variableName) (some n)
  | .options => given i.request.overrides q = some n

/-- The same values but for one number. -/
structure Overrides.SameBut (q : Quantity) (o o' : Overrides) : Prop where
  bundleCache : o'.bundleCache = o.bundleCache
  others : ∀ r, r ≠ q → given o' r = given o r

/-- Two inputs that differ in nothing but the number that a layer gives, which is the first one in
the first input and the second one in the second. -/
inductive DifferIn (q : Quantity) (n n' : UInt64) : Layer → Input → Input → Prop where
  | file {i : Input} {files : FileSystem} {o o' : Overrides}
      (gives : FileGives i.files i.config o) (gives' : FileGives files i.config o')
      (value : given o q = some n) (value' : given o' q = some n') (same : o.SameBut q o') :
      DifferIn q n n' .file i { i with files }
  | environment {i : Input} {lookup : String → Option String}
      (value : NumberGiven (i.lookup q.variableName) (some n))
      (value' : NumberGiven (lookup q.variableName) (some n'))
      (same : ∀ name, name ≠ q.variableName → lookup name = i.lookup name) :
      DifferIn q n n' .environment i { i with lookup }

def loaded (i : Input) : Except SettingsError Settings := load i.files i.config i.lookup

def resolved (i : Input) : Except SettingsError Settings :=
  Validate.settings i.files i.config i.lookup i.request

theorem resolved_eq (i : Input) :
    resolved i = loaded i >>= fun s => s.override i.request.overrides := rfl

/-- Options do not repair what file and variables come to. -/
theorem resolved_of_error {i : Input} {e : SettingsError} (h : loaded i = .error e) :
    resolved i = .error e := by
  rw [resolved_eq, h]
  rfl

theorem resolved_of_ok {i : Input} {s : Settings} (h : loaded i = .ok s) :
    resolved i = (s.merge i.request.overrides).check := by
  rw [resolved_eq, h]
  rfl

/-! ## Settings that differ in one number -/

/-- The same settings but for one number. -/
structure SameBut (q : Quantity) (s s' : Settings) : Prop where
  bundleCache : s'.bundleCache = s.bundleCache
  others : ∀ r, r ≠ q → value s' r = value s r

section SameBut

variable {q : Quantity} {s s' : Settings} {o o' : Overrides}

theorem SameBut.eq_of_value (h : s.SameBut q s') (hvalue : value s' q = value s q) : s' = s := by
  have hall : ∀ r, value s' r = value s r := fun r => by
    by_cases hr : r = q
    · rw [hr, hvalue]
    · exact h.others r hr
  obtain ⟨cache, timeout, jobs⟩ := s
  obtain ⟨cache', timeout', jobs'⟩ := s'
  obtain rfl : cache' = cache := h.bundleCache
  obtain rfl : timeout' = timeout := hall .extractTimeout
  obtain rfl : jobs' = jobs := hall .jobs
  rfl

theorem SameBut.merge (h : s.SameBut q s') (o : Overrides) :
    (s.merge o).SameBut q (s'.merge o) := by
  constructor
  · rw [Settings.merge, Settings.merge, h.bundleCache]
  · intro r hr
    rw [Quantity.value_merge, Quantity.value_merge, h.others r hr]

theorem Overrides.SameBut.merge (h : o.SameBut q o') (s : Settings) :
    Settings.SameBut q (s.merge o) (s.merge o') := by
  constructor
  · rw [Settings.merge, Settings.merge, h.bundleCache]
  · intro r hr
    rw [Quantity.value_merge, Quantity.value_merge, h.others r hr]

/-- A number that is replaced makes no difference. -/
theorem SameBut.merge_eq (h : s.SameBut q s') {m : UInt64} (ho : given o q = some m) :
    s'.merge o = s.merge o := by
  refine (h.merge o).eq_of_value ?_
  rw [Quantity.value_merge, Quantity.value_merge, ho]
  rfl

theorem SameBut.symm (h : s.SameBut q s') : s'.SameBut q s :=
  ⟨h.bundleCache.symm, fun r hr => (h.others r hr).symm⟩

/-- A zero is refused under its name, unless both settings are refused for the other number. -/
theorem SameBut.check_of_zero (h : s.SameBut q s') (hzero : value s q = 0) :
    s.check = .error (.notPositive q.key) ∨ ∃ e, s.check = .error e ∧ s'.check = .error e := by
  cases q with
  | extractTimeout => exact .inl (if_pos hzero)
  | jobs =>
    have htimeout : s'.extractTimeout = s.extractTimeout := h.others .extractTimeout (by decide)
    by_cases hother : s.extractTimeout = 0
    · refine .inr ⟨.notPositive "extract_timeout_secs", if_pos hother, if_pos ?_⟩
      rw [htimeout, hother]
    · left
      rw [check, if_neg hother]
      exact if_pos hzero

/-- Numbers that are zero together are refused together. -/
theorem SameBut.check_cases (h : s.SameBut q s') (hzero : value s q = 0 ↔ value s' q = 0) :
    (s.check = .ok s ∧ s'.check = .ok s') ∨ ∃ e, s.check = .error e ∧ s'.check = .error e := by
  have hall : ∀ r, value s' r = 0 ↔ value s r = 0 := fun r => by
    by_cases hr : r = q
    · rw [hr, hzero]
    · rw [h.others r hr]
  have htimeout : s'.extractTimeout = 0 ↔ s.extractTimeout = 0 := hall .extractTimeout
  have hjobs : s'.jobs = 0 ↔ s.jobs = 0 := hall .jobs
  rw [check, check]
  by_cases ht : s.extractTimeout = 0
  · exact .inr ⟨_, if_pos ht, if_pos (htimeout.2 ht)⟩
  rw [if_neg ht, if_neg fun ht' => ht (htimeout.1 ht')]
  by_cases hj : s.jobs = 0
  · exact .inr ⟨_, if_pos hj, if_pos (hjobs.2 hj)⟩
  · exact .inl ⟨if_neg hj, if_neg fun hj' => hj (hjobs.1 hj')⟩

end SameBut

/-! ## Inputs that differ in one number -/

section DifferIn

variable {q : Quantity} {n n' m : UInt64} {i j : Input}

theorem loaded_eq (i : Input) :
    loaded i = Overrides.ofConfiguration i.files i.config >>= fun file =>
      Overrides.ofVariables i.lookup >>= fun environment =>
        ((default.merge file).merge environment).check := load_eq i.files i.config i.lookup

theorem loaded_of_gives {o : Overrides} (h : FileGives i.files i.config o) :
    loaded i = Overrides.ofVariables i.lookup >>= fun environment =>
      ((default.merge o).merge environment).check := by
  rw [loaded_eq, Overrides.ofConfiguration_eq_ok_iff.2 h]
  rfl

theorem ofVariables_eq (lookup : String → Option String) :
    Overrides.ofVariables lookup =
      (Overrides.ofVariable lookup Overrides.timeoutVariable).bind fun extractTimeout =>
        (Overrides.ofVariable lookup Overrides.jobsVariable).bind fun jobs =>
          .ok ⟨(lookup Overrides.cacheVariable).filter (· ≠ ""), extractTimeout, jobs⟩ := rfl

/-- Variables that differ in one number are read alike but for that number. -/
theorem ofVariables_cases {lookup lookup' : String → Option String}
    (hvalue : NumberGiven (lookup q.variableName) (some n))
    (hvalue' : NumberGiven (lookup' q.variableName) (some n'))
    (hsame : ∀ name, name ≠ q.variableName → lookup' name = lookup name) :
    (∃ e, Overrides.ofVariables lookup = .error e ∧ Overrides.ofVariables lookup' = .error e) ∨
    ∃ o o', Overrides.ofVariables lookup = .ok o ∧ Overrides.ofVariables lookup' = .ok o' ∧
      o.SameBut q o' ∧ given o q = some n ∧ given o' q = some n' := by
  have hread := Overrides.ofVariable_eq_ok_iff.2 hvalue
  have hread' := Overrides.ofVariable_eq_ok_iff.2 hvalue'
  have hcache : lookup' Overrides.cacheVariable = lookup Overrides.cacheVariable :=
    hsame _ (by cases q <;> decide)
  have hother : ∀ name, name ≠ q.variableName →
      Overrides.ofVariable lookup' name = Overrides.ofVariable lookup name := fun name hname => by
    rw [Overrides.ofVariable, Overrides.ofVariable, hsame name hname]
  rw [ofVariables_eq, ofVariables_eq, hcache]
  cases q with
  | extractTimeout =>
    rw [Quantity.variableName] at hread hread'
    rw [hread, hread', hother Overrides.jobsVariable (by decide)]
    cases Overrides.ofVariable lookup Overrides.jobsVariable with
    | error e => exact .inl ⟨e, rfl, rfl⟩
    | ok jobs =>
      refine .inr ⟨_, _, rfl, rfl, ⟨rfl, fun r hr => ?_⟩, rfl, rfl⟩
      cases r with
      | extractTimeout => exact absurd rfl hr
      | jobs => rfl
  | jobs =>
    rw [Quantity.variableName] at hread hread'
    rw [hread, hread', hother Overrides.timeoutVariable (by decide)]
    cases Overrides.ofVariable lookup Overrides.timeoutVariable with
    | error e => exact .inl ⟨e, rfl, rfl⟩
    | ok timeout =>
      refine .inr ⟨_, _, rfl, rfl, ⟨rfl, fun r hr => ?_⟩, rfl, rfl⟩
      cases r with
      | extractTimeout => rfl
      | jobs => exact absurd rfl hr

/-- Variables that can be read give the number of each single one. -/
theorem given_of_ofVariables {lookup : String → Option String} {o : Overrides}
    (h : Overrides.ofVariables lookup = .ok o)
    (hm : NumberGiven (lookup q.variableName) (some m)) : given o q = some m := by
  have hgives := Overrides.ofVariables_eq_ok_iff.1 h
  have hq : NumberGiven (lookup q.variableName) (given o q) := by
    cases q with
    | extractTimeout => exact hgives.extractTimeout
    | jobs => exact hgives.jobs
  rw [← Overrides.ofVariable_eq_ok_iff] at hq hm
  exact Except.ok.inj (hq.symm.trans hm)

/-- Two inputs that differ in a number either fail to be read in the same way or leave settings to
be checked that differ in this number at most. -/
theorem DifferIn.loaded_cases {lower : Layer} (h : DifferIn q n n' lower i j) :
    (∃ e, loaded i = .error e ∧ loaded j = .error e) ∨
    ∃ s s', loaded i = s.check ∧ loaded j = s'.check ∧ s.SameBut q s' ∧
      (s' = s ∨ value s q = n ∧ value s' q = n') ∧
      (lower = .file → ∀ m, Supplies i q m .environment → s' = s) := by
  cases h with
  | @file i files o o' gives gives' hvalue hvalue' hsame =>
    have hi := loaded_of_gives gives
    have hj : loaded { i with files } = _ := loaded_of_gives gives'
    cases hvariables : Overrides.ofVariables i.lookup with
    | error e =>
      rw [hvariables] at hi hj
      exact .inl ⟨e, hi, hj⟩
    | ok environment =>
      rw [hvariables] at hi hj
      refine .inr ⟨_, _, hi, hj, (hsame.merge default).merge environment, ?_, ?_⟩
      · cases hgiven : given environment q with
        | some m => exact .inl (SameBut.merge_eq (hsame.merge default) hgiven)
        | none =>
          right
          simp only [Quantity.value_merge, hgiven, hvalue, hvalue', Option.getD_none,
            Option.getD_some, and_self]
      · intro _ m hm
        exact SameBut.merge_eq (hsame.merge default) (given_of_ofVariables hvariables hm)
  | @environment i lookup hvalue hvalue' hsame =>
    cases hfile : Overrides.ofConfiguration i.files i.config with
    | error e =>
      have hi := loaded_eq i
      have hj := loaded_eq { i with lookup }
      rw [hfile] at hi hj
      exact .inl ⟨e, hi, hj⟩
    | ok file =>
      have hgives := Overrides.ofConfiguration_eq_ok_iff.1 hfile
      have hi := loaded_of_gives hgives
      have hj : loaded { i with lookup } = _ := loaded_of_gives hgives
      rcases ofVariables_cases hvalue hvalue' hsame with
        ⟨e, he, he'⟩ | ⟨o, o', ho, ho', hsame, hgiven, hgiven'⟩
      · rw [he] at hi
        rw [he'] at hj
        exact .inl ⟨e, hi, hj⟩
      · rw [ho] at hi
        rw [ho'] at hj
        refine .inr ⟨_, _, hi, hj, hsame.merge _, .inr ⟨?_, ?_⟩, fun h => by cases h⟩
        · rw [Quantity.value_merge, hgiven, Option.getD_some]
        · rw [Quantity.value_merge, hgiven', Option.getD_some]

theorem DifferIn.request_eq {lower : Layer} (h : DifferIn q n n' lower i j) :
    j.request = i.request := by
  cases h with
  | file => rfl
  | environment => rfl

/-- An option that replaces the number lets through what was loaded, and nothing else. -/
theorem resolved_cases {s s' : Settings} (hi : loaded i = s.check) (hj : loaded j = s'.check)
    (hsame : s.SameBut q s') (hrequest : j.request = i.request)
    (hoption : Supplies i q m .options) :
    ((value s q = 0 ↔ value s' q = 0) → resolved j = resolved i) ∧
    (resolved j = resolved i ∨
      value s q = 0 ∧ loaded i = .error (.notPositive q.key) ∨
      value s' q = 0 ∧ loaded j = .error (.notPositive q.key)) := by
  have hrefused : ∀ e, s.check = .error e → s'.check = .error e → resolved j = resolved i := by
    intro e he he'
    rw [resolved_of_error (hi.trans he), resolved_of_error (hj.trans he')]
  have hboth : (value s q = 0 ↔ value s' q = 0) → resolved j = resolved i := by
    intro hzero
    rcases hsame.check_cases hzero with ⟨hok, hok'⟩ | ⟨e, he, he'⟩
    · rw [resolved_of_ok (hi.trans hok), resolved_of_ok (hj.trans hok'), hrequest,
        hsame.merge_eq hoption]
    · exact hrefused e he he'
  refine ⟨hboth, ?_⟩
  by_cases hzero : value s q = 0
  · rcases hsame.check_of_zero hzero with he | ⟨e, he, he'⟩
    · exact .inr (.inl ⟨hzero, hi.trans he⟩)
    · exact .inl (hrefused e he he')
  · by_cases hzero' : value s' q = 0
    · rcases hsame.symm.check_of_zero hzero' with he' | ⟨e, he', he⟩
      · exact .inr (.inr ⟨hzero', hj.trans he'⟩)
      · exact .inl (hrefused e he he')
    · exact .inl (hboth (iff_of_false hzero hzero'))

/-- A number that a higher layer replaces makes no difference to what the settings come to: they are
the same, or they are refused with the same error. The only exception is a zero on one side that no
variable replaces. If it does make a difference, then the zero is refused under its name before any
option is looked at. -/
theorem resolved_shadowed {lower upper : Layer} (hdiffer : DifferIn q n n' lower i j)
    (hbelow : lower.rank < upper.rank) (hshadow : Supplies i q m upper) :
    (upper = .environment ∨ (n = 0 ↔ n' = 0) → resolved j = resolved i) ∧
    (resolved j = resolved i ∨
      n = 0 ∧ loaded i = .error (.notPositive q.key) ∨
      n' = 0 ∧ loaded j = .error (.notPositive q.key)) := by
  have hrequest := hdiffer.request_eq
  have hequal : loaded j = loaded i → resolved j = resolved i := fun h => by
    rw [resolved_eq, resolved_eq, h, hrequest]
  rcases hdiffer.loaded_cases with ⟨e, hi, hj⟩ | ⟨s, s', hi, hj, hsame, hvalues, hfile⟩
  · have h := hequal (hj.trans hi.symm)
    exact ⟨fun _ => h, .inl h⟩
  · rcases hvalues with rfl | ⟨rfl, rfl⟩
    · have h := hequal (hj.trans hi.symm)
      exact ⟨fun _ => h, .inl h⟩
    · cases upper with
      | file => cases hbelow
      | environment =>
        have hlower : lower = .file := by
          cases lower with
          | file => rfl
          | environment => exact absurd hbelow (lt_irrefl _)
          | options => exact absurd hbelow (by decide)
        obtain rfl := hfile hlower m hshadow
        have h := hequal (hj.trans hi.symm)
        exact ⟨fun _ => h, .inl h⟩
      | options =>
        obtain ⟨hboth, hone⟩ := resolved_cases hi hj hsame hrequest hshadow
        exact ⟨fun h => hboth (h.resolve_left (by decide)), hone⟩

end DifferIn

/-! ## Four workers on the command line -/

/-- Numbers of workers in a file, if one is named, and in a variable, below an option with four. -/
def fourWorkers (files : List (String × FileTree)) (config : Option String) (jobs : String) :
    Input where
  files := ⟨.directory files, none⟩
  config := config
  lookup := fun name => if name = "AMV_JOBS" then some jobs else none
  request := { ValidateRequest.ofDirectory "/a" with overrides := ⟨none, none, some 4⟩ }

def workersFile (jobs : String) : String × FileTree := ("c", .file ("jobs: " ++ jobs).toUTF8)

/-- Not even a zero in the file matters if a variable lies over it. -/
theorem resolved_shadowed_workersFile :
    let i := fourWorkers [workersFile "0"] (some "/c") "3"
    let j := fourWorkers [workersFile "2"] (some "/c") "3"
    DifferIn .jobs 0 2 .file i j ∧ Layer.file.rank < Layer.environment.rank ∧
      Supplies i .jobs 3 .environment ∧ resolved j = resolved i ∧
      resolved i = .ok ⟨none, 120, 4⟩ := by
  intro i j
  have hgives : FileGives i.files i.config ⟨none, none, some 0⟩ :=
    Overrides.ofFile_eq_ok_iff.1 (by decide +kernel)
  have hgives' : FileGives j.files i.config ⟨none, none, some 2⟩ :=
    Overrides.ofFile_eq_ok_iff.1 (by decide +kernel)
  have hdiffer : DifferIn .jobs 0 2 .file i j := by
    refine .file hgives hgives' rfl rfl ⟨rfl, fun r hr => ?_⟩
    cases r with
    | extractTimeout => rfl
    | jobs => exact absurd rfl hr
  have hbelow : Layer.file.rank < Layer.environment.rank := by decide
  have hshadow : Supplies i .jobs 3 .environment :=
    Overrides.ofVariable_eq_ok_iff.1 (by decide +kernel)
  obtain ⟨hsame, -⟩ := resolved_shadowed hdiffer hbelow hshadow
  exact ⟨hdiffer, hbelow, hshadow, hsame (.inl rfl), by decide +kernel⟩

/-- A zero in a variable matters although an option lies over it. -/
theorem resolved_unlike_zero :
    let i := fourWorkers [] none "0"
    let j := fourWorkers [] none "2"
    DifferIn .jobs 0 2 .environment i j ∧ Layer.environment.rank < Layer.options.rank ∧
      Supplies i .jobs 4 .options ∧ resolved i = .error (.notPositive "jobs") ∧
      resolved j = .ok ⟨none, 120, 4⟩ ∧ resolved j ≠ resolved i := by
  intro i j
  have hlookup : ∀ name, name ≠ "AMV_JOBS" → j.lookup name = i.lookup name := fun name hname =>
    (if_neg hname).trans (if_neg hname).symm
  have hi : resolved i = .error (.notPositive "jobs") := by decide +kernel
  have hj : resolved j = .ok ⟨none, 120, 4⟩ := by decide +kernel
  refine ⟨.environment ?_ ?_ hlookup, by decide, rfl, hi, hj, fun h => ?_⟩
  · exact Overrides.ofVariable_eq_ok_iff.1 (by decide +kernel)
  · exact Overrides.ofVariable_eq_ok_iff.1 (by decide +kernel)
  · cases hi.symm.trans (h.symm.trans hj)

end AddonLint.Settings
