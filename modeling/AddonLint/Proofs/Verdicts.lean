import AddonLint.Proofs.Pipelines
import AddonLint.Proofs.TextReport
import AddonLint.Validate

/-!
# One verdict in several forms

The exit code, the member of the JSON document, the counts and the text report come from different
parts of a report. They agree because each rule that ran is counted as passed or listed, and the
text report can be written down from the JSON document alone.
-/
namespace AddonLint

namespace Json

def items? : Json → Option (List Json)
  | .arr items => some items
  | _ => none

def number? : Json → Option Int
  | .int n => some n
  | _ => none

theorem exists_intercalate_concat (sep : String) (texts : List String) (last : String) :
    ∃ front, String.intercalate sep (texts ++ [last]) = front ++ last := by
  induction texts with
  | nil => exact ⟨"", by simp⟩
  | cons text rest ih =>
    obtain ⟨front, hfront⟩ := ih
    obtain ⟨next, more, hmore⟩ := List.exists_cons_of_ne_nil
      (List.append_ne_nil_of_right_ne_nil rest (List.cons_ne_nil last []))
    refine ⟨text ++ sep ++ front, ?_⟩
    rw [List.cons_append, hmore, String.intercalate_cons_cons, ← hmore, hfront,
      String.append_assoc, String.append_assoc, String.append_assoc]

theorem prettyMembers_concat (depth : Nat) (members : List (String × Json)) (name : String)
    (value : Json) : prettyMembers depth (members ++ [(name, value)]) =
      prettyMembers depth members ++ [stringText name ++ ": " ++ prettyAt depth value] := by
  induction members with
  | nil => rfl
  | cons member rest ih =>
    obtain ⟨name', value'⟩ := member
    rw [List.cons_append, prettyMembers, prettyMembers, ih]
    rfl

/-- An object ends with its last member. -/
theorem exists_pretty_concat (members : List (String × Json)) (name : String) (value : Json) :
    ∃ front, (Json.obj (members ++ [(name, value)])).pretty =
      front ++ (stringText name ++ ": " ++ prettyAt 1 value ++ "\n\x7d") := by
  have hbracket : ∀ items last, ∃ front,
      bracket "\x7b" "\x7d" 0 (items ++ [last]) = front ++ (last ++ "\n\x7d") := by
    intro items last
    obtain ⟨front, hfront⟩ := exists_intercalate_concat ("," ++ newline 1) items last
    have hne : items ++ [last] ≠ [] :=
      List.append_ne_nil_of_right_ne_nil items (List.cons_ne_nil last [])
    refine ⟨"\x7b" ++ newline 1 ++ front, ?_⟩
    unfold bracket
    split
    · rename_i hnil
      exact absurd hnil hne
    · rw [hfront]
      simp only [String.append_assoc]
      rfl
  rw [pretty, prettyAt, prettyMembers_concat]
  exact hbracket _ _

end Json

namespace Report

def failureLine? (item : Json) : Option String := do
  let code ← (← item.field? "code").text?
  let name ← (← item.field? "name").text?
  let message ← (← item.field? "message").text?
  return "FAIL " ++ code ++ " " ++ name ++ ": " ++ message

def errorLine? (item : Json) : Option String := do
  let code ← (← item.field? "code").text?
  let error ← (← item.field? "error").text?
  return "ERROR " ++ code ++ ": " ++ error

/-- The lines of the text report, written down from a JSON document. -/
def retold? (document : Json) : Option (List String) := do
  let failures ← (← (← document.field? "failures").items?).mapM failureLine?
  let errors ← (← (← document.field? "hard_errors").items?).mapM errorLine?
  let passed ← (← document.field? "passed").number?
  let executed ← (← document.field? "executed").number?
  return failures ++ errors ++ [toString passed ++ "/" ++ toString executed ++ " rules passed"]

/-- A JSON value has the members of a violation. -/
structure ShowsFailure (item : Json) (f : Failure) : Prop where
  code : item.field? "code" = some (.str f.code)
  name : item.field? "name" = some (.str f.name)
  message : item.field? "message" = some (.str f.message)

/-- A JSON value has the members of a hard error. -/
structure ShowsError (item : Json) (e : HardError) : Prop where
  code : item.field? "code" = some (.str e.code)
  error : item.field? "error" = some (.str e.error.message)

/-- A JSON document has the members of a report. -/
structure Shows (document : Json) (r : Report) : Prop where
  executed : document.field? "executed" = some (.int r.executed)
  passed : document.field? "passed" = some (.int r.passed)
  failures : ∃ items, document.field? "failures" = some (.arr items) ∧
    List.Forall₂ ShowsFailure items r.failures
  hardErrors : ∃ items, document.field? "hard_errors" = some (.arr items) ∧
    List.Forall₂ ShowsError items r.hardErrors

theorem ShowsFailure.line {item : Json} {f : Failure} (h : ShowsFailure item f) :
    failureLine? item = some ("FAIL " ++ f.code ++ " " ++ f.name ++ ": " ++ f.message) := by
  simp [failureLine?, h.code, h.name, h.message, Json.text?]

theorem ShowsError.line {item : Json} {e : HardError} (h : ShowsError item e) :
    errorLine? item = some ("ERROR " ++ e.code ++ ": " ++ e.error.message) := by
  simp [errorLine?, h.code, h.error, Json.text?]

/-- A document that has the members of a report retells the lines of its text. -/
theorem Shows.retold {document : Json} {r : Report} (h : Shows document r) :
    retold? document = some r.documented := by
  obtain ⟨failures, hfailures, hfailuresShow⟩ := h.failures
  obtain ⟨hardErrors, hhardErrors, hhardErrorsShow⟩ := h.hardErrors
  have hfailureLines : failures.mapM failureLine? = some (r.failures.map fun f =>
      "FAIL " ++ f.code ++ " " ++ f.name ++ ": " ++ f.message) := by
    refine Fallible.mapM_eq_some (List.forall₂_map_right_iff.2 ?_)
    exact hfailuresShow.imp fun item f => ShowsFailure.line
  have herrorLines : hardErrors.mapM errorLine? = some (r.hardErrors.map fun e =>
      "ERROR " ++ e.code ++ ": " ++ e.error.message) := by
    refine Fallible.mapM_eq_some (List.forall₂_map_right_iff.2 ?_)
    exact hhardErrorsShow.imp fun item e => ShowsError.line
  have hcount : ∀ n : Nat, (n : Int).repr = n.repr := fun _ => rfl
  simp [retold?, hfailures, hhardErrors, h.executed, h.passed, Json.items?, Json.number?,
    hfailureLines, herrorLines, documented, hcount]

/-- The JSON document has everything that the text report says. -/
theorem shows_toJson (r : Report) (subject : Subject) (now : Instant) :
    Shows (r.toJson subject now) r where
  executed := rfl
  passed := rfl
  failures := by
    refine ⟨_, rfl, List.forall₂_map_left_iff.2 (List.forall₂_same.2 fun f _ => ?_)⟩
    exact ⟨rfl, rfl, rfl⟩
  hardErrors := by
    refine ⟨_, rfl, List.forall₂_map_left_iff.2 (List.forall₂_same.2 fun e _ => ?_)⟩
    exact ⟨rfl, rfl⟩

/-! ### The verdicts -/

/-- The only line of a text report on rules that all passed. -/
def allPassed (count : Nat) : String :=
  toString count ++ "/" ++ toString count ++ " rules passed"

theorem exitCode_eq_zero_iff {r : Report} : Validate.exitCode r = 0 ↔ r.isSuccess = true := by
  unfold Validate.exitCode
  cases r.isSuccess with
  | false => decide
  | true => decide

theorem toText_of_isSuccess {r : Report} (h : r.isSuccess = true) :
    r.toText = r.summaryLine ++ "\n" := by
  simp only [isSuccess, Bool.and_eq_true, List.isEmpty_iff] at h
  simp [toText, h.1, h.2, joinLines]

/-- A text report of one line lists nothing. -/
theorem isSuccess_of_length_lines {r : Report} (h : (Text.lines r.toText).length = 1) :
    r.isSuccess = true := by
  rw [toText_eq_joinLines, Text.length_lines_joinLines, documented] at h
  simp only [List.length_append, List.length_map, List.length_singleton] at h
  have hfailures : r.failures.length = 0 := by omega
  have hhardErrors : r.hardErrors.length = 0 := by omega
  rw [List.length_eq_zero_iff] at hfailures hhardErrors
  rw [isSuccess, hfailures, hhardErrors]
  rfl

theorem lines_allPassed (count : Nat) :
    (Text.lines (allPassed count ++ "\n")).length = 1 := by
  have hbreaks : Text.totalBreaks [allPassed count] = 0 := by
    simp (disch := decide) [allPassed]
  have hjoin : allPassed count ++ "\n" = joinLines [allPassed count] := by simp [joinLines]
  rw [hjoin, Text.length_lines_joinLines, hbreaks]
  rfl

/-- A report is that single line exactly if it is a success. -/
theorem toText_eq_allPassed_iff (entries : List Entry) :
    (ofEntries entries).toText = allPassed (ofEntries entries).executed ++ "\n" ↔
      (ofEntries entries).isSuccess = true := by
  constructor
  · intro h
    apply isSuccess_of_length_lines
    rw [h, lines_allPassed]
  · intro h
    rw [toText_of_isSuccess h, summaryLine, (isSuccess_iff entries).1 h]
    rfl

/-- The end of a printed JSON document. -/
def successLine (success : String) : String := "\x22success\x22: " ++ success ++ "\n\x7d\n"

theorem exists_render_json (r : Report) (subject : Subject) (now : Instant) :
    ∃ front, r.render subject .json now =
      front ++ successLine (if r.isSuccess then "true" else "false") := by
  obtain ⟨members, hmembers⟩ : ∃ members,
      r.toJson subject now = .obj (members ++ [("success", .bool r.isSuccess)]) :=
    ⟨[_, _, _, _, _, _, _, _, _], rfl⟩
  obtain ⟨front, hfront⟩ := Json.exists_pretty_concat members "success" (.bool r.isSuccess)
  have hname : Json.stringText "success" = "\x22success\x22" := by decide
  refine ⟨front, ?_⟩
  rw [render, hmembers, hfront, hname, successLine]
  simp only [String.append_assoc]
  cases r.isSuccess with
  | false => rfl
  | true => rfl

/-- Whether a report is a success can be read off the end of its document. -/
theorem render_json_ends_iff {r : Report} {subject : Subject} {now : Instant} :
    (∃ front, r.render subject .json now = front ++ successLine "true") ↔
      r.isSuccess = true := by
  obtain ⟨front, hfront⟩ := exists_render_json r subject now
  constructor
  · rintro ⟨front', hfront'⟩
    by_contra hfails
    rw [if_neg hfails, hfront'] at hfront
    -- The two endings are of one length from the second letter of the shorter word on.
    have hends : (front' ++ "\x22success\x22: ").toList ++ "true\n\x7d\n".toList =
        (front ++ "\x22success\x22: f").toList ++ "alse\n\x7d\n".toList := by
      have hlists := congrArg String.toList hfront
      simpa [successLine] using hlists
    have hend := (List.append_inj' hends rfl).2
    exact absurd hend (by decide)
  · intro h
    rw [if_pos h] at hfront
    exact ⟨front, hfront⟩

theorem isSuccess_iff_of_run {p : Pipeline} {directory : String} {environment : Environment}
    {request : VersionRequest} {filter : Filter} {v : Validation}
    (h : p.run directory environment request filter = .ok v) :
    (v.report.passed = v.report.executed ↔ v.report.isSuccess = true) ∧
    (v.report.toText = allPassed v.report.executed ++ "\n" ↔ v.report.isSuccess = true) := by
  obtain ⟨manifest, artifact, bundles, -, -, -, -, hreport⟩ := Pipeline.run_eq_ok_iff.1 h
  rw [hreport, Run.report_eq_ofEntries]
  exact ⟨(isSuccess_iff _).symm, toText_eq_allPassed_iff _⟩

end Report

open Report in
/-- The verdicts on a run agree, and its JSON document tells what its text report tells. -/
theorem Validation.verdicts {p : Pipeline} {directory : String} {environment : Environment}
    {request : VersionRequest} {filter : Filter} {v : Validation}
    (h : p.run directory environment request filter = .ok v) (now : Instant) :
    let r := v.report
    let document := r.toJson v.subject now
    let text := r.render v.subject .text now
    let json := r.render v.subject .json now
    (Validate.exitCode r = 0 ↔ r.isSuccess = true) ∧
    (document.field? "success" = some (.bool true) ↔ r.isSuccess = true) ∧
    (r.passed = r.executed ↔ r.isSuccess = true) ∧
    (text = allPassed r.executed ++ "\n" ↔ r.isSuccess = true) ∧
    ((∃ front, json = front ++ successLine "true") ↔ r.isSuccess = true) ∧
    json = document.pretty ++ "\n" ∧
    Shows document r ∧
    retold? document = some r.documented ∧ text = joinLines r.documented ∧
    (∀ fs config lookup asked, Validate.validation fs config lookup asked = .ok v →
      Validate.run fs config lookup now asked =
        .ok ⟨Validate.exitCode r, r.render v.subject asked.format now, none⟩) := by
  intro r document text json
  obtain ⟨hcounts, htext⟩ := isSuccess_iff_of_run h
  have hshows : Shows document r := shows_toJson r v.subject now
  have hfield : document.field? "success" = some (.bool r.isSuccess) := rfl
  refine ⟨exitCode_eq_zero_iff, ?_, hcounts, htext, render_json_ends_iff, rfl, hshows,
    hshows.retold, toText_eq_joinLines r, ?_⟩
  · rw [hfield]
    simp
  · intro fs config lookup asked hvalidation
    rw [Validate.run, hvalidation]
    rfl

/-- A rule that accepts addons in production only. -/
def Rule.cautious : Rule :=
  ⟨"AM0", "cautious", "", fun subject =>
    .verdict (.check (subject.environment = .production) "not yet")⟩

def Pipeline.cautious : Pipeline :=
  { Pipeline.obliging with registry := Registry.ofOffers [Rule.cautious] }

theorem Pipeline.run_cautious (environment : Environment) :
    ∃ v, Pipeline.cautious.run "/a" environment .latest .all = .ok v ∧
      v.report = Report.ofEntries [.ofRule v.subject Rule.cautious] ∧
      v.subject.environment = environment := by
  have hselect : Filter.all.select Pipeline.cautious.registry = [Rule.cautious] := rfl
  refine ⟨_, run_obliging Pipeline.cautious.registry environment, ?_, rfl⟩
  dsimp only
  rw [Run.report_eq_ofEntries, hselect]
  rfl

open Report in
theorem Validation.verdicts_cautious :
    ∃ accepted refused,
      Pipeline.cautious.run "/a" .production .latest .all = .ok accepted ∧
      Pipeline.cautious.run "/a" .stage .latest .all = .ok refused ∧
      accepted.report.render accepted.subject .text ⟨0, 0⟩ = "1/1 rules passed\n" ∧
      retold? (refused.report.toJson refused.subject ⟨0, 0⟩) =
        some ["FAIL AM0 cautious: not yet", "0/1 rules passed"] := by
  obtain ⟨accepted, haccepted, hreport, henvironment⟩ := Pipeline.run_cautious .production
  obtain ⟨refused, hrefused, hreport', henvironment'⟩ := Pipeline.run_cautious .stage
  have hpass : Entry.ofRule accepted.subject Rule.cautious = ⟨Rule.cautious, .ok .pass⟩ := by
    simp [Entry.ofRule, Rule.outcome, Rule.cautious, henvironment, RunnerEnd.outcome,
      Verdict.check]
  have hfail : Entry.ofRule refused.subject Rule.cautious =
      ⟨Rule.cautious, .ok (.fail "not yet")⟩ := by
    simp [Entry.ofRule, Rule.outcome, Rule.cautious, henvironment', RunnerEnd.outcome,
      Verdict.check]
  rw [hpass, ofEntries, List.mergeSort_singleton] at hreport
  rw [hfail, ofEntries, List.mergeSort_singleton] at hreport'
  obtain ⟨-, -, -, htext, -⟩ := Validation.verdicts haccepted ⟨0, 0⟩
  obtain ⟨-, -, -, -, -, -, -, hretold, -⟩ := Validation.verdicts hrefused ⟨0, 0⟩
  have hsuccess : accepted.report.isSuccess = true := by
    rw [hreport]
    decide
  refine ⟨accepted, refused, haccepted, hrefused, ?_, ?_⟩
  · refine (htext.2 hsuccess).trans ?_
    rw [hreport]
    decide
  · rw [hretold, hreport']
    decide

end AddonLint
