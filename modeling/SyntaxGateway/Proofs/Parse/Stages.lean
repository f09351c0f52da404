import SyntaxGateway.Parse
import SyntaxGateway.Proofs.Query.Rendering
import SyntaxGateway.Proofs.Query.Selection

/-!
# The stages of a request

**Theorem (`run_staged`).** A request is checked first: its mode, its filter, its language. The first
check that fails decides the answer, and the client is not called. When all pass, the client is
called once, with what the checks found, and its answer is passed on: its own failure as it is, a
tree that cannot be read as a failure of the service, any other tree whole or as the matches of the
filter in it.

What each check accepts and refuses is said without the check (`ModeKnown`, `HasQuery`, `Refuses`),
and so is what is made of an answer (`Reports`). That a call is made is not read off the result alone:
the lines that a client logs when it is called appear once for every call that the result names.
-/

namespace SyntaxGateway

variable {s : String} {f : Failure}

/-! ## The checks -/

namespace ParseRequest

variable {r : ParseRequest}

/-- The mode is one of the four. No mode means the empty one. -/
def ModeKnown (r : ParseRequest) : Prop :=
  r.mode.getD "" ∈ ["", "native", "annotated", "semantic"]

/-- What the filter asks for: nothing if there is none or only blanks, else the query that it is read
as without the blanks at its ends. -/
inductive HasQuery (r : ParseRequest) : Option Query → Prop
  | blank : (∀ text, r.filter = some text → Text.trim text = "") → HasQuery r none
  | query {text : String} {q : Query} : r.filter = some text → Text.trim text ≠ "" →
      Query.parse (Text.trim text) = .ok q → HasQuery r (some q)

/-- The filter is blank or can be read. -/
def FilterReads (r : ParseRequest) : Prop := ∃ query, r.HasQuery query

def LanguageResolves (r : ParseRequest) : Prop := ∃ language, r.resolveLanguage.value = .ok language

/-- The failure of the first check that does not pass. -/
inductive Refuses (r : ParseRequest) : Failure → Prop
  | mode : ¬r.ModeKnown → Refuses r (.invalidMode (r.mode.getD ""))
  | filter {text : String} {fault : Query.Fault} : r.ModeKnown → r.filter = some text →
      Text.trim text ≠ "" → Query.parse (Text.trim text) = .error fault →
      Refuses r (.ofQuery fault)
  | language : r.ModeKnown → r.FilterReads → ¬r.LanguageResolves → Refuses r .languageUnresolved

/-- The call that is made for the request. -/
structure Forwards (r : ParseRequest) (call : Service.Request) : Prop where
  content : call.content = r.content
  fileName : call.fileName = r.fileName.getD ""
  language : r.resolveLanguage.value = .ok call.language
  mode : call.mode.text = r.mode.getD ""

/-- What is made of the answer of the client. -/
inductive Reports (r : ParseRequest) : Service.Answer → Outcome (List Node) → Prop
  | source (errors : List String) : Reports r (.error (.source errors)) (.error (.source errors))
  | unavailable (detail : String) :
      Reports r (.error (.unavailable detail)) (.error (.unavailable detail))
  | unreadable {bytes : Bytes} {fault : TreeFault} : Node.decode bytes = .error fault →
      Reports r (.ok bytes) (.error (.unavailable
        ("service returned an unreadable tree: " ++ decodeErrorMessage fault.message)))
  | root {bytes : Bytes} {root : Node} : Node.decode bytes = .ok root → r.HasQuery none →
      Reports r (.ok bytes) (.ok [root])
  | filtered {bytes : Bytes} {root : Node} {q : Query} {places : List Place} {nodes : List Node} :
      Node.decode bytes = .ok root → r.HasQuery (some q) → q.Matches root places nodes →
      Reports r (.ok bytes) (.ok nodes)

/-- The result of a request with the help of a client. -/
structure Staged (client : Service.Client) (r : ParseRequest) (result : ParseResult) : Prop where
  calls_le : result.calls.length ≤ 1
  called_iff : result.calls.length = 1 ↔ r.ModeKnown ∧ r.FilterReads ∧ r.LanguageResolves
  refused : result.calls = [] → ∃ f, r.Refuses f ∧ result.outcome = .error f
  forwarded : ∀ call ∈ result.calls, r.Forwards call
  reported : ∀ call ∈ result.calls, r.Reports (client call).value result.outcome

end ParseRequest

/-! ## What each check does -/

namespace Mode

theorem text_mem (mode : Mode) : mode.text ∈ ["", "native", "annotated", "semantic"] := by
  cases mode <;> decide

theorem exists_text_eq (h : s ∈ ["", "native", "annotated", "semantic"]) :
    ∃ mode : Mode, mode.text = s := by
  simp only [List.mem_cons, List.not_mem_nil, or_false] at h
  rcases h with rfl | rfl | rfl | rfl
  · exact ⟨.unspecified, rfl⟩
  · exact ⟨.native, rfl⟩
  · exact ⟨.annotated, rfl⟩
  · exact ⟨.semantic, rfl⟩

theorem parse_text (mode : Mode) : Mode.parse mode.text = .ok mode := by
  cases mode <;> rfl

/-- A text that no mode has is reported as it is. -/
theorem parse_eq_invalidMode (h : s ∉ ["", "native", "annotated", "semantic"]) :
    Mode.parse s = .error (.invalidMode s) := by
  have hnone : all.find? (·.text = s) = none := by
    rw [List.find?_eq_none]
    intro mode _ htext
    rw [decide_eq_true_eq] at htext
    exact h (htext ▸ mode.text_mem)
  rw [Mode.parse, hnone]

end Mode

namespace ParseRequest

variable {r : ParseRequest}

theorem HasQuery.query?_eq {query : Option Query} (h : r.HasQuery query) :
    r.query? = .ok query := by
  cases h with
  | blank hblank =>
    cases hfilter : r.filter with
    | none => simp [query?, hfilter]
    | some text => simp [query?, hfilter, hblank text hfilter]
  | query hfilter hne hparse => simp [query?, hfilter, hne, hparse]

/-- A filter is blank, or it is read as a query, or it cannot be read. -/
theorem hasQuery_or_fault (r : ParseRequest) :
    (∃ query, r.HasQuery query) ∨ ∃ text fault, r.filter = some text ∧ Text.trim text ≠ "" ∧
      Query.parse (Text.trim text) = .error fault := by
  cases hfilter : r.filter with
  | none => exact .inl ⟨none, .blank (by simp [hfilter])⟩
  | some text =>
    by_cases hblank : Text.trim text = ""
    · exact .inl ⟨none, .blank (by simp [hfilter, hblank])⟩
    · cases hparse : Query.parse (Text.trim text) with
      | ok q => exact .inl ⟨some q, .query hfilter hblank hparse⟩
      | error fault => exact .inr ⟨text, fault, rfl, hblank, hparse⟩

/-- A language that does not resolve is reported as just that. -/
theorem resolveLanguage_eq_error (h : r.resolveLanguage.value = .error f) :
    f = .languageUnresolved := by
  rw [resolveLanguage] at h
  split at h
  · cases h
  · simp only [Logged.value_bind] at h
    split at h
    · cases h
      rfl
    · cases h

/-- A language that is named always resolves. -/
theorem languageResolves_of_named {named : String} (h : r.language = some named)
    (hne : Text.trim named ≠ "") : r.LanguageResolves := by
  refine ⟨(Language.find? (Text.trim named)).elim (Text.trim named) (·.serviceId), ?_⟩
  rw [resolveLanguage, h, Option.map_some, Option.getD_some, if_pos hne]
  rfl

/-- A filter that cannot be read is reported when the mode is known. -/
theorem plan_of_fault {text : String} {fault : Query.Fault} (hmode : r.ModeKnown)
    (hfilter : r.filter = some text) (hne : Text.trim text ≠ "")
    (hfault : Query.parse (Text.trim text) = .error fault) :
    r.plan.value = .error (.ofQuery fault) := by
  obtain ⟨mode, htext⟩ := Mode.exists_text_eq hmode
  have hparse : Mode.parse (r.mode.getD "") = .ok mode := htext ▸ mode.parse_text
  simp [plan, hparse, query?, hfilter, hne, hfault]

/-- Either a check refuses the request, or all pass and the plan is made of what they found. -/
theorem plan_cases (r : ParseRequest) :
    (∃ f, r.Refuses f ∧ r.plan.value = .error f) ∨
      ∃ plan, r.plan.value = .ok plan ∧ r.ModeKnown ∧ r.HasQuery plan.query ∧
        r.Forwards plan.call := by
  by_cases hmode : r.ModeKnown
  · obtain ⟨mode, htext⟩ := Mode.exists_text_eq hmode
    have hparse : Mode.parse (r.mode.getD "") = .ok mode := htext ▸ mode.parse_text
    obtain ⟨query, hquery⟩ | ⟨text, fault, hfilter, hne, hfault⟩ := r.hasQuery_or_fault
    · cases hlanguage : r.resolveLanguage.value with
      | error f =>
        obtain rfl := resolveLanguage_eq_error hlanguage
        have hunresolved : ¬r.LanguageResolves := by simp [LanguageResolves, hlanguage]
        refine .inl ⟨_, .language hmode ⟨query, hquery⟩ hunresolved, ?_⟩
        simp [plan, hparse, hquery.query?_eq, hlanguage]
      | ok language =>
        refine .inr ⟨⟨⟨r.content, r.fileName.getD "", language, mode⟩, query⟩, ?_, hmode, hquery,
          rfl, rfl, hlanguage, htext⟩
        simp [plan, hparse, hquery.query?_eq, hlanguage]
    · exact .inl ⟨_, .filter hmode hfilter hne hfault, plan_of_fault hmode hfilter hne hfault⟩
  · refine .inl ⟨_, .mode hmode, ?_⟩
    simp [plan, Mode.parse_eq_invalidMode hmode]

/-- A request that a check refuses does not pass them all. -/
theorem Refuses.not_passes (h : r.Refuses f) :
    ¬(r.ModeKnown ∧ r.FilterReads ∧ r.LanguageResolves) := by
  rintro ⟨hmode, ⟨query, hquery⟩, hlanguage⟩
  cases h with
  | mode hunknown => exact hunknown hmode
  | filter _ hfilter hne hfault =>
    cases hquery with
    | blank hblank => exact hne (hblank _ hfilter)
    | query hfilter' _ hparse =>
      obtain rfl := Option.some.inj (hfilter.symm.trans hfilter')
      rw [hfault] at hparse
      cases hparse
  | language _ _ hunresolved => exact hunresolved hlanguage

/-! ## The call -/

theorem HasQuery.steps_ne_nil {q : Query} (h : r.HasQuery (some q)) : q.steps ≠ [] := by
  cases h with | query _ _ hparse => exact (Query.writable_of_parse hparse).nonempty

theorem HasQuery.reports_nodesOf {query : Option Query} (h : r.HasQuery query)
    (answer : Service.Answer) : r.Reports answer (nodesOf query answer) := by
  cases answer with
  | error trouble =>
    cases trouble with
    | source errors => exact .source errors
    | unavailable detail => exact .unavailable detail
  | ok bytes =>
    cases hdecode : Node.decode bytes with
    | error fault =>
      rw [nodesOf, hdecode]
      exact .unreadable hdecode
    | ok root =>
      cases query with
      | none => simpa [nodesOf, hdecode] using Reports.root hdecode h
      | some q =>
        obtain ⟨places, hmatches⟩ := q.exists_matches root h.steps_ne_nil
        simpa [nodesOf, hdecode] using Reports.filtered hdecode h hmatches

theorem run_of_plan_error (client : Service.Client) (h : r.plan.value = .error f) :
    (r.run client).value = ⟨.error f, []⟩ ∧ (r.run client).lines = r.plan.lines := by
  simp [run, h]

theorem run_of_plan_ok (client : Service.Client) {plan : ParsePlan} (h : r.plan.value = .ok plan) :
    (r.run client).value = ⟨nodesOf plan.query (client plan.call).value, [plan.call]⟩ ∧
      (r.run client).lines = r.plan.lines ++ (client plan.call).lines := by
  simp [run, h]

/-- When all checks pass, the outcome is what is made of the answer to the call. -/
theorem run_of_answer {client : Service.Client} {query : Option Query} {answer : Service.Answer}
    (hmode : r.ModeKnown) (hquery : r.HasQuery query) (hlanguage : r.LanguageResolves)
    (hclient : ∀ call, r.Forwards call → (client call).value = answer) :
    (r.run client).value.outcome = nodesOf query answer := by
  obtain ⟨f, hrefuses, -⟩ | ⟨plan, hplan, -, hplanned, hforwards⟩ := r.plan_cases
  · exact absurd ⟨hmode, ⟨_, hquery⟩, hlanguage⟩ hrefuses.not_passes
  · have hsame : plan.query = query :=
      Except.ok.inj (hplanned.query?_eq.symm.trans hquery.query?_eq)
    rw [(run_of_plan_ok client hplan).1, hclient _ hforwards, hsame]

/-- The checks of a request come first, the first that fails decides its answer, and the client is
called once when all pass. The lines that it logs then stand behind those of the checks. -/
theorem run_staged (client : Service.Client) (r : ParseRequest) :
    Staged client r (r.run client).value ∧
      (r.run client).lines =
        r.plan.lines ++ (r.run client).value.calls.flatMap fun call => (client call).lines := by
  obtain ⟨f, hrefuses, hplan⟩ | ⟨plan, hplan, hmode, hquery, hforwards⟩ := r.plan_cases
  · obtain ⟨hvalue, hlines⟩ := run_of_plan_error client hplan
    rw [hvalue, hlines]
    refine ⟨⟨by simp, ?_, fun _ => ⟨f, hrefuses, rfl⟩, by simp, by simp⟩, by simp⟩
    exact iff_of_false (by simp) hrefuses.not_passes
  · obtain ⟨hvalue, hlines⟩ := run_of_plan_ok client hplan
    rw [hvalue, hlines]
    refine ⟨⟨by simp, ?_, by simp, by simpa using hforwards, ?_⟩, by simp⟩
    · exact iff_of_true rfl ⟨hmode, ⟨_, hquery⟩, _, hforwards.language⟩
    · simpa using hquery.reports_nodesOf (client plan.call).value

end ParseRequest

end SyntaxGateway
