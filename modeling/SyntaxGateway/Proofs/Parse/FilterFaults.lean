import SyntaxGateway.Proofs.Filter
import SyntaxGateway.Proofs.Parse.Stages
import SyntaxGateway.Proofs.Query.Trimming

/-!
# Faults of a filter

A filter is read in two places: in a request to parse, without the blanks at its ends, and beside a
batch, as it stands.

**Theorem (`run_filter_fault`).** A filter that cannot be read is reported in both places. Beside a
batch, the fault is the one of the request moved by the blanks around the filter. So the two reports
are the same exactly when no blanks stand in front and, if the query ends too early, none behind it.
-/

namespace SyntaxGateway

variable {lead trail : List Char}

/-! ## Reports apart -/

namespace Query

/-- The query ends where something is missing. -/
def Fault.AtEnd (fault : Fault) : Prop := ∃ what, fault.problem = .expected what none

theorem message_found_ne_end (what : Expected) (c : Char) :
    (Problem.expected what (some c)).message ≠ (Problem.expected what none).message := by
  intro h
  have hquote : (Problem.expected what (some c)).message.toList.getLast? = some '\'' := by
    rw [Problem.message, String.toList_append, List.getLast?_append]
    rfl
  have hletter : (Problem.expected what none).message.toList.getLast? = some 'd' := by
    rw [Problem.message, String.toList_append, List.getLast?_append]
    rfl
  rw [h, hletter] at hquote
  cases hquote

end Query

theorem ofQuery_moved_iff {n : Nat} {problem : Query.Problem} :
    Failure.ofQuery ⟨Query.byteCount lead + n, problem⟩ = Failure.ofQuery ⟨n, problem⟩ ↔
      lead = [] := by
  rw [← Query.byteCount_eq_zero_iff]
  simp [Failure.ofQuery]

theorem ofQuery_padded_end_iff {n : Nat} {what : Query.Expected} :
    Failure.ofQuery ((Query.Fault.mk n (.expected what none)).padded lead trail) =
      .ofQuery ⟨n, .expected what none⟩ ↔ lead = [] ∧ trail = [] := by
  by_cases hwhat : what = .attributeName
  · subst hwhat
    cases trail with
    | nil => exact ofQuery_moved_iff.trans (and_iff_left rfl).symm
    | cons c trail =>
      have hne := Query.message_found_ne_end .attributeName c
      simp [Failure.ofQuery, Query.Fault.padded, hne]
  · rw [Query.Fault.padded_end hwhat, Nat.add_right_comm, ← Query.byteCount_append,
      ofQuery_moved_iff, List.append_eq_nil_iff]

/-- The blanks around a text show in the report of its fault, but for those behind a fault that is not
at the end. -/
theorem ofQuery_padded_iff (fault : Query.Fault) :
    Failure.ofQuery (fault.padded lead trail) = Failure.ofQuery fault ↔
      lead = [] ∧ (trail = [] ∨ ¬fault.AtEnd) := by
  obtain ⟨n, problem⟩ := fault
  cases problem with
  | expected what found =>
    cases found with
    | none =>
      rw [ofQuery_padded_end_iff]
      simp [Query.Fault.AtEnd]
    | some c =>
      rw [Query.Fault.padded_found, ofQuery_moved_iff]
      simp [Query.Fault.AtEnd]
  | empty | openLiteral =>
    refine ofQuery_moved_iff.trans ?_
    simp [Query.Fault.AtEnd]

/-! ## The two reports -/

/-- A request whose filter is `text`, where `text` is more than blanks and cannot be read, and a batch
that can be decoded. -/
structure FilterFails (r : ParseRequest) (text batch : String) : Prop where
  mode : r.ModeKnown
  filter : r.filter = some text
  solid : ∃ c ∈ text.toList, Text.isBlank c = false
  unreadable : ∃ fault, Query.parse text = .error fault
  decodes : ∃ trees, Batch.decodeBase64 batch = .ok trees

/-- The request reports the fault of the text without the blanks at its ends, and the client is not
called. Beside the batch, the fault is moved by the blanks. -/
theorem run_filter_fault (client : Service.Client) {r : ParseRequest} {text batch : String}
    (h : FilterFails r text batch) :
    ∃ fault, Query.parse (Text.trim text) = .error fault ∧
      (r.run client).value = ⟨.error (.ofQuery fault), []⟩ ∧
      (FilterRequest.run ⟨batch, text⟩).value =
        .error (.ofQuery (fault.padded (Query.leading text) (Query.trailing text))) ∧
      ((FilterRequest.run ⟨batch, text⟩).value = (r.run client).value.outcome ↔
        Query.leading text = [] ∧ (Query.trailing text = [] ∨ ¬fault.AtEnd)) := by
  obtain ⟨hmode, hfilter, hsolid, ⟨whole, hwhole⟩, ⟨trees, htrees⟩⟩ := h
  have hne := Query.trim_ne_empty hsolid
  have htrim := Query.parse_eq_parse_trim hne
  cases hfault : Query.parse (Text.trim text) with
  | ok q =>
    rw [hfault, hwhole] at htrim
    cases htrim
  | error fault =>
    rw [hfault] at htrim
    have hplan := ParseRequest.plan_of_fault hmode hfilter hne hfault
    have hrun := (ParseRequest.run_of_plan_error client hplan).1
    have hbatch := filterRun_of_fault htrees htrim
    refine ⟨fault, rfl, hrun, hbatch, ?_⟩
    rw [hbatch, hrun, ← ofQuery_padded_iff]
    exact ⟨Except.error.inj, congrArg _⟩

theorem decodeBase64_empty : Batch.decodeBase64 "" = .ok [] := by
  have hbytes : Base64.decode (Utf8.ofString (Text.trim "")) = .ok [] := rfl
  rw [Batch.decodeBase64, hbytes]
  change Batch.decode [] = .ok []
  rw [Batch.decode, Batch.split, Batch.splitFrom]
  rfl

theorem filterFails_indented :
    FilterFails ⟨"x", none, some "python", none, some " ["⟩ " [" "" where
  mode := by simp [ParseRequest.ModeKnown]
  filter := rfl
  solid := ⟨'[', by decide, by decide⟩
  unreadable := ⟨_, rfl⟩
  decodes := ⟨[], decodeBase64_empty⟩

/-- A blank in front of the filter is counted beside a batch only. -/
theorem run_filter_fault_indented :
    FilterFails ⟨"x", none, some "python", none, some " ["⟩ " [" "" ∧
      (ParseRequest.run (fun _ => pure (.error (.unavailable "down")))
        ⟨"x", none, some "python", none, some " ["⟩).value =
          ⟨.error (.query 0 "expected '/' but found '['"), []⟩ ∧
      (FilterRequest.run ⟨"", " ["⟩).value = .error (.query 1 "expected '/' but found '['") := by
  obtain ⟨fault, hfault, hrun, hbatch, -⟩ :=
    run_filter_fault (fun _ => pure (.error (.unavailable "down"))) filterFails_indented
  obtain rfl : ⟨0, .expected .slash (some '[')⟩ = fault := Except.error.inj hfault
  exact ⟨filterFails_indented, hrun, hbatch⟩

/-- The two reports are not always the same. -/
theorem not_filter_faults_eq :
    ¬∀ (client : Service.Client) (r : ParseRequest) (text batch : String),
      FilterFails r text batch →
        (FilterRequest.run ⟨batch, text⟩).value = (r.run client).value.outcome := by
  intro h
  have hsame := h (fun _ => pure (.error (.unavailable "down"))) _ _ _ filterFails_indented
  have hfault : Query.parse " [" = .error ⟨1, .expected .slash (some '[')⟩ := rfl
  rw [filterRun_of_fault decodeBase64_empty hfault] at hsame
  cases hsame

end SyntaxGateway
