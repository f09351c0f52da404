import Mathlib
import SyntaxGateway.Proofs.Json.Records
import SyntaxGateway.Proofs.Text.Base64
import SyntaxGateway.Service.Client

/-!
# What replies of the service come to

A reply of the service is JSON of one shape, said here by the grammar of that shape (`Reply.Spelt`)
and not by how it is read. What comes of a call holds a tree (`Delivery.Holds`), reports errors in
the source (`Delivery.Reports`), or does neither.

**Theorem (`value_client`).** If requests can be sent to its address, the client answers with the
tree that a reply holds, with the errors that it reports, of which there is at least one, and in
every other case that the service is unavailable. If not, the service is unavailable.

The body is read as it is spelt (`Reply.ofJson_eq_ok_iff`); what is left is to follow the client
through the states of a reply (`value_answer`).
-/

namespace SyntaxGateway.Service

open Json

variable {body : Bytes} {call : Request} {reply : Reply}

/-! ## Replies -/

/-- The names of the states. -/
def ReplyState.names : List (String × ReplyState) :=
  [("ok", .ok), ("error", .error), ("fatal", .fatal)]

namespace Reply

/-- The fields of a reply. Only its state must be there, and a language or a tree may be `null`. -/
def fieldTexts : List (FieldText Reply) :=
  [.ofText "status" .nowhere (VariantText ReplyState.names) fun state r =>
      { r with state := state },
    .ofText "errors" .anywhere (Enclosed .array StringText) fun errors r =>
      { r with errors := errors },
    .ofText "language" .anywhere (NullableText StringText) fun language r =>
      { r with language := language },
    .ofText "uast" .anywhere (NullableText StringText) fun tree r => { r with tree := tree }]

/-- A body is a reply as JSON. Fields that are missing count as no errors, no language and no
tree. -/
def Spelt (body : Bytes) (r : Reply) : Prop :=
  ∃ u t v, Blanks u ∧ RecordText fieldTexts ⟨.ok, [], none, none⟩ t r ∧ Blanks v ∧
    body = u ++ (t ++ v)

theorem head?_stringText {t : Bytes} {s : String} (h : StringText t s) : t.head? ≠ some 0x6E := by
  cases h
  simp

theorem reads_fields (depth : Nat) : List.Forall₂ Fits (fields (depth + 1)) fieldTexts := by
  have hstring : Reads (nullable string) (NullableText StringText) :=
    reads_string.nullable head?_stringText
  refine .cons (fits_ofScan (reads_variant depth _) _ _ _) ?_
  refine .cons (fits_ofScan (reads_string.list depth) _ _ _) ?_
  refine .cons (fits_ofScan hstring _ _ _) ?_
  exact .cons (fits_ofScan hstring _ _ _) .nil

/-- A reply is read exactly from the bodies that spell it. -/
theorem ofJson_eq_ok_iff : ofJson body = .ok reply ↔ Spelt body reply :=
  whole_eq_ok_iff (reads_record (reads_fields 125) (by decide) 126 "UastReply")

/-- Members that nobody asked for may be anything. -/
example : Spelt (Utf8.ofString "\x7b\"note\": [1, \x7b\x7d], \"status\": \"error\"\x7d")
    ⟨.error, [], none, none⟩ := by
  rw [← ofJson_eq_ok_iff]
  cbv

end Reply

/-! ## Outcomes -/

/-- A reply holds an encoded tree. -/
inductive Delivery.Holds : Delivery → Bytes → Prop
  | mk {status : Nat} {body : Bytes} {r : Reply} {text : String} {bytes : Bytes} :
      200 ≤ status → status ≤ 299 → Reply.Spelt body r → r.state = .ok → r.tree = some text →
      Base64.Spells (Utf8.ofString text) bytes → (Delivery.reply status body).Holds bytes

/-- A reply reports errors in the source. If it names none, one stands for all. -/
inductive Delivery.Reports : Delivery → List String → Prop
  | named {status : Nat} {body : Bytes} {r : Reply} : 200 ≤ status → status ≤ 299 →
      Reply.Spelt body r → r.state = .error → r.errors ≠ [] →
      (Delivery.reply status body).Reports r.errors
  | unnamed {status : Nat} {body : Bytes} {r : Reply} : 200 ≤ status → status ≤ 299 →
      Reply.Spelt body r → r.state = .error → r.errors = [] →
      (Delivery.reply status body).Reports ["the source could not be parsed"]

/-- What came of a call decides about an answer. -/
structure Delivery.Decides (delivery : Delivery) (answer : Answer) : Prop where
  tree : ∀ {bytes : Bytes}, delivery.Holds bytes → answer = .ok bytes
  errors : ∀ {errors : List String}, delivery.Reports errors → answer = .error (.source errors)
  cases : (∃ bytes, delivery.Holds bytes) ∨ (∃ errors, delivery.Reports errors) ∨
    ∃ detail, answer = .error (.unavailable detail)

variable {delivery : Delivery} {answer : Answer} {status : Nat}

theorem isSuccess_iff : Http.isSuccess status ↔ 200 ≤ status ∧ status ≤ 299 := by
  simp [Http.isSuccess]

/-- A successful status and a body that can be read leave the rest to the reply. -/
theorem answer_of_spelt (hlow : 200 ≤ status) (hhigh : status ≤ 299) (h : Reply.Spelt body reply)
    (url : Url) : (Delivery.reply status body).answer url call = reply.answer call := by
  have hstatus := isSuccess_iff.mpr ⟨hlow, hhigh⟩
  simp [Delivery.answer, hstatus, Reply.ofJson_eq_ok_iff.mpr h]

theorem value_of_holds {bytes : Bytes} (h : delivery.Holds bytes) (url : Url) :
    (delivery.answer url call).value = .ok bytes := by
  obtain ⟨hlow, hhigh, hbody, hstate, htree, hbytes⟩ := h
  rw [answer_of_spelt hlow hhigh hbody]
  simp [Reply.answer, hstate, htree, Base64.decode_eq_ok_iff.mpr hbytes]

theorem value_of_reports {errors : List String} (h : delivery.Reports errors) (url : Url) :
    (delivery.answer url call).value = .error (.source errors) := by
  cases h with
  | named hlow hhigh hbody hstate herrors =>
    rw [answer_of_spelt hlow hhigh hbody]
    simp [Reply.answer, hstate, herrors]
  | unnamed hlow hhigh hbody hstate herrors =>
    rw [answer_of_spelt hlow hhigh hbody]
    simp [Reply.answer, hstate, herrors]

theorem cases_of_spelt (hlow : 200 ≤ status) (hhigh : status ≤ 299) (h : Reply.Spelt body reply)
    (call : Request) :
    (∃ bytes, (Delivery.reply status body).Holds bytes) ∨
      (∃ errors, (Delivery.reply status body).Reports errors) ∨
      ∃ detail, (reply.answer call).value = .error (.unavailable detail) := by
  cases hstate : reply.state with
  | ok =>
    cases htree : reply.tree with
    | none => exact .inr (.inr (by simp [Reply.answer, hstate, htree]))
    | some text =>
      cases hdecode : Base64.decode (Utf8.ofString text) with
      | error fault => exact .inr (.inr (by simp [Reply.answer, hstate, htree, hdecode]))
      | ok bytes =>
        have hbytes := Base64.decode_eq_ok_iff.mp hdecode
        exact .inl ⟨bytes, .mk hlow hhigh h hstate htree hbytes⟩
  | error =>
    by_cases herrors : reply.errors = []
    · exact .inr (.inl ⟨_, .unnamed hlow hhigh h hstate herrors⟩)
    · exact .inr (.inl ⟨_, .named hlow hhigh h hstate herrors⟩)
  | fatal => exact .inr (.inr (by simp [Reply.answer, hstate]))

theorem decides_answer (delivery : Delivery) (url : Url) (call : Request) :
    delivery.Decides (delivery.answer url call).value where
  tree h := value_of_holds h url
  errors h := value_of_reports h url
  cases := by
    cases delivery with
    | failed => exact .inr (.inr ⟨_, rfl⟩)
    | reply status body =>
      by_cases hstatus : Http.isSuccess status
      · obtain ⟨hlow, hhigh⟩ := isSuccess_iff.mp hstatus
        cases hread : Reply.ofJson body with
        | error fault => exact .inr (.inr (by simp [Delivery.answer, hstatus, hread]))
        | ok r =>
          have hbody := Reply.ofJson_eq_ok_iff.mp hread
          rw [answer_of_spelt hlow hhigh hbody]
          exact cases_of_spelt hlow hhigh hbody call
      · exact .inr (.inr (by simp [Delivery.answer, hstatus]))

theorem ofText_eq_usable_iff {text : String} {url : Url} :
    Address.ofText text = .usable url ↔ Url.parse? text = some url ∧ isUsable url := by
  cases hparse : Url.parse? text with
  | none => simp [Address.ofText, hparse]
  | some u =>
    by_cases husable : isUsable u
    · simp [Address.ofText, hparse, husable]
      rintro rfl
      exact husable
    · simp [Address.ofText, hparse, husable]
      rintro rfl
      simpa using husable

/-- At a usable address, what comes of sending the call decides. -/
theorem decides_client {base : String} {url : Url}
    (h : Address.ofText (parseUrl base) = .usable url) (transport : Transport) (call : Request) :
    (transport url (call.http url)).Decides (client base transport call).value := by
  simp only [client, h, Logged.value_bind]
  exact decides_answer _ url call

theorem client_unavailable {base : String}
    (h : ∀ url, Address.ofText (parseUrl base) ≠ .usable url) (transport : Transport)
    (call : Request) :
    ∃ detail, (client base transport call).value = .error (.unavailable detail) := by
  simp only [client, Logged.value_bind]
  cases haddress : Address.ofText (parseUrl base) with
  | unreadable => exact ⟨_, rfl⟩
  | foreign url => exact ⟨_, rfl⟩
  | usable url => exact absurd haddress (h url)

/-! ## Three outcomes -/

theorem Delivery.Reports.ne_nil {errors : List String} (h : delivery.Reports errors) :
    errors ≠ [] := by
  cases h with
  | named _ _ _ _ herrors => exact herrors
  | unnamed => simp

namespace Delivery.Decides

theorem eq_ok_iff (h : delivery.Decides answer) {bytes : Bytes} :
    answer = .ok bytes ↔ delivery.Holds bytes := by
  refine ⟨fun hanswer => ?_, h.tree⟩
  subst hanswer
  rcases h.cases with ⟨bytes', hholds⟩ | ⟨errors, hreports⟩ | ⟨detail, hdetail⟩
  · rwa [Except.ok.inj (h.tree hholds)]
  · cases h.errors hreports
  · cases hdetail

theorem eq_source_iff (h : delivery.Decides answer) {errors : List String} :
    answer = .error (.source errors) ↔ delivery.Reports errors := by
  refine ⟨fun hanswer => ?_, h.errors⟩
  subst hanswer
  rcases h.cases with ⟨bytes, hholds⟩ | ⟨errors', hreports⟩ | ⟨detail, hdetail⟩
  · cases h.tree hholds
  · have := Except.error.inj (h.errors hreports)
    rwa [Trouble.source.inj this]
  · cases hdetail

theorem unavailable_iff (h : delivery.Decides answer) :
    (∃ detail, answer = .error (.unavailable detail)) ↔
      (∀ bytes, ¬delivery.Holds bytes) ∧ ∀ errors, ¬delivery.Reports errors := by
  constructor
  · rintro ⟨detail, rfl⟩
    constructor
    · intro bytes hholds
      cases h.tree hholds
    · intro errors hreports
      cases h.errors hreports
  · rintro ⟨hholds, hreports⟩
    rcases h.cases with ⟨bytes, hbytes⟩ | ⟨errors, herrors⟩ | hdetail
    · exact absurd hbytes (hholds bytes)
    · exact absurd herrors (hreports errors)
    · exact hdetail

end Delivery.Decides

/-- A client reports no failure of another kind. -/
theorem kind_ofService (trouble : Trouble) : (Failure.ofService trouble).kind = .sourceError ∨
    (Failure.ofService trouble).kind = .serviceUnavailable := by
  cases trouble with
  | source errors => exact .inl rfl
  | unavailable detail => exact .inr rfl

/-- At an address that requests can be sent to, the client answers with the tree that the reply
holds, with the errors that the reply reports, or that the service is unavailable, and then neither
was the case. At no other address is the service available, and no failure is of another kind. -/
theorem value_client (base : String) (transport : Transport) (call : Request) :
    let answer := (client base transport call).value
    (∀ url, Address.ofText (parseUrl base) = .usable url →
      let delivery := transport url (call.http url)
      (∀ bytes, answer = .ok bytes ↔ delivery.Holds bytes) ∧
        (∀ errors, answer = .error (.source errors) ↔ delivery.Reports errors) ∧
        (∀ errors, answer = .error (.source errors) → errors ≠ []) ∧
        ((∃ detail, answer = .error (.unavailable detail)) ↔
          (∀ bytes, ¬delivery.Holds bytes) ∧ ∀ errors, ¬delivery.Reports errors)) ∧
      ((∀ url, Address.ofText (parseUrl base) ≠ .usable url) →
        ∃ detail, answer = .error (.unavailable detail)) ∧
      ∀ failure, answer.mapError Failure.ofService = .error failure →
        failure.kind = .sourceError ∨ failure.kind = .serviceUnavailable := by
  intro answer
  refine ⟨fun url haddress => ?_, fun haddress => client_unavailable haddress transport call, ?_⟩
  · have h := decides_client haddress transport call
    refine ⟨fun bytes => h.eq_ok_iff, fun errors => h.eq_source_iff, ?_, h.unavailable_iff⟩
    intro errors herrors
    exact (h.eq_source_iff.mp herrors).ne_nil
  · intro failure hfailure
    obtain ⟨trouble, -, rfl⟩ := mapError_eq_error_iff.mp hfailure
    exact kind_ofService trouble

/-- A service on this machine can be reached. A reply brings the tree that it holds, or the error
that stands for all if it reports errors and names none; with another status it brings neither. -/
theorem value_client_local (call : Request) :
    let url : Url := ⟨"http", some "127.0.0.1", some 9432, .segments ["parse"], none, none⟩
    let tree := "\x7b\"uast\": \"AQID\", \"status\": \"ok\"\x7d"
    let answer (status : Nat) (text : String) := (client "http://127.0.0.1:9432/"
      (fun _ _ => .reply status (Utf8.ofString text)) call).value
    Address.ofText (parseUrl "http://127.0.0.1:9432/") = .usable url ∧
      answer 200 tree = .ok [1, 2, 3] ∧
      answer 200 "\x7b\"status\": \"error\"\x7d" =
        .error (.source ["the source could not be parsed"]) ∧
      ∃ detail, answer 503 tree = .error (.unavailable detail) := by
  intro url tree answer
  have hparse : Url.parse? (parseUrl "http://127.0.0.1:9432/") = some url := by decide +kernel
  have haddress : Address.ofText (parseUrl "http://127.0.0.1:9432/") = .usable url :=
    ofText_eq_usable_iff.2 ⟨hparse, by decide +kernel⟩
  have hclient (status : Nat) (text : String) := (value_client "http://127.0.0.1:9432/"
    (fun _ _ => .reply status (Utf8.ofString text)) call).1 url haddress
  refine ⟨haddress, ?_, ?_, ?_⟩
  · have hbody : Reply.Spelt (Utf8.ofString tree) ⟨.ok, [], none, some "AQID"⟩ := by
      rw [← Reply.ofJson_eq_ok_iff]
      cbv
    have hbytes : Base64.Spells (Utf8.ofString "AQID") [1, 2, 3] := by
      rw [← Base64.decode_eq_ok_iff]
      decide +kernel
    have hholds := Delivery.Holds.mk (by decide : 200 ≤ 200) (by decide) hbody rfl rfl hbytes
    exact ((hclient 200 tree).1 [1, 2, 3]).2 hholds
  · have hbody : Reply.Spelt (Utf8.ofString "\x7b\"status\": \"error\"\x7d")
        ⟨.error, [], none, none⟩ := by
      rw [← Reply.ofJson_eq_ok_iff]
      cbv
    have hreports := Delivery.Reports.unnamed (by decide : 200 ≤ 200) (by decide) hbody rfl rfl
    exact ((hclient 200 _).2.1 _).2 hreports
  · refine (hclient 503 tree).2.2.2.2 ⟨fun bytes hholds => ?_, fun errors hreports => ?_⟩
    · cases hholds with
      | mk _ hhigh => exact absurd hhigh (by decide)
    · cases hreports with
      | named _ hhigh => exact absurd hhigh (by decide)
      | unnamed _ hhigh => exact absurd hhigh (by decide)

end SyntaxGateway.Service
