import Mathlib
import SyntaxGateway.Proofs.Language.Detection
import SyntaxGateway.Proofs.Parse.Stages
import SyntaxGateway.Proofs.Query.Trimming
import SyntaxGateway.Proofs.Tree.Batches

/-!
# Languages by name and by detection

**Theorem (`resolveLanguage_detected`).** A request that names no language is sent under the service
name of the entry that is detected, and a request that names the detected language, in any case and
with blanks around it, is sent under the same. So to detect first and to parse with the answer is to
let the request be detected. What a named language is sent under stands for itself when it is named
again.

Names and service names are looked up together, and two entries share a service name. The look-up
finds the first entry that fits, which has the right service name for each name and each service name
of the table (`serviceId_of_name`, `serviceId_of_serviceId`), and it does not look at case
(`find?_congr`).
-/

namespace SyntaxGateway

/-! ## Blanks around a name -/

theorem Text.trim_trim (text : String) : Text.trim (Text.trim text) = Text.trim text := by
  have hsolid : Text.trimEnd (Text.trim text).toList = (Text.trim text).toList := by
    rw [Text.trimEnd, List.dropWhile_eq_self_iff.2, List.reverse_reverse]
    intro hpos
    have hlast : (Text.trim text).toList.reverse[0] ∈ (Text.trim text).toList.getLast? := by
      rw [← List.head?_reverse, List.head?_eq_getElem?, List.getElem?_eq_getElem hpos]
      exact Option.mem_some_self _
    simpa using Query.solid_trim text _ hlast
  conv_lhs => rw [Text.trim, Query.trimStart_toList_trim, hsolid, String.ofList_toList]

namespace Language

variable {name written : String} {e : Entry}

/-- The text is the name with other cases of its ASCII letters and with blanks around it. -/
def Respells (text name : String) : Prop :=
  ∃ before written after : String, text = before ++ written ++ after ∧
    written.toList.map Char.toLower = name.toList.map Char.toLower ∧
    (∀ c ∈ before.toList, Text.isBlank c) ∧ ∀ c ∈ after.toList, Text.isBlank c

/-! ## Looking up names -/

theorem sameName_iff {a b : String} :
    sameName a b ↔ a.toList.map Char.toLower = b.toList.map Char.toLower := by
  simp [sameName]

/-- The look-up does not depend on the case of letters. -/
theorem find?_congr (h : sameName written name) : find? written = find? name := by
  rw [sameName_iff] at h
  have hsame (a : String) : sameName a written = sameName a name := by
    rw [sameName, sameName, h]
  simp only [find?, hsame]

theorem serviceId_of_name :
    ∀ e ∈ table, (find? e.name).map (·.serviceId) = some e.serviceId := by
  decide +kernel

theorem serviceId_of_serviceId :
    ∀ e ∈ table, (find? e.serviceId).map (·.serviceId) = some e.serviceId := by
  decide +kernel

theorem isBlank_of_mem_name : ∀ e ∈ table, ∀ c ∈ e.name.toList, Text.isBlank c.toLower = false := by
  simp [table, Text.isBlank]

theorem isBlank_of_mem_serviceId :
    ∀ e ∈ table, ∀ c ∈ e.serviceId.toList, Text.isBlank c = false := by
  simp [table, Text.isBlank]

theorem trim_serviceId (he : e ∈ table) : Text.trim e.serviceId = e.serviceId := by
  have htrim : Text.trim ("" ++ e.serviceId ++ "") = e.serviceId :=
    Text.trim_padded (by simp) (by simp) (isBlank_of_mem_serviceId e he)
  simpa using htrim

theorem name_ne_empty : ∀ e ∈ table, e.name ≠ "" ∧ e.serviceId ≠ "" := by decide +kernel

/-- Blanks are no letters, so they have no case. -/
theorem isBlank_toLower {c : Char} (h : Text.isBlank c) : Text.isBlank c.toLower := by
  have hcase : c.toLower = c := by
    rw [Char.toLower, dif_neg]
    simp only [Text.isBlank, Bool.or_eq_true, Bool.and_eq_true, decide_eq_true_eq,
      beq_iff_eq] at h
    rintro ⟨hlow, hhigh⟩
    rw [ge_iff_le, UInt32.le_iff_toNat_le] at hlow
    rw [UInt32.le_iff_toNat_le] at hhigh
    change 65 ≤ c.toNat at hlow
    change c.toNat ≤ 90 at hhigh
    omega
  rwa [hcase]

/-- Without the blanks around it a respelled name differs from the name in case only. -/
theorem Respells.sameName_trim {text : String} (he : e ∈ table) (h : Respells text e.name) :
    sameName (Text.trim text) e.name := by
  obtain ⟨before, written, after, rfl, hsame, hbefore, hafter⟩ := h
  rw [Text.trim_padded hbefore hafter]
  · exact sameName_iff.2 hsame
  · intro c hc
    have hlower : c.toLower ∈ e.name.toList.map Char.toLower := by
      rw [← hsame]
      exact List.mem_map_of_mem hc
    obtain ⟨d, hd, heq⟩ := List.mem_map.1 hlower
    by_contra hblank
    rw [Bool.not_eq_false] at hblank
    have hsolid := isBlank_of_mem_name e he d hd
    rw [heq, isBlank_toLower hblank] at hsolid
    cases hsolid

theorem Respells.exists_find? {text : String} (he : e ∈ table) (h : Respells text e.name) :
    ∃ found, find? (Text.trim text) = some found ∧ found.serviceId = e.serviceId := by
  rw [find?_congr (h.sameName_trim he)]
  exact Option.map_eq_some_iff.1 (serviceId_of_name e he)

theorem Respells.trim_ne_empty {text : String} (he : e ∈ table) (h : Respells text e.name) :
    Text.trim text ≠ "" := by
  intro hempty
  have hsame := sameName_iff.1 (h.sameName_trim he)
  rw [hempty, String.toList_empty, List.map_nil, eq_comm, List.map_eq_nil_iff] at hsame
  exact (name_ne_empty e he).1 (String.toList_inj.1 hsame)

/-- What is detected is an entry of the table. -/
theorem mem_table_of_detects {content : List Char} {fileName : Option String}
    (h : Detects content fileName (some e)) : e ∈ table := by
  generalize hanswer : some e = answer at h
  cases h with
  | name he | line _ he | extension _ _ _ _ he =>
    cases hanswer
    exact he
  | inc _ _ _ hcpp _ hphp =>
    split_ifs at hanswer
    · cases hanswer
      exact hcpp
    · cases hanswer
      exact hphp
  | content _ _ _ hleads => exact ((hleads e).1 hanswer.symm).mem

/-- Nothing is detected, or an entry of the table with its name. -/
theorem detect_cases (content : String) (fileName : Option String) :
    ((detectEntry content fileName).value = none ∧ (detect content fileName).value = unknown) ∨
      ∃ e ∈ table, (detectEntry content fileName).value = some e ∧
        (detect content fileName).value = e.language ∧ e.language ≠ unknown := by
  rw [value_detect]
  obtain ⟨answer, hanswer⟩ := exists_detects content.toList fileName
  rw [hanswer.value_eq]
  cases answer with
  | none => exact .inl ⟨rfl, rfl⟩
  | some e =>
    have he := mem_table_of_detects hanswer
    refine .inr ⟨e, he, rfl, rfl, ?_⟩
    intro hunknown
    exact (name_ne_empty e he).1 (congrArg Language.name hunknown)

end Language

/-! ## Requests with and without a language -/

namespace ParseRequest

variable {r r' : ParseRequest}

/-- The request names no language, or only blanks. -/
def IsUnnamed (r : ParseRequest) : Prop := ∀ named, r.language = some named → Text.trim named = ""

/-- The request is for this source and names no language. -/
structure LeavesOpen (r : ParseRequest) (content : String) (fileName : Option String) : Prop where
  content : r.content = content
  fileName : r.fileName = fileName
  unnamed : r.IsUnnamed

theorem resolveLanguage_of_unnamed (h : r.IsUnnamed) :
    r.resolveLanguage.value =
      match (Language.detectEntry r.content r.fileName).value with
      | none => .error .languageUnresolved
      | some e => .ok e.serviceId := by
  have hempty : (r.language.map Text.trim).getD "" = "" := by
    cases hlanguage : r.language with
    | none => rfl
    | some named => exact h named hlanguage
  rw [resolveLanguage, if_neg (by simpa using hempty), Logged.value_bind]
  cases (Language.detectEntry r.content r.fileName).value <;> rfl

theorem resolveLanguage_of_named {named : String} (h : r.language = some named)
    (hne : Text.trim named ≠ "") :
    r.resolveLanguage.value =
      .ok ((Language.find? (Text.trim named)).elim (Text.trim named) (·.serviceId)) := by
  rw [resolveLanguage, h, Option.map_some, Option.getD_some, if_pos hne]
  rfl

theorem resolveLanguage_of_respells {e : Language.Entry} {text : String} (he : e ∈ Language.table)
    (h : Language.Respells text e.name) (hlanguage : r.language = some text) :
    r.resolveLanguage.value = .ok e.serviceId := by
  obtain ⟨found, hfound, hservice⟩ := h.exists_find? he
  rw [resolveLanguage_of_named hlanguage (h.trim_ne_empty he), hfound, Option.elim_some, hservice]

/-- What a named language is sent under is sent as it stands. -/
theorem resolveLanguage_resolved {named sent : String} (h : r.language = some named)
    (hne : Text.trim named ≠ "") (hsent : r.resolveLanguage.value = .ok sent)
    (h' : r'.language = some sent) : r'.resolveLanguage.value = .ok sent := by
  rw [resolveLanguage_of_named h hne] at hsent
  cases hfind : Language.find? (Text.trim named) with
  | none =>
    rw [hfind] at hsent
    obtain rfl : Text.trim named = sent := Except.ok.inj hsent
    have hne' : Text.trim (Text.trim named) ≠ "" := by rwa [Text.trim_trim]
    rw [resolveLanguage_of_named h' hne', Text.trim_trim, hfind]
    rfl
  | some e =>
    rw [hfind] at hsent
    obtain rfl : e.serviceId = sent := Except.ok.inj hsent
    have he : e ∈ Language.table := List.mem_of_find?_eq_some hfind
    have htrim := Language.trim_serviceId he
    have hne' : Text.trim e.serviceId ≠ "" := by
      rw [htrim]
      exact (Language.name_ne_empty e he).2
    obtain ⟨found, hfound, hservice⟩ :=
      Option.map_eq_some_iff.1 (Language.serviceId_of_serviceId e he)
    rw [resolveLanguage_of_named h' hne', htrim, hfound, Option.elim_some, hservice]

/-! ## Requests that go out alike -/

/-- Of the language only what it is sent under matters. -/
theorem plan_congr {language : Option String}
    (h : { r with language := language }.resolveLanguage.value = r.resolveLanguage.value) :
    { r with language := language }.plan.value = r.plan.value := by
  have hquery : { r with language := language }.query? = r.query? := rfl
  cases hmode : Mode.parse (r.mode.getD "") with
  | error f => simp [plan, hmode]
  | ok mode =>
    cases hfilter : r.query? with
    | error f => simp [plan, hmode, hquery, hfilter]
    | ok query =>
      cases hlanguage : r.resolveLanguage.value with
      | error f => simp [plan, hmode, hquery, hfilter, h, hlanguage]
      | ok sent => simp [plan, hmode, hquery, hfilter, h, hlanguage]

theorem run_congr (client : Service.Client) (h : r'.plan.value = r.plan.value) :
    (r'.run client).value = (r.run client).value := by
  cases hplan : r.plan.value with
  | error f =>
    rw [(run_of_plan_error client hplan).1, (run_of_plan_error client (h.trans hplan)).1]
  | ok plan => rw [(run_of_plan_ok client hplan).1, (run_of_plan_ok client (h.trans hplan)).1]

end ParseRequest

open ParseRequest in
/-- A request that leaves its language open fails where nothing is detected. Otherwise it is sent
under the service name of the detected entry, and so is every request that respells the detected
name; the same source is answered alike both ways. What a named language is sent under is sent under
itself. -/
theorem Language.resolveLanguage_detected (content : String) (fileName : Option String) :
    ((detect content fileName).value = unknown → ∀ r : ParseRequest,
        r.LeavesOpen content fileName → r.resolveLanguage.value = .error .languageUnresolved) ∧
      ((detect content fileName).value ≠ unknown → ∃ e ∈ table,
        (detect content fileName).value = e.language ∧
          (∀ r : ParseRequest, r.LeavesOpen content fileName →
            r.resolveLanguage.value = .ok e.serviceId) ∧
          (∀ text, Respells text e.name → ∀ r : ParseRequest, r.language = some text →
            r.resolveLanguage.value = .ok e.serviceId) ∧
          ∀ text, Respells text e.name → ∀ (r : ParseRequest) (client : Service.Client),
            r.LeavesOpen content fileName →
              ({ r with language := some text }.run client).value = (r.run client).value) ∧
      ∀ (r : ParseRequest) (named : String), r.language = some named → Text.trim named ≠ "" →
        ∃ sent, r.resolveLanguage.value = .ok sent ∧ ∀ r' : ParseRequest,
          r'.language = some sent → r'.resolveLanguage.value = .ok sent := by
  refine ⟨?_, ?_, ?_⟩
  · intro hunknown r hr
    rw [resolveLanguage_of_unnamed hr.unnamed, hr.content, hr.fileName]
    obtain ⟨hnone, -⟩ | ⟨e, -, -, hdetect, hknown⟩ := detect_cases content fileName
    · rw [hnone]
    · exact absurd (hdetect.symm.trans hunknown) hknown
  · intro hdetected
    obtain ⟨-, hunknown⟩ | ⟨e, he, hentry, hdetect, -⟩ := detect_cases content fileName
    · exact absurd hunknown hdetected
    have hopen : ∀ r : ParseRequest, r.LeavesOpen content fileName →
        r.resolveLanguage.value = .ok e.serviceId := by
      intro r hr
      rw [resolveLanguage_of_unnamed hr.unnamed, hr.content, hr.fileName, hentry]
    refine ⟨e, he, hdetect, hopen, ?_, ?_⟩
    · intro text htext r hr
      exact resolveLanguage_of_respells he htext hr
    · intro text htext r client hr
      refine run_congr client (plan_congr ?_)
      rw [hopen r hr]
      exact resolveLanguage_of_respells he htext rfl
  · intro r named hnamed hne
    refine ⟨_, resolveLanguage_of_named hnamed hne, ?_⟩
    intro r' hr'
    exact resolveLanguage_resolved hnamed hne (resolveLanguage_of_named hnamed hne) hr'

/-- A `Rakefile` is Ruby, and is sent under the same name when that is named in other letters. -/
theorem Language.resolveLanguage_detected_rakefile :
    (detect "" (some "Rakefile")).value = ⟨"Ruby", .programming⟩ ∧ Respells "\t rUBY\n" "Ruby" ∧
      (ParseRequest.mk "" (some "Rakefile") none none none).resolveLanguage.value = .ok "ruby" ∧
      (ParseRequest.mk "x" none (some "\t rUBY\n") none none).resolveLanguage.value =
        .ok "ruby" := by
  have hdetect : (detect "" (some "Rakefile")).value = ⟨"Ruby", .programming⟩ := by decide +kernel
  have hrespells : Respells "\t rUBY\n" "Ruby" :=
    ⟨"\t ", "rUBY", "\n", by decide, by decide, by simp [Text.isBlank], by simp [Text.isBlank]⟩
  have hservice : ∀ e ∈ table, e.name = "Ruby" → e.serviceId = "ruby" := by decide +kernel
  obtain ⟨-, hdetected, -⟩ := resolveLanguage_detected "" (some "Rakefile")
  obtain ⟨e, he, hentry, hopen, hnamed, -⟩ := hdetected (by rw [hdetect]; decide)
  have hname : e.name = "Ruby" := congrArg Language.name (hentry.symm.trans hdetect)
  rw [← hservice e he hname]
  refine ⟨hdetect, hrespells, hopen _ ⟨rfl, rfl, ?_⟩, hnamed _ (hname ▸ hrespells) _ rfl⟩
  rintro named ⟨⟩

end SyntaxGateway
