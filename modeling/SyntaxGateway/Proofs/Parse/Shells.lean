import Mathlib
import SyntaxGateway.Proofs.Parse.Languages

/-!
# Shells

**Theorem (`detect_not_shell`).** Where neither the name of the file nor the first line is evidence,
no content is taken for a shell script, and none is determined at all when the signatures of shells
are at least as many as those of every language. So a request that leaves its language open is never
sent as `bash` on the grounds of its content.

Two entries, Bash and Shell, have the same signatures, so they have the same score in every content,
and neither can lead the other.
-/

namespace SyntaxGateway.Language

variable {content : List Char} {e : Entry}

/-- The number of signatures of shells in the content. -/
def shellScore (content : List Char) : Nat := Signatures.shell.countP (·.OccursIn content)

/-! ## The two shells -/

theorem signatures_of_shell :
    ∀ e ∈ table, e.name = "Bash" ∨ e.name = "Shell" → e.signatures = Signatures.shell := by
  simp [table]

theorem name_of_serviceId :
    ∀ e ∈ table, e.serviceId = "bash" → e.name = "Bash" ∨ e.name = "Shell" := by
  decide +kernel

theorem exists_shells : ∃ bash ∈ table, ∃ shell ∈ table, bash ≠ shell ∧
    bash.signatures = Signatures.shell ∧ shell.signatures = Signatures.shell := by
  obtain ⟨bash, hbash, hbashName⟩ : ∃ e ∈ table, e.name = "Bash" := by simp [table]
  obtain ⟨shell, hshell, hshellName⟩ : ∃ e ∈ table, e.name = "Shell" := by simp [table]
  refine ⟨bash, hbash, shell, hshell, ?_, signatures_of_shell bash hbash (.inl hbashName),
    signatures_of_shell shell hshell (.inr hshellName)⟩
  rintro rfl
  rw [hbashName] at hshellName
  exact absurd hshellName (by decide)

theorem score_of_shell (h : e.signatures = Signatures.shell) :
    e.found content = shellScore content := by
  rw [Entry.found, h, shellScore]

/-- Whatever an entry leads, it has more signatures than the shells have. -/
theorem shellScore_lt_of_leads (h : e.Leads content table) :
    shellScore content < e.found content := by
  obtain ⟨bash, hbash, shell, hshell, hne, hbashes, hshells⟩ := exists_shells
  -- One of the two shells is another entry than the one that leads.
  by_cases hsame : bash = e
  · have hother : shell ≠ e := fun heq => hne (hsame.trans heq.symm)
    rw [← score_of_shell hshells]
    exact h.lt shell hshell hother
  · rw [← score_of_shell hbashes]
    exact h.lt bash hbash hsame

theorem not_leads_of_shell (h : e.signatures = Signatures.shell) : ¬e.Leads content table := by
  intro hleads
  have hlt := shellScore_lt_of_leads hleads
  rw [score_of_shell h] at hlt
  exact lt_irrefl _ hlt

/-! ## Detection by content -/

/-- Without other evidence what is detected leads the whole table. -/
theorem leads_of_detectEntry {content : String} {fileName : Option String}
    (hname : ∀ e ∈ table, ¬e.HasFileName fileName)
    (hline : ∀ e ∈ table, ¬e.IsNamedIn (firstLine content.toList))
    (hextension : ∀ e ∈ table, ¬e.ListsExtension fileName)
    (h : (detectEntry content fileName).value = some e) : e.Leads content.toList table := by
  have hdetects : Detects content.toList fileName (byContent content.toList table) :=
    .content hname hline hextension fun e => byContent_eq_some_iff nodup_table
  rw [hdetects.value_eq] at h
  exact (byContent_eq_some_iff nodup_table).1 h

/-- Content alone is never taken for a shell script, and for nothing at all when no language has
more signatures in it than the shells. No request is sent as `bash` on the grounds of content. -/
theorem detect_not_shell {content : String} {fileName : Option String}
    (hname : ∀ e ∈ table, ¬e.HasFileName fileName)
    (hline : ∀ e ∈ table, ¬e.IsNamedIn (firstLine content.toList))
    (hextension : ∀ e ∈ table, ¬e.ListsExtension fileName) :
    (∀ e, (detectEntry content fileName).value = some e →
        e.name ≠ "Bash" ∧ e.name ≠ "Shell") ∧
      (detect content fileName).value.name ∉ ["Bash", "Shell"] ∧
      ((∀ e ∈ table, e.found content.toList ≤ shellScore content.toList) →
        (detectEntry content fileName).value = none ∧
          (detect content fileName).value = unknown) ∧
      ∀ r : ParseRequest, r.LeavesOpen content fileName →
        r.resolveLanguage.value ≠ .ok "bash" ∧
          ∀ client, ∀ call ∈ (r.run client).value.calls, call.language ≠ "bash" := by
  have hleads (e : Entry) (h : (detectEntry content fileName).value = some e) :
      e.Leads content.toList table := leads_of_detectEntry hname hline hextension h
  have hshell (e : Entry) (h : (detectEntry content fileName).value = some e) :
      ¬(e.name = "Bash" ∨ e.name = "Shell") := by
    intro hnamed
    exact not_leads_of_shell (signatures_of_shell e (hleads e h).mem hnamed) (hleads e h)
  have hresolve (r : ParseRequest) (hr : r.LeavesOpen content fileName) :
      r.resolveLanguage.value ≠ .ok "bash" := by
    rw [ParseRequest.resolveLanguage_of_unnamed hr.unnamed, hr.content, hr.fileName]
    cases hentry : (detectEntry content fileName).value with
    | none => simp
    | some e =>
      intro heq
      exact hshell e hentry (name_of_serviceId e (hleads e hentry).mem (Except.ok.inj heq))
  refine ⟨?_, ?_, ?_, ?_⟩
  · intro e h
    exact not_or.1 (hshell e h)
  · rw [value_detect]
    cases hentry : (detectEntry content fileName).value with
    | none => decide
    | some e => simpa [Entry.language] using hshell e hentry
  · intro htie
    have hnone : (detectEntry content fileName).value = none := by
      rw [Option.eq_none_iff_forall_ne_some]
      intro e h
      have hlt := shellScore_lt_of_leads (hleads e h)
      have hle := htie e (hleads e h).mem
      omega
    exact ⟨hnone, by rw [value_detect, hnone, Option.elim_none]⟩
  · intro r hr
    refine ⟨hresolve r hr, ?_⟩
    intro client call hcall hbash
    obtain ⟨f, -, hplan⟩ | ⟨plan, hplan, -, -, hforwards⟩ := r.plan_cases
    · simp [(ParseRequest.run_of_plan_error client hplan).1] at hcall
    · rw [(ParseRequest.run_of_plan_ok client hplan).1, List.mem_singleton] at hcall
      subst hcall
      exact hresolve r hr (hbash ▸ hforwards.language)

/-- A line of shell in a text file is not taken for a shell script. -/
theorem detect_not_shell_echo :
    (∀ e ∈ table, ¬e.HasFileName (some "notes.txt")) ∧
      (∀ e ∈ table, ¬e.IsNamedIn (firstLine "echo 'Hello World!'\n".toList)) ∧
      (∀ e ∈ table, ¬e.ListsExtension (some "notes.txt")) ∧
      (detect "echo 'Hello World!'\n" (some "notes.txt")).value.name ∉ ["Bash", "Shell"] ∧
      (ParseRequest.mk "echo 'Hello World!'\n" (some "notes.txt") (some " ") none
        none).resolveLanguage.value ≠ .ok "bash" := by
  have hpath : HasPath (some "notes.txt") "notes.txt".toList :=
    usableName_eq_some_iff.1 (by decide)
  have hname : ∀ e ∈ table, ¬e.HasFileName (some "notes.txt") := by
    rintro e he ⟨path, hpath', hlisted⟩
    obtain rfl := hpath.unique hpath'
    revert e
    decide +kernel
  have hline : ∀ e ∈ table, ¬e.IsNamedIn (firstLine "echo 'Hello World!'\n".toList) := by
    rintro e he ⟨interpreter, -, version, -, hnames⟩
    have hnone : program? (firstLine "echo 'Hello World!'\n".toList) = none := by decide
    rw [← program?_eq_some_iff, hnone] at hnames
    cases hnames
  have hextension : ∀ e ∈ table, ¬e.ListsExtension (some "notes.txt") := by
    rintro e he ⟨extension, hlisted, hhas⟩
    have htxt : HasExtension (some "notes.txt") "txt" :=
      ⟨_, "txt".toList, hpath, by decide, eq_map_foldCase_iff.1 (by decide)⟩
    obtain rfl := htxt.unique hhas
    revert e
    decide +kernel
  obtain ⟨-, hdetect, -, hresolve⟩ := detect_not_shell hname hline hextension
  refine ⟨hname, hline, hextension, hdetect, (hresolve _ ⟨rfl, rfl, ?_⟩).1⟩
  rintro named ⟨⟩
  decide

end SyntaxGateway.Language
