import Mathlib
import SyntaxGateway.Language.Evidence
import SyntaxGateway.Proofs.Language.Matching

/-!
# Adding lines keeps evidence

**Theorem (`score_le_of_addsLines`).** What a pattern matches in a content it still matches when
whole lines are added in front of the content or behind it. So no signature is lost, and no score
gets smaller.

A match goes on where it was. Its assertions look past the ends of the old content now, but what
they see there is a line feed, which begins and ends lines as the ends of a text do, and which is no
word character (`Matches.framed`).
-/

namespace SyntaxGateway

namespace Pattern

variable {p : Pattern} {before stretch after above below : List Char}

/-! ## At the seam -/

theorem EndsInFeed.append (habove : EndsInFeed above) (hbefore : EndsInFeed before) :
    EndsInFeed (above ++ before) := by
  rcases hbefore with rfl | hbefore
  · rwa [List.append_nil]
  · exact .inr (by rw [List.getLast?_append, hbefore]; rfl)

theorem BeginsWithFeed.append (hafter : BeginsWithFeed after) (hbelow : BeginsWithFeed below) :
    BeginsWithFeed (after ++ below) := by
  rcases hafter with rfl | hafter
  · exact hbelow
  · exact .inr (by rw [List.head?_append, hafter]; rfl)

/-- A line feed is no word character, and neither is the end of a text. -/
theorem endsInWord_append_iff (habove : EndsInFeed above) :
    EndsInWord (above ++ before) ↔ EndsInWord before := by
  cases before using List.reverseRecOn with
  | nil =>
    rw [List.append_nil]
    rcases habove with rfl | habove
    · rfl
    · have hfeed : Text.isWord '\n' = false := by decide
      simp [EndsInWord, habove, hfeed]
  | append_singleton before c => rw [← List.append_assoc, EndsInWord, EndsInWord,
      List.getLast?_concat, List.getLast?_concat]

theorem beginsWithWord_append_iff (hbelow : BeginsWithFeed below) :
    BeginsWithWord (after ++ below) ↔ BeginsWithWord after := by
  cases after with
  | nil =>
    rw [List.nil_append]
    rcases hbelow with rfl | hbelow
    · rfl
    · have hfeed : Text.isWord '\n' = false := by decide
      simp [BeginsWithWord, hbelow, hfeed]
  | cons c after => rfl

/-- A match stays a match between lines that are added. -/
theorem Matches.framed (h : Matches p before stretch after) (habove : EndsInFeed above)
    (hbelow : BeginsWithFeed below) : Matches p (above ++ before) stretch (after ++ below) := by
  induction h with
  | empty => exact .empty
  | lineStart hbefore => exact .lineStart (habove.append hbefore)
  | lineEnd hafter => exact .lineEnd (hafter.append hbelow)
  | wordEdge hedge =>
    refine .wordEdge ?_
    rwa [endsInWord_append_iff habove, beginsWithWord_append_iff hbelow]
  | oneOf hk hc => exact .oneOf hk hc
  | seq _ _ ihp ihq =>
    rw [List.append_assoc] at ihp
    rw [← List.append_assoc] at ihq
    exact .seq ihp ihq
  | left _ ih => exact .left ih
  | right _ ih => exact .right ih
  | done => exact .done
  | again _ _ ihp ihq =>
    rw [List.append_assoc] at ihp
    rw [← List.append_assoc] at ihq
    exact .again ihp ihq

theorem OccursIn.framed {text : List Char} (h : p.OccursIn text) (habove : EndsInFeed above)
    (hbelow : BeginsWithFeed below) : p.OccursIn (above ++ (text ++ below)) := by
  obtain ⟨before, stretch, after, rfl, hmatch⟩ := h
  exact ⟨above ++ before, stretch, after ++ below, by simp, hmatch.framed habove hbelow⟩

end Pattern

namespace Language

open Pattern

variable {content text : String}

/-- Whole lines are added to a content: in front of it, behind it, or both. -/
inductive AddsLines (content : String) : String → Prop
  | above (lines : String) : AddsLines content (lines ++ "\n" ++ content)
  | below (lines : String) : AddsLines content (content ++ "\n" ++ lines)
  | around (lines more : String) : AddsLines content (lines ++ "\n" ++ content ++ "\n" ++ more)

/-- What is added keeps line feeds between itself and the content. -/
theorem AddsLines.exists_frame (h : AddsLines content text) :
    ∃ above below, EndsInFeed above ∧ BeginsWithFeed below ∧
      text.toList = above ++ (content.toList ++ below) := by
  cases h with
  | above lines =>
    exact ⟨lines.toList ++ ['\n'], [], .inr (by simp), .inl rfl, by simp⟩
  | below lines =>
    exact ⟨[], '\n' :: lines.toList, .inl rfl, .inr rfl, by simp⟩
  | around lines more =>
    exact ⟨lines.toList ++ ['\n'], '\n' :: more.toList, .inr (by simp), .inr rfl, by simp⟩

theorem AddsLines.isIn (h : AddsLines content text) {p : Pattern} (hp : p.isIn content.toList) :
    p.isIn text.toList := by
  obtain ⟨above, below, habove, hbelow, htext⟩ := h.exists_frame
  rw [htext, isIn_iff]
  exact (isIn_iff.1 hp).framed habove hbelow

/-- Signatures are found where they match, and what is found in a content is found when lines are
added to it. So the score of an entry does not get smaller. -/
theorem score_le_of_addsLines (h : AddsLines content text) :
    ∀ e ∈ table,
      (∀ s ∈ e.signatures, (∀ t : List Char, s.isIn t ↔ s.OccursIn t) ∧
        (s.isIn content.toList → s.isIn text.toList)) ∧
      e.score content.toList ≤ e.score text.toList := by
  intro e _
  refine ⟨fun s _ => ⟨fun t => isIn_iff, h.isIn⟩, ?_⟩
  exact List.countP_mono_left fun s _ => h.isIn

/-- A signature that is tied to both ends of a line is found between other lines. -/
theorem score_le_of_addsLines_end :
    AddsLines "end" "é\nend\nx" ∧ ∃ e ∈ table, e.name = "Ruby" ∧
      all [lineStart, Signatures.gap, Pattern.text "end", Signatures.gap, lineEnd] ∈ e.signatures ∧
      (all [lineStart, Signatures.gap, Pattern.text "end", Signatures.gap, lineEnd]).isIn
        "end".toList ∧
      (all [lineStart, Signatures.gap, Pattern.text "end", Signatures.gap, lineEnd]).isIn
        "é\nend\nx".toList ∧
      e.score "end".toList ≤ e.score "é\nend\nx".toList := by
  have hadds : AddsLines "end" "é\nend\nx" := .around "é" "x"
  obtain ⟨e, he, hname, hsignatures⟩ :
      ∃ e ∈ table, e.name = "Ruby" ∧ e.signatures = Signatures.ruby := by simp [table]
  have hmem : all [lineStart, Signatures.gap, Pattern.text "end", Signatures.gap, lineEnd] ∈
      e.signatures := by
    simp [hsignatures, Signatures.ruby]
  have hfound : (all [lineStart, Signatures.gap, Pattern.text "end", Signatures.gap, lineEnd]).isIn
      "end".toList := by
    decide +kernel
  obtain ⟨hkept, hscore⟩ := score_le_of_addsLines hadds e he
  exact ⟨hadds, e, he, hname, hmem, hfound, (hkept _ hmem).2 hfound, hscore⟩

end Language

end SyntaxGateway
