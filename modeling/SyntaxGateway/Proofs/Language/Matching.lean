import Mathlib
import SyntaxGateway.Pattern

/-!
# Where a pattern matches

What a pattern matches is said part by part, for a stretch of text between the text before it and
the text after it (`Matches`). The assertions look at these two sides, everything else at the
stretch.

**Theorem (`isIn_iff`).** A pattern is in a text exactly when it matches some stretch of it.

The search goes through the text once, with a list of patterns that may still finish a match. Two
facts about one place carry it: a pattern matches the empty stretch there exactly when it is
nullable (`matches_nil_iff`), and a stretch that begins with a character exactly when one of its
residues matches what is left of the stretch (`matches_cons_iff`).
-/

namespace SyntaxGateway.Pattern

variable {p q : Pattern} {before stretch more after rest : List Char} {c : Char}

/-! ## Matches -/

/-- The text is empty or ends with a line feed. -/
def EndsInFeed (text : List Char) : Prop := text = [] ∨ text.getLast? = some '\n'

/-- The text is empty or begins with a line feed. -/
def BeginsWithFeed (text : List Char) : Prop := text = [] ∨ text.head? = some '\n'

def EndsInWord (text : List Char) : Prop := ∃ c, text.getLast? = some c ∧ Text.isWord c

def BeginsWithWord (text : List Char) : Prop := ∃ c, text.head? = some c ∧ Text.isWord c

/-- The pattern matches this stretch of a text, with these texts before and after it. -/
inductive Matches : Pattern → (before stretch after : List Char) → Prop
  | empty {before after : List Char} : Matches .empty before [] after
  | lineStart {before after : List Char} : EndsInFeed before → Matches .lineStart before [] after
  | lineEnd {before after : List Char} : BeginsWithFeed after → Matches .lineEnd before [] after
  | wordEdge {before after : List Char} : ¬(EndsInWord before ↔ BeginsWithWord after) →
      Matches .wordEdge before [] after
  | oneOf {classes : List CharClass} {k : CharClass} {before after : List Char} {c : Char} :
      k ∈ classes → k.contains c → Matches (.oneOf classes) before [c] after
  | seq {p q : Pattern} {before stretch more after : List Char} :
      Matches p before stretch (more ++ after) → Matches q (before ++ stretch) more after →
      Matches (.seq p q) before (stretch ++ more) after
  | left {p q : Pattern} {before stretch after : List Char} : Matches p before stretch after →
      Matches (.alt p q) before stretch after
  | right {p q : Pattern} {before stretch after : List Char} : Matches q before stretch after →
      Matches (.alt p q) before stretch after
  | done {p : Pattern} {before after : List Char} : Matches (.star p) before [] after
  | again {p : Pattern} {before stretch more after : List Char} :
      Matches p before stretch (more ++ after) → Matches (.star p) (before ++ stretch) more after →
      Matches (.star p) before (stretch ++ more) after

/-- The pattern matches some stretch of the text. -/
def OccursIn (p : Pattern) (text : List Char) : Prop :=
  ∃ before stretch after, text = before ++ (stretch ++ after) ∧ Matches p before stretch after

/-! ## Parts -/

theorem matches_seq_iff : Matches (.seq p q) before stretch after ↔
    ∃ first second, stretch = first ++ second ∧ Matches p before first (second ++ after) ∧
      Matches q (before ++ first) second after := by
  constructor
  · rintro (_ | _ | _ | _ | _ | ⟨hp, hq⟩)
    exact ⟨_, _, rfl, hp, hq⟩
  · rintro ⟨first, second, rfl, hp, hq⟩
    exact .seq hp hq

theorem matches_alt_iff : Matches (.alt p q) before stretch after ↔
    Matches p before stretch after ∨ Matches q before stretch after := by
  constructor
  · intro h
    cases h with
    | left h => exact .inl h
    | right h => exact .inr h
  · rintro (h | h)
    · exact .left h
    · exact .right h

/-- Leaving out a part that matches nothing anywhere makes no difference. -/
theorem matches_followedBy_iff : Matches (followedBy p q) before stretch after ↔
    Matches (.seq p q) before stretch after := by
  by_cases hp : p = .empty
  · subst hp
    rw [followedBy, if_pos rfl, matches_seq_iff]
    constructor
    · intro h
      exact ⟨[], stretch, rfl, .empty, by rwa [List.append_nil]⟩
    · rintro ⟨_, second, rfl, ⟨⟩, h⟩
      rwa [List.append_nil] at h
  · rw [followedBy, if_neg hp]

/-- A match of a repetition that begins with a character begins with a match that does: one that
matches nothing in front of it leaves everything where it was. -/
theorem matches_star_cons_iff : Matches (.star p) before (c :: stretch) after ↔
    ∃ first second, stretch = first ++ second ∧ Matches p before (c :: first) (second ++ after) ∧
      Matches (.star p) (before ++ c :: first) second after := by
  constructor
  · intro h
    generalize hpattern : Pattern.star p = r at h
    generalize htext : c :: stretch = text at h
    induction h with
    | @again p' before first second after hfirst hsecond _ ih =>
      obtain rfl := Pattern.star.inj hpattern
      cases first with
      | nil =>
        rw [List.append_nil] at ih
        exact ih rfl htext
      | cons d first =>
        obtain ⟨rfl, rfl⟩ := List.cons.inj htext
        exact ⟨first, second, rfl, hfirst, hsecond⟩
    | done => cases htext
    | _ => cases hpattern
  · rintro ⟨first, second, rfl, hfirst, hsecond⟩
    exact .again hfirst hsecond

/-! ## Assertions -/

theorem atLineStart_iff : atLineStart before.getLast? ↔ EndsInFeed before := by
  cases before using List.reverseRecOn <;> simp [atLineStart, EndsInFeed]

theorem atLineEnd_iff : atLineEnd after.head? ↔ BeginsWithFeed after := by
  cases after <;> simp [atLineEnd, BeginsWithFeed]

theorem atWordEdge_iff : atWordEdge before.getLast? after.head? ↔
    ¬(EndsInWord before ↔ BeginsWithWord after) := by
  have hbefore : before.getLast?.any Text.isWord ↔ EndsInWord before := by
    rw [Option.any_eq_true]
    rfl
  have hafter : after.head?.any Text.isWord ↔ BeginsWithWord after := by
    rw [Option.any_eq_true]
    rfl
  rw [← hbefore, ← hafter, atWordEdge, bne_iff_ne, ne_eq, Bool.eq_iff_iff]

/-! ## One place -/

theorem matches_nil_iff :
    Matches p before [] after ↔ nullable before.getLast? after.head? p := by
  induction p with
  | empty => simpa [nullable] using Matches.empty
  | lineStart =>
    rw [nullable, atLineStart_iff]
    constructor
    · intro h
      cases h with
      | lineStart h => exact h
    · exact .lineStart
  | lineEnd =>
    rw [nullable, atLineEnd_iff]
    constructor
    · intro h
      cases h with
      | lineEnd h => exact h
    · exact .lineEnd
  | wordEdge =>
    rw [nullable, atWordEdge_iff]
    constructor
    · intro h
      cases h with
      | wordEdge h => exact h
    · exact .wordEdge
  | oneOf classes =>
    simp only [nullable, Bool.false_eq_true, iff_false]
    rintro ⟨⟩
  | seq p q ihp ihq =>
    rw [nullable, Bool.and_eq_true, ← ihp, ← ihq, matches_seq_iff]
    constructor
    · rintro ⟨first, second, hnil, hp, hq⟩
      obtain ⟨rfl, rfl⟩ := List.append_eq_nil_iff.1 hnil.symm
      rw [List.append_nil] at hq
      exact ⟨hp, hq⟩
    · rintro ⟨hp, hq⟩
      exact ⟨[], [], rfl, hp, by rwa [List.append_nil]⟩
  | alt p q ihp ihq => rw [nullable, Bool.or_eq_true, ← ihp, ← ihq, matches_alt_iff]
  | star p => simpa [nullable] using Matches.done

theorem matches_cons_iff : Matches p before (c :: stretch) after ↔
    ∃ r ∈ residues before.getLast? c p, Matches r (before ++ [c]) stretch after := by
  induction p generalizing stretch after with
  | empty | lineStart | lineEnd | wordEdge =>
    simp only [residues, List.not_mem_nil, false_and, exists_false, iff_false]
    rintro ⟨⟩
  | oneOf classes =>
    simp only [residues]
    constructor
    · rintro ⟨⟩
      rename_i k hk hc
      rw [if_pos (List.any_eq_true.2 ⟨k, hk, hc⟩)]
      exact ⟨.empty, List.mem_singleton_self _, .empty⟩
    · rintro ⟨r, hr, hmatch⟩
      split_ifs at hr with hany
      · obtain ⟨k, hk, hc⟩ := List.any_eq_true.1 hany
        obtain rfl := List.mem_singleton.1 hr
        cases hmatch
        exact .oneOf hk hc
      · cases hr
  | seq p q ihp ihq =>
    simp only [residues, List.mem_append, List.mem_map]
    rw [matches_seq_iff]
    constructor
    · rintro ⟨first, second, htext, hp, hq⟩
      cases first with
      | nil =>
        -- Nothing is matched by the first part, so the character belongs to the second.
        obtain rfl : second = c :: stretch := htext.symm
        rw [List.append_nil] at hq
        have hnull : nullable before.getLast? (some c) p := matches_nil_iff.1 hp
        obtain ⟨r, hr, hmatch⟩ := ihq.1 hq
        exact ⟨r, .inr (by rwa [if_pos hnull]), hmatch⟩
      | cons d first =>
        obtain ⟨rfl, rfl⟩ := List.cons.inj htext
        obtain ⟨r, hr, hmatch⟩ := ihp.1 hp
        refine ⟨_, .inl ⟨r, hr, rfl⟩, matches_followedBy_iff.2 ?_⟩
        exact .seq hmatch (by simpa using hq)
    · rintro ⟨r, ⟨r', hr', rfl⟩ | hr, hmatch⟩
      · obtain ⟨first, second, rfl, hfirst, hsecond⟩ :=
          matches_seq_iff.1 (matches_followedBy_iff.1 hmatch)
        exact ⟨c :: first, second, rfl, ihp.2 ⟨r', hr', hfirst⟩, by simpa using hsecond⟩
      · split_ifs at hr with hnull
        · refine ⟨[], c :: stretch, rfl, matches_nil_iff.2 hnull, ?_⟩
          rw [List.append_nil]
          exact ihq.2 ⟨r, hr, hmatch⟩
        · cases hr
  | alt p q ihp ihq =>
    simp only [residues, List.mem_append, or_and_right, exists_or]
    rw [← ihp, ← ihq, matches_alt_iff]
  | star p ih =>
    simp only [residues, List.mem_map]
    rw [matches_star_cons_iff]
    constructor
    · rintro ⟨first, second, rfl, hfirst, hsecond⟩
      obtain ⟨r, hr, hmatch⟩ := ih.1 hfirst
      refine ⟨_, ⟨r, hr, rfl⟩, matches_followedBy_iff.2 ?_⟩
      exact .seq hmatch (by simpa using hsecond)
    · rintro ⟨_, ⟨r, hr, rfl⟩, hmatch⟩
      obtain ⟨first, second, rfl, hfirst, hsecond⟩ :=
        matches_seq_iff.1 (matches_followedBy_iff.1 hmatch)
      exact ⟨first, second, rfl, ih.2 ⟨r, hr, hfirst⟩, by simpa using hsecond⟩

/-! ## Searching -/

/-- A match begins at this place. -/
def BeginsAt (p : Pattern) (before rest : List Char) : Prop :=
  ∃ stretch after, rest = stretch ++ after ∧ Matches p before stretch after

theorem beginsAt_nil_iff : BeginsAt p before [] ↔ nullable before.getLast? none p := by
  have hnil : Matches p before [] [] ↔ nullable before.getLast? none p := matches_nil_iff
  rw [← hnil]
  constructor
  · rintro ⟨stretch, after, hnil, hmatch⟩
    obtain ⟨rfl, rfl⟩ := List.append_eq_nil_iff.1 hnil.symm
    exact hmatch
  · intro hmatch
    exact ⟨[], [], rfl, hmatch⟩

theorem beginsAt_cons_iff : BeginsAt p before (c :: rest) ↔
    nullable before.getLast? (some c) p ∨
      ∃ r ∈ residues before.getLast? c p, BeginsAt r (before ++ [c]) rest := by
  constructor
  · rintro ⟨stretch, after, htext, hmatch⟩
    cases stretch with
    | nil =>
      obtain rfl : after = c :: rest := htext.symm
      exact .inl (matches_nil_iff.1 hmatch)
    | cons d stretch =>
      obtain ⟨rfl, rfl⟩ := List.cons.inj htext
      obtain ⟨r, hr, hmatch⟩ := matches_cons_iff.1 hmatch
      exact .inr ⟨r, hr, stretch, after, rfl, hmatch⟩
  · rintro (hnull | ⟨r, hr, stretch, after, rfl, hmatch⟩)
    · exact ⟨[], c :: rest, rfl, matches_nil_iff.2 hnull⟩
    · exact ⟨c :: stretch, after, rfl, matches_cons_iff.2 ⟨r, hr, hmatch⟩⟩

/-- A search finds the end of a match that a pending pattern finishes, or a match that begins at
this place or later. -/
theorem searchFrom_iff (pending : List Pattern) :
    searchFrom p pending before.getLast? rest ↔
      (∃ q ∈ pending, BeginsAt q before rest) ∨
        ∃ passed rest', rest = passed ++ rest' ∧ BeginsAt p (before ++ passed) rest' := by
  induction rest generalizing before pending with
  | nil =>
    simp only [searchFrom, List.any_cons, Bool.or_eq_true, List.any_eq_true, ← beginsAt_nil_iff]
    rw [or_comm]
    refine or_congr_right ⟨fun h => ⟨[], [], rfl, by rwa [List.append_nil]⟩, ?_⟩
    rintro ⟨passed, rest', hnil, h⟩
    obtain ⟨rfl, rfl⟩ := List.append_eq_nil_iff.1 hnil.symm
    rwa [List.append_nil] at h
  | cons c rest ih =>
    have hnext := @ih (before ++ [c]) ((p :: pending).flatMap (residues before.getLast? c)).eraseDups
    rw [List.getLast?_concat] at hnext
    rw [searchFrom, Bool.or_eq_true, hnext, List.any_eq_true]
    simp only [List.mem_eraseDups, List.mem_flatMap]
    constructor
    · rintro (⟨q, hq, hnull⟩ | ⟨r, ⟨q, hq, hr⟩, hbegins⟩ | ⟨passed, rest', rfl, hbegins⟩)
      · have hbegins : BeginsAt q before (c :: rest) := beginsAt_cons_iff.2 (.inl hnull)
        rcases List.mem_cons.1 hq with rfl | hq
        · exact .inr ⟨[], _, rfl, by rwa [List.append_nil]⟩
        · exact .inl ⟨q, hq, hbegins⟩
      · have hbegins' : BeginsAt q before (c :: rest) :=
          beginsAt_cons_iff.2 (.inr ⟨r, hr, hbegins⟩)
        rcases List.mem_cons.1 hq with rfl | hq
        · exact .inr ⟨[], _, rfl, by rwa [List.append_nil]⟩
        · exact .inl ⟨q, hq, hbegins'⟩
      · rw [List.append_assoc] at hbegins
        exact .inr ⟨c :: passed, rest', rfl, hbegins⟩
    · have here : ∀ q ∈ p :: pending, BeginsAt q before (c :: rest) →
          (∃ q ∈ p :: pending, nullable before.getLast? (some c) q) ∨
            ∃ r, (∃ q ∈ p :: pending, r ∈ residues before.getLast? c q) ∧
              BeginsAt r (before ++ [c]) rest := by
        intro q hq hbegins
        rcases beginsAt_cons_iff.1 hbegins with hnull | ⟨r, hr, hbegins⟩
        · exact .inl ⟨q, hq, hnull⟩
        · exact .inr ⟨r, ⟨q, hq, hr⟩, hbegins⟩
      rintro (⟨q, hq, hbegins⟩ | ⟨passed, rest', htext, hbegins⟩)
      · rcases here q (List.mem_cons_of_mem p hq) hbegins with h | h
        · exact .inl h
        · exact .inr (.inl h)
      · cases passed with
        | nil =>
          obtain rfl : rest' = c :: rest := htext.symm
          rw [List.append_nil] at hbegins
          rcases here p List.mem_cons_self hbegins with h | h
          · exact .inl h
          · exact .inr (.inl h)
        | cons d passed =>
          obtain ⟨rfl, rfl⟩ := List.cons.inj htext
          exact .inr (.inr ⟨passed, rest', rfl, by rwa [List.append_assoc]⟩)

theorem isIn_iff {text : List Char} : p.isIn text ↔ p.OccursIn text := by
  have hsearch : searchFrom p [] [].getLast? text ↔ _ := searchFrom_iff []
  rw [isIn, show (none : Option Char) = [].getLast? from rfl, hsearch]
  constructor
  · rintro (⟨q, hq, -⟩ | ⟨passed, rest', rfl, stretch, after, rfl, hmatch⟩)
    · cases hq
    · exact ⟨passed, stretch, after, rfl, hmatch⟩
  · rintro ⟨before, stretch, after, rfl, hmatch⟩
    exact .inr ⟨before, _, rfl, stretch, after, rfl, hmatch⟩

/-- To see whether a pattern matches somewhere, search for it. -/
instance (p : Pattern) (text : List Char) : Decidable (p.OccursIn text) :=
  decidable_of_iff (p.isIn text) isIn_iff

end SyntaxGateway.Pattern
