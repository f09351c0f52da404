import Mathlib
import SyntaxGateway.Proofs.Language.Listings

/-!
# The interpreter of a first line

A first line `#!` names a program: the last part of the first word behind it, or, if that is `env`,
the first later word that is neither an option nor an assignment (`NamesProgram`). An entry is named
when the program is one of its interpreters with or without a version behind it (`IsNamedIn`).

**Theorems (`byShebang_of_named`, `byShebang_of_unnamed`).** The evidence of a content is the entry
that its first line names, alone, and nothing if its first line names no entry.

A program is looked up as it stands and then without its version. Both look-ups agree, because the
table lists every interpreter also without its version, under the same entry
(`withoutVersion_mem`).
-/

namespace SyntaxGateway.Language

variable {content line word part program version : List Char} {e : Entry}

/-! ## First lines -/

/-- The text up to its first line break, which is a line feed or a carriage return and a line feed.
Byte-order marks in front do not count. -/
def firstLine (content : List Char) : List Char :=
  let text := content.dropWhile (·.toNat = 0xFEFF)
  let line := text.takeWhile (· ≠ '\n')
  if line ≠ text ∧ line.getLast? = some '\r' then line.dropLast else line

/-- What stands behind the last slash of a word, if it has one, or else the word. -/
inductive IsLastPart : (word part : List Char) → Prop
  | whole {part : List Char} : '/' ∉ part → IsLastPart part part
  | behind {path part : List Char} : '/' ∉ part → IsLastPart (path ++ '/' :: part) part

/-- The line names the program behind `#!`. The program `env` stands for the first of its arguments
that is neither an option nor an assignment. -/
inductive NamesProgram : (line program : List Char) → Prop
  | direct {rest word program : List Char} {arguments : List (List Char)} :
      Text.words rest = word :: arguments → IsLastPart word program → program ≠ ['e', 'n', 'v'] →
      NamesProgram ('#' :: '!' :: rest) program
  | env {rest word program : List Char} {skipped later : List (List Char)} :
      Text.words rest = word :: (skipped ++ program :: later) → IsLastPart word ['e', 'n', 'v'] →
      (∀ w ∈ skipped, w.head? = some '-' ∨ '=' ∈ w) → program.head? ≠ some '-' → '=' ∉ program →
      NamesProgram ('#' :: '!' :: rest) program

/-- Digits and dots, as in the version of a program. -/
def IsVersion (version : List Char) : Prop := ∀ c ∈ version, c.isDigit ∨ c = '.'

/-- The line names an interpreter of the entry, with or without a version. -/
def Entry.IsNamedIn (e : Entry) (line : List Char) : Prop :=
  ∃ interpreter ∈ e.interpreters, ∃ version, IsVersion version ∧
    NamesProgram line (interpreter.toList ++ version)

/-! ## Programs of a line -/

theorem lastPart_eq_iff : lastPart word = part ↔ IsLastPart word part := by
  constructor
  · rintro rfl
    have hpart : '/' ∉ lastPart word := by
      intro hmem
      rw [lastPart, List.mem_reverse] at hmem
      simpa using List.mem_takeWhile_imp hmem
    have hword : word = (word.reverse.dropWhile (· ≠ '/')).reverse ++ lastPart word := by
      rw [lastPart, ← List.reverse_append, List.takeWhile_append_dropWhile, List.reverse_reverse]
    cases hpath : word.reverse.dropWhile (· ≠ '/') with
    | nil =>
      rw [hpath, List.reverse_nil, List.nil_append] at hword
      rw [← hword] at hpart ⊢
      exact .whole hpart
    | cons c path =>
      have hc : c = '/' := by
        have hhead := List.head?_dropWhile_not (· ≠ '/') word.reverse
        rw [hpath] at hhead
        simpa using hhead
      rw [hpath, hc, List.reverse_cons, List.append_assoc] at hword
      have hbehind : IsLastPart (path.reverse ++ '/' :: lastPart word) (lastPart word) :=
        .behind hpart
      rwa [← List.singleton_append, ← hword] at hbehind
  · intro h
    cases h with
    | whole hpart =>
      rw [lastPart, List.takeWhile_eq_self_iff.2, List.reverse_reverse]
      intro c hc
      have hne : c ≠ '/' := fun hslash => hpart (by simpa [hslash] using hc)
      simpa using hne
    | @behind path part hpart =>
      have hreverse : (path ++ '/' :: part).reverse = part.reverse ++ '/' :: path.reverse := by simp
      rw [lastPart, hreverse, List.takeWhile_append_of_pos]
      · simp
      · intro c hc
        have hne : c ≠ '/' := fun hslash => hpart (by simpa [hslash] using hc)
        simpa using hne

/-- The program that a line names. -/
def program? : (line : List Char) → Option (List Char)
  | '#' :: '!' :: rest =>
    match Text.words rest with
    | [] => none
    | word :: arguments =>
      if lastPart word = ['e', 'n', 'v'] then arguments.find? isProgramWord
      else some (lastPart word)
  | _ => none

theorem isProgramWord_iff : isProgramWord word ↔ word.head? ≠ some '-' ∧ '=' ∉ word := by
  simp [isProgramWord]

theorem program?_eq_some_iff : program? line = some program ↔ NamesProgram line program := by
  constructor
  · intro h
    unfold program? at h
    split at h
    · next rest =>
      cases hwords : Text.words rest with
      | nil => simp [hwords] at h
      | cons word arguments =>
        by_cases henv : lastPart word = ['e', 'n', 'v']
        · simp only [hwords, if_pos henv] at h
          obtain ⟨hprogram, skipped, later, rfl, hskipped⟩ := List.find?_eq_some_iff_append.1 h
          obtain ⟨hoption, hassignment⟩ := isProgramWord_iff.1 hprogram
          refine .env hwords (lastPart_eq_iff.1 henv) ?_ hoption hassignment
          intro w hw
          have hw' := hskipped w hw
          by_contra hboth
          rw [not_or] at hboth
          simp [isProgramWord_iff.2 hboth] at hw'
        · simp only [hwords, if_neg henv, Option.some.injEq] at h
          refine .direct hwords (lastPart_eq_iff.1 h) ?_
          exact fun heq => henv (h.trans heq)
    · cases h
  · intro h
    cases h with
    | direct hwords hpart hne =>
      have hpart' := lastPart_eq_iff.2 hpart
      simp only [program?, hwords, hpart', if_neg hne]
    | env hwords hpart hskipped hoption hassignment =>
      simp only [program?, hwords, if_pos (lastPart_eq_iff.2 hpart)]
      refine List.find?_eq_some_iff_append.2
        ⟨isProgramWord_iff.2 ⟨hoption, hassignment⟩, _, _, rfl, ?_⟩
      intro w hw
      rcases hskipped w hw with h | h <;> simp [isProgramWord, h]

/-! ## Line breaks -/

theorem wordsFrom_append_blank {c : Char} (hc : Text.isBlank c) (word cs : List Char) :
    Text.wordsFrom word (cs ++ [c]) = Text.wordsFrom word cs := by
  fun_induction Text.wordsFrom word cs with
  | case1 word hword => simp [Text.wordsFrom, hc, hword]
  | case2 word hword => simp [Text.wordsFrom, hc, hword]
  | case3 word d cs hd hword ih => simp [Text.wordsFrom, hd, hword, ih]
  | case4 word d cs hd hword ih => simp [Text.wordsFrom, hd, hword, ih]
  | case5 word d cs hd ih => simp [Text.wordsFrom, hd, ih]

/-- A carriage return at the end of a line is blank, so it belongs to no word. -/
theorem program?_append_return (line : List Char) : program? (line ++ ['\r']) = program? line := by
  have hwords (rest : List Char) : Text.words (rest ++ ['\r']) = Text.words rest :=
    wordsFrom_append_blank (by decide) [] rest
  match line with
  | [] => rfl
  | [c] => simp [program?]
  | c :: d :: rest =>
    by_cases hmark : c = '#' ∧ d = '!'
    · obtain ⟨rfl, rfl⟩ := hmark
      simp only [List.cons_append, program?, hwords]
    · unfold program?
      split
      · next heq =>
        simp only [List.cons_append, List.cons.injEq] at heq
        exact absurd ⟨heq.1, heq.2.1⟩ hmark
      · split
        · next heq =>
          simp only [List.cons.injEq] at heq
          exact absurd ⟨heq.1, heq.2.1⟩ hmark
        · rfl

theorem interpreter?_eq (content : List Char) :
    interpreter? content = program? (firstLine content) := by
  have hline : interpreter? content =
      program? ((content.dropWhile (·.toNat = 0xFEFF)).takeWhile (· ≠ '\n')) := rfl
  rw [hline, firstLine]
  split
  · next h =>
    obtain ⟨line, hreturn⟩ := List.getLast?_eq_some_iff.1 h.2
    rw [hreturn, List.dropLast_concat, program?_append_return]
  · rfl

theorem interpreter?_eq_some_iff :
    interpreter? content = some program ↔ NamesProgram (firstLine content) program := by
  rw [interpreter?_eq, program?_eq_some_iff]

/-! ## Versions -/

theorem exists_version (program : List Char) :
    ∃ version, IsVersion version ∧ program = withoutVersion program ++ version := by
  refine ⟨(program.reverse.takeWhile fun c => c.isDigit || c = '.').reverse, ?_, ?_⟩
  · intro c hc
    rw [List.mem_reverse] at hc
    simpa using List.mem_takeWhile_imp hc
  · rw [withoutVersion, ← List.reverse_append, List.takeWhile_append_dropWhile,
      List.reverse_reverse]

theorem withoutVersion_append (hversion : IsVersion version) :
    withoutVersion (program ++ version) = withoutVersion program := by
  rw [withoutVersion, List.reverse_append, List.dropWhile_append_of_pos, withoutVersion]
  intro c hc
  simpa using hversion c (by simpa using hc)

/-- Every interpreter is listed without its version too. -/
theorem withoutVersion_mem : ∀ e ∈ table, ∀ interpreter ∈ e.interpreters,
    String.ofList (withoutVersion interpreter.toList) ∈ e.interpreters := by
  decide +kernel

/-! ## Evidence -/

/-- The first line's evidence is the entry that it names. -/
theorem byShebang_of_named (he : e ∈ table) (h : e.IsNamedIn (firstLine content)) :
    byShebang content = [e] := by
  obtain ⟨interpreter, hinterpreter, version, hversion, hnames⟩ := h
  have hbare : String.ofList (withoutVersion (interpreter.toList ++ version)) ∈ e.interpreters := by
    rw [withoutVersion_append hversion]
    exact withoutVersion_mem e he interpreter hinterpreter
  have hfound : byInterpreter (withoutVersion (interpreter.toList ++ version)) = [e] :=
    filter_listed nodup_interpreters he hbare
  rw [byShebang, interpreter?_eq_some_iff.2 hnames]
  by_cases hexact : ∃ e' ∈ table, String.ofList (interpreter.toList ++ version) ∈ e'.interpreters
  · obtain ⟨e', he', hlisted⟩ := hexact
    -- The entry that lists the program as it stands lists it without its version too.
    have hbare' := withoutVersion_mem e' he' _ hlisted
    rw [String.toList_ofList] at hbare'
    obtain rfl := eq_of_listed nodup_interpreters he hbare he' hbare'
    have hexactly : byInterpreter (interpreter.toList ++ version) = [e'] :=
      filter_listed nodup_interpreters he' hlisted
    simp only [hexactly]
  · have hnone : byInterpreter (interpreter.toList ++ version) = [] :=
      filter_unlisted fun e' he' hlisted => hexact ⟨e', he', hlisted⟩
    simp only [hnone, hfound]

/-- A first line that names no entry is no evidence. -/
theorem byShebang_of_unnamed (h : ∀ e ∈ table, ¬e.IsNamedIn (firstLine content)) :
    byShebang content = [] := by
  rw [byShebang]
  cases hprogram : interpreter? content with
  | none => rfl
  | some program =>
    have hnames := interpreter?_eq_some_iff.1 hprogram
    have hexact : byInterpreter program = [] := by
      refine filter_unlisted ?_
      intro e he hlisted
      refine h e he ⟨_, hlisted, [], by simp [IsVersion], ?_⟩
      rwa [String.toList_ofList, List.append_nil]
    have hbare : byInterpreter (withoutVersion program) = [] := by
      refine filter_unlisted ?_
      intro e he hlisted
      obtain ⟨version, hversion, heq⟩ := exists_version program
      refine h e he ⟨_, hlisted, version, hversion, ?_⟩
      rwa [String.toList_ofList, ← heq]
    simp only [hexact, hbare]

end SyntaxGateway.Language
