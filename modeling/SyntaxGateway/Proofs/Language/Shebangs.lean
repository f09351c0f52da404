import Mathlib
import SyntaxGateway.Proofs.Language.Detection

/-!
# What a first line is evidence of

**Theorem (`byShebang_evidence`).** The first line is evidence of an entry exactly when it names a
program that, without the digits and dots at its end, is one of the entry's interpreters
(`Entry.IsRunBy`); the entry is then the only one. In particular an interpreter of the table is
found in every directory and with every version behind it, and where the name of the file says
nothing its language is detected.

A program is looked up as it stands and without its version. That the second look-up alone decides
is `isRunBy_iff`: an interpreter that is listed with a version is listed without it, too.
-/

namespace SyntaxGateway.Language

variable {content line program bare version : List Char} {e : Entry}

/-! ## Programs and lines -/

/-- What is left of a program without the digits and dots at its end. -/
structure Strips (program bare : List Char) : Prop where
  version : ∃ version, IsVersion version ∧ program = bare ++ version
  last : ∀ c ∈ bare.getLast?, ¬(c.isDigit ∨ c = '.')

/-- The line names a program that is an interpreter of the entry when its version is left out. -/
def Entry.IsRunBy (e : Entry) (line : List Char) : Prop :=
  ∃ program bare, NamesProgram line program ∧ Strips program bare ∧
    String.ofList bare ∈ e.interpreters

/-- The text is over, or a line break follows. -/
inductive EndsLine : List Char → Prop
  | ended : EndsLine []
  | feed {rest : List Char} : EndsLine ('\n' :: rest)
  | returnFeed {rest : List Char} : EndsLine ('\r' :: '\n' :: rest)

/-- Behind any byte-order marks the content opens with this line. -/
inductive OpensWith : (content line : List Char) → Prop
  | mk {marks line behind : List Char} : (∀ c ∈ marks, c.toNat = 0xFEFF) → EndsLine behind →
      OpensWith (marks ++ (line ++ behind)) line

theorem strips_withoutVersion (program : List Char) : Strips program (withoutVersion program) where
  version := exists_version program
  last := by
    intro c hc
    rw [withoutVersion, List.getLast?_reverse, Option.mem_def] at hc
    have hhead := List.head?_dropWhile_not (fun c : Char => c.isDigit || c = '.') program.reverse
    rw [hc] at hhead
    simpa using hhead

/-- Whether the version is part of the interpreter or stands behind it makes no difference. -/
theorem isRunBy_iff (he : e ∈ table) : e.IsRunBy line ↔ e.IsNamedIn line := by
  constructor
  · rintro ⟨program, bare, hnames, hstrips, hlisted⟩
    obtain ⟨version, hversion, rfl⟩ := hstrips.version
    exact ⟨_, hlisted, version, hversion, by rwa [String.toList_ofList]⟩
  · rintro ⟨interpreter, hinterpreter, version, hversion, hnames⟩
    refine ⟨_, _, hnames, strips_withoutVersion _, ?_⟩
    rw [withoutVersion_append hversion]
    exact withoutVersion_mem e he interpreter hinterpreter

/-! ## Lines that run an interpreter -/

theorem isBlank_of_isVersion (hversion : IsVersion version) :
    ∀ c ∈ version, Text.isBlank c = false ∧ c ≠ '/' := by
  intro c hc
  rcases hversion c hc with hdigit | rfl
  · have hcode : 48 ≤ c.toNat ∧ c.toNat ≤ 57 := by
      simpa [Char.isDigit, UInt32.le_iff_toNat_le] using hdigit
    refine ⟨?_, ?_⟩
    · simp only [Text.isBlank, Bool.or_eq_false_iff, Bool.and_eq_false_iff, decide_eq_false_iff_not,
        beq_eq_false_iff_ne]
      omega
    · rintro rfl
      exact absurd hcode (by decide)
  · decide

theorem isBlank_of_mem_interpreters : ∀ e ∈ table, ∀ interpreter ∈ e.interpreters,
    interpreter ≠ "" ∧ ∀ c ∈ interpreter.toList, Text.isBlank c = false ∧ c ≠ '/' := by
  simp [table, Text.isBlank]

theorem withoutVersion_ne_env : ∀ e ∈ table, ∀ interpreter ∈ e.interpreters,
    withoutVersion interpreter.toList ≠ ['e', 'n', 'v'] := by
  decide +kernel

/-- A text without blanks is one word. -/
theorem words_eq_singleton {word : List Char} (hword : ∀ c ∈ word, Text.isBlank c = false)
    (hne : word ≠ []) : Text.words word = [word] := by
  suffices h : ∀ taken : List Char, taken.reverse ++ word ≠ [] →
      Text.wordsFrom taken word = [taken.reverse ++ word] from h [] (by simpa using hne)
  clear hne
  induction word with
  | nil =>
    intro taken hne
    have htaken : taken ≠ [] := by simpa using hne
    simp [Text.wordsFrom, htaken]
  | cons c word ih =>
    intro taken _
    obtain ⟨hc, hword⟩ := List.forall_mem_cons.1 hword
    have hrest := ih hword (c :: taken) (by simp)
    simpa [Text.wordsFrom, hc] using hrest

/-- An interpreter of the table is named whatever directory stands in front of it and whatever
version behind it. -/
theorem namesProgram_of_directory {directory : List Char} {interpreter : String} (he : e ∈ table)
    (hinterpreter : interpreter ∈ e.interpreters)
    (hdirectory : ∀ c ∈ directory, Text.isBlank c = false)
    (hslash : directory.getLast? = some '/') (hversion : IsVersion version) :
    NamesProgram ('#' :: '!' :: (directory ++ (interpreter.toList ++ version)))
      (interpreter.toList ++ version) := by
  obtain ⟨hne, hplain⟩ := isBlank_of_mem_interpreters e he interpreter hinterpreter
  have hchars : ∀ c ∈ interpreter.toList ++ version, Text.isBlank c = false ∧ c ≠ '/' := by
    intro c hc
    rcases List.mem_append.1 hc with hc | hc
    · exact hplain c hc
    · exact isBlank_of_isVersion hversion c hc
  have hsolid : ∀ c ∈ directory ++ (interpreter.toList ++ version), Text.isBlank c = false := by
    intro c hc
    rcases List.mem_append.1 hc with hc | hc
    · exact hdirectory c hc
    · exact (hchars c hc).1
  have hword : directory ++ (interpreter.toList ++ version) ≠ [] := by simp [hne]
  obtain ⟨path, rfl⟩ := List.getLast?_eq_some_iff.1 hslash
  refine .direct (words_eq_singleton hsolid hword) ?_ ?_
  · rw [List.append_assoc]
    exact .behind fun hmem => (hchars _ hmem).2 rfl
  · intro henv
    have hbare : withoutVersion (interpreter.toList ++ version) = ['e', 'n', 'v'] := by
      rw [henv]
      rfl
    rw [withoutVersion_append hversion] at hbare
    exact withoutVersion_ne_env e he interpreter hinterpreter hbare

/-! ## First lines -/

theorem takeWhile_append_break (behind : List Char) (hline : '\n' ∉ line) :
    (line ++ '\n' :: behind).takeWhile (· ≠ '\n') = line := by
  rw [List.takeWhile_append_of_pos]
  · simp
  · intro c hc
    have hne : c ≠ '\n' := fun hbreak => hline (hbreak ▸ hc)
    simpa using hne

/-- The line that a content opens with is its first line, unless its ends look like a mark or like a
part of the line break. -/
theorem OpensWith.firstLine_eq (h : OpensWith content line) (hbreak : '\n' ∉ line)
    (hhead : ∃ c ∈ line.head?, c.toNat ≠ 0xFEFF) (hlast : line.getLast? ≠ some '\r') :
    firstLine content = line := by
  obtain @⟨marks, line, behind, hmarks, hbehind⟩ := h
  obtain ⟨c, hc, hmark⟩ := hhead
  obtain ⟨tail, rfl⟩ := List.head?_eq_some_iff.1 hc
  have htext : (marks ++ (c :: tail ++ behind)).dropWhile (·.toNat = 0xFEFF) =
      c :: tail ++ behind := by
    rw [List.dropWhile_append_of_pos (by simpa using hmarks)]
    exact List.dropWhile_cons_of_neg (by simpa using hmark)
  rw [firstLine, htext]
  cases hbehind with
  | ended =>
    have hwhole : (c :: tail).takeWhile (· ≠ '\n') = c :: tail := by
      refine List.takeWhile_eq_self_iff.2 fun d hd => ?_
      have hne : d ≠ '\n' := fun heq => hbreak (heq ▸ hd)
      simpa using hne
    simp only [List.append_nil, hwhole, ne_eq, not_true_eq_false, false_and, if_false]
  | feed =>
    simp only [takeWhile_append_break _ hbreak, hlast, and_false, if_false]
  | @returnFeed rest =>
    have hreturn : '\n' ∉ c :: tail ++ ['\r'] := by simpa using hbreak
    have htaken : (c :: tail ++ '\r' :: '\n' :: rest).takeWhile (· ≠ '\n') =
        c :: tail ++ ['\r'] := by
      rw [← takeWhile_append_break rest hreturn, List.append_assoc]
      rfl
    have hne : c :: tail ++ ['\r'] ≠ c :: tail ++ '\r' :: '\n' :: rest := by simp
    simp only [htaken, hne, ne_eq, not_false_eq_true, List.getLast?_concat, and_self, if_true,
      List.dropLast_concat]

/-! ## Evidence -/

theorem byShebang_eq_singleton_iff :
    byShebang content = [e] ↔ e ∈ table ∧ e.IsRunBy (firstLine content) := by
  constructor
  · intro h
    by_cases hnamed : ∃ e' ∈ table, e'.IsNamedIn (firstLine content)
    · obtain ⟨e', he', hnamed⟩ := hnamed
      obtain rfl : e' = e := by
        rw [byShebang_of_named he' hnamed] at h
        exact List.head_eq_of_cons_eq h
      exact ⟨he', (isRunBy_iff he').2 hnamed⟩
    · rw [byShebang_of_unnamed fun e' he' h' => hnamed ⟨e', he', h'⟩] at h
      cases h
  · rintro ⟨he, hruns⟩
    exact byShebang_of_named he ((isRunBy_iff he).1 hruns)

theorem byShebang_ne_nil_iff :
    byShebang content ≠ [] ↔ ∃ e ∈ table, e.IsRunBy (firstLine content) := by
  constructor
  · intro h
    by_contra hnone
    refine h (byShebang_of_unnamed fun e he hnamed => hnone ⟨e, he, ?_⟩)
    exact (isRunBy_iff he).2 hnamed
  · rintro ⟨e, he, hruns⟩
    rw [byShebang_eq_singleton_iff.2 ⟨he, hruns⟩]
    exact List.cons_ne_nil e []

/-- A content is evidence of the one entry that lists the program of its first line, without its
version, and of nothing if there is none. An interpreter in a directory, with a version behind it,
leads to its language. -/
theorem byShebang_evidence (content : String) :
    (∀ e, byShebang content.toList = [e] ↔
        e ∈ table ∧ e.IsRunBy (firstLine content.toList)) ∧
      (byShebang content.toList ≠ [] ↔ ∃ e ∈ table, e.IsRunBy (firstLine content.toList)) ∧
      ∀ e ∈ table, ∀ interpreter ∈ e.interpreters, ∀ directory version : List Char,
        (∀ c ∈ directory, Text.isBlank c = false) → directory.getLast? = some '/' →
        IsVersion version →
        OpensWith content.toList ('#' :: '!' :: (directory ++ (interpreter.toList ++ version))) →
        byShebang content.toList = [e] ∧
          ∀ fileName, (∀ e' ∈ table, ¬e'.HasFileName fileName) →
            (detect content fileName).value = e.language := by
  refine ⟨fun e => byShebang_eq_singleton_iff, byShebang_ne_nil_iff, ?_⟩
  intro e he interpreter hinterpreter directory version hdirectory hslash hversion hopens
  have hnames := namesProgram_of_directory he hinterpreter hdirectory hslash hversion
  have hsolid : ∀ c ∈ directory ++ (interpreter.toList ++ version), Text.isBlank c = false := by
    obtain ⟨-, hplain⟩ := isBlank_of_mem_interpreters e he interpreter hinterpreter
    simp only [List.mem_append]
    rintro c (hc | hc | hc)
    · exact hdirectory c hc
    · exact (hplain c hc).1
    · exact (isBlank_of_isVersion hversion c hc).1
  have hline : firstLine content.toList =
      '#' :: '!' :: (directory ++ (interpreter.toList ++ version)) := by
    refine hopens.firstLine_eq ?_ ⟨'#', rfl, by decide⟩ ?_
    · intro hmem
      have hblank := hsolid '\n' (by simpa using hmem)
      exact absurd hblank (by decide)
    · intro hreturn
      have hblank := hsolid '\r' (by simpa using List.mem_of_getLast? hreturn)
      exact absurd hblank (by decide)
  have hnamed : e.IsNamedIn (firstLine content.toList) :=
    ⟨interpreter, hinterpreter, version, hversion, hline ▸ hnames⟩
  refine ⟨byShebang_of_named he hnamed, fun fileName hname => ?_⟩
  rw [value_detect, (Detects.line hname he hnamed).value_eq, Option.elim_some]

/-- Behind a mark, with a version that no entry lists and a carriage return at the end. -/
theorem byShebang_evidence_marked :
    ∃ e ∈ table, e.name = "Python" ∧ "python" ∈ e.interpreters ∧
      (∀ c ∈ "/usr/local/bin/".toList, Text.isBlank c = false) ∧
      "/usr/local/bin/".toList.getLast? = some '/' ∧ IsVersion "2.7.18".toList ∧
      OpensWith "\uFEFF#!/usr/local/bin/python2.7.18\r\nputs 1\n".toList
        "#!/usr/local/bin/python2.7.18".toList ∧
      byShebang "\uFEFF#!/usr/local/bin/python2.7.18\r\nputs 1\n".toList = [e] ∧
      (detect "\uFEFF#!/usr/local/bin/python2.7.18\r\nputs 1\n" none).value = e.language := by
  obtain ⟨e, he, hname, hlisted⟩ :
      ∃ e ∈ table, e.name = "Python" ∧ "python" ∈ e.interpreters := by simp [table]
  have htext : "\uFEFF#!/usr/local/bin/python2.7.18\r\nputs 1\n".toList =
      ['\uFEFF'] ++
        ("#!/usr/local/bin/python2.7.18".toList ++ '\r' :: '\n' :: "puts 1\n".toList) := by
    decide +kernel
  have hopens : OpensWith "\uFEFF#!/usr/local/bin/python2.7.18\r\nputs 1\n".toList
      "#!/usr/local/bin/python2.7.18".toList := by
    rw [htext]
    exact .mk (by simp) .returnFeed
  have hdirectory : ∀ c ∈ "/usr/local/bin/".toList, Text.isBlank c = false := by
    simp [Text.isBlank]
  have hversion : IsVersion "2.7.18".toList := by simp [IsVersion]
  obtain ⟨-, -, hruns⟩ :=
    byShebang_evidence "\uFEFF#!/usr/local/bin/python2.7.18\r\nputs 1\n"
  obtain ⟨hevidence, hdetect⟩ :=
    hruns e he "python" hlisted _ _ hdirectory rfl hversion hopens
  refine ⟨e, he, hname, hlisted, hdirectory, rfl, hversion, hopens, hevidence, hdetect none ?_⟩
  rintro e' - ⟨path, ⟨name, hnone, -⟩, -⟩
  cases hnone

end SyntaxGateway.Language
