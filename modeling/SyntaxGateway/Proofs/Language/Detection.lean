import Mathlib
import SyntaxGateway.Language.Detection
import SyntaxGateway.Proofs.Language.Interpreters
import SyntaxGateway.Proofs.Language.Scores

/-!
# The order of evidence

**Theorem (`detectEntry_evidence`).** A language is detected by the strongest evidence there is: the
exact name of the file, then the interpreter that the first line names, then the extension, then the
signatures in the content (`Detects`). Evidence other than signatures leads to one entry at most,
except for the extension `inc`, for which C++ and PHP are compared by their signatures alone. So
where the file name, the first line or an extension other than `inc` decides, the rest of the
content does not matter (`Settles`).

Each kind of evidence gives a list of entries. That it is empty or a single entry is a fact about
the table, and the detection is a case analysis over these lists. Capitals in an extension count as
small letters (`Lowers`), and signatures count where they match (`Entry.found`).
-/

namespace SyntaxGateway.Language

variable {content : List Char} {fileName : Option String} {path : List Char} {e : Entry}

/-! ## Evidence -/

/-- The file has a name, which is this path with or without blanks around it. A name that is only
blanks counts as none. -/
def HasPath (fileName : Option String) (path : List Char) : Prop :=
  ∃ name, fileName = some name ∧ path = (Text.trim name).toList ∧ path ≠ []

/-- The entry lists the base name of the file. -/
def Entry.HasFileName (e : Entry) (fileName : Option String) : Prop :=
  ∃ path, HasPath fileName path ∧ String.ofList (Path.baseName path) ∈ e.fileNames

/-- The second character is the first one, or its small letter if it is a capital. Beyond ASCII only
the Kelvin sign has a small letter of ASCII; as all extensions of the table are ASCII, any other
character may stand for itself. -/
inductive Lowers : Char → Char → Prop
  | capital {c d : Char} : 'A' ≤ c → c ≤ 'Z' → d.toNat = c.toNat + 32 → Lowers c d
  | kelvin {c : Char} : c.toNat = 0x212A → Lowers c 'k'
  | other {c : Char} : ¬('A' ≤ c ∧ c ≤ 'Z') → c.toNat ≠ 0x212A → Lowers c c

/-- The file has this extension when its letters are made small. -/
def HasExtension (fileName : Option String) (extension : String) : Prop :=
  ∃ path written, HasPath fileName path ∧
    (Path.fileName? path).bind Path.extension? = some written ∧
      List.Forall₂ Lowers written extension.toList

/-- The entry lists the extension of the file. -/
def Entry.ListsExtension (e : Entry) (fileName : Option String) : Prop :=
  ∃ extension ∈ e.extensions, HasExtension fileName extension

/-- What the evidence says about a content and the name of its file. -/
inductive Detects (content : List Char) (fileName : Option String) : Option Entry → Prop
  | name {e : Entry} : e ∈ table → e.HasFileName fileName → Detects content fileName (some e)
  | line {e : Entry} : (∀ e ∈ table, ¬e.HasFileName fileName) →
      e ∈ table → e.IsNamedIn (firstLine content) → Detects content fileName (some e)
  | extension {e : Entry} {extension : String} : (∀ e ∈ table, ¬e.HasFileName fileName) →
      (∀ e ∈ table, ¬e.IsNamedIn (firstLine content)) → HasExtension fileName extension →
      extension ≠ "inc" → e ∈ table → extension ∈ e.extensions →
      Detects content fileName (some e)
  | inc {cpp php : Entry} : (∀ e ∈ table, ¬e.HasFileName fileName) →
      (∀ e ∈ table, ¬e.IsNamedIn (firstLine content)) → HasExtension fileName "inc" →
      cpp ∈ table → cpp.name = "C++" → php ∈ table → php.name = "PHP" →
      Detects content fileName
        (if php.found content < cpp.found content then some cpp
          else if cpp.found content < php.found content then some php
          else none)
  | content {answer : Option Entry} : (∀ e ∈ table, ¬e.HasFileName fileName) →
      (∀ e ∈ table, ¬e.IsNamedIn (firstLine content)) →
      (∀ e ∈ table, ¬e.ListsExtension fileName) →
      (∀ e : Entry, answer = some e ↔ e.Leads content table) → Detects content fileName answer

/-- The name of the file, the first line or the extension decides, without signatures. -/
def Settles (content : List Char) (fileName : Option String) : Prop :=
  (∃ e ∈ table, e.HasFileName fileName) ∨ (∃ e ∈ table, e.IsNamedIn (firstLine content)) ∨
    ∃ e ∈ table, ∃ extension ∈ e.extensions, extension ≠ "inc" ∧ HasExtension fileName extension

/-! ## Small letters -/

theorem toNat_of_capital {c : Char} (hlow : 'A' ≤ c) (hhigh : c ≤ 'Z') :
    65 ≤ c.toNat ∧ c.toNat ≤ 90 :=
  ⟨UInt32.le_iff_toNat_le.1 hlow, UInt32.le_iff_toNat_le.1 hhigh⟩

theorem lowers_foldCase (c : Char) : Lowers c (foldCase c) := by
  rw [foldCase]
  split
  next hkelvin => exact .kelvin hkelvin
  next hkelvin =>
    rw [Char.toLower]
    split
    next hcapital =>
      have hbounds := toNat_of_capital hcapital.1 hcapital.2
      refine .capital hcapital.1 hcapital.2 ?_
      rw [← Char.toNat_val, ← Char.toNat_val, UInt32.toNat_add]
      change (c.toNat + 32) % 4294967296 = c.toNat + 32
      omega
    next hcapital => exact .other hcapital hkelvin

theorem Lowers.unique {c d d' : Char} (h : Lowers c d) (h' : Lowers c d') : d = d' := by
  cases h with
  | capital hlow hhigh hd =>
    have hbounds := toNat_of_capital hlow hhigh
    cases h' with
    | capital _ _ hd' => exact Char.toNat_inj.1 (hd.trans hd'.symm)
    | kelvin hkelvin => omega
    | other hcapital => exact absurd ⟨hlow, hhigh⟩ hcapital
  | kelvin hkelvin =>
    cases h' with
    | capital hlow hhigh =>
      have hbounds := toNat_of_capital hlow hhigh
      omega
    | kelvin => rfl
    | other _ hother => exact absurd hkelvin hother
  | other hcapital hother =>
    cases h' with
    | capital hlow hhigh => exact absurd ⟨hlow, hhigh⟩ hcapital
    | kelvin hkelvin => exact absurd hkelvin hother
    | other => rfl

theorem foldCase_eq_iff {c d : Char} : foldCase c = d ↔ Lowers c d := by
  constructor
  · rintro rfl
    exact lowers_foldCase c
  · exact fun h => (lowers_foldCase c).unique h

theorem eq_map_foldCase_iff {written : List Char} {extension : String} :
    extension = String.ofList (written.map foldCase) ↔
      List.Forall₂ Lowers written extension.toList := by
  have hletters : written.map foldCase = extension.toList ↔
      List.Forall₂ Lowers written extension.toList := by
    rw [← List.forall₂_eq_eq_eq, List.forall₂_map_left_iff]
    simp only [foldCase_eq_iff]
  rw [← hletters]
  constructor
  · rintro rfl
    rw [String.toList_ofList]
  · intro h
    rw [h, String.ofList_toList]
/-! ## The lists of entries -/

theorem usableName_eq_some_iff : usableName fileName = some path ↔ HasPath fileName path := by
  cases fileName with
  | none => simp [usableName, HasPath]
  | some name =>
    by_cases hblank : (Text.trim name).toList = []
    · simp_all [usableName, HasPath]
    · simp only [usableName, if_neg hblank, HasPath, Option.some.injEq]
      constructor
      · rintro rfl
        exact ⟨name, rfl, rfl, hblank⟩
      · rintro ⟨_, rfl, rfl, -⟩
        rfl

theorem HasPath.unique {path' : List Char} (h : HasPath fileName path)
    (h' : HasPath fileName path') : path' = path := by
  rw [← usableName_eq_some_iff] at h h'
  exact Option.some.inj (h'.symm.trans h)

theorem HasExtension.unique {extension extension' : String} (h : HasExtension fileName extension)
    (h' : HasExtension fileName extension') : extension' = extension := by
  obtain ⟨path, written, hpath, hwritten, hletters⟩ := h
  obtain ⟨path', written', hpath', hwritten', hletters'⟩ := h'
  obtain rfl := hpath.unique hpath'
  obtain rfl := Option.some.inj (hwritten.symm.trans hwritten')
  exact (eq_map_foldCase_iff.2 hletters').trans (eq_map_foldCase_iff.2 hletters).symm

/-- What the name of the file leads to. -/
def byName (fileName : Option String) : List Entry := (usableName fileName).elim [] byFileName

/-- What the extension of the file leads to. -/
def bySuffix (fileName : Option String) : List Entry := (usableName fileName).elim [] byExtension

theorem byName_of_listed (he : e ∈ table) (h : e.HasFileName fileName) : byName fileName = [e] := by
  obtain ⟨path, hpath, hlisted⟩ := h
  rw [byName, usableName_eq_some_iff.2 hpath]
  exact filter_listed nodup_fileNames he hlisted

theorem byName_of_unlisted (h : ∀ e ∈ table, ¬e.HasFileName fileName) : byName fileName = [] := by
  rw [byName]
  cases hname : usableName fileName with
  | none => rfl
  | some path =>
    refine filter_unlisted ?_
    intro e he hlisted
    exact h e he ⟨path, usableName_eq_some_iff.1 hname, hlisted⟩

theorem bySuffix_of_extension {extension : String} (h : HasExtension fileName extension) :
    bySuffix fileName = table.filter (·.extensions.contains extension) := by
  obtain ⟨path, written, hpath, hwritten, hletters⟩ := h
  obtain rfl := eq_map_foldCase_iff.2 hletters
  rw [bySuffix, usableName_eq_some_iff.2 hpath, Option.elim_some, byExtension, hwritten]

theorem bySuffix_of_listed {extension : String} (h : HasExtension fileName extension)
    (hinc : extension ≠ "inc") (he : e ∈ table) (hlisted : extension ∈ e.extensions) :
    bySuffix fileName = [e] := by
  rw [bySuffix_of_extension h]
  refine filter_eq_singleton he (by simpa using hlisted) ?_
  intro e' he' hlisted'
  refine eq_of_listed nodup_ownExtensions he (Entry.mem_ownExtensions_iff.2 ⟨hlisted, hinc⟩) he' ?_
  exact Entry.mem_ownExtensions_iff.2 ⟨by simpa using hlisted', hinc⟩

theorem bySuffix_of_unlisted (h : ∀ e ∈ table, ¬e.ListsExtension fileName) :
    bySuffix fileName = [] := by
  by_cases hext : ∃ extension, HasExtension fileName extension
  · obtain ⟨extension, hextension⟩ := hext
    rw [bySuffix_of_extension hextension]
    refine filter_unlisted ?_
    intro e he hlisted
    exact h e he ⟨extension, hlisted, hextension⟩
  · rw [bySuffix]
    cases hname : usableName fileName with
    | none => rfl
    | some path =>
      rw [Option.elim_some, byExtension]
      cases hwritten : (Path.fileName? path).bind Path.extension? with
      | none => rfl
      | some written =>
        exact absurd ⟨_, path, written, usableName_eq_some_iff.1 hname, hwritten,
          eq_map_foldCase_iff.1 rfl⟩ hext

/-! ## From lists to an answer -/

theorem candidates_eq (content : List Char) (fileName : Option String) :
    candidates content (usableName fileName) =
      match byName fileName with
      | [] =>
        match byShebang content with
        | [] => bySuffix fileName
        | found => found
      | found => found := rfl

/-- A single candidate is detected; otherwise the signatures choose among the candidates, or in the
whole table if there are none. -/
theorem value_detectEntry (content : String) (fileName : Option String) :
    (detectEntry content fileName).value =
      match candidates content.toList (usableName fileName) with
      | [only] => some only
      | [] => byContent content.toList table
      | found => byContent content.toList found := by
  rw [detectEntry]
  rcases candidates content.toList (usableName fileName) with _ | ⟨e, _ | ⟨e', es⟩⟩ <;>
    simp only [Logged.value_bind, Logged.value_pure, List.isEmpty_nil, List.isEmpty_cons, if_true,
      if_false, Bool.false_eq_true]

theorem value_detect (content : String) (fileName : Option String) :
    (detect content fileName).value =
      (detectEntry content fileName).value.elim unknown (·.language) := rfl

/-- Of two entries the one with more signatures is chosen. -/
theorem byContent_pair {a b : Entry} (hne : a ≠ b) :
    byContent content [a, b] =
      if b.found content < a.found content then some a
      else if a.found content < b.found content then some b
      else none := by
  have hpool : [a, b].Nodup := by simpa using hne
  by_cases hb : b.found content < a.found content
  · rw [if_pos hb, byContent_eq_some_iff hpool]
    refine ⟨by simp, by omega, ?_⟩
    intro other hother hother'
    obtain rfl : other = b := by simpa [hother'] using hother
    exact hb
  · rw [if_neg hb]
    by_cases ha : a.found content < b.found content
    · rw [if_pos ha, byContent_eq_some_iff hpool]
      refine ⟨by simp, by omega, ?_⟩
      intro other hother hother'
      obtain rfl : other = a := by simpa [hother'] using hother
      exact ha
    · rw [if_neg ha, byContent_eq_none_iff hpool]
      intro e h
      have he : e = a ∨ e = b := by simpa using h.mem
      rcases he with rfl | rfl
      · exact hb (h.lt b (by simp) (Ne.symm hne))
      · exact ha (h.lt a (by simp) hne)

/-! ## Detection -/

theorem eq_of_name {e' : Entry} (he : e ∈ table) (he' : e' ∈ table) (h : e'.name = e.name) :
    e' = e :=
  List.inj_on_of_nodup_map nodup_names he' he h

/-- What the evidence says is detected. -/
theorem Detects.value_eq {content : String} {answer : Option Entry}
    (h : Detects content.toList fileName answer) :
    (detectEntry content fileName).value = answer := by
  rw [value_detectEntry, candidates_eq]
  cases h with
  | name he hname => simp only [byName_of_listed he hname]
  | line hname he hline => simp only [byName_of_unlisted hname, byShebang_of_named he hline]
  | extension hname hline hextension hinc he hlisted =>
    simp only [byName_of_unlisted hname, byShebang_of_unnamed hline,
      bySuffix_of_listed hextension hinc he hlisted]
  | @inc cpp php hname hline hextension hcpp hcppName hphp hphpName =>
    obtain ⟨cpp', php', hcppName', hphpName', hfilter⟩ := filter_inc
    have hmem : ∀ e ∈ [cpp', php'], e ∈ table := by
      rw [← hfilter]
      exact fun e he => (List.mem_filter.1 he).1
    obtain rfl := eq_of_name (hmem cpp' (by simp)) hcpp (hcppName.trans hcppName'.symm)
    obtain rfl := eq_of_name (hmem php' (by simp)) hphp (hphpName.trans hphpName'.symm)
    have hne : cpp ≠ php := by
      rintro rfl
      simp [hcppName] at hphpName
    simp only [byName_of_unlisted hname, byShebang_of_unnamed hline,
      bySuffix_of_extension hextension, hfilter]
    exact byContent_pair hne
  | content hname hline hextension hanswer =>
    simp only [byName_of_unlisted hname, byShebang_of_unnamed hline,
      bySuffix_of_unlisted hextension]
    ext e
    rw [byContent_eq_some_iff nodup_table, hanswer]

/-- The evidence always says something, if only that nothing is known. -/
theorem exists_detects (content : List Char) (fileName : Option String) :
    ∃ answer, Detects content fileName answer := by
  by_cases hname : ∃ e ∈ table, e.HasFileName fileName
  · obtain ⟨e, he, hname⟩ := hname
    exact ⟨_, .name he hname⟩
  have hunnamed : ∀ e ∈ table, ¬e.HasFileName fileName := fun e he h => hname ⟨e, he, h⟩
  by_cases hline : ∃ e ∈ table, e.IsNamedIn (firstLine content)
  · obtain ⟨e, he, hline⟩ := hline
    exact ⟨_, .line hunnamed he hline⟩
  have hsilent : ∀ e ∈ table, ¬e.IsNamedIn (firstLine content) := fun e he h => hline ⟨e, he, h⟩
  by_cases hlisted : ∃ e ∈ table, e.ListsExtension fileName
  · obtain ⟨e, he, extension, hextension, hhas⟩ := hlisted
    by_cases hinc : extension = "inc"
    · obtain ⟨cpp, php, hcpp, hphp, hfilter⟩ := filter_inc
      have hmem : ∀ e ∈ [cpp, php], e ∈ table := by
        rw [← hfilter]
        exact fun e he => (List.mem_filter.1 he).1
      exact ⟨_, .inc hunnamed hsilent (hinc ▸ hhas) (hmem cpp (by simp)) hcpp (hmem php (by simp))
        hphp⟩
    · exact ⟨_, .extension hunnamed hsilent hhas hinc he hextension⟩
  · refine ⟨byContent content table, .content hunnamed hsilent ?_ ?_⟩
    · exact fun e he h => hlisted ⟨e, he, h⟩
    · exact fun e => byContent_eq_some_iff nodup_table

/-- Where signatures are not needed, contents with the same first line give the same answer. -/
theorem Detects.congr {other : List Char} {answer : Option Entry}
    (h : Detects content fileName answer) (hsettles : Settles content fileName)
    (hline : firstLine other = firstLine content) : Detects other fileName answer := by
  cases h with
  | name he hname => exact .name he hname
  | line hname he hnamed => exact .line hname he (hline ▸ hnamed)
  | extension hname hsilent hextension hinc he hlisted =>
    exact .extension hname (hline ▸ hsilent) hextension hinc he hlisted
  | inc hname hsilent hextension =>
    obtain ⟨e, he, h⟩ | ⟨e, he, h⟩ | ⟨e, he, extension, hlisted, hne, h⟩ := hsettles
    · exact absurd h (hname e he)
    · exact absurd h (hsilent e he)
    · exact absurd (hextension.unique h) hne
  | content hname hsilent hunlisted =>
    obtain ⟨e, he, h⟩ | ⟨e, he, h⟩ | ⟨e, he, extension, hlisted, -, h⟩ := hsettles
    · exact absurd h (hname e he)
    · exact absurd h (hsilent e he)
    · exact absurd ⟨extension, hlisted, h⟩ (hunlisted e he)

/-- What is detected is what the strongest evidence says. Where that is no matter of signatures, it
is the same for all contents with the same first line. -/
theorem detectEntry_evidence (content : String) (fileName : Option String) :
    (∀ answer, (detectEntry content fileName).value = answer ↔
        Detects content.toList fileName answer) ∧
      (detect content fileName).value =
        (detectEntry content fileName).value.elim unknown (·.language) ∧
      (Settles content.toList fileName → ∀ other : String,
        firstLine other.toList = firstLine content.toList →
          (detectEntry other fileName).value = (detectEntry content fileName).value) := by
  obtain ⟨answer, hanswer⟩ := exists_detects content.toList fileName
  have hvalue : (detectEntry content fileName).value = answer := hanswer.value_eq
  refine ⟨?_, value_detect content fileName, ?_⟩
  · intro answer'
    constructor
    · rintro rfl
      rwa [hvalue]
    · exact fun h => h.value_eq
  · intro hsettles other hline
    rw [hvalue]
    exact (hanswer.congr hsettles hline).value_eq

/-- A first line decides against the extension, and a carriage return at its end is no part of it.
Where the first line names nothing, the extension decides, in capitals, too. -/
theorem detectEntry_evidence_env :
    Settles "#!/usr/bin/env python3\nx = 1\n".toList (some "tool.rb") ∧
      firstLine "#!/usr/bin/env python3\r\nputs 1\n".toList =
        firstLine "#!/usr/bin/env python3\nx = 1\n".toList ∧
      (∃ e ∈ table, e.name = "Python" ∧
        (detectEntry "#!/usr/bin/env python3\nx = 1\n" (some "tool.rb")).value = some e ∧
        (detectEntry "#!/usr/bin/env python3\r\nputs 1\n" (some "tool.rb")).value = some e) ∧
      ∃ e ∈ table, e.name = "Ruby" ∧
        (detectEntry "import os\n" (some "tool.RB")).value = some e := by
  have hunnamed {name : String} (hpath : HasPath (some name) name.toList)
      (h : ∀ e ∈ table, String.ofList (Path.baseName name.toList) ∉ e.fileNames) :
      ∀ e ∈ table, ¬e.HasFileName (some name) := by
    rintro e he ⟨path, hpath', hlisted⟩
    obtain rfl := hpath.unique hpath'
    exact h e he hlisted
  have hrb : HasPath (some "tool.rb") "tool.rb".toList := usableName_eq_some_iff.1 (by decide)
  have hRB : HasPath (some "tool.RB") "tool.RB".toList := usableName_eq_some_iff.1 (by decide)
  have hnames : NamesProgram (firstLine "#!/usr/bin/env python3\nx = 1\n".toList)
      ("python3".toList ++ []) := program?_eq_some_iff.1 (by decide)
  have hsame : firstLine "#!/usr/bin/env python3\r\nputs 1\n".toList =
      firstLine "#!/usr/bin/env python3\nx = 1\n".toList := by decide
  obtain ⟨python, hpython, hpythonName, hlisted⟩ :
      ∃ e ∈ table, e.name = "Python" ∧ "python3" ∈ e.interpreters := by simp [table]
  have hline : python.IsNamedIn (firstLine "#!/usr/bin/env python3\nx = 1\n".toList) :=
    ⟨"python3", hlisted, [], by simp [IsVersion], hnames⟩
  have hsettles : Settles "#!/usr/bin/env python3\nx = 1\n".toList (some "tool.rb") :=
    .inr (.inl ⟨python, hpython, hline⟩)
  obtain ⟨hiff, -, hcongr⟩ :=
    detectEntry_evidence "#!/usr/bin/env python3\nx = 1\n" (some "tool.rb")
  have hvalue := (hiff (some python)).2 (.line (hunnamed hrb (by decide +kernel)) hpython hline)
  refine ⟨hsettles, hsame, ⟨python, hpython, hpythonName, hvalue,
    (hcongr hsettles _ hsame).trans hvalue⟩, ?_⟩
  obtain ⟨ruby, hruby, hrubyName, hextension⟩ :
      ∃ e ∈ table, e.name = "Ruby" ∧ "rb" ∈ e.extensions := by simp [table]
  have hsilent : ∀ e ∈ table, ¬e.IsNamedIn (firstLine "import os\n".toList) := by
    rintro e he ⟨interpreter, -, version, -, hnames⟩
    have hnone : program? (firstLine "import os\n".toList) = none := by decide
    rw [← program?_eq_some_iff, hnone] at hnames
    cases hnames
  have hsuffix : HasExtension (some "tool.RB") "rb" :=
    ⟨_, "RB".toList, hRB, by decide, eq_map_foldCase_iff.1 (by decide)⟩
  refine ⟨ruby, hruby, hrubyName, ?_⟩
  exact ((detectEntry_evidence "import os\n" (some "tool.RB")).1 (some ruby)).2 <|
    .extension (hunnamed hRB (by decide +kernel)) hsilent hsuffix (by decide) hruby hextension

end SyntaxGateway.Language
