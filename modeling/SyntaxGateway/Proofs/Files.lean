import Mathlib
import SyntaxGateway.Files.Disk
import SyntaxGateway.Proofs.Text.Utf8

/-!
# Disks keep what is written

A path leads to a file, or to a place where a file could be (`Holds`). Then whether something is
there can be told, it can be read, and what is written is found there again (`write_of_holds`).

A path meets the place that it leads to only at its end: up to there it meets directories, and the
place is none (`endsAt_cons`). So putting a file there changes nothing on the way to it
(`follow_put`).

What is asked of files in a disk is answered from the disk (`run_isThere`, `run_readText`,
`run_write`).
-/

namespace SyntaxGateway.Disk

variable {d : Disk} {path : String} {place : List (List Char)} {content : Bytes}

/-- The path leads to a file with this content; or else nothing is where it leads, and a file could
be. -/
def Holds (d : Disk) (path : String) : Option Bytes → Prop
  | some content => ∃ place, d.locate path = .ok (.file place content)
  | none => (∃ place, d.locate path = .ok (.vacant place)) ∧ endsInDirectory path.toList = false

/-! ## Putting a file -/

theorem lookup_put (d : Disk) (place : List (List Char)) (content : Bytes) :
    (d.put place content).files.lookup place = some content := by
  simp [put]

theorem lookup_put_of_ne {other : List (List Char)} (h : other ≠ place) :
    (d.put place content).files.lookup other = d.files.lookup other := by
  have hskip (p : List (List Char)) (bytes : Bytes) (files : List (List (List Char) × Bytes))
      (hp : other ≠ p) : ((p, bytes) :: files).lookup other = files.lookup other := by
    rw [List.lookup_cons, beq_eq_false_iff_ne.2 hp]
  have hfilter (files : List (List (List Char) × Bytes)) :
      (files.filter (·.1 ≠ place)).lookup other = files.lookup other := by
    induction files with
    | nil => rfl
    | cons file files ih =>
      obtain ⟨p, bytes⟩ := file
      by_cases hp : p = place
      · rw [List.filter_cons_of_neg (by simpa using hp), ih, hskip p bytes files (hp ▸ h)]
      · rw [List.filter_cons_of_pos (by simpa using hp), List.lookup_cons, List.lookup_cons, ih]
  exact (hskip place content _ h).trans (hfilter d.files)

/-- The names lead to a file at the place, or to the place with nothing there. -/
def EndsAt (d : Disk) (here names place : List (List Char)) : Prop :=
  (∃ old, d.follow here names = .ok (.file place old)) ∨ d.follow here names = .ok (.vacant place)

/-- A name leads up, or into a directory, or to a place that is none, where the way ends. -/
theorem endsAt_cons {here rest : List (List Char)} {name : List Char}
    (h : d.EndsAt here (name :: rest) place) :
    (name = ['.', '.'] ∧ d.EndsAt here.dropLast rest place) ∨
      name ≠ ['.', '.'] ∧
        ((d.files.lookup (here ++ [name]) = none ∧ d.directories.contains (here ++ [name]) ∧
            d.EndsAt (here ++ [name]) rest place) ∨
          (rest = [] ∧ place = here ++ [name] ∧
            (d.files.lookup place ≠ none ∨ d.directories.contains place = false))) := by
  unfold EndsAt at h ⊢
  rw [follow] at h
  by_cases hup : name = ['.', '.']
  · simp only [if_pos hup] at h
    exact .inl ⟨hup, h⟩
  · simp only [if_neg hup] at h
    refine .inr ⟨hup, ?_⟩
    cases hfile : d.files.lookup (here ++ [name]) with
    | some content =>
      simp only [hfile] at h
      by_cases hrest : rest = []
      · simp only [if_pos hrest] at h
        rcases h with ⟨old, h⟩ | h <;> cases h
        exact .inr ⟨hrest, rfl, .inl (by simp [hfile])⟩
      · simp [if_neg hrest] at h
    | none =>
      simp only [hfile] at h
      by_cases hdirectory : d.directories.contains (here ++ [name])
      · simp only [if_pos hdirectory] at h
        exact .inl ⟨rfl, hdirectory, h⟩
      · by_cases hrest : rest = []
        · simp only [if_neg hdirectory, if_pos hrest] at h
          rcases h with ⟨old, h⟩ | h <;> cases h
          exact .inr ⟨hrest, rfl, .inr (by simpa using hdirectory)⟩
        · simp only [if_neg hdirectory, if_neg hrest] at h
          rcases h with ⟨old, h⟩ | h <;> cases h

theorem not_directory_of_endsAt {here names : List (List Char)} (h : d.EndsAt here names place) :
    d.files.lookup place ≠ none ∨ d.directories.contains place = false := by
  induction names generalizing here with
  | nil => rcases h with ⟨old, h⟩ | h <;> cases h
  | cons name rest ih =>
    obtain ⟨-, hrest⟩ | ⟨-, ⟨-, -, hrest⟩ | ⟨-, -, hplace⟩⟩ := endsAt_cons h
    · exact ih hrest
    · exact ih hrest
    · exact hplace

/-- With a file put at its end, the way leads to the file. -/
theorem follow_put {here names : List (List Char)} (h : d.EndsAt here names place)
    (content : Bytes) : (d.put place content).follow here names = .ok (.file place content) := by
  induction names generalizing here with
  | nil => rcases h with ⟨old, h⟩ | h <;> cases h
  | cons name rest ih =>
    rw [follow]
    obtain ⟨hup, hrest⟩ | ⟨hup, ⟨hfile, hdirectory, hrest⟩ | ⟨rfl, rfl, -⟩⟩ := endsAt_cons h
    · rw [if_pos hup]
      exact ih hrest
    · have hne : here ++ [name] ≠ place := by
        rintro rfl
        rcases not_directory_of_endsAt hrest with hsome | hnone
        · exact hsome hfile
        · exact Bool.false_ne_true (hnone.symm.trans hdirectory)
      have hkept : (d.put place content).directories.contains (here ++ [name]) := hdirectory
      simp only [if_neg hup, lookup_put_of_ne hne, hfile, if_pos hkept]
      exact ih hrest
    · simp only [if_neg hup, lookup_put]
      rfl

/-! ## Paths -/

/-- Where a path that is not empty leads, its names lead; and a path that can only lead to a
directory leads to no file. -/
theorem locate_eq_ok_iff {found : Place} :
    d.locate path = .ok found ↔
      path.toList ≠ [] ∧ d.follow [] (Path.parts path.toList) = .ok found ∧
        ((∃ place content, found = .file place content) → endsInDirectory path.toList = false) := by
  unfold locate
  by_cases hne : path.toList = []
  · refine iff_of_false (fun h => ?_) fun h => h.1 hne
    simp only [if_pos hne] at h
    cases h
  · simp only [if_neg hne]
    cases hfollow : d.follow [] (Path.parts path.toList) with
    | error fault => exact iff_of_false (fun h => nomatch h) fun h => nomatch h.2.1
    | ok met =>
      cases met with
      | file place content =>
        show (if endsInDirectory path.toList then _ else Except.ok (Place.file place content)) =
          _ ↔ _
        cases endsInDirectory path.toList with
        | false => exact ⟨fun h => ⟨hne, h, fun _ => rfl⟩, fun h => h.2.1⟩
        | true =>
          refine iff_of_false (fun h => nomatch h) fun ⟨_, heq, hfile⟩ => ?_
          cases heq
          exact Bool.false_ne_true (hfile ⟨place, content, rfl⟩).symm
      | directory =>
        refine ⟨fun h => ⟨hne, h, fun ⟨_, _, hfile⟩ => ?_⟩, fun h => h.2.1⟩
        cases h
        cases hfile
      | vacant place =>
        refine ⟨fun h => ⟨hne, h, fun ⟨_, _, hfile⟩ => ?_⟩, fun h => h.2.1⟩
        cases h
        cases hfile

theorem isThere_of_holds {content? : Option Bytes} (h : d.Holds path content?) :
    d.isThere path = content?.isSome := by
  cases content? with
  | none =>
    obtain ⟨⟨place, hplace⟩, -⟩ := h
    rw [isThere, hplace]
    rfl
  | some content =>
    obtain ⟨place, hplace⟩ := h
    rw [isThere, hplace]
    rfl

theorem read_of_holds (h : d.Holds path (some content)) : d.read path = .ok content := by
  obtain ⟨place, hplace⟩ := h
  rw [read, hplace]
  rfl

/-- What is written is found there again. -/
theorem write_of_holds {content? : Option Bytes} (h : d.Holds path content?) (content : Bytes) :
    ∃ d', d.write path content = .ok d' ∧ d'.Holds path (some content) := by
  have hput {place : List (List Char)} (hne : path.toList ≠ [])
      (hends : d.EndsAt [] (Path.parts path.toList) place)
      (hfile : endsInDirectory path.toList = false) :
      (d.put place content).Holds path (some content) :=
    ⟨place, locate_eq_ok_iff.2 ⟨hne, follow_put hends content, fun _ => hfile⟩⟩
  cases content? with
  | none =>
    obtain ⟨⟨place, hplace⟩, hfile⟩ := h
    obtain ⟨hne, hfollow, -⟩ := locate_eq_ok_iff.1 hplace
    refine ⟨d.put place content, ?_, hput hne (.inr hfollow) hfile⟩
    rw [write, hplace]
    show (if endsInDirectory path.toList then _ else _) = _
    rw [hfile]
    rfl
  | some old =>
    obtain ⟨place, hplace⟩ := h
    obtain ⟨hne, hfollow, hfile⟩ := locate_eq_ok_iff.1 hplace
    refine ⟨d.put place content, ?_, hput hne (.inl ⟨old, hfollow⟩) (hfile ⟨place, old, rfl⟩)⟩
    rw [write, hplace]
    rfl

/-! ## Files on a disk -/

theorem run_isThere (path : String) (d : Disk) :
    StateT.run (Files.isThere path : StateM Disk _) d = pure (d.isThere path, d) := rfl

theorem run_read (path : String) (d : Disk) :
    StateT.run (Files.read path : StateM Disk _) d = pure (d.read path, d) := rfl

theorem run_readText (path : String) (d : Disk) :
    StateT.run (Files.readText path : StateM Disk _) d =
      pure ((d.read path).bind fun content =>
        (Utf8.toString? content).mapError fun _ => .notText, d) := by
  simp only [Files.readText, StateT.run_bind, run_read, pure_bind]
  cases d.read path <;> rfl

theorem run_write (path : String) (content : Bytes) (d : Disk) :
    StateT.run (Files.write path content : StateM Disk _) d =
      match d.write path content with
      | .error fault => pure (.error fault, d)
      | .ok d' => pure (.ok (), d') := by
  simp only [Files.write, StateT.run_bind, StateT.run_get, pure_bind]
  cases d.write path content <;> rfl

end SyntaxGateway.Disk
