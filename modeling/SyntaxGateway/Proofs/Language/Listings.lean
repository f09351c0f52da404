import Mathlib
import SyntaxGateway.Language.Evidence

/-!
# What the table lists

The evidence for a language is looked up in lists of file names, interpreters and extensions. No two
entries list the same file name or the same interpreter, and `inc` is the only extension that two
entries list. So what is looked up leads to one entry or to none (`filter_listed`,
`filter_unlisted`), `inc` apart (`filter_inc`).
-/

namespace SyntaxGateway.Language

variable {keys : Entry → List String} {key : String} {e e' : Entry}

/-! ## Facts about the table -/

theorem nodup_names : (table.map (·.name)).Nodup := by decide +kernel

theorem nodup_table : table.Nodup := nodup_names.of_map

theorem nodup_fileNames : (table.flatMap (·.fileNames)).Nodup := by decide +kernel

theorem nodup_interpreters : (table.flatMap (·.interpreters)).Nodup := by decide +kernel

/-- The extensions of an entry that no other entry lists. -/
def Entry.ownExtensions (e : Entry) : List String := e.extensions.filter (· ≠ "inc")

theorem Entry.mem_ownExtensions_iff : key ∈ e.ownExtensions ↔ key ∈ e.extensions ∧ key ≠ "inc" := by
  simp [ownExtensions]

theorem nodup_ownExtensions : (table.flatMap (·.ownExtensions)).Nodup := by decide +kernel

/-! ## Looking up -/

/-- Lists without repetition share no key. -/
theorem eq_of_listed (hkeys : (table.flatMap keys).Nodup) (he : e ∈ table) (hkey : key ∈ keys e)
    (he' : e' ∈ table) (hkey' : key ∈ keys e') : e' = e := by
  rw [List.nodup_flatMap] at hkeys
  by_contra hne
  have hsymm : Std.Symm (Function.onFun List.Disjoint keys) := ⟨fun _ _ h => List.Disjoint.symm h⟩
  have hdisjoint : List.Disjoint (keys e') (keys e) := hkeys.2.forall he' he hne
  exact hdisjoint hkey' hkey

/-- A test that one entry passes alone leaves just that entry. -/
theorem filter_eq_singleton {test : Entry → Bool} (he : e ∈ table) (htest : test e)
    (hunique : ∀ e' ∈ table, test e' → e' = e) : table.filter test = [e] := by
  have hnodup : (table.filter test).Nodup := nodup_table.filter _
  rw [← List.perm_singleton, List.perm_ext_iff_of_nodup hnodup (List.nodup_singleton e)]
  intro e'
  rw [List.mem_filter, List.mem_singleton]
  constructor
  · rintro ⟨he', htest'⟩
    exact hunique e' he' htest'
  · rintro rfl
    exact ⟨he, htest⟩

theorem filter_listed (hkeys : (table.flatMap keys).Nodup) (he : e ∈ table) (hkey : key ∈ keys e) :
    table.filter (fun e' => (keys e').contains key) = [e] := by
  refine filter_eq_singleton he (by simpa using hkey) ?_
  intro e' he' hkey'
  exact eq_of_listed hkeys he hkey he' (by simpa using hkey')

theorem filter_unlisted (h : ∀ e ∈ table, key ∉ keys e) :
    table.filter (fun e => (keys e).contains key) = [] := by
  rw [List.filter_eq_nil_iff]
  intro e he
  simpa using h e he

/-- The two entries that list `inc`. -/
theorem filter_inc : ∃ cpp php, cpp.name = "C++" ∧ php.name = "PHP" ∧
    table.filter (fun e => e.extensions.contains "inc") = [cpp, php] :=
  ⟨_, _, rfl, rfl, rfl⟩

end SyntaxGateway.Language
