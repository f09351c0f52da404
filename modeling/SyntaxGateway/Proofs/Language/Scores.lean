import Mathlib
import SyntaxGateway.Language.Evidence
import SyntaxGateway.Proofs.Language.Matching

/-!
# The best score

**Theorem (`byContent_eq_some_iff`).** The content chooses an entry of a pool exactly when it has a
signature of that entry, and fewer signatures of every other entry of the pool. So a tie for the
first place chooses nothing, and neither does a content without signatures.

What counts is how many of an entry's signatures match somewhere in the content, and that is its
score (`Entry.score_eq`). The scores are compared with the largest one, which is the score of some
entry unless it is zero (`best_mem`). An entry leads when it is the only one with that score.
-/

namespace SyntaxGateway.Language

variable {content : List Char} {pool : List Entry} {e : Entry}

/-- The number of signatures of the entry that match somewhere in the content. -/
def Entry.found (e : Entry) (content : List Char) : Nat :=
  e.signatures.countP (·.OccursIn content)

theorem Entry.score_eq (e : Entry) (content : List Char) : e.score content = e.found content := by
  refine List.countP_congr fun s _ => ?_
  rw [decide_eq_true_eq, Pattern.isIn_iff]

/-- The content has signatures of the entry, and more than of any other entry of the pool. -/
structure Entry.Leads (e : Entry) (content : List Char) (pool : List Entry) : Prop where
  mem : e ∈ pool
  pos : 0 < e.found content
  lt : ∀ other ∈ pool, other ≠ e → other.found content < e.found content

theorem Entry.leads_iff : e.Leads content pool ↔ e ∈ pool ∧ 0 < e.score content ∧
    ∀ other ∈ pool, other ≠ e → other.score content < e.score content := by
  simp only [Entry.score_eq]
  exact ⟨fun h => ⟨h.mem, h.pos, h.lt⟩, fun ⟨hmem, hpos, hlt⟩ => ⟨hmem, hpos, hlt⟩⟩

/-! ## The largest score -/

/-- The largest score in a pool, or zero if the pool is empty. -/
def best (content : List Char) (pool : List Entry) : Nat :=
  (pool.map (·.score content)).foldl max 0

theorem best_eq (content : List Char) (pool : List Entry) :
    best content pool = (pool.map (·.score content)).max?.getD 0 := by
  rw [best, List.foldl_max, Nat.zero_max]

theorem score_le_best (h : e ∈ pool) : e.score content ≤ best content pool := by
  have hmem : e.score content ∈ pool.map (·.score content) := List.mem_map_of_mem h
  rw [best_eq]
  cases hmax : (pool.map (·.score content)).max? with
  | none =>
    rw [List.max?_eq_none_iff] at hmax
    simp [hmax] at hmem
  | some m =>
    rw [List.max?_eq_some_iff] at hmax
    exact hmax.2 _ hmem

theorem best_mem (h : best content pool ≠ 0) : ∃ e ∈ pool, e.score content = best content pool := by
  rw [best_eq] at h ⊢
  cases hmax : (pool.map (·.score content)).max? with
  | none => simp [hmax] at h
  | some m =>
    rw [List.max?_eq_some_iff] at hmax
    obtain ⟨e, he, hscore⟩ := List.mem_map.1 hmax.1
    exact ⟨e, he, hscore⟩

/-! ## The choice -/

/-- The entries of a pool with the largest score. -/
def winners (content : List Char) (pool : List Entry) : List Entry :=
  pool.filter fun e => e.score content = best content pool

theorem mem_winners_iff :
    e ∈ winners content pool ↔ e ∈ pool ∧ e.score content = best content pool := by
  simp [winners]

theorem byContent_eq (content : List Char) (pool : List Entry) :
    byContent content pool =
      if best content pool = 0 then none
      else
        match winners content pool with
        | [e] => some e
        | _ => none := by
  have hbest : ((pool.map fun e => (e, e.score content)).map (·.2)).foldl max 0 =
      best content pool := by
    rw [List.map_map]
    rfl
  have hwinners : ((pool.map fun e => (e, e.score content)).filter fun s =>
      s.2 = best content pool) = (winners content pool).map fun e => (e, e.score content) := by
    rw [List.filter_map]
    rfl
  simp only [byContent, hbest, hwinners]
  by_cases hzero : best content pool = 0
  · rw [if_pos hzero, if_pos hzero]
  · rw [if_neg hzero, if_neg hzero]
    rcases winners content pool with _ | ⟨e, _ | ⟨e', es⟩⟩ <;> rfl

/-- One entry alone has the largest score exactly when it leads. -/
theorem winners_eq_singleton_iff (hpool : pool.Nodup) (hbest : best content pool ≠ 0) :
    winners content pool = [e] ↔ e.Leads content pool := by
  rw [Entry.leads_iff]
  constructor
  · intro h
    have hmem : ∀ e', e' ∈ pool ∧ e'.score content = best content pool ↔ e' = e := by
      intro e'
      rw [← mem_winners_iff, h, List.mem_singleton]
    obtain ⟨he, hscore⟩ := (hmem e).2 rfl
    refine ⟨he, by omega, ?_⟩
    intro other hother hne
    have hle : other.score content ≤ best content pool := score_le_best hother
    have hne' : other.score content ≠ best content pool := by
      intro heq
      exact hne ((hmem other).1 ⟨hother, heq⟩)
    omega
  · rintro ⟨hmem, -, hlead⟩
    obtain ⟨top, htop, hscore⟩ := best_mem hbest
    -- The entry that leads is the one with the largest score.
    have heq : e.score content = best content pool := by
      by_cases hsame : top = e
      · exact hsame ▸ hscore
      · have hlt := hlead top htop hsame
        have hle : e.score content ≤ best content pool := score_le_best hmem
        omega
    have hnodup : (winners content pool).Nodup := hpool.filter _
    rw [← List.perm_singleton, List.perm_ext_iff_of_nodup hnodup (List.nodup_singleton e)]
    intro other
    rw [mem_winners_iff, List.mem_singleton]
    constructor
    · rintro ⟨hother, hsame⟩
      by_contra hne
      have hlt := hlead other hother hne
      omega
    · rintro rfl
      exact ⟨hmem, heq⟩

/-- The content chooses the entry that leads. -/
theorem byContent_eq_some_iff (hpool : pool.Nodup) :
    byContent content pool = some e ↔ e.Leads content pool := by
  rw [byContent_eq]
  by_cases hbest : best content pool = 0
  · rw [if_pos hbest]
    refine iff_of_false (by simp) ?_
    rw [Entry.leads_iff]
    rintro ⟨hmem, hpos, -⟩
    have hle : e.score content ≤ best content pool := score_le_best hmem
    omega
  · rw [if_neg hbest, ← winners_eq_singleton_iff hpool hbest]
    rcases winners content pool with _ | ⟨e', _ | ⟨e'', es⟩⟩ <;> simp

/-- The content chooses nothing when no entry leads. -/
theorem byContent_eq_none_iff (hpool : pool.Nodup) :
    byContent content pool = none ↔ ∀ e : Entry, ¬e.Leads content pool := by
  rw [Option.eq_none_iff_forall_ne_some]
  exact forall_congr' fun e => not_congr (byContent_eq_some_iff hpool)

end SyntaxGateway.Language
