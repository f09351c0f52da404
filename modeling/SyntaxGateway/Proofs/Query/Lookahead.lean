import SyntaxGateway.Proofs.Query.Trimming

/-!
# One character of lookahead

A reader of queries takes characters from the front of its input and looks at one more. What it
makes of an input, value or fault, it makes of every input that is the same up to and including
this character (`Peeks`).

**Theorem (`stepsOf_eq_missing`).** Where something is missing in a query, it is missing whatever
follows the character that was found instead.

The readers are put together from tests on the next character and from sequences (`branch`, `named`,
`skip`, `andThen`), and each of these keeps the property. Rows are read with as many rounds as their
input has characters, so it is shown first that more rounds make no difference.
-/

namespace SyntaxGateway.Query

variable {α β : Type} {front input rest x y : List Char}

/-- Takes characters from the front of its input. -/
abbrev Reader (α : Type) := List Char → Except Stuck (α × List Char)

/-! ## Where readers stop -/

/-- A reader of `input` that gets stuck says what is missing at some place of it, or that the
literal there is not closed. -/
inductive Placed (input : List Char) : Stuck → Prop
  | missing {what : Expected} {rest : List Char} : rest <:+ input →
      Placed input ⟨.expected what rest.head?, rest⟩
  | openLiteral {rest : List Char} : rest <:+ input → Placed input ⟨.openLiteral, rest⟩

theorem Placed.mono {s : Stuck} (h : Placed rest s) (hrest : rest <:+ input) : Placed input s := by
  cases h with
  | missing h => exact .missing (h.trans hrest)
  | openLiteral h => exact .openLiteral (h.trans hrest)

theorem Placed.isSuffix {s : Stuck} (h : Placed input s) : s.rest <:+ input := by
  cases h with
  | missing h => exact h
  | openLiteral h => exact h

/-- What a reader gives that stops in front of `rest`: its value, or what it misses there. -/
def stop : Except Expected α → List Char → Except Stuck (α × List Char)
  | .ok a, rest => .ok (a, rest)
  | .error what, rest => missing what rest

/-- The reader looks at one character behind those that it takes. -/
structure Peeks (read : Reader α) : Prop where
  isSuffix : ∀ {input a rest}, read input = .ok (a, rest) → rest <:+ input
  placed : ∀ {input s}, read input = .error s → Placed input s
  eq_stop : ∀ {front x y} {o : Except Expected α}, x.head? = y.head? →
    read (front ++ x) = stop o x → read (front ++ y) = stop o y

theorem Peeks.isSuffix_of_stop {read : Reader α} {o : Except Expected α} (h : Peeks read)
    (hread : read input = stop o x) : x <:+ input := by
  cases o with
  | ok a => exact h.isSuffix hread
  | error what => exact (h.placed hread).isSuffix

theorem head?_append_congr (h : x.head? = y.head?) : (front ++ x).head? = (front ++ y).head? := by
  rw [List.head?_append, List.head?_append, h]

/-! ## Ways to put readers together -/

theorem stop_append_eq_stop {o o' : Except Expected α} (h : stop o (front ++ x) = stop o' x) :
    front = [] ∧ o = o' := by
  cases o with
  | ok a =>
    cases o' with
    | ok b =>
      obtain ⟨rfl, hx⟩ := Prod.mk.inj (Except.ok.inj h)
      exact ⟨List.append_left_eq_self.1 hx, rfl⟩
    | error what => cases h
  | error what =>
    cases o' with
    | ok b => cases h
    | error what' =>
      obtain ⟨hwhat, hx⟩ := Stuck.mk.inj (Except.error.inj h)
      obtain ⟨rfl, -⟩ := Problem.expected.inj hwhat
      exact ⟨List.append_left_eq_self.1 hx, rfl⟩

/-- Taking nothing, for a value or as something is missing, looks at no more than the next
character. -/
theorem peeks_stop (o : Except Expected α) : Peeks (stop o) := by
  refine ⟨fun h => ?_, fun h => ?_, fun {front x y o'} _ h => ?_⟩
  · cases o with
    | ok a =>
      cases h
      exact List.suffix_refl _
    | error what => cases h
  · cases o with
    | ok a => cases h
    | error what =>
      cases h
      exact .missing (List.suffix_refl _)
  · obtain ⟨rfl, rfl⟩ := stop_append_eq_stop h
    rfl

/-- Takes nothing, for a value. -/
def done (a : α) : Reader α := stop (.ok a)

theorem peeks_done (a : α) : Peeks (done a) := peeks_stop (.ok a)

theorem peeks_missing (what : Expected) : Peeks (missing what : Reader α) :=
  peeks_stop (.error what)

/-- One reader after the other. -/
def andThen (read : Reader α) (next : α → Reader β) : Reader β := fun input =>
  read input >>= fun e => next e.1 e.2

theorem Peeks.andThen {read : Reader α} {next : α → Reader β} (h : Peeks read)
    (hnext : ∀ a, Peeks (next a)) : Peeks (andThen read next) := by
  refine ⟨fun hread => ?_, fun {input s} hread => ?_, fun {front x y o} hxy hread => ?_⟩
  · obtain ⟨⟨a, rest'⟩, ha, hb⟩ := bind_eq_ok_iff.1 hread
    exact ((hnext a).isSuffix hb).trans (h.isSuffix ha)
  · rw [Query.andThen] at hread
    cases ha : read input with
    | error s' =>
      rw [ha] at hread
      cases hread
      exact h.placed ha
    | ok e =>
      rw [ha] at hread
      exact ((hnext e.1).placed hread).mono (h.isSuffix ha)
  · rw [Query.andThen] at hread ⊢
    cases ha : read (front ++ x) with
    | error s =>
      rw [ha] at hread
      cases o with
      | ok b => cases hread
      | error what =>
        have hs : read (front ++ x) = stop (.error what) x := ha.trans (by cases hread; rfl)
        rw [h.eq_stop hxy hs]
        rfl
    | ok e =>
      obtain ⟨a, rest⟩ := e
      rw [ha] at hread
      -- The first reader stops in front of `mid`, with which the second one goes on.
      obtain ⟨mid, rfl⟩ := (hnext a).isSuffix_of_stop hread
      obtain ⟨taken, htaken⟩ := h.isSuffix ha
      rw [← List.append_assoc] at htaken
      obtain rfl := List.append_cancel_right htaken
      rw [List.append_assoc] at ha ⊢
      have ha' := h.eq_stop (o := .ok a) (head?_append_congr hxy) ha
      rw [ha']
      exact (hnext a).eq_stop hxy hread

/-- The reader `here` behind the character `c`, and `other` where something else is in front. -/
def branch (c : Char) (here other : Reader α) : Reader α
  | [] => other []
  | d :: rest => if d = c then here rest else other (d :: rest)

theorem branch_self {c : Char} {here other : Reader α} :
    branch c here other (c :: rest) = here rest := if_pos rfl

theorem branch_of_ne {c : Char} {here other : Reader α} (h : ∀ rest, input ≠ c :: rest) :
    branch c here other input = other input := by
  cases input with
  | nil => rfl
  | cons d rest => exact if_neg fun hd => h rest (by rw [hd])

theorem Peeks.branch {here other : Reader α} (c : Char) (hhere : Peeks here)
    (hother : Peeks other) : Peeks (branch c here other) := by
  refine ⟨fun {input a rest} hread => ?_, fun {input s} hread => ?_,
    fun {front x y o} hxy hread => ?_⟩
  · cases input with
    | nil => exact hother.isSuffix hread
    | cons d input =>
      rw [Query.branch] at hread
      split at hread
      · exact (hhere.isSuffix hread).trans (List.suffix_cons _ _)
      · exact hother.isSuffix hread
  · cases input with
    | nil => exact hother.placed hread
    | cons d input =>
      rw [Query.branch] at hread
      split at hread
      · exact (hhere.placed hread).mono (List.suffix_cons _ _)
      · exact hother.placed hread
  · cases front with
    | cons d front =>
      rw [List.cons_append, Query.branch] at hread ⊢
      split at hread
      · next hd =>
        rw [if_pos hd]
        exact hhere.eq_stop hxy hread
      · next hd =>
        rw [if_neg hd]
        rw [← List.cons_append] at hread ⊢
        exact hother.eq_stop hxy hread
    | nil =>
      rw [List.nil_append] at hread ⊢
      cases x with
      | nil =>
        obtain rfl := List.head?_eq_none_iff.1 hxy.symm
        exact hread
      | cons d x =>
        obtain ⟨y, rfl⟩ := List.head?_eq_some_iff.1 hxy.symm
        rw [Query.branch] at hread ⊢
        split at hread
        · -- What stands behind `c` does not begin with it.
          have hle := (hhere.isSuffix_of_stop hread).length_le
          rw [List.length_cons] at hle
          omega
        · next hd =>
          rw [if_neg hd]
          exact @Peeks.eq_stop _ _ hother [] _ _ _ hxy hread

/-- Blanks are skipped up to a character that is none, however the input goes on behind it. -/
theorem exists_trimStart_append (h : x <:+ Text.trimStart (front ++ x)) (hxy : x.head? = y.head?) :
    ∃ w mid, Blanks w ∧ front = w ++ mid ∧ Text.trimStart (front ++ x) = mid ++ x ∧
      Text.trimStart (front ++ y) = mid ++ y := by
  obtain ⟨mid, hmid⟩ := h
  obtain ⟨w, hw, hinput⟩ := exists_blanks (front ++ x)
  rw [← hmid, ← List.append_assoc] at hinput
  obtain rfl := List.append_cancel_right hinput
  refine ⟨w, mid, hw, rfl, hmid.symm, ?_⟩
  have hhead := List.head?_dropWhile_not Text.isBlank (w ++ mid ++ x)
  rw [← Text.trimStart, ← hmid, head?_append_congr hxy] at hhead
  rw [List.append_assoc, trimStart_append hw]
  cases hy : mid ++ y with
  | nil => rfl
  | cons c rest =>
    rw [hy] at hhead
    exact trimStart_cons (by simpa using hhead)

/-- The reader behind the blanks in front. -/
def skip (read : Reader α) : Reader α := fun input => read (Text.trimStart input)

theorem Peeks.skip {read : Reader α} (h : Peeks read) : Peeks (skip read) := by
  refine ⟨fun hread => ?_, fun hread => ?_, fun {front x y o} hxy hread => ?_⟩
  · exact (h.isSuffix hread).trans (trimStart_isSuffix _)
  · exact (h.placed hread).mono (trimStart_isSuffix _)
  · rw [Query.skip] at hread ⊢
    obtain ⟨w, mid, -, -, hx, hy⟩ := exists_trimStart_append (h.isSuffix_of_stop hread) hxy
    rw [hx] at hread
    rw [hy]
    exact h.eq_stop hxy hread

/-! ## Tokens -/

/-- A name, or `what` is missing. -/
def named (what : Expected) : Reader String := fun input =>
  match name? input with
  | some e => .ok e
  | none => missing what input

theorem name?_eq_none_iff : name? input = none ↔ ∀ c ∈ input.head?, isNameStart c = false := by
  cases input with
  | nil => simp [name?]
  | cons c rest => simp [name?]

theorem EndsName.congr (h : EndsName x) (hxy : x.head? = y.head?) : EndsName y :=
  fun c hc => h c (hxy ▸ hc)

theorem peeks_named (what : Expected) : Peeks (named what) := by
  refine ⟨fun {input name rest} hread => ?_, fun {input s} hread => ?_,
    fun {front x y o} hxy hread => ?_⟩
  · rw [named] at hread
    split at hread
    · next hname =>
      cases hread
      exact isSuffix_of_name? hname
    · cases hread
  · rw [named] at hread
    split at hread
    · cases hread
    · exact (peeks_missing (α := String) what).placed hread
  · rw [named] at hread ⊢
    split at hread
    · next hname =>
      cases o with
      | error what' => cases hread
      | ok name =>
        cases hread
        obtain ⟨n, hn, hderives, hends⟩ := name?_eq_some_iff.1 hname
        obtain rfl := List.append_cancel_right hn
        rw [name?_eq_some_iff.2 ⟨_, rfl, hderives, hends.congr hxy⟩]
        rfl
    · next hname =>
      rw [name?_eq_none_iff, head?_append_congr hxy] at hname
      rw [name?_eq_none_iff.2 hname]
      exact (peeks_missing what).eq_stop hxy hread

theorem literal_cases (input : List Char) :
    (∃ l rest value, input = l ++ rest ∧ DerivesLiteral l value ∧
        literal input = .ok (value, rest)) ∨
      (∃ q cs, input = q :: cs ∧ (q = '\'' ∨ q = '"') ∧ q ∉ cs ∧
        literal input = .error ⟨.openLiteral, input⟩) ∨
      (∀ q ∈ input.head?, ¬(q = '\'' ∨ q = '"')) ∧ literal input = missing .literal input := by
  cases input with
  | nil => exact .inr (.inr ⟨by simp, rfl⟩)
  | cons q cs =>
    by_cases hq : q = '\'' ∨ q = '"'
    · by_cases hmem : q ∈ cs
      · obtain ⟨before, after, rfl, hbefore⟩ := List.eq_append_cons_of_mem hmem
        have hl : DerivesLiteral (q :: (before ++ [q])) (String.ofList before) := .mk hq hbefore
        have hinput : q :: (before ++ q :: after) = q :: (before ++ [q]) ++ after := by simp
        exact .inl ⟨_, after, _, hinput, hl, literal_eq_ok_iff.2 ⟨_, hinput, hl⟩⟩
      · have hdrop : cs.dropWhile (· ≠ q) = [] := by
          rw [List.dropWhile_eq_nil_iff]
          intro d hd
          rw [decide_eq_true_eq]
          rintro rfl
          exact hmem hd
        refine .inr (.inl ⟨q, cs, rfl, hq, hmem, ?_⟩)
        rw [literal, if_pos (by simpa using hq), hdrop]
    · refine .inr (.inr ⟨by simpa using hq, ?_⟩)
      rw [literal, if_neg (by simpa using hq)]

theorem peeks_literal : Peeks literal := by
  refine ⟨fun {input value rest} hread => ?_, fun {input s} hread => ?_,
    fun {front x y o} hxy hread => ?_⟩
  · obtain ⟨l, rfl, -⟩ := literal_eq_ok_iff.1 hread
    exact List.suffix_append l rest
  · rcases literal_cases input with ⟨_, _, _, -, -, h⟩ | ⟨_, _, -, -, -, h⟩ | ⟨-, h⟩
    · rw [h] at hread
      cases hread
    · rw [h] at hread
      cases hread
      exact .openLiteral (List.suffix_refl _)
    · rw [h] at hread
      exact (peeks_missing (α := String) .literal).placed hread
  · cases o with
    | ok value =>
      obtain ⟨l, hl, hderives⟩ := literal_eq_ok_iff.1 hread
      obtain rfl := List.append_cancel_right hl
      exact literal_eq_ok_iff.2 ⟨_, rfl, hderives⟩
    | error what =>
      rcases literal_cases (front ++ x) with ⟨_, _, _, -, -, h⟩ | ⟨_, _, -, -, -, h⟩ | ⟨hquote, h⟩
      · rw [h] at hread
        cases hread
      · rw [h] at hread
        cases hread
      · rw [h] at hread
        rw [head?_append_congr hxy] at hquote
        rcases literal_cases (front ++ y) with ⟨_, _, _, hy, hl, -⟩ | ⟨_, _, hy, hq, -⟩ | ⟨-, hy⟩
        · obtain ⟨hq, -⟩ := hl
          exact absurd hq (hquote _ (by rw [hy]; rfl))
        · exact absurd hq (hquote _ (by rw [hy]; rfl))
        · rw [hy]
          exact (peeks_missing .literal).eq_stop hxy hread

theorem axis_eq :
    axis = branch '/' (branch '/' (done .descendant) (done .child)) (missing .slash) := by
  funext input
  rw [axis.eq_def]
  split
  · rw [branch_self, branch_self]
    rfl
  · next rest hne =>
    rw [branch_self, branch_of_ne fun tail htail => hne tail (by rw [htail])]
    rfl
  · next hne => rw [branch_of_ne hne]

theorem peeks_axis : Peeks axis := by
  rw [axis_eq]
  exact .branch _ (.branch _ (peeks_done _) (peeks_done _)) (peeks_missing _)

theorem nodeTest_eq :
    nodeTest = branch '*' (done .any) (andThen (named .test) fun name => done (.type name)) := by
  funext input
  rw [nodeTest.eq_def]
  split
  · rw [branch_self]
    rfl
  · next hne =>
    rw [branch_of_ne hne, andThen, named]
    cases name? input <;> rfl

theorem peeks_nodeTest : Peeks nodeTest := by
  rw [nodeTest_eq]
  exact .branch _ (peeks_done _) ((peeks_named _).andThen fun _ => peeks_done _)

/-! ## Predicates -/

theorem closing_eq (p : Predicate) :
    closing p = skip (branch ']' (done p) (missing .closing)) := by
  funext input
  rw [closing, skip]
  split
  · next h =>
    rw [h, branch_self]
    rfl
  · next hne => rw [branch_of_ne hne]

theorem peeks_closing (p : Predicate) : Peeks (closing p) := by
  rw [closing_eq]
  exact .skip (.branch _ (peeks_done _) (peeks_missing _))

/-- What a predicate says of the attribute that it names. -/
def condition (name : String) : Reader Predicate :=
  skip (branch '=' (andThen (skip literal) fun value => closing (.equals name value))
    (closing (.has name)))

theorem condition_eq (name : String) :
    condition name = fun input => match Text.trimStart input with
      | '=' :: rest => literal (Text.trimStart rest) >>= fun e => closing (.equals name e.1) e.2
      | rest => closing (.has name) rest := by
  funext input
  rw [condition, skip]
  split
  · next h =>
    rw [h, branch_self]
    rfl
  · next hne => rw [branch_of_ne hne]

theorem predicate_eq :
    predicate = skip (branch '@' (andThen (named .attributeName) condition)
      (missing .attribute)) := by
  funext input
  rw [predicate, skip]
  split
  · next rest h =>
    rw [h, branch_self, andThen, named]
    cases name? rest with
    | none => rfl
    | some e => exact (congrFun (condition_eq e.1) e.2).symm
  · next hne => rw [branch_of_ne hne]

theorem peeks_condition (name : String) : Peeks (condition name) :=
  .skip (.branch _ (peeks_literal.skip.andThen fun _ => peeks_closing _) (peeks_closing _))

theorem peeks_predicate : Peeks predicate := by
  rw [predicate_eq]
  exact .skip (.branch _ ((peeks_named _).andThen peeks_condition) (peeks_missing _))

theorem predicatesFrom_succ (before : List Predicate) (fuel : Nat) :
    predicatesFrom before (fuel + 1) =
      skip (branch '[' (andThen predicate fun p => predicatesFrom (p :: before) fuel)
        (done before.reverse)) := by
  funext input
  rw [predicatesFrom, skip]
  split
  · next h =>
    rw [h, branch_self]
    rfl
  · next hne =>
    rw [branch_of_ne hne]
    rfl

theorem peeks_predicatesFrom (before : List Predicate) (fuel : Nat) :
    Peeks (predicatesFrom before fuel) := by
  induction fuel generalizing before with
  | zero => exact peeks_done _
  | succ fuel ih =>
    rw [predicatesFrom_succ]
    exact .skip (.branch _ (peeks_predicate.andThen fun p => ih (p :: before)) (peeks_done _))

/-- Rounds beyond the number of characters make no difference. -/
theorem predicatesFrom_eq_of_lt {before : List Predicate} {fuel fuel' : Nat}
    (hfuel : input.length < fuel) (hfuel' : input.length < fuel') :
    predicatesFrom before fuel input = predicatesFrom before fuel' input := by
  induction fuel generalizing input before fuel' with
  | zero => exact absurd hfuel (Nat.not_lt_zero _)
  | succ fuel ih =>
    cases fuel' with
    | zero => exact absurd hfuel' (Nat.not_lt_zero _)
    | succ fuel' =>
      rw [predicatesFrom, predicatesFrom]
      split
      · next rest hbracket =>
        have hlength := length_trimStart_le input
        rw [hbracket, List.length_cons] at hlength
        cases hread : predicate rest with
        | error s => rfl
        | ok e =>
          have hle := (peeks_predicate.isSuffix hread).length_le
          exact ih (by omega) (by omega)
      · rfl

theorem peeks_predicates : Peeks predicates := by
  refine ⟨fun hread => (peeks_predicatesFrom _ _).isSuffix hread,
    fun hread => (peeks_predicatesFrom _ _).placed hread, fun {front x y o} hxy hread => ?_⟩
  -- Both inputs are read with enough rounds for either.
  have hx : (front ++ x).length < (front ++ x).length + (front ++ y).length + 1 := by omega
  have hy : (front ++ y).length < (front ++ x).length + (front ++ y).length + 1 := by omega
  rw [predicates, predicatesFrom_eq_of_lt (Nat.lt_succ_self _) hx] at hread
  rw [predicates, predicatesFrom_eq_of_lt (Nat.lt_succ_self _) hy]
  exact (peeks_predicatesFrom _ _).eq_stop hxy hread

/-! ## Steps -/

theorem step_eq :
    step = andThen axis fun a => andThen (skip nodeTest) fun t => andThen predicates fun ps =>
      done ⟨a, t, ps⟩ := rfl

theorem peeks_step : Peeks step := by
  rw [step_eq]
  exact peeks_axis.andThen fun _ => peeks_nodeTest.skip.andThen fun _ =>
    peeks_predicates.andThen fun _ => peeks_done _

theorem stepsFrom_cons {before : List Step} {fuel : Nat} (h : input ≠ []) :
    stepsFrom before (fuel + 1) input =
      step input >>= fun e => stepsFrom (e.1 :: before) fuel e.2 := by
  rw [stepsFrom]
  exact h

theorem stepsFrom_eq_of_lt {before : List Step} {fuel fuel' : Nat}
    (hfuel : input.length < fuel) (hfuel' : input.length < fuel') :
    stepsFrom before fuel input = stepsFrom before fuel' input := by
  induction fuel generalizing input before fuel' with
  | zero => exact absurd hfuel (Nat.not_lt_zero _)
  | succ fuel ih =>
    cases fuel' with
    | zero => exact absurd hfuel' (Nat.not_lt_zero _)
    | succ fuel' =>
      by_cases hnil : input = []
      · rw [hnil]
        rfl
      · rw [stepsFrom_cons hnil, stepsFrom_cons hnil]
        cases hread : step input with
        | error s => rfl
        | ok e =>
          have hlt := length_lt_of_step hread
          exact ih (by omega) (by omega)

theorem placed_of_stepsFrom {before : List Step} {fuel : Nat} {s : Stuck}
    (h : stepsFrom before fuel input = .error s) : Placed input s := by
  induction fuel generalizing input before with
  | zero => cases h
  | succ fuel ih =>
    by_cases hnil : input = []
    · rw [hnil] at h
      cases h
    · rw [stepsFrom_cons hnil] at h
      cases hread : step input with
      | error s' =>
        rw [hread] at h
        cases h
        exact peeks_step.placed hread
      | ok e =>
        rw [hread] at h
        exact (ih h).mono (peeks_step.isSuffix hread)

theorem stepsFrom_eq_missing {before : List Step} {fuel : Nat} {what : Expected}
    (hxy : x.head? = y.head?) (h : stepsFrom before fuel (front ++ x) = missing what x) :
    stepsFrom before fuel (front ++ y) = missing what y := by
  induction fuel generalizing front before with
  | zero => cases h
  | succ fuel ih =>
    have hnil : front ++ x ≠ [] := by
      intro hnil
      rw [hnil] at h
      cases h
    have hnil' : front ++ y ≠ [] := by
      rw [Ne, ← List.head?_eq_none_iff] at hnil ⊢
      rwa [head?_append_congr hxy] at hnil
    rw [stepsFrom_cons hnil] at h
    rw [stepsFrom_cons hnil']
    cases hread : step (front ++ x) with
    | error s =>
      rw [hread] at h
      have hs : step (front ++ x) = stop (.error what) x := hread.trans (by cases h; rfl)
      rw [peeks_step.eq_stop hxy hs]
      rfl
    | ok e =>
      obtain ⟨s, rest⟩ := e
      rw [hread] at h
      obtain ⟨mid, rfl⟩ := (placed_of_stepsFrom h).isSuffix
      obtain ⟨taken, htaken⟩ := peeks_step.isSuffix hread
      rw [← List.append_assoc] at htaken
      obtain rfl := List.append_cancel_right htaken
      rw [List.append_assoc] at hread
      have hread' := peeks_step.eq_stop (o := .ok s) (head?_append_congr hxy) hread
      rw [List.append_assoc, hread']
      exact ih h

theorem stepsOf_of_ne_nil (h : input ≠ []) :
    stepsOf input = stepsFrom [] (input.length + 1) input := by
  rw [stepsOf.eq_def]
  split
  · exact absurd rfl h
  · rfl

/-- Where something is missing, it is missing whatever follows the character found instead. -/
theorem stepsOf_eq_missing {what : Expected} (hxy : x.head? = y.head?)
    (h : stepsOf (Text.trimStart (front ++ x)) = missing what x) :
    stepsOf (Text.trimStart (front ++ y)) = missing what y := by
  have hne : Text.trimStart (front ++ x) ≠ [] := by
    intro hnil
    rw [hnil] at h
    cases h
  rw [stepsOf_of_ne_nil hne] at h
  obtain ⟨w, mid, -, -, hx, hy⟩ := exists_trimStart_append (placed_of_stepsFrom h).isSuffix hxy
  have hne' : mid ++ y ≠ [] := by
    rw [hx, Ne, ← List.head?_eq_none_iff, head?_append_congr hxy, List.head?_eq_none_iff] at hne
    exact hne
  have hlt : (mid ++ x).length < (mid ++ x).length + (mid ++ y).length + 1 := by omega
  have hlt' : (mid ++ y).length < (mid ++ x).length + (mid ++ y).length + 1 := by omega
  rw [hx, stepsFrom_eq_of_lt (Nat.lt_succ_self _) hlt] at h
  rw [hy, stepsOf_of_ne_nil hne', stepsFrom_eq_of_lt (Nat.lt_succ_self _) hlt']
  exact stepsFrom_eq_missing hxy h

end SyntaxGateway.Query
