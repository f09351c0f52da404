import Mathlib
import SyntaxGateway.Proofs.Json.Words

/-!
# What is skipped is JSON

Skipping a value keeps the open arrays and objects in a list, where the grammar nests phrases. The
two are brought together by saying what a skip still has to take (`Takes`): the phrase that it
stands in front of, and then for each open frame the end of that frame, with further entries in
front of it or without (`Closes`).

**Theorem (`skipValue_sound`).** Whatever is skipped is a value with blanks in front of it.

**Theorem (`skipValue_append`).** Every value is skipped, if nothing that continues a number follows.

Either direction is an induction on the fuel that takes one step of the skip: a step passes from one
state to the next, and what the next state takes makes up what the state took.
-/

namespace SyntaxGateway.Json

variable {input rest w s t : Bytes} {frame : Frame} {frames : List Frame} {state : SkipState}
  {fuel : Nat}

/-! ## What a skip takes -/

/-- What closes these frames, innermost first, behind a value. -/
inductive Closes : List Frame → Bytes → Prop
  | nil : Closes [] []
  | close {frame : Frame} {frames : List Frame} {w s : Bytes} : Blanks w → Closes frames s →
      Closes (frame :: frames) (w ++ frame.close :: s)
  | more {frame : Frame} {frames : List Frame} {w t s : Bytes} : Blanks w →
      PhraseText (.entries frame) t → Closes frames s →
      Closes (frame :: frames) (w ++ 0x2C :: (t ++ frame.close :: s))

/-- What a skip takes from a state on. -/
inductive Takes : SkipState → List Frame → Bytes → Prop
  | value {frames : List Frame} {w t s : Bytes} : Blanks w → PhraseText .value t →
      Closes frames s → Takes .value frames (w ++ (t ++ s))
  | entry {frame : Frame} {frames : List Frame} {t s : Bytes} : PhraseText (.entries frame) t →
      Closes frames s → Takes .entry (frame :: frames) (t ++ frame.close :: s)
  | empty {frame : Frame} {frames : List Frame} {w s : Bytes} : Blanks w → Closes frames s →
      Takes .opened (frame :: frames) (w ++ frame.close :: s)
  | opened {frame : Frame} {frames : List Frame} {t s : Bytes} : PhraseText (.entries frame) t →
      Closes frames s → Takes .opened (frame :: frames) (t ++ frame.close :: s)
  | done {frames : List Frame} {s : Bytes} : Closes frames s → Takes .done frames s

theorem takes_done_iff : Takes .done frames s ↔ Closes frames s :=
  ⟨fun | .done h => h, .done⟩

/-- An entry is a value behind its label. -/
theorem Takes.label {u l : Bytes} (h : Takes .value (frame :: frames) s) (hu : Blanks u)
    (hl : Label frame l) : Takes .entry (frame :: frames) (u ++ (l ++ s)) := by
  cases h with
  | @value _ v t _ hv ht hs =>
    cases hs with
    | @close _ _ w s hw hs =>
      have := Takes.entry (.last hu hl hv ht hw) hs
      simpa using this
    | @more _ _ w t' s hw ht' hs =>
      have := Takes.entry (.more hu hl hv ht hw ht') hs
      simpa using this

/-- An array or object is what stands behind its opening, up to its end. -/
theorem Takes.enclosed (h : Takes .opened (frame :: frames) s) (hw : Blanks w) :
    Takes .value frames (w ++ frame.opening :: s) := by
  cases h with
  | @empty _ _ v s hv hs =>
    have ht : PhraseText .value (frame.opening :: (v ++ [frame.close])) := .empty hv
    have := Takes.value hw ht hs
    simpa using this
  | @opened _ _ t s ht hs =>
    have ht : PhraseText .value (frame.opening :: (t ++ [frame.close])) := .nested ht
    have := Takes.value hw ht hs
    simpa using this

/-! ## Steps -/

attribute [local simp] skipFrom

theorem isBlank_close (frame : Frame) : isBlank frame.close = false := by
  cases frame <;> rfl

/-- In front of a value, a skip takes a scalar or opens a frame. -/
theorem value_of_skipFrom (h : skipFrom (fuel + 1) .value frames input = .ok rest) :
    ∃ w, Blanks w ∧
      ((∃ t next, ScalarText t ∧ input = w ++ (t ++ next) ∧
          skipFrom fuel .done frames next = .ok rest) ∨
        ∃ frame next, input = w ++ Frame.opening frame :: next ∧
          skipFrom fuel .opened (frame :: frames) next = .ok rest) := by
  rw [skipFrom] at h
  split at h
  next => cases h
  next b behind hb =>
    obtain ⟨w, hw, rfl⟩ := skipBlanks_of_cons hb
    refine ⟨w, hw, ?_⟩
    have of_number : ∀ (sign : Bytes) {digits next : Bytes}, sign ∈ [[], [0x2D]] →
        b :: behind = sign ++ digits → skipNumber digits = .ok next →
        ∃ t, ScalarText t ∧ w ++ b :: behind = w ++ (t ++ next) := by
      intro sign digits next hsign heq hnext
      obtain ⟨i, f, x, hi, hf, hx, rfl⟩ := numberText_of_skipNumber hnext
      exact ⟨_, .number (.mk hsign hi hf hx), by simp [heq]⟩
    split_ifs at h with hn htrue hf hm hd hs ha ho
    · obtain ⟨next, hnext, h⟩ := bind_eq_ok_iff.mp h
      obtain rfl := ident_eq_ok_iff.mp hnext
      obtain rfl := beq_iff_eq.mp hn
      exact .inl ⟨_, next, .null, rfl, h⟩
    · obtain ⟨next, hnext, h⟩ := bind_eq_ok_iff.mp h
      obtain rfl := ident_eq_ok_iff.mp hnext
      obtain rfl := beq_iff_eq.mp htrue
      exact .inl ⟨_, next, .true, rfl, h⟩
    · obtain ⟨next, hnext, h⟩ := bind_eq_ok_iff.mp h
      obtain rfl := ident_eq_ok_iff.mp hnext
      obtain rfl := beq_iff_eq.mp hf
      exact .inl ⟨_, next, .false, rfl, h⟩
    · obtain ⟨next, hnext, h⟩ := bind_eq_ok_iff.mp h
      obtain rfl := beq_iff_eq.mp hm
      obtain ⟨t, ht, heq⟩ := of_number [0x2D] (by simp) rfl hnext
      exact .inl ⟨t, next, ht, heq, h⟩
    · obtain ⟨next, hnext, h⟩ := bind_eq_ok_iff.mp h
      obtain ⟨t, ht, heq⟩ := of_number [] (by simp) rfl hnext
      exact .inl ⟨t, next, ht, heq, h⟩
    · obtain ⟨next, hnext, hdone⟩ := bind_eq_ok_iff.mp h
      obtain ⟨t, ht, rfl⟩ := skipString_eq_ok_iff.mp hnext
      obtain rfl := beq_iff_eq.mp hs
      exact .inl ⟨_, next, .string ht, by simp, hdone⟩
    · obtain rfl := beq_iff_eq.mp ha
      exact .inr ⟨.array, behind, rfl, h⟩
    · obtain rfl := beq_iff_eq.mp ho
      exact .inr ⟨.object, behind, rfl, h⟩
    · cases h

/-- In front of an entry, a skip takes its label. -/
theorem entry_of_skipFrom (h : skipFrom (fuel + 1) .entry (frame :: frames) input = .ok rest) :
    ∃ u l next, Blanks u ∧ Label frame l ∧ input = u ++ (l ++ next) ∧
      skipFrom fuel .value (frame :: frames) next = .ok rest := by
  rw [skipFrom] at h
  cases frame with
  | array => exact ⟨[], [], input, blanks_nil, .array, rfl, h⟩
  | object =>
    rw [if_pos List.head?_cons] at h
    split at h
    next => cases h
    next behind hb =>
      obtain ⟨u, hu, rfl⟩ := skipBlanks_of_cons hb
      obtain ⟨next, hnext, hvalue⟩ := bind_eq_ok_iff.mp h
      obtain ⟨k, hk, rfl⟩ := skipString_eq_ok_iff.mp hnext
      split at hvalue
      next => cases hvalue
      next next' hcolon =>
        obtain ⟨w, hw, rfl⟩ := skipBlanks_of_cons hcolon
        exact ⟨u, _, next', hu, .object hk hw, by simp, hvalue⟩
      next => cases hvalue
    next => cases h

/-- Behind an opening, a skip closes the frame or stands in front of an entry. -/
theorem opened_of_skipFrom (h : skipFrom (fuel + 1) .opened (frame :: frames) input = .ok rest) :
    ∃ w next, Blanks w ∧ input = w ++ next ∧
      ((∃ behind, next = frame.close :: behind ∧ skipFrom fuel .done frames behind = .ok rest) ∨
        skipFrom fuel .entry (frame :: frames) next = .ok rest) := by
  rw [skipFrom] at h
  split at h
  next => cases h
  next b behind hb =>
    obtain ⟨w, hw, rfl⟩ := skipBlanks_of_cons hb
    refine ⟨w, _, hw, rfl, ?_⟩
    split_ifs at h with hc
    · exact .inl ⟨behind, by rw [beq_iff_eq.mp hc], h⟩
    · exact .inr h

/-- Behind a value, a skip closes the frame or passes a comma. -/
theorem done_of_skipFrom (h : skipFrom (fuel + 1) .done (frame :: frames) input = .ok rest) :
    ∃ w next, Blanks w ∧
      ((input = w ++ frame.close :: next ∧ skipFrom fuel .done frames next = .ok rest) ∨
        input = w ++ 0x2C :: next ∧ skipFrom fuel .entry (frame :: frames) next = .ok rest) := by
  rw [skipFrom] at h
  split at h
  next => cases h
  next b behind hb =>
    obtain ⟨w, hw, rfl⟩ := skipBlanks_of_cons hb
    refine ⟨w, behind, hw, ?_⟩
    split_ifs at h with hcomma hc
    · exact .inr ⟨by rw [beq_iff_eq.mp hcomma], h⟩
    · exact .inl ⟨by rw [beq_iff_eq.mp hc], h⟩
    · cases h

/-! ## What is skipped -/

/-- Blanks in front of a key or a value belong to its entry. -/
theorem PhraseText.blanks_append (h : PhraseText (.entries frame) t) (hw : Blanks w) :
    PhraseText (.entries frame) (w ++ t) := by
  cases h with
  | last hu hl hv ht hw' =>
    have := PhraseText.last (hw.append hu) hl hv ht hw'
    simpa using this
  | more hu hl hv ht hw' hr =>
    have := PhraseText.more (hw.append hu) hl hv ht hw' hr
    simpa using this

/-- A skip that succeeds has taken what its state and its frames ask for. -/
theorem takes_of_skipFrom (h : skipFrom fuel state frames input = .ok rest)
    (hframes : frames = [] → state = .value ∨ state = .done) :
    ∃ s, Takes state frames s ∧ input = s ++ rest := by
  -- Each case is one step, and `ih` says what the state behind it takes.
  induction fuel generalizing state frames input with
  | zero => cases h
  | succ fuel ih =>
    cases state with
    | value =>
      obtain ⟨w, hw, ⟨t, next, ht, rfl, hnext⟩ | ⟨frame, next, rfl, hnext⟩⟩ :=
        value_of_skipFrom h
      · obtain ⟨s, hs, rfl⟩ := ih hnext fun _ => .inr rfl
        exact ⟨_, .value hw (.scalar ht) (takes_done_iff.mp hs), by simp⟩
      · obtain ⟨s, hs, rfl⟩ := ih hnext (by simp)
        exact ⟨_, hs.enclosed hw, by simp⟩
    | entry =>
      cases frames with
      | nil => simp at hframes
      | cons frame frames =>
        obtain ⟨u, l, next, hu, hl, rfl, hnext⟩ := entry_of_skipFrom h
        obtain ⟨s, hs, rfl⟩ := ih hnext (by simp)
        exact ⟨_, hs.label hu hl, by simp⟩
    | opened =>
      cases frames with
      | nil => simp at hframes
      | cons frame frames =>
        obtain ⟨w, next, hw, rfl, ⟨behind, rfl, hnext⟩ | hnext⟩ := opened_of_skipFrom h
        · obtain ⟨s, hs, rfl⟩ := ih hnext fun _ => .inr rfl
          exact ⟨_, .empty hw (takes_done_iff.mp hs), by simp⟩
        · obtain ⟨s, hs, rfl⟩ := ih hnext (by simp)
          cases hs with
          | entry ht hs => exact ⟨_, .opened (ht.blanks_append hw) hs, by simp⟩
    | done =>
      cases frames with
      | nil =>
        obtain rfl := Except.ok.inj h
        exact ⟨[], .done .nil, rfl⟩
      | cons frame frames =>
        obtain ⟨w, next, hw, ⟨rfl, hnext⟩ | ⟨rfl, hnext⟩⟩ := done_of_skipFrom h
        · obtain ⟨s, hs, rfl⟩ := ih hnext fun _ => .inr rfl
          exact ⟨_, .done (.close hw (takes_done_iff.mp hs)), by simp⟩
        · obtain ⟨s, hs, rfl⟩ := ih hnext (by simp)
          cases hs with
          | entry ht hs => exact ⟨_, .done (.more hw ht hs), by simp⟩

/-! ## What is taken is skipped -/

theorem isBlank_of_isDigit {b : UInt8} (hb : isDigit b) : isBlank b = false := by
  simp only [isBlank, Bool.or_eq_false_iff, beq_eq_false_iff_ne]
  refine ⟨⟨⟨?_, ?_⟩, ?_⟩, ?_⟩ <;> rintro rfl <;> cases hb

theorem IntegerText.exists_cons {i : Bytes} (hi : IntegerText i) :
    ∃ b t, i = b :: t ∧ isDigit b := by
  cases hi with
  | zero => exact ⟨_, _, rfl, rfl⟩
  | digits hb _ _ => exact ⟨_, _, rfl, hb⟩

/-- In front of a digit, a number is skipped. -/
theorem skipFrom_digit {b : UInt8} (hb : isDigit b) :
    skipFrom (fuel + 1) .value frames (b :: input) =
      skipNumber (b :: input) >>= skipFrom fuel .done frames := by
  have hne : ∀ c, isDigit c = false → (b == c) = false := by
    intro c hc
    rw [beq_eq_false_iff_ne]
    rintro rfl
    rw [hb] at hc
    cases hc
  simp [skipBlanks_cons (isBlank_of_isDigit hb), hb, hne 0x6E rfl, hne 0x74 rfl,
    hne 0x66 rfl, hne 0x2D rfl]

theorem skipFrom_blanks (hw : Blanks w) (hfuel : fuel ≠ 0) :
    skipFrom fuel .value frames (w ++ input) = skipFrom fuel .value frames input := by
  cases fuel with
  | zero => exact absurd rfl hfuel
  | succ fuel => rw [skipFrom, skipFrom, skipBlanks_append hw]

theorem skipFrom_scalar (ht : ScalarText t) (hrest : Stops rest) :
    skipFrom (fuel + 1) .value frames (t ++ rest) = skipFrom fuel .done frames rest := by
  have hident : ∀ word, ident word (word ++ rest) = .ok rest := fun _ => ident_eq_ok_iff.mpr rfl
  cases ht with
  | null => simp [skipBlanks_cons, isBlank, hident, bind, Except.bind]
  | true => simp [skipBlanks_cons, isBlank, hident, bind, Except.bind]
  | false => simp [skipBlanks_cons, isBlank, hident, bind, Except.bind]
  | number ht =>
    obtain ⟨hsign, hi, hf, hx⟩ := ht
    have hskip := skipNumber_append hi hf hx hrest
    simp only [List.mem_cons, List.not_mem_nil, or_false] at hsign
    rcases hsign with rfl | rfl
    · obtain ⟨b, i, rfl, hb⟩ := hi.exists_cons
      simp only [List.cons_append, List.nil_append, List.append_assoc] at hskip ⊢
      rw [skipFrom_digit hb, hskip]
      rfl
    · simp [skipBlanks_cons, isBlank, hskip, bind, Except.bind]
  | @string t ht =>
    have hskip : skipString ((t ++ 0x22 :: rest).length + 1) (t ++ 0x22 :: rest) = .ok rest :=
      skipString_eq_ok_iff.mpr ⟨t, ht, rfl⟩
    rw [show 0x22 :: (t ++ [0x22]) ++ rest = 0x22 :: (t ++ 0x22 :: rest) by simp, skipFrom,
      skipBlanks_cons rfl]
    simp only [hskip]
    rfl

theorem skipFrom_opening (frame : Frame) :
    skipFrom (fuel + 1) .value frames (frame.opening :: input) =
      skipFrom fuel .opened (frame :: frames) input := by
  cases frame with
  | array => rw [skipFrom, Frame.opening, skipBlanks_cons rfl]; rfl
  | object => rw [skipFrom, Frame.opening, skipBlanks_cons rfl]; rfl

theorem skipFrom_label {l : Bytes} (hl : Label frame l) (hw : Blanks w) (hfuel : fuel ≠ 0) :
    skipFrom (fuel + 1) .entry (frame :: frames) (w ++ (l ++ input)) =
      skipFrom fuel .value (frame :: frames) input := by
  rw [skipFrom]
  cases hl with
  | array => exact skipFrom_blanks hw hfuel
  | @object k v hk hv =>
    have hskip : skipString ((k ++ 0x22 :: (v ++ 0x3A :: input)).length + 1)
        (k ++ 0x22 :: (v ++ 0x3A :: input)) = .ok (v ++ 0x3A :: input) :=
      skipString_eq_ok_iff.mpr ⟨k, hk, rfl⟩
    have hblanks : skipBlanks (v ++ 0x3A :: input) = 0x3A :: input :=
      skipBlanks_append_cons hv rfl
    rw [if_pos List.head?_cons, skipBlanks_append hw,
      show 0x22 :: (k ++ 0x22 :: (v ++ [0x3A])) ++ input =
        0x22 :: (k ++ 0x22 :: (v ++ 0x3A :: input)) by simp, skipBlanks_cons rfl]
    simp only [hskip, bind, Except.bind, hblanks]

theorem skipFrom_closed (hw : Blanks w) :
    skipFrom (fuel + 1) .opened (frame :: frames) (w ++ frame.close :: input) =
      skipFrom fuel .done frames input := by
  rw [skipFrom, skipBlanks_append_cons hw (isBlank_close frame)]
  simp

theorem skipFrom_opened {b : UInt8} (hw : Blanks w) (hb : isBlank b = false)
    (hc : b ≠ frame.close) :
    skipFrom (fuel + 1) .opened (frame :: frames) (w ++ b :: input) =
      skipFrom fuel .entry (frame :: frames) (b :: input) := by
  rw [skipFrom, skipBlanks_append_cons hw hb]
  simp [hc]

theorem skipFrom_close (hw : Blanks w) :
    skipFrom (fuel + 1) .done (frame :: frames) (w ++ frame.close :: input) =
      skipFrom fuel .done frames input := by
  rw [skipFrom, skipBlanks_append_cons hw (isBlank_close frame)]
  cases frame <;> rfl

theorem skipFrom_comma (hw : Blanks w) :
    skipFrom (fuel + 1) .done (frame :: frames) (w ++ 0x2C :: input) =
      skipFrom fuel .entry (frame :: frames) input := by
  rw [skipFrom, skipBlanks_append_cons hw rfl]
  rfl

theorem takes_entry_iff : Takes .entry (frame :: frames) s ↔
    ∃ u l s', Blanks u ∧ Label frame l ∧ Takes .value (frame :: frames) s' ∧
      s = u ++ (l ++ s') := by
  constructor
  · rintro (_ | @⟨_, _, t, s, ht, hs⟩)
    cases ht with
    | last hu hl hv ht hw => exact ⟨_, _, _, hu, hl, .value hv ht (.close hw hs), by simp⟩
    | more hu hl hv ht hw hr => exact ⟨_, _, _, hu, hl, .value hv ht (.more hw hr hs), by simp⟩
  · rintro ⟨u, l, s, hu, hl, hs, rfl⟩
    exact hs.label hu hl

/-- A text begins with something that is no blank and closes nothing. -/
def Starts (t : Bytes) : Prop :=
  ∃ b t', t = b :: t' ∧ isBlank b = false ∧ ∀ frame : Frame, b ≠ frame.close

theorem starts_of_isDigit {b : UInt8} (hb : isDigit b) : Starts (b :: t) := by
  refine ⟨b, t, rfl, isBlank_of_isDigit hb, ?_⟩
  rintro frame rfl
  cases frame <;> cases hb

theorem starts_opening (frame : Frame) : Starts (frame.opening :: t) :=
  ⟨_, _, rfl, by cases frame <;> rfl, by cases frame <;> rintro (_ | _) <;> decide⟩

theorem starts_quote : Starts (0x22 :: t) :=
  ⟨_, _, rfl, rfl, by rintro (_ | _) <;> decide⟩

theorem PhraseText.starts (h : PhraseText .value t) : Starts t := by
  cases h with
  | scalar ht =>
    cases ht with
    | null => exact ⟨_, _, rfl, rfl, by rintro (_ | _) <;> decide⟩
    | true => exact ⟨_, _, rfl, rfl, by rintro (_ | _) <;> decide⟩
    | false => exact ⟨_, _, rfl, rfl, by rintro (_ | _) <;> decide⟩
    | number ht =>
      obtain ⟨hsign, hi, -, -⟩ := ht
      simp only [List.mem_cons, List.not_mem_nil, or_false] at hsign
      rcases hsign with rfl | rfl
      · obtain ⟨b, i, rfl, hb⟩ := hi.exists_cons
        exact starts_of_isDigit hb
      · exact ⟨_, _, rfl, rfl, by rintro (_ | _) <;> decide⟩
    | string _ => exact starts_quote
  | empty _ => exact starts_opening _
  | nested _ => exact starts_opening _

/-- Blanks in front of an entry can be passed, and then something else than the end of its frame is
there. -/
theorem Takes.exists_blanks (h : Takes .entry (frame :: frames) s) :
    ∃ w b s', Blanks w ∧ s = w ++ b :: s' ∧ isBlank b = false ∧ b ≠ frame.close ∧
      Takes .entry (frame :: frames) (b :: s') := by
  obtain ⟨u, l, s, hu, hl, hs, rfl⟩ := takes_entry_iff.mp h
  cases hl with
  | array =>
    cases hs with
    | @value _ v _ s hv ht hs =>
      obtain ⟨b, t, rfl, hb, hc⟩ := ht.starts
      have := (Takes.value blanks_nil ht hs).label blanks_nil .array
      exact ⟨u ++ v, b, t ++ s, hu.append hv, by simp, hb, hc _, by simpa using this⟩
  | @object k w hk hw =>
    have := hs.label blanks_nil (.object hk hw)
    exact ⟨u, 0x22, k ++ 0x22 :: (w ++ 0x3A :: s), hu, by simp, rfl, by decide,
      by simpa using this⟩

/-- The end of a frame stops a number, and so does a comma. -/
theorem Closes.stops (h : Closes frames s) (hrest : Stops rest) : Stops (s ++ rest) := by
  cases h with
  | nil => exact hrest
  | @close frame _ _ _ hw _ =>
    rw [List.append_assoc]
    refine Stops.blanks_append (stops_cons ?_) hw
    cases frame <;> decide
  | more hw _ _ =>
    rw [List.append_assoc]
    exact Stops.blanks_append (stops_cons (by decide)) hw

/-- The steps that a skip makes at most from a state on, apart from three for each byte. -/
def SkipState.rank : SkipState → Nat
  | .value => 1
  | .entry => 2
  | .opened => 3
  | .done => 1

/-- A skip takes what its state and its frames ask for, if it may make enough steps. -/
theorem skipFrom_of_takes (h : Takes state frames s) (hrest : Stops rest)
    (hfuel : 3 * s.length + state.rank ≤ fuel) :
    skipFrom fuel state frames (s ++ rest) = .ok rest := by
  induction fuel generalizing state frames s with
  | zero => cases state <;> simp [SkipState.rank] at hfuel
  | succ fuel ih =>
    cases h with
    | @value _ w t s hw ht hs =>
      rw [List.append_assoc, List.append_assoc, skipFrom_blanks hw (Nat.succ_ne_zero fuel)]
      simp only [List.length_append, SkipState.rank] at hfuel
      cases ht with
      | scalar ht =>
        -- A scalar is not empty, which pays for the step.
        obtain ⟨b, t, rfl, -⟩ := (PhraseText.scalar ht).starts
        rw [List.length_cons] at hfuel
        rw [skipFrom_scalar ht (hs.stops hrest)]
        exact ih (.done hs) (by simp only [SkipState.rank]; omega)
      | @empty frame v hv =>
        have hs' : Takes .opened (frame :: _) (v ++ frame.close :: _) := .empty hv hs
        have := ih hs' (by
          simp only [List.length_append, List.length_cons, List.length_nil, SkipState.rank]
            at hfuel ⊢
          omega)
        rw [List.cons_append, skipFrom_opening]
        simpa using this
      | @nested frame t ht =>
        have hs' : Takes .opened (frame :: _) (t ++ frame.close :: _) := .opened ht hs
        have := ih hs' (by
          simp only [List.length_append, List.length_cons, List.length_nil, SkipState.rank]
            at hfuel ⊢
          omega)
        rw [List.cons_append, skipFrom_opening]
        simpa using this
    | @entry frame frames t s ht hs =>
      obtain ⟨u, l, s', hu, hl, hs', heq⟩ := takes_entry_iff.mp (.entry ht hs)
      rw [heq] at hfuel ⊢
      simp only [List.length_append, SkipState.rank] at hfuel
      rw [List.append_assoc, List.append_assoc, skipFrom_label hl hu (by omega)]
      exact ih hs' (by simp only [SkipState.rank]; omega)
    | @empty frame frames w s hw hs =>
      simp only [List.length_append, List.length_cons, SkipState.rank] at hfuel
      rw [List.append_assoc, List.cons_append, skipFrom_closed hw]
      exact ih (.done hs) (by simp only [SkipState.rank]; omega)
    | @opened frame frames t s ht hs =>
      -- The skip has passed the blanks in front of the entry when it sees that the frame goes on.
      obtain ⟨w, b, s', hw, heq, hb, hc, hs'⟩ := (Takes.entry ht hs).exists_blanks
      rw [heq] at hfuel ⊢
      simp only [List.length_append, List.length_cons, SkipState.rank] at hfuel
      rw [List.append_assoc, List.cons_append, skipFrom_opened hw hb hc]
      exact ih hs' (by simp only [List.length_cons, SkipState.rank]; omega)
    | done hs =>
      cases hs with
      | nil => rfl
      | @close frame frames w s hw hs =>
        simp only [List.length_append, List.length_cons, SkipState.rank] at hfuel
        rw [List.append_assoc, List.cons_append, skipFrom_close hw]
        exact ih (.done hs) (by simp only [SkipState.rank]; omega)
      | @more frame frames w t s hw ht hs =>
        simp only [List.length_append, List.length_cons, SkipState.rank] at hfuel
        rw [List.append_assoc, List.cons_append, skipFrom_comma hw]
        exact ih (.entry ht hs) (by
          simp only [List.length_append, List.length_cons, SkipState.rank]
          omega)

/-- A value is skipped with the blanks in front of it. -/
theorem skipValue_sound (h : skipValue input = .ok rest) :
    ∃ w t, Blanks w ∧ PhraseText .value t ∧ input = w ++ (t ++ rest) := by
  obtain ⟨s, hs, rfl⟩ := takes_of_skipFrom h fun _ => .inl rfl
  cases hs with
  | @value _ w t _ hw ht hs =>
    cases hs with
    | nil => exact ⟨w, t, hw, ht, by simp⟩

theorem skipValue_append (hw : Blanks w) (ht : PhraseText .value t) (hrest : Stops rest) :
    skipValue (w ++ (t ++ rest)) = .ok rest := by
  have htakes : Takes .value [] (w ++ t) := by
    have := Takes.value hw ht .nil
    rwa [List.append_nil] at this
  rw [skipValue, ← List.append_assoc]
  refine skipFrom_of_takes htakes hrest ?_
  simp only [List.length_append, SkipState.rank]
  omega

end SyntaxGateway.Json
