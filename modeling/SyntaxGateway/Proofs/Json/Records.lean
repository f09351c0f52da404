import Mathlib
import SyntaxGateway.Proofs.Json.Shapes

/-!
# Records are read as they are spelt

A record has fields in its code and in its grammar; they fit if they have the same names, may be
missing in the same places, and each is read as it is spelt (`Fits`).

**Theorem (`reads_record`).** A reader of a record with fields that fit the grammar's takes exactly
the texts of that record: objects whose members are fields or anything else, and arrays.

Reading an object keeps the fields that were seen and the record that they make up so far. What the
members that are left must do to them is told by `Completes`, which goes from one member to the next
(`completes_other_iff`, `completes_field_iff`) as the reader does.
-/

namespace SyntaxGateway.Json

variable {α β : Type} {input rest w t u : Bytes} {first : Bool}

/-! ## Keys -/

theorem nextKey_sound {key : Option String} (h : nextKey first input = .ok (key, rest)) :
    (∃ w, Blanks w ∧ key = none ∧ input = w ++ 0x7D :: rest) ∨
      ∃ u t name, Lead first u ∧ StringText t name ∧ key = some name ∧ input = u ++ (t ++ rest) := by
  have of_key : ∀ {u behind : Bytes}, Lead first u → nextKey.key behind = .ok (key, rest) →
      ∃ v t name, Lead first v ∧ StringText t name ∧ key = some name ∧
        u ++ 0x22 :: behind = v ++ (t ++ rest) := by
    intro u behind hu hkey
    obtain ⟨⟨name, rest'⟩, hname, hok⟩ := bind_eq_ok_iff.mp hkey
    obtain ⟨rfl, rfl⟩ := Prod.mk.inj (Except.ok.inj hok)
    obtain ⟨t, ht, heq⟩ := stringText_of_stringBody hname
    exact ⟨u, t, name, hu, ht, rfl, by rw [heq]⟩
  unfold nextKey at h
  split at h
  next => cases h
  next behind hb =>
    obtain ⟨w, hw, rfl⟩ := skipBlanks_of_cons hb
    obtain ⟨rfl, rfl⟩ := Prod.mk.inj (Except.ok.inj h)
    exact .inl ⟨w, hw, rfl, rfl⟩
  next b behind _ hb =>
    obtain ⟨w, hw, rfl⟩ := skipBlanks_of_cons hb
    split_ifs at h with hfirst hquote hcomma
    · obtain rfl := beq_iff_eq.mp hquote
      subst hfirst
      exact .inr (of_key (.first hw) h)
    · cases h
    · obtain rfl := beq_iff_eq.mp hcomma
      obtain rfl : first = false := by simpa using hfirst
      split at h
      next => cases h
      next behind' hb' =>
        obtain ⟨v, hv, rfl⟩ := skipBlanks_of_cons hb'
        have := of_key (.later hw hv) h
        rw [List.append_assoc, List.cons_append] at this
        exact .inr this
      next => cases h
      next => cases h
    · cases h

theorem nextKey_close (hw : Blanks w) : nextKey first (w ++ 0x7D :: rest) = .ok (none, rest) := by
  rw [nextKey, skipBlanks_append_cons hw rfl]
  rfl

theorem nextKey_lead {name : String} (hu : Lead first u) (ht : StringText t name) :
    nextKey first (u ++ (t ++ rest)) = .ok (some name, rest) := by
  obtain ⟨c, hc, hs⟩ := stringBody_append ht rest
  have hkey : nextKey.key c = .ok (some name, rest) := by
    simp only [nextKey.key, hs]
    rfl
  rw [hc]
  cases hu with
  | first hu =>
    rw [nextKey, skipBlanks_append_cons hu rfl]
    exact hkey
  | later hv hw =>
    rw [nextKey, List.append_assoc, List.cons_append, skipBlanks_append_cons hv rfl]
    simp [skipBlanks_append_cons hw, isBlank, hkey]

/-! ## Fields -/

/-- A field of the code fits a field of the grammar. -/
structure Fits (field : RecordField α) (φ : FieldText α) : Prop where
  name : field.name = φ.name
  absence : field.absence = φ.absence
  reads : Reads field.read φ.text

theorem fits_ofScan {p : Scan β} {text : Bytes → β → Prop} (h : Reads p text) (name : String)
    (absence : Absence) (set : β → α → α) :
    Fits (.ofScan name absence p set) (.ofText name absence text set) where
  name := rfl
  absence := rfl
  reads := {
    starts := by
      rintro t _ ⟨b, hb, -⟩
      exact h.starts hb
    sound := by
      intro input rest f hok
      obtain ⟨⟨b, rest'⟩, hvalue, hrest⟩ := bind_eq_ok_iff.mp hok
      obtain ⟨rfl, rfl⟩ := Prod.mk.inj (Except.ok.inj hrest)
      obtain ⟨w, t, hw, ht, rfl⟩ := h.sound hvalue
      exact ⟨w, t, hw, ⟨b, ht, rfl⟩, rfl⟩
    complete := by
      rintro w t rest _ hw ⟨b, hb, rfl⟩
      exact bind_eq_ok_iff.mpr ⟨(b, rest), h.complete hw hb, rfl⟩ }

variable {fields : List (RecordField α)} {texts : List (FieldText α)}

/-- Fields that fit agree on where they may be missing. -/
theorem forall_absence_iff (h : List.Forall₂ Fits fields texts) {P : String → Absence → Prop} :
    (∀ f ∈ fields, P f.name f.absence) ↔ ∀ φ ∈ texts, P φ.name φ.absence := by
  induction h with
  | nil => simp
  | cons hfits _ ih => simp [hfits.name, hfits.absence, ih]

theorem missing?_eq_none_iff (h : List.Forall₂ Fits fields texts) {seen : List String} :
    missing? fields seen = none ↔ ∀ φ ∈ texts, φ.absence = .nowhere → φ.name ∈ seen := by
  rw [← forall_absence_iff (P := fun name absence => absence = .nowhere → name ∈ seen) h]
  simp [missing?]

theorem find?_eq_none_iff (h : List.Forall₂ Fits fields texts) {name : String} :
    fields.find? (·.name = name) = none ↔ ∀ φ ∈ texts, φ.name ≠ name := by
  rw [← forall_absence_iff (P := fun other _ => other ≠ name) h]
  simp

theorem exists_fits_of_find? (h : List.Forall₂ Fits fields texts) {name : String}
    {field : RecordField α} (hfind : fields.find? (·.name = name) = some field) :
    ∃ φ ∈ texts, Fits field φ ∧ φ.name = name := by
  induction h with
  | nil => cases hfind
  | @cons f φ fields texts hfits _ ih =>
    rw [List.find?_cons] at hfind
    split at hfind
    next hname =>
      obtain rfl := Option.some.inj hfind
      refine ⟨φ, by simp, hfits, ?_⟩
      rw [← hfits.name]
      simpa using hname
    next =>
      obtain ⟨ψ, hψ, hfits', hname⟩ := ih hfind
      exact ⟨ψ, List.mem_cons_of_mem φ hψ, hfits', hname⟩

theorem find?_of_mem (h : List.Forall₂ Fits fields texts) (hnodup : (texts.map (·.name)).Nodup)
    {φ : FieldText α} (hφ : φ ∈ texts) :
    ∃ field, fields.find? (·.name = φ.name) = some field ∧ Fits field φ := by
  cases hfind : fields.find? (·.name = φ.name) with
  | none => exact absurd rfl ((find?_eq_none_iff h).mp hfind φ hφ)
  | some field =>
    obtain ⟨ψ, hψ, hfits, hname⟩ := exists_fits_of_find? h hfind
    obtain rfl := List.inj_on_of_nodup_map hnodup hψ hφ hname
    exact ⟨field, rfl, hfits⟩

/-! ## Objects -/

/-- What the members that are left make of a record in which the fields `seen` are set. -/
structure Completes (texts : List (FieldText α)) (seen : List String) (record : α)
    (members : List (Option (String × (α → α)))) (result : α) : Prop where
  value : result = applied (members.reduceOption.map (·.2)) record
  nodup : (members.reduceOption.map (·.1)).Nodup
  fresh : ∀ name ∈ members.reduceOption.map (·.1), name ∉ seen
  present : ∀ φ ∈ texts, φ.absence = .nowhere →
    φ.name ∈ seen ∨ φ.name ∈ members.reduceOption.map (·.1)

variable {seen : List String} {start result : α} {members : List (Option (String × (α → α)))}

theorem completes_nil_iff : Completes texts seen start [] result ↔
    result = start ∧ ∀ φ ∈ texts, φ.absence = .nowhere → φ.name ∈ seen := by
  constructor
  · rintro ⟨hvalue, -, -, hpresent⟩
    exact ⟨hvalue, by simpa using hpresent⟩
  · rintro ⟨hvalue, hpresent⟩
    exact ⟨hvalue, by simp, by simp, by simpa using hpresent⟩

theorem completes_other_iff :
    Completes texts seen start (none :: members) result ↔ Completes texts seen start members result :=
  ⟨fun ⟨hvalue, hnodup, hfresh, hpresent⟩ => ⟨hvalue, hnodup, hfresh, hpresent⟩,
    fun ⟨hvalue, hnodup, hfresh, hpresent⟩ => ⟨hvalue, hnodup, hfresh, hpresent⟩⟩

theorem completes_field_iff {name : String} {f : α → α} :
    Completes texts seen start (some (name, f) :: members) result ↔
      name ∉ seen ∧ Completes texts (name :: seen) (f start) members result := by
  constructor
  · rintro ⟨hvalue, hnodup, hfresh, hpresent⟩
    simp only [List.reduceOption_cons_of_some, List.map_cons, List.nodup_cons, List.mem_cons,
      forall_eq_or_imp] at hvalue hnodup hfresh hpresent
    refine ⟨hfresh.1, hvalue, hnodup.2, ?_, ?_⟩
    · intro other hother
      rw [List.mem_cons]
      rintro (rfl | hseen)
      · exact hnodup.1 hother
      · exact hfresh.2 other hother hseen
    · intro φ hφ habsence
      have := hpresent φ hφ habsence
      rw [List.mem_cons]
      tauto
  · rintro ⟨hname, hvalue, hnodup, hfresh, hpresent⟩
    simp only [List.mem_cons, not_or] at hfresh hpresent
    refine ⟨hvalue, ?_, ?_, ?_⟩
    · rw [List.reduceOption_cons_of_some, List.map_cons, List.nodup_cons]
      exact ⟨fun hmem => (hfresh name hmem).1 rfl, hnodup⟩
    · rw [List.reduceOption_cons_of_some, List.map_cons]
      rintro other (_ | ⟨_, hother⟩)
      · exact hname
      · exact (hfresh other hother).2
    · intro φ hφ habsence
      have := hpresent φ hφ habsence
      rw [List.reduceOption_cons_of_some, List.map_cons, List.mem_cons]
      tauto

theorem completes_iff : Completes texts [] start members result ↔
    result = applied (members.reduceOption.map (·.2)) start ∧
      (members.reduceOption.map (·.1)).Nodup ∧
      ∀ φ ∈ texts, φ.absence = .nowhere → φ.name ∈ members.reduceOption.map (·.1) := by
  constructor
  · rintro ⟨hvalue, hnodup, -, hpresent⟩
    exact ⟨hvalue, hnodup, by simpa using hpresent⟩
  · rintro ⟨hvalue, hnodup, hpresent⟩
    exact ⟨hvalue, hnodup, by simp, by simpa using hpresent⟩

/-- What follows an item stops a number. -/
theorem Items.stops {item : Bytes → β → Prop} {bs : List β} (frame : Frame)
    (h : Items item false t bs) : Stops (t ++ frame.close :: rest) := by
  cases h with
  | nil hw =>
    refine Stops.blanks_append (stops_cons ?_) hw
    cases frame <;> decide
  | cons hu _ _ =>
    cases hu with
    | later hv _ =>
      rw [List.append_assoc, List.append_assoc]
      exact Stops.blanks_append (stops_cons (by decide)) hv

/-- Members that are read complete the record, and the closing brace follows them. -/
theorem recordMembersFrom_sound (hfits : List.Forall₂ Fits fields texts) {fuel : Nat}
    (h : recordMembersFrom fields fuel first seen start input = .ok (result, rest)) :
    ∃ t members, Items (MemberText texts) first t members ∧
      Completes texts seen start members result ∧ input = t ++ 0x7D :: rest := by
  induction fuel generalizing first seen start input with
  | zero => cases h
  | succ fuel ih =>
    rw [recordMembersFrom] at h
    obtain ⟨⟨key, rest₁⟩, hkey, hnext⟩ := bind_eq_ok_iff.mp h
    obtain ⟨w, hw, rfl, rfl⟩ | ⟨u, k, name, hu, hk, rfl, rfl⟩ := nextKey_sound hkey
    · dsimp only at hnext
      split at hnext
      next => cases hnext
      next hmissing =>
        obtain ⟨rfl, rfl⟩ := Prod.mk.inj (Except.ok.inj hnext)
        have := (missing?_eq_none_iff hfits).mp hmissing
        exact ⟨w, [], .nil hw, completes_nil_iff.mpr ⟨rfl, this⟩, rfl⟩
    · dsimp only at hnext
      split at hnext
      next field hfield =>
        split_ifs at hnext with hseen
        · cases hnext
        · obtain ⟨rest₂, hcolon, hmember⟩ := bind_eq_ok_iff.mp hnext
          obtain ⟨⟨f, rest₃⟩, hread, hmore⟩ := bind_eq_ok_iff.mp hmember
          obtain ⟨v, hv, rfl⟩ := colon_eq_ok_iff.mp hcolon
          obtain ⟨t, members, ht, hcompletes, rfl⟩ := ih hmore
          obtain ⟨φ, hφ, hfit, rfl⟩ := exists_fits_of_find? hfits hfield
          obtain ⟨x, s, hx, hs, rfl⟩ := hfit.reads.sound (mapError_eq_ok_iff.mp hread)
          refine ⟨_, _, .cons hu (.field hφ hk hv hx hs) ht, ?_, by simp⟩
          exact completes_field_iff.mpr ⟨by simpa using hseen, hcompletes⟩
      next hnone =>
        obtain ⟨rest₂, hcolon, hmember⟩ := bind_eq_ok_iff.mp hnext
        obtain ⟨rest₃, hskip, hmore⟩ := bind_eq_ok_iff.mp hmember
        obtain ⟨v, hv, rfl⟩ := colon_eq_ok_iff.mp hcolon
        obtain ⟨t, members, ht, hcompletes, rfl⟩ := ih hmore
        obtain ⟨x, s, hx, hs, rfl⟩ := skipValue_sound (mapError_eq_ok_iff.mp hskip)
        have hother := (find?_eq_none_iff hfits).mp hnone
        refine ⟨_, _, .cons hu (.other hk hother hv hx hs) ht, ?_, by simp⟩
        exact completes_other_iff.mpr hcompletes

theorem MemberText.length_pos {m : Option (String × (α → α))} (h : MemberText texts t m) :
    0 < t.length := by
  cases h with
  | field _ hk =>
    have := hk.starts.length_pos
    rw [List.length_append]
    omega
  | other hk =>
    have := hk.starts.length_pos
    rw [List.length_append]
    omega

/-- Members that complete the record are read up to the closing brace. -/
theorem recordMembersFrom_append (hfits : List.Forall₂ Fits fields texts)
    (hnodup : (texts.map (·.name)).Nodup) {fuel : Nat}
    (hitems : Items (MemberText texts) first t members)
    (hcompletes : Completes texts seen start members result) (hfuel : t.length < fuel) :
    recordMembersFrom fields fuel first seen start (t ++ 0x7D :: rest) = .ok (result, rest) := by
  induction hitems generalizing fuel seen start with
  | nil hw =>
    cases fuel with
    | zero => cases hfuel
    | succ fuel =>
      obtain ⟨rfl, hpresent⟩ := completes_nil_iff.mp hcompletes
      have hmissing := (missing?_eq_none_iff hfits).mpr hpresent
      simp [recordMembersFrom, nextKey_close hw, hmissing, bind, Except.bind, pure, Except.pure]
  | @cons first u s more m members hu hs hmore ih =>
    cases fuel with
    | zero => cases hfuel
    | succ fuel =>
      have hpos := hs.length_pos
      simp only [List.length_append] at hfuel
      cases hs with
      | @field φ k v x s f hφ hk hv hx hs =>
        obtain ⟨hseen, hcompletes⟩ := completes_field_iff.mp hcompletes
        obtain ⟨field, hfind, hfit⟩ := find?_of_mem hfits hnodup hφ
        have hkey : nextKey first (u ++ (k ++ (v ++ 0x3A :: (x ++ (s ++ (more ++ 0x7D :: rest)))))) =
            .ok (some φ.name, _) := nextKey_lead hu hk
        have hcolon : colon (v ++ 0x3A :: (x ++ (s ++ (more ++ 0x7D :: rest)))) = .ok _ :=
          colon_eq_ok_iff.mpr ⟨v, hv, rfl⟩
        have hread : field.read (x ++ (s ++ (more ++ 0x7D :: rest))) =
            .ok (f, more ++ 0x7D :: rest) :=
          hfit.reads.complete hx hs
        have hrest := ih hcompletes (show more.length < fuel by omega)
        have hcontains : seen.contains φ.name = false := by simpa using hseen
        simp only [List.append_assoc, List.cons_append, recordMembersFrom, hkey, bind, Except.bind,
          hfind, hcontains, hcolon, hread, inside, Except.mapError]
        exact hrest
      | @other k v x s name hk hother hv hx hs =>
        have hfind := (find?_eq_none_iff hfits).mpr hother
        have hrest := ih (completes_other_iff.mp hcompletes) (show more.length < fuel by omega)
        -- The member may be a number, which a blank, a comma or the brace stops.
        have hskip : skipValue (x ++ (s ++ (more ++ 0x7D :: rest))) = .ok _ :=
          skipValue_append hx hs (hmore.stops .object)
        have hkey : nextKey first (u ++ (k ++ (v ++ 0x3A :: (x ++ (s ++ (more ++ 0x7D :: rest)))))) =
            .ok (some name, _) := nextKey_lead hu hk
        have hcolon : colon (v ++ 0x3A :: (x ++ (s ++ (more ++ 0x7D :: rest)))) = .ok _ :=
          colon_eq_ok_iff.mpr ⟨v, hv, rfl⟩
        simp only [List.append_assoc, List.cons_append, recordMembersFrom, hkey, bind, Except.bind,
          hfind, hcolon, hskip, inside, Except.mapError]
        exact hrest

/-! ## Arrays -/

theorem recordEnd_eq_ok_iff : recordEnd start input = .ok (result, rest) ↔
    result = start ∧ ∃ w, Blanks w ∧ input = w ++ 0x5D :: rest := by
  constructor
  · intro h
    unfold recordEnd at h
    split at h
    next => cases h
    next hb =>
      obtain ⟨w, hw, rfl⟩ := skipBlanks_of_cons hb
      obtain ⟨rfl, rfl⟩ := Prod.mk.inj (Except.ok.inj h)
      exact ⟨rfl, w, hw, rfl⟩
    next => split at h <;> cases h
    next => cases h
  · rintro ⟨rfl, w, hw, rfl⟩
    rw [recordEnd, skipBlanks_append_cons hw rfl]
    rfl

/-- At the closing bracket, the fields that are left must be ones that may be missing. -/
theorem recordElements_close {total : String × Nat} {index : Nat} :
    recordElements total fields index start (0x5D :: input) = .ok (result, rest) ↔
      result = start ∧ rest = input ∧ ∀ f ∈ fields, f.absence = .anywhere := by
  induction fields generalizing index with
  | nil =>
    have hend : recordEnd start (0x5D :: input) = .ok (start, input) :=
      recordEnd_eq_ok_iff.mpr ⟨rfl, [], blanks_nil, rfl⟩
    rw [recordElements, hend]
    simp [eq_comm]
  | cons field fields ih =>
    have hnext : nextElement (index = 0) (0x5D :: input) = .ok (none, 0x5D :: input) :=
      nextElement_close blanks_nil
    by_cases habsence : field.absence = .anywhere
    · simp [recordElements, hnext, bind, Except.bind, habsence, ih]
    · simp [recordElements, hnext, bind, Except.bind, habsence, fail]

theorem recordElements_sound (hfits : List.Forall₂ Fits fields texts) {total : String × Nat}
    {index : Nat} (h : recordElements total fields index start input = .ok (result, rest)) :
    ∃ t fs, FieldItems (index = 0) texts t fs ∧ result = applied fs start ∧
      input = t ++ 0x5D :: rest := by
  induction hfits generalizing index start input with
  | nil =>
    obtain ⟨rfl, w, hw, rfl⟩ := recordEnd_eq_ok_iff.mp h
    exact ⟨w, [], .nil hw (by simp), rfl, rfl⟩
  | @cons field φ fields texts hfit hfits ih =>
    rw [recordElements] at h
    obtain ⟨⟨next, rest₁⟩, hnext, hfield⟩ := bind_eq_ok_iff.mp h
    obtain ⟨w, behind, hw, rfl, rfl, rfl⟩ | ⟨u, element, hu, rfl, rfl⟩ := nextElement_sound hnext
    · dsimp only at hfield
      split_ifs at hfield with habsence
      · obtain ⟨rfl, rfl, hlater⟩ := recordElements_close.mp hfield
        refine ⟨w, [], .nil hw ?_, rfl, rfl⟩
        rw [← forall_absence_iff (P := fun _ absence => absence = .anywhere) (.cons hfit hfits)]
        exact List.forall_mem_cons.mpr ⟨habsence, hlater⟩
      · cases hfield
    · obtain ⟨⟨f, rest₂⟩, hread, hmore⟩ := bind_eq_ok_iff.mp hfield
      obtain ⟨t, fs, ht, rfl, rfl⟩ := ih hmore
      obtain ⟨w, s, hw, hs, rfl⟩ := hfit.reads.sound (mapError_eq_ok_iff.mp hread)
      exact ⟨_, _, .cons (hu.blanks_append hw) hs ht, rfl, by simp⟩

theorem recordElements_append (hfits : List.Forall₂ Fits fields texts) {total : String × Nat}
    {index : Nat} {fs : List (α → α)} (hitems : FieldItems first texts t fs)
    (hfirst : first = decide (index = 0)) :
    recordElements total fields index start (t ++ 0x5D :: rest) = .ok (applied fs start, rest) := by
  induction hitems generalizing fields index start with
  | nil hw habsence =>
    rw [← forall_absence_iff (P := fun _ absence => absence = .anywhere) hfits] at habsence
    cases fields with
    | nil => exact recordEnd_eq_ok_iff.mpr ⟨rfl, _, hw, rfl⟩
    | cons field fields =>
      obtain ⟨hfield, hlater⟩ := List.forall_mem_cons.mp habsence
      have hclose := (@recordElements_close _ rest rest fields start start total (index + 1)).mpr
        ⟨rfl, rfl, hlater⟩
      simp only [recordElements, nextElement_close hw, bind, Except.bind, hfield, if_true]
      exact hclose
  | @cons first φ texts u s more f fs hu hs _ ih =>
    cases hfits with
    | @cons field _ fields _ hfit hfits =>
      have hnext : nextElement (index = 0) (u ++ (s ++ (more ++ 0x5D :: rest))) =
          .ok (some (s ++ (more ++ 0x5D :: rest)), []) := by
        rw [← hfirst]
        exact nextElement_lead hu (hfit.reads.starts hs)
      have hread : field.read (s ++ (more ++ 0x5D :: rest)) = .ok (f, more ++ 0x5D :: rest) :=
        hfit.reads.complete blanks_nil hs
      have hrest := @ih fields (f start) hfits (index + 1) (by simp)
      simp only [List.append_assoc, recordElements, hnext, bind, Except.bind, hread, inside,
        Except.mapError]
      exact hrest

/-! ## Records -/

theorem RecordText.starts (h : RecordText texts start t result) : Starts t := by
  cases h with
  | object ht => exact ht.starts
  | array => exact starts_opening .array

theorem reads_record (hfits : List.Forall₂ Fits fields texts) (hnodup : (texts.map (·.name)).Nodup)
    (depth : Nat) (name : String) :
    Reads (record (depth + 1) name fields start) (RecordText texts start) where
  starts := RecordText.starts
  sound := by
    intro input rest result h
    unfold record at h
    split at h
    next behind hb =>
      obtain ⟨w, hw, rfl⟩ := skipBlanks_of_cons hb
      obtain ⟨inner, henter, hmembers⟩ := bind_eq_ok_iff.mp h
      obtain rfl := Except.ok.inj henter
      obtain ⟨t, members, ht, hcompletes, heq⟩ := recordMembersFrom_sound hfits hmembers
      obtain ⟨rfl, hnodup', hpresent⟩ := completes_iff.mp hcompletes
      refine ⟨w, _, hw, .object (.mk ht) hnodup' hpresent, ?_⟩
      rw [Frame.enclosed_append, show behind = t ++ 0x7D :: rest from heq]
      rfl
    next behind hb =>
      obtain ⟨w, hw, rfl⟩ := skipBlanks_of_cons hb
      obtain ⟨inner, henter, helements⟩ := bind_eq_ok_iff.mp h
      obtain rfl := Except.ok.inj henter
      obtain ⟨t, fs, ht, rfl, heq⟩ := recordElements_sound hfits helements
      refine ⟨w, _, hw, .array ht, ?_⟩
      rw [show behind = t ++ 0x5D :: rest from heq]
      simp
    next => exact absurd h wrongType_ne_ok
  complete := by
    intro w t rest result hw ht
    cases ht with
    | object ht hnodup' hpresent =>
      obtain @⟨t, members, hitems⟩ := ht
      have hcompletes : Completes texts [] start _ _ := completes_iff.mpr ⟨rfl, hnodup', hpresent⟩
      have hmembers : recordMembersFrom fields ((t ++ 0x7D :: rest).length + 1) true [] start
          (t ++ 0x7D :: rest) = .ok (_, rest) :=
        recordMembersFrom_append hfits hnodup hitems hcompletes (by
          rw [List.length_append]
          omega)
      rw [Frame.enclosed_append, record, skipBlanks_append_cons hw rfl]
      exact hmembers
    | @array t fs ht =>
      have helements : recordElements (name, fields.length) fields 0 start (t ++ 0x5D :: rest) =
          .ok (applied fs start, rest) := recordElements_append hfits ht rfl
      rw [show 0x5B :: (t ++ [0x5D]) ++ rest = 0x5B :: (t ++ 0x5D :: rest) by simp, record,
        skipBlanks_append_cons hw rfl]
      exact helements

/-! ## Whole texts -/

/-- A whole text is a value with blanks around it. -/
theorem whole_eq_ok_iff {p : Scan α} {text : Bytes → α → Prop} (h : Reads p text) {a : α} :
    whole p input = .ok a ↔ ∃ u t v, Blanks u ∧ text t a ∧ Blanks v ∧ input = u ++ (t ++ v) := by
  unfold whole
  rw [bind_eq_ok_iff]
  constructor
  · rintro ⟨⟨a', rest⟩, hvalue, hend⟩
    obtain ⟨u, t, hu, ht, rfl⟩ := h.sound hvalue
    dsimp only at hend
    split at hend
    next hrest =>
      obtain rfl := Except.ok.inj hend
      exact ⟨u, t, rest, hu, ht, skipBlanks_eq_nil_iff.mp hrest, rfl⟩
    next => cases hend
  · rintro ⟨u, t, v, hu, ht, hv, rfl⟩
    refine ⟨_, h.complete hu ht, ?_⟩
    simp only [skipBlanks_eq_nil_iff.mpr hv]
    rfl

end SyntaxGateway.Json
