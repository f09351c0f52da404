import Mathlib
import SyntaxGateway.Proofs.Files
import SyntaxGateway.Proofs.Settings.Toml
import SyntaxGateway.Settings.File

/-!
# The file of settings as a store

**Theorem (`trace_obeys`).** However settings are saved to a file and loaded from it, one call after
the other, each call does as a store does. To save fails exactly if the file is there and is not to
be replaced, or if the time to wait is beyond the integers of TOML; then nothing on the disk has
changed. To load changes nothing either, and gives the settings that the latest successful call
saved, if there is one.

The file holds the document of the settings saved last (`Stores`). Each call obeys and keeps this
(`step_obeys`), and so do all the calls of a run (`trace_obeys_of_stores`).
-/

namespace SyntaxGateway.Settings

/-! ## Calls -/

/-- A call on the file of settings. -/
inductive Call where
  | save (s : Settings) (force : Bool)
  | load

/-- What a call answers. -/
inductive Reply where
  | saved (outcome : Except FileProblem Unit)
  | loaded (outcome : Except FileProblem (Option Settings))

/-- A call with its answer, and the disk before and after it. -/
structure Step where
  before : Disk
  call : Call
  reply : Reply
  after : Disk

variable {path : String} {d : Disk} {s : Settings} {force : Bool}

/-- The settings to be saved have numbers of the right size. -/
def Call.Fits : Call → Prop
  | .save s _ => s.Fits
  | .load => True

/-- A call on the file at a path. -/
def Call.step (path : String) (d : Disk) : Call → Step
  | .save s force =>
    let (outcome, after) := StateT.run (Settings.save path s force : StateM Disk _) d
    ⟨d, .save s force, .saved outcome, after⟩
  | .load =>
    let (outcome, after) := StateT.run (Settings.load (some path) : StateM Disk _) d
    ⟨d, .load, .loaded outcome.value, after⟩

/-- The steps of calls one after the other. -/
def trace (path : String) : Disk → List Call → List Step
  | _, [] => []
  | d, call :: calls => call.step path d :: trace path (call.step path d).after calls

/-- The settings that a step saved. -/
def Step.saved? (step : Step) : Option Settings :=
  match step.call, step.reply with
  | .save s _, .saved (.ok ()) => some s
  | _, _ => none

/-- The settings that the latest successful step saved. -/
def latest? (steps : List Step) : Option Settings := (steps.filterMap Step.saved?).getLast?

/-! ## What a store does -/

/-- The settings cannot be saved: there is a file that is not to be replaced, or the time to wait is
beyond the integers of TOML. -/
def Refuses (d : Disk) (path : String) (s : Settings) (force : Bool) : Prop :=
  (d.isThere path ∧ force = false) ∨ ∃ n ∈ s.timeoutSeconds, Nat.pow 2 63 - 1 < n

/-- A step of a store that has `stored` in it. -/
inductive Step.Obeys (path : String) (stored : Option Settings) : Step → Prop
  | refused {d : Disk} {s : Settings} {force : Bool} {problem : FileProblem} :
      Refuses d path s force → Obeys path stored ⟨d, .save s force, .saved (.error problem), d⟩
  | saved {d d' : Disk} {s : Settings} {force : Bool} :
      ¬Refuses d path s force → d'.isThere path →
      Obeys path stored ⟨d, .save s force, .saved (.ok ()), d'⟩
  | loaded {d : Disk} {outcome : Except FileProblem (Option Settings)} :
      (d.isThere path = false → outcome = .ok none) →
      (∀ s ∈ stored, outcome = .ok (some s)) → Obeys path stored ⟨d, .load, .loaded outcome, d⟩

/-- The path leads to a file or to where one could be, and what is stored is the document there. -/
structure Stores (path : String) (stored : Option Settings) (d : Disk) : Prop where
  holds : ∃ content?, d.Holds path content?
  document : ∀ s ∈ stored, ∃ text, s.toToml? = some text ∧ s.Fits ∧
    d.Holds path (some (Utf8.ofString text))

/-! ## Single calls -/

theorem run_save (path : String) (s : Settings) (force : Bool) (d : Disk) :
    StateT.run (save path s force : StateM Disk _) d =
      if d.isThere path ∧ force = false then (.error (.alreadyThere path), d)
      else
        match s.toToml? with
        | none => (.error .unwritable, d)
        | some text =>
          match d.write path (Utf8.ofString text) with
          | .error fault => (.error (.file fault), d)
          | .ok d' => (.ok (), d') := by
  simp only [save, StateT.run_bind, Disk.run_isThere, pure_bind, Bool.and_eq_true,
    Bool.not_eq_true']
  split
  · rfl
  · cases s.toToml? with
    | none => rfl
    | some text =>
      simp only [bind_pure_comp, StateT.run_map, Disk.run_write]
      cases d.write path (Utf8.ofString text) <;> rfl

theorem run_load (path : String) (d : Disk) :
    StateT.run (load (some path) : StateM Disk _) d =
      (if d.isThere path then
        match (d.read path).bind fun content =>
          (Utf8.toString? content).mapError fun _ => .notText with
        | .error fault => pure (.error (.file fault))
        | .ok text =>
          match ofToml? text with
          | none => pure (.error .malformed)
          | some s => do
            Logged.log .debug s!"Loaded config from {path}"
            return .ok (some s)
      else pure (.ok none), d) := by
  simp only [load, Option.getD_some, StateT.run_bind, Disk.run_isThere, pure_bind]
  cases d.isThere path with
  | false => rfl
  | true =>
    simp only [Bool.not_true, Bool.false_eq_true, if_false, if_true, StateT.run_bind,
      Disk.run_readText, pure_bind]
    cases (d.read path).bind fun content =>
        (Utf8.toString? content).mapError fun _ => FileFault.notText with
    | error fault => rfl
    | ok text => cases h : ofToml? text <;> simp only [h] <;> rfl

/-- What cannot be saved is refused, and the disk stays as it is. -/
theorem step_save_of_refuses (h : s.Fits) (hrefuses : Refuses d path s force) :
    ∃ problem, Call.step path d (.save s force) =
      ⟨d, .save s force, .saved (.error problem), d⟩ := by
  rw [Call.step, run_save]
  by_cases hthere : d.isThere path ∧ force = false
  · exact ⟨_, by rw [if_pos hthere]⟩
  · have hlarge := hrefuses.resolve_left hthere
    exact ⟨_, by rw [if_neg hthere, (toToml?_eq_none_iff h).2 hlarge]⟩

/-- What can be saved is saved: its document is the content of the file. -/
theorem step_save_of_not_refuses {content? : Option Bytes} (h : s.Fits)
    (hholds : d.Holds path content?) (hrefuses : ¬Refuses d path s force) :
    ∃ text d', s.toToml? = some text ∧ d'.Holds path (some (Utf8.ofString text)) ∧
      Call.step path d (.save s force) = ⟨d, .save s force, .saved (.ok ()), d'⟩ := by
  obtain ⟨hthere, hsmall⟩ := not_or.1 hrefuses
  have hwritable : s.toToml? ≠ none := fun hnone => hsmall ((toToml?_eq_none_iff h).1 hnone)
  obtain ⟨text, htext⟩ := Option.ne_none_iff_exists'.1 hwritable
  obtain ⟨d', hwrite, hholds'⟩ := Disk.write_of_holds hholds (Utf8.ofString text)
  refine ⟨text, d', htext, hholds', ?_⟩
  simp only [Call.step, run_save, if_neg hthere, htext, hwrite]

/-- To load changes nothing. -/
theorem step_load (path : String) (d : Disk) :
    ∃ outcome, Call.step path d .load = ⟨d, .load, .loaded outcome, d⟩ ∧
      (d.isThere path = false → outcome = .ok none) ∧
      ∀ s text, s.Fits → s.toToml? = some text → d.Holds path (some (Utf8.ofString text)) →
        outcome = .ok (some s) := by
  rw [Call.step, run_load]
  refine ⟨_, rfl, fun hthere => by simp [hthere], fun s text hs htext hholds => ?_⟩
  have hthere : d.isThere path := Disk.isThere_of_holds hholds
  have hread : (d.read path).bind (fun content =>
      (Utf8.toString? content).mapError fun _ => FileFault.notText) = .ok text := by
    rw [Disk.read_of_holds hholds]
    exact congrArg (Except.mapError _) (Utf8.toString?_eq_ok_iff.2 rfl)
  simp only [if_pos hthere, hread, ofToml?_of_toToml? hs htext, Logged.value_bind,
    Logged.value_pure]

/-! ## Steps and runs -/

/-- A call on what is stored obeys, and what is stored then is what it saved, or else the same. -/
theorem step_obeys {stored : Option Settings} {call : Call} (h : Stores path stored d)
    (hfits : call.Fits) :
    (call.step path d).Obeys path stored ∧
      Stores path ((call.step path d).saved? <|> stored) (call.step path d).after := by
  obtain ⟨content?, hholds⟩ := h.holds
  cases call with
  | save s force =>
    by_cases hrefuses : Refuses d path s force
    · obtain ⟨problem, hstep⟩ := step_save_of_refuses hfits hrefuses
      rw [hstep]
      exact ⟨.refused hrefuses, h⟩
    · obtain ⟨text, d', htext, hholds', hstep⟩ := step_save_of_not_refuses hfits hholds hrefuses
      rw [hstep]
      refine ⟨.saved hrefuses (Disk.isThere_of_holds hholds'), ⟨_, hholds'⟩, ?_⟩
      rintro _ ⟨⟩
      exact ⟨text, htext, hfits, hholds'⟩
  | load =>
    obtain ⟨outcome, hstep, habsent, hdocument⟩ := step_load path d
    rw [hstep]
    refine ⟨.loaded habsent fun s hs => ?_, h⟩
    obtain ⟨text, htext, hs, hholds'⟩ := h.document s hs
    exact hdocument s text hs htext hholds'

/-- What a step and those after it leave stored: what they saved latest, or else what was stored
before them. -/
theorem latest?_cons_or (step : Step) (steps : List Step) (stored : Option Settings) :
    (latest? (step :: steps) <|> stored) = (latest? steps <|> step.saved? <|> stored) := by
  rw [latest?, latest?, List.filterMap_cons]
  cases step.saved? with
  | none => rfl
  | some s =>
    simp only [List.getLast?_cons]
    cases (steps.filterMap Step.saved?).getLast? <;> rfl

/-- From what is stored on, each step obeys what is stored after the steps before it. -/
theorem trace_obeys_of_stores {stored : Option Settings} {calls : List Call}
    (h : Stores path stored d) (hfits : ∀ call ∈ calls, call.Fits) {i : Nat} {step : Step}
    (hstep : (trace path d calls)[i]? = some step) :
    step.Obeys path (latest? ((trace path d calls).take i) <|> stored) := by
  -- The first call leaves another disk and maybe other settings stored; `step_obeys` gives the
  -- invariant for these.
  induction calls generalizing d stored i with
  | nil => cases hstep
  | cons call calls ih =>
    obtain ⟨hcall, hcalls⟩ := List.forall_mem_cons.1 hfits
    obtain ⟨hobeys, hstores⟩ := step_obeys h hcall
    cases i with
    | zero =>
      cases hstep
      exact hobeys
    | succ i =>
      rw [trace, List.take_succ_cons, latest?_cons_or]
      exact ih hstores hcalls hstep

theorem exists_step_eq (path : String) (d : Disk) (call : Call) :
    ∃ reply after, call.step path d = ⟨d, call, reply, after⟩ := by
  cases call <;> exact ⟨_, _, rfl⟩

theorem map_call_trace (path : String) (d : Disk) (calls : List Call) :
    (trace path d calls).map Step.call = calls := by
  induction calls generalizing d with
  | nil => rfl
  | cons call calls ih =>
    obtain ⟨reply, after, hstep⟩ := exists_step_eq path d call
    rw [trace, List.map_cons, ih, hstep]

/-- Calls on a file, or on a place for one, behave as a store: what fails changes nothing, and what
is loaded is what was saved last. -/
theorem trace_obeys (path : String) (d : Disk) (hpath : ∃ content?, d.Holds path content?)
    (calls : List Call) (hfits : ∀ call ∈ calls, call.Fits) :
    (trace path d calls).map Step.call = calls ∧
      ∀ (i : Nat) (step : Step), (trace path d calls)[i]? = some step →
        step.Obeys path (latest? ((trace path d calls).take i)) := by
  refine ⟨map_call_trace path d calls, fun i step hstep => ?_⟩
  have hempty : Stores path none d := ⟨hpath, fun s hs => nomatch hs⟩
  have hobeys := trace_obeys_of_stores hempty hfits hstep
  rwa [Option.orElse_eq_orElse, Option.orElse_eq_or, Option.or_none] at hobeys

section Obeying

variable {stored : Option Settings}

theorem saved?_of_refuses (h : (Call.step path d (.save s force)).Obeys path stored)
    (hrefuses : Refuses d path s force) :
    (Call.step path d (.save s force)).saved? = none ∧
      (Call.step path d (.save s force)).after = d := by
  obtain ⟨reply, after, hstep⟩ := exists_step_eq path d (.save s force)
  rw [hstep] at h ⊢
  cases h with
  | refused => exact ⟨rfl, rfl⟩
  | saved hallowed => exact absurd hrefuses hallowed

theorem saved?_of_not_refuses (h : (Call.step path d (.save s force)).Obeys path stored)
    (hallowed : ¬Refuses d path s force) :
    (Call.step path d (.save s force)).saved? = some s ∧
      (Call.step path d (.save s force)).after.isThere path := by
  obtain ⟨reply, after, hstep⟩ := exists_step_eq path d (.save s force)
  rw [hstep] at h ⊢
  cases h with
  | refused hrefuses => exact absurd hrefuses hallowed
  | saved _ hthere => exact ⟨rfl, hthere⟩

theorem reply_of_stored (h : (Call.step path d .load).Obeys path (some s)) :
    (Call.step path d .load).reply = .loaded (.ok (some s)) ∧
      (Call.step path d .load).saved? = none ∧ (Call.step path d .load).after = d := by
  obtain ⟨reply, after, hstep⟩ := exists_step_eq path d .load
  rw [hstep] at h ⊢
  cases h with
  | loaded _ hstored =>
    obtain rfl := hstored s rfl
    exact ⟨rfl, rfl, rfl⟩

end Obeying

/-- Quotes, a backslash and line ends are kept in the file and loaded twice, while one save is
refused since the file is there, and another since the time to wait is too long. -/
theorem trace_obeys_quoted :
    let kept : Settings := ⟨some "\"a\" \\ 'b'", none, some "'\''\"\"\"\r\n", none⟩
    let long : Settings := { kept with timeoutSeconds := some (Nat.pow 2 63) }
    let calls : List Call :=
      [.save kept false, .load, .save .defaults false, .save long true, .load]
    let steps := trace "uastgate.toml" .empty calls
    (∀ call ∈ calls, call.Fits) ∧ steps.map Step.call = calls ∧
      (∀ (i : Nat) (step : Step), steps[i]? = some step →
        step.Obeys "uastgate.toml" (latest? (steps.take i))) ∧
      steps.map Step.saved? = [some kept, none, none, none, none] ∧
      steps[1]?.map Step.reply = some (.loaded (.ok (some kept))) ∧
      steps[4]?.map Step.reply = some (.loaded (.ok (some kept))) := by
  intro kept long calls steps
  have hfits : ∀ call ∈ calls, call.Fits := by
    have hkept : kept.Fits := ⟨nofun, nofun⟩
    have hdefaults : defaults.Fits :=
      ⟨fun _ hn => Option.some.inj hn ▸ by decide, fun _ hn => Option.some.inj hn ▸ by decide⟩
    have hlong : long.Fits := ⟨nofun, fun _ hn => Option.some.inj hn ▸ by decide⟩
    simp [calls, Call.Fits, hkept, hdefaults, hlong]
  obtain ⟨hcalls, hobeys⟩ :=
    trace_obeys "uastgate.toml" .empty ⟨none, ⟨_, rfl⟩, rfl⟩ calls hfits
  let save := Call.step "uastgate.toml" .empty (.save kept false)
  let load := Call.step "uastgate.toml" save.after .load
  let again := Call.step "uastgate.toml" load.after (.save .defaults false)
  let tooLong := Call.step "uastgate.toml" again.after (.save long true)
  let reload := Call.step "uastgate.toml" tooLong.after .load
  have hsteps : steps = [save, load, again, tooLong, reload] := rfl
  refine ⟨hfits, hcalls, hobeys, ?_⟩
  change ∀ (i : Nat) (step : Step), steps[i]? = some step →
    step.Obeys "uastgate.toml" (latest? (steps.take i)) at hobeys
  rw [hsteps] at hobeys ⊢
  obtain ⟨hsave, hthere⟩ :
      save.saved? = some kept ∧ save.after.isThere "uastgate.toml" := by
    refine saved?_of_not_refuses (hobeys 0 save rfl) ?_
    rintro (⟨hthere, -⟩ | ⟨n, hn, -⟩)
    · exact absurd hthere (by decide)
    · cases hn
  have hload : load.Obeys "uastgate.toml" (some kept) := by
    simpa [latest?, hsave] using hobeys 1 load rfl
  obtain ⟨hloadReply, hloadSaved, hloadAfter⟩ :
      load.reply = .loaded (.ok (some kept)) ∧ load.saved? = none ∧ load.after = save.after :=
    reply_of_stored hload
  have hstill : load.after.isThere "uastgate.toml" := by rw [hloadAfter, hthere]
  obtain ⟨hagain, -⟩ : again.saved? = none ∧ again.after = load.after :=
    saved?_of_refuses (hobeys 2 again rfl) (.inl ⟨hstill, rfl⟩)
  obtain ⟨htooLong, -⟩ : tooLong.saved? = none ∧ tooLong.after = again.after :=
    saved?_of_refuses (hobeys 3 tooLong rfl) (.inr ⟨_, rfl, by decide⟩)
  have hreload : reload.Obeys "uastgate.toml" (some kept) := by
    simpa [latest?, hsave, hloadSaved, hagain, htooLong] using hobeys 4 reload rfl
  obtain ⟨hreloadReply, hreloadSaved, -⟩ :
      reload.reply = .loaded (.ok (some kept)) ∧ reload.saved? = none ∧
        reload.after = tooLong.after := reply_of_stored hreload
  simp [hsave, hloadReply, hloadSaved, hagain, htooLong, hreloadReply, hreloadSaved]

end SyntaxGateway.Settings
