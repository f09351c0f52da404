import Mathlib
import SyntaxGateway.Tree.Batch

/-!
# Framing

**Theorem (`split_framing`).** A byte string is split into payloads exactly when it is these payloads,
each behind its length in four bytes. Any other byte string is a run of frames with a broken rest
behind it, in one way only, and the fault stands where the rest starts. What is written for trees is
framed, and its prefixes that end between two frames are the only framed ones. Framed bytes in front
of others do not change how these are split.

Both halves of the loop meet at `Framed`. Cutting frames off a framed run leaves what follows it
(`splitFrom_append`), and every byte string is a framed run with nothing or a broken rest behind it
(`exists_run`).
-/

namespace SyntaxGateway

/-- The place in a batch that a fault of its framing names. -/
def BatchFault.offset? : BatchFault → Option Nat
  | .truncatedHeader offset => some offset
  | .truncatedFrame offset _ _ => some offset
  | .badBase64 _ => none
  | .badTree _ _ => none

/-- The fault for the same bytes with `count` bytes more in front of them. -/
def BatchFault.moved (count : Nat) : BatchFault → BatchFault
  | .truncatedHeader offset => .truncatedHeader (count + offset)
  | .truncatedFrame offset declared remaining => .truncatedFrame (count + offset) declared remaining
  | fault => fault

namespace Batch

variable {bytes run rest header body payload : Bytes} {payloads before : List Bytes} {offset : Nat}
  {fault : BatchFault}

/-! ## Frames and what is not one -/

/-- The number that bytes write, most significant first. -/
def bigEndian (bytes : Bytes) : Nat := bytes.foldl (fun n b => n * 256 + b.toNat) 0

/-- The bytes are these payloads in order, each behind four bytes that write its length. -/
inductive Framed : Bytes → List Bytes → Prop
  | nil : Framed [] []
  | cons {header payload rest : Bytes} {payloads : List Bytes} : header.length = 4 →
      bigEndian header = payload.length → Framed rest payloads →
      Framed (header ++ (payload ++ rest)) (payload :: payloads)

/-- The bytes at `offset` do not start with a frame, although there are some: fewer than four are
left, or fewer than the first four of them declare. -/
inductive Broken (offset : Nat) : Bytes → BatchFault → Prop
  | header {rest : Bytes} : rest ≠ [] → rest.length < 4 →
      Broken offset rest (.truncatedHeader offset)
  | body {header body : Bytes} : header.length = 4 → body.length < bigEndian header →
      Broken offset (header ++ body) (.truncatedFrame offset (bigEndian header) body.length)

theorem Framed.append {bytes' : Bytes} {payloads' : List Bytes} (h : Framed bytes payloads)
    (h' : Framed bytes' payloads') : Framed (bytes ++ bytes') (payloads ++ payloads') := by
  induction h with
  | nil => exact h'
  | cons hheader hlength _ ih =>
    simp only [List.append_assoc, List.cons_append]
    exact .cons hheader hlength ih

/-- Every payload takes its own length and that of its header. -/
theorem Framed.length_eq (h : Framed bytes payloads) :
    bytes.length = (payloads.map fun payload => 4 + payload.length).sum := by
  induction h with
  | nil => rfl
  | cons hheader _ _ ih =>
    simp only [List.length_append, List.map_cons, List.sum_cons, ih, hheader]
    omega

theorem Broken.offset?_eq (h : Broken offset rest fault) : fault.offset? = some offset := by
  cases h <;> rfl

theorem Broken.moved (count : Nat) (h : Broken offset rest fault) :
    Broken (count + offset) rest (fault.moved count) := by
  cases h with
  | header hne hshort => exact .header hne hshort
  | body hheader hshort => exact .body hheader hshort

/-! ## One frame -/

theorem exists_header (h : header.length = 4) :
    ∃ a b c d, header = [a, b, c, d] ∧ frameLength a b c d = bigEndian header := by
  match header, h with
  | [a, b, c, d], _ => exact ⟨a, b, c, d, rfl, by simp [frameLength, bigEndian]⟩

theorem takeExact?_append (payload rest : Bytes) :
    takeExact? payload.length (payload ++ rest) = some (payload, rest) := by
  simp [takeExact?]

theorem takeExact?_eq_none {count : Nat} (h : body.length < count) :
    takeExact? count body = none := by
  have hne : (body.take count).length ≠ count := by
    rw [List.length_take]
    omega
  exact if_neg hne

/-- A frame in front is cut off. -/
theorem splitFrom_cons (hheader : header.length = 4) (hlength : bigEndian header = payload.length) :
    splitFrom offset before (header ++ (payload ++ rest)) =
      splitFrom (offset + (header.length + payload.length)) (payload :: before) rest := by
  obtain ⟨a, b, c, d, rfl, hframe⟩ := exists_header hheader
  have htake : takeExact? (frameLength a b c d) (payload ++ rest) = some (payload, rest) := by
    rw [hframe, hlength, takeExact?_append]
  simp only [List.cons_append, List.nil_append]
  rw [splitFrom]
  split
  · next h =>
    cases htake.symm.trans h
    rw [hframe, hlength, Nat.add_assoc, List.length_cons, List.length_cons, List.length_cons,
      List.length_singleton]
  · next h => cases htake.symm.trans h

/-- Bytes that do not start with a frame are refused. -/
theorem splitFrom_broken (h : Broken offset rest fault) :
    splitFrom offset before rest = .error fault := by
  cases h with
  | header hne hshort =>
    match rest, hne, hshort with
    | [_], _, _ | [_, _], _, _ | [_, _, _], _, _ => simp [splitFrom]
  | body hheader hshort =>
    obtain ⟨a, b, c, d, rfl, hframe⟩ := exists_header hheader
    rw [← hframe] at hshort ⊢
    simp only [List.cons_append, List.nil_append]
    rw [splitFrom]
    split
    · next h => cases (takeExact?_eq_none hshort).symm.trans h
    · rfl

/-! ## Runs of frames -/

/-- Cutting frames off a run of them leaves what stands behind the run. -/
theorem splitFrom_append (h : Framed run payloads) :
    splitFrom offset before (run ++ rest) =
      splitFrom (offset + run.length) (payloads.reverse ++ before) rest := by
  induction h generalizing offset before with
  | nil => simp
  | cons hheader hlength _ ih =>
    simp only [List.append_assoc]
    rw [splitFrom_cons hheader hlength, ih]
    simp [Nat.add_assoc]

/-- Some bytes start with a frame or are broken. -/
theorem exists_frame_or_broken (offset : Nat) (h : bytes ≠ []) :
    (∃ header payload rest, header.length = 4 ∧ bigEndian header = payload.length ∧
      bytes = header ++ (payload ++ rest)) ∨ ∃ fault, Broken offset bytes fault := by
  by_cases hshort : bytes.length < 4
  · exact .inr ⟨_, .header h hshort⟩
  · have hheader : (bytes.take 4).length = 4 := by
      rw [List.length_take]
      omega
    by_cases hbody : (bytes.drop 4).length < bigEndian (bytes.take 4)
    · have hbroken : Broken offset (bytes.take 4 ++ bytes.drop 4) _ := .body hheader hbody
      rw [List.take_append_drop] at hbroken
      exact .inr ⟨_, hbroken⟩
    · refine .inl ⟨bytes.take 4, (bytes.drop 4).take (bigEndian (bytes.take 4)),
        (bytes.drop 4).drop (bigEndian (bytes.take 4)), hheader, ?_, ?_⟩
      · rw [List.length_take]
        omega
      · rw [List.take_append_drop, List.take_append_drop]

/-- All bytes are a run of frames with nothing or a broken rest behind it. -/
theorem exists_run (bytes : Bytes) :
    ∃ run payloads rest, bytes = run ++ rest ∧ Framed run payloads ∧
      (rest = [] ∨ ∃ fault, Broken run.length rest fault) := by
  induction hlength : bytes.length using Nat.strongRecOn generalizing bytes with
  | _ length ih =>
    subst hlength
    by_cases hnil : bytes = []
    · exact ⟨[], [], [], by simp [hnil], .nil, .inl rfl⟩
    · rcases exists_frame_or_broken 0 hnil with
        ⟨header, payload, after, hheader, hpayload, rfl⟩ | ⟨fault, hbroken⟩
      · have hshorter : after.length < (header ++ (payload ++ after)).length := by
          simp only [List.length_append]
          omega
        obtain ⟨run, payloads, rest, rfl, hrun, hrest⟩ := ih _ hshorter after rfl
        refine ⟨header ++ (payload ++ run), payload :: payloads, rest, by simp,
          .cons hheader hpayload hrun, hrest.imp_right fun ⟨fault, hbroken⟩ => ?_⟩
        have hmoved := hbroken.moved (header.length + payload.length)
        exact ⟨_, by simpa only [List.length_append, Nat.add_assoc] using hmoved⟩
      · exact ⟨[], [], bytes, rfl, .nil, .inr ⟨fault, hbroken⟩⟩

/-! ## Splitting -/

theorem split_of_framed (h : Framed bytes payloads) : split bytes = .ok payloads := by
  have hsplit : splitFrom 0 [] (bytes ++ []) = _ := splitFrom_append h
  simpa [split, splitFrom] using hsplit

theorem split_of_broken (h : Framed run payloads) (hrest : Broken run.length rest fault) :
    split (run ++ rest) = .error fault := by
  rw [split, splitFrom_append h, Nat.zero_add, splitFrom_broken hrest]

theorem split_eq_ok_iff : split bytes = .ok payloads ↔ Framed bytes payloads := by
  refine ⟨fun h => ?_, split_of_framed⟩
  obtain ⟨run, payloads', rest, rfl, hrun, rfl | ⟨fault, hbroken⟩⟩ := exists_run bytes
  · rw [List.append_nil] at h ⊢
    rw [split_of_framed hrun] at h
    cases h
    exact hrun
  · rw [split_of_broken hrun hbroken] at h
    cases h

theorem split_eq_error_iff : split bytes = .error fault ↔
    ∃ run payloads rest, bytes = run ++ rest ∧ Framed run payloads ∧
      Broken run.length rest fault := by
  constructor
  · intro h
    obtain ⟨run, payloads, rest, rfl, hrun, rfl | ⟨fault', hbroken⟩⟩ := exists_run bytes
    · rw [List.append_nil, split_of_framed hrun] at h
      cases h
    · rw [split_of_broken hrun hbroken] at h
      cases h
      exact ⟨run, payloads, rest, rfl, hrun, hbroken⟩
  · rintro ⟨run, payloads, rest, rfl, hrun, hbroken⟩
    exact split_of_broken hrun hbroken

theorem Framed.payloads_eq {payloads' : List Bytes} (h : Framed bytes payloads)
    (h' : Framed bytes payloads') : payloads = payloads' :=
  Except.ok.inj ((split_of_framed h).symm.trans (split_of_framed h'))

/-- There is one way only to see the bytes as a run of frames with a broken rest behind it. -/
theorem Framed.run_eq {run' rest' : Bytes} {payloads' : List Bytes} {fault' : BatchFault}
    (hrun : Framed run payloads) (hrest : Broken run.length rest fault)
    (hrun' : Framed run' payloads') (hrest' : Broken run'.length rest' fault')
    (h : run ++ rest = run' ++ rest') : run = run' ∧ rest = rest' := by
  have hfault : fault = fault' := by
    have hsplit := split_of_broken hrun hrest
    rw [h, split_of_broken hrun' hrest'] at hsplit
    exact (Except.error.inj hsplit).symm
  have hlength : some run.length = some run'.length := by
    rw [← hrest.offset?_eq, hfault, hrest'.offset?_eq]
  exact List.append_inj h (Option.some.inj hlength)

/-- No run of frames in front of the bytes goes beyond the one in front of a broken rest. -/
theorem Framed.isPrefix_run {run' rest' : Bytes} {payloads' : List Bytes}
    (hrun : Framed run payloads) (hrest : Broken run.length rest fault)
    (hrun' : Framed run' payloads') (h : run ++ rest = run' ++ rest') : run' <+: run := by
  obtain ⟨run'', payloads'', rest'', rfl, hrun'', rfl | ⟨fault'', hbroken⟩⟩ := exists_run rest'
  · have hframed := hrun'.append hrun''
    have hsplit := split_of_broken hrun hrest
    rw [h, List.append_nil, split_of_framed hframed] at hsplit
    cases hsplit
  · have hbroken' := hbroken.moved run'.length
    rw [← List.length_append] at hbroken'
    rw [← List.append_assoc] at h
    obtain ⟨rfl, -⟩ := hrun.run_eq hrest (hrun'.append hrun'') hbroken' h
    exact List.prefix_append run' run''

/-- A run of frames in front adds its payloads to those of the rest, and moves the rest's fault. -/
theorem split_append (h : Framed run payloads) :
    split (run ++ rest) =
      match split rest with
      | .ok payloads' => .ok (payloads ++ payloads')
      | .error fault => .error (fault.moved run.length) := by
  cases hrest : split rest with
  | ok payloads' => exact split_of_framed (h.append (split_eq_ok_iff.1 hrest))
  | error fault =>
    obtain ⟨run', payloads', rest', rfl, hrun', hbroken⟩ := split_eq_error_iff.1 hrest
    have hbroken' := hbroken.moved run.length
    rw [← List.length_append] at hbroken'
    rw [← List.append_assoc]
    exact split_of_broken (h.append hrun') hbroken'

/-! ## Prefixes -/

/-- Framed bytes can be cut between any two of their frames. -/
theorem Framed.exists_cut {before after : List Bytes} (h : Framed bytes (before ++ after)) :
    ∃ run rest, bytes = run ++ rest ∧ Framed run before ∧ Framed rest after := by
  induction before generalizing bytes with
  | nil => exact ⟨[], bytes, rfl, .nil, h⟩
  | cons payload before ih =>
    cases h with
    | cons hheader hlength hrest =>
      obtain ⟨run, rest, rfl, hrun, hafter⟩ := ih hrest
      exact ⟨_, rest, by simp, .cons hheader hlength hrun, hafter⟩

/-- A prefix of framed bytes is split exactly when it ends behind a frame, and then into the payloads
up to there. -/
theorem Framed.split_take_iff {payloads' : List Bytes} {n : Nat} (h : Framed bytes payloads)
    (hn : n ≤ bytes.length) :
    split (bytes.take n) = .ok payloads' ↔
      ∃ k ≤ payloads.length, n = ((payloads.take k).map fun payload => 4 + payload.length).sum ∧
        payloads' = payloads.take k := by
  constructor
  · intro htake
    have hframed := split_eq_ok_iff.1 htake
    have hsplit : split (bytes.take n ++ bytes.drop n) = _ := split_append hframed
    rw [List.take_append_drop, split_of_framed h] at hsplit
    split at hsplit
    · next payloads'' _ =>
      obtain rfl := Except.ok.inj hsplit
      refine ⟨payloads'.length, by simp, ?_, by simp⟩
      have hlength := hframed.length_eq
      rw [List.length_take, Nat.min_eq_left hn] at hlength
      rwa [List.take_left]
    · cases hsplit
  · rintro ⟨k, hk, rfl, rfl⟩
    rw [← List.take_append_drop k payloads] at h
    obtain ⟨run, rest, rfl, hrun, -⟩ := h.exists_cut
    rw [← hrun.length_eq, List.take_left]
    exact split_of_framed hrun

/-! ## What is written for trees -/

theorem length_frameHeader (n : Nat) : (frameHeader n).length = 4 := rfl

theorem bigEndian_frameHeader {n : Nat} (h : n < Nat.pow 2 32) : bigEndian (frameHeader n) = n := by
  have htoNat (m : Nat) : m.toUInt8.toNat = m % 256 := UInt8.toNat_ofNat'
  have hbound : Nat.pow 2 32 = 4294967296 := by decide
  simp only [bigEndian, frameHeader, List.foldl_cons, List.foldl_nil, htoNat]
  omega

/-- The length of an encoded tree always fits four bytes. -/
theorem length_lt_of_encode? {tree : Node} (h : tree.encode? = some payload) :
    payload.length < Nat.pow 2 32 := by
  rw [Node.encode?] at h
  split at h
  · next hsmall =>
    cases h
    exact Nat.lt_of_le_of_lt hsmall (by decide)
  · cases h

/-- Trees that can be encoded make a batch of the frames of their encodings. -/
theorem exists_batch {trees : List Node} (h : ∀ tree ∈ trees, ∃ bytes, tree.encode? = some bytes) :
    ∃ payloads batch, trees.map Node.encode? = payloads.map some ∧ encode? trees = some batch ∧
      Framed batch payloads := by
  induction trees with
  | nil => exact ⟨[], [], rfl, rfl, .nil⟩
  | cons tree trees ih =>
    obtain ⟨⟨payload, hpayload⟩, htrees⟩ := List.forall_mem_cons.1 h
    obtain ⟨payloads, batch, hpayloads, hbatch, hframed⟩ := ih htrees
    have hlength := length_lt_of_encode? hpayload
    have hframe : frame? payload = some (frameHeader payload.length ++ payload) := if_pos hlength
    obtain ⟨frames, hframes, hflatten⟩ := Option.bind_eq_some_iff.1 hbatch
    cases hflatten
    refine ⟨payload :: payloads, frameHeader payload.length ++ (payload ++ frames.flatten),
      by simp [hpayload, hpayloads], ?_, ?_⟩
    · simp only [Option.bind_eq_bind] at hframes
      simp [encode?, List.mapM_cons, hpayload, hframe, hframes]
    · exact .cons (length_frameHeader _) (bigEndian_frameHeader hlength) hframed

/-! ## The format -/

/-- Splitting cuts bytes into the payloads that they frame, and these are unique. Bytes that frame
nothing are in one way only a run of frames with a broken rest behind it, no run in front of them is
longer, and the fault names the place where the rest starts. Trees that can be encoded make a batch
whose prefixes are split where they end behind a frame, and nowhere else. Framed bytes in front of
others add their payloads to those of the others, or move their fault. -/
theorem split_framing :
    (∀ bytes payloads, split bytes = .ok payloads ↔ Framed bytes payloads) ∧
      (∀ bytes payloads payloads', Framed bytes payloads → Framed bytes payloads' →
        payloads = payloads') ∧
      (∀ bytes fault, split bytes = .error fault →
        ∃ run payloads rest, bytes = run ++ rest ∧ Framed run payloads ∧
          Broken run.length rest fault ∧ fault.offset? = some run.length ∧
          (∀ run' payloads' rest', bytes = run' ++ rest' → Framed run' payloads' → run' <+: run) ∧
          ∀ run' payloads' rest' fault', bytes = run' ++ rest' → Framed run' payloads' →
            Broken run'.length rest' fault' → run' = run ∧ rest' = rest ∧ fault' = fault) ∧
      (∀ trees : List Node, (∀ tree ∈ trees, ∃ bytes, tree.encode? = some bytes) →
        ∃ (payloads : List Bytes) (batch : Bytes),
          trees.map Node.encode? = payloads.map some ∧ encode? trees = some batch ∧
          ∀ n ≤ batch.length, ∀ payloads', split (batch.take n) = .ok payloads' ↔
            ∃ k ≤ trees.length,
              n = ((payloads.take k).map fun payload => 4 + payload.length).sum ∧
              payloads' = payloads.take k) ∧
      ∀ run payloads rest, Framed run payloads → split (run ++ rest) =
        match split rest with
        | .ok payloads' => .ok (payloads ++ payloads')
        | .error fault => .error (fault.moved run.length) := by
  refine ⟨fun _ _ => split_eq_ok_iff, fun _ _ _ h h' => h.payloads_eq h', fun bytes fault h => ?_,
    fun trees h => ?_, fun _ _ _ h => split_append h⟩
  · obtain ⟨run, payloads, rest, rfl, hrun, hrest⟩ := split_eq_error_iff.1 h
    refine ⟨run, payloads, rest, rfl, hrun, hrest, hrest.offset?_eq,
      fun run' payloads' rest' heq hrun' => hrun.isPrefix_run hrest hrun' heq,
      fun run' payloads' rest' fault' heq hrun' hrest' => ?_⟩
    obtain ⟨rfl, rfl⟩ := hrun.run_eq hrest hrun' hrest' heq
    have hfault := split_of_broken hrun' hrest'
    rw [h] at hfault
    exact ⟨rfl, rfl, (Except.error.inj hfault).symm⟩
  · obtain ⟨payloads, batch, hpayloads, hbatch, hframed⟩ := exists_batch h
    have hlength : trees.length = payloads.length := by
      simpa using congrArg List.length hpayloads
    refine ⟨payloads, batch, hpayloads, hbatch, fun n hn payloads' => ?_⟩
    rw [hlength]
    exact hframed.split_take_iff hn

/-- A frame that is cut short behind two frames, of which the second is empty, and the batch of one
tree as a whole and without its last byte. -/
theorem split_framing_cut :
    let run : Bytes := [0, 0, 0, 1, 7, 0, 0, 0, 0]
    let cut : Bytes := [0, 0, 0, 2, 7]
    let payload : Bytes := [0, 0, 0, 0, 0, 0, 0]
    let batch : Bytes := [0, 0, 0, 7, 0, 0, 0, 0, 0, 0, 0]
    split run = .ok [[7], []] ∧ split (run ++ cut) = .error (.truncatedFrame 9 2 1) ∧
      (∃ run' payloads rest, run ++ cut = run' ++ rest ∧ Framed run' payloads ∧
        Broken run'.length rest (.truncatedFrame 9 2 1) ∧ run <+: run') ∧
      encode? [default] = some batch ∧ split (batch.take 11) = .ok [payload] ∧
        ∀ payloads, split (batch.take 10) ≠ .ok payloads := by
  intro run cut payload batch
  obtain ⟨hok, -, herror, hbatch, happend⟩ := split_framing
  have hrun : split run = .ok [[7], []] := by cbv
  have hframed := (hok _ _).1 hrun
  have hcut : split cut = .error (.truncatedFrame 0 2 1) := by cbv
  have hsplit : split (run ++ cut) = _ := happend _ _ cut hframed
  rw [hcut] at hsplit
  obtain ⟨run', payloads, rest, heq, hframed', hbroken, -, hmaximal, -⟩ := herror _ _ hsplit
  have hencode : (default : Node).encode? = some payload := by decide +kernel
  have hencoded : encode? [default] = some batch := by decide +kernel
  obtain ⟨payloads', batch', hpayloads, hbatch', hcuts⟩ :=
    hbatch [default] (by simp [hencode])
  obtain rfl := Option.some.inj (hencoded.symm.trans hbatch')
  rw [List.map_singleton, hencode] at hpayloads
  obtain rfl : [payload] = payloads' :=
    List.map_injective_iff.2 (Option.some_injective _) hpayloads
  refine ⟨hrun, hsplit, ⟨run', payloads, rest, heq, hframed', hbroken, hmaximal _ _ _ rfl hframed⟩,
    hencoded, (hcuts 11 (by decide) _).2 ⟨1, by decide, rfl, rfl⟩, fun p hp => ?_⟩
  obtain ⟨k, hk, hsum, -⟩ := (hcuts 10 (by decide) _).1 hp
  rcases Nat.le_one_iff_eq_zero_or_eq_one.1 hk with rfl | rfl <;> exact absurd hsum (by decide)

end Batch

end SyntaxGateway
