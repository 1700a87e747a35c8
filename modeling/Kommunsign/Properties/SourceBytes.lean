import Mathlib.Data.Bool.AllAny
import Kommunsign.Infra.Run
import Kommunsign.Worker.SourceDocuments

/-!
# Whether what was scanned and converted is what was granted

The scan of a PDF compares the digest of what it downloads with the granted one. The scan of an
office document does not, and neither conversion does, though each downloads the object again.

* `sources_match` — then every ready version was made of the granted bytes
* `swapped_source_is_ready` — bytes that were swapped before the scan of an office document
-/

namespace Kommunsign

open Infra

/-! ## Digests as texts -/

section Digests

variable {services : SourceServices}

theorem hexDigit_cases {c : Char}
    (h : (c.isDigit || (decide ('a' ≤ c) && decide (c ≤ 'f'))) = true) :
    c ∈ "0123456789abcdef".toList := by
  have hrange : 48 ≤ c.toNat ∧ c.toNat ≤ 57 ∨ 97 ≤ c.toNat ∧ c.toNat ≤ 102 := by
    simp only [Bool.or_eq_true, Char.isDigit, Bool.and_eq_true, decide_eq_true_eq] at h
    rcases h with ⟨h₁, h₂⟩ | ⟨h₁, h₂⟩
    · exact Or.inl ⟨h₁, h₂⟩
    · exact Or.inr ⟨h₁, h₂⟩
  have hall : ∀ n < 128, 48 ≤ n ∧ n ≤ 57 ∨ 97 ≤ n ∧ n ≤ 102 →
      Char.ofNat n ∈ "0123456789abcdef".toList := by decide
  have hmem := hall c.toNat (by omega) hrange
  rwa [Char.ofNat_toNat] at hmem

theorem normal_of_isSha256 {s : Text} (h : isSha256 s = true) :
    toLowerCase services.lowerCase (trim s) = s := by
  have hhex : ∀ c ∈ s, c ∈ "0123456789abcdef".toList := by
    intro c hc
    rw [isSha256, Bool.and_eq_true, List.all_eq_true] at h
    exact hexDigit_cases (h.2 c hc)
  have hplain : ∀ c ∈ "0123456789abcdef".toList, isTrimmed c = false ∧ c.toLower = c ∧
      c.toNat < 128 := List.all_iff_forall_prop.mp (by decide)
  have hkept : ∀ t : Text, (∀ c ∈ t, c ∈ s) → t.dropWhile isTrimmed = t := by
    intro t ht
    cases t with
    | nil => rfl
    | cons c t =>
      refine List.dropWhile_cons_of_neg ?_
      rw [(hplain c (hhex c (ht c List.mem_cons_self))).1]
      exact Bool.false_ne_true
  have htrim : trim s = s := by
    unfold trim
    rw [hkept s fun _ h => h, hkept s.reverse fun _ h => List.mem_reverse.mp h, List.reverse_reverse]
  rw [htrim, toLowerCase, if_pos]
  · exact (List.map_congr_left fun c hc => (hplain c (hhex c hc)).2.1).trans (List.map_id s)
  · exact List.all_eq_true.mpr fun c hc => decide_eq_true (hplain c (hhex c hc)).2.2
theorem storedBytesMatchGrant_eq_true {expected : Text} {size : Nat} {bytes : List UInt8}
    (hexpected : isSha256 expected = true)
    (h : storedBytesMatchGrant services expected (services.sha256Hex bytes) size bytes.length =
      true) : services.sha256Hex bytes = expected ∧ bytes.length = size := by
  unfold storedBytesMatchGrant at h
  dsimp only at h
  rw [normal_of_isSha256 hexpected, normal_of_isSha256 (services.digest bytes)] at h
  simp only [Bool.and_eq_true, beq_iff_eq] at h
  exact ⟨h.2.symm, h.1.2.symm⟩

end Digests

/-! ## The promise and its condition -/

def SourceDocument.granted (d : SourceDocument) : Option (Text × Nat) :=
  d.grant.map fun grant => (grant.expectedSha256, grant.byteSize)

structure AreBytesOf (services : SourceServices) (bytes : List UInt8) (granted : Text × Nat) :
    Prop where
  sha256 : services.sha256Hex bytes = granted.1
  size : bytes.length = granted.2

/-- A ready version was made of granted bytes, and granted bytes were scanned for it. -/
def SourcesMatch (services : SourceServices) (d : SourceDocument) : Prop :=
  ∀ row ∈ d.version, row.status = .ready → ∃ granted ∈ d.granted,
    (∃ bytes ∈ d.scanned, AreBytesOf services bytes granted) ∧
      ∃ bytes ∈ d.canonicalised, AreBytesOf services bytes granted

def SourceRun.comparesDigest (run : SourceRun) : Bool :=
  run.job == .scan && !run.row.isOffice

def SourceRun.comparesSize (run : SourceRun) : Bool :=
  run.job == .scan || run.row.isOffice

/-- A download that nothing compares finds the granted digest, and the granted size where nothing
compares that either. -/
def Unswapped (services : SourceServices) (d : SourceDocument) : SourceStep → Prop
  | .download i =>
    match d.run? i, d.object, d.granted with
    | some run, some bytes, some granted =>
      (run.comparesDigest = true ∨ services.sha256Hex bytes = granted.1) ∧
        (run.comparesSize = true ∨ bytes.length = granted.2)
    | _, _, _ => True
  | _ => True

instance (services : SourceServices) (d : SourceDocument) (i : SourceStep) :
    Decidable (Unswapped services d i) := by
  unfold Unswapped
  split
  · split <;> infer_instance
  · infer_instance

/-! ## The invariant -/

def SourceRow.promise (row : SourceRow) : Text × Nat := (row.sha256, row.byteSize)

structure Faithful (services : SourceServices) (d : SourceDocument) : Prop where
  version : ∀ row ∈ d.version, settledStatuses.contains row.status = false →
    row.promise ∈ d.granted
  runs : ∀ (i : Nat) (run : SourceRun), d.run? i = some run →
    run.row.promise ∈ d.granted ∧ ∀ bytes ∈ run.bytes, run.rejection services bytes = none →
      AreBytesOf services bytes run.row.promise
  scanned : ∀ bytes ∈ d.scanned, ∃ granted ∈ d.granted, AreBytesOf services bytes granted
  canonicalised : ∀ bytes ∈ d.canonicalised, ∃ granted ∈ d.granted,
    AreBytesOf services bytes granted
  passed : ∀ row ∈ d.version, row.status = .canonicalizing ∨ row.status = .ready →
    d.scanned.isSome = true
  ready : ∀ row ∈ d.version, row.status = .ready → d.canonicalised.isSome = true

section Faithful

variable {services : SourceServices} {d d' : SourceDocument} {i : Nat}

theorem faithful_initial : Faithful services SourceDocument.initial where
  version := nofun
  runs i run h := by
    simp [SourceDocument.run?, SourceDocument.initial] at h
  scanned := nofun
  canonicalised := nofun
  passed := nofun
  ready := nofun

theorem sourcesMatch_of_faithful (h : Faithful services d) : SourcesMatch services d := by
  intro row hrow hready
  obtain ⟨scanned, hscanned⟩ := Option.isSome_iff_exists.mp (h.passed row hrow (Or.inr hready))
  obtain ⟨source, hsource⟩ := Option.isSome_iff_exists.mp (h.ready row hrow hready)
  obtain ⟨granted, hgranted, hmatch⟩ := h.scanned scanned hscanned
  obtain ⟨granted', hgranted', hmatch'⟩ := h.canonicalised source hsource
  -- there is one grant
  obtain rfl : granted = granted' := Option.some.inj (hgranted.symm.trans hgranted')
  exact ⟨granted, hgranted, ⟨scanned, hscanned, hmatch⟩, source, hsource, hmatch'⟩

theorem isSha256_of_granted {granted : Text × Nat} (h : granted ∈ d.granted) :
    isSha256 granted.1 = true := by
  obtain ⟨grant, -, rfl⟩ := Option.map_eq_some_iff.mp h
  exact grant.digest

theorem areBytesOf_of_rejection {run : SourceRun} {bytes : List UInt8}
    (hgranted : isSha256 run.row.promise.1 = true)
    (hdigest : run.comparesDigest = true ∨ services.sha256Hex bytes = run.row.promise.1)
    (hsize : run.comparesSize = true ∨ bytes.length = run.row.promise.2)
    (h : run.rejection services bytes = none) : AreBytesOf services bytes run.row.promise := by
  obtain ⟨job, row, downloaded⟩ := run
  unfold SourceRun.rejection at h
  unfold SourceRun.comparesDigest at hdigest
  unfold SourceRun.comparesSize at hsize
  dsimp only at h hdigest hsize hgranted
  cases job with
  | scan =>
    cases hoffice : row.isOffice with
    | false =>
      rw [hoffice] at h
      dsimp only at h
      split at h
      · cases h
      · split at h
        · rename_i hmatch
          obtain ⟨hsha256, hlength⟩ := storedBytesMatchGrant_eq_true hgranted hmatch
          exact ⟨hsha256, hlength⟩
        · cases h
    | true =>
      rw [hoffice] at h hdigest
      dsimp only at h
      split at h
      · cases h
      · rename_i hlength
        exact ⟨hdigest.resolve_left (by decide), not_not.mp hlength⟩
  | canonicalize =>
    have hsha256 := hdigest.resolve_left (by simp)
    cases hoffice : row.isOffice with
    | false =>
      rw [hoffice] at hsize
      exact ⟨hsha256, hsize.resolve_left (by decide)⟩
    | true =>
      rw [hoffice] at h
      dsimp only at h
      split at h
      · cases h
      · rename_i hlength
        exact ⟨hsha256, not_not.mp hlength⟩

/-! ## The steps -/

theorem run?_endRun {j : Nat} {run : SourceRun} (h : (d.endRun i).run? j = some run) :
    d.run? j = some run := by
  rcases slot_set h with ⟨-, hnone⟩ | ⟨-, hrun⟩
  · cases hnone
  · exact hrun

theorem Faithful.endRun (h : Faithful services d) : Faithful services (d.endRun i) where
  version := h.version
  runs j run hrun := h.runs j run (run?_endRun hrun)
  scanned := h.scanned
  canonicalised := h.canonicalised
  passed := h.passed
  ready := h.ready

theorem Faithful.setStatus {row : SourceRow} {status : DocumentStatus} (h : Faithful services d)
    (hrow : d.version = some row) (hold : settledStatuses.contains row.status = false)
    (hnew : status ≠ .canonicalizing ∧ status ≠ .ready) :
    Faithful services { d with version := some { row with status := status } } where
  version row' hrow' _ := by
    obtain rfl := Option.some.inj hrow'
    exact h.version row hrow hold
  runs := h.runs
  scanned := h.scanned
  canonicalised := h.canonicalised
  passed row' hrow' hstatus := by
    obtain rfl := Option.some.inj hrow'
    exact absurd hstatus (not_or.mpr hnew)
  ready row' hrow' hstatus := by
    obtain rfl := Option.some.inj hrow'
    exact absurd hstatus hnew.2

theorem Faithful.begin {job : SourceJob} {row : SourceRow} (h : Faithful services d)
    (hrow : row.promise ∈ d.granted) :
    Faithful services { d with runs := d.runs ++ [some ⟨job, row, none⟩] } where
  version := h.version
  runs j run hrun := by
    rcases slot_append hrun with hold | ⟨-, hnew⟩
    · exact h.runs j run hold
    · rw [Option.join_eq_some_iff, List.getElem?_singleton] at hnew
      split at hnew
      · cases hnew
        exact ⟨hrow, nofun⟩
      · cases hnew
  scanned := h.scanned
  canonicalised := h.canonicalised
  passed := h.passed
  ready := h.ready

theorem Faithful.passScan {bytes : List UInt8} {granted : Text × Nat} (h : Faithful services d)
    (hgranted : granted ∈ d.granted) (hbytes : AreBytesOf services bytes granted) :
    Faithful services (d.passScan bytes) := by
  unfold SourceDocument.passScan
  split
  · rename_i row hrow
    split
    · rename_i hscanning
      exact {
        version := fun row' hrow' _ => by
          obtain rfl := Option.some.inj hrow'
          refine h.version row hrow ?_
          rw [hscanning]
          rfl
        runs := h.runs
        scanned := fun bytes' hbytes' => by
          obtain rfl := Option.some.inj hbytes'
          exact ⟨granted, hgranted, hbytes⟩
        canonicalised := h.canonicalised
        passed := fun _ _ _ => rfl
        ready := fun row' hrow' hready => by
          obtain rfl := Option.some.inj hrow'
          cases hready }
    · exact h
  · exact h

theorem Faithful.becomeReady {bytes canonical : List UInt8} {granted : Text × Nat}
    (h : Faithful services d) (hgranted : granted ∈ d.granted)
    (hbytes : AreBytesOf services bytes granted) :
    Faithful services (d.becomeReady services bytes canonical) := by
  unfold SourceDocument.becomeReady
  split
  · rename_i row hrow
    split
    · rename_i hcanonicalizing
      exact {
        version := fun row' hrow' hunsettled => by
          obtain rfl := Option.some.inj hrow'
          cases hunsettled
        runs := h.runs
        scanned := h.scanned
        canonicalised := fun bytes' hbytes' => by
          obtain rfl := Option.some.inj hbytes'
          exact ⟨granted, hgranted, hbytes⟩
        passed := fun _ _ _ => h.passed row hrow (Or.inl hcanonicalizing)
        ready := fun _ _ _ => rfl }
    · exact h
  · exact h

theorem Faithful.setGrant {grant : Option UploadGrant} (h : Faithful services d)
    (hgranted : ∀ granted ∈ d.granted,
      granted ∈ grant.map fun grant => (grant.expectedSha256, grant.byteSize)) :
    Faithful services { d with grant := grant } where
  version row hrow hunsettled := hgranted _ (h.version row hrow hunsettled)
  runs i run hrun := ⟨hgranted _ (h.runs i run hrun).1, (h.runs i run hrun).2⟩
  scanned bytes hbytes := by
    obtain ⟨granted, hmem, hmatch⟩ := h.scanned bytes hbytes
    exact ⟨granted, hgranted _ hmem, hmatch⟩
  canonicalised bytes hbytes := by
    obtain ⟨granted, hmem, hmatch⟩ := h.canonicalised bytes hbytes
    exact ⟨granted, hgranted _ hmem, hmatch⟩
  passed := h.passed
  ready := h.ready

theorem Faithful.setVersion {row : SourceRow} (h : Faithful services d)
    (hrow : row.promise ∈ d.granted) (hstatus : row.status = .quarantined) :
    Faithful services { d with version := some row } where
  version row' hrow' _ := by
    obtain rfl := Option.some.inj hrow'
    exact hrow
  runs := h.runs
  scanned := h.scanned
  canonicalised := h.canonicalised
  passed row' hrow' hpassed := by
    obtain rfl := Option.some.inj hrow'
    rw [hstatus] at hpassed
    rcases hpassed with hpassed | hpassed <;> cases hpassed
  ready row' hrow' hready := by
    obtain rfl := Option.some.inj hrow'
    rw [hstatus] at hready
    cases hready

theorem Faithful.download {run : SourceRun} {bytes : List UInt8} (h : Faithful services d)
    (hrun : d.run? i = some run) (hobject : d.object = some bytes)
    (hunswapped : Unswapped services d (.download i)) :
    Faithful services { d with runs := d.runs.set i (some { run with bytes := some bytes }) } where
  version := h.version
  runs j run' hrun' := by
    rcases slot_set hrun' with ⟨-, hnew⟩ | ⟨-, hold⟩
    · obtain rfl := Option.some.inj hnew
      obtain ⟨hgranted, -⟩ := h.runs i run hrun
      unfold Unswapped at hunswapped
      dsimp only at hunswapped
      rw [hrun, hobject, hgranted] at hunswapped
      refine ⟨hgranted, fun bytes' hbytes' hpasses => ?_⟩
      obtain rfl := Option.some.inj hbytes'
      exact areBytesOf_of_rejection (isSha256_of_granted hgranted) hunswapped.1 hunswapped.2
        hpasses
    · exact h.runs j run' hold
  scanned := h.scanned
  canonicalised := h.canonicalised
  passed := h.passed
  ready := h.ready

theorem faithful_step {i : SourceStep} (h : Faithful services d)
    (hunswapped : Unswapped services d i) (hstep : documentStep services d i = some d') :
    Faithful services d' := by
  cases i with
  | create input maximumBytes =>
    unfold documentStep at hstep
    dsimp only at hstep
    split at hstep
    · rename_i metadata hnone _
      split at hstep
      · cases hstep
        refine h.setGrant fun granted hgranted => ?_
        rw [SourceDocument.granted, hnone] at hgranted
        cases hgranted
      · cases hstep
    · cases hstep
  | put bytes =>
    unfold documentStep at hstep
    dsimp only at hstep
    split at hstep
    · cases hstep
      exact ⟨h.version, h.runs, h.scanned, h.canonicalised, h.passed, h.ready⟩
    · cases hstep
  | complete contentType sha256 =>
    unfold documentStep at hstep
    dsimp only at hstep
    split at hstep
    · rename_i grant bytes hgrant _
      split at hstep
      · cases hstep
        refine h.setGrant fun granted hgranted => ?_
        rw [SourceDocument.granted, hgrant] at hgranted
        exact hgranted
      · cases hstep
    · cases hstep
  | addDocument =>
    unfold documentStep at hstep
    dsimp only at hstep
    split at hstep
    · rename_i grant hgrant
      split at hstep
      · cases hstep
        have hgranted : d.granted = some (grant.expectedSha256, grant.byteSize) := by
          rw [SourceDocument.granted, hgrant]
          rfl
        refine Faithful.setVersion (d := { d with
          grant := some { grant with status := .consumed } }) (h.setGrant ?_) rfl rfl
        intro granted hmem
        rw [hgranted] at hmem
        exact hmem
      · cases hstep
    · cases hstep
  | start job =>
    cases job with
    | scan =>
      unfold documentStep at hstep
      dsimp only at hstep
      split at hstep
      · rename_i row hrow
        split at hstep
        · rename_i hscannable
          cases hstep
          have hunsettled : settledStatuses.contains row.status = false := by
            revert hscannable
            cases row.status <;> decide
          exact (h.begin (h.version row hrow hunsettled)).setStatus hrow hunsettled (by decide)
        · cases hstep
      · cases hstep
    | canonicalize =>
      unfold documentStep at hstep
      dsimp only at hstep
      split at hstep
      · rename_i row hrow
        split at hstep
        · rename_i hstatus
          cases hstep
          refine h.begin (h.version row hrow ?_)
          rw [hstatus]
          rfl
        · cases hstep
      · cases hstep
  | download i =>
    unfold documentStep at hstep
    dsimp only at hstep
    split at hstep
    · rename_i job row bytes hrun hobject
      cases hstep
      exact h.download hrun hobject hunswapped
    · cases hstep
  | rejectDocument i =>
    unfold documentStep at hstep
    dsimp only at hstep
    split at hstep
    · rename_i run row _ hrow
      split at hstep
      · cases hstep
        exact h.endRun
      · rename_i hunsettled
        cases hstep
        exact h.endRun.setStatus hrow (Bool.eq_false_iff.mpr hunsettled) (by decide)
    · cases hstep
  | finish i canonical =>
    unfold documentStep at hstep
    dsimp only at hstep
    split at hstep
    · rename_i job row bytes hrun
      split at hstep
      · rename_i hpasses
        obtain ⟨hgranted, hbytes⟩ := h.runs i _ hrun
        have hmatch := hbytes bytes rfl hpasses
        cases job with
        | scan =>
          cases hstep
          exact h.endRun.passScan hgranted hmatch
        | canonicalize =>
          dsimp only at hstep
          split at hstep
          · cases hstep
          · cases hstep
            exact h.endRun.becomeReady hgranted hmatch
      · cases hstep
    · cases hstep
  | abandon i =>
    unfold documentStep at hstep
    dsimp only at hstep
    split at hstep
    · cases hstep
      exact h.endRun
    · cases hstep

end Faithful

def UnswappedAt (services : SourceServices) (s : SourceDocuments) (i : Id × SourceStep) : Prop :=
  Unswapped services (s i.1) i.2

instance (services : SourceServices) (s : SourceDocuments) (i : Id × SourceStep) :
    Decidable (UnswappedAt services s i) :=
  inferInstanceAs (Decidable (Unswapped services (s i.1) i.2))

/-- If nothing is swapped unseen, every document that is ready was made of the granted bytes. -/
theorem sources_match (services : SourceServices) (steps : List (Id × SourceStep))
    (s : SourceDocuments)
    (hunswapped : Meets (sourceStep services) (UnswappedAt services) SourceDocuments.initial
      steps)
    (hrun : run (sourceStep services) SourceDocuments.initial steps = some s) (id : Id) :
    SourcesMatch services (s id) := by
  have hstep : ∀ (s : SourceDocuments) (i : Id × SourceStep) (s' : SourceDocuments),
      (∀ id, Faithful services (s id)) → UnswappedAt services s i →
        sourceStep services s i = some s' → ∀ id, Faithful services (s' id) := by
    intro s i s' hs hc hstep id
    obtain ⟨d', hd', rfl⟩ := Option.map_eq_some_iff.mp hstep
    by_cases hid : id = i.1
    · subst hid
      rw [Function.update_self]
      exact faithful_step (hs i.1) hc hd'
    · rw [Function.update_of_ne hid]
      exact hs id
  have hfaithful := run_invariant_of_meets hstep (fun _ => faithful_initial) hunswapped hrun
  exact sourcesMatch_of_faithful (hfaithful id)

/-! ## A document that is swapped -/

namespace SwappedSource

def zipBytes (b : UInt8) : List UInt8 := [0x50, 0x4b, 0x03, 0x04, b]

def pdfBytes : List UInt8 := [0x25, 0x50, 0x44, 0x46, 0x2d, 0x31]

def services : SourceServices where
  sha256Hex bytes :=
    if bytes = zipBytes 1 then List.replicate 64 'a'
    else if bytes = zipBytes 2 then List.replicate 64 'b' else List.replicate 64 'c'
  digest bytes := by
    split
    · decide
    · split <;> decide
  lowerCase := id

def docxType : Text := "application/vnd.openxmlformats-officedocument.wordprocessingml.document".toList

def upload : List (Id × SourceStep) :=
  [.create ⟨"brev.docx".toList, docxType, 5, List.replicate 64 'a'⟩ 1000, .put (zipBytes 1),
    .complete (some docxType) (some (List.replicate 64 'a')), .addDocument].map (⟨1, ·⟩)

def process : List (Id × SourceStep) :=
  [.start .scan, .download 0, .finish 0 [], .start .canonicalize, .download 1,
    .finish 1 pdfBytes].map (⟨1, ·⟩)

/-- Another letter of the same size is written to the same address in between. -/
def swap : List (Id × SourceStep) := [(1, .put (zipBytes 2))]

end SwappedSource

open SwappedSource in
/-- The other letter becomes the document: nothing has compared its digest with the granted one. -/
theorem swapped_source_is_ready :
    ∃ s, run (sourceStep services) SourceDocuments.initial (upload ++ swap ++ process) = some s ∧
      ¬ SourcesMatch services (s 1) := by
  refine ⟨_, rfl, fun h => ?_⟩
  obtain ⟨granted, hgranted, ⟨bytes, hbytes, hmatch⟩, -⟩ := h _ rfl (by decide +kernel)
  obtain rfl := Option.some.inj hgranted
  obtain rfl := Option.some.inj hbytes
  exact absurd hmatch.sha256 (by decide +kernel)

open SwappedSource in
theorem sources_match_of_letter :
    ∃ s, run (sourceStep services) SourceDocuments.initial (upload ++ process) = some s ∧
      (s 1).version.map (·.status) = some .ready ∧ SourcesMatch services (s 1) := by
  refine ⟨_, rfl, by decide +kernel, ?_⟩
  exact sources_match services (upload ++ process) _ (by decide +kernel) rfl 1

end Kommunsign
