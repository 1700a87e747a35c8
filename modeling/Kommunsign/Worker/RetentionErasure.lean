import Kommunsign.Worker.RetentionOutcomes

/-!
# What erasing the cases of a gallring leaves

* `deleteObjects_eq_ok`, `eraseRows_eq_ok`, `eraseCase_eq_ok` — the steps that erase a case
* `ErasesOnly` — all that erasing cases may change
-/

namespace Kommunsign

open Infra

/-! ## Stages -/

section Stages

variable {env : RetentionEnvironment} {stage : RetentionStage} {α : Type}
  {R : RetentionData → RetentionData → Prop}

theorem within_stage (hrefl : ∀ s, R s s) {tx : RetentionTx α}
    (h : ∀ s, Transaction.Within R tx s) : Process.Within R (env.transaction stage tx) := by
  unfold RetentionEnvironment.transaction
  split
  · exact .commit hrefl h
  · exact .raise hrefl _
  · exact .raise hrefl _

theorem transaction_of_passes {tx : RetentionTx α} (h : env.outcome stage = .passes) :
    env.transaction stage tx = Process.commit tx := by
  rw [RetentionEnvironment.transaction, h]

theorem transaction_of_not_passes {tx : RetentionTx α} {data : RetentionData}
    (h : env.outcome stage ≠ .passes) :
    env.transaction stage tx data = (.error (.unavailable stage), data) ∨
      env.transaction stage tx data = (.error (.crashed stage), data) := by
  unfold RetentionEnvironment.transaction
  cases houtcome : env.outcome stage with
  | passes => exact absurd houtcome h
  | fails => exact .inl rfl
  | crashes => exact .inr rfl

theorem transaction_eq_ok {tx : RetentionTx α} {data data' : RetentionData} {a : α}
    (h : env.transaction stage tx data = (.ok a, data')) :
    env.outcome stage = .passes ∧ tx data = .ok (a, data') := by
  by_cases hpasses : env.outcome stage = .passes
  · rw [transaction_of_passes hpasses] at h
    exact ⟨hpasses, Process.commit_eq_ok.mp h⟩
  · rcases transaction_of_not_passes hpasses with hfault | hfault
    · cases h.symm.trans hfault
    · cases h.symm.trans hfault

variable {effect : RetentionData → RetentionData} {data : RetentionData}

theorem call_of_passes (h : env.outcome stage = .passes) :
    env.call stage effect data = (.ok (), effect data) := by
  rw [RetentionEnvironment.call, h]
  rfl

theorem call_of_fails (h : env.outcome stage = .fails) :
    env.call stage effect data = (.error (.unavailable stage), data) := by
  rw [RetentionEnvironment.call, h]
  rfl

theorem call_of_crashes (h : env.outcome stage = .crashes) :
    env.call stage effect data = (.error (.crashed stage), data) := by
  rw [RetentionEnvironment.call, h]
  rfl

end Stages

theorem retentionGuard_eq_ok {checks : Checks} :
    retentionGuard checks = .ok () ↔ refuse checks = .ok () := by
  unfold retentionGuard
  cases refuse checks with
  | error failure => simp
  | ok u => simp

/-! ## Erasing objects -/

section Objects

variable {env : RetentionEnvironment} {data : RetentionData} {key : StoredKey}
  {keys : List StoredKey} {counts counts' : StorageCounts}

/-- The objects that the loop gets to before the worker crashes. -/
def attempted (env : RetentionEnvironment) (keys : List StoredKey) : List StoredKey :=
  keys.takeWhile fun key => env.outcome (.deleteObject key) ≠ .crashes

/-- The storage deletes the object when it is asked to. -/
def RetentionEnvironment.deletes (env : RetentionEnvironment) (key : StoredKey) : Bool :=
  env.outcome (.deleteObject key) = .passes

/-- The call throws. -/
def RetentionEnvironment.refuses (env : RetentionEnvironment) (key : StoredKey) : Bool :=
  env.outcome (.deleteObject key) = .fails

/-- The data without the objects that a loop over the keys deletes. -/
def RetentionData.withoutObjects (data : RetentionData) (env : RetentionEnvironment)
    (keys : List StoredKey) : RetentionData :=
  { data with objects := data.objects.filter fun key =>
      ¬(key ∈ attempted env keys ∧ env.deletes key = true) }

theorem deleteObjectOf_of_passes (h : env.outcome (.deleteObject key) = .passes) :
    deleteObjectOf env key counts data = (.ok { counts with deleted := counts.deleted + 1 },
      { data with objects := data.objects.filter (· ≠ key) }) := by
  have hcall : deleteAndCount env key counts data =
      (.ok { counts with deleted := counts.deleted + 1 },
        { data with objects := data.objects.filter (· ≠ key) }) :=
    Process.bind_of_ok (call_of_passes h)
  exact Process.recover_of_ok hcall

theorem deleteObjectOf_of_fails (h : env.outcome (.deleteObject key) = .fails) :
    deleteObjectOf env key counts data =
      (.ok { counts with failed := counts.failed + 1 }, data) := by
  have hcall : deleteAndCount env key counts data =
      (.error (.unavailable (.deleteObject key)), data) := Process.bind_of_error (call_of_fails h)
  exact Process.recover_of_handled hcall rfl

theorem deleteObjectOf_of_crashes (h : env.outcome (.deleteObject key) = .crashes) :
    deleteObjectOf env key counts data = (.error (.crashed (.deleteObject key)), data) := by
  have hcall : deleteAndCount env key counts data =
      (.error (.crashed (.deleteObject key)), data) := Process.bind_of_error (call_of_crashes h)
  exact Process.recover_of_unhandled hcall rfl

theorem deleteObjects_state : ∀ {keys : List StoredKey} {counts : StorageCounts}
    {data : RetentionData}, (deleteObjects env counts keys data).2 = data.withoutObjects env keys
  | [], counts, data => by
    simp [deleteObjects, RetentionData.withoutObjects, attempted, pure]
  | key :: keys, counts, data => by
    rw [deleteObjects]
    cases h : env.outcome (.deleteObject key) with
    | passes =>
      rw [Process.bind_of_ok (deleteObjectOf_of_passes h), deleteObjects_state]
      simp only [RetentionData.withoutObjects, attempted, List.filter_filter, List.takeWhile_cons, h]
      congr 1
      refine List.filter_congr fun other _ => ?_
      by_cases hother : other = key
      · simp [hother, h, RetentionEnvironment.deletes]
      · simp [hother]
    | fails =>
      rw [Process.bind_of_ok (deleteObjectOf_of_fails h), deleteObjects_state]
      simp only [RetentionData.withoutObjects, attempted, List.takeWhile_cons, h]
      congr 1
      refine List.filter_congr fun other _ => ?_
      by_cases hother : other = key
      · simp [hother, h, RetentionEnvironment.deletes]
      · simp [hother]
    | crashes =>
      rw [Process.bind_of_error (deleteObjectOf_of_crashes h)]
      simp [RetentionData.withoutObjects, attempted, h]

theorem deleteObjects_counts : ∀ {keys : List StoredKey} {counts : StorageCounts}
    {data : RetentionData}, (deleteObjects env counts keys data).1 = .ok counts' ↔
      (∀ key ∈ keys, env.outcome (.deleteObject key) ≠ .crashes) ∧
      counts' = ⟨counts.deleted + keys.countP env.deletes,
        counts.failed + keys.countP env.refuses⟩
  | [], counts, data => by
    simp [deleteObjects, pure, eq_comm]
  | key :: keys, counts, data => by
    rw [deleteObjects]
    cases h : env.outcome (.deleteObject key) with
    | passes =>
      rw [Process.bind_of_ok (deleteObjectOf_of_passes h), deleteObjects_counts]
      simp [h, RetentionEnvironment.deletes, RetentionEnvironment.refuses, Nat.add_assoc,
        Nat.add_comm 1]
    | fails =>
      rw [Process.bind_of_ok (deleteObjectOf_of_fails h), deleteObjects_counts]
      simp [h, RetentionEnvironment.deletes, RetentionEnvironment.refuses, Nat.add_assoc,
        Nat.add_comm 1]
    | crashes =>
      rw [Process.bind_of_error (deleteObjectOf_of_crashes h)]
      simp [h]

theorem deleteObjects_eq_ok {data' : RetentionData} :
    deleteObjects env ⟨0, 0⟩ keys data = (.ok counts', data') ↔
      (∀ key ∈ keys, env.outcome (.deleteObject key) ≠ .crashes) ∧
      counts' = ⟨keys.countP env.deletes, keys.countP env.refuses⟩ ∧
      data' = data.withoutObjects env keys := by
  rw [Prod.ext_iff, deleteObjects_counts, deleteObjects_state, and_assoc, Nat.zero_add,
    Nat.zero_add]
  exact and_congr_right fun _ => and_congr_right fun _ => eq_comm

end Objects

/-! ## Erasing rows -/

section Rows

variable {data data' : RetentionData} {caseId : UUID} {rows : RowCounts}

/-- No guard of the tables vetoes the erasure of the rows of the case. -/
structure RowsErasable (data : RetentionData) (caseId : UUID) : Prop where
  messages : ∀ message ∈ data.messages, message.signatureCaseId = some caseId →
    message.messagePayloadCiphertext = none
  unlocked : ∀ version ∈ data.versionsOf caseId, version.status.isFrozen = false
  unreferenced : ∀ version ∈ data.versionsOf caseId,
    (∀ id ∈ data.versionReferences, id ≠ version.id) ∧
    ∀ report ∈ data.processorReports, report.documentVersionId ≠ version.id

/-- The data without the rows of the case. -/
def RetentionData.withoutRows (data : RetentionData) (caseId : UUID) : RetentionData :=
  { data with
    versions := data.versions.filter fun version => version.documentId ∉ data.documentIds caseId
    documents := data.documents.filter fun document => document.signatureCaseId ≠ caseId }

theorem eraseMessages_eq_ok {n : Nat} : retainedMessages.update
    (fun message => message.signatureCaseId == some caseId &&
      message.messagePayloadCiphertext.isSome)
    (fun message => { message with messagePayloadCiphertext := none, recipientCiphertext := none })
    data = .ok (n, data') ↔ (∀ message ∈ data.messages, message.signatureCaseId = some caseId →
      message.messagePayloadCiphertext = none) ∧ data' = data ∧ n = 0 := by
  have hguard : ∀ message : RetainedMessage, retainedMessages.onUpdate data message
      { message with messagePayloadCiphertext := none, recipientCiphertext := none } ≠ .ok () := by
    intro message h
    simp [retainedMessages, retentionGuard_eq_ok] at h
  have hnone : (∀ message ∈ data.messages, (message.signatureCaseId == some caseId &&
      message.messagePayloadCiphertext.isSome) = false) ↔ ∀ message ∈ data.messages,
        message.signatureCaseId = some caseId → message.messagePayloadCiphertext = none := by
    refine forall₂_congr fun message _ => ?_
    rw [Bool.and_eq_false_imp, beq_iff_eq, Option.isSome_eq_false_iff, Option.isNone_iff_eq_none]
  rw [← hnone]
  constructor
  · intro h
    obtain ⟨hupdate, -⟩ := Table.update_eq_ok.mp h
    have hquiet := fun message hmessage => Bool.eq_false_iff.mpr fun hmatches =>
      hguard message (hupdate message hmessage hmatches)
    rw [Table.update_of_none rfl hquiet] at h
    cases h
    exact ⟨hquiet, rfl, rfl⟩
  · rintro ⟨hquiet, rfl, rfl⟩
    exact Table.update_of_none rfl hquiet

theorem eraseRows_eq_ok : eraseRows caseId data = .ok (rows, data') ↔
    RowsErasable data caseId ∧ data' = data.withoutRows caseId ∧
      rows = ⟨0, (data.versionsOf caseId).length, (data.documentIds caseId).length⟩ := by
  have hversions : (∀ version ∈ data.versions,
      decide (version.documentId ∈ data.documentIds caseId) = true →
        retainedVersions.onDelete data version = .ok ()) ↔
      ∀ version ∈ data.versionsOf caseId, version.status.isFrozen = false ∧
        (∀ id ∈ data.versionReferences, id ≠ version.id) ∧
          ∀ report ∈ data.processorReports, report.documentVersionId ≠ version.id := by
    simp only [RetentionData.versionsOf, List.mem_filter, and_imp]
    refine forall₃_congr fun version _ _ => ?_
    simp [retainedVersions, retentionGuard_eq_ok]
  -- Once the versions are gone, nothing refers to the documents.
  have hdocuments : ∀ document ∈ data.documents, (document.signatureCaseId == caseId) = true →
      retainedDocuments.onDelete (retainedVersions.put ((retainedVersions.rows data).filter
        fun version => !decide (version.documentId ∈ data.documentIds caseId)) data) document =
          .ok () := by
    intro document hdocument hcase
    have hmem : document.id ∈ data.documentIds caseId :=
      List.mem_map_of_mem (List.mem_filter.mpr ⟨hdocument, hcase⟩)
    simp only [retainedDocuments, retentionGuard_eq_ok, refuse_violates, retainedVersions,
      List.any_eq_false, List.mem_filter, beq_iff_eq]
    rintro version ⟨-, hnot⟩ hid
    simp [hid, hmem] at hnot
  have hleft : retainedDocuments.put ((retainedDocuments.rows data).filter
      fun document => !(document.signatureCaseId == caseId)) (retainedVersions.put
        ((retainedVersions.rows data).filter
          fun version => !decide (version.documentId ∈ data.documentIds caseId)) data) =
      data.withoutRows caseId := by
    simp only [RetentionData.withoutRows, retainedDocuments, retainedVersions, decide_not]
    rfl
  simp only [eraseRows, Transaction.bind_eq_ok, eraseMessages_eq_ok, Transaction.read_eq_ok,
    Table.delete_eq_ok, Transaction.pure_eq_ok]
  constructor
  · rintro ⟨_, _, ⟨hmessages, rfl, rfl⟩, _, _, ⟨rfl, rfl⟩, _, _, ⟨hdelete, rfl⟩, _, _, ⟨-, rfl⟩,
      rfl, rfl⟩
    have hgone := hversions.mp hdelete
    exact ⟨⟨hmessages, fun version hversion => (hgone version hversion).1,
      fun version hversion => (hgone version hversion).2⟩, hleft, rfl⟩
  · rintro ⟨herasable, rfl, rfl⟩
    exact ⟨0, data, ⟨herasable.messages, rfl, rfl⟩, data, data, ⟨rfl, rfl⟩, (), _,
      ⟨hversions.mpr fun version hversion =>
        ⟨herasable.unlocked version hversion, herasable.unreferenced version hversion⟩, rfl⟩,
      (), _, ⟨hdocuments, rfl⟩, rfl, hleft.symm⟩

end Rows

/-! ## Erasing cases -/

/-- All that erasing cases may change: what is gone is of a case that is permitted to go. -/
structure ErasesOnly (permitted : UUID → Prop) (data data' : RetentionData) : Prop where
  frame : data' = { data with
    documents := data'.documents, versions := data'.versions, objects := data'.objects }
  documents : data'.documents.Sublist data.documents
  versions : data'.versions.Sublist data.versions
  permittedDocuments : ∀ document ∈ data.documents, document ∉ data'.documents →
    permitted document.signatureCaseId
  permittedVersions : ∀ version ∈ data.versions, version ∉ data'.versions →
    ∃ caseId, permitted caseId ∧ version ∈ data.versionsOf caseId
  permittedObjects : ∀ key ∈ data.objects, key ∉ data'.objects →
    ∃ caseId, permitted caseId ∧ key ∈ data.caseObjectKeys caseId

namespace ErasesOnly

variable {permitted : UUID → Prop} {data data' data'' : RetentionData} {caseId : UUID}

theorem refl (data : RetentionData) : ErasesOnly permitted data data :=
  ⟨rfl, List.Sublist.refl _, List.Sublist.refl _, fun _ h h' => absurd h h',
    fun _ h h' => absurd h h', fun _ h h' => absurd h h'⟩

theorem mono {permitted' : UUID → Prop} (h : ErasesOnly permitted data data')
    (himp : ∀ caseId, permitted caseId → permitted' caseId) : ErasesOnly permitted' data data' :=
  ⟨h.frame, h.documents, h.versions,
    fun document hmem hgone => himp _ (h.permittedDocuments document hmem hgone),
    fun version hmem hgone =>
      (h.permittedVersions version hmem hgone).imp fun _ h => ⟨himp _ h.1, h.2⟩,
    fun key hmem hgone => (h.permittedObjects key hmem hgone).imp fun _ h => ⟨himp _ h.1, h.2⟩⟩

theorem jobs (h : ErasesOnly permitted data data') : data'.jobs = data.jobs := by
  rw [h.frame]

theorem documentIds_subset (h : ErasesOnly permitted data data') :
    data'.documentIds caseId ⊆ data.documentIds caseId := by
  intro documentId hid
  obtain ⟨document, hdocument, rfl⟩ := List.mem_map.mp hid
  obtain ⟨hmem, hcase⟩ := List.mem_filter.mp hdocument
  exact List.mem_map_of_mem (List.mem_filter.mpr ⟨h.documents.subset hmem, hcase⟩)

theorem versionsOf_subset (h : ErasesOnly permitted data data') :
    data'.versionsOf caseId ⊆ data.versionsOf caseId := by
  intro version hversion
  obtain ⟨hmem, hdocument⟩ := List.mem_filter.mp hversion
  exact List.mem_filter.mpr ⟨h.versions.subset hmem,
    decide_eq_true (h.documentIds_subset (of_decide_eq_true hdocument))⟩

theorem caseObjectKeys_subset (h : ErasesOnly permitted data data') :
    data'.caseObjectKeys caseId ⊆ data.caseObjectKeys caseId := by
  have hpackages : data'.packagesOf caseId = data.packagesOf caseId := by
    rw [RetentionData.packagesOf, h.frame]
    rfl
  have hfiles : data'.packageFiles = data.packageFiles := by rw [h.frame]
  have hreports : data'.processorReports = data.processorReports := by rw [h.frame]
  have hversions : data'.versionsOf caseId ⊆ data.versionsOf caseId := h.versionsOf_subset
  unfold RetentionData.caseObjectKeys
  rw [hpackages, hfiles, hreports]
  intro key hkey
  simp only [List.append_assoc, List.mem_append] at hkey ⊢
  rcases hkey with hsource | hcanonical | hpackage | hfile | hreport
  · exact .inl (List.map_subset _ hversions hsource)
  · exact .inr (.inl (List.filterMap_subset _ hversions hcanonical))
  · exact .inr (.inr (.inl hpackage))
  · exact .inr (.inr (.inr (.inl hfile)))
  · obtain ⟨report, hmem, rfl⟩ := List.mem_map.mp hreport
    obtain ⟨hmem, hversion⟩ := List.mem_filter.mp hmem
    refine .inr (.inr (.inr (.inr (List.mem_map_of_mem (List.mem_filter.mpr ⟨hmem, ?_⟩)))))
    exact decide_eq_true (List.map_subset _ hversions (of_decide_eq_true hversion))

theorem trans (h : ErasesOnly permitted data data') (h' : ErasesOnly permitted data' data'') :
    ErasesOnly permitted data data'' := by
  refine ⟨?_, h'.documents.trans h.documents, h'.versions.trans h.versions,
    fun document hmem hgone => ?_, fun version hmem hgone => ?_, fun key hmem hgone => ?_⟩
  · have hframe := h'.frame
    rw [h.frame] at hframe
    exact hframe
  · by_cases hkept : document ∈ data'.documents
    · exact h'.permittedDocuments document hkept hgone
    · exact h.permittedDocuments document hmem hkept
  · by_cases hkept : version ∈ data'.versions
    · obtain ⟨caseId, hpermitted, hversion⟩ := h'.permittedVersions version hkept hgone
      exact ⟨caseId, hpermitted, h.versionsOf_subset hversion⟩
    · exact h.permittedVersions version hmem hkept
  · by_cases hkept : key ∈ data'.objects
    · obtain ⟨caseId, hpermitted, hkey⟩ := h'.permittedObjects key hkept hgone
      exact ⟨caseId, hpermitted, h.caseObjectKeys_subset hkey⟩
    · exact h.permittedObjects key hmem hkept

theorem withoutObjects (env : RetentionEnvironment) (hpermitted : permitted caseId) :
    ErasesOnly permitted data (data.withoutObjects env (data.caseObjectKeys caseId)) := by
  refine ⟨rfl, List.Sublist.refl _, List.Sublist.refl _, fun _ h h' => absurd h h',
    fun _ h h' => absurd h h', fun key hmem hgone => ⟨caseId, hpermitted, ?_⟩⟩
  have hattempted : key ∈ attempted env (data.caseObjectKeys caseId) := by
    by_contra hnot
    exact hgone (List.mem_filter.mpr ⟨hmem, decide_eq_true fun h => hnot h.1⟩)
  exact List.takeWhile_subset _ hattempted

theorem withoutRows (hpermitted : permitted caseId) :
    ErasesOnly permitted data (data.withoutRows caseId) := by
  refine ⟨rfl, List.filter_sublist, List.filter_sublist, fun document hmem hgone => ?_,
    fun version hmem hgone => ⟨caseId, hpermitted, ?_⟩, fun _ h h' => absurd h h'⟩
  · by_contra hnot
    refine hgone (List.mem_filter.mpr ⟨hmem, decide_eq_true ?_⟩)
    rintro rfl
    exact hnot hpermitted
  · refine List.mem_filter.mpr ⟨hmem, decide_eq_true ?_⟩
    by_contra hnot
    exact hgone (List.mem_filter.mpr ⟨hmem, decide_eq_true hnot⟩)

end ErasesOnly

section Cases

variable {env : RetentionEnvironment} {data data' : RetentionData} {caseId : UUID}
  {outcomes : List GallringTargetOutcome} {permitted : UUID → Prop}

theorem keys_of_passes (h : env.outcome (.keys caseId) = .passes) :
    env.transaction (.keys caseId) (do
      let data ← Transaction.read
      return data.caseObjectKeys caseId) data = (.ok (data.caseObjectKeys caseId), data) := by
  rw [transaction_of_passes h]
  rfl

theorem eraseCase_erasesOnly (env : RetentionEnvironment) (data : RetentionData)
    (hpermitted : permitted caseId) :
    ErasesOnly permitted data (eraseCase env caseId data).2 := by
  by_cases hkeys : env.outcome (.keys caseId) = .passes
  · rw [eraseCase, Process.bind_of_ok (keys_of_passes hkeys)]
    have hobjects : ErasesOnly permitted data
        (deleteObjects env ⟨0, 0⟩ (data.caseObjectKeys caseId) data).2 := by
      rw [deleteObjects_state]
      exact .withoutObjects env hpermitted
    refine Process.bind_post hobjects fun storage _ => ?_
    refine hobjects.trans (Process.Within.bind (fun h h' => h.trans h') (within_stage .refl ?_)
      (fun rows => .pure .refl _) _)
    intro s rows s' h
    obtain ⟨-, rfl, -⟩ := eraseRows_eq_ok.mp h
    exact .withoutRows hpermitted
  · rcases transaction_of_not_passes hkeys with hfault | hfault
    · rw [eraseCase, Process.bind_of_error hfault]
      exact .refl _
    · rw [eraseCase, Process.bind_of_error hfault]
      exact .refl _

theorem eraseCases_erasesOnly : ∀ {caseIds : List UUID} {outcomes : List GallringTargetOutcome}
    {data : RetentionData}, (∀ caseId ∈ caseIds, permitted caseId) →
      ErasesOnly permitted data (eraseCases env outcomes caseIds data).2
  | [], _, data, _ => .refl data
  | caseId :: caseIds, outcomes, data, hpermitted => by
    obtain ⟨hcase, hrest⟩ := List.forall_mem_cons.mp hpermitted
    have hfirst := eraseCase_erasesOnly env data hcase
    rw [eraseCases]
    exact Process.bind_post hfirst fun more _ => hfirst.trans (eraseCases_erasesOnly hrest)

/-- Nothing stops the erasure of the case. -/
structure CaseErasable (env : RetentionEnvironment) (data : RetentionData) (caseId : UUID) :
    Prop where
  keys : env.outcome (.keys caseId) = .passes
  uncrashed : ∀ key ∈ data.caseObjectKeys caseId, env.outcome (.deleteObject key) ≠ .crashes
  rows : env.outcome (.rows caseId) = .passes
  erasable : RowsErasable data caseId

/-- What is counted when a case is erased. -/
def RetentionData.counts (data : RetentionData) (env : RetentionEnvironment) (caseId : UUID) :
    StorageCounts × RowCounts :=
  (⟨(data.caseObjectKeys caseId).countP env.deletes, (data.caseObjectKeys caseId).countP env.refuses⟩,
    ⟨0, (data.versionsOf caseId).length, (data.documentIds caseId).length⟩)

theorem eraseCase_eq_ok : eraseCase env caseId data = (.ok outcomes, data') ↔
    CaseErasable env data caseId ∧
      data' = (data.withoutObjects env (data.caseObjectKeys caseId)).withoutRows caseId ∧
      outcomes = caseOutcomes (data.counts env caseId).1 (data.counts env caseId).2 := by
  rw [eraseCase, Process.bind_eq_ok]
  constructor
  · rintro ⟨keys, data₁, hkeys, h⟩
    obtain ⟨hpasses, htx⟩ := transaction_eq_ok hkeys
    cases htx
    obtain ⟨storage, data₂, hstorage, h⟩ := Process.bind_eq_ok.mp h
    obtain ⟨huncrashed, rfl, rfl⟩ := deleteObjects_eq_ok.mp hstorage
    obtain ⟨rows, data₃, hrows, h⟩ := Process.bind_eq_ok.mp h
    obtain ⟨hrowsPass, htx⟩ := transaction_eq_ok hrows
    obtain ⟨herasable, rfl, rfl⟩ := eraseRows_eq_ok.mp htx
    cases h
    exact ⟨⟨hpasses, huncrashed, hrowsPass, ⟨herasable.1, herasable.2, herasable.3⟩⟩, rfl, rfl⟩
  · rintro ⟨⟨hkeys, huncrashed, hrows, herasable⟩, rfl, rfl⟩
    refine ⟨_, _, keys_of_passes hkeys, Process.bind_eq_ok.mpr
      ⟨_, _, deleteObjects_eq_ok.mpr ⟨huncrashed, rfl, rfl⟩, Process.bind_eq_ok.mpr
        ⟨⟨0, (data.versionsOf caseId).length, (data.documentIds caseId).length⟩, _, ?_, rfl⟩⟩⟩
    rw [transaction_of_passes hrows, Process.commit_eq_ok]
    exact eraseRows_eq_ok.mpr ⟨⟨herasable.1, herasable.2, herasable.3⟩, rfl, rfl⟩

theorem ErasesOnly.erasable (h : ErasesOnly permitted data data')
    (herasable : CaseErasable env data caseId) : CaseErasable env data' caseId := by
  have hmessages : data'.messages = data.messages := by rw [h.frame]
  have hreferences : data'.versionReferences = data.versionReferences := by rw [h.frame]
  have hreports : data'.processorReports = data.processorReports := by rw [h.frame]
  refine ⟨herasable.keys, fun key hkey => herasable.uncrashed key (h.caseObjectKeys_subset hkey),
    herasable.rows, ?_, fun version hversion => ?_, fun version hversion => ?_⟩
  · rw [hmessages]
    exact herasable.erasable.messages
  · exact herasable.erasable.unlocked version (h.versionsOf_subset hversion)
  · rw [hreferences, hreports]
    exact herasable.erasable.unreferenced version (h.versionsOf_subset hversion)

theorem eraseCases_of_erasable (outcomes : List GallringTargetOutcome) :
    ∀ {caseIds : List UUID} {data : RetentionData},
      (∀ caseId ∈ caseIds, CaseErasable env data caseId) →
        ∃ all data', eraseCases env outcomes caseIds data = (.ok all, data')
  | [], data, _ => ⟨outcomes, data, rfl⟩
  | caseId :: caseIds, data, herasable => by
    obtain ⟨hcase, hrest⟩ := List.forall_mem_cons.mp herasable
    have hfirst := eraseCase_eq_ok.mpr ⟨hcase, rfl, rfl⟩
    have hleaves : ErasesOnly (fun _ => True) data (eraseCase env caseId data).2 :=
      eraseCase_erasesOnly env data trivial
    rw [hfirst] at hleaves
    obtain ⟨all, data', hall⟩ := eraseCases_of_erasable
      (outcomes ++ caseOutcomes (data.counts env caseId).1 (data.counts env caseId).2)
      fun caseId hmem => hleaves.erasable (hrest caseId hmem)
    exact ⟨all, data', Process.bind_eq_ok.mpr ⟨_, _, hfirst, hall⟩⟩

theorem eraseCases_eq_ok : ∀ {caseIds : List UUID} {outcomes all : List GallringTargetOutcome}
    {data data' : RetentionData}, eraseCases env outcomes caseIds data = (.ok all, data') →
      ∃ counted : List (StorageCounts × RowCounts), counted.length = caseIds.length ∧
        all = outcomes ++ counted.flatMap (fun counts => caseOutcomes counts.1 counts.2) ∧
        ∀ counts ∈ counted, ∃ caseId ∈ caseIds, ∃ found,
          ErasesOnly (fun _ => True) data found ∧ counts = found.counts env caseId
  | [], outcomes, all, data, data', h => by
    cases h
    exact ⟨[], rfl, (List.append_nil _).symm, fun _ h => absurd h List.not_mem_nil⟩
  | caseId :: caseIds, outcomes, all, data, data', h => by
    obtain ⟨more, data₁, hcase, hrest⟩ := Process.bind_eq_ok.mp h
    have hleaves : ErasesOnly (fun _ => True) data (eraseCase env caseId data).2 :=
      eraseCase_erasesOnly env data trivial
    rw [hcase] at hleaves
    obtain ⟨-, -, rfl⟩ := eraseCase_eq_ok.mp hcase
    obtain ⟨counted, hlength, rfl, hcounted⟩ := eraseCases_eq_ok hrest
    refine ⟨data.counts env caseId :: counted, by rw [List.length_cons, hlength, List.length_cons],
      by rw [List.flatMap_cons, List.append_assoc], List.forall_mem_cons.mpr
        ⟨⟨caseId, List.mem_cons_self, data, .refl _, rfl⟩, fun counts hmem => ?_⟩⟩
    obtain ⟨other, hother, found, hfound, rfl⟩ := hcounted counts hmem
    exact ⟨other, List.mem_cons_of_mem _ hother, found, hleaves.trans hfound, rfl⟩

/-! ### What is counted -/

/-- No case counts more than this. -/
def RetentionData.volume (data : RetentionData) : Nat :=
  3 * data.versions.length + data.packages.length + data.packageFiles.length +
    data.processorReports.length + data.documents.length

theorem ErasesOnly.volume_le (h : ErasesOnly permitted data data') :
    data'.volume ≤ data.volume := by
  have hversions := h.versions.length_le
  have hdocuments := h.documents.length_le
  have hpackages : data'.packages = data.packages := by rw [h.frame]
  have hfiles : data'.packageFiles = data.packageFiles := by rw [h.frame]
  have hreports : data'.processorReports = data.processorReports := by rw [h.frame]
  rw [RetentionData.volume, RetentionData.volume, hpackages, hfiles, hreports]
  omega

theorem length_caseObjectKeys_le (data : RetentionData) (caseId : UUID) :
    (data.caseObjectKeys caseId).length ≤
    2 * data.versions.length + data.packages.length + data.packageFiles.length +
      data.processorReports.length := by
  have hversions : (data.versionsOf caseId).length ≤ data.versions.length :=
    List.length_filter_le _ _
  have hcanonical := List.length_filterMap_le (·.canonicalObjectKey) (data.versionsOf caseId)
  have hpackages : (data.packagesOf caseId).length ≤ data.packages.length :=
    List.length_filter_le _ _
  have hfiles := List.length_filter_le (fun file =>
    decide (file.evidencePackageId ∈ (data.packagesOf caseId).map (·.id))) data.packageFiles
  have hreports := List.length_filter_le (fun report =>
    decide (report.documentVersionId ∈ (data.versionsOf caseId).map (·.id))) data.processorReports
  simp only [RetentionData.caseObjectKeys, List.length_append, List.length_map]
  omega

/-- The sum of the counts of a case. -/
def countedTotal (counts : StorageCounts × RowCounts) : Nat :=
  counts.1.deleted + counts.2.documents + counts.2.versions + counts.2.notifications

theorem countedTotal_le : countedTotal (data.counts env caseId) ≤ data.volume := by
  have hkeys := length_caseObjectKeys_le data caseId
  have hdeleted := List.countP_le_length (p := env.deletes) (l := data.caseObjectKeys caseId)
  have hversions : (data.versionsOf caseId).length ≤ data.versions.length :=
    List.length_filter_le _ _
  have hdocuments : (data.documentIds caseId).length ≤ data.documents.length := by
    rw [RetentionData.documentIds, List.length_map]
    exact List.length_filter_le _ _
  simp only [countedTotal, RetentionData.counts, RetentionData.volume]
  omega

theorem sum_caseOutcomes (counts : StorageCounts × RowCounts) :
    ((caseOutcomes counts.1 counts.2).map (·.deletedCount)).sum = countedTotal counts := by
  simp [caseOutcomes, countedTotal]
  omega

variable {counted : List (StorageCounts × RowCounts)}

/-- The outcomes of the cases. -/
def allOutcomes (counted : List (StorageCounts × RowCounts)) : List GallringTargetOutcome :=
  counted.flatMap fun counts => caseOutcomes counts.1 counts.2

theorem allOutcomes_counts : ∀ outcome ∈ allOutcomes counted, 0 ≤ outcome.deletedCount := by
  intro outcome houtcome
  obtain ⟨counts, -, hmem⟩ := List.mem_flatMap.mp houtcome
  have hcase : ∀ outcome ∈ caseOutcomes counts.1 counts.2, 0 ≤ outcome.deletedCount := by
    simp [caseOutcomes]
  exact hcase outcome hmem

theorem sum_allOutcomes_le {bound : Nat} (h : ∀ counts ∈ counted, countedTotal counts ≤ bound) :
    ((allOutcomes counted).map (·.deletedCount)).sum ≤ counted.length * bound := by
  induction counted with
  | nil => simp [allOutcomes]
  | cons counts counted ih =>
    obtain ⟨hfirst, hrest⟩ := List.forall_mem_cons.mp h
    have hih := ih hrest
    rw [allOutcomes, List.flatMap_cons, List.map_append, List.sum_append, sum_caseOutcomes,
      List.length_cons]
    rw [allOutcomes] at hih
    push_cast
    rw [add_mul, one_mul]
    omega

theorem allOutcomes_targets (hne : counted ≠ []) (target : GallringTarget) :
    target ∈ (allOutcomes counted).map (·.target) ↔ target ∈ MANDATORY_CASE_TARGETS := by
  have hcase : ∀ counts : StorageCounts × RowCounts,
      (caseOutcomes counts.1 counts.2).map (·.target) = [.object_storage, .documents,
        .document_versions, .notifications, .evidence_packages, .derived_renders, .search_index,
        .cache, .signature_case] := fun _ => rfl
  have hsame : target ∈ [GallringTarget.object_storage, .documents, .document_versions,
      .notifications, .evidence_packages, .derived_renders, .search_index, .cache,
      .signature_case] ↔ target ∈ MANDATORY_CASE_TARGETS := by
    cases target <;> decide
  rw [allOutcomes, List.map_flatMap, List.mem_flatMap, ← hsame]
  simp only [hcase]
  obtain ⟨counts, hcounts⟩ := List.exists_mem_of_ne_nil counted hne
  exact ⟨fun ⟨_, _, h⟩ => h, fun h => ⟨counts, hcounts, h⟩⟩

theorem allOutcomes_verified (h : ∀ counts ∈ counted, counts.1.failed = 0) :
    ∀ outcome ∈ allOutcomes counted, outcome.verified = true := by
  intro outcome houtcome
  obtain ⟨counts, hcounts, hmem⟩ := List.mem_flatMap.mp houtcome
  have hcase : ∀ outcome ∈ caseOutcomes counts.1 counts.2, outcome.verified = true := by
    simp [caseOutcomes, h counts hcounts]
  exact hcase outcome hmem

end Cases

end Kommunsign
