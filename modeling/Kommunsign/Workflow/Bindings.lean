import Kommunsign.Workflow.Payloads

/-!
# How the rows of a signing name each other

An intent names versions of documents of its case, which have been locked with the digests that it
gives. A session names the intent it was started for, the signer of the intent, and one version: the
first that is to be signed.

* `Db.Names` — what a document of an intent says of the version is so
* `Db.SessionFor` — what a session says of its intent is so
-/

namespace Kommunsign

open Infra

/-- The version is one of the intent's case, locked with the digest that the intent gives. -/
def Db.Names (db : Db) (d : SigningIntentDocument) : Prop :=
  ∃ si v, db.intent? d.signingIntentId = some si ∧ db.version? d.documentVersionId = some v ∧
    v.sha256 = some d.documentSha256 ∧ v.status = .locked ∧
    db.versionCase? d.documentVersionId = some si.signatureCaseId

/-- The session is of the intent's signer, over the first document that is to be signed. -/
def Db.SessionFor (db : Db) (t : IdentityTransaction) : Prop :=
  ∃ si, t.signingIntentId = some si.id ∧ db.intent? si.id = some si ∧ t.signerId = si.signerId ∧
    t.provider = .TIC_BANKID ∧ db.firstDocumentVersionId si.id = some t.documentVersionId

/-- What a start of BankID has read is what the session will say. -/
def Db.StartOf (db : Db) (start : StartInput) : Prop :=
  ∃ si, db.intent? start.signingIntentId = some si ∧ start.signerId = si.signerId ∧
    start.firstDocumentVersionId = db.firstDocumentVersionId start.signingIntentId

/-- No intent has a version twice. -/
def Db.NamesOnce (db : Db) : Prop :=
  (db.intentDocuments.map fun d => (d.signingIntentId, d.documentVersionId)).Nodup

structure Bound (s : Sys) : Prop where
  documentsKeyed : (s.db.documents.map (·.id)).Nodup
  versionsKeyed : (s.db.versions.map (·.id)).Nodup
  sessionsKeyed : (s.db.identityTransactions.map (·.id)).Nodup
  names : ∀ d ∈ s.db.intentDocuments, s.db.Names d
  namesOnce : s.db.NamesOnce
  signable : ∀ si ∈ s.db.intents, s.db.signableDocuments si.id ≠ []
  sessions : ∀ t ∈ s.db.identityTransactions, s.db.SessionFor t
  starts : ∀ start ∈ s.starts, s.db.StartOf start
  creates : ∀ run ∈ s.creates, ∃ t,
    s.db.identityTransaction? run.intent.identityTransactionId = some t ∧
      t.signingIntentId = some run.intent.signingIntentId

/-! ## The documents of an intent -/

section Documents

variable {db : Db} {signingIntentId : Id}

theorem mem_loadIntentDocuments {document : IntentDocumentRow} :
    document ∈ loadIntentDocuments db signingIntentId ↔
      ∃ d ∈ db.intentDocuments, d.signingIntentId = signingIntentId ∧
        ∃ v, db.version? d.documentVersionId = some v ∧
          document = ⟨d.documentVersionId, d.ordinal, d.documentSha256, d.documentRole,
            v.canonicalObjectKey⟩ := by
  rw [loadIntentDocuments, byOrdinal, (List.perm_insertionSort _ _).mem_iff, List.mem_filterMap]
  constructor
  · rintro ⟨d, hd, hrow⟩
    rw [List.mem_filter, beq_iff_eq] at hd
    obtain ⟨v, hv, rfl⟩ := Option.map_eq_some_iff.mp hrow
    exact ⟨d, hd.1, hd.2, v, hv, rfl⟩
  · rintro ⟨d, hd, hof, v, hv, rfl⟩
    exact ⟨d, List.mem_filter.mpr ⟨hd, beq_iff_eq.mpr hof⟩, by rw [hv, Option.map_some]⟩

theorem mem_signableDocuments {d : SigningIntentDocument} :
    d ∈ db.signableDocuments signingIntentId ↔ d ∈ db.intentDocuments ∧
      d.signingIntentId = signingIntentId ∧ d.documentRole = .signable := by
  rw [Db.signableDocuments, List.mem_filter, Bool.and_eq_true, beq_iff_eq, beq_iff_eq]

end Documents

/-! ## Rows after a step -/

section Steps

variable {s s' : Sys} {i : Step}

theorem document?_of_step (hstep : Sys.step s i = some s') {id : Id} {d : Document}
    (hd : s.db.document? id = some d) : s'.db.document? id = some d := by
  rcases intake_or_leaves hstep with ⟨intake, rfl, -, rfl⟩ | hleaves
  · rw [Db.document?] at hd
    rw [Db.document?, Db.withCase, List.find?_append, hd]
    rfl
  · rw [Db.document?, hleaves.documents]
    exact hd

theorem version?_of_step (hstep : Sys.step s i = some s') {id : Id} {v : DocumentVersion}
    (hv : s.db.version? id = some v) : ∃ v', s'.db.version? id = some v' ∧ VersionMove v v' := by
  rcases intake_or_leaves hstep with ⟨intake, rfl, -, rfl⟩ | hleaves
  · refine ⟨v, ?_, VersionMove.refl v⟩
    rw [Db.version?] at hv
    rw [Db.version?, Db.withCase, List.find?_append, hv]
    rfl
  · exact hleaves.versions.find?_eq_some (fun _ _ hmove => hmove.id) hv

theorem session?_of_step (hstep : Sys.step s i = some s') {id : Id} {t : IdentityTransaction}
    (ht : s.db.identityTransaction? id = some t) :
    ∃ t', s'.db.identityTransaction? id = some t' ∧ SessionMove t t' := by
  rcases intake_or_leaves hstep with ⟨intake, rfl, -, rfl⟩ | hleaves
  · exact ⟨t, ht, SessionMove.refl t⟩
  · exact hleaves.identityTransactions.find?_eq_some (fun row : IdentityTransaction => row.id)
      (fun _ _ hmove => hmove.id) ht

theorem versionCase?_of_step (hstep : Sys.step s i = some s') {id c : Id}
    (h : s.db.versionCase? id = some c) : s'.db.versionCase? id = some c := by
  simp only [Db.versionCase?, Option.bind_eq_bind, Option.bind_eq_some_iff, Option.some.injEq] at h ⊢
  obtain ⟨v, hv, d, hd, hc⟩ := h
  obtain ⟨v', hv', hmove⟩ := version?_of_step hstep hv
  have hdocument : v'.documentId = v.documentId := by
    rw [hmove.row]
  refine ⟨v', hv', d, ?_, hc⟩
  rw [hdocument]
  exact document?_of_step hstep hd

theorem Names.of_step {d : SigningIntentDocument} (h : s.db.Names d)
    (hstep : Sys.step s i = some s') : s'.db.Names d := by
  obtain ⟨si, v, hsi, hv, hsha, hlocked, hcase⟩ := h
  obtain ⟨si', hsi', hchange⟩ := intent?_of_step hstep hsi
  obtain ⟨v', hv', hmove⟩ := version?_of_step hstep hv
  refine ⟨si', v', hsi', hv', ?_, ?_, ?_⟩
  · rw [hmove.row]
    exact hsha
  · -- a version that is locked has been ready
    rcases hmove.status with hsame | ⟨hready, -⟩
    · rw [hsame, hlocked]
    · rw [hlocked] at hready
      cases hready
  · rw [hchange.toIntentMove.signatureCaseId]
    exact versionCase?_of_step hstep hcase

/-! ## Documents that a step adds -/

theorem mem_coveredDocuments {rows : List SigningDocumentRow} {prepared : List SigningIntent}
    {d : SigningIntentDocument} : d ∈ coveredDocuments rows prepared ↔
      ∃ si ∈ prepared, ∃ r ∈ numbered rows, intentDocument si.id r.1 r.2 = d := by
  simp only [coveredDocuments, List.mem_flatMap, List.mem_map]

theorem intentDocuments_of_step (hstep : Sys.step s i = some s')
    (hsend : ∀ c nonce, i ≠ .send c nonce) : s'.db.intentDocuments = s.db.intentDocuments := by
  rcases intake_or_leaves hstep with ⟨intake, rfl, -, rfl⟩ | hleaves
  · rfl
  · have hmoved : Moved Eq s.db.intentDocuments s'.db.intentDocuments := by
      refine hleaves.intentDocuments.moved fun _ hinserts => ?_
      cases insertion_of_effect hinserts with
      | intentDocuments c nonce => exact hsend c nonce rfl
    rw [Moved, List.forall₂_eq_eq_eq] at hmoved
    exact hmoved.symm

theorem rows_of_send {c : Id} {nonce : Id → Text} (hstep : Sys.step s (.send c nonce) = some s') :
    ∃ row prepared, s.db.case? c = some row ∧ row.id = c ∧ Sendable s.db row ∧
      List.Forall₂ (PreparedFor row (s.db.sendRows c)) (s.db.signersInOrder c) prepared ∧
      s'.db.intents = s.db.intents ++ prepared ∧
      s'.db.intentDocuments =
        s.db.intentDocuments ++ coveredDocuments (s.db.sendRows c) prepared ∧
      s'.db.versions = (s.db.withLockedVersions s.clock c).versions ∧
      s'.db.documents = s.db.documents := by
  obtain ⟨db, hok, rfl⟩ := Sys.commit_eq_some.mp hstep
  obtain ⟨row, prepared, db₁, hrow, rfl, hsendable, -, hprepares, rfl⟩ := send_eq hok
  exact ⟨row, prepared, hrow, rfl, hsendable, hprepares.prepared, hprepares.intents,
    hprepares.intentDocuments, hprepares.versions, hprepares.documents⟩

theorem signableDocuments_of_step (hprepared : Prepared s') (hstep : Sys.step s i = some s')
    {id : Id} {si : SigningIntent} (hsi : s.db.intent? id = some si) :
    s'.db.signableDocuments id = s.db.signableDocuments id := by
  by_cases hsend : ∃ c nonce, i = .send c nonce
  · obtain ⟨c, nonce, rfl⟩ := hsend
    obtain ⟨-, prepared, -, -, -, -, hintents, hdocuments, -, -⟩ := rows_of_send hstep
    obtain ⟨hmem, rfl⟩ := exists_of_find?_key hsi
    have hkeyed := hprepared.keyed
    rw [hintents, List.map_append, List.nodup_append] at hkeyed
    have hnil : (coveredDocuments (s.db.sendRows c) prepared).filter (fun d =>
        d.signingIntentId == si.id && d.documentRole == .signable) = [] := by
      refine List.filter_eq_nil_iff.mpr fun d hd hof => ?_
      -- a document that is added is of another intent
      obtain ⟨new, hnew, r, -, rfl⟩ := mem_coveredDocuments.mp hd
      rw [Bool.and_eq_true, beq_iff_eq] at hof
      exact hkeyed.2.2 si.id (List.mem_map_of_mem hmem) new.id (List.mem_map_of_mem hnew)
        hof.1.symm
    rw [Db.signableDocuments, hdocuments, List.filter_append, hnil, List.append_nil]
    rfl
  · have hsame := intentDocuments_of_step hstep fun c nonce heq => hsend ⟨c, nonce, heq⟩
    rw [Db.signableDocuments, hsame, Db.signableDocuments]

theorem firstDocumentVersionId_of_step (hprepared : Prepared s') (hstep : Sys.step s i = some s')
    {id : Id} {si : SigningIntent} (hsi : s.db.intent? id = some si) :
    s'.db.firstDocumentVersionId id = s.db.firstDocumentVersionId id := by
  rw [Db.firstDocumentVersionId, signableDocuments_of_step hprepared hstep hsi,
    Db.firstDocumentVersionId]

theorem SessionFor.of_step (hprepared : Prepared s') {t t' : IdentityTransaction}
    (h : s.db.SessionFor t) (hstep : Sys.step s i = some s') (hmove : SessionMove t t') :
    s'.db.SessionFor t' := by
  obtain ⟨si, hof, hsi, hsigner, hprovider, hfirst⟩ := h
  obtain ⟨si', hsi', hchange⟩ := intent?_of_step hstep hsi
  have hid : si'.id = si.id := hchange.toIntentMove.id
  refine ⟨si', ?_, hid ▸ hsi', ?_, ?_, ?_⟩
  · rw [hmove.intent, hof, hid]
  · rw [show t'.signerId = t.signerId from congrArg (·.signerId) hmove.binding, hsigner,
      hchange.toIntentMove.signerId]
  · exact (congrArg (·.provider) hmove.binding).trans hprovider
  · rw [hid, firstDocumentVersionId_of_step hprepared hstep hsi, hfirst]
    exact congrArg some (congrArg (·.documentVersionId) hmove.binding).symm

theorem StartOf.of_step (hprepared : Prepared s') {start : StartInput} (h : s.db.StartOf start)
    (hstep : Sys.step s i = some s') : s'.db.StartOf start := by
  obtain ⟨si, hsi, hsigner, hfirst⟩ := h
  obtain ⟨si', hsi', hchange⟩ := intent?_of_step hstep hsi
  refine ⟨si', hsi', ?_, ?_⟩
  · rw [hsigner, hchange.toIntentMove.signerId]
  · rw [hfirst, firstDocumentVersionId_of_step hprepared hstep hsi]

/-! ## Starts and sessions -/

theorem startSession_eq_ok {db : Db} {now : Time} {invitationId : Id} {start : StartInput}
    {text : Text} (h : startSession db now invitationId = .ok (start, text)) :
    ∃ invitation si, db.invitation? invitationId = some invitation ∧
      db.startableIntent? invitation.signerId = some si ∧ start.signingIntentId = si.id ∧
      start.signerId = si.signerId ∧
      start.firstDocumentVersionId = db.firstDocumentVersionId si.id := by
  obtain ⟨resolved, hresolved, h⟩ := except_bind_eq_ok.mp h
  obtain ⟨start', hstart, h⟩ := except_bind_eq_ok.mp h
  obtain ⟨_, -, h⟩ := except_bind_eq_ok.mp h
  obtain ⟨rfl, -⟩ := Prod.mk.inj (Except.ok.inj h)
  unfold resolveInvitation at hresolved
  cases hinvitation : db.invitation? invitationId with
  | none =>
    rw [hinvitation] at hresolved
    cases hresolved
  | some invitation =>
    rw [hinvitation] at hresolved
    dsimp only at hresolved
    split at hresolved
    · cases hresolved
      cases hsi : db.startableIntent? invitation.signerId with
      | none =>
        obtain ⟨_, -, hstart⟩ := except_bind_eq_ok.mp hstart
        obtain ⟨_, -, hstart⟩ := except_bind_eq_ok.mp hstart
        obtain ⟨_, hrows, -⟩ := except_bind_eq_ok.mp hstart
        simp [orFail_eq_ok, hsi] at hrows
      | some si =>
        obtain ⟨_, _, -, -, -, hintent, hsigner, hfirst⟩ := loadStartInput_eq_ok hsi hstart
        exact ⟨invitation, si, rfl, hsi, hintent, hsigner, hfirst⟩
    · cases hresolved

theorem mem_of_startableIntent? {db : Db} {signerId : Id} {si : SigningIntent}
    (h : db.startableIntent? signerId = some si) :
    si ∈ db.intents ∧ si.signerId = signerId ∧ si.status = .prepared := by
  have hmem := (minBy_eq_some h).1
  rw [List.mem_filter, Bool.and_eq_true, Bool.and_eq_true, Bool.and_eq_true, beq_iff_eq,
    beq_iff_eq] at hmem
  exact ⟨hmem.1, hmem.2.1.1.1, hmem.2.1.1.2⟩

theorem sessions_of_step (hstep : Sys.step s i = some s') : ∀ t' ∈ s'.db.identityTransactions,
    (∃ t ∈ s.db.identityTransactions, SessionMove t t') ∨
      ∃ index reference start documentVersionId, i = .recordSession index reference ∧
        s.starts[index]? = some start ∧ start.firstDocumentVersionId = some documentVersionId ∧
        t' = sessionRow s.db s.clock start documentVersionId reference := by
  intro t' ht'
  rcases intake_or_leaves hstep with ⟨intake, rfl, -, rfl⟩ | hleaves
  · exact Or.inl ⟨t', ht', SessionMove.refl t'⟩
  rcases hleaves.identityTransactions.exists_before ht' with hold | hinserts
  · exact Or.inl hold
  · cases insertion_of_effect hinserts with
    | identityTransactions index reference =>
      obtain ⟨start, db, hstart, hok, rfl⟩ := step_recordSession hstep
      obtain ⟨documentVersionId, hfirst, -, hsessions, -, -⟩ := recordSession_eq hok
      change t' ∈ db.identityTransactions at ht'
      rw [hsessions] at ht'
      rcases List.mem_append.mp ht' with hold | hnew
      · exact Or.inl ⟨t', hold, SessionMove.refl t'⟩
      · exact Or.inr ⟨index, reference, start, documentVersionId, rfl, hstart, hfirst,
          List.mem_singleton.mp hnew⟩

theorem sessionsKeyed_of_step (hkeys : (s.db.identityTransactions.map (·.id)).Nodup)
    (hstep : Sys.step s i = some s') : (s'.db.identityTransactions.map (·.id)).Nodup := by
  by_cases hrecord : ∃ index reference, i = .recordSession index reference
  · obtain ⟨index, reference, rfl⟩ := hrecord
    obtain ⟨start, db, -, hok, rfl⟩ := step_recordSession hstep
    obtain ⟨documentVersionId, -, -, hsessions, -, -⟩ := recordSession_eq hok
    rw [hsessions, List.map_append, List.nodup_append]
    refine ⟨hkeys, List.nodup_singleton _, fun k hk k' hk' heq => ?_⟩
    rw [List.map_singleton, List.mem_singleton] at hk'
    rw [hk'] at heq
    exact freshKey_not_mem _ (heq ▸ hk)
  · rcases intake_or_leaves hstep with ⟨intake, rfl, -, rfl⟩ | hleaves
    · exact hkeys
    · have hmoved : Moved SessionMove s.db.identityTransactions s'.db.identityTransactions := by
        refine hleaves.identityTransactions.moved fun _ hinserts => ?_
        cases insertion_of_effect hinserts with
        | identityTransactions index reference => exact hrecord ⟨index, reference, rfl⟩
      rw [hmoved.map_eq fun _ _ hmove => hmove.id]
      exact hkeys

end Steps

/-! ## What a send adds -/

section Send

variable {db db' : Db} {now : Time} {nonce : Id → Text} {c : SignatureCase}

theorem exists_of_mem_sendRows {caseId : Id} {r : SigningDocumentRow} (h : r ∈ db.sendRows caseId) :
    ∃ d v, (d, v) ∈ db.signingDocuments caseId ∧ d ∈ db.documents ∧ d.signatureCaseId = caseId ∧
      v ∈ db.versions ∧ v.documentId = d.id ∧ v.sha256 = some r.sha256 ∧
      r.documentVersionId = v.id ∧ r.documentRole = d.documentRole := by
  obtain ⟨⟨d, v⟩, hmem, hrow⟩ := List.mem_filterMap.mp h
  obtain ⟨sha256, hsha, rfl⟩ := Option.map_eq_some_iff.mp hrow
  have hcase := hmem
  rw [Db.signingDocuments, (List.perm_insertionSort _ _).mem_iff, Db.caseVersions,
    List.mem_flatMap] at hcase
  obtain ⟨d', hd, hversion⟩ := hcase
  obtain ⟨v', hv, heq⟩ := List.mem_map.mp hversion
  obtain ⟨rfl, rfl⟩ := Prod.mk.inj heq
  rw [List.mem_filter, beq_iff_eq] at hd hv
  exact ⟨_, _, hmem, hd.1, hd.2, hv.1, hv.2, hsha, rfl, rfl⟩

theorem exists_numbered {rows : List SigningDocumentRow} {r : SigningDocumentRow} (h : r ∈ rows) :
    ∃ n, (r, n) ∈ numbered rows := by
  have hrows : (rows.zipIdx 1).map Prod.fst = rows := List.zipIdx_map_fst 1 rows
  rw [← hrows] at h
  obtain ⟨⟨r', n⟩, hmem, rfl⟩ := List.mem_map.mp h
  exact ⟨n, hmem⟩

theorem mem_of_mem_numbered {rows : List SigningDocumentRow} {r : SigningDocumentRow × Nat}
    (h : r ∈ numbered rows) : r.1 ∈ rows := by
  have hrows : (rows.zipIdx 1).map Prod.fst = rows := List.zipIdx_map_fst 1 rows
  rw [← hrows]
  exact List.mem_map_of_mem h

theorem version?_withLockedVersions (hdocuments : (db.documents.map (·.id)).Nodup)
    (hversions : (db.versions.map (·.id)).Nodup) {caseId : Id} {d : Document} {v : DocumentVersion}
    (hd : d ∈ db.documents) (hcase : d.signatureCaseId = caseId) (hv : v ∈ db.versions)
    (hof : v.documentId = d.id) (hready : v.status = .ready) :
    (db.withLockedVersions now caseId).version? v.id =
      some { v with status := .locked, lockedAt := some now } := by
  have hdocument : db.document? v.documentId = some d := by
    rw [hof]
    exact find?_of_mem hdocuments hd
  have hlocks : (v.status == .ready &&
      (db.document? v.documentId).any fun d => d.signatureCaseId == caseId) = true := by
    rw [hdocument, hready]
    simp [hcase]
  have hfind : (db.withLockedVersions now caseId).version? v.id = (db.version? v.id).map fun v =>
      if (v.status == .ready &&
          (db.document? v.documentId).any fun d => d.signatureCaseId == caseId) = true then
        { v with status := .locked, lockedAt := some now }
      else v :=
    find?_assign (fun row : DocumentVersion => row.id) fun _ _ _ => rfl
  have hfound : db.version? v.id = some v := find?_of_mem hversions hv
  rw [hfind, hfound, Option.map_some, if_pos hlocks]

theorem namesOnce_of_sendSigner {rows : List SigningDocumentRow} {group : Nat} {signer : Signer}
    {u : Unit} (h : sendSigner now nonce c rows group signer db = .ok (u, db'))
    (honce : db.NamesOnce) : db'.NamesOnce := by
  obtain ⟨mode, -, -, hdocuments, hinvite⟩ := sendSigner_eq h
  have hlocked : ((db.intentDocuments ++ (numbered rows).map fun r => intentDocument
      (preparedIntent db.organizationName c rows (intentSource db now nonce signer mode)).id r.1
        r.2).map fun d => (d.signingIntentId, d.documentVersionId)).Nodup := by
    refine nodup_append_of_fresh honce fun before d after heq row hrow hkey => ?_
    obtain ⟨before', rest, hnumbered, rfl, hrest⟩ := List.map_eq_append_iff.mp heq
    obtain ⟨r, after', rfl, rfl, -⟩ := List.map_eq_cons_iff.mp hrest
    have hpkey := hdocuments before' r after' hnumbered
    simp only [Tables.intentDocuments, refuse_append, refuse_violates, List.any_eq_false,
      Bool.and_eq_true, beq_iff_eq] at hpkey
    obtain ⟨hintent, hversion⟩ := Prod.mk.inj hkey
    exact hpkey.1.1.1.1 row hrow ⟨hintent, hversion⟩
  rcases hinvite with ⟨-, hinvite⟩ | ⟨-, rfl⟩
  · obtain ⟨-, -, rfl⟩ := inviteFirst_eq hinvite
    exact hlocked
  · exact hlocked

theorem namesOnce_of_forEach {rows : List SigningDocumentRow} {group : Nat} :
    ∀ {signers : List Signer} {db : Db} {u : Unit},
      Transaction.forEach (sendSigner now nonce c rows group) signers db = .ok (u, db') →
        db.NamesOnce → db'.NamesOnce
  | [], _, _, h, honce => by
    obtain ⟨-, rfl⟩ := Transaction.pure_eq_ok.mp h
    exact honce
  | _ :: _, _, _, h, honce => by
    obtain ⟨_, _, h₁, h₂⟩ := Transaction.bind_eq_ok.mp h
    exact namesOnce_of_forEach h₂ (namesOnce_of_sendSigner h₁ honce)

end Send

/-! ## Every step keeps it -/

section Preserved

variable {s s' : Sys} {i : Step}

theorem names_of_send (h : Bound s) (hprepared : Prepared s') {c : Id} {nonce : Id → Text}
    (hstep : Sys.step s (.send c nonce) = some s') : ∀ d ∈ s'.db.intentDocuments, s'.db.Names d := by
  intro d hd
  obtain ⟨row, prepared, -, rfl, hsendable, hfor, hintents, hdocuments, hversions, hsame⟩ :=
    rows_of_send hstep
  rw [hdocuments] at hd
  rcases List.mem_append.mp hd with hold | hnew
  · exact Names.of_step (h.names d hold) hstep
  · obtain ⟨si, hsi, r, hr, rfl⟩ := mem_coveredDocuments.mp hnew
    obtain ⟨d, v, hdv, hdocument, hcase, hversion, hof, hsha, hid, -⟩ :=
      exists_of_mem_sendRows (mem_of_mem_numbered hr)
    obtain ⟨_, -, hpreparedFor⟩ := exists_left_of_forall₂ hfor hsi
    have hlocked : s'.db.version? v.id =
        some { v with status := .locked, lockedAt := some s.clock } := by
      rw [Db.version?, hversions]
      exact version?_withLockedVersions h.documentsKeyed h.versionsKeyed hdocument hcase hversion
        hof (hsendable.documents _ hdv).2
    have hfound : s'.db.document? v.documentId = some d := by
      rw [Db.document?, hsame, hof]
      exact find?_of_mem h.documentsKeyed hdocument
    refine ⟨si, { v with status := .locked, lockedAt := some s.clock },
      find?_of_mem hprepared.keyed ?_, ?_, hsha, rfl, ?_⟩
    · rw [hintents]
      exact List.mem_append_right _ hsi
    · rw [← hlocked]
      exact congrArg s'.db.version? hid
    · change s'.db.versionCase? r.1.documentVersionId = _
      rw [hid, hpreparedFor.signatureCaseId, ← hcase]
      simp [Db.versionCase?, hlocked, hfound]

theorem namesOnce_of_send (h : s.db.NamesOnce) {c : Id} {nonce : Id → Text}
    (hstep : Sys.step s (.send c nonce) = some s') : s'.db.NamesOnce := by
  obtain ⟨db, hok, rfl⟩ := Sys.commit_eq_some.mp hstep
  obtain ⟨row, prepared, db₁, -, rfl, -, hloop, -, rfl⟩ := send_eq hok
  have honce : db₁.NamesOnce := namesOnce_of_forEach hloop h
  exact honce

theorem signable_of_send (h : Bound s) (hkeyed : (s.db.intents.map (·.id)).Nodup)
    (hprepared : Prepared s') {c : Id} {nonce : Id → Text}
    (hstep : Sys.step s (.send c nonce) = some s') :
    ∀ si ∈ s'.db.intents, s'.db.signableDocuments si.id ≠ [] := by
  intro si hsi
  obtain ⟨row, prepared, -, rfl, hsendable, -, hintents, hdocuments, -, -⟩ := rows_of_send hstep
  rw [hintents] at hsi
  rcases List.mem_append.mp hsi with hold | hnew
  · rw [signableDocuments_of_step hprepared hstep (find?_of_mem hkeyed hold)]
    exact h.signable si hold
  · obtain ⟨dv, hdv, hrole⟩ := hsendable.signable
    obtain ⟨sha256, hsha⟩ := Option.isSome_iff_exists.mp (hsendable.documents dv hdv).1
    have hrow : ⟨dv.1.id, dv.2.id, dv.1.displayName, sha256, dv.2.byteSize, dv.1.documentRole⟩ ∈
        s.db.sendRows row.id := by
      refine List.mem_filterMap.mpr ⟨dv, hdv, ?_⟩
      rw [signingDocumentRow, hsha, Option.map_some]
    obtain ⟨n, hn⟩ := exists_numbered hrow
    have hdocument := mem_coveredDocuments.mpr ⟨si, hnew, _, hn, rfl⟩
    have hmem := List.mem_append_right s.db.intentDocuments hdocument
    rw [← hdocuments] at hmem
    refine List.ne_nil_of_mem (List.mem_filter.mpr ⟨hmem, ?_⟩)
    simp [intentDocument, hrole]

theorem session?_of_start {db : Db} (hkeys : (db.identityTransactions.map (·.id)).Nodup)
    {signingIntentId : Id} {run : PadesCreateRun}
    (h : startPadesCreate db signingIntentId = .ok (some run)) :
    ∃ t, db.identityTransaction? run.intent.identityTransactionId = some t ∧
      t.signingIntentId = some run.intent.signingIntentId := by
  obtain ⟨hload, -⟩ := startPadesCreate_eq h
  obtain ⟨si, _, _, it, -, -, -, hit, hrow⟩ := loadIntent_eq_ok hload
  have hof := List.find?_some hit
  simp only [Db.verifiedIdentity, Bool.and_eq_true, beq_iff_eq] at hof
  rw [hrow]
  exact ⟨it, find?_of_mem hkeys (List.mem_of_find?_eq_some hit), hof.1.1⟩

theorem bound_of_step (h : Bound s) (hbefore : Prepared s) (hafter : Prepared s')
    (hstep : Sys.step s i = some s') : Bound s' where
  documentsKeyed := by
    rcases intake_or_leaves hstep with ⟨intake, -, haccepted, rfl⟩ | hleaves
    · exact nodup_append_of_fresh h.documentsKeyed haccepted.documents
    · rw [hleaves.documents]
      exact h.documentsKeyed
  versionsKeyed := by
    rcases intake_or_leaves hstep with ⟨intake, -, haccepted, rfl⟩ | hleaves
    · exact nodup_append_of_fresh h.versionsKeyed haccepted.versions
    · rw [hleaves.versions.map_eq fun _ _ hmove => hmove.id]
      exact h.versionsKeyed
  sessionsKeyed := sessionsKeyed_of_step h.sessionsKeyed hstep
  names := by
    by_cases hsend : ∃ c nonce, i = .send c nonce
    · obtain ⟨c, nonce, rfl⟩ := hsend
      exact names_of_send h hafter hstep
    · rw [intentDocuments_of_step hstep fun c nonce heq => hsend ⟨c, nonce, heq⟩]
      exact fun d hd => Names.of_step (h.names d hd) hstep
  namesOnce := by
    by_cases hsend : ∃ c nonce, i = .send c nonce
    · obtain ⟨c, nonce, rfl⟩ := hsend
      exact namesOnce_of_send h.namesOnce hstep
    · unfold Db.NamesOnce
      rw [intentDocuments_of_step hstep fun c nonce heq => hsend ⟨c, nonce, heq⟩]
      exact h.namesOnce
  signable := by
    by_cases hsend : ∃ c nonce, i = .send c nonce
    · obtain ⟨c, nonce, rfl⟩ := hsend
      exact signable_of_send h hbefore.keyed hafter hstep
    · intro si' hsi'
      have hmoved := intents_moved hstep fun c nonce heq => hsend ⟨c, nonce, heq⟩
      obtain ⟨si, hsi, hchange⟩ := hmoved.exists_before hsi'
      rw [hchange.toIntentMove.id,
        signableDocuments_of_step hafter hstep (find?_of_mem hbefore.keyed hsi)]
      exact h.signable si hsi
  sessions := by
    intro t' ht'
    rcases sessions_of_step hstep t' ht' with
      ⟨t, ht, hmove⟩ | ⟨index, reference, start, documentVersionId, rfl, hstart, hfirst, rfl⟩
    · exact SessionFor.of_step hafter (h.sessions t ht) hstep hmove
    · -- the new session is of the intent that the start has read
      have hof := StartOf.of_step hafter (h.starts start (List.mem_of_getElem? hstart)) hstep
      obtain ⟨si, hsi, hsigner, hread⟩ := hof
      obtain ⟨-, hid⟩ := exists_of_find?_key hsi
      refine ⟨si, ?_, hid ▸ hsi, hsigner, rfl, ?_⟩
      · rw [hid]
        rfl
      · rw [hid, ← hread, hfirst]
        rfl
  starts := by
    intro start hstart
    rcases (runsAfter_of_step hstep).starts start hstart with hold | ⟨invitationId, text, rfl, hread⟩
    · exact StartOf.of_step hafter (h.starts start hold) hstep
    · obtain ⟨_, si, -, hstartable, hintent, hsigner, hfirst⟩ := startSession_eq_ok hread
      have hmem := (mem_of_startableIntent? hstartable).1
      refine StartOf.of_step hafter ⟨si, ?_, hsigner, ?_⟩ hstep
      · rw [hintent]
        exact find?_of_mem hbefore.keyed hmem
      · rw [hfirst, hintent]
  creates := by
    intro run' hrun'
    have hkeeps {run : PadesCreateRun} (hof : ∃ t, s.db.identityTransaction?
        run.intent.identityTransactionId = some t ∧
          t.signingIntentId = some run.intent.signingIntentId) : ∃ t, s'.db.identityTransaction?
            run.intent.identityTransactionId = some t ∧
              t.signingIntentId = some run.intent.signingIntentId := by
      obtain ⟨t, ht, hintent⟩ := hof
      obtain ⟨t', ht', hmove⟩ := session?_of_step hstep ht
      exact ⟨t', ht', hmove.intent.trans hintent⟩
    rcases (runsAfter_of_step hstep).creates run' hrun' with
      ⟨run, hrun, hcontinues⟩ | ⟨intentId, rfl, hstart⟩
    · rw [hcontinues.intent]
      exact hkeeps (h.creates run hrun)
    · exact hkeeps (session?_of_start h.sessionsKeyed hstart)

end Preserved

theorem bound_start (tenantId : Text) (organizationName : Option Text) (rollout : Bool)
    (clock : Time) : Bound (Sys.start tenantId organizationName rollout clock) where
  documentsKeyed := List.nodup_nil
  versionsKeyed := List.nodup_nil
  sessionsKeyed := List.nodup_nil
  names _ h := absurd h List.not_mem_nil
  namesOnce := List.nodup_nil
  signable _ h := absurd h List.not_mem_nil
  sessions _ h := absurd h List.not_mem_nil
  starts _ h := absurd h List.not_mem_nil
  creates _ h := absurd h List.not_mem_nil

theorem bound_of_reachable {s : Sys} (h : s.Reachable) : Bound s := by
  refine h.induction bound_start ?_
  intro s i s' hreachable hbound hstep
  exact bound_of_step hbound (prepared_of_reachable hreachable)
    (prepared_of_reachable (hreachable.of_step hstep)) hstep

end Kommunsign
