import DeckyMyRig.Host.Completion

/-!
# Where a credential comes from

The host with a record of the sessions it opens and of the credentials it
encrypts for them. A credential that it answers with, at once or again, was
encrypted for a session of that id, and saved before. This needs that no session
is opened under the id of a completed one: `pair` asks whether the session was
completed before `finish` drops old records.
-/

namespace DeckyMyRig.Host

open Octets Machine

inductive PairingEvent
  | opened (code : Code) (session : PendingPairing)
  | issued (session : PendingPairing) (context : CredentialContext) (result : PairingResult)
  | output (output : Output)

def AppState.opens (C : Crates) (s : AppState) : Input → List PairingEvent
  | .advance id env =>
    match s.tasks id with
    | some (.pairStart clientMessage source) =>
      match s.pairing.startForSource C clientMessage source env.r env.entropy env.sessionId with
      | (p, .ok start) => (p.pending.lookup start.sessionId).toList.map (.opened p.code)
      | _ => []
    | _ => []
  | _ => []

def AppState.encrypts (C : Crates) (s : AppState) : Input → List PairingEvent
  | .advance id env =>
    match s.tasks id with
    | some (.pairFinish request hostId) =>
      let context := s.credentialContext hostId
      match s.pairing.checking request.sessionId env.r,
          s.pairing.finish C request.sessionId request.clientConfirmation context env.r
            env.credential
            env.nonce with
      | some session, (_, .ok result) => [.issued session context result]
      | _, _ => []
    | _ => []
  | _ => []

def AppState.records (C : Crates) (s : AppState) (i : Input) (out : List Output) :
    List PairingEvent :=
  s.opens C i ++ s.encrypts C i ++ out.map .output

def recordedStep (C : Crates) (s : AppState) (i : Input) : Option (AppState × List PairingEvent) :=
  (hostStep C s i).map fun r => (r.1, s.records C i r.2)

/-- The id of a session that is opened is not the one of a completed session. -/
def drawsNew (s : AppState) : Input → Bool
  | .advance id env =>
    match s.tasks id with
    | some (.pairStart ..) => (s.pairing.completed.lookup env.sessionId).isNone
    | _ => true
  | _ => true

-- ---------------------------------------------------------------------------
-- Provenance
-- ---------------------------------------------------------------------------

structure Prepared (context : CredentialContext) (tr : List PairingEvent) (code : Code)
    (session : PendingPairing) (result : PairingResult) : Prop where
  opened : .opened code session ∈ tr
  issued : .issued session context result ∈ tr

def SavedIn (host : Uuid) (context : CredentialContext) (tr : List PairingEvent) (code : Code)
    (session : PendingPairing) (result : PairingResult) : Prop :=
  ∃ pre identity id request post,
    tr = pre ++ .output (.saved identity) :: .output (.paired id request result) :: post ∧
    Prepared context pre code session result ∧ request.sessionId = session.sessionId.val ∧
    identity.credential = some result.credential ∧ identity.hostId = host

def SavedFor (host : Uuid) (context : CredentialContext) (tr : List PairingEvent)
    (sessionId : Bytes) (result : PairingResult) : Prop :=
  ∃ code session, session.sessionId.val = sessionId ∧ SavedIn host context tr code session result

theorem Prepared.append {session : PendingPairing} (h : Prepared context tr code session result)
    (es : List PairingEvent) : Prepared context (tr ++ es) code session result :=
  ⟨List.mem_append_left _ h.opened, List.mem_append_left _ h.issued⟩

theorem SavedIn.append {session : PendingPairing} (h : SavedIn host context tr code session result)
    (es : List PairingEvent) : SavedIn host context (tr ++ es) code session result := by
  obtain ⟨pre, identity, id, request, post, rfl, hrest⟩ := h
  exact ⟨pre, identity, id, request, post ++ es, by simp, hrest⟩

theorem SavedFor.append (h : SavedFor host context tr sessionId result) (es : List PairingEvent) :
    SavedFor host context (tr ++ es) sessionId result := by
  obtain ⟨code, session, hid, hsaved⟩ := h
  exact ⟨code, session, hid, hsaved.append es⟩

structure Provenance (host : Uuid) (context : CredentialContext)
    (tr : List PairingEvent) (s : AppState) :
    Prop where
  pending : ∀ {k e}, s.pairing.pending.lookup k = some e →
    e.sessionId = k ∧ .opened s.pairing.code e ∈ tr
  apart : ∀ {k c}, s.pairing.completed.lookup k = some c → s.pairing.pending.lookup k = none
  completed : ∀ {k c}, s.pairing.completed.lookup k = some c →
    SavedFor host context tr k.val c.result
  saving : ∀ {id : Nat} {request result}, s.tasks id = some (.pairSave request result) →
    ∃ code session, session.sessionId.val = request.sessionId ∧
    Prepared context tr code session result
  committing : ∀ {id : Nat} {request result}, s.tasks id = some (.pairCommit request result) →
    SavedFor host context tr request.sessionId result
  repeating : ∀ {id : Nat} {request result}, s.tasks id = some (.pairRepeat request result) →
    SavedFor host context tr request.sessionId result

-- ---------------------------------------------------------------------------
-- Steps
-- ---------------------------------------------------------------------------

section
variable {C : Crates} {host : Uuid} {name : Text} {context : CredentialContext}
  {tr : List PairingEvent} {s s' : AppState} {i : Input} {out : List Output}

theorem HostStep.pending_cases (hg : Grounded C host name s) (h : HostStep C s i s' out)
    (hk : s'.pairing.pending.lookup k = some e) :
    s'.pairing.code = s.pairing.code ∧ s.pairing.pending.lookup k = some e ∨
      e.sessionId = k ∧ .opened s'.pairing.code e ∈ s.opens C i ∧
        (drawsNew s i = true → s.pairing.completed.lookup k = none) := by
  cases h with
  | answered | spawned | cancelled => exact .inl ⟨rfl, hk⟩
  | @advanced id t env _ _ ht _ _ _ ha =>
    cases hm : ha.pairingMoves with
    | within hw => exact .inl ⟨hw.code, hw.pending hk⟩
    | started hok =>
      obtain ⟨shared, -, hp, hstart, -⟩ := PairingCode.startForSource_ok hok
      have hok : s.pairing.startForSource C _ _ env.r env.entropy env.sessionId = _ := hok
      by_cases hnew : k = env.sessionId
      · subst hnew
        have he : e.sessionId = env.sessionId := by
          rw [hp] at hk
          simp only [AList.lookup_insert, Option.some.injEq] at hk
          rw [← hk]
          rfl
        refine .inr ⟨he, ?_, fun hdraw => by simpa [drawsNew, ht] using hdraw⟩
        simp [AppState.opens, ht, hok, hstart, hk]
      · rw [hp] at hk ⊢
        simp only [ne_eq, hnew, not_false_eq_true, AList.lookup_insert_ne] at hk
        exact .inl ⟨rfl, (PairingCode.pending_pruneSessions.mp hk).1⟩
    | committed hcom =>
      rcases PairingCode.commit_cases hcom with ⟨heq, -⟩ | ⟨_, _, -, -, -, hempty, -⟩
      · rw [heq] at hk ⊢
        exact .inl ⟨rfl, hk⟩
      · rw [hempty] at hk
        cases hk
    | installed =>
      obtain ⟨created, hfresh⟩ := (hg.installs ht).fresh
      rw [hfresh] at hk
      cases hk
  | restarted hb =>
    obtain ⟨p, hp, rfl⟩ := boot_eq_some hb
    obtain ⟨created, hfresh⟩ := startPairing_fresh hp
    rw [hfresh] at hk
    cases hk

theorem HostStep.completed_cases (hg : Grounded C host name s) (h : HostStep C s i s' out)
    (hk : s'.pairing.completed.lookup k = some c) :
    s.pairing.completed.lookup k = some c ∨ s'.pairing.pending = ∅ ∧
      ∃ (id : Nat) (request : PairRequest), s.tasks id = some (.pairCommit request c.result) ∧
        request.sessionId = k.val := by
  cases h with
  | answered | spawned | cancelled => exact .inl hk
  | @advanced id t env _ _ ht _ _ _ ha =>
    rcases ha.completed_cases hg ht with hsub | ⟨request, result, a, rfl, hcom⟩
    · exact .inl (hsub hk).1
    · rcases PairingCode.commit_cases hcom with ⟨heq, -⟩ | ⟨j, _, hj, -, -, hempty, hdone, -⟩
      · exact .inl (heq ▸ hk)
      · rw [hdone, PairingCode.committed, AList.lookup_insert'] at hk
        split at hk
        · rename_i hkj
          obtain rfl := Option.some.inj hk
          exact .inr ⟨hempty, id, request, ht, hkj ▸ hj⟩
        · cases hk
  | restarted hb =>
    obtain ⟨p, hp, rfl⟩ := boot_eq_some hb
    obtain ⟨created, hfresh⟩ := startPairing_fresh hp
    rw [hfresh] at hk
    cases hk

theorem Provenance.apart_next (hg : Grounded C host name s) (hi : Provenance host context tr s)
    (h : HostStep C s i s' out) (hnew : drawsNew s i = true)
    (hk : s'.pairing.completed.lookup k = some c) :
    s'.pairing.pending.lookup k = none := by
  rcases h.completed_cases hg hk with hk | ⟨hempty, -⟩
  · rw [Option.eq_none_iff_forall_ne_some]
    intro e he
    rcases h.pending_cases hg he with ⟨-, he⟩ | ⟨-, -, hdraw⟩
    · rw [hi.apart hk] at he
      cases he
    · rw [hdraw hnew] at hk
      cases hk
  · rw [hempty]
    rfl

theorem Provenance.completed_next (hg : Grounded C host name s) (hi : Provenance host context tr s)
    (h : HostStep C s i s' out) (hk : s'.pairing.completed.lookup k = some c) :
    SavedFor host context (tr ++ s.records C i out) k.val c.result := by
  rcases h.completed_cases hg hk with hk | ⟨-, id, request, ht, hid⟩
  · exact (hi.completed hk).append _
  · rw [← hid]
    exact (hi.committing ht).append _

theorem Provenance.saving_next (hg : Grounded C host name s)
    (hi : Provenance host ⟨name, hostVersion, protocolVersion, host.toText⟩ tr s)
    (h : HostStep C s i s' out) {j : Nat} (hj : s'.tasks j = some (.pairSave request result)) :
    ∃ code session, session.sessionId.val = request.sessionId ∧
      Prepared ⟨name, hostVersion, protocolVersion, host.toText⟩ (tr ++ s.records C i out) code
        session result := by
  rcases h.task_cases hg.locks hj with ⟨hj, -⟩ | hinit | ⟨env, u, rfl, hu, -, -, -, ha⟩
  · obtain ⟨code, session, hid, hprepared⟩ := hi.saving hj
    exact ⟨code, session, hid, hprepared.append _⟩
  · cases hinit
  · cases ha.enters hj with
    | serving h => cases h
    | @pairSave hostId _ _ hcomp hfin =>
      have hfin : s.pairing.finish C request.sessionId request.clientConfirmation
          (s.credentialContext hostId) env.r env.credential env.nonce =
          (s'.pairing, .ok result) := hfin
      have hcomp : s.pairing.isCompleted request.sessionId = false := hcomp
      obtain ⟨-, e, hch, -⟩ := PairingCode.finish_new hfin hcomp
      obtain ⟨k, hk, -, hpend, -⟩ := PairingCode.checking_eq_some.mp hch
      obtain ⟨hid, hopened⟩ := hi.pending (PairingCode.pending_pruneSessions.mp hpend).1
      refine ⟨_, e, by rw [hid, hk], List.mem_append_left _ hopened, List.mem_append_right _ ?_⟩
      have hcontext : s.credentialContext hostId = ⟨name, hostVersion,
          protocolVersion, host.toText⟩ := by
        rw [AppState.credentialContext, hg.identified.hostname, hg.identified.finishing hu]
      rw [hcontext] at hfin
      simp [AppState.records, AppState.encrypts, hu, hch, hcontext, hfin]

theorem Provenance.committing_next (hg : Grounded C host name s) (hi : Provenance host context tr s)
    (h : HostStep C s i s' out) {j : Nat} (hj : s'.tasks j = some (.pairCommit request result)) :
    SavedFor host context (tr ++ s.records C i out) request.sessionId result := by
  rcases h.task_cases hg.locks hj with ⟨hj, -⟩ | hinit | ⟨env, u, rfl, hu, -, -, -, ha⟩
  · exact (hi.committing hj).append _
  · cases hinit
  · cases ha.enters hj with
    | serving h => cases h
    | pairCommit =>
      obtain ⟨code, session, hid, hprepared⟩ := hi.saving hu
      refine ⟨code, session, hid, tr ++ (s.opens C (.advance j env) ++
        s.encrypts C (.advance j env)),
        AppState.pairedIdentity s.identity result.credential, j, request, [], ?_,
        hprepared.append _, hid.symm, rfl, hg.identified.identity⟩
      simp [AppState.records, AppState.tick]

theorem Provenance.repeating_next (hg : Grounded C host name s) (hi : Provenance host context tr s)
    (h : HostStep C s i s' out) {j : Nat} (hj : s'.tasks j = some (.pairRepeat request result)) :
    SavedFor host context (tr ++ s.records C i out) request.sessionId result := by
  rcases h.task_cases hg.locks hj with ⟨hj, -⟩ | hinit | ⟨env, u, rfl, hu, -, -, -, ha⟩
  · exact (hi.repeating hj).append _
  · cases hinit
  · cases ha.enters hj with
    | serving h => cases h
    | pairRepeat hcomp hfin =>
      obtain ⟨-, k, c, hk, hlook, -, rfl⟩ :=
        PairingCode.finish_repeated hfin hcomp fun _ _ => hi.apart
      rw [hk]
      exact (hi.completed (PairingCode.completed_pruneSessions.mp hlook).1).append _

theorem Provenance.next (hg : Grounded C host name s)
    (hi : Provenance host ⟨name, hostVersion, protocolVersion, host.toText⟩ tr s)
    (h : HostStep C s i s' out) (hnew : drawsNew s i = true) :
    Provenance host ⟨name, hostVersion, protocolVersion, host.toText⟩
      (tr ++ s.records C i out) s' where
  pending hk := by
    rcases h.pending_cases hg hk with ⟨hcode, hk⟩ | ⟨hid, hopened, -⟩
    · obtain ⟨hid, hopened⟩ := hi.pending hk
      exact ⟨hid, hcode ▸ List.mem_append_left _ hopened⟩
    · exact ⟨hid, by simp [AppState.records, hopened]⟩
  apart hk := hi.apart_next hg h hnew hk
  completed hk := hi.completed_next hg h hk
  saving hj := hi.saving_next hg h hj
  committing hj := hi.committing_next hg h hj
  repeating hj := hi.repeating_next hg h hj

end

theorem Provenance.boot (h : AppState.boot hostname stored nextTask wall env = some s) :
    Provenance host context [] s := by
  obtain ⟨p, hp, rfl⟩ := boot_eq_some h
  obtain ⟨created, hfresh⟩ := startPairing_fresh hp
  have hpending {k} : p.pending.lookup k = none := by
    rw [hfresh]
    rfl
  have hcompleted {k} : p.completed.lookup k = none := by
    rw [hfresh]
    rfl
  exact ⟨by simp [hpending], by simp [hcompleted], by simp [hcompleted], by rintro _ _ _ ⟨⟩,
    by rintro _ _ _ ⟨⟩, by rintro _ _ _ ⟨⟩⟩

-- ---------------------------------------------------------------------------
-- Answers
-- ---------------------------------------------------------------------------

def completionResponse (C : Crates) (context : CredentialContext) (sessionId : Bytes)
    (result : PairingResult) :
    Response :=
  protobuf 200 (C.encodePairResponse {
    hostSpake2Message := result.hostMessage
    encryptionNonce := result.nonce.val
    encryptedCredential := result.encryptedCredential
    hostname := context.hostname
    hostVersion := context.hostVersion
    protocolVersion := context.protocolVersion
    hostId := context.hostId
    sessionId })

/-- A credential that is answered with has been saved. -/
def Backed (C : Crates) (host : Uuid) (context : CredentialContext) (past : List PairingEvent) :
    PairingEvent → Prop
  | .output (.completed _ request result response) =>
    SavedFor host context past request.sessionId result ∧
      response = completionResponse C context request.sessionId result
  | _ => True

theorem not_output_of_mem {C : Crates} {s : AppState}
    (he : e ∈ s.opens C i ++ s.encrypts C i) (o : Output) :
    e ≠ .output o := by
  rintro rfl
  rcases List.mem_append.mp he with he | he
  · unfold AppState.opens at he
    repeat' split at he
    all_goals
      simp only [List.mem_map, Option.mem_toList, List.not_mem_nil, reduceCtorEq,
        and_false, exists_false] at he
  · simp only [AppState.encrypts] at he
    repeat' split at he
    all_goals
      simp only [List.mem_singleton, List.not_mem_nil, reduceCtorEq] at he

theorem mem_of_records {C : Crates} {s : AppState} (h : .output o ∈ s.records C i out) :
    o ∈ out := by
  rcases List.mem_append.mp h with h | h
  · exact absurd rfl (not_output_of_mem h o)
  · obtain ⟨o', ho, heq⟩ := List.mem_map.mp h
    cases heq
    exact ho

theorem backed_of_mem {C : Crates} {s : AppState} (he : e ∈ s.opens C i ++ s.encrypts C i)
    (past : List PairingEvent) : Backed C host context past e := by
  cases e with
  | output o => exact absurd rfl (not_output_of_mem he o)
  | opened | issued => trivial

theorem Provenance.answers (hg : Grounded C host name s)
    (hi : Provenance host ⟨name, hostVersion, protocolVersion, host.toText⟩ tr s)
    (h : HostStep C s i s' out) :
    Justified (Backed C host ⟨name, hostVersion, protocolVersion, host.toText⟩) tr
      (s.records C i out) := by
  refine justified_append.mpr ⟨justified_of_forall (fun e he => backed_of_mem he) tr, ?_⟩
  by_cases hanswer : ∃ j request result response, .completed j request result response ∈ out
  · obtain ⟨j, request, result, response, ho⟩ := hanswer
    cases h with
    | @advanced id t env _ _ ht _ _ _ ha =>
      obtain ⟨rfl, rfl, rfl, -, -, hfrom⟩ := ha.completed ho
      have hsaved : SavedFor host ⟨name, hostVersion, protocolVersion, host.toText⟩ tr
          request.sessionId result := by
        rcases hfrom with ⟨rfl, -⟩ | ⟨rfl, -⟩
        · exact hi.repeating ht
        · exact hi.committing ht
      refine ⟨⟨hsaved.append _, ?_⟩, trivial⟩
      simp only [AppState.pairingResponse, completionResponse, AppState.tick,
        hg.identified.hostname, hg.identified.identity]
    | _ => simp at ho
  · refine justified_of_forall (fun e he past => ?_) _
    obtain ⟨o, ho, rfl⟩ := List.mem_map.mp he
    cases o with
    | completed j request result response => exact absurd ⟨j, request, result, response, ho⟩ hanswer
    | _ => trivial

theorem provenance_run (hboot : AppState.boot hostname stored nextTask wall env = some start)
    (h : Run (recordedStep C) (fun s i => drawsNew s i = true) start tr s) :
    Grounded C stored.hostId hostname s ∧
      Justified (Backed C stored.hostId ⟨hostname, hostVersion, protocolVersion,
        stored.hostId.toText⟩) [] tr := by
  have hinv := h.invariant (I := fun tr s => Grounded C stored.hostId hostname s ∧
    Provenance stored.hostId ⟨hostname, hostVersion, protocolVersion, stored.hostId.toText⟩ tr s ∧
    Justified (Backed C stored.hostId ⟨hostname, hostVersion, protocolVersion,
      stored.hostId.toText⟩) [] tr)
    ⟨.boot hboot, .boot hboot, trivial⟩ ?_
  · exact ⟨hinv.1, hinv.2.2⟩
  · rintro tr s i s' es ⟨hg, hi, hj⟩ hnew hs
    obtain ⟨⟨s'', out⟩, hstep, heq⟩ := Option.map_eq_some_iff.mp hs
    cases heq
    have hstep := hostStep_iff_cases hstep
    exact ⟨hg.next hstep, hi.next hg hstep hnew, justified_append.mpr ⟨hj, hi.answers hg hstep⟩⟩

theorem recorded_answers {id : Nat} (h : Run (recordedStep C) P start tr s)
    (hmem : .output (.answered id response) ∈ tr) : Answer C response := by
  refine h.invariant (I := fun tr _ => .output (.answered id response) ∈ tr → Answer C response)
    (by simp) ?_ hmem
  intro tr s i s' es ih _ hs hmem
  obtain ⟨⟨s'', out⟩, hstep, heq⟩ := Option.map_eq_some_iff.mp hs
  cases heq
  rcases List.mem_append.mp hmem with hmem | hmem
  · exact ih hmem
  · exact hostStep_answers hstep id response (mem_of_records hmem)

-- ---------------------------------------------------------------------------
-- The last pairing
-- ---------------------------------------------------------------------------

def PairingEvent.pairedCredential : PairingEvent → Option Credential
  | .output o => o.pairedCredential
  | _ => none

def lastPaired (start : Option Credential) (tr : List PairingEvent) : Option Credential :=
  latest (·.pairedCredential) start tr

theorem AppState.Continues.pairedCredential {id : Nat} (h : AppState.Continues s id c s' out) :
    out.filterMap (·.pairedCredential) = [] := by
  cases h <;> rfl

theorem AppState.Advance.pairs {id : Nat} (h : AppState.Advance C s env id t s' out)
    (hst : s.stored.credential = s.identity.credential) :
    out.filterMap (·.pairedCredential) = [] ∧ s'.stored.credential = s.stored.credential ∨
      ∃ credential, out.filterMap (·.pairedCredential) = [credential] ∧
        s'.stored.credential = some credential := by
  cases h with
  | statusVerified _ h | versionKnown h | versionSet h =>
    have hnone := h.pairedCredential
    obtain ⟨tasks, rfl⟩ := h.frame
    exact .inl ⟨hnone, rfl⟩
  | nonceSaved _ hu h =>
    have hnone := h.pairedCredential
    obtain ⟨tasks, rfl⟩ := h.frame
    subst hu
    exact .inl ⟨hnone, hst.symm⟩
  | versionSaved hu | genSaved _ hu =>
    subst hu
    exact .inl ⟨rfl, hst.symm⟩
  | pairSaved hu =>
    subst hu
    exact .inr ⟨_, rfl, rfl⟩
  | _ => exact .inl ⟨rfl, rfl⟩

theorem HostStep.pairs (h : HostStep C s i s' out)
    (hst : s.stored.credential = s.identity.credential) :
    out.filterMap (·.pairedCredential) = [] ∧ s'.stored.credential = s.stored.credential ∨
      ∃ credential, out.filterMap (·.pairedCredential) = [credential] ∧
        s'.stored.credential = some credential := by
  cases h with
  | answered | spawned | cancelled => exact .inl ⟨rfl, rfl⟩
  | advanced _ _ _ _ ha => exact ha.pairs hst
  | restarted hb =>
    obtain ⟨p, -, rfl⟩ := boot_eq_some hb
    exact .inl ⟨rfl, rfl⟩

theorem HostStep.credential (hg : Grounded C host name s) (h : HostStep C s i s' out)
    (hst : s.stored.credential = s.identity.credential) :
    s'.stored.credential = s'.identity.credential := by
  cases h with
  | answered | spawned | cancelled => exact hst
  | @advanced id t env _ _ ht _ _ _ ha =>
    exact (ha.credential hst fun _ _ heq => (hg.installs (heq ▸ ht)).stored).1
  | restarted hb =>
    obtain ⟨p, -, rfl⟩ := boot_eq_some hb
    rfl

theorem records_pairedCredential (C : Crates) (s : AppState) (i : Input) (out : List Output) :
    (s.records C i out).filterMap (·.pairedCredential) = out.filterMap (·.pairedCredential) := by
  have hnone : (s.opens C i ++ s.encrypts C i).filterMap (·.pairedCredential) = [] := by
    refine List.filterMap_eq_nil_iff.mpr fun e he => ?_
    cases e with
    | output o => exact absurd rfl (not_output_of_mem he o)
    | opened | issued => rfl
  rw [AppState.records, List.filterMap_append, hnone, List.filterMap_map]
  rfl

theorem lastPaired_run (hboot : AppState.boot hostname stored nextTask wall env = some start)
    (h : Run (recordedStep C) P start tr s) :
    s.stored.credential = lastPaired stored.credential tr := by
  refine (h.invariant (I := fun tr s => Grounded C stored.hostId hostname s ∧
    s.stored.credential = s.identity.credential ∧
    s.stored.credential = lastPaired stored.credential tr) ?_ ?_).2.2
  · have hg := Grounded.boot (C := C) hboot
    obtain ⟨p, -, rfl⟩ := boot_eq_some hboot
    exact ⟨hg, rfl, rfl⟩
  · rintro tr s i s' es ⟨hg, hst, hlast⟩ - hs
    obtain ⟨⟨s'', out⟩, hstep, heq⟩ := Option.map_eq_some_iff.mp hs
    cases heq
    have hstep := hostStep_iff_cases hstep
    refine ⟨hg.next hstep, hstep.credential hg hst, ?_⟩
    have hlast : s.stored.credential = latest (·.pairedCredential) stored.credential tr := hlast
    rw [lastPaired, latest_append, ← hlast, latest, records_pairedCredential]
    rcases hstep.pairs hst with ⟨hnone, heq⟩ | ⟨credential, hone, heq⟩
    · rw [hnone, heq]
      rfl
    · rw [hone, heq]
      rfl

end DeckyMyRig.Host
