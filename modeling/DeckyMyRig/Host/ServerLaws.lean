import DeckyMyRig.Host.Server
import DeckyMyRig.Lib.Runs

/-!
# What a step of the host does

`Advance` lists the outcomes of every task's step with the state it leaves;
`run_advance` says that there are no others. Over it, `Locks`: a lock is held
by the one task that is between its acquisition and its release, in every run.
-/

namespace DeckyMyRig.Host

open Octets Machine

namespace AppState

inductive Continues (s : AppState) (id : Nat) (caller : Caller) : AppState → List Output → Prop
  | answered : Continues s id caller (s.finish id) [.answered id response]
  | powered : caller.path = .shutdown →
      Continues s id caller (s.finish id) [.powerShutdown id caller, .answered id response]
  | version : Continues s id caller (s.goto id (.latestVersion caller version)) []
  | reply : caller.path = .status → Continues s id caller (s.goto id (.statusReply caller)) []

theorem served_continues (C : Crates) (s : AppState) (env : Env) (id : Nat) (caller : Caller) :
    s.Continues id caller (s.served C env id caller).1 (s.served C env id caller).2 := by
  unfold served
  split
  · exact .reply ‹_›
  · exact .powered ‹_›

theorem authenticated_continues (C : Crates) (s : AppState) (env : Env)
    (id : Nat) (caller : Caller) :
    s.Continues id caller (s.authenticated C env id caller).1
      (s.authenticated C env id caller).2 := by
  unfold authenticated
  simp only
  split
  · exact .answered
  · split
    · exact .answered
    · split
      · exact .answered
      · split
        · exact served_continues C s env id caller
        · exact .version

theorem Continues.frame {id : Nat} (h : Continues s id caller s' out) :
    ∃ tasks, s' = { s with tasks } := by
  cases h <;> exact ⟨_, rfl⟩

/-- Tasks that can be answered at once, and leave everything as it is. -/
def plain : Task → Bool
  | .credential .. | .statusReply _ | .pairCheck .. | .pairReply _ => true
  | _ => false

/-- The outcomes of a task's step; `s` is the state with the clocks moved on. -/
inductive Advance (C : Crates) (s : AppState) (env : Env) (id : Nat) :
    Task → AppState → List Output → Prop
  | answered : plain task = true → Advance C s env id task (s.finish id) [.answered id response]
  | credentialRead : s.identity.credential = some credential →
      Advance C s env id (.credential path http auth)
        (s.goto id (.verify path http auth credential (env.wall.headD 0))) []
  | notVerified : Advance C s env id (.verify path http auth credential now)
      ({ s with authenticator := a }.finish id) [.answered id response]
  | verified {nonce : Block 16} :
      s.authenticator.verify C credential.val
        ⟨auth.timestamp, auth.nonce, auth.signature, "POST".toList, path.text, http.body⟩ now =
          (a, .ok ()) →
      auth.nonce = nonce.val → path = .shutdown →
      Advance C s env id (.verify path http auth credential now)
        ({ s with authenticator := a }.goto id
          (.persistNonce ⟨path, http, auth, ⟨credential, nonce⟩⟩)) []
  | statusVerified : caller.path = .status →
      Continues { s with authenticator := a } id caller s' out →
      Advance C s env id (.verify path http auth credential now) s' out
  | nonceRefused : Advance C s env id (.persistNonce caller)
      ({ s with
        identity := { s.identity with
          acceptedShutdownNonces :=
            retainNonces s.identity.acceptedShutdownNonces env.wall } }.finish
        id) [.answered id response]
  | nonceSaved :
      (∀ seen ∈ retainNonces s.identity.acceptedShutdownNonces env.wall,
        seen.nonce ≠ caller.context.nonce) →
      updated = { s.identity with
        acceptedShutdownNonces := retainNonces s.identity.acceptedShutdownNonces env.wall ++
          [⟨caller.auth.timestamp, caller.context.nonce⟩] } →
      Continues { s with identity := updated, stored := updated } id caller s' out →
      Advance C s env id (.persistNonce caller) s' (.saved updated :: .accepted id caller :: out)
  | versionKnown : Continues s id caller s' out →
      Advance C s env id (.latestVersion caller version) s' out
  | versionNew : Advance C s env id (.latestVersion caller version)
      (s.goto id (.identityVersion caller version)) []
  | versionKept : Advance C s env id (.identityVersion caller version)
      ({ s with identityLock := some id }.goto id (.setLatest caller version)) []
  | versionSaved : updated = { s.identity with lastClientVersion := some version } →
      Advance C s env id (.identityVersion caller version)
        ({ s with identity := updated, stored := updated, identityLock := some id }.goto id
          (.setLatest caller version)) [.saved updated]
  | versionSet : Continues { s with latestClientVersion := some version, identityLock := none } id
      caller
        s' out →
      Advance C s env id (.setLatest caller version) s' out
  | pairChecked : ¬ (s.identity.credential.isSome ∧ s.identity.pairingCode.isNone) →
      Advance C s env id (.pairCheck clientMessage source)
        (s.goto id (.pairStart clientMessage source)) []
  | notStarted : s.pairing.startForSource C clientMessage source env.r env.entropy env.sessionId =
        (p, .error e) →
      Advance C s env id (.pairStart clientMessage source) ({ s with pairing := p }.finish id)
        [.answered id (pairingFailed C e)]
  | started : s.pairing.startForSource C clientMessage source env.r env.entropy env.sessionId =
        (p, .ok start) →
      Advance C s env id (.pairStart clientMessage source)
        ({ s with pairing := p }.goto id (.pairReply start))
        [.started id start]
  | hostIdRead : Advance C s env id (.pairHostId request)
      (s.goto id (.pairFinish request s.identity.hostId.toText)) []
  | notFinished : s.pairing.finish C request.sessionId request.clientConfirmation
        (s.credentialContext hostId) env.r env.credential env.nonce = (p, .error e) →
      Advance C s env id (.pairFinish request hostId) ({ s with pairing := p }.finish id)
        [.answered id (pairingFailed C e)]
  | finished : s.pairing.finish C request.sessionId request.clientConfirmation
        (s.credentialContext hostId) env.r env.credential env.nonce = (p, .ok result) →
      Advance C s env id (.pairFinish request hostId)
        ({ s with pairing := p, pairingLock := some id }.goto id
          (if s.pairing.isCompleted request.sessionId then .pairRepeat request result
            else .pairSave request result)) []
  | repeated : Advance C s env id (.pairRepeat request result)
      ({ s with pairingLock := none }.finish id)
      [.completed id request result (s.pairingResponse C request.sessionId result)]
  | pairSaved : updated = pairedIdentity s.identity result.credential →
      Advance C s env id (.pairSave request result)
        ({ s with identity := updated, stored := updated, identityLock := some id }.goto id
          (.pairCommit request result)) [.saved updated, .paired id request result]
  | pairNotSaved : Advance C s env id (.pairSave request result)
      ({ s with pairingLock := none }.finish id) [.answered id response]
  | committed : s.pairing.commit request.sessionId request.clientConfirmation result env.r =
        (p, .ok ()) →
      Advance C s env id (.pairCommit request result)
        ({ s with pairing := p, identityLock := none, pairingLock := none }.finish id)
        [.completed id request result (s.pairingResponse C request.sessionId result)]
  | notCommitted : s.pairing.commit request.sessionId request.clientConfirmation result env.r =
        (p, .error e) →
      Advance C s env id (.pairCommit request result)
        ({ s with pairing := p, identityLock := none, pairingLock := none }.finish id)
        [.expectFailed id]
  | panicked : s.pairing.commit request.sessionId request.clientConfirmation result env.r =
        (p, .panic) →
      Advance C s env id (.pairCommit request result)
        ({ s with pairing := p, identityLock := none, pairingLock := none }.finish id)
        [.panicked id]
  | genLocked : Advance C s env id .genPairing
      ({ s with pairingLock := some id }.goto id .genIdentity) []
  | genSaved : generated = PairingCode.generate env.value env.r.first →
      updated = { s.identity with
        pairingCode := some generated.code.val, pairingCreatedAt := env.wall.headD 0 } →
      Advance C s env id .genIdentity
        ({ s with stored := updated, identityLock := some id }.goto id
          (.genInstall generated updated))
        [.saved updated]
  | genNotSaved : Advance C s env id .genIdentity ({ s with pairingLock := none }.finish id)
      [.generateFailed id]
  | genInstalled : Advance C s env id (.genInstall generated updated)
      ({ s with
        identity := updated, pairing := generated, identityLock := none,
        pairingLock := none }.finish id)
      [.generated id state]

theorem verify_advance (C : Crates) (s : AppState) (env : Env) (id : Nat) (path : Path)
    (http : HttpRequest) (auth : AuthHeaders) (credential : Credential) (now : Nat) :
    Advance C s env id (.verify path http auth credential now)
      (s.verify C env id path http auth credential now).1
      (s.verify C env id path http auth credential now).2 := by
  unfold verify
  simp only
  split
  · exact .notVerified
  · rename_i hv
    split
    · exact .notVerified
    · rename_i nonce hn
      split
      · exact .verified (Prod.ext rfl hv) (Block.ofBytes_eq_some.mp hn) rfl
      · exact .statusVerified rfl (authenticated_continues ..)

theorem persistNonce_advance (C : Crates) (s : AppState) (env : Env) (id : Nat) (caller : Caller) :
    Advance C s env id (.persistNonce caller) (s.persistNonce C env id caller).1
      (s.persistNonce C env id caller).2 := by
  unfold persistNonce
  simp only
  split
  · exact .nonceRefused
  · rename_i hnew
    split
    · refine .nonceSaved ?_ rfl (authenticated_continues ..)
      simpa using hnew
    · exact .nonceRefused

theorem run_advance (C : Crates) (s : AppState) (env : Env) (id : Nat) (task : Task) :
    Advance C s env id task (s.run C env id task).1 (s.run C env id task).2 := by
  cases task with
  | credential path http auth =>
    simp only [run]
    split
    · exact .answered rfl
    · exact .credentialRead ‹_›
  | verify path http auth credential now => exact verify_advance ..
  | persistNonce caller => exact persistNonce_advance ..
  | latestVersion caller version =>
    simp only [run]
    split
    · exact .versionKnown (served_continues ..)
    · exact .versionNew
  | identityVersion caller version =>
    simp only [run, identityVersion]
    split
    · exact .versionSaved rfl
    · exact .versionKept
  | setLatest caller version => exact .versionSet (served_continues ..)
  | statusReply caller => exact .answered rfl
  | pairCheck clientMessage source =>
    simp only [run, pairCheck]
    split
    · exact .answered rfl
    · exact .pairChecked ‹_›
  | pairStart clientMessage source =>
    simp only [run, pairStart]
    split
    · exact .notStarted (Prod.ext rfl ‹_›)
    · exact .started (Prod.ext rfl ‹_›)
  | pairReply started => exact .answered rfl
  | pairHostId request => exact .hostIdRead
  | pairFinish request hostId =>
    simp only [run, pairFinish]
    split
    · exact .notFinished (Prod.ext rfl ‹_›)
    · exact .finished (Prod.ext rfl ‹_›)
  | pairRepeat request result => exact .repeated
  | pairSave request result =>
    simp only [run, pairSave]
    split
    · exact .pairSaved rfl
    · exact .pairNotSaved
  | pairCommit request result =>
    simp only [run, pairCommit]
    split
    · exact .committed (Prod.ext rfl ‹_›)
    · exact .notCommitted (Prod.ext rfl ‹_›)
    · exact .panicked (Prod.ext rfl ‹_›)
  | genPairing => exact .genLocked
  | genIdentity =>
    simp only [run, genIdentity]
    split
    · exact .genSaved rfl rfl
    · exact .genNotSaved
  | genInstall generated updated => exact .genInstalled

theorem Advance.clocks {id : Nat} (h : Advance C s env id t s' out) :
    s'.clock = s.clock ∧ s'.wall = s.wall ∧ s'.hostname = s.hostname := by
  cases h with
  | statusVerified _ h | nonceSaved _ _ h | versionKnown h | versionSet h =>
    obtain ⟨tasks, rfl⟩ := h.frame
    exact ⟨rfl, rfl, rfl⟩
  | _ => exact ⟨rfl, rfl, rfl⟩

end AppState

-- ---------------------------------------------------------------------------
-- From task to task
-- ---------------------------------------------------------------------------

def Task.serving : Task → Bool
  | .latestVersion .. | .statusReply _ => true
  | _ => false

namespace AppState

theorem goto_task {s : AppState} {id : Nat} (h : (s.goto id t).tasks id = some u) : t = u := by
  simpa [goto] using h

theorem Continues.serving {s s' : AppState} {id : Nat} (h : s.Continues id c s' out)
    (ht : s'.tasks id = some t) : t.serving = true := by
  cases h with
  | answered | powered => simp [finish] at ht
  | version | reply =>
    obtain rfl := goto_task ht
    rfl

/-- The step that leaves a handler at a task: the task it was at, what the step
found there and what it did. -/
inductive Enters (C : Crates) (s : AppState) (env : Env) (id : Nat) (s' : AppState) :
    Task → List Output → Task → Prop
  | serving : u.serving = true → Enters C s env id s' t out u
  | verify : s.identity.credential = some credential →
      Enters C s env id s' (.credential path http auth) []
        (.verify path http auth credential (env.wall.headD 0))
  | persistNonce {nonce : Block 16} :
      s.authenticator.verify C credential.val
        ⟨auth.timestamp, auth.nonce, auth.signature, "POST".toList, path.text, http.body⟩ now =
          (s'.authenticator, .ok ()) →
      auth.nonce = nonce.val → path = .shutdown →
      Enters C s env id s' (.verify path http auth credential now) []
        (.persistNonce ⟨path, http, auth, ⟨credential, nonce⟩⟩)
  | identityVersion : Enters C s env id s' (.latestVersion caller version) []
      (.identityVersion caller version)
  | setLatest : Enters C s env id s' (.identityVersion caller version) out
      (.setLatest caller version)
  | pairStart : Enters C s env id s' (.pairCheck clientMessage source) []
      (.pairStart clientMessage source)
  | pairReply : Enters C s env id s' (.pairStart clientMessage source)
      [.started id start] (.pairReply start)
  | pairFinish : Enters C s env id s' (.pairHostId request) []
      (.pairFinish request s.identity.hostId.toText)
  | pairRepeat : s.pairing.isCompleted request.sessionId = true →
      s.pairing.finish C request.sessionId request.clientConfirmation (s.credentialContext hostId)
        env.r env.credential env.nonce = (s'.pairing, .ok result) →
      Enters C s env id s' (.pairFinish request hostId) [] (.pairRepeat request result)
  | pairSave : s.pairing.isCompleted request.sessionId = false →
      s.pairing.finish C request.sessionId request.clientConfirmation (s.credentialContext hostId)
        env.r env.credential env.nonce = (s'.pairing, .ok result) →
      Enters C s env id s' (.pairFinish request hostId) [] (.pairSave request result)
  | pairCommit : s'.identity = pairedIdentity s.identity result.credential →
      s'.pairing = s.pairing → Enters C s env id s' (.pairSave request result)
        [.saved (pairedIdentity s.identity result.credential), .paired id request result]
        (.pairCommit request result)
  | genIdentity : Enters C s env id s' .genPairing [] .genIdentity
  | genInstall : generated = PairingCode.generate env.value env.r.first →
      updated.pairingCode = some generated.code.val → s'.stored = updated →
      Enters C s env id s' .genIdentity [.saved updated] (.genInstall generated updated)

theorem Advance.enters {id : Nat} (h : Advance C s env id t s' out) (ht : s'.tasks id = some u) :
    Enters C s env id s' t out u := by
  cases h with
  | statusVerified _ h | nonceSaved _ _ h | versionKnown h | versionSet h =>
    exact .serving (h.serving ht)
  | credentialRead hc =>
    obtain rfl := goto_task ht
    exact .verify hc
  | verified hv hn hpath =>
    obtain rfl := goto_task ht
    exact .persistNonce hv hn hpath
  | versionNew =>
    obtain rfl := goto_task ht
    exact .identityVersion
  | versionKept | versionSaved =>
    obtain rfl := goto_task ht
    exact .setLatest
  | pairChecked =>
    obtain rfl := goto_task ht
    exact .pairStart
  | started =>
    obtain rfl := goto_task ht
    exact .pairReply
  | hostIdRead =>
    obtain rfl := goto_task ht
    exact .pairFinish
  | finished hf =>
    obtain rfl := goto_task ht
    split
    · exact .pairRepeat ‹_› hf
    · exact .pairSave (Bool.eq_false_iff.mpr ‹_›) hf
  | pairSaved hu =>
    obtain rfl := goto_task ht
    subst hu
    exact .pairCommit rfl rfl
  | genLocked =>
    obtain rfl := goto_task ht
    exact .genIdentity
  | genSaved hg hu =>
    obtain rfl := goto_task ht
    exact .genInstall hg (by rw [hu]) rfl
  | _ => simp [finish] at ht

end AppState

-- ---------------------------------------------------------------------------
-- Steps
-- ---------------------------------------------------------------------------

def Task.initial : Task → Bool
  | .credential .. | .pairCheck .. | .pairHostId _ | .genPairing => true
  | _ => false

/-- Between a save and what follows it there is no place to drop a handler. -/
def Task.saved : Task → Bool
  | .pairCommit .. | .genInstall .. => true
  | _ => false

def AppState.dropped (s : AppState) (id : Nat) : AppState :=
  { s.finish id with
    identityLock := if s.identityLock = some id then none else s.identityLock
    pairingLock := if s.pairingLock = some id then none else s.pairingLock }

inductive HostStep (C : Crates) (s : AppState) : Input → AppState → List Output → Prop
  | answered : HostStep C s (.request request) { s with nextTask := s.nextTask + 1 }
      [.answered s.nextTask response]
  | spawned : task.initial = true →
      HostStep C s (.request request)
        ({ s with nextTask := s.nextTask + 1 }.goto s.nextTask task) []
  | advanced {id : Nat} {task : Task} {env : Env} {s' : AppState} {out : List Output} :
      s.tasks id = some task → s.free task.awaits →
      env.wall.length = s.wallReadings task → s.clock ≤ env.r.first →
      AppState.Advance C (s.tick env) env id task s' out → HostStep C s (.advance id env) s' out
  | cancelled {id : Nat} {task : Task} : s.tasks id = some task → task.saved = false →
      HostStep C s (.cancel id) (s.dropped id) []
  | restarted : AppState.boot s.hostname s.stored s.nextTask s.wall env = some s' →
      HostStep C s (.restart env) s' [.restarted]

theorem route_initial (h : AppState.route C request = .inr task) : task.initial = true := by
  unfold AppState.route at h
  repeat' split at h
  all_goals
    cases h
    try rfl

theorem hostStep_iff_cases (h : hostStep C s i = some (s', out)) : HostStep C s i s' out := by
  cases i with
  | request request =>
    simp only [hostStep, AppState.receive, Option.some.injEq] at h
    split at h
    · cases h
      exact .answered
    · rename_i task hadm
      cases h
      exact .spawned (route_initial hadm)
  | advance id env =>
    simp only [hostStep, AppState.advance] at h
    split at h
    · cases h
    · rename_i task ht
      split at h
      · rename_i hen
        obtain ⟨rfl, rfl⟩ := Prod.mk.inj (Option.some.inj h)
        exact .advanced ht hen.1 hen.2.1 hen.2.2 (AppState.run_advance ..)
      · cases h
  | cancel id =>
    obtain ⟨s'', hc, heq⟩ := Option.map_eq_some_iff.mp h
    cases heq
    unfold AppState.cancel at hc
    split at hc
    · cases hc
    · cases hc
    · cases hc
    · rename_i task hne hne' ht
      cases hc
      refine .cancelled ht ?_
      cases task <;> first | rfl | exact absurd rfl (hne _ _) | exact absurd rfl (hne' _ _)
  | restart env =>
    obtain ⟨s'', hb, heq⟩ := Option.map_eq_some_iff.mp h
    cases heq
    exact .restarted hb

theorem hostStep_run {id : Nat} (h : hostStep C s (.advance id env) = some (s', out))
    (ht : s.tasks id = some t) : (s.tick env).run C env id t = (s', out) := by
  simp only [hostStep, AppState.advance, ht] at h
  split at h
  · exact Option.some.inj h
  · cases h

-- ---------------------------------------------------------------------------
-- Locks
-- ---------------------------------------------------------------------------

def Task.holds : Lock → Task → Bool
  | .identity, .setLatest .. | .identity, .pairCommit .. | .identity, .genInstall .. => true
  | .pairing, .pairRepeat .. | .pairing, .pairSave .. | .pairing, .pairCommit ..
  | .pairing, .genIdentity
  | .pairing, .genInstall .. => true
  | _, _ => false

def AppState.lock (s : AppState) : Lock → Option Nat
  | .identity => s.identityLock
  | .pairing => s.pairingLock

structure Locks (s : AppState) : Prop where
  holder : ∀ l id, s.lock l = some id ↔ ∃ t, s.tasks id = some t ∧ t.holds l = true
  unborn : ∀ id, s.nextTask ≤ id → s.tasks id = none

/-- A lock after a step of its task, which held it `before` and holds it
`after`. -/
def moved (lock : Option Nat) (id : Nat) (before after : Bool) : Option Nat :=
  if before = after then lock else if after then some id else none

structure Moves (s : AppState) (id : Nat) (t : Task) (t' : Option Task) (s' : AppState) : Prop where
  tasks : s'.tasks = fun i => if i = id then t' else s.tasks i
  nextTask : s'.nextTask = s.nextTask
  lock : ∀ l, s'.lock l = moved (s.lock l) id (t.holds l) (t'.any (·.holds l))
  taken : ∀ l, t'.any (·.holds l) = true → t.holds l = true ∨ t.awaits = some l

theorem Locks.move {id : Nat} (hl : Locks s) (ht : s.tasks id = some t) (hf : s.free t.awaits)
    (hm : Moves s id t t' s') : Locks s' := by
  have hown (l) (h : t.holds l = true) : s.lock l = some id := (hl.holder l id).mpr ⟨t, ht, h⟩
  have hfree (l) (h : t.awaits = some l) : s.lock l = none := by
    rw [h] at hf
    cases l <;> exact hf
  refine ⟨fun l i => ?_, fun i hi => ?_⟩
  · rw [hm.lock, hm.tasks]
    by_cases hi : i = id
    · subst hi
      simp only [↓reduceIte]
      cases h' : t'.any (·.holds l) with
      | true =>
        have hex : ∃ x, t' = some x ∧ x.holds l = true := Option.any_eq_true _ _ |>.mp h'
        refine iff_of_true ?_ hex
        cases hb : t.holds l with
        | true => simpa [moved] using hown l hb
        | false => simp [moved]
      | false =>
        have hno : ¬ ∃ x, t' = some x ∧ x.holds l = true := by
          rintro ⟨x, rfl, hx⟩
          simp [hx] at h'
        refine iff_of_false ?_ hno
        cases hb : t.holds l with
        | true => simp [moved]
        | false =>
          simp only [moved, ↓reduceIte]
          intro hlock
          obtain ⟨x, hx, hh⟩ := (hl.holder l i).mp hlock
          rw [ht] at hx
          cases hx
          rw [hb] at hh
          cases hh
    · simp only [hi, ↓reduceIte]
      rw [← hl.holder l i]
      unfold moved
      split
      · rfl
      · rename_i hne
        split
        · rename_i h'
          rcases hm.taken l h' with hb | hw
          · exact absurd (hb.trans h'.symm) hne
          · rw [hfree l hw]
            simpa using Ne.symm hi
        · rename_i h'
          have hb : t.holds l = true := by
            cases hb : t.holds l with
            | true => rfl
            | false => exact absurd (hb.trans (Bool.eq_false_iff.mpr h').symm) hne
          rw [hown l hb]
          simpa using Ne.symm hi
  · rw [hm.tasks]
    rw [hm.nextTask] at hi
    by_cases heq : i = id
    · subst heq
      rw [hl.unborn i hi] at ht
      cases ht
    · simpa [heq] using hl.unborn i hi

theorem plain_holds (h : AppState.plain t = true) (l : Lock) : t.holds l = false := by
  cases t <;> first | (cases l <;> rfl) | cases h

theorem AppState.Continues.moves {s u s' : AppState} {id : Nat} (h : u.Continues id caller s' out)
    (htasks : u.tasks = s.tasks) (hnext : u.nextTask = s.nextTask)
    (hlock : ∀ l, u.lock l = moved (s.lock l) id (t.holds l) false) :
    ∃ t', Moves s id t t' s' := by
  cases h with
  | answered =>
    exact ⟨none, by simp [AppState.finish, htasks], hnext,
      fun | .identity => hlock .identity | .pairing => hlock .pairing, by simp⟩
  | powered =>
    exact ⟨none, by simp [AppState.finish, htasks], hnext,
      fun | .identity => hlock .identity | .pairing => hlock .pairing, by simp⟩
  | @version v =>
    exact ⟨some (.latestVersion caller v), by simp [AppState.goto, htasks], hnext,
      fun | .identity => hlock .identity | .pairing => hlock .pairing, by rintro (_ | _) ⟨⟩⟩
  | reply =>
    exact ⟨some (.statusReply caller), by simp [AppState.goto, htasks], hnext,
      fun | .identity => hlock .identity | .pairing => hlock .pairing, by rintro (_ | _) ⟨⟩⟩

theorem AppState.Advance.moves {id : Nat} (h : AppState.Advance C s env id t s' out) :
    ∃ t', Moves s id t t' s' := by
  cases h with
  | answered hp =>
    refine ⟨none, rfl, rfl, fun l => ?_, by simp⟩
    rw [plain_holds hp]
    cases l <;> rfl
  | statusVerified _ h | nonceSaved _ _ h | versionKnown h | versionSet h =>
    exact h.moves rfl rfl fun l => by cases l <;> rfl
  | finished hf =>
    refine ⟨_, rfl, rfl, ?_, ?_⟩
    · rintro (_ | _) <;> split <;> rfl
    · rintro (_ | _) <;> split <;> simp [Task.holds, Task.awaits]
  | _ =>
    refine ⟨_, rfl, rfl, ?_, ?_⟩
    · rintro (_ | _) <;> rfl
    · rintro (_ | _) <;> simp [Task.holds, Task.awaits]

theorem initial_holds (h : Task.initial t = true) (l : Lock) : t.holds l = false := by
  cases t <;> first | (cases l <;> rfl) | cases h

theorem boot_eq_some (h : AppState.boot hostname stored nextTask wall env = some s) :
    ∃ p, stored.startPairing (env.wall.headD 0) env.r.first env.value = .ok p ∧
      s = ⟨hostname, stored, stored, p, .new, stored.lastClientVersion, none, none, fun _ => none,
        nextTask, env.r.last, (env.wall.getLast?).getD wall⟩ := by
  unfold AppState.boot at h
  by_cases hw : env.wall.length = if stored.pairingCode.isSome then 1 else 0
  · rw [if_pos hw] at h
    split at h
    · rename_i p hp
      cases h
      exact ⟨p, hp, rfl⟩
    · cases h
  · rw [if_neg hw] at h
    cases h

theorem boot_ok {env : Env} {stored : HostIdentity}
    (hw : env.wall.length = if stored.pairingCode.isSome then 1 else 0)
    (hp : stored.startPairing (env.wall.headD 0) env.r.first env.value = .ok p) :
    AppState.boot hostname stored nextTask wall env =
      some ⟨hostname, stored, stored, p, .new, stored.lastClientVersion, none, none, fun _ => none,
        nextTask, env.r.last, (env.wall.getLast?).getD wall⟩ := by
  unfold AppState.boot
  rw [if_pos hw, hp]

theorem Locks.boot (h : AppState.boot hostname stored nextTask wall env = some s) : Locks s := by
  obtain ⟨p, -, rfl⟩ := boot_eq_some h
  refine ⟨fun l i => ?_, fun _ _ => rfl⟩
  refine iff_of_false ?_ (by rintro ⟨t, ⟨⟩, -⟩)
  cases l <;> rintro ⟨⟩

theorem Locks.spawn (hl : Locks s) (ht : Task.initial t = true) :
    Locks ({ s with nextTask := s.nextTask + 1 }.goto s.nextTask t) := by
  refine ⟨fun l i => ?_, fun i hi => ?_⟩
  · have hlock : AppState.lock ({ s with nextTask := s.nextTask + 1 }.goto s.nextTask t) l =
      s.lock l := by
      cases l <;> rfl
    rw [hlock, hl.holder]
    by_cases hi : i = s.nextTask
    · simp [AppState.goto, hi, hl.unborn _ (Nat.le_refl _), initial_holds ht]
    · simp [AppState.goto, hi]
  · have hne : i ≠ s.nextTask := Nat.ne_of_gt hi
    simpa [AppState.goto, hne] using hl.unborn i (Nat.le_of_succ_le hi)

theorem Locks.drop {id : Nat} (hl : Locks s) : Locks (s.dropped id) := by
  refine ⟨fun l i => ?_, fun i hi => ?_⟩
  · have hlock : (s.dropped id).lock l = if s.lock l = some id then none else s.lock l := by
      cases l <;> rfl
    rw [hlock]
    by_cases hi : i = id
    · refine iff_of_false ?_ (by rintro ⟨t, ht, -⟩; simp [AppState.dropped,
        AppState.finish, hi] at ht)
      split
      · simp
      · rwa [hi]
    · have : (s.dropped id).tasks i = s.tasks i := by simp [AppState.dropped, AppState.finish, hi]
      rw [this, ← hl.holder]
      split
      · rename_i hl'
        rw [hl']
        simpa using Ne.symm hi
      · rfl
  · by_cases h : i = id
    · simp [AppState.dropped, AppState.finish, h]
    · simpa [AppState.dropped, AppState.finish, h] using hl.unborn i hi

theorem Locks.congr (hl : Locks s) (ht : s'.tasks = s.tasks) (hlock : s'.lock = s.lock)
    (hn : s.nextTask ≤ s'.nextTask) : Locks s' := by
  refine ⟨fun l i => ?_, fun i hi => ?_⟩
  · rw [hlock, ht]
    exact hl.holder l i
  · rw [ht]
    exact hl.unborn i (hn.trans hi)

theorem AppState.lock_ext {s s' : AppState} (h : s'.identityLock = s.identityLock)
    (h' : s'.pairingLock = s.pairingLock) : s'.lock = s.lock := by
  funext l
  cases l
  · exact h
  · exact h'

theorem Locks.tick (hl : Locks s) : Locks (s.tick env) :=
  hl.congr rfl (AppState.lock_ext rfl rfl) (Nat.le_refl _)

theorem AppState.free_tick {s : AppState} : (s.tick env).free w ↔ s.free w := by
  cases w with
  | none => exact Iff.rfl
  | some l => cases l <;> exact Iff.rfl

theorem Locks.next (hl : Locks s) (h : HostStep C s i s' out) : Locks s' := by
  cases h with
  | answered => exact hl.congr rfl (AppState.lock_ext rfl rfl) (Nat.le_succ _)
  | spawned ht => exact hl.spawn ht
  | advanced ht hf _ _ ha =>
    obtain ⟨t', hm⟩ := ha.moves
    exact hl.tick.move ht (AppState.free_tick.mpr hf) hm
  | cancelled => exact hl.drop
  | restarted hb => exact .boot hb

-- ---------------------------------------------------------------------------
-- What a lock protects
-- ---------------------------------------------------------------------------

theorem AppState.Advance.identity_eq {id : Nat} (h : AppState.Advance C s env id t s' out)
    (hw : t.awaits ≠ some .identity) (hh : t.holds .identity = false) :
    s'.identity = s.identity ∧ s'.stored = s.stored := by
  cases h with
  | statusVerified _ h | versionKnown h =>
    obtain ⟨tasks, rfl⟩ := h.frame
    exact ⟨rfl, rfl⟩
  | nonceRefused | nonceSaved | versionSaved | pairSaved | genSaved => exact absurd rfl hw
  | versionSet | genInstalled => cases hh
  | _ => exact ⟨rfl, rfl⟩

theorem AppState.Advance.pairing_eq {id : Nat} (h : AppState.Advance C s env id t s' out)
    (hw : t.awaits ≠ some .pairing) (hh : t.holds .pairing = false) : s'.pairing = s.pairing := by
  cases h with
  | statusVerified _ h | nonceSaved _ _ h | versionKnown h | versionSet h =>
    obtain ⟨tasks, rfl⟩ := h.frame
    rfl
  | notStarted | started | notFinished | finished => exact absurd rfl hw
  | committed | notCommitted | panicked | genInstalled => cases hh
  | _ => rfl

/-- While one task holds a lock, a step of another neither waits for it nor
holds it. -/
theorem Locks.excludes {id j : Nat} (hl : Locks s) (hj : s.tasks j = some u) (hu : u.holds l = true)
    (ht : s.tasks id = some t) (hf : s.free t.awaits) (hne : j ≠ id) :
    t.awaits ≠ some l ∧ t.holds l = false := by
  have hlock := (hl.holder l j).mpr ⟨u, hj, hu⟩
  refine ⟨fun hw => ?_, Bool.eq_false_iff.mpr fun hh => ?_⟩
  · rw [hw] at hf
    cases l <;> cases hf.symm.trans hlock
  · have := (hl.holder l id).mpr ⟨t, ht, hh⟩
    exact hne (Option.some.inj (hlock.symm.trans this))

structure Undisturbed (s s' : AppState) (t : Task) : Prop where
  identity : t.holds .identity = true → s'.identity = s.identity ∧ s'.stored = s.stored
  pairing : t.holds .pairing = true → s'.pairing = s.pairing

theorem HostStep.task_cases {j : Nat} (hl : Locks s) (h : HostStep C s i s' out)
    (ht : s'.tasks j = some t) :
    s.tasks j = some t ∧ Undisturbed s s' t ∨ t.initial = true ∨
      ∃ env u, i = .advance j env ∧ s.tasks j = some u ∧ s.free u.awaits ∧
        env.wall.length = s.wallReadings u ∧ s.clock ≤ env.r.first ∧
        AppState.Advance C (s.tick env) env j u s' out := by
  cases h with
  | answered => exact .inl ⟨ht, fun _ => ⟨rfl, rfl⟩, fun _ => rfl⟩
  | spawned hinit =>
    simp only [AppState.goto] at ht
    split at ht
    · cases ht
      exact .inr (.inl hinit)
    · exact .inl ⟨ht, fun _ => ⟨rfl, rfl⟩, fun _ => rfl⟩
  | @advanced id u env _ _ hu hf hw hc ha =>
    by_cases hne : j = id
    · subst hne
      exact .inr (.inr ⟨env, u, rfl, hu, hf, hw, hc, ha⟩)
    · obtain ⟨u', hm⟩ := ha.moves
      have hj : s.tasks j = some t := by simpa [hm.tasks, hne, AppState.tick] using ht
      refine .inl ⟨hj, fun hh => ?_, fun hh => ?_⟩
      · obtain ⟨hw, hn⟩ := hl.excludes hj hh hu hf hne
        exact ha.identity_eq hw hn
      · obtain ⟨hw, hn⟩ := hl.excludes hj hh hu hf hne
        exact ha.pairing_eq hw hn
  | cancelled =>
    simp only [AppState.dropped, AppState.finish] at ht
    split at ht
    · cases ht
    · exact .inl ⟨ht, fun _ => ⟨rfl, rfl⟩, fun _ => rfl⟩
  | restarted hb =>
    obtain ⟨p, -, rfl⟩ := boot_eq_some hb
    cases ht

/-- A task stays as it is, with what it keeps to itself, until it goes on, is
dropped or ends with the process. -/
theorem HostStep.keeps_task {j : Nat} (hl : Locks s) (h : HostStep C s i s' out)
    (hj : s.tasks j = some u) :
    s'.tasks j = some u ∧ Undisturbed s s' u ∨ (∃ env, i = .advance j env) ∨ i = .cancel j ∨
      ∃ env, i = .restart env := by
  cases h with
  | answered => exact .inl ⟨hj, fun _ => ⟨rfl, rfl⟩, fun _ => rfl⟩
  | spawned =>
    have hne : j ≠ s.nextTask := by
      rintro rfl
      rw [hl.unborn _ (Nat.le_refl _)] at hj
      cases hj
    exact .inl ⟨by simpa [AppState.goto, hne] using hj, fun _ => ⟨rfl, rfl⟩, fun _ => rfl⟩
  | @advanced id t env _ _ ht hf _ _ ha =>
    by_cases hne : j = id
    · exact .inr (.inl ⟨env, hne ▸ rfl⟩)
    · obtain ⟨t', hm⟩ := ha.moves
      refine .inl ⟨by simpa [hm.tasks, hne, AppState.tick] using hj, fun hh => ?_, fun hh => ?_⟩
      · obtain ⟨hw, hn⟩ := hl.excludes hj hh ht hf hne
        exact ha.identity_eq hw hn
      · obtain ⟨hw, hn⟩ := hl.excludes hj hh ht hf hne
        exact ha.pairing_eq hw hn
  | @cancelled id =>
    by_cases hne : j = id
    · exact .inr (.inr (.inl (hne ▸ rfl)))
    · exact .inl ⟨by simpa [AppState.dropped, AppState.finish, hne] using hj, fun _ =>
        ⟨rfl, rfl⟩, fun _ => rfl⟩
  | restarted => exact .inr (.inr (.inr ⟨_, rfl⟩))

theorem HostStep.keeps_saved {j : Nat} (hl : Locks s) (h : HostStep C s i s' out)
    (hj : s.tasks j = some u) (hu : u.saved = true) :
    s'.tasks j = some u ∨ (∃ env, i = .advance j env) ∨ ∃ env, i = .restart env := by
  rcases h.keeps_task hl hj with ⟨hj', -⟩ | hadvance | rfl | hrestart
  · exact .inl hj'
  · exact .inr (.inl hadvance)
  · cases h with
    | cancelled ht hsaved =>
      cases ht.symm.trans hj
      rw [hu] at hsaved
      cases hsaved
  · exact .inr (.inr hrestart)

end DeckyMyRig.Host
