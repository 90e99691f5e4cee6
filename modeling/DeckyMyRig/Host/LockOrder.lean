import DeckyMyRig.Host.ServerLaws
import DeckyMyRig.Lib.Locks

/-!
# The mutexes of the host

What `host/src/server.rs`, `management.rs` and `auth.rs` take and give back of
the five mutexes, along every branch. A guard in a `let` is given back at the
end of its block, one in a `match` scrutinee at the end of the `match`, and a
temporary in an `if` condition or in any other statement at its end. Parts of a
handler have their own names here where the running host has a task for what is
left of it (`Task.code`), and every step of the running host is a walk through
these programs (`hostStep_walks`).
-/

namespace DeckyMyRig.Host

open Machine Locking

inductive Mutex
  | identity
  | pairing
  | latestClientVersion
  | acceptedNonces
  | failures
  deriving DecidableEq

abbrev Program := Locking.Code Mutex

namespace Takes

def failed (next : Program) : Program := .acquire .failures (.release .failures next)

def verify (ok err : Program) : Program :=
  -- a stale timestamp, a key that is refused, a malformed message, a wrong signature
  .branch (failed err) (.branch err (.branch (failed err) (.branch (failed err)
    (.acquire .acceptedNonces
      (.branch (.release .acceptedNonces err) (.release .acceptedNonces ok))))))

/-- The nonce of a shutdown in `authenticate`: seen before, not saved, saved. -/
def persistNonce (ok err : Program) : Program :=
  .acquire .identity
    (.branch (.release .identity err) (.branch (.release .identity err) (.release .identity ok)))

/-- `authenticate` from `verify` on. -/
def verified (path : Path) (ok err : Program) : Program :=
  verify (.branch err (match path with
    | .shutdown => persistNonce ok err
    | .status => ok)) err

def credential (path : Path) (ok err : Program) : Program :=
  .acquire .identity (.branch (.release .identity err) (.release .identity (verified path ok err)))

def authenticate (path : Path) (ok err : Program) : Program := .branch err (credential path ok err)

/-- The end of `record_client_version`, with the identity locked. -/
def setLatest (next : Program) : Program :=
  .acquire .latestClientVersion (.release .latestClientVersion (.release .identity next))

def identityVersion (next : Program) : Program := .acquire .identity (setLatest next)

def latestVersion (next : Program) : Program :=
  .acquire .latestClientVersion (.release .latestClientVersion
    (.branch next (identityVersion next)))

def recordClientVersion (next : Program) : Program := .branch next (latestVersion next)

def served : Path → Program
  | .status => .acquire .identity (.release .identity .done)
  | .shutdown => .done

/-- What follows `authenticate`: a content type, a body or a protocol version
that is refused, or the rest. -/
def authenticated (path : Path) : Program :=
  .branch .done (.branch .done (.branch .done (recordClientVersion (served path))))

def statusOrShutdown (path : Path) : Program := authenticate path (authenticated path) .done

def pairReply : Program := .acquire .identity (.release .identity .done)

def pairStart : Program :=
  .acquire .pairing (.branch (.release .pairing .done) (.release .pairing pairReply))

def pairCheck : Program :=
  .acquire .identity (.branch (.release .identity .done) (.release .identity pairStart))

def pairRepeat : Program := .acquire .identity (.release .identity (.release .pairing .done))

/-- With both locked: `commit`, and the response or a panic. -/
def pairCommit : Program := .release .identity (.release .pairing .done)

def pairSave : Program :=
  .acquire .identity (.branch (.release .identity (.release .pairing .done)) pairCommit)

def pairFinish : Program :=
  .acquire .pairing (.branch (.release .pairing .done) (.branch pairRepeat pairSave))

def pairHostId : Program := .acquire .identity (.release .identity pairFinish)

/-- `pair`: a content type, a body or a protocol version that is refused, or a
request without or with a session id. -/
def pair : Program := .branch .done (.branch .done (.branch .done (.branch pairCheck pairHostId)))

def pairingState : Program :=
  .acquire .pairing (.acquire .identity (.release .identity (.release .pairing .done)))

def genInstall : Program := .release .identity (.release .pairing .done)

def genIdentity : Program :=
  .acquire .identity (.branch (.release .identity (.release .pairing .done)) genInstall)

def generatePairingCode : Program := .acquire .pairing genIdentity

end Takes

inductive Handler
  | status
  | shutdown
  | pair
  | pairingState
  | generatePairingCode

def Handler.code : Handler → Program
  | .status => Takes.statusOrShutdown .status
  | .shutdown => Takes.statusOrShutdown .shutdown
  | .pair => Takes.pair
  | .pairingState => Takes.pairingState
  | .generatePairingCode => Takes.generatePairingCode

/-- The order in which mutexes are nested. -/
def Mutex.rank : Mutex → Nat
  | .pairing => 0
  | .identity => 1
  | .latestClientVersion => 2
  | .acceptedNonces => 3
  | .failures => 4

theorem Mutex.rank_lt (m : Mutex) : m.rank < 5 := by
  cases m <;> decide

theorem Handler.code_ordered (h : Handler) : h.code.ordered Mutex.rank [] = true := by
  cases h <;> rfl

def Handles : Move ι Mutex → Prop
  | .spawn _ code => ∃ h : Handler, code = h.code
  | _ => True

theorem Handles.spawn (i : ι) (h : Handler) : Handles (.spawn i h.code) := ⟨h, rfl⟩

theorem Handles.go (i : ι) (left : Bool) : Handles (.go i left) := trivial

theorem Handles.drop (i : ι) : Handles (.drop i) := trivial

theorem orderly_of_handles {ι : Type} [DecidableEq ι] {s : Config ι Mutex}
    {tr : List (Move ι Mutex)}
    (h : Run step (fun _ m => Handles m) .idle tr s) : Orderly Mutex.rank s := by
  refine Orderly.run (fun s m hm => ?_) h
  cases m with
  | spawn i code =>
    obtain ⟨handler, rfl⟩ := hm
    exact handler.code_ordered
  | go | drop => trivial

/-- Any number of calls interleave, arrive when they like and may be dropped:
while one is unfinished, it can take a step or one that holds a mutex can. -/
theorem no_deadlock {ι : Type} [DecidableEq ι] {s : Config ι Mutex} {tr : List (Move ι Mutex)}
    (h : Run step (fun _ m => Handles m) .idle tr s) {i : ι} (hi : s.code i ≠ .done) :
    ∃ j, Enabled s j ∧ (j = i ∨ ∃ m, s.owner m = some j) :=
  (orderly_of_handles h).progress Mutex.rank_lt hi

/-- `pairing_state` holds the pairing and `generate_pairing_code` waits for it. -/
theorem no_deadlock_with_pairing_locked :
    ∃ s : Config Nat Mutex, s.code 1 = Takes.generatePairingCode ∧ s.owner .pairing = some 0 ∧
      ∃ j, Enabled s j ∧ (j = 1 ∨ ∃ m, s.owner m = some j) := by
  have hspawned : Run step (fun _ m => Handles m) (.idle : Config Nat Mutex) _ _ :=
    .next (.single (Handles.spawn 0 .pairingState) rfl) (Handles.spawn 1 .generatePairingCode) rfl
  have hlocked := hspawned.next (Handles.go 0 true) rfl
  exact ⟨_, rfl, rfl, no_deadlock hlocked (i := 1) (by nofun)⟩

-- ---------------------------------------------------------------------------
-- The running host
-- ---------------------------------------------------------------------------

/-- What a task has left to take and to give back. -/
def Task.code : Task → Program
  | .credential path .. => Takes.credential path (Takes.authenticated path) .done
  | .verify path .. => Takes.verified path (Takes.authenticated path) .done
  | .persistNonce caller => Takes.persistNonce (Takes.authenticated caller.path) .done
  | .latestVersion caller _ => Takes.latestVersion (Takes.served caller.path)
  | .identityVersion caller _ => Takes.identityVersion (Takes.served caller.path)
  | .setLatest caller _ => Takes.setLatest (Takes.served caller.path)
  | .statusReply _ => Takes.served .status
  | .pairCheck .. => Takes.pairCheck
  | .pairStart .. => Takes.pairStart
  | .pairReply _ => Takes.pairReply
  | .pairHostId _ => Takes.pairHostId
  | .pairFinish .. => Takes.pairFinish
  | .pairRepeat .. => Takes.pairRepeat
  | .pairSave .. => Takes.pairSave
  | .pairCommit .. => Takes.pairCommit
  | .genPairing => Takes.generatePairingCode
  | .genIdentity => Takes.genIdentity
  | .genInstall .. => Takes.genInstall

namespace AppState

def code (s : AppState) (id : Nat) : Program := (s.tasks id).elim .done Task.code

def owners (s : AppState) : Mutex → Option Nat
  | .identity => s.identityLock
  | .pairing => s.pairingLock
  | _ => none

def mutexes (s : AppState) : Config Nat Mutex := ⟨s.code, s.owners⟩

@[simp] theorem code_goto (s : AppState) (id : Nat) (t : Task) :
    (s.goto id t).code id = t.code := by
  simp [code, goto]

@[simp] theorem code_finish (s : AppState) (id : Nat) : (s.finish id).code id = .done := by
  simp [code, finish]

theorem owners_identity (s : AppState) (owner : Option Nat) :
    owners { s with identityLock := owner } = Function.update s.owners .identity owner := by
  funext m
  cases m <;> simp [owners]

theorem owners_pairing (s : AppState) (owner : Option Nat) :
    owners { s with pairingLock := owner } = Function.update s.owners .pairing owner := by
  funext m
  cases m <;> simp [owners]

/-- The step of a task walks from what it has left to what it has left then. -/
def Walks (s : AppState) (id : Nat) (c : Program) (r : AppState × List Output) : Prop :=
  Walk id c s.owners (r.1.code id) r.1.owners

theorem served_walks (C : Crates) (s : AppState) (env : Env) (id : Nat) (caller : Caller) :
    s.Walks id (Takes.served caller.path) (s.served C env id caller) := by
  unfold Walks served
  split
  · rename_i hpath
    simp only [hpath, code_goto]
    exact .refl
  · rename_i hpath
    simp only [hpath, code_finish]
    exact .refl

theorem authenticated_walks (C : Crates) (s : AppState) (env : Env) (id : Nat) (caller : Caller)
    (howners : s.owners = o) :
    Walk id (Takes.authenticated caller.path) o ((s.authenticated C env id caller).1.code id)
      (s.authenticated C env id caller).1.owners := by
  subst howners
  unfold authenticated
  simp only
  split
  · simp only [answer, code_finish]
    exact .left .refl
  · split
    · simp only [answer, code_finish]
      exact .left .refl
    · split
      · simp only [answer, code_finish]
        exact .left .refl
      · split
        · exact .right (.right (.right (.left (served_walks C s env id caller))))
        · simp only [code_goto]
          exact .right (.right (.right (.right .refl)))

theorem verify_walks (C : Crates) (s : AppState) (env : Env) (id : Nat) (path : Path)
    (http : HttpRequest) (auth : AuthHeaders) (credential : Credential) (now : Nat) :
    s.Walks id (Takes.verified path (Takes.authenticated path) .done)
      (s.verify C env id path http auth credential now) := by
  -- the way through `verify` to what follows the look at the nonces
  have hok {c : Program} {o : Mutex → Option Nat} {next : Program}
      (h : Walk id next s.owners c o) : Walk id (Takes.verify next .done) s.owners c o :=
    .right (.right (.right (.right (.acquire rfl (.right (.back rfl h))))))
  unfold Walks verify
  simp only
  split
  · simp only [answer, code_finish]
    exact .right (.left .refl)
  · split
    · simp only [answer, code_finish]
      exact .right (.left .refl)
    · rename_i nonce _
      split
      · simp only [code_goto]
        exact hok (.right .refl)
      · exact hok (.right (authenticated_walks C _ env id ⟨.status, http, auth, ⟨credential, nonce⟩⟩
          (by rfl)))

theorem persistNonce_walks (C : Crates) (s : AppState) (env : Env) (id : Nat) (caller : Caller)
    (hfree : s.owners .identity = none) :
    s.Walks id (Takes.persistNonce (Takes.authenticated caller.path) .done)
      (s.persistNonce C env id caller) := by
  unfold Walks persistNonce
  simp only
  split
  · simp only [answer, code_finish]
    exact .acquire hfree (.left (.back hfree .refl))
  · split
    · exact .acquire hfree (.right
        (.right (.back hfree (authenticated_walks C _ env id caller rfl))))
    · simp only [answer, code_finish]
      exact .acquire hfree (.left (.back hfree .refl))

theorem released_walks {s s' : AppState} {id : Nat} (hidentity : s.identityLock = some id)
    (hpairing : s.pairingLock = some id) (hidentity' : s'.identityLock = none)
    (hpairing' : s'.pairingLock = none) :
    Walk id (.release .identity (.release .pairing .done)) s.owners .done s'.owners := by
  have howners : s'.owners = Function.update
      (Function.update s.owners .identity none) .pairing none := by
    funext m
    cases m <;> simp [owners, hidentity', hpairing']
  rw [howners]
  exact .release hidentity (.release (by simpa [owners] using hpairing) .refl)

structure Ready (s : AppState) (id : Nat) (t : Task) : Prop where
  free : s.free t.awaits
  holds : ∀ l, t.holds l = true → s.lock l = some id

theorem run_walks (C : Crates) (s : AppState) (env : Env) (id : Nat) (t : Task) (h : s.Ready id t) :
    s.Walks id t.code (s.run C env id t) := by
  obtain ⟨hfree, hholds⟩ := h
  cases t with
  | credential path http auth =>
    have hfree : s.owners .identity = none := hfree
    simp only [Walks, run]
    split
    · simp only [answer, code_finish]
      exact .acquire hfree (.left (.back hfree .refl))
    · simp only [code_goto]
      exact .acquire hfree (.right (.back hfree .refl))
  | verify path http auth credential now => exact verify_walks ..
  | persistNonce caller => exact persistNonce_walks C s env id caller hfree
  | latestVersion caller version =>
    simp only [Walks, run]
    split
    · exact .acquire rfl (.back rfl (.left (served_walks C s env id caller)))
    · simp only [code_goto]
      exact .acquire rfl (.back rfl (.right .refl))
  | identityVersion caller version =>
    have hfree : s.owners .identity = none := hfree
    simp only [Walks, run, identityVersion]
    split
    all_goals
      simp only [code, goto, ↓reduceIte, Option.elim_some]
      exact .acquire hfree (owners_identity s (some id) ▸ .refl)
  | setLatest caller version =>
    have hown : s.owners .identity = some id := hholds .identity rfl
    refine .acquire rfl (.back rfl (.release hown ?_))
    rw [← owners_identity s none]
    exact served_walks C { s with latestClientVersion := some version, identityLock := none } env id
      caller
  | statusReply caller =>
    have hfree : s.owners .identity = none := hfree
    simp only [Walks, run, statusReply, answer, code_finish]
    exact .acquire hfree (.back hfree .refl)
  | pairCheck clientMessage source =>
    have hfree : s.owners .identity = none := hfree
    simp only [Walks, run, pairCheck]
    split
    · simp only [answer, code_finish]
      exact .acquire hfree (.left (.back hfree .refl))
    · simp only [code_goto]
      exact .acquire hfree (.right (.back hfree .refl))
  | pairStart clientMessage source =>
    have hfree : s.owners .pairing = none := hfree
    simp only [Walks, run, pairStart]
    split
    · simp only [answer, code_finish]
      exact .acquire hfree (.left (.back hfree .refl))
    · simp only [code_goto]
      exact .acquire hfree (.right (.back hfree .refl))
  | pairReply started =>
    have hfree : s.owners .identity = none := hfree
    simp only [Walks, run, pairReply, answer, code_finish]
    exact .acquire hfree (.back hfree .refl)
  | pairHostId request =>
    have hfree : s.owners .identity = none := hfree
    simp only [Walks, run, code_goto]
    exact .acquire hfree (.back hfree .refl)
  | pairFinish request hostId =>
    have hfree : s.owners .pairing = none := hfree
    simp only [Walks, run, pairFinish]
    split
    · simp only [answer, code_finish]
      exact .acquire hfree (.left (.back hfree .refl))
    · simp only [code_goto]
      refine .acquire hfree (.right ?_)
      rw [← owners_pairing s (some id)]
      split
      · exact .left .refl
      · exact .right .refl
  | pairRepeat request result =>
    have hfree : s.owners .identity = none := hfree
    have hown : s.owners .pairing = some id := hholds .pairing rfl
    simp only [Walks, run, pairRepeat, code_finish]
    exact .acquire hfree (.back hfree (.release hown (owners_pairing s none ▸ .refl)))
  | pairSave request result =>
    have hfree : s.owners .identity = none := hfree
    have hown : s.owners .pairing = some id := hholds .pairing rfl
    simp only [Walks, run, pairSave]
    split
    · simp only [code_goto]
      exact .acquire hfree (.right (owners_identity s (some id) ▸ .refl))
    · simp only [answer, code_finish]
      exact .acquire hfree (.left (.back hfree (.release hown (owners_pairing s none ▸ .refl))))
  | pairCommit request result =>
    simp only [Walks, run, pairCommit]
    split
    all_goals
      simp only [code_finish]
      exact released_walks (hholds .identity rfl) (hholds .pairing rfl) rfl rfl
  | genPairing =>
    have hfree : s.owners .pairing = none := hfree
    simp only [Walks, run, code_goto]
    exact .acquire hfree (owners_pairing s (some id) ▸ .refl)
  | genIdentity =>
    have hfree : s.owners .identity = none := hfree
    have hown : s.owners .pairing = some id := hholds .pairing rfl
    simp only [Walks, run, genIdentity]
    split
    · simp only [code_goto]
      exact .acquire hfree (.right (owners_identity s (some id) ▸ .refl))
    · simp only [code_finish]
      exact .acquire hfree (.left (.back hfree (.release hown (owners_pairing s none ▸ .refl))))
  | genInstall generated updated =>
    simp only [Walks, run, genInstall, code_finish]
    exact released_walks (hholds .identity rfl) (hholds .pairing rfl) rfl rfl

end AppState

theorem Task.initial_handled {t : Task} (ht : t.initial = true)
    (o : Mutex → Option Nat) (id : Nat) :
    ∃ h : Handler, Walk id h.code o t.code o := by
  cases t with
  | credential path http auth =>
    cases path with
    | status => exact ⟨.status, .right .refl⟩
    | shutdown => exact ⟨.shutdown, .right .refl⟩
  | pairCheck => exact ⟨.pair, .right (.right (.right (.left .refl)))⟩
  | pairHostId => exact ⟨.pair, .right (.right (.right (.right .refl)))⟩
  | genPairing => exact ⟨.generatePairingCode, .refl⟩
  | _ => cases ht

theorem AppState.code_of_tasks {s s' : AppState} {id : Nat}
    (h : s'.tasks = fun i => if i = id then t' else s.tasks i) :
    s'.code = Function.update s.code id (s'.code id) := by
  funext j
  by_cases hj : j = id
  · simp [hj]
  · simp [hj, AppState.code, h]

theorem spawned_walks {s : AppState} (hl : Locks s) (ht : task.initial = true) :
    ∃ tr, Run step (fun _ m => Handles m) s.mutexes tr
      ({ s with nextTask := s.nextTask + 1 }.goto s.nextTask task).mutexes := by
  obtain ⟨handler, hwalk⟩ := Task.initial_handled ht s.owners s.nextTask
  obtain ⟨tr, hrun⟩ := hwalk.run (P := fun _ m => Handles m) (fun _ _ => trivial) s.code
  have hidle : s.code s.nextTask = .done := by
    simp [AppState.code, hl.unborn _ (Nat.le_refl _)]
  have hspawn : step s.mutexes (.spawn s.nextTask handler.code) =
      some (⟨Function.update s.code s.nextTask handler.code, s.owners⟩,
        [.spawn s.nextTask handler.code]) := by
    simp [step, AppState.mutexes, hidle, Config.goto]
  have hcode : AppState.code ({ s with nextTask := s.nextTask + 1 }.goto s.nextTask task) =
      Function.update s.code s.nextTask task.code :=
    (AppState.code_of_tasks (s := s) rfl).trans (by rw [AppState.code_goto])
  refine ⟨_ ++ tr, (Run.single (.spawn _ handler) hspawn).trans ?_⟩
  rw [AppState.mutexes, hcode]
  exact hrun

theorem dropped_walks (s : AppState) (id : Nat) :
    ∃ tr, Run step (fun _ m => Handles m) s.mutexes tr (s.dropped id).mutexes := by
  have hcode : (s.dropped id).code = Function.update s.code id .done := by
    have hupdate : (s.dropped id).code = Function.update s.code id ((s.dropped id).code id) :=
      AppState.code_of_tasks rfl
    simpa [AppState.code, AppState.dropped, AppState.finish] using hupdate
  have howners (m : Mutex) : (s.dropped id).owners m = if s.owners m = some id then none
      else s.owners m := by
    cases m with
    | identity =>
      by_cases hm : s.identityLock = some id <;> simp [AppState.owners, AppState.dropped, hm]
    | pairing =>
      by_cases hm : s.pairingLock = some id <;> simp [AppState.owners, AppState.dropped, hm]
    | _ => rfl
  have hdrop : step s.mutexes (.drop id) = some ((s.dropped id).mutexes, [.drop id]) := by
    simp only [step, AppState.mutexes, Config.goto, hcode, Option.some.injEq, Prod.mk.injEq,
      and_true, Config.mk.injEq, true_and]
    funext m
    by_cases hm : s.owners m = some id <;> simp [howners, hm]
  exact ⟨_, .single (.drop id) hdrop⟩

/-- Every step of the running host is a run of its handlers' programs. -/
theorem hostStep_walks {s s' : AppState} (hl : Locks s) (h : hostStep C s i = some (s', out))
    (hi : ∀ env, i ≠ .restart env) :
    ∃ tr, Run step (fun _ m => Handles m) s.mutexes tr s'.mutexes := by
  have hcases := hostStep_iff_cases h
  cases hcases with
  | answered => exact ⟨[], .refl⟩
  | spawned ht => exact spawned_walks hl ht
  | @advanced id t env _ _ ht hfree _ _ ha =>
    have hready : (s.tick env).Ready id t :=
      ⟨AppState.free_tick.mpr hfree, fun l hh => (hl.tick.holder l id).mpr ⟨t, ht, hh⟩⟩
    have hwalk := AppState.run_walks C (s.tick env) env id t hready
    rw [AppState.Walks, hostStep_run h ht] at hwalk
    obtain ⟨tr, hrun⟩ := hwalk.run (P := fun _ m => Handles m) (fun _ _ => trivial) s.code
    obtain ⟨t', hmoves⟩ := ha.moves
    have hself : Function.update s.code id t.code = s.code := by
      rw [Function.update_eq_self_iff]
      simp [AppState.code, ht]
    rw [hself] at hrun
    refine ⟨tr, ?_⟩
    rw [AppState.mutexes, AppState.mutexes, AppState.code_of_tasks (s := s) hmoves.tasks]
    exact hrun
  | cancelled => exact dropped_walks s _
  | restarted => exact absurd rfl (hi _)

def Handled (s : AppState) : Prop := ∃ tr, Run step (fun _ m => Handles m) .idle tr s.mutexes

theorem Handled.boot (h : AppState.boot hostname stored nextTask wall env = some s) :
    Handled s := by
  obtain ⟨p, -, rfl⟩ := boot_eq_some h
  refine ⟨[], ?_⟩
  convert Run.refl
  rw [AppState.mutexes, Config.idle, Config.mk.injEq]
  refine ⟨rfl, funext fun m => ?_⟩
  cases m <;> rfl

theorem Handled.next {s s' : AppState} (hl : Locks s) (hh : Handled s)
    (h : hostStep C s i = some (s', out)) :
    Handled s' := by
  by_cases hi : ∃ env, i = .restart env
  · obtain ⟨env, rfl⟩ := hi
    cases hostStep_iff_cases h with
    | restarted hb => exact .boot hb
  · obtain ⟨tr, hrun⟩ := hh
    obtain ⟨tr', hrun'⟩ := hostStep_walks hl h fun env heq => hi ⟨env, heq⟩
    exact ⟨tr ++ tr', hrun.trans hrun'⟩

def Lock.mutex : Lock → Mutex
  | .identity => .identity
  | .pairing => .pairing

theorem Task.code_of_awaits {t : Task} (h : t.awaits = some l) :
    ∃ next, t.code = .acquire l.mutex next := by
  cases t <;> cases h <;> exact ⟨_, rfl⟩

theorem Task.code_ne_done (t : Task) : t.code ≠ .done := by
  cases t <;> nofun

theorem AppState.free_of_enabled {s : AppState} {id : Nat} {t : Task} (ht : s.tasks id = some t)
    (h : Enabled s.mutexes id) : s.free t.awaits := by
  cases hl : t.awaits with
  | none => trivial
  | some l =>
    obtain ⟨next, hnext⟩ := Task.code_of_awaits hl
    have hcode : s.code id = .acquire l.mutex next := by simp [AppState.code, ht, hnext]
    have hfree := h.acquire hcode
    cases l <;> exact hfree

/-- A running host with a task left has one that can go on. -/
theorem host_progress {P : AppState → Input → Prop} {s s' : AppState} {id : Nat}
    (hb : AppState.boot hostname stored nextTask wall env = some s) (h : Run (hostStep C) P s tr s')
    (ht : s'.tasks id = some t) : ∃ id' t', s'.tasks id' = some t' ∧ s'.free t'.awaits := by
  have hinv : Locks s' ∧ Handled s' :=
    h.invariant (I := fun _ s => Locks s ∧ Handled s) ⟨.boot hb, .boot hb⟩ fun hi _ hs =>
      ⟨hi.1.next (hostStep_iff_cases hs), hi.2.next hi.1 hs⟩
  obtain ⟨tr', hrun⟩ := hinv.2
  have hopen : s'.mutexes.code id ≠ .done := by
    simpa [AppState.mutexes, AppState.code, ht] using Task.code_ne_done t
  obtain ⟨id', henabled, -⟩ := (orderly_of_handles hrun).progress Mutex.rank_lt hopen
  cases ht' : s'.tasks id' with
  | none => exact absurd (by simp [AppState.mutexes, AppState.code, ht']) henabled.ne_done
  | some t' => exact ⟨id', t', ht', AppState.free_of_enabled ht' henabled⟩

end DeckyMyRig.Host
