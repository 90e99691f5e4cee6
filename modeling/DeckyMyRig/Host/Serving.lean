import DeckyMyRig.Host.Authority

/-!
# One handler among others

`followed_run` follows one handler through a run in which all others step as
they like: it is at one of the tasks it can be at, or it is done and has acted
as it should. With it, every authentic request inside the clock window is
carried out, however its steps are interleaved with those of other handlers,
as long as the nonce is new and the store takes it.
-/

namespace DeckyMyRig.Host

open Octets Machine

def Output.actOf (id : Nat) : Output → Bool
  | .answered i _ | .powerShutdown i _ | .completed i _ _ _ => i = id
  | _ => false

def actsOf (id : Nat) (tr : List Output) : List Output := tr.filter (Output.actOf id)

theorem actsOf_append (id : Nat) (a b : List Output) :
    actsOf id (a ++ b) = actsOf id a ++ actsOf id b :=
  List.filter_append ..

-- ---------------------------------------------------------------------------
-- Others
-- ---------------------------------------------------------------------------

theorem AppState.Continues.actsOf_other {id j : Nat}
    (h : AppState.Continues s id c s' out) (hne : j ≠ id) :
    actsOf j out = [] := by
  cases h <;> simp [actsOf, Output.actOf, Ne.symm hne]

theorem AppState.Advance.actsOf_other {id j : Nat}
    (h : AppState.Advance C s env id t s' out) (hne : j ≠ id) :
    actsOf j out = [] := by
  cases h with
  | statusVerified _ h | versionKnown h | versionSet h => exact h.actsOf_other hne
  | nonceSaved _ _ h => simpa [actsOf, Output.actOf] using h.actsOf_other hne
  | _ => simp [actsOf, Output.actOf, Ne.symm hne]

theorem HostStep.actsOf_other {j : Nat} (h : HostStep C s i s' out) (hborn : j < s.nextTask)
    (hi : ∀ env, i ≠ .advance j env) : actsOf j out = [] := by
  cases h with
  | answered => simp [actsOf, Output.actOf, Nat.ne_of_gt hborn]
  | @advanced id =>
    refine AppState.Advance.actsOf_other ‹_› ?_
    rintro rfl
    exact hi _ rfl
  | spawned | cancelled | restarted => rfl

theorem HostStep.nextTask_le (h : HostStep C s i s' out) : s.nextTask ≤ s'.nextTask := by
  cases h with
  | answered | spawned => exact Nat.le_succ _
  | advanced _ _ _ _ ha =>
    obtain ⟨t', hm⟩ := ha.moves
    exact hm.nextTask.ge
  | cancelled => exact Nat.le_refl _
  | restarted hb =>
    obtain ⟨p, -, rfl⟩ := boot_eq_some hb
    exact Nat.le_refl _

theorem HostStep.stays_done {j : Nat} (h : HostStep C s i s' out) (hborn : j < s.nextTask)
    (hj : s.tasks j = none) : s'.tasks j = none := by
  cases h with
  | answered => exact hj
  | spawned => simpa [AppState.goto, Nat.ne_of_lt hborn] using hj
  | @advanced id t env _ _ ht _ _ _ ha =>
    obtain ⟨t', hm⟩ := ha.moves
    have hne : j ≠ id := by
      rintro rfl
      rw [hj] at ht
      cases ht
    simpa [hm.tasks, hne, AppState.tick] using hj
  | cancelled =>
    simp only [AppState.dropped, AppState.finish]
    split
    · rfl
    · exact hj
  | restarted hb =>
    obtain ⟨p, -, rfl⟩ := boot_eq_some hb
    rfl

-- ---------------------------------------------------------------------------
-- The handler
-- ---------------------------------------------------------------------------

section
variable {C : Crates} {host : Uuid} {name : Text} {P : AppState → Input → Prop} {j : Nat}
  {At : AppState → Task → Prop} {Done : AppState → List Output → Prop}

/-- A handler in a run: at a task, without having acted, or done. -/
def Followed (j : Nat) (At : AppState → Task → Prop) (Done : AppState → List Output → Prop)
    (tr : List Output) (s : AppState) : Prop :=
  (∃ t, s.tasks j = some t ∧ At s t ∧ actsOf j tr = []) ∨ s.tasks j = none ∧ Done s (actsOf j tr)

theorem Followed.own (hi : Followed j At Done tr s)
    (hstep : ∀ {t}, s.tasks j = some t → At s t → Followed j At Done out s')
    (h : HostStep C s (.advance j env) s' out) : Followed j At Done (tr ++ out) s' := by
  cases h with
  | advanced ht _ _ _ _ =>
    rcases hi with ⟨t, hj, hat, hacts⟩ | ⟨hj, -⟩
    · rw [Followed, actsOf_append, hacts, List.nil_append]
      exact hstep hj hat
    · cases ht.symm.trans hj

theorem Followed.other (hl : Locks s) (hborn : j < s.nextTask) (hi : Followed j At Done tr s)
    (h : HostStep C s i s' out) (hadvance : ∀ env, i ≠ .advance j env) (hcancel : i ≠ .cancel j)
    (hrestart : ∀ env, i ≠ .restart env) (hstays : ∀ t, s.tasks j = some t → At s t → At s' t)
    (hrests : ∀ acts, Done s acts → Done s' acts) :
    Followed j At Done (tr ++ out) s' := by
  rw [Followed, actsOf_append, h.actsOf_other hborn hadvance, List.append_nil]
  rcases hi with ⟨t, hj, hat, hacts⟩ | ⟨hj, hdone⟩
  · rcases h.keeps_task hl hj with ⟨hj', -⟩ | ⟨env, rfl⟩ | rfl | ⟨env, rfl⟩
    · exact .inl ⟨t, hj', hstays t hj hat, hacts⟩
    · exact absurd rfl (hadvance env)
    · exact absurd rfl hcancel
    · exact absurd rfl (hrestart env)
  · exact .inr ⟨h.stays_done hborn hj, hrests _ hdone⟩

theorem followed_run (hg : Grounded C host name s₀) (hborn : j < s₀.nextTask)
    (h₀ : Followed j At Done [] s₀)
    (hlives : ∀ s i, P s i → i ≠ .cancel j ∧ ∀ env, i ≠ .restart env)
    (hown : ∀ {s env s' out t}, Grounded C host name s → P s (.advance j env) → s.tasks j = some t →
      At s t → hostStep C s (.advance j env) = some (s', out) → Followed j At Done out s')
    (hother : ∀ {s i s' out}, Grounded C host name s → P s i → (∀ env, i ≠ .advance j env) →
      HostStep C s i s' out →
      (∀ t, s.tasks j = some t → At s t → At s' t) ∧ ∀ acts, Done s acts → Done s' acts)
    (h : Run (hostStep C) P s₀ tr s) : Grounded C host name s ∧ Followed j At Done tr s := by
  suffices hall : Grounded C host name s ∧ j < s.nextTask ∧
    Followed j At Done tr s from ⟨hall.1, hall.2.2⟩
  refine h.invariant (I := fun tr s => Grounded C host name s ∧ j < s.nextTask ∧
    Followed j At Done tr s)
    ⟨hg, hborn, h₀⟩ ?_
  rintro tr s i s' out ⟨hg, hborn, hi⟩ hp hs
  have hstep := hostStep_iff_cases hs
  refine ⟨hg.next hstep, hborn.trans_le hstep.nextTask_le, ?_⟩
  by_cases hadvance : ∃ env, i = .advance j env
  · obtain ⟨env, rfl⟩ := hadvance
    exact hi.own (fun ht hat => hown hg hp ht hat hs) hstep
  · have hadvance : ∀ env, i ≠ .advance j env := fun env heq => hadvance ⟨env, heq⟩
    obtain ⟨hcancel, hrestart⟩ := hlives s i hp
    obtain ⟨hstays, hrests⟩ := hother hg hp hadvance hstep
    exact hi.other hg.locks hborn hstep hadvance hcancel hrestart hstays hrests

end

-- ---------------------------------------------------------------------------
-- Authenticated requests
-- ---------------------------------------------------------------------------

def shutdownAnswer (C : Crates) (powers : Bool) (caller : Caller) : Response :=
  if powers then
    authenticatedProtobuf C 202 (C.encodeShutdownResponse ⟨true⟩) caller.context caller.path.text
  else
    authenticatedError C 500 .shutdownFailed "Windows rejected the shutdown request." caller.context
      caller.path.text

def statusAnswer (C : Crates) (host : Uuid) (name : Text) (paired : Bool) (caller : Caller) :
    Response :=
  authenticatedProtobuf C 200 (C.encodeStatusResponse
    ⟨name, hostVersion, protocolVersion, paired, host.toText⟩) caller.context caller.path.text

/-- Where a step calls `power.shutdown()`, it answers with what Windows said. -/
def Reports (C : Crates) (powers : Bool) (id : Nat) (out : List Output) : Prop :=
  ∀ i caller, .powerShutdown i caller ∈ out → i = id ∧
    .answered id (shutdownAnswer C powers caller) ∈ out

section
variable {C : Crates} {s : AppState} {env : Env} {id : Nat} {caller : Caller}

theorem Reports.of_none (h : ∀ o ∈ out, ∀ i caller, o ≠ .powerShutdown i caller) :
    Reports C powers id out :=
  fun _ _ hmem => absurd rfl (h _ hmem _ _)

theorem Reports.cons (h : Reports C powers id out) (ho : ∀ i caller, o ≠ .powerShutdown i caller) :
    Reports C powers id (o :: out) := by
  intro i caller hmem
  obtain ⟨hi, hanswer⟩ :=
    h i caller ((List.mem_cons.mp hmem).resolve_left fun heq => ho i caller heq.symm)
  exact ⟨hi, List.mem_cons_of_mem _ hanswer⟩

theorem served_reports : Reports C env.powers id (s.served C env id caller).2 := by
  unfold AppState.served
  split
  · exact .of_none (by simp)
  · intro i c hmem
    simp only [List.mem_cons, Output.powerShutdown.injEq, reduceCtorEq,
      List.not_mem_nil, or_false] at hmem
    obtain ⟨rfl, rfl⟩ := hmem
    exact ⟨rfl, List.mem_cons_of_mem _ List.mem_cons_self⟩

theorem authenticated_reports : Reports C env.powers id (s.authenticated C env id caller).2 := by
  have hanswer (response) : Reports C env.powers id (s.answer id response).2 :=
    .of_none (by simp [AppState.answer])
  unfold AppState.authenticated
  simp only
  repeat' split
  · exact hanswer _
  · exact hanswer _
  · exact hanswer _
  · exact served_reports
  · exact .of_none (by simp)

theorem run_reports (C : Crates) (s : AppState) (env : Env) (id : Nat) (task : Task) :
    Reports C env.powers id (s.run C env id task).2 := by
  have hadvance := AppState.run_advance C s env id task
  cases task with
  | verify path http auth credential now =>
    simp only [AppState.run, AppState.verify]
    repeat' split
    all_goals first | exact authenticated_reports | exact .of_none (by simp [AppState.answer])
  | persistNonce caller =>
    simp only [AppState.run, AppState.persistNonce]
    repeat' split
    · exact .of_none (by simp [AppState.answer])
    · exact (authenticated_reports.cons (by simp)).cons (by simp)
    · exact .of_none (by simp [AppState.answer])
  | latestVersion caller version =>
    simp only [AppState.run]
    split
    · exact served_reports
    · exact .of_none (by simp)
  | setLatest caller version => exact served_reports
  | _ =>
    -- No other step calls `power.shutdown()`.
    generalize AppState.run C s env id _ = r at hadvance ⊢
    obtain ⟨s', out⟩ := r
    cases hadvance <;> exact .of_none (by simp)

theorem hostStep_reports (h : hostStep C s i = some (s', out))
    (hmem : .powerShutdown id caller ∈ out) :
    ∃ env, i = .advance id env ∧ .answered id (shutdownAnswer C env.powers caller) ∈ out := by
  cases hostStep_iff_cases h with
  | @advanced j _ env _ _ ht =>
    have hreports := hostStep_run h ht ▸ run_reports C (s.tick env) env j _
    obtain ⟨rfl, hanswer⟩ := hreports id caller hmem
    exact ⟨env, rfl, hanswer⟩
  | _ => simp at hmem

end

/-- The request is carried out: a status is answered; a shutdown is handed to
Windows once, and answered. -/
inductive CarriedOut (C : Crates) (host : Uuid) (name : Text) (caller : Caller) (id : Nat) :
    List Output → Prop
  | status : caller.path = .status →
      CarriedOut C host name caller id [.answered id (statusAnswer C host name paired caller)]
  | shutdown : caller.path = .shutdown →
      CarriedOut C host name caller id [.powerShutdown id caller,
        .answered id (shutdownAnswer C powers caller)]

inductive Serving (caller : Caller) : Task → Prop
  | credential : Serving caller (.credential caller.path caller.http caller.auth)
  | verify : absDiff now caller.auth.timestamp.toNat ≤ clockWindow →
      Serving caller (.verify caller.path caller.http caller.auth caller.context.credential now)
  | persistNonce : caller.path = .shutdown → Serving caller (.persistNonce caller)
  | latestVersion : Serving caller (.latestVersion caller version)
  | identityVersion : Serving caller (.identityVersion caller version)
  | setLatest : Serving caller (.setLatest caller version)
  | statusReply : caller.path = .status → Serving caller (.statusReply caller)

structure Genuine (C : Crates) (caller : Caller) : Prop where
  nonce : caller.auth.nonce = caller.context.nonce.val
  authentic : Authentic C caller.context.credential.val caller.request
  protobuf : isProtobuf caller.http.headers = true
  current : caller.Current C

/-- What the steps of the handler find: the credential it was signed with, a
clock inside the window, a nonce that is new in memory and in the store, and a
store that takes it. -/
def Finds (caller : Caller) (s : AppState) (env : Env) : Task → Prop
  | .credential .. => s.identity.credential = some caller.context.credential ∧
      absDiff (env.wall.headD 0) caller.auth.timestamp.toNat ≤ clockWindow
  | .verify _ _ _ _ now => (s.authenticator.live now).lookup caller.context.nonce.val = none
  | .persistNonce _ => env.saves = true ∧
      ∀ seen ∈ AppState.retainNonces s.identity.acceptedShutdownNonces env.wall,
        seen.nonce ≠ caller.context.nonce
  | _ => True

def Admitted (caller : Caller) (id : Nat) (s : AppState) : Input → Prop
  | .advance i env => i = id → ∀ t ∈ s.tasks id, Finds caller s env t
  | .cancel i => i ≠ id
  | .restart _ => False
  | .request _ => True

instance decidableFinds : Decidable (Finds caller s env t) := by
  cases t <;> unfold Finds <;> infer_instance

instance decidableAdmitted {id : Nat} : Decidable (Admitted caller id s i) := by
  cases i <;> unfold Admitted <;> infer_instance

theorem Admitted.lives {id : Nat} (h : Admitted caller id s i) :
    i ≠ .cancel id ∧ ∀ env, i ≠ .restart env := by
  cases i with
  | cancel i => exact ⟨fun heq => h (by cases heq; rfl), by simp⟩
  | restart => exact h.elim
  | request | advance => simp

section
variable {C : Crates} {host : Uuid} {name : Text} {caller : Caller} {id : Nat} {s s' : AppState}
  {env : Env}

theorem followed_goto (ht : Serving caller t) :
    Followed id (fun _ => Serving caller) (fun _ => CarriedOut C host name caller id) []
      (s.goto id t) :=
  .inl ⟨t, by simp [AppState.goto], ht, rfl⟩

theorem followed_served (hout : s.served C env id caller = (s', out)) :
    Followed id (fun _ => Serving caller) (fun _ => CarriedOut C host name caller id) out s' := by
  unfold AppState.served at hout
  split at hout
  · rename_i hpath
    cases hout
    exact followed_goto (.statusReply hpath)
  · rename_i hpath
    cases hout
    refine .inr ⟨by simp [AppState.finish], ?_⟩
    have hacts (response) : actsOf id [.powerShutdown id caller, .answered id response] =
        [.powerShutdown id caller, .answered id response] := by
      simp [actsOf, Output.actOf]
    rw [hacts]
    exact .shutdown hpath

theorem followed_authenticated (hp : isProtobuf caller.http.headers = true) (hc : caller.Current C)
    (hout : s.authenticated C env id caller = (s', out)) :
    Followed id (fun _ => Serving caller) (fun _ => CarriedOut C host name caller id) out s' := by
  obtain ⟨version, hversion⟩ := hc
  simp only [AppState.authenticated, hp, hversion, Bool.not_true, Bool.false_eq_true,
    if_false, ne_eq, not_true_eq_false] at hout
  split at hout
  · exact followed_served hout
  · cases hout
    exact followed_goto .latestVersion

theorem followed_step (hq : Genuine C caller) (hg : Grounded C host name s)
    (ht : s.tasks id = some t) (hat : Serving caller t) (hfinds : Finds caller s env t)
    (h : hostStep C s (.advance id env) = some (s', out)) :
    Followed id (fun _ => Serving caller) (fun _ => CarriedOut C host name caller id) out s' := by
  have hrun := hostStep_run h ht
  cases hat with
  | credential =>
    obtain ⟨hcredential, hwindow⟩ := hfinds
    have : (s.tick env).identity.credential = some caller.context.credential := hcredential
    simp only [AppState.run, this] at hrun
    cases hrun
    exact followed_goto (.verify hwindow)
  | @verify now hwindow =>
    have hlive : ((s.tick env).authenticator.live now).lookup caller.auth.nonce = none := by
      rw [hq.nonce]
      exact hfinds
    have hverify := verify_authentic (a := (s.tick env).authenticator) hq.authentic
      (absDiff_le_iff.mp hwindow)
    simp only [Caller.request, hlive, Option.isSome_none, Bool.false_eq_true, if_false] at hverify
    simp only [AppState.run, AppState.verify, hverify, Block.ofBytes_eq_some.mpr hq.nonce] at hrun
    split at hrun
    · rename_i hpath
      cases hrun
      exact followed_goto (.persistNonce hpath)
    · exact followed_authenticated hq.protobuf hq.current hrun
  | persistNonce hpath =>
    obtain ⟨hsaves, hnew⟩ := hfinds
    have hany : (AppState.retainNonces (s.tick env).identity.acceptedShutdownNonces env.wall).any
        (fun seen => seen.nonce = caller.context.nonce) = false := by
      simpa [List.any_eq_false, AppState.tick] using hnew
    simp only [AppState.run, AppState.persistNonce, hany, hsaves, Bool.false_eq_true, if_false,
      if_true] at hrun
    obtain ⟨rfl, rfl⟩ := Prod.mk.inj hrun
    simpa [Followed, actsOf, Output.actOf] using
      followed_authenticated (C := C) hq.protobuf hq.current (Prod.mk.eta (p := _)).symm
  | latestVersion =>
    simp only [AppState.run] at hrun
    split at hrun
    · exact followed_served hrun
    · cases hrun
      exact followed_goto .identityVersion
  | identityVersion =>
    simp only [AppState.run, AppState.identityVersion] at hrun
    split at hrun <;> cases hrun
    · exact .inl ⟨_, if_pos rfl, .setLatest, rfl⟩
    · exact .inl ⟨_, if_pos rfl, .setLatest, rfl⟩
  | setLatest => exact followed_served hrun
  | statusReply hpath =>
    simp only [AppState.run, AppState.statusReply, AppState.answer] at hrun
    cases hrun
    refine .inr ⟨by simp [AppState.finish], ?_⟩
    have hname : (s.tick env).hostname = name := hg.identified.hostname
    have hid : (s.tick env).identity.hostId = host := hg.identified.identity
    rw [hname, hid]
    have hacts (response) : actsOf id [.answered id response] = [.answered id response] := by
      simp [actsOf, Output.actOf]
    rw [hacts]
    exact .status hpath

end

/-- In every run in which it is not dropped, a genuine request that finds the
credential, the clock and the store as it needs them is carried out. -/
theorem handled_run (hg : Grounded C host name s₀) (hq : Genuine C caller)
    (hparsed : authHeaders caller.http.headers = some caller.auth)
    (h : Run (hostStep C) (Admitted caller s₀.nextTask)
      (s₀.receive C (.authenticated caller.path caller.http)).1 tr s)
    (hdone : s.tasks s₀.nextTask = none) : CarriedOut C host name caller s₀.nextTask
      (actsOf s₀.nextTask tr) := by
  have hroute : AppState.route C (.authenticated caller.path caller.http) =
      .inr (.credential caller.path caller.http caller.auth) := by
    simp only [AppState.route, hparsed]
  simp only [AppState.receive, hroute] at h
  have hspawn : HostStep C s₀ (.request (.authenticated caller.path caller.http))
      ({ s₀ with nextTask := s₀.nextTask + 1 }.goto s₀.nextTask
        (.credential caller.path caller.http caller.auth)) [] := .spawned rfl
  have hfollowed := (followed_run (hg.next hspawn) (Nat.lt_succ_self _) (followed_goto .credential)
    (fun _ _ hp => hp.lives) (fun hg hp ht hat hs => followed_step hq hg ht hat (hp rfl _ ht) hs)
    (fun _ _ _ _ => ⟨fun _ _ hat => hat, fun _ hdone => hdone⟩) h).2
  rcases hfollowed with ⟨t, ht, -, -⟩ | ⟨-, hhandled⟩
  · rw [ht] at hdone
    cases hdone
  · exact hhandled

end DeckyMyRig.Host
