import DeckyMyRig.Host.PairTasks
import DeckyMyRig.Lib.Lists

/-!
# One shutdown for each signed request

A shutdown request is looked up in the persisted log after it was verified,
under another lock and with other clock readings. It is carried out at most
once, over restarts and failed saves, in every run in which that look-up comes
inside the request's window and under the credential it was verified with. A
look-up one second after the window finds the entry already dropped.
-/

namespace DeckyMyRig.Host

open Octets Machine

/-- What makes two shutdown requests the same signed request. -/
def Caller.signed (c : Caller) : Credential × UInt64 × Bytes × Bytes × Bytes :=
  (c.context.credential, c.auth.timestamp, c.auth.nonce, c.auth.signature, c.http.body)

def Output.shutsDown (q : Credential × UInt64 × Bytes × Bytes × Bytes) : Output → Bool
  | .powerShutdown _ c => c.signed = q
  | _ => false

def Output.shutdownBy (id : Nat) : Output → Bool
  | .powerShutdown i _ => i = id
  | _ => false

def wallMonotone (s : AppState) : Input → Bool
  | .advance _ env | .restart env => (s.wall :: env.wall).Pairwise (· ≤ ·)
  | _ => true

/-- The persisted log is consulted while no reading is past the request's
window, and under the credential the request was verified with. -/
def logInTime (s : AppState) : Input → Bool
  | .advance id env =>
    match s.tasks id with
    | some (.persistNonce c) => (s.tick env).wall ≤ c.auth.timestamp.toNat + clockWindow &&
        s.identity.credential = some c.context.credential
    | _ => true
  | _ => true

def credentials (start : AppState) (tr : List Output) : List Credential :=
  start.identity.credential.toList ++ tr.filterMap (·.pairedCredential)

-- ---------------------------------------------------------------------------
-- From the log to the power controller
-- ---------------------------------------------------------------------------

def Task.caller : Task → Option Caller
  | .latestVersion c _ | .identityVersion c _ | .setLatest c _ | .statusReply c => some c
  | _ => none

theorem AppState.Continues.caller {s s' : AppState} {id : Nat} (h : s.Continues id c s' out)
    (ht : s'.tasks id = some t) (hc : t.caller = some c') : c' = c := by
  cases h with
  | answered => simp [AppState.finish] at ht
  | powered => simp [AppState.finish] at ht
  | version =>
    simp only [AppState.goto, ↓reduceIte, Option.some.injEq] at ht
    subst ht
    exact (Option.some.inj hc).symm
  | reply =>
    simp only [AppState.goto, ↓reduceIte, Option.some.injEq] at ht
    subst ht
    exact (Option.some.inj hc).symm

theorem AppState.Continues.power {s s' : AppState} {id i : Nat} (h : s.Continues id c s' out)
    (hp : .powerShutdown i c' ∈ out) :
    i = id ∧ c' = c ∧ c.path = .shutdown ∧ s'.tasks id = none ∧
      out.countP (·.shutdownBy id) ≤ 1 := by
  cases h with
  | powered hpath =>
    simp only [List.mem_cons, Output.powerShutdown.injEq, reduceCtorEq, List.not_mem_nil, or_self,
      or_false] at hp
    obtain ⟨rfl, rfl⟩ := hp
    exact ⟨rfl, rfl, hpath, by simp [AppState.finish], by simp [Output.shutdownBy]⟩
  | _ => simp at hp

theorem AppState.Advance.caller {id : Nat} (h : AppState.Advance C s env id t s' out)
    (ht : s'.tasks id = some t') (hc : t'.caller = some c) (hpath : c.path = .shutdown) :
    t.caller = some c ∨ .accepted id c ∈ out := by
  cases h with
  | statusVerified hs h =>
    rw [h.caller ht hc, hs] at hpath
    cases hpath
  | nonceSaved _ _ h =>
    rw [h.caller ht hc]
    simp
  | versionKnown h =>
    rw [h.caller ht hc]
    exact .inl rfl
  | versionSet h =>
    rw [h.caller ht hc]
    exact .inl rfl
  | versionNew | versionKept | versionSaved =>
    simp only [AppState.goto, ↓reduceIte, Option.some.injEq] at ht
    subst ht
    exact .inl hc
  | finished =>
    simp only [AppState.goto, ↓reduceIte, Option.some.injEq] at ht
    subst ht
    split at hc <;> cases hc
  | _ =>
    first
    | (simp only [AppState.goto, ↓reduceIte, Option.some.injEq] at ht
       subst ht
       cases hc)
    | (simp [AppState.finish] at ht)

theorem AppState.Advance.power {id i : Nat} (h : AppState.Advance C s env id t s' out)
    (hp : .powerShutdown i c ∈ out) :
    i = id ∧ c.path = .shutdown ∧ s'.tasks id = none ∧ out.countP (·.shutdownBy id) ≤ 1 ∧
      (t.caller = some c ∨ .accepted id c ∈ out) := by
  cases h with
  | statusVerified _ h | versionKnown h | versionSet h =>
    obtain ⟨rfl, rfl, hpath, hnone, hcount⟩ := h.power hp
    first
    | exact ⟨rfl, hpath, hnone, hcount, .inl rfl⟩
    | simp_all
  | nonceSaved _ _ h =>
    simp only [List.mem_cons, reduceCtorEq, false_or] at hp
    obtain ⟨rfl, rfl, hpath, hnone, hcount⟩ := h.power hp
    exact ⟨rfl, hpath, hnone, by simpa [Output.shutdownBy] using hcount, .inr (by simp)⟩
  | _ => simp at hp

structure Shutdowns (tr : List Output) (s : AppState) : Prop where
  tasks : ∀ {id t c}, s.tasks id = some t → t.caller = some c → c.path = .shutdown →
    .accepted id c ∈ tr
  power : ∀ {id c}, .powerShutdown id c ∈ tr →
    .accepted id c ∈ tr ∧ s.tasks id = none ∧ id < s.nextTask
  once : ∀ id, tr.countP (·.shutdownBy id) ≤ 1

theorem Shutdowns.quiet {s s' : AppState} (hi : Shutdowns tr s)
    (hout : ∀ e ∈ out, ∀ id, e.shutdownBy id = false)
    (hold : ∀ {id t c}, s'.tasks id = some t → t.caller = some c → s.tasks id = some t)
    (hnone : ∀ {id}, s.tasks id = none → id < s.nextTask → s'.tasks id = none)
    (hnext : s.nextTask ≤ s'.nextTask) : Shutdowns (tr ++ out) s' := by
  refine ⟨fun ht hc hpath => ?_, fun {id c} hp => ?_, fun id => ?_⟩
  · exact List.mem_append_left _ (hi.tasks (hold ht hc) hc hpath)
  · rcases List.mem_append.mp hp with hp | hp
    · obtain ⟨hacc, hn, hlt⟩ := hi.power hp
      exact ⟨List.mem_append_left _ hacc, hnone hn hlt, Nat.lt_of_lt_of_le hlt hnext⟩
    · have := hout _ hp id
      simp [Output.shutdownBy] at this
  · have : out.countP (·.shutdownBy id) = 0 := by
      rw [List.countP_eq_zero]
      exact fun e he => by simp [hout e he id]
    rw [List.countP_append, this]
    exact hi.once id

theorem initial_caller (h : Task.initial t = true) : t.caller = none := by
  cases t <;> first | rfl | cases h

theorem Shutdowns.advance {s : AppState} {id : Nat} (hl : Locks s) (hi : Shutdowns tr s)
    (ht : s.tasks id = some t) (h : AppState.Advance C (s.tick env) env id t s' out) :
    Shutdowns (tr ++ out) s' := by
  obtain ⟨t', hm⟩ := h.moves
  have hid : id < s.nextTask := Nat.lt_of_not_le fun hle => by
    rw [hl.unborn id hle] at ht
    cases ht
  have hother {i} (hne : i ≠ id) : s'.tasks i = s.tasks i := by
    simp [hm.tasks, hne, AppState.tick]
  have hacc {c} (hc : t.caller = some c ∨ .accepted id c ∈ out) (hpath : c.path = .shutdown) :
      .accepted id c ∈ tr ++ out := by
    rcases hc with hc | hc
    · exact List.mem_append_left _ (hi.tasks ht hc hpath)
    · exact List.mem_append_right _ hc
  refine ⟨fun {i u c} hu hc hpath => ?_, fun {i c} hp => ?_, fun i => ?_⟩
  · by_cases hne : i = id
    · subst hne
      exact hacc (h.caller hu hc hpath) hpath
    · exact List.mem_append_left _ (hi.tasks ((hother hne).symm.trans hu) hc hpath)
  · rw [hm.nextTask]
    rcases List.mem_append.mp hp with hp | hp
    · obtain ⟨hin, hn, hlt⟩ := hi.power hp
      have hne : i ≠ id := by
        rintro rfl
        rw [hn] at ht
        cases ht
      exact ⟨List.mem_append_left _ hin, (hother hne).trans hn, hlt⟩
    · obtain ⟨rfl, hpath, hn, -, hc⟩ := h.power hp
      exact ⟨hacc hc hpath, hn, hid⟩
  · -- the task was there before the step, so it had carried out nothing yet
    rw [List.countP_append]
    by_cases hex : ∃ c, .powerShutdown i c ∈ out
    · obtain ⟨c, hp⟩ := hex
      obtain ⟨rfl, -, -, hcount, -⟩ := h.power hp
      have hzero : tr.countP (·.shutdownBy i) = 0 := by
        rw [List.countP_eq_zero]
        intro e he hby
        cases e <;> simp only [Output.shutdownBy, Bool.false_eq_true, decide_eq_true_eq] at hby
        subst hby
        rw [(hi.power he).2.1] at ht
        cases ht
      omega
    · have hzero : out.countP (·.shutdownBy i) = 0 := by
        rw [List.countP_eq_zero]
        intro e he hby
        cases e <;> simp only [Output.shutdownBy, Bool.false_eq_true, decide_eq_true_eq] at hby
        subst hby
        exact hex ⟨_, he⟩
      rw [hzero]
      exact hi.once i

theorem Shutdowns.next (hl : Locks s) (hi : Shutdowns tr s) (h : HostStep C s i s' out) :
    Shutdowns (tr ++ out) s' := by
  cases h with
  | answered =>
    exact hi.quiet (by simp [Output.shutdownBy]) (fun ht _ => ht) (fun hn _ => hn) (Nat.le_succ _)
  | spawned hinit =>
    refine hi.quiet (by simp) (fun {i t c} ht hc => ?_) (fun {i} hn hlt => ?_) (Nat.le_succ _)
    · simp only [AppState.goto] at ht
      split at ht
      · cases ht
        rw [initial_caller hinit] at hc
        cases hc
      · exact ht
    · simpa [AppState.goto, Nat.ne_of_lt hlt] using hn
  | advanced ht _ _ _ ha => exact hi.advance hl ht ha
  | cancelled =>
    refine hi.quiet (by simp) (fun ht _ => ?_) (fun hn _ => ?_) (Nat.le_refl _)
    · simp only [AppState.dropped, AppState.finish] at ht
      split at ht
      · cases ht
      · exact ht
    · simp [AppState.dropped, AppState.finish, hn]
  | restarted hb =>
    obtain ⟨p, -, rfl⟩ := boot_eq_some hb
    exact hi.quiet (by simp [Output.shutdownBy]) (by rintro _ _ _ ⟨⟩)
      (fun _ _ => rfl) (Nat.le_refl _)

-- ---------------------------------------------------------------------------
-- The persisted log
-- ---------------------------------------------------------------------------

theorem retainNonces_pruned {nonces : List AcceptedShutdownNonce} {readings : List Nat}
    (hlen : readings.length = nonces.length) (hmono : (wall :: readings).Pairwise (· ≤ ·)) :
    Pruned (fun e => e.timestamp.toNat + clockWindow < (readings.getLast?).getD wall) nonces
      (AppState.retainNonces nonces readings) := by
  refine Pruned.zip_filter hlen fun e reading hr hold => ?_
  have hlast := le_getLast hmono (List.mem_cons_of_mem _ hr)
  simp only [decide_eq_false_iff_not] at hold
  omega

/-- The record still refuses the request, or the request's window is over. -/
def Logged (J : HostIdentity) (c : Caller) (wall : Nat) : Prop :=
  J.credential = some c.context.credential →
    ⟨c.auth.timestamp, c.context.nonce⟩ ∈ J.acceptedShutdownNonces ∨
      c.auth.timestamp.toNat + clockWindow < wall

inductive Derived (identity stored : HostIdentity) (readings : List Nat) (out : List Output)
    (J : HostIdentity) : Prop
  | same (J₀ : HostIdentity) : J₀ = identity ∨ J₀ = stored → J.credential = J₀.credential →
      J.acceptedShutdownNonces = J₀.acceptedShutdownNonces → Derived identity stored readings out J
  | pruned : J.credential = identity.credential →
      readings.length = identity.acceptedShutdownNonces.length →
      AppState.retainNonces identity.acceptedShutdownNonces readings ⊆ J.acceptedShutdownNonces →
      Derived identity stored readings out J
  | paired {id : Nat} : .paired id request result ∈ out → J.credential = some result.credential →
      Derived identity stored readings out J

theorem Derived.logged (hd : Derived identity stored readings out J) (hi : Logged identity c wall)
    (hs : Logged stored c wall) (hmono : (wall :: readings).Pairwise (· ≤ ·))
    (hfresh : ∀ id request result, .paired id request result ∈ out →
      result.credential ≠ c.context.credential) :
    Logged J c ((readings.getLast?).getD wall) := by
  have hle := le_getLast hmono List.mem_cons_self
  intro hcred
  cases hd with
  | same J₀ hJ hc hn =>
    have h₀ : Logged J₀ c wall := by
      rcases hJ with rfl | rfl
      · exact hi
      · exact hs
    rw [hn]
    exact (h₀ (hc.symm.trans hcred)).imp_right fun h => Nat.lt_of_lt_of_le h hle
  | pruned hc hlen hsub =>
    rcases hi (hc.symm.trans hcred) with h | h
    · exact ((retainNonces_pruned hlen hmono).mem_or h).imp_left fun h => hsub h
    · exact .inr (Nat.lt_of_lt_of_le h hle)
  | paired hp hc => exact absurd (Option.some.inj (hc.symm.trans hcred)) (hfresh _ _ _ hp)

theorem AppState.Advance.derived {id : Nat} (hg : InstallsStored s) (ht : s.tasks id = some t)
    (hw : env.wall.length = s.wallReadings t) (h : AppState.Advance C s env id t s' out) :
    Derived s.identity s.stored env.wall out s'.identity ∧
      Derived s.identity s.stored env.wall out s'.stored := by
  have hid : Derived s.identity s.stored env.wall out s.identity := .same _ (.inl rfl) rfl rfl
  have hst : Derived s.identity s.stored env.wall out s.stored := .same _ (.inr rfl) rfl rfl
  cases h with
  | statusVerified _ h | versionKnown h | versionSet h =>
    obtain ⟨tasks, rfl⟩ := h.frame
    exact ⟨hid, hst⟩
  | nonceRefused => exact ⟨.pruned rfl hw (List.Subset.refl _), hst⟩
  | nonceSaved _ hu h =>
    obtain ⟨tasks, rfl⟩ := h.frame
    subst hu
    exact ⟨.pruned rfl hw (List.subset_append_left _ _),
      .pruned rfl hw (List.subset_append_left _ _)⟩
  | versionSaved hu =>
    subst hu
    exact ⟨.same s.identity (.inl rfl) rfl rfl, .same s.identity (.inl rfl) rfl rfl⟩
  | pairSaved hu =>
    subst hu
    exact ⟨.paired (.tail _ (.head _)) rfl, .paired (.tail _ (.head _)) rfl⟩
  | genSaved hg hu =>
    subst hu
    exact ⟨hid, .same s.identity (.inl rfl) rfl rfl⟩
  | genInstalled => exact ⟨.same s.stored (.inr rfl) (by rw [(hg ht).1]; rfl)
      (by rw [(hg ht).1]; rfl), hst⟩
  | _ => exact ⟨hid, hst⟩

-- ---------------------------------------------------------------------------
-- One acceptance for each request
-- ---------------------------------------------------------------------------

theorem AppState.Advance.accepted {id i : Nat} (h : AppState.Advance C s env id t s' out)
    (ha : .accepted i c ∈ out) :
    i = id ∧ t = .persistNonce c ∧
      (∀ seen ∈ AppState.retainNonces s.identity.acceptedShutdownNonces env.wall,
        seen.nonce ≠ c.context.nonce) ∧
      ⟨c.auth.timestamp, c.context.nonce⟩ ∈ s'.identity.acceptedShutdownNonces ∧
      ⟨c.auth.timestamp, c.context.nonce⟩ ∈ s'.stored.acceptedShutdownNonces := by
  have hno {c'} {u u' : AppState} {out} (h : u.Continues id c' u' out) : .accepted i c ∉ out := by
    cases h <;> simp
  cases h with
  | statusVerified _ h | versionKnown h | versionSet h => exact absurd ha (hno h)
  | nonceSaved hnew hu h =>
    simp only [List.mem_cons, reduceCtorEq, Output.accepted.injEq, false_or] at ha
    rcases ha with ⟨rfl, rfl⟩ | ha
    · obtain ⟨tasks, rfl⟩ := h.frame
      subst hu
      exact ⟨rfl, rfl, hnew, by simp, by simp⟩
    · exact absurd ha (hno h)
  | _ => simp at ha

def Caller.Parsed (c : Caller) : Prop := c.auth.nonce = c.context.nonce.val

structure AcceptedLog (start : AppState) (tr : List Output) (s : AppState) : Prop where
  current : ∀ {c}, s.identity.credential = some c ∨ s.stored.credential = some c →
    c ∈ credentials start tr
  waiting : ∀ {id c}, s.tasks id = some (.persistNonce c) → c.Parsed
  parsed : ∀ {id c}, .accepted id c ∈ tr → c.Parsed
  known : ∀ {id c}, .accepted id c ∈ tr → c.context.credential ∈ credentials start tr
  logged : ∀ {id c}, .accepted id c ∈ tr → Logged s.identity c s.wall ∧ Logged s.stored c s.wall
  once : ∀ {id c id' c'}, .accepted id c ∈ tr → .accepted id' c' ∈ tr →
    c.signed = c'.signed → id = id'

theorem credentials_append :
    credentials start (tr ++ out) = credentials start tr ++ out.filterMap (·.pairedCredential) := by
  simp [credentials]

theorem Derived.credential (hd : Derived identity stored readings out J)
    (hcur : ∀ {c}, identity.credential = some c ∨ stored.credential = some c →
      c ∈ credentials start tr)
    (hc : J.credential = some c) : c ∈ credentials start (tr ++ out) := by
  rw [credentials_append, List.mem_append]
  cases hd with
  | same J₀ hJ hc₀ _ =>
    rcases hJ with rfl | rfl
    · exact .inl (hcur (.inl (hc₀.symm.trans hc)))
    · exact .inl (hcur (.inr (hc₀.symm.trans hc)))
  | pruned hc₀ _ _ => exact .inl (hcur (.inl (hc₀.symm.trans hc)))
  | paired hp hc₀ =>
    obtain rfl := Option.some.inj (hc₀.symm.trans hc)
    exact .inr (List.mem_filterMap.mpr ⟨_, hp, rfl⟩)

theorem Logged.not_again {s : AppState} (hlog : Logged s.identity c s.wall)
    (hmono : (s.wall :: env.wall).Pairwise (· ≤ ·))
    (hlen : env.wall.length = s.identity.acceptedShutdownNonces.length)
    (hcred : s.identity.credential = some c.context.credential)
    (htime : (s.tick env).wall ≤ c.auth.timestamp.toNat + clockWindow) :
    ⟨c.auth.timestamp, c.context.nonce⟩ ∈
      AppState.retainNonces s.identity.acceptedShutdownNonces env.wall := by
  have htick : (s.tick env).wall = (env.wall.getLast?).getD s.wall := rfl
  rw [htick] at htime
  have hle := le_getLast hmono List.mem_cons_self
  rcases hlog hcred with hin | hpast
  · rcases (retainNonces_pruned hlen hmono).mem_or hin with h | h
    · exact h
    · exact absurd htime (Nat.not_le.mpr h)
  · omega

theorem HostStep.derived (hg : InstallsStored s) (h : HostStep C s i s' out)
    (hw : wallMonotone s i = true) :
    ∃ readings, (s.wall :: readings).Pairwise (· ≤ ·) ∧ s'.wall = (readings.getLast?).getD s.wall ∧
      Derived s.identity s.stored readings out s'.identity ∧
      Derived s.identity s.stored readings out s'.stored := by
  have hid (readings) : Derived s.identity s.stored readings out s.identity :=
    .same _ (.inl rfl) rfl rfl
  have hst (readings) : Derived s.identity s.stored readings out s.stored :=
    .same _ (.inr rfl) rfl rfl
  cases h with
  | answered | spawned | cancelled => exact ⟨[], by simp, rfl, hid _, hst _⟩
  | @advanced id t env _ _ ht _ hlen _ ha =>
    exact ⟨env.wall, of_decide_eq_true hw, ha.clocks.2.1,
      AppState.Advance.derived (s := s.tick env) (fun h => hg h) ht hlen ha⟩
  | @restarted env _ hb =>
    obtain ⟨p, -, rfl⟩ := boot_eq_some hb
    exact ⟨env.wall, of_decide_eq_true hw, rfl, hst _, hst _⟩

theorem HostStep.accepted {id : Nat} (h : HostStep C s i s' out) (ha : .accepted id c ∈ out) :
    ∃ env t, i = .advance id env ∧ s.tasks id = some t ∧ env.wall.length = s.wallReadings t ∧
      AppState.Advance C (s.tick env) env id t s' out := by
  cases h with
  | advanced ht _ hw _ h =>
    obtain ⟨rfl, -⟩ := h.accepted ha
    exact ⟨_, _, rfl, ht, hw, h⟩
  | _ => simp at ha

theorem AcceptedLog.waiting_next (hl : Locks s) (hi : AcceptedLog start tr s)
    (h : HostStep C s i s' out) {id : Nat} (ht : s'.tasks id = some (.persistNonce c)) :
    c.Parsed := by
  rcases h.task_cases hl ht with ⟨ht, -⟩ | hinit | ⟨env, u, -, -, -, -, -, ha⟩
  · exact hi.waiting ht
  · cases hinit
  · cases ha.enters ht with
    | serving h => cases h
    | persistNonce _ hn => exact hn

theorem AcceptedLog.next (hl : Locks s) (hg : InstallsStored s) (hi : AcceptedLog start tr s)
    (h : HostStep C s i s' out) (hw : wallMonotone s i = true) (ht : logInTime s i = true)
    (hfresh : (credentials start (tr ++ out)).Nodup) : AcceptedLog start (tr ++ out) s' := by
  obtain ⟨readings, hmono, hwall, hid, hst⟩ := h.derived hg hw
  -- what this step takes into the log was not in it
  have hnew {id c} (ha : .accepted id c ∈ out) :
      c.Parsed ∧ s.identity.credential = some c.context.credential ∧
        (∀ {id' c'}, .accepted id' c' ∈ tr → c.signed ≠ c'.signed) ∧
        Logged s'.identity c s'.wall ∧ Logged s'.stored c s'.wall := by
    obtain ⟨env, t, rfl, htask, hlen, hadv⟩ := h.accepted ha
    obtain ⟨-, rfl, hno, hin, hin'⟩ := hadv.accepted ha
    simp only [logInTime, htask, Bool.and_eq_true, decide_eq_true_eq] at ht
    refine ⟨hi.waiting htask, ht.2, fun {id' c'} ha' hsig =>
      ?_, fun _ => .inl hin, fun _ => .inl hin'⟩
    obtain ⟨hc, hts, hnonce, -⟩ : c.context.credential = c'.context.credential ∧
        c.auth.timestamp = c'.auth.timestamp ∧ c.auth.nonce = c'.auth.nonce ∧ _ := by
      simpa [Caller.signed] using hsig
    have hn : c'.context.nonce = c.context.nonce :=
      Subtype.ext (((hi.parsed ha').symm.trans hnonce.symm).trans (hi.waiting htask))
    have := (hi.logged ha').1.not_again (of_decide_eq_true hw) hlen (hc ▸ ht.2) (hts ▸ ht.1)
    exact hno _ this hn
  have hcreds : ∀ id request result, .paired id request result ∈ out →
      result.credential ∉ credentials start tr := by
    intro id request result hp hin
    rw [credentials_append] at hfresh
    exact (List.nodup_append.mp hfresh).2.2 _ hin _ (List.mem_filterMap.mpr ⟨_, hp, rfl⟩) rfl
  refine ⟨?_, ?_, ?_, ?_, ?_, ?_⟩
  · rintro c (hc | hc)
    · exact hid.credential hi.current hc
    · exact hst.credential hi.current hc
  · exact fun htask => hi.waiting_next hl h htask
  · intro id c ha
    rcases List.mem_append.mp ha with ha | ha
    · exact hi.parsed ha
    · exact (hnew ha).1
  · intro id c ha
    rw [credentials_append]
    refine List.mem_append_left _ ?_
    rcases List.mem_append.mp ha with ha | ha
    · exact hi.known ha
    · exact hi.current (.inl (hnew ha).2.1)
  · intro id c ha
    rcases List.mem_append.mp ha with ha | ha
    · obtain ⟨hlog, hlog'⟩ := hi.logged ha
      have hne : ∀ id request result, .paired id request result ∈ out →
          result.credential ≠ c.context.credential := by
        rintro j request result hp heq
        exact hcreds j request result hp (heq ▸ hi.known ha)
      rw [hwall]
      exact ⟨hid.logged hlog hlog' hmono hne, hst.logged hlog hlog' hmono hne⟩
    · exact (hnew ha).2.2.2
  · intro id c id' c' ha ha' hsig
    rcases List.mem_append.mp ha with ha | ha <;> rcases List.mem_append.mp ha' with ha' | ha'
    · exact hi.once ha ha' hsig
    · exact absurd hsig.symm ((hnew ha').2.2.1 ha)
    · exact absurd hsig ((hnew ha).2.2.1 ha')
    · -- one step takes at most one request
      obtain ⟨env, t, rfl, -, -, hadv⟩ := h.accepted ha
      exact (hadv.accepted ha').1.symm

theorem replay_boot (hboot : AppState.boot hostname stored nextTask wall env = some start) :
    Shutdowns [] start ∧ AcceptedLog start [] start := by
  obtain ⟨p, -, rfl⟩ := boot_eq_some hboot
  refine ⟨⟨by rintro _ _ _ ⟨⟩, by simp, by simp⟩, ?_⟩
  refine ⟨?_, by rintro _ _ ⟨⟩, by simp, by simp, by simp, by simp⟩
  rintro c (hc | hc) <;> simpa [credentials] using hc

theorem replay_run (hboot : AppState.boot hostname stored nextTask wall env = some start)
    (h : Run (hostStep C) (fun s i => wallMonotone s i = true ∧ logInTime s i = true) start tr s)
    (hfresh : (credentials start tr).Nodup) :
    Grounded C stored.hostId hostname s ∧ Shutdowns tr s ∧ AcceptedLog start tr s := by
  induction h with
  | refl => exact ⟨.boot hboot, replay_boot hboot⟩
  | next hr hp hs ih =>
    have hstep := hostStep_iff_cases hs
    obtain ⟨hg, hsh, ha⟩ := ih (by
      rw [credentials_append] at hfresh
      exact (List.nodup_append.mp hfresh).1)
    exact ⟨hg.next hstep, hsh.next hg.locks hstep,
      ha.next hg.locks hg.installs hstep hp.1 hp.2 hfresh⟩

/-- In every run whose look-ups in the persisted log come in time, and whose
pairings save credentials the host never had, no signed shutdown request
reaches the power controller twice. -/
theorem shutdown_at_most_once_in_time
    (hboot : AppState.boot hostname stored nextTask wall env = some start)
    (h : Run (hostStep C) (fun s i => wallMonotone s i = true ∧ logInTime s i = true) start tr s)
    (hfresh : (credentials start tr).Nodup) (q : Credential × UInt64 × Bytes × Bytes × Bytes) :
    tr.countP (·.shutsDown q) ≤ 1 := by
  obtain ⟨-, hs, ha⟩ := replay_run hboot h hfresh
  by_cases hex : ∃ id c, .powerShutdown id c ∈ tr ∧ c.signed = q
  · -- all shutdowns of the request are by the one task the log let pass
    obtain ⟨id, c, hp, rfl⟩ := hex
    refine Nat.le_trans (List.countP_mono_left fun e he hq => ?_) (hs.once id)
    cases e <;> simp only [Output.shutsDown, Bool.false_eq_true, decide_eq_true_eq] at hq
    simpa [Output.shutdownBy] using ha.once (hs.power he).1 (hs.power hp).1 hq
  · refine Nat.le_trans (Nat.le_of_eq (List.countP_eq_zero.mpr fun e he hq => ?_)) (Nat.zero_le 1)
    cases e <;> simp only [Output.shutsDown, Bool.false_eq_true, decide_eq_true_eq] at hq
    exact hex ⟨_, _, he, hq⟩

/-- A shutdown request of time 1000, signed under `[7; 32]`. -/
def shutdownHttp : HttpRequest where
  headers := [("content-type".toList, utf8 contentType),
    ("x-decky-timestamp".toList, utf8 "1000".toList),
    ("x-decky-nonce".toList, utf8 "09090909090909090909090909090909".toList),
    ("x-decky-signature".toList, utf8 <| hexEncode <|
      beBytes 32 0x5715ab3a28a8eca22e9f9576a4d86638a0b19132d851762c5648273d0e6a8a52)]
  body := [8, 1, 18, 5] ++ utf8 "0.1.0".toList

def shutdownCrates : Crates :=
  .fixed [132, 197, 174, 9, 117, 197, 52, 228, 69, 80, 71, 53, 213, 83, 4, 179,
    143, 123, 239, 117, 213,
      120, 87, 29, 198, 152, 167, 26, 88, 189, 108, 59]
    [87, 21, 171, 58, 40, 168, 236, 162, 46, 159, 149, 118, 164, 216, 102, 56, 160, 177, 145, 50,
      216, 81, 118, 44, 86, 72, 39, 61, 14, 106, 138, 82]

def pairedHost : HostIdentity where
  hostId := repeated 16 0
  credential := some (repeated 32 7)
  pairingCode := none
  pairingCreatedAt := 0
  acceptedShutdownNonces := []
  lastClientVersion := some hostVersion

def pairedStart : AppState where
  hostname := []
  identity := pairedHost
  stored := pairedHost
  pairing := .generate 0 0
  authenticator := .new
  latestClientVersion := some hostVersion
  identityLock := none
  pairingLock := none
  tasks _ := none
  nextTask := 0
  clock := 0
  wall := 0

theorem boot_pairedStart : AppState.boot [] pairedHost 0 0 (.sample []) = some pairedStart := rfl

/-- The request arrives, is verified at `now`, and consults the log at the
readings given. -/
def shutdownAttempt (id now : Nat) (readings : List Nat) : List Input :=
  [.request (.authenticated .shutdown shutdownHttp), .advance id (.sample [now]),
    .advance id (.sample []), .advance id (.sample readings), .advance id (.sample [])]

/-- Carried out at 1000; after a restart verified again at 1060, the last
second of its window, and looked up in the log at 1061. -/
theorem shutdown_replayed_after_restart :
    AppState.boot [] pairedHost 0 0 (.sample []) = some pairedStart ∧
    ∃ tr s, Run (hostStep shutdownCrates) (fun s i => wallMonotone s i = true) pairedStart tr s ∧
      ∃ q, tr.countP (·.shutsDown q) = 2 := by
  obtain ⟨tr, s, hrun, hp⟩ := Run.exists_of_exec (hostStep shutdownCrates)
    (fun s i => wallMonotone s i = true) pairedStart
    (shutdownAttempt 0 1000 [] ++ .restart (.sample []) :: shutdownAttempt 1 1060 [1061])
    (fun _ tr => tr.countP (·.shutsDown (⟨List.replicate 32 7, rfl⟩, 1000, List.replicate 16 9,
      shutdownCrates.hmac [] [], shutdownHttp.body)) = 2) (by decide)
  exact ⟨rfl, tr, s, hrun, _, of_decide_eq_true hp⟩

/-- Looked up at 1060, the replay is refused. -/
theorem shutdown_refused_after_restart :
    ∃ tr s, Run (hostStep shutdownCrates)
      (fun s i => wallMonotone s i = true ∧ logInTime s i = true)
        pairedStart tr s ∧ 1 ≤ tr.countP (fun e => e matches .powerShutdown ..) ∧
      ∀ q, tr.countP (·.shutsDown q) ≤ 1 := by
  obtain ⟨tr, s, hrun, hp⟩ := Run.exists_of_exec (hostStep shutdownCrates)
    (fun s i => wallMonotone s i = true ∧ logInTime s i = true) pairedStart
    (shutdownAttempt 0 1000 [] ++ .restart (.sample []) :: (shutdownAttempt 1 1060 [1060]).take 4)
    (fun _ tr => 1 ≤ tr.countP (fun e => e matches .powerShutdown ..) &&
      (credentials pairedStart tr).Nodup) (by decide)
  simp only [Bool.and_eq_true, decide_eq_true_eq] at hp
  exact ⟨tr, s, hrun, hp.1, shutdown_at_most_once_in_time boot_pairedStart hrun hp.2⟩

end DeckyMyRig.Host
