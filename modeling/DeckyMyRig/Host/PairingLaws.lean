import DeckyMyRig.Host.Pairing

/-!
# What the pairing methods do

One law for each outcome of `start_for_source`, `finish` and `commit`. The
session whose confirmation a `finish` call checks is named by `checking`: the
pending session that is left after pruning, is not completed and has not aged
past the lifetime at the second look.
-/

namespace DeckyMyRig.Host

open Octets

theorem elapsed_mono (since : Nat) (h : t ≤ t') : elapsed since t ≤ elapsed since t' :=
  Nat.sub_le_sub_right h since

namespace PairingCode

-- ---------------------------------------------------------------------------
-- Pruning
-- ---------------------------------------------------------------------------

@[simp] theorem pruneSessions_failuresOf (p : PairingCode) :
    (p.pruneSessions r).failuresOf source = p.failuresOf source := rfl

theorem pending_pruneSessions {p : PairingCode} :
    (p.pruneSessions r).pending.lookup s = some e ↔
      p.pending.lookup s = some e ∧ elapsed e.created (r.pendingAt s) ≤ pairingLifetime := by
  simp [pruneSessions, AList.lookup_retain_some]

theorem completed_pruneSessions {p : PairingCode} :
    (p.pruneSessions r).completed.lookup s = some c ↔
      p.completed.lookup s = some c ∧ elapsed c.created (r.completedAt s) ≤ pairingLifetime := by
  simp [pruneSessions, AList.lookup_retain_some]

theorem pruneSessions_completed_empty {p : PairingCode} (h : p.completed = ∅) :
    (p.pruneSessions r).completed = ∅ := by
  simp [pruneSessions, h]

theorem pruneSessions_twice (p : PairingCode) :
    (p.pruneSessions r).pruneSessions r = p.pruneSessions r := by
  simp [pruneSessions, AList.retain_retain]

/-- `p'` is `p` with sessions dropped and failures counted, at the readings
`r`. -/
structure Within (p' : PairingCode) (r : Readings) (p : PairingCode) : Prop where
  code : p'.code = p.code
  created : p'.created = p.created
  pending : ∀ {k e}, p'.pending.lookup k = some e → p.pending.lookup k = some e
  completed : ∀ {k c}, p'.completed.lookup k = some c → p.completed.lookup k = some c
  kept : ∀ {k c}, p.completed.lookup k = some c →
    p'.completed.lookup k = some c ∨ pairingLifetime < elapsed c.created r.last

theorem Within.refl (p : PairingCode) : p.Within r p :=
  ⟨rfl, rfl, fun h => h, fun h => h, fun h => .inl h⟩

theorem Within.trans {p p' p'' : PairingCode} (h : p''.Within r p') (h' : p'.Within r p) :
    p''.Within r p := by
  refine ⟨h.code.trans h'.code, h.created.trans h'.created, fun he => h'.pending (h.pending he),
    fun hc => h'.completed (h.completed hc), fun hc => ?_⟩
  rcases h'.kept hc with hc | hold
  · exact h.kept hc
  · exact .inr hold

theorem pruneSessions_within (p : PairingCode) : (p.pruneSessions r).Within r p := by
  refine ⟨rfl, rfl, fun h => (pending_pruneSessions.mp h).1, fun h =>
    (completed_pruneSessions.mp h).1, fun {k c} hc => ?_⟩
  rcases Nat.lt_or_ge pairingLifetime (elapsed c.created (r.completedAt k)) with hold | hage
  · exact .inr (Nat.lt_of_lt_of_le hold (elapsed_mono _ (r.le_last k).2))
  · exact .inl (completed_pruneSessions.mpr ⟨hc, hage⟩)

-- ---------------------------------------------------------------------------
-- Starting
-- ---------------------------------------------------------------------------

def startedSession (C : Crates) (code : Code) (clientMessage : Bytes) (source : Option IpAddr)
    (r : Readings) (entropy : Bytes) (sessionId : SessionId) (shared : Bytes) : PendingPairing where
  sessionId
  shared
  clientMessage
  hostMessage := C.startB (utf8 code) clientId hostIdentityName entropy
  created := r.last
  source

theorem startForSource_ok {p : PairingCode}
    (h : p.startForSource C clientMessage source r entropy sessionId = (p', .ok started)) :
    ∃ shared, C.finishB (utf8 p.code) clientId hostIdentityName entropy clientMessage =
      some shared ∧
      let session := startedSession C p.code clientMessage source r entropy sessionId shared
      p' = { p.pruneSessions r with pending :=
        (p.pruneSessions r).pending.insert sessionId session } ∧
      started = ⟨session.hostMessage, sessionId⟩ ∧
      elapsed p.created r.first ≤ pairingLifetime ∧ (p.pruneSessions r).limited source = false := by
  unfold startForSource at h
  split at h
  · cases h
  · rename_i hage
    simp only at h
    split at h
    · cases h
    · rename_i hlim
      split at h
      · cases h
      · rename_i shared hshared
        obtain ⟨rfl, hok⟩ := Prod.mk.inj h
        exact ⟨shared, hshared, rfl, (Except.ok.inj hok).symm, by simpa using hage,
          by simpa using hlim⟩

theorem startForSource_error {p : PairingCode}
    (h : p.startForSource C clientMessage source r entropy sessionId = (p', .error e)) :
    p' = p ∨ p' = p.pruneSessions r := by
  unfold startForSource at h
  split at h
  · exact .inl (Prod.mk.inj h).1.symm
  · simp only at h
    repeat' split at h
    all_goals first
      | exact .inr (Prod.mk.inj h).1.symm
      | cases h

theorem startForSource_within {p : PairingCode}
    (h : p.startForSource C clientMessage source r entropy sessionId = (p', .error e)) :
    p'.Within r p := by
  obtain rfl | rfl := startForSource_error h
  · exact .refl _
  · exact pruneSessions_within p

-- ---------------------------------------------------------------------------
-- Finishing
-- ---------------------------------------------------------------------------

/-- The pending session whose confirmation `finish` checks. -/
def checking (p : PairingCode) (sessionId : Bytes) (r : Readings) : Option PendingPairing :=
  match Block.ofBytes 16 sessionId with
  | none => none
  | some s =>
    match (p.pruneSessions r).completed.lookup s with
    | some _ => none
    | none => ((p.pruneSessions r).pending.lookup s).filter fun e =>
        elapsed e.created r.last ≤ pairingLifetime

theorem checking_eq_some {p : PairingCode} :
    p.checking sessionId r = some e ↔ ∃ s : SessionId, sessionId = s.val ∧
      (p.pruneSessions r).completed.lookup s = none ∧
      (p.pruneSessions r).pending.lookup s = some e ∧ elapsed e.created r.last ≤
        pairingLifetime := by
  constructor
  · intro h
    unfold checking at h
    split at h
    · cases h
    · rename_i s hs
      split at h
      · cases h
      · rename_i hc
        obtain ⟨hp, hage⟩ := Option.filter_eq_some_iff.mp h
        exact ⟨s, Block.ofBytes_eq_some.mp hs, hc, hp, of_decide_eq_true hage⟩
  · rintro ⟨s, rfl, hc, hp, hage⟩
    unfold checking
    simp only [Block.ofBytes_val, hc, hp, Option.filter_some, hage, decide_true, ↓reduceIte]

theorem checking_pruneSessions (p : PairingCode) :
    (p.pruneSessions r).checking sessionId r = p.checking sessionId r := by
  simp only [checking, pruneSessions_twice]

def charged (p : PairingCode) (s : SessionId) (source : Option IpAddr) : PairingCode :=
  { p with
    pending := p.pending.erase s
    confirmationFailures :=
      p.confirmationFailures.insert source (min (p.failuresOf source + 1) 255) }

theorem finish_checking {p : PairingCode} (C : Crates) (confirmation : Bytes)
    (context : CredentialContext) (credential : Credential) (nonce : Block 12)
    (h : p.checking sessionId r = some e) :
    ∃ s : SessionId, sessionId = s.val ∧
      p.finish C sessionId confirmation context r credential nonce =
        if confirmation = confirmationTag C e then
          (p.pruneSessions r, issue C e context credential nonce)
        else ((p.pruneSessions r).charged s e.source,
          .error (if min (p.failuresOf e.source + 1) 255 ≥ maxConfirmationFailures then .rateLimited
            else .invalid)) := by
  obtain ⟨s, rfl, hc, hp, hage⟩ := checking_eq_some.mp h
  refine ⟨s, rfl, ?_⟩
  unfold finish
  simp only [Block.ofBytes_val, hc, hp, Nat.not_lt.mpr hage, ↓reduceIte]
  by_cases heq : confirmation = confirmationTag C e
  · rw [if_neg (not_not.mpr heq), if_pos heq]
  · rw [if_pos heq, if_neg heq]
    rfl

theorem finish_right {p : PairingCode} (context : CredentialContext) (credential : Credential)
    (nonce : Block 12) (h : p.checking sessionId r = some e)
    (ht : confirmation = confirmationTag C e) :
    p.finish C sessionId confirmation context r credential nonce =
      (p.pruneSessions r, issue C e context credential nonce) := by
  obtain ⟨s, -, heq⟩ := finish_checking C confirmation context credential nonce h
  rw [heq, if_pos ht]

/-- Without a session to check, `finish` at most prunes, and succeeds only as
the repetition of a completed pairing. -/
theorem finish_not_checking {p : PairingCode} (h : p.checking sessionId r = none)
    (hf : p.finish C sessionId confirmation context r credential nonce = (p', answer)) :
    (Block.ofBytes 16 sessionId = none ∧ p' = p ∨ p' = p.pruneSessions r) ∧
      (answer = .error .invalid ∨ ∃ (s : SessionId) (c : CompletedPairing), sessionId = s.val ∧
        p' = p.pruneSessions r ∧ (p.pruneSessions r).completed.lookup s = some c ∧
        c.confirmation = confirmation ∧ answer = .ok c.result) := by
  unfold finish at hf
  cases hs : Block.ofBytes 16 sessionId with
  | none =>
    simp only [hs] at hf
    obtain ⟨rfl, rfl⟩ := Prod.mk.inj hf
    exact ⟨.inl ⟨rfl, rfl⟩, .inl rfl⟩
  | some s =>
    obtain rfl := Block.ofBytes_eq_some.mp hs
    simp only [hs] at hf
    split at hf
    · rename_i c hc
      split at hf
      · rename_i hcc
        obtain ⟨rfl, rfl⟩ := Prod.mk.inj hf
        exact ⟨.inr rfl, .inr ⟨s, c, rfl, rfl, hc, hcc, rfl⟩⟩
      · obtain ⟨rfl, rfl⟩ := Prod.mk.inj hf
        exact ⟨.inr rfl, .inl rfl⟩
    · rename_i hc
      split at hf
      · obtain ⟨rfl, rfl⟩ := Prod.mk.inj hf
        exact ⟨.inr rfl, .inl rfl⟩
      · rename_i e hp
        split at hf
        · obtain ⟨rfl, rfl⟩ := Prod.mk.inj hf
          exact ⟨.inr rfl, .inl rfl⟩
        · rename_i hage
          have := checking_eq_some.mpr ⟨s, rfl, hc, hp, by simpa using hage⟩
          rw [h] at this
          cases this

theorem finish_completed {p : PairingCode} {s : SessionId}
    (h : (p.pruneSessions r).completed.lookup s = some c) :
    p.finish C s.val confirmation context r credential nonce =
      (p.pruneSessions r, if c.confirmation = confirmation then
        .ok c.result else .error .invalid) := by
  unfold finish
  simp only [Block.ofBytes_val, h]
  split <;> rfl

theorem finish_ok {p : PairingCode}
    (h : p.finish C sessionId confirmation context r credential nonce = (p', .ok result)) :
    p' = p.pruneSessions r ∧
      ((∃ (s : SessionId) (c : CompletedPairing), sessionId = s.val ∧
          (p.pruneSessions r).completed.lookup s = some c ∧ c.confirmation = confirmation ∧
          c.result = result) ∨
        ∃ e, p.checking sessionId r = some e ∧ confirmation = confirmationTag C e ∧
          issue C e context credential nonce = .ok result) := by
  cases hch : p.checking sessionId r with
  | none =>
    obtain ⟨-, hbad | ⟨s, c, hs, rfl, hc, hcc, hr⟩⟩ := finish_not_checking hch h
    · cases hbad
    · exact ⟨rfl, .inl ⟨s, c, hs, hc, hcc, (Except.ok.inj hr).symm⟩⟩
  | some e =>
    obtain ⟨s, -, heq⟩ := finish_checking C confirmation context credential nonce hch
    rw [heq] at h
    split at h
    · rename_i ht
      obtain ⟨rfl, hi⟩ := Prod.mk.inj h
      exact ⟨rfl, .inr ⟨e, rfl, ht, hi⟩⟩
    · cases h

theorem isCompleted_val {p : PairingCode} {s : SessionId} :
    p.isCompleted s.val = (p.completed.lookup s).isSome := by
  simp [isCompleted]

theorem finish_new {p : PairingCode}
    (h : p.finish C sessionId confirmation context r credential nonce = (p', .ok result))
    (hnew : p.isCompleted sessionId = false) :
    p' = p.pruneSessions r ∧ ∃ e, p.checking sessionId r = some e ∧
      confirmation = confirmationTag C e ∧ issue C e context credential nonce = .ok result := by
  obtain ⟨hp', ⟨s, c, hs, hlook, -⟩ | hchecked⟩ := finish_ok h
  · rw [hs, isCompleted_val, (completed_pruneSessions.mp hlook).1] at hnew
    cases hnew
  · exact ⟨hp', hchecked⟩

theorem finish_repeated {p : PairingCode}
    (h : p.finish C sessionId confirmation context r credential nonce = (p', .ok result))
    (hcompleted : p.isCompleted sessionId = true)
    (hapart : ∀ s c, p.completed.lookup s = some c → p.pending.lookup s = none) :
    p' = p.pruneSessions r ∧ ∃ (s : SessionId) (c : CompletedPairing), sessionId = s.val ∧
      (p.pruneSessions r).completed.lookup s = some c ∧ c.confirmation = confirmation ∧
      c.result = result := by
  obtain ⟨hp', hrecord | ⟨e, hch, -⟩⟩ := finish_ok h
  · exact ⟨hp', hrecord⟩
  · obtain ⟨s, hs, -, hpending, -⟩ := checking_eq_some.mp hch
    rw [hs, isCompleted_val] at hcompleted
    obtain ⟨c, hlook⟩ := Option.isSome_iff_exists.mp hcompleted
    cases (hapart s c hlook).symm.trans (pending_pruneSessions.mp hpending).1

theorem charged_within (p : PairingCode) : (p.charged s source).Within r p := by
  refine ⟨rfl, rfl, fun {k e} he => ?_, fun h => h, fun h => .inl h⟩
  simp only [charged, AList.lookup_erase'] at he
  split at he
  · cases he
  · exact he

theorem finish_within {p : PairingCode}
    (h : p.finish C sessionId confirmation context r credential nonce = (p', answer)) :
    p'.Within r p := by
  cases hch : p.checking sessionId r with
  | none =>
    obtain ⟨⟨-, rfl⟩ | rfl, -⟩ := finish_not_checking hch h
    · exact .refl _
    · exact pruneSessions_within p
  | some e =>
    obtain ⟨s, -, heq⟩ := finish_checking C confirmation context credential nonce hch
    rw [heq] at h
    split at h <;> obtain ⟨rfl, -⟩ := Prod.mk.inj h
    · exact pruneSessions_within p
    · exact (charged_within _).trans (pruneSessions_within p)

end PairingCode

def AadFits (hostMessage sessionId : Bytes) (context : CredentialContext) : Prop :=
  ∀ field ∈ [hostMessage, sessionId, utf8 context.hostname, utf8 context.hostVersion,
    utf8 context.hostId], field.length < 65536

instance : Decidable (AadFits hostMessage sessionId context) := by
  unfold AadFits
  infer_instance

theorem appendFields_eq (fields : List Bytes) (aad : Bytes) :
    fields.foldlM (fun aad field => if field.length < 65536 then Except.ok (aad ++ prefixed field)
        else .error PairingError.invalid) aad =
      if ∀ field ∈ fields, field.length < 65536 then Except.ok (aad ++ fields.flatMap prefixed)
      else .error .invalid := by
  induction fields generalizing aad with
  | nil => simp [pure, Except.pure]
  | cons field fields ih =>
    rw [List.foldlM_cons]
    by_cases hf : field.length < 65536
    · simp only [hf, ↓reduceIte, bind, Except.bind, ih, List.forall_mem_cons, true_and,
        List.flatMap_cons, List.append_assoc]
    · simp [hf, bind, Except.bind]

theorem credentialAad_eq :
    credentialAad hostMessage sessionId context =
      if AadFits hostMessage sessionId context then
        .ok (credentialAadDomain ++ [hostMessage, sessionId, utf8 context.hostname,
          utf8 context.hostVersion, utf8 context.hostId].flatMap prefixed ++
          beBytes 4 context.protocolVersion.toNat)
      else .error .invalid := by
  unfold credentialAad
  rw [appendFields_eq]
  by_cases h : AadFits hostMessage sessionId context
  · rw [if_pos h]
    unfold AadFits at h
    rw [if_pos h]
    rfl
  · rw [if_neg h]
    unfold AadFits at h
    rw [if_neg h]
    rfl

theorem issue_unfit (h : ¬ AadFits e.hostMessage e.sessionId.val context) :
    issue C e context credential nonce = .error .invalid := by
  unfold issue
  rw [credentialAad_eq, if_neg h]
  rfl

theorem issue_fits (C : Crates) (credential : Credential) (nonce : Block 12)
    (h : AadFits e.hostMessage e.sessionId.val context) :
    ∃ result, issue C e context credential nonce = .ok result := by
  unfold issue
  rw [credentialAad_eq, if_pos h]
  exact ⟨_, rfl⟩

theorem issue_ok (h : issue C e context credential nonce = .ok result) :
    result.credential = credential ∧ result.hostMessage = e.hostMessage ∧ result.nonce = nonce ∧
      ∃ aad, credentialAad e.hostMessage e.sessionId.val context = .ok aad ∧
        result.encryptedCredential =
          C.encrypt (C.hkdf e.shared credentialInfo) nonce.val credential.val aad := by
  unfold issue at h
  cases haad : credentialAad e.hostMessage e.sessionId.val context with
  | error _ => simp [haad, bind, Except.bind] at h
  | ok aad =>
    simp only [haad, bind, Except.bind, pure, Except.pure, Except.ok.injEq] at h
    subst h
    exact ⟨rfl, rfl, rfl, aad, rfl, rfl⟩

namespace PairingCode

-- ---------------------------------------------------------------------------
-- Committing
-- ---------------------------------------------------------------------------

theorem subDuration_lifetime (t : Nat) :
    (subDuration t pairingLifetime).bind (subDuration · (seconds 1)) =
      if seconds 301 ≤ t then some (t - seconds 301) else none := by
  unfold subDuration pairingLifetime seconds
  by_cases ht : 301 * 1000000000 ≤ t
  · have h1 : 300 * 1000000000 ≤ t := by omega
    have h2 : 1 * 1000000000 ≤ t - 300 * 1000000000 := by omega
    rw [if_pos h1, Option.bind_some, if_pos h2, if_pos ht, Nat.sub_sub]
  · rw [if_neg ht]
    by_cases h1 : 300 * 1000000000 ≤ t
    · rw [if_pos h1, Option.bind_some, if_neg (by omega)]
    · rw [if_neg h1, Option.bind_none]

def committed (p : PairingCode) (s : SessionId) (confirmation : Bytes) (result : PairingResult)
    (at_ : Nat) : PairingCode :=
  { p with
    pending := ∅
    completed :=
      (∅ : AList fun _ : SessionId => CompletedPairing).insert s ⟨confirmation, result, at_⟩ }

theorem commit_pending {p : PairingCode} {s : SessionId} (h : p.pending.lookup s ≠ none) :
    p.commit s.val confirmation result r =
      if seconds 301 ≤ r.last then
        ({ p.committed s confirmation result r.first with created := r.last - seconds 301 }, .ok ())
      else (p.committed s confirmation result r.first, .panic) := by
  have hn : (p.pending.lookup s).isNone = false := by
    cases hl : p.pending.lookup s with
    | none => exact absurd hl h
    | some e => rfl
  unfold commit
  simp only [Block.ofBytes_val, hn, Bool.false_eq_true, ↓reduceIte]
  rw [subDuration_lifetime]
  by_cases ht : seconds 301 ≤ r.last
  · rw [if_pos ht, if_pos ht]
    rfl
  · rw [if_neg ht, if_neg ht]
    rfl

theorem commit_unknown {p : PairingCode}
    (h : ∀ s : SessionId, sessionId = s.val → p.pending.lookup s = none) :
    p.commit sessionId confirmation result r = (p, .error .invalid) := by
  unfold commit
  cases hs : Block.ofBytes 16 sessionId with
  | none => rfl
  | some s => simp [h s (Block.ofBytes_eq_some.mp hs)]

/-- A commit is refused, or empties the pending table and completes one of its
sessions. -/
theorem commit_cases {p : PairingCode}
    (h : p.commit sessionId confirmation result r = (p', answer)) :
    p' = p ∧ answer = .error .invalid ∨
      ∃ (s : SessionId) (e : PendingPairing), sessionId = s.val ∧ p.pending.lookup s = some e ∧
        p'.code = p.code ∧ p'.pending = ∅ ∧
        p'.completed = (p.committed s confirmation result r.first).completed ∧
        (answer = .ok () ∧ seconds 301 ≤ r.last ∧ p'.created = r.last - seconds 301 ∨
          answer = .panic ∧ r.last < seconds 301 ∧ p'.created = p.created) := by
  by_cases hk : ∀ s : SessionId, sessionId = s.val → p.pending.lookup s = none
  · rw [commit_unknown hk] at h
    obtain ⟨rfl, rfl⟩ := Prod.mk.inj h
    exact .inl ⟨rfl, rfl⟩
  · simp only [not_forall] at hk
    obtain ⟨s, rfl, hs⟩ := hk
    obtain ⟨e, he⟩ := Option.ne_none_iff_exists'.mp hs
    rw [commit_pending hs] at h
    split at h
    · rename_i ht
      obtain ⟨rfl, rfl⟩ := Prod.mk.inj h
      exact .inr ⟨s, e, rfl, he, rfl, rfl, rfl, .inl ⟨rfl, ht, rfl⟩⟩
    · rename_i ht
      obtain ⟨rfl, rfl⟩ := Prod.mk.inj h
      exact .inr ⟨s, e, rfl, he, rfl, rfl, rfl, .inr ⟨rfl, Nat.not_le.mp ht, rfl⟩⟩

-- ---------------------------------------------------------------------------
-- Replacing the code
-- ---------------------------------------------------------------------------

theorem regenerate_eq_some {p p' : PairingCode} (h : p.regenerate draws = some p') :
    ∃ d ∈ draws, p' = generate d.1 d.2 ∧ p'.code ≠ p.code := by
  induction draws with
  | nil => cases h
  | cons d draws ih =>
    obtain ⟨value, now⟩ := d
    simp only [regenerate] at h
    split at h
    · rename_i hne
      cases h
      exact ⟨(value, now), by simp, rfl, hne⟩
    · obtain ⟨d, hd, hp⟩ := ih h
      exact ⟨d, List.mem_cons_of_mem _ hd, hp⟩

end PairingCode

end DeckyMyRig.Host
