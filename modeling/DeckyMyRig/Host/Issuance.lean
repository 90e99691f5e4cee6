import DeckyMyRig.Host.PairingRuns
import DeckyMyRig.Lib.Lists

/-!
# Where an issued credential comes from

A credential that `finish` issues for a session that is not completed yet goes
back to one start of that session, under the code and inside the lifetimes, and
nothing in between took the session away. A pending entry carries that history
with it, or it is past its lifetime at every later reading.
-/

namespace DeckyMyRig.Host

open Octets Machine

/-- A call after which a pending session `s` can still be there: no code
replacement, no commit that took effect, and a failed `finish` of `s` only for
the right confirmation and associated data that does not fit. -/
def PairingCall.Keeps (C : Crates) (s : SessionId) (call : PairingCall) : Prop :=
  match call.op, call.answer with
  | .start .., _ => True
  | .finish sessionId confirmation context r _ _, .finished (.error _) =>
    sessionId = s.val → ∃ e, call.before.checking sessionId r = some e ∧
      confirmation = confirmationTag C e ∧ ¬ AadFits e.hostMessage e.sessionId.val context
  | .finish .., _ => True
  | .commit .., answer => answer = .committed (.error .invalid)
  | .regenerate _, _ => False

/-- The call started session `s`, under a code inside its lifetime, and left
`e` pending. -/
def PairingCall.Starts (C : Crates) (s : SessionId) (e : PendingPairing) (call : PairingCall) :
    Prop :=
  ∃ clientMessage source r entropy shared,
    call.op = .start clientMessage source r entropy s ∧
    call.answer = .started (.ok ⟨e.hostMessage, s⟩) ∧
    C.finishB (utf8 call.before.code) clientId hostIdentityName entropy clientMessage =
      some shared ∧
    e = PairingCode.startedSession C call.before.code clientMessage source r entropy s shared ∧
    elapsed call.before.created r.first ≤ pairingLifetime

def Origin (C : Crates) (clean : PairingCall → Prop) (s : SessionId) (e : PendingPairing)
    (tr : List PairingCall) : Prop :=
  ∃ pre start mid, tr = pre ++ start :: mid ∧ start.Starts C s e ∧ ∀ call ∈ mid, clean call

theorem Origin.append (h : Origin C clean s e tr) (hc : clean call) :
    Origin C clean s e (tr ++ [call]) := by
  obtain ⟨pre, start, mid, rfl, hs, hm⟩ := h
  refine ⟨pre, start, mid ++ [call], by simp, hs, ?_⟩
  rw [List.forall_mem_append]
  exact ⟨hm, by simpa using hc⟩

-- ---------------------------------------------------------------------------
-- One call
-- ---------------------------------------------------------------------------

theorem start_entry {p p' : PairingCode}
    (h : p.startForSource C clientMessage source r entropy sessionId = (p', answer))
    (he : p'.pending.lookup s = some e) :
    p.pending.lookup s = some e ∨
      PairingCall.Starts C s e ⟨p, .start clientMessage source r entropy sessionId,
        .started answer⟩ := by
  cases answer with
  | error err =>
    exact .inl ((PairingCode.startForSource_within h).pending he)
  | ok started =>
    obtain ⟨shared, hsh, rfl, rfl, hage, -⟩ := PairingCode.startForSource_ok h
    rw [AList.lookup_insert'] at he
    split at he
    · rename_i heq
      subst heq
      obtain rfl := Option.some.inj he
      exact .inr ⟨clientMessage, source, r, entropy, shared, rfl, rfl, hsh, rfl, hage⟩
    · exact .inl (PairingCode.pending_pruneSessions.mp he).1

theorem finish_keeps {p p' : PairingCode}
    (h : p.finish C sessionId confirmation context r credential nonce = (p', answer))
    (he : p'.pending.lookup s = some e) (hc : p.completed.lookup s = none) :
    PairingCall.Keeps C s ⟨p, .finish sessionId confirmation context r credential nonce,
      .finished answer⟩ ∨ pairingLifetime < elapsed e.created r.last := by
  cases answer with
  | ok result => exact .inl trivial
  | error err =>
    by_cases hs : sessionId = s.val
    · subst hs
      cases hch : p.checking s.val r with
      | none =>
        obtain ⟨⟨hbad, rfl⟩ | rfl, -⟩ := PairingCode.finish_not_checking hch h
        · simp at hbad
        · refine .inr (Nat.lt_of_not_le fun hage => ?_)
          have hpc : (p.pruneSessions r).completed.lookup s = none := by
            simp [PairingCode.pruneSessions, AList.lookup_retain, hc]
          rw [PairingCode.checking_eq_some.mpr ⟨s, rfl, hpc, he, hage⟩] at hch
          cases hch
      | some e' =>
        obtain ⟨s', hs', heq⟩ :=
          PairingCode.finish_checking C confirmation context credential nonce hch
        obtain rfl : s = s' := Subtype.ext hs'
        rw [heq] at h
        split at h
        · rename_i ht
          refine .inl fun _ => ⟨e', hch, ht, fun hfit => ?_⟩
          obtain ⟨result, hok⟩ := issue_fits C credential nonce hfit
          rw [hok] at h
          cases h
        · -- a wrong confirmation takes its session away
          obtain ⟨rfl, -⟩ := Prod.mk.inj h
          simp [PairingCode.charged] at he
    · exact .inl fun heq => absurd heq hs

theorem start_completed {p p' : PairingCode}
    (h : p.startForSource C clientMessage source r entropy sessionId = (p', answer))
    (hc : p'.completed.lookup s = some c) : p.completed.lookup s = some c := by
  cases answer with
  | error err =>
    exact (PairingCode.startForSource_within h).completed hc
  | ok started =>
    obtain ⟨shared, -, rfl, -⟩ := PairingCode.startForSource_ok h
    exact (PairingCode.completed_pruneSessions.mp hc).1

-- ---------------------------------------------------------------------------
-- Runs
-- ---------------------------------------------------------------------------

def Fresh (s : CodeState) (op : PairingOp) : Prop := ∀ id ∈ op.sessionIds, id ∉ s.drawn

instance : Decidable (Fresh s op) := by
  unfold Fresh
  infer_instance

structure Accounted (C : Crates) (tr : List PairingCall) (s : CodeState) : Prop where
  pendingDrawn : ∀ {k e}, s.pairing.pending.lookup k = some e → k ∈ s.drawn
  completedDrawn : ∀ {k c}, s.pairing.completed.lookup k = some c → k ∈ s.drawn
  apart : ∀ {k e}, s.pairing.pending.lookup k = some e → s.pairing.completed.lookup k = none
  origin : ∀ {k e}, s.pairing.pending.lookup k = some e →
    Origin C (·.Keeps C k) k e tr ∨ pairingLifetime < elapsed e.created s.clock

section
variable {clock : Nat} {drawn : List SessionId} (hi : Accounted C tr s) (hclock : s.clock ≤ clock)
  (hdrawn : s.drawn ⊆ drawn)
include hi hclock hdrawn

theorem Accounted.start_next (hnew : sessionId ∉ s.drawn) (hin : sessionId ∈ drawn)
    (h : s.pairing.startForSource C clientMessage source r entropy sessionId = (p, answer)) :
    Accounted C
      (tr ++ [⟨s.pairing, .start clientMessage source r entropy sessionId, .started answer⟩])
      ⟨p, clock, drawn⟩ where
  pendingDrawn he := by
    rcases start_entry h he with he | ⟨_, _, _, _, _, hop, -⟩
    · exact hdrawn (hi.pendingDrawn he)
    · cases hop
      exact hin
  completedDrawn hc := hdrawn (hi.completedDrawn (start_completed h hc))
  apart {k e} he := by
    cases hc : p.completed.lookup k with
    | none => rfl
    | some c =>
      have hc := start_completed h hc
      rcases start_entry h he with he | ⟨_, _, _, _, _, hop, -⟩
      · rw [hi.apart he] at hc
        cases hc
      · cases hop
        exact absurd (hi.completedDrawn hc) hnew
  origin he := by
    rcases start_entry h he with he | hstart
    · exact (hi.origin he).imp (fun h => h.append trivial) fun h =>
        Nat.lt_of_lt_of_le h (elapsed_mono _ hclock)
    · exact .inl ⟨tr, _, [], rfl, hstart, by simp⟩

theorem Accounted.finish_next (hlast : clock = r.last)
    (h : s.pairing.finish C sessionId confirmation context r credential nonce = (p, answer)) :
    Accounted C (tr ++ [⟨s.pairing, .finish sessionId confirmation context r credential nonce,
      .finished answer⟩]) ⟨p, clock, drawn⟩ where
  pendingDrawn he := hdrawn (hi.pendingDrawn ((PairingCode.finish_within h).pending he))
  completedDrawn hc := hdrawn (hi.completedDrawn ((PairingCode.finish_within h).completed hc))
  apart {k e} he := by
    cases hc : p.completed.lookup k with
    | none => rfl
    | some c =>
      have hc := (PairingCode.finish_within h).completed hc
      rw [hi.apart ((PairingCode.finish_within h).pending he)] at hc
      cases hc
  origin he := by
    have hpe := (PairingCode.finish_within h).pending he
    rcases hi.origin hpe with ho | hd
    · subst hlast
      exact (finish_keeps h he (hi.apart hpe)).imp_left ho.append
    · exact .inr (Nat.lt_of_lt_of_le hd (elapsed_mono _ hclock))

theorem Accounted.commit_next (h : s.pairing.commit sessionId confirmation result r = (p, answer)) :
    Accounted C (tr ++ [⟨s.pairing, .commit sessionId confirmation result r, .committed answer⟩])
      ⟨p, clock, drawn⟩ := by
  rcases PairingCode.commit_cases h with ⟨rfl, rfl⟩ | ⟨id, e, rfl, he, -, hp, hc, -⟩
  · exact ⟨fun he => hdrawn (hi.pendingDrawn he), fun hc => hdrawn (hi.completedDrawn hc), hi.apart,
      fun he => (hi.origin he).imp (fun h => h.append rfl) fun h =>
        Nat.lt_of_lt_of_le h (elapsed_mono _ hclock)⟩
  · refine ⟨?_, ?_, ?_, ?_⟩ <;> intro id' x hx
    · simp [hp] at hx
    · rw [hc, PairingCode.committed, AList.lookup_insert'] at hx
      split at hx
      · rename_i heq
        rw [heq]
        exact hdrawn (hi.pendingDrawn he)
      · cases hx
    · simp [hp] at hx
    · simp [hp] at hx

end

theorem Accounted.next (hi : Accounted C tr s) (hf : Fresh s op)
    (hs : pairingStep C s op = some (s', es)) : Accounted C (tr ++ es) s' := by
  obtain ⟨hle, p, answer, ha, rfl, rfl⟩ := pairingStep_eq_some hs
  have hclock := le_getLast hle List.mem_cons_self
  have hdrawn : s.drawn ⊆ s.drawn ++ op.sessionIds := List.subset_append_left _ _
  cases op with
  | start clientMessage source r entropy sessionId =>
    obtain ⟨a, hst, rfl⟩ := PairingOp.apply_start ha
    exact hi.start_next hclock hdrawn (hf sessionId (by simp [PairingOp.sessionIds]))
      (by simp [PairingOp.sessionIds]) hst
  | finish sessionId confirmation context r credential nonce =>
    obtain ⟨a, hfin, rfl⟩ := PairingOp.apply_finish ha
    exact hi.finish_next hclock hdrawn rfl hfin
  | commit sessionId confirmation result r =>
    obtain ⟨a, hcom, rfl⟩ := PairingOp.apply_commit ha
    exact hi.commit_next hclock hdrawn hcom
  | regenerate draws =>
    obtain ⟨hreg, rfl⟩ := PairingOp.apply_regenerate ha
    obtain ⟨d, -, rfl, -⟩ := PairingCode.regenerate_eq_some hreg
    refine ⟨?_, ?_, ?_, ?_⟩ <;> rintro id x ⟨⟩

theorem accounted (h : Run (pairingStep C) Fresh (.new code created clock) tr s) :
    Accounted C tr s :=
  h.invariant ⟨by rintro _ _ ⟨⟩, by rintro _ _ ⟨⟩, by rintro _ _ ⟨⟩, by rintro _ _ ⟨⟩⟩
    fun hi hf hs => hi.next hf hs

/-- A `finish` that returns `Ok` for a session that is not completed goes back
to a start of that session: made when the code was at most 300 s old, at most
300 s ago, with calls that keep the session in between; and the confirmation is
that session's tag. -/
theorem issued_from_kept_start
    (h : Run (pairingStep C) Fresh (.new code created clock) (past ++ call :: future) s)
    (hop : call.op = .finish sessionId confirmation context r credential nonce)
    (hans : call.answer = .finished (.ok result))
    (hnew : call.before.isCompleted sessionId = false) :
    ∃ (k : SessionId) (e : PendingPairing), sessionId = k.val ∧
      Origin C (·.Keeps C k) k e past ∧ elapsed e.created r.last ≤ pairingLifetime ∧
      confirmation = C.hmac e.shared
        (confirmationDomain ++ e.clientMessage ++ e.hostMessage ++ k.val) := by
  obtain ⟨before, op, after, hpast, -, hs, -⟩ := h.at_event
    (fun hs => by obtain ⟨-, _, _, -, -, rfl⟩ := pairingStep_eq_some hs; exact ⟨_, rfl⟩) rfl
  obtain ⟨hle, p, answer, ha, -, hcall⟩ := pairingStep_eq_some hs
  obtain rfl := List.singleton_injective hcall
  subst hop hans
  obtain ⟨a, hfin, hok⟩ := PairingOp.apply_finish ha
  cases hok
  have hi := accounted hpast
  obtain ⟨-, e, hch, ht, -⟩ := PairingCode.finish_new hfin hnew
  obtain ⟨k, rfl, -, hp, hage⟩ := PairingCode.checking_eq_some.mp hch
  have hp := (PairingCode.pending_pruneSessions.mp hp).1
  rcases hi.origin hp with ho | hd
  · refine ⟨k, e, rfl, ho, hage, ?_⟩
    obtain ⟨_, _, _, -, ⟨_, _, _, _, _, -, -, -, he, -⟩, -⟩ := ho
    rw [ht, confirmationTag, he]
    rfl
  · -- a session past its lifetime at the last reading is past it now
    have hclock : before.clock ≤ r.last := le_getLast hle List.mem_cons_self
    have := elapsed_mono e.created hclock
    omega

/-- No commit, no code replacement and no failed `finish` of `s`. -/
def PairingCall.Undisturbed (s : SessionId) (call : PairingCall) : Prop :=
  match call.op, call.answer with
  | .start .., _ => True
  | .finish sessionId .., .finished (.error _) => sessionId ≠ s.val
  | .finish .., _ => True
  | .commit .., _ => False
  | .regenerate _, _ => False

theorem length_utf8_replicate (n : Nat) : (utf8 (List.replicate n 'a')).length = n := by
  have h : 'a'.utf8Size = 1 := by decide
  simp [utf8, List.length_flatMap, h]

def longHostname : Text := List.replicate 65536 'a'

theorem opened_session :
    ∃ first s e, Run (pairingStep sampleCrates) Fresh (.new .sample 0 0) [first] s ∧ s.clock = 0 ∧
      s.pairing.checking (List.replicate 16 1) (.at 0) = some e ∧
      List.replicate 32 5 = confirmationTag sampleCrates e ∧
      AadFits e.hostMessage e.sessionId.val ⟨[], [], 1, []⟩ ∧
      s.pairing.isCompleted (List.replicate 16 1) = false ∧
      (s.pairing.pruneSessions (.at 0)).isCompleted (List.replicate 16 1) = false := by
  obtain ⟨tr, s, hrun, hp⟩ := Run.exists_of_exec (pairingStep sampleCrates) Fresh (.new .sample 0 0)
    [openSession 1] (fun s tr => s.clock = 0 && tr.length = 1 &&
      (s.pairing.checking (List.replicate 16 1) (.at 0)).any (fun e =>
        List.replicate 32 5 = confirmationTag sampleCrates e &&
          AadFits e.hostMessage e.sessionId.val ⟨[], [], 1, []⟩) &&
      !s.pairing.isCompleted (List.replicate 16 1) &&
      !(s.pairing.pruneSessions (.at 0)).isCompleted (List.replicate 16 1)) (by decide)
  simp only [Bool.and_eq_true, decide_eq_true_eq, Option.any_eq_true, Bool.not_eq_true'] at hp
  obtain ⟨⟨⟨⟨hclock, hlen⟩, e, hch, htag, hfit⟩, hcompl⟩, hcompl'⟩ := hp
  obtain ⟨first, rfl⟩ := List.length_eq_one_iff.mp hlen
  exact ⟨first, s, e, hrun, hclock, hch, htag, hfit, hcompl, hcompl'⟩

/-- Finished at once, the session's credential is issued. -/
theorem issued_at_once :
    ∃ first call s, Run (pairingStep sampleCrates) Fresh (.new .sample 0 0) ([first] ++ call :: [])
      s ∧ call.op = closeSession 1 (List.replicate 32 5) [] ∧
      ∃ (k : SessionId) (e : PendingPairing), List.replicate 16 1 = k.val ∧
        Origin sampleCrates (·.Keeps sampleCrates k) k e [first] := by
  obtain ⟨first, s, e, hrun, hclock, hch, htag, hfit, hcompl, -⟩ := opened_session
  obtain ⟨result, hok⟩ := issue_fits sampleCrates (repeated 32 0) (repeated 12 0) hfit
  have hpass : (closeSession 1 (List.replicate 32 5) []).apply sampleCrates s.pairing =
      some (s.pairing.pruneSessions (.at 0), .finished (.ok result)) := by
    simp only [closeSession, PairingOp.apply, PairingCode.finish_right _ _ _ hch htag, hok]
  have hrun := hrun.next (by rintro _ ⟨⟩) (pairingStep_of_apply (by rw [hclock]; decide) hpass)
  obtain ⟨k, e, hk, ho, -⟩ := issued_from_kept_start hrun rfl rfl hcompl
  exact ⟨first, _, _, hrun, rfl, k, e, hk, ho⟩

/-- The right confirmation is refused once because the host name is too long,
and accepted the second time. -/
theorem issued_after_failed_finish :
    ∃ past call s, Run (pairingStep sampleCrates) Fresh (.new .sample 0 0) (past ++ [call]) s ∧
      call.op = closeSession 1 (List.replicate 32 5) [] ∧
      (∃ result, call.answer = .finished (.ok result)) ∧
      call.before.isCompleted (List.replicate 16 1) = false ∧
      ∀ (k : SessionId) (e : PendingPairing), List.replicate 16 1 = k.val →
        ¬ Origin sampleCrates (·.Undisturbed k) k e past := by
  obtain ⟨first, s, e, hrun, hclock, hch, htag, hfit, -, hcompl⟩ := opened_session
  have hfail : (closeSession 1 (List.replicate 32 5) longHostname).apply sampleCrates s.pairing =
      some (s.pairing.pruneSessions (.at 0), .finished (.error .invalid)) := by
    simp only [closeSession, PairingOp.apply, PairingCode.finish_right _ _ _ hch htag]
    rw [issue_unfit]
    intro hfit
    have := hfit (utf8 longHostname) (by simp)
    rw [longHostname, length_utf8_replicate] at this
    exact Nat.lt_irrefl _ this
  obtain ⟨result, hok⟩ := issue_fits sampleCrates (repeated 32 0) (repeated 12 0) hfit
  have hpass : (closeSession 1 (List.replicate 32 5) []).apply sampleCrates
      (s.pairing.pruneSessions (.at 0)) =
      some (s.pairing.pruneSessions (.at 0), .finished (.ok result)) := by
    simp only [closeSession, PairingOp.apply]
    rw [PairingCode.finish_right _ _ _ ((PairingCode.checking_pruneSessions _).trans hch) htag,
      PairingCode.pruneSessions_twice, hok]
  have hstep := pairingStep_of_apply (by rw [hclock]; decide) hfail
  have hstep' := pairingStep_of_apply (s := ⟨s.pairing.pruneSessions (.at 0), 0, s.drawn ++ []⟩)
    (by show List.Pairwise (· ≤ ·) [0, 0, 0]; decide) hpass
  have hrun := (hrun.next (by rintro _ ⟨⟩) hstep).next (by rintro _ ⟨⟩) hstep'
  refine ⟨_, _, _, hrun, rfl, ⟨result, rfl⟩, hcompl, ?_⟩
  rintro k e' hk ⟨pre, start, mid, heq, ⟨_, _, _, _, _, hop, -⟩, hmid⟩
  -- the only start is the first call, and the refused `finish` comes after it
  match pre, heq with
  | [], heq =>
    obtain ⟨rfl, rfl⟩ := List.cons.inj heq
    exact hmid _ (List.mem_singleton.mpr rfl) hk
  | [_], heq =>
    obtain ⟨-, heq⟩ := List.cons.inj heq
    obtain ⟨rfl, -⟩ := List.cons.inj heq
    cases hop
  | _ :: _ :: pre, heq => simp at heq

end DeckyMyRig.Host
