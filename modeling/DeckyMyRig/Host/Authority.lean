import DeckyMyRig.Host.Proto
import DeckyMyRig.Host.ShutdownReplay
import DeckyMyRig.Host.Signing

/-!
# Who can shut the host down

The host together with those who hold its credential and sign with it: requests
by a paired client, responses by the host. Everything else that reaches the
host may be made up. What a tag proves is assumed of the run: a request that
verifies under a credential was signed by a holder of it, as the message it is
verified for, and the bodies in question have no colliding digests.
-/

namespace DeckyMyRig.Host

open Octets Machine Checked

-- ---------------------------------------------------------------------------
-- The host and the holders of its credential
-- ---------------------------------------------------------------------------

inductive SignedMessage
  | request (key : Credential) (timestamp : UInt64) (nonce : Bytes)
      (method path : Text) (body : Bytes)
  | response (key : Credential) (nonce : Bytes) (path : Text) (status : UInt16) (body : Bytes)
  deriving DecidableEq

namespace SignedMessage

def key : SignedMessage → Credential
  | .request key .. | .response key .. => key

def body : SignedMessage → Bytes
  | .request _ _ _ _ _ body | .response _ _ _ _ body => body

def message (C : Crates) : SignedMessage → Except AuthError Bytes
  | .request _ timestamp nonce method path body =>
    canonicalMessage C timestamp nonce method path body
  | .response _ nonce path status body => responseMessage C nonce path status body

end SignedMessage

structure World where
  host : AppState
  signed : List SignedMessage

inductive WorldInput
  | host (input : Input)
  | signs (message : SignedMessage)

inductive WorldEvent
  /-- The handler reads the host's credential and the clock. -/
  | read (id : Nat) (credential : Credential) (now : Nat)
  | output (output : Output)
  | signed (message : SignedMessage)

/-- The credential that a step reads in `authenticate`. -/
def AppState.reads (s : AppState) : Input → List WorldEvent
  | .advance id env =>
    match s.tasks id, s.identity.credential with
    | some (.credential ..), some credential => [.read id credential (env.wall.headD 0)]
    | _, _ => []
  | _ => []

def worldStep (C : Crates) (w : World) : WorldInput → Option (World × List WorldEvent)
  | .host input =>
    (hostStep C w.host input).map fun r =>
      ({ w with host := r.1 }, w.host.reads input ++ r.2.map .output)
  | .signs message => some ({ w with signed := message :: w.signed }, [.signed message])

def World.Verifies (w : World) (i : WorldInput) (path : Path) (auth : AuthHeaders)
    (credential : Credential) (body : Bytes) : Prop :=
  ∃ id env http now, i = .host (.advance id env) ∧
    w.host.tasks id = some (.verify path http auth credential now) ∧ body = http.body

/-- If the tag of a request is the one of its message, a holder of the credential
signed that message. -/
def Unforged (C : Crates) (w : World) (i : WorldInput) : Prop :=
  ∀ path auth credential body, w.Verifies i path auth credential body →
    ∀ x, canonicalMessage C auth.timestamp auth.nonce "POST".toList path.text body = .ok x →
      auth.signature = C.hmac credential.val x → ∃ m ∈ w.signed,
        m.key = credential ∧ m.message C = .ok x

/-- The body of a request that is verified has the digest of no other body that
was signed. -/
def CollisionFree (C : Crates) (w : World) (i : WorldInput) : Prop :=
  ∀ path auth credential body, w.Verifies i path auth credential body →
    ∀ m ∈ w.signed, C.sha256 m.body = C.sha256 body → m.body = body

-- ---------------------------------------------------------------------------
-- What a shutdown needs
-- ---------------------------------------------------------------------------

def Caller.Current (C : Crates) (c : Caller) : Prop :=
  ∃ version, AppState.requestVersions C c.path c.http.body = some (protocolVersion, version)

/-- A holder of the credential signed the request as it is, and the handler read
that credential from the host and a clock inside the window. -/
structure Authorised (C : Crates) (past : List WorldEvent) (id : Nat) (c : Caller) : Prop where
  path : c.path = .shutdown
  nonce : c.auth.nonce = c.context.nonce.val
  tag : sign C c.context.credential.val c.auth.timestamp c.auth.nonce "POST".toList c.path.text
    c.http.body = .ok c.auth.signature
  read : ∃ now, .read id c.context.credential now ∈ past ∧
    absDiff now c.auth.timestamp.toNat ≤ clockWindow
  signed : ∃ method, upperCase method = "POST".toList ∧
    .signed (.request c.context.credential c.auth.timestamp c.auth.nonce method c.path.text
      c.http.body) ∈ past

structure Cleared (C : Crates) (past : List WorldEvent) (id : Nat) (c : Caller) : Prop
    extends Authorised C past id c where
  current : c.Current C
  saved : ∃ identity, .output (.saved identity) ∈ past ∧
    ⟨c.auth.timestamp, c.context.nonce⟩ ∈ identity.acceptedShutdownNonces

theorem Authorised.mono {id : Nat} (h : Authorised C past id c) (hsub : past ⊆ past') :
    Authorised C past' id c := by
  obtain ⟨now, hread, hnow⟩ := h.read
  obtain ⟨method, hpost, hsigned⟩ := h.signed
  exact ⟨h.path, h.nonce, h.tag, ⟨now, hsub hread, hnow⟩, ⟨method, hpost, hsub hsigned⟩⟩

theorem Cleared.mono {id : Nat} (h : Cleared C past id c) (hsub : past ⊆ past') :
    Cleared C past' id c := by
  obtain ⟨identity, hsaved, hmem⟩ := h.saved
  exact ⟨h.toAuthorised.mono hsub, h.current, identity, hsub hsaved, hmem⟩

/-- A tag on a shutdown request was made for that request: not for a status
request, and not for a response. -/
theorem made_for_request {m : SignedMessage}
    (h : canonicalMessage C timestamp nonce "POST".toList path body = .ok x)
    (hm : m.message C = .ok x) (hbody : C.sha256 m.body = C.sha256 body → m.body = body) :
    ∃ method, upperCase method = "POST".toList ∧
      m = .request m.key timestamp nonce method path body := by
  cases m with
  | request key timestamp' nonce' method path' body' =>
    obtain ⟨rfl, rfl, hmethod, rfl, hdigest⟩ := canonicalMessage_inj h hm
    have hpost : upperCase "POST".toList = "POST".toList := by decide
    obtain rfl : body' = body := hbody hdigest.symm
    exact ⟨method, hmethod.symm.trans hpost, rfl⟩
  | response key nonce' path' status body' =>
    exact absurd hm (canonicalMessage_ne_responseMessage h)

-- ---------------------------------------------------------------------------
-- Steps of a shutdown request
-- ---------------------------------------------------------------------------

theorem authenticated_current (C : Crates) (s : AppState) (env : Env) (id : Nat) (c : Caller) :
    (∃ response, s.authenticated C env id c = s.answer id response) ∨ c.Current C := by
  unfold AppState.authenticated
  simp only
  split
  · exact .inl ⟨_, rfl⟩
  · split
    · exact .inl ⟨_, rfl⟩
    · rename_i version clientVersion hversions
      split
      · exact .inl ⟨_, rfl⟩
      · rename_i hversion
        rw [not_not.mp hversion] at hversions
        exact .inr ⟨clientVersion, hversions⟩

theorem persistNonce_current {id : Nat} (h : AppState.persistNonce C s env id c = (s', out)) :
    c.Current C ∨ s'.tasks id = none ∧ ∀ i c', .powerShutdown i c' ∉ out := by
  unfold AppState.persistNonce at h
  simp only at h
  split at h
  · cases h
    exact .inr ⟨if_pos rfl, by simp⟩
  · split at h
    · rcases authenticated_current C _ env id c with ⟨response, heq⟩ | hcurrent
      · rw [heq] at h
        cases h
        exact .inr ⟨if_pos rfl, by simp [AppState.answer]⟩
      · exact .inl hcurrent
    · cases h
      exact .inr ⟨if_pos rfl, by simp⟩

def Caller.request (c : Caller) : AuthenticatedRequest :=
  ⟨c.auth.timestamp, c.auth.nonce, c.auth.signature, "POST".toList, c.path.text, c.http.body⟩

theorem AppState.Advance.persisting {id : Nat} (h : AppState.Advance C s env id t s' out)
    (ht : s'.tasks id = some (.persistNonce c)) :
    c.path = .shutdown ∧ c.auth.nonce = c.context.nonce.val ∧
      ∃ now, t = .verify c.path c.http c.auth c.context.credential now ∧
        Authentic C c.context.credential.val c.request ∧ InWindow c.request now := by
  cases h.enters ht with
  | serving h => cases h
  | persistNonce hv hn hpath =>
    obtain ⟨hauthentic, hwindow, -⟩ := verify_ok_iff.mp (congrArg Prod.snd hv)
    exact ⟨hpath, hn, _, rfl, hauthentic, hwindow⟩

theorem AppState.Advance.power_cases {id i : Nat} (h : AppState.Advance C s env id t s' out)
    (hp : .powerShutdown i c ∈ out) :
    c.path = .shutdown ∧
      (t.caller = some c ∧ (∃ response, out = [.powerShutdown id c, .answered id response]) ∨
        t = .persistNonce c ∧ ∃ updated response,
          out = [.saved updated, .accepted id c, .powerShutdown id c, .answered id response] ∧
          ⟨c.auth.timestamp, c.context.nonce⟩ ∈ updated.acceptedShutdownNonces) := by
  have hcontinues {c'} {u u' : AppState} {out} (h : u.Continues id c' u' out)
      (hp : .powerShutdown i c ∈ out) : c' = c ∧ c.path = .shutdown ∧
        ∃ response, out = [.powerShutdown id c, .answered id response] := by
    cases h with
    | powered hpath =>
      simp only [List.mem_cons, Output.powerShutdown.injEq, reduceCtorEq, List.not_mem_nil, or_self,
        or_false] at hp
      obtain ⟨rfl, rfl⟩ := hp
      exact ⟨rfl, hpath, _, rfl⟩
    | _ => simp at hp
  cases h with
  | statusVerified hs h =>
    obtain ⟨rfl, hpath, -⟩ := hcontinues h hp
    rw [hs] at hpath
    cases hpath
  | versionKnown h | versionSet h =>
    obtain ⟨rfl, hpath, hout⟩ := hcontinues h hp
    exact ⟨hpath, .inl ⟨rfl, hout⟩⟩
  | nonceSaved _ hu h =>
    simp only [List.mem_cons, reduceCtorEq, false_or] at hp
    obtain ⟨rfl, hpath, response, rfl⟩ := hcontinues h hp
    exact ⟨hpath, .inr ⟨rfl, _, response, rfl, by rw [hu]; simp⟩⟩
  | _ => simp at hp

theorem AppState.Advance.accepted_saved {id i : Nat} (h : AppState.Advance C s env id t s' out)
    (ho : .accepted i c ∈ out) :
    t = .persistNonce c ∧ ∃ updated, .saved updated ∈ out ∧
      ⟨c.auth.timestamp, c.context.nonce⟩ ∈ updated.acceptedShutdownNonces := by
  obtain ⟨-, ht, -, -, hstored⟩ := h.accepted ho
  subst ht
  refine ⟨rfl, s'.stored, ?_, hstored⟩
  cases h with
  | answered hplain => cases hplain
  | nonceRefused => simp at ho
  | nonceSaved _ _ h =>
    obtain ⟨tasks, rfl⟩ := h.frame
    exact List.mem_cons_self

-- ---------------------------------------------------------------------------
-- Runs
-- ---------------------------------------------------------------------------

def ClearedPower (C : Crates) (past : List WorldEvent) : WorldEvent → Prop
  | .output (.powerShutdown id c) => Cleared C past id c
  | _ => True

structure Authority (C : Crates) (tr : List WorldEvent) (w : World) : Prop where
  signed : ∀ m ∈ w.signed, .signed m ∈ tr
  verifying : ∀ {id path http auth credential now},
    w.host.tasks id = some (.verify path http auth credential now) → .read id credential now ∈ tr
  persisting : ∀ {id c}, w.host.tasks id = some (.persistNonce c) → Authorised C tr id c
  serving : ∀ {id t c}, w.host.tasks id = some t → t.caller = some c → c.path = .shutdown →
    Cleared C tr id c
  power : Justified (ClearedPower C) [] tr

theorem reads_of_not_credential {s : AppState} {id : Nat} (ht : s.tasks id = some t)
    (hn : ∀ path http auth, t ≠ .credential path http auth) : s.reads (.advance id env) = [] := by
  simp only [AppState.reads, ht]
  split
  · rename_i h _
    exact absurd (Option.some.inj h) (hn _ _ _)
  · rfl

theorem mem_reads {s : AppState} (he : e ∈ s.reads i) :
    ∃ id credential now, e = .read id credential now := by
  unfold AppState.reads at he
  split at he
  · split at he
    · exact ⟨_, _, _, List.mem_singleton.mp he⟩
    · cases he
  · cases he

section
variable {C : Crates} {tr : List WorldEvent} {w : World} {s' : AppState} {out : List Output}
  {i : Input} (hl : Locks w.host) (hi : Authority C tr w) (h : hostStep C w.host i = some (s', out))
include hl hi h

theorem Authority.verifying_next {j : Nat}
    (ht : s'.tasks j = some (.verify path http auth credential now)) :
    .read j credential now ∈ tr ++ (w.host.reads i ++ out.map .output) := by
  rcases (hostStep_iff_cases h).task_cases hl ht with ⟨ht, -⟩ | hinit |
    ⟨env, u, rfl, hu, -, -, -, ha⟩
  · exact List.mem_append_left _ (hi.verifying ht)
  · cases hinit
  · cases ha.enters ht with
    | serving h => cases h
    | verify hcredential =>
      have hreads : w.host.reads (.advance j env) = [.read j credential (env.wall.headD 0)] := by
        have hcredential : w.host.identity.credential = some credential := hcredential
        simp only [AppState.reads, hu, hcredential]
      rw [hreads]
      simp

theorem Authority.persisting_next (hu : Unforged C w (.host i)) (hf : CollisionFree C w (.host i))
    {j : Nat} (ht : s'.tasks j = some (.persistNonce c)) :
    Authorised C (tr ++ (w.host.reads i ++ out.map .output)) j c := by
  rcases (hostStep_iff_cases h).task_cases hl ht with ⟨ht, -⟩ | hinit |
    ⟨env, u, rfl, hu', -, -, -, ha⟩
  · exact (hi.persisting ht).mono (List.subset_append_left _ _)
  · cases hinit
  · obtain ⟨hpath, hnonce, now, rfl, hauthentic, hwindow⟩ := ha.persisting ht
    have hverifies : w.Verifies (.host (.advance j env)) c.path c.auth c.context.credential
        c.http.body :=
      ⟨j, env, _, _, rfl, hu', rfl⟩
    obtain ⟨x, hx, htag⟩ := bind_eq_ok hauthentic
    obtain ⟨m, hm, hkey, hmessage⟩ := hu _ _ _ _ hverifies x hx (Except.ok.inj htag).symm
    obtain ⟨method, hpost, heq⟩ := made_for_request hx hmessage (hf _ _ _ _ hverifies m hm)
    rw [hkey] at heq
    refine ⟨hpath, hnonce, hauthentic, ⟨now, ?_, absDiff_le_iff.mpr hwindow⟩, ⟨method, hpost, ?_⟩⟩
    · exact List.mem_append_left _ (hi.verifying hu')
    · exact List.mem_append_left _ (heq ▸ hi.signed m hm)

theorem Authority.serving_next {j : Nat} (ht : s'.tasks j = some t) (hc : t.caller = some c)
    (hpath : c.path = .shutdown) : Cleared C (tr ++ (w.host.reads i ++ out.map .output)) j c := by
  have hsub : tr ⊆ tr ++ (w.host.reads i ++ out.map .output) := List.subset_append_left _ _
  rcases (hostStep_iff_cases h).task_cases hl ht with ⟨ht, -⟩ | hinit |
    ⟨env, u, rfl, hu, -, -, -, ha⟩
  · exact (hi.serving ht hc hpath).mono hsub
  · rw [initial_caller hinit] at hc
    cases hc
  · rcases ha.caller ht hc hpath with hc | haccepted
    · exact (hi.serving hu hc hpath).mono hsub
    · obtain ⟨rfl, updated, hsaved, hmem⟩ := ha.accepted_saved haccepted
      refine ⟨(hi.persisting hu).mono hsub, ?_, updated, ?_, hmem⟩
      · refine (persistNonce_current (hostStep_run h hu)).resolve_right fun hdone => ?_
        rw [hdone.1] at ht
        cases ht
      · exact List.mem_append_right _ (List.mem_append_right _ (List.mem_map_of_mem hsaved))

omit hl in
theorem Authority.power_next :
    Justified (ClearedPower C) tr (w.host.reads i ++ out.map .output) := by
  by_cases hp : ∃ j c, .powerShutdown j c ∈ out
  · obtain ⟨j, c, hp⟩ := hp
    have hstep := hostStep_iff_cases h
    cases hstep with
    | @advanced id t env _ _ ht _ _ _ ha =>
      obtain ⟨hpath, ⟨hc, response, rfl⟩ | ⟨rfl, updated, response, rfl, hmem⟩⟩ := ha.power_cases hp
      · rw [reads_of_not_credential ht (by rintro _ _ _ rfl; cases hc)]
        exact ⟨hi.serving ht hc hpath, trivial, trivial⟩
      · rw [reads_of_not_credential ht (by simp)]
        refine ⟨trivial, trivial, ⟨(hi.persisting ht).mono (by simp), ?_, updated, by simp, hmem⟩,
          trivial, trivial⟩
        exact (persistNonce_current (hostStep_run h ht)).resolve_right fun hdone => hdone.2 j c hp
    | _ => simp at hp
  · refine justified_of_forall (fun e he past => ?_) tr
    rcases List.mem_append.mp he with he | he
    · obtain ⟨id, credential, now, rfl⟩ := mem_reads he
      trivial
    · obtain ⟨o, ho, rfl⟩ := List.mem_map.mp he
      cases o with
      | powerShutdown j c => exact absurd ⟨j, c, ho⟩ hp
      | _ => trivial

theorem Authority.host_next (hu : Unforged C w (.host i)) (hf : CollisionFree C w (.host i)) :
    Authority C (tr ++ (w.host.reads i ++ out.map .output)) { w with host := s' } where
  signed m hm := List.mem_append_left _ (hi.signed m hm)
  verifying ht := hi.verifying_next hl h ht
  persisting ht := hi.persisting_next hl h hu hf ht
  serving ht hc hpath := hi.serving_next hl h ht hc hpath
  power := justified_append.mpr ⟨hi.power, hi.power_next h⟩

end

theorem Authority.signs_next (hi : Authority C tr w) (m : SignedMessage) :
    Authority C (tr ++ [.signed m]) { w with signed := m :: w.signed } := by
  have hsub : tr ⊆ tr ++ [.signed m] := List.subset_append_left _ _
  refine ⟨?_, fun ht => hsub (hi.verifying ht), fun ht => (hi.persisting ht).mono hsub,
    fun ht hc hpath => (hi.serving ht hc hpath).mono hsub, justified_append.mpr
      ⟨hi.power, trivial, trivial⟩⟩
  intro m' hm
  rcases List.mem_cons.mp hm with rfl | hm
  · simp
  · exact hsub (hi.signed m' hm)

def Ideal (C : Crates) (w : World) (i : WorldInput) : Prop := Unforged C w i ∧ CollisionFree C w i

theorem authority_run (hboot : AppState.boot hostname stored nextTask wall env = some start)
    (h : Run (worldStep C) (Ideal C) ⟨start, []⟩ tr w) : Locks w.host ∧ Authority C tr w := by
  refine h.invariant (I := fun tr w => Locks w.host ∧ Authority C tr w) ?_ ?_
  · refine ⟨.boot hboot, ?_⟩
    obtain ⟨p, -, rfl⟩ := boot_eq_some hboot
    exact ⟨by simp, by rintro _ _ _ _ _ _ ⟨⟩, by rintro _ _ ⟨⟩, by rintro _ _ _ ⟨⟩, trivial⟩
  · rintro tr w i w' es ⟨hl, hi⟩ ⟨hu, hf⟩ hstep
    cases i with
    | signs m =>
      cases hstep
      exact ⟨hl, hi.signs_next m⟩
    | host i =>
      obtain ⟨⟨s', out⟩, hs, heq⟩ := Option.map_eq_some_iff.mp hstep
      cases heq
      exact ⟨hl.next (hostStep_iff_cases hs), hi.host_next hl hs hu hf⟩

/-- Before the host calls the power controller for a request, a holder of the
credential that the request's handler read signed that request as a shutdown,
the handler read a clock inside its window, its body decoded to the host's
protocol version, and its nonce was saved. -/
theorem shutdown_authority (hboot : AppState.boot hostname stored nextTask wall env = some start)
    (h : Run (worldStep C) (Ideal C) ⟨start, []⟩ tr w) (id : Nat) (c : Caller)
    (hpower : tr = pre ++ .output (.powerShutdown id c) :: post) :
    (∃ method, upperCase method = "POST".toList ∧
      .signed (.request c.context.credential c.auth.timestamp c.auth.nonce method
        "/v1/shutdown".toList c.http.body) ∈ pre) ∧
    sign C c.context.credential.val c.auth.timestamp c.auth.nonce "POST".toList
      "/v1/shutdown".toList
      c.http.body = .ok c.auth.signature ∧
    (∃ now, .read id c.context.credential now ∈ pre ∧ absDiff now c.auth.timestamp.toNat ≤ 60) ∧
    (∃ request, C.decodeShutdownRequest c.http.body = some request ∧
      request.protocolVersion = protocolVersion) ∧
    ∃ identity nonce, .output (.saved identity) ∈ pre ∧ c.auth.nonce = nonce.val ∧
      ⟨c.auth.timestamp, nonce⟩ ∈ identity.acceptedShutdownNonces := by
  obtain ⟨-, hi⟩ := authority_run hboot h
  have hcleared : Cleared C pre id c := (hpower ▸ hi.power).at
  have htext : c.path.text = "/v1/shutdown".toList := by rw [hcleared.path]; rfl
  obtain ⟨version, hversion⟩ := hcleared.current
  rw [hcleared.path] at hversion
  obtain ⟨request, hdecode, heq⟩ := Option.map_eq_some_iff.mp hversion
  obtain ⟨identity, hsaved, hmem⟩ := hcleared.saved
  refine ⟨htext ▸ hcleared.signed, htext ▸ hcleared.tag, hcleared.read,
    ⟨request, hdecode, congrArg Prod.fst heq⟩, identity, _, hsaved, hcleared.nonce, hmem⟩

def signingCrates : Crates := Crates.sample.withProst

def shutdownMessage : SignedMessage :=
  .request (repeated 32 7) 1000 (List.replicate 16 9) "POST".toList "/v1/shutdown".toList
    shutdownHttp.body

def verifiesSigned (w : World) : WorldInput → Bool
  | .host (.advance id _) =>
    match w.host.tasks id with
    | some (.verify path http auth credential _) => path = .shutdown && auth.timestamp = 1000 &&
        auth.nonce = List.replicate 16 9 && http.body = shutdownHttp.body &&
          credential = shutdownMessage.key &&
        w.signed = [shutdownMessage]
    | _ => true
  | _ => true

theorem ideal_of_verifiesSigned {w : World} (h : verifiesSigned w i = true) :
    Ideal signingCrates w i := by
  have hverifies : ∀ {path auth credential body}, w.Verifies i path auth credential body →
      path = .shutdown ∧ auth.timestamp = 1000 ∧ auth.nonce = List.replicate 16 9 ∧
        body = shutdownHttp.body ∧ credential = shutdownMessage.key ∧
        w.signed = [shutdownMessage] := by
    rintro path auth credential body ⟨id, env, http, now, rfl, ht, rfl⟩
    simpa only [verifiesSigned, ht, Bool.and_eq_true, decide_eq_true_eq, and_assoc] using h
  constructor
  · intro path auth credential body hv x hx _
    obtain ⟨rfl, htimestamp, hnonce, rfl, rfl, hsigned⟩ := hverifies hv
    rw [htimestamp, hnonce] at hx
    exact ⟨shutdownMessage, by simp [hsigned], rfl, hx⟩
  · intro path auth credential body hv m hm _
    obtain ⟨-, -, -, rfl, -, hsigned⟩ := hverifies hv
    rw [hsigned] at hm
    cases List.mem_singleton.mp hm
    rfl

/-- The request is signed, sent and carried out. -/
theorem signed_shutdown_carried_out :
    ∃ tr w, Run (worldStep signingCrates) (Ideal signingCrates) ⟨pairedStart, []⟩ tr w ∧
      ∃ pre id c post, tr = pre ++ .output (.powerShutdown id c) :: post ∧
      c.auth.signature.length = 32 ∧
        (∃ method, upperCase method = "POST".toList ∧
          .signed (.request c.context.credential c.auth.timestamp c.auth.nonce method
            "/v1/shutdown".toList c.http.body) ∈ pre) ∧
        (∃ now, .read id c.context.credential now ∈ pre ∧ absDiff now c.auth.timestamp.toNat ≤ 60) ∧
        ∃ identity nonce, .output (.saved identity) ∈ pre ∧ c.auth.nonce = nonce.val ∧
          ⟨c.auth.timestamp, nonce⟩ ∈ identity.acceptedShutdownNonces := by
  obtain ⟨tr, w, hrun, hp⟩ := Run.exists_of_exec (worldStep signingCrates)
    (fun w i => verifiesSigned w i = true) ⟨pairedStart, []⟩
    (.signs shutdownMessage :: .host (.request (.authenticated .shutdown shutdownHttp)) ::
      [.advance 0 (.sample [1000]), .advance 0 (.sample []), .advance 0 (.sample []),
        .advance 0 (.sample [])].map .host)
    (fun _ tr => tr.any fun e => e matches .output (.powerShutdown ..)) (by decide +kernel)
  have hrun := hrun.mono fun _ _ => ideal_of_verifiesSigned
  obtain ⟨e, he, hpower⟩ := List.any_eq_true.mp hp
  obtain ⟨id, c, rfl⟩ : ∃ id c, e = .output (.powerShutdown id c) := by
    split at hpower
    · exact ⟨_, _, rfl⟩
    · cases hpower
  obtain ⟨pre, post, rfl⟩ := List.append_of_mem he
  obtain ⟨hsigned, htag, hread, -, hsaved⟩ := shutdown_authority boot_pairedStart hrun id c rfl
  have hlength : c.auth.signature.length = 32 := by
    obtain ⟨x, -, heq⟩ := bind_eq_ok htag
    rw [← Except.ok.inj heq]
    exact Sha256.length_hmac _ _
  exact ⟨_, w, hrun, pre, id, c, post, rfl, hlength, hsigned, hread, hsaved⟩

end DeckyMyRig.Host
