import DeckyMyRig.Deck.AuthLaws
import DeckyMyRig.Deck.Controller
import DeckyMyRig.Deck.Grammar

/-!
# Replies that do not verify

A reply that is not signed for its request makes `_status` report one fixed
result, unless `urllib` acts on it before the client looks at it: a redirect is
followed without a signature. The client reads 64 KiB of a body and verifies
what it read.
-/

namespace DeckyMyRig.Deck

open Octets Checked

def Reply.Signed (L : Libraries) (secret nonce : Bytes) (path : Text) (r : Reply) (body : Bytes) :
    Prop :=
  ∃ text tag m, r.signature = some text ∧ fromHex text = some tag ∧
    Auth.responseMessage L nonce path r.status body = .ok m ∧ tag = L.hmac secret m

/-- `urllib` does not hand the reply to the client: it follows the redirect, or
fails on its location. -/
def Reply.Leaves (U : Urllib) (url : Text) (r : Reply) : Prop :=
  isRedirect r.status = true ∧ ∃ location, r.location = some location ∧
    match U.redirect url location with
    | .refused => False
    | .invalid _ => True
    | .follow _ => r.status ≠ 307 ∧ r.status ≠ 308

/-- Whatever the controller's state and the network's further answers, the
reply is reported as one that could not be authenticated. -/
def Reply.Unauthenticated (L : Libraries) (U : Urllib) (device : Device) (secret : Bytes)
    (timestamp : UInt64) (nonce : Block 16) (r : Reply) : Prop :=
  ∀ (c : Controller) (answers : List Answer) (now : Nat),
    c.status L U device (some secret) timestamp.toNat nonce.val (.reply r :: answers) now =
      c.result device.id .unknown .paired integrityMessage

/-- One of the answers is signed for the request, as far as the client reads it. -/
def Verified (L : Libraries) (secret nonce : Bytes) (path : Text) (answers : List Answer) : Prop :=
  ∃ r body, .reply r ∈ answers ∧ r.body = .ok body ∧ r.Signed L secret nonce path
    (body.take readLimit)

-- ---------------------------------------------------------------------------
-- `urlopen`
-- ---------------------------------------------------------------------------

theorem urlopen_stays {r : Reply} (answers : List Answer) (h : ¬ r.Leaves U url) :
    urlopen U [] .post url (.reply r :: answers) =
      if 200 ≤ r.status ∧ r.status < 300 then .ok r else .error (.httpError r) := by
  rw [urlopen]
  split
  · rfl
  · cases hredirect : isRedirect r.status with
    | false => rfl
    | true =>
      cases hlocation : r.location with
      | none => rfl
      | some location =>
        simp only [Bool.not_true, Bool.false_eq_true, ↓reduceIte]
        cases hto : U.redirect url location with
        | refused => rfl
        | invalid message => exact absurd ⟨hredirect, location, hlocation, by simp [hto]⟩ h
        | follow next =>
          have hpost : r.status = 307 ∨ r.status = 308 := by
            by_contra hne
            rw [not_or] at hne
            exact h ⟨hredirect, location, hlocation, by simpa [hto] using hne⟩
          simp [hpost]

theorem urlopen_leaves {r : Reply} (h : r.Leaves U url) (hbody : r.body = .ok body) :
    urlopen U [] .post url [.reply r] = .error (.fault .os) ∨
      ∃ message, urlopen U [] .post url [.reply r] = .error (.value message) := by
  obtain ⟨hredirect, location, hlocation, h⟩ := h
  have hstatus : ¬ (200 ≤ r.status ∧ r.status < 300) := by
    simp only [isRedirect, Bool.or_eq_true, decide_eq_true_eq] at hredirect
    omega
  simp only [urlopen, if_neg hstatus, hredirect, hlocation, Bool.not_true,
    Bool.false_eq_true, ↓reduceIte]
  cases hto : U.redirect url location with
  | refused => simp [hto] at h
  | invalid message => exact .inr ⟨message, rfl⟩
  | follow next =>
    simp only [hto] at h
    simp [h, hbody, tooManyRedirects, Dict.get?]

theorem urlopen_cases (U : Urllib) (visited : Dict Text Nat) (method : Method) (url : Text)
    (r : Reply) (answers : List Answer) :
    urlopen U visited method url (.reply r :: answers) ∈
        [.ok r, .error (.httpError r)] ∨
      (∃ f, urlopen U visited method url (.reply r :: answers) = .error (.fault f)) ∨
      (∃ m, urlopen U visited method url (.reply r :: answers) = .error (.value m)) ∨
      ∃ visited' next, urlopen U visited method url (.reply r :: answers) =
        urlopen U visited' .get next answers := by
  rw [urlopen]
  split
  · exact .inl (by simp)
  · split
    · exact .inl (by simp)
    · split
      · exact .inl (by simp)
      · split
        · exact .inl (by simp)
        · exact .inr (.inr (.inl ⟨_, rfl⟩))
        · split
          · exact .inl (by simp)
          · split
            · exact .inl (by simp)
            · split
              · exact .inr (.inl ⟨_, rfl⟩)
              · exact .inr (.inr (.inr ⟨_, _, rfl⟩))

theorem mem_of_urlopen {answers : List Answer}
    (h : urlopen U visited method url answers ∈ [.ok r, .error (.httpError r)]) :
    .reply r ∈ answers := by
  induction answers generalizing visited method url with
  | nil => simp [urlopen] at h
  | cons a answers ih =>
    cases a with
    | fault f => simp [urlopen] at h
    | reply r' =>
      rcases urlopen_cases U visited method url r' answers with
        hr | ⟨f, hf⟩ | ⟨m, hm⟩ | ⟨visited', next, hnext⟩
      · have heq : r' = r := by
          simp only [List.mem_cons, List.not_mem_nil, or_false] at h hr
          rcases hr with hr | hr <;> simpa [hr] using h
        rw [heq]
        exact List.mem_cons_self
      · simp [hf] at h
      · simp [hm] at h
      · rw [hnext] at h
        exact List.mem_cons_of_mem _ (ih h)

-- ---------------------------------------------------------------------------
-- One request
-- ---------------------------------------------------------------------------

theorem exchange_returned {r : Reply}
    (hopen : urlopen U [] .post (HostClient.url device path) answers = .ok r)
    (hbody : r.body = .ok body) :
    HostClient.exchange L U device path authentication answers = (do
      HostClient.verifyReply L (HostClient.hostReply r body) authentication path
      pure (HostClient.hostReply r body)) := by
  simp only [HostClient.exchange, hopen, hbody]

theorem exchange_raised {r : Reply}
    (hopen : urlopen U [] .post (HostClient.url device path) answers = .error (.httpError r))
    (hbody : r.body = .ok body) :
    HostClient.exchange L U device path authentication answers = (do
      HostClient.verifyReply L (HostClient.hostReply r body) authentication path
      .error (.host (HostClient.errorKind r.status) (HostClient.errorMessage (body.take readLimit))
        (some r.status))) := by
  simp only [HostClient.exchange, hopen, hbody]

def Signable (path : Text) : Prop := (∀ c ∈ path, c.toNat < 128) ∧ path.length < 65536

theorem statusPath_signable : Signable HostClient.statusPath :=
  ⟨Auth.ascii_of_all (by decide), by decide⟩

theorem shutdownPath_signable : Signable HostClient.shutdownPath :=
  ⟨Auth.ascii_of_all (by decide), by decide⟩

section
variable {L : Libraries} (secret : Bytes) (nonce : Block 16) {path : Text}
  (hL : ∀ key m, (L.hmac key m).length = 32) (hpath : Signable path)
include hL hpath

/-- `_verify_reply` accepts what is signed and rejects the rest with one error. -/
theorem verifyReply_eq (r : Reply) (body : Bytes) (hn : headers.nonce = nonce.val) :
    (r.Signed L secret nonce.val path (body.take readLimit) →
      HostClient.verifyReply L (HostClient.hostReply r body) (some (secret, headers)) path =
        .ok ()) ∧
    (¬ r.Signed L secret nonce.val path (body.take readLimit) →
      HostClient.verifyReply L (HostClient.hostReply r body) (some (secret, headers)) path =
        .error (.host .integrity integrityMessage none)) := by
  have hfits : ∀ field ∈ [nonce.val, utf8 path], field.length < 65536 := by
    simp only [List.forall_mem_cons, List.not_mem_nil, false_imp_iff, implies_true, and_true]
    rw [length_utf8_of_ascii hpath.1, nonce.2]
    exact ⟨by decide, hpath.2⟩
  have hrange := r.final
  have hm := Auth.responseMessage_eq L (body.take readLimit) nonce.2 hpath.1
    (show 100 ≤ r.status ∧ r.status ≤ 999 by omega) hfits
  simp only [HostClient.verifyReply, HostClient.hostReply, hn, Auth.verifyResponse_eq hm]
  constructor
  · rintro ⟨text, tag, m, hs, htag, hm', rfl⟩
    cases hm.symm.trans hm'
    rw [hs, Option.getD_some, htag, if_pos rfl]
  · intro hunsigned
    rw [if_neg]
    · rfl
    · intro htag
      cases hs : r.signature with
      | none =>
        rw [hs] at htag
        have hempty := hL secret _ ▸ congrArg List.length (Option.some.inj htag)
        simp at hempty
      | some text =>
        rw [hs] at htag
        exact hunsigned ⟨text, _, _, hs, htag, hm, rfl⟩

omit hL in
theorem post_eq (U : Urllib) (device : Device) (body : Bytes) (timestamp : UInt64)
    (answers : List Answer) :
    ∃ headers : Auth.AuthHeaders, headers.nonce = nonce.val ∧
      HostClient.post L U device path body (some secret) timestamp.toNat nonce.val answers =
        HostClient.exchange L U device path (some (secret, headers)) answers := by
  have hfits : ∀ field ∈ [nonce.val, utf8 ("POST".toList.map Char.toUpper), utf8 path],
      field.length < 65536 := by
    simp only [List.forall_mem_cons, List.not_mem_nil, false_imp_iff, implies_true, and_true]
    rw [length_utf8_of_ascii hpath.1, nonce.2]
    exact ⟨by decide, by decide, hpath.2⟩
  have hmethod : ∀ c ∈ "POST".toList, c.toNat < 128 := Auth.ascii_of_all (by decide)
  rw [HostClient.post, Auth.sign,
    Auth.canonicalMessage_eq L timestamp body nonce.2 hmethod hpath.1 hfits]
  exact ⟨⟨timestamp.toNat, nonce.val, _⟩, rfl, rfl⟩

theorem exchange_stays {r : Reply} (answers : List Answer)
    (hstays : ¬ r.Leaves U (HostClient.url device path))
    (hbody : r.body = .ok body) (hn : headers.nonce = nonce.val) :
    (¬ r.Signed L secret nonce.val path (body.take readLimit) →
      HostClient.exchange L U device path (some (secret, headers)) (.reply r :: answers) =
        .error (.host .integrity integrityMessage none)) ∧
    (r.Signed L secret nonce.val path (body.take readLimit) →
      HostClient.exchange L U device path (some (secret, headers)) (.reply r :: answers) =
        if 200 ≤ r.status ∧ r.status < 300 then .ok (HostClient.hostReply r body)
        else .error (.host (HostClient.errorKind r.status)
          (HostClient.errorMessage (body.take readLimit)) (some r.status))) := by
  have hopen := urlopen_stays answers hstays
  have hverify := verifyReply_eq secret nonce hL hpath r body hn
  by_cases hsuccess : 200 ≤ r.status ∧ r.status < 300
  · rw [if_pos hsuccess] at hopen
    rw [exchange_returned hopen hbody, if_pos hsuccess]
    exact ⟨fun h => by rw [hverify.2 h]; rfl, fun h => by rw [hverify.1 h]; rfl⟩
  · rw [if_neg hsuccess] at hopen
    rw [exchange_raised hopen hbody, if_neg hsuccess]
    exact ⟨fun h => by rw [hverify.2 h]; rfl, fun h => by rw [hverify.1 h]; rfl⟩

/-- What the client learns from a reply, it learns from one that verifies. -/
theorem exchange_verified (U : Urllib) (device : Device) (answers : List Answer)
    (hn : headers.nonce = nonce.val) :
    Verified L secret nonce.val path answers ∨
      ∃ e, HostClient.exchange L U device path (some (secret, headers)) answers = .error e ∧
        ∀ kind message status, e = .host kind message status → kind = .unavailable ∨
        kind = .integrity := by
  by_cases hv : Verified L secret nonce.val path answers
  · exact .inl hv
  right
  have hreject : ∀ r body, .reply r ∈ answers → r.body = .ok body →
      HostClient.verifyReply L (HostClient.hostReply r body) (some (secret, headers)) path =
        .error (.host .integrity integrityMessage none) := by
    intro r body hr hbody
    exact (verifyReply_eq secret nonce hL hpath r body hn).2 fun hs => hv ⟨r, body, hr, hbody, hs⟩
  cases hopen : urlopen U [] .post (HostClient.url device path) answers with
  | ok r =>
    have hr : .reply r ∈ answers := mem_of_urlopen (by rw [hopen]; exact List.mem_cons_self)
    cases hbody : r.body with
    | ok body =>
      rw [exchange_returned hopen hbody, hreject r body hr hbody]
      exact ⟨_, rfl, by simp⟩
    | error f => cases f <;> simp [HostClient.exchange, hopen, hbody]
  | error e =>
    cases e with
    | httpError r =>
      have hr : .reply r ∈ answers := mem_of_urlopen (by rw [hopen]; simp)
      cases hbody : r.body with
      | ok body =>
        rw [exchange_raised hopen hbody, hreject r body hr hbody]
        exact ⟨_, rfl, by simp⟩
      | error f => cases f <;> simp [HostClient.exchange, hopen, hbody]
    | fault f => cases f <;> simp [HostClient.exchange, hopen]
    | value message => simp [HostClient.exchange, hopen]

end

-- ---------------------------------------------------------------------------
-- `_status` and `stop`
-- ---------------------------------------------------------------------------

def HostClient.accepted (device : Device) (reply : HostReply) :
    Except Raised Protobuf.StatusResponse := do
  let response ← Protobuf.StatusResponse.decode reply.body
  if response.protocolVersion ≠ Protobuf.protocolVersion then
    .error (.host .protocol updateMessage none)
  else if HostClient.otherHost device response.hostId then
    .error (.host .identity "This address now belongs to a different PC.".toList none)
  else pure response

theorem accepted_error (h : HostClient.accepted device reply = .error (.host kind message status)) :
    kind = .protocol ∧ message = updateMessage ∨ kind = .identity := by
  rcases bind_eq_error h with h | ⟨response, -, h⟩
  · obtain ⟨m, hm⟩ := Protobuf.StatusResponse.decode_rejects _ _ h
    cases hm
  · split at h
    · cases h
      exact .inl ⟨rfl, rfl⟩
    · split at h
      · cases h
        exact .inr rfl
      · cases h

theorem errorKind_protocol (h : HostClient.errorKind status = .protocol) : status = 426 := by
  unfold HostClient.errorKind at h
  split_ifs at h with _ _ hstatus
  exact hstatus

theorem errorKind_ne_integrity (status : Nat) : HostClient.errorKind status ≠ .integrity := by
  unfold HostClient.errorKind
  split_ifs <;> simp

/-- Only an integrity or a protocol error is reported as `UNKNOWN` and `PAIRED`. -/
theorem checked_eq_unknown {c : Controller}
    (h : c.checked L device now x = c.result device.id .unknown .paired message) :
    ∃ kind status, x = .error (.host kind message status) ∧
      (kind = .integrity ∨ kind = .protocol) := by
  have hresult := congrArg Prod.snd h
  cases x with
  | ok response => cases Controller.checked_response hresult
  | error e =>
    cases e with
    | host kind text status =>
      cases kind with
      | integrity | protocol =>
        simp only [Controller.checked, Controller.result, Except.ok.injEq,
          StatusResult.mk.injEq, true_and] at hresult
        subst hresult
        exact ⟨_, status, rfl, by simp⟩
      | authentication | identity => simp [Controller.checked, Controller.result] at hresult
      | pairing | unavailable | host =>
        simp only [Controller.checked] at hresult
        split at hresult <;> simp [Controller.result] at hresult
    | _ => simp [Controller.checked, Controller.result] at hresult

section
variable {L : Libraries} (secret : Bytes) (nonce : Block 16)
  (hL : ∀ key m, (L.hmac key m).length = 32)
include hL

omit hL in
theorem status_eq (U : Urllib) (device : Device) (timestamp : UInt64) (answers : List Answer) :
    ∃ headers : Auth.AuthHeaders, headers.nonce = nonce.val ∧
      HostClient.status L U device secret timestamp.toNat nonce.val answers =
        HostClient.exchange L U device HostClient.statusPath (some (secret, headers)) answers >>=
          HostClient.accepted device := by
  obtain ⟨headers, hn, hpost⟩ := post_eq secret nonce statusPath_signable U device
    (Proto3.encode Protobuf.versionFields) timestamp answers
  refine ⟨headers, hn, ?_⟩
  rw [HostClient.status, Protobuf.statusRequest_eq, ok_bind, hpost]
  rfl

theorem unauthenticated_iff (U : Urllib) (device : Device) (timestamp : UInt64) {r : Reply}
    (hbody : r.body = .ok body) :
    r.Unauthenticated L U device secret timestamp nonce ↔
      ¬ r.Leaves U (HostClient.url device HostClient.statusPath) ∧
        (r.Signed L secret nonce.val HostClient.statusPath (body.take readLimit) →
          r.status = 426 ∧ HostClient.errorMessage (body.take readLimit) = integrityMessage) := by
  constructor
  · intro h
    obtain ⟨headers, hn, hstatus⟩ := status_eq secret nonce U device timestamp [.reply r]
    have h := h ⟨[], [], 0⟩ [] 0
    rw [Controller.status, hstatus] at h
    obtain ⟨kind, status, herror, hkind⟩ := checked_eq_unknown h
    have hstays : ¬ r.Leaves U (HostClient.url device HostClient.statusPath) := by
      intro hleaves
      rcases urlopen_leaves hleaves hbody with hopen | ⟨message, hopen⟩ <;>
        simp only [HostClient.exchange, hopen, error_bind, Except.error.injEq, Raised.host.injEq,
          reduceCtorEq] at herror
      simp [← herror.1] at hkind
    refine ⟨hstays, fun hsigned => ?_⟩
    have hexchange := exchange_stays secret nonce hL statusPath_signable [] hstays hbody hn
    rw [hexchange.2 hsigned] at herror
    split at herror
    · rcases accepted_error herror with ⟨-, hmessage⟩ | hidentity
      · exact absurd hmessage (by decide)
      · simp [hidentity] at hkind
    · simp only [error_bind, Except.error.injEq, Raised.host.injEq] at herror
      refine ⟨errorKind_protocol ?_, herror.2.1⟩
      rw [herror.1]
      exact hkind.resolve_left fun h => errorKind_ne_integrity _ (herror.1.trans h)
  · rintro ⟨hstays, hsigned⟩ c answers now
    obtain ⟨headers, hn, hstatus⟩ :=
      status_eq secret nonce U device timestamp (.reply r :: answers)
    have hstays := exchange_stays secret nonce hL statusPath_signable answers hstays hbody hn
    rw [Controller.status, hstatus]
    by_cases hs : r.Signed L secret nonce.val HostClient.statusPath (body.take readLimit)
    · obtain ⟨hcode, hmessage⟩ := hsigned hs
      rw [hstays.2 hs, if_neg (by omega), hcode, hmessage]
      rfl
    · rw [hstays.1 hs]
      rfl

theorem status_verified (U : Urllib) (device : Device) (timestamp : UInt64) (c : Controller)
    (answers : List Answer) (now : Nat)
    (h : (c.status L U device (some secret) timestamp.toNat nonce.val answers now).2 = .ok result)
    (hresult : result.state = .online ∨ result.pairing = .pairingFailed) :
    Verified L secret nonce.val HostClient.statusPath answers := by
  obtain ⟨headers, hn, hstatus⟩ := status_eq secret nonce U device timestamp answers
  rcases exchange_verified secret nonce hL statusPath_signable U device answers hn with
    hv | ⟨e, he, hkind⟩
  · exact hv
  exfalso
  rw [Controller.status, hstatus, he, error_bind] at h
  cases e with
  | host kind message status =>
    rcases hkind _ _ _ rfl with rfl | rfl
    · simp only [Controller.checked] at h
      split at h <;> cases h <;> simp at hresult
    · cases h
      simp at hresult
  | _ => cases h

theorem stop_verified (U : Urllib) (device : Device) (timestamp : UInt64) (c : Controller)
    (answers : List Answer) (now : Nat) :
    Verified L secret nonce.val HostClient.shutdownPath answers ∨
      ∃ e, c.stop L U device secret timestamp.toNat nonce.val answers now = (c, .error e) := by
  obtain ⟨headers, hn, hpost⟩ := post_eq secret nonce shutdownPath_signable U device
    (Proto3.encode Protobuf.versionFields) timestamp answers
  refine (exchange_verified secret nonce hL shutdownPath_signable U device answers hn).imp_right ?_
  rintro ⟨e, he, -⟩
  refine ⟨e, ?_⟩
  rw [Controller.stop, HostClient.shutdown, Protobuf.shutdownRequest_eq, ok_bind, hpost, he]
  rfl

end

/-- A reply that is not signed for the status request is reported as one that
could not be authenticated, exactly if `urllib` hands it to the client and the
client does not verify a part of it instead. Nothing else than a reply that
verifies makes the PC `ONLINE`, its pairing failed or its shutdown accepted. -/
theorem response_authenticity {L : Libraries} (hL : ∀ key m, (L.hmac key m).length = 32)
    (U : Urllib) (device : Device) (secret : Bytes) (timestamp : UInt64) (nonce : Block 16) :
    (∀ (r : Reply) body, r.body = .ok body → ¬ r.Signed L secret nonce.val HostClient.statusPath
      body → (r.Unauthenticated L U device secret timestamp nonce ↔
        ¬ r.Leaves U (HostClient.url device HostClient.statusPath) ∧
          (readLimit < body.length →
            r.Signed L secret nonce.val HostClient.statusPath (body.take readLimit) →
            r.status = 426 ∧ HostClient.errorMessage (body.take readLimit) = integrityMessage))) ∧
    (∀ (c : Controller) answers now result,
      (c.status L U device (some secret) timestamp.toNat nonce.val answers now).2 = .ok result →
      result.state = .online ∨ result.pairing = .pairingFailed →
      Verified L secret nonce.val HostClient.statusPath answers) ∧
    ∀ (c : Controller) answers now, Verified L secret nonce.val HostClient.shutdownPath answers ∨
      ∃ e, c.stop L U device secret timestamp.toNat nonce.val answers now = (c, .error e) := by
  refine ⟨fun r body hbody hunsigned => ?_, fun c answers now result => ?_, fun c answers now => ?_⟩
  · rw [unauthenticated_iff secret nonce hL U device timestamp hbody]
    refine and_congr_right fun _ => ⟨fun h _ => h, fun h hsigned => h ?_ hsigned⟩
    -- a body that is read whole is the one that is not signed
    by_contra hlen
    rw [List.take_of_length_le (Nat.le_of_not_lt hlen)] at hsigned
    exact hunsigned hsigned
  · exact status_verified secret nonce hL U device timestamp c answers now
  · exact stop_verified secret nonce hL U device timestamp c answers now

def rig : Device :=
  { id := "rig".toList, name := "Rig".toList, address := "rig.local".toList, mac := [] }

def Urllib.follows : Urllib := ⟨fun _ location => .follow location⟩

/-- A success without a signature. -/
theorem unsigned_success_unauthenticated :
    Reply.Unauthenticated .sample .follows rig (List.replicate 32 7) 0
      ⟨List.replicate 16 9, rfl⟩ ⟨200, by decide, [], .ok []⟩ := by
  have hunsigned : ¬ Reply.Signed .sample (List.replicate 32 7)
      (List.replicate 16 9) HostClient.statusPath ⟨200, by decide, [], .ok []⟩ [] := by
    rintro ⟨text, _, _, htext, -⟩
    cases htext
  refine ((response_authenticity Sha256.length_hmac .follows rig (List.replicate 32 7) 0
    ⟨List.replicate 16 9, rfl⟩).1 _ [] rfl hunsigned).mpr ⟨?_, ?_⟩
  · rintro ⟨hredirect, -⟩
    cases hredirect
  · intro hlen
    cases hlen

def moved : Reply := ⟨302, by decide, [("Location".toList, "http://rig".toList)], .ok []⟩

/-- Nothing answers where the redirect leads: the PC is reported as offline. -/
theorem unsigned_redirect_offline :
    ¬ moved.Signed .sample (List.replicate 32 7) (List.replicate 16 9)
      HostClient.statusPath [] ∧
    (Controller.status .sample .follows ⟨[], [], 0⟩ rig (some (List.replicate 32 7))
      0 (List.replicate 16 9) [.reply moved] 0).2 = .ok ⟨.offline, .paired,
      unavailableMessage rig⟩ := by
  constructor
  · rintro ⟨text, _, _, htext, -⟩
    have hnone : moved.signature = none := by decide
    rw [hnone] at htext
    cases htext
  · obtain ⟨headers, -, hstatus⟩ := status_eq (L := .sample) (List.replicate 32 7)
      ⟨List.replicate 16 9, rfl⟩ .follows rig 0 [.reply moved]
    have hopen : urlopen .follows [] .post
      (HostClient.url rig HostClient.statusPath) [.reply moved] =
        .error (.fault .os) := rfl
    rw [Controller.status]
    refine (congrArg (fun x => (Controller.checked _ _ rig 0 x).2) hstatus).trans ?_
    simp only [HostClient.exchange, hopen]
    rfl

end DeckyMyRig.Deck
