import DeckyMyRig.Host.Answers
import DeckyMyRig.System.Served

/-!
# What a host says to a Deck it does not know

The Deck accepts no answer without a signature, and a host signs nothing for a
credential that is not its own. So the controller takes every refusal for an
answer that it cannot authenticate: its report that a pairing is no longer valid
is never made on the word of a host.
-/

namespace DeckyMyRig.System

open Octets Checked Machine

theorem unauthorized_plain (C : Host.Crates) (reason : Host.AuthError) :
    (Host.unauthorized C reason).signature = none ∧
      Deck.isRedirect (Host.unauthorized C reason).status.toNat = false := by
  cases reason <;> exact ⟨rfl, rfl⟩

theorem StatusAnswer.stays (h : Host.StatusAnswer C host name response) :
    Deck.isRedirect response.status.toNat = false := by
  cases h with
  | refused => exact (unauthorized_plain C _).2
  | failed hstatus => rcases hstatus with rfl | rfl | rfl <;> rfl
  | served => rfl

section
variable {L : Deck.Libraries} {C : Host.Crates} {host : Host.Uuid} {name : Text}
  {response : Host.Response} {device : Deck.Device} {r : Deck.Reply}

/-- The controller goes on as if paired. -/
def StaysPaired (L : Deck.Libraries) (c : Deck.Controller) (device : Deck.Device) (now : Nat)
    (found : Except Deck.Raised Deck.Protobuf.StatusResponse) : Prop :=
  ∃ state message, c.checked L device now found = c.result device.id state .paired message

theorem staysPaired_error (hkind : kind ≠ .authentication ∧ kind ≠ .identity) (L : Deck.Libraries)
    (c : Deck.Controller) (device : Deck.Device) (now : Nat) (message : Text)
    (status : Option Nat) :
    StaysPaired L c device now (.error (.host kind message status)) := by
  unfold StaysPaired Deck.Controller.checked
  cases kind with
  | authentication => exact absurd rfl hkind.1
  | identity => exact absurd rfl hkind.2
  | integrity | protocol => exact ⟨_, _, rfl⟩
  | _ =>
    simp only
    split <;> exact ⟨_, _, rfl⟩

theorem signed_answer_paired (hC : C.ProstEncodes) (hname : HostName name)
    (hdevice : Deck.HostClient.otherHost device host.toText = false)
    (h : Host.StatusAnswer C host name response) (hsigned : response.signature ≠ none)
    (c : Deck.Controller) (now : Nat) (signature : Option Text) :
    StaysPaired L c device now
      ((if 200 ≤ response.status.toNat ∧ response.status.toNat < 300 then
          Except.ok ⟨response.body.take Deck.readLimit, response.status.toNat, signature⟩
        else .error (.host (Deck.HostClient.errorKind response.status.toNat)
          (Deck.HostClient.errorMessage (response.body.take Deck.readLimit))
          (some response.status.toNat))) >>=
        Deck.HostClient.accepted device) := by
  cases h with
  | refused => exact absurd (unauthorized_plain C _).1 hsigned
  | failed hstatus =>
    have hkinds : ∀ n ∈ [400, 415, 426], Deck.HostClient.errorKind n ≠ .authentication ∧
        Deck.HostClient.errorKind n ≠ .identity := by decide
    rcases hstatus with rfl | rfl | rfl
    · exact staysPaired_error (hkinds 400 (by simp)) ..
    · exact staysPaired_error (hkinds 415 (by simp)) ..
    · exact staysPaired_error (hkinds 426 (by simp)) ..
  | @served paired caller _ =>
    have hbody : (Host.statusAnswer C host name paired caller).body.take Deck.readLimit =
        Proto3.encode (Host.StatusResponse.fields
          ⟨name, Host.hostVersion, Host.protocolVersion, paired, host.toText⟩) := by
      simp only [Host.statusAnswer, Host.authenticatedProtobuf, hC.encodeStatusResponse]
      exact List.take_of_length_le (statusBody_short hname host paired)
    have hstatus : (Host.statusAnswer C host name paired caller).status.toNat = 200 := rfl
    rw [hbody, hstatus, if_pos (by decide), ok_bind, accepted_status hname host paired hdevice]
    exact ⟨_, _, rfl⟩

end

/-- Whatever credential a Deck signs its status request with, and whatever a
host does: on the host's answer the controller does not give the pairing up. An
answer without a signature, as every refusal is, it reports as one that could
not be authenticated. -/
theorem refused_deck_stays_paired {L : Deck.Libraries} {C : Host.Crates} (U : Deck.Urllib)
    (hL : ∀ key m, (L.hmac key m).length = 32) (hC : C.ProstEncodes) (hname : HostName name)
    (hboot : Host.AppState.boot name stored nextTask wall env = some start)
    (hreach : Run (Host.hostStep C) P start past s₀)
    (hdevice : Deck.HostClient.otherHost device stored.hostId.toText = false)
    (hreceive : s₀.receive C (.authenticated .status http) = (s₁, out))
    (h : Run (Host.hostStep C) Q s₁ tr s) (hanswer : .answered s₀.nextTask response ∈ out ++ tr)
    (hr : Conveys r response) (secret : Bytes) (timestamp : UInt64) (nonce : Block 16)
    (c : Deck.Controller) (now : Nat) :
    ∃ state message, c.status L U device (some secret) timestamp.toNat nonce.val [.reply r] now =
        c.result device.id state .paired message ∧
      (response.signature = none → state = .unknown ∧ message = Deck.integrityMessage) ∧
      ∀ reason, response = Host.unauthorized C reason → response.signature = none := by
  have hg : Host.Grounded C stored.hostId name s₀ := (Host.Grounded.boot hboot).run hreach
  have hstatusAnswer := Host.status_answers hg hreceive h hanswer
  obtain ⟨headers, hn, hstatus⟩ :=
    Deck.status_eq (L := L) secret nonce U device timestamp [.reply r]
  have hstays : ¬ r.Leaves U (Deck.HostClient.url device Deck.HostClient.statusPath) :=
    not_leaves (by rw [hr.status]; exact StatusAnswer.stays hstatusAnswer) U _
  obtain ⟨hunverified, hverified⟩ :=
    Deck.exchange_stays secret nonce hL Deck.statusPath_signable [] hstays hr.body hn
  have hplain : ∀ reason, response = Host.unauthorized C reason → response.signature = none := by
    rintro reason rfl
    exact (unauthorized_plain C reason).1
  rw [Deck.Controller.status, hstatus]
  by_cases hsigned : r.Signed L secret nonce.val Deck.HostClient.statusPath
    (response.body.take Deck.readLimit)
  · have hsome : response.signature ≠ none := by
      obtain ⟨text, -, -, htext, -⟩ := hsigned
      rw [← hr.signature, htext]
      simp
    rw [hverified hsigned, Deck.HostClient.hostReply, hr.status]
    obtain ⟨state, message, hresult⟩ :=
      signed_answer_paired (L := L) hC hname hdevice hstatusAnswer hsome c now r.signature
    exact ⟨state, message, hresult, fun hnone => absurd hnone hsome, hplain⟩
  · rw [hunverified hsigned]
    exact ⟨.unknown, Deck.integrityMessage, rfl, fun _ => ⟨rfl, rfl⟩, hplain⟩

def refusedBy (id : Nat) : Host.Output → Bool
  | .answered i response => i = id && response = Host.unauthorized servedCrates .stale
  | _ => false

/-- The rig refuses the request of time 1000 at 5000. -/
theorem late_deck_stays_paired :
    ∃ tr s, Run (Host.hostStep servedCrates) (fun _ _ => True)
        (pairedRig.receive servedCrates (.authenticated .status (servedHttp .status))).1 tr s ∧
      .answered 0 (Host.unauthorized servedCrates .stale) ∈ tr ∧
      ∀ r, Conveys r (Host.unauthorized servedCrates .stale) →
        ∀ (c : Deck.Controller) now, ∃ state message,
          c.status servedLibraries noRedirects rig (some (List.replicate 32 7)) 1000
            (List.replicate 16 9)
              [.reply r] now = c.result rig.id state .paired message ∧
            state = .unknown ∧ message = Deck.integrityMessage := by
  obtain ⟨tr, s, hrun, hrefused⟩ :=
    Run.exists_of_exec (Host.hostStep servedCrates) (fun _ _ => True)
    (pairedRig.receive servedCrates (.authenticated .status (servedHttp .status))).1
      (servedSteps [[5000], []])
    (fun _ tr => tr.any (refusedBy 0)) (by decide +kernel)
  obtain ⟨o, ho, hrefused⟩ := List.any_eq_true.mp hrefused
  cases o with
  | answered i response =>
    simp only [refusedBy, Bool.and_eq_true, decide_eq_true_eq] at hrefused
    obtain ⟨rfl, rfl⟩ := hrefused
    refine ⟨tr, s, hrun, ho, fun r hr c now => ?_⟩
    have hreceive :=
      (Prod.mk.eta (p := pairedRig.receive servedCrates
        (.authenticated .status (servedHttp .status)))).symm
    obtain ⟨state, message, hresult, hintegrity, hplain⟩ :=
      refused_deck_stays_paired (L := servedLibraries)
      (C := servedCrates) noRedirects Sha256.length_hmac
        (Host.Crates.prost_withProst _).toProstEncodes ⟨by decide, by decide⟩
      boot_pairedRig pairedRig_reached
      (show Deck.HostClient.otherHost rig Host.pairedHost.hostId.toText = false by decide)
      hreceive hrun (List.mem_append_right _ ho) hr (List.replicate 32 7) 1000 (repeated 16 9) c now
    exact ⟨state, message, hresult, hintegrity (hplain .stale rfl)⟩
  | _ => cases hrefused

end DeckyMyRig.System
