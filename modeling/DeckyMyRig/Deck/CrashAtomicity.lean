import DeckyMyRig.Deck.StoreLaws

/-!
# Commits and crashes

`delete` and `mark_paired` change both documents. However a crash cuts one of
them short, and however often recovery is cut short after it, the store holds
what it held before, or what the call makes of it.
-/

namespace DeckyMyRig.Deck

open Octets Texts Faults Checked Store

-- ---------------------------------------------------------------------------
-- The calls that commit
-- ---------------------------------------------------------------------------

inductive Commit
  | delete (deviceId : Text)
  | markPaired (deviceId : Text) (credential : Bytes) (facts : HostFacts)

namespace Commit

def run (py : Python) : Commit → Action Unit
  | .delete deviceId => Store.delete py deviceId
  | .markPaired deviceId credential facts => do
    let _ ← Store.markPaired py deviceId credential facts

/-- Pairing is with a device that exists, and with a credential of 32 bytes. -/
def Allowed (settings : Settings) : Commit → Prop
  | .delete _ => True
  | .markPaired deviceId credential _ =>
    (∃ device ∈ settings.devices, device.id = deviceId) ∧ credential.length = 32

def settings (before : Settings) : Commit → Settings
  | .delete deviceId => { before with devices := before.devices.filter (·.id ≠ deviceId) }
  | .markPaired deviceId _ facts =>
    match updateFirst (·.id = deviceId) (Device.pairWith facts) before.devices with
    | some (_, devices) => { before with devices }
    | none => before

def credentials (before : Credentials) : Commit → Credentials
  | .delete deviceId => before.remove deviceId
  | .markPaired deviceId credential _ => before.set deviceId credential

def apply (commit : Commit) (before : Settings × Credentials) : Settings × Credentials :=
  ((commit.settings before.1).flagged (commit.credentials before.2), commit.credentials before.2)

end Commit

theorem Device.Normal.pairWith (h : Device.Normal py device) (facts : HostFacts) :
    (device.pairWith facts).Normal py := by
  obtain ⟨hname, haddress, hmac, hport, hbroadcast⟩ := h
  exact ⟨hname, haddress, hmac, hport, hbroadcast⟩

theorem storedIdentifier_ne_nil {id : Text} (h : storedIdentifier (.str id) = .ok id) :
    id ≠ [] := by
  rintro rfl
  cases h

namespace Commit

variable {py : Python} (commit : Commit) (c : Contents py)

theorem mem_settings (h : device ∈ (commit.settings c.settings).devices) :
    ∃ device' ∈ c.devices, device = device' ∨ ∃ facts, device = device'.pairWith facts := by
  cases commit with
  | delete deviceId => exact ⟨device, List.mem_of_mem_filter h, .inl rfl⟩
  | markPaired deviceId credential facts =>
    rcases updateFirst_cases (fun device : Device => device.id = deviceId) (Device.pairWith facts)
      c.devices with ⟨hnone, -⟩ | ⟨before, device', after, hsplit, -, -, hsome⟩
    · simp only [settings, Contents.settings, hnone] at h
      exact ⟨device, h, .inl rfl⟩
    · simp only [settings, Contents.settings, hsome, List.mem_append, List.mem_cons] at h
      rw [hsplit]
      rcases h with h | rfl | h
      · exact ⟨device, by simp [h], .inl rfl⟩
      · exact ⟨device', by simp, .inr ⟨facts, rfl⟩⟩
      · exact ⟨device, by simp [h], .inl rfl⟩

theorem settings_normal : ∀ device ∈ (commit.settings c.settings).devices, device.Normal py := by
  intro device h
  obtain ⟨device', hd, rfl | ⟨facts, rfl⟩⟩ := commit.mem_settings c h
  · exact c.normal _ hd
  · exact (c.normal _ hd).pairWith facts

theorem settings_identified : ∀ device ∈ (commit.settings c.settings).devices,
    storedIdentifier (.str device.id) = .ok device.id := by
  intro device h
  obtain ⟨device', hd, rfl | ⟨facts, rfl⟩⟩ := commit.mem_settings c h
  · exact c.identified _ hd
  · exact c.identified device' hd

variable {commit c}

theorem credentials_keyed (h : commit.Allowed c.settings) :
    ∀ e ∈ commit.credentials c.credentials, e.1 ≠ [] ∧ e.2.length = 32 := by
  intro e he
  cases commit with
  | delete deviceId => exact c.keyed e (List.mem_of_mem_filter he)
  | markPaired deviceId credential facts =>
    obtain ⟨⟨device, hd, rfl⟩, hlen⟩ := h
    rcases Dict.mem_set he with rfl | he
    · exact ⟨storedIdentifier_ne_nil (c.identified device hd), hlen⟩
    · exact c.keyed e he

def after (commit : Commit) (c : Contents py) (h : commit.Allowed c.settings) : Contents py :=
  .of (commit.settings c.settings).devices (commit.credentials c.credentials)
    (commit.settings_normal c) (commit.settings_identified c) (credentials_keyed h)

theorem settings_version (commit : Commit) (c : Contents py) :
    commit.settings c.settings = { devices := (commit.settings c.settings).devices } := by
  cases commit with
  | delete deviceId => rfl
  | markPaired deviceId credential facts =>
    simp only [settings]
    split
    · rfl
    · rfl

theorem after_value (h : commit.Allowed c.settings) :
    (commit.after c h).value = commit.apply c.value := by
  show (Settings.flagged { devices := (commit.settings c.settings).devices } _, _) =
    ((commit.settings c.settings).flagged _, _)
  rw [← settings_version]
  rfl

-- ---------------------------------------------------------------------------
-- One call
-- ---------------------------------------------------------------------------

section
variable {A : Fate → Prop}

/-- Where nothing raises, a handler does nothing. -/
theorem onError_triple {P : Disk → Prop} {Q : Unit → Disk → Prop} {C : Disk → Prop}
    (h : Triple A P body Q (fun _ _ => False) C) :
    Triple A P (onError body handler) Q (fun _ _ => False) C :=
  Triple.catching h fun _ _ _ hfalse => hfalse.elim

variable (hA : ¬ A .raises)
include hA

/-- Without exceptions, a commit ends with the new contents, and a crash leaves
the old ones or the new ones. -/
theorem commit_triple (h : commit.Allowed c.settings)
    (hr : Readable py (commit.settings c.settings) (commit.credentials c.credentials)) :
    Triple A (Settled py · c)
      (Store.commit py (commit.settings c.settings) (commit.credentials c.credentials) c.settings
        c.credentials)
      (fun _ d => Settled py d (commit.after c h)) (fun _ _ => False)
      (fun d => A .crashes ∧ (Holds py d c ∨ Holds py d (commit.after c h))) := by
  rw [settings_version] at hr ⊢
  have hE : A .raises → ∀ (_ : PyError) d, Holds py d (commit.after c h) → False :=
    fun hraises => absurd hraises hA
  have hC : A .crashes → ∀ d, Holds py d (commit.after c h) →
      A .crashes ∧ (Holds py d c ∨ Holds py d (commit.after c h)) := fun hA _ hd => ⟨hA, .inr hd⟩
  refine Triple.bind (Q := fun _ d => Carries py d _ _ (commit.after c h)) ?_ fun _ =>
    Triple.bind (onError_triple (Carries.writeCredentials hE hC)) fun _ =>
    Triple.bind (onError_triple (Carries.writeSettings hE hC)) fun _ => Carries.remove hE hC
  refine atomicWrite_triple (fun d _ => carries_written _ _ _ hr d)
    (fun hraises => absurd hraises hA) fun hcrashes d hd => ?_
  exact ⟨hcrashes, hd.imp .inl Carries.holds⟩

theorem run_triple (h : commit.Allowed c.settings)
    (hr : Readable py (commit.settings c.settings) (commit.credentials c.credentials)) :
    Triple A (Holds py · c) (commit.run py) (fun _ d => Settled py d (commit.after c h))
      (fun _ _ => False)
      (fun d => A .crashes ∧ (Holds py d c ∨ Holds py d (commit.after c h))) := by
  have hsnapshot : Triple A (Holds py · c) (snapshot py) (fun v d => v = c.value ∧ Settled py d c)
      (fun _ _ => False) (fun d => A .crashes ∧ (Holds py d c ∨ Holds py d (commit.after c h))) :=
    Triple.mono (snapshot_triple c) (fun _ hd => hd) (fun _ _ hd => hd)
      (fun _ _ hd => hA hd.1) fun _ hd => ⟨hd.1, .inl hd.2⟩
  have hcommit := commit_triple hA h hr
  cases commit with
  | delete deviceId =>
    refine Triple.bind hsnapshot fun v => Triple.at_store ?_
    rintro d ⟨rfl, hd⟩
    exact Triple.mono hcommit (by rintro _ rfl; exact hd) (fun _ _ hd => hd) (fun _ _ hd => hd)
      fun _ hd => hd
  | markPaired deviceId credential facts =>
    refine Triple.bind (Q := fun _ d => Settled py d (after _ c h)) ?_ fun _ =>
      Triple.pure fun _ hd => hd
    refine Triple.bind hsnapshot fun v => Triple.at_store ?_
    rintro d ⟨rfl, hd⟩
    rcases updateFirst_cases (fun device : Device => device.id = deviceId) (Device.pairWith facts)
      c.devices with ⟨-, hnone⟩ | ⟨before, device, after, -, -, -, hsome⟩
    · obtain ⟨⟨device, hmem, hdevice⟩, -⟩ := h
      exact absurd hdevice (by simpa using hnone device hmem)
    · simp only [settings, Contents.settings, hsome] at hcommit
      simp only [Contents.value, Contents.settings, hsome]
      refine Triple.bind (Triple.mono hcommit ?_ (fun _ _ hd => hd)
        (fun _ _ hd => hd) fun _ hd => hd)
        fun _ => Triple.pure fun _ hd => hd
      rintro _ rfl
      exact hd

end

end Commit

-- ---------------------------------------------------------------------------
-- Reopening
-- ---------------------------------------------------------------------------

def reopen (py : Python) (disk : Disk) (attempts : List (List Fate)) : Disk :=
  attempts.foldl (fun disk fates => (construct py disk fates).2.1) disk

theorem construct_holds {c : Contents py} (h : Holds py disk c) (fates : List Fate) :
    Holds py (construct py disk fates).2.1 c := by
  exact (recover_triple (A := fun _ => True) c).leaves h (fun _ _ => trivial)
    (fun _ _ hd => .inl hd)
    (fun _ _ he => he.2.2) fun _ hd => hd.2

theorem reopen_holds {c : Contents py} (h : Holds py disk c) (attempts : List (List Fate)) :
    Holds py (reopen py disk attempts) c := by
  induction attempts generalizing disk with
  | nil => exact h
  | cons fates attempts ih => exact ih (construct_holds h fates)

theorem construct_ok {c : Contents py} (h : Holds py disk c) :
    (construct py disk []).1 = .ok () := by
  obtain ⟨_, d, hrun, -⟩ := (recover_triple c).returns h (fun _ _ he => he.1) fun _ hd => hd.1
  show (recoverTransaction py disk []).1 = _
  rw [hrun]

theorem Holds.readTransaction {c : Contents py} {disk : Disk} (h : Holds py disk c)
    (ht : disk.transaction = some text) : ∃ documents, readTransaction py text = .ok documents := by
  rcases h with h | ⟨settings, credentials, h⟩
  · rw [h.transaction] at ht
    cases ht
  · obtain ⟨text', ht', hread⟩ := h.transaction
    rw [ht] at ht'
    cases ht'
    exact ⟨_, hread⟩

-- ---------------------------------------------------------------------------
-- Atomicity
-- ---------------------------------------------------------------------------

/-- After a crash in a call and attempts to reopen the store that faults cut
short, a store that is constructed holds what it held before the call, or what
the call leads to. -/
theorem crash_atomicity {py : Python} {disk : Disk} {settings : Settings}
    {credentials : Credentials}
    (hnone : disk.transaction = none) (hfiles : readFiles py disk = .ok (settings, credentials))
    (commit : Commit) (hc : commit.Allowed settings)
    (hjson : Readable py (commit.settings settings) (commit.credentials credentials))
    (fates : List Fate) (hfates : .raises ∉ fates) (attempts : List (List Fate)) :
    let disk' := reopen py (commit.run py disk fates).2.1 attempts
    (snapshot py disk []).1 = .ok (settings, credentials) ∧
    (snapshot py (commit.run py disk []).2.1 []).1 = .ok (commit.apply (settings, credentials)) ∧
    (∀ text, disk'.transaction = some text → ∃ documents, readTransaction py text = .ok documents) ∧
    (construct py disk' []).1 = .ok () ∧
    ∀ last disk'' rest, construct py disk' last = (.ok (), disk'', rest) →
      (snapshot py disk'' []).1 = .ok (settings, credentials) ∨
      (snapshot py disk'' []).1 = .ok (commit.apply (settings, credentials)) := by
  intro disk'
  obtain ⟨c, hvalue, hsettled⟩ := Settled.of_files hnone hfiles
  obtain ⟨rfl, rfl⟩ : c.settings = settings ∧ c.credentials = credentials := by
    simpa [Contents.value] using hvalue
  have hholds : Holds py disk c := .inl hsettled
  -- the call that no fault meets
  obtain ⟨_, done, hrun, hdone⟩ := (Commit.run_triple id hc hjson).returns hholds (fun _ _ he => he)
    fun _ hd => hd.1
  have hcrash : Holds py (commit.run py disk fates).2.1 c ∨
      Holds py (commit.run py disk fates).2.1 (commit.after c hc) :=
    (Commit.run_triple (A := (· ≠ .raises)) (fun h => h rfl) hc hjson).leaves hholds
      (fun x hx hraises => hfates (hraises ▸ hx)) (fun _ _ hd => .inr (.inl hd))
      (fun _ _ he => he.elim) fun _ hd => hd.2
  have hafter : (.ok (commit.after c hc).value : Result PyError _) =
      .ok (commit.apply (c.settings, c.credentials)) := congrArg _ (Commit.after_value hc)
  refine ⟨snapshot_holds hholds, ?_, ?_, ?_, ?_⟩
  · rw [hrun]
    exact (snapshot_holds (.inl hdone)).trans hafter
  · intro text htext
    rcases hcrash with h | h
    · exact (reopen_holds h attempts).readTransaction htext
    · exact (reopen_holds h attempts).readTransaction htext
  · rcases hcrash with h | h
    · exact construct_ok (reopen_holds h attempts)
    · exact construct_ok (reopen_holds h attempts)
  · intro last disk'' rest hlast
    have hdisk : (construct py disk' last).2.1 = disk'' := by rw [hlast]
    rw [← hdisk]
    rcases hcrash with h | h
    · exact .inl (snapshot_holds (construct_holds (reopen_holds h attempts) last))
    · exact .inr ((snapshot_holds (construct_holds (reopen_holds h attempts) last)).trans hafter)

-- ---------------------------------------------------------------------------
-- A directory with one PC
-- ---------------------------------------------------------------------------

def onePc : Settings where
  devices := [{
    id := "pc".toList
    name := "PC".toList
    address := "pc.local".toList
    mac := "AA:BB:CC:DD:EE:FF".toList }]

def pairPc : Commit :=
  .markPaired "pc".toList (List.replicate 32 7) ⟨"host".toList, "1.0".toList, 1⟩

def onePcDocuments : List Json :=
  [onePc.publicDict, Credentials.document [], (pairPc.settings onePc).publicDict,
    (pairPc.credentials []).document, transactionDocument (pairPc.settings onePc)
    (pairPc.credentials [])]

def onePcPython : Python := .reading onePcDocuments

theorem onePc_reads (h : document ∈ onePcDocuments) : onePcPython.Readable document :=
  Python.readable_reading (by decide +kernel) h

theorem pairPc_readable : Readable onePcPython (pairPc.settings onePc) (pairPc.credentials []) where
  transaction := onePc_reads (by simp [onePcDocuments])
  settings := onePc_reads (by simp [onePcDocuments])
  credentials := onePc_reads (by simp [onePcDocuments])

theorem onePc_normal (py : Python) : ∀ device ∈ onePc.devices, device.Normal py := by
  intro device h
  cases List.mem_singleton.mp h
  exact ⟨rfl, rfl, rfl, rfl, rfl⟩

theorem onePc_identified :
    ∀ device ∈ onePc.devices, storedIdentifier (.str device.id) = .ok device.id := by
  intro device h
  cases List.mem_singleton.mp h
  rfl

def onePcContents : Contents onePcPython :=
  .of onePc.devices [] (onePc_normal onePcPython) onePc_identified keyed_nil

def onePcDisk : Disk := { settings := some onePc.publicDict.text }

theorem onePc_settled : Settled onePcPython onePcDisk onePcContents :=
  .of_saved _ _ _ rfl rfl (onePc_reads List.mem_cons_self) rfl

/-- A crash between the two documents of a pairing, and one in the recovery after it:
the store opens, and holds the PC as it was or the PC with its credential. -/
theorem onePc_opens_after_crashes :
    let disk :=
      reopen onePcPython (pairPc.run onePcPython onePcDisk (plan 12 .crashes)).2.1 [plan 3 .crashes]
    (construct onePcPython disk []).1 = .ok () ∧
      ((snapshot onePcPython (construct onePcPython disk []).2.1 []).1 = .ok (onePc, []) ∨
        (snapshot onePcPython (construct onePcPython disk []).2.1 []).1 =
          .ok (pairPc.apply (onePc, []))) := by
  intro disk
  obtain ⟨-, -, -, hok, hatomic⟩ := crash_atomicity rfl onePc_settled.files pairPc
    ⟨⟨_, List.mem_singleton_self _, rfl⟩, rfl⟩ pairPc_readable (plan 12 .crashes)
      (by decide) [plan 3 .crashes]
  exact ⟨hok, hatomic [] _ _ (by rw [← hok])⟩

end DeckyMyRig.Deck
