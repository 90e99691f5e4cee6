import DeckyMyRig.Deck.Contents
import DeckyMyRig.Deck.Store

/-!
# What the documents on disk mean

A directory holds contents if its two documents read as them, or if it has a
transaction that does: then the next recovery writes them. Recovery keeps this
through every fault, and if it returns, no transaction is left
(`recover_triple`).
-/

namespace DeckyMyRig.Deck

open Octets Texts Faults Checked
open Store hiding credentials

variable {py : Python}

def readFiles (py : Python) (disk : Disk) : Except PyError (Settings × Credentials) := do
  let credentials ← readCredentials py disk.credentials
  let settings ← readSettings py disk.settings credentials
  .ok (settings, credentials)

structure Settled (py : Python) (disk : Disk) (c : Contents py) : Prop where
  transaction : disk.transaction = none
  files : readFiles py disk = .ok c.value

structure Carries (py : Python) (disk : Disk) (settings credentials : Json) (c : Contents py) :
    Prop where
  transaction : ∃ text, disk.transaction = some text ∧
    readTransaction py text = .ok (settings, credentials)
  settingsReadable : py.Readable settings
  credentialsReadable : py.Readable credentials
  decodeCredentials : decodeCredentials credentials = .ok c.credentials
  decodeSettings : decodeSettings py settings c.credentials = .ok c.settings

def Holds (py : Python) (disk : Disk) (c : Contents py) : Prop :=
  Settled py disk c ∨ ∃ settings credentials, Carries py disk settings credentials c

-- ---------------------------------------------------------------------------
-- Reading
-- ---------------------------------------------------------------------------

theorem json_dumps (h : py.Readable document) : py.json (py.dumps document) = .ok document := by
  rw [Python.json, h]

theorem readCredentials_dumps (hr : py.Readable document)
    (hd : decodeCredentials document = .ok values) :
    readCredentials py (some (py.dumps document)) = .ok values := by
  simp only [readCredentials, json_dumps hr, ok_bind, hd]

theorem readSettings_dumps (hr : py.Readable document) (credentials : Credentials) :
    readSettings py (some (py.dumps document)) credentials = decodeSettings py document
      credentials := by
  simp only [readSettings, loadSettings, json_dumps hr]

theorem readCredentials_ok (h : readCredentials py text = .ok values) :
    ∀ e ∈ values, e.1 ≠ [] ∧ e.2.length = 32 := by
  cases text with
  | none =>
    cases h
    simp
  | some text =>
    simp only [readCredentials] at h
    split at h
    · rename_i hd
      cases h
      obtain ⟨document, -, hd⟩ := bind_eq_ok hd
      exact decodeCredentials_ok hd
    · cases h

theorem Settled.of_files {disk : Disk} (hn : disk.transaction = none)
    {settings : Settings} {credentials : Credentials}
    (h : readFiles py disk = .ok (settings, credentials)) :
    ∃ c : Contents py, c.value = (settings, credentials) ∧ Settled py disk c := by
  have hread := h
  obtain ⟨values, hv, h⟩ := bind_eq_ok h
  obtain ⟨read, hs, h⟩ := bind_eq_ok h
  cases h
  have hk := readCredentials_ok hv
  suffices hc : ∃ c : Contents py, c.value = (settings, credentials) by
    obtain ⟨c, hc⟩ := hc
    exact ⟨c, hc, hn, by rw [hread, hc]⟩
  cases htext : disk.settings with
  | none =>
    rw [htext] at hs
    cases hs
    exact ⟨.of [] credentials normal_nil identified_nil hk, rfl⟩
  | some text =>
    rw [htext] at hs
    simp only [readSettings, loadSettings] at hs
    split at hs
    · exact Contents.of_decoded hk hs
    · cases hs

theorem recover_none {disk : Disk} (h : disk.transaction = none) (fates : List Fate) :
    recoverTransaction py disk fates = (.ok (), disk, fates) := by
  obtain ⟨settings, credentials, transaction⟩ := disk
  cases h
  rfl

theorem recover_some {disk : Disk} (h : disk.transaction = some text) (fates : List Fate) :
    recoverTransaction py disk fates = Prog.catching (do
      let (settings, credentials) ← Prog.lift (readTransaction py text)
      atomicWrite py .credentials credentials
      atomicWrite py .settings settings
      removeTransaction) (fun _ => Prog.throw (.store recoveryMessage)) disk fates := by
  obtain ⟨settings, credentials, transaction⟩ := disk
  cases h
  rfl

-- ---------------------------------------------------------------------------
-- Writing
-- ---------------------------------------------------------------------------

section
variable {A : Fate → Prop} {P Q C : Disk → Prop} {E : PyError → Disk → Prop}

/-- A write takes `P` to `Q` at its `os.replace`; a fault finds one or the other. -/
theorem atomicWrite_triple (hR : ∀ d, P d → Q (d.replace (py.dumps value) file))
    (hE : A .raises → ∀ e d, P d ∨ Q d → E e d) (hC : A .crashes → ∀ d, P d ∨ Q d → C d) :
    Triple A P (atomicWrite py file value) (fun _ => Q) E C := by
  refine Triple.bind (Q := fun _ => P) ?_ fun _ => Triple.bind (Q := fun _ => P) ?_ fun _ =>
    Triple.bind (Q := fun _ => P) ?_ fun _ => Triple.bind (Q := fun _ => P) ?_ fun _ =>
    Triple.bind (Q := fun _ => Q) ?_ fun _ => Triple.steps ?_ ?_ ?_
  iterate 4
    exact Triple.step (fun _ h => h) (fun hA d h => hE hA _ d (.inl h)) fun hA d h =>
      hC hA d (.inl h)
  · exact Triple.step hR (fun hA d h => hE hA _ d (.inl h)) fun hA d h => hC hA d (.inl h)
  · intro f hf d hd
    simp only [List.mem_cons, List.not_mem_nil, or_false] at hf
    rcases hf with rfl | rfl
    · exact hd
    · exact hd
  · exact fun hA f _ d h => hE hA _ d (.inr h)
  · exact fun hA d h => hC hA d (.inr h)

theorem removeTransaction_some {disk : Disk} (h : disk.transaction = some text)
    (fates : List Fate) :
    removeTransaction disk fates = Prog.steps removeCalls disk fates := by
  obtain ⟨settings, credentials, transaction⟩ := disk
  cases h
  rfl

theorem removeTransaction_triple (hP : ∀ d, P d → ∃ text, d.transaction = some text)
    (hR : ∀ d, P d → Q d.unlink) (hE : A .raises → ∀ e d, P d ∨ Q d → E e d)
    (hC : A .crashes → ∀ d, P d ∨ Q d → C d) : Triple A P removeTransaction (fun _ => Q) E C := by
  have hsteps : Triple A P (Prog.steps removeCalls) (fun _ => Q) E C := by
    refine Triple.bind (Q := fun _ => Q) ?_ fun _ => Triple.steps ?_ ?_ ?_
    · exact Triple.step hR (fun hA d h => hE hA _ d (.inl h)) fun hA d h => hC hA d (.inl h)
    · intro f hf d hd
      simp only [List.mem_cons, List.not_mem_nil, or_false] at hf
      rcases hf with rfl | rfl
      · exact hd
      · exact hd
    · exact fun hA f _ d h => hE hA _ d (.inr h)
    · exact fun hA d h => hC hA d (.inr h)
  intro d fates hd hA
  obtain ⟨text, htext⟩ := hP d hd
  rw [removeTransaction_some htext]
  exact hsteps d fates hd hA

end

-- ---------------------------------------------------------------------------
-- Rolling a transaction forward
-- ---------------------------------------------------------------------------

namespace Carries

variable {settings credentials : Json} {c : Contents py} {disk : Disk}

theorem holds (h : Carries py disk settings credentials c) : Holds py disk c :=
  .inr ⟨settings, credentials, h⟩

theorem of_transaction (h : Carries py disk settings credentials c)
    (hd : disk'.transaction = disk.transaction) : Carries py disk' settings credentials c :=
  ⟨hd ▸ h.transaction, h.settingsReadable, h.credentialsReadable, h.decodeCredentials,
    h.decodeSettings⟩

theorem settled (h : Carries py disk settings credentials c) (hn : disk'.transaction = none)
    (hs : disk'.settings = some (py.dumps settings))
    (hc : disk'.credentials = some (py.dumps credentials)) : Settled py disk' c := by
  refine ⟨hn, ?_⟩
  rw [readFiles, hs, hc, readCredentials_dumps h.credentialsReadable h.decodeCredentials]
  simp only [ok_bind, readSettings_dumps h.settingsReadable, h.decodeSettings]
  rfl

section
variable {A : Fate → Prop} {E : PyError → Disk → Prop} {C : Disk → Prop}
  (hE : A .raises → ∀ e d, Holds py d c → E e d) (hC : A .crashes → ∀ d, Holds py d c → C d)
include hE hC

theorem writeCredentials :
    Triple A (Carries py · settings credentials c) (atomicWrite py .credentials credentials)
      (fun _ d => Carries py d settings credentials c ∧ d.credentials = some (py.dumps credentials))
      E C :=
  atomicWrite_triple (fun _ h => ⟨h.of_transaction rfl, rfl⟩)
    (fun hA e d h => hE hA e d (h.elim (·.holds) (·.1.holds)))
    fun hA d h => hC hA d (h.elim (·.holds) (·.1.holds))

theorem writeSettings :
    Triple A (fun d => Carries py d settings credentials c ∧
      d.credentials = some (py.dumps credentials))
      (atomicWrite py .settings settings)
      (fun _ d => (Carries py d settings credentials c ∧
        d.credentials = some (py.dumps credentials)) ∧ d.settings = some (py.dumps settings)) E C :=
  atomicWrite_triple (fun _ h => ⟨⟨h.1.of_transaction rfl, h.2⟩, rfl⟩)
    (fun hA e d h => hE hA e d (h.elim (·.1.holds) (·.1.1.holds)))
    fun hA d h => hC hA d (h.elim (·.1.holds) (·.1.1.holds))

theorem remove :
    Triple A (fun d => (Carries py d settings credentials c ∧
        d.credentials = some (py.dumps credentials)) ∧ d.settings = some (py.dumps settings))
      removeTransaction (fun _ d => Settled py d c) E C :=
  removeTransaction_triple (fun _ h => h.1.1.transaction.imp fun _ ht => ht.1)
    (fun _ h => h.1.1.settled rfl h.2 h.1.2)
    (fun hA e d h => hE hA e d (h.elim (·.1.1.holds) .inl))
    fun hA d h => hC hA d (h.elim (·.1.1.holds) .inl)

end

end Carries

/-- Recovery returns only when no transaction is left, and a fault that ends it
leaves what the directory holds. -/
theorem recover_triple {A : Fate → Prop} (c : Contents py) :
    Triple A (Holds py · c) (recoverTransaction py) (fun _ d => Settled py d c)
      (fun e d => A .raises ∧ e = .store recoveryMessage ∧ Holds py d c)
      (fun d => A .crashes ∧ Holds py d c) := by
  refine Triple.at_store fun d hd => ?_
  rcases hd with hd | ⟨settings, credentials, hd⟩
  · refine Triple.of_eval (a := ()) ?_ ?_
    · rintro _ fates rfl
      exact recover_none hd.transaction fates
    · rintro _ rfl
      exact hd
  · obtain ⟨text, htext, hread⟩ := hd.transaction
    refine Triple.bind Triple.read ?_
    intro disk
    refine Triple.at_store ?_
    rintro _ ⟨rfl, rfl⟩
    simp only [htext, hread]
    refine Triple.catching (E := fun _ d => A .raises ∧ Holds py d c) ?_ fun e =>
      Triple.throw fun d h => ⟨h.1, rfl, h.2⟩
    refine Triple.bind (Q := fun docs d => docs = (settings, credentials) ∧
      Carries py d settings credentials c) (Triple.pure ?_) ?_
    · rintro _ rfl
      exact ⟨rfl, hd⟩
    · intro docs
      refine Triple.at_store ?_
      rintro d ⟨rfl, hd⟩
      have hE : A .raises → ∀ (_ : PyError) d, Holds py d c → A .raises ∧ Holds py d c :=
        fun hA _ _ h => ⟨hA, h⟩
      have hC : A .crashes → ∀ d, Holds py d c → A .crashes ∧ Holds py d c := fun hA _ h => ⟨hA, h⟩
      refine Triple.mono (P := (Carries py · settings credentials c)) (Triple.bind
        (Carries.writeCredentials hE hC) fun _ => Triple.bind
          (Carries.writeSettings hE hC) fun _ => Carries.remove hE hC)
        ?_ (fun _ _ h => h) (fun _ _ h => h) fun _ h => h
      rintro _ rfl
      exact hd

-- ---------------------------------------------------------------------------
-- The methods that read
-- ---------------------------------------------------------------------------

theorem readFiles_iff {disk : Disk} {c : Contents py} : readFiles py disk = .ok c.value ↔
    readCredentials py disk.credentials = .ok c.credentials ∧
      readSettings py disk.settings c.credentials = .ok c.settings := by
  constructor
  · intro h
    obtain ⟨values, hv, hread⟩ := bind_eq_ok h
    obtain ⟨settings, hs, hread⟩ := bind_eq_ok hread
    cases hread
    exact ⟨hv, hs⟩
  · rintro ⟨hv, hs⟩
    simp only [readFiles, hv, hs, ok_bind]
    rfl

theorem Settled.read {disk : Disk} {c : Contents py} (h : Settled py disk c) :
    readCredentials py disk.credentials = .ok c.credentials ∧
      readSettings py disk.settings c.credentials = .ok c.settings :=
  readFiles_iff.mp h.files

theorem Settled.of_saved {disk : Disk} {devices : List Device} {credentials : Credentials}
    (hn : ∀ device ∈ devices, device.Normal py) (hid) (hk) (ht : disk.transaction = none)
    (hs : disk.settings = some (py.dumps (Settings.publicDict { devices })))
    (hr : py.Readable (Settings.publicDict { devices }))
    (hc : readCredentials py disk.credentials = .ok credentials) :
    Settled py disk (.of devices credentials hn hid hk) := by
  refine ⟨ht, readFiles_iff.mpr ⟨hc, ?_⟩⟩
  rw [hs, readSettings_dumps hr]
  exact decodeSettings_of hn hid hk

theorem credentials_settled {disk : Disk} {c : Contents py} (h : Settled py disk c)
    (fates : List Fate) : Store.credentials py disk fates = (.ok c.credentials, disk, fates) := by
  show Prog.bind (recoverTransaction py) _ disk fates = _
  simp only [Prog.bind, recover_none h.transaction]
  show Prog.lift (readCredentials py disk.credentials) disk fates = _
  rw [h.read.1]
  rfl

theorem snapshot_settled {disk : Disk} {c : Contents py} (h : Settled py disk c)
    (fates : List Fate) :
    snapshot py disk fates = (.ok c.value, disk, fates) := by
  show Prog.bind (recoverTransaction py)
    (fun _ => Prog.bind (Store.credentials py) _) disk fates = _
  simp only [Prog.bind, recover_none h.transaction, credentials_settled h]
  show Prog.bind (Prog.lift (readSettings py disk.settings c.credentials)) _ disk fates = _
  rw [h.read.2]
  rfl

theorem load_none {disk : Disk} (h : disk.transaction = none) (hs : disk.settings = none)
    (fates : List Fate) : load py disk fates = (.ok {}, disk, fates) := by
  obtain ⟨settings, credentials, transaction⟩ := disk
  cases h
  cases hs
  rfl

theorem load_some {disk : Disk} (h : disk.transaction = none) (hs : disk.settings = some text)
    (fates : List Fate) : load py disk fates =
      Prog.bind (Store.credentials py) (fun values => Prog.lift (loadSettings py text values))
        disk fates := by
  obtain ⟨settings, credentials, transaction⟩ := disk
  cases h
  cases hs
  rfl

theorem load_settled {disk : Disk} {c : Contents py} (h : Settled py disk c) (fates : List Fate) :
    load py disk fates = (.ok c.settings, disk, fates) := by
  have hs := h.read.2
  cases htext : disk.settings with
  | none =>
    rw [htext] at hs
    have hs : {} = c.settings := Except.ok.inj hs
    rw [load_none h.transaction htext, hs]
  | some text =>
    rw [htext] at hs
    rw [load_some h.transaction htext]
    simp only [Prog.bind, credentials_settled h]
    show Prog.lift (loadSettings py text c.credentials) disk fates = _
    have hs : loadSettings py text c.credentials = .ok c.settings := hs
    rw [hs]
    rfl

theorem recovered_triple {f : Unit → Action α} {a : α} {c : Contents py}
    (h : ∀ d fates, Settled py d c → (recoverTransaction py >>= f) d fates = (.ok a, d, fates)) :
    Triple A (Holds py · c) (recoverTransaction py >>= f) (fun v d => v = a ∧ Settled py d c)
      (fun e d => A .raises ∧ e = .store recoveryMessage ∧ Holds py d c)
      (fun d => A .crashes ∧ Holds py d c) := by
  refine Triple.bind (recover_triple c) fun _ =>
    Triple.of_eval (a := a) (fun d fates hd => ?_) fun d hd => ⟨rfl, hd⟩
  have hrun : Prog.bind (recoverTransaction py) f d fates = (.ok a, d, fates) := h d fates hd
  simpa only [Prog.bind, recover_none hd.transaction] using hrun

theorem snapshot_triple {A : Fate → Prop} (c : Contents py) :
    Triple A (Holds py · c) (snapshot py) (fun v d => v = c.value ∧ Settled py d c)
      (fun e d => A .raises ∧ e = .store recoveryMessage ∧ Holds py d c)
      (fun d => A .crashes ∧ Holds py d c) :=
  recovered_triple fun _ fates h => snapshot_settled h fates

theorem snapshot_holds {disk : Disk} {c : Contents py} (h : Holds py disk c) :
    (snapshot py disk []).1 = .ok c.value := by
  obtain ⟨v, d, hrun, rfl, -⟩ := (snapshot_triple c).returns h (fun _ _ he => he.1) fun _ hd => hd.1
  rw [hrun]

-- ---------------------------------------------------------------------------
-- Commits
-- ---------------------------------------------------------------------------

structure Readable (py : Python) (settings : Settings) (credentials : Credentials) : Prop where
  transaction : py.Readable (transactionDocument settings credentials)
  settings : py.Readable settings.publicDict
  credentials : py.Readable credentials.document

theorem readTransaction_document {settings : Settings} {credentials : Credentials}
    (hr : py.Readable (transactionDocument settings credentials)) :
    readTransaction py (py.dumps (transactionDocument settings credentials)) = (do
      let decodedCredentials ← decodeCredentials credentials.document
      let _ ← decodeSettings py settings.publicDict decodedCredentials
      .ok (settings.publicDict, credentials.document)) := by
  rw [readTransaction, json_dumps hr, ok_bind, transactionDocument]
  have hs : subscript [("settings".toList, settings.publicDict),
      ("credentials".toList, credentials.document)] "settings".toList =
        .ok settings.publicDict := by
    rw [subscript, Dict.get?_cons_self]
  have hc : subscript [("settings".toList, settings.publicDict),
      ("credentials".toList, credentials.document)] "credentials".toList =
        .ok credentials.document := by
    rw [subscript, Dict.get?_cons_ne (by decide +kernel), Dict.get?_cons_self]
  simp only [hs, hc, ok_bind]
  rfl

section
variable {devices : List Device} {credentials : Credentials}
  (hn : ∀ device ∈ devices, device.Normal py)
  (hid : ∀ device ∈ devices, storedIdentifier (.str device.id) = .ok device.id)
  (hk : ∀ e ∈ credentials, e.1 ≠ [] ∧ e.2.length = 32)
  (hr : Readable py { devices } credentials)
include hn hid hk hr

theorem readTransaction_written :
    readTransaction py (py.dumps (transactionDocument { devices } credentials)) =
      .ok (Settings.publicDict { devices }, credentials.document) := by
  rw [readTransaction_document hr.transaction, decodeCredentials_document hk, ok_bind,
    decodeSettings_of hn hid hk, ok_bind]

theorem carries_written (disk : Disk) :
    Carries py (disk.replace (py.dumps (transactionDocument { devices } credentials)) .transaction)
      (Settings.publicDict { devices }) credentials.document (.of devices credentials hn hid hk) :=
  ⟨⟨_, rfl, readTransaction_written hn hid hk hr⟩, hr.settings, hr.credentials,
    decodeCredentials_document hk, decodeSettings_of hn hid hk⟩

end

end DeckyMyRig.Deck
