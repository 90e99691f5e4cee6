import DeckyMyRig.Deck.ErrorAtomicity
import DeckyMyRig.Lib.Runs

/-!
# What the store represents

From an empty directory, the store's calls lead to contents whose devices have
distinct identifiers and whose credentials belong to devices, whichever of their
file-system calls raise and wherever they are cut short. One case is left out: a
`delete` whose write of the settings fails after it has replaced them. A call
that is about one device leaves the others alone.
-/

namespace DeckyMyRig.Deck

open Octets Texts Faults Checked Store

variable {py : Python}

-- ---------------------------------------------------------------------------
-- Reading the two documents apart
-- ---------------------------------------------------------------------------

/-- The two documents read as these devices, up to their flags, and credentials. -/
structure Reads (py : Python) (disk : Disk) (devices : List Device) (values : Credentials) :
    Prop where
  credentials : readCredentials py disk.credentials = .ok values
  settings : ∀ v, readSettings py disk.settings v = .ok (Settings.flagged { devices } v)

theorem Settings.flagged_flagged (settings : Settings) (v v' : Credentials) :
    (settings.flagged v).flagged v' = settings.flagged v' := by
  simp [Settings.flagged]

theorem readSettings_flagged {c : Contents py}
    (h : readSettings py text c.credentials = .ok c.settings)
    (v : Credentials) : readSettings py text v = .ok (c.settings.flagged v) := by
  cases text with
  | none =>
    have hs : {} = c.settings := Except.ok.inj h
    rw [← hs]
    rfl
  | some text =>
    simp only [readSettings, loadSettings] at h ⊢
    cases hjson : py.json text with
    | error e =>
      rw [hjson] at h
      cases h
    | ok raw =>
      simp only [hjson] at h ⊢
      cases raw with
      | dict items =>
        simp only [decodeSettings] at h ⊢
        split at h
        · rename_i hversion
          rw [if_pos hversion]
          cases hdevices : decodeDevices py ((Dict.get? items "devices".toList).getD
            (.list [])) with
          | error e =>
            rw [hdevices] at h
            cases h
          | ok devices =>
            simp only [hdevices, Except.ok.injEq] at h ⊢
            rw [← h, Settings.flagged_flagged]
        · cases h
      | _ => cases h

theorem Settled.reads {disk : Disk} {c : Contents py} (h : Settled py disk c) :
    Reads py disk c.devices c.credentials :=
  ⟨h.read.1, readSettings_flagged h.read.2⟩

theorem Reads.settled {disk : Disk} (h : Reads py disk devices values) (hn) (hid) (hk)
    (ht : disk.transaction = none) : Settled py disk (.of devices values hn hid hk) :=
  ⟨ht, readFiles_iff.mpr ⟨h.credentials, h.settings values⟩⟩

theorem reads_written {devices : List Device} {values : Credentials} {disk : Disk}
    (hn : ∀ device ∈ devices, device.Normal py)
    (hid : ∀ device ∈ devices, storedIdentifier (.str device.id) = .ok device.id)
    (hr : py.Readable (Settings.publicDict { devices }))
    (hs : disk.settings = some (py.dumps (Settings.publicDict { devices })))
    (hc : readCredentials py disk.credentials = .ok values) : Reads py disk devices values := by
  refine ⟨hc, fun v => ?_⟩
  rw [hs, readSettings_dumps hr, decodeSettings_publicDict, decodeDevices_publicDict hn hid]
  exact congrArg Except.ok (Settings.flagged_unpaired devices v)

-- ---------------------------------------------------------------------------
-- Commits whose steps raise
-- ---------------------------------------------------------------------------

theorem atomicWrite_keeps {I : Disk → Prop} (h : ∀ d, I d → I (d.replace (py.dumps value) file)) :
    Triple (fun _ => True) I (atomicWrite py file value) (fun _ => I) (fun _ => I) I :=
  atomicWrite_triple h (fun _ _ _ hd => hd.elim id id) fun _ _ hd => hd.elim id id

theorem removeTransaction_none {disk : Disk} (h : disk.transaction = none) (fates : List Fate) :
    removeTransaction disk fates = (.ok (), disk, fates) := by
  obtain ⟨settings, credentials, transaction⟩ := disk
  cases h
  rfl

theorem removeTransaction_keeps {I : Disk → Prop} (h : ∀ d, I d → I d.unlink) :
    Triple (fun _ => True) I removeTransaction (fun _ => I) (fun _ => I) I := by
  refine Triple.at_store fun d hd => ?_
  cases htext : d.transaction with
  | none =>
    refine Triple.of_eval (a := ()) ?_ ?_
    · rintro _ fates rfl
      exact removeTransaction_none htext fates
    · rintro _ rfl
      exact hd
  | some text =>
    refine Triple.mono (P := fun d => I d ∧ d.transaction = some text)
      (removeTransaction_triple (Q := I) (fun d hd => ⟨text, hd.2⟩) (fun d hd => h d hd.1)
        (fun _ _ d hd => hd.elim And.left id) fun _ d hd => hd.elim And.left id)
      ?_ (fun _ _ hd => hd) (fun _ _ hd => hd) fun _ hd => hd
    rintro _ rfl
    exact ⟨hd, htext⟩

theorem onError_keeps {I : Disk → Prop} {body handler : Action Unit}
    (hb : Triple (fun _ => True) I body (fun _ => I) (fun _ => I) I)
    (hh : Triple (fun _ => True) I handler (fun _ => I) (fun _ => I) I) :
    Triple (fun _ => True) I (onError body handler) (fun _ => I) (fun _ => I) I :=
  Triple.catching hb fun _ => Triple.bind hh fun _ => Triple.throw fun _ hd => hd

theorem onError_ok {body handler : Action Unit}
    (h : onError body handler d fates = (.ok (), d', rest)) :
    body d fates = (.ok (), d', rest) := by
  refine Prog.catching_ok (fun e d1 f1 hthrow => ?_) h
  obtain ⟨_, d2, f2, -, hthrow⟩ := Prog.bind_ok hthrow
  cases hthrow

theorem rollback_keeps {I : Disk → Prop} (credentialsWritten settingsWritten : Bool)
    (hc : credentialsWritten = true → ∀ d, I d →
      I (d.replace (py.dumps previousCredentials.document) .credentials))
    (hs : settingsWritten = true → ∀ d, I d →
      I (d.replace (py.dumps previousSettings.publicDict) .settings))
    (hu : ∀ d, I d → I d.unlink) :
    Triple (fun _ => True) I
      (rollback py credentialsWritten settingsWritten previousSettings previousCredentials)
      (fun _ => I) (fun _ => I) I := by
  have hdone : Triple (fun _ => True) I (pure true : Action Bool) (fun _ => I) (fun _ => I) I :=
    Triple.pure fun _ hd => hd
  refine Triple.bind (Q := fun _ => I) (Triple.catching (E := fun _ => I) ?_ fun _ =>
    Triple.pure fun _ hd => hd) fun succeeded => ?_
  · have htail : Triple (fun _ => True) I (if settingsWritten = true then
        atomicWrite py .settings previousSettings.publicDict >>= fun _ => pure true
        else pure true : Action Bool) (fun _ => I) (fun _ => I) I := by
      split
      · rename_i h
        exact Triple.bind (atomicWrite_keeps (hs h)) fun _ => hdone
      · exact hdone
    dsimp only
    split
    · rename_i h
      exact Triple.bind (atomicWrite_keeps (hc h)) fun _ => htail
    · exact htail
  · split
    · exact removeTransaction_keeps hu
    · exact Triple.pure fun _ hd => hd

/-- What no write of a commit and of its rollback breaks, no fault breaks. -/
theorem commit_keeps {I : Disk → Prop} (settings previousSettings : Settings)
    (values previousValues : Credentials)
    (ht : ∀ d, I d → I (d.replace (py.dumps (transactionDocument settings values)) .transaction))
    (hc : ∀ d, I d → I (d.replace (py.dumps values.document) .credentials))
    (hs : ∀ d, I d → I (d.replace (py.dumps settings.publicDict) .settings))
    (hp : ∀ d, I d → I (d.replace (py.dumps previousValues.document) .credentials))
    (hu : ∀ d, I d → I d.unlink) :
    Triple (fun _ => True) I (Store.commit py settings values previousSettings previousValues)
      (fun _ => I) (fun _ => I) I := by
  refine Triple.bind (atomicWrite_keeps ht) fun _ => Triple.bind (Q := fun _ => I) ?_ fun _ =>
    Triple.bind (Q := fun _ => I) ?_ fun _ => removeTransaction_keeps hu
  · exact onError_keeps (atomicWrite_keeps hc) (rollback_keeps false false nofun nofun hu)
  · exact onError_keeps (atomicWrite_keeps hs) (rollback_keeps true false (fun _ => hp) nofun hu)

section
variable (py) (disk : Disk) (settings : Settings) (values previousValues : Credentials)

/-- Everything that a commit, its rollback and a fault between them can leave. -/
structure Pieces (d : Disk) : Prop where
  transaction : d.transaction = none ∨
    d.transaction = some (py.dumps (transactionDocument settings values))
  settings : d.settings = disk.settings ∨ d.settings = some (py.dumps settings.publicDict)
  credentials : d.credentials = disk.credentials ∨ d.credentials = some (py.dumps values.document) ∨
    d.credentials = some (py.dumps previousValues.document)

theorem commit_pieces (previousSettings : Settings) :
    Triple (fun _ => True) (Pieces py disk settings values previousValues)
      (Store.commit py settings values previousSettings previousValues)
      (fun _ => Pieces py disk settings values previousValues)
      (fun _ => Pieces py disk settings values previousValues)
      (Pieces py disk settings values previousValues) := by
  apply commit_keeps
  · exact fun d h => ⟨.inr rfl, h.settings, h.credentials⟩
  · exact fun d h => ⟨h.transaction, h.settings, .inr (.inl rfl)⟩
  · exact fun d h => ⟨h.transaction, .inr rfl, h.credentials⟩
  · exact fun d h => ⟨h.transaction, h.settings, .inr (.inr rfl)⟩
  · exact fun d h => ⟨.inl rfl, h.settings, h.credentials⟩

theorem atomicWrite_ok {value : Json} (h : atomicWrite py file value d fates = (.ok (), d', rest)) :
    d' = d.replace (py.dumps value) file := by
  have ht : Triple (fun _ => True) (· = d) (atomicWrite py file value)
      (fun _ d' => d' = d.replace (py.dumps value) file) (fun _ _ => True) (fun _ => True) :=
    atomicWrite_triple (by rintro _ rfl; rfl) (fun _ _ _ _ => trivial) fun _ _ _ => trivial
  have ht := ht d fates rfl fun _ _ => trivial
  rw [h] at ht
  exact ht.1

theorem atomicWrite_leaves (value : Json) (file : File) (d : Disk) (fates : List Fate) :
    (atomicWrite py file value d fates).2.1 = d ∨
      (atomicWrite py file value d fates).2.1 = d.replace (py.dumps value) file := by
  have ht : Triple (fun _ => True) (fun d' => d' = d ∨ d' = d.replace (py.dumps value) file)
      (atomicWrite py file value) (fun _ d' => d' = d ∨ d' = d.replace (py.dumps value) file)
      (fun _ d' => d' = d ∨ d' = d.replace (py.dumps value) file)
      (fun d' => d' = d ∨ d' = d.replace (py.dumps value) file) := by
    refine atomicWrite_keeps ?_
    rintro _ (rfl | rfl)
    · exact .inr rfl
    · cases file <;> exact .inr rfl
  exact ht.leaves (.inl rfl) (fun _ _ => trivial) (fun _ _ h => h) (fun _ _ h => h) fun _ h => h

theorem removeTransaction_ok (h : removeTransaction d fates = (.ok (), d', rest)) :
    d' = d.unlink := by
  cases htext : d.transaction with
  | none =>
    rw [removeTransaction_none htext] at h
    cases h
    cases d
    cases htext
    rfl
  | some text =>
    have ht : Triple (fun _ => True) (· = d) removeTransaction
        (fun _ d' => d' = d.unlink) (fun _ _ => True)
          (fun _ => True) :=
      removeTransaction_triple (by rintro _ rfl; exact ⟨text, htext⟩) (by rintro _ rfl; rfl)
        (fun _ _ _ _ => trivial) fun _ _ _ => trivial
    have ht := ht d fates rfl fun _ _ => trivial
    rw [h] at ht
    exact ht.1

theorem commit_ok (h : Store.commit py settings values previousSettings previousValues disk fates =
      (.ok (), disk', rest)) :
    disk' = ⟨some (py.dumps settings.publicDict), some (py.dumps values.document), none⟩ := by
  obtain ⟨_, d1, f1, h1, h⟩ := Prog.bind_ok h
  obtain ⟨_, d2, f2, h2, h⟩ := Prog.bind_ok h
  obtain ⟨_, d3, f3, h3, h⟩ := Prog.bind_ok h
  rw [removeTransaction_ok h, atomicWrite_ok py (onError_ok h3), atomicWrite_ok py (onError_ok h2),
    atomicWrite_ok py h1]
  rfl

/-- The settings are the old ones, or both documents are the new ones. -/
def Consistent (d : Disk) : Prop :=
  d.settings = disk.settings ∨
    d.settings = some (py.dumps settings.publicDict) ∧
    d.credentials = some (py.dumps values.document)

/-- If the write of the settings fails only without replacing them, no commit
leaves new settings beside old credentials. -/
theorem commit_consistent (previousSettings : Settings) (fates : List Fate)
    (hclean : ∀ d1 f1 d2 f2 e d3 f3,
      atomicWrite py .transaction (transactionDocument settings values) disk fates =
        (.ok (), d1, f1) →
      atomicWrite py .credentials values.document d1 f1 = (.ok (), d2, f2) →
      atomicWrite py .settings settings.publicDict d2 f2 = (.raised e, d3, f3) →
      d3.settings = d2.settings) :
    let d := (Store.commit py settings values previousSettings previousValues disk fates).2.1
    d.transaction = some (py.dumps (transactionDocument settings values)) ∨
      Consistent py disk settings values d := by
  intro d
  have hrollback : ∀ written, Triple (fun _ => True) (·.settings = disk.settings)
      (rollback py written false previousSettings previousValues)
      (fun _ d => d.settings = disk.settings) (fun _ d => d.settings = disk.settings)
      (·.settings = disk.settings) :=
    fun _ => rollback_keeps _ false (fun _ _ h => h) nofun fun _ h => h
  refine Prog.bind_leaves (R := fun d =>
    d.transaction = some _ ∨ Consistent py disk settings values d)
    (fun _ => ?_) fun _ d1 f1 h1 => ?_
  · rcases atomicWrite_leaves py (transactionDocument settings values) .transaction disk
      fates with h | h
    · exact .inr (.inl (by rw [h]))
    · exact .inr (.inl (by rw [h]; rfl))
  have hd1 := atomicWrite_ok py h1
  refine Prog.bind_leaves (R := fun d =>
    d.transaction = some _ ∨ Consistent py disk settings values d)
    (fun _ => ?_) fun _ d2 f2 h2 => ?_
  · refine .inr (.inl ?_)
    exact (onError_keeps (atomicWrite_keeps fun _ h => h) (hrollback false)).leaves
      (by rw [hd1]; rfl)
      (fun _ _ => trivial) (fun _ _ h => h) (fun _ _ h => h) fun _ h => h
  have h2 := onError_ok h2
  have hd2 := atomicWrite_ok py h2
  refine Prog.bind_leaves (R := fun d =>
    d.transaction = some _ ∨ Consistent py disk settings values d)
    (fun _ => ?_) fun _ d3 f3 h3 => ?_
  · refine Prog.catching_leaves
      (R := fun d => d.transaction = some _ ∨ Consistent py disk settings values d)
      (fun _ => .inl ?_) fun e d3 f3 h3 => .inr (.inl ?_)
    · rcases atomicWrite_leaves py settings.publicDict .settings d2 f2 with h | h
      · rw [h, hd2, hd1]
        rfl
      · rw [h, hd2, hd1]
        rfl
    · have hd3 : d3.settings = disk.settings := by
        rw [hclean d1 f1 d2 f2 e d3 f3 h1 h2 h3, hd2, hd1]
        rfl
      have hkeeps := Triple.bind (hrollback true) fun _ =>
        Triple.throw (e := e) (Q := fun (_ : Unit) (d : Disk) => d.settings = disk.settings)
          fun _ h => h
      exact hkeeps.leaves hd3 (fun _ _ => trivial) (fun _ _ h => h) (fun _ _ h => h) fun _ h => h
  · have hd3 := atomicWrite_ok py (onError_ok h3)
    refine .inr (.inr ?_)
    have hkeeps :=
      removeTransaction_keeps (I := fun d => d.settings = some (py.dumps settings.publicDict) ∧
      d.credentials = some (py.dumps values.document)) fun _ h => h
    exact hkeeps.leaves (by rw [hd3, hd2]; exact ⟨rfl, rfl⟩) (fun _ _ => trivial) (fun _ _ h => h)
      (fun _ _ h => h) fun _ h => h

end

-- ---------------------------------------------------------------------------
-- The invariant
-- ---------------------------------------------------------------------------

/-- Identifiers are distinct, and every credential belongs to a device. -/
structure Sound (devices : List Device) (values : Credentials) : Prop where
  distinct : (devices.map (·.id)).Nodup
  owned : ∀ e ∈ values, e.1 ∈ devices.map (·.id)

structure Apart (id : Text) (devices devices' : List Device) (values values' : Credentials) :
    Prop where
  devices : (Settings.flagged { devices := devices' } values').devices.filter (·.id ≠ id) =
    (Settings.flagged { devices } values).devices.filter (·.id ≠ id)
  credentials : values'.remove id = values.remove id

theorem Sound.flagged (h : Sound devices values) (v : Credentials) :
    Sound (Settings.flagged { devices } v).devices values := by
  have hids : (Settings.flagged { devices } v).devices.map (·.id) = devices.map (·.id) := by
    simp [Settings.flagged, Function.comp_def]
  exact ⟨hids ▸ h.distinct, hids ▸ h.owned⟩

theorem filter_flagged (devices : List Device) (v : Credentials) (id : Text) :
    (Settings.flagged { devices } v).devices.filter (·.id ≠ id) =
      (devices.filter (·.id ≠ id)).map fun d => { d with paired := v.has d.id } := by
  simp [Settings.flagged, List.filter_map, Function.comp_def]

theorem Apart.of_filter {devices devices' : List Device} {values values' : Credentials} {id : Text}
    (hd : devices'.filter (·.id ≠ id) = devices.filter (·.id ≠ id))
    (hv : values'.remove id = values.remove id) : Apart id devices devices' values values' := by
  refine ⟨?_, hv⟩
  rw [filter_flagged, filter_flagged, hd]
  refine List.map_congr_left fun d h => ?_
  have hne : d.id ≠ id := by simpa using (List.mem_filter.mp h).2
  rw [← Dict.has_remove_of_ne hne, hv, Dict.has_remove_of_ne hne]

-- ---------------------------------------------------------------------------
-- What each call leaves
-- ---------------------------------------------------------------------------

/-- The directory holds these devices, up to their flags, and credentials. -/
def HoldsAs (py : Python) (disk : Disk) (devices : List Device) (values : Credentials) : Prop :=
  ∃ c : Contents py, Holds py disk c ∧ c.value = (Settings.flagged { devices } values, values)

theorem Holds.as {disk : Disk} {c : Contents py} (h : Holds py disk c) :
    HoldsAs py disk c.devices c.credentials :=
  ⟨c, h, by rw [c.flagged]; rfl⟩

theorem load_triple {A : Fate → Prop} (c : Contents py) :
    Triple A (Holds py · c) (load py) (fun s d => s = c.settings ∧ Settled py d c)
      (fun e d => A .raises ∧ e = .store recoveryMessage ∧ Holds py d c)
      (fun d => A .crashes ∧ Holds py d c) :=
  recovered_triple fun _ fates h => load_settled h fates

theorem reading_holds {method : Action α} {a : α} {c : Contents py} {disk : Disk}
    (h : Triple (fun _ => True) (Holds py · c) method (fun v d => v = a ∧ Settled py d c)
      (fun e d => True ∧ e = .store recoveryMessage ∧ Holds py d c) (fun d => True ∧ Holds py d c))
    (hd : Holds py disk c) (fates : List Fate) : Holds py (method disk fates).2.1 c :=
  h.leaves hd (fun _ _ => trivial) (fun _ _ hq => .inl hq.2) (fun _ _ he => he.2.2) fun _ hc => hc.2

theorem reading_ok {method : Action α} {a v : α} {c : Contents py} {disk : Disk}
    (h : Triple (fun _ => True) (Holds py · c) method (fun v d => v = a ∧ Settled py d c)
      (fun e d => True ∧ e = .store recoveryMessage ∧ Holds py d c) (fun d => True ∧ Holds py d c))
    (hd : Holds py disk c) (hrun : method disk fates = (.ok v, d', rest)) :
    v = a ∧ Settled py d' c := by
  have ht := h disk fates hd fun _ _ => trivial
  rw [hrun] at ht
  exact ht.1

theorem upsert_store (py : Python) (values : Dict Text Json) (deviceId : Option Text) (uuid : Text)
    (disk : Disk) (fates : List Fate) :
    ((Call.upsert values deviceId uuid).run py disk fates).2.1 =
      (upsert py values deviceId uuid disk fates).2.1 :=
  Prog.map_store ..

theorem upsert_leaves {c : Contents py} {disk : Disk} (hd : Holds py disk c)
    (values : Dict Text Json)
    (deviceId : Option Text) (uuid : Text) (hj : (Call.upsert values deviceId uuid).Readable c)
    (hid : storedIdentifier (.str (identifierOr deviceId uuid)) = .ok (identifierOr deviceId uuid))
    (fates : List Fate) :
    ∃ devices, HoldsAs py ((Call.upsert values deviceId uuid).run py disk fates).2.1 devices
      c.credentials ∧
      (devices = c.devices ∨ ∃ device : Device, device.id = identifierOr deviceId uuid ∧
        devices = (putDevice c.devices device).2) := by
  rw [upsert_store]
  refine Prog.bind_leaves (R := fun d => ∃ devices, HoldsAs py d devices c.credentials ∧
    (devices = c.devices ∨ ∃ device : Device, device.id = identifierOr deviceId uuid ∧
      devices = (putDevice c.devices device).2))
    (fun _ => ⟨_, (reading_holds (load_triple c) hd fates).as, .inl rfl⟩)
      fun settings d0 f0 h0 => ?_
  obtain ⟨rfl, hsettled⟩ := reading_ok (load_triple c) hd h0
  cases hnew : newDevice py values (identifierOr deviceId uuid) with
  | error e => exact ⟨_, Holds.as (.inl hsettled), .inl rfl⟩
  | ok device =>
    obtain ⟨hnormal, hdevice⟩ := newDevice_ok hnew
    rw [← hdevice] at hid
    have hput : ∀ d : Disk, d.transaction = none → d.credentials = d0.credentials →
        d.settings = some (py.dumps
          (Settings.publicDict { devices := (putDevice c.devices device).2 })) →
        HoldsAs py d (putDevice c.devices device).2 c.credentials := by
      intro d ht hc hs
      have hn := putDevice_normal hnormal c.normal
      have hidentified := putDevice_identified hid c.identified
      have hreads := reads_written hn hidentified (hj device hnew) hs (hc ▸ hsettled.read.1)
      exact ⟨_, .inl (hreads.settled hn hidentified c.keyed ht), rfl⟩
    have hstore := Prog.map_store (save py { devices := (putDevice c.devices device).2 })
      (fun _ => (putDevice c.devices device).1) d0 f0
    show ∃ devices, HoldsAs py ((save py { devices := (putDevice c.devices device).2 } >>= fun _ =>
      Prog.pure (putDevice c.devices device).1) d0 f0).2.1 devices c.credentials ∧ _
    rw [hstore]
    rcases atomicWrite_leaves py (Settings.publicDict { devices := (putDevice c.devices device).2 })
      .settings d0 f0 with h | h
    · exact ⟨c.devices, by rw [save, h]; exact Holds.as (.inl hsettled), .inl rfl⟩
    · exact ⟨_, by rw [save, h]; exact hput _ hsettled.transaction rfl rfl,
        .inr ⟨device, hdevice, rfl⟩⟩

section
variable {c : Contents py} {disk : Disk} (hd : Settled py disk c) {operation : Commit}
  (hc : operation.Allowed c.settings) (hj : (Call.commit operation).Readable c)
include hc hj

theorem holdsAs_pending (ht : d.transaction = some (py.dumps (transactionDocument
      (operation.settings c.settings) (operation.credentials c.credentials)))) :
    HoldsAs py d (operation.settings c.settings).devices (operation.credentials c.credentials) := by
  obtain ⟨hr, -⟩ := hj
  rw [Commit.settings_version] at hr ht
  have hcarries : Carries py d _ _ _ := (carries_written (operation.settings_normal c)
    (operation.settings_identified c) (Commit.credentials_keyed hc) hr d).of_transaction ht
  exact ⟨_, hcarries.holds, rfl⟩

include hd

theorem readCredentials_pieces (h : Pieces py disk (operation.settings c.settings)
      (operation.credentials c.credentials) c.credentials d) :
    ∃ values, readCredentials py d.credentials = .ok values ∧
      (∀ e ∈ values, e.1 ≠ [] ∧ e.2.length = 32) ∧
      (values = c.credentials ∨ values = operation.credentials c.credentials) := by
  obtain ⟨hr, hp⟩ := hj
  rcases h.credentials with h | h | h
  · exact ⟨_, h ▸ hd.read.1, c.keyed, .inl rfl⟩
  · have hk := Commit.credentials_keyed hc
    exact ⟨_, h ▸ readCredentials_dumps hr.credentials
      (decodeCredentials_document hk), hk, .inr rfl⟩
  · exact ⟨_, h ▸ readCredentials_dumps hp (decodeCredentials_document c.keyed), c.keyed, .inl rfl⟩

theorem holdsAs_kept (h : Pieces py disk (operation.settings c.settings)
      (operation.credentials c.credentials) c.credentials d)
    (ht : d.transaction = none) (hs : d.settings = disk.settings) :
    ∃ values, HoldsAs py d c.devices values ∧
      (values = c.credentials ∨ values = operation.credentials c.credentials) := by
  obtain ⟨values, hv, hk, hvalues⟩ := readCredentials_pieces hd hc hj h
  have hreads : Reads py d c.devices values := ⟨hv, hs ▸ hd.reads.settings⟩
  exact ⟨values, ⟨_, .inl (hreads.settled c.normal c.identified hk ht), rfl⟩, hvalues⟩

theorem holdsAs_replaced (h : Pieces py disk (operation.settings c.settings)
      (operation.credentials c.credentials) c.credentials d)
    (ht : d.transaction = none)
    (hs : d.settings = some (py.dumps (operation.settings c.settings).publicDict)) :
    ∃ values, HoldsAs py d (operation.settings c.settings).devices values ∧
      readCredentials py d.credentials = .ok values ∧
      (values = c.credentials ∨ values = operation.credentials c.credentials) := by
  obtain ⟨values, hv, hk, hvalues⟩ := readCredentials_pieces hd hc hj h
  have hr := hj.1.settings
  rw [Commit.settings_version] at hr hs
  have hn := operation.settings_normal c
  have hid := operation.settings_identified c
  have hreads := reads_written hn hid hr hs hv
  exact ⟨values, ⟨_, .inl (hreads.settled hn hid hk ht), rfl⟩, hv, hvalues⟩

/-- What a commit leaves is one of the old and new devices with one of the old
and new credentials. -/
theorem holdsAs_pieces (h : Pieces py disk (operation.settings c.settings)
      (operation.credentials c.credentials) c.credentials d) :
    ∃ devices values, HoldsAs py d devices values ∧
      (devices = c.devices ∨ devices = (operation.settings c.settings).devices) ∧
      (values = c.credentials ∨ values = operation.credentials c.credentials) := by
  rcases h.transaction with ht | ht
  · rcases h.settings with hs | hs
    · obtain ⟨values, hholds, hvalues⟩ := holdsAs_kept hd hc hj h ht hs
      exact ⟨_, values, hholds, .inl rfl, hvalues⟩
    · obtain ⟨values, hholds, -, hvalues⟩ := holdsAs_replaced hd hc hj h ht hs
      exact ⟨_, values, hholds, .inr rfl, hvalues⟩
  · exact ⟨_, _, holdsAs_pending hc hj ht, .inr rfl, .inr rfl⟩

end

theorem commit_leaves {c : Contents py} {disk : Disk} (hd : Settled py disk c) (settings : Settings)
    (values : Credentials) (fates : List Fate) :
    Pieces py disk settings values c.credentials
      (Store.commit py settings values c.settings c.credentials disk fates).2.1 :=
  (commit_pieces py disk settings values c.credentials c.settings).leaves
    ⟨.inl hd.transaction, .inl rfl, .inl rfl⟩ (fun _ _ => trivial) (fun _ _ h => h) (fun _ _ h => h)
    fun _ h => h

/-- `mark_paired` leaves each document as it was or as it is to be, and changes
the credentials only for a device that exists. -/
theorem markPaired_leaves {c : Contents py} {disk : Disk} (hd : Holds py disk c) (deviceId : Text)
    (credential : Bytes) (facts : HostFacts) (hlen : credential.length = 32)
    (hj : (Call.commit (.markPaired deviceId credential facts)).Readable c) (fates : List Fate) :
    ∃ devices values,
      HoldsAs py ((Call.commit (.markPaired deviceId credential facts)).run py disk fates).2.1
        devices values ∧
      (devices = c.devices ∨
        devices = ((Commit.markPaired deviceId credential facts).settings c.settings).devices) ∧
      (values = c.credentials ∨ values = c.credentials.set deviceId credential ∧
        ∃ device ∈ c.devices, device.id = deviceId) := by
  have hrun : ((Call.commit (.markPaired deviceId credential facts)).run py disk fates).2.1 =
      (markPaired py deviceId credential facts disk fates).2.1 := Prog.map_store ..
  rw [hrun]
  refine Prog.bind_leaves (R := fun d => ∃ devices values, HoldsAs py d devices values ∧
    (devices = c.devices ∨
      devices = ((Commit.markPaired deviceId credential facts).settings c.settings).devices) ∧
    (values = c.credentials ∨ values = c.credentials.set deviceId credential ∧
      ∃ device ∈ c.devices, device.id = deviceId))
    (fun _ => ⟨_, _, (reading_holds (snapshot_triple c) hd fates).as, .inl rfl, .inl rfl⟩)
    fun v d0 f0 h0 => ?_
  obtain ⟨rfl, hsettled⟩ := reading_ok (snapshot_triple c) hd h0
  rcases updateFirst_cases (fun device : Device => device.id = deviceId) (Device.pairWith facts)
    c.devices with ⟨hnone, -⟩ | ⟨before, device, after, hsplit, -, hdevice, hsome⟩
  · simp only [Contents.value, Contents.settings, hnone]
    exact ⟨_, _, Holds.as (.inl hsettled), .inl rfl, .inl rfl⟩
  · have hexists : ∃ device ∈ c.devices, device.id = deviceId :=
      ⟨device, by simp [hsplit], of_decide_eq_true hdevice⟩
    have hsettings : (Commit.markPaired deviceId credential facts).settings c.settings =
        { devices := before ++ device.pairWith facts :: after } := by
      simp only [Commit.settings, Contents.settings, hsome]
    have hallowed : (Commit.markPaired deviceId credential facts).Allowed c.settings :=
      ⟨hexists, hlen⟩
    obtain ⟨devices, values, hholds, hdevices, hvalues⟩ :=
      holdsAs_pieces hsettled hallowed hj (commit_leaves hsettled _ _ f0)
    refine ⟨devices, values, ?_, hdevices, hvalues.imp_right fun h => ⟨h, hexists⟩⟩
    rw [hsettings] at hholds
    simp only [Contents.value, Contents.settings, hsome]
    rw [← Prog.map_store _ (fun _ => device.pairWith facts)] at hholds
    exact hholds

theorem markPaired_ok {c : Contents py} {disk : Disk} {credential : Bytes} (hd : Holds py disk c)
    (hlen : credential.length = 32)
    (hr : Readable py ((Commit.markPaired deviceId credential facts).settings c.settings)
      ((Commit.markPaired deviceId credential facts).credentials c.credentials))
    (h : markPaired py deviceId credential facts disk fates = (.ok device, disk', rest)) :
    ∃ hallowed, Settled py disk'
      ((Commit.markPaired deviceId credential facts).after c hallowed) := by
  obtain ⟨v, d0, f0, h0, h⟩ := Prog.bind_ok h
  obtain ⟨rfl, hsettled⟩ := reading_ok (snapshot_triple c) hd h0
  rcases updateFirst_cases (fun device : Device => device.id = deviceId) (Device.pairWith facts)
    c.devices with ⟨hnone, -⟩ | ⟨before, device', after, hsplit, -, hdevice, hsome⟩
  · simp only [Contents.value, Contents.settings, hnone] at h
    cases h
  · have hallowed : (Commit.markPaired deviceId credential facts).Allowed c.settings :=
      ⟨⟨device', by simp [Contents.settings, hsplit], of_decide_eq_true hdevice⟩, hlen⟩
    simp only [Contents.value, Contents.settings, hsome] at h
    obtain ⟨_, d1, f1, h1, h⟩ := Prog.bind_ok h
    cases h
    have hsettings : (Commit.markPaired deviceId credential facts).settings c.settings =
        { devices := before ++ device'.pairWith facts :: after } := by
      simp only [Commit.settings, Contents.settings, hsome]
    rw [commit_ok _ _ _ _ _ h1]
    refine ⟨hallowed, (reads_written (Commit.settings_normal _ c) (Commit.settings_identified _ c)
      ?_ ?_ (readCredentials_dumps hr.credentials
        (decodeCredentials_document (Commit.credentials_keyed hallowed)))).settled _ _ _ rfl⟩
    · rw [← Commit.settings_version]
      exact hr.settings
    · rw [← Commit.settings_version, hsettings]

theorem find_holds {c : Contents py} {disk : Disk} (hd : Holds py disk c) (deviceId : Text)
    (fates : List Fate) :
    Holds py (Store.find py deviceId disk fates).2.1 c := by
  refine Prog.bind_leaves (R := (Holds py · c)) (fun _ => reading_holds (load_triple c) hd fates)
    fun v d0 f0 h0 => ?_
  have hsettled := (reading_ok (load_triple c) hd h0).2
  cases v.devices.find? (·.id = deviceId) with
  | some device => exact .inl hsettled
  | none => exact .inl hsettled

/-- If a `delete` gets as far as writing the settings, and that raises, the
settings are as they were. -/
def Commit.Untouched (py : Python) (disk : Disk) (fates : List Fate) : Commit → Prop
  | .delete deviceId => ∀ settings values d0 f0 d1 f1 d2 f2 e d3 f3,
    snapshot py disk fates = (.ok (settings, values), d0, f0) →
    atomicWrite py .transaction (transactionDocument ((Commit.delete deviceId).settings settings)
      ((Commit.delete deviceId).credentials values)) d0 f0 = (.ok (), d1, f1) →
    atomicWrite py .credentials ((Commit.delete deviceId).credentials values).document d1 f1 =
      (.ok (), d2, f2) →
    atomicWrite py .settings ((Commit.delete deviceId).settings settings).publicDict d2 f2 =
      (.raised e, d3, f3) →
    d3.settings = d2.settings
  | .markPaired _ _ _ => True

/-- `delete` leaves the new settings only with the new credentials. -/
theorem delete_leaves {c : Contents py} {disk : Disk} (hd : Holds py disk c) (deviceId : Text)
    (hj : (Call.commit (.delete deviceId)).Readable c) (fates : List Fate)
    (hu : (Commit.delete deviceId).Untouched py disk fates) :
    ∃ devices values, HoldsAs py ((Call.commit (.delete deviceId)).run py disk fates).2.1
      devices values ∧
      (devices = c.devices ∧ (values = c.credentials ∨ values = c.credentials.remove deviceId) ∨
        devices = c.devices.filter (·.id ≠ deviceId) ∧ values = c.credentials.remove deviceId) := by
  refine Prog.bind_leaves (R := fun d => ∃ devices values, HoldsAs py d devices values ∧
    (devices = c.devices ∧ (values = c.credentials ∨ values = c.credentials.remove deviceId) ∨
      devices = c.devices.filter (·.id ≠ deviceId) ∧ values = c.credentials.remove deviceId))
    (fun _ => ⟨_, _, (reading_holds (snapshot_triple c) hd fates).as, .inl ⟨rfl, .inl rfl⟩⟩)
    fun v d0 f0 h0 => ?_
  obtain ⟨rfl, hsettled⟩ := reading_ok (snapshot_triple c) hd h0
  have hconsistent := commit_consistent py d0 ((Commit.delete deviceId).settings c.settings)
    ((Commit.delete deviceId).credentials c.credentials) c.credentials c.settings f0
    fun d1 f1 d2 f2 e d3 f3 => hu c.settings c.credentials d0 f0 d1 f1 d2 f2 e d3 f3 h0
  have hpieces := commit_leaves hsettled ((Commit.delete deviceId).settings c.settings)
    ((Commit.delete deviceId).credentials c.credentials) f0
  have hallowed : (Commit.delete deviceId).Allowed c.settings := trivial
  rcases hpieces.transaction with ht | ht
  · rcases hconsistent with hpending | hs | ⟨hs, hv⟩
    · rw [ht] at hpending
      cases hpending
    · obtain ⟨values, hholds, hvalues⟩ := holdsAs_kept hsettled hallowed hj hpieces ht hs
      exact ⟨_, values, hholds, .inl ⟨rfl, hvalues⟩⟩
    · obtain ⟨values, hholds, hread, -⟩ := holdsAs_replaced hsettled hallowed hj hpieces ht hs
      have hnew := readCredentials_dumps hj.1.credentials
        (decodeCredentials_document (Commit.credentials_keyed hallowed))
      rw [hv, hnew] at hread
      cases hread
      exact ⟨_, _, hholds, .inr ⟨rfl, rfl⟩⟩
  · exact ⟨_, _, holdsAs_pending hallowed hj ht, .inr ⟨rfl, rfl⟩⟩

-- ---------------------------------------------------------------------------
-- What each call keeps
-- ---------------------------------------------------------------------------

theorem pairWith_ids (deviceId : Text) (credential : Bytes) (facts : HostFacts)
    (settings : Settings) :
    ((Commit.markPaired deviceId credential facts).settings settings).devices.map (·.id) =
      settings.devices.map (·.id) := by
  simp only [Commit.settings]
  split
  · rename_i hupdate
    exact updateFirst_map (f := Device.pairWith facts) (fun _ => rfl) hupdate
  · rfl

theorem pairWith_others (deviceId : Text) (credential : Bytes) (facts : HostFacts)
    (settings : Settings) :
    ((Commit.markPaired deviceId credential facts).settings settings).devices.filter
      (·.id ≠ deviceId) = settings.devices.filter (·.id ≠ deviceId) := by
  simp only [Commit.settings]
  split
  · rename_i hupdate
    refine updateFirst_filter (fun device h => ?_) hupdate
    simp [of_decide_eq_true h, Device.pairWith]
  · rfl

theorem putDevice_others (devices : List Device) (device : Device) :
    (putDevice devices device).2.filter (·.id ≠ device.id) = devices.filter (·.id ≠ device.id) := by
  unfold putDevice
  split
  · rename_i hupdate
    refine updateFirst_filter (fun existing h => ?_) hupdate
    simp [of_decide_eq_true h, Device.keepHost]
  · simp

theorem Sound.upsert (h : Sound devices values) (device : Device) :
    Sound (putDevice devices device).2 values := by
  rcases updateFirst_cases (fun d : Device => d.id = device.id) device.keepHost devices with
    ⟨hnone, hall⟩ | ⟨before, existing, after, rfl, -, hid, hsome⟩
  · have hids : (putDevice devices device).2.map (·.id) = devices.map (·.id) ++ [device.id] := by
      simp [putDevice, hnone]
    refine ⟨hids ▸ List.nodup_append.mpr ⟨h.distinct, List.pairwise_singleton .., ?_⟩, hids ▸ ?_⟩
    · intro id hmem id' hid'
      obtain ⟨d, hd, rfl⟩ := List.mem_map.mp hmem
      rw [List.mem_singleton.mp hid']
      simpa using hall d hd
    · intro e he
      exact List.mem_append_left _ (h.owned e he)
  · have hids : (putDevice (before ++ existing :: after) device).2.map (·.id) =
        (before ++ existing :: after).map (·.id) := by
      simp only [putDevice, hsome, List.map_append, List.map_cons, of_decide_eq_true hid]
      rfl
    exact ⟨hids ▸ h.distinct, hids ▸ h.owned⟩

theorem Sound.pair (h : Sound devices values) (hmem : deviceId ∈ devices.map (·.id))
    (credential : Bytes) :
    Sound devices (values.set deviceId credential) := by
  refine ⟨h.distinct, fun e he => ?_⟩
  rcases Dict.mem_set he with rfl | he
  · exact hmem
  · exact h.owned e he

theorem Sound.remove (h : Sound devices values) (deviceId : Text) :
    Sound devices (values.remove deviceId) :=
  ⟨h.distinct, fun e he => h.owned e (List.mem_of_mem_filter he)⟩

theorem Sound.delete (h : Sound devices values) (deviceId : Text) :
    Sound (devices.filter (·.id ≠ deviceId)) (values.remove deviceId) := by
  refine ⟨h.distinct.sublist (List.filter_sublist.map _), fun e he => ?_⟩
  obtain ⟨hmem, hne⟩ := List.mem_filter.mp he
  obtain ⟨d, hd, hid⟩ := List.mem_map.mp (h.owned e hmem)
  refine List.mem_map.mpr ⟨d, List.mem_filter.mpr ⟨hd, ?_⟩, hid⟩
  simpa [hid] using hne

def Call.subject : Call → Option Text
  | .upsert _ deviceId uuid => some (identifierOr deviceId uuid)
  | .commit (.markPaired deviceId _ _) => some deviceId
  | .commit (.delete _) => none

/-- An identifier is not blank, a credential has 32 bytes, and a write of the
settings that fails has not replaced them. -/
def Call.Permitted (py : Python) (disk : Disk) (fates : List Fate) : Call → Prop
  | .upsert _ deviceId uuid => strip isSpace (identifierOr deviceId uuid) ≠ []
  | .commit (.markPaired _ credential _) => credential.length = 32
  | .commit (.delete deviceId) => (Commit.delete deviceId).Untouched py disk fates

/-- However a call ends, what it leaves is sound, and what it is not about is as
it was. -/
theorem Call.leaves {c : Contents py} {disk : Disk} (hd : Holds py disk c)
    (hs : Sound c.devices c.credentials) (call : Call) (hj : call.Readable c) (fates : List Fate)
    (hp : call.Permitted py disk fates) :
    ∃ devices values, HoldsAs py (call.run py disk fates).2.1 devices values ∧
      Sound devices values ∧
      ∀ id, call.subject = some id → Apart id c.devices devices c.credentials values := by
  cases call with
  | upsert uploaded deviceId uuid =>
    have hid : storedIdentifier (.str (identifierOr deviceId uuid)) =
        .ok (identifierOr deviceId uuid) := by
      exact if_neg fun hblank => hp (List.isEmpty_iff.mp hblank)
    obtain ⟨devices, hholds, rfl | ⟨device, hdevice, rfl⟩⟩ := upsert_leaves hd _ _ _ hj hid fates
    · exact ⟨_, _, hholds, hs, fun id _ => .of_filter rfl rfl⟩
    · refine ⟨_, _, hholds, hs.upsert device, ?_⟩
      rintro _ ⟨⟩
      exact .of_filter (hdevice ▸ putDevice_others ..) rfl
  | commit operation =>
    cases operation with
    | delete deviceId =>
      obtain ⟨_, _, hholds, ⟨rfl, rfl | rfl⟩ | ⟨rfl, rfl⟩⟩ := delete_leaves hd deviceId hj fates hp
      · exact ⟨_, _, hholds, hs, nofun⟩
      · exact ⟨_, _, hholds, hs.remove deviceId, nofun⟩
      · exact ⟨_, _, hholds, hs.delete deviceId, nofun⟩
    | markPaired deviceId credential facts =>
      obtain ⟨devices, values, hholds, hdevices, hvalues⟩ :=
        markPaired_leaves hd deviceId credential facts hp hj fates
      have hids : devices.map (·.id) = c.devices.map (·.id) := by
        rcases hdevices with rfl | rfl
        · rfl
        · exact pairWith_ids ..
      have hsound : Sound c.devices values := by
        rcases hvalues with rfl | ⟨rfl, device, hmem, rfl⟩
        · exact hs
        · exact hs.pair (List.mem_map_of_mem hmem) credential
      refine ⟨_, _, hholds, ⟨hids ▸ hsound.distinct, hids ▸ hsound.owned⟩, ?_⟩
      rintro _ ⟨⟩
      apply Apart.of_filter
      · rcases hdevices with rfl | rfl
        · rfl
        · exact pairWith_others ..
      · rcases hvalues with rfl | ⟨rfl, -⟩
        · rfl
        · exact Dict.remove_set ..

-- ---------------------------------------------------------------------------
-- Runs of the store
-- ---------------------------------------------------------------------------

structure StoreInput where
  call : Call
  fates : List Fate := []
  attempts : List (List Fate) := []

def storeStep (py : Python) (disk : Disk) (input : StoreInput) : Option (Disk × List Unit) :=
  some (reopen py (input.call.run py disk input.fates).2.1 input.attempts, [])

theorem storeStep_once (py : Python) (disk : Disk) (call : Call) (fates : List Fate) :
    storeStep py disk { call, fates } = some ((call.run py disk fates).2.1, []) :=
  rfl

def Permitted (py : Python) (disk : Disk) (input : StoreInput) : Prop :=
  input.call.Permitted py disk input.fates ∧ ∀ c, Holds py disk c → input.call.Readable c

/-- The directory holds sound contents. -/
def Represents (py : Python) (disk : Disk) (c : Contents py) : Prop :=
  Holds py disk c ∧ Sound c.devices c.credentials

def noContents : Contents py := .of [] [] normal_nil identified_nil keyed_nil

theorem represents_empty : Represents py {} noContents :=
  ⟨.inl ⟨rfl, rfl⟩, by constructor <;> simp [noContents, Contents.of, Settings.flagged]⟩

theorem storeStep_represents {c : Contents py} {disk disk' : Disk} (h : Represents py disk c)
    (hp : Permitted py disk input) (hstep : storeStep py disk input = some (disk', es)) :
    ∃ c' : Contents py, Represents py disk' c' ∧ ∀ id, input.call.subject = some id →
      c'.devices.filter (·.id ≠ id) = c.devices.filter (·.id ≠ id) ∧
        c'.credentials.remove id = c.credentials.remove id := by
  cases hstep
  obtain ⟨devices, values, ⟨c', hholds, hvalue⟩, hsound, hapart⟩ :=
    Call.leaves h.1 h.2 input.call (hp.2 c h.1) input.fates hp.1
  obtain ⟨hsettings, rfl⟩ := Prod.mk.inj hvalue
  have hdevices : c'.devices = (Settings.flagged { devices } c'.credentials).devices :=
    congrArg Settings.devices hsettings
  refine ⟨c', ⟨reopen_holds hholds _, hdevices ▸ hsound.flagged c'.credentials⟩, fun id hid => ?_⟩
  have hflagged : (Settings.flagged { devices := c.devices } c.credentials).devices = c.devices :=
    congrArg Settings.devices c.flagged
  obtain ⟨hothers, hcredentials⟩ := hapart id hid
  rw [hflagged, ← hdevices] at hothers
  exact ⟨hothers, hcredentials⟩

theorem run_represents (h : Machine.Run (storeStep py) (Permitted py) {} tr disk) :
    ∃ c : Contents py, Represents py disk c := by
  refine h.invariant (I := fun _ disk => ∃ c : Contents py, Represents py disk c)
    ⟨_, represents_empty⟩ ?_
  rintro tr disk input disk' es ⟨c, hc⟩ hp hstep
  obtain ⟨c', hc', -⟩ := storeStep_represents hc hp hstep
  exact ⟨c', hc'⟩

theorem Holds.unique {disk : Disk} {c c' : Contents py} (h : Holds py disk c)
    (h' : Holds py disk c') :
    c = c' := by
  have hvalue : (.ok c.value : Result PyError _) = .ok c'.value := by
    rw [← snapshot_holds h, ← snapshot_holds h']
  obtain ⟨hsettings, hcredentials⟩ := Prod.mk.inj (Result.ok.inj hvalue)
  have hdevices : c.devices = c'.devices := congrArg Settings.devices hsettings
  cases c
  cases c'
  cases hdevices
  cases hcredentials
  rfl

theorem upsert_returns {c : Contents py} {disk : Disk} (hd : Settled py disk c)
    (deviceId : Option Text)
    (uuid : Text) (h : newDevice py values (identifierOr deviceId uuid) = .ok device) :
    ((Call.upsert values deviceId uuid).run py disk []).2.1 = disk.replace
      (py.dumps (Settings.publicDict { devices := (putDevice c.devices device).2 })) .settings := by
  rw [upsert_store, upsert_settled hd h]
  rfl

/-- From an empty directory, `snapshot` yields distinct identifiers, credentials
of 32 bytes that belong to devices, and flags that say which devices have one.
After one more `upsert` or `mark_paired`, the other devices and credentials are
as they were. -/
theorem representation {disk : Disk} (h : Machine.Run (storeStep py) (Permitted py) {} tr disk) :
    ∃ settings credentials, (snapshot py disk []).1 = .ok (settings, credentials) ∧
      (settings.devices.map (·.id)).Nodup ∧
      (∀ e ∈ credentials, e.1 ∈ settings.devices.map (·.id) ∧ e.2.length = 32) ∧
      (∀ device ∈ settings.devices, device.paired = credentials.has device.id) ∧
      ∀ input disk' es id, Permitted py disk input → storeStep py disk input = some (disk', es) →
        input.call.subject = some id →
        ∃ settings' credentials', (snapshot py disk' []).1 = .ok (settings', credentials') ∧
          settings'.devices.filter (·.id ≠ id) = settings.devices.filter (·.id ≠ id) ∧
          credentials'.remove id = credentials.remove id := by
  obtain ⟨c, hc⟩ := run_represents h
  refine ⟨c.settings, c.credentials, snapshot_holds hc.1, hc.2.distinct, ?_, ?_, ?_⟩
  · intro e he
    exact ⟨hc.2.owned e he, (c.keyed e he).2⟩
  · intro device hmem
    exact (congrArg Device.paired (c.flag_eq hmem)).symm
  · intro input disk' es id hp hstep hsubject
    obtain ⟨c', hc', hothers⟩ := storeStep_represents hc hp hstep
    exact ⟨c'.settings, c'.credentials, snapshot_holds hc'.1, hothers id hsubject⟩

-- ---------------------------------------------------------------------------
-- A run that adds a PC and pairs with it
-- ---------------------------------------------------------------------------

def addPcValues : Dict Text Json :=
  [("name".toList, .str "PC".toList), ("address".toList, .str "pc.local".toList),
    ("mac".toList, .str "AA:BB:CC:DD:EE:FF".toList)]

def addPc : Call := .upsert addPcValues none "pc".toList

theorem newDevice_addPcValues (py : Python) (id : Text) : newDevice py addPcValues id = .ok {
    id
    name := "PC".toList
    address := "pc.local".toList
    mac := "AA:BB:CC:DD:EE:FF".toList } := by
  have haddress : validateAddress py (getOr addPcValues "address".toList .null) =
      .ok "pc.local".toList := rfl
  have hmac : normalizeMac (py.str (getOr addPcValues "mac".toList (.str []))) =
      .ok "AA:BB:CC:DD:EE:FF".toList := rfl
  have hport : validatePort py (getOr addPcValues "port".toList .null) true = .ok defaultPort := rfl
  have hbroadcast : validateBroadcast py (getOr addPcValues "broadcastAddress".toList .null) =
    .ok none := rfl
  have hname : strip isSpace (py.str (getOr addPcValues "name".toList (.str []))) = "PC".toList :=
    rfl
  have hoverridden : (getOr addPcValues "macOverridden".toList (.bool false)).truthy = false := rfl
  rw [newDevice, haddress, hmac, hport, hbroadcast, hname, hoverridden]
  rfl

theorem addPc_device :
    (newDevice onePcPython addPcValues "pc".toList).map ([·]) = .ok onePc.devices := by
  rw [newDevice_addPcValues]
  rfl

theorem pc_not_blank : strip isSpace "pc".toList ≠ [] := by
  have hstrip : strip isSpace "pc".toList = "pc".toList := rfl
  rw [hstrip]
  exact List.cons_ne_nil _ _

theorem addPc_permitted : Permitted onePcPython {} { call := addPc } := by
  refine ⟨pc_not_blank, fun c hc => ?_⟩
  cases hc.unique represents_empty.1
  intro device hdevice
  have hpc := addPc_device
  have hnew : newDevice onePcPython addPcValues "pc".toList = .ok device := hdevice
  rw [hnew] at hpc
  cases hpc
  exact onePc_reads List.mem_cons_self

theorem addPc_disk : (addPc.run onePcPython {} []).2.1 = onePcDisk := by
  have hpc := addPc_device
  have hempty : Settled onePcPython {} noContents := ⟨rfl, rfl⟩
  cases hnew : newDevice onePcPython addPcValues "pc".toList with
  | error e =>
    rw [hnew] at hpc
    cases hpc
  | ok pc =>
    rw [hnew] at hpc
    cases hpc
    rw [addPc, upsert_returns hempty none "pc".toList hnew]
    rfl

theorem pairPc_permitted (fates : List Fate) :
    Permitted onePcPython onePcDisk { call := .commit pairPc, fates } := by
  refine ⟨rfl, fun c hc => ?_⟩
  cases hc.unique (.inl onePc_settled)
  exact onePc_documents

/-- A PC is added, and pairing with it is cut short between the two documents. -/
theorem addPc_represented :
    ∃ tr settings credentials, Machine.Run (storeStep onePcPython) (Permitted onePcPython)
      {} tr onePcDisk ∧ (snapshot onePcPython onePcDisk []).1 = .ok (settings, credentials) ∧
      (settings.devices.map (·.id)).Nodup ∧
      (∀ e ∈ credentials, e.1 ∈ settings.devices.map (·.id) ∧ e.2.length = 32) ∧
      (∀ device ∈ settings.devices, device.paired = credentials.has device.id) ∧
      ∃ settings' credentials',
        (snapshot onePcPython
          ((Call.commit pairPc).run onePcPython onePcDisk (plan 12 .crashes)).2.1 []).1 =
          .ok (settings', credentials') ∧
        settings'.devices.filter (·.id ≠ "pc".toList) = settings.devices.filter
          (·.id ≠ "pc".toList) ∧
        credentials'.remove "pc".toList = credentials.remove "pc".toList := by
  have hadd := Machine.Run.single addPc_permitted (storeStep_once onePcPython {} addPc [])
  rw [addPc_disk] at hadd
  obtain ⟨settings, credentials, hsnapshot, hdistinct, howned, hflags, hothers⟩ :=
    representation hadd
  refine ⟨_, settings, credentials, hadd, hsnapshot, hdistinct, howned, hflags, ?_⟩
  exact hothers _ _ _ _ (pairPc_permitted (plan 12 .crashes)) (storeStep_once ..) rfl

end DeckyMyRig.Deck
