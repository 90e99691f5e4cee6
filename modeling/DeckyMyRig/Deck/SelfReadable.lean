import DeckyMyRig.Deck.Representation

/-!
# Whether the store stays readable

`upsert` takes any identifier that is not empty, while the check of a stored
device refuses one of blanks only. One such device makes the whole settings
document unreadable, and every later call raises before it writes anything.
-/

namespace DeckyMyRig.Deck

open Octets Texts Faults Checked Store

variable {py : Python}

def callStep (py : Python) (disk : Disk) (call : Call) : Option (Disk × List Call) :=
  some ((call.run py disk []).2.1, [call])

structure Acceptable (py : Python) (values : Dict Text Json) : Prop where
  name : strip isSpace (py.str (getOr values "name".toList (.str []))) ≠ []
  address : ∃ address, validateAddress py (getOr values "address".toList .null) = .ok address
  mac : ∃ mac, normalizeMac (py.str (getOr values "mac".toList (.str []))) = .ok mac
  port : ∃ port, validatePort py (getOr values "port".toList .null) true = .ok port
  broadcast : ∃ address, validateBroadcast py
    (getOr values "broadcastAddress".toList .null) = .ok address

/-- A `save_device` of acceptable values under an identifier that is not empty
and has blanks only. -/
def Call.Blank (py : Python) : Call → Prop
  | .upsert values deviceId _ =>
    (∃ id, deviceId = some id ∧ id ≠ [] ∧ strip isSpace id = []) ∧ Acceptable py values
  | .commit _ => False

/-- A generated identifier is not blank, and a credential has 32 bytes. -/
def Call.Genuine : Call → Prop
  | .upsert _ _ uuid => strip isSpace uuid ≠ []
  | .commit (.markPaired _ credential _) => credential.length = 32
  | .commit (.delete _) => True

def Proper (py : Python) (disk : Disk) (call : Call) : Prop :=
  call.Genuine ∧ ∀ c, Holds py disk c → call.Readable c

def Loads (py : Python) (disk : Disk) : Prop :=
  (∃ settings, (load py disk []).1 = .ok settings) ∧
    ∃ contents, (snapshot py disk []).1 = .ok contents

-- ---------------------------------------------------------------------------
-- Acceptable values
-- ---------------------------------------------------------------------------

theorem acceptable_iff (id : Text) :
    Acceptable py values ↔ ∃ device, newDevice py values id = .ok device := by
  constructor
  · rintro ⟨hname, ⟨address, haddress⟩, ⟨mac, hmac⟩, ⟨port, hport⟩, ⟨broadcast, hbroadcast⟩⟩
    exact ⟨_, newDevice_eq_ok.mpr
      ⟨address, mac, port, broadcast, haddress, hmac, hport, hbroadcast, hname, rfl⟩⟩
  · rintro ⟨device, h⟩
    obtain ⟨address, mac, port, broadcast, haddress, hmac, hport, hbroadcast, hname, -⟩ :=
      newDevice_eq_ok.mp h
    exact ⟨hname, ⟨_, haddress⟩, ⟨_, hmac⟩, ⟨_, hport⟩, ⟨_, hbroadcast⟩⟩

theorem blank_identifier (huuid : strip isSpace uuid ≠ []) :
    strip isSpace (identifierOr deviceId uuid) = [] ↔
      ∃ id, deviceId = some id ∧ id ≠ [] ∧ strip isSpace id = [] := by
  match deviceId with
  | none => simp [identifierOr, huuid]
  | some [] => simp [identifierOr, huuid]
  | some (c :: rest) => simp [identifierOr]

-- ---------------------------------------------------------------------------
-- A store that cannot be read
-- ---------------------------------------------------------------------------

/-- The settings document is refused, whatever the credentials are. -/
structure Unreadable (py : Python) (disk : Disk) : Prop where
  transaction : disk.transaction = none
  settings : ∃ text, disk.settings = some text ∧
    ∀ credentials, ∃ e, loadSettings py text credentials = .error e

theorem credentials_none {disk : Disk} (h : disk.transaction = none) (fates : List Fate) :
    Store.credentials py disk fates = Prog.lift
      (readCredentials py disk.credentials) disk fates := by
  show Prog.bind (recoverTransaction py) _ disk fates = _
  simp only [Prog.bind, recover_none h]
  rfl

theorem credentials_raises {disk : Disk} {f : Credentials → Action α} (h : disk.transaction = none)
    (fates : List Fate)
    (hf : ∀ credentials, ∃ e, f credentials disk fates = (.raised e, disk, fates)) :
    ∃ e, Prog.bind (Store.credentials py) f disk fates = (.raised e, disk, fates) := by
  simp only [Prog.bind, credentials_none h]
  cases readCredentials py disk.credentials with
  | error e => exact ⟨e, rfl⟩
  | ok credentials => exact hf credentials

theorem Unreadable.load {disk : Disk} (h : Unreadable py disk) (fates : List Fate) :
    ∃ e, Store.load py disk fates = (.raised e, disk, fates) := by
  obtain ⟨text, htext, hrefused⟩ := h.settings
  rw [load_some h.transaction htext]
  refine credentials_raises h.transaction fates fun credentials => ?_
  obtain ⟨e, he⟩ := hrefused credentials
  rw [he]
  exact ⟨e, rfl⟩

theorem Unreadable.snapshot {disk : Disk} (h : Unreadable py disk) (fates : List Fate) :
    ∃ e, Store.snapshot py disk fates = (.raised e, disk, fates) := by
  obtain ⟨text, htext, hrefused⟩ := h.settings
  show ∃ e, Prog.bind (recoverTransaction py) _ disk fates = _
  simp only [Prog.bind, recover_none h.transaction]
  show ∃ e, Prog.bind (Store.credentials py) _ disk fates = _
  refine credentials_raises h.transaction fates fun credentials => ?_
  obtain ⟨e, he⟩ := hrefused credentials
  refine ⟨e, ?_⟩
  show Prog.bind (Prog.lift (readSettings py disk.settings credentials)) _ disk fates = _
  rw [htext, readSettings, he]
  rfl

theorem bind_raised {p : Action α} {f : α → Action β} {disk : Disk}
    (h : p disk fates = (.raised e, disk, rest)) :
    ((p >>= f) disk fates).2.1 = disk := by
  show (Prog.bind p f disk fates).2.1 = disk
  rw [Prog.bind, h]

theorem Unreadable.run {disk : Disk} (h : Unreadable py disk) (call : Call) (fates : List Fate) :
    (call.run py disk fates).2.1 = disk := by
  cases call with
  | upsert values deviceId uuid =>
    rw [upsert_store]
    obtain ⟨e, he⟩ := h.load fates
    exact bind_raised he
  | commit operation =>
    obtain ⟨e, he⟩ := h.snapshot fates
    cases operation with
    | delete deviceId => exact bind_raised he
    | markPaired deviceId credential facts =>
      have hrun : ((Call.commit (.markPaired deviceId credential facts)).run py disk fates).2.1 =
          (markPaired py deviceId credential facts disk fates).2.1 := Prog.map_store ..
      rw [hrun]
      exact bind_raised he

theorem Unreadable.not_loads {disk : Disk} (h : Unreadable py disk) : ¬ Loads py disk := by
  rintro ⟨⟨settings, hload⟩, -⟩
  obtain ⟨e, he⟩ := h.load []
  rw [he] at hload
  cases hload

theorem Holds.loads {disk : Disk} {c : Contents py} (h : Holds py disk c) : Loads py disk := by
  obtain ⟨settings, d, hload, -⟩ := (load_triple c).returns h (fun _ _ he => he.1) fun _ hd => hd.1
  exact ⟨⟨settings, by rw [hload]⟩, ⟨_, snapshot_holds h⟩⟩

-- ---------------------------------------------------------------------------
-- One call
-- ---------------------------------------------------------------------------

theorem upsert_refused {c : Contents py} {disk : Disk} (hd : Holds py disk c)
    (deviceId : Option Text) (uuid : Text) (h : ¬ Acceptable py values) (fates : List Fate) :
    Holds py ((Call.upsert values deviceId uuid).run py disk fates).2.1 c := by
  rw [upsert_store]
  refine Prog.bind_leaves (R := (Holds py · c)) (fun _ => reading_holds (load_triple c) hd fates)
    fun settings d0 f0 h0 => ?_
  have hsettled := (reading_ok (load_triple c) hd h0).2
  cases hnew : newDevice py values (identifierOr deviceId uuid) with
  | error e => exact .inl hsettled
  | ok device => exact absurd ((acceptable_iff _).mpr ⟨device, hnew⟩) h

theorem decodeSettings_blank {devices : List Device} (hn : ∀ device ∈ devices, device.Normal py)
    (hmem : device ∈ devices) (hblank : strip isSpace device.id = []) (credentials : Credentials) :
    ∃ e, decodeSettings py (Settings.publicDict { devices }) credentials = .error e := by
  rw [decodeSettings_publicDict]
  cases hdecoded : decodeDevices py (.list (devices.map Device.publicDict)) with
  | error e => exact ⟨_, rfl⟩
  | ok decoded =>
    have hid := identified_of_decoded hn hdecoded device hmem
    simp [storedIdentifier, hblank] at hid

theorem mem_putDevice (devices : List Device) (device : Device) :
    (putDevice devices device).1 ∈ (putDevice devices device).2 ∧
      (putDevice devices device).1.id = device.id := by
  rcases updateFirst_cases (fun d : Device => d.id = device.id) device.keepHost devices with
    ⟨hnone, -⟩ | ⟨before, existing, after, -, -, -, hsome⟩
  · exact ⟨by simp [putDevice, hnone], by simp [putDevice, hnone]⟩
  · refine ⟨by simp [putDevice, hsome], ?_⟩
    simp only [putDevice, hsome]
    rfl

theorem upsert_blank {c : Contents py} {disk : Disk} (hd : Holds py disk c)
    (hj : (Call.upsert values deviceId uuid).Readable c)
    (hblank : strip isSpace (identifierOr deviceId uuid) = []) (h : Acceptable py values) :
    Unreadable py ((Call.upsert values deviceId uuid).run py disk []).2.1 := by
  obtain ⟨device, hnew⟩ := (acceptable_iff (identifierOr deviceId uuid)).mp h
  obtain ⟨hnormal, hid⟩ := newDevice_ok hnew
  obtain ⟨settings, d, hload, rfl, hsettled⟩ :=
    (load_triple c).returns hd (fun _ _ he => he.1) fun _ hd => hd.1
  have hrun : ((Call.upsert values deviceId uuid).run py disk []).2.1 = d.replace
      (py.dumps (Settings.publicDict { devices := (putDevice c.devices device).2 })) .settings := by
    rw [upsert_store]
    show (Prog.bind (Store.load py) _ disk []).2.1 = _
    simp only [Prog.bind, hload, hnew]
    rfl
  rw [hrun]
  refine ⟨hsettled.transaction, _, rfl, fun credentials => ?_⟩
  obtain ⟨hmem, hd'⟩ := mem_putDevice c.devices device
  have hrefused := decodeSettings_blank (putDevice_normal hnormal c.normal) hmem
    (by rw [hd', hid, hblank]) credentials
  rw [← readSettings_dumps (hj device hnew)] at hrefused
  exact hrefused

theorem Call.keeps_holds {c : Contents py} {disk : Disk} (hd : Holds py disk c) (call : Call)
    (hgenuine : call.Genuine) (hj : call.Readable c) (hblank : ¬ call.Blank py) :
    ∃ c' : Contents py, Holds py (call.run py disk []).2.1 c' := by
  cases call with
  | upsert values deviceId uuid =>
    by_cases hid : strip isSpace (identifierOr deviceId uuid) = []
    · have hvalues : ¬ Acceptable py values :=
        fun h => hblank ⟨(blank_identifier hgenuine).mp hid, h⟩
      exact ⟨c, upsert_refused hd deviceId uuid hvalues []⟩
    · have hid : storedIdentifier (.str (identifierOr deviceId uuid)) =
          .ok (identifierOr deviceId uuid) :=
        if_neg fun hempty => hid (List.isEmpty_iff.mp hempty)
      obtain ⟨devices, ⟨c', hholds, -⟩, -⟩ := upsert_leaves hd values deviceId uuid hj hid []
      exact ⟨c', hholds⟩
  | commit operation =>
    cases operation with
    | delete deviceId =>
      have hallowed : (Commit.delete deviceId).Allowed c.settings := trivial
      obtain ⟨_, d, hrun, hsettled⟩ :=
        (Commit.run_triple id hallowed hj.1).returns hd (fun _ _ he => he)
        fun _ hd => hd.1
      have hrun : ((Call.commit (.delete deviceId)).run py disk []).2.1 = d := congrArg (·.2.1) hrun
      exact ⟨_, .inl (hrun ▸ hsettled)⟩
    | markPaired deviceId credential facts =>
      obtain ⟨devices, values, ⟨c', hholds, -⟩, -⟩ :=
        markPaired_leaves hd deviceId credential facts hgenuine hj []
      exact ⟨c', hholds⟩

-- ---------------------------------------------------------------------------
-- Runs
-- ---------------------------------------------------------------------------

/-- The store is readable until a blank call, and not after one. -/
def Accounts (py : Python) (tr : List Call) (disk : Disk) : Prop :=
  (∀ call ∈ tr, ¬ call.Blank py) ∧ (∃ c : Contents py, Holds py disk c) ∨
    (∃ call ∈ tr, call.Blank py) ∧ Unreadable py disk

theorem Accounts.next {disk : Disk} {call : Call} (h : Accounts py tr disk)
    (hp : Proper py disk call) :
    Accounts py (tr ++ [call]) (call.run py disk []).2.1 := by
  rcases h with ⟨hnone, c, hholds⟩ | ⟨⟨earlier, hmem, hblank⟩, hunreadable⟩
  · by_cases hblank : call.Blank py
    · refine .inr ⟨⟨call, by simp, hblank⟩, ?_⟩
      cases call with
      | upsert values deviceId uuid =>
        exact upsert_blank hholds (hp.2 c hholds) ((blank_identifier hp.1).mpr hblank.1) hblank.2
      | commit operation => exact hblank.elim
    · refine .inl ⟨?_, Call.keeps_holds hholds call hp.1 (hp.2 c hholds) hblank⟩
      intro call' hmem
      rcases List.mem_append.mp hmem with hmem | hmem
      · exact hnone call' hmem
      · rw [List.mem_singleton.mp hmem]
        exact hblank
  · refine .inr ⟨⟨earlier, List.mem_append_left _ hmem, hblank⟩, ?_⟩
    rw [hunreadable.run call []]
    exact hunreadable

/-- From an empty directory and without faults, `load` and `snapshot` return as
long as no acceptable values were saved under an identifier of blanks. -/
theorem loads_iff_never_blank {disk : Disk} (h : Machine.Run (callStep py) (Proper py) {} tr disk) :
    Loads py disk ↔ ∀ call ∈ tr, ¬ call.Blank py := by
  have haccounts : Accounts py tr disk := by
    refine h.invariant (I := Accounts py) (.inl ⟨by simp, _, represents_empty.1⟩) ?_
    rintro tr disk call disk' es hi hp ⟨⟩
    exact hi.next hp
  rcases haccounts with ⟨hnone, c, hholds⟩ | ⟨⟨call, hmem, hblank⟩, hunreadable⟩
  · exact iff_of_true hholds.loads hnone
  · exact iff_of_false hunreadable.not_loads fun hnone => hnone call hmem hblank

/-- A PC is added under a generated identifier. -/
theorem addPc_loads : Loads onePcPython onePcDisk := by
  have hrun : Machine.Run (callStep onePcPython) (Proper onePcPython) {} [addPc] onePcDisk := by
    have hproper : Proper onePcPython {} addPc := ⟨pc_not_blank, addPc_permitted.2⟩
    refine Machine.Run.single hproper ?_
    rw [callStep, addPc_disk]
  refine (loads_iff_never_blank hrun).mpr ?_
  simp [Call.Blank, addPc]

def blankPcDevice : Device where
  id := " ".toList
  name := "PC".toList
  address := "pc.local".toList
  mac := "AA:BB:CC:DD:EE:FF".toList

def blankPcPython : Python := .reading [Settings.publicDict { devices := [blankPcDevice] }]

def saveBlankPc : Call := .upsert addPcValues (some " ".toList) "pc".toList

/-- A PC is saved under an identifier of one space. -/
theorem blank_identifier_bricks :
    ∃ disk, Machine.Run (callStep blankPcPython) (Proper blankPcPython) {} [saveBlankPc] disk ∧
      ¬ Loads blankPcPython disk := by
  have hnew := newDevice_addPcValues blankPcPython " ".toList
  have hreadable : saveBlankPc.Readable (noContents : Contents blankPcPython) := by
    intro device hdevice
    have hdevice : newDevice blankPcPython addPcValues " ".toList = .ok device := hdevice
    rw [hnew] at hdevice
    obtain rfl : blankPcDevice = device := Except.ok.inj hdevice
    have hput : putDevice (noContents : Contents blankPcPython).devices blankPcDevice =
        (blankPcDevice, [blankPcDevice]) := rfl
    rw [hput]
    exact Python.readable_reading (List.nodup_singleton _) List.mem_cons_self
  have hproper : Proper blankPcPython {} saveBlankPc := by
    refine ⟨pc_not_blank, fun c hc => ?_⟩
    rw [hc.unique represents_empty.1]
    exact hreadable
  have hstep : callStep blankPcPython {} saveBlankPc =
      some ((saveBlankPc.run blankPcPython {} []).2.1, [saveBlankPc]) := rfl
  have hblank : strip isSpace (identifierOr (some " ".toList) "pc".toList) = [] := by decide
  have hunreadable : Unreadable blankPcPython (saveBlankPc.run blankPcPython {} []).2.1 := by
    unfold saveBlankPc
    exact upsert_blank represents_empty.1 hreadable hblank ((acceptable_iff _).mpr ⟨_, hnew⟩)
  exact ⟨_, Machine.Run.single hproper hstep, hunreadable.not_loads⟩

end DeckyMyRig.Deck
