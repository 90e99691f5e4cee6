import DeckyMyRig.Host.Serde
import DeckyMyRig.Lib.Faults

/-!
# The stores of the identity

`WindowsCredentialStore` of `host/src/storage/windows.rs` and `DevelopmentStore`
of `host/src/storage/mod.rs`, as programs on the files of their directory whose
calls can fail or be the last thing the process does. A file is written a byte
at a time, so that a write can stop anywhere; `MoveFileExW` replaces a file at
once. `Path::exists` takes a failing call for a missing file.
-/

namespace DeckyMyRig.Host

open Octets Faults

structure Files where
  directory : Bool
  identity : Option Bytes
  temporary : Option Bytes
  deriving DecidableEq

inductive FileName
  | identity
  | temporary

def Files.get (files : Files) : FileName → Option Bytes
  | .identity => files.identity
  | .temporary => files.temporary

def Files.set (files : Files) (bytes : Option Bytes) : FileName → Files
  | .identity => { files with identity := bytes }
  | .temporary => { files with temporary := bytes }

inductive FileCall
  | createDirAll
  | write
  | read
  | replace
  | protect
  | unprotect
  deriving DecidableEq

inductive IoError
  | call (call : FileCall)
  /-- `Path::exists` does not return it. -/
  | metadata
  /-- `u32::try_from` -/
  | tooLong
  /-- `serde_json::from_slice` -/
  | document
  deriving DecidableEq

abbrev FileAction (α : Type) := Prog Files IoError α

-- ---------------------------------------------------------------------------
-- Calls
-- ---------------------------------------------------------------------------

def called (e : IoError) : FileAction Unit := Prog.step e id

def pathExists : FileAction Bool :=
  Prog.catching
    (do
      called .metadata
      let files ← Prog.read
      return files.identity.isSome)
    fun _ => return false

def createDirAll : FileAction Unit :=
  Prog.step (.call .createDirAll) fun files => { files with directory := true }

def appendCall (name : FileName) (b : UInt8) : IoError × (Files → Files) :=
  (.call .write, fun files => files.set ((files.get name).map (· ++ [b])) name)

/-- The file is created or emptied, and then written. -/
def writeCalls (name : FileName) (bytes : Bytes) : List (IoError × (Files → Files)) :=
  (.call .write, fun files => files.set (some []) name) :: bytes.map (appendCall name)

def writeFile (name : FileName) (bytes : Bytes) : FileAction Unit := do
  let files ← Prog.read
  if files.directory then Prog.steps (writeCalls name bytes) else Prog.throw (.call .write)

def readFile : FileAction Bytes := do
  called (.call .read)
  let files ← Prog.read
  match files.identity with
  | some bytes => return bytes
  | none => Prog.throw (.call .read)

def replaceFile : FileAction Unit :=
  Prog.step (.call .replace) fun files =>
    { files with identity := files.temporary, temporary := none }

-- ---------------------------------------------------------------------------
-- Stores
-- ---------------------------------------------------------------------------

structure CredentialStore where
  /-- Of the identity that `HostIdentity::default` would be. -/
  loadOrCreate : HostIdentity → (draw : Bytes) → FileAction HostIdentity
  save : HostIdentity → (draw : Bytes) → FileAction Unit

/-- A store whose files hold the identity of its last successful save, whatever
becomes of the others; `Path::exists` must not fail. -/
structure CredentialStore.Keeps (store : CredentialStore) (Holds : Files → HostIdentity → Prop) :
    Prop where
  opened : ∀ {fresh draw files fates identity files' rest}, fresh.pairingCreatedAt < 2 ^ 64 →
    store.loadOrCreate fresh draw files fates = (.ok identity, files', rest) → Holds files' identity
  reopened : ∀ {fresh draw files fates identity result files' rest}, Holds files identity →
    fates.head? ≠ some .raises → store.loadOrCreate fresh draw files fates =
      (result, files', rest) →
    files' = files ∧ ∀ i, result = .ok i → i = identity
  readable : ∀ {fresh draw files identity}, Holds files identity →
    store.loadOrCreate fresh draw files [] = (.ok identity, files, [])
  saved : ∀ {draw files fates identity updated result files' rest}, Holds files identity →
    updated.pairingCreatedAt < 2 ^ 64 → store.save updated draw files fates =
      (result, files', rest) →
    Holds files' (if result = .ok () then updated else identity)
  created : ∀ {files identity}, Holds files identity → identity.pairingCreatedAt < 2 ^ 64

def readIdentity (S : SerdeJson) (document : Bytes) : FileAction HostIdentity :=
  match S.fromSlice document with
  | some identity => return identity
  | none => Prog.throw .document

def loadFile (S : SerdeJson) (plaintext : Bytes → FileAction Bytes) : FileAction HostIdentity := do
  let bytes ← readFile
  let document ← plaintext bytes
  readIdentity S document

/-- `load_or_create`, which the stores share. -/
def loadOrCreate (S : SerdeJson) (save : HostIdentity → FileAction Unit)
    (plaintext : Bytes → FileAction Bytes) (fresh : HostIdentity) : FileAction HostIdentity := do
  if ← pathExists then loadFile S plaintext
  else
    save fresh
    return fresh

namespace DevelopmentStore

def save (S : SerdeJson) (identity : HostIdentity) : FileAction Unit :=
  writeFile .identity (S.toVec identity)

def store (S : SerdeJson) : CredentialStore where
  loadOrCreate fresh _ := Host.loadOrCreate S (save S) (fun bytes => return bytes) fresh
  save identity _ := save S identity

end DevelopmentStore

/-- DPAPI: what it seals it opens, on this machine. Sealing draws a key; a block
has a 32-bit length. -/
structure Dpapi where
  protect : (draw : Bytes) → Bytes → Option Bytes
  unprotect : Bytes → Option Bytes
  opens : ∀ {draw b c}, protect draw b = some c → c.length < 2 ^ 32 ∧ unprotect c = some b

def Dpapi.plain : Dpapi where
  protect _ bytes := if bytes.length < 2 ^ 32 then some bytes else none
  unprotect := some
  opens h := by
    split at h
    · cases h
      exact ⟨‹_›, rfl⟩
    · cases h

namespace WindowsCredentialStore

def crypt (e : IoError) (f : Bytes → Option Bytes) (bytes : Bytes) : FileAction Bytes :=
  if bytes.length < 2 ^ 32 then do
    called e
    match f bytes with
    | some result => return result
    | none => Prog.throw e
  else Prog.throw .tooLong

def protect (D : Dpapi) (draw : Bytes) : Bytes → FileAction Bytes :=
  crypt (.call .protect) (D.protect draw)

def unprotect (D : Dpapi) : Bytes → FileAction Bytes := crypt (.call .unprotect) D.unprotect

def save (S : SerdeJson) (D : Dpapi) (draw : Bytes) (identity : HostIdentity) :
    FileAction Unit := do
  createDirAll
  let blob ← protect D draw (S.toVec identity)
  writeFile .temporary blob
  replaceFile

def store (S : SerdeJson) (D : Dpapi) : CredentialStore where
  loadOrCreate fresh draw := Host.loadOrCreate S (save S D draw) (unprotect D) fresh
  save identity draw := save S D draw identity

end WindowsCredentialStore

-- ---------------------------------------------------------------------------
-- Calls
-- ---------------------------------------------------------------------------

theorem pathExists_cases (h : fates.head? ≠ some .raises) (files : Files) :
    (∃ rest, pathExists files fates = (.ok files.identity.isSome, files, rest)) ∨
      ∃ rest, pathExists files fates = (.crashed, files, rest) := by
  cases fates with
  | nil => exact .inl ⟨[], rfl⟩
  | cons x rest =>
    cases x with
    | works => exact .inl ⟨rest, rfl⟩
    | raises => exact absurd rfl h
    | crashes => exact .inr ⟨rest, rfl⟩

theorem foldl_append_calls (name : FileName) (bytes written : Bytes) (files : Files) :
    (bytes.map (appendCall name)).foldl (fun d f => f.2 d) (files.set (some written) name) =
      files.set (some (written ++ bytes)) name := by
  induction bytes generalizing written with
  | nil => simp
  | cons b bytes ih =>
    have hstep : (appendCall name b).2 (files.set (some written) name) = files.set
        (some (written ++ [b])) name := by
      cases name <;> rfl
    rw [List.map_cons, List.foldl_cons, hstep, ih, List.append_assoc]
    rfl

theorem foldl_writeCalls (name : FileName) (bytes : Bytes) (files : Files) :
    (writeCalls name bytes).foldl (fun d f => f.2 d) files = files.set (some bytes) name := by
  rw [writeCalls, List.foldl_cons, foldl_append_calls, List.nil_append]

theorem writeFile_eval (hd : files.directory = true) (name : FileName) (bytes : Bytes)
    (fates : List Fate) :
    writeFile name bytes files fates = Prog.steps (writeCalls name bytes) files fates := by
  rw [writeFile, Prog.read_bind, if_pos hd]

theorem writeFile_cases (hd : files.directory = true) (name : FileName) (bytes : Bytes)
    (fates : List Fate) :
    (∃ rest, writeFile name bytes files fates = (.ok (), files.set (some bytes) name, rest)) ∨
      ∃ r rest, r ≠ .ok () ∧ (writeFile name bytes files fates = (r, files, rest) ∨
        ∃ written more, bytes = written ++ more ∧ more ≠ [] ∧
          writeFile name bytes files fates = (r, files.set (some written) name, rest)) := by
  rw [writeFile_eval hd]
  rcases Prog.steps_cases (writeCalls name bytes) files fates with
    ⟨rest, hall⟩ | ⟨pre, x, post, r, rest, hsplit, hr, hcut⟩
  · exact .inl ⟨rest, hall.trans (by rw [foldl_writeCalls])⟩
  · refine .inr ⟨r, rest, hr, ?_⟩
    cases pre with
    | nil => exact .inl hcut
    | cons first pre =>
      obtain ⟨rfl, htail⟩ := List.cons.inj hsplit
      obtain ⟨written, more, rfl, rfl, hmore⟩ := List.map_eq_append_iff.mp htail
      refine .inr ⟨written, more, rfl, ?_, hcut.trans ?_⟩
      · rintro rfl
        cases hmore
      · rw [List.foldl_cons, foldl_append_calls, List.nil_append]

section
variable {P : Files → Prop} {S : SerdeJson} {D : Dpapi}

theorem called_triple (e : IoError) :
    Triple (fun _ => True) P (called e) (fun _ => P) (fun _ => P) P :=
  .step (fun _ hd => hd) (fun _ _ hd => hd) (fun _ _ hd => hd)

theorem writeTemporary_triple (bytes : Bytes) :
    Triple (fun _ => True) (fun files => files.directory = true ∧ files.identity = old)
      (writeFile .temporary bytes)
      (fun _ files => files.temporary = some bytes ∧ files.identity = old)
        (fun _ files => files.identity = old)
      (fun files => files.identity = old) := by
  intro files fates hfiles hA
  rcases writeFile_cases hfiles.1 .temporary bytes fates with ⟨rest, h⟩ | ⟨r, rest, hr, hcut⟩
  · rw [h]
    exact ⟨⟨rfl, hfiles.2⟩, fun _ _ => trivial⟩
  · obtain ⟨files', hold, h⟩ : ∃ files', files'.identity = old ∧
        writeFile .temporary bytes files fates = (r, files', rest) := by
      rcases hcut with h | ⟨written, more, -, -, h⟩
      · exact ⟨files, hfiles.2, h⟩
      · exact ⟨files.set (some written) .temporary, hfiles.2, h⟩
    rw [h]
    cases r with
    | ok => exact absurd rfl hr
    | raised e => exact ⟨hold, fun _ _ => trivial⟩
    | crashed => exact hold

theorem readFile_triple :
    Triple (fun _ => True) P readFile
      (fun bytes files => files.identity = some bytes ∧ P files) (fun _ => P) P := by
  refine .bind (called_triple _) fun _ => .bind .read fun files => ?_
  split
  · exact .pure fun _ hd => ⟨hd.1 ▸ ‹_›, hd.2⟩
  · exact .throw fun _ hd => hd.2

theorem pathExists_triple : Triple (fun _ => True) P pathExists (fun _ => P) (fun _ => P) P := by
  refine .catching (.bind (called_triple _) fun _ => .bind .read fun _ => ?_) fun _ =>
    .pure fun _ hd => hd
  exact .pure fun _ hd => hd.2

theorem loadOrCreate_eval (h : files.identity = some bytes) :
    loadOrCreate S save plaintext fresh files [] =
      (plaintext bytes >>= readIdentity S) files [] := by
  have hexists : pathExists files [] = (.ok true, files, []) := by
    show (Faults.Result.ok files.identity.isSome, files, []) = _
    rw [h]
    rfl
  have hfile : readFile files [] = (.ok bytes, files, []) := by
    refine (Prog.bind_of_ok _ rfl).trans ?_
    rw [Prog.read_bind, id_eq, h]
    rfl
  refine (Prog.bind_of_ok _ hexists).trans ?_
  rw [if_pos rfl]
  exact Prog.bind_of_ok _ hfile

namespace WindowsCredentialStore

theorem crypt_triple (e : IoError) (f : Bytes → Option Bytes) (bytes : Bytes) :
    Triple (fun _ => True) P (crypt e f bytes)
      (fun result files => bytes.length < 2 ^ 32 ∧ f bytes = some result ∧ P files)
      (fun _ => P) P := by
  unfold crypt
  split
  · rename_i hlength
    refine .bind (called_triple e) fun _ => ?_
    split
    · exact .pure fun _ hd => ⟨hlength, ‹_›, hd⟩
    · exact .throw fun _ hd => hd
  · exact .throw fun _ hd => hd

theorem save_triple (old : Option Bytes) (identity : HostIdentity) (draw : Bytes) :
    Triple (fun _ => True) (fun files => files.identity = old) (save S D draw identity)
      (fun _ files => ∃ blob, files.identity = some blob ∧
        D.protect draw (S.toVec identity) = some blob)
      (fun _ files => files.identity = old) (fun files => files.identity = old) := by
  have hcreate : Triple (fun _ => True) (fun files => files.identity = old) createDirAll
      (fun _ files => files.directory = true ∧ files.identity = old)
      (fun _ files => files.identity = old)
      (fun files => files.identity = old) :=
    .step (fun _ hd => ⟨rfl, hd⟩) (fun _ _ hd => hd) (fun _ _ hd => hd)
  refine .bind hcreate fun _ => ?_
  refine .bind (Q := fun blob files => D.protect draw (S.toVec identity) = some blob ∧
    files.directory = true ∧
    files.identity = old) ((crypt_triple _ _ _).mono (fun _ hd => hd) (fun _ _ hd => hd.2)
      (fun _ _ hd => hd.2) fun _ hd => hd.2) fun blob => ?_
  refine .at_store fun files hfiles => ?_
  obtain ⟨hblob, hready⟩ := hfiles
  refine .bind ((writeTemporary_triple blob).mono (fun _ hd => hd ▸ hready) (fun _ _ hd => hd)
    (fun _ _ hd => hd) fun _ hd => hd) fun _ => ?_
  exact .step (fun _ hd => ⟨blob, hd.1, hblob⟩) (fun _ _ hd => hd.2) (fun _ _ hd => hd.2)

def Holds (S : SerdeJson) (D : Dpapi) (files : Files) (identity : HostIdentity) : Prop :=
  ∃ blob document, files.identity = some blob ∧ blob.length < 2 ^ 32 ∧ D.unprotect blob =
    some document ∧ S.fromSlice document = some identity

theorem holds_of_saved (hcreated : identity.pairingCreatedAt < 2 ^ 64)
    (h : ∃ blob, files.identity = some blob ∧ D.protect draw (S.toVec identity) = some blob) :
    Holds S D files identity := by
  obtain ⟨blob, hblob, hprotect⟩ := h
  obtain ⟨hlength, hopens⟩ := D.opens hprotect
  exact ⟨blob, _, hblob, hlength, hopens, S.reads hcreated⟩

theorem loadFile_triple :
    Triple (fun _ => True) P (loadFile S (unprotect D))
      (fun i files => Holds S D files i ∧ P files) (fun _ => P) P := by
  refine .bind readFile_triple fun blob => .at_store fun files hfiles => ?_
  refine .bind ((crypt_triple _ _ blob).mono (fun _ hd => hd) (fun _ _ hd => hd)
    (fun _ _ hd => hd ▸ hfiles.2)
    fun _ hd => hd ▸ hfiles.2) fun document => .at_store fun files' hdocument => ?_
  obtain ⟨hlength, hopens, rfl⟩ := hdocument
  unfold readIdentity
  split
  · exact .pure fun _ hd => hd ▸ ⟨⟨blob, document, hfiles.1, hlength, hopens, ‹_›⟩, hfiles.2⟩
  · exact .throw fun _ hd => hd ▸ hfiles.2

theorem Holds.unique (h : Holds S D files identity) (h' : Holds S D files identity') :
    identity = identity' := by
  obtain ⟨blob, document, hblob, -, hopens, hread⟩ := h
  obtain ⟨blob', document', hblob', -, hopens', hread'⟩ := h'
  obtain rfl := Option.some.inj (hblob.symm.trans hblob')
  obtain rfl := Option.some.inj (hopens.symm.trans hopens')
  exact Option.some.inj (hread.symm.trans hread')

theorem loadOrCreate_triple (hcreated : fresh.pairingCreatedAt < 2 ^ 64) (draw : Bytes) :
    Triple (fun _ => True) (fun _ => True) ((store S D).loadOrCreate fresh draw)
      (fun i files => Holds S D files i)
      (fun _ _ => True) (fun _ => True) := by
  refine .bind pathExists_triple fun found => ?_
  split
  · exact loadFile_triple.mono (fun _ hd => hd) (fun _ _ hd => hd.1)
      (fun _ _ hd => hd) fun _ hd => hd
  · refine .at_store fun files _ => ?_
    refine .bind ((save_triple _ fresh draw).mono (fun _ hd => congrArg Files.identity hd)
      (fun _ _ hd => hd) (fun _ _ _ => trivial) fun _ _ => trivial) fun _ => ?_
    exact .pure fun _ hd => holds_of_saved hcreated hd

theorem loadOrCreate_holds (h : Holds S D files identity) (hprobe : fates.head? ≠ some .raises)
    (hrun : (store S D).loadOrCreate fresh draw files fates = (result, files', rest)) :
    files' = files ∧ ∀ i, result = .ok i → i = identity := by
  have hsome : files.identity.isSome = true := by
    obtain ⟨blob, -, hblob, -⟩ := h
    rw [hblob]
    rfl
  rcases pathExists_cases hprobe files with ⟨fates', hexists⟩ | ⟨fates', hexists⟩
  · have hload : (store S D).loadOrCreate fresh draw files fates = loadFile S
        (unprotect D) files fates' := by
      refine (Prog.bind_of_ok _ hexists).trans ?_
      rw [if_pos hsome]
    have htriple : Triple (fun _ => True) (· = files) (loadFile S (unprotect D))
      (fun i files' => Holds S D files' i ∧
      files' = files) (fun _ => (· = files)) (· = files) := loadFile_triple
    rw [hrun] at hload
    refine ⟨?_, ?_⟩
    · have hleaves : (loadFile S (unprotect D) files fates').2.1 = files :=
        htriple.leaves (R := (· = files)) rfl (fun _ _ => trivial)
          (fun _ _ hd => hd.2) (fun _ _ hd => hd)
          fun _ hd => hd
      rw [← hload] at hleaves
      exact hleaves
    · rintro i rfl
      obtain ⟨hi, rfl⟩ := htriple.of_ok rfl (fun _ _ => trivial) hload.symm
      exact hi.unique h
  · have hcrash := (Prog.bind_of_crashed _ hexists).symm.trans hrun
    cases hcrash
    exact ⟨rfl, nofun⟩

theorem loadOrCreate_readable (h : Holds S D files identity) :
    (store S D).loadOrCreate fresh draw files [] = (.ok identity, files, []) := by
  obtain ⟨blob, document, hblob, hlength, hopens, hread⟩ := h
  have hcrypt : unprotect D blob files [] = (.ok document, files, []) := by
    rw [unprotect, crypt, if_pos hlength]
    refine (Prog.bind_of_ok _ rfl).trans ?_
    rw [hopens]
    rfl
  refine (loadOrCreate_eval hblob).trans ((Prog.bind_of_ok _ hcrypt).trans ?_)
  rw [readIdentity, hread]
  rfl

theorem save_holds (h : Holds S D files identity) (hcreated : updated.pairingCreatedAt < 2 ^ 64)
    (hrun : (store S D).save updated draw files fates = (result, files', rest)) :
    Holds S D files' (if result = .ok () then updated else identity) := by
  have hsave :=
    save_triple (S := S) (D := D) files.identity updated draw files fates rfl fun _ _ => trivial
  rw [show save S D draw updated files fates = (result, files', rest) from hrun] at hsave
  obtain ⟨blob, document, hblob, hopens⟩ := h
  cases result with
  | ok => exact holds_of_saved hcreated hsave.1
  | raised e => exact ⟨blob, document, hsave.1.trans hblob, hopens⟩
  | crashed => exact ⟨blob, document, Eq.trans hsave hblob, hopens⟩

theorem store_keeps (S : SerdeJson) (D : Dpapi) : (store S D).Keeps (Holds S D) where
  opened hcreated hrun := (loadOrCreate_triple hcreated _).of_ok trivial (fun _ _ => trivial) hrun
  reopened := loadOrCreate_holds
  readable := loadOrCreate_readable
  saved := save_holds
  created h := by
    obtain ⟨_, _, _, _, _, hread⟩ := h
    exact S.created hread

theorem save_eval (hlength : (S.toVec identity).length < 2 ^ 32)
    (hprotect : D.protect draw (S.toVec identity) = some blob) (files : Files) :
    save S D draw identity files [] = (.ok (), ⟨true, some blob, none⟩, []) := by
  have hcrypt : protect D draw (S.toVec identity) { files with directory := true } [] =
      (.ok blob, { files with directory := true }, []) := by
    rw [protect, crypt, if_pos hlength]
    refine (Prog.bind_of_ok _ rfl).trans ?_
    rw [hprotect]
    rfl
  have hwrite : writeFile .temporary blob { files with directory := true } [] =
      (.ok (), ⟨true, files.identity, some blob⟩, []) := by
    rw [writeFile_eval rfl, Prog.steps_nil, foldl_writeCalls]
    rfl
  refine (Prog.bind_of_ok _ rfl).trans ((Prog.bind_of_ok _ hcrypt).trans ?_)
  exact Prog.bind_of_ok _ hwrite

/-- Where `Path::exists` fails, whatever becomes of the calls after it: a load that
succeeds has put another identity in the place of the stored one, and one that does
not has left that. With the calls all working it succeeds. -/
theorem failed_probe_replaces_identity (hcreated : fresh.pairingCreatedAt < 2 ^ 64)
    (hrun : (store S D).loadOrCreate fresh draw files (.raises :: fates) = (result, files', rest)) :
    (∀ identity, result = .ok identity → identity = fresh ∧ Holds S D files' fresh) ∧
      ((∀ identity, result ≠ .ok identity) → files'.identity = files.identity) ∧
      (fates = [] → (S.toVec fresh).length < 2 ^ 32 → (D.protect draw (S.toVec fresh)).isSome →
        result = .ok fresh) := by
  have hprobe : pathExists files (.raises :: fates) = (.ok false, files, fates) := rfl
  have hload : (save S D draw fresh >>= fun _ => pure fresh) files fates = (result, files', rest) :=
    (Prog.bind_of_ok _ hprobe).symm.trans hrun
  have htriple : Triple (fun _ => True) (fun d => d.identity = files.identity)
      (save S D draw fresh >>= fun _ => pure fresh)
      (fun identity d => identity = fresh ∧ Holds S D d fresh)
        (fun _ d => d.identity = files.identity)
      (fun d => d.identity = files.identity) :=
    .bind (save_triple _ fresh draw) fun _ => .pure fun _ hd => ⟨rfl, holds_of_saved hcreated hd⟩
  refine ⟨?_, ?_, ?_⟩
  · rintro identity rfl
    exact htriple.of_ok rfl (fun _ _ => trivial) hload
  · intro hfailed
    have hleft := htriple files fates rfl fun _ _ => trivial
    rw [hload] at hleft
    cases result with
    | ok identity => exact absurd rfl (hfailed identity)
    | raised e => exact hleft.1
    | crashed => exact hleft
  · rintro rfl hlength hprotect
    obtain ⟨blob, hblob⟩ := Option.isSome_iff_exists.mp hprotect
    have hsaved := (Prog.bind_of_ok _ (save_eval hlength hblob files)).symm.trans hload
    exact (Prod.mk.inj hsaved).1.symm

/-- A host that was paired. -/
theorem paired_host_is_replaced :
    ∃ files, (store .packed .plain).loadOrCreate (.new (repeated 16 2) 123456 1000) []
        ⟨true, some (SerdeJson.packed.toVec ⟨repeated 16 1, some (repeated 32 7),
          none, 0, [], none⟩), none⟩
        [.raises] = (.ok (.new (repeated 16 2) 123456 1000), files, []) ∧
      Holds .packed .plain files (.new (repeated 16 2) 123456 1000) := by
  have hrun : (store .packed .plain).loadOrCreate (.new (repeated 16 2) 123456 1000) []
      ⟨true, some (SerdeJson.packed.toVec
        ⟨repeated 16 1, some (repeated 32 7), none, 0, [], none⟩), none⟩
      [.raises] = (.ok (.new (repeated 16 2) 123456 1000),
        ⟨true, some (SerdeJson.packed.toVec (.new (repeated 16 2) 123456 1000)), none⟩, []) := by
    decide +kernel
  obtain ⟨hreplaced, -⟩ := failed_probe_replaces_identity (show 1000 < 2 ^ 64 by decide) hrun
  exact ⟨_, hrun, (hreplaced _ rfl).2⟩

end WindowsCredentialStore

end

-- ---------------------------------------------------------------------------
-- The store for development
-- ---------------------------------------------------------------------------

namespace DevelopmentStore

variable {S : SerdeJson}

theorem load_eval (h : files.identity = some bytes) :
    (store S).loadOrCreate fresh draw files [] = readIdentity S bytes files [] :=
  loadOrCreate_eval h

theorem save_cases (identity : HostIdentity) (draw : Bytes) (files : Files) (fates : List Fate) :
    (∃ rest, (store S).save identity draw files fates =
      (.ok (), { files with identity := some (S.toVec identity) }, rest)) ∨
      ∃ r rest, r ≠ .ok () ∧ ((store S).save identity draw files fates = (r, files, rest) ∨
        ∃ written more, S.toVec identity = written ++ more ∧ more ≠ [] ∧
          (store S).save identity draw files fates =
            (r, { files with identity := some written }, rest)) := by
  by_cases hd : files.directory = true
  · exact writeFile_cases hd .identity (S.toVec identity) fates
  · refine .inr ⟨.raised (.call .write), fates, nofun, .inl ?_⟩
    show writeFile .identity (S.toVec identity) files fates = _
    rw [writeFile, Prog.read_bind, if_neg hd]
    rfl

/-- A save that does not end has done nothing, or leaves a file that is refused:
it is never taken for an identity, nor replaced. -/
theorem interrupted_save_is_refused (hcreated : identity.pairingCreatedAt < 2 ^ 64)
    (hrun : (store S).save identity draw files fates = (result, files', rest)) :
    (result = .ok () ∧ ∀ fresh draw, (store S).loadOrCreate fresh draw files' [] = (.ok identity,
      files', [])) ∨ result ≠ .ok () ∧ (files' = files ∨
        ∀ fresh draw, (store S).loadOrCreate fresh draw files' [] =
          (.raised .document, files', [])) := by
  rcases save_cases identity draw files fates with
    ⟨rest', h⟩ | ⟨r, rest', hr, h | ⟨written, more, htorn, hmore, h⟩⟩
  all_goals
    rw [hrun] at h
    cases h
  · refine .inl ⟨rfl, fun fresh draw => (load_eval rfl).trans ?_⟩
    rw [readIdentity, S.reads hcreated]
    rfl
  · exact .inr ⟨hr, .inl rfl⟩
  · refine .inr ⟨hr, .inr fun fresh draw => (load_eval rfl).trans ?_⟩
    rw [readIdentity, S.cut htorn hmore]
    rfl

/-- The process ends in the middle of the first save. -/
theorem crashed_save_is_refused :
    ∃ files, (store .packed).save (.new (repeated 16 1) 123456 1700000000) [] ⟨true, none, none⟩
      (plan 5 .crashes) =
        (.crashed, files, []) ∧
      ∀ fresh draw, (store .packed).loadOrCreate fresh draw files [] =
        (.raised .document, files, []) := by
  have hrun : (store .packed).save (.new (repeated 16 1) 123456 1700000000) [] ⟨true, none, none⟩
    (plan 5 .crashes) =
      (.crashed, ⟨true, some [1, 1, 1, 1], none⟩, []) := by decide +kernel
  refine ⟨_, hrun, ?_⟩
  rcases interrupted_save_is_refused (by decide) hrun with ⟨hok, -⟩ | ⟨-, hsame | hrefused⟩
  · cases hok
  · cases hsame
  · exact hrefused

end DevelopmentStore

end DeckyMyRig.Host
