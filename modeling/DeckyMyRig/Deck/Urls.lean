import DeckyMyRig.Deck.Client
import DeckyMyRig.Deck.ValidationLaws
import DeckyMyRig.Lib.Checked

/-!
# URLs of requests

How `urllib.request.Request` and `http.client.HTTPConnection` take a URL apart,
and what they make of the URLs that `HostClient._post` builds.
-/

namespace DeckyMyRig.Deck

open Octets Texts

/-- `urllib.parse.unquote`, which only looks at escapes. -/
structure Unquote where
  apply : Text → Text
  plain : ∀ s, '%' ∉ s → apply s = s

def unwrap (url : Text) : Text :=
  let url := strip isSpace url
  let url :=
    if url.head? = some '<' ∧ url.getLast? = some '>' then strip isSpace url.tail.dropLast else url
  if url.take 4 = "URL:".toList then strip isSpace (url.drop 4) else url

/-- `_splittag`, without the fragment. -/
def splitTag (url : Text) : Text :=
  match rpartition '#' url with
  | some (path, _) => path
  | none => url

/-- `_splittype`: `([^/:]+):(.*)` -/
def splitType (url : Text) : Option Text × Text :=
  let scheme := url.takeWhile fun c => c ≠ '/' && c ≠ ':'
  match url.dropWhile fun c => c ≠ '/' && c ≠ ':' with
  | ':' :: data => if scheme.isEmpty then (none, url) else (some (scheme.map Char.toLower), data)
  | _ => (none, url)

/-- `_splithost`: `//([^/#?]*)(.*)` -/
def splitHost : Text → Option Text × Text
  | '/' :: '/' :: rest =>
    let path := rest.dropWhile fun c => c ≠ '/' && c ≠ '#' && c ≠ '?'
    (some (rest.takeWhile fun c => c ≠ '/' && c ≠ '#' && c ≠ '?'),
      if path ≠ [] ∧ path.head? ≠ some '/' then '/' :: path else path)
  | url => (none, url)

structure Target where
  host : Text
  port : Int
  selector : Text
  deriving DecidableEq

def httpPort : Int := 80

def getHostport (host : Text) : Except Raised (Text × Int) := do
  let (host, port) ←
    match rpartition ':' host with
    | some (before, after) =>
      -- `host.rfind(':') > host.rfind(']')`
      if ']' ∈ after then .ok (host, httpPort)
      else
        match pyInt after with
        | some port => .ok (before, port)
        | none => if after.isEmpty then .ok (before, httpPort) else .error .http
    | none => .ok (host, httpPort)
  .ok (if host.head? = some '[' ∧ host.getLast? = some ']' then host.tail.dropLast else host, port)

/-- `[\x00-\x20\x7f]`, which `http.client` refuses in a host and in a path. -/
def isDisallowed (c : Char) : Bool := c.toNat ≤ 32 || c.toNat = 127

/-- The target of `urlopen(Request(url))`, for a URL of the scheme `http` and
without a proxy. -/
def requestTarget (L : Libraries) (Q : Unquote) (url : Text) : Except Raised Target :=
  match splitType (splitTag (unwrap url)) with
  | (some scheme, rest) =>
    if scheme ≠ "http".toList then .error .os
    else
      match splitHost rest with
      | (some [], _) | (none, _) => .error .os
      | (some host, selector) => do
        let (host, port) ← getHostport (Q.apply host)
        if host.any isDisallowed || selector.any isDisallowed then .error .http
        else .ok { host, port, selector }
  | (none, _) => .error (.value ("unknown url type: ".toList ++ L.repr (unwrap url)))

-- ---------------------------------------------------------------------------
-- URLs of the client
-- ---------------------------------------------------------------------------

def isAddressChar (c : Char) : Bool := c.isAlphanum || c = '-' || c = '.'

structure PlainPath (path : Text) : Prop where
  head : path.head? = some '/'
  noFragment : '#' ∉ path
  printable : ∀ c ∈ path, 33 ≤ c.toNat ∧ c.toNat ≤ 126

def HostClient.paths : List Text :=
  [HostClient.statusPath, HostClient.pairPath, HostClient.shutdownPath]

/-- 1 to 63 letters, digits and hyphens, with a letter or digit at both ends. -/
structure HostLabel (label : Text) : Prop where
  length : 1 ≤ label.length ∧ label.length ≤ 63
  chars : ∀ c ∈ label, c.isAlphanum = true ∨ c = '-'
  first : ∀ c ∈ label.head?, c.isAlphanum = true
  last : ∀ c ∈ label.getLast?, c.isAlphanum = true

def Hostname (address : Text) : Prop :=
  ∃ labels, labels ≠ [] ∧ address = ['.'].intercalate labels ∧ ∀ label ∈ labels, HostLabel label

-- ---------------------------------------------------------------------------
-- Taking a URL apart
-- ---------------------------------------------------------------------------

theorem scheme_eq : "http://".toList = ['h', 't', 't', 'p', ':', '/', '/'] := by decide

theorem url_eq (device : Device) (path : Text) : HostClient.url device path =
    ['h', 't', 't', 'p', ':', '/', '/'] ++
      (device.address ++ ':' :: Nat.toDigits 10 device.port ++ path) := by
  have hurl : HostClient.url device path =
      "http://".toList ++ device.address ++ ':' :: (toString device.port).toList ++ path := rfl
  rw [hurl, scheme_eq, Decimals.toString_toList]
  simp only [List.append_assoc]

theorem unwrap_http (hlast : ∀ c ∈ rest.getLast?, isSpace c = false) (hne : rest ≠ []) :
    unwrap ('h' :: 't' :: 't' :: 'p' :: rest) = 'h' :: 't' :: 't' :: 'p' :: rest := by
  have hstrip : strip isSpace ('h' :: 't' :: 't' :: 'p' :: rest) =
      'h' :: 't' :: 't' :: 'p' :: rest := by
    refine strip_eq_self (fun c hc => by cases hc; decide) ?_
    intro c hc
    refine hlast c ?_
    simpa [List.getLast?_cons, List.getLast?_eq_some_getLast hne] using hc
  have htake : ('h' :: 't' :: 't' :: 'p' :: rest).take 4 ≠ "URL:".toList := by
    rw [List.take_succ_cons]
    exact fun h => absurd (List.cons.inj h).1 (by decide)
  simp only [unwrap]
  rw [hstrip]
  simp only [List.head?_cons, Option.some.injEq, Char.reduceEq, false_and, ↓reduceIte]
  rw [if_neg htake]

theorem splitTag_of_not_mem (h : '#' ∉ url) : splitTag url = url := by
  rw [splitTag, rpartition_of_not_mem h]

theorem splitType_http (rest : Text) :
    splitType ('h' :: 't' :: 't' :: 'p' :: ':' :: rest) = (some "http".toList, rest) := by
  rfl

theorem splitHost_authority (hauthority : ∀ c ∈ authority, c ≠ '/' ∧ c ≠ '#' ∧ c ≠ '?')
    (hpath : path.head? = some '/') :
    splitHost ('/' :: '/' :: (authority ++ path)) = (some authority, path) := by
  have hfront : ∀ c ∈ authority, (c ≠ '/' && c ≠ '#' && c ≠ '?') = true := fun c hc => by
    simpa [and_assoc] using hauthority c hc
  have hback : ∀ c ∈ path.head?, (c ≠ '/' && c ≠ '#' && c ≠ '?') = false := by
    intro c hc
    rw [hpath] at hc
    cases hc
    rfl
  obtain ⟨htake, hdrop⟩ := takeWhile_dropWhile_append hfront hback
  simp only [splitHost]
  rw [htake, hdrop, if_neg fun h => h.2 hpath]

theorem getHostport_authority (hhost : host.head? ≠ some '[') (port : Nat) :
    getHostport (host ++ ':' :: Nat.toDigits 10 port) = .ok (host, (port : Int)) := by
  have hdigit : ∀ c ∈ Nat.toDigits 10 port, c.isDigit = true := fun c hc =>
    Nat.isDigit_of_mem_toDigits (by decide) (by decide) hc
  have hcolon : ':' ∉ Nat.toDigits 10 port := fun h => by cases hdigit _ h
  have hbracket : ']' ∉ Nat.toDigits 10 port := fun h => by cases hdigit _ h
  simp only [getHostport, rpartition_append hcolon, pyInt_toDigits]
  rw [if_neg hbracket]
  simp [hhost, Bind.bind, Except.bind]

theorem isAddressChar_ne {c d : Char} (h : isAddressChar c = true) (hd : isAddressChar d = false) :
    c ≠ d := by
  rintro rfl
  rw [h] at hd
  cases hd

theorem isAddressChar_printable {c : Char} (h : isAddressChar c = true) :
    33 ≤ c.toNat ∧ c.toNat ≤ 126 := by
  simp only [isAddressChar, Bool.or_eq_true, decide_eq_true_eq] at h
  rcases h with (h | rfl) | rfl
  · have := alphanum_range h
    omega
  · decide
  · decide

theorem not_disallowed {s : Text} (h : ∀ c ∈ s, 33 ≤ c.toNat ∧ c.toNat ≤ 126) :
    s.any isDisallowed = false := by
  rw [List.any_eq_false]
  intro c hc
  have := h c hc
  simp only [isDisallowed, Bool.or_eq_true, decide_eq_true_eq, not_or]
  omega

theorem authority_ne {address : Text} (port : Nat)
    (haddress : ∀ c ∈ address, isAddressChar c = true)
    (hd : isAddressChar d = false) (hcolon : d ≠ ':') :
    ∀ c ∈ address ++ ':' :: Nat.toDigits 10 port, c ≠ d := by
  intro c hc
  rcases List.mem_append.mp hc with hc | hc
  · exact isAddressChar_ne (haddress c hc) hd
  · rcases List.mem_cons.mp hc with rfl | hc
    · exact hcolon.symm
    · have hdigit : c.isDigit = true := Nat.isDigit_of_mem_toDigits (by decide) (by decide) hc
      exact isAddressChar_ne (by simp [isAddressChar, Char.isAlphanum, hdigit]) hd

theorem PlainPath.last (hpath : PlainPath path) (authority : Text) :
    ∀ c ∈ (':' :: '/' :: '/' :: (authority ++ path)).getLast?, isSpace c = false := by
  have hne : path ≠ [] := by
    intro h
    have := hpath.head
    rw [h] at this
    cases this
  intro c hc
  have hc : c ∈ path := by
    rw [List.getLast?_cons, List.getLast?_cons, List.getLast?_cons, List.getLast?_append,
      List.getLast?_eq_some_getLast hne] at hc
    cases hc
    exact List.getLast_mem hne
  obtain ⟨hlow, hhigh⟩ := hpath.printable c hc
  exact isSpace_of_range (by omega) (by omega)

theorem requestTarget_url (L : Libraries) (Q : Unquote) (device : Device)
    (hne : device.address ≠ [])
    (haddress : ∀ c ∈ device.address, isAddressChar c = true) (hpath : PlainPath path) :
    requestTarget L Q (HostClient.url device path) = .ok ⟨device.address, device.port, path⟩ := by
  have hother (d : Char) (hd : isAddressChar d = false) (hcolon : d ≠ ':') :=
    authority_ne device.port haddress hd hcolon
  -- nothing is unwrapped, and there is no fragment
  have htag : '#' ∉ 'h' :: 't' :: 't' :: 'p' :: ':' :: '/' :: '/' ::
      (device.address ++ ':' :: Nat.toDigits 10 device.port ++ path) := by
    simp only [List.mem_cons, Char.reduceEq, false_or, List.mem_append (t := path), not_or]
    exact ⟨fun h => hother '#' (by decide) (by decide) '#' h rfl, hpath.noFragment⟩
  have hhost : splitHost ('/' :: '/' ::
      (device.address ++ ':' :: Nat.toDigits 10 device.port ++ path)) =
        (some (device.address ++ ':' :: Nat.toDigits 10 device.port), path) :=
    splitHost_authority (fun c hc => ⟨hother '/' (by decide) (by decide) c hc,
      hother '#' (by decide) (by decide) c hc, hother '?' (by decide) (by decide) c hc⟩) hpath.head
  have hunquote : Q.apply (device.address ++ ':' :: Nat.toDigits 10 device.port) =
      device.address ++ ':' :: Nat.toDigits 10 device.port :=
    Q.plain _ fun h => hother '%' (by decide) (by decide) '%' h rfl
  have hbracket : device.address.head? ≠ some '[' := by
    intro h
    exact isAddressChar_ne (haddress '[' (List.mem_of_mem_head? h)) (by decide) rfl
  have hallowed : (device.address.any isDisallowed || path.any isDisallowed) = false := by
    rw [not_disallowed fun c hc => isAddressChar_printable (haddress c hc),
      not_disallowed hpath.printable]
    rfl
  rw [url_eq]
  simp only [List.cons_append, List.nil_append, requestTarget]
  rw [unwrap_http (hpath.last _) (by simp), splitTag_of_not_mem htag, splitType_http]
  simp only [ne_eq, not_true_eq_false, ↓reduceIte]
  rw [hhost]
  cases haddr : device.address with
  | nil => exact absurd haddr hne
  | cons c rest =>
    simp only [List.cons_append]
    rw [← List.cons_append, ← haddr, hunquote, getHostport_authority hbracket]
    simp only [Checked.ok_bind, hallowed]
    rfl

-- ---------------------------------------------------------------------------
-- Addresses
-- ---------------------------------------------------------------------------

theorem hostLabel_iff : HostLabel label ↔ isLabel label = true := by
  cases label with
  | nil => exact iff_of_false (fun h => by simpa using h.length.1) (by decide)
  | cons c rest =>
    have hlast : (c :: rest).getLast? = some ((c :: rest).getLast (List.cons_ne_nil c rest)) :=
      List.getLast?_eq_some_getLast _
    have hlabel : isLabel (c :: rest) = true ↔
      (((1 ≤ (c :: rest).length ∧ (c :: rest).length ≤ 63) ∧
        c.isAlphanum = true) ∧ ((c :: rest).getLast (List.cons_ne_nil c rest)).isAlphanum = true) ∧
        ∀ d ∈ c :: rest, d.isAlphanum = true ∨ d = '-' := by
      simp only [isLabel, Bool.and_eq_true, decide_eq_true_eq, hlast, List.head?_cons,
        Option.any_some, List.all_eq_true, Bool.or_eq_true]
    rw [hlabel]
    constructor
    · rintro ⟨hlength, hchars, hfirst, hend⟩
      exact ⟨⟨⟨hlength, hfirst c rfl⟩, hend _ hlast⟩, hchars⟩
    · rintro ⟨⟨⟨hlength, hfirst⟩, hend⟩, hchars⟩
      refine ⟨hlength, hchars, ?_, ?_⟩
      · rintro d ⟨⟩
        exact hfirst
      · intro d hd
        rw [hlast] at hd
        cases hd
        exact hend

theorem hostname_iff : Hostname address ↔ (address.splitOn '.').all isLabel = true := by
  constructor
  · rintro ⟨labels, hne, rfl, hlabels⟩
    have hdot : ∀ label ∈ labels, '.' ∉ label := by
      intro label hl hmem
      rcases (hlabels label hl).chars '.' hmem with h | h <;> cases h
    rw [List.splitOn_intercalate '.' hdot hne, List.all_eq_true]
    exact fun label hl => hostLabel_iff.mp (hlabels label hl)
  · intro h
    rw [List.all_eq_true] at h
    exact ⟨address.splitOn '.', List.splitOn_ne_nil _ _, (List.intercalate_splitOn '.').symm,
      fun label hl => hostLabel_iff.mpr (h label hl)⟩

theorem hostname_of_isIPv4 (h : isIPv4 address = true) : Hostname address := by
  simp only [isIPv4, Bool.and_eq_true, List.all_eq_true] at h
  rw [hostname_iff, List.all_eq_true]
  intro octet ho
  have hoctet := h.2 octet ho
  simp only [isOctet, Bool.and_eq_true, List.all_eq_true, Bool.not_eq_true',
    List.isEmpty_eq_false_iff, decide_eq_true_eq] at hoctet
  obtain ⟨⟨⟨⟨hne, hdigits⟩, hlength⟩, -⟩, -⟩ := hoctet
  have halnum : ∀ c ∈ octet, c.isAlphanum = true := fun c hc => by
    simp [Char.isAlphanum, hdigits c hc]
  refine hostLabel_iff.mp ⟨⟨List.length_pos_iff.mpr hne, by omega⟩, fun c hc =>
    .inl (halnum c hc), ?_, ?_⟩
  · exact fun c hc => halnum c (List.mem_of_mem_head? hc)
  · exact fun c hc => halnum c (List.mem_of_mem_getLast? hc)

theorem Hostname.chars (h : Hostname address) : ∀ c ∈ address, isAddressChar c = true := by
  obtain ⟨labels, -, rfl, hlabels⟩ := h
  intro c hc
  rcases mem_intercalate hc with rfl | ⟨label, hl, hc⟩
  · rfl
  · rcases (hlabels label hl).chars c hc with h | rfl
    · simp [isAddressChar, h]
    · rfl

theorem Hostname.ne_nil (h : Hostname address) : address ≠ [] := labels_ne_nil (hostname_iff.mp h)

theorem validateAddress_ok (h : validateAddress py value = .ok address) :
    Hostname address ∧ address.length ≤ 253 := by
  unfold validateAddress at h
  simp only at h
  split at h
  · cases h
  · rename_i hcond
    simp only [not_or, Nat.not_lt] at hcond
    obtain ⟨-, hlen, -⟩ := hcond
    split at h
    · rename_i hip
      cases h
      exact ⟨hostname_of_isIPv4 hip, hlen⟩
    · split at h
      · rename_i hlabels
        cases h
        exact ⟨hostname_iff.mpr hlabels, (length_removeDot_le _).trans hlen⟩
      · cases h

theorem validateAddress_accepts (py : Python) (h : Hostname address) (hdot : dot = [] ∨ dot = ['.'])
    (hlen : (address ++ dot).length ≤ 253) (hbefore : ∀ c ∈ before, isSpace c = true)
    (hafter : ∀ c ∈ after, isSpace c = true) :
    validateAddress py (.str (before ++ (address ++ dot ++ after))) = .ok address := by
  have hchars : ∀ c ∈ address ++ dot, isSpace c = false := by
    intro c hc
    rcases List.mem_append.mp hc with hc | hc
    · obtain ⟨hlow, hhigh⟩ := isAddressChar_printable (h.chars c hc)
      exact isSpace_of_range hlow hhigh
    · rcases hdot with rfl | rfl
      · cases hc
      · cases List.mem_singleton.mp hc
        rfl
  have hne : address ++ dot ≠ [] := by simp [h.ne_nil]
  have hremove : removeDot (address ++ dot) = address := by
    rcases hdot with rfl | rfl
    · rw [List.append_nil]
      exact labels_removeDot (hostname_iff.mp h)
    · rw [removeDot, List.getLast?_concat, if_pos rfl, List.dropLast_concat]
  have hcond : ¬ ((address ++ dot).isEmpty = true ∨ (address ++ dot).length > 253 ∨
      (address ++ dot).any isSpace = true) := by
    rintro (hempty | hlong | hany)
    · exact hne (List.isEmpty_iff.mp hempty)
    · omega
    · obtain ⟨c, hc, hs⟩ := List.any_eq_true.mp hany
      rw [hchars c hc] at hs
      cases hs
  unfold validateAddress
  simp only [strOr_str py (show before ++ (address ++ dot ++ after) ≠ [] by simp [h.ne_nil]),
    strip_append hbefore hafter hne hchars]
  rw [if_neg hcond]
  split
  · rename_i hip
    -- an IPv4 address does not end in a dot
    have hdots := labels_removeDot (hostname_iff.mp (hostname_of_isIPv4 hip))
    rw [← hdots, hremove]
  · rw [hremove, if_pos (hostname_iff.mp h)]

theorem paths_plain : ∀ path ∈ HostClient.paths, PlainPath path := by
  intro path h
  have hchars : (HostClient.paths.all fun path => path.head? = some '/' && '#' ∉ path &&
      path.all fun c => 33 ≤ c.toNat && c.toNat ≤ 126) = true := by decide +kernel
  have := List.all_eq_true.mp hchars path h
  simp only [Bool.and_eq_true, decide_eq_true_eq, List.all_eq_true] at this
  exact ⟨this.1.1, this.1.2, this.2⟩

def plainUnquote : Unquote := ⟨id, fun _ _ => rfl⟩

def anyPython : Python where
  loads _ := none
  dumps _ := []
  repr _ := []

def pcDevice : Device where
  id := "pc".toList
  name := "PC".toList
  address := "pc.local".toList
  mac := "AA:BB:CC:DD:EE:FF".toList

/-- What `validate_address` returns is a host name of at most 253 characters, and
the URL of a request leads to this host, the port of the device and the path.
Every IPv4 address and host name is accepted, with blanks around it and a dot
after it, and returned without them. -/
theorem address_safe_in_url (py : Python) (L : Libraries) (Q : Unquote) :
    (∀ value address, validateAddress py value = .ok address →
      address ≠ [] ∧ address.length ≤ 253 ∧ Hostname address ∧
        ∀ device path, device.address = address → PlainPath path →
          requestTarget L Q (HostClient.url device path) = .ok ⟨address, device.port, path⟩) ∧
    (∀ path ∈ HostClient.paths, PlainPath path) ∧
    ∀ before address dot after, isIPv4 address = true ∨ Hostname address → dot = [] ∨ dot = ['.'] →
      (∀ c ∈ before, isSpace c = true) → (∀ c ∈ after, isSpace c = true) →
      (address ++ dot).length ≤ 253 →
      validateAddress py (.str (before ++ (address ++ dot ++ after))) = .ok address := by
  refine ⟨?_, paths_plain, ?_⟩
  · intro value address h
    obtain ⟨hname, hlen⟩ := validateAddress_ok h
    refine ⟨hname.ne_nil, hlen, hname, ?_⟩
    rintro device path rfl hpath
    exact requestTarget_url L Q device hname.ne_nil hname.chars hpath
  · intro before address dot after h hdot hbefore hafter hlen
    have hname : Hostname address := h.elim hostname_of_isIPv4 id
    exact validateAddress_accepts py hname hdot hlen hbefore hafter

/-- A host name with blanks and a dot, and the URL of its status request. -/
theorem pc_local_safe :
    validateAddress anyPython (.str " pc.local. ".toList) = .ok "pc.local".toList ∧
      requestTarget .sample plainUnquote (HostClient.url pcDevice HostClient.statusPath) =
        .ok ⟨"pc.local".toList, 47991, HostClient.statusPath⟩ := by
  have hlabels : ("pc.local".toList.splitOn '.').all isLabel = true := by decide
  have hblank : ∀ c ∈ [' '], isSpace c = true := by
    intro c hc
    rw [List.mem_singleton.mp hc]
    rfl
  obtain ⟨hurl, hpaths, haccepts⟩ := address_safe_in_url anyPython .sample plainUnquote
  have hvalid : validateAddress anyPython (.str " pc.local. ".toList) = .ok "pc.local".toList :=
    haccepts [' '] "pc.local".toList ['.'] [' '] (.inr (hostname_iff.mpr hlabels))
      (.inr rfl) hblank hblank (by decide)
  obtain ⟨-, -, -, htarget⟩ := hurl _ _ hvalid
  exact ⟨hvalid, htarget pcDevice HostClient.statusPath rfl (hpaths _ List.mem_cons_self)⟩

end DeckyMyRig.Deck
