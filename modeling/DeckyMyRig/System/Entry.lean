import DeckyMyRig.Deck.ValidationLaws
import DeckyMyRig.Frontend.Forms
import DeckyMyRig.System.Honest
import DeckyMyRig.System.Superseded

/-!
# What is typed into the forms

A code goes from the host to the control window, from there to whoever reads it,
into the form of the plugin and to its client, which makes the first message of
the exchange from it. A port goes from a form to the check of the store.
-/

namespace DeckyMyRig.System

open Octets Texts Decimals Machine Host Control Frontend

-- ---------------------------------------------------------------------------
-- Codes
-- ---------------------------------------------------------------------------

theorem digits_of_validCode (h : validCode code = true) :
    code.length = 6 ∧ ∀ c ∈ code, c.isDigit = true := by
  simp only [validCode, Bool.and_eq_true, decide_eq_true_eq, List.all_eq_true] at h
  obtain ⟨hlen, hbytes⟩ := h
  -- each byte is the digit it stands for
  have hbyte : ∀ b ∈ utf8 code, (Char.ofNat b.toNat).toNat = b.toNat ∧
      (Char.ofNat b.toNat).isDigit = true := by
    intro b hb
    obtain ⟨hlow, hhigh⟩ := hbytes b hb
    simp only [UInt8.le_iff_toNat_le] at hlow hhigh
    have hlow : 48 ≤ b.toNat := hlow
    have hhigh : b.toNat ≤ 57 := hhigh
    generalize b.toNat = n at hlow hhigh
    interval_cases n <;> decide
  have hascii : ∀ c ∈ (utf8 code).map fun b => Char.ofNat b.toNat, c.toNat < 128 := by
    intro c hc
    obtain ⟨b, hb, rfl⟩ := List.mem_map.mp hc
    exact (toNat_of_isDigit (hbyte b hb).2).2.trans_lt (by decide)
  have htext : code = (utf8 code).map fun b => Char.ofNat b.toNat := by
    refine utf8_injective (Eq.symm ?_)
    rw [utf8_of_ascii hascii, List.map_map]
    refine (List.map_congr_left fun b hb => ?_).trans (List.map_id _)
    simp [(hbyte b hb).1]
  constructor
  · rw [htext, List.length_map, hlen]
  · intro c hc
    rw [htext] at hc
    obtain ⟨b, hb, rfl⟩ := List.mem_map.mp hc
    exact (hbyte b hb).2

def shownCode (code : Text) : Text := code.take 3 ++ ' ' :: code.drop 3

theorem normalized_shownCode (h : ∀ c ∈ code, c.isDigit = true) :
    normalized (shownCode code) = code := by
  have hblank : isBlank ' ' = true := by decide
  calc normalized (shownCode code)
    _ = normalized (code.take 3) ++ normalized (code.drop 3) := by
      simp [normalized, shownCode, hblank]
    _ = code.take 3 ++ code.drop 3 := by
      rw [normalized_eq_self fun c hc => h c (List.mem_of_mem_take hc),
        normalized_eq_self fun c hc => h c (List.mem_of_mem_drop hc)]
    _ = code := List.take_append_drop 3 code

theorem utf16_of_digits {text : Text} (h : ∀ c ∈ text, c.isDigit = true) :
    utf16 text = text.map fun c => UInt16.ofNat c.toNat := by
  induction text with
  | nil => rfl
  | cons c text ih =>
    obtain ⟨hc, htext⟩ := List.forall_mem_cons.mp h
    have hlow : c.toNat < 0x10000 := (toNat_of_isDigit hc).2.trans_lt (by decide)
    have hunit : utf16 (c :: text) = UInt16.ofNat c.toNat :: utf16 text := by simp [utf16, hlow]
    rw [hunit, ih htext, List.map_cons]

theorem formatCode_utf16 (hlen : code.length = 6) (h : ∀ c ∈ code, c.isDigit = true) :
    Control.formatCode (some (utf16 code)) = utf16 (shownCode code) := by
  have hunits {text : Text} (hsub : ∀ c ∈ text, c ∈ code) : utf16 text = text.map fun c =>
      UInt16.ofNat c.toNat :=
    utf16_of_digits fun c hc => h c (hsub c hc)
  have hcode : utf16 code = code.map fun c => UInt16.ofNat c.toNat := hunits fun _ hc => hc
  have hshown : utf16 (shownCode code) = utf16 (code.take 3) ++ str " " ++ utf16 (code.drop 3) := by
    simp [shownCode, utf16, str]
  rw [hshown, hunits fun _ => List.mem_of_mem_take, hunits fun _ =>
    List.mem_of_mem_drop, Control.formatCode, hcode,
    if_pos (by rw [List.length_map, hlen]), List.map_take, List.map_drop]

theorem entered_code (hlen : code.length = 6) (h : ∀ c ∈ code, c.isDigit = true)
    (htyped : normalized typed = code) :
    pairForm typed = .ok code ∧ ∀ (L : Deck.Libraries) device entropy, ∃ call,
      Deck.HostClient.pair L device code entropy = .ok call ∧ call.code = code := by
  have hall : code.all Char.isDigit = true := List.all_eq_true.mpr h
  refine ⟨by rw [pairForm, htyped, if_pos ⟨hlen, hall⟩], fun L device entropy => ?_⟩
  have hascii : code.all (fun c => c.toNat < 128) = true := List.all_eq_true.mpr fun c hc => by
    have hrange := toNat_of_isDigit (h c hc)
    simp
    omega
  have hjoined : Deck.HostClient.joined code = code := List.filter_eq_self.mpr fun c hc => by
    simp [Deck.isSpace_digit (h c hc)]
  unfold Deck.HostClient.pair
  simp only [hjoined, hlen, hascii, hall, pairRequest_eq]
  exact ⟨_, rfl, rfl⟩

/-- In every run of a window and its service, whatever code the window shows can be
entered: it is the one that the service had when it read what it answered to the
call on display, and the text of the window, or the same digits with other blanks,
passes the form and the client as this code. -/
theorem shown_code_can_be_entered
    (hboot : AppState.boot hostname stored nextTask wall env = some app)
    (h : Run (logged (numberedStep C R port)) P (.start app, .first) tr s)
    (hshown : s.1.window.pairingCode ≠ dash) :
    ∃ k, onDisplay tr = some k ∧ ∃ r ∈ tr, reads k r = true ∧ ∃ code,
      r.after.1.service.host.displayed = some code ∧
      s.1.window.pairingCode = utf16 (shownCode code) ∧
      ∀ typed, normalized typed = normalized (shownCode code) →
        pairForm typed = .ok code ∧ ∀ (L : Deck.Libraries) device entropy, ∃ call,
          Deck.HostClient.pair L device code entropy = .ok call ∧ call.code = code := by
  obtain ⟨n, -, k, r, hdisplay, hr, hreads, -, hcode⟩ := shows_of_code hboot h hshown
  cases hdisplayed : r.after.1.service.host.displayed with
  | none =>
    rw [hdisplayed] at hcode
    exact absurd hcode hshown
  | some code =>
    obtain ⟨hlen, hdigits⟩ : code.length = 6 ∧ ∀ c ∈ code, c.isDigit = true := by
      obtain ⟨_, -, rfl⟩ := Option.map_eq_some_iff.mp hdisplayed
      exact digits_of_validCode r.after.1.service.host.pairing.code.property
    refine ⟨k, hdisplay, r, hr, hreads, code, hdisplayed, ?_, fun typed htyped => ?_⟩
    · rw [hcode, hdisplayed]
      exact formatCode_utf16 hlen hdigits
    · exact entered_code hlen hdigits (htyped.trans (normalized_shownCode hdigits))

/-- The window shows the code that a new host has after it was asked. -/
theorem sample_code_can_be_entered :
    ∃ tr s, Run (logged (numberedStep pairingCrates ⟨fun ticks => ticks / 600000000⟩ 48100))
        (fun s i => offered s.1 i = true) (.start (newStart (seconds 400)), .first) tr s ∧
      s.1.window.pairingCode = str "123 456" ∧
      ∃ k, onDisplay tr = some k ∧ ∃ r ∈ tr, reads k r = true ∧ ∃ code,
        r.after.1.service.host.displayed = some code ∧
        str "123 456" = utf16 (shownCode code) ∧ pairForm (shownCode code) = .ok code := by
  obtain ⟨tr, s, hrun, hp⟩ := Run.exists_of_exec
    (logged (numberedStep pairingCrates ⟨fun ticks => ticks / 600000000⟩ 48100))
    (fun s i => offered s.1 i = true) (.start (newStart (seconds 400)), .first)
    (.refreshAsync :: answerRefresh 0 ++ [.applied 0 0 0])
    (fun s _ => s.1.window.pairingCode = str "123 456") (by decide +kernel)
  have hshown : s.1.window.pairingCode = str "123 456" := of_decide_eq_true hp
  obtain ⟨k, hdisplay, r, hr, hreads, code, hdisplayed, htext, hentered⟩ :=
    shown_code_can_be_entered (boot_newStart _) hrun (by rw [hshown]; decide)
  exact ⟨tr, s, hrun, hshown, k, hdisplay, r, hr, hreads, code, hdisplayed,
    hshown ▸ htext, (hentered _ rfl).1⟩

-- ---------------------------------------------------------------------------
-- Ports
-- ---------------------------------------------------------------------------

theorem pyInt_of_isDigit {digits : Text} (hne : digits ≠ []) (h : ∀ c ∈ digits, c.isDigit = true) :
    Deck.pyInt digits = some (value digits : Int) := by
  have hstrip : strip Deck.isIntSpace digits = digits :=
    strip_of_none fun c hc => Deck.isIntSpace_digit (h c hc)
  unfold Deck.pyInt
  rw [hstrip]
  split
  · cases h '-' (by simp)
  · cases h '+' (by simp)
  · rw [Deck.pyDigits_of_isDigit hne h]
    rfl

theorem isUnset_typed {typed : Text} (hne : typed ≠ []) :
    Deck.Json.isUnset (.str typed) = false := by
  cases typed with
  | nil => exact absurd rfl hne
  | cons => rfl

theorem validatePort_digits {typed : Text} (hne : typed ≠ []) (h : ∀ c ∈ typed, c.isDigit = true)
    (hrange : 1 ≤ value typed ∧ value typed ≤ 65535) (py : Deck.Python) (d : Bool) :
    Deck.validatePort py (.str typed) d =
      if typed = Nat.toDigits 10 (value typed) then .ok (value typed)
      else .error (.validation Deck.portMessage) := by
  have hstrip : strip Deck.isSpace typed = typed :=
    strip_of_none fun c hc => Deck.isSpace_digit (h c hc)
  unfold Deck.validatePort
  simp only [isUnset_typed hne, Bool.false_and, Bool.false_eq_true, ↓reduceIte, Deck.Python.str,
    pyInt_of_isDigit hne h, hstrip, Deck.toString_nat, Int.toNat_natCast]
  split
  · rename_i hbad
    rw [if_neg]
    intro heq
    rcases hbad with hbad | hbad
    · exact hbad heq
    · omega
  · rename_i hgood
    rw [if_pos]
    by_contra hne'
    exact hgood (.inl hne')

theorem strip_of_validatePort {typed : Text} (hne : typed ≠ [])
    (h : Deck.validatePort py (.str typed) d = .ok port) :
    strip Deck.isSpace typed = Nat.toDigits 10 port := by
  unfold Deck.validatePort at h
  simp only [isUnset_typed hne, Bool.false_and, Bool.false_eq_true, ↓reduceIte] at h
  split at h
  · cases h
  · rename_i read _
    split at h
    · cases h
    · rename_i hgood
      obtain ⟨hnumeral, hrange⟩ := not_or.mp hgood
      obtain ⟨n, rfl⟩ := Int.eq_ofNat_of_zero_le (a := read) (by omega)
      cases h
      rw [Int.toNat_natCast, ← Deck.toString_nat]
      exact not_not.mp hnumeral

/-- The form and the store check ports in their own ways. What both let pass are
the numerals of the ports, for which the store has the port; what the form lets
pass and the store refuses has zeros in front, and gets the message of the form.
A port that the store takes, the form does not refuse, blanks around it apart. -/
theorem form_and_store_ports (py : Deck.Python) (d : Bool) (typed : Text) :
    (∀ port, portForm typed = .ok typed ∧ Deck.validatePort py (.str typed) d = .ok port ↔
      1 ≤ port ∧ port ≤ 65535 ∧ typed = Nat.toDigits 10 port) ∧
    (∀ e, portForm typed = .ok typed → Deck.validatePort py (.str typed) d = .error e →
      typed.head? = some '0' ∧ ∃ message, e = .validation message ∧ portForm [] = .error message) ∧
    ∀ port, typed ≠ [] → Deck.validatePort py (.str typed) d = .ok port →
      portForm (strip Deck.isSpace typed) = .ok (Nat.toDigits 10 port) := by
  have hnumeral {port : Nat} (hport : 1 ≤ port ∧ port ≤ 65535) :
      portForm (Nat.toDigits 10 port) = .ok (Nat.toDigits 10 port) :=
    portForm_eq_ok.mpr ⟨Nat.toDigits_ne_nil, isDigit_of_isNumeral (isNumeral_toDigits port), by
      rwa [value_toDigits]⟩
  refine ⟨fun port => ⟨?_, ?_⟩, ?_, ?_⟩
  · rintro ⟨hform, hstore⟩
    obtain ⟨hne, hdigits, hrange⟩ := portForm_eq_ok.mp hform
    rw [validatePort_digits hne hdigits hrange] at hstore
    split at hstore
    · rename_i heq
      cases hstore
      exact ⟨hrange.1, hrange.2, heq⟩
    · cases hstore
  · rintro ⟨hlow, hhigh, rfl⟩
    refine ⟨hnumeral ⟨hlow, hhigh⟩, ?_⟩
    rw [validatePort_digits Nat.toDigits_ne_nil (isDigit_of_isNumeral (isNumeral_toDigits port))
      (by rw [value_toDigits]; exact ⟨hlow, hhigh⟩), value_toDigits, if_pos rfl]
  · intro e hform hstore
    obtain ⟨hne, hdigits, hrange⟩ := portForm_eq_ok.mp hform
    rw [validatePort_digits hne hdigits hrange] at hstore
    split at hstore
    · cases hstore
    · rename_i hother
      cases hstore
      refine ⟨?_, _, rfl, rfl⟩
      cases typed with
      | nil => exact absurd rfl hne
      | cons c rest =>
        -- without a zero in front it would be the numeral
        by_contra hc
        have hnumeral : isNumeral (c :: rest) = true := by
          rw [isNumeral_cons (by simpa using hc), List.all_eq_true]
          exact hdigits
        exact hother (toDigits_value hnumeral).symm
  · intro port hne hstore
    rw [strip_of_validatePort hne hstore]
    exact hnumeral (Deck.validatePort_range hstore)

/-- The form lets `080` pass, and the store does not. -/
theorem port_080_passes_only_form :
    portForm "080".toList = .ok "080".toList ∧
      ∃ e, Deck.validatePort ⟨fun _ => none, fun _ => [], fun _ => []⟩ (.str "080".toList) false =
        .error e ∧ ∃ message, e = .validation message ∧ portForm [] = .error message := by
  have hstore : Deck.validatePort ⟨fun _ => none, fun _ => [], fun _ => []⟩
    (.str "080".toList) false =
      .error (.validation Deck.portMessage) := rfl
  exact ⟨rfl, _, hstore, ((form_and_store_ports _ false _).2.1 _ rfl hstore).2⟩

end DeckyMyRig.System
