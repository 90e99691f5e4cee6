import DeckyMyRig.System.ControlPanel

/-!
# Superseded codes

The window applies replies in the order in which they arrive, and does not look
at when the service read the code in them. A refresh that the service answers
before a code is generated, and whose reply arrives after that of the
generation, brings the old code back.
-/

namespace DeckyMyRig.System

open Octets Machine Host Control

abbrev PanelEvent := Event Numbered PanelInput Output

def reads (k : Nat) (e : PanelEvent) : Bool :=
  Connection.unanswered (e.before.1.service.connections k) &&
    match e.after.1.service.connections k with
    | some (.responding _) => true
    | _ => false

def produces (k : Nat) (e : PanelEvent) : Bool :=
  !Connection.isResponded (e.before.1.service.connections k) &&
    Connection.isResponded (e.after.1.service.connections k)

def replaces (e : PanelEvent) : Bool := e.before.2.memory ≠ e.after.2.memory

def replacesCode (n : Nat) (e : PanelEvent) : Bool := e.before.2.memory = n && e.after.2.memory ≠ n

def appliesGenerated (k : Nat) (e : PanelEvent) : Bool :=
  match e.input with
  | .applied j _ _ => j = k && e.before.1.calls[k]? = some .generatePairingCode
  | _ => false

/-- What the step puts on display: the code of a call, or `none` for the dash. -/
def displays (e : PanelEvent) : Option (Option Nat) :=
  match e.input with
  | .applied k _ _ =>
    match e.before.1.service.connections k with
    | some (.responded response) =>
      if response.ok then
        some (if Control.formatCode (received response).pairingCode = dash then none else some k)
      else none
    | _ => none
  | .failed _ => some none
  | _ => none

def onDisplay (tr : List PanelEvent) : Option Nat := (latest displays none tr).join

/-- The window shows the code with the number `n`: it is the code that the
service had when it read what it answered to the call on display. -/
structure Shows (tr : List PanelEvent) (s : Numbered) (n : Nat) : Prop where
  code : s.1.window.pairingCode ≠ dash
  read : ∃ k r, onDisplay tr = some k ∧ r ∈ tr ∧ reads k r = true ∧ r.after.2.memory = n ∧
    s.1.window.pairingCode = Control.formatCode (r.after.1.service.host.displayed.map utf16)

-- ---------------------------------------------------------------------------
-- The service
-- ---------------------------------------------------------------------------

structure Sound (C : Crates) (host : Uuid) (name : Text) (s : Numbered) : Prop where
  grounded : Grounded C host name s.1.service.host
  ordered : Ordered s.1.service.host s.2

theorem follow_service {g : Generations} {s : Panel} (h : ∀ j error, i ≠ .host j error)
    (out : List Output) :
    follow g s out (.service i) = g := by
  cases i with
  | host j error => exact absurd rfl (h j error)
  | _ => rfl

theorem Sound.next {s s' : Numbered} (hs : Sound C host name s)
    (h : numberedStep C R port s i = some (s', out)) :
    Sound C host name s' ∧ s.2.memory ≤ s'.2.memory := by
  obtain ⟨panel, codes⟩ := s
  obtain ⟨panel', codes'⟩ := s'
  obtain ⟨hstep, hcodes⟩ := numberedStep_cases h
  obtain ⟨hg, ho⟩ := hs
  have hcodes : codes' = follow codes panel out i := hcodes
  subst hcodes
  cases hstep with
  | served _ hservice =>
    rcases serviceStep_host hservice with ⟨j, error, rfl, hhost⟩ | ⟨hnot, hhost⟩
    · have hhost := hostStep_iff_cases hhost
      obtain ⟨ho', hle⟩ := ho.next hg hhost
      exact ⟨⟨hg.next hhost, ho'⟩, hle⟩
    · rw [follow_service hnot]
      refine ⟨?_, Nat.le_refl _⟩
      rcases hhost with hhost | ⟨now, hhost⟩
      · have hhost := hostStep_iff_cases hhost
        exact ⟨hg.next hhost, (ho.next hg hhost).1⟩
      · exact ⟨hhost ▸ hg.clock now, hhost ▸ ⟨ho.given, ho.identity, ho.stored⟩⟩
  | _ => exact ⟨⟨hg, ho⟩, Nat.le_refl _⟩

theorem Sound.run {s s' : Numbered} (hs : Sound C host name s)
    (h : Run (logged (numberedStep C R port)) P s tr s') :
    Sound C host name s' ∧ s.2.memory ≤ s'.2.memory := by
  refine h.invariant (I := fun _ s' => Sound C host name s' ∧ s.2.memory ≤ s'.2.memory)
    ⟨hs, Nat.le_refl _⟩ ?_
  rintro _ _ _ _ _ ⟨hi, hle⟩ - hl
  obtain ⟨out, hstep, -⟩ := logged_eq_some hl
  obtain ⟨hi', hle'⟩ := hi.next hstep
  exact ⟨hi', hle.trans hle'⟩

section
variable {s s' : Numbered} (hs : Sound C host name s)
include hs

theorem Sound.le_after (h : Run (logged (numberedStep C R port)) P s tr s') (hr : r ∈ tr) :
    s.2.memory ≤ r.after.2.memory := by
  obtain ⟨b, c, rfl⟩ := List.append_of_mem hr
  obtain ⟨hbetween, -, hstep, -⟩ := h.at_logged
  obtain ⟨hs', hle⟩ := hs.run hbetween
  exact hle.trans (hs'.next hstep).2

theorem Sound.replaced (h : Run (logged (numberedStep C R port)) P s (b ++ e :: c) s')
    (hreplaces : replaces e = true) :
    ∃ b₁ e' b₂, b ++ e :: c = b₁ ++ e' :: (b₂ ++ c) ∧ replacesCode s.2.memory e' = true := by
  obtain ⟨hbetween, hp, hstep, -⟩ := h.at_logged
  obtain ⟨hs', hle⟩ := hs.run hbetween
  have hle' := (hs'.next hstep).2
  have hchange : e.after.2.memory ≠ s.2.memory := by
    have hne : e.before.2.memory ≠ e.after.2.memory := of_decide_eq_true hreplaces
    omega
  have hrun : Run (logged (numberedStep C R port)) P s (b ++ [e]) e.after :=
    hbetween.next hp (by rw [logged, hstep]; rfl)
  obtain ⟨b₁, e', b₂, hsplit, hcurrent, hreplaced⟩ :=
    hrun.exists_change (f := fun s => s.2.memory) hchange
  have hsplit := congrArg (· ++ c) hsplit
  refine ⟨b₁, e', b₂, by simpa using hsplit, ?_⟩
  simp [replacesCode, hcurrent, hreplaced]

end

-- ---------------------------------------------------------------------------
-- The display
-- ---------------------------------------------------------------------------

theorem onDisplay_append (tr : List PanelEvent) (e : PanelEvent) :
    onDisplay (tr ++ [e]) = ((displays e).getD (onDisplay tr)) := by
  rw [onDisplay, latest_append]
  cases h : displays e <;> simp [latest, h, onDisplay]

theorem apply_pairingCode (R : Runtime) (vm : HostControlViewModel)
    (state : ManagementState) (now now' : Nat) :
    (vm.apply R state now now').pairingCode =
      if state.ok then Control.formatCode state.pairingCode else vm.pairingCode := by
  simp only [HostControlViewModel.apply]
  cases state.ok with
  | false => rfl
  | true =>
    cases hcode : state.pairingCode with
    | none => exact congrArg Control.formatCode hcode
    | some code =>
      cases addSeconds now state.expiresInSeconds with
      | some instant => exact congrArg Control.formatCode hcode
      | none => exact congrArg Control.formatCode hcode

theorem displays_applied {s s' : Numbered} {k : Nat}
    (h : s.1.service.connections k = some (.responded response)) (now now' : Nat) :
    displays ⟨s, .applied k now now', s', out⟩ =
      if response.ok then
        some (if Control.formatCode (received response).pairingCode = dash then none else some k)
      else none := by
  simp only [displays, h]

theorem PanelStep.pairingCode (s s' : Numbered) (h : PanelStep C R port s.1 i s'.1 out) :
    match displays ⟨s, i, s', out⟩ with
    | some (some k) =>
      ∃ response, s'.1.service.connections k = some (.responded response) ∧ response.ok = true ∧
        s'.1.window.pairingCode = Control.formatCode (received response).pairingCode ∧
        s'.1.window.pairingCode ≠ dash
    | some none => s'.1.window.pairingCode = dash
    | none => s'.1.window.pairingCode = s.1.window.pairingCode := by
  obtain ⟨panel, codes⟩ := s
  obtain ⟨panel', codes'⟩ := s'
  cases h with
  | @applied response now now' k hresponded =>
    have hshown : (panel.complete R k (.answered (received response) now now')).window.pairingCode =
        if response.ok then Control.formatCode (received response).pairingCode
          else panel.window.pairingCode :=
      apply_pairingCode R panel.window (received response) now now'
    rw [displays_applied hresponded]
    cases hok : response.ok with
    | false =>
      rw [hok] at hshown
      exact hshown
    | true =>
      rw [hok, if_pos rfl] at hshown
      by_cases hdash : Control.formatCode (received response).pairingCode = dash
      · rw [if_pos rfl, if_pos hdash]
        exact hshown.trans hdash
      · rw [if_pos rfl, if_neg hdash]
        exact ⟨response, hresponded, hok, hshown, fun h => hdash (hshown.symm.trans h)⟩
  | _ => rfl

-- ---------------------------------------------------------------------------
-- From the service to the display
-- ---------------------------------------------------------------------------

theorem reads_iff {k : Nat} {e : PanelEvent} : reads k e = true ↔
    Connection.unanswered (e.before.1.service.connections k) = true ∧
      ∃ pairing, e.after.1.service.connections k = some (.responding pairing) := by
  rw [reads, Bool.and_eq_true]
  refine and_congr_right fun _ => ⟨fun h => ?_, ?_⟩
  · split at h
    · exact ⟨_, ‹_›⟩
    · cases h
  · rintro ⟨pairing, h⟩
    rw [h]

theorem PanelStep.moves (hg : Grounded C host name s.service.host)
    (h : PanelStep C R port s i s' out) (k : Nat) :
    Connection.Moves port s'.service.host.displayed (s.service.connections k)
      (s'.service.connections k) := by
  cases h with
  | served _ hservice => exact serviceStep_moves hg hservice k
  | _ => exact .same

structure Answers (port : UInt16) (tr : List PanelEvent) (s : Numbered) : Prop where
  read : ∀ {k r}, r ∈ tr → reads k r = true → ∃ pairing,
    pairing.code = r.after.1.service.host.displayed ∧ Connection.Knows port pairing
      (s.1.service.connections k)
  source : ∀ {k}, Connection.successful (s.1.service.connections k) = true →
    ∃ r ∈ tr, reads k r = true
  shown : ∀ {k}, onDisplay tr = some k →
    ∃ response, s.1.service.connections k = some (.responded response) ∧ response.ok = true ∧
    s.1.window.pairingCode = Control.formatCode (received response).pairingCode ∧
    s.1.window.pairingCode ≠ dash
  empty : onDisplay tr = none → s.1.window.pairingCode = dash

theorem Answers.next {s s' : Numbered} (hs : Sound C host name s) (ha : Answers port tr s)
    (h : PanelStep C R port s.1 i s'.1 out) : Answers port (tr ++ [⟨s, i, s', out⟩]) s' := by
  have hmoves := h.moves hs.grounded
  have hcode := PanelStep.pairingCode s s' h
  have hdisplay := onDisplay_append tr ⟨s, i, s', out⟩
  refine ⟨?_, ?_, ?_, ?_⟩
  · intro k r hr hreads
    rcases List.mem_append.mp hr with hr | hr
    · obtain ⟨pairing, hpairing, hknows⟩ := ha.read hr hreads
      exact ⟨pairing, hpairing, hknows.next (hmoves k)⟩
    · obtain rfl := List.mem_singleton.mp hr
      obtain ⟨hwaits, pairing, hafter⟩ := reads_iff.mp hreads
      have hmove := hmoves k
      rw [hafter] at hmove
      exact ⟨pairing, hmove.code hwaits, .inl hafter⟩
  · intro k hsuccessful
    rcases (hmoves k).successful hsuccessful with hbefore | hread
    · obtain ⟨r, hr, hreads⟩ := ha.source hbefore
      exact ⟨r, List.mem_append_left _ hr, hreads⟩
    · exact ⟨_, List.mem_append_right _ (List.mem_singleton.mpr rfl), reads_iff.mpr hread⟩
  · intro k hk
    rw [hdisplay] at hk
    cases hset : displays ⟨s, i, s', out⟩ with
    | some shown =>
      rw [hset] at hk hcode
      obtain rfl : shown = some k := hk
      exact hcode
    | none =>
      -- what is on display stays there, and a response does not change
      rw [hset] at hk hcode
      obtain ⟨response, hresponded, hok, hshown, hne⟩ := ha.shown hk
      have hmove := hmoves k
      rw [hresponded] at hmove
      refine ⟨response, hmove.responded_eq, hok, ?_, ?_⟩
      · exact Eq.trans hcode hshown
      · exact fun hdash => hne (Eq.trans (Eq.symm hcode) hdash)
  · intro hnone
    rw [hdisplay] at hnone
    cases hset : displays ⟨s, i, s', out⟩ with
    | some shown =>
      rw [hset] at hnone hcode
      obtain rfl : shown = none := hnone
      exact hcode
    | none =>
      rw [hset] at hnone hcode
      exact Eq.trans hcode (ha.empty hnone)

theorem answers_run {start s : Numbered} (hstart : Sound C host name start)
    (hempty : start.1 = .start app)
    (h : Run (logged (numberedStep C R port)) P start tr s) : Answers port tr s := by
  refine (h.invariant (I := fun tr s => Sound C host name s ∧ Answers port tr s) ⟨hstart, ?_⟩ ?_).2
  · refine ⟨by simp, ?_, by rintro _ ⟨⟩, ?_⟩
    · rw [hempty]
      rintro _ ⟨⟩
    · rw [hempty]
      exact fun _ => rfl
  · rintro tr s i s' es ⟨hs, ha⟩ - hl
    obtain ⟨out, hstep, rfl⟩ := logged_eq_some hl
    exact ⟨(hs.next hstep).1, ha.next hs (numberedStep_cases hstep).1⟩

theorem Answers.shows {s : Numbered} (ha : Answers port tr s) (hx : onDisplay tr = some x)
    (hr : r ∈ tr) (hread : reads x r = true) : Shows tr s r.after.2.memory := by
  obtain ⟨response, hresponded, -, hshown, hne⟩ := ha.shown hx
  obtain ⟨pairing, hcode, hknows⟩ := ha.read hr hread
  refine ⟨hne, x, r, hx, hr, hread, rfl, ?_⟩
  rw [← hcode]
  rcases hknows with heq | ⟨pluginVersion, heq⟩ | heq <;> cases hresponded.symm.trans heq
  exact hshown

theorem shows_of_code (hboot : AppState.boot hostname stored nextTask wall env = some app)
    (h : Run (logged (numberedStep C R port)) P (.start app, .first) tr s)
    (hcode : s.1.window.pairingCode ≠ dash) : ∃ n, Shows tr s n := by
  have ha : Answers port tr s := answers_run (C := C) ⟨.boot hboot, .boot hboot⟩ rfl h
  cases hx : onDisplay tr with
  | none => exact absurd (ha.empty hx) hcode
  | some x =>
    obtain ⟨response, hresponded, hok, -⟩ := ha.shown hx
    obtain ⟨r, hr, hread⟩ := ha.source (k := x) (by rw [hresponded]; exact hok)
    exact ⟨_, ha.shows hx hr hread⟩

-- ---------------------------------------------------------------------------
-- Overtaking
-- ---------------------------------------------------------------------------

/-- In every run of a window and its service, the window shows no code that the
service had replaced before it produced an applied reply of `GenerateCodeAsync`,
exactly if the call on display is none whose code the service read before such a
replacement. -/
theorem no_superseded_code_iff (hboot : AppState.boot hostname stored nextTask wall env = some app)
    (h : Run (logged (numberedStep C R port)) P (.start app, .first) tr s) :
    (∀ k n, occurs [replacesCode n, produces k, appliesGenerated k] tr = true → ¬ Shows tr s n) ↔
      ∀ k x, occurs [reads x, replaces, produces k, appliesGenerated k] tr = true →
      onDisplay tr ≠ some x := by
  have hstart : Sound C stored.hostId hostname (.start app, .first) := ⟨.boot hboot, .boot hboot⟩
  constructor
  · intro hno k x hoccurs hx
    have ha := answers_run hstart rfl h
    obtain ⟨a, r, b, rfl, hread, hlater⟩ := occurs_cons.mp hoccurs
    obtain ⟨b, e, c, rfl, hreplaces, hreply⟩ := occurs_cons.mp hlater
    obtain ⟨hbefore, -, hr, hafter⟩ := h.at_logged
    have hsound := ((hstart.run hbefore).1.next hr).1
    obtain ⟨b₁, e', b₂, hb, hreplaced⟩ := hsound.replaced hafter hreplaces
    refine hno k r.after.2.memory ?_ (ha.shows hx (by simp) hread)
    exact occurs_cons.mpr ⟨a ++ r :: b₁, e',
      b₂ ++ c, by simp [hb], hreplaced, occurs_append_left _ _ hreply⟩
  · rintro hno k n hoccurs ⟨-, x, r, hx, hr, hread, rfl, -⟩
    obtain ⟨a, e, b, rfl, hreplaced, hreply⟩ := occurs_cons.mp hoccurs
    simp only [replacesCode, Bool.and_eq_true, decide_eq_true_eq] at hreplaced
    obtain ⟨hcurrent, hreplaced⟩ := hreplaced
    obtain ⟨hbefore, -, he, hafter⟩ := h.at_logged
    obtain ⟨hsound, hle⟩ := (hstart.run hbefore).1.next he
    rcases List.mem_append.mp hr with hr | hr
    · obtain ⟨a, b', rfl⟩ := List.append_of_mem hr
      have hlater : occurs [replaces, produces k, appliesGenerated k] (b' ++ e :: b) = true := by
        refine occurs_cons.mpr ⟨b', e, b, rfl, ?_, hreply⟩
        rw [replaces, decide_eq_true_eq, hcurrent]
        exact Ne.symm hreplaced
      exact hno k x (occurs_cons.mpr ⟨a, r, b' ++ e :: b, by simp, hread, hlater⟩) hx
    · -- from the replacement on the service has later codes only
      exfalso
      rcases List.mem_cons.mp hr with rfl | hr
      · exact hreplaced rfl
      · have hle' := hsound.le_after hafter hr
        omega

def answerRefresh (k : Nat) : List PanelInput :=
  [.service (.accept k .getServiceInfo), .service (.lockPairing k),
    .service (.lockIdentity k (seconds 400)), .service (.respond k)]

def answerGenerate (k task : Nat) : List PanelInput :=
  .service (.accept k .generatePairingCode) ::
    [stepAt 400 [] task, stepAt 400 [1000] task, stepAt 400 [] task].map
    (fun i => .service (.host i [])) ++ [.service (.respond k)]

/-- The window shows 123456. A code is generated, and the window is activated
meanwhile; the service answers the refresh first. -/
def overlapping : List PanelInput :=
  .refreshAsync :: answerRefresh 0 ++ [.applied 0 0 0, .generateCodeAsync, .refreshAsync] ++
    answerRefresh 2 ++ answerGenerate 1 0

/-- The replies arrive in the order in which the service produced them. -/
theorem later_code_stays :
    ∃ tr s, Run (logged (numberedStep pairingCrates ⟨fun ticks => ticks / 600000000⟩ 48100))
        (fun s i => offered s.1 i = true) (.start (newStart (seconds 400)), .first) tr s ∧
      s.1.window.pairingCode = str "000 000" ∧
      ∀ k n, occurs [replacesCode n, produces k, appliesGenerated k] tr =
        true → ¬ Shows tr s n := by
  obtain ⟨tr, s, hrun, hp⟩ := Run.exists_of_exec
    (logged (numberedStep pairingCrates ⟨fun ticks => ticks / 600000000⟩ 48100))
    (fun s i => offered s.1 i = true) (.start (newStart (seconds 400)), .first)
    (overlapping ++ [.applied 2 0 0, .applied 1 0 0])
    (fun s tr => s.1.window.pairingCode = str "000 000" && onDisplay tr = some 1 &&
      !occurs [reads 1, replaces] tr) (by decide +kernel)
  simp only [Bool.and_eq_true, Bool.not_eq_true', decide_eq_true_eq] at hp
  obtain ⟨⟨hshown, hdisplay⟩, hlast⟩ := hp
  refine ⟨tr, s, hrun, hshown, (no_superseded_code_iff (boot_newStart _) hrun).mpr ?_⟩
  rintro k x hoccurs hx
  obtain rfl : 1 = x := Option.some.inj (hdisplay.symm.trans hx)
  -- after call 1 was answered, no code is replaced
  obtain ⟨a, r, b, rfl, hread, hlater⟩ := occurs_cons.mp hoccurs
  obtain ⟨b, e, c, rfl, hreplaces, -⟩ := occurs_cons.mp hlater
  have hboth : occurs [reads 1, replaces] (a ++ r :: (b ++ e :: c)) = true :=
    occurs_cons.mpr ⟨a, r, _, rfl, hread, occurs_cons.mpr ⟨b, e, c, rfl, hreplaces, occurs_nil _⟩⟩
  rw [hlast] at hboth
  cases hboth

/-- The reply of the generation arrives before that of the refresh, and the
window goes back to 123456. -/
theorem refresh_brings_back_code :
    AppState.boot [] newHost 0 0 { Env.sample [1000] with r := .at (seconds 400) } =
        some (newStart (seconds 400)) ∧
      ∃ tr s, Run (logged (numberedStep pairingCrates ⟨fun ticks => ticks / 600000000⟩ 48100))
          (fun s i => offered s.1 i = true) (.start (newStart (seconds 400)), .first) tr s ∧
        s.1.window.pairingCode = str "123 456" ∧ s.1.service.host.displayed = some "000000".toList ∧
        ∃ k n, occurs [replacesCode n, produces k, appliesGenerated k] tr =
          true ∧ Shows tr s n := by
  refine ⟨boot_newStart _, ?_⟩
  obtain ⟨tr, s, hrun, hp⟩ := Run.exists_of_exec
    (logged (numberedStep pairingCrates ⟨fun ticks => ticks / 600000000⟩ 48100))
    (fun s i => offered s.1 i = true) (.start (newStart (seconds 400)), .first)
    (overlapping ++ [.applied 1 0 0, .applied 2 0 0])
    (fun s tr => s.1.window.pairingCode = str "123 456" && s.1.service.host.displayed =
      some "000000".toList &&
      onDisplay tr = some 2 && occurs [replacesCode 0, produces 1, appliesGenerated 1] tr &&
      tr.any fun r => reads 2 r && r.after.2.memory = 0) (by decide +kernel)
  simp only [Bool.and_eq_true, List.any_eq_true, decide_eq_true_eq] at hp
  obtain ⟨⟨⟨⟨hshown, hcode⟩, hdisplay⟩, hoccurs⟩, r, hr, hread, hmemory⟩ := hp
  have ha : Answers 48100 tr s :=
    answers_run (C := pairingCrates) ⟨.boot (boot_newStart _), .boot (boot_newStart _)⟩ rfl hrun
  exact ⟨tr, s, hrun, hshown, hcode, 1, 0, hoccurs, hmemory ▸ ha.shows hdisplay hr hread⟩

end DeckyMyRig.System
