import DeckyMyRig.Host.PairTasks

/-!
# Codes are single-use

Every code the host generates is numbered, by `generate_pairing_code` and by a
start of the service that finds none stored. `Generations` follows the numbers
through memory, identity and store; a code that is reloaded keeps its number.
A number is used once a credential was saved under it. In every run, crashes
included, a used number is never paired again and never started again.
-/

namespace DeckyMyRig.Host

open Octets Machine

/-- The generation of the code in `pairing`, of the one in `identity` and of
the one in the store, and the next to be given out. -/
structure Generations where
  memory : Nat
  identity : Nat
  stored : Nat
  next : Nat
  deriving DecidableEq

def Generations.first : Generations := ⟨0, 0, 0, 1⟩

def Output.isSaved : Output → Bool
  | .saved _ => true
  | _ => false

def Output.isPaired : Output → Bool
  | .paired .. => true
  | _ => false

def Output.isStarted : Output → Bool
  | .started .. => true
  | _ => false

/-- Where codes go in a task's step: a save stores the identity's code or, in
`generate_pairing_code`, a new one, which is installed after that. -/
def Generations.advance (g : Generations) (saves : Bool) : Task → Generations
  | .genIdentity => if saves then { g with stored := g.next, next := g.next + 1 } else g
  | .genInstall .. => { g with memory := g.stored, identity := g.stored }
  | _ => if saves then { g with stored := g.identity } else g

/-- Where codes go in a step that was taken in `s`; a restart reloads the stored
code or generates one. -/
def Generations.track (g : Generations) (s : AppState) (out : List Output) : Input → Generations
  | .restart _ =>
    if s.stored.pairingCode.isSome then { g with memory := g.stored, identity := g.stored }
    else { g with memory := g.next, identity := g.stored, next := g.next + 1 }
  | .advance id _ =>
    match s.tasks id with
    | some task => g.advance (out.any (·.isSaved)) task
    | none => g
  | .request _ | .cancel _ => g

def trackedStep (C : Crates) (s : AppState × Generations) (i : Input) :
    Option ((AppState × Generations) × List (Nat × Output)) :=
  (hostStep C s.1 i).map fun r => ((r.1, s.2.track s.1 r.2 i), r.2.map (s.2.memory, ·))

/-- The subtraction of 301 s in `commit` stays above the clock's epoch. -/
def commitsLate (s : AppState) : Input → Bool
  | .advance id env =>
    match s.tasks id with
    | some (.pairCommit ..) => seconds 301 ≤ env.r.last
    | _ => true
  | _ => true

-- ---------------------------------------------------------------------------
-- A spent code
-- ---------------------------------------------------------------------------

def Committing (s : AppState) : Prop :=
  ∃ (id : Nat) (request : PairRequest) (result : PairingResult),
    s.tasks id = some (.pairCommit request result)

/-- The code in memory takes no further session: a commit is under way, or it
is over. -/
def Spent (s : AppState) : Prop :=
  Committing s ∨ (∀ k, s.pairing.pending.lookup k = none) ∧
    pairingLifetime < elapsed s.pairing.created s.clock

theorem Committing.advance {id : Nat} (hc : Committing s) (ht : s.tasks id = some t)
    (hn : t.saved = false) (ha : AppState.Advance C (s.tick env) env id t s' out) :
    Committing s' := by
  obtain ⟨j, request, result, hj⟩ := hc
  have hne : j ≠ id := by
    rintro rfl
    cases ht.symm.trans hj
    cases hn
  obtain ⟨t', hm⟩ := ha.moves
  exact ⟨j, request, result, by simpa [hm.tasks, hne, AppState.tick] using hj⟩

theorem Committing.spawn (hl : Locks s) (hc : Committing s) :
    Committing ({ s with nextTask := s.nextTask + 1 }.goto s.nextTask t) := by
  obtain ⟨j, request, result, hj⟩ := hc
  have hne : j ≠ s.nextTask := by
    rintro rfl
    rw [hl.unborn _ (Nat.le_refl _)] at hj
    cases hj
  exact ⟨j, request, result, by simpa [AppState.goto, hne] using hj⟩

theorem Committing.drop {id : Nat} (hc : Committing s) (ht : s.tasks id = some t)
    (hn : t.saved = false) : Committing (s.dropped id) := by
  obtain ⟨j, request, result, hj⟩ := hc
  have hne : j ≠ id := by
    rintro rfl
    cases ht.symm.trans hj
    cases hn
  exact ⟨j, request, result, by simpa [AppState.dropped, AppState.finish, hne] using hj⟩

theorem lifetime_lt_elapsed (h : seconds 301 ≤ t) :
    pairingLifetime < elapsed (t - seconds 301) t := by
  unfold elapsed pairingLifetime
  rw [Nat.sub_sub_self h]
  exact Nat.mul_lt_mul_of_pos_right (by decide) (by decide)

theorem commit_spends {p p' : PairingCode} {request : PairRequest}
    (hc : Confirmed C context p request result)
    (h : p.commit request.sessionId request.clientConfirmation result r = (p', a))
    (hr : seconds 301 ≤ r.last) :
    (∀ k, p'.pending.lookup k = none) ∧ pairingLifetime < elapsed p'.created r.last := by
  obtain ⟨k, e, hk, he, -⟩ := hc
  rw [hk, PairingCode.commit_pending (by simp [he]), if_pos hr] at h
  obtain ⟨rfl, -⟩ := Prod.mk.inj h
  exact ⟨fun _ => rfl, lifetime_lt_elapsed hr⟩

theorem Output.isStarted_iff {o : Output} :
    o.isStarted = true ↔ ∃ id start, o = .started id start := by
  cases o <;> simp [Output.isStarted]

theorem Output.isPaired_iff {o : Output} :
    o.isPaired = true ↔ ∃ id request result, o = .paired id request result := by
  cases o <;> simp [Output.isPaired]

theorem Spent.silent {id : Nat} (hg : Grounded C host name s) (hs : Spent s)
    (ht : s.tasks id = some t) (hf : s.free t.awaits) (hc : s.clock ≤ env.r.first)
    (ha : AppState.Advance C (s.tick env) env id t s' out) :
    ∀ o ∈ out, o.isStarted = false ∧ o.isPaired = false := by
  intro o ho
  rcases hs with ⟨j, request, result, hj⟩ | ⟨hp, hold⟩
  · refine ⟨Bool.eq_false_iff.mpr fun h => ?_, Bool.eq_false_iff.mpr fun h => ?_⟩
    · obtain ⟨_, _, rfl⟩ := Output.isStarted_iff.mp h
      obtain ⟨m, source, rfl⟩ := ha.started_task ho
      have hne : j ≠ id := by
        rintro rfl
        cases ht.symm.trans hj
      exact (hg.locks.excludes (l := .pairing) hj rfl ht hf hne).1 rfl
    · obtain ⟨_, _, _, rfl⟩ := Output.isPaired_iff.mp h
      obtain ⟨-, rfl, -⟩ := ha.paired ho
      have hne : j ≠ id := by
        rintro rfl
        cases ht.symm.trans hj
      exact (hg.locks.excludes (l := .identity) hj rfl ht hf hne).1 rfl
  · refine ⟨Bool.eq_false_iff.mpr fun h => ?_, Bool.eq_false_iff.mpr fun h => ?_⟩
    · obtain ⟨_, _, rfl⟩ := Output.isStarted_iff.mp h
      cases ha.pairingMoves with
      | within _ _ hn | committed _ hn => exact hn _ _ ho
      | started hok =>
        have := Nat.lt_of_lt_of_le hold (elapsed_mono s.pairing.created hc)
        obtain ⟨_, -, -, -, hage, -⟩ := PairingCode.startForSource_ok hok
        exact absurd hage (Nat.not_le.mpr this)
      | installed => simp at ho
    · obtain ⟨_, _, _, rfl⟩ := Output.isPaired_iff.mp h
      obtain ⟨-, rfl, -⟩ := ha.paired ho
      obtain ⟨k, e, -, he, -⟩ := hg.tasks ht rfl
      rw [hp k] at he
      cases he

theorem Spent.advance {id : Nat} (hg : Grounded C host name s) (hs : Spent s)
    (ht : s.tasks id = some t) (hf : s.free t.awaits) (hc : s.clock ≤ env.r.first)
    (ha : AppState.Advance C (s.tick env) env id t s' out)
    (hlate : ∀ request result, t = .pairCommit request result → seconds 301 ≤ env.r.last)
    (hn : ∀ generated updated, t ≠ .genInstall generated updated) : Spent s' := by
  have hclock : s'.clock = env.r.last := ha.clocks.1
  by_cases hown : ∃ request result, t = .pairCommit request result
  · obtain ⟨request, result, rfl⟩ := hown
    have hconf := hg.tasks ht rfl
    refine .inr ?_
    rw [hclock]
    cases ha with
    | answered hplain => cases hplain
    | committed hcom | notCommitted hcom | panicked hcom =>
      exact commit_spends hconf hcom (hlate _ _ rfl)
  · rcases hs with ⟨j, request, result, hj⟩ | ⟨hp, hold⟩
    · refine .inl ⟨j, request, result, ?_⟩
      have hne : j ≠ id := by
        rintro rfl
        exact hown ⟨_, _, Option.some.inj (ht.symm.trans hj)⟩
      obtain ⟨t', hm⟩ := ha.moves
      simpa [hm.tasks, hne, AppState.tick] using hj
    · refine .inr ?_
      cases ha.pairingMoves with
      | within hw =>
        refine ⟨fun k => ?_, ?_⟩
        · cases hk : s'.pairing.pending.lookup k with
          | none => rfl
          | some e =>
            have := hw.pending hk
            rw [show (s.tick env).pairing = s.pairing from rfl, hp k] at this
            cases this
        · rw [hclock, hw.created]
          exact Nat.lt_of_lt_of_le hold (elapsed_mono _ (hc.trans env.r.first_le_last))
      | started hok =>
        have := Nat.lt_of_lt_of_le hold (elapsed_mono s.pairing.created hc)
        obtain ⟨_, -, -, -, hage, -⟩ := PairingCode.startForSource_ok hok
        exact absurd hage (Nat.not_le.mpr this)
      | committed => exact absurd ⟨_, _, rfl⟩ hown
      | installed => exact absurd rfl (hn _ _)

-- ---------------------------------------------------------------------------
-- Where codes go
-- ---------------------------------------------------------------------------

inductive CodeMoves (s : AppState) : Task → AppState → List Output → Prop
  | generated : out.any (·.isSaved) = true → s'.identity = s.identity →
      CodeMoves s .genIdentity s' out
  | installed : s'.identity = updated → s'.stored = s.stored →
      CodeMoves s (.genInstall generated updated) s' out
  | kept : (∀ generated updated, t ≠ .genInstall generated updated) → out.any (·.isSaved) = false →
      s'.stored = s.stored → s'.identity.pairingCode = s.identity.pairingCode → CodeMoves s t s' out
  | saved : t ≠ .genIdentity → (∀ generated updated, t ≠ .genInstall generated updated) →
      out.any (·.isSaved) = true → s'.stored = s'.identity →
      s'.identity.pairingCode = s.identity.pairingCode ∨ s'.identity.pairingCode = none →
      CodeMoves s t s' out

theorem AppState.Continues.not_saved {id : Nat} (h : AppState.Continues s id c s' out) :
    out.any (·.isSaved) = false := by
  cases h <;> rfl

theorem AppState.Advance.codeMoves {id : Nat} (h : AppState.Advance C s env id t s' out) :
    CodeMoves s t s' out := by
  cases h with
  | answered hp =>
    refine .kept ?_ rfl rfl rfl
    rintro generated updated rfl
    cases hp
  | statusVerified _ h | versionKnown h | versionSet h =>
    have hn := h.not_saved
    obtain ⟨tasks, rfl⟩ := h.frame
    exact .kept (by simp) hn rfl rfl
  | nonceSaved _ hu h =>
    obtain ⟨tasks, rfl⟩ := h.frame
    subst hu
    exact .saved (by simp) (by simp) rfl rfl (.inl rfl)
  | versionSaved hu =>
    subst hu
    exact .saved (by simp) (by simp) rfl rfl (.inl rfl)
  | pairSaved hu =>
    subst hu
    exact .saved (by simp) (by simp) rfl rfl (.inr rfl)
  | genSaved => exact .generated rfl rfl
  | genInstalled => exact .installed rfl rfl
  | _ => exact .kept (by simp) rfl rfl rfl

theorem Generations.advance_kept (g : Generations)
    (h : ∀ generated updated, t ≠ .genInstall generated updated) :
    g.advance false t = g := by
  cases t <;> first | rfl | exact absurd rfl (h _ _)

theorem Generations.advance_saved (g : Generations) (h : t ≠ .genIdentity)
    (h' : ∀ generated updated, t ≠ .genInstall generated updated) :
    g.advance true t = { g with stored := g.identity } := by
  cases t <;> first | rfl | exact absurd rfl h | exact absurd rfl (h' _ _)

/-- No code in use is older than the one in memory. -/
structure Ordered (s : AppState) (g : Generations) : Prop where
  given : g.memory < g.next ∧ g.identity < g.next ∧ g.stored < g.next
  identity : s.identity.pairingCode.isSome = true → g.memory ≤ g.identity
  stored : s.stored.pairingCode.isSome = true → g.memory ≤ g.stored

theorem Ordered.boot {stored : HostIdentity}
    (h : AppState.boot hostname stored nextTask wall env = some s) :
    Ordered s .first := by
  obtain ⟨p, -, rfl⟩ := boot_eq_some h
  exact ⟨by decide, fun _ => Nat.le_refl _, fun _ => Nat.le_refl _⟩

theorem Ordered.advance {id : Nat} (hg : Grounded C host name s) (ho : Ordered s g)
    (ht : s.tasks id = some t) (ha : AppState.Advance C (s.tick env) env id t s' out) :
    Ordered s' (g.advance (out.any (·.isSaved)) t) ∧
      g.memory ≤ (g.advance (out.any (·.isSaved)) t).memory := by
  obtain ⟨hm, hi, hs⟩ := ho.given
  cases ha.codeMoves with
  | generated hsaved hid =>
    rw [hsaved]
    refine ⟨⟨⟨Nat.lt_succ_of_lt hm, Nat.lt_succ_of_lt hi, Nat.lt_succ_self _⟩, ?_, fun _ =>
      Nat.le_of_lt hm⟩, Nat.le_refl _⟩
    rw [hid]
    exact ho.identity
  | installed =>
    have hgen := hg.installs ht
    refine ⟨⟨⟨hs, hs, hs⟩, fun _ => Nat.le_refl _, fun _ => Nat.le_refl _⟩, ho.stored ?_⟩
    rw [← hgen.stored, hgen.code]
    rfl
  | kept hn hsaved hst hid =>
    rw [hsaved, g.advance_kept hn]
    exact ⟨⟨ho.given, hid ▸ ho.identity, hst ▸ ho.stored⟩, Nat.le_refl _⟩
  | saved hn hn' hsaved hst hid =>
    rw [hsaved, g.advance_saved hn hn']
    have hkept : s'.identity.pairingCode.isSome = true → g.memory ≤ g.identity := by
      rcases hid with hid | hid <;> rw [hid]
      · exact ho.identity
      · simp
    exact ⟨⟨⟨hm, hi, hi⟩, hkept, hst ▸ hkept⟩, Nat.le_refl _⟩

theorem Ordered.next (hg : Grounded C host name s) (ho : Ordered s g) (h : HostStep C s i s' out) :
    Ordered s' (g.track s out i) ∧ g.memory ≤ (g.track s out i).memory := by
  cases h with
  | answered | spawned | cancelled => exact ⟨⟨ho.given, ho.identity, ho.stored⟩, Nat.le_refl _⟩
  | @advanced id t env _ _ ht _ _ _ ha =>
    have htrack : g.track s out (.advance id env) = g.advance (out.any (·.isSaved)) t := by
      simp only [Generations.track, ht]
    rw [htrack]
    exact ho.advance hg ht ha
  | restarted hb =>
    obtain ⟨p, -, rfl⟩ := boot_eq_some hb
    obtain ⟨hm, hi, hs⟩ := ho.given
    simp only [Generations.track]
    split
    · rename_i hcode
      exact ⟨⟨⟨hs, hs, hs⟩, fun _ => Nat.le_refl _, fun _ => Nat.le_refl _⟩, ho.stored hcode⟩
    · rename_i hcode
      exact ⟨⟨⟨Nat.lt_succ_self _, Nat.lt_succ_of_lt hs, Nat.lt_succ_of_lt hs⟩, fun h =>
        absurd h hcode, fun h => absurd h hcode⟩, Nat.le_of_lt hm⟩

def Used (tr : List (Nat × Output)) (n : Nat) : Prop := ∃ o, (n, o) ∈ tr ∧ o.isPaired = true

/-- After `a`, `b` may come: not if `a` is a pairing under the code that `b`
pairs or starts a session of. -/
def Single (a b : Nat × Output) : Prop :=
  a.2.isPaired = true → a.1 = b.1 → b.2.isPaired = false ∧ b.2.isStarted = false

structure SingleUse (tr : List (Nat × Output)) (s : AppState) (g : Generations) : Prop where
  known : ∀ a ∈ tr, a.1 < g.next
  given : g.memory < g.next ∧ g.identity < g.next ∧ g.stored < g.next
  stored : s.stored.pairingCode.isSome = true → ¬ Used tr g.stored
  identity : s.identity.pairingCode.isSome = true → ¬ Used tr g.identity
  spent : Used tr g.memory → Spent s
  sessions : ∀ {k e}, s.pairing.pending.lookup k = some e →
    ∃ id start, (g.memory, .started id start) ∈ tr ∧ start.sessionId = k
  once : tr.Pairwise Single
  origin : ∀ {n id request result}, (n, .paired id request result) ∈ tr →
    ∃ j start, (n, .started j start) ∈ tr ∧ request.sessionId = start.sessionId.val

theorem mem_marked {out : List Output} (h : (n, o) ∈ tr ++ out.map (m, ·)) :
    (n, o) ∈ tr ∨ n = m ∧ o ∈ out := by
  rcases List.mem_append.mp h with h | h
  · exact .inl h
  · obtain ⟨o', ho, heq⟩ := List.mem_map.mp h
    obtain ⟨rfl, rfl⟩ := Prod.mk.inj heq
    exact .inr ⟨rfl, ho⟩

theorem used_append {out : List Output} :
    Used (tr ++ out.map (m, ·)) n ↔ Used tr n ∨ n = m ∧ ∃ o ∈ out, o.isPaired = true := by
  constructor
  · rintro ⟨o, ho, hp⟩
    rcases mem_marked ho with ho | ⟨hn, ho⟩
    · exact .inl ⟨o, ho, hp⟩
    · exact .inr ⟨hn, o, ho, hp⟩
  · rintro (⟨o, ho, hp⟩ | ⟨rfl, o, ho, hp⟩)
    · exact ⟨o, List.mem_append_left _ ho, hp⟩
    · exact ⟨o, List.mem_append_right _ (List.mem_map_of_mem ho), hp⟩

theorem SingleUse.not_used_next (hi : SingleUse tr s g) : ¬ Used tr g.next := by
  rintro ⟨o, ho, -⟩
  exact Nat.lt_irrefl _ (hi.known _ ho)

-- ---------------------------------------------------------------------------
-- Steps and runs
-- ---------------------------------------------------------------------------

def Output.plain (o : Output) : Prop := o.isStarted = false ∧ o.isPaired = false

theorem SingleUse.known_next (hi : SingleUse tr s g) {out : List Output} (hn : g.next ≤ n) :
    ∀ a ∈ tr ++ out.map (g.memory, ·), a.1 < n := by
  rintro ⟨m, o⟩ ha
  rcases mem_marked ha with ha | ⟨rfl, -⟩
  · exact Nat.lt_of_lt_of_le (hi.known _ ha) hn
  · exact Nat.lt_of_lt_of_le hi.given.1 hn

theorem SingleUse.plain_next {out : List Output} (hi : SingleUse tr s g)
    (hout : ∀ o ∈ out, Output.plain o)
    (hn : g.next ≤ g'.next) (hm : g'.memory < g'.next ∧ g'.identity < g'.next ∧ g'.stored < g'.next)
    (hst : s'.stored.pairingCode.isSome = true → ¬ Used tr g'.stored)
    (hid : s'.identity.pairingCode.isSome = true → ¬ Used tr g'.identity)
    (hsp : Used tr g'.memory → Spent s')
    (hse : ∀ {k e}, s'.pairing.pending.lookup k = some e →
      ∃ id start, (g'.memory, .started id start) ∈ tr ∧ start.sessionId = k) :
    SingleUse (tr ++ out.map (g.memory, ·)) s' g' := by
  have hused {n} (h : Used (tr ++ out.map (g.memory, ·)) n) : Used tr n := by
    rcases used_append.mp h with h | ⟨-, o, ho, hp⟩
    · exact h
    · rw [(hout o ho).2] at hp
      cases hp
  refine ⟨hi.known_next hn, hm, fun h hu => hst h (hused hu), fun h hu => hid h (hused hu),
    fun hu => hsp (hused hu), ?_, ?_, ?_⟩
  · intro k e hk
    obtain ⟨id, start, hs, rfl⟩ := hse hk
    exact ⟨id, start, List.mem_append_left _ hs, rfl⟩
  · refine List.pairwise_append.mpr ⟨hi.once, ?_, ?_⟩
    · refine List.pairwise_of_forall_mem_list ?_
      rintro a ha b - hpa -
      obtain ⟨o, ho, rfl⟩ := List.mem_map.mp ha
      rw [(hout o ho).2] at hpa
      cases hpa
    · rintro a - b hb - -
      obtain ⟨o, ho, rfl⟩ := List.mem_map.mp hb
      exact ⟨(hout o ho).2, (hout o ho).1⟩
  · intro n id request result hp
    rcases mem_marked hp with hp | ⟨-, hp⟩
    · obtain ⟨j, start, hs, heq⟩ := hi.origin hp
      exact ⟨j, start, List.mem_append_left _ hs, heq⟩
    · cases (hout _ hp).2

theorem SingleUse.started_next {id : Nat} (hi : SingleUse tr s g) (hns : ¬ Used tr g.memory)
    (hst : s'.stored = s.stored) (hid : s'.identity = s.identity)
    (hse : ∀ {k e}, s'.pairing.pending.lookup k = some e →
      s.pairing.pending.lookup k = some e ∨ k = start.sessionId) :
    SingleUse (tr ++ [Output.started id start].map (g.memory, ·)) s' g := by
  have hused {n} (h : Used (tr ++ [Output.started id start].map (g.memory, ·)) n) : Used tr n := by
    rcases used_append.mp h with h | ⟨-, o, ho, hp⟩
    · exact h
    · obtain rfl := List.mem_singleton.mp ho
      cases hp
  refine ⟨hi.known_next (Nat.le_refl _), hi.given, fun h hu => hi.stored (hst ▸ h) (hused hu),
    fun h hu => hi.identity (hid ▸ h) (hused hu), fun hu => absurd (hused hu) hns, ?_, ?_, ?_⟩
  · intro k e hk
    rcases hse hk with hk | rfl
    · obtain ⟨j, start', hs, rfl⟩ := hi.sessions hk
      exact ⟨j, start', List.mem_append_left _ hs, rfl⟩
    · exact ⟨id, start, by simp, rfl⟩
  · refine List.pairwise_append.mpr ⟨hi.once, List.pairwise_singleton _ _, ?_⟩
    rintro ⟨n, o⟩ ha b hb hp heq
    obtain rfl := List.mem_singleton.mp hb
    obtain rfl : n = g.memory := heq
    exact absurd ⟨o, ha, hp⟩ hns
  · intro n j request result hp
    rcases mem_marked hp with hp | ⟨-, hp⟩
    · obtain ⟨j, start, hs, heq⟩ := hi.origin hp
      exact ⟨j, start, List.mem_append_left _ hs, heq⟩
    · cases List.mem_singleton.mp hp

theorem SingleUse.paired_next {id : Nat} {k : SessionId} (hi : SingleUse tr s g)
    (hns : ¬ Used tr g.memory)
    (hk : request.sessionId = k.val) (hpend : s.pairing.pending.lookup k = some e)
    (hst : s'.stored.pairingCode = none) (hid : s'.identity.pairingCode = none) (hsp : Spent s')
    (hse : s'.pairing = s.pairing) :
    SingleUse (tr ++ [Output.saved updated, .paired id request result].map (g.memory, ·)) s'
      { g with stored := g.identity } := by
  refine ⟨hi.known_next (Nat.le_refl _), ⟨hi.given.1, hi.given.2.1, hi.given.2.1⟩, by simp [hst],
    by simp [hid], fun _ => hsp, ?_, ?_, ?_⟩
  · intro k e hk
    rw [hse] at hk
    obtain ⟨j, start, hs, rfl⟩ := hi.sessions hk
    exact ⟨j, start, List.mem_append_left _ hs, rfl⟩
  · refine List.pairwise_append.mpr ⟨hi.once, ?_, ?_⟩
    · simp [Single, Output.isPaired]
    · rintro ⟨n, o⟩ ha b hb hp heq
      obtain ⟨o', -, rfl⟩ := List.mem_map.mp hb
      obtain rfl : n = g.memory := heq
      exact absurd ⟨o, ha, hp⟩ hns
  · intro n j request' result' hp
    rcases mem_marked hp with hp | ⟨hn, hp⟩
    · obtain ⟨j, start, hs, heq⟩ := hi.origin hp
      exact ⟨j, start, List.mem_append_left _ hs, heq⟩
    · obtain ⟨-, rfl, -⟩ : j = id ∧ request' = request ∧ result' = result := by simpa using hp
      obtain ⟨j, start, hs, rfl⟩ := hi.sessions hpend
      exact ⟨j, start, List.mem_append_left _ (hn ▸ hs), hk⟩

theorem AppState.Advance.pending_old {id : Nat} (h : AppState.Advance C s env id t s' out)
    (hstart : ∀ o ∈ out, o.isStarted = false)
    (hn : ∀ generated updated, t ≠ .genInstall generated updated)
    (hk : s'.pairing.pending.lookup k = some e) : s.pairing.pending.lookup k = some e := by
  cases h.pairingMoves with
  | within hw => exact hw.pending hk
  | started => cases hstart _ (List.mem_singleton.mpr rfl)
  | committed hcom =>
    rcases PairingCode.commit_cases hcom with ⟨heq, -⟩ | ⟨_, _, -, -, -, hempty, -⟩
    · rwa [heq] at hk
    · rw [hempty] at hk
      cases hk
  | installed => exact absurd rfl (hn _ _)

section
variable {id : Nat} (hg : Grounded C host name s) (hi : SingleUse tr s g) (ht : s.tasks id = some t)
  (hf : s.free t.awaits) (hc : s.clock ≤ env.r.first)
  (ha : AppState.Advance C (s.tick env) env id t s' out)
include hg hi ht hf hc ha

theorem SingleUse.advance_paired (ho : o ∈ out) (hp : o.isPaired = true) :
    SingleUse (tr ++ out.map (g.memory, ·)) s' (g.advance (out.any (·.isSaved)) t) := by
  have hns (hu : Used tr g.memory) : False := by
    rw [((hi.spent hu).silent hg ht hf hc ha o ho).2] at hp
    cases hp
  obtain ⟨j, request, result, rfl⟩ := Output.isPaired_iff.mp hp
  obtain ⟨rfl, rfl, htask, hpairing, hident, hstored, rfl⟩ := ha.paired ho
  obtain ⟨k, e, hk, he, -⟩ := hg.tasks ht rfl
  exact hi.paired_next hns hk he (by rw [hstored, hident]; rfl) (by rw [hident]; rfl)
    (.inl ⟨_, _, _, htask⟩) hpairing

theorem SingleUse.advance_started (ho : o ∈ out) (hp : o.isStarted = true) :
    SingleUse (tr ++ out.map (g.memory, ·)) s' (g.advance (out.any (·.isSaved)) t) := by
  have hns (hu : Used tr g.memory) : False := by
    rw [((hi.spent hu).silent hg ht hf hc ha o ho).1] at hp
    cases hp
  obtain ⟨j, start, rfl⟩ := Output.isStarted_iff.mp hp
  cases hm : ha.pairingMoves with
  | within _ _ hn | committed _ hn => exact absurd ho (hn _ _)
  | started hok =>
    obtain ⟨hid, hst⟩ := ha.identity_eq (by simp [Task.awaits]) rfl
    refine hi.started_next hns hst hid fun {k e} hk => ?_
    obtain ⟨shared, -, hp', rfl, -⟩ := PairingCode.startForSource_ok hok
    rw [hp', AList.lookup_insert'] at hk
    split at hk
    · exact .inr ‹_›
    · exact .inl (PairingCode.pending_pruneSessions.mp hk).1
  | installed => simp at ho

theorem SingleUse.advance_plain (hplain : ∀ o ∈ out, Output.plain o)
    (hlate : ∀ request result, t = .pairCommit request result → seconds 301 ≤ env.r.last) :
    SingleUse (tr ++ out.map (g.memory, ·)) s' (g.advance (out.any (·.isSaved)) t) := by
  have hsessions (hn : ∀ generated updated, t ≠ .genInstall generated updated) {k e}
      (hk : s'.pairing.pending.lookup k = some e) : s.pairing.pending.lookup k = some e :=
    ha.pending_old (fun o ho => (hplain o ho).1) hn hk
  have hspent (hn : ∀ generated updated, t ≠ .genInstall generated updated)
    (hu : Used tr g.memory) :
      Spent s' := (hi.spent hu).advance hg ht hf hc ha hlate hn
  cases ha.codeMoves with
  | generated hsaved hid =>
    rw [hsaved]
    obtain ⟨hm, hi', -⟩ := hi.given
    refine hi.plain_next hplain (Nat.le_succ _) ⟨Nat.lt_succ_of_lt hm,
      Nat.lt_succ_of_lt hi', Nat.lt_succ_self _⟩
      (fun _ => hi.not_used_next) ?_ (hspent (by simp)) fun hk =>
        hi.sessions (hsessions (by simp) hk)
    rw [hid]
    exact hi.identity
  | installed =>
    have hgen := hg.installs ht
    have hunused : ¬ Used tr g.stored := by
      refine hi.stored ?_
      rw [← hgen.stored, hgen.code]
      rfl
    refine hi.plain_next hplain (Nat.le_refl _) ⟨hi.given.2.2, hi.given.2.2, hi.given.2.2⟩
      (fun _ => hunused) (fun _ => hunused) (fun hu => absurd hu hunused) fun {k e} hk => ?_
    cases ha with
    | answered hp => cases hp
    | genInstalled =>
      obtain ⟨created, heq⟩ := hgen.fresh
      simp only [AppState.finish] at hk
      rw [heq] at hk
      cases hk
  | kept hn hsaved hst hid =>
    rw [hsaved, g.advance_kept hn]
    refine hi.plain_next hplain (Nat.le_refl _) hi.given ?_ ?_ (hspent hn) fun hk =>
      hi.sessions (hsessions hn hk)
    · rw [hst]
      exact hi.stored
    · rw [hid]
      exact hi.identity
  | saved hn hn' hsaved hst hid =>
    rw [hsaved, g.advance_saved hn hn']
    have hunused : s'.identity.pairingCode.isSome = true → ¬ Used tr g.identity := by
      rcases hid with hid | hid <;> rw [hid]
      · exact hi.identity
      · simp
    refine hi.plain_next hplain (Nat.le_refl _) ⟨hi.given.1, hi.given.2.1, hi.given.2.1⟩ ?_ hunused
      (hspent hn') fun hk => hi.sessions (hsessions hn' hk)
    rw [hst]
    exact hunused

theorem SingleUse.advance
    (hlate : ∀ request result, t = .pairCommit request result → seconds 301 ≤ env.r.last) :
    SingleUse (tr ++ out.map (g.memory, ·)) s' (g.advance (out.any (·.isSaved)) t) := by
  by_cases hpair : ∃ o ∈ out, o.isPaired = true
  · obtain ⟨o, ho, hp⟩ := hpair
    exact hi.advance_paired hg ht hf hc ha ho hp
  by_cases hstart : ∃ o ∈ out, o.isStarted = true
  · obtain ⟨o, ho, hp⟩ := hstart
    exact hi.advance_started hg ht hf hc ha ho hp
  simp only [not_exists, not_and, Bool.not_eq_true] at hpair hstart
  exact hi.advance_plain hg ht hf hc ha (fun o ho => ⟨hstart o ho, hpair o ho⟩) hlate

end

theorem SingleUse.boot {stored : HostIdentity}
    (h : AppState.boot hostname stored nextTask wall env = some s) :
    SingleUse [] s .first := by
  obtain ⟨p, hp, rfl⟩ := boot_eq_some h
  obtain ⟨created, hfresh⟩ := startPairing_fresh hp
  refine ⟨by simp, by decide, by rintro - ⟨_, ⟨⟩, -⟩, by rintro - ⟨_, ⟨⟩, -⟩, by rintro ⟨_, ⟨⟩,
    -⟩, ?_, .nil, by rintro _ _ _ _ ⟨⟩⟩
  intro k e hk
  rw [hfresh] at hk
  cases hk

theorem SingleUse.next (hg : Grounded C host name s) (hi : SingleUse tr s g)
    (h : HostStep C s i s' out) (hlate : commitsLate s i = true) :
    SingleUse (tr ++ out.map (g.memory, ·)) s' (g.track s out i) := by
  cases h with
  | answered =>
    exact hi.plain_next (by simp [Output.plain, Output.isStarted, Output.isPaired])
      (Nat.le_refl _) hi.given
      hi.stored hi.identity hi.spent hi.sessions
  | spawned =>
    exact hi.plain_next (by simp) (Nat.le_refl _) hi.given hi.stored hi.identity
      (fun hu => (hi.spent hu).imp_left (·.spawn hg.locks)) hi.sessions
  | @advanced id t env _ _ ht hf _ hc ha =>
    rw [show g.track s out (.advance id env) = g.advance (out.any (·.isSaved)) t by
      simp only [Generations.track, ht]]
    refine hi.advance hg ht hf hc ha ?_
    rintro request result rfl
    simpa [commitsLate, ht] using hlate
  | cancelled ht hsaved =>
    exact hi.plain_next (by simp) (Nat.le_refl _) hi.given hi.stored hi.identity
      (fun hu => (hi.spent hu).imp_left (·.drop ht hsaved)) hi.sessions
  | restarted hb =>
    obtain ⟨p, hp, rfl⟩ := boot_eq_some hb
    obtain ⟨created, hfresh⟩ := startPairing_fresh hp
    have hempty {k} : p.pending.lookup k = none := by
      rw [hfresh]
      rfl
    obtain ⟨hm, hid, hst⟩ := hi.given
    simp only [Generations.track]
    split
    · rename_i hcode
      exact hi.plain_next (by simp [Output.plain, Output.isStarted, Output.isPaired])
        (Nat.le_refl _)
        ⟨hst, hst, hst⟩ hi.stored hi.stored
          (fun hu => absurd hu (hi.stored hcode)) (by simp [hempty])
    · exact hi.plain_next (by simp [Output.plain, Output.isStarted, Output.isPaired])
        (Nat.le_succ _)
        ⟨Nat.lt_succ_self _, Nat.lt_succ_of_lt hst, Nat.lt_succ_of_lt hst⟩ hi.stored hi.stored
        (fun hu => absurd hu hi.not_used_next) (by simp [hempty])

/-- In every run, a code under which a credential was saved pairs no second
session and starts no further one; and what is saved under a code is saved for
one of its sessions. -/
theorem code_pairs_once (hboot : AppState.boot hostname stored nextTask wall env = some start)
    (h : Run (trackedStep C) (fun s i => commitsLate s.1 i = true) (start, .first) tr s) :
    tr.Pairwise (fun a b => a.2.isPaired = true → a.1 = b.1 → b.2.isPaired = false ∧
      b.2.isStarted = false) ∧ ∀ n id request result, (n, .paired id request result) ∈ tr →
        ∃ j start, (n, .started j start) ∈ tr ∧ request.sessionId = start.sessionId.val := by
  have hinv : Grounded C stored.hostId hostname s.1 ∧ SingleUse tr s.1 s.2 := by
    refine h.invariant (I := fun tr s => Grounded C stored.hostId hostname s.1 ∧
      SingleUse tr s.1 s.2) ?_ ?_
    · exact ⟨.boot hboot, .boot hboot⟩
    · rintro tr ⟨s, g⟩ i s' es ⟨hg, hi⟩ hlate htracked
      obtain ⟨⟨s'', out⟩, hs, heq⟩ := Option.map_eq_some_iff.mp htracked
      obtain ⟨rfl, rfl⟩ := Prod.mk.inj heq
      have hstep := hostStep_iff_cases hs
      exact ⟨hg.next hstep, hi.next hg hstep hlate⟩
  exact ⟨hinv.2.once, fun n id request result hp => hinv.2.origin hp⟩

/-- A `prost` that reads an empty body as the start of a session and `n :: c` as
the completion of the session `[n; 16]` with the confirmation `c`. -/
def pairingCrates : Crates :=
  { Crates.fixed [] (List.replicate 32 5) with
    decodePairRequest := fun
      | [] => some ⟨1, [], [], [], hostVersion⟩
      | n :: c => some ⟨1, [], List.replicate 16 n, c, hostVersion⟩ }

def pairBody (body : Bytes) : Input :=
  .request (.pair none ⟨[("content-type".toList, utf8 contentType)], body⟩)

def newHost : HostIdentity := .new (repeated 16 0) 123456 1000

def stepAt (t : Nat) (wall : List Nat) (id : Nat) : Input :=
  .advance id { Env.sample wall with r := .at (seconds t) }

def pairAt (t id : Nat) : List Input :=
  pairBody [] :: List.replicate 3 (stepAt t [] id) ++
    pairBody (1 :: List.replicate 32 5) :: List.replicate 4 (stepAt t [] (id + 1))

def generateAt (t id : Nat) : List Input :=
  [.request .generate, stepAt t [] id, stepAt t [1000] id, stepAt t [] id]

def newStart (t : Nat) : AppState where
  hostname := []
  identity := newHost
  stored := newHost
  pairing := .fresh ⟨formatCode 123456, validCode_formatCode 123456⟩ t
  authenticator := .new
  latestClientVersion := none
  identityLock := none
  pairingLock := none
  tasks _ := none
  nextTask := 0
  clock := t
  wall := 1000

theorem boot_newStart (t : Nat) :
    AppState.boot [] newHost 0 0 { Env.sample [1000] with r := .at t } = some (newStart t) := by
  refine boot_ok rfl ?_
  show PairingCode.fromCodeWithAge (formatCode 123456) (persistedCodeAge 1000 1000) t = _
  rw [fromCodeWithAge_valid (validCode_formatCode 123456),
    if_pos (by simp [subtractedAge, seconds])]
  simp [subtractedAge, seconds]

/-- Two codes, and a session paired under each. -/
theorem two_codes_pair_once_each :
    ∃ tr s, Run (trackedStep pairingCrates) (fun s i => commitsLate s.1 i = true)
        (newStart (seconds 400), .first) tr s ∧ tr.countP (·.2.isPaired) = 2 ∧
      tr.Pairwise (fun a b => a.2.isPaired = true → a.1 = b.1 →
        b.2.isPaired = false ∧ b.2.isStarted = false) := by
  obtain ⟨tr, s, hrun, hp⟩ := Run.exists_of_exec (trackedStep pairingCrates)
    (fun s i => commitsLate s.1 i = true) (newStart (seconds 400), .first)
    (pairAt 400 0 ++ generateAt 400 2 ++ pairAt 400 3) (fun _ tr => tr.countP (·.2.isPaired) = 2)
    (by decide +kernel)
  exact ⟨tr, s, hrun, of_decide_eq_true hp, (code_pairs_once (boot_newStart _) hrun).1⟩

end DeckyMyRig.Host
