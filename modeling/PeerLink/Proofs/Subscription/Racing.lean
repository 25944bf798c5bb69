import PeerLink.Proofs.Link.Clearing
import PeerLink.Proofs.Subscription.Completion
import PeerLink.Proofs.Subscription.Dealings

namespace PeerLink.Manager

def Sweeps (m : Manager) (mv : Move) : Prop :=
  ∃ (id : ClosingId) (a : Answer) (c : Closing),
    mv = .step (.closing id) a ∧ m.closings[id]? = some c ∧ c.stage = .clearingObservers

def Swept (ts : List Transition) : Prop := ∃ t ∈ ts, t.before.Sweeps t.move

/-- A registration has been entered and has not failed. -/
structure Holds (m : Manager) (ts : List Transition) (id : Nat) (r : Registration)
    (s : SubscriptionId) : Prop where
  present : m.registrations[id]? = some r
  entered : .entered id r.remote (.ok s) ∈ dealings ts
  stands : ∀ error, r.stage ≠ .finished (.error error)

def RegistrationStage.Confirmed : RegistrationStage → Prop
  | .spawning _ => True
  | .finished (.ok _) => True
  | _ => False

variable {m m' m₁ : Manager} {mv : Move} {hs : List Happening} {id j : Nat} {r r₁ r' : Registration}
  {s s' : SubscriptionId} {e : Endpoint} {ts : List Transition} {t : Transition}

theorem Swept.concat (h : Swept (ts ++ [t])) : Swept ts ∨ t.before.Sweeps t.move := by
  obtain ⟨u, hu, hc⟩ := h
  obtain hu | hu := List.mem_append.mp hu
  · exact .inl ⟨u, hu, hc⟩
  · cases List.mem_singleton.mp hu
    exact .inr hc

theorem Swept.append (h : Swept ts) : Swept (ts ++ [t]) := by
  obtain ⟨u, hu, hc⟩ := h
  exact ⟨u, List.mem_append_left _ hu, hc⟩

theorem Sweeps.observers (h : m.Sweeps mv) (hm : m.move mv = some (m', hs)) :
    m'.observers = {} := by
  obtain ⟨id, a, c, rfl, hc, hs'⟩ := h
  obtain ⟨⟨m₁, hs₁⟩, ho, hr⟩ := move_step hm
  obtain ⟨c', hc', hst⟩ := closingStep_cases ho
  cases hc.symm.trans hc'
  rw [reap_scope hr]
  cases hst with
  | clearObservers =>
    rw [clearObservers_scope]
    rfl
  | again he | swap he | cancel he | clearLinks he | collect he | await he | request he
  | retireIdle he | retireBusy he | flushPart he | flushEnd he | done he | giveUp he =>
    cases hs'.symm.trans he

theorem Sweeps.closed (h : m.Sweeps mv) (hf : Flagged m) : m.closed = true := by
  obtain ⟨id, a, c, -, hc, hst⟩ := h
  exact hf.past id c hc (by rw [hst]; nofun)

theorem Holds.stage (h : Holds m ts id r s) (hi : Informed m ts) :
    r.stage = .confirming s ∨ r.stage = .undoing s ∨ r.stage = .spawning s ∨
      r.stage = .finished (.ok ()) := by
  have ht := hi.present id r h.present
  have hmem := mem_answersTo.mpr h.entered
  cases hs : r.stage with
  | checking | inserting =>
    rw [hs] at ht
    rw [show answersTo id ts = [] from ht] at hmem
    cases hmem
  | confirming u | undoing u | spawning u =>
    rw [hs] at ht
    rw [show answersTo id ts = [(r.remote, .ok u)] from ht] at hmem
    cases List.mem_singleton.mp hmem
    simp
  | finished result =>
    cases result with
    | ok => simp
    | error error => exact absurd hs (h.stands error)

/-- A registration that holds a subscription has done so before, or has just entered it. It is
confirmed only while the manager is open. -/
theorem Holds.of_move (h : Holds m' (ts ++ [⟨m, mv, m', hs⟩]) id r₁ s) (hi : Informed m ts)
    (hm : m.move mv = some (m', hs)) :
    (∃ r, Holds m ts id r s ∧ r.remote = r₁.remote ∧
      (r₁.stage.Confirmed → r.stage.Confirmed ∨ m.closed = false)) ∨
    ¬r₁.stage.Confirmed ∧ m.observers.get? r₁.remote = none ∧
      m'.observers = m.observers.insert r₁.remote s := by
  have hdeal := move_deals hm
  obtain hd | hd := mem_dealings_concat h.entered
  · cases hr : m.registrations[id]? with
    | none =>
      have hn := mem_answersTo.mpr hd
      rw [hi.absent id hr] at hn
      cases hn
    | some r =>
      left
      obtain ⟨m₁, rfl, hst, hm'⟩ | ⟨hne, hr'⟩ := move_registration hm hr
      · obtain ⟨stage, hr'⟩ := hst.same hr
        have hr₁ := h.present
        rw [hm'] at hr₁
        cases hr'.symm.trans hr₁
        refine ⟨r, ⟨hr, hd, fun error he => ?_⟩, rfl, fun hc => ?_⟩
        · cases hst with
          | refuse hs | enter hs | taken hs | insert hs | withdraw hs | confirm hs | undo hs
          | spawn hs => cases he.symm.trans hs
        · cases hst with
          | confirm _ ho => exact .inr ho
          | spawn hs =>
            rw [hs]
            exact .inl trivial
          | insert =>
            cases (setRegistration_get (m := { m with subscriptions := _, observers := _ })
              hr _).symm.trans hr'
            cases hc
          | undo =>
            rw [removeObserver_scope] at hr'
            cases (setRegistration_get hr _).symm.trans hr'
            cases hc
          | _ =>
            cases (setRegistration_get hr _).symm.trans hr'
            cases hc
      · cases hr'.symm.trans h.present
        exact ⟨r₁, ⟨hr, hd, h.stands⟩, rfl, .inl⟩
  · right
    rw [hd] at hdeal
    obtain ⟨remote, observer, stage⟩ := r₁
    generalize hs' : s = s' at hdeal
    cases hdeal with
    | enter hr hs hn hr₁ ho =>
      cases hr₁.symm.trans h.present
      exact ⟨not_false, hn, hs' ▸ ho⟩

def ClosingStage.HalfDone : ClosingStage → Prop
  | .collecting => True
  | .clearingLinks _ => True
  | _ => False

/-- The entries of registrations, before and after a closing has been through the table. -/
structure Race (m : Manager) (ts : List Transition) : Prop where
  half : ∀ (id : ClosingId) c, m.closings[id]? = some c → c.stage.HalfDone → Swept ts
  emptied : Emptied ts → Swept ts
  closed : Swept ts → m.closed = true
  cancelled : Swept ts → m.cancelled = true
  before : ¬Swept ts → ∀ id r s, Holds m ts id r s → m.observers.get? r.remote = some s
  after : Swept ts → ∀ id r s, Holds m ts id r s → r.stage.Confirmed →
    ∃ t ∈ ts, t.before.Sweeps t.move ∧ t.before.observers.get? r.remote = some s
  left : Swept ts → ∀ e s, m.observers.get? e = some s →
    ∃ id r, Holds m ts id r s ∧ r.remote = e ∧ ¬r.stage.Confirmed
  single : ∀ i j r r' s s', Holds m ts i r s → Holds m ts j r' s' → r.stage.Confirmed →
    r'.stage.Confirmed → r.remote = r'.remote → i = j

theorem Race.new (address : Endpoint) (config : Config) (clock : Nat) :
    Race (new address config clock) [] := by
  have hs : ¬Swept [] := fun ⟨t, ht, _⟩ => List.not_mem_nil ht
  have he : ¬Emptied [] := fun ⟨t, ht, _⟩ => List.not_mem_nil ht
  refine ⟨fun id c hc => ?_, fun h => absurd h he, fun h => absurd h hs, fun h => absurd h hs,
    fun _ id r s h => ?_, fun h => absurd h hs, fun h => absurd h hs, fun i j r r' s s' h => ?_⟩
  · simp [Manager.new] at hc
  · cases h.entered
  · cases h.entered

theorem ClosingStep.halfDone {id : ClosingId} {c c₁ : Closing} {a : Answer}
    (h : ClosingStep m id c a m₁ hs) (hc : m.closings[id]? = some c)
    (h₁ : m₁.closings[id]? = some c₁) (hd : c₁.stage.HalfDone) :
    c.stage = .clearingObservers ∨ c.stage.HalfDone := by
  cases h with
  | clearObservers he => exact .inl he
  | collect he | clearLinks he =>
    rw [he]
    exact .inr trivial
  | _ =>
    cases (setClosing_get hc _).symm.trans h₁
    cases hd

theorem Race.half_move (h : Race m ts) (hm : m.move mv = some (m', hs)) {i : ClosingId}
    {c' : Closing} (hc' : m'.closings[i]? = some c') (hd : c'.stage.HalfDone) :
    Swept (ts ++ [⟨m, mv, m', hs⟩]) := by
  obtain hc | hc | ⟨a, m₁, hs₁, c, rfl, hc, hst, hp⟩ := move_closing hm hc'
  · exact (h.half i c' hc hd).append
  · rw [hc] at hd
    cases hd
  · rw [reap_scope hp] at hc'
    obtain he | he := hst.halfDone hc hc' hd
    · exact ⟨_, List.mem_concat_self, i, a, c, rfl, hc, he⟩
    · exact (h.half i c hc he).append

theorem RegistrationStep.undone (h : RegistrationStep m id r m₁)
    (hr : m.registrations[id]? = some r) (hu : r.stage = .undoing s)
    (h₁ : m₁.registrations[id]? = some r₁) : r₁.stage = .finished (.error .closed) := by
  cases h with
  | undo =>
    rw [removeObserver_scope] at h₁
    cases (setRegistration_get hr _).symm.trans h₁
    rfl
  | refuse hs | enter hs | taken hs | insert hs | withdraw hs | confirm hs | spawn hs =>
    cases hu.symm.trans hs

/-- Before a closing comes to the table, an entry is taken out by its own registration only. -/
theorem Race.before_move (h : Race m ts) (hi : Informed m ts) (ha : Addressed m ts)
    (hm : m.move mv = some (m', hs)) (hu : ∀ e, mv ≠ .unregister e)
    (hn : ¬Swept (ts ++ [⟨m, mv, m', hs⟩])) (hh : Holds m' (ts ++ [⟨m, mv, m', hs⟩]) id r₁ s) :
    m'.observers.get? r₁.remote = some s := by
  have hn₀ : ¬Swept ts := fun hs => hn hs.append
  obtain ⟨r, hr, hrem, -⟩ | ⟨-, hnone, ho⟩ := hh.of_move hi hm
  · have hk := h.before hn₀ id r s hr
    obtain ⟨m₁, hs₁, hst, hm', -⟩ := move_stir hm
    have hobs : m'.observers = m₁.observers := by rw [hm']
    rw [hrem] at hk
    obtain hk₁ | he | ⟨j, q, u, rfl, hq, hqu, hqr⟩ | ⟨i, c, rfl, hc, hcs⟩ := hst.leaves hk
    · rw [hobs]
      exact hk₁
    · exact absurd he (hu _)
    · -- whoever withdraws the entry holds it, so it is the registration itself
      have hq' : Holds m ts j q u := by
        refine ⟨hq, mem_answersTo.mp ?_, fun error he => by cases he.symm.trans hqu⟩
        have ht := hi.present j q hq
        rw [hqu] at ht
        rw [show answersTo j ts = [(q.remote, .ok u)] from ht]
        exact List.mem_singleton_self _
      have hsame : s = u := by
        have hk' := h.before hn₀ j q u hq'
        rw [hqr] at hk'
        exact Option.some.inj (hk.symm.trans hk')
      subst hsame
      obtain rfl := ha.once id j _ _ s hr.entered hq'.entered
      obtain ⟨m₂, -, hreg, hm₂⟩ | ⟨hne, -⟩ := move_registration hm hq
      · have hp := hh.present
        rw [hm₂] at hp
        exact absurd (hreg.undone hq hqu hp) (hh.stands _)
      · exact absurd rfl (hne _)
    · exact absurd ⟨_, List.mem_concat_self, i, .none, c, rfl, hc, hcs⟩ hn
  · rw [ho]
    exact (Table.get?_insert hnone).trans (if_pos rfl)

theorem Race.after_move (h : Race m ts) (hi : Informed m ts) (hm : m.move mv = some (m', hs))
    (hs' : Swept (ts ++ [⟨m, mv, m', hs⟩])) (hh : Holds m' (ts ++ [⟨m, mv, m', hs⟩]) id r₁ s)
    (hc : r₁.stage.Confirmed) : ∃ t ∈ ts ++ [⟨m, mv, m', hs⟩],
      t.before.Sweeps t.move ∧ t.before.observers.get? r₁.remote = some s := by
  obtain ⟨r, hr, hrem, hconf⟩ | ⟨hn, -⟩ := hh.of_move hi hm
  · rw [← hrem]
    by_cases hsw : Swept ts
    · obtain hconf | ho := hconf hc
      · obtain ⟨t, ht, hk⟩ := h.after hsw id r s hr hconf
        exact ⟨t, List.mem_append_left _ ht, hk⟩
      · cases ho.symm.trans (h.closed hsw)
    · exact ⟨_, List.mem_concat_self, hs'.concat.resolve_left hsw, h.before hsw id r s hr⟩
  · exact absurd hc hn

theorem Race.left_move (h : Race m ts) (hi : Informed m ts) (hm : m.move mv = some (m', hs))
    (hs' : Swept (ts ++ [⟨m, mv, m', hs⟩])) (hk : m'.observers.get? e = some s) :
    ∃ id r, Holds m' (ts ++ [⟨m, mv, m', hs⟩]) id r s ∧ r.remote = e ∧ ¬r.stage.Confirmed := by
  obtain hsw | hsw := hs'.concat
  · have hkeep : ∀ {id e s}, .entered id e (.ok s) ∈ dealings ts →
        .entered id e (.ok s) ∈ dealings (ts ++ [⟨m, mv, m', hs⟩]) := fun hd => by
      rw [dealings_concat]
      exact List.mem_append_left _ hd
    by_cases hk₀ : m.observers.get? e = some s
    · obtain ⟨id, r, hr, rfl, hconf⟩ := h.left hsw e s hk₀
      obtain ⟨m₁, rfl, hst, hm'⟩ | ⟨-, hr'⟩ := move_registration hm hr.present
      · have hobs : m'.observers = m₁.observers := by rw [hm']
        have hreg : m'.registrations = m₁.registrations := by rw [hm']
        cases hst with
        | @withdraw u =>
          exact ⟨id, { r with stage := .undoing u },
            ⟨hreg ▸ setRegistration_get hr.present _, hkeep hr.entered, fun _ he => by cases he⟩,
            rfl, not_false⟩
        | confirm _ ho => cases ho.symm.trans (h.closed hsw)
        | undo =>
          rw [hobs] at hk
          exact absurd rfl (removeObserver_get? hk).2
        | spawn he =>
          rw [he] at hconf
          exact absurd trivial hconf
        | refuse he | enter he | taken he | insert he =>
          obtain hst | hst | hst | hst := hr.stage hi <;> cases he.symm.trans hst
      · exact ⟨id, r, ⟨hr', hkeep hr.entered, hr.stands⟩, rfl, hconf⟩
    · have hdeal := move_deals hm
      generalize hd : (Transition.mk m mv m' hs).dealing? = d at hdeal
      cases hdeal with
      | @enter id r _ hr _ hn hr₁ ho =>
        rw [ho, show _ = _ from Table.get?_insert hn] at hk
        split at hk
        · next he =>
          cases hk
          refine ⟨id, _, ⟨hr₁, ?_, fun _ he' => by cases he'⟩, he.symm, not_false⟩
          rw [dealings_concat, hd]
          exact List.mem_append_right _ List.mem_cons_self
        · exact absurd hk hk₀
      | undo _ _ ho | remove ho =>
        rw [ho] at hk
        exact absurd (removeObserver_get? hk).1 hk₀
      | aside ho | turnAway _ _ _ _ ho | find _ _ _ _ ho | miss _ _ _ ho =>
        rw [ho] at hk
        exact absurd hk hk₀
      | clear _ _ ho =>
        rw [ho] at hk
        cases hk
  · rw [hsw.observers hm] at hk
    cases hk

theorem Race.single_move (h : Race m ts) (hi : Informed m ts) (ha : Addressed m ts)
    (hm : m.move mv = some (m', hs)) (hr : Holds m' (ts ++ [⟨m, mv, m', hs⟩]) id r s)
    (hr' : Holds m' (ts ++ [⟨m, mv, m', hs⟩]) j r' s') (hc : r.stage.Confirmed)
    (hc' : r'.stage.Confirmed) (he : r.remote = r'.remote) : id = j := by
  obtain ⟨q, hq, hrem, hconf⟩ | ⟨hn, -⟩ := hr.of_move hi hm
  · obtain ⟨q', hq', hrem', hconf'⟩ | ⟨hn, -⟩ := hr'.of_move hi hm
    · have hsame : q.remote = q'.remote := hrem.trans (he.trans hrem'.symm)
      -- as long as the manager is open, both have the one entry of their endpoint
      have hopen : m.closed = false → id = j := fun ho => by
        have hsw : ¬Swept ts := fun hsw => by cases ho.symm.trans (h.closed hsw)
        have hk := h.before hsw id q s hq
        rw [hsame, h.before hsw j q' s' hq'] at hk
        cases hk
        exact ha.once id j _ _ _ hq.entered hq'.entered
      obtain hconf | ho := hconf hc
      · obtain hconf' | ho := hconf' hc'
        · exact h.single id j q q' s s' hq hq' hconf hconf' hsame
        · exact hopen ho
      · exact hopen ho
    · exact absurd hc' hn
  · exact absurd hc hn

theorem Race.move (h : Race m ts) (hv : Voiced m ts) (hi : Informed m ts) (ha : Addressed m ts)
    (hm : m.move mv = some (m', hs)) (hu : ∀ e, mv ≠ .unregister e) :
    Race m' (ts ++ [⟨m, mv, m', hs⟩]) where
  half _ _ hc hd := h.half_move hm hc hd
  emptied he := by
    obtain he | ⟨i, a, c, ls, -, hc, hst⟩ := he.concat
    · exact (h.emptied he).append
    · exact (h.half i c hc (by rw [hst]; trivial)).append
  closed hs' := by
    obtain hsw | hsw := hs'.concat
    · exact (move_later hm).closed (h.closed hsw)
    · exact (move_later hm).closed (hsw.closed hv.served.flagged)
  cancelled hs' := by
    obtain hsw | ⟨i, a, c, -, hc, hst⟩ := hs'.concat
    · exact (move_later hm).cancelled (h.cancelled hsw)
    · exact (move_later hm).cancelled (hv.traced.clearing i c hc hst)
  before hn _ _ _ hh := h.before_move hi ha hm hu hn hh
  after hs' _ _ _ hh hc := h.after_move hi hm hs' hh hc
  left hs' _ _ hk := h.left_move hi hm hs' hk
  single _ _ _ _ _ _ hr hr' hc hc' he := h.single_move hi ha hm hr hr' hc hc' he

end PeerLink.Manager
