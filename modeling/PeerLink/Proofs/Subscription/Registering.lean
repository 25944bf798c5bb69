import PeerLink.Proofs.Subscription.Handles

namespace PeerLink.Manager

def RegistrationStage.subscription? : RegistrationStage → Option SubscriptionId
  | .confirming s => some s
  | .undoing s => some s
  | .spawning s => some s
  | _ => none

/-- Every registration has a subscription of its own, which has not started; it takes it back only
when the manager has been closed. -/
structure Prepared (m : Manager) : Prop where
  own : ∀ (id : Nat) r s, m.registrations[id]? = some r → r.stage.subscription? = some s →
    ∃ b, m.subscriptions[s]? = some b ∧ b.stage = .unstarted
  apart : ∀ (id j : Nat) r r' s, m.registrations[id]? = some r → m.registrations[j]? = some r' →
    r.stage.subscription? = some s → r'.stage.subscription? = some s → id = j
  late : ∀ (id : Nat) r s, m.registrations[id]? = some r → r.stage = .undoing s → m.closed = true

variable {m m' m₁ : Manager} {mv : Move} {hs : List Happening} {s : SubscriptionId}
  {b b₁ : Subscription} {id j : Nat} {r r₁ : Registration} {k : Endpoint}

theorem setRegistration_get (hr : m.registrations[id]? = some r) (stage : RegistrationStage) :
    (m.setRegistration id stage).registrations[id]? = some { r with stage } := by
  simp [setRegistration, hr]

theorem RegistrationStep.others (h : RegistrationStep m id r m₁) (hj : j ≠ id) :
    m₁.registrations[j]? = m.registrations[j]? := by
  cases h with
  | undo =>
    rw [removeObserver_scope]
    exact List.getElem?_modify_ne _ _ hj.symm
  | _ => exact List.getElem?_modify_ne _ _ hj.symm

theorem Stir.registrations (h : Stir m mv m₁ hs) (h₁ : m₁.registrations[id]? = some r₁) :
    (m.registrations[id]? = some r₁ ∧ mv ≠ .step (.registration id) .none) ∨ r₁.stage = .checking ∨
      ∃ r, mv = .step (.registration id) .none ∧ m.registrations[id]? = some r ∧
        RegistrationStep m id r m₁ := by
  cases h with
  | aside hm _ hg =>
    rw [hm] at h₁
    exact .inl ⟨h₁, hg _ _⟩
  | arrive | read | locate | hand => exact .inl ⟨h₁, nofun⟩
  | ask =>
    obtain h₁ | ⟨-, rfl⟩ := getElem?_concat_cases h₁
    · exact .inl ⟨h₁, nofun⟩
    · exact .inr (.inl rfl)
  | unregister =>
    rw [removeObserver_scope] at h₁
    exact .inl ⟨h₁, nofun⟩
  | @registration j r _ hr h =>
    by_cases hj : id = j
    · subst hj
      exact .inr (.inr ⟨r, rfl, hr, h⟩)
    · exact .inl ⟨(h.others hj).symm.trans h₁, fun e => hj (by cases e; rfl)⟩
  | dispatch _ h =>
    refine .inl ⟨?_, nofun⟩
    cases h <;> exact h₁
  | clear =>
    rw [clearObservers_scope] at h₁
    exact .inl ⟨h₁, nofun⟩

theorem RegistrationStep.subscription (h : RegistrationStep m id r m₁)
    (hr : m.registrations[id]? = some r) (h₁ : m₁.registrations[id]? = some r₁)
    (hs : r₁.stage.subscription? = some s) :
    r.stage.subscription? = some s ∧ m₁.subscriptions = m.subscriptions ∨
      s = m.subscriptions.length ∧ ∃ b, m₁.subscriptions[s]? = some b ∧ b.stage = .unstarted := by
  cases h with
  | refuse | enter | taken | spawn =>
    cases (setRegistration_get hr _).symm.trans h₁
    cases hs
  | undo =>
    rw [removeObserver_scope] at h₁
    cases (setRegistration_get hr _).symm.trans h₁
    cases hs
  | withdraw he | confirm he =>
    cases (setRegistration_get hr _).symm.trans h₁
    exact .inl ⟨by rw [he]; exact hs, rfl⟩
  | insert =>
    cases (setRegistration_get hr _).symm.trans h₁
    cases hs
    exact .inr ⟨rfl, _, List.getElem?_concat_length, rfl⟩

theorem Prepared.new (address : Endpoint) (config : Config) (clock : Nat) :
    Prepared (new address config clock) := by
  constructor
  · intro id r s h
    simp [Manager.new] at h
  · intro id j r r' s h
    simp [Manager.new] at h
  · intro id r s h
    simp [Manager.new] at h

theorem Prepared.own_stir (h : Prepared m) (hst : Stir m mv m₁ hs)
    (h₁ : m₁.registrations[id]? = some r₁) (hs' : r₁.stage.subscription? = some s) :
    ∃ b, m₁.subscriptions[s]? = some b ∧ b.stage = .unstarted := by
  obtain ⟨h₁, hmv⟩ | hc | ⟨r, rfl, hr, hreg⟩ := hst.registrations h₁
  · obtain ⟨b, hb, hu⟩ := h.own id r₁ s h₁ hs'
    obtain ⟨b₁, hb₁, hf⟩ := hst.fate hb
    refine ⟨b₁, hb₁, ?_⟩
    cases hf with
    | keep => exact hu
    | push => exact (push_stage _ _).trans hu
    | halt hd | deliver hd | complete hd => cases hu.symm.trans hd
    | undo hr he | spawn hr he =>
      have hsame := h.apart _ _ _ _ s h₁ hr hs' (by rw [he]; rfl)
      exact absurd (hsame ▸ rfl) hmv
  · rw [hc] at hs'
    cases hs'
  · obtain ⟨hs', he⟩ | ⟨-, hb⟩ := hreg.subscription hr h₁ hs'
    · rw [he]
      exact h.own id r s hr hs'
    · exact hb

theorem Prepared.stir (h : Prepared m) (hst : Stir m mv m₁ hs)
    (hl : m.closed = true → m₁.closed = true) : Prepared m₁ := by
  have hlt : ∀ (i : Nat) (r : Registration), m.registrations[i]? = some r →
      r.stage.subscription? ≠ some m.subscriptions.length := by
    intro i r hi he
    obtain ⟨b, hb, -⟩ := h.own i r _ hi he
    exact absurd (List.getElem?_eq_some_iff.mp hb).1 (Nat.lt_irrefl _)
  refine ⟨fun i r s hi hs' => h.own_stir hst hi hs', fun i j r r' s hi hj hs' hs'' => ?_,
    fun i r s hi he => ?_⟩
  · obtain ⟨hi₀, hmv⟩ | hc | ⟨r₀, rfl, hi₀, hreg⟩ := hst.registrations hi
    · obtain ⟨hj₀, -⟩ | hc | ⟨r₀, rfl, hj₀, hreg⟩ := hst.registrations hj
      · exact h.apart i j r r' s hi₀ hj₀ hs' hs''
      · rw [hc] at hs''
        cases hs''
      · obtain ⟨hs'', -⟩ | ⟨rfl, -⟩ := hreg.subscription hj₀ hj hs''
        · exact h.apart i j r r₀ s hi₀ hj₀ hs' hs''
        · exact absurd hs' (hlt i r hi₀)
    · rw [hc] at hs'
      cases hs'
    · obtain ⟨hj₀, hmv⟩ | hc | ⟨r₁, he, hj₀, -⟩ := hst.registrations hj
      · obtain ⟨hs', -⟩ | ⟨rfl, -⟩ := hreg.subscription hi₀ hi hs'
        · exact h.apart i j r₀ r' s hi₀ hj₀ hs' hs''
        · exact absurd hs'' (hlt j r' hj₀)
      · rw [hc] at hs''
        cases hs''
      · cases he
        rfl
  · obtain ⟨hi₀, -⟩ | hc | ⟨r₀, rfl, hi₀, hreg⟩ := hst.registrations hi
    · exact hl (h.late i r s hi₀ he)
    · cases he.symm.trans hc
    · cases hreg with
      | withdraw _ hc => exact hl hc
      | undo =>
        rw [removeObserver_scope] at hi
        cases (setRegistration_get hi₀ _).symm.trans hi
        cases he
      | _ =>
        cases (setRegistration_get hi₀ _).symm.trans hi
        cases he

structure Served (m : Manager) : Prop where
  flagged : Flagged m
  counted : Counted m
  prepared : Prepared m
  used : m.closed = false → ∀ s, 0 < m.uses s → ∃ b, m.subscriptions[s]? = some b ∧ b.stage ≠ .ended

theorem Served.new (address : Endpoint) (config : Config) (clock : Nat) :
    Served (new address config clock) := by
  refine ⟨.new address config clock, .new address config clock, .new address config clock,
    fun _ s h => ?_⟩
  simp [uses, Manager.new, Table.values] at h

theorem Served.listed (h : Served m) (ho : m.closed = false) (k : Endpoint) (s : SubscriptionId)
    (hk : m.observers.get? k = some s) : ∃ b, m.subscriptions[s]? = some b ∧ b.stage ≠ .ended :=
  h.used ho s (uses_pos_of_get? hk)

/-- While something leads to its queue, a dispatch of an open manager does not end. -/
theorem Fate.not_ended (hf : Fate m s b mv b₁ hs) (h : Served m) (ho : m.closed = false)
    (hb : m.subscriptions[s]? = some b) (hu : 0 < m.uses s) (hn : b.stage ≠ .ended) :
    b₁.stage ≠ .ended := by
  cases hf with
  | keep | deliver => exact hn
  | push => exact fun he => hn ((push_stage _ _).symm.trans he)
  | halt _ hc => cases ho.symm.trans (h.flagged.cancelled hc)
  | complete _ _ _ hh => exact absurd hh (Nat.ne_of_gt (h.counted.exact s b hb ▸ hu))
  | undo hr he => cases ho.symm.trans (h.prepared.late _ _ s hr he)
  | spawn => simp

theorem removeObserver_get? {e : Endpoint} (h : (m.removeObserver e).observers.get? k = some s) :
    m.observers.get? k = some s ∧ k ≠ e := by
  rw [removeObserver] at h
  split at h
  · next hn =>
    refine ⟨h, ?_⟩
    rintro rfl
    cases hn.symm.trans h
  · by_cases hke : k = e
    · cases (if_pos hke).symm.trans (Table.get?_erase.symm.trans h)
    · exact ⟨((if_neg hke).symm.trans (Table.get?_erase.symm.trans h)), hke⟩

theorem removeObserver_get?_of_ne {e : Endpoint} (hk : m.observers.get? k = some s) (hke : k ≠ e) :
    (m.removeObserver e).observers.get? k = some s := by
  rw [removeObserver]
  split
  · exact hk
  · exact Table.get?_erase.trans ((if_neg hke).trans hk)

/-- An observer is taken out of the table by being unregistered, by a registration for its endpoint
that is withdrawn, or with all others by a closing. -/
theorem Stir.leaves (h : Stir m mv m₁ hs) (hk : m.observers.get? k = some s) :
    m₁.observers.get? k = some s ∨ mv = .unregister k ∨
      (∃ id r t, mv = .step (.registration id) .none ∧ m.registrations[id]? = some r ∧
        r.stage = .undoing t ∧ r.remote = k) ∨
      ∃ (id : ClosingId) (c : Closing), mv = .step (.closing id) .none ∧
        m.closings[id]? = some c ∧ c.stage = .clearingObservers := by
  cases h with
  | aside hm =>
    left
    rw [hm]
    exact hk
  | arrive | read | locate | hand | ask => exact .inl hk
  | @unregister e =>
    by_cases hke : k = e
    · exact .inr (.inl (hke ▸ rfl))
    · exact .inl (removeObserver_get?_of_ne hk hke)
  | dispatch _ h =>
    left
    cases h <;> exact hk
  | @clear id c _ hc hs => exact .inr (.inr (.inr ⟨id, c, rfl, hc, hs⟩))
  | @registration id r _ hr h =>
    cases h with
    | insert _ hn =>
      left
      refine (Table.get?_insert hn).trans ((if_neg ?_).trans hk)
      rintro rfl
      cases hn.symm.trans hk
    | @undo t he =>
      by_cases hke : k = r.remote
      · exact .inr (.inr (.inl ⟨id, r, t, rfl, hr, he, hke.symm⟩))
      · exact .inl (removeObserver_get?_of_ne hk hke)
    | _ => exact .inl hk

theorem Stir.stays (h : Stir m mv m₁ hs) (hm : Served m) (ho : m.closed = false)
    (hk : m.observers.get? k = some s) (hmv : mv ≠ .unregister k) :
    m₁.observers.get? k = some s := by
  obtain hk | he | ⟨id, r, t, -, hr, he, -⟩ | ⟨id, c, -, hc, hs⟩ := h.leaves hk
  · exact hk
  · exact absurd he hmv
  · cases ho.symm.trans (hm.prepared.late id r t hr he)
  · cases ho.symm.trans (hm.flagged.past id c hc (by rw [hs]; nofun))

theorem Served.move (h : Served m) (hm : m.move mv = some (m', hs)) : Served m' := by
  have hl := move_later hm
  obtain ⟨m₁, hs₁, hst, hm', -⟩ := move_stir hm
  have hclosed : m'.closed = m₁.closed := by rw [hm']
  have hprep : Prepared m₁ := h.prepared.stir hst fun hc => hclosed ▸ hl.closed hc
  refine ⟨h.flagged.move hm, (h.counted.stir hst).congr (by rw [hm']) (by rw [hm']) (by rw [hm']),
    ?_, fun ho s hu => ?_⟩
  · rw [hm']
    exact ⟨hprep.own, hprep.apart, hprep.late⟩
  · have ho₀ : m.closed = false := hl.opened ho
    have hc₁ : Counted m₁ := h.counted.stir hst
    have huses : m'.uses s = m₁.uses s := by rw [hm']; rfl
    rw [huses] at hu
    rw [hm']
    by_cases hlt : s < m.subscriptions.length
    · have hu₀ : 0 < m.uses s := Nat.pos_of_ne_zero fun hz =>
        absurd (hst.unused h.counted.keyed hlt hz) (Nat.ne_of_gt hu)
      obtain ⟨b, hb, hn⟩ := h.used ho₀ s hu₀
      obtain ⟨b₁, hb₁, hf⟩ := hst.fate hb
      exact ⟨b₁, hb₁, hf.not_ended h ho₀ hb hu₀ hn⟩
    · have hlt₁ : s < m₁.subscriptions.length := hc₁.made s hu
      have hb₁ := List.getElem?_eq_getElem hlt₁
      have hnew := (hst.fresh (List.getElem?_eq_none (Nat.not_lt.mp hlt)) hb₁).2
      exact ⟨_, hb₁, fun he => by cases hnew.symm.trans he⟩

def Hears (m : Manager) (k : Endpoint) (s : SubscriptionId) : Prop :=
  m.observers.get? k = some s ∧ ∃ b, m.subscriptions[s]? = some b ∧ b.stage = .running

theorem Hears.move (h : Hears m k s) (hm : Served m) (hmv : m.move mv = some (m', hs))
    (ho : m'.closed = false) (hne : mv ≠ .unregister k) : Hears m' k s := by
  obtain ⟨hk, b, hb, hr⟩ := h
  have ho₀ : m.closed = false := (move_later hmv).opened ho
  obtain ⟨m₁, hs₁, hst, hm', -⟩ := move_stir hmv
  obtain ⟨b₁, hb₁, hf⟩ := hst.fate hb
  have hn := hf.not_ended hm ho₀ hb (uses_pos_of_get? hk) (by rw [hr]; nofun)
  rw [Hears, hm']
  refine ⟨hst.stays hm ho₀ hk hne, b₁, hb₁, ?_⟩
  cases hf with
  | keep | deliver => exact hr
  | push => exact (push_stage _ _).trans hr
  | halt | complete | undo => exact absurd rfl hn
  | spawn => rfl

end PeerLink.Manager
