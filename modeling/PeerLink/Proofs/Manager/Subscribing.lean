import PeerLink.Proofs.Manager.Tables
import PeerLink.Proofs.Manager.Transitions

namespace PeerLink.Manager

variable (m : Manager)

/-- The steps of a registration. -/
inductive RegistrationStep (id : Nat) (r : Registration) : Manager → Prop where
  | refuse (hs : r.stage = .checking) (hc : m.closed = true) :
    RegistrationStep id r (m.setRegistration id (.finished (.error .closed)))
  | enter (hs : r.stage = .checking) (hc : m.closed = false) :
    RegistrationStep id r (m.setRegistration id .inserting)
  | taken {s} (hs : r.stage = .inserting) (ho : m.observers.get? r.remote = some s) :
    RegistrationStep id r (m.setRegistration id (.finished (.error (.alreadyRegistered r.remote))))
  | insert (hs : r.stage = .inserting) (ho : m.observers.get? r.remote = none) :
    RegistrationStep id r
      (setRegistration
        { m with
          subscriptions := m.subscriptions ++ [{ remote := r.remote, observer := r.observer }]
          observers := m.observers.insert r.remote m.subscriptions.length }
        id (.confirming m.subscriptions.length))
  | withdraw {s} (hs : r.stage = .confirming s) (hc : m.closed = true) :
    RegistrationStep id r (m.setRegistration id (.undoing s))
  | confirm {s} (hs : r.stage = .confirming s) (hc : m.closed = false) :
    RegistrationStep id r (m.setRegistration id (.spawning s))
  | undo {s} (hs : r.stage = .undoing s) :
    RegistrationStep id r
      (((m.removeObserver r.remote).modifySubscription s
        fun s => { s with stage := .ended }).setRegistration id (.finished (.error .closed)))
  | spawn {s} (hs : r.stage = .spawning s) :
    RegistrationStep id r
      ((m.modifySubscription s fun s => { s with stage := .running }).setRegistration id
        (.finished (.ok ())))

inductive DispatchStep (id : SubscriptionId) (s : Subscription) :
    Manager → List Happening → Prop where
  | halt (hs : s.stage = .running) (hc : m.cancelled = true) :
    DispatchStep id s (m.modifySubscription id fun s => { s with stage := .ended }) []
  | deliver {item rest} (hs : s.stage = .running) (hc : m.cancelled = false)
    (hq : s.queue = item :: rest) :
    DispatchStep id s (m.modifySubscription id fun s => { s with queue := rest })
      [.called id s.observer item.callback]
  | complete (hs : s.stage = .running) (hc : m.cancelled = false) (hq : s.queue = [])
    (hh : s.handles = 0) :
    DispatchStep id s (m.modifySubscription id fun s => { s with stage := .ended })
      [.called id s.observer .completed]

variable {m} {m' : Manager} {hs : List Happening}

theorem registrationStep_cases {id : Nat} (h : m.registrationStep id = some (m', hs)) :
    ∃ r, m.registrations[id]? = some r ∧ hs = [] ∧ RegistrationStep m id r m' := by
  obtain ⟨r, hr, h'⟩ := Option.bind_eq_some_iff.mp h
  clear h
  refine ⟨r, hr, ?_⟩
  split at h'
  · next he =>
    cases h'
    refine ⟨rfl, ?_⟩
    split
    · next hc => exact .refuse he hc
    · next hc => exact .enter he (by simpa using hc)
  · next he =>
    split at h'
    · next s ho =>
      cases h'
      exact ⟨rfl, .taken he ho⟩
    · next ho =>
      cases h'
      exact ⟨rfl, .insert he ho⟩
  · next s he =>
    cases h'
    refine ⟨rfl, ?_⟩
    split
    · next hc => exact .withdraw he hc
    · next hc => exact .confirm he (by simpa using hc)
  · next he =>
    cases h'
    exact ⟨rfl, .undo he⟩
  · next he =>
    cases h'
    exact ⟨rfl, .spawn he⟩
  · cases h'

theorem dispatchStep_cases {id : SubscriptionId} (h : m.dispatchStep id = some (m', hs)) :
    ∃ s, m.subscriptions[id]? = some s ∧ DispatchStep m id s m' hs := by
  obtain ⟨s, hs', h'⟩ := Option.bind_eq_some_iff.mp h
  clear h
  refine ⟨s, hs', ?_⟩
  split at h'
  · cases h'
  · next hr =>
    have hr : s.stage = .running := by simpa using hr
    split at h'
    · next hc =>
      cases h'
      exact .halt hr hc
    · next hc =>
      have hc : m.cancelled = false := by simpa using hc
      split at h'
      · next hq =>
        cases h'
        exact .deliver hr hc hq
      · next hq =>
        split at h'
        · next hh =>
          cases h'
          exact .complete hr hc hq hh
        · cases h'

theorem removeObserver_scope (e : Endpoint) :
    m.removeObserver e =
      { m with
        observers := (m.removeObserver e).observers
        subscriptions := (m.removeObserver e).subscriptions } := by
  rw [removeObserver]
  split <;> rfl

theorem registrationStep_scope {id : Nat} (h : m.registrationStep id = some (m', hs)) :
    m' = { m with
      observers := m'.observers
      subscriptions := m'.subscriptions
      registrations := m'.registrations } := by
  obtain ⟨r, -, -, h⟩ := registrationStep_cases h
  cases h with
  | undo =>
    rw [removeObserver_scope]
    rfl
  | _ => rfl

theorem dispatchStep_scope {id : SubscriptionId} (h : m.dispatchStep id = some (m', hs)) :
    m' = { m with subscriptions := m'.subscriptions } := by
  obtain ⟨s, -, h⟩ := dispatchStep_cases h
  cases h <;> rfl

end PeerLink.Manager
