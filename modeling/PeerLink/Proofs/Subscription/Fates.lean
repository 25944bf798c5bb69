import PeerLink.Proofs.Subscription.Stirring

namespace PeerLink.Manager

def Happening.enqueued? (s : SubscriptionId) : Happening → Option Item
  | .enqueued t item => if t = s then some item else none
  | _ => none

def Happening.called? (s : SubscriptionId) : Happening → Option (Callback Bytes)
  | .called t _ callback => if t = s then some callback else none
  | _ => none

@[simp] theorem push_stage (b : Subscription) (item : Item) : (b.push item).stage = b.stage := by
  rw [Subscription.push]
  split <;> rfl

@[simp] theorem push_handles (b : Subscription) (item : Item) :
    (b.push item).handles = b.handles := by
  rw [Subscription.push]
  split <;> rfl

@[simp] theorem push_observer (b : Subscription) (item : Item) :
    (b.push item).observer = b.observer := by
  rw [Subscription.push]
  split <;> rfl

/-- What becomes of a subscription by a move. Its handles are counted elsewhere. -/
inductive Fate (m : Manager) (s : SubscriptionId) (b : Subscription) :
    Move → Subscription → List Happening → Prop where
  | keep {mv hs handles} (he : hs.filterMap (Happening.enqueued? s) = [])
    (hc : hs.filterMap (Happening.called? s) = []) : Fate m s b mv { b with handles } hs
  | push {id item hs handles} (hq : Still hs) :
    Fate m s b (.step (.receiver id) .none) { b.push item with handles } (.enqueued s item :: hs)
  | halt (hs : b.stage = .running) (hc : m.cancelled = true) :
    Fate m s b (.step (.dispatch s) .none) { b with stage := .ended } []
  | deliver {item rest} (hs : b.stage = .running) (hc : m.cancelled = false)
    (hq : b.queue = item :: rest) :
    Fate m s b (.step (.dispatch s) .none) { b with queue := rest }
      [.called s b.observer item.callback]
  | complete (hs : b.stage = .running) (hc : m.cancelled = false) (hq : b.queue = [])
    (hh : b.handles = 0) :
    Fate m s b (.step (.dispatch s) .none) { b with stage := .ended }
      [.called s b.observer .completed]
  | undo {id r handles} (hr : m.registrations[id]? = some r) (hs : r.stage = .undoing s) :
    Fate m s b (.step (.registration id) .none) { b with handles, stage := .ended } []
  | spawn {id r} (hr : m.registrations[id]? = some r) (hs : r.stage = .spawning s) :
    Fate m s b (.step (.registration id) .none) { b with stage := .running } []

variable {m m' m₁ : Manager} {mv : Move} {hs : List Happening} {s t : SubscriptionId}
  {b b₁ : Subscription}

theorem Still.enqueued (h : Still hs) (s : SubscriptionId) :
    hs.filterMap (Happening.enqueued? s) = [] := by
  refine List.filterMap_eq_nil_iff.mpr fun x hx => ?_
  cases x with
  | enqueued => exact absurd trivial (h _ hx)
  | _ => rfl

theorem Still.called (h : Still hs) (s : SubscriptionId) :
    hs.filterMap (Happening.called? s) = [] := by
  refine List.filterMap_eq_nil_iff.mpr fun x hx => ?_
  cases x with
  | called => exact absurd trivial (h _ hx)
  | _ => rfl

theorem Fate.still {handles : Nat} (h : Still hs) : Fate m s b mv { b with handles } hs :=
  .keep (h.enqueued s) (h.called s)

theorem modifySubscription_get {f : Subscription → Subscription}
    (hb : m.subscriptions[s]? = some b) :
    (m.modifySubscription s f).subscriptions[s]? = some (f b) := by
  simp [modifySubscription, hb]

theorem modifySubscription_get_ne {f : Subscription → Subscription} (h : t ≠ s) :
    (m.modifySubscription s f).subscriptions[t]? = m.subscriptions[t]? :=
  List.getElem?_modify_ne _ _ h.symm

/-- Taking handles away changes nothing else of a subscription. -/
theorem dropHandle_get (hb : m.subscriptions[s]? = some b) :
    ∃ handles, (m.dropHandle t).subscriptions[s]? = some { b with handles } := by
  by_cases h : s = t
  · subst h
    exact ⟨b.handles - 1, modifySubscription_get hb⟩
  · exact ⟨b.handles, (modifySubscription_get_ne h).trans hb⟩

theorem removeObserver_get {e : Endpoint} (hb : m.subscriptions[s]? = some b) :
    ∃ handles, (m.removeObserver e).subscriptions[s]? = some { b with handles } := by
  rw [removeObserver]
  split
  · exact ⟨b.handles, hb⟩
  · exact dropHandle_get hb

theorem clearObservers_get (hb : m.subscriptions[s]? = some b) :
    ∃ handles, m.clearObservers.subscriptions[s]? = some { b with handles } := by
  suffices ∀ (ss : List SubscriptionId) (m : Manager) (b : Subscription),
      m.subscriptions[s]? = some b →
      ∃ handles, (ss.foldl dropHandle m).subscriptions[s]? = some { b with handles } from
    this m.observers.values m b hb
  intro ss
  induction ss with
  | nil => exact fun m b hb => ⟨b.handles, hb⟩
  | cons t ss ih =>
    intro m b hb
    obtain ⟨handles, hb₁⟩ := dropHandle_get (t := t) hb
    obtain ⟨handles', hb₂⟩ := ih _ _ hb₁
    exact ⟨handles', hb₂⟩

theorem RegistrationStep.fate {id : Nat} {r : Registration} (h : RegistrationStep m id r m₁)
    (hr : m.registrations[id]? = some r) (hb : m.subscriptions[s]? = some b) :
    ∃ b₁, m₁.subscriptions[s]? = some b₁ ∧ Fate m s b (.step (.registration id) .none) b₁ [] := by
  cases h with
  | insert =>
    refine ⟨b, ?_, .still .nil⟩
    exact (List.getElem?_append_left (List.getElem?_eq_some_iff.mp hb).1).trans hb
  | @undo t ht =>
    obtain ⟨handles, hb₁⟩ := removeObserver_get (e := r.remote) hb
    by_cases hs : s = t
    · subst hs
      exact ⟨_, modifySubscription_get hb₁, .undo hr ht⟩
    · exact ⟨_, (modifySubscription_get_ne hs).trans hb₁, .still .nil⟩
  | @spawn t ht =>
    by_cases hs : s = t
    · subst hs
      exact ⟨_, modifySubscription_get hb, .spawn hr ht⟩
    · exact ⟨b, (modifySubscription_get_ne hs).trans hb, .still .nil⟩
  | _ => exact ⟨b, hb, .still .nil⟩

theorem DispatchStep.fate (h : DispatchStep m t b m₁ hs) (hb : m.subscriptions[t]? = some b) :
    ∃ b₁, m₁.subscriptions[t]? = some b₁ ∧ Fate m t b (.step (.dispatch t) .none) b₁ hs := by
  cases h with
  | halt hs hc => exact ⟨_, modifySubscription_get hb, .halt hs hc⟩
  | deliver hs hc hq => exact ⟨_, modifySubscription_get hb, .deliver hs hc hq⟩
  | complete hs hc hq hh => exact ⟨_, modifySubscription_get hb, .complete hs hc hq hh⟩

theorem DispatchStep.others (h : DispatchStep m t b₁ m₁ hs) (hst : s ≠ t)
    (hb : m.subscriptions[s]? = some b) :
    m₁.subscriptions[s]? = some b ∧ Fate m s b (.step (.dispatch t) .none) b hs := by
  cases h with
  | halt => exact ⟨(modifySubscription_get_ne hst).trans hb, .still .nil⟩
  | deliver | complete =>
    refine ⟨(modifySubscription_get_ne hst).trans hb, .keep rfl ?_⟩
    simp [Happening.called?, hst.symm]

theorem Stir.fate (h : Stir m mv m₁ hs) (hb : m.subscriptions[s]? = some b) :
    ∃ b₁, m₁.subscriptions[s]? = some b₁ ∧ Fate m s b mv b₁ hs := by
  cases h with
  | aside hm _ _ hq =>
    rw [hm]
    exact ⟨b, hb, .still hq⟩
  | arrive | ask => exact ⟨b, hb, .still .nil⟩
  | read _ _ _ hq => exact ⟨b, hb, .still hq⟩
  | @locate _ _ _ _ _ _ _ t =>
    by_cases hs : s = t
    · subst hs
      exact ⟨_, modifySubscription_get hb, .still .nil⟩
    · exact ⟨b, (modifySubscription_get_ne hs).trans hb, .still .nil⟩
  | @hand _ _ _ _ item t _ _ hs' _ _ _ hq =>
    by_cases hs : s = t
    · subst hs
      obtain ⟨handles, hb₁⟩ := dropHandle_get (t := s)
        (modifySubscription_get (f := (·.push item)) hb)
      exact ⟨_, hb₁, .push hq⟩
    · obtain ⟨handles, hb₁⟩ := dropHandle_get (t := t)
        ((modifySubscription_get_ne (f := (·.push item)) hs).trans hb)
      refine ⟨_, hb₁, .keep ?_ ?_⟩
      · have hn : Happening.enqueued? s (.enqueued t item) = none := if_neg (Ne.symm hs)
        rw [List.filterMap_cons_none hn]
        exact hq.enqueued s
      · exact hq.called s
  | unregister =>
    obtain ⟨handles, hb₁⟩ := removeObserver_get hb
    exact ⟨_, hb₁, .keep rfl rfl⟩
  | registration hr h => exact h.fate hr hb
  | @dispatch t b' _ _ hb' h =>
    by_cases hs : s = t
    · subst hs
      cases hb.symm.trans hb'
      exact h.fate hb
    · exact ⟨b, h.others hs hb⟩
  | clear =>
    obtain ⟨handles, hb₁⟩ := clearObservers_get hb
    exact ⟨_, hb₁, .still .nil⟩

theorem length_removeObserver (e : Endpoint) :
    (m.removeObserver e).subscriptions.length = m.subscriptions.length := by
  rw [removeObserver]
  split
  · rfl
  · exact List.length_modify _ _ _

theorem length_clearObservers : m.clearObservers.subscriptions.length = m.subscriptions.length := by
  suffices ∀ (ss : List SubscriptionId) (m : Manager),
      (ss.foldl dropHandle m).subscriptions.length = m.subscriptions.length from this _ m
  intro ss
  induction ss with
  | nil => exact fun m => rfl
  | cons t ss ih => exact fun m => (ih _).trans (List.length_modify _ _ _)

def Makes (m : Manager) (mv : Move) (m₁ : Manager) : Prop :=
  ∃ id r, m.registrations[id]? = some r ∧ r.stage = .inserting ∧
    m.observers.get? r.remote = none ∧ mv = .step (.registration id) .none ∧
    m₁ = setRegistration
      { m with
        subscriptions := m.subscriptions ++ [{ remote := r.remote, observer := r.observer }]
        observers := m.observers.insert r.remote m.subscriptions.length }
      id (.confirming m.subscriptions.length)

theorem Stir.makes (h : Stir m mv m₁ hs) :
    Makes m mv m₁ ∧ hs = [] ∨ m₁.subscriptions.length = m.subscriptions.length := by
  cases h with
  | aside hm =>
    right
    rw [hm]
  | arrive | read | ask => exact .inr rfl
  | locate => exact .inr (List.length_modify _ _ _)
  | hand => exact .inr ((List.length_modify _ _ _).trans (List.length_modify _ _ _))
  | unregister => exact .inr (length_removeObserver _)
  | clear => exact .inr length_clearObservers
  | dispatch _ h =>
    cases h with
    | _ => exact .inr (List.length_modify _ _ _)
  | @registration id r _ hr h =>
    cases h with
    | insert hs ho => exact .inl ⟨⟨id, r, hr, hs, ho, rfl, rfl⟩, rfl⟩
    | undo => exact .inr ((List.length_modify _ _ _).trans (length_removeObserver _))
    | spawn => exact .inr (List.length_modify _ _ _)
    | _ => exact .inr rfl

/-- Nothing is in the queue of a subscription that has just been made, and its dispatch has not been
started. -/
theorem Stir.fresh (h : Stir m mv m₁ hs) (hb : m.subscriptions[s]? = none)
    (hb₁ : m₁.subscriptions[s]? = some b₁) : b₁.queue = [] ∧ b₁.stage = .unstarted := by
  obtain ⟨⟨id, r, -, -, -, -, rfl⟩, -⟩ | hlen := h.makes
  · obtain hb' | ⟨-, rfl⟩ := getElem?_concat_cases hb₁
    · cases hb.symm.trans hb'
    · exact ⟨rfl, rfl⟩
  · have hlt := (List.getElem?_eq_some_iff.mp hb₁).1
    exact absurd (hlen ▸ hlt) (Nat.not_lt.mpr (List.getElem?_eq_none_iff.mp hb))

end PeerLink.Manager
