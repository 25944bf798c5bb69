import PeerLink.Proofs.Receiver.Passing

namespace PeerLink.Manager

inductive Dealing where
  | entered (call : Nat) (remote : Endpoint) (answer : Except RemoteError SubscriptionId)
  | unregistered (remote : Endpoint) (found : Bool)
  | routed (receiver : Nat) (source : Endpoint) (item : Item) (found : Option SubscriptionId)
  deriving DecidableEq

def Dealing.task? : Dealing → Option Task
  | .entered call _ _ => some (.registration call)
  | .unregistered _ _ => none
  | .routed receiver _ _ _ => some (.receiver receiver)

def enteredBetween :
    RegistrationStage → RegistrationStage → Option (Except RemoteError SubscriptionId)
  | .inserting, .confirming s => some (.ok s)
  | .inserting, .finished (.error e) => some (.error e)
  | _, _ => none

/-- The subscription that a receiver finds for its item, or that there is none. Where there is none
for exactly the source, the one for its host is looked up first. -/
def routedBetween :
    ReceiverStage → ReceiverStage → Option (Endpoint × Item × Option SubscriptionId)
  | .routing _ _ _ (.handing _), _ => none
  | .routing source _ item _, .routing _ _ _ (.handing s) => some (source, item, some s)
  | .routing _ _ _ _, .routing _ _ _ _ => none
  | .routing source _ item _, _ => some (source, item, none)
  | _, _ => none

def Transition.dealing? (t : Transition) : Option Dealing :=
  match t.move with
  | .unregister remote =>
    some (.unregistered remote (decide (.unregistered true ∈ t.happenings)))
  | .step (.registration id) _ =>
    match t.before.registrations[id]?, t.after.registrations[id]? with
    | some r, some r' => (enteredBetween r.stage r'.stage).map (.entered id r.remote)
    | _, _ => none
  | .step (.receiver id) _ =>
    match t.before.receivers[id]?, t.after.receivers[id]? with
    | some r, some r' => (routedBetween r.stage r'.stage).map fun (source, item, found) =>
      .routed id source item found
    | _, _ => none
  | _ => none

def dealings (ts : List Transition) : List Dealing := ts.filterMap (·.dealing?)

def Dealing.answer? (id : Nat) : Dealing → Option (Endpoint × Except RemoteError SubscriptionId)
  | .entered call remote answer => if call = id then some (remote, answer) else none
  | _ => none

def answersTo (id : Nat) (ts : List Transition) :
    List (Endpoint × Except RemoteError SubscriptionId) :=
  (dealings ts).filterMap (Dealing.answer? id)

/-- What a registration has been told by the time that it is at a stage. Only when the manager is
closed it is refused unheard, or takes back what it has entered. -/
def RegistrationStage.Informed (closed : Bool) (remote : Endpoint)
    (told : List (Endpoint × Except RemoteError SubscriptionId)) : RegistrationStage → Prop
  | .checking => told = []
  | .inserting => told = []
  | .confirming s => told = [(remote, .ok s)]
  | .undoing s => told = [(remote, .ok s)]
  | .spawning s => told = [(remote, .ok s)]
  | .finished (.ok _) => ∃ s, told = [(remote, .ok s)]
  | .finished (.error error) =>
    error = .alreadyRegistered remote ∧ told = [(remote, .error error)] ∨
      error = .closed ∧ closed = true ∧ (told = [] ∨ ∃ s, told = [(remote, .ok s)])

structure Informed (m : Manager) (ts : List Transition) : Prop where
  present : ∀ (id : Nat) r, m.registrations[id]? = some r →
    r.stage.Informed m.closed r.remote (answersTo id ts)
  absent : ∀ id : Nat, m.registrations[id]? = none → answersTo id ts = []

inductive Deals (m : Manager) : Move → Manager → Option Dealing → Prop where
  | aside {mv m₁} (ho : m₁.observers = m.observers) : Deals m mv m₁ none
  | enter {id r m₁} (hr : m.registrations[id]? = some r) (hs : r.stage = .inserting)
    (hn : m.observers.get? r.remote = none)
    (hm : m₁.registrations[id]? = some { r with stage := .confirming m.subscriptions.length })
    (ho : m₁.observers = m.observers.insert r.remote m.subscriptions.length) :
    Deals m (.step (.registration id) .none) m₁
      (some (.entered id r.remote (.ok m.subscriptions.length)))
  | turnAway {id r s m₁} (hr : m.registrations[id]? = some r) (hs : r.stage = .inserting)
    (hk : m.observers.get? r.remote = some s)
    (hm : m₁.registrations[id]? =
      some { r with stage := .finished (.error (.alreadyRegistered r.remote)) })
    (ho : m₁.observers = m.observers) :
    Deals m (.step (.registration id) .none) m₁
      (some (.entered id r.remote (.error (.alreadyRegistered r.remote))))
  | undo {id r s m₁} (hr : m.registrations[id]? = some r) (hs : r.stage = .undoing s)
    (ho : m₁.observers = (m.removeObserver r.remote).observers) :
    Deals m (.step (.registration id) .none) m₁ none
  | remove {e m₁} (ho : m₁.observers = (m.removeObserver e).observers) :
    Deals m (.unregister e) m₁ (some (.unregistered e (m.observers.get? e).isSome))
  | find {id r src rd item rt key s m₁} (hr : m.receivers[id]? = some r)
    (hs : r.stage = .routing src rd item rt)
    (hk : rt = .exact ∧ key = src ∨ rt = .wildcard ∧ key = src.toWildcard)
    (hg : m.observers.get? key = some s) (ho : m₁.observers = m.observers) :
    Deals m (.step (.receiver id) .none) m₁ (some (.routed id src item (some s)))
  | miss {id r src rd item rt m₁} (hr : m.receivers[id]? = some r)
    (hs : r.stage = .routing src rd item rt)
    (hk : rt = .exact ∧ m.observers.get? src = none ∧ src.isWildcard = true ∨
      rt = .wildcard ∧ m.observers.get? src.toWildcard = none)
    (ho : m₁.observers = m.observers) :
    Deals m (.step (.receiver id) .none) m₁ (some (.routed id src item none))
  | clear {id c m₁} (hc : m.closings[id]? = some c) (hs : c.stage = .clearingObservers)
    (ho : m₁.observers = {}) : Deals m (.step (.closing id) .none) m₁ none

variable {m m' m₁ : Manager} {mv : Move} {hs hs₁ : List Happening} {id : Nat} {a : Answer}
  {ts : List Transition} {t : Transition} {s : SubscriptionId} {b b₁ : Subscription} {k : Endpoint}

theorem dealings_append {ts₁ ts₂ : List Transition} :
    dealings (ts₁ ++ ts₂) = dealings ts₁ ++ dealings ts₂ := List.filterMap_append

theorem mem_dealings {d : Dealing} (ht : t ∈ ts) (hd : t.dealing? = some d) : d ∈ dealings ts :=
  List.mem_filterMap.mpr ⟨t, ht, hd⟩

theorem dealings_concat : dealings (ts ++ [t]) = dealings ts ++ t.dealing?.toList := by
  rw [dealings, List.filterMap_append]
  cases h : t.dealing? <;> simp [dealings, h]

theorem mem_dealings_concat {d : Dealing} (h : d ∈ dealings (ts ++ [t])) :
    d ∈ dealings ts ∨ t.dealing? = some d := by
  rw [dealings_concat] at h
  exact (List.mem_append.mp h).imp_right Option.mem_toList.mp

theorem Move.eq_step_of_task? {task : Task} (h : mv.task? = some task) :
    ∃ a, mv = .step task a := by
  cases mv with
  | step task' a =>
    cases h
    exact ⟨a, rfl⟩
  | _ => cases h

theorem task?_of_dealing? {d : Dealing} (h : t.dealing? = some d) : t.move.task? = d.task? := by
  obtain ⟨m, mv, m', hs⟩ := t
  cases mv with
  | step task a =>
    cases task with
    | registration id | receiver id =>
      simp only [Transition.dealing?] at h
      split at h
      · obtain ⟨x, -, rfl⟩ := Option.map_eq_some_iff.mp h
        rfl
      · cases h
    | _ => cases h
  | unregister e =>
    cases h
    rfl
  | _ => cases h

theorem dealing?_of_registration {r r₁ : Registration} (hr : m.registrations[id]? = some r)
    (hr₁ : m₁.registrations[id]? = some r₁) :
    (Transition.mk m (.step (.registration id) a) m₁ hs).dealing? =
      (enteredBetween r.stage r₁.stage).map (.entered id r.remote) := by
  simp only [Transition.dealing?, hr, hr₁]

theorem dealing?_of_receiver {r r₁ : Receiver} (hr : m.receivers[id]? = some r)
    (hr₁ : m₁.receivers[id]? = some r₁) :
    (Transition.mk m (.step (.receiver id) a) m₁ hs).dealing? =
      (routedBetween r.stage r₁.stage).map fun (source, item, found) =>
        .routed id source item found := by
  simp only [Transition.dealing?, hr, hr₁]

theorem RegistrationStep.deals {r : Registration} (h : RegistrationStep m id r m₁)
    (hr : m.registrations[id]? = some r) (ho : m'.observers = m₁.observers)
    (hm : m'.registrations = m₁.registrations) :
    Deals m (.step (.registration id) .none) m'
      (Transition.mk m (.step (.registration id) .none) m' hs).dealing? := by
  have hget : ∀ {n : Manager} {stage}, n.registrations[id]? = some r →
      m₁.registrations = (n.setRegistration id stage).registrations →
      m'.registrations[id]? = some { r with stage } := fun hn he =>
    (congrArg (·[id]?) (hm.trans he)).trans (setRegistration_get hn _)
  cases h with
  | refuse hs | enter hs | withdraw hs | confirm hs =>
    rw [dealing?_of_registration hr (hget hr rfl), hs]
    exact .aside ho
  | taken hs hk =>
    rw [dealing?_of_registration hr (hget hr rfl), hs]
    exact .turnAway hr hs hk (hget hr rfl) ho
  | insert hs hn =>
    have hr₁ : m'.registrations[id]? = some { r with stage := .confirming m.subscriptions.length } :=
      (congrArg (·[id]?) hm).trans (setRegistration_get hr _)
    rw [dealing?_of_registration hr hr₁, hs]
    exact .enter hr hs hn hr₁ ho
  | @undo s hs =>
    have hr₁ : m'.registrations[id]? = some { r with stage := .finished (.error .closed) } := by
      rw [hm, removeObserver_scope]
      exact setRegistration_get hr _
    rw [dealing?_of_registration hr hr₁, hs]
    exact .undo hr hs ho
  | @spawn s hs =>
    rw [dealing?_of_registration hr (hget (n := m.modifySubscription s _) hr rfl), hs]
    exact .aside ho

theorem afterRouting_get {r : Receiver} (hr : m.receivers[id]? = some r) (src : Endpoint)
    (rd : Reading) (item : Item) (hs : List Happening) : ∃ stage released,
      (stage = .receiving src rd ∨ stage = .ended) ∧ Still released ∧
      (m.afterRouting id r src rd item hs).1.receivers[id]? = some { r with stage } ∧
      (m.afterRouting id r src rd item hs).1.observers = m.observers ∧
      (m.afterRouting id r src rd item hs).2 = hs ++ released := by
  cases item with
  | frame body =>
    exact ⟨_, [], .inl rfl, .nil, setReceiver_get hr _, rfl, (List.append_nil hs).symm⟩
  | failure error =>
    exact ⟨_, [.released r.stream], .inr rfl, .released [r.stream],
      setReceiver_get (m := { m with established := _ }) hr _, rfl, rfl⟩

theorem ReceiverStep.deals {r : Receiver} (h : ReceiverStep m id r a m₁ hs₁)
    (hr : m.receivers[id]? = some r) (ho : m'.observers = m₁.observers)
    (hm : m'.receivers = m₁.receivers) :
    Deals m (.step (.receiver id) a) m'
      (Transition.mk m (.step (.receiver id) a) m' hs).dealing? := by
  have hget : ∀ {n : Manager} {stage}, n.receivers[id]? = some r →
      m₁.receivers = (n.setReceiver id stage).receivers →
      m'.receivers[id]? = some { r with stage } := fun hn he =>
    (congrArg (·[id]?) (hm.trans he)).trans (setReceiver_get hn _)
  cases h with
  | halt hs =>
    rw [dealing?_of_receiver hr (hget hr rfl)]
    obtain hs | ⟨t, rd, hs⟩ := hs <;> rw [hs] <;> exact .aside ho
  | @locate _ _ _ rt _ s hs hk hg =>
    rw [dealing?_of_receiver hr (hget (n := m.modifySubscription s _) hr rfl), hs]
    have hfind : Deals m _ m' _ := .find hr hs hk hg ho
    obtain ⟨rfl, -⟩ | ⟨rfl, -⟩ := hk <;> exact hfind
  | @miss src rd item rt hs hk =>
    obtain ⟨stage, -, hst, -, hr₁, ho₁, -⟩ := afterRouting_get hr src rd item []
    rw [dealing?_of_receiver hr ((congrArg (·[id]?) hm).trans hr₁), hs]
    have hmiss : Deals m _ m' _ := .miss hr hs hk (ho.trans ho₁)
    obtain ⟨rfl, -⟩ | ⟨rfl, -⟩ := hk <;> obtain rfl | rfl := hst <;> exact hmiss
  | @hand src rd item s hs =>
    obtain ⟨stage, -, -, -, hr₁, ho₁, -⟩ :=
      afterRouting_get (m := (m.modifySubscription s (·.push item)).dropHandle s) hr src rd item
        [.enqueued s item]
    rw [dealing?_of_receiver hr ((congrArg (·[id]?) hm).trans hr₁), hs]
    exact .aside (ho.trans ho₁)
  | @establish _ _ hello i hs =>
    rw [dealing?_of_receiver hr (hget (n := { m with established := _ }) hr rfl), hs]
    exact .aside ho
  | leave hs | finish hs =>
    rw [dealing?_of_receiver hr (hget (n := { m with established := m.established - 1 }) hr rfl), hs]
    exact .aside ho
  | start hs | reject hs | disagree hs | vanish hs | expectGreeting hs | expire hs
  | breakGreeting hs | readGreeting hs | fail hs | take hs | expectFrame hs | breakFrame hs
  | readFrame hs | widen hs =>
    rw [dealing?_of_receiver hr (hget hr rfl), hs]
    exact .aside ho

/-- What a move finds in the observer table, and what it makes of it. -/
theorem move_deals (h : m.move mv = some (m', hs)) :
    Deals m mv m' (Transition.mk m mv m' hs).dealing? := by
  cases mv with
  | unregister e =>
    have hm : m.removeObserver e = m' := congrArg Prod.fst (Option.some.inj h)
    have hh : [.unregistered (m.observers.get? e).isSome] = hs :=
      congrArg Prod.snd (Option.some.inj h)
    have hd : (Transition.mk m (.unregister e) m' hs).dealing? =
        some (.unregistered e (m.observers.get? e).isSome) := by
      simp [Transition.dealing?, ← hh]
    rw [hd]
    exact .remove (by rw [hm])
  | step task a =>
    obtain ⟨⟨m₁, hs₁⟩, ho, hp⟩ := move_step h
    have hsc := reap_scope hp
    have hobs : m'.observers = m₁.observers := by rw [hsc]
    cases task with
    | receiver id =>
      obtain ⟨r, hr, hst⟩ := receiverStep_cases ho
      exact hst.deals hr hobs (by rw [hsc])
    | registration id =>
      obtain ⟨rfl, ho⟩ := step_registration ho
      obtain ⟨r, hr, -, hst⟩ := registrationStep_cases ho
      exact hst.deals hr hobs (by rw [hsc])
    | closing id =>
      obtain ⟨c, hc, hst⟩ := closingStep_cases ho
      change Deals m (.step (.closing id) a) m' none
      cases hst with
      | clearObservers hs => exact .clear hc hs (hobs.trans (by rw [clearObservers_scope]; rfl))
      | _ => exact .aside hobs
    | acceptor => exact .aside (hobs.trans (by rw [acceptorStep_scope ho]))
    | dispatch id => exact .aside (hobs.trans (by rw [dispatchStep_scope (step_dispatch ho).2]))
    | send id => exact .aside (hobs.trans (by rw [sendStep_scope ho]))
    | opening id => exact .aside (hobs.trans (by rw [openingStep_scope (step_opening ho).2]))
  | abandon id =>
    obtain ⟨⟨m₁, hs₁⟩, ho, hp⟩ := move_abandon h
    exact .aside (by rw [reap_scope hp, abandonSend_scope ho])
  | _ =>
    cases h
    exact .aside rfl

/-- A registration changes by its own steps only. -/
theorem move_registration {r : Registration} (h : m.move mv = some (m', hs))
    (hr : m.registrations[id]? = some r) :
    (∃ m₁, mv = .step (.registration id) .none ∧ RegistrationStep m id r m₁ ∧
        m' = { m₁ with allLinks := m'.allLinks }) ∨
      (∀ a, mv ≠ .step (.registration id) a) ∧ m'.registrations[id]? = some r := by
  obtain ⟨m₁, hs₁, hst, hm', -⟩ := move_stir h
  rw [hm']
  cases hst with
  | aside hm _ hg => exact .inr ⟨hg id, by rw [hm]; exact hr⟩
  | arrive | read | locate | hand => exact .inr ⟨nofun, hr⟩
  | ask =>
    exact .inr ⟨nofun, (List.getElem?_append_left (List.getElem?_eq_some_iff.mp hr).1).trans hr⟩
  | unregister => exact .inr ⟨nofun, by rw [removeObserver_scope]; exact hr⟩
  | @registration j r' _ hr' hst =>
    by_cases hj : id = j
    · subst hj
      cases hr.symm.trans hr'
      exact .inl ⟨m₁, rfl, hst, rfl⟩
    · exact .inr ⟨fun a e => hj (by cases e; rfl), (hst.others hj).trans hr⟩
  | dispatch _ hst => exact .inr ⟨nofun, by cases hst <;> exact hr⟩
  | clear => exact .inr ⟨nofun, by rw [clearObservers_scope]; exact hr⟩

theorem RegistrationStep.same {r : Registration} (h : RegistrationStep m id r m₁)
    (hr : m.registrations[id]? = some r) :
    ∃ stage, m₁.registrations[id]? = some { r with stage } := by
  cases h with
  | undo =>
    rw [removeObserver_scope]
    exact ⟨_, setRegistration_get hr _⟩
  | _ => exact ⟨_, setRegistration_get hr _⟩

theorem registration_stays {r : Registration} (h : m.move mv = some (m', hs))
    (hr : m.registrations[id]? = some r) :
    ∃ stage, m'.registrations[id]? = some { r with stage } := by
  obtain ⟨m₁, -, hst, hm'⟩ | ⟨-, hr'⟩ := move_registration h hr
  · rw [hm']
    exact hst.same hr
  · exact ⟨r.stage, hr'⟩

theorem not_registers (h : m.move mv = some (m', hs)) (hn : m.registrations[id]? = none)
    (a : Answer) : mv ≠ .step (.registration id) a := by
  rintro rfl
  obtain ⟨o, ho, -⟩ := move_step h
  obtain ⟨r, hr, -⟩ := registrationStep_cases (step_registration ho).2
  cases hn.symm.trans hr

theorem move_newRegistration {r : Registration} (h : m.move mv = some (m', hs))
    (hn : m.registrations[id]? = none) (hr : m'.registrations[id]? = some r) :
    r.stage = .checking := by
  obtain ⟨m₁, hs₁, hst, hm', -⟩ := move_stir h
  rw [hm'] at hr
  obtain ⟨hr₀, -⟩ | hc | ⟨r₀, -, hr₀, -⟩ := hst.registrations hr
  · cases hn.symm.trans hr₀
  · exact hc
  · cases hn.symm.trans hr₀

theorem answersTo_append {ts₁ ts₂ : List Transition} :
    answersTo id (ts₁ ++ ts₂) = answersTo id ts₁ ++ answersTo id ts₂ := by
  rw [answersTo, dealings_append, List.filterMap_append]
  rfl

theorem answersTo_concat : answersTo id (ts ++ [t]) =
    answersTo id ts ++ (t.dealing?.bind (Dealing.answer? id)).toList := by
  rw [answersTo, dealings_concat, List.filterMap_append, answersTo]
  cases t.dealing? with
  | none => rfl
  | some d => cases h : d.answer? id <;> simp [h]

theorem mem_answersTo {remote : Endpoint} {answer : Except RemoteError SubscriptionId} :
    (remote, answer) ∈ answersTo id ts ↔ .entered id remote answer ∈ dealings ts := by
  rw [answersTo, List.mem_filterMap]
  constructor
  · rintro ⟨d, hd, he⟩
    cases d with
    | entered call e x =>
      rw [Dealing.answer?] at he
      split at he
      · next hc =>
        cases he
        exact hc ▸ hd
      · cases he
    | _ => cases he
  · exact fun h => ⟨_, h, if_pos rfl⟩

theorem answersTo_of_ne (h : ∀ a, t.move ≠ .step (.registration id) a) :
    answersTo id (ts ++ [t]) = answersTo id ts := by
  suffices hn : t.dealing?.bind (Dealing.answer? id) = none by
    rw [answersTo_concat, hn, Option.toList_none, List.append_nil]
  refine Option.bind_eq_none_iff.mpr fun d hd => ?_
  cases d with
  | entered call remote answer =>
    obtain ⟨a, ha⟩ := Move.eq_step_of_task? (task?_of_dealing? hd)
    refine if_neg ?_
    rintro rfl
    exact h a ha
  | _ => rfl

theorem answersTo_of_step {r r₁ : Registration} (hr : m.registrations[id]? = some r)
    (hr₁ : m'.registrations[id]? = some r₁) :
    answersTo id (ts ++ [⟨m, .step (.registration id) a, m', hs⟩]) =
      answersTo id ts ++ ((enteredBetween r.stage r₁.stage).map (r.remote, ·)).toList := by
  rw [answersTo_concat, dealing?_of_registration hr hr₁]
  cases enteredBetween r.stage r₁.stage <;> simp [Dealing.answer?]

theorem RegistrationStep.informed {r r₁ : Registration} (h : RegistrationStep m id r m₁)
    (hr : m.registrations[id]? = some r) (hr₁ : m₁.registrations[id]? = some r₁)
    (hp : Prepared m) {told : List (Endpoint × Except RemoteError SubscriptionId)}
    (ht : r.stage.Informed m.closed r.remote told) :
    r₁.stage.Informed m₁.closed r₁.remote
      (told ++ ((enteredBetween r.stage r₁.stage).map (r.remote, ·)).toList) := by
  have hkeep : ∀ {closed remote} (stage : RegistrationStage), stage.Informed closed remote told →
      stage.Informed closed remote (told ++ []) := fun _ h => by rwa [List.append_nil]
  cases h with
  | refuse hs hc =>
    cases (setRegistration_get hr _).symm.trans hr₁
    rw [hs] at ht ⊢
    exact hkeep (.finished (.error .closed)) (.inr ⟨rfl, hc, .inl ht⟩)
  | enter hs =>
    cases (setRegistration_get hr _).symm.trans hr₁
    rw [hs] at ht ⊢
    exact hkeep (.inserting) ht
  | @withdraw s hs =>
    cases (setRegistration_get hr _).symm.trans hr₁
    rw [hs] at ht ⊢
    exact hkeep (.undoing s) ht
  | @confirm s hs =>
    cases (setRegistration_get hr _).symm.trans hr₁
    rw [hs] at ht ⊢
    exact hkeep (.spawning s) ht
  | taken hs =>
    cases (setRegistration_get hr _).symm.trans hr₁
    rw [hs] at ht ⊢
    obtain rfl : told = [] := ht
    exact .inl ⟨rfl, rfl⟩
  | insert hs =>
    cases (setRegistration_get (m := { m with subscriptions := _, observers := _ }) hr _).symm.trans
      hr₁
    rw [hs] at ht ⊢
    obtain rfl : told = [] := ht
    rfl
  | @undo s hs =>
    rw [removeObserver_scope] at hr₁ ⊢
    cases (setRegistration_get hr _).symm.trans hr₁
    have hc := hp.late id r s hr hs
    rw [hs] at ht ⊢
    exact hkeep (.finished (.error .closed)) (.inr ⟨rfl, hc, .inr ⟨s, ht⟩⟩)
  | @spawn s hs =>
    cases (setRegistration_get (m := m.modifySubscription s _) hr _).symm.trans hr₁
    rw [hs] at ht ⊢
    exact hkeep (.finished (.ok ())) ⟨s, ht⟩

theorem RegistrationStage.Informed.later {stage : RegistrationStage} {closed closed' : Bool}
    {remote : Endpoint} {told : List (Endpoint × Except RemoteError SubscriptionId)}
    (h : stage.Informed closed remote told) (hl : closed = true → closed' = true) :
    stage.Informed closed' remote told := by
  cases stage with
  | finished result =>
    cases result with
    | ok => exact h
    | error => exact h.imp_right fun ⟨he, hc, ht⟩ => ⟨he, hl hc, ht⟩
  | _ => exact h

theorem Informed.new (address : Endpoint) (config : Config) (clock : Nat) :
    Informed (new address config clock) [] := by
  refine ⟨fun id r h => ?_, fun _ _ => rfl⟩
  simp [Manager.new] at h

theorem Informed.move (h : Informed m ts) (hp : Prepared m) (hm : m.move mv = some (m', hs)) :
    Informed m' (ts ++ [⟨m, mv, m', hs⟩]) := by
  refine ⟨fun id r₁ hr₁ => ?_, fun id hn => ?_⟩
  · cases hr : m.registrations[id]? with
    | none =>
      rw [answersTo_of_ne (not_registers hm hr), h.absent id hr, move_newRegistration hm hr hr₁]
      rfl
    | some r =>
      obtain ⟨m₁, rfl, hst, hm'⟩ | ⟨hne, hr'⟩ := move_registration hm hr
      · rw [answersTo_of_step hr hr₁]
        rw [hm'] at hr₁ ⊢
        exact hst.informed hr hr₁ hp (h.present id r hr)
      · rw [answersTo_of_ne hne]
        cases hr'.symm.trans hr₁
        exact (h.present id r₁ hr).later (move_later hm).closed
  · have hn₀ : m.registrations[id]? = none := by
      refine Option.eq_none_iff_forall_ne_some.mpr fun r hr => ?_
      obtain ⟨stage, hr'⟩ := registration_stays hm hr
      cases hn.symm.trans hr'
    rw [answersTo_of_ne (not_registers hm hn₀), h.absent id hn₀]

@[simp] theorem push_remote (b : Subscription) (item : Item) : (b.push item).remote = b.remote := by
  rw [Subscription.push]
  split <;> rfl

theorem Fate.remote (h : Fate m s b mv b₁ hs) : b₁.remote = b.remote := by
  cases h with
  | push => exact push_remote _ _
  | _ => rfl

/-- An entry of the table has been there before, or is that of a new subscription. -/
theorem Stir.entry (h : Stir m mv m₁ hs) (hk : m₁.observers.get? k = some s) :
    m.observers.get? k = some s ∨ ∃ b, m₁.subscriptions[s]? = some b ∧ b.remote = k := by
  cases h with
  | aside hm =>
    rw [hm] at hk
    exact .inl hk
  | arrive | read | locate | hand | ask => exact .inl hk
  | unregister => exact .inl (removeObserver_get? hk).1
  | dispatch _ h =>
    left
    cases h <;> exact hk
  | clear =>
    rw [clearObservers_scope] at hk
    cases hk
  | @registration id r _ hr h =>
    cases h with
    | @insert _ ho =>
      have hg : (if k = r.remote then _ else _) = some s := (Table.get?_insert ho).symm.trans hk
      split at hg
      · next he =>
        cases hg
        exact .inr ⟨_, List.getElem?_concat_length, he.symm⟩
      · exact .inl hg
    | undo => exact .inl (removeObserver_get? hk).1
    | _ => exact .inl hk

/-- Every subscription is for the endpoint under which it has been entered into the table and is in
it, and for every item that it has been found for; and it has been entered once. -/
structure Addressed (m : Manager) (ts : List Transition) : Prop where
  listed : ∀ e s, m.observers.get? e = some s → ∃ b, m.subscriptions[s]? = some b ∧ b.remote = e
  entered : ∀ id e s, .entered id e (.ok s) ∈ dealings ts →
    ∃ b, m.subscriptions[s]? = some b ∧ b.remote = e
  once : ∀ id j e e' s, .entered id e (.ok s) ∈ dealings ts → .entered j e' (.ok s) ∈ dealings ts →
    id = j
  found : ∀ id source item s, .routed id source item (some s) ∈ dealings ts →
    ∃ b, m.subscriptions[s]? = some b ∧ (b.remote = source ∨ b.remote = source.toWildcard)

theorem Addressed.new (address : Endpoint) (config : Config) (clock : Nat) :
    Addressed (new address config clock) [] := by
  refine ⟨fun e s h => ?_, fun _ _ _ h => absurd h List.not_mem_nil,
    fun _ _ _ _ _ h => absurd h List.not_mem_nil, fun _ _ _ _ h => absurd h List.not_mem_nil⟩
  cases h

theorem Deals.entered {d : Option Dealing} {remote : Endpoint} (h : Deals m mv m₁ d)
    (hd : d = some (.entered id remote (.ok s))) : s = m.subscriptions.length := by
  cases h <;> cases hd
  rfl

theorem Addressed.move (h : Addressed m ts) (hm : m.move mv = some (m', hs)) :
    Addressed m' (ts ++ [⟨m, mv, m', hs⟩]) := by
  obtain ⟨m₁, hs₁, hst, hm', -⟩ := move_stir hm
  have hsub : m'.subscriptions = m₁.subscriptions := by rw [hm']
  have hobs : m'.observers = m₁.observers := by rw [hm']
  have hdeal := move_deals hm
  have hkeep : ∀ {s : SubscriptionId} {b : Subscription}, m.subscriptions[s]? = some b →
      ∃ b₁, m'.subscriptions[s]? = some b₁ ∧ b₁.remote = b.remote := fun hb => by
    obtain ⟨b₁, hb₁, hf⟩ := hst.fate hb
    exact ⟨b₁, hsub ▸ hb₁, hf.remote⟩
  have hlisted : ∀ e s, m'.observers.get? e = some s →
      ∃ b, m'.subscriptions[s]? = some b ∧ b.remote = e := fun e s he => by
    rw [hobs] at he
    obtain he | ⟨b, hb, hr⟩ := hst.entry he
    · obtain ⟨b, hb, rfl⟩ := h.listed e s he
      exact hkeep hb
    · exact ⟨b, hsub ▸ hb, hr⟩
  refine ⟨hlisted, fun id e s hd => ?_, fun id j e e' s hd hd' => ?_, fun id source item s hd => ?_⟩
  · obtain hd | hd := mem_dealings_concat hd
    · obtain ⟨b, hb, rfl⟩ := h.entered id e s hd
      exact hkeep hb
    · rw [hd] at hdeal
      cases hdeal with
      | @enter _ r _ _ _ hn _ ho =>
        exact hlisted r.remote _ (by rw [ho]; exact (Table.get?_insert hn).trans (if_pos rfl))
  · have hnew : ∀ {i f k g}, .entered i f (.ok s) ∈ dealings ts →
        (Transition.mk m mv m' hs).dealing? ≠ some (.entered k g (.ok s)) := fun hi hk => by
      obtain ⟨b, hb, -⟩ := h.entered _ _ s hi
      rw [hdeal.entered hk] at hb
      exact absurd (List.getElem?_eq_some_iff.mp hb).1 (Nat.lt_irrefl _)
    obtain hd | hd := mem_dealings_concat hd <;> obtain hd' | hd' := mem_dealings_concat hd'
    · exact h.once id j e e' s hd hd'
    · exact absurd hd' (hnew hd)
    · exact absurd hd (hnew hd')
    · cases hd.symm.trans hd'
      rfl
  · obtain hd | hd := mem_dealings_concat hd
    · obtain ⟨b, hb, hr⟩ := h.found id source item s hd
      obtain ⟨b₁, hb₁, he⟩ := hkeep hb
      exact ⟨b₁, hb₁, he ▸ hr⟩
    · rw [hd] at hdeal
      cases hdeal with
      | find _ _ hk hg =>
        obtain ⟨b, hb, hr⟩ := h.listed _ s hg
        obtain ⟨b₁, hb₁, he⟩ := hkeep hb
        refine ⟨b₁, hb₁, ?_⟩
        rw [he, hr]
        exact hk.imp And.right And.right

section Runs

variable {address : Endpoint} {config : Config} {clock : Nat} {moves : List Move}

theorem run_informed (h : (new address config clock).run moves = some (m, hs)) :
    Informed m ((new address config clock).transitions moves) :=
  (run_induction (P := fun m ts => Served m ∧ Informed m ts)
    ⟨.new address config clock, .new address config clock⟩
    (fun _ _ _ _ _ hi hm => ⟨hi.1.move hm, hi.2.move hi.1.prepared hm⟩) h).2

theorem run_addressed (h : (new address config clock).run moves = some (m, hs)) :
    Addressed m ((new address config clock).transitions moves) :=
  run_induction (P := Addressed) (.new address config clock) (fun _ _ _ _ _ hi hm => hi.move hm) h

end Runs

end PeerLink.Manager
