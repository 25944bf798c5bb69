import Mathlib.Data.Set.Card
import PeerLink.Proofs.Subscription.Dealings

namespace PeerLink.Manager

abbrev Routes := Endpoint → Option SubscriptionId

namespace Routes

/-- The subscription for what comes from an endpoint: the one for exactly that endpoint or, where
there is none, the one for its host. -/
def target (routes : Routes) (source : Endpoint) : Option SubscriptionId :=
  (routes source).or (routes source.toWildcard)

def after (routes : Routes) : Dealing → Routes
  | .entered _ remote (.ok s) => Function.update routes remote (some s)
  | .unregistered remote _ => Function.update routes remote none
  | _ => routes

def Answers (routes : Routes) : Dealing → Prop
  | .entered _ remote (.ok s) => routes remote = none ∧ ∀ e, routes e ≠ some s
  | .entered _ remote (.error error) => routes remote ≠ none ∧ error = .alreadyRegistered remote
  | .unregistered remote found => found = (routes remote).isSome
  | .routed _ source _ found => found = routes.target source

end Routes

def routesAfter (ds : List Dealing) : Routes := ds.foldl Routes.after fun _ => none

def routes (m : Manager) : Routes := m.observers.get?

def ReceiverStage.Widens : ReceiverStage → Prop
  | .routing _ _ _ .wildcard => True
  | _ => False

instance (stage : ReceiverStage) : Decidable stage.Widens :=
  match stage with
  | .routing _ _ _ .wildcard => isTrue trivial
  | .routing _ _ _ .exact | .routing _ _ _ (.handing _) => isFalse id
  | .opening | .greeting _ _ | .receiving _ _ | .ended => isFalse id

/-- Looking for the subscription for an item is one dealing with the table: nothing changes there
between its two halves. -/
def Unparted (ts : List Transition) : Prop :=
  ∀ t ∈ ts, (∃ r ∈ t.before.receivers, r.stage.Widens) → t.after.observers = t.before.observers

variable {m m' m₁ : Manager} {mv : Move} {hs hs₁ : List Happening} {id : Nat} {a : Answer}
  {ts : List Transition} {t : Transition} {s : SubscriptionId} {b b₁ : Subscription}
  {e k : Endpoint} {r r₁ : Receiver}

theorem routesAfter_concat {ds : List Dealing} {d : Dealing} :
    routesAfter (ds ++ [d]) = (routesAfter ds).after d := by
  rw [routesAfter, List.foldl_append]
  rfl

theorem routes_insert (hn : m.observers.get? k = none)
    (ho : m₁.observers = m.observers.insert k s) :
    m₁.routes = Function.update m.routes k (some s) := by
  funext e
  rw [Function.update_apply, routes, ho]
  exact Table.get?_insert hn

theorem routes_removeObserver (ho : m₁.observers = (m.removeObserver k).observers) :
    m₁.routes = Function.update m.routes k none := by
  funext e
  rw [routes, ho, removeObserver]
  by_cases he : e = k
  · subst he
    rw [Function.update_self]
    split
    · assumption
    · exact Table.get?_erase.trans (if_pos rfl)
  · rw [Function.update_of_ne he]
    split
    · rfl
    · exact Table.get?_erase.trans (if_neg he)

theorem Deals.routes {d : Option Dealing} (h : Deals m mv m₁ d) (hp : Prepared m) (hf : Flagged m)
    (ho : m.closed = false) : m₁.routes = d.elim m.routes m.routes.after := by
  cases h with
  | aside ho | turnAway _ _ _ _ ho | find _ _ _ _ ho | miss _ _ _ ho =>
    rw [Manager.routes, ho]
    rfl
  | enter _ _ hn _ ho => exact routes_insert hn ho
  | remove ho => exact routes_removeObserver ho
  | undo hr hs => cases ho.symm.trans (hp.late _ _ _ hr hs)
  | clear hc hs => cases ho.symm.trans (hf.past _ _ hc (by rw [hs]; nofun))

theorem Deals.answers {d : Dealing} (h : Deals m mv m₁ (some d)) (hc : Counted m)
    (hw : ∀ (id : Nat) (r : Receiver) src rd item, m.receivers[id]? = some r →
      r.stage = .routing src rd item .wildcard → m.observers.get? src = none) :
    m.routes.Answers d := by
  cases h with
  | enter hr hs hn =>
    refine ⟨hn, fun e he => ?_⟩
    exact absurd (hc.made _ (uses_pos_of_get? he)) (Nat.lt_irrefl _)
  | turnAway hr hs hk =>
    refine ⟨fun hn => ?_, rfl⟩
    cases hk.symm.trans hn
  | remove => rfl
  | find hr hs hk hg =>
    obtain ⟨rfl, rfl⟩ | ⟨rfl, rfl⟩ := hk
    · simp [Routes.Answers, Routes.target, Manager.routes, hg]
    · simp [Routes.Answers, Routes.target, Manager.routes, hg, hw _ _ _ _ _ hr hs]
  | miss hr hs hk =>
    obtain ⟨rfl, hn, hwild⟩ | ⟨rfl, hn⟩ := hk
    · simp [Routes.Answers, Routes.target, Manager.routes, hn, toWildcard_of_isWildcard hwild]
    · simp [Routes.Answers, Routes.target, Manager.routes, hn, hw _ _ _ _ _ hr hs]

/-- A receiver goes on to look for a subscription for the host where there is none for exactly the
source. -/
theorem ReceiverStep.widened {src : Endpoint} {rd : Reading} {item : Item}
    (h : ReceiverStep m id r a m₁ hs₁) (hr : m.receivers[id]? = some r)
    (hr₁ : m₁.receivers[id]? = some r₁) (hs : r₁.stage = .routing src rd item .wildcard) :
    m₁.observers.get? src = none := by
  have hdone : ∀ (n : Manager) (src' : Endpoint) (rd' : Reading) (item' : Item) xs,
      n.receivers[id]? = some r →
      (n.afterRouting id r src' rd' item' xs).1.receivers[id]? ≠ some r₁ := by
    intro n src' rd' item' xs hn hr₁
    obtain ⟨stage, -, hst, -, hr', -⟩ := afterRouting_get hn src' rd' item' xs
    cases hr'.symm.trans hr₁
    obtain rfl | rfl := hst <;> cases hs
  cases h with
  | widen _ hg =>
    cases (setReceiver_get hr _).symm.trans hr₁
    cases hs
    exact hg
  | miss => exact absurd hr₁ (hdone _ _ _ _ _ hr)
  | hand => exact absurd hr₁ (hdone _ _ _ _ _ hr)
  | @locate _ _ _ _ _ s =>
    cases (setReceiver_get (m := m.modifySubscription s _) hr _).symm.trans hr₁
    cases hs
  | establish | leave | finish =>
    cases (setReceiver_get (m := { m with established := _ }) hr _).symm.trans hr₁
    cases hs
  | _ =>
    cases (setReceiver_get hr _).symm.trans hr₁
    cases hs

/-- The table and the map of what has been registered. -/
structure Routed (m : Manager) (ts : List Transition) : Prop where
  table : m.routes = routesAfter (dealings ts)
  widened : ∀ (id : Nat) (r : Receiver) src rd item, m.receivers[id]? = some r →
    r.stage = .routing src rd item .wildcard → m.observers.get? src = none
  answers : ∀ ds₁ d ds₂, dealings ts = ds₁ ++ d :: ds₂ → (routesAfter ds₁).Answers d

theorem Routed.new (address : Endpoint) (config : Config) (clock : Nat) :
    Routed (new address config clock) [] := by
  refine ⟨rfl, fun id r src rd item h => ?_, fun ds₁ d ds₂ h => ?_⟩
  · simp [Manager.new] at h
  · cases List.append_ne_nil_of_right_ne_nil _ (List.cons_ne_nil _ _) h.symm

theorem Routed.widened_move (h : Routed m ts) (hm : m.move mv = some (m', hs))
    (hu : (∃ r ∈ m.receivers, r.stage.Widens) → m'.observers = m.observers) {src : Endpoint}
    {rd : Reading} {item : Item} (hr₁ : m'.receivers[id]? = some r₁)
    (hs' : r₁.stage = .routing src rd item .wildcard) : m'.observers.get? src = none := by
  cases hr : m.receivers[id]? with
  | none => cases (move_newReceiver hm hr hr₁).symm.trans hs'
  | some r =>
    obtain ⟨a, m₁, hs₁, -, hst, hreap⟩ | ⟨-, hr'⟩ := move_receiver hm hr
    · have hsc := reap_scope hreap
      rw [hsc] at hr₁ ⊢
      exact hst.widened hr hr₁ hs'
    · cases hr'.symm.trans hr₁
      rw [hu ⟨r₁, List.mem_of_getElem? hr, by rw [hs']; trivial⟩]
      exact h.widened id r₁ src rd item hr hs'

theorem Routed.move (h : Routed m ts) (hm : m.move mv = some (m', hs)) (hsv : Served m)
    (ho : m'.closed = false)
    (hu : (∃ r ∈ m.receivers, r.stage.Widens) → m'.observers = m.observers) :
    Routed m' (ts ++ [⟨m, mv, m', hs⟩]) := by
  have hd := move_deals hm
  have hroutes := hd.routes hsv.prepared hsv.flagged ((move_later hm).opened ho)
  refine ⟨?_, fun id r₁ src rd item hr₁ hs' => h.widened_move hm hu hr₁ hs', ?_⟩
  · rw [hroutes, dealings_concat, h.table]
    cases (Transition.mk m mv m' hs).dealing? with
    | none => simp
    | some d => exact routesAfter_concat.symm
  · rw [dealings_concat]
    cases hx : (Transition.mk m mv m' hs).dealing? with
    | none =>
      rw [Option.toList_none, List.append_nil]
      exact h.answers
    | some d =>
      rw [hx] at hd
      have hlast := hd.answers hsv.counted h.widened
      intro ds₁ d' ds₂ hds
      obtain ⟨rfl, rfl, -⟩ | ⟨ds₂, rfl, -⟩ := append_cons_eq_concat hds.symm
      · exact h.table ▸ hlast
      · exact h.answers ds₁ d' ds₂ (List.append_inj' (hds.trans (by simp)) rfl).1

def Dealing.found? (id : Nat) : Dealing → Option ((Endpoint × Item) × Option SubscriptionId)
  | .routed receiver source item found =>
    if receiver = id then some ((source, item), found) else none
  | _ => none

def routedBy (id : Nat) (ts : List Transition) : List ((Endpoint × Item) × Option SubscriptionId) :=
  (dealings ts).filterMap (Dealing.found? id)

def routedTo (s : SubscriptionId) (routed : List ((Endpoint × Item) × Option SubscriptionId)) :
    List Item :=
  routed.filterMap fun entry => if entry.2 = some s then some entry.1.2 else none

def ReceiverStage.sought : ReceiverStage → List (Endpoint × Item)
  | .routing _ _ _ (.handing _) => []
  | .routing source _ item _ => [(source, item)]
  | _ => []

def ReceiverStage.offered (s : SubscriptionId) : ReceiverStage → List Item
  | .routing _ _ item (.handing t) => if t = s then [item] else []
  | _ => []

def lookedUp (r r₁ : Receiver) : List ((Endpoint × Item) × Option SubscriptionId) :=
  (routedBetween r.stage r₁.stage).toList.map fun (source, item, found) => ((source, item), found)

theorem ReceiverStep.finds (h : ReceiverStep m id r a m₁ hs₁) (hr : m.receivers[id]? = some r)
    (hr₁ : m₁.receivers[id]? = some r₁) :
    r.stage.sought ++ handedBetween r.stage r₁.stage =
        (lookedUp r r₁).map Prod.fst ++ r₁.stage.sought ∧
      r.stage.offered s ++ routedTo s (lookedUp r r₁) =
        hs₁.filterMap (Happening.enqueued? s) ++ r₁.stage.offered s := by
  cases h with
  | halt hs =>
    cases (setReceiver_get hr _).symm.trans hr₁
    obtain hs | ⟨t, rd, hs⟩ := hs <;> rw [lookedUp, hs] <;> exact ⟨rfl, rfl⟩
  | start hs | reject hs | disagree hs | vanish hs | expectGreeting hs | expire hs
  | breakGreeting hs | readGreeting hs | expectFrame hs | readFrame hs | widen hs | fail hs | take hs
  | breakFrame hs =>
    cases (setReceiver_get hr _).symm.trans hr₁
    rw [lookedUp, hs]
    exact ⟨rfl, rfl⟩
  | establish hs =>
    cases (setReceiver_get (m := { m with established := m.established + 1 }) hr _).symm.trans hr₁
    rw [lookedUp, hs]
    exact ⟨rfl, rfl⟩
  | leave hs | finish hs =>
    cases (setReceiver_get (m := { m with established := m.established - 1 }) hr _).symm.trans hr₁
    rw [lookedUp, hs]
    exact ⟨rfl, rfl⟩
  | @locate _ _ item _ _ t hs hk =>
    cases (setReceiver_get
      (m := m.modifySubscription t fun s => { s with handles := s.handles + 1 })
      hr _).symm.trans hr₁
    rw [lookedUp, hs]
    obtain ⟨rfl, -⟩ | ⟨rfl, -⟩ := hk
    all_goals
      refine ⟨rfl, ?_⟩
      by_cases ht : t = s <;> simp [routedBetween, routedTo, ReceiverStage.offered, ht]
  | miss hs hk =>
    obtain ⟨stage, released, hst, hstill, hr', -, hh⟩ := afterRouting_get hr _ _ _ []
    cases hr'.symm.trans hr₁
    rw [lookedUp, hs, hh, List.nil_append, hstill.enqueued]
    obtain ⟨rfl, -⟩ | ⟨rfl, -⟩ := hk <;> obtain rfl | rfl := hst <;> exact ⟨rfl, rfl⟩
  | @hand _ _ item t hs =>
    obtain ⟨stage, released, hst, hstill, hr', -, hh⟩ := afterRouting_get
      (m := (m.modifySubscription t (·.push item)).dropHandle t) hr _ _ _ [.enqueued t item]
    cases hr'.symm.trans hr₁
    rw [lookedUp, hs, hh, List.filterMap_append, hstill.enqueued]
    by_cases ht : t = s
    all_goals obtain rfl | rfl := hst
    all_goals simp [routedBetween, handedBetween, routedTo, ReceiverStage.offered,
      ReceiverStage.sought, Happening.enqueued?, ht]

theorem routedBy_concat : routedBy id (ts ++ [t]) =
    routedBy id ts ++ (t.dealing?.bind (Dealing.found? id)).toList := by
  rw [routedBy, dealings_concat, List.filterMap_append, routedBy]
  cases t.dealing? with
  | none => rfl
  | some d => cases h : d.found? id <;> simp [h]

/-- A receiver looks things up by its own steps only. -/
theorem routedBy_of_ne (h : ∀ a, t.move ≠ .step (.receiver id) a) :
    routedBy id (ts ++ [t]) = routedBy id ts := by
  suffices hn : t.dealing?.bind (Dealing.found? id) = none by
    rw [routedBy_concat, hn, Option.toList_none, List.append_nil]
  refine Option.bind_eq_none_iff.mpr fun d hd => ?_
  cases d with
  | routed receiver source item found =>
    obtain ⟨a, ha⟩ := Move.eq_step_of_task? (task?_of_dealing? hd)
    refine if_neg ?_
    rintro rfl
    exact h a ha
  | _ => rfl

theorem routedBy_of_step (hr : m.receivers[id]? = some r) (hr₁ : m'.receivers[id]? = some r₁) :
    routedBy id (ts ++ [⟨m, .step (.receiver id) a, m', hs⟩]) = routedBy id ts ++ lookedUp r r₁ := by
  rw [routedBy_concat, dealing?_of_receiver hr hr₁, lookedUp]
  cases routedBetween r.stage r₁.stage <;> simp [Dealing.found?]

theorem routedTo_append {xs ys : List ((Endpoint × Item) × Option SubscriptionId)} :
    routedTo s (xs ++ ys) = routedTo s xs ++ routedTo s ys := List.filterMap_append

/-- Every item that a receiver hands over is looked up once, in that order, and comes into the queue
that is found for it, and into no other. -/
structure Sorted (id : Nat) (m : Manager) (ts : List Transition) : Prop where
  absent : m.receivers[id]? = none → routedBy id ts = []
  sought : ∀ r, m.receivers[id]? = some r →
    ts.flatMap (·.handed id) = (routedBy id ts).map Prod.fst ++ r.stage.sought
  offered : ∀ r s, m.receivers[id]? = some r →
    routedTo s (routedBy id ts) = passedTo id s ts ++ r.stage.offered s

theorem Sorted.new (id : Nat) (address : Endpoint) (config : Config) (clock : Nat) :
    Sorted id (new address config clock) [] := by
  refine ⟨fun _ => rfl, fun r h => ?_, fun r s h => ?_⟩ <;> simp [Manager.new] at h

theorem Sorted.move (h : Sorted id m ts) (hi : Received id m ts)
    (hm : m.move mv = some (m', hs)) : Sorted id m' (ts ++ [⟨m, mv, m', hs⟩]) := by
  cases hr : m.receivers[id]? with
  | none =>
    obtain ⟨hhanded, hno⟩ := hi.absent_move (t := ⟨m, mv, m', hs⟩) hm hr
    have hrouted : routedBy id (ts ++ [⟨m, mv, m', hs⟩]) = [] := by
      rw [routedBy_of_ne (not_receives hm hr), h.absent hr]
    refine ⟨fun _ => hrouted, fun r₁ hr₁ => ?_, fun r₁ s hr₁ => ?_⟩
    · rw [hhanded, hrouted, move_newReceiver hm hr hr₁]
      rfl
    · rw [hrouted, passedTo_of_absent hno, move_newReceiver hm hr hr₁]
      rfl
  | some r =>
    obtain ⟨r', hr', -⟩ := move_peer hm hr
    suffices hall : ∀ r₁ s, m'.receivers[id]? = some r₁ →
        (ts ++ [Transition.mk m mv m' hs]).flatMap (·.handed id) =
            (routedBy id (ts ++ [⟨m, mv, m', hs⟩])).map Prod.fst ++ r₁.stage.sought ∧
          routedTo s (routedBy id (ts ++ [⟨m, mv, m', hs⟩])) =
            passedTo id s (ts ++ [⟨m, mv, m', hs⟩]) ++ r₁.stage.offered s from
      ⟨fun hn => absurd (hn.symm.trans hr') nofun, fun r₁ hr₁ => (hall r₁ 0 hr₁).1,
        fun r₁ s hr₁ => (hall r₁ s hr₁).2⟩
    intro r₁ s hr₁
    rw [List.flatMap_append, List.flatMap_singleton, Transition.handed_eq hr hr₁, h.sought r hr]
    obtain ⟨a, m₁, hs₁, rfl, hst, hreap⟩ | ⟨hne, hr'⟩ := move_receiver hm hr
    · have hr₁' : m₁.receivers[id]? = some r₁ := by
        rw [reap_scope hreap] at hr₁
        exact hr₁
      obtain ⟨hsought, hoffered⟩ := hst.finds (s := s) hr hr₁'
      rw [routedBy_of_step hr hr₁, routedTo_append, h.offered r s hr,
        passedTo_of_step (t := ⟨m, _, m', hs⟩) rfl hreap, List.map_append, List.append_assoc,
        List.append_assoc, List.append_assoc, List.append_assoc, hsought, hoffered]
      exact ⟨rfl, rfl⟩
    · cases hr'.symm.trans hr₁
      rw [routedBy_of_ne hne, passedTo_of_ne (t := ⟨m, mv, m', hs⟩) hne, handedBetween_self,
        List.append_nil, h.offered r s hr]
      exact ⟨rfl, rfl⟩

end PeerLink.Manager
