import PeerLink.Proofs.Receiver.Delivery
import PeerLink.Proofs.Subscription.Queues

namespace PeerLink.Manager

def passedTo (id : Nat) (s : SubscriptionId) (ts : List Transition) : List Item :=
  ((queuedTo s ts).filter (·.1 = id)).map Prod.snd

def ReceiverStage.source? : ReceiverStage → Option Endpoint
  | .receiving source _ => some source
  | .routing source _ _ _ => some source
  | _ => none

structure Matches (m : Manager) (source key : Endpoint) (s : SubscriptionId) : Prop where
  listed : m.observers.get? key = some s
  suits : key = source ∨ key = source.toWildcard ∧ m.observers.get? source = none

def ReceiverStage.Aims (key : Endpoint) (s : SubscriptionId) : ReceiverStage → Prop
  | .routing source _ _ .wildcard => key = source.toWildcard
  | .routing _ _ _ (.handing t) => t = s
  | _ => True

/-- All that a receiver hands over goes to one subscription. -/
structure Passed (key : Endpoint) (id : Nat) (s : SubscriptionId) (m : Manager)
    (ts : List Transition) : Prop where
  aims : ∀ r, m.receivers[id]? = some r → r.stage.Aims key s
  all : ∀ r, m.receivers[id]? = some r →
    (ts.flatMap (·.handed id)).map Prod.snd = passedTo id s ts ++ r.stage.pending

/-- Whenever a receiver knows where its frames come from, the subscription under a key is the one
for them. -/
def Transition.Observed (id : Nat) (key : Endpoint) (s : SubscriptionId) (t : Transition) : Prop :=
  ∀ r source, t.before.receivers[id]? = some r → r.stage.source? = some source →
    t.before.Matches source key s

variable {m m' m₁ : Manager} {mv : Move} {hs hs₁ : List Happening} {s : SubscriptionId}
  {key : Endpoint} {id : Nat} {r r₁ : Receiver} {a : Answer} {ts : List Transition} {t : Transition}

theorem toWildcard_of_isWildcard {e : Endpoint} (h : e.isWildcard = true) : e.toWildcard = e := by
  obtain ⟨host, port⟩ := e
  have hp : port = 0 := of_decide_eq_true h
  rw [hp]
  rfl

theorem Matches.exact {source : Endpoint} {t : SubscriptionId} (h : m.Matches source key s)
    (ht : m.observers.get? source = some t) : t = s := by
  obtain rfl | ⟨-, hn⟩ := h.suits
  · exact Option.some.inj (ht.symm.trans h.listed)
  · cases ht.symm.trans hn

theorem Matches.wider {source : Endpoint} (h : m.Matches source key s)
    (hn : m.observers.get? source = none) :
    key = source.toWildcard ∧ source.isWildcard = false := by
  obtain rfl | ⟨rfl, -⟩ := h.suits
  · cases h.listed.symm.trans hn
  · refine ⟨rfl, Bool.eq_false_iff.mpr fun hw => ?_⟩
    have hl := h.listed
    rw [toWildcard_of_isWildcard hw, hn] at hl
    cases hl

theorem afterRouting_passes {source : Endpoint} {rd : Reading} {item : Item} {rt : Routing}
    (hr : m.receivers[id]? = some r) (hs' : r.stage = .routing source rd item rt)
    (hr₁ : (m.afterRouting id r source rd item hs).1.receivers[id]? = some r₁) :
    r₁.stage.Aims key s ∧
      (m.afterRouting id r source rd item hs).2.filterMap (Happening.enqueued? s) =
        hs.filterMap (Happening.enqueued? s) := by
  cases item with
  | frame body =>
    cases (setReceiver_get hr _).symm.trans hr₁
    exact ⟨trivial, rfl⟩
  | failure error =>
    have hr : ({ m with established := m.established - 1 } : Manager).receivers[id]? = some r := hr
    cases (setReceiver_get hr _).symm.trans hr₁
    exact ⟨trivial, by simp [afterRouting, endEstablished, endReceiver, Happening.enqueued?]⟩

theorem ReceiverStep.passes (h : ReceiverStep m id r a m₁ hs₁) (hr : m.receivers[id]? = some r)
    (hk : ∀ source, r.stage.source? = some source → m.Matches source key s)
    (ha : r.stage.Aims key s) (hr₁ : m₁.receivers[id]? = some r₁) :
    r₁.stage.Aims key s ∧ r.stage.pending ++ (handedBetween r.stage r₁.stage).map Prod.snd =
      hs₁.filterMap (Happening.enqueued? s) ++ r₁.stage.pending := by
  cases h with
  | halt hs =>
    cases (setReceiver_get hr _).symm.trans hr₁
    obtain hs | ⟨t, rd, hs⟩ := hs <;> rw [hs] <;> exact ⟨trivial, rfl⟩
  | start hs | reject hs | disagree hs | vanish hs | expectGreeting hs | expire hs
  | breakGreeting hs | readGreeting hs | expectFrame hs | readFrame hs =>
    cases (setReceiver_get hr _).symm.trans hr₁
    rw [hs]
    exact ⟨trivial, rfl⟩
  | fail hs | take hs | breakFrame hs =>
    cases (setReceiver_get hr _).symm.trans hr₁
    rw [hs]
    exact ⟨trivial, rfl⟩
  | establish hs =>
    cases (setReceiver_get (m := { m with established := m.established + 1 }) hr _).symm.trans hr₁
    rw [hs]
    exact ⟨trivial, rfl⟩
  | leave hs | finish hs =>
    cases (setReceiver_get (m := { m with established := m.established - 1 }) hr _).symm.trans hr₁
    rw [hs]
    exact ⟨trivial, rfl⟩
  | @locate source _ _ _ _ s' hs hfound hg =>
    rw [hs] at hk ha
    have hmatch := hk source rfl
    have hs' : s' = s := by
      obtain ⟨-, rfl⟩ | ⟨rfl, rfl⟩ := hfound
      · exact hmatch.exact hg
      · have ha : key = source.toWildcard := ha
        exact Option.some.inj (hg.symm.trans (ha ▸ hmatch.listed))
    cases (setReceiver_get
      (m := m.modifySubscription s' fun s => { s with handles := s.handles + 1 })
      hr _).symm.trans hr₁
    rw [hs]
    exact ⟨hs', rfl⟩
  | widen hs hg =>
    rw [hs] at hk
    cases (setReceiver_get hr _).symm.trans hr₁
    rw [hs]
    exact ⟨((hk _ rfl).wider hg).1, rfl⟩
  | @miss source _ _ _ hs hmissed =>
    rw [hs] at hk ha
    have hmatch := hk source rfl
    obtain ⟨-, hg, hw⟩ | ⟨rfl, hg⟩ := hmissed
    · cases hw.symm.trans (hmatch.wider hg).2
    · have ha : key = source.toWildcard := ha
      cases hmatch.listed.symm.trans (ha ▸ hg)
  | @hand _ _ item s' hs =>
    rw [hs] at ha
    obtain rfl : s' = s := ha
    have hr' : ((m.modifySubscription s' (·.push item)).dropHandle s').receivers[id]? = some r := hr
    obtain ⟨hq, -⟩ := afterRouting_queues hr' hs hr₁
    obtain ⟨ha, hn⟩ : r₁.stage.Aims key s' ∧ _ := afterRouting_passes hr' hs hr₁
    refine ⟨ha, ?_⟩
    rw [hq, hn]
    simp [Happening.enqueued?]

theorem passedTo_concat :
    passedTo id s (ts ++ [t]) =
      passedTo id s ts ++ ((t.queued s).filter (·.1 = id)).map Prod.snd := by
  simp [passedTo, queuedTo_concat]

theorem Transition.queued_of_ne (h : ∀ a, t.move ≠ .step (.receiver id) a) :
    (t.queued s).filter (·.1 = id) = [] := by
  apply List.filter_eq_nil_iff.mpr
  intro p hp
  rw [queued] at hp
  split at hp
  · next j a hm =>
    obtain ⟨item, -, rfl⟩ := List.mem_map.mp hp
    have hne : j ≠ id := by
      rintro rfl
      exact h a hm
    simpa using hne
  · cases hp

/-- What others put into the queue does not count for a receiver. -/
theorem passedTo_of_ne (h : ∀ a, t.move ≠ .step (.receiver id) a) :
    passedTo id s (ts ++ [t]) = passedTo id s ts := by
  rw [passedTo_concat, Transition.queued_of_ne h, List.map_nil, List.append_nil]

theorem passedTo_of_absent (h : ∀ t ∈ ts, ∀ a, t.move ≠ .step (.receiver id) a) :
    passedTo id s ts = [] := by
  have hn : (queuedTo s ts).filter (·.1 = id) = [] := by
    rw [queuedTo, List.filter_flatMap]
    exact List.flatMap_eq_nil_iff.mpr fun t ht => Transition.queued_of_ne (h t ht)
  rw [passedTo, hn, List.map_nil]

theorem passedTo_of_step (h : t.move = .step (.receiver id) a)
    (hr : reap (m₁, hs₁) = (t.after, t.happenings)) :
    passedTo id s (ts ++ [t]) = passedTo id s ts ++ hs₁.filterMap (Happening.enqueued? s) := by
  obtain ⟨streams, hs⟩ := reap_happenings hr
  have hn := (Still.released streams).enqueued s
  have hq : t.queued s = (hs₁.filterMap (Happening.enqueued? s)).map (id, ·) := by
    simp only [Transition.queued, h, hs, List.filterMap_append, hn, List.append_nil]
  rw [passedTo_concat, hq, List.filter_map]
  simp [Function.comp_def]

theorem Passed.start (hi : Received id m ts) (hm : m.move mv = some (m', hs))
    (hr : m.receivers[id]? = none) : Passed key id s m' (ts ++ [⟨m, mv, m', hs⟩]) := by
  obtain ⟨hhanded, hno⟩ := hi.absent_move (t := ⟨m, mv, m', hs⟩) hm hr
  refine ⟨fun r' hr' => ?_, fun r' hr' => ?_⟩
  · rw [move_newReceiver hm hr hr']
    trivial
  · rw [hhanded, passedTo_of_absent hno, move_newReceiver hm hr hr']
    rfl

theorem Passed.move (h : Passed key id s m ts) (hm : m.move mv = some (m', hs))
    (hr : m.receivers[id]? = some r)
    (hk : ∀ source, r.stage.source? = some source → m.Matches source key s) :
    Passed key id s m' (ts ++ [⟨m, mv, m', hs⟩]) := by
  suffices hall : ∀ r', m'.receivers[id]? = some r' → r'.stage.Aims key s ∧
      ((ts ++ [Transition.mk m mv m' hs]).flatMap (·.handed id)).map Prod.snd =
        passedTo id s (ts ++ [Transition.mk m mv m' hs]) ++ r'.stage.pending from
    ⟨fun r' hr' => (hall r' hr').1, fun r' hr' => (hall r' hr').2⟩
  intro r' hr'
  have hh : ((ts ++ [Transition.mk m mv m' hs]).flatMap (·.handed id)).map Prod.snd =
      passedTo id s ts ++ (r.stage.pending ++ (handedBetween r.stage r'.stage).map Prod.snd) := by
    simp only [List.flatMap_append, List.flatMap_singleton, List.map_append, h.all r hr]
    rw [Transition.handed_eq hr hr', List.append_assoc]
  rw [hh]
  obtain ⟨a, m₁, hs₁, hmv, hstep, hreap⟩ | ⟨hne, hr''⟩ := move_receiver hm hr
  · have hr₁ : m₁.receivers[id]? = some r' := by
      rw [reap_scope hreap] at hr'
      exact hr'
    obtain ⟨ha, hp⟩ := hstep.passes hr hk (h.aims r hr) hr₁
    refine ⟨ha, ?_⟩
    rw [hp, passedTo_of_step (t := ⟨m, mv, m', hs⟩) hmv hreap, List.append_assoc]
  · cases hr''.symm.trans hr'
    refine ⟨h.aims r hr, ?_⟩
    rw [handedBetween_self, List.map_nil, List.append_nil,
      passedTo_of_ne (t := ⟨m, mv, m', hs⟩) hne]

theorem run_passed {address : Endpoint} {config : Config} {clock : Nat} {moves : List Move}
    (h : (new address config clock).run moves = some (m, hs))
    (ho : ∀ t ∈ (new address config clock).transitions moves, t.Observed id key s) :
    Passed key id s m ((new address config clock).transitions moves) := by
  refine (run_induction (P := fun m ts => Received id m ts ∧
    ((∀ t ∈ ts, t.Observed id key s) → Passed key id s m ts)) ?_ ?_ h).2 ho
  · refine ⟨.new id address config clock, fun _ => ⟨fun r hr => ?_, fun r hr => ?_⟩⟩ <;>
      cases (List.getElem?_nil (i := id)).symm.trans hr
  · rintro m ts mv m' hs ⟨hi, hp⟩ hm
    refine ⟨hi.move hm, fun ho => ?_⟩
    cases hr : m.receivers[id]? with
    | none => exact .start hi hm hr
    | some r =>
      have hp := hp fun t ht => ho t (List.mem_append_left _ ht)
      have hk := ho _ (List.mem_append_right _ (List.mem_singleton_self _))
      exact hp.move hm hr fun source hs => hk r source hr hs

end PeerLink.Manager
