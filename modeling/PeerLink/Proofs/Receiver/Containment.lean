import PeerLink.Proofs.Manager.Accepting
import PeerLink.Proofs.Receiver.Omission
import PeerLink.Proofs.Subscription.Routes

namespace PeerLink.Manager

def ReceiverStage.key? : ReceiverStage → Option Endpoint
  | .routing source _ _ .exact => some source
  | .routing source _ _ .wildcard => some source.toWildcard
  | _ => none

namespace Transition

variable (t : Transition)

/-- The read of a receiver fails. -/
def FailsReading (k : Nat) (source : Endpoint) (error : IoError) : Prop :=
  t.handed k = [(source, .failure (.connection source error))]

def doneBy (k : Nat) : List Happening :=
  if t.move.task? = some (.receiver k) then t.happenings else []

def LooksUp (k : Nat) (key : Endpoint) (found : Option SubscriptionId) : Prop :=
  t.move.task? = some (.receiver k) ∧
    (t.before.receivers[k]?).bind (·.stage.key?) = some key ∧ t.before.observers.get? key = found

/-- There is no change but to one receiver, to how many connections there are, and to one
subscription: to its handles and, where an item is put into it, to its queue. -/
structure Confined (k : Nat) (found : Option SubscriptionId) (item : Item) : Prop where
  rest : t.after = { t.before with
    receivers := t.after.receivers
    established := t.after.established
    subscriptions := t.after.subscriptions }
  receivers : ∀ j, j ≠ k → t.after.receivers[j]? = t.before.receivers[j]?
  subscriptions : ∀ s, found ≠ some s → t.after.subscriptions[s]? = t.before.subscriptions[s]?
  enqueued : ∀ s i, .enqueued s i ∈ t.happenings → found = some s ∧ i = item
  found : ∀ s b, found = some s → t.before.subscriptions[s]? = some b →
    ∃ handles, t.after.subscriptions[s]? =
      some { if .enqueued s item ∈ t.happenings then b.push item else b with handles }

end Transition

def Located (ts : List Transition) (k : Nat) (source : Endpoint) (s : SubscriptionId) : Prop :=
  (∃ u ∈ ts, u.LooksUp k source (some s)) ∨
    (∃ u ∈ ts, u.LooksUp k source none) ∧ ∃ u ∈ ts, u.LooksUp k source.toWildcard (some s)

inductive Standing (k : Nat) (source : Endpoint) (item : Item) (ts : List Transition)
    (stream : StreamId) : Option SubscriptionId → List Happening → ReceiverStage → Prop where
  | seeking {rd} : Standing k source item ts stream none [] (.routing source rd item .exact)
  | widening {rd} (hn : ∃ u ∈ ts, u.LooksUp k source none) :
    Standing k source item ts stream none [] (.routing source rd item .wildcard)
  | handing {rd s} (hl : Located ts k source s) :
    Standing k source item ts stream (some s) [] (.routing source rd item (.handing s))
  | ended {found} (hl : ∀ s, found = some s → Located ts k source s) :
    Standing k source item ts stream found
      (found.toList.map (.enqueued · item) ++ [.released stream]) .ended

def Aftermath (k : Nat) (source : Endpoint) (error : RemoteError) (r : Receiver)
    (m : Manager) (ts : List Transition) : Prop :=
  ∃ found stage, m.receivers[k]? = some { r with stage } ∧
    Standing k source (.failure error) ts r.stream found (ts.flatMap (·.doneBy k)) stage ∧
    ∀ u ∈ ts, u.move.task? = some (.receiver k) → u.Confined k found (.failure error)

variable {m m' m₁ : Manager} {mv : Move} {hs hs₁ : List Happening} {k : Nat} {r r₁ : Receiver}
  {a : Answer} {ts : List Transition} {t : Transition} {source : Endpoint} {rd : Reading}
  {rt : Routing} {item : Item} {error : RemoteError} {s : SubscriptionId}
  {found : Option SubscriptionId} {stage : ReceiverStage} {done : List Happening}
  {stream : StreamId}

theorem move_own (hm : m.move (.step (.receiver k) a) = some (m', hs)) (ht : Tidy m) :
    ∃ r, m.receivers[k]? = some r ∧ ReceiverStep m k r a m' hs := by
  rw [move_receiver_eq ht] at hm
  exact receiverStep_cases hm

theorem handedBetween_eq_singleton {stage stage₁ : ReceiverStage}
    (h : handedBetween stage stage₁ = [(source, item)]) :
    (∃ src rd, stage = .receiving src rd) ∧ ∃ rd rt, stage₁ = .routing source rd item rt := by
  cases stage <;> cases stage₁ <;> cases h
  exact ⟨⟨_, _, rfl⟩, _, _, rfl⟩

theorem ReceiverStep.fails (h : ReceiverStep m k r a m₁ hs) (hr : m.receivers[k]? = some r)
    (hr₁ : m₁.receivers[k]? = some r₁)
    (hh : handedBetween r.stage r₁.stage = [(source, .failure error)]) :
    ∃ rd e, error = .connection source e ∧
      m₁ = m.setReceiver k (.routing source rd (.failure error) .exact) ∧
      hs = [.warned (.receiveFailed source e)] := by
  obtain ⟨⟨src, rd, hs₀⟩, rd', rt, hs₁⟩ := handedBetween_eq_singleton hh
  cases h with
  | fail | breakFrame =>
    cases (setReceiver_get hr _).symm.trans hr₁
    cases hs₁
    exact ⟨_, _, rfl, rfl, rfl⟩
  | take | expectFrame | readFrame =>
    cases (setReceiver_get hr _).symm.trans hr₁
    cases hs₁
  | leave | finish =>
    cases (setReceiver_get (m := { m with established := _ }) hr _).symm.trans hr₁
    cases hs₁
  | halt hs =>
    obtain hs | ⟨t, rd, hs⟩ := hs <;> cases hs.symm.trans hs₀
  | start hs | reject hs | disagree hs | establish hs | vanish hs | expectGreeting hs | expire hs
  | breakGreeting hs | readGreeting hs | locate hs | widen hs | miss hs | hand hs =>
    cases hs.symm.trans hs₀

theorem Transition.FailsReading.effect {e : IoError} (h : t.FailsReading k source e)
    (hm : t.before.move t.move = some (t.after, t.happenings)) (ht : Tidy t.before) :
    t.happenings = [.warned (.receiveFailed source e)] ∧ ∃ r rd, t.before.receivers[k]? = some r ∧
      t.after = t.before.setReceiver k
        (.routing source rd (.failure (.connection source e)) .exact) := by
  rw [FailsReading] at h
  cases hr : t.before.receivers[k]? with
  | none =>
    rw [handed_of_none hr] at h
    cases h
  | some r =>
    obtain ⟨r₁, hr₁⟩ : ∃ r₁, t.after.receivers[k]? = some r₁ :=
      (move_stage hm hr).imp' _ fun _ h => h
    rw [handed_eq hr hr₁] at h
    obtain ⟨a, -, -, hmv, -⟩ | ⟨-, hr'⟩ := move_receiver hm hr
    · rw [hmv] at hm
      obtain ⟨r₀, hr₀, hst⟩ := move_own hm ht
      cases hr.symm.trans hr₀
      obtain ⟨rd, e', he, hm', hhs⟩ := hst.fails hr hr₁ h
      cases he
      exact ⟨hhs, r, rd, rfl, hm'⟩
    · cases hr'.symm.trans hr₁
      rw [handedBetween_self] at h
      cases h

theorem Transition.doneBy_of_step (h : t.move = .step (.receiver k) a) :
    t.doneBy k = t.happenings := by
  rw [doneBy, h]
  exact if_pos rfl

theorem Transition.doneBy_of_ne (h : t.move.task? ≠ some (.receiver k)) : t.doneBy k = [] :=
  if_neg h

theorem Located.append (h : Located ts k source s) : Located (ts ++ [t]) k source s := by
  obtain ⟨u, hu, h⟩ | ⟨⟨u, hu, hn⟩, v, hv, h⟩ := h
  · exact .inl ⟨u, List.mem_append_left _ hu, h⟩
  · exact .inr ⟨⟨u, List.mem_append_left _ hu, hn⟩, v, List.mem_append_left _ hv, h⟩

theorem Standing.append (h : Standing k source item ts stream found done stage) :
    Standing k source item (ts ++ [t]) stream found done stage := by
  cases h with
  | seeking => exact .seeking
  | widening hn =>
    obtain ⟨u, hu, hn⟩ := hn
    exact .widening ⟨u, List.mem_append_left _ hu, hn⟩
  | handing hl => exact .handing hl.append
  | ended hl => exact .ended fun s hs => (hl s hs).append

theorem Transition.Confined.of_own {n : Nat}
    (hm : t.after = setReceiver { t.before with established := n } k stage)
    (hh : ∀ s i, .enqueued s i ∉ t.happenings) : t.Confined k found item := by
  refine ⟨by rw [hm]; rfl, fun j hj => ?_, fun s _ => by rw [hm]; rfl,
    fun s i h => absurd h (hh s i), fun s b _ hb => ?_⟩
  · rw [hm]
    exact List.getElem?_modify_ne _ _ hj.symm
  · rw [if_neg (hh s item), hm]
    exact ⟨b.handles, hb⟩

theorem Transition.Confined.of_modify {n : Nat} {f : Subscription → Subscription}
    (hm : t.after = setReceiver { t.before with
      established := n
      subscriptions := t.before.subscriptions.modify s f } k stage)
    (hh : ∀ i j, .enqueued i j ∈ t.happenings → i = s ∧ j = item)
    (hf : ∀ b, ∃ handles, f b =
      { if .enqueued s item ∈ t.happenings then b.push item else b with handles }) :
    t.Confined k (some s) item := by
  refine ⟨by rw [hm]; rfl, fun j hj => ?_, fun i hi => ?_,
    fun i j h => (hh i j h).imp_left fun e => congrArg some e.symm, fun i b hi hb => ?_⟩
  · rw [hm]
    exact List.getElem?_modify_ne _ _ hj.symm
  · rw [hm]
    exact List.getElem?_modify_ne _ _ fun e => hi (congrArg some e)
  · cases hi
    obtain ⟨handles, hf⟩ := hf b
    refine ⟨handles, ?_⟩
    rw [hm, ← hf]
    exact (List.getElem?_modify_eq ..).trans (congrArg (Option.map f) hb)

theorem modify_push_dropHandle : ((m.modifySubscription s (·.push item)).dropHandle s) =
    m.modifySubscription s fun b => { b.push item with handles := b.handles - 1 } := by
  refine congrArg (fun ss => { m with subscriptions := ss }) ?_
  refine (List.modify_modify_eq ..).trans (congrArg (m.subscriptions.modify s) (funext fun b => ?_))
  simp

theorem Transition.Confined.of_locate (ht : t = ⟨m, mv, (m.modifySubscription s fun b =>
      { b with handles := b.handles + 1 }).setReceiver k stage, []⟩) :
    t.Confined k (some s) item := by
  have hno : ∀ i j, .enqueued i j ∉ t.happenings := by
    rw [ht]
    exact fun _ _ => List.not_mem_nil
  refine .of_modify (by rw [ht]; rfl) (fun i j h => absurd h (hno i j)) fun b => ⟨b.handles + 1, ?_⟩
  rw [if_neg (hno s item)]

theorem Transition.Confined.of_hand (ht : t = ⟨m, mv,
      (((m.modifySubscription s (·.push item)).dropHandle s).endEstablished k r
        [.enqueued s item]).1, [.enqueued s item, .released stream]⟩) :
    t.Confined k (some s) item := by
  have hm : t.after = setReceiver { t.before with
      established := t.before.established - 1
      subscriptions := t.before.subscriptions.modify s fun b =>
        { b.push item with handles := b.handles - 1 } } k .ended := by
    rw [ht, modify_push_dropHandle]
    rfl
  refine .of_modify hm (fun i j h => ?_) fun b => ⟨b.handles - 1, ?_⟩
  · rw [ht] at h
    simpa using h
  · rw [ht, if_pos List.mem_cons_self]

theorem Standing.routing {src : Endpoint} {item' : Item}
    (h : Standing k source item ts stream found done (.routing src rd item' rt)) :
    source = src ∧ item = item' := by
  cases h <;> exact ⟨rfl, rfl⟩

theorem Transition.Confined.widen (h : t.Confined k none item) : t.Confined k found item := by
  refine ⟨h.rest, h.receivers, fun s _ => h.subscriptions s nofun,
    fun s i hi => absurd (h.enqueued s i hi).1 nofun, fun s b _ hb => ⟨b.handles, ?_⟩⟩
  rw [if_neg fun hi => absurd (h.enqueued s item hi).1 nofun]
  exact (h.subscriptions s nofun).trans hb

/-- A receiver whose read has failed looks for the subscription, puts the failure into its queue,
and is over. -/
theorem Standing.step (h : Standing k source (.failure error) ts r.stream found done stage)
    (hr : m.receivers[k]? = some { r with stage })
    (hst : ReceiverStep m k { r with stage } a m₁ hs)
    (ht : t = ⟨m, .step (.receiver k) a, m₁, hs⟩) : ∃ found' stage',
      m₁.receivers[k]? = some { r with stage := stage' } ∧
      Standing k source (.failure error) (ts ++ [t]) r.stream found' (done ++ hs) stage' ∧
      (found = none ∨ found' = found) ∧ t.Confined k found' (.failure error) := by
  have hlast : t ∈ ts ++ [t] := List.mem_append_right _ List.mem_cons_self
  cases hst with
  | @locate _ rd _ rt key s hs hk hg =>
    cases hs
    obtain ⟨rfl, rfl⟩ := h.routing
    have hlook : t.LooksUp k key (some s) := by
      rw [ht]
      refine ⟨rfl, ?_, hg⟩
      rw [hr]
      obtain ⟨rfl, rfl⟩ | ⟨rfl, rfl⟩ := hk <;> rfl
    have hc : t.Confined k (some s) (.failure error) := .of_locate ht
    have hr₁ := setReceiver_get (m := m.modifySubscription s
      fun b => { b with handles := b.handles + 1 }) hr
      (.routing source rd (.failure error) (.handing s))
    obtain ⟨rfl, rfl⟩ | ⟨rfl, rfl⟩ := hk
    · cases h
      exact ⟨_, _, hr₁, .handing (.inl ⟨t, hlast, hlook⟩), .inl rfl, hc⟩
    · cases h with
      | widening hn =>
        obtain ⟨u, hu, hn⟩ := hn
        exact ⟨_, _, hr₁, .handing (.inr ⟨⟨u, List.mem_append_left _ hu, hn⟩, t, hlast, hlook⟩),
          .inl rfl, hc⟩
  | widen hs hg =>
    cases hs
    cases h
    have hlook : t.LooksUp k source none := by
      rw [ht]
      refine ⟨rfl, ?_, hg⟩
      rw [hr]
      rfl
    exact ⟨none, _, setReceiver_get hr _, .widening ⟨t, hlast, hlook⟩, .inl rfl,
      .of_own (by rw [ht]) (by rw [ht]; exact fun _ _ => List.not_mem_nil)⟩
  | miss hs hk =>
    cases hs
    obtain ⟨rfl, rfl⟩ := h.routing
    have hr₁ := setReceiver_get (m := { m with established := m.established - 1 }) hr .ended
    have hc : t.Confined k none (.failure error) := by
      refine .of_own (n := m.established - 1) (by rw [ht]; rfl) ?_
      rw [ht]
      exact fun s i hs => absurd (List.mem_singleton.mp hs) nofun
    obtain ⟨rfl, -⟩ | ⟨rfl, -⟩ := hk
    all_goals
      cases h
      exact ⟨none, _, hr₁, .ended nofun, .inl rfl, hc⟩
  | @hand _ _ _ s hs =>
    cases hs
    obtain ⟨rfl, rfl⟩ := h.routing
    cases h with
    | handing hl =>
      have hr₁ := setReceiver_get (m := { (m.modifySubscription s
        (·.push (.failure error))).dropHandle s with established := m.established - 1 }) hr .ended
      refine ⟨some s, _, hr₁, .ended fun i hi => ?_, .inr rfl, .of_hand ht⟩
      cases hi
      exact hl.append
  -- All other steps are taken at stages where no read has failed.
  | halt hs =>
    obtain hs | ⟨_, _, hs⟩ := hs
    all_goals
      cases hs
      cases h
  | start hs | reject hs | disagree hs | establish hs | vanish hs | expectGreeting hs | expire hs
  | breakGreeting hs | readGreeting hs | leave hs | fail hs | take hs | finish hs | expectFrame hs
  | breakFrame hs | readFrame hs =>
    cases hs
    cases h

theorem Aftermath.move (h : Aftermath k source error r m ts) (hm : m.move mv = some (m', hs))
    (ht : Tidy m) : Aftermath k source error r m' (ts ++ [⟨m, mv, m', hs⟩]) := by
  obtain ⟨found, stage, hr, hst, hc⟩ := h
  obtain ⟨a, -, -, rfl, -⟩ | ⟨hne, hr'⟩ := move_receiver hm hr
  · obtain ⟨r₀, hr₀, hstep⟩ := move_own hm ht
    cases hr.symm.trans hr₀
    obtain ⟨found', stage', hr', hst', hfound, hc'⟩ := hst.step hr hstep rfl
    refine ⟨found', stage', hr', ?_, fun u hu htask => ?_⟩
    · rw [List.flatMap_append, List.flatMap_singleton, Transition.doneBy_of_step rfl]
      exact hst'
    · obtain hu | hu := List.mem_append.mp hu
      -- Until a subscription is found, no subscription has been touched.
      · obtain rfl | rfl := hfound
        · exact (hc u hu htask).widen
        · exact hc u hu htask
      · cases List.mem_singleton.mp hu
        exact hc'
  · have htask : mv.task? ≠ some (.receiver k) := fun h => by
      obtain ⟨a, ha⟩ := Move.eq_step_of_task? h
      exact hne a ha
    refine ⟨found, stage, hr', ?_, fun u hu h => ?_⟩
    · rw [List.flatMap_append, List.flatMap_singleton, Transition.doneBy_of_ne htask,
        List.append_nil]
      exact hst.append
    · obtain hu | hu := List.mem_append.mp hu
      · exact hc u hu h
      · cases List.mem_singleton.mp hu
        exact absurd h htask

theorem run_aftermath {m₀ : Manager} {moves : List Move} {before after : List Transition}
    {e : IoError} (h : m₀.run moves = some (m, hs)) (ht : Tidy m₀)
    (hts : m₀.transitions moves = before ++ t :: after) (hf : t.FailsReading k source e) :
    ∃ r, t.before.receivers[k]? = some r ∧
      Aftermath k source (.connection source e) r m after := by
  obtain ⟨moves₁, moves₂, hs₁, hs₂, hr₁, -, hmv, hr₂, rfl⟩ := run_split h hts
  have ht₁ : Tidy t.before := run_invariant (fun _ _ _ _ => .move) ht hr₁
  obtain ⟨-, r, rd, hr, hafter⟩ := hf.effect hmv ht₁
  have hr' : t.after.receivers[k]? = some { r with
      stage := .routing source rd (.failure (.connection source e)) .exact } := by
    rw [hafter]
    exact setReceiver_get hr _
  have hstart : Aftermath k source (.connection source e) r t.after [] :=
    ⟨none, _, hr', .seeking, fun _ hu => absurd hu List.not_mem_nil⟩
  have hend := run_induction
    (P := fun m ts => Tidy m ∧ Aftermath k source (.connection source e) r m ts)
    ⟨ht₁.move hmv, hstart⟩ (fun _ _ _ _ _ ⟨ht, hi⟩ hm => ⟨ht.move hm, hi.move hm ht⟩) hr₂
  exact ⟨r, hr, hend.2⟩

def concluded (m : Manager) (k : Nat) (found : Option SubscriptionId) (item : Item) : Manager :=
  { m with
    receivers := m.receivers.modify k fun r => { r with stage := .ended }
    established := m.established - 1
    subscriptions := found.elim m.subscriptions fun s => m.subscriptions.modify s (·.push item) }

theorem move_routing (ht : Tidy m) (hr : m.receivers[k]? = some r)
    (hs' : r.stage = .routing source rd item rt) :
    m.move (.step (.receiver k) .none) = some (m.routingStep k r source rd item rt) := by
  rw [move_receiver_eq ht]
  simp [receiverStep, hr, hs']

theorem modify_stages {rs : List Receiver} {stage' : ReceiverStage} :
    (rs.modify k fun r => { r with stage }).modify k (fun r => { r with stage := stage' }) =
      rs.modify k fun r => { r with stage := stage' } := List.modify_modify_eq ..

/-- The handle that a receiver has on a queue while it puts an item there is gone in the end. -/
theorem concluded_of_handing (hs : List Happening) : (((((m.modifySubscription s fun b =>
      { b with handles := b.handles + 1 }).setReceiver k stage).modifySubscription s
      (·.push item)).dropHandle s).endEstablished k r hs).1 = m.concluded k (some s) item := by
  have hsubscriptions : ((m.subscriptions.modify s fun b =>
      { b with handles := b.handles + 1 }).modify s (·.push item)).modify s
        (fun b => { b with handles := b.handles - 1 }) = m.subscriptions.modify s (·.push item) := by
    rw [List.modify_modify_eq, List.modify_modify_eq]
    refine congrArg (m.subscriptions.modify s) (funext fun b => ?_)
    simp only [Function.comp_apply, Subscription.push]
    split <;> rfl
  exact congr (congrArg (fun rs ss => ({ m with
    receivers := rs, established := m.established - 1, subscriptions := ss } : Manager))
    modify_stages)
    hsubscriptions

theorem run_found (ht : Tidy m) (hr : m.receivers[k]? = some r)
    (hs' : r.stage = .routing source rd (.failure error) rt)
    (hf : m.routingStep k r source rd (.failure error) rt =
      ((m.modifySubscription s fun b => { b with handles := b.handles + 1 }).setReceiver k
        (.routing source rd (.failure error) (.handing s)), [])) :
    m.run (List.replicate 2 (.step (.receiver k) .none)) =
      some (m.concluded k (some s) (.failure error),
        [.enqueued s (.failure error), .released r.stream]) := by
  have hm := move_routing ht hr hs'
  rw [hf] at hm
  have hm' := move_routing (ht.move hm) (setReceiver_get (m := m.modifySubscription s
    fun b => { b with handles := b.handles + 1 }) hr _) rfl
  rw [← concluded_of_handing (r := r) [.enqueued s (.failure error)]]
  exact run_cons.mpr ⟨_, [], _, hm, run_cons.mpr ⟨_, _, [], hm', rfl, rfl⟩, rfl⟩

theorem run_missed (ht : Tidy m) (hr : m.receivers[k]? = some r)
    (hs' : r.stage = .routing source rd (.failure error) rt)
    (hf : m.routingStep k r source rd (.failure error) rt = m.endEstablished k r []) :
    m.run (List.replicate 1 (.step (.receiver k) .none)) =
      some (m.concluded k none (.failure error), [.released r.stream]) := by
  have hm := move_routing ht hr hs'
  rw [hf] at hm
  exact run_cons.mpr ⟨_, _, [], hm, rfl, rfl⟩

/-- A receiver whose read has failed comes to its end by steps of its own, and leaves an item for the
subscription for the source. -/
theorem run_failed (ht : Tidy m) (hr : m.receivers[k]? = some r)
    (hs' : r.stage = .routing source rd (.failure error) .exact) : ∃ n ≤ 3,
      m.run (List.replicate n (.step (.receiver k) .none)) =
        some (m.concluded k (m.routes.target source) (.failure error),
          (m.routes.target source).toList.map (.enqueued · (.failure error)) ++
            [.released r.stream]) := by
  cases hg : m.observers.get? source with
  | some s =>
    have ht' : m.routes.target source = some s := by simp [Routes.target, routes, hg]
    rw [ht']
    exact ⟨2, by decide, run_found ht hr hs' (by simp only [routingStep, findQueue, hg]; rfl)⟩
  | none =>
    cases hw : source.isWildcard with
    | true =>
      have ht' : m.routes.target source = none := by
        simp [Routes.target, routes, hg, toWildcard_of_isWildcard hw]
      rw [ht']
      refine ⟨1, by decide, run_missed ht hr hs' ?_⟩
      simp only [routingStep, findQueue, hg, Option.map_none, hw, if_true]
      rfl
    | false =>
      have hm := move_routing ht hr hs'
      simp only [routingStep, findQueue, hg, Option.map_none, hw, Bool.false_eq_true,
        if_false] at hm
      have hc : ∀ found item, (m.setReceiver k (.routing source rd (.failure error)
          .wildcard)).concluded k found item = m.concluded k found item := fun found item =>
        congrArg (fun rs => { m.concluded k found item with receivers := rs }) modify_stages
      cases hg' : m.observers.get? source.toWildcard with
      | some s =>
        have ht' : m.routes.target source = some s := by simp [Routes.target, routes, hg, hg']
        rw [ht', ← hc]
        refine ⟨3, by decide, run_cons.mpr ⟨_, [], _, hm, run_found (ht.move hm)
          (setReceiver_get hr _) rfl ?_, rfl⟩⟩
        simp only [routingStep, findQueue, setReceiver, hg']
        rfl
      | none =>
        have ht' : m.routes.target source = none := by simp [Routes.target, routes, hg, hg']
        rw [ht', ← hc]
        refine ⟨2, by decide, run_cons.mpr ⟨_, [], _, hm, run_missed (ht.move hm)
          (setReceiver_get hr _) rfl ?_, rfl⟩⟩
        simp only [routingStep, findQueue, setReceiver, hg']
        rfl

instance (stage : ReceiverStage) : Decidable stage.Live :=
  match stage with
  | .receiving _ _ | .routing _ _ _ _ => isTrue trivial
  | .opening | .greeting _ _ | .ended => isFalse id

/-- The receivers past their greeting are as many as the connections that are counted. -/
def Tallied (m : Manager) : Prop := m.established = m.receivers.countP (·.stage.Live)

theorem Tallied.new (address : Endpoint) (config : Config) (clock : Nat) :
    Tallied (new address config clock) := rfl

theorem Tallied.setReceiver {n : Nat} (h : Tallied m) (hr : m.receivers[k]? = some r)
    (hn : n + (if r.stage.Live then 1 else 0) = m.established + if stage.Live then 1 else 0) :
    Tallied (setReceiver { m with established := n } k stage) := by
  have hc := countP_modify (p := fun r : Receiver => decide r.stage.Live)
    (f := fun r => { r with stage }) hr
  simp only [decide_eq_true_eq] at hc
  simp only [Tallied, Manager.setReceiver] at h ⊢
  omega

theorem Tallied.pos (h : Tallied m) (hr : m.receivers[k]? = some r) (hl : r.stage.Live) :
    0 < m.established := by
  rw [h]
  exact List.countP_pos_iff.mpr ⟨r, List.mem_of_getElem? hr, decide_eq_true hl⟩

theorem Tallied.afterRouting (h : Tallied m) (hr : m.receivers[k]? = some r) (hl : r.stage.Live) :
    Tallied (m.afterRouting k r source rd item hs).1 := by
  have hpos := h.pos hr hl
  cases item with
  | frame body => exact h.setReceiver hr (by rw [if_pos hl]; rfl)
  | failure error => exact h.setReceiver hr (by rw [if_pos hl]; exact Nat.sub_add_cancel hpos)

theorem Tallied.receiver (h : Tallied m) (hr : m.receivers[k]? = some r)
    (hst : ReceiverStep m k r a m₁ hs) : Tallied m₁ := by
  cases hst with
  | halt hs =>
    obtain hs | ⟨t, rd, hs⟩ := hs
    all_goals exact h.setReceiver (n := m.established) hr (by rw [hs]; rfl)
  | start hs | reject hs | disagree hs | vanish hs | expectGreeting hs | expire hs
  | breakGreeting hs | readGreeting hs | fail hs | take hs | expectFrame hs | breakFrame hs
  | readFrame hs | widen hs => exact h.setReceiver (n := m.established) hr (by rw [hs]; rfl)
  | establish hs => exact h.setReceiver hr (by rw [hs]; rfl)
  | leave hs | finish hs =>
    have hpos := h.pos hr (by rw [hs]; trivial)
    exact h.setReceiver hr (by rw [hs]; exact Nat.sub_add_cancel hpos)
  | @locate _ _ _ _ _ s hs =>
    exact Tallied.setReceiver (m := m.modifySubscription s fun b =>
      { b with handles := b.handles + 1 }) (n := m.established) h hr (by rw [hs]; rfl)
  | miss hs => exact h.afterRouting hr (by rw [hs]; trivial)
  | @hand _ _ item s hs =>
    exact Tallied.afterRouting (m := (m.modifySubscription s (·.push item)).dropHandle s) h hr
      (by rw [hs]; trivial)

theorem Tallied.move (h : Tallied m) (hm : m.move mv = some (m', hs)) : Tallied m' := by
  by_cases hne : ∃ i a, mv = .step (.receiver i) a
  · obtain ⟨i, a, rfl⟩ := hne
    obtain ⟨⟨m₁, hs₁⟩, ho, hr⟩ := move_step hm
    obtain ⟨r, hg, hst⟩ := receiverStep_cases ho
    rw [reap_scope hr]
    exact (h.receiver hg hst :)
  · suffices hc : m'.receivers.countP (·.stage.Live) = m.receivers.countP (·.stage.Live) from
      ((accepting_of_move hm).2.1.resolve_left hne).trans (h.trans hc.symm)
    obtain hk | ⟨stream, peer, hk⟩ | ⟨i, a, stage, rfl, hk⟩ := move_receivers hm
    · rw [hk]
    · rw [hk, List.countP_append]
      rfl
    · exact absurd ⟨i, a, rfl⟩ hne

theorem run_tallied {address : Endpoint} {config : Config} {clock : Nat} {moves : List Move}
    (h : (new address config clock).run moves = some (m, hs)) : Tallied m :=
  run_invariant (fun _ _ _ _ => .move) (.new address config clock) h

end PeerLink.Manager
