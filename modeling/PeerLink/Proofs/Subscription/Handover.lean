import PeerLink.Proofs.Subscription.Refinement

namespace PeerLink.Manager

def RegistrationStage.Succeeded : RegistrationStage → Prop
  | .finished (.ok _) => True
  | _ => False

instance (stage : RegistrationStage) : Decidable stage.Succeeded :=
  match stage with
  | .finished (.ok _) => isTrue trivial
  | .finished (.error _) | .checking | .inserting => isFalse id
  | .confirming _ | .undoing _ | .spawning _ => isFalse id

/-- A caller registers an observer for an endpoint that has none, and unregisters the host of the
endpoint once the registration has succeeded. Nobody else has anything to do with the two. -/
structure HandsOver (m₀ : Manager) (source : Endpoint) (call : Nat) (ts : List Transition) :
    Prop where
  exact : source.isWildcard = false
  vacant : m₀.observers.get? source = none
  fresh : m₀.registrations[call]? = none
  alone : ∀ id e s, .entered id e (.ok s) ∈ dealings ts → e = source ∨ e = source.toWildcard →
    id = call ∧ e = source
  stays : ∀ t ∈ ts, t.move ≠ .unregister source
  waits : ∀ t ∈ ts, t.move = .unregister source.toWildcard →
    ∃ r ∈ t.before.registrations[call]?, r.remote = source ∧ r.stage.Succeeded

def Idle (id : Nat) (ts : List Transition) : Prop :=
  ∀ t ∈ ts, ∀ a, t.move ≠ .step (.receiver id) a

/-- A receiver that has not found a subscription for exactly the source of its item, and has yet to
look for one for the host, has not taken a step since before a move. -/
def Hesitates (id : Nat) (source : Endpoint) (item : Item) (m : Manager) (t : Transition)
    (ts : List Transition) : Prop :=
  ∃ r rd, m.receivers[id]? = some r ∧ r.stage = .routing source rd item .wildcard ∧
    t.before.receivers[id]? = some r ∧ Idle id (t :: ts)

inductive Overtaken (id call : Nat) (source : Endpoint) (item : Item) (m : Manager) :
    List Transition → Prop
  | intro {ts₁ t ts₂ u ts₃ s} (ht : t.dealing? = some (.entered call source (.ok s)))
    (hu : u.move = .unregister source.toWildcard)
    (hw : Hesitates id source item m t (ts₂ ++ u :: ts₃)) :
    Overtaken id call source item m (ts₁ ++ t :: (ts₂ ++ u :: ts₃))

/-- Every receiver that has yet to look for the host of a source hesitates since before a move. -/
def Hesitating (source : Endpoint) (m : Manager) (t : Transition) (ts : List Transition) : Prop :=
  ∀ (id : Nat) r rd item, m.receivers[id]? = some r →
    r.stage = .routing source rd item .wildcard → Hesitates id source item m t ts

inductive Progress (source : Endpoint) (call : Nat) (s₀ : SubscriptionId) (m : Manager) :
    List Transition → Prop
  | begun {ts} (hs : m.observers.get? source = none)
    (hh : m.observers.get? source.toWildcard = some s₀)
    (hc : ∀ s, .entered call source (.ok s) ∉ dealings ts)
    (hu : ∀ u ∈ ts, u.move ≠ .unregister source.toWildcard) : Progress source call s₀ m ts
  | registered {ts₁ t ts₂ s} (ht : t.dealing? = some (.entered call source (.ok s)))
    (hs : m.observers.get? source = some s) (hh : m.observers.get? source.toWildcard = some s₀)
    (hu : ∀ u ∈ ts₁ ++ t :: ts₂, u.move ≠ .unregister source.toWildcard)
    (hw : Hesitating source m t ts₂) : Progress source call s₀ m (ts₁ ++ t :: ts₂)
  | done {ts₁ t ts₂ u ts₃ s} (ht : t.dealing? = some (.entered call source (.ok s)))
    (hs : m.observers.get? source = some s) (hh : m.observers.get? source.toWildcard = none)
    (hu : u.move = .unregister source.toWildcard)
    (hw : Hesitating source m t (ts₂ ++ u :: ts₃)) :
    Progress source call s₀ m (ts₁ ++ t :: (ts₂ ++ u :: ts₃))

inductive EntryMove (k : Endpoint) (mv : Move) (d : Option Dealing) :
    Option SubscriptionId → Option SubscriptionId → Prop
  | keep {o} (hn : mv ≠ .unregister k) (hd : ∀ id s, d ≠ some (.entered id k (.ok s))) :
    EntryMove k mv d o o
  | enter {id s} (hm : mv = .step (.registration id) .none)
    (hd : d = some (.entered id k (.ok s))) : EntryMove k mv d none (some s)
  | leave {o} (hm : mv = .unregister k) : EntryMove k mv d o none

variable {m m' m₀ m₁ : Manager} {mv : Move} {hs hs₀ hs₁ : List Happening} {id call : Nat}
  {a : Answer} {ts ts₀ ts₁ ts₂ : List Transition} {t u : Transition} {s s₀ : SubscriptionId}
  {source k : Endpoint} {item : Item} {r r₁ : Receiver}

theorem RegistrationStage.Succeeded.told {stage : RegistrationStage} {closed : Bool}
    {told : List (Endpoint × Except RemoteError SubscriptionId)} (h : stage.Succeeded)
    (hi : stage.Informed closed k told) : ∃ s, told = [(k, .ok s)] := by
  cases stage with
  | finished result =>
    cases result with
    | ok => exact hi
    | error => cases h
  | _ => cases h

theorem HandsOver.before (h : HandsOver m₀ source call (ts₁ ++ ts₂)) :
    HandsOver m₀ source call ts₁ where
  exact := h.exact
  vacant := h.vacant
  fresh := h.fresh
  alone id e s hd := h.alone id e s (by rw [dealings_append]; exact List.mem_append_left _ hd)
  stays t ht := h.stays t (List.mem_append_left _ ht)
  waits t ht := h.waits t (List.mem_append_left _ ht)

theorem move_entry (hm : m.move mv = some (m', hs)) (hsv : Served m) (ho : m.closed = false)
    (k : Endpoint) : EntryMove k mv (Transition.mk m mv m' hs).dealing? (m.observers.get? k)
      (m'.observers.get? k) := by
  by_cases hu : mv = .unregister k
  · subst hu
    obtain ⟨-, hroutes, -⟩ := move_of_unregister hm
    have hk : m'.observers.get? k = none := (congrFun hroutes k).trans (Function.update_self ..)
    rw [hk]
    exact .leave rfl
  · have hdeal := move_deals hm
    have hroutes : m'.observers.get? k = _ :=
      congrFun (hdeal.routes hsv.prepared hsv.flagged ho) k
    generalize (Transition.mk m mv m' hs).dealing? = d at hdeal hroutes
    cases hdeal with
    | @enter id r _ hr hs hn =>
      by_cases hk : k = r.remote
      · subst hk
        rw [hn, hroutes.trans (Function.update_self ..)]
        exact .enter rfl rfl
      · rw [hroutes.trans (Function.update_of_ne hk ..)]
        refine .keep hu fun j s he => ?_
        cases he
        exact hk rfl
    | @remove e =>
      have hk : k ≠ e := fun h => hu (h ▸ rfl)
      rw [hroutes.trans (Function.update_of_ne hk ..)]
      exact .keep hu nofun
    | _ =>
      rw [hroutes]
      exact .keep hu nofun

/-- Where there is a subscription for exactly the source, only a receiver that has looked before
goes on to look for one for the host. -/
theorem move_widened {rd : Reading} (hm : m.move mv = some (m', hs))
    (hs' : m'.observers.get? source = some s) (hr₁ : m'.receivers[id]? = some r₁)
    (hst : r₁.stage = .routing source rd item .wildcard) :
    m.receivers[id]? = some r₁ ∧ ∀ a, mv ≠ .step (.receiver id) a := by
  cases hr : m.receivers[id]? with
  | none => cases (move_newReceiver hm hr hr₁).symm.trans hst
  | some r =>
    obtain ⟨a, m₁, hs₁, -, hstep, hreap⟩ | ⟨hne, hr'⟩ := move_receiver hm hr
    · have hsc := reap_scope hreap
      rw [hsc] at hr₁ hs'
      cases (hstep.widened hr hr₁ hst).symm.trans hs'
    · exact ⟨hr'.symm.trans hr₁ ▸ rfl, hne⟩

theorem forall_mem_concat {p : Transition → Prop} (h : ∀ u ∈ ts, p u) (ht : p t) :
    ∀ u ∈ ts ++ [t], p u :=
  List.forall_mem_append.mpr ⟨h, List.forall_mem_singleton.mpr ht⟩

theorem Idle.concat (h : Idle id ts) (ht : ∀ a, t.move ≠ .step (.receiver id) a) :
    Idle id (ts ++ [t]) :=
  forall_mem_concat h ht

theorem Hesitating.start (hm : m.move mv = some (m', hs))
    (hs' : m'.observers.get? source = some s) :
    Hesitating source m' ⟨m, mv, m', hs⟩ [] := by
  intro id r rd item hr hst
  obtain ⟨hr₀, hne⟩ := move_widened hm hs' hr hst
  exact ⟨r, rd, hr, hst, hr₀, List.forall_mem_singleton.mpr hne⟩

theorem Hesitating.move (h : Hesitating source m t ts) (hm : m.move mv = some (m', hs))
    (hs' : m'.observers.get? source = some s) :
    Hesitating source m' t (ts ++ [⟨m, mv, m', hs⟩]) := by
  intro id r rd item hr hst
  obtain ⟨hr₀, hne⟩ := move_widened hm hs' hr hst
  obtain ⟨r', rd', hr', -, hbefore, hidle⟩ := h id r rd item hr₀ hst
  cases hr₀.symm.trans hr'
  exact ⟨r, rd, hr, hst, hbefore, hidle.concat hne⟩

theorem HandsOver.source_move (hh : HandsOver m₀ source call (ts ++ [⟨m, mv, m', hs⟩]))
    (hm : m.move mv = some (m', hs)) (hsv : Served m) (ho : m.closed = false) :
    m'.observers.get? source = m.observers.get? source ∧
        (∀ s, (Transition.mk m mv m' hs).dealing? ≠ some (.entered call source (.ok s))) ∨
      ∃ s, (Transition.mk m mv m' hs).dealing? = some (.entered call source (.ok s)) ∧
        m.observers.get? source = none ∧ m'.observers.get? source = some s := by
  have hentry := move_entry hm hsv ho source
  generalize m.observers.get? source = o, m'.observers.get? source = o' at hentry ⊢
  cases hentry with
  | keep _ hd => exact .inl ⟨rfl, hd call⟩
  | @enter id s _ hd =>
    obtain ⟨rfl, -⟩ := hh.alone id source s (mem_dealings List.mem_concat_self hd) (.inl rfl)
    exact .inr ⟨s, hd, rfl, rfl⟩
  | leave hl => exact absurd hl (hh.stays _ List.mem_concat_self)

theorem HandsOver.host_move (hh : HandsOver m₀ source call (ts ++ [⟨m, mv, m', hs⟩]))
    (hm : m.move mv = some (m', hs)) (hsv : Served m) (ho : m.closed = false) :
    m'.observers.get? source.toWildcard = m.observers.get? source.toWildcard ∧
        mv ≠ .unregister source.toWildcard ∨
      mv = .unregister source.toWildcard ∧ m'.observers.get? source.toWildcard = none := by
  have hentry := move_entry hm hsv ho source.toWildcard
  generalize m.observers.get? source.toWildcard = o, m'.observers.get? source.toWildcard = o'
    at hentry ⊢
  cases hentry with
  | keep hn => exact .inl ⟨rfl, hn⟩
  | @enter id s _ hd =>
    have he := (hh.alone id _ s (mem_dealings List.mem_concat_self hd) (.inr rfl)).2
    have hwild : source.toWildcard.isWildcard = true := decide_eq_true rfl
    rw [he] at hwild
    cases hwild.symm.trans hh.exact
  | leave hl => exact .inr ⟨hl, rfl⟩

theorem Progress.move (h : Progress source call s₀ m ts) (hm : m.move mv = some (m', hs))
    (hsv : Served m) (ho : m.closed = false)
    (hi : ∀ r ∈ m.registrations[call]?, r.remote = source → r.stage.Succeeded →
      ∃ s, .entered call source (.ok s) ∈ dealings ts)
    (hh : HandsOver m₀ source call (ts ++ [⟨m, mv, m', hs⟩])) :
    Progress source call s₀ m' (ts ++ [⟨m, mv, m', hs⟩]) := by
  have hsource := hh.source_move hm hsv ho
  have hhost := hh.host_move hm hsv ho
  have hstays : ∀ {s}, m.observers.get? source = some s → m'.observers.get? source = some s := by
    intro s hs
    obtain ⟨hs', -⟩ | ⟨-, -, hn, -⟩ := hsource
    · exact hs'.trans hs
    · cases hs.symm.trans hn
  cases h with
  | begun hn hw hc hu =>
    obtain ⟨hw', hmv⟩ | ⟨hmv, -⟩ := hhost
    · have hu' := forall_mem_concat (t := ⟨m, mv, m', hs⟩) hu hmv
      obtain ⟨hn', hd⟩ | ⟨s, hd, -, hs'⟩ := hsource
      · refine .begun (hn'.trans hn) (hw'.trans hw) (fun s hmem => ?_) hu'
        exact (mem_dealings_concat hmem).elim (hc s) (hd s)
      · exact .registered hd hs' (hw'.trans hw) hu' (.start hm hs')
    · -- the registration has succeeded, and so the table has let it in before
      obtain ⟨r, hr, hrem, hfin⟩ := hh.waits _ List.mem_concat_self hmv
      obtain ⟨s, hmem⟩ := hi r hr hrem hfin
      exact absurd hmem (hc s)
  | @registered ts₁ t ts₂ s ht hk hw hu hhes =>
    have hs' := hstays hk
    obtain ⟨hw', hmv⟩ | ⟨hmv, hn⟩ := hhost
    · have hu' := forall_mem_concat (t := ⟨m, mv, m', hs⟩) hu hmv
      rw [List.append_assoc, List.cons_append] at hu' ⊢
      exact .registered ht hs' (hw'.trans hw) hu' (hhes.move hm hs')
    · rw [List.append_assoc, List.cons_append]
      exact .done ht hs' hn hmv (hhes.move hm hs')
  | @done ts₁ t ts₂ u ts₃ s ht hk hn hu hhes =>
    have hs' := hstays hk
    have hn' : m'.observers.get? source.toWildcard = none :=
      hhost.elim (fun hkeep => hkeep.1.trans hn) And.right
    have hhes' := hhes.move hm hs'
    rw [List.append_assoc, List.cons_append] at hhes' ⊢
    rw [List.append_assoc, List.cons_append]
    exact .done ht hs' hn' hu hhes'

theorem Progress.entered (h : Progress source call s₀ m ts)
    (hs : m.observers.get? source = some s) : .entered call source (.ok s) ∈ dealings ts := by
  cases h with
  | begun hn => cases hn.symm.trans hs
  | registered ht hs' | done ht hs' =>
    cases hs'.symm.trans hs
    exact mem_dealings (List.mem_append_right _ List.mem_cons_self) ht

theorem Progress.remains (h : Progress source call s₀ m ts)
    (hs : m.observers.get? source.toWildcard = some s) :
    s = s₀ ∧ ∀ u ∈ ts, u.move ≠ .unregister source.toWildcard := by
  cases h with
  | begun _ hh _ hu | registered _ _ hh hu =>
    cases hh.symm.trans hs
    exact ⟨rfl, hu⟩
  | done _ _ hn => cases hn.symm.trans hs

theorem Progress.covered (h : Progress source call s₀ m ts)
    (hs : m.observers.get? source = none) : m.observers.get? source.toWildcard = some s₀ := by
  cases h with
  | begun _ hh => exact hh
  | registered _ hs' | done _ hs' => cases hs'.symm.trans hs

theorem Progress.overtakes {rd : Reading} (h : Progress source call s₀ m ts)
    (hs : m.observers.get? source.toWildcard = none) (hr : m.receivers[id]? = some r)
    (hst : r.stage = .routing source rd item .wildcard) :
    Overtaken id call source item m ts := by
  cases h with
  | begun _ hh | registered _ _ hh => cases hh.symm.trans hs
  | done ht _ _ hu hw => exact .intro ht hu (hw id r rd item hr hst)

theorem Overtaken.unregisters (h : Overtaken id call source item m ts) :
    ∃ u ∈ ts, u.move = .unregister source.toWildcard := by
  cases h with
  | @intro ts₁ t ts₂ u ts₃ s _ hu => exact ⟨u, by simp, hu⟩

theorem Overtaken.widened (h : Overtaken id call source item m ts) :
    ∃ r rd, m.receivers[id]? = some r ∧ r.stage = .routing source rd item .wildcard := by
  cases h with
  | intro _ _ hw =>
    obtain ⟨r, rd, hr, hst, -⟩ := hw
    exact ⟨r, rd, hr, hst⟩

structure Puts (id : Nat) (s : SubscriptionId) (item : Item) (t : Transition) : Prop where
  move : t.move = .step (.receiver id) .none
  happens : .enqueued s item ∈ t.happenings
  queue : t.after.subscriptions = t.before.subscriptions.modify s fun b =>
    { b with queue := b.queue ++ [item], handles := b.handles - 1 }

def PutNext (id : Nat) (s : SubscriptionId) (item : Item) (m : Manager) (ts : List Transition) :
    Prop :=
  (∃ ts₁ t ts₂, ts = ts₁ ++ t :: ts₂ ∧ Idle id ts₁ ∧ Puts id s item t) ∨
    Idle id ts ∧ ∃ m' hs, m.move (.step (.receiver id) .none) = some (m', hs) ∧
      Puts id s item ⟨m, .step (.receiver id) .none, m', hs⟩

theorem move_found (hm : m.move mv = some (m', hs))
    (hd : (Transition.mk m mv m' hs).dealing? = some (.routed id source item (some s))) :
    ∃ r rd, m'.receivers[id]? = some r ∧ r.stage = .routing source rd item (.handing s) := by
  have hdeal := move_deals hm
  rw [hd] at hdeal
  cases hdeal with
  | @find _ r _ rd _ _ _ _ _ hr hst hk hg =>
    obtain ⟨⟨m₁, hs₁⟩, ho, hreap⟩ := move_step hm
    rw [reap_scope hreap]
    obtain ⟨rfl, rfl⟩ | ⟨rfl, rfl⟩ := hk
    all_goals
      simp only [step, receiverStep, hr, hst, routingStep, findQueue, hg, Option.bind_eq_bind,
        Option.bind_some, Option.map_some] at ho
      cases ho
      exact ⟨_, rd, setReceiver_get (m := m.modifySubscription s _) hr _, rfl⟩

theorem move_handing {rd : Reading} (hm : m.move mv = some (m', hs)) (hsv : Served m)
    (ho : m.closed = false) (hr : m.receivers[id]? = some r)
    (hst : r.stage = .routing source rd item (.handing s)) :
    Puts id s item ⟨m, mv, m', hs⟩ ∨
      (∀ a, mv ≠ .step (.receiver id) a) ∧ m'.receivers[id]? = some r := by
  refine (move_receiver hm hr).imp_left ?_
  rintro ⟨a, m₁, hs₁, rfl, hstep, hreap⟩
  obtain ⟨streams, hhs⟩ := reap_happenings hreap
  cases hstep with
  | hand hs' =>
    cases hst.symm.trans hs'
    obtain ⟨-, released, -, -, -, -, hh⟩ := afterRouting_get
      (m := (m.modifySubscription s (·.push item)).dropHandle s) hr source rd item
      [.enqueued s item]
    have hi : .enqueued s item ∈ hs := by
      rw [hhs, hh]
      exact List.mem_append_left _ List.mem_cons_self
    exact ⟨rfl, hi, move_of_enqueued hm hsv ho hi⟩
  | locate hs' hk | miss hs' hk =>
    cases hst.symm.trans hs'
    obtain ⟨hk, -⟩ | ⟨hk, -⟩ := hk <;> cases hk
  | halt hs' =>
    obtain hs' | ⟨_, _, hs'⟩ := hs' <;> cases hst.symm.trans hs'
  | _ hs' => cases hst.symm.trans hs'

section Runs

variable {address : Endpoint} {config : Config} {clock : Nat} {moves₀ moves : List Move}
  {found : Option SubscriptionId}

theorem run_progress (h₀ : (new address config clock).run moves₀ = some (m₀, hs₀))
    (hw : m₀.observers.get? source.toWildcard = some s₀) (h : m₀.run moves = some (m, hs))
    (ho : m.closed = false) (hh : HandsOver m₀ source call (m₀.transitions moves)) :
    Progress source call s₀ m (m₀.transitions moves) := by
  obtain ⟨ts₀, hts₀⟩ : ∃ ts₀, (new address config clock).transitions moves₀ = ts₀ := ⟨_, rfl⟩
  have hi₀ : Informed m₀ ts₀ := hts₀ ▸ run_informed h₀
  refine (run_induction (P := fun m ts => Served m ∧ Informed m (ts₀ ++ ts) ∧
    (m.closed = false → HandsOver m₀ source call ts → Progress source call s₀ m ts)) ?_ ?_ h).2.2
      ho hh
  · refine ⟨(run_served h₀).1, by rwa [List.append_nil], fun _ hh => ?_⟩
    exact .begun hh.vacant hw (fun _ => List.not_mem_nil) (List.forall_mem_nil _)
  · rintro m ts mv m' hs ⟨hsv, hi, hp⟩ hm
    refine ⟨hsv.move hm, by rw [← List.append_assoc]; exact hi.move hsv.prepared hm,
      fun ho hh => ?_⟩
    have ho₀ := (move_later hm).opened ho
    refine (hp ho₀ hh.before).move hm hsv ho₀ (fun r hr hrem hfin => ?_) hh
    obtain ⟨s, hs⟩ := hfin.told (hi.present call r hr)
    rw [answersTo_append, hi₀.absent call hh.fresh, List.nil_append, hrem] at hs
    exact ⟨s, mem_answersTo.mp (by rw [hs]; exact List.mem_singleton_self _)⟩

theorem run_covered (h₀ : (new address config clock).run moves₀ = some (m₀, hs₀))
    (hw : m₀.observers.get? source.toWildcard = some s₀) (h : m₀.run moves = some (m, hs))
    (ho : m.closed = false) (hh : HandsOver m₀ source call (m₀.transitions moves)) :
    m.routes.target source ≠ none := by
  intro hn
  obtain ⟨hs, hhost⟩ := Option.or_eq_none_iff.mp hn
  cases hhost.symm.trans ((run_progress h₀ hw h ho hh).covered hs)

theorem run_puts {rd : Reading} (h : m₀.run moves = some (m, hs)) (hsv : Served m₀)
    (ho : m.closed = false) (hr : m₀.receivers[id]? = some r)
    (hst : r.stage = .routing source rd item (.handing s)) :
    PutNext id s item m (m₀.transitions moves) := by
  have hrun := run_induction (P := fun m ts => Served m ∧ (m.closed = false →
    (∃ ts₁ t ts₂, ts = ts₁ ++ t :: ts₂ ∧ Idle id ts₁ ∧ Puts id s item t) ∨
      Idle id ts ∧ m.receivers[id]? = some r)) ⟨hsv, fun _ => .inr ⟨List.forall_mem_nil _, hr⟩⟩
    ?_ h
  · obtain ⟨hsv', hrun⟩ := hrun
    refine (hrun ho).imp_right fun ⟨hidle, hr⟩ => ⟨hidle, ?_⟩
    obtain ⟨⟨m', hs'⟩, hp⟩ : ∃ p, reap (m.routingStep id r source rd item (.handing s)) = p :=
      ⟨_, rfl⟩
    have hm : m.move (.step (.receiver id) .none) = some (m', hs') := by
      simp [Manager.move, step, receiverStep, hr, hst, hp]
    exact ⟨m', hs', hm, (move_handing hm hsv' ho hr hst).resolve_right fun hn =>
      absurd rfl (hn.1 .none)⟩
  · rintro m ts mv m' hs ⟨hsv, hi⟩ hm
    refine ⟨hsv.move hm, fun ho => ?_⟩
    have ho₀ := (move_later hm).opened ho
    obtain ⟨ts₁, t, ts₂, rfl, hidle, hputs⟩ | ⟨hidle, hr⟩ := hi ho₀
    · exact .inl ⟨ts₁, t, ts₂ ++ [⟨m, mv, m', hs⟩], by simp, hidle, hputs⟩
    · obtain hputs | ⟨hne, hr'⟩ := move_handing hm hsv ho₀ hr hst
      · exact .inl ⟨ts, _, [], rfl, hidle, hputs⟩
      · exact .inr ⟨hidle.concat hne, hr'⟩

theorem handed_over_unless_overtaken
    (h₀ : (new address config clock).run moves₀ = some (m₀, hs₀))
    (hw : m₀.observers.get? source.toWildcard = some s₀) (h : m₀.run moves = some (m, hs))
    (ho : m.closed = false) (hh : HandsOver m₀ source call (m₀.transitions moves))
    (hts : m₀.transitions moves = ts₁ ++ t :: ts₂)
    (hd : t.dealing? = some (.routed id source item found)) :
    (found = none ↔ Overtaken id call source item t.before ts₁) ∧
      ∀ s ∈ found, (s = s₀ ∨ .entered call source (.ok s) ∈ dealings ts₁) ∧
        PutNext id s item m ts₂ := by
  obtain ⟨moves₁, moves₂, hs₁, hs₂, hr₁, rfl, hm, hr₂, rfl⟩ := run_split h hts
  obtain ⟨m₁, mv, m₂, hsₜ⟩ := t
  have ho₁ : m₁.closed = false := ((move_later hm).trans (run_later hr₂)).opened ho
  have hp := run_progress h₀ hw hr₁ ho₁ (hts ▸ hh).before
  have hsv : Served m₁ := run_invariant (I := Served) (fun _ _ _ _ hi hm => hi.move hm)
    (run_served h₀).1 hr₁
  have hdeal := move_deals hm
  rw [hd] at hdeal
  cases hdeal with
  | @find _ r _ _ _ _ _ s _ hr hst hk hg =>
    obtain ⟨r', rd', hr', hst'⟩ := move_found hm hd
    have hputs := run_puts hr₂ (hsv.move hm) ho hr' hst'
    refine ⟨⟨nofun, fun hov => ?_⟩, fun s' hs' => ?_⟩
    · obtain ⟨rfl, rfl⟩ | ⟨rfl, rfl⟩ := hk
      · obtain ⟨q, rd, hq, hwide⟩ := hov.widened
        cases hr.symm.trans hq
        cases hst.symm.trans hwide
      · obtain ⟨u, hu, hleft⟩ := hov.unregisters
        exact absurd hleft ((hp.remains hg).2 u hu)
    · cases hs'
      refine ⟨?_, hputs⟩
      obtain ⟨-, rfl⟩ | ⟨-, rfl⟩ := hk
      · exact .inr (hp.entered hg)
      · exact .inl (hp.remains hg).1
  | @miss _ r _ _ _ _ _ hr hst hk =>
    obtain ⟨rfl, -, hwild⟩ | ⟨rfl, hn⟩ := hk
    · cases hwild.symm.trans hh.exact
    · exact ⟨⟨fun _ => hp.overtakes hn hr hst, fun _ => rfl⟩, nofun⟩

end Runs

/-- An observer for a host, and two receivers that have each read a frame from an endpoint of the
host. -/
def twoFrames (b : Endpoint) : List Move :=
  let work (task : Task) (n : Nat) := List.replicate n (Move.step task .none)
  let arrive (n : Nat) (bytes : Bytes) :=
    .step .acceptor (.incoming n ⟨"p", 9⟩) :: work (.receiver n) 1 ++
      .step (.receiver n) (.chunk (Frame.encode (Hello.format.write (.of b)) ++ bytes)) ::
        work (.receiver n) 2
  .register b.toWildcard 0 :: work (.registration 0) 4 ++ arrive 0 [0, 0, 0, 1, 5] ++
    arrive 1 [0, 0, 0, 1, 6]

/-- The endpoint gets an observer of its own between the two looks of the first receiver, and the
host loses its one. -/
def betweenLooks (b : Endpoint) : List Move :=
  let work (task : Task) (n : Nat) := List.replicate n (Move.step task .none)
  work (.receiver 0) 1 ++ .register b 1 :: work (.registration 1) 4 ++ work (.receiver 1) 2 ++
    .unregister b.toWildcard :: work (.receiver 0) 1

theorem run_betweenLooks :
    let b : Endpoint := ⟨"b", 1⟩
    ∃ m₀ hs₀ m hs, (new ⟨"a", 2⟩ {} 0).run (twoFrames b) = some (m₀, hs₀) ∧
      m₀.observers.get? b.toWildcard = some 0 ∧ m₀.run (betweenLooks b) = some (m, hs) ∧
      dealings (m₀.transitions (betweenLooks b)) =
        [.entered 1 b (.ok 1), .routed 1 b (.frame [6]) (some 1),
          .unregistered b.toWildcard true, .routed 0 b (.frame [5]) none] := by
  intro b
  obtain ⟨⟨m₀, hs₀⟩, h₀⟩ : ∃ o, (new ⟨"a", 2⟩ {} 0).run (twoFrames b) = some o :=
    Option.isSome_iff_exists.mp (by decide +kernel)
  have hrun : ((new ⟨"a", 2⟩ {} 0).run (twoFrames b)).all (fun o =>
      o.1.observers.get? b.toWildcard = some 0 ∧ (o.1.run (betweenLooks b)).isSome ∧
        dealings (o.1.transitions (betweenLooks b)) =
          [.entered 1 b (.ok 1), .routed 1 b (.frame [6]) (some 1),
            .unregistered b.toWildcard true, .routed 0 b (.frame [5]) none]) = true := by
    decide +kernel
  rw [h₀, Option.all_some, decide_eq_true_eq] at hrun
  obtain ⟨hhost, hsome, hdeals⟩ := hrun
  obtain ⟨⟨m, hs⟩, h⟩ := Option.isSome_iff_exists.mp hsome
  exact ⟨m₀, hs₀, m, hs, h₀, hhost, h, hdeals⟩

/-- A frame is dropped, although there is somebody for it all along. -/
theorem dropped_between_looks :
    let b : Endpoint := ⟨"b", 1⟩
    ∃ m₀ hs₀ m hs, (new ⟨"a", 2⟩ {} 0).run (twoFrames b) = some (m₀, hs₀) ∧
      m₀.observers.get? b.toWildcard = some 0 ∧ m₀.run (betweenLooks b) = some (m, hs) ∧
      (∀ t ∈ m₀.transitions (betweenLooks b), t.after.routes.target b ≠ none) ∧
      dealings (m₀.transitions (betweenLooks b)) =
        [.entered 1 b (.ok 1), .routed 1 b (.frame [6]) (some 1),
          .unregistered b.toWildcard true, .routed 0 b (.frame [5]) none] := by
  intro b
  obtain ⟨m₀, hs₀, m, hs, h₀, hhost, h, hdeals⟩ := run_betweenLooks
  have hcovered : ((new ⟨"a", 2⟩ {} 0).run (twoFrames b)).all (fun o =>
      ∀ t ∈ o.1.transitions (betweenLooks b), t.after.routes.target b ≠ none) = true := by
    decide +kernel
  rw [h₀, Option.all_some, decide_eq_true_eq] at hcovered
  exact ⟨m₀, hs₀, m, hs, h₀, hhost, h, hcovered, hdeals⟩

theorem overtaken_in_handing_over :
    let b : Endpoint := ⟨"b", 1⟩
    ∃ m₀ hs₀ m hs, (new ⟨"a", 2⟩ {} 0).run (twoFrames b) = some (m₀, hs₀) ∧
      m₀.observers.get? b.toWildcard = some 0 ∧ m₀.run (betweenLooks b) = some (m, hs) ∧
      m.closed = false ∧ HandsOver m₀ b 1 (m₀.transitions (betweenLooks b)) ∧
      ∃ ts₁ t ts₂, m₀.transitions (betweenLooks b) = ts₁ ++ t :: ts₂ ∧
        t.dealing? = some (.routed 0 b (.frame [5]) none) ∧
        Overtaken 0 1 b (.frame [5]) t.before ts₁ := by
  intro b
  obtain ⟨m₀, hs₀, m, hs, h₀, hhost, h, hdeals⟩ := run_betweenLooks
  have hstart : ((new ⟨"a", 2⟩ {} 0).run (twoFrames b)).all (fun o =>
      o.1.observers.get? b = none ∧ o.1.registrations.length = 1 ∧
        (o.1.run (betweenLooks b)).all fun o => !o.1.closed) = true := by decide +kernel
  have hwaits : ((new ⟨"a", 2⟩ {} 0).run (twoFrames b)).all (fun o =>
      ∀ t ∈ o.1.transitions (betweenLooks b), t.move = .unregister b.toWildcard →
        ∃ r ∈ t.before.registrations[1]?, r.remote = b ∧ r.stage.Succeeded) = true := by
    decide +kernel
  rw [h₀, Option.all_some, decide_eq_true_eq] at hstart hwaits
  obtain ⟨hvacant, hlen, ho⟩ := hstart
  have ho : m.closed = false := by simpa [b, h] using ho
  have hh : HandsOver m₀ b 1 (m₀.transitions (betweenLooks b)) := by
    refine ⟨rfl, hvacant, List.getElem?_eq_none (Nat.le_of_eq hlen), fun id e s hd _ => ?_,
      fun t ht he => ?_, hwaits⟩
    · rw [hdeals] at hd
      simp only [List.mem_cons, Dealing.entered.injEq, Except.ok.injEq, reduceCtorEq,
        List.not_mem_nil, or_false] at hd
      obtain ⟨rfl, rfl, -⟩ := hd
      exact ⟨rfl, rfl⟩
    · have hmem := mem_of_mem_transitions ht
      rw [he] at hmem
      revert hmem
      decide
  have hlost : .routed 0 b (.frame [5]) none ∈ dealings (m₀.transitions (betweenLooks b)) := by
    rw [hdeals]
    simp [b]
  obtain ⟨t, ht, hd⟩ := List.mem_filterMap.mp hlost
  obtain ⟨ts₁, ts₂, hts⟩ := List.append_of_mem ht
  exact ⟨m₀, hs₀, m, hs, h₀, hhost, h, ho, hh, ts₁, t, ts₂, hts, hd,
    (handed_over_unless_overtaken h₀ hhost h ho hh hts hd).1.mp rfl⟩

end PeerLink.Manager
