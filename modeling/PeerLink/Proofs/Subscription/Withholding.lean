import PeerLink.Proofs.Manager.Reaping
import PeerLink.Proofs.Subscription.Lagging

namespace PeerLink.Manager

/-- The steps with which a dispatch catches up. -/
def Lag.moves (d : Lag) (s : SubscriptionId) : List Move :=
  List.replicate (d.items.length + d.ends.toNat) (.step (.dispatch s) .none)

def Lag.calls (d : Lag) (s : SubscriptionId) (o : ObserverId) : List Happening :=
  d.items.map (fun item => .called s o item.callback) ++
    if d.ends then [.called s o .completed] else []

def Happening.hears (s : SubscriptionId) (x : Happening) : Bool := (x.called? s).isSome

def queueOf (m : Manager) (s : SubscriptionId) : List Item :=
  ((m.subscriptions[s]?).map Subscription.queue).getD []

variable {m m' m₁ : Manager} {mv : Move} {hs : List Happening} {s : SubscriptionId}
  {b b₁ : Subscription} {d : Lag} {o : ObserverId} {moves : List Move}

theorem lagging_of_modify {f : Subscription → Subscription} {d' : Lag}
    (hb : m.subscriptions[s]? = some b) (h : b.behind d = (f b).behind d') :
    m.lagging s d = (m.modifySubscription s f).lagging s d' := by
  have hl : m.subscriptions.modify s (·.behind d) =
      (m.subscriptions.modify s f).modify s (·.behind d') := by
    rw [List.modify_modify_eq]
    exact modify_congr fun b' hb' => by
      cases hb.symm.trans hb'
      exact h
  exact congrArg (fun ss => { m with subscriptions := ss }) hl

theorem move_dispatch (ht : Tidy m) : m.move (.step (.dispatch s) .none) = m.dispatchStep s := by
  have hstep : m.step (.dispatch s) .none = m.dispatchStep s := by
    rw [step]
    exact if_pos rfl
  rw [← hstep]
  refine move_eq_step fun o ho => ?_
  rw [dispatchStep_scope (hstep.symm.trans ho)]
  exact ht.of_refersTo rfl fun _ h => h

theorem Move.eq_of_drains (mv : Move) (hn : mv.drains s = true) (hm : m.move mv = some (m', hs)) :
    mv = .step (.dispatch s) .none := by
  cases mv with
  | step task a =>
    obtain ⟨o, ho, -⟩ := move_step hm
    cases task with
    | dispatch t =>
      obtain rfl : t = s := of_decide_eq_true hn
      rw [(step_dispatch ho).1]
    | _ => cases hn
  | _ => cases hn

theorem Lags.items (h : Lags m s d) (hb : m.subscriptions[s]? = some b) (hr : b.stage = .running) :
    ∃ items, d = { items } := by
  cases h with
  | level => exact ⟨[], rfl⟩
  | going => exact ⟨_, rfl⟩
  | ended hb' he =>
    cases hb.symm.trans hb'
    cases hr.symm.trans he

theorem Lags.drain (h : Lags m s d) (hf : Flagged m) (ht : Tidy m) (ho : m'.closed = false)
    (hm : m.move (.step (.dispatch s) .none) = some (m', hs)) :
    ∃ d' b, Lags m' s d' ∧ m.lagging s d = m'.lagging s d' ∧
      d'.moves s = d.moves s ++ [.step (.dispatch s) .none] ∧ m.subscriptions[s]? = some b ∧
      d'.calls s b.observer = d.calls s b.observer ++ hs ∧ ∀ x ∈ hs, x.hears s = true := by
  have hrunning := hf.running ((move_later hm).opened ho)
  rw [move_dispatch ht] at hm
  obtain ⟨b, hb, hst⟩ := dispatchStep_cases hm
  cases hst with
  | halt _ hc => cases hrunning.symm.trans hc
  | @deliver item rest hr _ hq =>
    obtain ⟨items, rfl⟩ := h.items hb hr
    refine ⟨{ items := items ++ [item] }, b, .going (modifySubscription_get hb) hr,
      lagging_of_modify hb ?_, ?_, hb, ?_, fun x hx => ?_⟩
    · simp [Subscription.behind, hq]
    · simp [Lag.moves, List.replicate_succ']
    · simp [Lag.calls]
    · cases List.mem_singleton.mp hx
      simp [Happening.hears, Happening.called?]
  | complete hr _ hq hh =>
    obtain ⟨items, rfl⟩ := h.items hb hr
    refine ⟨{ items, ends := true }, b, .ended (modifySubscription_get hb) rfl hq hh,
      lagging_of_modify hb ?_, ?_, hb, ?_, fun x hx => ?_⟩
    · simp [Subscription.behind, hr]
    · simp [Lag.moves, List.replicate_succ']
    · simp [Lag.calls]
    · cases List.mem_singleton.mp hx
      simp [Happening.hears, Happening.called?]

theorem modify_of_lagging {f : Subscription → Subscription} {d' : Lag}
    (hb : m.subscriptions[s]? = some b) (h : f (b.behind d) = b.behind d') :
    (m.lagging s d).modifySubscription s f = m.lagging s d' := by
  have hl : (m.subscriptions.modify s (·.behind d)).modify s f =
      m.subscriptions.modify s (·.behind d') := by
    rw [List.modify_modify_eq]
    exact modify_congr fun b' hb' => by
      cases hb.symm.trans hb'
      exact h
  exact congrArg (fun ss => { m with subscriptions := ss }) hl

theorem move_of_running (ht : Tidy m) (hc : m.cancelled = false) (hb : m.subscriptions[s]? = some b)
    (hr : (b.behind d).stage = .running) :
    (m.lagging s d).move (.step (.dispatch s) .none) =
      match (b.behind d).queue with
      | item :: rest => some ((m.lagging s d).modifySubscription s ({ · with queue := rest }),
          [.called s b.observer item.callback])
      | [] => if b.handles = 0 then
          some ((m.lagging s d).modifySubscription s ({ · with stage := .ended }),
            [.called s b.observer .completed])
        else none := by
  have htidy : Tidy (m.lagging s d) := ht.of_refersTo rfl fun _ h => h
  have hget : (m.lagging s d).subscriptions[s]? = some (b.behind d) := by
    simp [hb]
  rw [move_dispatch htidy]
  simp only [dispatchStep, hget, Option.bind_eq_bind, Option.bind_some, hr, ne_eq,
    not_true_eq_false, if_false]
  rw [if_neg (by simpa using hc)]
  rfl

theorem run_items (ht : Tidy m) (hc : m.cancelled = false) (hb : m.subscriptions[s]? = some b)
    (items : List Item) (ends : Bool) (hr : ends = false → b.stage = .running) :
    (m.lagging s { items, ends }).run
        (List.replicate items.length (.step (.dispatch s) .none)) =
      some (m.lagging s { ends }, items.map fun item => .called s b.observer item.callback) := by
  induction items with
  | nil => rfl
  | cons item items ih =>
    have hrun : (b.behind { items := item :: items, ends }).stage = .running := by
      cases ends with
      | true => rfl
      | false => exact hr rfl
    have hmove : (m.lagging s { items := item :: items, ends }).move (.step (.dispatch s) .none) =
        some (m.lagging s { items, ends }, [.called s b.observer item.callback]) := by
      rw [move_of_running ht hc hb hrun]
      exact congrArg (fun n => some (n, _)) (modify_of_lagging hb rfl)
    exact run_cons.mpr ⟨_, _, _, hmove, ih, rfl⟩

theorem Lags.catchUp (h : Lags m s d) (ht : Tidy m) (hc : m.cancelled = false)
    (ho : ∀ b, m.subscriptions[s]? = some b → b.observer = o) :
    (m.lagging s d).run (d.moves s) = some (m, d.calls s o) := by
  cases h with
  | level =>
    rw [lagging_level]
    rfl
  | @going items b hb hr =>
    have hrun := run_items ht hc hb items false fun _ => hr
    rw [lagging_level, ho b hb] at hrun
    simpa [Lag.moves, Lag.calls] using hrun
  | @ended items b hb he hq hh =>
    have hrun := run_items ht hc hb items true nofun
    have hlast : (m.lagging s { ends := true }).move (.step (.dispatch s) .none) =
        some (m, [.called s b.observer .completed]) := by
      have hend : (m.lagging s { ends := true }).modifySubscription s ({ · with stage := .ended }) =
          m.lagging s {} :=
        modify_of_lagging hb (by simp [Subscription.behind, he])
      rw [move_of_running ht hc hb rfl, hend, lagging_level]
      simp [Subscription.behind, hq, hh]
    have hlast : (m.lagging s { ends := true }).run [.step (.dispatch s) .none] =
        some (m, [.called s b.observer .completed]) :=
      run_cons.mpr ⟨m, _, [], hlast, rfl, rfl⟩
    have hall := run_append.mpr ⟨_, _, _, hrun, hlast, rfl⟩
    rw [ho b hb] at hall
    simpa [Lag.moves, Lag.calls, List.replicate_succ'] using hall

theorem Stir.uses_of_enqueues (h : Stir m mv m₁ hs)
    (hq : hs.filterMap (Happening.enqueued? s) ≠ []) : 0 < m.uses s := by
  obtain ⟨id, r, -, hr, hst⟩ := h.enqueues hq
  exact uses_pos_of_handing hr hst

theorem Fate.kept (h : Fate m s b mv b₁ hs) (hv : Served m) (hb : m.subscriptions[s]? = some b)
    (hn : mv.drains s = false) (hs' : b.stage ≠ .unstarted) :
    b₁.stage = b.stage ∧ (hs.filterMap (Happening.enqueued? s) = [] → b₁.queue = b.queue) := by
  cases h with
  | keep => exact ⟨rfl, fun _ => rfl⟩
  | push => exact ⟨push_stage _ _, fun he => by simp [Happening.enqueued?] at he⟩
  | halt | deliver | complete => simp [Move.drains] at hn
  | undo hr hu | spawn hr hu =>
    obtain ⟨b', hb', hun⟩ := hv.prepared.own _ _ s hr (by rw [hu]; rfl)
    cases hb.symm.trans hb'
    exact absurd hun hs'

theorem Lags.move (h : Lags m s d) (hv : Served m) (hn : mv.drains s = false)
    (hm : m.move mv = some (m', hs)) : Lags m' s d := by
  have hv' := hv.move hm
  obtain ⟨m₁, hs₁, hst, hm', -⟩ := move_stir hm
  have hsub : m'.subscriptions = m₁.subscriptions := by rw [hm']
  cases h with
  | level => exact .level
  | going hb hrun =>
    obtain ⟨b₁, hb₁, hf⟩ := hst.fate hb
    obtain ⟨hstage, -⟩ := hf.kept hv hb hn (by rw [hrun]; nofun)
    exact .going (hsub ▸ hb₁) (hstage.trans hrun)
  | ended hb hend hq hh =>
    obtain ⟨b₁, hb₁, hf⟩ := hst.fate hb
    obtain ⟨hstage, hqueue⟩ := hf.kept hv hb hn (by rw [hend]; nofun)
    -- nothing leads to its queue any more, so nothing can come into it
    have hun : m.uses s = 0 := (hv.counted.exact s _ hb).symm.trans hh
    have hun₁ : m'.uses s = 0 := by
      have hu := hst.unused hv.counted.keyed (List.getElem?_eq_some_iff.mp hb).1 hun
      rw [hm']
      exact hu
    have hnone : hs₁.filterMap (Happening.enqueued? s) = [] :=
      Decidable.byContradiction fun he => Nat.ne_of_gt (hst.uses_of_enqueues he) hun
    rw [← hsub] at hb₁
    exact .ended hb₁ (hstage.trans hend) ((hqueue hnone).trans hq)
      ((hv'.counted.exact s _ hb₁).trans hun₁)

theorem unheard_of_move (hn : mv.drains s = false) (hm : m.move mv = some (m', hs)) :
    ∀ x ∈ hs, x.hears s = false := by
  obtain ⟨m₁, hs₁, hst, -, streams, rfl⟩ := move_stir hm
  have hnone : hs₁.filterMap (Happening.called? s) = [] := by
    refine Decidable.byContradiction fun hc => ?_
    obtain ⟨-, rfl, -⟩ := hst.calls hc
    simp [Move.drains] at hn
  intro x hx
  rw [Happening.hears, Option.isSome_eq_false_iff, Option.isNone_iff_eq_none]
  obtain hx | hx := List.mem_append.mp hx
  · exact List.filterMap_eq_nil_iff.mp hnone x hx
  · exact List.filterMap_eq_nil_iff.mp ((Still.released streams).called s) x hx

theorem queueOf_move (hv : Served m) (ho : m'.closed = false) (hn : mv.drains s = false)
    (hm : m.move mv = some (m', hs)) :
    m'.queueOf s = m.queueOf s ++ hs.filterMap (Happening.enqueued? s) := by
  have ho₀ : m.closed = false := (move_later hm).opened ho
  obtain ⟨m₁, hs₁, hst, hm', streams, rfl⟩ := move_stir hm
  have hsub : m'.subscriptions = m₁.subscriptions := by rw [hm']
  rw [List.filterMap_append, (Still.released streams).enqueued s, List.append_nil]
  cases hb : m.subscriptions[s]? with
  | none =>
    have hnone : hs₁.filterMap (Happening.enqueued? s) = [] :=
      (hst.unmade hv.counted (List.getElem?_eq_none_iff.mp hb)).1
    simp only [queueOf, hsub, hb, hnone]
    cases hb₁ : m₁.subscriptions[s]? with
    | none => rfl
    | some b₁ => exact (hst.fresh hb hb₁).1
  | some b =>
    obtain ⟨b₁, hb₁, hf⟩ := hst.fate hb
    simp only [queueOf, hsub, hb, hb₁, Option.map_some, Option.getD_some]
    cases hf with
    | keep hq => rw [hq, List.append_nil]
    | push hq =>
      have hpos := hst.uses_of_enqueues (s := s) (by simp [Happening.enqueued?])
      obtain ⟨b', hb', hne⟩ := hv.used ho₀ s hpos
      cases hb.symm.trans hb'
      simp [Subscription.push, hne, Happening.enqueued?, hq.enqueued s]
    | halt | deliver | complete => simp [Move.drains] at hn
    | undo | spawn => exact (List.append_nil _).symm

theorem observer_of_run (h : m.run moves = some (m', hs)) (hb : m.subscriptions[s]? = some b) :
    ∃ b', m'.subscriptions[s]? = some b' ∧ b'.observer = b.observer := by
  refine run_invariant (I := fun m => ∃ b', m.subscriptions[s]? = some b' ∧
    b'.observer = b.observer) (fun m mv m' hs ⟨b', hb', ho⟩ hm => ?_) ⟨b, hb, rfl⟩ h
  obtain ⟨m₁, hs₁, hst, hm', -⟩ := move_stir hm
  obtain ⟨b₁, hb₁, hf⟩ := hst.fate hb'
  have hsub : m'.subscriptions = m₁.subscriptions := by rw [hm']
  exact ⟨b₁, hsub ▸ hb₁, hf.observer.trans ho⟩

theorem queueOf_run (hv : Served m) (ho : m'.closed = false)
    (hn : ∀ mv ∈ moves, mv.drains s = false) (h : m.run moves = some (m', hs)) :
    m'.queueOf s = m.queueOf s ++ hs.filterMap (Happening.enqueued? s) := by
  induction moves generalizing m hs with
  | nil =>
    cases h
    exact (List.append_nil _).symm
  | cons mv moves ih =>
    obtain ⟨m₁, hs₁, hs₂, hm, hr, rfl⟩ := run_cons.mp h
    have ho₁ : m₁.closed = false := (run_later hr).opened ho
    obtain ⟨hn₁, hn⟩ := List.forall_mem_cons.mp hn
    rw [ih (hv.move hm) hn hr, queueOf_move hv ho₁ hn₁ hm, List.filterMap_append,
      List.append_assoc]

theorem Lags.run (h : Lags m s d) (hv : Served m) (ht : Tidy m) (ho : m'.closed = false)
    (hob : ∀ b, m'.subscriptions[s]? = some b → b.observer = o) (hr : m.run moves = some (m', hs)) :
    ∃ d', Lags m' s d' ∧
      (m.lagging s d).run (moves.filter (!·.drains s)) =
        some (m'.lagging s d', hs.filter (!·.hears s)) ∧
      d'.moves s = d.moves s ++ moves.filter (·.drains s) ∧
      d'.calls s o = d.calls s o ++ hs.filter (·.hears s) := by
  induction moves generalizing m hs d with
  | nil =>
    cases hr
    exact ⟨d, h, rfl, (List.append_nil _).symm, (List.append_nil _).symm⟩
  | cons mv moves ih =>
    obtain ⟨m₁, hs₁, hs₂, hm, hr₁, rfl⟩ := run_cons.mp hr
    have ho₁ : m₁.closed = false := (run_later hr₁).opened ho
    cases hn : mv.drains s with
    | true =>
      obtain rfl := mv.eq_of_drains hn hm
      obtain ⟨d₁, b, h₁, hd, hmoves, hb, hcalls, hall⟩ := h.drain hv.flagged ht ho₁ hm
      obtain ⟨b', hb', hbo⟩ := observer_of_run hr hb
      rw [← hbo, hob b' hb'] at hcalls
      obtain ⟨d', h', hrun, hmoves', hcalls'⟩ := ih h₁ (hv.move hm) (ht.move hm) hr₁
      refine ⟨d', h', ?_, ?_, ?_⟩
      · have hnone : hs₁.filter (!·.hears s) = [] :=
          List.filter_eq_nil_iff.mpr fun x hx => by simp [hall x hx]
        rw [List.filter_cons_of_neg (by simp [hn]), hd, hrun, List.filter_append, hnone,
          List.nil_append]
      · rw [hmoves', hmoves, List.filter_cons_of_pos hn, List.append_assoc]
        rfl
      · rw [hcalls', hcalls, List.filter_append, List.filter_eq_self.mpr hall, List.append_assoc]
    | false =>
      have hnone := unheard_of_move hn hm
      obtain ⟨d', h', hrun, hmoves, hcalls⟩ :=
        ih (h.move hv hn hm) (hv.move hm) (ht.move hm) hr₁
      refine ⟨d', h', ?_, ?_, ?_⟩
      · have hall : hs₁.filter (!·.hears s) = hs₁ :=
          List.filter_eq_self.mpr fun x hx => by simp [hnone x hx]
        rw [List.filter_cons_of_pos (by simp [hn]), List.filter_append, hall]
        exact run_cons.mpr ⟨_, _, _, move_lagging h hv ho₁ hn hm, hrun, rfl⟩
      · rw [hmoves, List.filter_cons_of_neg (by simp [hn])]
      · have hnil : hs₁.filter (·.hears s) = [] :=
          List.filter_eq_nil_iff.mpr fun x hx => by simp [hnone x hx]
        rw [hcalls, List.filter_append, hnil, List.nil_append]

theorem enqueued_of_unheard (hs : List Happening) :
    (hs.filter (!·.hears s)).filterMap (Happening.enqueued? s) =
      hs.filterMap (Happening.enqueued? s) := by
  rw [List.filterMap_filter]
  refine List.filterMap_congr fun x _ => ?_
  cases x with
  | called t => exact ite_self _
  | _ => rfl

/-- An observer that takes long holds up nobody else. Without the steps of its dispatch a run of an
open manager can be made just the same, and all that happens but for the calls on this observer is
the same, and so is all that the manager comes to but for this subscription: in its queue waits all
that came, in that order. The dispatch can take its steps when all is over, and then nothing has been
lost. -/
theorem dispatch_withheld {address : Endpoint} {config : Config} {clock : Nat}
    {before moves : List Move} {m₀ m : Manager} {hs₀ hs : List Happening}
    (h₀ : (new address config clock).run before = some (m₀, hs₀))
    (h : m₀.run moves = some (m, hs)) (ho : m.closed = false) (s : SubscriptionId) :
    ∃ (d : Lag) (n : Manager),
      n = { m with subscriptions := m.subscriptions.modify s (·.behind d) } ∧
      m₀.run (moves.filter (!·.drains s)) = some (n, hs.filter (!·.hears s)) ∧
      n.queueOf s = m₀.queueOf s ++ hs.filterMap (Happening.enqueued? s) ∧
      n.run (moves.filter (·.drains s)) = some (m, hs.filter (·.hears s)) := by
  have hserved := (run_served h₀).1
  have htidy := run_tidy h₀
  have hall := run_append.mpr ⟨_, _, _, h₀, h, rfl⟩
  have hrunning := (run_flagged hall).running ho
  obtain ⟨o, hob⟩ : ∃ o, ∀ b, m.subscriptions[s]? = some b → b.observer = o := by
    cases hb : m.subscriptions[s]? with
    | none => exact ⟨0, nofun⟩
    | some b => exact ⟨b.observer, fun b' hb' => by cases hb'; rfl⟩
  obtain ⟨d, hl, hrun, hmoves, hcalls⟩ := Lags.level.run hserved htidy ho hob h
  rw [lagging_level] at hrun
  refine ⟨d, _, rfl, hrun, ?_, ?_⟩
  · have hn : ∀ mv ∈ moves.filter (!·.drains s), mv.drains s = false := fun mv hmv => by
      simpa using (List.mem_filter.mp hmv).2
    have hopen : (m.lagging s d).closed = false := ho
    rw [queueOf_run hserved hopen hn hrun, enqueued_of_unheard]
  · have hcatch := hl.catchUp (run_tidy hall) hrunning hob
    rwa [hmoves, hcalls] at hcatch

/-- Two connections have each brought a frame for the same observer, and it is unregistered before it
has had the second: both wait in its queue, and what comes after goes to another one. -/
theorem dispatch_withheld_unregistered :
    let greeting := Frame.encode (Hello.format.write (.of ⟨"h", 1⟩))
    let work (task : Task) (n : Nat) := List.replicate n (Move.step task .none)
    let before := .register ⟨"h", 1⟩ 7 :: work (.registration 0) 4
    let moves := .step .acceptor (.incoming 3 ⟨"p", 9⟩) ::
      .step .acceptor (.incoming 4 ⟨"p", 8⟩) :: work (.receiver 0) 1 ++
      .step (.receiver 0) (.chunk (greeting ++ [0, 0, 0, 1, 5, 0, 0, 0, 1, 7])) ::
      work (.receiver 0) 4 ++ work (.dispatch 0) 1 ++ work (.receiver 1) 1 ++
      .step (.receiver 1) (.chunk (greeting ++ [0, 0, 0, 1, 6])) :: work (.receiver 1) 3 ++
      .unregister ⟨"h", 1⟩ :: .register ⟨"h", 1⟩ 8 :: work (.registration 1) 4 ++
      work (.receiver 1) 1 ++ work (.receiver 0) 3 ++ work (.dispatch 0) 2 ++ work (.dispatch 1) 1
    ∃ m₀ hs₀ m hs, (new ⟨"a", 2⟩ {} 0).run before = some (m₀, hs₀) ∧
      m₀.run moves = some (m, hs) ∧ m.closed = false ∧
      hs.filterMap (Happening.called? 0) = [.next [5], .next [6], .completed] ∧
      hs.filterMap (Happening.called? 1) = [.next [7]] ∧
      ∃ (d : Lag) (n : Manager),
        n = { m with subscriptions := m.subscriptions.modify 0 (·.behind d) } ∧
        m₀.run (moves.filter (!·.drains 0)) = some (n, hs.filter (!·.hears 0)) ∧
        n.queueOf 0 = [.frame [5], .frame [6]] ∧
        n.run (work (.dispatch 0) 3) = some (m, hs.filter (·.hears 0)) := by
  intro greeting work before moves
  obtain ⟨⟨m', hs'⟩, hall⟩ : ∃ o, (new ⟨"a", 2⟩ {} 0).run (before ++ moves) = some o :=
    Option.isSome_iff_exists.mp (by decide +kernel)
  obtain ⟨m₀, hs₀, hs, h₀, h, rfl⟩ := run_append.mp hall
  have hview₀ : ((new ⟨"a", 2⟩ {} 0).run before).map (fun o => (o.1.queueOf 0, o.2)) =
      some ([], []) := by decide +kernel
  have hview : ((new ⟨"a", 2⟩ {} 0).run (before ++ moves)).map (fun o => (o.1.closed,
      o.2.filterMap (Happening.enqueued? 0))) = some (false, [.frame [5], .frame [6]]) := by
    decide +kernel
  have hcalls : ((new ⟨"a", 2⟩ {} 0).run (before ++ moves)).map (fun o =>
      (o.2.filterMap (Happening.called? 0), o.2.filterMap (Happening.called? 1))) =
      some ([.next [5], .next [6], .completed], [.next [7]]) := by decide +kernel
  simp only [h₀, hall, Option.map_some, Option.some.injEq, Prod.mk.injEq] at hview₀ hview hcalls
  obtain ⟨hqueue, rfl⟩ := hview₀
  obtain ⟨ho, hcame⟩ := hview
  obtain ⟨d, n, hn, hrun, hq, hcatch⟩ := dispatch_withheld h₀ h ho 0
  have hdrained : moves.filter (·.drains 0) = work (.dispatch 0) 3 := by decide +kernel
  rw [hqueue] at hq
  rw [hdrained] at hcatch
  exact ⟨m₀, [], m', hs, h₀, h, ho, hcalls.1, hcalls.2, d, n, hn, hrun, hq.trans hcame, hcatch⟩

end PeerLink.Manager
