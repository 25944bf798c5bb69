import PeerLink.Proofs.Subscription.Queues

namespace PeerLink.Manager

namespace Transition

def Unregisters (t : Transition) (s : SubscriptionId) : Prop :=
  ∃ e, t.move = .unregister e ∧ t.before.observers.get? e = some s

def Withdraws (t : Transition) (s : SubscriptionId) : Prop :=
  t.before.closed = true ∧ t.before.cancelled = false ∧
    ∃ id r u, t.move = .step (.registration id) .none ∧ t.before.registrations[id]? = some r ∧
      r.stage = .undoing u ∧ t.before.observers.get? r.remote = some s

end Transition

variable {m m' m₁ : Manager} {mv : Move} {hs : List Happening} {s : SubscriptionId}
  {b b₁ : Subscription} {ts : List Transition}

theorem Stir.enqueues (h : Stir m mv m₁ hs) (hq : hs.filterMap (Happening.enqueued? s) ≠ []) :
    ∃ id r, mv = .step (.receiver id) .none ∧ m.receivers[id]? = some r ∧
      r.stage.handing? = some s := by
  cases h with
  | aside _ _ _ hs | read _ _ _ hs => exact absurd (hs.enqueued s) hq
  | @hand id r _ _ item t _ _ _ hr hst _ hs =>
    by_cases he : t = s
    · subst he
      exact ⟨id, r, rfl, hr, by rw [hst]; rfl⟩
    · have hn : Happening.enqueued? s (.enqueued t item) = none := if_neg he
      rw [List.filterMap_cons_none hn] at hq
      exact absurd (hs.enqueued s) hq
  | dispatch _ h => cases h <;> exact absurd rfl hq
  | _ => exact absurd rfl hq

theorem Stir.calls (h : Stir m mv m₁ hs) (hc : hs.filterMap (Happening.called? s) ≠ []) :
    ∃ b, mv = .step (.dispatch s) .none ∧ m.subscriptions[s]? = some b ∧
      DispatchStep m s b m₁ hs := by
  cases h with
  | aside _ _ _ hs | read _ _ _ hs | hand _ _ _ hs => exact absurd (hs.called s) hc
  | @dispatch id b _ _ hb h =>
    by_cases he : id = s
    · exact ⟨b, he ▸ rfl, he ▸ hb, he ▸ h⟩
    · refine absurd ?_ hc
      cases h with
      | halt => rfl
      | deliver | complete => exact List.filterMap_cons_none (if_neg he)
  | _ => exact absurd rfl hc

theorem ClosingStep.clearing {id : ClosingId} {c c₁ : Closing} {a : Answer}
    (h : ClosingStep m id c a m₁ hs) (hc : m.closings[id]? = some c)
    (h₁ : m₁.closings[id]? = some c₁) (hst : c₁.stage = .clearingObservers) :
    m₁.cancelled = true := by
  cases h with
  | cancel => rfl
  | clearObservers _ hn =>
    rw [clearObservers_scope] at h₁
    cases (setClosing_get hc _).symm.trans h₁
    obtain ⟨-, rfl⟩ | ⟨-, rfl⟩ := hn <;> cases hst
  | clearLinks _ hn =>
    cases (setClosing_get hc _).symm.trans h₁
    obtain ⟨-, rfl⟩ | ⟨-, rfl⟩ := hn <;> cases hst
  | _ =>
    cases (setClosing_get hc _).symm.trans h₁
    cases hst

structure Traced (m : Manager) (ts : List Transition) : Prop where
  clearing : ∀ (id : ClosingId) c, m.closings[id]? = some c → c.stage = .clearingObservers →
    m.cancelled = true
  entry : m.cancelled = false → ∀ s, s < m.subscriptions.length →
    (∃ e, m.observers.get? e = some s) ∨ ∃ t ∈ ts, t.Unregisters s ∨ t.Withdraws s

theorem Traced.new (address : Endpoint) (config : Config) (clock : Nat) :
    Traced (new address config clock) [] := by
  refine ⟨fun id c h => ?_, fun _ s h => ?_⟩
  · simp [Manager.new] at h
  · simp [Manager.new] at h

theorem Traced.move (h : Traced m ts) (hm : Served m) (hmv : m.move mv = some (m', hs)) :
    Traced m' (ts ++ [⟨m, mv, m', hs⟩]) := by
  have hl := move_later hmv
  refine ⟨fun id c' hc' hst => ?_, fun hcan s hs' => ?_⟩
  · obtain hc | hc | ⟨a, m₁, hs₁, c, rfl, hc, ho, hp⟩ := move_closing hmv hc'
    · exact hl.cancelled (h.clearing id c' hc hst)
    · cases hst.symm.trans hc
    · rw [reap_scope hp] at hc' ⊢
      exact ho.clearing hc hc' hst
  · have hcan₀ := hl.running hcan
    obtain ⟨m₁, hs₁, hst, hm', -⟩ := move_stir hmv
    rw [hm'] at hs' ⊢
    by_cases hlt : s < m.subscriptions.length
    · obtain ⟨e, he⟩ | ⟨t, ht, hu⟩ := h.entry hcan₀ s hlt
      · -- the closing that would clear the table has cancelled the tasks before
        obtain he₁ | rfl | ⟨id, r, u, rfl, hr, hu, rfl⟩ | ⟨id, c, -, hc, hc'⟩ := hst.leaves he
        · exact .inl ⟨e, he₁⟩
        · exact .inr ⟨_, List.mem_concat_self, .inl ⟨e, rfl, he⟩⟩
        · exact .inr ⟨_, List.mem_concat_self,
            .inr ⟨hm.prepared.late id r u hr hu, hcan₀, id, r, u, rfl, hr, hu, he⟩⟩
        · cases hcan₀.symm.trans (h.clearing id c hc hc')
      · exact .inr ⟨t, List.mem_append_left _ ht, hu⟩
    · obtain ⟨⟨id, r, -, -, hn, -, rfl⟩, -⟩ | hlen := hst.makes
      · have hs : s < m.subscriptions.length + 1 := by simpa [setRegistration] using hs'
        obtain rfl : s = m.subscriptions.length := by omega
        exact .inl ⟨r.remote, (Table.get?_insert hn).trans (if_pos rfl)⟩
      · exact absurd (hlen ▸ hs') hlt

structure Spoken (m : Manager) (ts : List Transition) : Prop where
  ended : ∀ s b, m.subscriptions[s]? = some b → b.stage = .ended →
    m.closed = true ∧ callsOn s ts <+: (queuedTo s ts).map callbackOf ∨
      m.uses s = 0 ∧ callsOn s ts = (queuedTo s ts).map callbackOf ++ [.completed]
  observer : ∀ t ∈ ts, ∀ s o c, .called s o c ∈ t.happenings →
    ∃ b, m.subscriptions[s]? = some b ∧ b.observer = o

theorem Spoken.new (address : Endpoint) (config : Config) (clock : Nat) :
    Spoken (new address config clock) [] := by
  refine ⟨fun s b h => ?_, fun t ht => absurd ht List.not_mem_nil⟩
  simp [Manager.new] at h

theorem Queued.heard (h : Queued m ts) (hb : m.subscriptions[s]? = some b) (hn : b.stage ≠ .ended) :
    callsOn s ts <+: (queuedTo s ts).map callbackOf := ⟨_, (h.first s b hb hn).symm⟩

theorem Fate.observer (h : Fate m s b mv b₁ hs) : b₁.observer = b.observer := by
  cases h with
  | push => exact push_observer _ _
  | _ => rfl

theorem Fate.quiet (h : Fate m s b mv b₁ hs) (hn : b.stage ≠ .running) :
    hs.filterMap (Happening.called? s) = [] := by
  cases h with
  | keep _ hc => exact hc
  | push hq => exact hq.called s
  | halt | undo | spawn => rfl
  | deliver hr | complete hr => exact absurd hr hn

theorem Spoken.ended_move (h : Spoken m ts) (hq : Queued m ts) (hm : Served m)
    (hst : Stir m mv m₁ hs) (hb : m.subscriptions[s]? = some b) (hf : Fate m s b mv b₁ hs)
    (he : b₁.stage = .ended) (hl : m.closed = true → m₁.closed = true) :
    m₁.closed = true ∧ callsOn s (ts ++ [⟨m, mv, m₁, hs⟩]) <+:
        (queuedTo s (ts ++ [⟨m, mv, m₁, hs⟩])).map callbackOf ∨
      m₁.uses s = 0 ∧ callsOn s (ts ++ [⟨m, mv, m₁, hs⟩]) =
        (queuedTo s (ts ++ [⟨m, mv, m₁, hs⟩])).map callbackOf ++ [.completed] := by
  have hlt := (List.getElem?_eq_some_iff.mp hb).1
  rw [callsOn_concat, queuedTo_concat, List.map_append]
  by_cases hb₀ : b.stage = .ended
  · have hc : (Transition.mk m mv m₁ hs).calls s = [] := hf.quiet (by rw [hb₀]; nofun)
    rw [hc, List.append_nil]
    obtain ⟨hcl, hp⟩ | ⟨hu, hp⟩ := h.ended s b hb hb₀
    · exact .inl ⟨hl hcl, hp.trans (List.prefix_append _ _)⟩
    · -- nothing leads to a queue whose observer has been told of the end
      have hn : (Transition.mk m mv m₁ hs).queued s = [] := by
        refine queued_of_nil (Decidable.byContradiction fun hq => ?_)
        obtain ⟨id, r, -, hr, hs'⟩ := hst.enqueues hq
        exact absurd hu (Nat.ne_of_gt (uses_pos_of_handing hr hs'))
      rw [hn, List.map_nil, List.append_nil]
      exact .inr ⟨hst.unused hm.counted.keyed hlt hu, hp⟩
  · have hp := hq.heard hb hb₀
    cases hf with
    | keep | deliver => exact absurd he hb₀
    | push => exact absurd ((push_stage _ _).symm.trans he) hb₀
    | halt _ hc =>
      refine .inl ⟨hl (hm.flagged.cancelled hc), ?_⟩
      simpa [Transition.queued, Transition.calls] using hp
    | undo hr hs' =>
      refine .inl ⟨hl (hm.prepared.late _ _ s hr hs'), ?_⟩
      simpa [Transition.queued, Transition.calls] using hp
    | complete hr hc hqueue hh =>
      have hu : m.uses s = 0 := (hm.counted.exact s b hb).symm.trans hh
      have hfirst := hq.first s b hb hb₀
      rw [hqueue, List.map_nil, List.append_nil] at hfirst
      refine .inr ⟨hst.unused hm.counted.keyed hlt hu, ?_⟩
      simp [Transition.queued, Transition.calls, Happening.called?, hfirst]
    | spawn => cases he

theorem Spoken.move (h : Spoken m ts) (hq : Queued m ts) (hm : Served m)
    (hmv : m.move mv = some (m', hs)) : Spoken m' (ts ++ [⟨m, mv, m', hs⟩]) := by
  have hl := move_later hmv
  obtain ⟨m₁, hs₁, hst, hm', streams, rfl⟩ := move_stir hmv
  have hclosed : m'.closed = m₁.closed := by rw [hm']
  have hsub : m'.subscriptions = m₁.subscriptions := by rw [hm']
  refine ⟨fun s b₁ hb₁ he => ?_, fun t ht s o c hc => ?_⟩
  · rw [hsub] at hb₁
    cases hb : m.subscriptions[s]? with
    | none => cases he.symm.trans (hst.fresh hb hb₁).2
    | some b =>
      obtain ⟨b₂, hb₂, hf⟩ := hst.fate hb
      cases hb₁.symm.trans hb₂
      have hend := h.ended_move hq hm hst hb hf he fun hc => hclosed ▸ hl.closed hc
      have huses : m'.uses s = m₁.uses s := by rw [hm']; rfl
      rw [callsOn_concat, queuedTo_concat] at hend ⊢
      rwa [calls_released m₁, queued_released m₁, hclosed, huses]
  · have hkept : ∀ b, m.subscriptions[s]? = some b → b.observer = o →
        ∃ b, m'.subscriptions[s]? = some b ∧ b.observer = o := by
      intro b hb ho
      obtain ⟨b₁, hb₁, hf⟩ := hst.fate hb
      exact ⟨b₁, hsub ▸ hb₁, hf.observer.trans ho⟩
    obtain ht | ht := List.mem_append.mp ht
    · obtain ⟨b, hb, ho⟩ := h.observer t ht s o c hc
      exact hkept b hb ho
    · cases List.mem_singleton.mp ht
      obtain hc | hc := List.mem_append.mp hc
      · have hcalled : c ∈ hs₁.filterMap (Happening.called? s) :=
          List.mem_filterMap.mpr ⟨_, hc, if_pos rfl⟩
        obtain ⟨b, -, hb, hd⟩ := hst.calls (List.ne_nil_of_mem hcalled)
        refine hkept b hb ?_
        cases hd with
        | halt => cases hc
        | deliver | complete =>
          cases List.mem_singleton.mp hc
          rfl
      · exact absurd trivial (Still.released streams _ hc)

structure Voiced (m : Manager) (ts : List Transition) : Prop where
  served : Served m
  queued : Queued m ts
  traced : Traced m ts
  spoken : Spoken m ts

theorem Voiced.new (address : Endpoint) (config : Config) (clock : Nat) :
    Voiced (new address config clock) [] :=
  ⟨.new address config clock, .new address config clock, .new address config clock,
    .new address config clock⟩

theorem Voiced.move (h : Voiced m ts) (hm : m.move mv = some (m', hs)) :
    Voiced m' (ts ++ [⟨m, mv, m', hs⟩]) where
  served := h.served.move hm
  queued := h.queued.move h.served hm
  traced := h.traced.move h.served hm
  spoken := h.spoken.move h.queued h.served hm

theorem run_voiced {address : Endpoint} {config : Config} {clock : Nat} {moves : List Move}
    (h : (new address config clock).run moves = some (m, hs)) :
    Voiced m ((new address config clock).transitions moves) :=
  run_induction (P := Voiced) (.new address config clock) (fun _ _ _ _ _ hi hm => hi.move hm) h

/-- No other task moves between the two flags of a closing. -/
def Undivided (ts : List Transition) : Prop :=
  ∀ t ∈ ts, t.before.closed = true → t.before.cancelled = false →
    ∃ id a, t.move = .step (.closing id) a

/-- How the calls on an observer go together with what comes into its queue. -/
structure Grammar (m : Manager) (ts : List Transition) (s : SubscriptionId) : Prop where
  /-- It is called for the first of what came, each once and in that order; or for all that came,
  and then told of the end. -/
  ordered : callsOn s ts <+: (queuedTo s ts).map callbackOf ∨
    callsOn s ts = (queuedTo s ts).map callbackOf ++ [.completed]
  /-- When it is told of the end, it has been called for all that ever comes; the tasks are not
  cancelled; and it has been unregistered, or its entry has been taken out by a registration that
  came between the two flags of a closing. -/
  completed : ∀ ts₁ t ts₂, ts = ts₁ ++ t :: ts₂ → .completed ∈ t.calls s →
    t.before.cancelled = false ∧ callsOn s ts₁ = (queuedTo s ts).map callbackOf ∧
      t.calls s = [.completed] ∧ callsOn s ts₂ = [] ∧
      ((∃ t' ∈ ts₁, t'.Unregisters s) ∨ ¬Undivided ts₁ ∧ ∃ t' ∈ ts₁, t'.Withdraws s)
  /-- A dispatch that is over has told it of the end, unless the manager has been closed. -/
  stopped : ∀ b, m.subscriptions[s]? = some b → b.stage = .ended → m.closed = false →
    callsOn s ts = (queuedTo s ts).map callbackOf ++ [.completed]
  /-- Once its entry is gone, its dispatch waits for nothing but a receiver that has found its queue
  before. -/
  waiting : ∀ b, m.subscriptions[s]? = some b → b.stage = .running → m.cancelled = false →
    (∀ e, m.observers.get? e ≠ some s) → m.dispatchStep s = none →
    ∃ (id : Nat) (r : Receiver), m.receivers[id]? = some r ∧ r.stage.handing? = some s
  /-- What comes into its queue comes from a receiver that has found this queue, and into no
  other. -/
  own : ∀ t ∈ ts, t.queued s ≠ [] → (∀ s', s' ≠ s → t.queued s' = []) ∧
    ∃ id r, t.move = .step (.receiver id) .none ∧ t.before.receivers[id]? = some r ∧
      r.stage.handing? = some s
  observer : ∀ t ∈ ts, ∀ o c, .called s o c ∈ t.happenings →
    ∃ b, m.subscriptions[s]? = some b ∧ b.observer = o

theorem completed_not_mem (entries : List (Nat × Item)) : .completed ∉ entries.map callbackOf := by
  intro h
  obtain ⟨⟨id, item⟩, -, he⟩ := List.mem_map.mp h
  cases item <;> cases he

theorem Voiced.ordered (h : Voiced m ts) (s : SubscriptionId) :
    callsOn s ts <+: (queuedTo s ts).map callbackOf ∨
      callsOn s ts = (queuedTo s ts).map callbackOf ++ [.completed] := by
  cases hb : m.subscriptions[s]? with
  | none =>
    obtain ⟨hq, hc⟩ := h.queued.unmade s (List.getElem?_eq_none_iff.mp hb)
    rw [hq, hc]
    exact .inl (List.prefix_refl _)
  | some b =>
    by_cases he : b.stage = .ended
    · exact (h.spoken.ended s b hb he).imp And.right And.right
    · exact .inl (h.queued.heard hb he)

theorem Voiced.stopped (h : Voiced m ts) (hb : m.subscriptions[s]? = some b) (he : b.stage = .ended)
    (ho : m.closed = false) : callsOn s ts = (queuedTo s ts).map callbackOf ++ [.completed] := by
  obtain ⟨hc, -⟩ | ⟨-, hp⟩ := h.spoken.ended s b hb he
  · cases ho.symm.trans hc
  · exact hp

theorem Counted.waiting (h : Counted m) (hb : m.subscriptions[s]? = some b)
    (hr : b.stage = .running) (hc : m.cancelled = false) (hn : ∀ e, m.observers.get? e ≠ some s)
    (hw : m.dispatchStep s = none) :
    ∃ (id : Nat) (r : Receiver), m.receivers[id]? = some r ∧ r.stage.handing? = some s := by
  have hempty : b.queue = [] := by
    cases hl : b.queue with
    | nil => rfl
    | cons item rest => simp [dispatchStep, hb, hr, hc, hl] at hw
  have hhandles : b.handles ≠ 0 := fun hz => by
    simp [dispatchStep, hb, hr, hc, hempty, hz] at hw
  have htable : m.observers.values.count s = 0 := by
    refine List.count_eq_zero.mpr fun hm => ?_
    obtain ⟨e, he⟩ := Table.mem_values hm
    exact hn e (h.keyed.get? he)
  have hpos : 0 < m.receivers.countP (·.stage.handing? = some s) := by
    have he := h.exact s b hb
    rw [uses, htable] at he
    omega
  obtain ⟨r, hm, hs⟩ := List.countP_pos_iff.mp hpos
  obtain ⟨id, hr⟩ := List.getElem?_of_mem hm
  exact ⟨id, r, hr, of_decide_eq_true hs⟩

theorem Transition.queued_own {t : Transition} (ht : t.before.move t.move = some (t.after, t.happenings))
    (hq : t.queued s ≠ []) : (∀ s', s' ≠ s → t.queued s' = []) ∧
      ∃ id r, t.move = .step (.receiver id) .none ∧ t.before.receivers[id]? = some r ∧
        r.stage.handing? = some s := by
  obtain ⟨m₁, hs₁, hst, -, streams, he⟩ := move_stir ht
  have hfound : ∀ s', t.queued s' ≠ [] → ∃ id r, t.move = .step (.receiver id) .none ∧
      t.before.receivers[id]? = some r ∧ r.stage.handing? = some s' := by
    intro s' hq
    refine hst.enqueues fun hn => hq (queued_of_nil ?_)
    rw [he, List.filterMap_append, hn, (Still.released streams).enqueued s', List.append_nil]
  obtain ⟨id, r, hmv, hr, hs'⟩ := hfound s hq
  refine ⟨fun s' hne => Decidable.byContradiction fun hq' => ?_, id, r, hmv, hr, hs'⟩
  obtain ⟨id', r', hmv', hr', hs''⟩ := hfound s' hq'
  cases hmv.symm.trans hmv'
  cases hr.symm.trans hr'
  exact hne (Option.some.inj (hs''.symm.trans hs'))

theorem Transition.calls_stir {t : Transition}
    (ht : t.before.move t.move = some (t.after, t.happenings)) : ∃ m₁ hs₁,
      Stir t.before t.move m₁ hs₁ ∧ t.calls s = hs₁.filterMap (Happening.called? s) := by
  obtain ⟨m₁, hs₁, hst, -, streams, he⟩ := move_stir ht
  refine ⟨m₁, hs₁, hst, ?_⟩
  rw [Transition.calls, he, List.filterMap_append, (Still.released streams).called s,
    List.append_nil]

theorem Transition.completes {t : Transition}
    (ht : t.before.move t.move = some (t.after, t.happenings)) (hc : .completed ∈ t.calls s) :
    t.calls s = [.completed] ∧ t.before.cancelled = false ∧
      ∃ b, t.before.subscriptions[s]? = some b ∧ b.stage = .running ∧ b.queue = [] ∧
        b.handles = 0 := by
  obtain ⟨m₁, hs₁, hst, hcalls⟩ := Transition.calls_stir (s := s) ht
  rw [hcalls] at hc ⊢
  obtain ⟨b, -, hb, hd⟩ := hst.calls (List.ne_nil_of_mem hc)
  cases hd with
  | halt => cases hc
  | @deliver item =>
    have hone : [Happening.called s b.observer item.callback].filterMap (Happening.called? s) =
        [item.callback] := List.filterMap_cons_some (if_pos rfl)
    rw [hone, List.mem_singleton] at hc
    cases item <;> cases hc
  | complete hr hcan hq hh =>
    exact ⟨List.filterMap_cons_some (if_pos rfl), hcan, b, hb, hr, hq, hh⟩

/-- The calls on an observer, for every subscription of every run. -/
theorem run_grammar {address : Endpoint} {config : Config} {clock : Nat} {moves : List Move}
    (h : (new address config clock).run moves = some (m, hs)) (s : SubscriptionId) :
    Grammar m ((new address config clock).transitions moves) s := by
  have hvoiced := run_voiced h
  refine {
    ordered := hvoiced.ordered s
    completed := fun ts₁ t ts₂ hts hcomp => ?_
    stopped := fun b hb he ho => hvoiced.stopped hb he ho
    waiting := fun b hb hr hc hn hw => hvoiced.served.counted.waiting hb hr hc hn hw
    own := fun t ht hq => ?_
    observer := fun t ht o c hc => hvoiced.spoken.observer t ht s o c hc }
  · obtain ⟨moves₁, hs₁, hrun, rfl, ht⟩ := run_of_transitions hts
    have hvoiced₁ := run_voiced hrun
    obtain ⟨hone, hcan, b, hb, hr, hqueue, hh⟩ := Transition.completes ht hcomp
    have hall : callsOn s ((new address config clock).transitions moves₁) =
        (queuedTo s ((new address config clock).transitions moves)).map callbackOf ∧
        callsOn s ts₂ = [] := by
      have hsplit : callsOn s ((new address config clock).transitions moves) =
          callsOn s ((new address config clock).transitions moves₁) ++
            .completed :: callsOn s ts₂ := by
        rw [hts, callsOn, List.flatMap_append, List.flatMap_cons, hone]
        rfl
      obtain hp | hp := hvoiced.ordered s
      · refine absurd (hp.subset ?_) (completed_not_mem _)
        rw [hsplit]
        exact List.mem_append_right _ List.mem_cons_self
      · obtain ⟨hall, -, hnone⟩ | ⟨late, -, hall⟩ := append_cons_eq_concat (hsplit.symm.trans hp)
        · exact ⟨hall, hnone⟩
        · refine absurd ?_ (completed_not_mem
            (queuedTo s ((new address config clock).transitions moves)))
          rw [← hall]
          exact List.mem_append_right _ List.mem_cons_self
    refine ⟨hcan, hall.1, hone, hall.2, ?_⟩
    have huses : t.before.uses s = 0 := (hvoiced₁.served.counted.exact s b hb).symm.trans hh
    obtain ⟨e, he⟩ | ⟨t', ht', hu | hw⟩ :=
      hvoiced₁.traced.entry hcan s (List.getElem?_eq_some_iff.mp hb).1
    · exact absurd huses (Nat.ne_of_gt (uses_pos_of_get? he))
    · exact .inl ⟨t', ht', hu⟩
    · refine .inr ⟨fun hund => ?_, t', ht', hw⟩
      obtain ⟨hc, hn, id, r, u, hmv, -⟩ := hw
      obtain ⟨id', a, hmv'⟩ := hund t' ht' hc hn
      cases hmv.symm.trans hmv'
  · obtain ⟨ts₁, ts₂, hts⟩ := List.append_of_mem ht
    obtain ⟨-, -, -, -, hmv⟩ := run_of_transitions hts
    exact Transition.queued_own hmv hq

/-- A receiver has found the queue of an observer when it is unregistered, and another is registered
for the same endpoint: the first frame still goes to the old one, the second to the new one. -/
theorem run_grammar_replaced :
    let greeting := Frame.encode (Hello.format.write (.of ⟨"h", 1⟩))
    let work (task : Task) (n : Nat) := List.replicate n (Move.step task .none)
    let moves := .register ⟨"h", 1⟩ 7 :: work (.registration 0) 4 ++
      .step .acceptor (.incoming 3 ⟨"p", 9⟩) :: work (.receiver 0) 1 ++
      .step (.receiver 0) (.chunk (greeting ++ [0, 0, 0, 1, 5, 0, 0, 0, 1, 6])) ::
      work (.receiver 0) 3 ++ .unregister ⟨"h", 1⟩ :: .register ⟨"h", 1⟩ 8 ::
      work (.registration 1) 4 ++ work (.receiver 0) 4 ++ work (.dispatch 0) 2 ++
      work (.dispatch 1) 1
    let m₀ := new ⟨"a", 2⟩ {} 0
    ∃ m hs, m₀.run moves = some (m, hs) ∧
      callsOn 0 (m₀.transitions moves) = [.next [5], .completed] ∧
      callsOn 1 (m₀.transitions moves) = [.next [6]] ∧
      Grammar m (m₀.transitions moves) 0 ∧ Grammar m (m₀.transitions moves) 1 := by
  intro greeting work moves m₀
  obtain ⟨⟨m, hs⟩, h⟩ : ∃ o, m₀.run moves = some o :=
    Option.isSome_iff_exists.mp (by decide +kernel)
  exact ⟨m, hs, h, by decide +kernel, by decide +kernel, run_grammar h 0, run_grammar h 1⟩

/-- The first of two registrations for one endpoint finds the manager closed when it looks again,
and takes out the entry at its endpoint, which is the second's by now: an observer that nobody has
unregistered is told of the end. -/
theorem completed_by_withdrawal :
    let work (task : Task) (n : Nat) := List.replicate n (Move.step task .none)
    let moves := .register ⟨"h", 1⟩ 7 :: work (.registration 0) 2 ++ .unregister ⟨"h", 1⟩ ::
      .register ⟨"h", 1⟩ 8 :: work (.registration 1) 4 ++ .finish .close :: work (.closing 0) 1 ++
      work (.registration 0) 2 ++ work (.dispatch 1) 1
    let m₀ := new ⟨"a", 2⟩ {} 0
    ∃ m hs, m₀.run moves = some (m, hs) ∧ m.cancelled = false ∧
      (m.registrations[1]?).any (·.stage matches .finished (.ok ())) ∧
      callsOn 1 (m₀.transitions moves) = [.completed] ∧
      ∀ t ∈ m₀.transitions moves, ¬t.Unregisters 1 := by
  intro work moves m₀
  obtain ⟨⟨m, hs⟩, h⟩ : ∃ o, m₀.run moves = some o :=
    Option.isSome_iff_exists.mp (by decide +kernel)
  have hend : (m₀.run moves).map (fun o => (o.1.cancelled,
      (o.1.registrations[1]?).any (·.stage matches .finished (.ok ())))) = some (false, true) := by
    decide +kernel
  rw [h, Option.map_some, Option.some.injEq, Prod.mk.injEq] at hend
  have hkept : ∀ t ∈ m₀.transitions moves, (match t.move with
      | .unregister e => decide (t.before.observers.get? e ≠ some 1)
      | _ => true) = true := by decide +kernel
  refine ⟨m, hs, h, hend.1, hend.2, by decide +kernel, ?_⟩
  rintro t ht ⟨e, hmv, he⟩
  have := hkept t ht
  rw [hmv] at this
  exact absurd he (of_decide_eq_true this)

end PeerLink.Manager
