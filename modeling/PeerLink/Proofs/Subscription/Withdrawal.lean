import PeerLink.Proofs.Subscription.Racing

namespace PeerLink.Manager

def Transition.Spawns (t : Transition) (id : Nat) : Prop :=
  ∃ (a : Answer) (r : Registration) (s : SubscriptionId), t.move = .step (.registration id) a ∧
    t.before.registrations[id]? = some r ∧ r.stage = .spawning s

def Late (s : SubscriptionId) (ts : List Transition) : Prop :=
  ∀ t ∈ ts, t.move = .step (.dispatch s) .none → t.before.cancelled = true

structure Withdrawn (m : Manager) (ts : List Transition) : Prop where
  unspawned : ∀ id : Nat, (∀ r, m.registrations[id]? = some r → r.stage ≠ .finished (.ok ())) →
    ∀ t ∈ ts, ¬t.Spawns id
  unheard : ∀ s b, m.subscriptions[s]? = some b → b.stage = .unstarted → callsOn s ts = []
  refused : ∀ (id : Nat) r error s, m.registrations[id]? = some r →
    r.stage = .finished (.error error) → .entered id r.remote (.ok s) ∈ dealings ts →
    m.observers.get? r.remote ≠ some s ∧ callsOn s ts = [] ∧
      ∃ b, m.subscriptions[s]? = some b ∧ b.stage = .ended

variable {m m' m₁ : Manager} {mv : Move} {hs : List Happening} {id : Nat} {r r₁ : Registration}
  {s : SubscriptionId} {b b₁ : Subscription} {e : Endpoint} {ts : List Transition} {t : Transition}

theorem Withdrawn.new (address : Endpoint) (config : Config) (clock : Nat) :
    Withdrawn (new address config clock) [] := by
  refine ⟨fun _ _ t ht => absurd ht List.not_mem_nil, fun s b hb => ?_,
    fun _ _ _ _ _ _ hd => absurd hd List.not_mem_nil⟩
  simp [Manager.new] at hb

theorem Withdrawn.unspawned_move (h : Withdrawn m ts) (hm : m.move mv = some (m', hs))
    (hn : ∀ r, m'.registrations[id]? = some r → r.stage ≠ .finished (.ok ())) :
    ∀ t ∈ ts ++ [⟨m, mv, m', hs⟩], ¬t.Spawns id := by
  have hold : ∀ r, m.registrations[id]? = some r →
      r.stage ≠ .finished (.ok ()) ∧ ¬(Transition.mk m mv m' hs).Spawns id := by
    intro r hr
    obtain ⟨m₁, rfl, hst, hm'⟩ | ⟨hne, hr'⟩ := move_registration hm hr
    · cases hst with
      | @spawn s he =>
        refine absurd rfl (hn { r with stage := .finished (.ok ()) } ?_)
        rw [hm']
        exact setRegistration_get (m := m.modifySubscription s _) hr _
      | refuse he | enter he | taken he | insert he | withdraw he | confirm he | undo he =>
        refine ⟨fun h => (by cases he.symm.trans h), ?_⟩
        rintro ⟨a, q, u, -, hq, hqs⟩
        cases hr.symm.trans hq
        cases he.symm.trans hqs
    · exact ⟨hn r hr', fun ⟨a, _, _, ha, _⟩ => hne a ha⟩
  intro t ht
  obtain ht | ht := List.mem_append.mp ht
  · exact h.unspawned id (fun r hr => (hold r hr).1) t ht
  · cases List.mem_singleton.mp ht
    rintro ⟨a, r, u, ha, hr, hs'⟩
    exact (hold r hr).2 ⟨a, r, u, ha, hr, hs'⟩

theorem callsOn_stays (hm : m.move mv = some (m', hs)) (hb : m.subscriptions[s]? = some b)
    (hn : b.stage ≠ .running) : callsOn s (ts ++ [⟨m, mv, m', hs⟩]) = callsOn s ts := by
  obtain ⟨m₁, hs₁, hst, -, streams, rfl⟩ := move_stir hm
  obtain ⟨b₁, -, hf⟩ := hst.fate hb
  have hq : (Transition.mk m mv m₁ hs₁).calls s = [] := hf.quiet hn
  rw [callsOn_concat, calls_released m₁, hq, List.append_nil]

theorem Fate.unstarted (h : Fate m s b mv b₁ hs) (hu : b₁.stage = .unstarted) :
    b.stage = .unstarted := by
  cases h with
  | keep | deliver => exact hu
  | push => exact (push_stage _ _).symm.trans hu
  | halt | complete | undo | spawn => cases hu

theorem Withdrawn.unheard_move (h : Withdrawn m ts) (hv : Voiced m ts)
    (hm : m.move mv = some (m', hs)) (hb : m'.subscriptions[s]? = some b₁)
    (hu : b₁.stage = .unstarted) : callsOn s (ts ++ [⟨m, mv, m', hs⟩]) = [] := by
  obtain ⟨m₁, hs₁, hst, hm', streams, rfl⟩ := move_stir hm
  rw [hm'] at hb
  cases hb₀ : m.subscriptions[s]? with
  | none =>
    have hlen := List.getElem?_eq_none_iff.mp hb₀
    rw [callsOn_concat, calls_released m₁, (hv.queued.unmade s hlen).2]
    exact (hst.unmade hv.served.counted hlen).2
  | some b =>
    obtain ⟨b₂, hb₂, hf⟩ := hst.fate hb₀
    cases hb.symm.trans hb₂
    have hu₀ := hf.unstarted hu
    rw [callsOn_stays hm hb₀ (by rw [hu₀]; nofun)]
    exact h.unheard s b hb₀ hu₀

theorem get?_of_entered (ha : Addressed m ts) (hm : m.move mv = some (m', hs))
    {remote : Endpoint} (hd : .entered id remote (.ok s) ∈ dealings ts)
    (hk : m'.observers.get? e = some s) : m.observers.get? e = some s := by
  obtain ⟨b, hb, -⟩ := ha.entered id remote s hd
  have hdeal := move_deals hm
  generalize (Transition.mk m mv m' hs).dealing? = d at hdeal
  cases hdeal with
  | enter _ _ hn _ ho =>
    rw [ho, show _ = _ from Table.get?_insert hn] at hk
    split at hk
    · cases hk
      exact absurd (List.getElem?_eq_some_iff.mp hb).1 (Nat.lt_irrefl _)
    · exact hk
  | undo _ _ ho | remove ho =>
    rw [ho] at hk
    exact (removeObserver_get? hk).1
  | aside ho | turnAway _ _ _ _ ho | find _ _ _ _ ho | miss _ _ _ ho =>
    rw [ho] at hk
    exact hk
  | clear _ _ ho =>
    rw [ho] at hk
    cases hk

theorem Fate.ended (h : Fate m s b mv b₁ hs) (hp : Prepared m) (hb : m.subscriptions[s]? = some b)
    (he : b.stage = .ended) : b₁.stage = .ended := by
  cases h with
  | keep | deliver => exact he
  | push => exact (push_stage _ _).trans he
  | halt | complete | undo => rfl
  | spawn hr hs' =>
    obtain ⟨b', hb', hu⟩ := hp.own _ _ s hr (by rw [hs']; rfl)
    cases hb.symm.trans hb'
    cases he.symm.trans hu

theorem RegistrationStep.withdrawn (h : RegistrationStep m id r m₁)
    (hr : m.registrations[id]? = some r) (hr₁ : m₁.registrations[id]? = some r₁)
    {error : RemoteError} (he : r₁.stage = .finished (.error error)) {remote : Endpoint}
    (ht : r.stage.Informed m.closed r.remote (answersTo id ts))
    (hd : .entered id remote (.ok s) ∈ dealings ts) :
    r.stage = .undoing s ∧ r₁.remote = r.remote ∧
      m₁ = ((m.removeObserver r.remote).modifySubscription s
        fun s => { s with stage := .ended }).setRegistration id (.finished (.error .closed)) := by
  have hmem := mem_answersTo.mpr hd
  cases h with
  | @undo u hu =>
    rw [hu] at ht
    rw [show answersTo id ts = [(r.remote, .ok u)] from ht] at hmem
    cases List.mem_singleton.mp hmem
    rw [removeObserver_scope] at hr₁
    cases (setRegistration_get hr _).symm.trans hr₁
    exact ⟨hu, rfl, rfl⟩
  | refuse hu | taken hu =>
    rw [hu] at ht
    rw [show answersTo id ts = [] from ht] at hmem
    cases hmem
  | insert =>
    cases (setRegistration_get (m := { m with subscriptions := _, observers := _ })
      hr _).symm.trans hr₁
    cases he
  | @spawn u =>
    cases (setRegistration_get (m := m.modifySubscription u _) hr _).symm.trans hr₁
    cases he
  | enter | withdraw | confirm =>
    cases (setRegistration_get hr _).symm.trans hr₁
    cases he

theorem Withdrawn.refused_move (h : Withdrawn m ts) (hv : Voiced m ts) (hi : Informed m ts)
    (ha : Addressed m ts) (hm : m.move mv = some (m', hs)) {error : RemoteError}
    (hr₁ : m'.registrations[id]? = some r₁) (he : r₁.stage = .finished (.error error))
    (hd' : .entered id r₁.remote (.ok s) ∈ dealings (ts ++ [⟨m, mv, m', hs⟩])) :
    m'.observers.get? r₁.remote ≠ some s ∧ callsOn s (ts ++ [⟨m, mv, m', hs⟩]) = [] ∧
      ∃ b, m'.subscriptions[s]? = some b ∧ b.stage = .ended := by
  obtain hd | hd := mem_dealings_concat hd'
  · cases hr : m.registrations[id]? with
    | none =>
      have hn := mem_answersTo.mpr hd
      rw [hi.absent id hr] at hn
      cases hn
    | some r =>
      obtain ⟨m₁, rfl, hst, hm'⟩ | ⟨-, hr'⟩ := move_registration hm hr
      · have hr₂ : m₁.registrations[id]? = some r₁ := by
          rw [hm'] at hr₁
          exact hr₁
        obtain ⟨hu, hrem, rfl⟩ := hst.withdrawn hr hr₂ he (hi.present id r hr) hd
        obtain ⟨b, hb, hstage⟩ := hv.served.prepared.own id r s hr (by rw [hu]; rfl)
        obtain ⟨handles, hb₁⟩ := removeObserver_get (e := r.remote) hb
        refine ⟨fun hk => ?_, ?_, { b with handles, stage := .ended }, ?_, rfl⟩
        · rw [hm', hrem] at hk
          exact (removeObserver_get? hk).2 rfl
        · rw [callsOn_stays hm hb (by rw [hstage]; nofun)]
          exact h.unheard s b hb hstage
        · rw [hm']
          exact modifySubscription_get hb₁
      · cases hr'.symm.trans hr₁
        obtain ⟨hk, hc, b, hb, hstage⟩ := h.refused id r₁ error s hr he hd
        obtain ⟨m₁, hs₁, hst, hm', -⟩ := move_stir hm
        obtain ⟨b₁, hb₁, hf⟩ := hst.fate hb
        refine ⟨fun hk' => hk (get?_of_entered ha hm hd hk'), ?_, b₁, by rw [hm']; exact hb₁,
          hf.ended hv.served.prepared hb hstage⟩
        rw [callsOn_stays hm hb (by rw [hstage]; nofun)]
        exact hc
  · have hdeal := move_deals hm
    rw [hd] at hdeal
    obtain ⟨remote, observer, stage⟩ := r₁
    generalize hs' : s = s' at hdeal
    cases hdeal with
    | enter _ _ _ hr₂ =>
      cases hr₁.symm.trans hr₂
      cases he

theorem Withdrawn.move (h : Withdrawn m ts) (hv : Voiced m ts) (hi : Informed m ts)
    (ha : Addressed m ts) (hm : m.move mv = some (m', hs)) :
    Withdrawn m' (ts ++ [⟨m, mv, m', hs⟩]) :=
  ⟨fun _ hn => h.unspawned_move hm hn, fun _ _ hb hu => h.unheard_move hv hm hb hu,
    fun _ _ _ _ hr he hd => h.refused_move hv hi ha hm hr he hd⟩

theorem Late.callsOn {address : Endpoint} {config : Config} {clock : Nat} {moves : List Move}
    (h : Late s ((new address config clock).transitions moves)) :
    callsOn s ((new address config clock).transitions moves) = [] := by
  refine List.flatMap_eq_nil_iff.mpr fun t ht => Decidable.byContradiction fun hc => ?_
  obtain ⟨ts₁, ts₂, hts⟩ := List.append_of_mem ht
  obtain ⟨-, -, -, -, hm⟩ := run_of_transitions hts
  obtain ⟨m₁, hs₁, hst, hcalls⟩ := Transition.calls_stir (s := s) hm
  rw [hcalls] at hc
  obtain ⟨b, hmv, -, hd⟩ := hst.calls hc
  cases hd with
  | halt => exact hc rfl
  | deliver _ hcan | complete _ hcan => cases hcan.symm.trans (h t ht hmv)

/-- What registrations and calls for links leave behind that race with a closing, when nobody takes
observers out of the table otherwise. -/
structure Raced (m : Manager) (ts : List Transition) : Prop where
  /-- Once both tables have been cleared and all calls have returned, both are empty, and stay so
  whatever comes. -/
  empty : Emptied ts → m.Rests → ∀ more m' hs, m.run more = some (m', hs) →
    m'.observers = {} ∧ m'.links = {}
  /-- The entry of a registration that succeeded was in the table when it was cleared, and was taken
  out by that; a dispatch that starts late calls nobody. -/
  kept : ∀ (id : Nat) r, m.registrations[id]? = some r → r.stage = .finished (.ok ()) →
    ∃ s, answersTo id ts = [(r.remote, .ok s)] ∧
      (Swept ts → (∀ e, m.observers.get? e ≠ some s) ∧ ∃ t ∈ ts, t.before.Sweeps t.move ∧
        t.before.observers.get? r.remote = some s ∧ t.after.observers = {}) ∧
      (Late s ts → callsOn s ts = [])
  /-- A registration that was refused has started no dispatch, and what it entered, if anything, is
  not in the table and not called. -/
  refused : ∀ (id : Nat) r error, m.registrations[id]? = some r →
    r.stage = .finished (.error error) →
      (error = .closed ∨ error = .alreadyRegistered r.remote) ∧ (∀ t ∈ ts, ¬t.Spawns id) ∧
      ∀ s, (r.remote, .ok s) ∈ answersTo id ts →
        (∀ e, m.observers.get? e ≠ some s) ∧ callsOn s ts = []
  /-- Of two registrations for one endpoint, one fails. -/
  single : ∀ (i j : Nat) r r', m.registrations[i]? = some r → m.registrations[j]? = some r' →
    r.stage = .finished (.ok ()) → r'.stage = .finished (.ok ()) → r.remote = r'.remote → i = j

theorem Informed.holds (h : Informed m ts) (hr : m.registrations[id]? = some r)
    (hs : r.stage = .finished (.ok ())) :
    ∃ s, answersTo id ts = [(r.remote, .ok s)] ∧ Holds m ts id r s := by
  have ht := h.present id r hr
  rw [hs] at ht
  obtain ⟨s, ht⟩ := ht
  refine ⟨s, ht, hr, mem_answersTo.mp ?_, fun error he => by cases he.symm.trans hs⟩
  rw [ht]
  exact List.mem_singleton_self _

structure Racing (m : Manager) (ts : List Transition) : Prop where
  voiced : Voiced m ts
  informed : Informed m ts
  addressed : Addressed m ts
  leftover : Leftover m ts
  race : Race m ts
  withdrawn : Withdrawn m ts

theorem Racing.move (h : Racing m ts) (hm : m.move mv = some (m', hs))
    (hu : ∀ e, mv ≠ .unregister e) : Racing m' (ts ++ [⟨m, mv, m', hs⟩]) where
  voiced := h.voiced.move hm
  informed := h.informed.move h.voiced.served.prepared hm
  addressed := h.addressed.move hm
  leftover := h.leftover.move h.voiced.served.flagged hm
  race := h.race.move h.voiced h.informed h.addressed hm hu
  withdrawn := h.withdrawn.move h.voiced h.informed h.addressed hm

section Runs

variable {address : Endpoint} {config : Config} {clock : Nat} {moves : List Move}

theorem run_racing (h : (new address config clock).run moves = some (m, hs))
    (hu : ∀ e, .unregister e ∉ moves) : Racing m ((new address config clock).transitions moves) := by
  refine run_induction
    (P := fun m ts => (∀ t ∈ ts, ∀ e, t.move ≠ .unregister e) → Racing m ts)
    (fun _ => ⟨.new address config clock, .new address config clock, .new address config clock,
      .new address config clock, .new address config clock, .new address config clock⟩)
    (fun m ts mv m' hs hi hm hu => ?_) h fun t ht e he => ?_
  · refine (hi fun t ht => hu t (List.mem_append_left _ ht)).move hm ?_
    exact hu ⟨m, mv, m', hs⟩ List.mem_concat_self
  · exact hu e (he ▸ mem_of_mem_transitions ht)

theorem Racing.silenced (h : Racing m ts) (he : Emptied ts) (hr : m.Rests) : Silenced m where
  rests := hr
  closed := h.leftover.closed he
  cancelled := h.race.cancelled (h.race.emptied he)
  observers := by
    refine Table.eq_empty fun e => Option.eq_none_iff_forall_ne_some.mpr fun s hk => ?_
    obtain ⟨id, r, hh, -, hn⟩ := h.race.left (h.race.emptied he) e s hk
    have hrest := hr.registrations id r hh.present
    obtain hs | hs | hs | hs := hh.stage h.informed <;> rw [hs] at hrest hn
    · exact hrest
    · exact hrest
    · exact hrest
    · exact hn trivial
  links := h.leftover.empty he hr

/-- Nothing survives a registration or a call for a link that races with a closing, however their
steps fall. -/
theorem run_raced (h : (new address config clock).run moves = some (m, hs))
    (hu : ∀ e, .unregister e ∉ moves) : Raced m ((new address config clock).transitions moves) := by
  have hrace := run_racing h hu
  refine ⟨fun he hr more m' hs hmore => ?_, fun id r hr hs => ?_, fun id r error hr hs => ?_,
    fun i j r r' hr hr' hs hs' hrem => ?_⟩
  · obtain ⟨hsil, -⟩ := (hrace.silenced he hr).run hmore
    exact ⟨hsil.observers, hsil.links⟩
  · obtain ⟨s, htold, hh⟩ := hrace.informed.holds hr hs
    have hconf : r.stage.Confirmed := by
      rw [hs]
      trivial
    refine ⟨s, htold, fun hsw => ⟨fun e hk => ?_, ?_⟩, Late.callsOn⟩
    · obtain ⟨j, q, hq, -, hn⟩ := hrace.race.left hsw e s hk
      obtain rfl := hrace.addressed.once j id _ _ s hq.entered hh.entered
      cases hr.symm.trans hq.present
      exact hn hconf
    · obtain ⟨t, ht, hsweep, hk⟩ := hrace.race.after hsw id r s hh hconf
      obtain ⟨ts₁, ts₂, hts⟩ := List.append_of_mem ht
      obtain ⟨-, -, -, -, hm⟩ := run_of_transitions hts
      exact ⟨t, ht, hsweep, hk, hsweep.observers hm⟩
  · have ht := hrace.informed.present id r hr
    rw [hs] at ht
    refine ⟨ht.symm.imp And.left And.left, hrace.withdrawn.unspawned id fun q hq he => ?_,
      fun s hd => ?_⟩
    · cases hr.symm.trans hq
      cases hs.symm.trans he
    · have hd := mem_answersTo.mp hd
      obtain ⟨hk, hc, -⟩ := hrace.withdrawn.refused id r error s hr hs hd
      refine ⟨fun e he => hk ?_, hc⟩
      obtain ⟨b, hb, rfl⟩ := hrace.addressed.listed e s he
      obtain ⟨b', hb', hrem⟩ := hrace.addressed.entered id r.remote s hd
      cases hb.symm.trans hb'
      rw [← hrem]
      exact he
  · obtain ⟨s, -, hh⟩ := hrace.informed.holds hr hs
    obtain ⟨s', -, hh'⟩ := hrace.informed.holds hr' hs'
    exact hrace.race.single i j r r' s s' hh hh' (by rw [hs]; trivial) (by rw [hs']; trivial) hrem

end Runs

/-- Two registrations for one endpoint, of which the first is in time; one for another endpoint and a
call for a link that look at the flag before the closing and come to the tables after it. -/
theorem run_raced_late :
    let work (task : Task) (n : Nat) := List.replicate n (Move.step task .none)
    let moves := .register ⟨"h", 1⟩ 7 :: .register ⟨"h", 1⟩ 8 :: .register ⟨"h", 0⟩ 9 ::
      .open ⟨"h", 1⟩ :: work (.registration 0) 3 ++ work (.registration 1) 1 ++
      work (.registration 2) 1 ++ work (.opening 0) 1 ++ .finish .close :: work (.closing 0) 1 ++
      work (.registration 1) 1 ++ work (.closing 0) 4 ++ work (.registration 2) 1 ++
      work (.opening 0) 1 ++ work (.registration 0) 1 ++ work (.dispatch 0) 1 ++
      work (.registration 2) 2 ++ work (.opening 0) 2
    let m₀ := new ⟨"a", 2⟩ {} 0
    ∃ m hs, m₀.run moves = some (m, hs) ∧ (∀ e, .unregister e ∉ moves) ∧
      Raced m (m₀.transitions moves) ∧ m.observers = {} ∧ m.links = {} ∧
      answersTo 0 (m₀.transitions moves) = [(⟨"h", 1⟩, .ok 0)] ∧
      answersTo 1 (m₀.transitions moves) =
        [(⟨"h", 1⟩, .error (.alreadyRegistered ⟨"h", 1⟩))] ∧
      answersTo 2 (m₀.transitions moves) = [(⟨"h", 0⟩, .ok 1)] := by
  intro work moves m₀
  obtain ⟨⟨m, hs⟩, h⟩ : ∃ o, m₀.run moves = some o :=
    Option.isSome_iff_exists.mp (by decide +kernel)
  have hu : ∀ e, .unregister e ∉ moves := by
    intro e he
    simp [moves, work] at he
  have hclear : ((m₀.transitions moves)[16]?).map
      (fun t => (t.move.task?, t.before.closings[0]?)) =
      some (some (.closing 0), some ⟨.close, .clearingLinks []⟩) := by decide +kernel
  have hstages : (m₀.run moves).all (fun o => o.1.sends.length = 0 &&
      o.1.openings.all (fun o => o.stage = .refused) &&
      o.1.registrations.all (fun r => r.stage.Rests)) = true := by decide +kernel
  obtain ⟨t, ht, he⟩ := Option.map_eq_some_iff.mp hclear
  obtain ⟨htask, hc⟩ := Prod.mk.inj he
  obtain ⟨a, ha⟩ := Move.eq_step_of_task? htask
  have hemptied : Emptied (m₀.transitions moves) :=
    ⟨t, List.mem_of_getElem? ht, 0, a, _, [], ha, hc, rfl⟩
  rw [h] at hstages
  simp only [Option.all_some, Bool.and_eq_true, List.all_eq_true, decide_eq_true_eq] at hstages
  obtain ⟨⟨hnone, ho⟩, hr⟩ := hstages
  have hrest : m.Rests := by
    refine ⟨fun i s hi => ?_, fun i o hi => ?_, fun i r hi => hr r (List.mem_of_getElem? hi)⟩
    · simp [List.length_eq_zero_iff.mp hnone] at hi
    · rw [ho o (List.mem_of_getElem? hi)]
      trivial
  have hraced := run_raced h hu
  obtain ⟨hobs, hlinks⟩ := hraced.empty hemptied hrest [] m [] rfl
  exact ⟨m, hs, h, hu, hraced, hobs, hlinks, by decide +kernel, by decide +kernel, by decide +kernel⟩

end PeerLink.Manager
