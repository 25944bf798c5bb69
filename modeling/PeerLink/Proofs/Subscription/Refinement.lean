import PeerLink.Proofs.Manager.Reaping
import PeerLink.Proofs.Subscription.Routes

namespace PeerLink.Manager

variable {m m' m₁ : Manager} {mv : Move} {hs hs₁ : List Happening} {id : Nat} {a : Answer}
  {ts : List Transition} {t : Transition} {s : SubscriptionId} {b b₁ : Subscription}
  {e k : Endpoint} {r r₁ : Receiver}

theorem move_of_turnedAway {error : RemoteError} (hm : m.move mv = some (m', hs)) (ht : Tidy m)
    (hd : (Transition.mk m mv m' hs).dealing? = some (.entered id e (.error error))) :
    m' = m.setRegistration id (.finished (.error error)) ∧ hs = [] := by
  have hdeal := move_deals hm
  rw [hd] at hdeal
  cases hdeal with
  | @turnAway _ r _ _ hr hs hk =>
    have ht' : Tidy (m.setRegistration id (.finished (.error (.alreadyRegistered r.remote)))) :=
      ht.of_refersTo rfl fun _ h => h
    simp only [Manager.move, step, if_true, registrationStep, hr, Option.bind_eq_bind,
      Option.bind_some, hs, hk, Option.pure_def, Option.map_some, reap_of_tidy ht'] at hm
    cases hm
    exact ⟨rfl, rfl⟩

theorem move_of_unregister (hm : m.move (.unregister e) = some (m', hs)) :
    m' = { m with observers := m'.observers, subscriptions := m'.subscriptions } ∧
      m'.routes = Function.update m.routes e none ∧
      ∀ s b, m.subscriptions[s]? = some b → ∃ handles,
        m'.subscriptions[s]? = some { b with handles } ∧
          (m.observers.get? e ≠ some s → handles = b.handles) := by
  have hm' : m.removeObserver e = m' := congrArg Prod.fst (Option.some.inj hm)
  subst hm'
  refine ⟨removeObserver_scope e, routes_removeObserver rfl, fun s b hb => ?_⟩
  rw [removeObserver]
  split
  · exact ⟨b.handles, hb, fun _ => rfl⟩
  · next u hu =>
    by_cases hs : s = u
    · subst hs
      exact ⟨_, modifySubscription_get hb, fun hn => absurd hu hn⟩
    · exact ⟨b.handles, (modifySubscription_get_ne hs).trans hb, fun _ => rfl⟩

theorem move_of_missed {source : Endpoint} {item : Item} (hm : m.move mv = some (m', hs))
    (ht : Tidy m)
    (hd : (Transition.mk m mv m' hs).dealing? = some (.routed id source item none)) :
    m' = { m with receivers := m'.receivers, established := m'.established } ∧ Still hs := by
  have hdeal := move_deals hm
  rw [hd] at hdeal
  cases hdeal with
  | @miss _ r src rd _ rt _ hr hs hk =>
    have hstep : m.routingStep id r source rd item rt = m.afterRouting id r source rd item [] := by
      obtain ⟨rfl, hn, hw⟩ | ⟨rfl, hn⟩ := hk <;> simp [routingStep, findQueue, *]
    have hmove : m.move (.step (.receiver id) .none) =
        some (m.afterRouting id r source rd item []) := by
      rw [move_receiver_eq ht]
      simp [receiverStep, hr, hs, hstep]
    obtain ⟨stage, established, released, -, hstill, he⟩ :=
      afterRouting_eq m id r source rd item []
    rw [hmove, he] at hm
    cases hm
    exact ⟨rfl, hstill⟩

theorem move_of_enqueued {item : Item} (hm : m.move mv = some (m', hs)) (hsv : Served m)
    (ho : m.closed = false) (hi : .enqueued s item ∈ hs) :
    m'.subscriptions = m.subscriptions.modify s fun b =>
      { b with queue := b.queue ++ [item], handles := b.handles - 1 } := by
  obtain ⟨m₁, hs₁, hst, hm', streams, rfl⟩ := move_stir hm
  have hi : .enqueued s item ∈ hs₁ := (List.mem_append.mp hi).resolve_right fun hr =>
    Still.released streams _ hr trivial
  rw [hm']
  cases hst with
  | aside _ _ _ hq | read _ _ _ hq => exact absurd trivial (hq _ hi)
  | @hand _ _ _ _ _ _ _ _ _ hr hs' _ hq =>
    obtain he | hi := List.mem_cons.mp hi
    · cases he
      obtain ⟨b, hb, hn⟩ := hsv.used ho s (uses_pos_of_handing hr (by rw [hs']; rfl))
      refine List.ext_getElem? fun i => ?_
      by_cases his : i = s
      · subst his
        simp [setReceiver, dropHandle, modifySubscription, hb, Subscription.push, if_neg hn]
      · simp [setReceiver, dropHandle, modifySubscription, Ne.symm his]
    · exact absurd trivial (hq _ hi)
  | dispatch _ h => cases h <;> simp at hi
  | unregister => simp at hi
  | _ => cases hi

def RegistrationStage.rank : RegistrationStage → Nat
  | .checking => 4
  | .inserting => 3
  | .confirming _ => 2
  | .undoing _ => 1
  | .spawning _ => 1
  | .finished _ => 0

def ReceiverStage.rank : ReceiverStage → Nat
  | .routing _ _ _ .exact => 3
  | .routing _ _ _ .wildcard => 2
  | .routing _ _ _ (.handing _) => 1
  | _ => 0

theorem RegistrationStep.lowers {q : Registration} (h : RegistrationStep m id q m₁)
    (hq : m.registrations[id]? = some q) :
    ∃ stage, m₁.registrations[id]? = some { q with stage } ∧ stage.rank < q.stage.rank := by
  cases h with
  | insert hs =>
    rw [hs]
    exact ⟨_, setRegistration_get (m := { m with subscriptions := _, observers := _ }) hq _,
      by simp [RegistrationStage.rank]⟩
  | undo hs =>
    rw [removeObserver_scope, hs]
    exact ⟨_, setRegistration_get hq _, by simp [RegistrationStage.rank]⟩
  | @spawn s hs =>
    rw [hs]
    exact ⟨_, setRegistration_get (m := m.modifySubscription s _) hq _, by simp [RegistrationStage.rank]⟩
  | refuse hs | enter hs | taken hs | withdraw hs | confirm hs =>
    rw [hs]
    exact ⟨_, setRegistration_get hq _, by simp [RegistrationStage.rank]⟩

theorem registration_advances {q : Registration} (hq : m.registrations[id]? = some q)
    (hn : 0 < q.stage.rank) : ∃ m' hs stage,
      m.move (.step (.registration id) .none) = some (m', hs) ∧
      m'.registrations[id]? = some { q with stage } ∧ stage.rank < q.stage.rank := by
  obtain ⟨o, ho⟩ : ∃ o, m.registrationStep id = some o := by
    refine Option.isSome_iff_exists.mp ?_
    cases hs : q.stage with
    | finished => simp [hs, RegistrationStage.rank] at hn
    | inserting => cases hk : m.observers.get? q.remote <;> simp [registrationStep, hq, hs, hk]
    | _ => simp [registrationStep, hq, hs]
  obtain ⟨q', hq', -, hst⟩ := registrationStep_cases ho
  cases hq.symm.trans hq'
  obtain ⟨stage, hq₁, hlt⟩ := hst.lowers hq
  obtain ⟨⟨m', hs⟩, hp⟩ : ∃ p, reap o = p := ⟨_, rfl⟩
  refine ⟨m', hs, stage, ?_, ?_, hlt⟩
  · simp [Manager.move, step, ho, hp]
  · rw [reap_scope hp]
    exact hq₁

theorem registration_finishes {q : Registration} (hq : m.registrations[id]? = some q) :
    ∃ n m' hs result, m.run (List.replicate n (.step (.registration id) .none)) = some (m', hs) ∧
      m'.registrations[id]? = some { q with stage := .finished result } := by
  obtain ⟨n, hn⟩ : ∃ n, q.stage.rank = n := ⟨_, rfl⟩
  induction n using Nat.strongRecOn generalizing m q with
  | ind n ih =>
    by_cases hz : 0 < q.stage.rank
    · obtain ⟨m₁, hs₁, stage, hm, hq₁, hlt⟩ := registration_advances hq hz
      obtain ⟨i, m', hs, result, hrun, hq'⟩ := ih stage.rank (hn ▸ hlt) hq₁ rfl
      exact ⟨i + 1, m', hs₁ ++ hs, result, run_cons.mpr ⟨m₁, hs₁, hs, hm, hrun, rfl⟩, hq'⟩
    · cases hs : q.stage with
      | finished result => exact ⟨0, m, [], result, rfl, by rw [hq, ← hs]⟩
      | _ => simp [hs, RegistrationStage.rank] at hz

theorem routingStep_lowers (hr : m.receivers[id]? = some r) (src : Endpoint) (rd : Reading)
    (item : Item) (rt : Routing) : ∃ stage,
      (m.routingStep id r src rd item rt).1.receivers[id]? = some { r with stage } ∧
      stage.rank < (ReceiverStage.routing src rd item rt).rank := by
  have hdone : ∀ n : Manager, n.receivers[id]? = some r → ∀ xs, ∃ stage,
      (n.afterRouting id r src rd item xs).1.receivers[id]? = some { r with stage } ∧
        stage.rank = 0 := fun n hn xs => by
    obtain ⟨stage, -, hst, -, hr₁, -⟩ := afterRouting_get hn src rd item xs
    exact ⟨stage, hr₁, by obtain rfl | rfl := hst <;> rfl⟩
  have hfound : ∀ key n s, m.findQueue key = some (n, s) → n.receivers[id]? = some r :=
    fun key n s hf => by
      obtain ⟨t, -, hf⟩ := Option.map_eq_some_iff.mp hf
      cases hf
      exact hr
  cases rt with
  | exact =>
    simp only [routingStep]
    split
    · next n s hf => exact ⟨_, setReceiver_get (hfound _ n s hf) _, by simp [ReceiverStage.rank]⟩
    · split
      · obtain ⟨stage, hr₁, hz⟩ := hdone m hr []
        exact ⟨stage, hr₁, by rw [hz]; simp [ReceiverStage.rank]⟩
      · exact ⟨_, setReceiver_get hr _, by simp [ReceiverStage.rank]⟩
  | wildcard =>
    simp only [routingStep]
    split
    · next n s hf => exact ⟨_, setReceiver_get (hfound _ n s hf) _, by simp [ReceiverStage.rank]⟩
    · obtain ⟨stage, hr₁, hz⟩ := hdone m hr []
      exact ⟨stage, hr₁, by rw [hz]; simp [ReceiverStage.rank]⟩
  | handing s =>
    obtain ⟨stage, hr₁, hz⟩ :=
      hdone ((m.modifySubscription s (·.push item)).dropHandle s) hr [.enqueued s item]
    exact ⟨stage, hr₁, by rw [hz]; simp [ReceiverStage.rank]⟩

theorem receiver_finishes (hr : m.receivers[id]? = some r) :
    ∃ n m' hs stage, m.run (List.replicate n (.step (.receiver id) .none)) = some (m', hs) ∧
      m'.receivers[id]? = some { r with stage } ∧ stage.rank = 0 := by
  obtain ⟨n, hn⟩ : ∃ n, r.stage.rank = n := ⟨_, rfl⟩
  induction n using Nat.strongRecOn generalizing m r with
  | ind n ih =>
    cases hs : r.stage with
    | routing src rd item rt =>
      obtain ⟨stage, hr₁, hlt⟩ := routingStep_lowers hr src rd item rt
      obtain ⟨⟨m₁, hs₁⟩, hp⟩ : ∃ p, reap (m.routingStep id r src rd item rt) = p := ⟨_, rfl⟩
      have hm : m.move (.step (.receiver id) .none) = some (m₁, hs₁) := by
        simp [Manager.move, step, receiverStep, hr, hs, hp]
      have hr₁' : m₁.receivers[id]? = some { r with stage } := by
        rw [reap_scope hp]
        exact hr₁
      obtain ⟨i, m', hs', stage', hrun, hr', hz⟩ :=
        ih stage.rank (by rw [← hn, hs]; exact hlt) hr₁' rfl
      exact ⟨i + 1, m', hs₁ ++ hs', stage', run_cons.mpr ⟨m₁, hs₁, hs', hm, hrun, rfl⟩, hr', hz⟩
    | _ => exact ⟨0, m, [], r.stage, rfl, hr, by rw [hs]; rfl⟩

section Runs

variable {address : Endpoint} {config : Config} {clock : Nat} {moves : List Move}

theorem run_sorted (h : (new address config clock).run moves = some (m, hs)) (id : Nat) :
    Sorted id m ((new address config clock).transitions moves) :=
  (run_induction (P := fun m ts => Received id m ts ∧ Sorted id m ts)
    ⟨.new id address config clock, .new id address config clock⟩
    (fun _ _ _ _ _ hi hm => ⟨hi.1.move hm, hi.2.move hi.1 hm⟩) h).2

theorem run_routed (h : (new address config clock).run moves = some (m, hs)) (ho : m.closed = false)
    (hu : Unparted ((new address config clock).transitions moves)) :
    Routed m ((new address config clock).transitions moves) := by
  refine (run_induction (P := fun m ts =>
    Served m ∧ (m.closed = false → Unparted ts → Routed m ts)) ?_ ?_ h).2 ho hu
  · exact ⟨.new address config clock, fun _ _ => .new address config clock⟩
  · rintro m ts mv m' hs ⟨hsv, hi⟩ hm
    refine ⟨hsv.move hm, fun ho hu => ?_⟩
    have hi := hi ((move_later hm).opened ho) fun t ht => hu t (List.mem_append_left _ ht)
    exact hi.move hm hsv ho (hu _ List.mem_concat_self)

theorem observerCount_eq (h : m.observers.Keyed) :
    m.observerCount = {e | m.routes e ≠ none}.ncard := by
  have hset : {e | m.routes e ≠ none} = ↑(m.observers.entries.map Prod.fst).toFinset := by
    ext e
    simp only [List.coe_toFinset, Set.mem_ofPred_eq, List.mem_map]
    constructor
    · intro he
      obtain ⟨s, hs⟩ := Option.ne_none_iff_exists'.mp he
      exact ⟨(e, s), Table.mem_of_get? hs, rfl⟩
    · rintro ⟨⟨e, s⟩, he, rfl⟩
      exact Option.ne_none_iff_exists'.mpr ⟨s, h.get? he⟩
  rw [hset, Set.ncard_coe_finset, List.toFinset_card_of_nodup h, List.length_map]
  rfl

/-- How the observer table goes together with the dealings with it. -/
structure Refines (m : Manager) (ts : List Transition) : Prop where
  /-- Every dealing gets the answer of the map that those before it have left behind. -/
  answers : ∀ ds₁ d ds₂, dealings ts = ds₁ ++ d :: ds₂ → (routesAfter ds₁).Answers d
  /-- The table is the map that they all have left behind. -/
  table : ∀ e, m.observers.get? e = routesAfter (dealings ts) e
  count : m.observerCount = {e | routesAfter (dealings ts) e ≠ none}.ncard
  /-- A subscription in the map is that of its endpoint, and keeps in its queue what has come into it
  and has not gone on to its observer. -/
  live : ∀ e s, routesAfter (dealings ts) e = some s →
    ∃ b, m.subscriptions[s]? = some b ∧ b.remote = e ∧ b.stage ≠ .ended ∧
      (queuedTo s ts).map callbackOf = callsOn s ts ++ b.queue.map Item.callback
  /-- Whatever a receiver hands over is looked up once and in that order, and comes into the queue of
  the subscription found for it and into no other. -/
  sorted : ∀ (id : Nat) r, m.receivers[id]? = some r →
    ts.flatMap (·.handed id) = (routedBy id ts).map Prod.fst ++ r.stage.sought ∧
      ∀ s, routedTo s (routedBy id ts) = passedTo id s ts ++ r.stage.offered s
  /-- A subscription that is found is for exactly the source or for its host. -/
  suits : ∀ id source item s, .routed id source item (some s) ∈ dealings ts →
    ∃ b, m.subscriptions[s]? = some b ∧ (b.remote = source ∨ b.remote = source.toWildcard)
  /-- A registration returns the one answer that it has got from the table. -/
  returned : ∀ (id : Nat) r result, m.registrations[id]? = some r → r.stage = .finished result →
    ∃ answer, answersTo id ts = [(r.remote, answer)] ∧ result = answer.map fun _ => ()
  /-- One that is turned away changes nothing. -/
  turnedAway : ∀ t ∈ ts, ∀ id e error, t.dealing? = some (.entered id e (.error error)) →
    t.after = t.before.setRegistration id (.finished (.error error)) ∧ t.happenings = []
  /-- Unregistering changes one entry, and of its subscription only that it has one handle less. -/
  unregistered : ∀ t ∈ ts, ∀ e, t.move = .unregister e →
    t.after = { t.before with
        observers := t.after.observers
        subscriptions := t.after.subscriptions } ∧
      t.after.routes = Function.update t.before.routes e none ∧
      ∀ s b, t.before.subscriptions[s]? = some b → ∃ handles,
        t.after.subscriptions[s]? = some { b with handles } ∧
          (t.before.observers.get? e ≠ some s → handles = b.handles)
  /-- An item for which there is no subscription goes nowhere. -/
  missed : ∀ t ∈ ts, ∀ id source item, t.dealing? = some (.routed id source item none) →
    t.after = { t.before with
        receivers := t.after.receivers
        established := t.after.established } ∧ Still t.happenings
  /-- An item that comes into a queue comes to its end, and into no other. -/
  enqueued : ∀ t ∈ ts, ∀ s item, .enqueued s item ∈ t.happenings →
    t.after.subscriptions = t.before.subscriptions.modify s fun b =>
      { b with queue := b.queue ++ [item], handles := b.handles - 1 }

/-- The observer table of an open manager is a map from endpoints to subscriptions, however
registering, unregistering and receiving go on. Calls return, and items that are handed over get to
where they belong, whenever the tasks take their steps. -/
theorem observers_refine_routes (h : (new address config clock).run moves = some (m, hs))
    (ho : m.closed = false) (hu : Unparted ((new address config clock).transitions moves)) :
    Refines m ((new address config clock).transitions moves) ∧
      (∀ (id : Nat) r, m.registrations[id]? = some r → ∃ n m' hs' result,
        m.run (List.replicate n (.step (.registration id) .none)) = some (m', hs') ∧
          m'.registrations[id]? = some { r with stage := .finished result }) ∧
      ∀ (id : Nat) r, m.receivers[id]? = some r → ∃ n m' hs' stage,
        m.run (List.replicate n (.step (.receiver id) .none)) = some (m', hs') ∧
          m'.receivers[id]? = some { r with stage } ∧ stage.rank = 0 := by
  have hrouted := run_routed h ho hu
  obtain ⟨hsv, hq⟩ := run_served h
  have haddr := run_addressed h
  have htable : ∀ e, m.observers.get? e = routesAfter (dealings _) e := congrFun hrouted.table
  have hmove : ∀ t ∈ (new address config clock).transitions moves,
      t.before.move t.move = some (t.after, t.happenings) ∧ Served t.before ∧ Tidy t.before ∧
        t.before.closed = false := fun t ht => by
    obtain ⟨ts₁, ts₂, hts⟩ := List.append_of_mem ht
    obtain ⟨moves₁, moves₂, hs₁, hs₂, hr₁, -, hm, hr₂, -⟩ := run_split h hts
    exact ⟨hm, (run_served hr₁).1, run_tidy hr₁,
      ((move_later hm).trans (run_later hr₂)).opened ho⟩
  refine ⟨{
    answers := hrouted.answers
    table := htable
    count := by rw [← hrouted.table, observerCount_eq hsv.counted.keyed]
    live := fun e s hes => ?_
    sorted := fun id r hr => ⟨(run_sorted h id).sought r hr, fun s => (run_sorted h id).offered r s hr⟩
    suits := haddr.found
    returned := fun id r result hr hst => ?_
    turnedAway := fun t ht id e error hd =>
      have ⟨hm, _, htidy, _⟩ := hmove t ht
      move_of_turnedAway hm htidy hd
    unregistered := fun t ht e he => move_of_unregister (he ▸ (hmove t ht).1)
    missed := fun t ht id source item hd =>
      have ⟨hm, _, htidy, _⟩ := hmove t ht
      move_of_missed hm htidy hd
    enqueued := fun t ht s item hi =>
      have ⟨hm, hsv, _, ho⟩ := hmove t ht
      move_of_enqueued hm hsv ho hi },
    fun id r hr => registration_finishes hr, fun id r hr => receiver_finishes hr⟩
  · have hes := (htable e).trans hes
    obtain ⟨b, hb, he⟩ := haddr.listed e s hes
    obtain ⟨b', hb', hn⟩ := hsv.listed ho e s hes
    cases hb.symm.trans hb'
    exact ⟨b, hb, he, hn, hq.first s b hb hn⟩
  · have hi := (run_informed h).present id r hr
    rw [hst] at hi
    cases result with
    | ok =>
      obtain ⟨s, hs⟩ := hi
      exact ⟨_, hs, rfl⟩
    | error error =>
      obtain ⟨-, hs⟩ | ⟨-, hc, -⟩ := hi
      · exact ⟨_, hs, rfl⟩
      · cases ho.symm.trans hc

end Runs

theorem observers_refine_routes_wildcard :
    let b : Endpoint := ⟨"b", 1⟩
    let host : Endpoint := ⟨"b", 0⟩
    let work (task : Task) (n : Nat) := List.replicate n (Move.step task .none)
    let call (n : Nat) (e : Endpoint) :=
      .register e n :: work (.registration n) (if n = 2 then 2 else 4)
    let arrive (n : Nat) (e : Endpoint) (bytes : Bytes) :=
      .step .acceptor (.incoming n ⟨"p", 9⟩) :: work (.receiver n) 1 ++
        .step (.receiver n) (.chunk (Frame.encode (Hello.format.write (.of e)) ++ bytes)) ::
          work (.receiver n) 2
    let moves := call 0 b ++ call 1 host ++ call 2 b ++
      arrive 0 b [0, 0, 0, 1, 5] ++ work (.receiver 0) 2 ++
      arrive 1 ⟨"b", 7⟩ [0, 0, 0, 1, 6] ++ work (.receiver 1) 3 ++
      arrive 2 ⟨"c", 3⟩ [0, 0, 0, 1, 7] ++ work (.receiver 2) 2 ++
      .unregister b :: work (.receiver 0) 1 ++
      .step (.receiver 0) (.chunk [0, 0, 0, 1, 8]) :: work (.receiver 0) 4 ++ [.unregister b]
    ∃ m hs, (new ⟨"a", 2⟩ {} 0).run moves = some (m, hs) ∧ m.closed = false ∧
      dealings ((new ⟨"a", 2⟩ {} 0).transitions moves) =
        [.entered 0 b (.ok 0), .entered 1 host (.ok 1),
          .entered 2 b (.error (.alreadyRegistered b)), .routed 0 b (.frame [5]) (some 0),
          .routed 1 ⟨"b", 7⟩ (.frame [6]) (some 1), .routed 2 ⟨"c", 3⟩ (.frame [7]) none,
          .unregistered b true, .routed 0 b (.frame [8]) (some 1), .unregistered b false] ∧
      Refines m ((new ⟨"a", 2⟩ {} 0).transitions moves) := by
  intro b host work call arrive moves
  obtain ⟨⟨m, hs⟩, h⟩ : ∃ o, (new ⟨"a", 2⟩ {} 0).run moves = some o :=
    Option.isSome_iff_exists.mp (by decide +kernel)
  have ho : ((new ⟨"a", 2⟩ {} 0).run moves).map (fun o => o.1.closed) = some false := by
    decide +kernel
  rw [h] at ho
  have ho : m.closed = false := by simpa using ho
  have hu : ∀ t ∈ (new ⟨"a", 2⟩ {} 0).transitions moves,
      (∃ r ∈ t.before.receivers, r.stage.Widens) →
        t.after.observers.entries = t.before.observers.entries := by decide +kernel
  have hrefines := (observers_refine_routes h ho fun t ht hw => congrArg Table.mk (hu t ht hw)).1
  exact ⟨m, hs, h, ho, by decide +kernel, hrefines⟩

end PeerLink.Manager
