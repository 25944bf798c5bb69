import PeerLink.Proofs.Receiver.Clocked

namespace PeerLink.Manager

open PeerLink.Frame (parse)

variable {f : Inflow} {m : Manager} {hs done : List Happening} {max d now id : Nat}
  {r : Receiver} {a : Answer} {peer : Endpoint} {stream : StreamId} {reads : List Answer}
  {live : Prop} {stage : ReceiverStage} {rd : Reading} {ts : List Transition} {t : Transition}
  {address : Endpoint} {config : Config} {clock : Nat} {moves : List Move}

theorem OnTime.greets (h : OnTime f max d peer stream now reads done live stage) (hl : live) :
    f.Greets max d := by
  cases stage with
  | opening => exact h.elim
  | greeting t rd => exact absurd hl h.2.2
  | receiving source rd => exact h.2
  | routing source rd item rt =>
    cases item with
    | frame body => exact h.2
    | failure error => exact h.2.1
  | ended => exact h.elim (·.2.1) fun hn => absurd hl hn.1

theorem OnTime.stays (h : OnTime f max d peer stream now reads done live stage) (hl : live) :
    stage.Live ∨ f.Breaks max now := by
  cases stage with
  | opening => exact h.elim
  | greeting t rd => exact absurd hl h.2.2
  | receiving source rd | routing source rd item rt => exact .inl trivial
  | ended => exact .inr (h.elim (·.2.2) fun hn => absurd hl hn.1)

theorem OnTime.settled (h : OnTime f max d peer stream now reads done live stage)
    (hs : ∀ t rd, stage ≠ .greeting t rd) :
    (f.Greets max d → live) ∧ (f.Misses max d → stage = .ended ∧ ¬live ∧
      done = [.warned (.handshakeTimedOut peer), .released stream] ∧
        bytesOf reads = f.bytes (· < d)) := by
  by_cases hl : live
  · exact ⟨fun _ => hl, fun hm => absurd (h.greets hl) hm.not_greets⟩
  · cases stage with
    | opening => exact h.elim
    | greeting t rd => exact absurd rfl (hs t rd)
    | receiving source rd | routing source rd item rt => exact absurd (h.of_live trivial) hl
    | ended =>
      obtain ⟨-, hn, hm⟩ := h.resolve_left fun h => hl h.1
      exact ⟨fun hg => absurd hg hn, fun h => ⟨rfl, hl, hm h⟩⟩

theorem past_of_waiting (hr : m.receivers[id]? = some r) (hc : m.cancelled = false)
    (hw : m.receiverStep id .none = none) {t : Nat} (ht : t ≤ m.clock) :
    r.stage ≠ .greeting t rd := by
  intro hs
  have hf : rd.fresh = false := by
    obtain ⟨_, _, hs', hf⟩ | ⟨_, _, hs', -⟩ | hs' := idle_of_waiting hr hc hw <;>
      cases hs.symm.trans hs'
    exact hf
  simp [receiverStep, greetingStep, hr, hs, hc, hf, ht] at hw

theorem countP_eraseIdx {α : Type} {xs : List α} {p : α → Bool} {i : Nat}
    (h : ∀ x, xs[i]? = some x → p x = false) : (xs.eraseIdx i).countP p = xs.countP p := by
  induction xs generalizing i with
  | nil => rfl
  | cons x xs ih =>
    cases i with
    | zero => rw [List.eraseIdx_zero, List.tail_cons, List.countP_cons_of_neg (by simp [h x rfl])]
    | succ i =>
      rw [List.eraseIdx_cons_succ, List.countP_cons, List.countP_cons, ih h]

structure Expired (f : Inflow) (d id : Nat) (r : Receiver) (m : Manager) (ts : List Transition) :
    Prop where
  ended : r.stage = .ended
  done : ts.flatMap (·.doneBy id) = [.warned (.handshakeTimedOut r.peer), .released r.stream]
  read : bytesOf (ts.flatMap (·.reads id)) = f.bytes (· < d)
  deaf : ∀ a, m.receiverStep id a = none
  uncounted : ∀ t ∈ ts, t.after.connectionCount =
    (t.after.links.values.filter t.after.isConnected).length +
      (t.after.receivers.eraseIdx id).countP (·.stage.Live)

theorem Keeps.unique (h : Keeps f id m ts r) {start start' : Nat}
    (hs : ∃ t ∈ ts, t.start? id = some start) (hs' : ∃ t ∈ ts, t.start? id = some start') :
    start = start' := by
  obtain ⟨one, hone, -⟩ := h
  have hmem : ∀ {start}, (∃ t ∈ ts, t.start? id = some start) → start = one := fun hs => by
    have hs := List.mem_filterMap.mpr hs
    rwa [hone, List.mem_singleton] at hs
  rw [hmem hs, hmem hs']

theorem Keeps.onTime (h : Keeps f id m ts r) {start : Nat}
    (hs : ∃ t ∈ ts, t.start? id = some start)
    (hoff : ∀ x ∈ f.pieces, x.1 ≠ start + m.config.handshakeTimeout) :
    OnTime f m.config.maxFrame (start + m.config.handshakeTimeout) r.peer r.stream m.clock
      (ts.flatMap (·.reads id)) (ts.flatMap (·.doneBy id)) (∃ t ∈ ts, t.after.Receives id)
      r.stage := by
  obtain ⟨one, hone, hon⟩ := h
  have hs := List.mem_filterMap.mpr hs
  rw [hone, List.mem_singleton] at hs
  subst hs
  exact hon hoff

theorem Keeps.deadline {start : Nat} (hk : Keeps f id m ((new address config clock).transitions moves) r)
    (h : (new address config clock).run moves = some (m, hs)) (hc : m.cancelled = false)
    (htime : Timely f id ((new address config clock).transitions moves))
    (hs' : ∃ t ∈ (new address config clock).transitions moves, t.start? id = some start)
    (hoff : ∀ x ∈ f.pieces, x.1 ≠ start + config.handshakeTimeout)
    (ht : t ∈ (new address config clock).transitions moves) (hd : t.after.deadline? id = some d) :
    d = start + config.handshakeTimeout ∧ t.after.clock ≤ start + config.handshakeTimeout := by
  obtain ⟨moves₁, hs₁, h₁, hpre, hlater⟩ := run_to h ht
  obtain ⟨us, hus⟩ := hpre
  rw [← hus] at htime
  have hk₁ := run_clocked h₁ (hlater.running hc) htime.left
  have hle := hk₁.punctual d hd
  have hconfig : t.after.config = config := by rw [(run_later h₁).config]; rfl
  obtain ⟨r₁, rd, hr₁, hstage⟩ := deadline?_eq_some.mp hd
  obtain ⟨one, hone, hon⟩ := hk₁.started r₁ hr₁ (by rw [hstage]; nofun)
  obtain ⟨u, hu, hone⟩ := List.mem_filterMap.mp (hone ▸ List.mem_singleton_self one)
  obtain rfl : one = start := hk.unique ⟨u, hus ▸ List.mem_append_left us hu, hone⟩ hs'
  rw [hconfig] at hon
  have hgreet := hon hoff
  rw [hstage] at hgreet
  obtain rfl : d = one + config.handshakeTimeout := hgreet.1
  exact ⟨rfl, hle⟩

theorem receiverStep_of_ended (hr : m.receivers[id]? = some r) (hs : r.stage = .ended) (a : Answer) :
    m.receiverStep id a = none := by
  simp [receiverStep, hr, hs]

theorem connectionCount_without (h : (new address config clock).run moves = some (m, hs))
    (hl : ¬m.Receives id) : m.connectionCount = (m.links.values.filter m.isConnected).length +
      (m.receivers.eraseIdx id).countP (·.stage.Live) := by
  have htally : m.established = m.receivers.countP (·.stage.Live) := run_tallied h
  rw [connectionCount, htally, countP_eraseIdx fun x hx => ?_]
  exact decide_eq_false fun hlive => hl ⟨x, hx, hlive⟩

/-- The deadline of a greeting under the clock, for every connection and however its bytes come. The
deadline is set when the receiver starts, and nothing that comes moves it. Only a connection whose
first frame is a good greeting that comes in time gets past it. When the time has come and the
receiver has no step to take, such a connection is past its greeting, and one that is still open then
with too little of a frame has been dropped. A connection past its greeting stays one until its
stream ends or has a frame in it that is too long, however much time goes by. And from where the run
is, the receiver can always do what there is to do without time going on. -/
theorem greeting_deadline {start : Nat} (h : (new address config clock).run moves = some (m, hs))
    (ho : m.closed = false) (hr : m.receivers[id]? = some r)
    (hstart : ∃ t ∈ (new address config clock).transitions moves, t.start? id = some start)
    (hd : start + config.handshakeTimeout = d) (hoff : ∀ x ∈ f.pieces, x.1 ≠ d)
    (htime : Timely f id ((new address config clock).transitions moves)) :
    (∀ t ∈ (new address config clock).transitions moves, ∀ d', t.after.deadline? id = some d' →
      d' = d ∧ t.after.clock ≤ d) ∧
    ((∃ t ∈ (new address config clock).transitions moves, t.after.Receives id) →
      f.Greets config.maxFrame d ∧
        (m.Receives id ∨ f.endingAt m.clock ≠ .pending ∨
          (parse config.maxFrame (f.bytes (· ≤ m.clock))).2 = .tooLong)) ∧
    (d ≤ m.clock → m.receiverStep id .none = none →
      ((∃ t ∈ (new address config clock).transitions moves, t.after.Receives id) ↔
        f.Greets config.maxFrame d) ∧
      (f.Misses config.maxFrame d →
        Expired f d id r m ((new address config clock).transitions moves))) ∧
    CatchesUp f id (new address config clock) moves m := by
  have hc : m.cancelled = false := (run_flagged h).running ho
  have hk := run_clocked h hc htime
  have hconfig : m.config = config := by rw [(run_later h).config]; rfl
  have hne : r.stage ≠ .opening := fun hs => by
    have hu : Unstarted id _ := hk.unstarted fun r' hr' => by
      cases hr.symm.trans hr'
      exact hs
    obtain ⟨t, ht, hst⟩ := hstart
    rw [Transition.start?_of_ne (hu t ht).1] at hst
    cases hst
  subst hd
  have hkeeps := hk.started r hr hne
  have hon := hkeeps.onTime hstart (by rwa [hconfig])
  rw [hconfig] at hon
  refine ⟨fun t ht d' hd' => hkeeps.deadline h hc htime hstart hoff ht hd',
    fun hl => ⟨hon.greets hl, ?_⟩, fun hlate hw => ?_, run_catchesUp h hc hr htime⟩
  · obtain hlive | hknown | ⟨s, ⟨more, hm⟩, hlong⟩ := hon.stays hl
    · exact .inl ⟨r, hr, hlive⟩
    · exact .inr (.inl hknown)
    · exact .inr (.inr (hm ▸ hlong more))
  · have hpast : ∀ t rd, r.stage ≠ .greeting t rd := fun t rd hs => by
      have hgreet := hon
      rw [hs] at hgreet
      exact past_of_waiting hr hc hw (hgreet.1 ▸ hlate) hs
    obtain ⟨hgreets, hmisses⟩ := hon.settled hpast
    refine ⟨⟨hon.greets, hgreets⟩, fun hm => ?_⟩
    obtain ⟨hended, hl, hdone, hbytes⟩ := hmisses hm
    refine ⟨hended, hdone, hbytes, receiverStep_of_ended hr hended, fun t ht => ?_⟩
    obtain ⟨moves₁, hs₁, h₁, -⟩ := run_to h ht
    exact connectionCount_without h₁ fun hlive => hl ⟨t, ht, hlive⟩

theorem greeting_deadline_of_two :
    let whole := Frame.encode (Hello.format.write (.of ⟨"h", 1⟩))
    let slow : Inflow := { pieces := [(10, whole.take 10), (150, whole.drop 10)] }
    let prompt : Inflow := { pieces := [(10, whole.take 40), (90, whole.drop 40)] }
    let step id a := Move.step (.receiver id) a
    let moves := [.step .acceptor (.incoming 7 ⟨"p", 9⟩), .step .acceptor (.incoming 8 ⟨"q", 9⟩),
      step 0 .none, step 1 .none, .elapse 10, step 0 (.chunk (whole.take 10)), step 0 .none,
      step 1 (.chunk (whole.take 40)), step 1 .none, .elapse 80, step 1 (.chunk (whole.drop 40)),
      step 1 .none, step 1 .none, .elapse 10, step 0 .none, .elapse 100000]
    let m₀ := new ⟨"a", 2⟩ { handshakeTimeout := 100 } 0
    ∃ m hs r r', m₀.run moves = some (m, hs) ∧ m.closed = false ∧ m.receivers[0]? = some r ∧
      m.receivers[1]? = some r' ∧ Timely slow 0 (m₀.transitions moves) ∧
      Timely prompt 1 (m₀.transitions moves) ∧ m.clock = 100100 ∧
      Expired slow 100 0 r m (m₀.transitions moves) ∧ prompt.Greets 16777216 100 ∧
      m.Receives 1 := by
  intro whole slow prompt step moves m₀
  obtain ⟨⟨m, hs⟩, h⟩ : ∃ o, m₀.run moves = some o :=
    Option.isSome_iff_exists.mp (by decide +kernel)
  have hview : (m₀.run moves).map (fun o => (o.1.closed, o.1.clock, (o.1.receivers[0]?).isSome,
      (o.1.receivers[1]?).isSome, (o.1.receiverStep 0 .none).isNone)) =
      some (false, 100100, true, true, true) := by decide +kernel
  have hslow : Timely slow 0 (m₀.transitions moves) := by decide +kernel
  have hprompt : Timely prompt 1 (m₀.transitions moves) := by decide +kernel
  have hstart : ∀ id < 2, ∃ t ∈ m₀.transitions moves, t.start? id = some 0 := by decide +kernel
  have hlive : ∃ t ∈ m₀.transitions moves, ∃ r ∈ t.after.receivers[1]?, r.stage.Live := by
    decide +kernel
  have hmiss : (parse 16777216 (slow.bytes (· < 100))).1 = [] ∧
      (parse 16777216 (slow.bytes (· < 100))).2 ≠ .tooLong := by
    decide +kernel
  have hwhole : (parse 16777216 (prompt.bytes (· ≤ 100100))).2 ≠ .tooLong := by decide +kernel
  rw [h] at hview
  simp only [Option.map_some, Option.some.injEq, Prod.mk.injEq, Option.isNone_iff_eq_none,
    Option.isSome_iff_exists] at hview
  obtain ⟨ho, hclock, ⟨r, hr⟩, ⟨r', hr'⟩, hw⟩ := hview
  obtain ⟨-, -, hpast, -⟩ := greeting_deadline h ho hr (hstart 0 (by decide)) rfl (by decide) hslow
  obtain ⟨-, hpassed, -⟩ :=
    greeting_deadline h ho hr' (hstart 1 (by decide)) rfl (by decide) hprompt
  obtain ⟨-, hexpired⟩ := hpast (by rw [hclock]; decide) hw
  obtain ⟨hgreets, hstays⟩ := hpassed hlive
  refine ⟨m, hs, r, r', h, ho, hr, hr', hslow, hprompt, hclock,
    hexpired ⟨Inflow.endingAt_of_open rfl, hmiss.1, hmiss.2⟩, hgreets, hstays.resolve_right ?_⟩
  rw [hclock]
  exact fun hn => hn.elim (· (Inflow.endingAt_of_open rfl)) hwhole

end PeerLink.Manager
