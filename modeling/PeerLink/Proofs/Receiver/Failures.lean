import PeerLink.Proofs.Receiver.Serving

namespace PeerLink.Manager

def Unestablished (k : Nat) (ts : List Transition) : Prop :=
  ∀ t ∈ ts, ∀ r, t.after.receivers[k]? = some r → ¬r.stage.Live

structure Contained (k : Nat) (source : Endpoint) (error : IoError) (r : Receiver) (t : Transition)
    (after : List Transition) (m : Manager) : Prop where
  receiver : t.before.receivers[k]? = some r
  warning : t.happenings = [.warned (.receiveFailed source error)]
  change : ∃ rd, t.after = t.before.setReceiver k
    (.routing source rd (.failure (.connection source error)) .exact)
  aftermath : Aftermath k source (.connection source error) r m after
  alone : ∃ n ≤ 3, t.after.run (List.replicate n (.step (.receiver k) .none)) =
    some (t.after.concluded k (t.after.routes.target source) (.failure (.connection source error)),
      (t.after.routes.target source).toList.map (.enqueued · (.failure (.connection source error))) ++
        [.released r.stream])

/-- The acceptor warns of each failure and pauses once for it; nothing but the end of the manager
ends it, and until then it takes up whatever it is offered. -/
structure Perseveres (ts : List Transition) (m : Manager) : Prop where
  stopped : m.acceptor = .stopped → m.cancelled = true
  failures : ∀ t ∈ ts, ∀ error, t.move = .step .acceptor (.failed error) →
    t.happenings = [.warned (.acceptFailed error)] ∧
      t.after = { t.before with acceptor := .pausing (t.before.clock + acceptPause) }
  pauses : ∀ before t mid u after error a, ts = before ++ t :: mid ++ u :: after →
    t.move = .step .acceptor (.failed error) → (∀ v ∈ mid, ∀ a, v.move ≠ .step .acceptor a) →
    u.move = .step .acceptor a →
    u.before.cancelled = true ∧ u.happenings = [.stoppedListening] ∨
      u.move = .step .acceptor .none ∧ t.before.clock + acceptPause ≤ u.before.clock ∧
        u.after = { u.before with acceptor := .accepting } ∧ u.happenings = []
  offers : m.cancelled = false → m.pauseLeft ≤ acceptPause ∧ ∀ offers : List Offer,
    m.run (m.readying ++ offers.flatMap Offer.moves) =
      some (m.ready.afterOffers offers, offers.flatMap (·.warning?.toList))

variable {m : Manager} {hs : List Happening} {k : Nat} {r : Receiver} {t : Transition}
  {moves : List Move} {before after : List Transition} {source : Endpoint} {e : IoError}
  {address : Endpoint} {config : Config} {clock : Nat}

theorem run_contained (h : (new address config clock).run moves = some (m, hs))
    (hts : (new address config clock).transitions moves = before ++ t :: after)
    (hf : t.FailsReading k source e) : ∃ r, Contained k source e r t after m := by
  obtain ⟨moves₁, hs₁, hr₁, -, hmv⟩ := run_of_transitions hts
  have ht : Tidy t.before := run_tidy hr₁
  obtain ⟨hwarn, r, rd, hr, hafter⟩ := hf.effect hmv ht
  obtain ⟨r', hr', haftermath⟩ := run_aftermath h (.new address config clock) hts hf
  cases hr.symm.trans hr'
  have hr₁ : t.after.receivers[k]? = some { r with
      stage := .routing source rd (.failure (.connection source e)) .exact } := by
    rw [hafter]
    exact setReceiver_get hr _
  have halone := run_failed (ht.move hmv) hr₁ rfl
  exact ⟨r, hr, hwarn, ⟨rd, hafter⟩, haftermath, halone⟩

theorem run_perseveres (h : (new address config clock).run moves = some (m, hs)) :
    Perseveres ((new address config clock).transitions moves) m where
  stopped := (run_accepts h).stopped
  failures t ht error hf := by
    obtain ⟨before, after, hts⟩ := List.append_of_mem ht
    obtain ⟨moves₁, hs₁, hr₁, -, hmv⟩ := run_of_transitions hts
    rw [hf] at hmv
    exact (move_failed hmv (run_tidy hr₁)).symm
  pauses before t mid u after error a hts hf hmid hu :=
    next_of_failure h (.new address config clock) hts hf hmid hu
  offers hc := ⟨(run_accepts h).pauseLeft_le, run_all_offers (run_accepts h) (run_tidy h) hc⟩

/-- Failures of inbound connections are isolated. A run of an open manager without a connection that
never gets past its greeting is a run that does the same and comes to the same, but for the log and
the connection itself; what comes of a failed read is contained, so the counts are those of what
there is; and the acceptor perseveres, with every connection that it has accepted being attended
to. -/
theorem inbound_failures_isolated
    (h : (new address config clock).run moves = some (m, hs)) :
    (m.closed = false → ∀ k r, m.receivers[k]? = some r →
      Unestablished k ((new address config clock).transitions moves) →
      ∃ hs', (new address config clock).run (without k 0 moves) = some (m.sparing k, hs') ∧
        hs'.Sublist hs ∧
        hs'.filter (Happening.Apart r.stream) = hs.filter (Happening.Apart r.stream)) ∧
    (∀ before t after k source e,
      (new address config clock).transitions moves = before ++ t :: after →
      t.FailsReading k source e → ∃ r, Contained k source e r t after m) ∧
    Tallied m ∧ Counted m ∧
    Perseveres ((new address config clock).transitions moves) m ∧ acceptPause = 100 ∧
    m.receivers.map Receiver.asAccepted = moves.filterMap Move.incoming? ∧
    (m.cancelled = false → ∀ k r, m.receivers[k]? = some r →
      Attended (new address config clock) moves m k r) := by
  refine ⟨fun ho k r hr hn => ?_, fun before t after k source e hts hf => run_contained h hts hf,
    run_tallied h, (run_served h).1.counted, run_perseveres h, rfl,
    incoming_of_run h, fun hc k r hr => run_attended h hc hr⟩
  have hnone : (new address config clock).receivers[k]? = none := List.getElem?_nil
  obtain ⟨hs', hrun, hsub, hsame⟩ := run_without h (.new address config clock)
    (.new address config clock) ho (fun r hr => by cases hnone.symm.trans hr) hn
  exact ⟨hs', hrun, hsub, hsame r hr⟩

theorem inbound_failures_isolated_when_lost :
    let greeting := Frame.encode (Hello.format.write (.of ⟨"h", 1⟩))
    let lost : IoError := ⟨.other, .text "lost"⟩
    let work i n := List.replicate n (Move.step (.receiver i) .none)
    let moves := .register ⟨"h", 1⟩ 5 :: List.replicate 4 (.step (.registration 0) .none) ++
      .step .acceptor (.incoming 7 ⟨"p", 9⟩) :: .step .acceptor (.failed lost) :: .elapse 100 ::
      .step .acceptor .none :: .step .acceptor (.incoming 8 ⟨"q", 9⟩) :: work 0 1 ++
      .step (.receiver 0) (.failed lost) :: work 1 1 ++
      .step (.receiver 1) (.chunk greeting) :: work 1 2 ++
      .step (.receiver 1) (.failed lost) :: work 1 2
    let m₀ := new ⟨"a", 2⟩ {} 0
    ∃ m hs hs' t after r, m₀.run moves = some (m, hs) ∧ m.closed = false ∧
      m₀.run (without 0 0 moves) = some (m.sparing 0, hs') ∧
      hs'.filter (Happening.Apart 7) = hs.filter (Happening.Apart 7) ∧
      t.FailsReading 1 ⟨"h", 1⟩ lost ∧ Contained 1 ⟨"h", 1⟩ lost r t after m ∧
      m.subscriptions.map (·.queue) = [[.failure (.connection ⟨"h", 1⟩ lost)]] ∧
      Perseveres (m₀.transitions moves) m ∧ m.clock = 100 := by
  intro greeting lost work moves m₀
  obtain ⟨⟨m, hs⟩, h⟩ : ∃ o, m₀.run moves = some o :=
    Option.isSome_iff_exists.mp (by decide +kernel)
  have hr : ((m₀.run moves).map fun o => (o.1.closed, o.1.clock, o.1.subscriptions.map (·.queue),
      (o.1.receivers[0]?).map (·.stream))) =
      some (false, 100, [[.failure (.connection ⟨"h", 1⟩ lost)]], some 7) := by decide +kernel
  rw [h] at hr
  simp only [Option.map_some, Option.some.injEq, Prod.mk.injEq, Option.map_eq_some_iff] at hr
  obtain ⟨ho, hclock, hqueues, r, hg, hstream⟩ := hr
  have hnever : ((m₀.transitions moves).all fun t =>
      (t.after.receivers[0]?).all fun r => !decide r.stage.Live) = true := by decide +kernel
  have hunestablished : Unestablished 0 (m₀.transitions moves) := by
    intro t ht r hr
    simpa [hr] using List.all_eq_true.mp hnever t ht
  have hfails : ((m₀.transitions moves)[16]?).map (·.handed 1) =
      some [(⟨"h", 1⟩, .failure (.connection ⟨"h", 1⟩ lost))] := by decide +kernel
  obtain ⟨t, ht, hf⟩ := Option.map_eq_some_iff.mp hfails
  obtain ⟨hlt, ht⟩ := List.getElem?_eq_some_iff.mp ht
  have hts : m₀.transitions moves =
      (m₀.transitions moves).take 16 ++ t :: (m₀.transitions moves).drop 17 := by
    rw [← ht, List.cons_getElem_drop_succ, List.take_append_drop]
  obtain ⟨hwithout, hcontained, -, -, hperseveres, -⟩ := inbound_failures_isolated h
  obtain ⟨hs', hrun, -, hsame⟩ := hwithout ho 0 r hg hunestablished
  obtain ⟨r', hc⟩ := hcontained _ t _ 1 ⟨"h", 1⟩ lost hts hf
  rw [hstream] at hsame
  exact ⟨m, hs, hs', t, _, r', h, ho, hrun, hsame, hf, hc, hqueues, hperseveres, hclock⟩

end PeerLink.Manager
