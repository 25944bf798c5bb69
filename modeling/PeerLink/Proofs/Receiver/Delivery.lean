import PeerLink.Proofs.Receiver.Interpretation

namespace PeerLink.Manager

open PeerLink.Frame (parse)

variable {m m' m₁ : Manager} {mv : Move} {hs hs₁ : List Happening} {ts : List Transition} {id : Nat}
  {r : Receiver} {a : Answer}

theorem filterMap_released (streams : List StreamId) :
    (streams.map Happening.released).filterMap Happening.item? = [] := by
  simp [List.filterMap_map, Function.comp_def, Happening.item?]

namespace Transition

variable {t : Transition}

theorem handed_eq {r r' : Receiver} (hb : t.before.receivers[id]? = some r)
    (ha : t.after.receivers[id]? = some r') : t.handed id = handedBetween r.stage r'.stage := by
  simp only [handed, hb, ha]

theorem handed_of_none (hb : t.before.receivers[id]? = none) : t.handed id = [] := by
  simp only [handed, hb]

theorem reads_of_ne (h : ∀ a, t.move ≠ .step (.receiver id) a) : t.reads id = [] := by
  rw [reads]
  split
  · next i a hm =>
    refine if_neg fun hi => h a ?_
    rw [hm, hi.1]
  · rfl

theorem enqueued_of_ne (h : ∀ a, t.move ≠ .step (.receiver id) a) : t.enqueued id = [] := by
  refine if_neg fun ht => ?_
  cases hm : t.move with
  | step task a =>
    rw [hm] at ht
    cases ht
    exact h a hm
  | _ =>
    rw [hm] at ht
    cases ht

theorem enqueued_of_step (h : t.move = .step (.receiver id) a)
    (hr : reap (m₁, hs₁) = (t.after, t.happenings)) :
    t.enqueued id = hs₁.filterMap Happening.item? := by
  obtain ⟨streams, hs⟩ := reap_happenings hr
  rw [enqueued, h, Move.task?, if_pos rfl, hs, List.filterMap_append, filterMap_released,
    List.append_nil]

theorem reads_of_step (h : t.move = .step (.receiver id) a) :
    t.reads id = if a = .none then [] else [a] := by
  cases a <;> simp [reads, h]

end Transition

/-- An item that was handed over and is in no queue yet. -/
def ReceiverStage.pending : ReceiverStage → List Item
  | .routing _ _ item _ => [item]
  | _ => []

theorem afterRouting_queues {hs : List Happening} {source : Endpoint} {rd : Reading} {item : Item}
    {rt : Routing} {r' : Receiver} (hr : m.receivers[id]? = some r)
    (hs' : r.stage = .routing source rd item rt)
    (hr' : (m.afterRouting id r source rd item hs).1.receivers[id]? = some r') :
    r.stage.pending ++ (handedBetween r.stage r'.stage).map Prod.snd =
        [item] ++ r'.stage.pending ∧
      (m.afterRouting id r source rd item hs).2.filterMap Happening.item? =
        hs.filterMap Happening.item? := by
  rw [hs']
  cases item with
  | frame body =>
    cases (setReceiver_get hr _).symm.trans hr'
    exact ⟨rfl, rfl⟩
  | failure error =>
    have hr : ({ m with established := m.established - 1 } : Manager).receivers[id]? = some r := hr
    cases (setReceiver_get hr _).symm.trans hr'
    refine ⟨rfl, ?_⟩
    simp [afterRouting, endEstablished, endReceiver, Happening.item?]

/-- A receiver puts into a queue at most what it has handed over last. -/
theorem ReceiverStep.queues {r' : Receiver} (h : ReceiverStep m id r a m₁ hs₁)
    (hr : m.receivers[id]? = some r) (hr' : m₁.receivers[id]? = some r') :
    ∃ gone, r.stage.pending ++ (handedBetween r.stage r'.stage).map Prod.snd =
        gone ++ r'.stage.pending ∧ (hs₁.filterMap Happening.item?).Sublist gone := by
  cases h with
  | halt hs =>
    cases (setReceiver_get hr _).symm.trans hr'
    obtain hs | ⟨t, rd, hs⟩ := hs <;> rw [hs] <;> exact ⟨[], rfl, List.Sublist.refl _⟩
  | start hs | reject hs | disagree hs | vanish hs | expectGreeting hs | expire hs
  | breakGreeting hs | readGreeting hs | fail hs | take hs | expectFrame hs | breakFrame hs
  | readFrame hs =>
    cases (setReceiver_get hr _).symm.trans hr'
    rw [hs]
    exact ⟨[], rfl, List.Sublist.refl _⟩
  | establish hs =>
    cases (setReceiver_get (m := { m with established := m.established + 1 }) hr _).symm.trans hr'
    rw [hs]
    exact ⟨[], rfl, List.Sublist.refl _⟩
  | leave hs | finish hs =>
    cases (setReceiver_get (m := { m with established := m.established - 1 }) hr _).symm.trans hr'
    rw [hs]
    exact ⟨[], rfl, List.Sublist.refl _⟩
  | @locate _ _ _ _ _ s hs =>
    cases (setReceiver_get
      (m := m.modifySubscription s fun s => { s with handles := s.handles + 1 }) hr _).symm.trans hr'
    rw [hs]
    exact ⟨[], rfl, List.Sublist.refl _⟩
  | widen hs =>
    cases (setReceiver_get hr _).symm.trans hr'
    rw [hs]
    exact ⟨[], rfl, List.Sublist.refl _⟩
  | miss hs =>
    obtain ⟨hq, hn⟩ := afterRouting_queues hr hs hr'
    refine ⟨_, hq, ?_⟩
    rw [hn]
    exact List.nil_sublist _
  | @hand _ _ item s hs =>
    obtain ⟨hq, hn⟩ := afterRouting_queues
      (m := (m.modifySubscription s (·.push item)).dropHandle s) hr hs hr'
    refine ⟨_, hq, ?_⟩
    rw [hn]
    exact List.Sublist.refl _

theorem handedBetween_self (stage : ReceiverStage) : handedBetween stage stage = [] := by
  cases stage <;> rfl

theorem not_receives (h : m.move mv = some (m', hs)) (hn : m.receivers[id]? = none) (a : Answer) :
    mv ≠ .step (.receiver id) a := by
  rintro rfl
  obtain ⟨o, ho, -⟩ := move_step h
  obtain ⟨r, hr, -⟩ := receiverStep_cases ho
  cases hn.symm.trans hr

structure Received (id : Nat) (m : Manager) (ts : List Transition) : Prop where
  absent : m.receivers[id]? = none → ts.flatMap (·.handed id) = [] ∧
    ∀ t ∈ ts, ∀ a, t.move ≠ .step (.receiver id) a
  queued : ∀ r, m.receivers[id]? = some r → ∃ gone,
    (ts.flatMap (·.handed id)).map Prod.snd = gone ++ r.stage.pending ∧
      (ts.flatMap (·.enqueued id)).Sublist gone
  present : m.cancelled = false → ∀ r, m.receivers[id]? = some r → ∃ chunks ending,
    ts.flatMap (·.reads id) = chunks.map Answer.chunk ++ StreamEnd.answers ending ∧
      Position m.config.maxFrame r.peer chunks ending (ts.flatMap (·.handed id))
        (∃ t ∈ ts, t.TimesOut id) r.stage

theorem Received.new (id : Nat) (address : Endpoint) (config : Config) (clock : Nat) :
    Received id (new address config clock) [] := by
  have hn : (Manager.new address config clock).receivers[id]? = none := List.getElem?_nil
  refine ⟨fun _ => ⟨rfl, fun t ht => absurd ht List.not_mem_nil⟩, fun r hr => ?_, fun _ r hr => ?_⟩
  · cases hn.symm.trans hr
  · cases hn.symm.trans hr

theorem reads_of_absent (h : ∀ t ∈ ts, ∀ a, t.move ≠ .step (.receiver id) a) :
    ts.flatMap (·.reads id) = [] :=
  List.flatMap_eq_nil_iff.mpr fun t ht => Transition.reads_of_ne (h t ht)

theorem enqueued_of_absent (h : ∀ t ∈ ts, ∀ a, t.move ≠ .step (.receiver id) a) :
    ts.flatMap (·.enqueued id) = [] :=
  List.flatMap_eq_nil_iff.mpr fun t ht => Transition.enqueued_of_ne (h t ht)

theorem receiver_stays (h : m.move mv = some (m', hs)) (hn : m'.receivers[id]? = none) :
    m.receivers[id]? = none := by
  obtain hk | ⟨stream, peer, hk⟩ | ⟨j, a, stage, -, hk⟩ := move_receivers h
  · rwa [← hk]
  · rw [hk, List.getElem?_append] at hn
    split at hn
    · exact hn
    · next hlt => exact List.getElem?_eq_none (by omega)
  · rw [hk, List.getElem?_modify] at hn
    cases hr : m.receivers[id]? with
    | none => rfl
    | some r =>
      rw [hr] at hn
      cases hn

theorem move_peer (h : m.move mv = some (m', hs)) (hr : m.receivers[id]? = some r) :
    ∃ r', m'.receivers[id]? = some r' ∧ r'.peer = r.peer := by
  obtain ⟨stage, hr'⟩ := move_stage h hr
  exact ⟨_, hr', rfl⟩

theorem Received.absent_move {t : Transition} (hi : Received id t.before ts)
    (h : t.before.move t.move = some (t.after, t.happenings))
    (hn : t.before.receivers[id]? = none) : (ts ++ [t]).flatMap (·.handed id) = [] ∧
      ∀ u ∈ ts ++ [t], ∀ a, u.move ≠ .step (.receiver id) a := by
  obtain ⟨hhanded, hno⟩ := hi.absent hn
  constructor
  · rw [List.flatMap_append, List.flatMap_singleton, hhanded, Transition.handed_of_none hn]
    rfl
  · intro u hu
    obtain hu | hu := List.mem_append.mp hu
    · exact hno u hu
    · cases List.mem_singleton.mp hu
      exact not_receives h hn

theorem Received.queued_move {t : Transition} {r' : Receiver} (hi : Received id t.before ts)
    (h : t.before.move t.move = some (t.after, t.happenings))
    (hr : t.before.receivers[id]? = some r) (hr' : t.after.receivers[id]? = some r') :
    ∃ gone, ((ts ++ [t]).flatMap (·.handed id)).map Prod.snd = gone ++ r'.stage.pending ∧
      ((ts ++ [t]).flatMap (·.enqueued id)).Sublist gone := by
  obtain ⟨gone, hg, hsub⟩ := hi.queued r hr
  simp only [List.flatMap_append, List.flatMap_singleton, List.map_append, hg]
  rw [Transition.handed_eq hr hr']
  obtain ⟨a, m₁, hs₁, hmv, hstep, hreap⟩ | ⟨hne, hr''⟩ := move_receiver h hr
  · have hr₁ : m₁.receivers[id]? = some r' := by
      rw [reap_scope hreap] at hr'
      exact hr'
    obtain ⟨gone', hg', hsub'⟩ := hstep.queues hr hr₁
    refine ⟨gone ++ gone', by rw [List.append_assoc, hg', List.append_assoc], hsub.append ?_⟩
    rwa [Transition.enqueued_of_step hmv hreap]
  · cases hr''.symm.trans hr'
    refine ⟨gone, ?_, ?_⟩
    · rw [handedBetween_self, List.map_nil, List.append_nil]
    · rwa [Transition.enqueued_of_ne hne, List.append_nil]

theorem Received.present_move {t : Transition} {r' : Receiver} (hi : Received id t.before ts)
    (h : t.before.move t.move = some (t.after, t.happenings)) (hc : t.before.cancelled = false)
    (hr : t.before.receivers[id]? = some r) (hr' : t.after.receivers[id]? = some r') :
    ∃ chunks ending,
      (ts ++ [t]).flatMap (·.reads id) = chunks.map Answer.chunk ++ StreamEnd.answers ending ∧
        Position t.before.config.maxFrame r'.peer chunks ending
          ((ts ++ [t]).flatMap (·.handed id)) (∃ u ∈ ts ++ [t], u.TimesOut id) r'.stage := by
  obtain ⟨chunks, ending, hreads, hp⟩ := hi.present hc r hr
  have hp : Position _ _ chunks ending _ (∃ u ∈ ts ++ [t], u.TimesOut id) _ :=
    hp.mono fun ⟨u, hu, hl⟩ => ⟨u, List.mem_append_left _ hu, hl⟩
  simp only [List.flatMap_append, List.flatMap_singleton]
  obtain ⟨a, m₁, hs₁, hmv, hstep, hreap⟩ | ⟨hne, hr''⟩ := move_receiver h hr
  · have hl : (∃ peer, .warned (.handshakeTimedOut peer) ∈ hs₁) →
        ∃ u ∈ ts ++ [t], u.TimesOut id := by
      rintro ⟨peer, hw⟩
      obtain ⟨streams, hh⟩ := reap_happenings hreap
      refine ⟨t, List.mem_append_right _ (List.mem_singleton_self _), ?_, peer, ?_⟩
      · rw [hmv]
        rfl
      · rw [hh]
        exact List.mem_append_left _ hw
    obtain ⟨stage, chunks', ending', hr₁, hreads', hp'⟩ := hp.step hr hstep hc hl
    have hg : t.after.receivers[id]? = some { r with stage } := by
      rw [reap_scope hreap]
      exact hr₁
    cases hg.symm.trans hr'
    refine ⟨chunks', ending', ?_, ?_⟩
    · rw [hreads, hreads', Transition.reads_of_step hmv]
    · rwa [Transition.handed_eq hr hg]
  · cases hr''.symm.trans hr'
    refine ⟨chunks, ending, ?_, ?_⟩
    · rw [hreads, Transition.reads_of_ne hne, List.append_nil]
    · rwa [Transition.handed_eq hr hr'', handedBetween_self, List.append_nil]

theorem Received.move (hi : Received id m ts) (h : m.move mv = some (m', hs)) :
    Received id m' (ts ++ [⟨m, mv, m', hs⟩]) := by
  refine ⟨fun hn => hi.absent_move (t := ⟨m, mv, m', hs⟩) h (receiver_stays h hn),
    fun r' hr' => ?_, fun hc r' hr' => ?_⟩
  · cases hr : m.receivers[id]? with
    | some r => exact hi.queued_move (t := ⟨m, mv, m', hs⟩) h hr hr'
    | none =>
      obtain ⟨hhanded, hno⟩ := hi.absent_move (t := ⟨m, mv, m', hs⟩) h hr
      rw [hhanded, enqueued_of_absent hno, move_newReceiver h hr hr']
      exact ⟨[], rfl, List.Sublist.refl _⟩
  have hc : m.cancelled = false := (move_later h).running hc
  rw [(move_later h).config]
  cases hr : m.receivers[id]? with
  | some r => exact hi.present_move (t := ⟨m, mv, m', hs⟩) h hc hr hr'
  | none =>
    obtain ⟨hhanded, hno⟩ := hi.absent_move (t := ⟨m, mv, m', hs⟩) h hr
    refine ⟨[], .pending, reads_of_absent hno, ?_⟩
    rw [hhanded, move_newReceiver h hr hr']
    exact ⟨rfl, rfl, rfl⟩

theorem run_received {address : Endpoint} {config : Config} {clock : Nat} {moves : List Move}
    (h : (new address config clock).run moves = some (m, hs)) :
    Received id m ((new address config clock).transitions moves) :=
  run_induction (.new id address config clock) (fun _ _ _ _ _ hi hm => hi.move hm) h

theorem answers_inj {chunks chunks' : List Bytes} {ending ending' : StreamEnd}
    (h : chunks.map Answer.chunk ++ ending.answers = chunks'.map .chunk ++ ending'.answers) :
    chunks = chunks' ∧ ending = ending' := by
  obtain ⟨⟨more, hm⟩, -⟩ := prefix_of_answers ⟨[], (List.append_nil _).trans h⟩
  obtain ⟨⟨more', hm'⟩, -⟩ := prefix_of_answers ⟨[], (List.append_nil _).trans h.symm⟩
  have hl : more = [] := by
    rw [hm', List.append_assoc, List.self_eq_append_right] at hm
    exact (List.append_eq_nil_iff.mp hm).2
  have hc : chunks = chunks' := by rw [hm, hl, List.append_nil]
  refine ⟨hc, ?_⟩
  rw [hc, List.append_cancel_left_eq] at h
  cases ending <;> cases ending' <;> cases h <;> rfl

theorem idle_of_waiting (hr : m.receivers[id]? = some r) (hc : m.cancelled = false)
    (hw : m.receiverStep id .none = none) :
    (∃ t rd, r.stage = .greeting t rd ∧ rd.fresh = false) ∨
      (∃ source rd, r.stage = .receiving source rd ∧ rd.fresh = false) ∨ r.stage = .ended := by
  simp only [receiverStep, hr, Option.bind_eq_bind, Option.bind_some] at hw
  cases hs : r.stage with
  | opening => simp [hs, hc] at hw
  | greeting t rd =>
    refine .inl ⟨t, rd, rfl, ?_⟩
    cases hf : rd.fresh with
    | false => rfl
    | true =>
      simp only [hs, greetingStep, hc, hf, Bool.false_eq_true, if_false, if_true] at hw
      repeat' split at hw
      all_goals cases hw
  | receiving source rd =>
    refine .inr (.inl ⟨source, rd, rfl, ?_⟩)
    cases hf : rd.fresh with
    | false => rfl
    | true =>
      simp only [hs, receivingStep, hc, hf, Bool.false_eq_true, if_false, if_true] at hw
      repeat' split at hw
      all_goals cases hw
  | routing source rd item rt => simp [hs] at hw
  | ended => exact .inr (.inr rfl)

theorem settled_of_waiting {chunks : List Bytes} {ending : StreamEnd}
    {handed : List (Endpoint × Item)} {late : Prop} (hr : m.receivers[id]? = some r)
    (hc : m.cancelled = false) (hw : m.receiverStep id .none = none) (hn : r.stage ≠ .ended)
    (hp : Position m.config.maxFrame r.peer chunks ending handed late r.stage) :
    handed = interpret m.config.maxFrame r.peer chunks.flatten ending ∧
      (sourceOf? r.peer (parse m.config.maxFrame chunks.flatten).1 = none → ending = .pending ∧
        (parse m.config.maxFrame chunks.flatten).1 = [] ∧
        (parse m.config.maxFrame chunks.flatten).2 ≠ .tooLong) := by
  obtain ⟨t, rd, hs, hf⟩ | ⟨source, rd, hs, hf⟩ | hs := idle_of_waiting hr hc hw
  · rw [hs] at hp
    obtain ⟨rfl, he⟩ := hp
    obtain ⟨hat, hp, hl⟩ := he.idle hf
    have hend : ending = .pending := by rw [he.ending, hat]; rfl
    have hw := he.whole
    rw [hp] at hw
    refine ⟨(interpret_of_refused (by rw [hw]; rfl)).symm, fun _ => ⟨hend, ?_⟩⟩
    rw [hw]
    exact ⟨rfl, hl⟩
  · rw [hs] at hp
    obtain ⟨greeting, bodies, hg, rfl, he⟩ := hp
    obtain ⟨hat, hp, hl⟩ := he.idle hf
    have hend : ending = .pending := by rw [he.ending, hat]; rfl
    have hw := he.whole
    rw [hp, List.append_nil] at hw
    subst hend
    have hf : failure? (parse m.config.maxFrame rd.intake.unread).2 .pending = none := by
      cases hrest : (parse m.config.maxFrame rd.intake.unread).2 with
      | tooLong => exact absurd hrest hl
      | _ => rfl
    refine ⟨?_, fun hn => ?_⟩
    · rw [interpret_of_parse hg hw, hf]
      simp
    · rw [hw, show sourceOf? r.peer (greeting :: bodies) = _ from hg] at hn
      cases hn
  · exact absurd hs hn

/-- Whatever the reads cut the bytes of a connection into, and however its receiver's steps stand
among those of everything else, the items that it has handed over once it waits or is over are those
that the bytes spell. Behind a greeting that is none it does not go on. -/
theorem handed_eq_interpret {address : Endpoint} {config : Config} {clock : Nat}
    {moves : List Move} {chunks : List Bytes} {ending : StreamEnd}
    (h : (new address config clock).run moves = some (m, hs)) (ho : m.closed = false)
    (hr : m.receivers[id]? = some r)
    (hreads : ((new address config clock).transitions moves).flatMap (·.reads id) <+:
      chunks.map .chunk ++ ending.answers)
    (hstop : r.stage = .ended ∨ m.receiverStep id .none = none ∧
      ((new address config clock).transitions moves).flatMap (·.reads id) =
        chunks.map .chunk ++ ending.answers)
    (hgood : sourceOf? r.peer (parse config.maxFrame chunks.flatten).1 ≠ none →
      (∀ t ∈ (new address config clock).transitions moves, ¬t.TimesOut id) ∧
        (ending = .closed → (parse config.maxFrame chunks.flatten).2 ≠ .part)) :
    ((new address config clock).transitions moves).flatMap (·.handed id) =
        interpret config.maxFrame r.peer chunks.flatten ending ∧
      (((new address config clock).transitions moves).flatMap (·.enqueued id)).Sublist
        ((interpret config.maxFrame r.peer chunks.flatten ending).map Prod.snd) ∧
      (sourceOf? r.peer (parse config.maxFrame chunks.flatten).1 = none →
        r.stage = .ended ∨ ending = .pending ∧ (parse config.maxFrame chunks.flatten).1 = [] ∧
          (parse config.maxFrame chunks.flatten).2 ≠ .tooLong) := by
  have hc : m.cancelled = false := (run_flagged h).running ho
  have hi : Received id m _ := run_received h
  have hconfig : m.config.maxFrame = config.maxFrame := by rw [(run_later h).config]; rfl
  obtain ⟨chunks₀, ending₀, hreads₀, hp⟩ := hi.present hc r hr
  rw [hconfig] at hp
  suffices hh : ((new address config clock).transitions moves).flatMap (·.handed id) =
      interpret config.maxFrame r.peer chunks.flatten ending ∧
      (sourceOf? r.peer (parse config.maxFrame chunks.flatten).1 = none →
        r.stage = .ended ∨ ending = .pending ∧ (parse config.maxFrame chunks.flatten).1 = [] ∧
          (parse config.maxFrame chunks.flatten).2 ≠ .tooLong) by
    refine ⟨hh.1, ?_, hh.2⟩
    obtain ⟨gone, hg, hsub⟩ := hi.queued r hr
    rw [← hh.1, hg]
    exact hsub.trans (List.sublist_append_left _ _)
  by_cases hs' : r.stage = .ended
  · refine ⟨?_, fun _ => .inl hs'⟩
    rw [hs'] at hp
    refine hp chunks ending (hreads₀ ▸ hreads) fun hn => ⟨?_, (hgood hn).2⟩
    rintro ⟨t, ht, hl⟩
    exact (hgood hn).1 t ht hl
  · obtain ⟨hw, heq⟩ := hstop.resolve_left hs'
    obtain ⟨rfl, rfl⟩ := answers_inj (hreads₀.symm.trans heq)
    rw [← hconfig] at hp ⊢
    obtain ⟨hh, hn⟩ := settled_of_waiting hr hc hw hs' hp
    exact ⟨hh, fun hsrc => .inr (hn hsrc)⟩

/-- A greeting in two pieces, the second of which holds part of a frame. -/
theorem handed_in_pieces :
    let greeting := Frame.encode (Hello.format.write (.of ⟨"h", 1⟩))
    let chunks : List Bytes := [greeting.take 10, greeting.drop 10 ++ [0, 0, 0], [1, 5, 0, 0]]
    let work n := List.replicate n (Move.step (.receiver 0) .none)
    let read c := Move.step (.receiver 0) (.chunk c)
    let moves := .step .acceptor (.incoming 7 ⟨"p", 9⟩) :: work 1 ++
      read (greeting.take 10) :: work 1 ++ read (greeting.drop 10 ++ [0, 0, 0]) :: work 2 ++
      read [1, 5, 0, 0] :: work 4
    let m₀ := new ⟨"a", 2⟩ {} 0
    ∃ m hs r, m₀.run moves = some (m, hs) ∧ m.closed = false ∧ m.receivers[0]? = some r ∧
      m.receiverStep 0 .none = none ∧
      (m₀.transitions moves).flatMap (·.reads 0) = chunks.map .chunk ∧
      (m₀.transitions moves).flatMap (·.handed 0) = [(⟨"h", 1⟩, .frame [5])] := by
  intro greeting chunks work read moves m₀
  obtain ⟨⟨m, hs⟩, h⟩ : ∃ o, m₀.run moves = some o :=
    Option.isSome_iff_exists.mp (by decide +kernel)
  have hr : ((m₀.run moves).map fun o =>
      (o.1.closed, (o.1.receivers[0]?).map (·.peer), (o.1.receiverStep 0 .none).isNone)) =
      some (false, some ⟨"p", 9⟩, true) := by decide +kernel
  rw [h] at hr
  simp only [Option.map_some, Option.some.injEq, Prod.mk.injEq, Option.map_eq_some_iff,
    Option.isNone_iff_eq_none] at hr
  obtain ⟨ho, ⟨r, hg, hpeer⟩, hw⟩ := hr
  have hreads : (m₀.transitions moves).flatMap (·.reads 0) = chunks.map .chunk := by
    decide +kernel
  have hquiet : (m₀.transitions moves).flatMap (·.happenings) = [] := by decide +kernel
  have hall : (m₀.transitions moves).flatMap (·.reads 0) =
      chunks.map .chunk ++ StreamEnd.pending.answers := by
    rw [hreads]
    rfl
  have hp := handed_eq_interpret h ho hg ⟨[], by rw [List.append_nil, hall]⟩ (.inr ⟨hw, hall⟩)
    fun _ => ⟨fun t ht hl => ?_, nofun⟩
  · refine ⟨m, hs, r, h, ho, hg, hw, hreads, hp.1.trans ?_⟩
    rw [hpeer]
    decide +kernel
  · obtain ⟨-, peer, hl⟩ := hl
    rw [List.flatMap_eq_nil_iff.mp hquiet t ht] at hl
    cases hl
end PeerLink.Manager
