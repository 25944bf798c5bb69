import PeerLink.Proofs.Receiver.Intact

namespace PeerLink.Manager

open PeerLink.Frame (parse)

/-- A good greeting and whole frames, behind which the first bytes of one more frame have come. -/
structure Truncation (max : Nat) (peer : Endpoint) where
  greeting : Bytes
  frames : List Bytes
  body : Bytes
  cut : Nat
  source : Endpoint
  known : sourceOf? peer [greeting] = some source
  fits : ∀ b ∈ greeting :: frames ++ [body], b.length ≤ Frame.limit max
  within : cut < 4 + body.length

def ReceiverStage.Stopped : ReceiverStage → Prop
  | .routing _ _ (.failure _) _ | .ended => True
  | _ => False

namespace Truncation

variable {max : Nat} {peer : Endpoint} (c : Truncation max peer)

def bytes : Bytes :=
  (c.greeting :: c.frames).flatMap Frame.encode ++ (Frame.encode c.body).take c.cut

/-- What stands behind the frames is noticed unless it is nothing, or nothing but a length. -/
def failure? : Option IoError :=
  if c.cut = 0 ∨ c.cut = 4 then none else some Frame.unfinished

def items : List Item :=
  c.frames.map .frame ++ c.failure?.toList.map fun e => .failure (.connection c.source e)

theorem parse_bytes : parse max c.bytes =
    (c.greeting :: c.frames, if c.cut = 0 then .nothing else .part) := by
  have hbody : c.body.length ≤ Frame.limit max := c.fits _ (by simp)
  rw [bytes, Frame.parse_encodes fun b hb => c.fits b (List.mem_append_left _ hb),
    Frame.parse_take hbody c.within, List.append_nil]

theorem parse_completed : parse max (c.bytes ++ (Frame.encode c.body).drop c.cut) =
    (c.greeting :: c.frames ++ [c.body], .nothing) := by
  rw [bytes, List.append_assoc, List.take_append_drop]
  have hp := parse_bodies c.fits
  rwa [List.flatMap_append, List.flatMap_singleton] at hp

theorem expecting {rd : Reading} {found : List Bytes}
    (h : Expecting max rd c.bytes found .closed) (hn : (parse max rd.intake.unread).1 = []) :
    found = c.greeting :: c.frames ∧ rd.intake.unread.length = c.cut := by
  have hfound : found = c.greeting :: c.frames := by
    have hw := congrArg Prod.fst (h.whole.symm.trans c.parse_bytes)
    rwa [hn, List.append_nil] at hw
  refine ⟨hfound, ?_⟩
  have hp := (h.parsed ((Frame.encode c.body).drop c.cut)).symm.trans c.parse_completed
  obtain ⟨hb, hr⟩ := Prod.mk.inj hp
  rw [hfound, List.append_cancel_left_eq] at hb
  have hlen := Frame.length_of_parse (Prod.ext hb hr)
  simp only [List.length_append, List.length_drop, List.flatMap_singleton] at hlen
  have hin := c.within
  rw [← Frame.length_encode] at hin
  omega

theorem atEnd {rd : Reading} {found : List Bytes} (h : Expecting max rd c.bytes found .closed) :
    rd.atEnd = true := by
  cases hat : rd.atEnd with
  | true => rfl
  | false =>
    have he := h.ending
    rw [hat] at he
    cases he

variable {chunks : List Bytes} {handed : List (Endpoint × Item)} {late : Prop} {rd : Reading}

theorem greeted {t : Nat} (hp : Position max peer chunks .closed handed late (.greeting t rd))
    (hb : chunks.flatten = c.bytes) :
    ∃ hello, (rd.greeting max).1 = .ok (some hello) ∧ hello.version = Hello.currentVersion := by
  obtain ⟨-, he⟩ := hp
  rw [hb] at he
  have hparse : parse max rd.intake.unread = _ := he.whole.symm.trans c.parse_bytes
  rcases hg : rd.frame max with ⟨error | _ | body, i⟩
  · have hnone := parse_of_no_frame he.fits (by rw [hg]; nofun)
    rw [hparse] at hnone
    cases hnone
  · have hnone := parse_of_no_frame he.fits (by rw [hg]; nofun)
    rw [hparse] at hnone
    cases hnone
  · have hfirst := (frame_some he.fits hg).2 []
    rw [List.append_nil, hparse] at hfirst
    obtain ⟨rfl, -⟩ := List.cons.inj (congrArg Prod.fst hfirst)
    have hknown := c.known
    rw [sourceOf?] at hknown
    split at hknown
    · cases hknown
    · next hello hread =>
      obtain ⟨hv, -⟩ := Option.ite_none_right_eq_some.mp hknown
      refine ⟨hello, ?_, hv⟩
      simp [greeting_eq, hg, Except.bind, Frame.Format.ofBody, hread]

theorem ran_out {source : Endpoint}
    (hp : Position max peer chunks .closed handed late (.receiving source rd))
    (hb : chunks.flatten = c.bytes) (hno : ∀ body, (rd.frame max).1 ≠ .ok (some body)) :
    handed = c.frames.map (fun b => (c.source, .frame b)) ∧ source = c.source ∧
      (rd.frame max).1 = match c.failure? with
        | none => .ok none
        | some e => .error e := by
  obtain ⟨greeting, bodies, hg, rfl, he⟩ := hp
  rw [hb] at he
  have hn := parse_of_no_frame he.fits hno
  obtain ⟨hf, hlen⟩ := c.expecting he hn
  cases hf
  cases hg.symm.trans c.known
  refine ⟨rfl, rfl, ?_⟩
  have hl : (parse max rd.intake.unread).2 ≠ .tooLong := by
    have hw := congrArg Prod.snd (he.whole.symm.trans c.parse_bytes)
    intro ht
    rw [ht] at hw
    split at hw <;> cases hw
  rw [Reading.frame, if_pos (c.atEnd he), Frame.Intake.last_of_incomplete he.fits hn hl, hlen,
    failure?]
  split <;> rfl

end Truncation

variable {m m' m₁ : Manager} {mv : Move} {hs hs₁ : List Happening} {id : Nat} {r r₁ : Receiver}
  {a : Answer} {ts : List Transition} {chunks all : List Bytes} {ending : StreamEnd}
  {handed : List (Endpoint × Item)} {late : Prop}

theorem ReceiverStep.routed {source : Endpoint} {rd : Reading} {item : Item} {rt : Routing}
    (h : ReceiverStep m id r a m₁ hs₁) (hr : m.receivers[id]? = some r)
    (hr₁ : m₁.receivers[id]? = some r₁) (hs : r.stage = .routing source rd item rt) :
    a = .none ∧ (r₁.stage.Stopped → r.stage.Stopped) := by
  cases h with
  | @locate _ _ _ _ _ s hs' =>
    cases hs.symm.trans hs'
    cases (setReceiver_get
      (m := m.modifySubscription s fun s => { s with handles := s.handles + 1 })
      hr _).symm.trans hr₁
    rw [hs]
    cases item <;> exact ⟨rfl, fun h => h⟩
  | widen hs' =>
    cases hs.symm.trans hs'
    cases (setReceiver_get hr _).symm.trans hr₁
    rw [hs]
    cases item <;> exact ⟨rfl, fun h => h⟩
  | miss hs' =>
    cases hs.symm.trans hs'
    rw [hs]
    cases item with
    | frame body =>
      cases (setReceiver_get hr _).symm.trans hr₁
      exact ⟨rfl, nofun⟩
    | failure error => exact ⟨rfl, fun _ => trivial⟩
  | @hand _ _ _ s hs' =>
    cases hs.symm.trans hs'
    rw [hs]
    cases item with
    | frame body =>
      cases (setReceiver_get
        (m := (m.modifySubscription s (·.push (.frame body))).dropHandle s) hr _).symm.trans hr₁
      exact ⟨rfl, nofun⟩
    | failure error => exact ⟨rfl, fun _ => trivial⟩
  | halt hs' => obtain hs' | ⟨t, rd, hs'⟩ := hs' <;> cases hs.symm.trans hs'
  | _ hs' => cases hs.symm.trans hs'

theorem ReceiverStep.stops (h : ReceiverStep m id r a m₁ hs₁) (hr : m.receivers[id]? = some r)
    (hr₁ : m₁.receivers[id]? = some r₁) (hc : m.cancelled = false)
    (c : Truncation m.config.maxFrame r.peer)
    (hp : Position m.config.maxFrame r.peer chunks ending handed late r.stage)
    (ht : ¬∃ peer, .warned (.handshakeTimedOut peer) ∈ hs₁)
    (hreads : chunks.map Answer.chunk ++ ending.answers ++ (if a = .none then [] else [a]) =
      all.map .chunk ++ [.ended])
    (hall : all.flatten = c.bytes) (hn : ¬r.stage.Stopped) (hd : r₁.stage.Stopped) :
    handed ++ handedBetween r.stage r₁.stage = c.items.map (c.source, ·) := by
  have hend : a = .none → chunks.flatten = c.bytes ∧
      Position m.config.maxFrame r.peer chunks .closed handed late r.stage := by
    rintro rfl
    rw [if_pos rfl, List.append_nil] at hreads
    obtain ⟨rfl, rfl⟩ : chunks = all ∧ ending = .closed := answers_inj hreads
    exact ⟨hall, hp⟩
  have hunbroken : ∀ error, a ≠ .failed error := by
    rintro error rfl
    rw [if_neg (by simp)] at hreads
    obtain ⟨-, hlast⟩ := List.append_inj' hreads rfl
    cases hlast
  cases h with
  | halt _ hc' | leave _ hc' => cases hc.symm.trans hc'
  | reject hs _ _ hg | vanish hs _ _ hg =>
    obtain ⟨hb, hp⟩ := hend rfl
    rw [hs] at hp
    obtain ⟨hello, hgood, -⟩ := c.greeted hp hb
    rw [hg] at hgood
    cases hgood
  | disagree hs _ _ hg hv =>
    obtain ⟨hb, hp⟩ := hend rfl
    rw [hs] at hp
    obtain ⟨hello, hgood, hv'⟩ := c.greeted hp hb
    rw [hg] at hgood
    cases hgood
    exact absurd hv' hv
  | expire hs => exact absurd ⟨r.peer, by simp⟩ ht
  | breakGreeting | breakFrame => exact absurd rfl (hunbroken _)
  | fail hs _ _ hg =>
    cases (setReceiver_get hr _).symm.trans hr₁
    obtain ⟨hb, hp⟩ := hend rfl
    rw [hs] at hp
    obtain ⟨rfl, rfl, hf⟩ := c.ran_out hp hb (by simp [hg])
    rw [hg] at hf
    rw [hs, Truncation.items]
    cases he : c.failure? with
    | none =>
      rw [he] at hf
      cases hf
    | some e =>
      rw [he] at hf
      cases hf
      simp [handedBetween]
  | finish hs _ _ hg =>
    cases (setReceiver_get (m := { m with established := m.established - 1 }) hr _).symm.trans hr₁
    obtain ⟨hb, hp⟩ := hend rfl
    rw [hs] at hp
    obtain ⟨rfl, rfl, hf⟩ := c.ran_out hp hb (by simp [hg])
    rw [hg] at hf
    rw [hs, Truncation.items]
    cases he : c.failure? with
    | none => simp [handedBetween]
    | some e =>
      rw [he] at hf
      cases hf
  | start | expectGreeting | readGreeting | take | expectFrame | readFrame =>
    cases (setReceiver_get hr _).symm.trans hr₁
    exact hd.elim
  | establish =>
    cases (setReceiver_get (m := { m with established := m.established + 1 }) hr _).symm.trans hr₁
    exact hd.elim
  | locate hs hk hg => exact absurd ((ReceiverStep.routed (.locate hs hk hg) hr hr₁ hs).2 hd) hn
  | widen hs hg hw => exact absurd ((ReceiverStep.routed (.widen hs hg hw) hr hr₁ hs).2 hd) hn
  | miss hs hk => exact absurd ((ReceiverStep.routed (.miss hs hk) hr hr₁ hs).2 hd) hn
  | hand hs => exact absurd ((ReceiverStep.routed (.hand hs) hr hr₁ hs).2 hd) hn

def Told (max id : Nat) (m : Manager) (ts : List Transition) : Prop :=
  m.cancelled = false → ∀ r, m.receivers[id]? = some r → r.stage.Stopped →
    (∀ t ∈ ts, ¬t.TimesOut id) → ∀ (all : List Bytes) (c : Truncation max r.peer),
      ts.flatMap (·.reads id) = all.map .chunk ++ [.ended] → all.flatten = c.bytes →
        ts.flatMap (·.handed id) = c.items.map (c.source, ·)

theorem Told.move (h : Told m.config.maxFrame id m ts) (hi : Received id m ts)
    (hm : m.move mv = some (m', hs)) :
    Told m.config.maxFrame id m' (ts ++ [⟨m, mv, m', hs⟩]) := by
  intro hc r₁ hr₁ hd hlate all c hreads hall
  have hc : m.cancelled = false := (move_later hm).running hc
  have hold : ∀ t ∈ ts, ¬t.TimesOut id := fun t ht => hlate t (List.mem_append_left _ ht)
  simp only [List.flatMap_append, List.flatMap_singleton] at hreads ⊢
  cases hr : m.receivers[id]? with
  | none =>
    rw [move_newReceiver hm hr hr₁] at hd
    exact hd.elim
  | some r =>
    obtain ⟨a, m₁, hs₁, rfl, hstep, hreap⟩ | ⟨hne, hr'⟩ := move_receiver hm hr
    · have hr₂ : m₁.receivers[id]? = some r₁ := by
        rw [reap_scope hreap] at hr₁
        exact hr₁
      obtain ⟨r', hr', hpeer⟩ := move_peer hm hr
      cases hr₁.symm.trans hr'
      obtain ⟨stream, peer, stage⟩ := r₁
      obtain rfl : peer = r.peer := hpeer
      rw [Transition.handed_eq (t := ⟨m, _, m', hs⟩) hr hr₁]
      rw [Transition.reads_of_step (t := ⟨m, _, m', hs⟩) rfl] at hreads
      by_cases hn : r.stage.Stopped
      · cases hs' : r.stage with
        | routing source rd item rt =>
          obtain ⟨rfl, -⟩ := hstep.routed hr hr₂ hs'
          rw [if_pos rfl, List.append_nil] at hreads
          exact (List.append_nil _).trans (h hc r hr hn hold all c hreads hall)
        | ended => exact absurd hs' hstep.not_ended
        | _ =>
          rw [hs'] at hn
          exact hn.elim
      · obtain ⟨chunks, ending, hread, hp⟩ := hi.present hc r hr
        rw [hread] at hreads
        have ht : ¬∃ peer, .warned (.handshakeTimedOut peer) ∈ hs₁ := by
          rintro ⟨peer, hw⟩
          obtain ⟨streams, rfl⟩ := reap_happenings hreap
          refine hlate _ (List.mem_append_right _ (List.mem_singleton_self _)) ⟨rfl, peer, ?_⟩
          exact List.mem_append_left _ hw
        exact hstep.stops hr hr₂ hc c hp ht hreads hall hn hd
    · cases hr'.symm.trans hr₁
      rw [Transition.reads_of_ne (t := ⟨m, mv, m', hs⟩) hne, List.append_nil] at hreads
      rw [Transition.handed_eq (t := ⟨m, mv, m', hs⟩) hr hr', handedBetween_self, List.append_nil]
      exact h hc r₁ hr hd hold all c hreads hall

theorem run_told {address : Endpoint} {config : Config} {clock : Nat} {moves : List Move}
    (h : (new address config clock).run moves = some (m, hs)) :
    Told config.maxFrame id m ((new address config clock).transitions moves) := by
  refine (run_induction (P := fun m ts => m.config = config ∧ Received id m ts ∧
    Told config.maxFrame id m ts) ?_ ?_ h).2.2
  · refine ⟨rfl, .new id address config clock, fun _ r hr => ?_⟩
    cases (List.getElem?_nil (i := id)).symm.trans hr
  · rintro m ts mv m' hs ⟨rfl, hi, ht⟩ hm
    exact ⟨(move_later hm).config, hi.move hm, ht.move hi hm⟩

theorem ended_of_waiting (hi : Received id m ts) (hr : m.receivers[id]? = some r)
    (hc : m.cancelled = false) (hw : m.receiverStep id .none = none)
    (hreads : ts.flatMap (·.reads id) = chunks.map .chunk ++ [.ended]) : r.stage = .ended := by
  obtain ⟨chunks', ending, hreads', hp⟩ := hi.present hc r hr
  obtain ⟨rfl, rfl⟩ : chunks' = chunks ∧ ending = .closed := answers_inj (hreads'.symm.trans hreads)
  have hidle : ∀ {rd s found}, Expecting m.config.maxFrame rd s found .closed →
      rd.fresh ≠ false := by
    intro rd s found he hf
    have hend := he.ending
    rw [(he.idle hf).1] at hend
    cases hend
  obtain ⟨t, rd, hs, hf⟩ | ⟨source, rd, hs, hf⟩ | hs := idle_of_waiting hr hc hw
  · rw [hs] at hp
    exact absurd hf (hidle hp.2)
  · rw [hs] at hp
    obtain ⟨_, _, -, -, he⟩ := hp
    exact absurd hf (hidle he)
  · exact hs

/-- However the bytes of a connection are cut into reads, if they end within a frame, the observer
for them is called with all frames before, and then once with a failure; only where nothing but the
frame's length has come is there no such call, and the end passes for one between two frames. -/
theorem told_of_truncation {address : Endpoint} {config : Config} {clock : Nat} {moves : List Move}
    {key : Endpoint} {s : SubscriptionId} {b : Subscription}
    (h : (new address config clock).run moves = some (m, hs)) (ho : m.closed = false)
    (hr : m.receivers[id]? = some r) (c : Truncation config.maxFrame r.peer)
    (hreads : ((new address config clock).transitions moves).flatMap (·.reads id) =
      chunks.map .chunk ++ [.ended])
    (hbytes : chunks.flatten = c.bytes)
    (htime : ∀ t ∈ (new address config clock).transitions moves, ¬t.TimesOut id)
    (hobserved : ∀ t ∈ (new address config clock).transitions moves, t.Observed id key s)
    (hb : m.subscriptions[s]? = some b) (hrun : b.stage = .running)
    (hw : m.receiverStep id .none = none) (hd : m.dispatchStep s = none) :
    r.stage = .ended ∧
      callsOn s ((new address config clock).transitions moves) =
        (queuedTo s ((new address config clock).transitions moves)).map callbackOf ∧
      ((queuedTo s ((new address config clock).transitions moves)).filter (·.1 = id)).map callbackOf =
        c.frames.map .next ++ c.failure?.toList.map fun e => .error (.connection c.source e) := by
  have hc : m.cancelled = false := (run_flagged h).running ho
  have hended : r.stage = .ended := ended_of_waiting (run_received h) hr hc hw hreads
  refine ⟨hended, (run_served h).2.drained hb hrun hc hd, ?_⟩
  have hhanded := run_told h hc r hr (by rw [hended]; trivial) htime chunks c hreads hbytes
  have hpassed := (run_passed h hobserved).all r hr
  have hpending : r.stage.pending = [] := by
    rw [hended]
    rfl
  rw [hhanded, hpending, List.append_nil] at hpassed
  have hitems : passedTo id s ((new address config clock).transitions moves) = c.items := by
    rw [← hpassed, List.map_map]
    exact List.map_id' _
  have hcalls := congrArg (List.map Item.callback) hitems
  rw [passedTo, List.map_map, Truncation.items, List.map_append, List.map_map,
    List.map_map] at hcalls
  exact hcalls

theorem told_of_truncation_in_body :
    let greeting := Hello.format.write (.of ⟨"h", 1⟩)
    let bytes : Bytes := Frame.encode greeting ++ Frame.encode [5] ++ (Frame.encode [1, 2, 3]).take 6
    let work task n := List.replicate n (Move.step task .none)
    let read a := Move.step (.receiver 0) a
    let moves := .register ⟨"h", 0⟩ 4 :: work (.registration 0) 4 ++
      .step .acceptor (.incoming 7 ⟨"p", 9⟩) :: work (.receiver 0) 1 ++
      read (.chunk (bytes.take 10)) :: work (.receiver 0) 1 ++
      read (.chunk (bytes.drop 10)) :: work (.receiver 0) 6 ++
      read .ended :: work (.receiver 0) 4 ++ work (.dispatch 0) 2
    let m₀ := new ⟨"a", 2⟩ {} 0
    ∃ m hs r, m₀.run moves = some (m, hs) ∧ m.closed = false ∧ m.receivers[0]? = some r ∧
      (m₀.transitions moves).flatMap (·.reads 0) =
        [bytes.take 10, bytes.drop 10].map .chunk ++ [.ended] ∧
      (∀ t ∈ m₀.transitions moves, t.Observed 0 ⟨"h", 0⟩ 0) ∧
      m.receiverStep 0 .none = none ∧ m.dispatchStep 0 = none ∧ r.stage = .ended ∧
      ((queuedTo 0 (m₀.transitions moves)).filter (·.1 = 0)).map callbackOf =
        [.next [5], .error (.connection ⟨"h", 1⟩ Frame.unfinished)] := by
  intro greeting bytes work read moves m₀
  obtain ⟨⟨m, hs⟩, h⟩ : ∃ o, m₀.run moves = some o :=
    Option.isSome_iff_exists.mp (by decide +kernel)
  have hr : ((m₀.run moves).map fun o => (o.1.closed, (o.1.receivers[0]?).map (·.peer),
      (o.1.subscriptions[0]?).map (·.stage), (o.1.receiverStep 0 .none).isNone,
      (o.1.dispatchStep 0).isNone)) = some (false, some ⟨"p", 9⟩, some .running, true, true) := by
    decide +kernel
  rw [h] at hr
  simp only [Option.map_some, Option.some.injEq, Prod.mk.injEq, Option.map_eq_some_iff,
    Option.isNone_iff_eq_none] at hr
  obtain ⟨ho, ⟨⟨stream, peer, stage⟩, hg, rfl⟩, ⟨b, hb, hrun⟩, hw, hd⟩ := hr
  have hreads : (m₀.transitions moves).flatMap (·.reads 0) =
      [bytes.take 10, bytes.drop 10].map .chunk ++ [.ended] := by
    decide +kernel
  have hobserved : ∀ t ∈ m₀.transitions moves,
      (t.before.receivers[0]?).bind (·.stage.source?) = none ∨
        (t.before.receivers[0]?).bind (·.stage.source?) = some ⟨"h", 1⟩ ∧
          t.before.observers.get? ⟨"h", 0⟩ = some 0 ∧ t.before.observers.get? ⟨"h", 1⟩ = none := by
    decide +kernel
  have hobserved : ∀ t ∈ m₀.transitions moves, t.Observed 0 ⟨"h", 0⟩ 0 := by
    intro t ht r source hr hs
    have hsource : (t.before.receivers[0]?).bind (·.stage.source?) = some source := by
      rw [hr]
      exact hs
    obtain hno | ⟨hone, hkey, hexact⟩ := hobserved t ht
    · cases hno.symm.trans hsource
    · cases hone.symm.trans hsource
      exact ⟨hkey, .inr ⟨rfl, hexact⟩⟩
  have hhappened : (m₀.transitions moves).flatMap (·.happenings) = [.enqueued 0 (.frame [5]),
      .warned (.receiveFailed ⟨"h", 1⟩ Frame.unfinished),
      .enqueued 0 (.failure (.connection ⟨"h", 1⟩ Frame.unfinished)), .released 7,
      .called 0 4 (.next [5]), .called 0 4 (.error (.connection ⟨"h", 1⟩ Frame.unfinished))] := by
    decide +kernel
  have htime : ∀ t ∈ m₀.transitions moves, ¬t.TimesOut 0 := by
    rintro t ht ⟨-, peer, hw⟩
    have hin := List.mem_flatMap.mpr ⟨t, ht, hw⟩
    rw [hhappened] at hin
    simp at hin
  let c : Truncation ({} : Config).maxFrame ⟨"p", 9⟩ :=
    { greeting, frames := [[5]], body := [1, 2, 3], cut := 6, source := ⟨"h", 1⟩
      known := by decide +kernel
      fits := by decide +kernel
      within := by decide }
  obtain ⟨hended, -, hcalls⟩ := told_of_truncation h ho hg c hreads
    (by simp [c, bytes, Truncation.bytes]) htime hobserved hb hrun hw hd
  exact ⟨m, hs, _, h, ho, hg, hreads, hobserved, hw, hd, hended, hcalls⟩

theorem silent_behind_length :
    let greeting := Hello.format.write (.of ⟨"h", 1⟩)
    let bytes : Bytes := Frame.encode greeting ++ Frame.encode [5] ++ (Frame.encode [1, 2, 3]).take 4
    let work task n := List.replicate n (Move.step task .none)
    let read a := Move.step (.receiver 0) a
    let moves := .register ⟨"h", 1⟩ 4 :: work (.registration 0) 4 ++
      .step .acceptor (.incoming 7 ⟨"p", 9⟩) :: work (.receiver 0) 1 ++
      read (.chunk bytes) :: work (.receiver 0) 5 ++ read .ended :: work (.receiver 0) 1 ++
      work (.dispatch 0) 1
    let m₀ := new ⟨"a", 2⟩ {} 0
    (m₀.run moves).map (fun o => (o.1.closed, (o.1.receivers[0]?).map (·.stage),
      (o.1.observers.get? ⟨"h", 1⟩), (o.1.receiverStep 0 .none).isNone,
      (o.1.dispatchStep 0).isNone)) = some (false, some .ended, some 0, true, true) ∧
    callsOn 0 (m₀.transitions moves) = [.next [5]] := by
  decide +kernel

end PeerLink.Manager
