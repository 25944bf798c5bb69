import PeerLink.Proofs.Manager.Moves
import PeerLink.Proofs.Receiver.Decoding

namespace PeerLink.Manager

open PeerLink.Frame (parse)

/-- How the bytes of a connection end: not yet, for good, or with a failure. -/
inductive StreamEnd where
  | pending
  | closed
  | broken (error : IoError)

def StreamEnd.answers : StreamEnd → List Answer
  | .pending => []
  | .closed => [.ended]
  | .broken error => [.failed error]

def failure? : Frame.Remainder → StreamEnd → Option IoError
  | .tooLong, _ => some (Frame.tooBig .invalidData)
  | _, .broken error => some error
  | _, _ => none

/-- What the bytes of a connection spell: nothing without a good greeting, and behind one a frame
for every body and at most one failure. -/
def interpret (max : Nat) (peer : Endpoint) (s : Bytes) (ending : StreamEnd) :
    List (Endpoint × Item) :=
  match sourceOf? peer (parse max s).1 with
  | none => []
  | some source =>
    ((parse max s).1.tail.map Item.frame ++
      (failure? (parse max s).2 ending).toList.map fun e => Item.failure (.connection source e)).map
        (source, ·)

def handedBetween : ReceiverStage → ReceiverStage → List (Endpoint × Item)
  | .receiving _ _, .routing source _ item _ => [(source, item)]
  | _, _ => []

def Happening.item? : Happening → Option Item
  | .enqueued _ item => some item
  | _ => none

def Move.task? : Move → Option Task
  | .step task _ => some task
  | _ => none

namespace Transition

variable (id : Nat) (t : Transition)

def reads : List Answer :=
  match t.move with
  | .step (.receiver i) a => if i = id ∧ a ≠ .none then [a] else []
  | _ => []

/-- What a receiver hands to the observer table. -/
def handed : List (Endpoint × Item) :=
  match t.before.receivers[id]?, t.after.receivers[id]? with
  | some r, some r' => handedBetween r.stage r'.stage
  | _, _ => []

/-- What a receiver puts into the queues of subscriptions. -/
def enqueued : List Item :=
  if t.move.task? = some (.receiver id) then t.happenings.filterMap Happening.item? else []

def TimesOut : Prop :=
  t.move.task? = some (.receiver id) ∧ ∃ peer, .warned (.handshakeTimedOut peer) ∈ t.happenings

end Transition

variable {max : Nat} {peer : Endpoint}

structure Expecting (max : Nat) (rd : Reading) (s : Bytes) (frames : List Bytes)
    (ending : StreamEnd) : Prop where
  fits : rd.intake.Fits max
  ending : ending = if rd.atEnd then .closed else .pending
  parsed : ∀ more, parse max (s ++ more) =
    (frames ++ (parse max (rd.intake.unread ++ more)).1, (parse max (rd.intake.unread ++ more)).2)
  idle : rd.fresh = false → rd.atEnd = false ∧
    (parse max rd.intake.unread).1 = [] ∧ (parse max rd.intake.unread).2 ≠ .tooLong

def Settled (max : Nat) (peer : Endpoint) (chunks : List Bytes) (ending : StreamEnd)
    (handed : List (Endpoint × Item)) (late : Prop) : Prop :=
  ∀ (chunks' : List Bytes) (ending' : StreamEnd),
    chunks.map Answer.chunk ++ ending.answers <+: chunks'.map .chunk ++ ending'.answers →
    (sourceOf? peer (parse max chunks'.flatten).1 ≠ none → ¬late ∧
      (ending' = .closed → (parse max chunks'.flatten).2 ≠ .part)) →
    handed = interpret max peer chunks'.flatten ending'

def Position (max : Nat) (peer : Endpoint) (chunks : List Bytes) (ending : StreamEnd)
    (handed : List (Endpoint × Item)) (late : Prop) : ReceiverStage → Prop
  | .opening => chunks = [] ∧ ending = .pending ∧ handed = []
  | .greeting _ rd => handed = [] ∧ Expecting max rd chunks.flatten [] ending
  | .receiving source rd | .routing source rd (.frame _) _ =>
    ∃ greeting bodies, sourceOf? peer [greeting] = some source ∧
      handed = bodies.map (fun b => (source, .frame b)) ∧
      Expecting max rd chunks.flatten (greeting :: bodies) ending
  | .routing _ _ (.failure _) _ | .ended => Settled max peer chunks ending handed late

theorem prefix_of_answers {chunks chunks' : List Bytes} {ending ending' : StreamEnd}
    (h : chunks.map Answer.chunk ++ ending.answers <+: chunks'.map .chunk ++ ending'.answers) :
    (∃ more, chunks' = chunks ++ more) ∧
      (ending ≠ .pending → chunks' = chunks ∧ ending' = ending) := by
  induction chunks generalizing chunks' with
  | nil =>
    refine ⟨⟨chunks', rfl⟩, fun he => ?_⟩
    cases chunks' with
    | nil => cases ending <;> cases ending' <;> simp_all [StreamEnd.answers]
    | cons c chunks' => cases ending <;> simp_all [StreamEnd.answers]
  | cons c chunks ih =>
    cases chunks' with
    | nil => cases ending' <;> simp [StreamEnd.answers] at h
    | cons c' chunks' =>
      simp only [List.map_cons, List.cons_append, List.cons_prefix_cons,
        Answer.chunk.injEq] at h
      obtain ⟨rfl, h⟩ := h
      obtain ⟨⟨more, rfl⟩, he⟩ := ih h
      refine ⟨⟨more, rfl⟩, fun hp => ?_⟩
      obtain ⟨hc, rfl⟩ := he hp
      exact ⟨by rw [hc], rfl⟩

namespace Settled

variable {chunks : List Bytes} {ending : StreamEnd} {handed : List (Endpoint × Item)}
  {late late' : Prop}

theorem mono (h : Settled max peer chunks ending handed late) (hl : late → late') :
    Settled max peer chunks ending handed late' :=
  fun c e hp hs => h c e hp fun hn => ⟨fun hl' => (hs hn).1 (hl hl'), (hs hn).2⟩

/-- Nothing that may still come makes a difference. -/
theorem of_all (h : ∀ more ending', handed = interpret max peer (chunks.flatten ++ more) ending') :
    Settled max peer chunks ending handed late := by
  intro chunks' ending' hp _
  obtain ⟨⟨more, rfl⟩, -⟩ := prefix_of_answers hp
  rw [List.flatten_append]
  exact h more.flatten ending'

theorem of_end (he : ending ≠ .pending)
    (h : (sourceOf? peer (parse max chunks.flatten).1 ≠ none → ending = .closed →
      (parse max chunks.flatten).2 ≠ .part) → handed = interpret max peer chunks.flatten ending) :
    Settled max peer chunks ending handed late := by
  intro chunks' ending' hp hs
  obtain ⟨rfl, rfl⟩ := (prefix_of_answers hp).2 he
  exact h fun hn => (hs hn).2

/-- Nothing is said of a stream that ends within a frame. -/
theorem of_part {source : Endpoint} {greeting : Bytes} {bodies : List Bytes}
    (hg : sourceOf? peer [greeting] = some source)
    (hw : parse max chunks.flatten = (greeting :: bodies, .part)) :
    Settled max peer chunks .closed handed late := by
  refine of_end (by simp) fun hpart => ?_
  have hsource : sourceOf? peer (greeting :: bodies) ≠ none := by
    rw [show sourceOf? peer (greeting :: bodies) = some source from hg]
    nofun
  rw [hw] at hpart
  exact absurd rfl (hpart hsource rfl)

end Settled

theorem interpret_of_refused {s : Bytes} {ending : StreamEnd}
    (h : sourceOf? peer (parse max s).1 = none) : interpret max peer s ending = [] := by
  rw [interpret, h]

theorem interpret_of_parse {s greeting : Bytes} {bodies : List Bytes} {source : Endpoint}
    {rest : Frame.Remainder} {ending : StreamEnd} (hs : sourceOf? peer [greeting] = some source)
    (h : parse max s = (greeting :: bodies, rest)) :
    interpret max peer s ending = bodies.map (fun b => (source, Item.frame b)) ++
      (failure? rest ending).toList.map fun e => (source, Item.failure (.connection source e)) := by
  have hg : sourceOf? peer (greeting :: bodies) = some source := hs
  simp only [interpret, h, hg, List.tail_cons, List.map_append, List.map_map]
  rfl

namespace Expecting

variable {rd rd' : Reading} {i : Frame.Intake} {s : Bytes} {frames : List Bytes}
  {ending : StreamEnd}

theorem new : Expecting max {} [] [] .pending :=
  ⟨Frame.Intake.fits_new, rfl, fun _ => rfl, fun _ => by
    rw [Frame.Intake.unread, Frame.parse_nil]
    simp⟩

theorem whole (h : Expecting max rd s frames ending) :
    parse max s =
      (frames ++ (parse max rd.intake.unread).1, (parse max rd.intake.unread).2) := by
  have hp := h.parsed []
  rwa [List.append_nil, List.append_nil] at hp

theorem dry (h : Expecting max rd s frames ending) (hg : rd.frame max = (.ok none, i)) :
    parse max s = (frames, .part) ∨ parse max s = (frames, .nothing) := by
  obtain ⟨-, hm, hn⟩ := frame_none h.fits hg
  have hm := hm []
  rw [List.append_nil, List.append_nil] at hm
  rw [h.whole, ← hm]
  obtain hn | ⟨-, hn⟩ := hn
  · left
    rw [hn, List.append_nil]
  · right
    rw [hn, List.append_nil]

theorem look (h : Expecting max rd s frames ending) (hg : rd.frame max = (.ok none, i))
    (he : rd.atEnd = false) :
    Expecting max { rd with intake := i, fresh := false } s frames ending := by
  obtain ⟨hi, hm, hp⟩ := frame_none h.fits hg
  refine ⟨hi, h.ending, fun more => ?_, fun _ => ⟨he, ?_⟩⟩
  · rw [h.parsed, hm]
  · obtain hp | ⟨-, hp⟩ := hp <;> rw [hp] <;> simp

theorem take {body : Bytes} (h : Expecting max rd s frames ending) (hf : rd.fresh = true)
    (hg : rd.frame max = (.ok (some body), i)) :
    Expecting max { rd with intake := i } s (frames ++ [body]) ending := by
  obtain ⟨hi, hm⟩ := frame_some h.fits hg
  refine ⟨hi, h.ending, fun more => ?_, fun hn => ?_⟩
  · rw [h.parsed, hm]
    simp
  · rw [hf] at hn
    cases hn

theorem read {a : Answer} (h : Expecting max rd s frames ending) (hf : rd.fresh = false)
    (hr : rd.take? a = some rd') :
    ending = .pending ∧
      ((∃ bytes, a = .chunk bytes ∧ Expecting max rd' (s ++ bytes) frames .pending) ∨
      a = .ended ∧ Expecting max rd' s frames .closed) := by
  have he := h.ending
  rw [(h.idle hf).1] at he
  refine ⟨he, ?_⟩
  cases a with
  | chunk bytes =>
    cases hr
    refine .inl ⟨bytes, rfl, h.fits, ?_, fun more => ?_, nofun⟩
    · rw [(h.idle hf).1]
      rfl
    · rw [List.append_assoc, h.parsed, Frame.Intake.unread_feed, List.append_assoc]
  | ended =>
    cases hr
    exact .inr ⟨rfl, h.fits, rfl, h.parsed, nofun⟩
  | _ => cases hr

end Expecting

variable {m m₁ : Manager} {id : Nat} {r : Receiver} {a : Answer} {hs₁ : List Happening}
  {chunks : List Bytes} {ending : StreamEnd} {handed : List (Endpoint × Item)} {late late' : Prop}

theorem Position.mono {stage : ReceiverStage} (hl : late → late')
    (h : Position max peer chunks ending handed late stage) :
    Position max peer chunks ending handed late' stage := by
  cases stage with
  | routing source rd item rt =>
    cases item with
    | frame body => exact h
    | failure error => exact Settled.mono h hl
  | ended => exact Settled.mono h hl
  | _ => exact h

theorem setReceiver_get (hr : m.receivers[id]? = some r) (stage : ReceiverStage) :
    (m.setReceiver id stage).receivers[id]? = some { r with stage } := by
  simp [setReceiver, hr]

def Moved (max : Nat) (m₁ : Manager) (id : Nat) (r : Receiver) (a : Answer) (chunks : List Bytes)
    (ending : StreamEnd) (handed : List (Endpoint × Item)) (late : Prop) : Prop :=
  ∃ (stage : ReceiverStage) (chunks' : List Bytes) (ending' : StreamEnd),
    m₁.receivers[id]? = some { r with stage } ∧
    chunks'.map Answer.chunk ++ ending'.answers =
      (chunks.map .chunk ++ ending.answers) ++ (if a = .none then [] else [a]) ∧
    Position max r.peer chunks' ending' (handed ++ handedBetween r.stage stage) late stage

theorem Moved.silent {stage : ReceiverStage} (hr : m₁.receivers[id]? = some { r with stage })
    (hp : Position max r.peer chunks ending (handed ++ handedBetween r.stage stage) late stage) :
    Moved max m₁ id r .none chunks ending handed late :=
  ⟨stage, chunks, ending, hr, by simp, hp⟩

theorem moved_of_greeting {t : Nat} {rd : Reading} (hr : m.receivers[id]? = some r)
    (hs : r.stage = .greeting t rd) (h : ReceiverStep m id r a m₁ hs₁)
    (hc : m.cancelled = false)
    (hp : Position m.config.maxFrame r.peer chunks ending handed late r.stage)
    (ht : (∃ p, .warned (.handshakeTimedOut p) ∈ hs₁) → late) :
    Moved m.config.maxFrame m₁ id r a chunks ending handed late := by
  rw [hs] at hp
  obtain ⟨rfl, he⟩ := hp
  cases h with
  | halt _ hc' => cases hc.symm.trans hc'
  | reject hs' _ hf hg =>
    cases hs.symm.trans hs'
    refine .silent (setReceiver_get hr _) ?_
    rw [hs]
    obtain hn | ⟨hat, hn⟩ := greeting_error r.peer he.fits hg
    · refine Settled.of_all fun more e => (interpret_of_refused ?_).symm
      rw [he.parsed]
      exact (hn more).1
    · refine Settled.of_end ?_ fun _ => (interpret_of_refused ?_).symm
      · simp [he.ending, hat]
      · rw [he.whole, hn]
        rfl
  | disagree hs' _ hf hg hv =>
    cases hs.symm.trans hs'
    refine .silent (setReceiver_get hr _) ?_
    rw [hs]
    obtain ⟨body, hb, hread⟩ := greeting_some hg
    refine Settled.of_all fun more e => (interpret_of_refused ?_).symm
    rw [he.parsed, (frame_some he.fits hb).2]
    simp [sourceOf?, hread, hv]
  | establish hs' _ hf hg hv =>
    cases hs.symm.trans hs'
    refine .silent (setReceiver_get hr _) ?_
    rw [hs]
    obtain ⟨body, hb, hread⟩ := greeting_some hg
    refine ⟨body, [], by simp [sourceOf?, hread, hv], rfl, ?_⟩
    exact he.take hf hb
  | vanish hs' _ hf hg hat =>
    cases hs.symm.trans hs'
    refine .silent (setReceiver_get hr _) ?_
    rw [hs]
    refine Settled.of_end ?_ fun _ => (interpret_of_refused ?_).symm
    · simp [he.ending, hat]
    · obtain hw | hw := he.dry (greeting_none hg) <;> rw [hw] <;> rfl
  | expectGreeting hs' _ hf hg hat =>
    cases hs.symm.trans hs'
    refine .silent (setReceiver_get hr _) ?_
    rw [hs]
    exact ⟨rfl, he.look (greeting_none hg) hat⟩
  | expire hs' _ hf hlate =>
    cases hs.symm.trans hs'
    refine .silent (setReceiver_get hr _) ?_
    rw [hs]
    have hl : late := ht ⟨r.peer, by simp⟩
    intro chunks' ending' _ hn
    by_cases hsrc : sourceOf? r.peer (parse m.config.maxFrame chunks'.flatten).1 = none
    · exact (interpret_of_refused hsrc).symm
    · exact absurd hl (hn hsrc).1
  | @breakGreeting _ _ error hs' _ hf =>
    cases hs.symm.trans hs'
    obtain ⟨hat, hn, -⟩ := he.idle hf
    have hend : ending = .pending := by rw [he.ending, hat]; rfl
    subst hend
    refine ⟨.ended, chunks, .broken error, setReceiver_get hr _, by simp [StreamEnd.answers], ?_⟩
    rw [hs]
    refine Settled.of_end (by simp) fun _ => (interpret_of_refused ?_).symm
    rw [he.whole, hn]
    rfl
  | readGreeting hs' _ hf hread =>
    cases hs.symm.trans hs'
    obtain ⟨rfl, ⟨bytes, rfl, he'⟩ | ⟨rfl, he'⟩⟩ := he.read hf hread
    · refine ⟨_, chunks ++ [bytes], .pending, setReceiver_get hr _, by simp [StreamEnd.answers], ?_⟩
      rw [hs]
      exact ⟨rfl, by simpa using he'⟩
    · refine ⟨_, chunks, .closed, setReceiver_get hr _, by simp [StreamEnd.answers], ?_⟩
      rw [hs]
      exact ⟨rfl, he'⟩
  | start hs' | leave hs' | fail hs' | take hs' | finish hs' | expectFrame hs' | breakFrame hs'
  | readFrame hs' | locate hs' | widen hs' | miss hs' | hand hs' => cases hs.symm.trans hs'

theorem moved_of_opening (hr : m.receivers[id]? = some r) (hs : r.stage = .opening)
    (h : ReceiverStep m id r a m₁ hs₁) (hc : m.cancelled = false)
    (hp : Position m.config.maxFrame r.peer chunks ending handed late r.stage) :
    Moved m.config.maxFrame m₁ id r a chunks ending handed late := by
  rw [hs] at hp
  obtain ⟨rfl, rfl, rfl⟩ := hp
  cases h with
  | halt _ hc' => cases hc.symm.trans hc'
  | start =>
    refine .silent (setReceiver_get hr _) ?_
    rw [hs]
    exact ⟨rfl, .new⟩
  | reject hs' | disagree hs' | establish hs' | vanish hs' | expectGreeting hs' | expire hs'
  | breakGreeting hs' | readGreeting hs' | leave hs' | fail hs' | take hs' | finish hs'
  | expectFrame hs' | breakFrame hs' | readFrame hs' | locate hs' | widen hs' | miss hs'
  | hand hs' => cases hs.symm.trans hs'

theorem moved_of_receiving {source : Endpoint} {rd : Reading} (hr : m.receivers[id]? = some r)
    (hs : r.stage = .receiving source rd) (h : ReceiverStep m id r a m₁ hs₁)
    (hc : m.cancelled = false)
    (hp : Position m.config.maxFrame r.peer chunks ending handed late r.stage) :
    Moved m.config.maxFrame m₁ id r a chunks ending handed late := by
  rw [hs] at hp
  obtain ⟨greeting, bodies, hg, rfl, he⟩ := hp
  cases h with
  | leave _ hc' => cases hc.symm.trans hc'
  | fail hs' _ hf herr =>
    cases hs.symm.trans hs'
    refine .silent (setReceiver_get hr _) ?_
    rw [hs]
    obtain ⟨rfl, hn⟩ | ⟨hat, hn⟩ := frame_error he.fits herr
    · refine Settled.of_all fun more e => ?_
      have hp := he.parsed more
      rw [hn, List.append_nil] at hp
      rw [interpret_of_parse hg hp]
      rfl
    · have hend : ending = .closed := by rw [he.ending, if_pos hat]
      subst hend
      have hw := he.whole
      rw [hn, List.append_nil] at hw
      exact Settled.of_part hg hw
  | @take _ _ body _ hs' _ hf hn =>
    cases hs.symm.trans hs'
    refine .silent (setReceiver_get hr _) ?_
    rw [hs]
    exact ⟨greeting, bodies ++ [body], hg, by simp [handedBetween], he.take hf hn⟩
  | finish hs' _ hf hn hat =>
    cases hs.symm.trans hs'
    refine .silent (setReceiver_get (m := { m with established := _ }) hr _) ?_
    rw [hs]
    have hend : ending = .closed := by rw [he.ending, if_pos hat]
    subst hend
    obtain hw | hw := he.dry hn
    · exact Settled.of_part hg hw
    · refine Settled.of_end (by simp) fun _ => ?_
      rw [interpret_of_parse hg hw]
      rfl
  | expectFrame hs' _ hf hn hat =>
    cases hs.symm.trans hs'
    refine .silent (setReceiver_get hr _) ?_
    rw [hs]
    exact ⟨greeting, bodies, hg, by simp [handedBetween], he.look hn hat⟩
  | @breakFrame _ _ error hs' _ hf =>
    cases hs.symm.trans hs'
    obtain ⟨hat, hn, hl⟩ := he.idle hf
    have hend : ending = .pending := by rw [he.ending, hat]; rfl
    subst hend
    refine ⟨_, chunks, .broken error, setReceiver_get hr _, by simp [StreamEnd.answers], ?_⟩
    rw [hs]
    refine Settled.of_end (by simp) fun _ => ?_
    have hw := he.whole
    rw [hn, List.append_nil] at hw
    have hf : failure? (parse m.config.maxFrame rd.intake.unread).2 (.broken error) =
        some error := by
      cases hrest : (parse m.config.maxFrame rd.intake.unread).2 with
      | tooLong => exact absurd hrest hl
      | _ => rfl
    rw [interpret_of_parse hg hw, hf]
    rfl
  | readFrame hs' _ hf hread =>
    cases hs.symm.trans hs'
    obtain ⟨rfl, ⟨bytes, rfl, he'⟩ | ⟨rfl, he'⟩⟩ := he.read hf hread
    · refine ⟨_, chunks ++ [bytes], .pending, setReceiver_get hr _, by simp [StreamEnd.answers], ?_⟩
      rw [hs]
      exact ⟨greeting, bodies, hg, by simp [handedBetween], by simpa using he'⟩
    · refine ⟨_, chunks, .closed, setReceiver_get hr _, by simp [StreamEnd.answers], ?_⟩
      rw [hs]
      exact ⟨greeting, bodies, hg, by simp [handedBetween], he'⟩
  | halt hs' =>
    obtain hs' | ⟨t, rd, hs'⟩ := hs' <;> cases hs.symm.trans hs'
  | start hs' | reject hs' | disagree hs' | establish hs' | vanish hs' | expectGreeting hs'
  | expire hs' | breakGreeting hs' | readGreeting hs' | locate hs' | widen hs' | miss hs'
  | hand hs' => cases hs.symm.trans hs'

theorem moved_of_afterRouting {source : Endpoint} {rd : Reading} {item : Item} {rt : Routing}
    {hs₂ : List Happening} (hr : m.receivers[id]? = some r)
    (hs : r.stage = .routing source rd item rt)
    (hp : Position max r.peer chunks ending handed late r.stage) :
    Moved max (m.afterRouting id r source rd item hs₂).1 id r .none chunks ending handed late := by
  rw [hs] at hp
  cases item with
  | frame body =>
    refine .silent (setReceiver_get hr _) ?_
    rw [hs]
    simp only [handedBetween, List.append_nil]
    exact hp
  | failure error =>
    refine .silent (setReceiver_get (m := { m with established := _ }) hr _) ?_
    rw [hs]
    simp only [handedBetween, List.append_nil]
    exact hp

theorem moved_of_routing {source : Endpoint} {rd : Reading} {item : Item} {rt : Routing}
    (hr : m.receivers[id]? = some r) (hs : r.stage = .routing source rd item rt)
    (h : ReceiverStep m id r a m₁ hs₁)
    (hp : Position max r.peer chunks ending handed late r.stage) :
    Moved max m₁ id r a chunks ending handed late := by
  have hk : ∀ rt', Position max r.peer chunks ending
      (handed ++ handedBetween r.stage (.routing source rd item rt')) late
      (.routing source rd item rt') := by
    intro rt'
    rw [hs] at hp ⊢
    simp only [handedBetween, List.append_nil]
    cases item with
    | frame body => exact hp
    | failure error => exact hp
  cases h with
  | locate hs' =>
    cases hs.symm.trans hs'
    exact .silent (setReceiver_get (m := m.modifySubscription _ _) hr _) (hk _)
  | widen hs' =>
    cases hs.symm.trans hs'
    exact .silent (setReceiver_get hr _) (hk _)
  | miss hs' =>
    cases hs.symm.trans hs'
    exact moved_of_afterRouting hr hs hp
  | hand hs' =>
    cases hs.symm.trans hs'
    exact moved_of_afterRouting (m := (m.modifySubscription _ _).dropHandle _) hr hs hp
  | halt hs' =>
    obtain hs' | ⟨t, rd, hs'⟩ := hs' <;> cases hs.symm.trans hs'
  | start hs' | reject hs' | disagree hs' | establish hs' | vanish hs' | expectGreeting hs'
  | expire hs' | breakGreeting hs' | readGreeting hs' | leave hs' | fail hs' | take hs'
  | finish hs' | expectFrame hs' | breakFrame hs' | readFrame hs' => cases hs.symm.trans hs'

theorem ReceiverStep.not_ended (h : ReceiverStep m id r a m₁ hs₁) : r.stage ≠ .ended := by
  intro hs
  cases h with
  | halt hs' =>
    obtain hs' | ⟨t, rd, hs'⟩ := hs' <;> cases hs.symm.trans hs'
  | start hs' | reject hs' | disagree hs' | establish hs' | vanish hs' | expectGreeting hs'
  | expire hs' | breakGreeting hs' | readGreeting hs' | leave hs' | fail hs' | take hs'
  | finish hs' | expectFrame hs' | breakFrame hs' | readFrame hs' | locate hs' | widen hs'
  | miss hs' | hand hs' => cases hs.symm.trans hs'

theorem Position.step (hr : m.receivers[id]? = some r) (h : ReceiverStep m id r a m₁ hs₁)
    (hc : m.cancelled = false)
    (hp : Position m.config.maxFrame r.peer chunks ending handed late r.stage)
    (ht : (∃ p, .warned (.handshakeTimedOut p) ∈ hs₁) → late) :
    Moved m.config.maxFrame m₁ id r a chunks ending handed late := by
  cases hs : r.stage with
  | opening => exact moved_of_opening hr hs h hc hp
  | greeting t rd => exact moved_of_greeting hr hs h hc hp ht
  | receiving source rd => exact moved_of_receiving hr hs h hc hp
  | routing source rd item rt => exact moved_of_routing hr hs h hp
  | ended => exact absurd hs h.not_ended

end PeerLink.Manager
