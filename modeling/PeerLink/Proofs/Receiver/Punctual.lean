import PeerLink.Proofs.Receiver.Inflow
import PeerLink.Proofs.Receiver.Serving

namespace PeerLink.Manager

open PeerLink.Frame (parse)

namespace Inflow

variable (f : Inflow) (max d now : Nat)

def Greets : Prop := ∃ body bodies hello,
  (parse max (f.bytes (· < d))).1 = body :: bodies ∧ Hello.format.read body = .ok hello ∧
    hello.version = Hello.currentVersion

/-- At the deadline the stream is open, without a whole frame and without one that is too long. -/
structure Misses : Prop where
  opened : f.endingAt d = .pending
  incomplete : (parse max (f.bytes (· < d))).1 = []
  bounded : (parse max (f.bytes (· < d))).2 ≠ .tooLong

def Breaks : Prop :=
  f.endingAt now ≠ .pending ∨
    ∃ s, s <+: f.bytes (· ≤ now) ∧ ∀ more, (parse max (s ++ more)).2 = .tooLong

end Inflow

def OnTime (f : Inflow) (max d : Nat) (peer : Endpoint) (stream : StreamId) (now : Nat)
    (reads : List Answer) (done : List Happening) (live : Prop) : ReceiverStage → Prop
  | .opening => False
  | .greeting t _ => t = d ∧ done = [] ∧ ¬live
  | .receiving _ _ | .routing _ _ (.frame _) _ => live ∧ f.Greets max d
  | .routing _ _ (.failure _) _ => live ∧ f.Greets max d ∧ f.Breaks max now
  | .ended =>
    live ∧ f.Greets max d ∧ f.Breaks max now ∨
      ¬live ∧ ¬f.Greets max d ∧ (f.Misses max d →
        done = [.warned (.handshakeTimedOut peer), .released stream] ∧
          bytesOf reads = f.bytes (· < d))

variable {f : Inflow} {m m₁ : Manager} {hs hs₁ done done' : List Happening} {max d now now' id : Nat}
  {r : Receiver} {a : Answer} {chunks : List Bytes} {ending : StreamEnd} {s : Bytes}
  {peer source : Endpoint} {stream : StreamId} {reads : List Answer} {live live' : Prop}
  {stage : ReceiverStage} {handed : List (Endpoint × Item)} {late : Prop} {rd : Reading}
  {frames : List Bytes} {item : Item} {rt : Routing}

theorem exists_rest (hoff : ∀ x ∈ f.pieces, x.1 ≠ d) (he : Expecting max rd s [] ending)
    (hs : s <+: f.bytes (· ≤ now)) (hle : now ≤ d) :
    ∃ more, parse max (f.bytes (· < d)) = parse max (rd.intake.unread ++ more) := by
  obtain ⟨more, hmore⟩ := hs.trans (Inflow.bytes_mono hle)
  refine ⟨more, ?_⟩
  rw [Inflow.bytes_lt hoff, ← hmore]
  exact he.parsed more

theorem greeting_in_time {hello : Hello} {i : Frame.Intake} (hoff : ∀ x ∈ f.pieces, x.1 ≠ d)
    (he : Expecting max rd s [] ending) (hs : s <+: f.bytes (· ≤ now)) (hle : now ≤ d)
    (hg : rd.greeting max = (.ok (some hello), i)) :
    ∃ body bodies, (parse max (f.bytes (· < d))).1 = body :: bodies ∧
      Hello.format.read body = .ok hello := by
  obtain ⟨body, hbody, hread⟩ := greeting_some hg
  obtain ⟨more, hp⟩ := exists_rest hoff he hs hle
  rw [(frame_some he.fits hbody).2] at hp
  exact ⟨body, _, congrArg Prod.fst hp, hread⟩

theorem ended_in_time (hoff : ∀ x ∈ f.pieces, x.1 ≠ d)
    (hb : f.Brings now (chunks.map .chunk ++ ending.answers)) (he : ending ≠ .pending)
    (hle : now ≤ d) : f.bytes (· < d) = chunks.flatten ∧ ¬f.Misses max d := by
  obtain ⟨hbytes, hend⟩ := hb.ended he
  have hknown : f.endingAt now ≠ .pending := by rwa [hend]
  refine ⟨?_, fun hm => Inflow.endingAt_ne_pending hknown hle hm.opened⟩
  rw [Inflow.bytes_lt hoff, (Inflow.endingAt_later hknown hle).2, hbytes]

theorem Inflow.not_greets (h : sourceOf? peer (parse max (f.bytes (· < d))).1 = none) :
    ¬f.Greets max d := fun hg => sourceOf?_ne_none.mpr hg h

theorem Inflow.Misses.not_greets (h : f.Misses max d) : ¬f.Greets max d := by
  rintro ⟨body, bodies, -, hbody, -⟩
  rw [h.incomplete] at hbody
  cases hbody

theorem Inflow.Breaks.later (h : f.Breaks max now) (hle : now ≤ now') : f.Breaks max now' := by
  obtain h | ⟨s, hs, hlong⟩ := h
  · exact .inl (Inflow.endingAt_ne_pending h hle)
  · exact .inr ⟨s, hs.trans (Inflow.bytes_mono hle), hlong⟩

theorem Inflow.Brings.breaks (hb : f.Brings now (chunks.map .chunk ++ ending.answers))
    (he : ending ≠ .pending) : f.Breaks max now := by
  left
  rwa [(hb.ended he).2]

theorem OnTime.congr (h : OnTime f max d peer stream now reads done live stage)
    (hl : live ↔ live') : OnTime f max d peer stream now reads done live' stage := propext hl ▸ h

theorem OnTime.of_live (h : OnTime f max d peer stream now reads done live stage) (hl : stage.Live) :
    live := by
  cases stage with
  | receiving source rd => exact h.1
  | routing source rd item rt => cases item <;> exact h.1
  | opening | greeting t rd | ended => exact hl.elim

theorem OnTime.later (h : OnTime f max d peer stream now reads done live stage) (hle : now ≤ now') :
    OnTime f max d peer stream now' reads done live stage := by
  cases stage with
  | routing source rd item rt =>
    cases item with
    | frame body => exact h
    | failure error => exact ⟨h.1, h.2.1, h.2.2.later hle⟩
  | ended => exact h.imp_left fun ⟨hl, hg, hb⟩ => ⟨hl, hg, hb.later hle⟩
  | opening | greeting t rd | receiving source rd => exact h

def Advanced (f : Inflow) (max d : Nat) (m₁ : Manager) (id : Nat) (r : Receiver) (now : Nat)
    (reads : List Answer) (done : List Happening) (live : Prop) : Prop :=
  ∃ stage, m₁.receivers[id]? = some { r with stage } ∧
    OnTime f max d r.peer r.stream now reads done (live ∨ stage.Live) stage

/-- A greeting that comes to nothing: the connection is over, and it was not for the timer unless
there was too little in time. -/
theorem advanced_of_refused (hr : m.receivers[id]? = some r) (hl : ¬live)
    (hn : sourceOf? r.peer (parse max (f.bytes (· < d))).1 = none)
    (hm : f.Misses max d → done = [.warned (.handshakeTimedOut r.peer), .released r.stream] ∧
      bytesOf reads = f.bytes (· < d)) :
    Advanced f max d (m.setReceiver id .ended) id r now reads done live :=
  ⟨.ended, setReceiver_get hr _, .inr ⟨fun h => h.elim hl fun h => h, Inflow.not_greets hn, hm⟩⟩

theorem advanced_of_ended (hr : m.receivers[id]? = some r) (hl : ¬live)
    (hoff : ∀ x ∈ f.pieces, x.1 ≠ d)
    (hb : f.Brings now (chunks.map .chunk ++ ending.answers)) (he : ending ≠ .pending)
    (hle : now ≤ d) (hn : (parse max chunks.flatten).1 = []) :
    Advanced f max d (m.setReceiver id .ended) id r now reads done live := by
  obtain ⟨hbytes, hm⟩ := ended_in_time hoff hb he hle
  refine advanced_of_refused hr hl ?_ fun h => absurd h hm
  rw [hbytes, hn]
  rfl

theorem advanced_of_greeting {t : Nat} (hr : m.receivers[id]? = some r)
    (hs : r.stage = .greeting t rd) (h : ReceiverStep m id r a m₁ hs₁) (hc : m.cancelled = false)
    (he : Expecting m.config.maxFrame rd chunks.flatten [] ending)
    (hb : f.Brings m.clock ((chunks.map .chunk ++ ending.answers) ++ if a = .none then [] else [a]))
    (hx : a = .none → rd.fresh = false → f.Exhausted m.clock (chunks.map .chunk ++ ending.answers))
    (hle : m.clock ≤ t) (hoff : ∀ x ∈ f.pieces, x.1 ≠ d)
    (ho : OnTime f m.config.maxFrame d r.peer r.stream m.clock
      (chunks.map .chunk ++ ending.answers) done live r.stage) :
    Advanced f m.config.maxFrame d m₁ id r m.clock
      ((chunks.map .chunk ++ ending.answers) ++ if a = .none then [] else [a])
      (done ++ hs₁) live := by
  rw [hs] at ho
  obtain ⟨rfl, rfl, hl⟩ := ho
  cases h with
  | halt _ hc' => cases hc.symm.trans hc'
  | reject hs' _ hf hg =>
    rw [if_pos rfl, List.append_nil] at hb ⊢
    cases hs.symm.trans hs'
    obtain hn | ⟨hat, hn⟩ := greeting_error r.peer he.fits hg
    · obtain ⟨more, hp⟩ := exists_rest hoff he hb.prefix_bytes hle
      have hn := hn more
      rw [← hp] at hn
      refine advanced_of_refused hr hl hn.1 fun hm => ?_
      exact (hn.2.elim (· hm.incomplete) hm.bounded).elim
    · have hend : ending ≠ .pending := by simp [he.ending, hat]
      exact advanced_of_ended hr hl hoff hb hend hle (by rw [he.whole, hn]; rfl)
  | disagree hs' _ hf hg hv =>
    rw [if_pos rfl, List.append_nil] at hb ⊢
    cases hs.symm.trans hs'
    obtain ⟨body, bodies, hp, hread⟩ := greeting_in_time hoff he hb.prefix_bytes hle hg
    refine advanced_of_refused hr hl ?_ fun hm => ?_
    · rw [hp]
      simp [sourceOf?, hread, hv]
    · cases hp.symm.trans hm.incomplete
  | establish hs' _ hf hg hv =>
    rw [if_pos rfl, List.append_nil] at hb ⊢
    cases hs.symm.trans hs'
    obtain ⟨body, bodies, hp, hread⟩ := greeting_in_time hoff he hb.prefix_bytes hle hg
    exact ⟨_, setReceiver_get (m := { m with established := m.established + 1 }) hr _,
      .inr trivial, body, bodies, _, hp, hread, hv⟩
  | vanish hs' _ hf hn hat =>
    rw [if_pos rfl, List.append_nil] at hb ⊢
    cases hs.symm.trans hs'
    have hend : ending ≠ .pending := by simp [he.ending, hat]
    refine advanced_of_ended hr hl hoff hb hend hle ?_
    obtain hw | hw := he.dry (greeting_none hn) <;> rw [hw]
  | expectGreeting hs' =>
    cases hs.symm.trans hs'
    exact ⟨_, setReceiver_get hr _, rfl, rfl, fun h => h.elim hl fun h => h⟩
  | expire hs' _ hf ht =>
    -- All that has come by the deadline has been read, and there was no whole frame in it.
    cases hs.symm.trans hs'
    obtain ⟨hbytes, hend⟩ := (hx rfl hf).answers
    obtain rfl : m.clock = t := Nat.le_antisymm hle ht
    rw [← Inflow.bytes_lt hoff] at hbytes
    rw [if_pos rfl, List.append_nil]
    refine advanced_of_refused hr hl ?_ fun _ => ⟨rfl, ?_⟩
    · rw [← hbytes, he.whole, (he.idle hf).2.1]
      rfl
    · rw [bytesOf_answers, hbytes]
  | @breakGreeting _ _ error hs' _ hf =>
    cases hs.symm.trans hs'
    obtain ⟨hat, hn, -⟩ := he.idle hf
    obtain rfl : ending = .pending := by rw [he.ending, hat]; rfl
    rw [List.append_assoc, StreamEnd.answers_broken] at hb ⊢
    exact advanced_of_ended hr hl hoff hb (by simp) hle (by rw [he.whole, hn]; rfl)
  | readGreeting hs' =>
    cases hs.symm.trans hs'
    exact ⟨_, setReceiver_get hr _, rfl, rfl, fun h => h.elim hl fun h => h⟩
  | start hs' | leave hs' | fail hs' | take hs' | finish hs' | expectFrame hs' | breakFrame hs'
  | readFrame hs' | locate hs' | widen hs' | miss hs' | hand hs' => cases hs.symm.trans hs'

theorem advanced_of_receiving (hr : m.receivers[id]? = some r)
    (hs : r.stage = .receiving source rd)
    (h : ReceiverStep m id r a m₁ hs₁) (hc : m.cancelled = false)
    (he : Expecting m.config.maxFrame rd chunks.flatten frames ending)
    (hb : f.Brings m.clock ((chunks.map .chunk ++ ending.answers) ++ if a = .none then [] else [a]))
    (ho : OnTime f m.config.maxFrame d r.peer r.stream m.clock
      (chunks.map .chunk ++ ending.answers) done live r.stage) :
    Advanced f m.config.maxFrame d m₁ id r m.clock
      ((chunks.map .chunk ++ ending.answers) ++ if a = .none then [] else [a])
      (done ++ hs₁) live := by
  rw [hs] at ho
  obtain ⟨hl, hg⟩ := ho
  cases h with
  | leave _ hc' => cases hc.symm.trans hc'
  | fail hs' _ hf hn =>
    rw [if_pos rfl, List.append_nil] at hb
    cases hs.symm.trans hs'
    refine ⟨_, setReceiver_get hr _, .inl hl, hg, ?_⟩
    obtain ⟨-, hlong⟩ | ⟨hat, -⟩ := frame_error he.fits hn
    · exact .inr ⟨chunks.flatten, hb.prefix_bytes, fun more => by rw [he.parsed, hlong]⟩
    · exact hb.breaks (by simp [he.ending, hat])
  | take hs' | expectFrame hs' | readFrame hs' =>
    cases hs.symm.trans hs'
    exact ⟨_, setReceiver_get hr _, .inl hl, hg⟩
  | finish hs' _ hf hn hat =>
    rw [if_pos rfl, List.append_nil] at hb
    cases hs.symm.trans hs'
    exact ⟨_, setReceiver_get (m := { m with established := m.established - 1 }) hr _,
      .inl ⟨.inl hl, hg, hb.breaks (by simp [he.ending, hat])⟩⟩
  | @breakFrame _ _ error hs' _ hf =>
    cases hs.symm.trans hs'
    obtain rfl : ending = .pending := by rw [he.ending, (he.idle hf).1]; rfl
    rw [List.append_assoc, StreamEnd.answers_broken] at hb
    exact ⟨_, setReceiver_get hr _, .inl hl, hg, hb.breaks (by simp)⟩
  | halt hs' =>
    obtain hs' | ⟨t, rd, hs'⟩ := hs' <;> cases hs.symm.trans hs'
  | start hs' | reject hs' | disagree hs' | establish hs' | vanish hs' | expectGreeting hs'
  | expire hs' | breakGreeting hs' | readGreeting hs' | locate hs' | widen hs' | miss hs'
  | hand hs' => cases hs.symm.trans hs'

/-- Whatever has become of an item, a receiver is over only if the stream is broken. -/
theorem advanced_of_afterRouting (hr : m.receivers[id]? = some r)
    (ho : OnTime f max d r.peer r.stream now reads done live (.routing source rd item rt)) :
    Advanced f max d (m.afterRouting id r source rd item hs).1 id r now reads done live := by
  cases item with
  | frame body => exact ⟨_, setReceiver_get hr _, .inl ho.1, ho.2⟩
  | failure error =>
    exact ⟨_, setReceiver_get (m := { m with established := m.established - 1 }) hr _,
      .inl ⟨.inl ho.1, ho.2⟩⟩

theorem advanced_of_routing (hr : m.receivers[id]? = some r)
    (hs : r.stage = .routing source rd item rt)
    (h : ReceiverStep m id r a m₁ hs₁)
    (ho : OnTime f max d r.peer r.stream now reads done live r.stage) :
    Advanced f max d m₁ id r now (reads ++ if a = .none then [] else [a]) done' live := by
  rw [hs] at ho
  have hl : live := by cases item <;> exact ho.1
  have hk : ∀ (rt' : Routing) (reads' : List Answer),
      OnTime f max d r.peer r.stream now reads' done' live (.routing source rd item rt') := by
    cases item <;> exact fun _ _ => ho
  cases h with
  | locate hs' =>
    cases hs.symm.trans hs'
    exact ⟨_, setReceiver_get (m := m.modifySubscription _ _) hr _,
      (hk _ _).congr ⟨.inl, fun _ => hl⟩⟩
  | widen hs' =>
    cases hs.symm.trans hs'
    exact ⟨_, setReceiver_get hr _, (hk _ _).congr ⟨.inl, fun _ => hl⟩⟩
  | miss hs' =>
    cases hs.symm.trans hs'
    rw [if_pos rfl, List.append_nil]
    exact advanced_of_afterRouting hr (hk .exact _)
  | hand hs' =>
    cases hs.symm.trans hs'
    rw [if_pos rfl, List.append_nil]
    exact advanced_of_afterRouting (m := (m.modifySubscription _ _).dropHandle _) hr (hk .exact _)
  | halt hs' =>
    obtain hs' | ⟨t, rd, hs'⟩ := hs' <;> cases hs.symm.trans hs'
  | start hs' | reject hs' | disagree hs' | establish hs' | vanish hs' | expectGreeting hs'
  | expire hs' | breakGreeting hs' | readGreeting hs' | leave hs' | fail hs' | take hs'
  | finish hs' | expectFrame hs' | breakFrame hs' | readFrame hs' => cases hs.symm.trans hs'

theorem ReceiverStep.follows (h : ReceiverStep m id r a m₁ hs₁) (hr : m.receivers[id]? = some r) :
    ∃ stage, m₁.receivers[id]? = some { r with stage } ∧ stage ≠ .opening ∧
      ∀ d rd, stage = .greeting d rd →
        r.stage = .opening ∧ d = m.clock + m.config.handshakeTimeout ∨
          ∃ rd, r.stage = .greeting d rd := by
  cases h with
  | start hs =>
    refine ⟨_, setReceiver_get hr _, nofun, ?_⟩
    rintro d rd ⟨⟩
    exact .inl ⟨hs, rfl⟩
  | expectGreeting hs | readGreeting hs =>
    refine ⟨_, setReceiver_get hr _, nofun, ?_⟩
    rintro d rd ⟨⟩
    exact .inr ⟨_, hs⟩
  | establish | leave | finish =>
    exact ⟨_, setReceiver_get (m := { m with established := _ }) hr _, nofun, nofun⟩
  | locate => exact ⟨_, setReceiver_get (m := m.modifySubscription _ _) hr _, nofun, nofun⟩
  | @miss _ _ item =>
    cases item with
    | frame body => exact ⟨_, setReceiver_get hr _, nofun, nofun⟩
    | failure error =>
      exact ⟨_, setReceiver_get (m := { m with established := _ }) hr _, nofun, nofun⟩
  | @hand _ _ item s =>
    cases item with
    | frame body =>
      exact ⟨_, setReceiver_get (m := (m.modifySubscription _ _).dropHandle _) hr _, nofun, nofun⟩
    | failure error =>
      exact ⟨_, setReceiver_get (m := { (m.modifySubscription _ _).dropHandle _ with
        established := _ }) hr _, nofun, nofun⟩
  | _ => exact ⟨_, setReceiver_get hr _, nofun, nofun⟩

theorem advanced_of_step (hr : m.receivers[id]? = some r) (h : ReceiverStep m id r a m₁ hs₁)
    (hc : m.cancelled = false)
    (hp : Position m.config.maxFrame r.peer chunks ending handed late r.stage)
    (hb : f.Brings m.clock ((chunks.map .chunk ++ ending.answers) ++ if a = .none then [] else [a]))
    (hx : a = .none → m.receiverRequest id ≠ .none →
      f.Exhausted m.clock (chunks.map .chunk ++ ending.answers))
    (hle : ∀ t, m.deadline? id = some t → m.clock ≤ t) (hoff : ∀ x ∈ f.pieces, x.1 ≠ d)
    (ho : OnTime f m.config.maxFrame d r.peer r.stream m.clock
      (chunks.map .chunk ++ ending.answers) done live r.stage) :
    Advanced f m.config.maxFrame d m₁ id r m.clock
      ((chunks.map .chunk ++ ending.answers) ++ if a = .none then [] else [a])
      (done ++ hs₁) live := by
  cases hs : r.stage with
  | opening =>
    rw [hs] at ho
    exact ho.elim
  | greeting t rd =>
    rw [hs] at hp
    refine advanced_of_greeting hr hs h hc hp.2 hb (fun ha hf => hx ha ?_) (hle t ?_) hoff ho
    · simp [receiverRequest, hr, hs, hf]
    · simp [deadline?, hr, hs]
  | receiving source rd =>
    rw [hs] at hp
    obtain ⟨_, _, -, -, he⟩ := hp
    exact advanced_of_receiving hr hs h hc he hb ho
  | routing source rd item rt => exact advanced_of_routing hr hs h ho
  | ended => exact absurd hs h.not_ended

end PeerLink.Manager
