import PeerLink.Manager.Run

namespace PeerLink.Manager

def Reading.greeting (r : Reading) (max : Nat) : Except IoError (Option Hello) × Frame.Intake :=
  if r.atEnd then Hello.format.last max r.intake else Hello.format.next max r.intake

/-- The next frame in a reader's buffer. -/
def Reading.frame (r : Reading) (max : Nat) : Except IoError (Option Bytes) × Frame.Intake :=
  if r.atEnd then r.intake.last max else r.intake.next max

variable (m : Manager)

inductive ReceiverStep (id : Nat) (r : Receiver) : Answer → Manager → List Happening → Prop where
  | halt (hs : r.stage = .opening ∨ ∃ t rd, r.stage = .greeting t rd) (hc : m.cancelled = true) :
    ReceiverStep id r .none (m.setReceiver id .ended) [.released r.stream]
  | start (hs : r.stage = .opening) (hc : m.cancelled = false) :
    ReceiverStep id r .none
      (m.setReceiver id (.greeting (m.clock + m.config.handshakeTimeout) {})) []
  | reject {t rd error i} (hs : r.stage = .greeting t rd) (hc : m.cancelled = false)
    (hf : rd.fresh = true) (hg : rd.greeting m.config.maxFrame = (.error error, i)) :
    ReceiverStep id r .none (m.setReceiver id .ended)
      [.warned (.badHandshake r.peer), .released r.stream]
  | disagree {t rd hello i} (hs : r.stage = .greeting t rd) (hc : m.cancelled = false)
    (hf : rd.fresh = true) (hg : rd.greeting m.config.maxFrame = (.ok (some hello), i))
    (hv : hello.version ≠ Hello.currentVersion) :
    ReceiverStep id r .none (m.setReceiver id .ended)
      [.warned (.unsupportedVersion r.peer hello.version), .released r.stream]
  | establish {t rd hello i} (hs : r.stage = .greeting t rd) (hc : m.cancelled = false)
    (hf : rd.fresh = true) (hg : rd.greeting m.config.maxFrame = (.ok (some hello), i))
    (hv : hello.version = Hello.currentVersion) :
    ReceiverStep id r .none
      ({ m with established := m.established + 1 }.setReceiver id
        (.receiving (resolveSource hello r.peer) { rd with intake := i })) []
  | vanish {t rd i} (hs : r.stage = .greeting t rd) (hc : m.cancelled = false)
    (hf : rd.fresh = true) (hg : rd.greeting m.config.maxFrame = (.ok none, i))
    (he : rd.atEnd = true) :
    ReceiverStep id r .none (m.setReceiver id .ended) [.released r.stream]
  | expectGreeting {t rd i} (hs : r.stage = .greeting t rd) (hc : m.cancelled = false)
    (hf : rd.fresh = true) (hg : rd.greeting m.config.maxFrame = (.ok none, i))
    (he : rd.atEnd = false) :
    ReceiverStep id r .none
      (m.setReceiver id (.greeting t { rd with intake := i, fresh := false })) []
  | expire {t rd} (hs : r.stage = .greeting t rd) (hc : m.cancelled = false)
    (hf : rd.fresh = false) (ht : t ≤ m.clock) :
    ReceiverStep id r .none (m.setReceiver id .ended)
      [.warned (.handshakeTimedOut r.peer), .released r.stream]
  | breakGreeting {t rd error} (hs : r.stage = .greeting t rd) (hc : m.cancelled = false)
    (hf : rd.fresh = false) :
    ReceiverStep id r (.failed error) (m.setReceiver id .ended)
      [.warned (.badHandshake r.peer), .released r.stream]
  | readGreeting {t rd rd' a} (hs : r.stage = .greeting t rd) (hc : m.cancelled = false)
    (hf : rd.fresh = false) (hr : rd.take? a = some rd') :
    ReceiverStep id r a (m.setReceiver id (.greeting t rd')) []
  | leave {src rd} (hs : r.stage = .receiving src rd) (hc : m.cancelled = true) :
    ReceiverStep id r .none
      ({ m with established := m.established - 1 }.setReceiver id .ended) [.released r.stream]
  | fail {src rd error i} (hs : r.stage = .receiving src rd) (hc : m.cancelled = false)
    (hf : rd.fresh = true) (hg : rd.frame m.config.maxFrame = (.error error, i)) :
    ReceiverStep id r .none
      (m.setReceiver id
        (.routing src { rd with intake := i } (.failure (.connection src error)) .exact))
      [.warned (.receiveFailed src error)]
  | take {src rd body i} (hs : r.stage = .receiving src rd) (hc : m.cancelled = false)
    (hf : rd.fresh = true) (hg : rd.frame m.config.maxFrame = (.ok (some body), i)) :
    ReceiverStep id r .none
      (m.setReceiver id (.routing src { rd with intake := i } (.frame body) .exact)) []
  | finish {src rd i} (hs : r.stage = .receiving src rd) (hc : m.cancelled = false)
    (hf : rd.fresh = true) (hg : rd.frame m.config.maxFrame = (.ok none, i))
    (he : rd.atEnd = true) :
    ReceiverStep id r .none
      ({ m with established := m.established - 1 }.setReceiver id .ended) [.released r.stream]
  | expectFrame {src rd i} (hs : r.stage = .receiving src rd) (hc : m.cancelled = false)
    (hf : rd.fresh = true) (hg : rd.frame m.config.maxFrame = (.ok none, i))
    (he : rd.atEnd = false) :
    ReceiverStep id r .none
      (m.setReceiver id (.receiving src { rd with intake := i, fresh := false })) []
  | breakFrame {src rd error} (hs : r.stage = .receiving src rd) (hc : m.cancelled = false)
    (hf : rd.fresh = false) :
    ReceiverStep id r (.failed error)
      (m.setReceiver id (.routing src rd (.failure (.connection src error)) .exact))
      [.warned (.receiveFailed src error)]
  | readFrame {src rd rd' a} (hs : r.stage = .receiving src rd) (hc : m.cancelled = false)
    (hf : rd.fresh = false) (hr : rd.take? a = some rd') :
    ReceiverStep id r a (m.setReceiver id (.receiving src rd')) []
  | locate {src rd item rt key s} (hs : r.stage = .routing src rd item rt)
    (hk : rt = .exact ∧ key = src ∨ rt = .wildcard ∧ key = src.toWildcard)
    (hg : m.observers.get? key = some s) :
    ReceiverStep id r .none
      ((m.modifySubscription s fun s => { s with handles := s.handles + 1 }).setReceiver id
        (.routing src rd item (.handing s))) []
  | widen {src rd item} (hs : r.stage = .routing src rd item .exact)
    (hg : m.observers.get? src = none) (hw : src.isWildcard = false) :
    ReceiverStep id r .none (m.setReceiver id (.routing src rd item .wildcard)) []
  | miss {src rd item rt} (hs : r.stage = .routing src rd item rt)
    (hk : rt = .exact ∧ m.observers.get? src = none ∧ src.isWildcard = true ∨
      rt = .wildcard ∧ m.observers.get? src.toWildcard = none) :
    ReceiverStep id r .none (m.afterRouting id r src rd item []).1
      (m.afterRouting id r src rd item []).2
  | hand {src rd item s} (hs : r.stage = .routing src rd item (.handing s)) :
    ReceiverStep id r .none
      (((m.modifySubscription s (·.push item)).dropHandle s).afterRouting id r src rd item
        [.enqueued s item]).1
      (((m.modifySubscription s (·.push item)).dropHandle s).afterRouting id r src rd item
        [.enqueued s item]).2

inductive AcceptorStep : Answer → Manager → List Happening → Prop where
  | stop (hs : m.acceptor ≠ .stopped) (hc : m.cancelled = true) :
    AcceptorStep .none { m with acceptor := .stopped } [.stoppedListening]
  | accept {stream peer} (hs : m.acceptor = .accepting) (hc : m.cancelled = false) :
    AcceptorStep (.incoming stream peer)
      { m with receivers := m.receivers ++ [{ stream, peer }] } []
  | fail {error} (hs : m.acceptor = .accepting) (hc : m.cancelled = false) :
    AcceptorStep (.failed error) { m with acceptor := .pausing (m.clock + acceptPause) }
      [.warned (.acceptFailed error)]
  | resume {t} (hs : m.acceptor = .pausing t) (hc : m.cancelled = false) (ht : t ≤ m.clock) :
    AcceptorStep .none { m with acceptor := .accepting } []

variable {m} {m' : Manager} {id : Nat} {r : Receiver} {a : Answer} {hs : List Happening}

theorem greetingStep_cases {t : Nat} {rd : Reading} (hs' : r.stage = .greeting t rd)
    (h : m.greetingStep id r t rd a = some (m', hs)) : ReceiverStep m id r a m' hs := by
  simp only [greetingStep] at h
  split at h
  · split at h
    · next hc =>
      cases h
      exact .halt (.inr ⟨t, rd, hs'⟩) hc
    · next hc =>
      split at h
      · next hf =>
        rcases hg : rd.greeting m.config.maxFrame with ⟨error | _ | hello, i⟩ <;>
          simp only [show (if rd.atEnd = true then _ else _) = _ from hg] at h
        · cases h
          exact .reject hs' (by simpa using hc) hf hg
        · split at h
          · next he =>
            cases h
            exact .vanish hs' (by simpa using hc) hf hg he
          · next he =>
            cases h
            exact .expectGreeting hs' (by simpa using hc) hf hg (by simpa using he)
        · split at h
          · next hv =>
            cases h
            exact .establish hs' (by simpa using hc) hf hg hv
          · next hv =>
            cases h
            exact .disagree hs' (by simpa using hc) hf hg hv
      · next hf =>
        split at h
        · next ht =>
          cases h
          exact .expire hs' (by simpa using hc) (by simpa using hf) ht
        · cases h
  · split at h
    · cases h
    · next hc =>
      obtain ⟨hc, hf⟩ : m.cancelled = false ∧ rd.fresh = false := by simpa using hc
      split at h
      · cases h
        exact .breakGreeting hs' hc hf
      · obtain ⟨rd', hr, h⟩ := Option.map_eq_some_iff.mp h
        cases h
        exact .readGreeting hs' hc hf hr

theorem receivingStep_cases {src : Endpoint} {rd : Reading} (hs' : r.stage = .receiving src rd)
    (h : m.receivingStep id r src rd a = some (m', hs)) : ReceiverStep m id r a m' hs := by
  simp only [receivingStep] at h
  split at h
  · split at h
    · next hc =>
      cases h
      exact .leave hs' hc
    · next hc =>
      split at h
      · next hf =>
        rcases hg : rd.frame m.config.maxFrame with ⟨error | _ | body, i⟩ <;>
          simp only [show (if rd.atEnd = true then _ else _) = _ from hg] at h
        · cases h
          exact .fail hs' (by simpa using hc) hf hg
        · split at h
          · next he =>
            cases h
            exact .finish hs' (by simpa using hc) hf hg he
          · next he =>
            cases h
            exact .expectFrame hs' (by simpa using hc) hf hg (by simpa using he)
        · cases h
          exact .take hs' (by simpa using hc) hf hg
      · cases h
  · split at h
    · cases h
    · next hc =>
      obtain ⟨hc, hf⟩ : m.cancelled = false ∧ rd.fresh = false := by simpa using hc
      split at h
      · cases h
        exact .breakFrame hs' hc hf
      · obtain ⟨rd', hr, h⟩ := Option.map_eq_some_iff.mp h
        cases h
        exact .readFrame hs' hc hf hr

theorem routingStep_cases {src : Endpoint} {rd : Reading} {item : Item} {rt : Routing}
    (hs' : r.stage = .routing src rd item rt) :
    ReceiverStep m id r .none (m.routingStep id r src rd item rt).1
      (m.routingStep id r src rd item rt).2 := by
  cases rt with
  | exact =>
    cases hg : m.observers.get? src with
    | some s =>
      simp only [routingStep, findQueue, hg, Option.map_some]
      exact .locate hs' (.inl ⟨rfl, rfl⟩) hg
    | none =>
      simp only [routingStep, findQueue, hg, Option.map_none]
      split
      · next hw => exact .miss hs' (.inl ⟨rfl, hg, hw⟩)
      · next hw => exact .widen hs' hg (by simpa using hw)
  | wildcard =>
    cases hg : m.observers.get? src.toWildcard with
    | some s =>
      simp only [routingStep, findQueue, hg, Option.map_some]
      exact .locate hs' (.inr ⟨rfl, rfl⟩) hg
    | none =>
      simp only [routingStep, findQueue, hg, Option.map_none]
      exact .miss hs' (.inr ⟨rfl, hg⟩)
  | handing s => exact .hand hs'

theorem receiverStep_cases (h : m.receiverStep id a = some (m', hs)) :
    ∃ r, m.receivers[id]? = some r ∧ ReceiverStep m id r a m' hs := by
  obtain ⟨r, hr, h'⟩ := Option.bind_eq_some_iff.mp h
  clear h
  refine ⟨r, hr, ?_⟩
  split at h'
  · next hs' =>
    split at h'
    · next hc =>
      cases h'
      exact .halt (.inl hs') hc
    · next hc =>
      cases h'
      exact .start hs' (by simpa using hc)
  · next hs' => exact greetingStep_cases hs' h'
  · next hs' => exact receivingStep_cases hs' h'
  · next hs' =>
    have hp := Option.some.inj h'
    have hr : ReceiverStep m id r .none _ _ := routingStep_cases hs'
    rwa [hp] at hr
  · cases h'

/-- A receiver leaves alone what belongs to the calls and to the links. -/
theorem receiverStep_scope (h : m.receiverStep id a = some (m', hs)) :
    m' = { m with
      receivers := m'.receivers
      subscriptions := m'.subscriptions
      established := m'.established } := by
  obtain ⟨r, -, h⟩ := receiverStep_cases h
  cases h with
  | @miss _ _ item => cases item <;> rfl
  | @hand _ _ item => cases item <;> rfl
  | _ => rfl

theorem afterRouting_happenings {src : Endpoint} {rd : Reading} {item : Item} {x : Happening}
    (h : x ∈ (m.afterRouting id r src rd item hs).2) : x ∈ hs ∨ ∃ s, x = .released s := by
  cases item with
  | frame body => exact .inl h
  | failure error =>
    refine (List.mem_append.mp h).imp_right fun h => ?_
    exact ⟨r.stream, List.mem_singleton.mp h⟩

theorem receiverStep_happenings (h : m.receiverStep id a = some (m', hs)) (x : Happening)
    (hx : x ∈ hs) :
    (∃ w, x = .warned w) ∨ (∃ s, x = .released s) ∨ ∃ s item, x = .enqueued s item := by
  obtain ⟨r, -, h⟩ := receiverStep_cases h
  cases h with
  | miss =>
    obtain hx | hx := afterRouting_happenings hx
    · cases hx
    · exact .inr (.inl hx)
  | hand =>
    obtain hx | hx := afterRouting_happenings hx
    · exact .inr (.inr ⟨_, _, List.mem_singleton.mp hx⟩)
    · exact .inr (.inl hx)
  | halt | reject | disagree | vanish | expire | breakGreeting | leave | fail | finish
  | breakFrame =>
    simp only [List.mem_cons, List.not_mem_nil, or_false] at hx
    grind
  | _ => cases hx

theorem acceptorStep_cases (h : m.acceptorStep a = some (m', hs)) : AcceptorStep m a m' hs := by
  simp only [acceptorStep] at h
  split at h
  · next he =>
    split at h
    · next hc =>
      cases h
      exact .stop (by rw [he]; nofun) hc
    · cases h
  · next he =>
    split at h
    · cases h
    · next hc =>
      cases h
      exact .accept he (by simpa using hc)
  · next he =>
    split at h
    · cases h
    · next hc =>
      cases h
      exact .fail he (by simpa using hc)
  · next he =>
    split at h
    · next hc =>
      cases h
      exact .stop (by rw [he]; nofun) hc
    · next hc =>
      split at h
      · next ht =>
        cases h
        exact .resume he (by simpa using hc) ht
      · cases h
  · cases h

theorem acceptorStep_happenings (h : m.acceptorStep a = some (m', hs)) (x : Happening)
    (hx : x ∈ hs) : (∃ w, x = .warned w) ∨ x = .stoppedListening := by
  cases acceptorStep_cases h with
  | stop => exact .inr (List.mem_singleton.mp hx)
  | fail => exact .inl ⟨_, List.mem_singleton.mp hx⟩
  | accept | resume => cases hx

theorem acceptorStep_scope (h : m.acceptorStep a = some (m', hs)) :
    m' = { m with acceptor := m'.acceptor, receivers := m'.receivers } := by
  cases acceptorStep_cases h <;> rfl

end PeerLink.Manager
