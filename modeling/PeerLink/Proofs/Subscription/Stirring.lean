import PeerLink.Proofs.Manager.Moves

namespace PeerLink.Manager

def ReceiverStage.handing? : ReceiverStage → Option SubscriptionId
  | .routing _ _ _ (.handing s) => some s
  | _ => none

def Happening.Stirs : Happening → Prop
  | .enqueued _ _ => True
  | .called _ _ _ => True
  | _ => False

def Still (hs : List Happening) : Prop := ∀ x ∈ hs, ¬x.Stirs

/-- The moves as seen from the subscriptions: `aside` are those that have nothing to do with any. -/
inductive Stir (m : Manager) : Move → Manager → List Happening → Prop where
  | aside {mv m₁ hs}
    (hm : m₁ = { m with
      clock := m₁.clock
      closed := m₁.closed
      cancelled := m₁.cancelled
      links := m₁.links
      acceptor := m₁.acceptor
      allLinks := m₁.allLinks
      sends := m₁.sends
      openings := m₁.openings
      closings := m₁.closings })
    (hv : ∀ id a, mv ≠ .step (.receiver id) a) (hg : ∀ id a, mv ≠ .step (.registration id) a)
    (hq : Still hs) : Stir m mv m₁ hs
  | arrive {stream peer} :
    Stir m (.step .acceptor (.incoming stream peer))
      { m with receivers := m.receivers ++ [{ stream, peer }] } []
  | read {id a r stage established hs} (hr : m.receivers[id]? = some r)
    (hb : r.stage.handing? = none) (ha : stage.handing? = none) (hq : Still hs) :
    Stir m (.step (.receiver id) a) { m.setReceiver id stage with established } hs
  | locate {id r src rd item rt key s} (hr : m.receivers[id]? = some r)
    (hs' : r.stage = .routing src rd item rt)
    (hk : rt = .exact ∧ key = src ∨ rt = .wildcard ∧ key = src.toWildcard)
    (hg : m.observers.get? key = some s) :
    Stir m (.step (.receiver id) .none)
      ((m.modifySubscription s fun s => { s with handles := s.handles + 1 }).setReceiver id
        (.routing src rd item (.handing s))) []
  | hand {id r src rd item s stage established hs} (hr : m.receivers[id]? = some r)
    (hs' : r.stage = .routing src rd item (.handing s)) (ha : stage.handing? = none)
    (hq : Still hs) :
    Stir m (.step (.receiver id) .none)
      { ((m.modifySubscription s (·.push item)).dropHandle s).setReceiver id stage with
        established }
      (.enqueued s item :: hs)
  | ask {remote observer} :
    Stir m (.register remote observer)
      { m with registrations := m.registrations ++ [{ remote, observer }] } []
  | unregister {remote found} :
    Stir m (.unregister remote) (m.removeObserver remote) [.unregistered found]
  | registration {id r m₁} (hr : m.registrations[id]? = some r) (h : RegistrationStep m id r m₁) :
    Stir m (.step (.registration id) .none) m₁ []
  | dispatch {id s m₁ hs} (hs' : m.subscriptions[id]? = some s) (h : DispatchStep m id s m₁ hs) :
    Stir m (.step (.dispatch id) .none) m₁ hs
  | clear {id c next} (hc : m.closings[id]? = some c) (hs : c.stage = .clearingObservers) :
    Stir m (.step (.closing id) .none) (m.clearObservers.setClosing id next) []

variable {m m' m₁ : Manager} {mv : Move} {hs : List Happening} {a : Answer}

theorem Still.nil : Still [] := fun _ hx => absurd hx List.not_mem_nil

theorem Still.released (streams : List StreamId) : Still (streams.map .released) := by
  intro x hx
  obtain ⟨s, -, rfl⟩ := List.mem_map.mp hx
  exact id

theorem SendStep.still {id : SendId} {s : Send} (h : SendStep m id s a m₁ hs) : Still hs := by
  have hready : ∀ {l a g w ws}, Ready m id s l a g w ws → Still ws := by
    intro l a g w ws hr x hx
    cases hr with
    | atOnce => cases hx
    | greeted | drained =>
      cases List.mem_singleton.mp hx
      exact nofun
  intro x hx
  cases h with
  | place hr => exact hready hr x hx
  | overflow hr =>
    obtain hx | hx := List.mem_append.mp hx
    · exact hready hr x hx
    · obtain rfl | rfl : _ ∨ _ := by simpa using hx
      all_goals exact nofun
  | failConnect hu =>
    cases hu with
    | timedOut | refused => cases hx
    | tooLong | broken =>
      cases List.mem_singleton.mp hx
      exact nofun
  | cancel => exact Still.released _ x hx
  | dial | greetPart | writePart | writeAll =>
    cases List.mem_singleton.mp hx
    exact nofun
  | failWrite =>
    obtain rfl | rfl : _ ∨ _ := by simpa using hx
    all_goals exact nofun
  | _ => cases hx

theorem ClosingStep.stir {id : ClosingId} {c : Closing} (hc : m.closings[id]? = some c)
    (h : ClosingStep m id c a m₁ hs) : Stir m (.step (.closing id) a) m₁ hs := by
  have hv : ∀ j b, Move.step (.closing id) a ≠ .step (.receiver j) b := nofun
  have hg : ∀ j b, Move.step (.closing id) a ≠ .step (.registration j) b := nofun
  cases h with
  | clearObservers hs => exact .clear hc hs
  | flushPart =>
    refine .aside rfl hv hg fun x hx => ?_
    cases List.mem_singleton.mp hx
    exact nofun
  | flushEnd _ ha =>
    refine .aside rfl hv hg fun x hx => ?_
    obtain ⟨-, -, rfl⟩ | ⟨-, -, rfl⟩ | ⟨-, -, rfl⟩ := ha
    · cases List.mem_singleton.mp hx
      exact nofun
    · obtain rfl | rfl : _ ∨ _ := by simpa using hx
      all_goals exact nofun
    · cases List.mem_singleton.mp hx
      exact nofun
  | giveUp =>
    refine .aside rfl hv hg fun x hx => ?_
    cases List.mem_singleton.mp hx
    exact nofun
  | _ => exact .aside rfl hv hg .nil

theorem afterRouting_eq (m : Manager) (id : Nat) (r : Receiver) (src : Endpoint) (rd : Reading)
    (item : Item) (hs : List Happening) :
    ∃ stage established released, stage.handing? = none ∧ Still released ∧
      m.afterRouting id r src rd item hs =
        ({ m.setReceiver id stage with established }, hs ++ released) := by
  cases item with
  | frame body =>
    exact ⟨.receiving src rd, m.established, [], rfl, .nil, by simp [afterRouting]; rfl⟩
  | failure error =>
    exact ⟨.ended, m.established - 1, [.released r.stream], rfl, .released [r.stream], rfl⟩

theorem ReceiverStep.stir {id : Nat} {r : Receiver} (hr : m.receivers[id]? = some r)
    (h : ReceiverStep m id r a m₁ hs) : Stir m (.step (.receiver id) a) m₁ hs := by
  have hwarned : ∀ w s, Still [.warned w, .released s] := fun w s x hx => by
    obtain rfl | rfl : _ ∨ _ := by simpa using hx
    all_goals exact nofun
  have hwarned' : ∀ w, Still [.warned w] := fun w x hx => by
    cases List.mem_singleton.mp hx
    exact nofun
  cases h with
  | halt hs =>
    refine .read hr ?_ rfl (.released [r.stream])
    obtain hs | ⟨t, rd, hs⟩ := hs <;> rw [hs] <;> rfl
  | start hs | expectGreeting hs | readGreeting hs | take hs | expectFrame hs | readFrame hs
  | establish hs | widen hs =>
    exact .read hr (by rw [hs]; rfl) rfl .nil
  | reject hs | disagree hs | expire hs | breakGreeting hs =>
    exact .read hr (by rw [hs]; rfl) rfl (hwarned _ _)
  | vanish hs | leave hs | finish hs =>
    exact .read hr (by rw [hs]; rfl) rfl (.released [r.stream])
  | fail hs | breakFrame hs => exact .read hr (by rw [hs]; rfl) rfl (hwarned' _)
  | locate hs hk hg => exact .locate hr hs hk hg
  | @miss src rd item rt hs hk =>
    obtain ⟨stage, established, released, ha, hq, he⟩ :=
      afterRouting_eq m id r src rd item []
    rw [he]
    refine .read hr ?_ ha hq
    rw [hs]
    obtain ⟨rfl, -⟩ | ⟨rfl, -⟩ := hk <;> rfl
  | @hand src rd item s hs =>
    obtain ⟨stage, established, released, ha, hq, he⟩ :=
      afterRouting_eq ((m.modifySubscription s (·.push item)).dropHandle s) id r src rd item
        [.enqueued s item]
    rw [he]
    exact .hand hr hs ha hq

theorem acceptorStep_stir (h : m.acceptorStep a = some (m₁, hs)) :
    Stir m (.step .acceptor a) m₁ hs := by
  have hstill : Still hs := by
    intro x hx
    obtain ⟨w, rfl⟩ | rfl := acceptorStep_happenings h x hx <;> exact nofun
  have hv : ∀ j b, Move.step .acceptor a ≠ .step (.receiver j) b := nofun
  have hg : ∀ j b, Move.step .acceptor a ≠ .step (.registration j) b := nofun
  cases acceptorStep_cases h with
  | accept => exact .arrive
  | stop | fail | resume => exact .aside rfl hv hg hstill

theorem step_stir {task : Task} (h : m.step task a = some (m₁, hs)) :
    Stir m (.step task a) m₁ hs := by
  cases task with
  | acceptor => exact acceptorStep_stir h
  | receiver id =>
    obtain ⟨r, hr, h⟩ := receiverStep_cases h
    exact h.stir hr
  | dispatch id =>
    obtain ⟨rfl, h⟩ := step_dispatch h
    obtain ⟨s, hs', h⟩ := dispatchStep_cases h
    exact .dispatch hs' h
  | registration id =>
    obtain ⟨rfl, h⟩ := step_registration h
    obtain ⟨r, hr, rfl, hst⟩ := registrationStep_cases h
    exact .registration hr hst
  | send id =>
    obtain ⟨s, -, h⟩ := sendStep_cases h
    refine .aside ?_ nofun nofun h.still
    rw [h.scope]
  | opening id =>
    obtain ⟨rfl, h⟩ := step_opening h
    refine .aside ?_ nofun nofun ?_
    · rw [openingStep_scope h]
    · obtain ⟨o, -, h⟩ := Option.bind_eq_some_iff.mp h
      obtain ⟨⟨m₂, k⟩, -, h⟩ := Option.bind_eq_some_iff.mp h
      cases h
      exact .nil
  | closing id =>
    obtain ⟨c, hc, h⟩ := closingStep_cases h
    exact h.stir hc

/-- A move has its effect on the subscriptions; letting go of stray streams after it has none. -/
theorem move_stir (h : m.move mv = some (m', hs)) :
    ∃ m₁ hs₁, Stir m mv m₁ hs₁ ∧ m' = { m₁ with allLinks := m'.allLinks } ∧
      ∃ streams : List StreamId, hs = hs₁ ++ streams.map .released := by
  cases mv with
  | step task a =>
    obtain ⟨⟨m₁, hs₁⟩, ho, hp⟩ := move_step h
    exact ⟨m₁, hs₁, step_stir ho, reap_scope hp, reap_happenings hp⟩
  | abandon id =>
    obtain ⟨⟨m₁, hs₁⟩, ho, hp⟩ := move_abandon h
    refine ⟨m₁, hs₁, .aside ?_ nofun nofun ?_, reap_scope hp, reap_happenings hp⟩
    · rw [abandonSend_scope ho]
    · obtain ⟨s, -, ⟨-, -, rfl⟩ | ⟨l, -, -, -, rfl⟩⟩ := abandonSend_cases ho
      · exact .nil
      · exact .released _
  | register e o =>
    refine ⟨m', hs, ?_, rfl, [], (List.append_nil _).symm⟩
    cases h
    exact .ask
  | unregister e =>
    refine ⟨m', hs, ?_, rfl, [], (List.append_nil _).symm⟩
    cases h
    exact .unregister
  | _ =>
    refine ⟨m', hs, ?_, rfl, [], (List.append_nil _).symm⟩
    cases h
    exact .aside rfl nofun nofun .nil

end PeerLink.Manager
