import PeerLink.Proofs.Manager.Moves

namespace PeerLink.Manager

inductive Effect (m : Manager) : Move → Manager → List Happening → Prop where
  | aside {mv m₁ hs}
    (hm : m₁ = { m with
      clock := m₁.clock
      observers := m₁.observers
      established := m₁.established
      acceptor := m₁.acceptor
      subscriptions := m₁.subscriptions
      receivers := m₁.receivers
      registrations := m₁.registrations })
    (hv : ∀ id a, mv ≠ .step (.send id) a) (hw : ∀ s b, .wrote s b ∉ hs) : Effect m mv m₁ hs
  | call {d f} :
    Effect m (.send d f) { m with sends := m.sends ++ [{ destination := d, frame := f }] } []
  | ask {d} : Effect m (.open d) { m with openings := m.openings ++ [{ destination := d }] } []
  | finish {e} : Effect m (.finish e) { m with closings := m.closings ++ [{ ending := e }] } []
  | send {id s a m₁ hs} (hs' : m.sends[id]? = some s) (h : SendStep m id s a m₁ hs) :
    Effect m (.step (.send id) a) m₁ hs
  | drop {id s} (hs' : m.sends[id]? = some s) (hst : s.stage = .starting) :
    Effect m (.abandon id) (m.setSend id .abandoned) []
  | leave {id s l} (hs' : m.sends[id]? = some s) (hl : s.stage.line? = some l)
    (hr : s.stage.Rests) :
    Effect m (.abandon id) (m.atLink id l (·.leave (.send id)) .abandoned)
      (s.stage.fresh?.toList.map .released)
  | opening {id o m₁ k} (ho : m.openings[id]? = some o)
    (hk : m.lookupStep o.destination o.stage = some (m₁, k)) :
    Effect m (.step (.opening id) .none) (m₁.setOpening id k) []
  | closing {id c a m₁ hs} (hc : m.closings[id]? = some c) (h : ClosingStep m id c a m₁ hs) :
    Effect m (.step (.closing id) a) m₁ hs

variable {m m' : Manager} {mv : Move} {hs : List Happening}

theorem step_effect {task : Task} {a : Answer} (h : m.step task a = some (m', hs)) :
    Effect m (.step task a) m' hs := by
  cases task with
  | acceptor =>
    refine .aside ?_ nofun fun s b hw => ?_
    · rw [acceptorStep_scope h]
    · obtain ⟨w, hw⟩ | hw := acceptorStep_happenings h _ hw <;> cases hw
  | receiver id =>
    refine .aside ?_ nofun fun s b hw => ?_
    · rw [receiverStep_scope h]
    · obtain ⟨w, hw⟩ | ⟨t, hw⟩ | ⟨t, i, hw⟩ := receiverStep_happenings h _ hw <;> cases hw
  | dispatch id =>
    refine .aside ?_ nofun ?_
    · rw [dispatchStep_scope (step_dispatch h).2]
    · obtain ⟨s, -, h⟩ := dispatchStep_cases (step_dispatch h).2
      cases h <;> simp
  | registration id =>
    refine .aside ?_ nofun ?_
    · rw [registrationStep_scope (step_registration h).2]
    · obtain ⟨r, -, rfl, -⟩ := registrationStep_cases (step_registration h).2
      exact fun _ _ => List.not_mem_nil
  | send id =>
    obtain ⟨s, hs', h⟩ := sendStep_cases h
    exact .send hs' h
  | closing id =>
    obtain ⟨c, hc, h⟩ := closingStep_cases h
    exact .closing hc h
  | opening id =>
    obtain ⟨rfl, h⟩ := step_opening h
    obtain ⟨o, ho, h⟩ := Option.bind_eq_some_iff.mp h
    obtain ⟨⟨m₁, k⟩, hk, h⟩ := Option.bind_eq_some_iff.mp h
    cases h
    exact .opening ho hk

/-- A move has an effect, and may let go of stray streams after it. -/
theorem move_effect (h : m.move mv = some (m', hs)) :
    ∃ m₁ hs₁, Effect m mv m₁ hs₁ ∧ (reap (m₁, hs₁) = (m', hs) ∨ m₁ = m' ∧ hs₁ = hs) := by
  cases mv with
  | step task a =>
    obtain ⟨⟨m₁, hs₁⟩, ho, hp⟩ := move_step h
    exact ⟨m₁, hs₁, step_effect ho, .inl hp⟩
  | abandon id =>
    obtain ⟨⟨m₁, hs₁⟩, ho, hp⟩ := move_abandon h
    refine ⟨m₁, hs₁, ?_, .inl hp⟩
    obtain ⟨s, hs', ⟨hst, rfl, rfl⟩ | ⟨l, hl, hr, rfl, rfl⟩⟩ := abandonSend_cases ho
    · exact .drop hs' hst
    · exact .leave hs' hl hr
  | register e o =>
    cases h
    exact ⟨_, _, .aside rfl (by simp) (by simp), .inr ⟨rfl, rfl⟩⟩
  | unregister e =>
    have hm : m.removeObserver e = m' := congrArg Prod.fst (Option.some.inj h)
    have hh : [.unregistered (m.observers.get? e).isSome] = hs :=
      congrArg Prod.snd (Option.some.inj h)
    refine ⟨m', hs, .aside ?_ (by simp) (by simp [← hh]), .inr ⟨rfl, rfl⟩⟩
    rw [← hm, removeObserver_scope]
  | elapse t =>
    cases h
    exact ⟨_, _, .aside rfl (by simp) (by simp), .inr ⟨rfl, rfl⟩⟩
  | «open» d =>
    cases h
    exact ⟨_, _, .ask, .inr ⟨rfl, rfl⟩⟩
  | send d f =>
    cases h
    exact ⟨_, _, .call, .inr ⟨rfl, rfl⟩⟩
  | finish e =>
    cases h
    exact ⟨_, _, .finish, .inr ⟨rfl, rfl⟩⟩

theorem scope_of_reap (hr : reap (m₁, hs₁) = (m', hs) ∨ m₁ = m' ∧ hs₁ = hs) :
    m' = { m₁ with allLinks := m'.allLinks } := by
  obtain hr | ⟨rfl, -⟩ := hr
  · exact reap_scope hr
  · rfl

theorem sends_of_reap (hr : reap (m₁, hs₁) = (m', hs) ∨ m₁ = m' ∧ hs₁ = hs) :
    m'.sends = m₁.sends := by
  rw [scope_of_reap hr]

theorem closings_of_reap (hr : reap (m₁, hs₁) = (m', hs) ∨ m₁ = m' ∧ hs₁ = hs) :
    m'.closings = m₁.closings := by
  rw [scope_of_reap hr]

theorem happenings_of_reap (hr : reap (m₁, hs₁) = (m', hs) ∨ m₁ = m' ∧ hs₁ = hs) : hs₁ ⊆ hs := by
  obtain hr | ⟨-, rfl⟩ := hr
  · obtain ⟨streams, rfl⟩ := reap_happenings hr
    exact List.subset_append_left _ _
  · exact List.Subset.refl _

end PeerLink.Manager
