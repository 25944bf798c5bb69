import PeerLink.Proofs.Manager.Writers

namespace PeerLink.Manager

/-- Finding a link is done without a pause, so a call for a sender rests before it and after it. -/
def Lookup.Rests : Lookup → Prop
  | .checking => True
  | .found _ => True
  | .refused => True
  | _ => False

def RegistrationStage.Rests : RegistrationStage → Prop
  | .checking => True
  | .finished _ => True
  | _ => False

instance (stage : SendStage) : Decidable stage.Rests :=
  match stage with
  | .linking _ | .requesting _ | .failing _ _ => isFalse id
  | .starting | .queued _ | .connecting _ _ | .greeting _ _ _ | .draining _ | .flushing _
  | .finished _ _ | .abandoned => isTrue trivial

instance (stage : RegistrationStage) : Decidable stage.Rests :=
  match stage with
  | .inserting | .confirming _ | .undoing _ | .spawning _ => isFalse id
  | .checking | .finished _ => isTrue trivial

/-- Every call is where it may be suspended. -/
structure Rests (m : Manager) : Prop where
  sends : ∀ (id : SendId) s, m.sends[id]? = some s → s.stage.Rests
  openings : ∀ (id : Nat) o, m.openings[id]? = some o → o.stage.Rests
  registrations : ∀ (id : Nat) r, m.registrations[id]? = some r → r.stage.Rests

def ClosingStage.Cleared : ClosingStage → Prop
  | .swapping => False
  | .cancelling => False
  | .clearingObservers => False
  | .collecting => False
  | .clearingLinks _ => False
  | _ => True

def SendStage.Over : SendStage → Prop
  | .finished _ _ => True
  | .abandoned => True
  | _ => False

def Happening.Loud : Happening → Prop
  | .called _ _ _ => True
  | .dialled _ _ => True
  | _ => False

def Quiet (hs : List Happening) : Prop := ∀ x ∈ hs, ¬x.Loud

structure Silenced (m : Manager) : Prop where
  rests : m.Rests
  closed : m.closed = true
  cancelled : m.cancelled = true
  observers : m.observers = {}
  links : m.links = {}

variable {m m' m₁ : Manager} {mv : Move} {hs hs₁ : List Happening} {a : Answer}

theorem Quiet.nil : Quiet [] := fun _ hx => absurd hx List.not_mem_nil

theorem Quiet.append (h : Quiet hs) (h₁ : Quiet hs₁) : Quiet (hs ++ hs₁) := by
  intro x hx
  obtain hx | hx := List.mem_append.mp hx
  · exact h x hx
  · exact h₁ x hx

theorem Quiet.released (streams : List StreamId) : Quiet (streams.map .released) := by
  intro x hx
  obtain ⟨s, -, rfl⟩ := List.mem_map.mp hx
  exact not_false

theorem Rests.congr (h : m.Rests) (hs : m₁.sends = m.sends) (ho : m₁.openings = m.openings)
    (hr : m₁.registrations = m.registrations) : m₁.Rests :=
  ⟨hs ▸ h.sends, ho ▸ h.openings, hr ▸ h.registrations⟩

theorem Silenced.congr (h : Silenced m) (hm : m₁ = { m with
      clock := m₁.clock
      established := m₁.established
      acceptor := m₁.acceptor
      subscriptions := m₁.subscriptions
      receivers := m₁.receivers
      allLinks := m₁.allLinks
      closings := m₁.closings }) : Silenced m₁ := by
  rw [hm]
  exact ⟨h.rests.congr rfl rfl rfl, h.closed, h.cancelled, h.observers, h.links⟩

theorem SendStep.refused {id : SendId} {s : Send} (hst : SendStep m id s a m₁ hs)
    (hr : s.stage.Rests) (hcl : m.closed = true) (hca : m.cancelled = true) :
    a = .none ∧ Quiet hs ∧ ∃ l f, m₁ = m.atLink id l f (.finished (.error .closed) m.clock) := by
  cases hst with
  | refuse =>
    refine ⟨rfl, .nil, 0, fun k => k, ?_⟩
    rw [atLink, modifyLink_id]
    rfl
  | @cancel l hl => exact ⟨rfl, .released _, l, _, rfl⟩
  | reject _ hc | start _ hc => cases hcl.symm.trans hc
  | find he | found he | turnAway he | quit he | request he | giveUp he =>
    rw [he] at hr
    cases hr
  | retry _ hc | dial _ hc | drain _ hc | place _ hc | overflow _ hc | greet _ hc
  | failConnect _ hc | greetPart _ hc | writePart _ hc | writeAll _ hc | failWrite _ hc =>
    cases hca.symm.trans hc

namespace Silenced

theorem setSend (h : Silenced m) {id : SendId} {l : LinkId} {f : Link → Link} {stage : SendStage}
    (hst : stage.Rests) : Silenced (m.atLink id l f stage) := by
  refine ⟨⟨fun j s hs => ?_, h.rests.openings, h.rests.registrations⟩, h.closed, h.cancelled,
    h.observers, h.links⟩
  obtain ⟨s₀, hs₀, ⟨-, rfl⟩ | ⟨-, rfl⟩⟩ := getElem?_modify_cases hs
  · exact hst
  · exact h.rests.sends j s hs₀

theorem opening {id : Nat} (h : Silenced m) (hst : m.openingStep id = some (m₁, hs)) :
    Silenced m₁ ∧ hs = [] ∧ m₁ = m.setOpening id .refused := by
  obtain ⟨o, ho, hst⟩ := Option.bind_eq_some_iff.mp hst
  obtain ⟨⟨m₂, k⟩, hk, hst⟩ := Option.bind_eq_some_iff.mp hst
  cases hst
  have hr := h.rests.openings id o ho
  generalize o.stage = n at hk hr
  cases lookupStep_cases hk with
  | refuse =>
    refine ⟨⟨⟨h.rests.sends, fun j o' ho' => ?_, h.rests.registrations⟩, h.closed, h.cancelled,
      h.observers, h.links⟩, rfl, rfl⟩
    obtain ⟨o₀, ho₀, ⟨-, rfl⟩ | ⟨-, rfl⟩⟩ := getElem?_modify_cases ho'
    · trivial
    · exact h.rests.openings j o' ho₀
  | enter hc => cases h.closed.symm.trans hc
  | meet | make | withdraw | confirm | evict => cases hr

theorem registration {id : Nat} (h : Silenced m) (hst : m.registrationStep id = some (m₁, hs)) :
    Silenced m₁ ∧ hs = [] ∧ m₁ = m.setRegistration id (.finished (.error .closed)) := by
  obtain ⟨r, hr, rfl, hr'⟩ := registrationStep_cases hst
  have hrest := h.rests.registrations id r hr
  cases hr' with
  | refuse =>
    refine ⟨⟨⟨h.rests.sends, h.rests.openings, fun j r' hr' => ?_⟩, h.closed, h.cancelled,
      h.observers, h.links⟩, rfl, rfl⟩
    obtain ⟨r₀, hr₀, ⟨-, rfl⟩ | ⟨-, rfl⟩⟩ := getElem?_modify_cases hr'
    · trivial
    · exact h.rests.registrations j r' hr₀
  | enter _ hc => cases h.closed.symm.trans hc
  | taken he | insert he | withdraw he | confirm he | undo he | spawn he =>
    rw [he] at hrest
    cases hrest

theorem dispatch {id : SubscriptionId} (h : Silenced m) (hst : m.dispatchStep id = some (m₁, hs)) :
    Silenced m₁ ∧ Quiet hs := by
  refine ⟨h.congr (by rw [dispatchStep_scope hst]), ?_⟩
  obtain ⟨s, -, hst⟩ := dispatchStep_cases hst
  cases hst with
  | halt => exact .nil
  | deliver _ hc | complete _ hc => cases h.cancelled.symm.trans hc

theorem closing {id : ClosingId} {c : Closing} (h : Silenced m)
    (hst : ClosingStep m id c a m₁ hs) : Silenced m₁ ∧ Quiet hs := by
  cases hst with
  | swap =>
    exact ⟨⟨h.rests.congr rfl rfl rfl, rfl, h.cancelled, h.observers, h.links⟩, .nil⟩
  | cancel =>
    exact ⟨⟨h.rests.congr rfl rfl rfl, h.closed, rfl, h.observers, h.links⟩, .nil⟩
  | clearObservers =>
    rw [clearObservers_scope]
    exact ⟨⟨h.rests.congr rfl rfl rfl, h.closed, h.cancelled, rfl, h.links⟩, .nil⟩
  | clearLinks =>
    exact ⟨⟨h.rests.congr rfl rfl rfl, h.closed, h.cancelled, h.observers, rfl⟩, .nil⟩
  | again | collect | await | request | retireIdle | retireBusy | done =>
    exact ⟨h.congr rfl, .nil⟩
  | flushPart | giveUp => exact ⟨h.congr rfl, by simp [Quiet, Happening.Loud]⟩
  | flushEnd _ ha =>
    refine ⟨h.congr rfl, Quiet.append ?_ (by simp [Quiet, Happening.Loud])⟩
    obtain ⟨-, -, rfl⟩ | ⟨-, -, rfl⟩ | ⟨_, -, rfl⟩ := ha <;> simp [Quiet, Happening.Loud]

theorem step {task : Task} (h : Silenced m) (hst : m.step task a = some (m₁, hs)) :
    Silenced m₁ ∧ Quiet hs := by
  cases task with
  | acceptor =>
    refine ⟨h.congr (by rw [acceptorStep_scope hst]), fun x hx => ?_⟩
    obtain ⟨w, rfl⟩ | rfl := acceptorStep_happenings hst x hx <;> exact not_false
  | receiver id =>
    refine ⟨h.congr (by rw [receiverStep_scope hst]), fun x hx => ?_⟩
    obtain ⟨w, rfl⟩ | ⟨s, rfl⟩ | ⟨s, i, rfl⟩ := receiverStep_happenings hst x hx <;> exact not_false
  | dispatch id => exact h.dispatch (step_dispatch hst).2
  | send id =>
    obtain ⟨s, hs', hst⟩ := sendStep_cases hst
    obtain ⟨-, hq, l, f, rfl⟩ := hst.refused (h.rests.sends id s hs') h.closed h.cancelled
    exact ⟨h.setSend trivial, hq⟩
  | opening id =>
    obtain ⟨hm, rfl, -⟩ := h.opening (step_opening hst).2
    exact ⟨hm, .nil⟩
  | registration id =>
    obtain ⟨hm, rfl, -⟩ := h.registration (step_registration hst).2
    exact ⟨hm, .nil⟩
  | closing id =>
    obtain ⟨c, -, hst⟩ := closingStep_cases hst
    exact h.closing hst

theorem reap {o : Manager × List Happening} (h : Silenced o.1) (hq : Quiet o.2)
    (hr : reap o = (m', hs)) : Silenced m' ∧ Quiet hs := by
  refine ⟨h.congr (by rw [reap_scope hr]), ?_⟩
  obtain ⟨streams, rfl⟩ := reap_happenings hr
  exact hq.append (.released streams)

theorem move (h : Silenced m) (hm : m.move mv = some (m', hs)) : Silenced m' ∧ Quiet hs := by
  cases mv with
  | step task a =>
    obtain ⟨⟨m₁, hs₁⟩, ho, hr⟩ := move_step hm
    obtain ⟨hm₁, hq⟩ := h.step ho
    exact Silenced.reap hm₁ hq hr
  | abandon id =>
    obtain ⟨⟨m₁, hs₁⟩, ho, hr⟩ := move_abandon hm
    obtain ⟨s, -, ⟨-, rfl, rfl⟩ | ⟨l, -, -, rfl, rfl⟩⟩ := abandonSend_cases ho
    · have hm₁ : Silenced (m.atLink id 0 (fun k => k) .abandoned) := h.setSend trivial
      rw [atLink, modifyLink_id] at hm₁
      exact Silenced.reap hm₁ .nil hr
    · have hm₁ : Silenced (m.atLink id l (·.leave (.send id)) .abandoned) := h.setSend trivial
      exact Silenced.reap hm₁ (.released _) hr
  | unregister e =>
    have he : m.removeObserver e = m := by
      rw [removeObserver, h.observers]
      rfl
    cases hm
    rw [he]
    exact ⟨h, by simp [Quiet, Happening.Loud]⟩
  | register e o =>
    cases hm
    refine ⟨⟨⟨h.rests.sends, h.rests.openings, fun j r hr => ?_⟩, h.closed, h.cancelled,
      h.observers, h.links⟩, .nil⟩
    obtain hr | ⟨-, rfl⟩ := getElem?_concat_cases hr
    · exact h.rests.registrations j r hr
    · trivial
  | elapse t =>
    cases hm
    exact ⟨h.congr rfl, .nil⟩
  | «open» d =>
    cases hm
    refine ⟨⟨⟨h.rests.sends, fun j o ho => ?_, h.rests.registrations⟩, h.closed, h.cancelled,
      h.observers, h.links⟩, .nil⟩
    obtain ho | ⟨-, rfl⟩ := getElem?_concat_cases ho
    · exact h.rests.openings j o ho
    · trivial
  | send d f =>
    cases hm
    refine ⟨⟨⟨fun j s hs => ?_, h.rests.openings, h.rests.registrations⟩, h.closed, h.cancelled,
      h.observers, h.links⟩, .nil⟩
    obtain hs | ⟨-, rfl⟩ := getElem?_concat_cases hs
    · exact h.rests.sends j s hs
    · trivial
  | finish e =>
    cases hm
    exact ⟨h.congr rfl, .nil⟩

theorem run {moves : List Move} (h : Silenced m) (hm : m.run moves = some (m', hs)) :
    Silenced m' ∧ Quiet hs := by
  induction moves generalizing m hs with
  | nil =>
    cases hm
    exact ⟨h, .nil⟩
  | cons mv moves ih =>
    obtain ⟨m₁, hs₁, hs₂, hmv, hr, rfl⟩ := run_cons.mp hm
    obtain ⟨h₁, hq₁⟩ := h.move hmv
    obtain ⟨h₂, hq₂⟩ := ih h₁ hr
    exact ⟨h₂, hq₁.append hq₂⟩

end Silenced

def Underway (m : Manager) : ClosingStage → Prop
  | .swapping => m.Rests ∧ m.closed = false
  | .cancelling => m.Rests ∧ m.closed = true
  | .clearingObservers => m.Rests ∧ m.closed = true ∧ m.cancelled = true
  | .collecting => m.Rests ∧ m.closed = true ∧ m.cancelled = true ∧ m.observers = {}
  | .clearingLinks _ => m.Rests ∧ m.closed = true ∧ m.cancelled = true ∧ m.observers = {}
  | _ => Silenced m

section Underway

variable {id : ClosingId} {c : Closing} {stage : ClosingStage}

theorem Underway.silenced (h : Underway m stage) (hc : stage.Cleared) : Silenced m := by
  cases stage <;> first | exact h | cases hc

theorem Underway.reap {o : Manager × List Happening} (h : Underway o.1 stage)
    (hr : reap o = (m', hs)) : Underway m' stage := by
  rw [reap_scope hr]
  cases stage with
  | swapping | cancelling | clearingObservers | collecting | clearingLinks _ =>
    exact ⟨h.1.congr rfl rfl rfl, h.2⟩
  | _ => exact Silenced.congr h rfl

theorem Underway.step (h : Underway m c.stage) (hc : m.closings[id]? = some c)
    (hst : ClosingStep m id c a m₁ hs) :
    ∃ stage, m₁.closings[id]? = some { c with stage } ∧ Underway m₁ stage ∧ Quiet hs := by
  have hk := hst
  cases hst with
  | again he hc' =>
    rw [he] at h
    cases h.2.symm.trans hc'
  | swap he =>
    rw [he] at h
    exact ⟨_, setClosing_get hc _, ⟨h.1.congr rfl rfl rfl, rfl⟩, .nil⟩
  | cancel he =>
    rw [he] at h
    exact ⟨_, setClosing_get hc _, ⟨h.1.congr rfl rfl rfl, h.2, rfl⟩, .nil⟩
  | clearObservers he hn =>
    rw [he] at h
    rw [clearObservers_scope]
    refine ⟨_, setClosing_get hc _, ?_, .nil⟩
    obtain ⟨-, rfl⟩ | ⟨-, rfl⟩ := hn <;> exact ⟨h.1.congr rfl rfl rfl, h.2.1, h.2.2, rfl⟩
  | collect he =>
    rw [he] at h
    exact ⟨_, setClosing_get hc _, ⟨h.1.congr rfl rfl rfl, h.2⟩, .nil⟩
  | clearLinks he hn =>
    rw [he] at h
    refine ⟨_, setClosing_get hc _, ?_, .nil⟩
    obtain ⟨-, rfl⟩ | ⟨-, rfl⟩ := hn <;>
      exact ⟨h.1.congr rfl rfl rfl, h.2.1, h.2.2.1, h.2.2.2, rfl⟩
  | await he | request he | retireIdle he | retireBusy he | flushPart he | flushEnd he | done he
  | giveUp he =>
    rw [he] at h
    obtain ⟨hm, hq⟩ := Silenced.closing h hk
    exact ⟨_, setClosing_get hc _, hm, hq⟩

theorem Underway.run {n : Nat} (h : Underway m c.stage) (hc : m.closings[id]? = some c)
    (hm : m.run (List.replicate n (.step (.closing id) .none)) = some (m', hs)) :
    ∃ stage, m'.closings[id]? = some { c with stage } ∧ Underway m' stage ∧ Quiet hs := by
  induction n generalizing m c hs with
  | zero =>
    cases hm
    exact ⟨c.stage, hc, h, .nil⟩
  | succ n ih =>
    rw [List.replicate_succ] at hm
    obtain ⟨m₁, hs₁, hs₂, hmv, hrun, rfl⟩ := run_cons.mp hm
    obtain ⟨⟨m₂, hs₃⟩, ho, hr⟩ := move_step hmv
    obtain ⟨c', hc', hst⟩ := closingStep_cases ho
    cases hc.symm.trans hc'
    obtain ⟨stage, hg, hu, hq⟩ := h.step hc hst
    have hg₁ : m₁.closings[id]? = some { c with stage } := by
      rw [reap_scope hr]
      exact hg
    obtain ⟨stage', hg', hu', hq'⟩ := ih (Underway.reap hu hr) hg₁ hrun
    obtain ⟨streams, rfl⟩ := reap_happenings hr
    exact ⟨stage', hg', hu', (hq.append (.released streams)).append hq'⟩

end Underway

/-- How a manager answers when it has been closed: it has empty tables, and refuses every call by
the next step of it. Closing it again changes nothing. -/
structure Refuses (m : Manager) : Prop where
  observers : m.observers = {}
  links : m.links = {}
  sends : ∀ (j : SendId) s, m.sends[j]? = some s → s.stage.Over ∨
    (∃ o, m.move (.step (.send j) .none) = some o) ∧
      ∀ a o, m.move (.step (.send j) a) = some o →
        o.1.sends[j]? = some { s with stage := .finished (.error .closed) m.clock }
  openings : ∀ (j : Nat) o, m.openings[j]? = some o → (∃ l, o.stage = .found l) ∨
    o.stage = .refused ∨ ∃ m', m.move (.step (.opening j) .none) = some m' ∧
      m'.1.openings[j]? = some { o with stage := .refused }
  registrations : ∀ (j : Nat) r, m.registrations[j]? = some r → (∃ x, r.stage = .finished x) ∨
    ∃ m', m.move (.step (.registration j) .none) = some m' ∧
      m'.1.registrations[j]? = some { r with stage := .finished (.error .closed) }
  closings : ∀ (j : ClosingId) c, m.closings[j]? = some c → c.stage = .swapping →
    m.move (.step (.closing j) .none) = some (m.setClosing j (.finished m.clock), [])

theorem Silenced.wakes (h : Silenced m) (hsd : Sound m) {j : SendId} {s : Send}
    (hs : m.sends[j]? = some s) : s.stage.Over ∨ ∃ o, m.sendStep j .none = some o := by
  have hr := h.rests.sends j s hs
  cases hst : s.stage with
  | linking k | requesting l | failing l e =>
    rw [hst] at hr
    cases hr
  | finished r t | abandoned => exact .inl trivial
  | starting =>
    exact .inr (Option.isSome_iff_exists.mp (by simp [sendStep, hs, hst, h.closed]))
  | queued l =>
    obtain ⟨k, hk, -⟩ := hsd.directed.sends j s l hs (by rw [hst]; rfl)
    refine .inr (Option.isSome_iff_exists.mp ?_)
    simp [sendStep, hs, hst, queuedStep, hk, h.cancelled]
  | connecting l t =>
    refine .inr (Option.isSome_iff_exists.mp ?_)
    simp [sendStep, hs, hst, connectingStep, h.cancelled]
  | greeting l x u =>
    refine .inr (Option.isSome_iff_exists.mp ?_)
    simp [sendStep, hs, hst, greetStep, h.cancelled]
  | draining l | flushing l =>
    obtain ⟨k, w, hk, hw⟩ := hsd.supplied.writing j s l hs (by rw [hst]; rfl)
    refine .inr (Option.isSome_iff_exists.mp ?_)
    simp [sendStep, hs, hst, writeStep, hk, hw, h.cancelled]

theorem refuses_of_silenced (h : Silenced m) (hsd : Sound m) (ht : Tidy m) : Refuses m := by
  refine ⟨h.observers, h.links, fun j s hs => ?_, fun j o ho => ?_, fun j r hr => ?_,
    fun j c hc hst => ?_⟩
  · refine (h.wakes hsd hs).imp_right fun ⟨o, ho⟩ => ⟨⟨reap o, ?_⟩, fun a o ho => ?_⟩
    · exact Option.map_eq_some_iff.mpr ⟨o, ho, rfl⟩
    · obtain ⟨⟨m₁, hs₁⟩, ho, hr⟩ := move_step ho
      obtain ⟨s', hs', hst⟩ := sendStep_cases ho
      cases hs.symm.trans hs'
      obtain ⟨-, -, l, f, rfl⟩ := hst.refused (h.rests.sends j s hs) h.closed h.cancelled
      rw [reap_scope hr]
      exact setSend_get hs _
  · have hrest := h.rests.openings j o ho
    cases hst : o.stage with
    | found l => exact .inl ⟨l, rfl⟩
    | refused => exact .inr (.inl rfl)
    | checking =>
      obtain ⟨⟨m₁, hs₁⟩, hr⟩ : ∃ o, reap (m.setOpening j .refused, []) = o := ⟨_, rfl⟩
      refine .inr (.inr ⟨(m₁, hs₁), ?_, ?_⟩)
      · simp [Manager.move, Manager.step, openingStep, ho, hst, lookupStep, h.closed, hr]
      · rw [reap_scope hr]
        simp [setOpening, ho]
    | entering | confirming l | evicting l =>
      rw [hst] at hrest
      cases hrest
  · have hrest := h.rests.registrations j r hr
    cases hst : r.stage with
    | finished x => exact .inl ⟨x, rfl⟩
    | checking =>
      obtain ⟨⟨m₁, hs₁⟩, hp⟩ :
          ∃ o, reap (m.setRegistration j (.finished (.error .closed)), []) = o := ⟨_, rfl⟩
      refine .inr ⟨(m₁, hs₁), ?_, ?_⟩
      · simp [Manager.move, Manager.step, registrationStep, hr, hst, h.closed, hp]
      · rw [reap_scope hp]
        simp [setRegistration, hr]
    | inserting | confirming s | undoing s | spawning s =>
      rw [hst] at hrest
      cases hrest
  · have hl : c.stage.links = [] := by rw [hst]; rfl
    have ht' : Tidy (m.setClosing j (.finished m.clock)) :=
      ht.of_refersTo rfl fun l => refersTo_setClosing hc hl
    have hm : m.move (.step (.closing j) .none) =
        some (reap (m.setClosing j (.finished m.clock), [])) := by
      simp [Manager.move, Manager.step, closingStep, hc, hst, h.closed]
    rw [hm, reap_of_tidy ht']

/-- From the steps on in which a closing goes through the tables, whatever comes after them, nothing
is heard of the manager and all calls are refused. -/
theorem quiet_after_closing {address : Endpoint} {config : Config} {clock n : Nat}
    {moves more : List Move} {id : ClosingId} {ending : Ending} {c : Closing} {m'' : Manager}
    {hs' hs'' : List Happening} (h : (new address config clock).run moves = some (m, hs))
    (hrest : m.Rests) (hopen : m.closed = false)
    (hc : m.closings[id]? = some { ending, stage := .swapping })
    (hclose : m.run (List.replicate n (.step (.closing id) .none)) = some (m', hs'))
    (hc' : m'.closings[id]? = some c) (hcleared : c.stage.Cleared)
    (hmore : m'.run more = some (m'', hs'')) : Quiet (hs' ++ hs'') ∧ Refuses m'' := by
  have hu₀ : Underway m ({ ending, stage := .swapping } : Closing).stage := ⟨hrest, hopen⟩
  obtain ⟨stage, hg, hu, hq⟩ := hu₀.run hc hclose
  cases hg.symm.trans hc'
  obtain ⟨hsil, hq'⟩ := (hu.silenced hcleared).run hmore
  have hall : (new address config clock).run (moves ++ (List.replicate n (.step (.closing id) .none) ++
      more)) = some (m'', hs ++ (hs' ++ hs'')) :=
    run_append.mpr ⟨m, hs, _, h, run_append.mpr ⟨m', hs', hs'', hclose, hmore, rfl⟩, rfl⟩
  exact ⟨hq.append hq', refuses_of_silenced hsil (run_sound hall) (run_tidy hall)⟩

/-- A closing while a call is connecting. -/
theorem quiet_after_closing_connecting :
    let work (task : Task) (n : Nat) := List.replicate n (Move.step task .none)
    let m₀ := new ⟨"a", 1⟩ {} 0
    let moves := .register ⟨"b", 2⟩ 7 :: work (.registration 0) 4 ++ .send ⟨"b", 2⟩ [5] ::
      work (.send 0) 7 ++ [.finish .close]
    let more := [.send ⟨"b", 2⟩ [6], .finish .close, .step (.closing 0) .none, .elapse 9]
    ∃ m hs m' hs' m'' hs'', m₀.run moves = some (m, hs) ∧ hs = [.dialled 0 ⟨"b", 2⟩] ∧
      m.run (work (.closing 0) 5) = some (m', hs') ∧ m'.run more = some (m'', hs'') ∧
      Quiet (hs' ++ hs'') ∧ Refuses m'' := by
  intro work m₀ moves more
  have hsome : (m₀.run (moves ++ (work (.closing 0) 5 ++ more))).isSome = true := by decide +kernel
  obtain ⟨⟨m'', hs₀⟩, h⟩ := Option.isSome_iff_exists.mp hsome
  obtain ⟨m, hs, _, h, h', -⟩ := run_append.mp h
  obtain ⟨m', hs', hs'', hclose, hmore, -⟩ := run_append.mp h'
  have hm : (m₀.run moves).map (fun o => (o.2, o.1.closed, o.1.closings[0]?, o.1.openings.length)) =
      some ([.dialled 0 ⟨"b", 2⟩], false, some ⟨.close, .swapping⟩, 0) := by decide +kernel
  have hrest : (m₀.run moves).all (fun o => o.1.sends.all (fun s => s.stage.Rests) &&
      o.1.registrations.all (fun r => r.stage.Rests)) = true := by decide +kernel
  have hm' : (m₀.run (moves ++ work (.closing 0) 5)).map (fun o => o.1.closings[0]?) =
      some (some ⟨.close, .retiring [0]⟩) := by decide +kernel
  rw [run_append.mpr ⟨m, hs, hs', h, hclose, rfl⟩] at hm'
  rw [h] at hm hrest
  simp only [Option.map_some, Option.some.injEq, Prod.mk.injEq] at hm hm'
  simp only [Option.all_some, Bool.and_eq_true, List.all_eq_true, decide_eq_true_eq] at hrest
  obtain ⟨hhs, hopen, hc, ho⟩ := hm
  have hp := quiet_after_closing h ⟨fun j s hj => hrest.1 s (List.mem_of_getElem? hj),
    fun j o hj => by simp [List.length_eq_zero_iff.mp ho] at hj,
    fun j r hj => hrest.2 r (List.mem_of_getElem? hj)⟩ hopen hc hclose hm' trivial hmore
  exact ⟨m, hs, m', hs', m'', hs'', h, hhs, hclose, hmore, hp⟩
end PeerLink.Manager
