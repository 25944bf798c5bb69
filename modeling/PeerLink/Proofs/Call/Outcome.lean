import PeerLink.Proofs.Frame.Parsing
import PeerLink.Proofs.Stream.Steadiness

namespace PeerLink.Manager

/-- The body of the greeting of a manager. -/
def helloBody (address : Endpoint) : Bytes := Hello.format.write (.of address)

def verdict (address : Endpoint) (max : Nat) (destination : Endpoint) (frame : Bytes) :
    Except RemoteError Unit :=
  if max < frame.length then .error (.frameTooLarge frame.length max)
  else if (helloBody address).length ≤ Frame.limit max ∧ frame.length ≤ Frame.limit max then .ok ()
  else .error (.connection destination (Frame.tooBig .invalidInput))

def OnCourse (address : Endpoint) (max : Nat) (destination : Endpoint) (frame : Bytes) :
    SendStage → Prop
  | .starting | .abandoned => True
  | .linking (.evicting _) | .linking .refused => False
  | .failing _ error => frame.length ≤ max ∧ Frame.limit max < (helloBody address).length ∧
    error = Frame.tooBig .invalidInput
  | .flushing _ => (helloBody address).length ≤ Frame.limit max ∧ frame.length ≤ Frame.limit max
  | .finished result _ => result = verdict address max destination frame
  | _ => frame.length ≤ max

def Greeted (m : Manager) : Prop :=
  ∀ o x, m.holdingOf o = some x → (helloBody m.address).length ≤ Frame.limit m.config.maxFrame

/-- No call to a destination fails by the network. -/
def Transition.Healthy (d : Endpoint) (t : Transition) : Prop :=
  ∀ (id : SendId) a s, t.move = .step (.send id) a → t.before.sends[id]? = some s →
    s.destination = d → s.stage.failsBy a = false

instance (d : Endpoint) (t : Transition) : Decidable (t.Healthy d) :=
  decidable_of_iff ((match t.move with
      | .step (.send id) a => (t.before.sends[id]?).all fun s =>
          s.destination ≠ d || !s.stage.failsBy a
      | _ => true) = true) <| by
    constructor
    · intro h id a s hm hs hd
      simp [hm, hs, hd] at h
      exact h
    · intro h
      split
      · next id a hm =>
        cases hs : t.before.sends[id]? with
        | none => rfl
        | some s => simpa [imp_iff_not_or] using h id a s hm hs
      · rfl

variable {m m' m₁ : Manager} {mv : Move} {hs ws : List Happening} {l : LinkId} {id j : SendId}
  {s s₁ : Send} {a : Answer} {d : Endpoint} {ts : List Transition} {address : Endpoint} {max : Nat}
  {frame : Bytes}

theorem verdict_of_tooLarge (h : max < frame.length) :
    verdict address max d frame = .error (.frameTooLarge frame.length max) := if_pos h

theorem verdict_of_fits (hg : (helloBody address).length ≤ Frame.limit max)
    (hf : frame.length ≤ Frame.limit max) : verdict address max d frame = .ok () := by
  have hle := Frame.limit_le max
  rw [verdict, if_neg (by omega), if_pos ⟨hg, hf⟩]

theorem verdict_of_overflow (hm : frame.length ≤ max)
    (h : Frame.limit max < (helloBody address).length ∨ Frame.limit max < frame.length) :
    verdict address max d frame = .error (.connection d (Frame.tooBig .invalidInput)) := by
  rw [verdict, if_neg (by omega), if_neg (by omega)]

theorem Greeted.new (address : Endpoint) (config : Config) (clock : Nat) :
    Greeted (new address config clock) := by
  intro o x h
  cases o <;> cases h

theorem SendStep.greeted {stream : StreamId} {x : Holding}
    (hst : SendStep m id s (.connected stream) m₁ hs) (hs' : m.sends[id]? = some s)
    (hx : m₁.holdingOf (.call id) = some x) :
    (helloBody m.address).length ≤ Frame.limit m.config.maxFrame := by
  cases hst with
  | greet _ _ he => exact (Frame.encode?_eq_ok.mp he).1
  | failConnect hu =>
    cases hu with
    | tooLong => cases (holdingOf_call (setSend_get hs' _)).symm.trans hx
  | place hr | overflow hr => cases hr

theorem Greeted.move (h : Greeted m) (hm : m.move mv = some (m', hs)) (hd : Directed m) :
    Greeted m' := by
  have hl := move_later hm
  intro o x hx
  rw [hl.address, hl.config]
  cases move_posting hm hd with
  | keep hh => exact h o x (hh o x hx)
  | turn _ _ h₀ => exact h _ _ h₀
  | @fresh e he hh =>
    obtain ⟨rfl, -⟩ | hx₀ := hh o x hx
    · obtain ⟨s, time, rfl, hs', -⟩ := mem_opened (t := ⟨m, mv, m', hs⟩) (e := e) (by rw [he]; simp)
      obtain ⟨m₁, hs₁, heff, hr⟩ := move_effect hm
      obtain ⟨s', hs₀, hst⟩ := heff.eq_send
      rw [holdingOf, sends_of_reap hr] at hx
      exact hst.greeted hs₀ hx
    · exact h o x hx₀

theorem Greeted.of_ready {g : Link → Link} {w : Writer} (h : Greeted m)
    (hs' : m.sends[id]? = some s) (hr : Ready m id s l a g w ws) :
    (helloBody m.address).length ≤ Frame.limit m.config.maxFrame := by
  obtain ⟨o, x, -, hx, -⟩ := hr.holding hs'
  exact h o x hx

/-- A call stays on course with every step that the network does not make it fail by. -/
theorem SendStep.onCourse (hst : SendStep m id s a m₁ hs) (hs' : m.sends[id]? = some s)
    (h₁ : m₁.sends[id]? = some s₁) (ho : m.closed = false) (hc : m.cancelled = false)
    (hg : Greeted m) (hn : s.stage.failsBy a = false)
    (h : OnCourse m.address m.config.maxFrame s.destination s.frame s.stage) :
    OnCourse m.address m.config.maxFrame s.destination s.frame s₁.stage := by
  cases hst with
  | refuse _ hc' => cases ho.symm.trans hc'
  | quit _ hc' | cancel _ _ hc' => cases hc.symm.trans hc'
  | reject _ _ hf =>
    cases (setSend_get hs' _).symm.trans h₁
    exact (verdict_of_tooLarge hf).symm
  | start _ _ hf =>
    cases (setSend_get hs' _).symm.trans h₁
    exact hf
  | find he hk =>
    rw [lookupStep_scope hk] at h₁
    cases (setSend_get hs' _).symm.trans h₁
    rw [he] at h
    cases lookupStep_cases hk with
    | refuse hc' | withdraw hc' => cases ho.symm.trans hc'
    | evict => exact h.elim
    | _ => exact h
  | turnAway he =>
    rw [he] at h
    exact h.elim
  | found he | request he | retry he | dial he | drain he =>
    cases (setSend_get hs' _).symm.trans h₁
    rw [he] at h
    exact h
  | greet he | greetPart he =>
    cases (setSend_get hs' _).symm.trans h₁
    rw [he] at h
    exact h
  | place hr _ he =>
    cases (setSend_get hs' _).symm.trans h₁
    exact ⟨hg.of_ready hs' hr, (Frame.encode?_eq_ok.mp he).1⟩
  | overflow hr _ he =>
    cases (setSend_get hs' _).symm.trans h₁
    obtain ⟨hf, rfl⟩ := Frame.encode?_eq_error.mp he
    have hmax : s.frame.length ≤ m.config.maxFrame := by
      cases hr with
      | atOnce hs₀ | greeted hs₀ | drained hs₀ =>
        rw [hs₀] at h
        exact h
    exact (verdict_of_overflow hmax (.inr hf)).symm
  | failConnect hu =>
    cases (setSend_get hs' _).symm.trans h₁
    cases hu with
    | timedOut he | refused he | broken he =>
      rw [he] at hn
      cases hn
    | tooLong he hb =>
      obtain ⟨hf, rfl⟩ := Frame.encode?_eq_error.mp hb
      rw [he] at h
      exact ⟨h, hf, rfl⟩
  | giveUp he =>
    rw [evict_scope] at h₁
    cases (setSend_get hs' _).symm.trans h₁
    rw [he] at h
    obtain ⟨hf, hg, rfl⟩ := h
    exact (verdict_of_overflow hf (.inl hg)).symm
  | writePart =>
    cases hs'.symm.trans h₁
    exact h
  | writeAll he =>
    cases (setSend_get hs' _).symm.trans h₁
    rw [he] at h
    exact (verdict_of_fits h.1 h.2).symm
  | failWrite he =>
    obtain he | he := he <;> rw [he] at hn <;> cases hn

structure Smooth (d : Endpoint) (m : Manager) : Prop where
  flagged : Flagged m
  sound : Sound m
  greeted : Greeted m
  course : ∀ (id : SendId) s, m.sends[id]? = some s → s.destination = d →
    OnCourse m.address m.config.maxFrame s.destination s.frame s.stage

theorem Smooth.new (d address : Endpoint) (config : Config) (clock : Nat) :
    Smooth d (new address config clock) := by
  refine ⟨.new address config clock, .new address config clock, .new address config clock,
    fun id s hs => ?_⟩
  cases (List.getElem?_nil (i := id)).symm.trans hs

theorem Smooth.move (h : Smooth d m) (hm : m.move mv = some (m', hs)) (ho : m'.closed = false)
    (hh : (Transition.mk m mv m' hs).Healthy d) : Smooth d m' := by
  have hl := move_later hm
  have ho₀ : m.closed = false := hl.opened ho
  refine ⟨h.flagged.move hm, h.sound.move hm, h.greeted.move hm h.sound.directed,
    fun j s₁ h₁ hd => ?_⟩
  rw [hl.address, hl.config]
  obtain ⟨m₁, hs₁, he, hr⟩ := move_effect hm
  rw [sends_of_reap hr] at h₁
  obtain ⟨h₁, -⟩ | hst | hst | ⟨a, s, rfl, hs', hst⟩ := he.sends h₁
  · exact h.course j s₁ h₁ hd
  · rw [hst]
    trivial
  · rw [hst]
    trivial
  · obtain ⟨stage, h₂⟩ := hst.same hs'
    cases h₁.symm.trans h₂
    exact hst.onCourse hs' h₁ ho₀ (h.flagged.running ho₀) h.greeted (hh j a s rfl hs' hd)
      (h.course j s hs' hd)

theorem run_smooth {config : Config} {clock : Nat} {moves : List Move}
    (h : (new address config clock).run moves = some (m, hs)) (ho : m.closed = false)
    (hh : ∀ t ∈ (new address config clock).transitions moves, t.Healthy d) : Smooth d m := by
  refine run_induction (P := fun m ts => m.closed = false → (∀ t ∈ ts, t.Healthy d) → Smooth d m)
    (fun _ _ => .new d address config clock) ?_ h ho hh
  intro m ts mv m' hs hi hm ho hh
  have hprev := hi ((move_later hm).opened ho) fun t ht => hh t (List.mem_append_left _ ht)
  exact hprev.move hm ho (hh _ (List.mem_append_right _ (List.mem_singleton_self _)))

end PeerLink.Manager
