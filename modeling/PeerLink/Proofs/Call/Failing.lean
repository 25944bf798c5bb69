import Mathlib.Data.List.Pairwise
import PeerLink.Proofs.Link.Isolation
import PeerLink.Proofs.Stream.Order

namespace PeerLink.Manager

namespace Transition

variable (t : Transition)

/-- The connect of a call for a link fails: it is refused or takes too long, or there is no getting
the greeting through. -/
def ConnectFails (id : SendId) (l : LinkId) (error : IoError) : Prop :=
  t.before.cancelled = false ∧ ∃ a s hs, t.move = .step (.send id) a ∧
    t.before.sends[id]? = some s ∧ Unconnected t.before s l a error hs

def FailsWrite (id : SendId) (error : IoError) : Prop :=
  t.move = .step (.send id) (.failed error) ∧
    ∃ s l, t.before.sends[id]? = some s ∧ s.stage.writing? = some l

end Transition

def FailedItself (ts : List Transition) (id : SendId) (max : Nat) (frame : Bytes)
    (error : IoError) : Prop :=
  (∃ t ∈ ts, (∃ l, t.ConnectFails id l error) ∨ t.FailsWrite id error) ∨
    Frame.encode? max frame = .error error

def SendStage.Fallen (d : Endpoint) (l : LinkId) (error : IoError) : SendStage → Prop
  | .failing l' error' => l' = l ∧ error' = error
  | .finished result _ => result = .error (.connection d error)
  | _ => False

/-- Each connect that has failed has one call to account for it. -/
structure Accounts (m : Manager) (ts : List Transition) : Prop where
  fallen : ∀ t ∈ ts, ∀ id l error, t.ConnectFails id l error →
    ∃ s, m.sends[id]? = some s ∧ s.stage.Fallen s.destination l error
  failing : ∀ (id : SendId) s l error, m.sends[id]? = some s → s.stage = .failing l error →
    ∃ t ∈ ts, t.ConnectFails id l error
  returned : ∀ (id : SendId) s d error time, m.sends[id]? = some s →
    s.stage = .finished (.error (.connection d error)) time →
    d = s.destination ∧ FailedItself ts id m.config.maxFrame s.frame error
  once : ts.Pairwise fun t u => ∀ id l error l' error',
    t.ConnectFails id l error → ¬u.ConnectFails id l' error'

variable {m m' m₁ : Manager} {mv : Move} {hs ws : List Happening} {l l' : LinkId}
  {id j : SendId} {s s₁ : Send} {a : Answer} {d : Endpoint} {ts : List Transition}
  {t u : Transition} {error error' : IoError} {result : Except RemoteError Unit} {time max : Nat}
  {frame : Bytes}

theorem FailedItself.append (h : FailedItself ts id max frame error) :
    FailedItself (ts ++ [t]) id max frame error :=
  h.imp_left fun ⟨u, hu, h⟩ => ⟨u, List.mem_append_left _ hu, h⟩

theorem SendStep.of_unconnected (hst : SendStep m id s a m₁ hs) (hs' : m.sends[id]? = some s)
    (hu : Unconnected m s l a error ws) (hc : m.cancelled = false) :
    m₁.sends[id]? = some { s with stage := .failing l error } := by
  have hop := hu.opening?
  cases hst with
  | failConnect hu' =>
    refine (setSend_get hs' _).trans ?_
    cases hu with
    | timedOut he =>
      cases hu' with
      | timedOut he' =>
        cases he.symm.trans he'
        rfl
    | refused he | broken he =>
      cases hu' with
      | refused he' | broken he' =>
        cases he.symm.trans he'
        try rfl
    | tooLong he hb =>
      cases hu' with
      | tooLong he' hb' =>
        cases he.symm.trans he'
        cases hb.symm.trans hb'
        rfl
  | greet _ _ hb =>
    cases hu with
    | tooLong _ hb' => cases hb.symm.trans hb'
  | cancel _ _ hc' => cases hc.symm.trans hc'
  | greetPart => cases hu
  | place hr | overflow hr =>
    cases hr with
    | greeted => cases hu
    | atOnce he | drained he =>
      rw [he] at hop
      cases hop
  | writePart he | failWrite he =>
    obtain he | he := he
    all_goals
      rw [he] at hop
      cases hop
  | refuse he | reject he | start he | find he | found he | turnAway he | quit he | request he
  | retry he | dial he | drain he | giveUp he | writeAll he =>
    rw [he] at hop
    cases hop

theorem SendStep.of_failing (hst : SendStep m id s a m₁ hs) (hs' : m.sends[id]? = some s)
    (hf : s.stage = .failing l error) : m₁.sends[id]? =
      some { s with stage := .finished (.error (.connection s.destination error)) m.clock } := by
  cases hst with
  | giveUp he =>
    cases hf.symm.trans he
    rw [evict_scope]
    exact setSend_get hs' _
  | cancel _ hr =>
    rw [hf] at hr
    exact hr.elim
  | place hr | overflow hr =>
    cases hr with
    | atOnce he | greeted he | drained he => cases hf.symm.trans he
  | failConnect hu =>
    have hop := hu.opening?
    rw [hf] at hop
    cases hop
  | writePart he | failWrite he => obtain he | he := he <;> cases hf.symm.trans he
  | refuse he | reject he | start he | find he | found he | turnAway he | quit he | request he
  | retry he | dial he | drain he | greet he | greetPart he | writeAll he =>
    cases hf.symm.trans he

theorem SendStep.not_finished (hst : SendStep m id s a m₁ hs) :
    s.stage ≠ .finished result time := by
  intro hf
  cases hst with
  | cancel hl =>
    rw [hf] at hl
    cases hl
  | place hr | overflow hr =>
    cases hr with
    | atOnce he | greeted he | drained he => cases hf.symm.trans he
  | failConnect hu =>
    have hop := hu.opening?
    rw [hf] at hop
    cases hop
  | writePart he | failWrite he => obtain he | he := he <;> cases hf.symm.trans he
  | refuse he | reject he | start he | find he | found he | turnAway he | quit he | request he
  | retry he | dial he | drain he | greet he | greetPart he | writeAll he | giveUp he =>
    cases hf.symm.trans he

def Blamed (m : Manager) (s : Send) (a : Answer) : SendStage → Prop
  | .failing l error => m.cancelled = false ∧ ∃ hs, Unconnected m s l a error hs
  | .finished (.error (.connection d error)) _ => d = s.destination ∧
    ((∃ l, s.stage = .failing l error) ∨ (a = .failed error ∧ ∃ l, s.stage.writing? = some l) ∨
      Frame.encode? m.config.maxFrame s.frame = .error error)
  | _ => True

theorem SendStep.blamed (hst : SendStep m id s a m₁ hs) (hs' : m.sends[id]? = some s)
    (h₁ : m₁.sends[id]? = some s₁) : Blamed m s a s₁.stage := by
  cases hst with
  | find _ hk =>
    rw [lookupStep_scope hk] at h₁
    cases (setSend_get hs' _).symm.trans h₁
    trivial
  | failConnect hu hc =>
    cases (setSend_get hs' _).symm.trans h₁
    exact ⟨hc, _, hu⟩
  | giveUp he =>
    rw [evict_scope] at h₁
    cases (setSend_get hs' _).symm.trans h₁
    exact ⟨rfl, .inl ⟨_, he⟩⟩
  | overflow _ _ he =>
    cases (setSend_get hs' _).symm.trans h₁
    exact ⟨rfl, .inr (.inr he)⟩
  | failWrite he =>
    cases (setSend_get hs' _).symm.trans h₁
    refine ⟨rfl, .inr (.inl ⟨rfl, ?_⟩)⟩
    obtain he | he := he <;> rw [he] <;> exact ⟨_, rfl⟩
  | writePart he =>
    cases hs'.symm.trans h₁
    obtain he | he := he <;> rw [he] <;> trivial
  | _ =>
    cases (setSend_get hs' _).symm.trans h₁
    trivial

theorem Transition.ConnectFails.stage (h : t.ConnectFails id l error)
    (hm : t.before.move t.move = some (t.after, t.happenings)) :
    ∃ s, t.before.sends[id]? = some s ∧ s.stage.opening? = some l ∧
      t.after.sends[id]? = some { s with stage := .failing l error } := by
  obtain ⟨hc, a, s, ws, hmv, hs', hu⟩ := h
  rw [hmv] at hm
  obtain ⟨m₁, hs₁, he, hr⟩ := move_effect hm
  obtain ⟨s₀, hs₀, hst⟩ := he.eq_send
  cases hs'.symm.trans hs₀
  exact ⟨s, hs', hu.opening?, sends_of_reap hr ▸ hst.of_unconnected hs' hu hc⟩

/-- A call that has failed to connect returns that, and cannot be given up before. -/
theorem Effect.keeps_fallen (he : Effect m mv m₁ hs) (hs' : m.sends[id]? = some s)
    (h : s.stage.Fallen s.destination l error) :
    ∃ s₁, m₁.sends[id]? = some s₁ ∧ s₁.stage.Fallen s₁.destination l error := by
  obtain ⟨stage, h₁, ⟨rfl, -⟩ | ⟨rfl, rfl⟩ | ⟨a, rfl, hst⟩⟩ := he.keeps_call hs'
  · exact ⟨s, h₁, h⟩
  · cases he with
    | aside hm =>
      rw [hm]
      exact ⟨s, hs', h⟩
    | drop hs₀ he =>
      cases hs'.symm.trans hs₀
      rw [he] at h
      exact h.elim
    | leave hs₀ hl hr =>
      cases hs'.symm.trans hs₀
      cases hst : s.stage with
      | failing =>
        rw [hst] at hr
        exact hr.elim
      | finished =>
        rw [hst] at hl
        cases hl
      | _ =>
        rw [hst] at h
        exact h.elim
  · cases he' : s.stage with
    | failing l' error' =>
      rw [he'] at h
      obtain ⟨rfl, rfl⟩ := h
      exact ⟨_, hst.of_failing hs' he', rfl⟩
    | finished => exact absurd he' hst.not_finished
    | _ =>
      rw [he'] at h
      exact h.elim

theorem Accounts.new (address : Endpoint) (config : Config) (clock : Nat) :
    Accounts (new address config clock) [] := by
  have hnone : ∀ (id : SendId) s, (Manager.new address config clock).sends[id]? ≠ some s :=
    fun id s h => by simp [Manager.new] at h
  exact ⟨fun t ht => absurd ht List.not_mem_nil, fun id s _ _ h => absurd h (hnone id s),
    fun id s _ _ _ h => absurd h (hnone id s), List.Pairwise.nil⟩

theorem Accounts.move (h : Accounts m ts) (hm : m.move mv = some (m', hs)) :
    Accounts m' (ts ++ [⟨m, mv, m', hs⟩]) := by
  obtain ⟨m₁, hs₁, he, hr⟩ := move_effect hm
  have hsends := sends_of_reap hr
  have hconfig := (move_later hm).config
  refine ⟨fun t ht id l error hf => ?_, fun id s₁ l error h₁ hst => ?_,
    fun id s₁ d error time h₁ hst => ?_, ?_⟩
  · rw [hsends]
    obtain ht | ht := List.mem_append.mp ht
    · obtain ⟨s, hs', hst⟩ := h.fallen t ht id l error hf
      exact he.keeps_fallen hs' hst
    · cases List.mem_singleton.mp ht
      obtain ⟨s, -, -, h₁⟩ := hf.stage hm
      exact ⟨{ s with stage := .failing l error }, hsends ▸ h₁, rfl, rfl⟩
  · rw [hsends] at h₁
    obtain ⟨h₀, -⟩ | hst' | hst' | ⟨a, s, rfl, hs', hstep⟩ := he.sends h₁
    · obtain ⟨t, ht, hf⟩ := h.failing id s₁ l error h₀ hst
      exact ⟨t, List.mem_append_left _ ht, hf⟩
    · cases hst.symm.trans hst'
    · cases hst.symm.trans hst'
    · have hb := hstep.blamed hs' h₁
      rw [hst] at hb
      obtain ⟨hc, ws, hu⟩ := hb
      exact ⟨_, List.mem_concat_self, hc, a, s, ws, rfl, hs', hu⟩
  · rw [hsends] at h₁
    rw [hconfig]
    obtain ⟨h₀, -⟩ | hst' | hst' | ⟨a, s, rfl, hs', hstep⟩ := he.sends h₁
    · exact (h.returned id s₁ d error time h₀ hst).imp_right FailedItself.append
    · cases hst.symm.trans hst'
    · cases hst.symm.trans hst'
    · have hb := hstep.blamed hs' h₁
      rw [hst] at hb
      obtain ⟨stage, hsame⟩ := hstep.same hs'
      cases h₁.symm.trans hsame
      obtain ⟨rfl, ⟨l, hfail⟩ | ⟨rfl, l, hw⟩ | hsize⟩ := hb
      · obtain ⟨t, ht, hf⟩ := h.failing id s l error hs' hfail
        exact ⟨rfl, .inl ⟨t, List.mem_append_left _ ht, .inl ⟨l, hf⟩⟩⟩
      · exact ⟨rfl, .inl ⟨_, List.mem_concat_self, .inr ⟨rfl, s, l, hs', hw⟩⟩⟩
      · exact ⟨rfl, .inr hsize⟩
  · refine List.pairwise_append.mpr ⟨h.once, List.pairwise_singleton _ _, fun t ht u hu => ?_⟩
    cases List.mem_singleton.mp hu
    intro id l error l' error' hf hf'
    obtain ⟨s, hs', hst⟩ := h.fallen t ht id l error hf
    obtain ⟨s', hs₀, hop, -⟩ := hf'.stage hm
    cases hs'.symm.trans hs₀
    cases he' : s.stage <;> rw [he'] at hst hop <;> first | exact hst | cases hop

theorem Accounts.unique (h : Accounts m ts) (ht : t ∈ ts) (hu : u ∈ ts)
    (hf : t.ConnectFails id l error) (hf' : u.ConnectFails id l' error') : t = u ∧ l = l' := by
  let R : Transition → Transition → Prop := fun t u => ∀ l error l' error',
    t.ConnectFails id l error → ¬u.ConnectFails id l' error'
  have : Std.Symm R := ⟨fun t u hn l error l' error' hf hf' => hn l' error' l error hf' hf⟩
  have hall : ts.Pairwise R := h.once.imp fun hn l error l' error' => hn id l error l' error'
  obtain rfl : t = u := by
    by_contra hne
    exact hall.forall ht hu hne l error l' error' hf hf'
  obtain ⟨-, a, s, ws, -, hs', hun⟩ := hf
  obtain ⟨-, a', s', ws', -, hs₀, hun'⟩ := hf'
  cases hs'.symm.trans hs₀
  exact ⟨rfl, Option.some.inj (hun.opening?.symm.trans hun'.opening?)⟩

theorem returns_of_failing (hs' : m.sends[id]? = some s) (hf : s.stage = .failing l error) :
    ∃ m' hs, m.move (.step (.send id) .none) = some (m', hs) ∧ m'.sends[id]? =
      some { s with stage := .finished (.error (.connection s.destination error)) m.clock } := by
  have hstep : m.step (.send id) .none = some ((m.evict s.destination l).leaveLink id l
      (.error (.connection s.destination error)), []) := by
    simp [step, sendStep, hs', hf]
  obtain ⟨m', hs, hr⟩ : ∃ m' hs, reap ((m.evict s.destination l).leaveLink id l
      (.error (.connection s.destination error)), []) = (m', hs) := ⟨_, _, rfl⟩
  refine ⟨m', hs, ?_, ?_⟩
  · rw [Manager.move, hstep, Option.map_some, hr]
  · rw [reap_scope hr, evict_scope]
    exact setSend_get hs' _

end PeerLink.Manager
