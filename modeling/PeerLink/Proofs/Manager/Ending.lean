import PeerLink.Manager.Run

namespace PeerLink.Manager

variable (m : Manager)

def retiring (id : ClosingId) (l : LinkId) (f : Link → Link) (stage : ClosingStage) : Manager :=
  (m.modifyLink l f).setClosing id stage

/-- The steps of a closing: what each needs, and what it leaves behind. -/
inductive ClosingStep (id : ClosingId) (c : Closing) :
    Answer → Manager → List Happening → Prop where
  | again (hs : c.stage = .swapping) (hc : m.closed = true) :
    ClosingStep id c .none (m.setClosing id (.finished m.clock)) []
  | swap (hs : c.stage = .swapping) (hc : m.closed = false) :
    ClosingStep id c .none ({ m with closed := true }.setClosing id .cancelling) []
  | cancel (hs : c.stage = .cancelling) :
    ClosingStep id c .none ({ m with cancelled := true }.setClosing id .clearingObservers) []
  | clearObservers {next} (hs : c.stage = .clearingObservers)
    (hn : c.ending = .close ∧ next = .collecting ∨ c.ending = .drop ∧ next = .clearingLinks []) :
    ClosingStep id c .none (m.clearObservers.setClosing id next) []
  | collect (hs : c.stage = .collecting) :
    ClosingStep id c .none (m.setClosing id (.clearingLinks m.links.values)) []
  | clearLinks {ls next} (hs : c.stage = .clearingLinks ls)
    (hn : c.ending = .close ∧ next = .retiring ls ∨ c.ending = .drop ∧ next = .finished m.clock) :
    ClosingStep id c .none ({ m with links := {} }.setClosing id next) []
  | await (hs : c.stage = .retiring []) :
    ClosingStep id c .none
      (m.setClosing id (.awaiting (m.clock + m.config.shutdownTimeout))) []
  | request {l ls} (hs : c.stage = .retiring (l :: ls)) :
    ClosingStep id c .none (m.retiring id l (·.request (.closing id)) (.queued l ls)) []
  | retireIdle {l ls link} (hs : c.stage = .queued l ls) (hl : m.allLinks[l]? = some link)
    (hh : link.holder = some (.closing id)) (hw : link.writer = none) :
    ClosingStep id c .none
      (m.retiring id l (fun k => k.shutDown.leave (.closing id)) (.retiring ls)) []
  | retireBusy {l ls link w} (hs : c.stage = .queued l ls) (hl : m.allLinks[l]? = some link)
    (hh : link.holder = some (.closing id)) (hw : link.writer = some w) :
    ClosingStep id c .none
      (m.retiring id l (fun k => k.shutDown.leave (.closing id))
        (.flushing w (m.clock + flushTimeout) ls)) []
  | flushPart {w t ls count} (hs : c.stage = .flushing w t ls) (h₀ : 0 < count)
    (h₁ : count ≤ w.buffer.length) :
    ClosingStep id c (.accepted count)
      (m.setClosing id (.flushing { w with buffer := w.buffer.drop count } t ls))
      [.wrote w.stream (w.buffer.take count)]
  | flushEnd {w t ls a ws} (hs : c.stage = .flushing w t ls)
    (ha : a = .none ∧ t ≤ m.clock ∧ ws = [] ∨
      a = .shut ∧ w.buffer = [] ∧ ws = [.shut w.stream] ∨ ∃ error, a = .failed error ∧ ws = []) :
    ClosingStep id c a (m.setClosing id (.retiring ls)) (ws ++ [.released w.stream])
  | done {t} (hs : c.stage = .awaiting t) (hr : m.runningTasks = 0) :
    ClosingStep id c .none (m.setClosing id (.finished m.clock)) []
  | giveUp {t} (hs : c.stage = .awaiting t) (hr : m.runningTasks ≠ 0) (ht : t ≤ m.clock) :
    ClosingStep id c .none (m.setClosing id (.finished m.clock))
      [.warned (.tasksRemain m.address m.runningTasks)]

variable {m} {m' : Manager} {id : ClosingId} {c : Closing} {a : Answer} {hs : List Happening}

theorem retireLink_cases {l : LinkId} {ls : List LinkId} (hs' : c.stage = .queued l ls)
    (h : m.retireLink id l ls = some (m', hs)) : ClosingStep m id c .none m' hs := by
  obtain ⟨link, hl, h'⟩ := Option.bind_eq_some_iff.mp h
  clear h
  split at h'
  · cases h'
  · next hh =>
    have hh : link.holder = some (.closing id) := by simpa using hh
    dsimp only at h'
    split at h'
    · next hw =>
      cases h'
      exact .retireIdle hs' hl hh hw
    · next hw =>
      cases h'
      exact .retireBusy hs' hl hh hw

theorem flushStep_cases {w : Writer} {t : Nat} {ls : List LinkId}
    (hs' : c.stage = .flushing w t ls) (h : m.flushStep id w t ls a = some (m', hs)) :
    ClosingStep m id c a m' hs := by
  simp only [flushStep] at h
  split at h
  · split at h
    · next ht =>
      cases h
      exact .flushEnd hs' (.inl ⟨rfl, ht, rfl⟩)
    · cases h
  · next count =>
    split at h
    · cases h
    · next hc =>
      obtain ⟨h₀, h₁⟩ : count ≠ 0 ∧ count ≤ w.buffer.length := by simpa using hc
      cases h
      exact .flushPart hs' (by omega) h₁
  · split at h
    · next hb =>
      cases h
      exact .flushEnd hs' (.inr (.inl ⟨rfl, by simpa using hb, rfl⟩))
    · cases h
  · cases h
    exact .flushEnd hs' (.inr (.inr ⟨_, rfl, rfl⟩))
  · cases h

theorem closingStep_cases (h : m.closingStep id a = some (m', hs)) :
    ∃ c, m.closings[id]? = some c ∧ ClosingStep m id c a m' hs := by
  obtain ⟨c, hc, h'⟩ := Option.bind_eq_some_iff.mp h
  clear h
  refine ⟨c, hc, ?_⟩
  split at h'
  · next he =>
    split at h'
    · next hm =>
      cases h'
      exact .again he hm
    · next hm =>
      cases h'
      exact .swap he (by simpa using hm)
  · next he =>
    cases h'
    exact .cancel he
  · next he =>
    cases h'
    refine .clearObservers he ?_
    cases c.ending
    · exact .inl ⟨rfl, rfl⟩
    · exact .inr ⟨rfl, rfl⟩
  · next he =>
    cases h'
    exact .collect he
  · next he =>
    cases h'
    refine .clearLinks he ?_
    cases c.ending
    · exact .inl ⟨rfl, rfl⟩
    · exact .inr ⟨rfl, rfl⟩
  · next he =>
    cases h'
    exact .await he
  · next he =>
    cases h'
    exact .request he
  · next he => exact retireLink_cases he h'
  · next he => exact flushStep_cases he h'
  · next he =>
    split at h'
    · next hr =>
      cases h'
      exact .done he hr
    · next hr =>
      split at h'
      · next ht =>
        cases h'
        exact .giveUp he hr ht
      · cases h'
  · cases h'

theorem foldl_dropHandle_scope (ss : List SubscriptionId) (m : Manager) :
    ss.foldl dropHandle m =
      { m with subscriptions := (ss.foldl dropHandle m).subscriptions } := by
  induction ss generalizing m with
  | nil => rfl
  | cons s ss ih =>
    rw [List.foldl_cons, ih]
    rfl

theorem clearObservers_scope :
    m.clearObservers =
      { m with observers := {}, subscriptions := m.clearObservers.subscriptions } := by
  rw [clearObservers]
  dsimp only
  rw [foldl_dropHandle_scope]

theorem ClosingStep.scope (h : ClosingStep m id c a m' hs) :
    m' = { m with
      closed := m'.closed
      cancelled := m'.cancelled
      observers := m'.observers
      links := m'.links
      subscriptions := m'.subscriptions
      allLinks := m'.allLinks
      closings := m'.closings } := by
  cases h with
  | clearObservers =>
    rw [clearObservers_scope]
    rfl
  | _ => rfl

theorem closingStep_scope (h : m.closingStep id a = some (m', hs)) :
    m' = { m with
      closed := m'.closed
      cancelled := m'.cancelled
      observers := m'.observers
      links := m'.links
      subscriptions := m'.subscriptions
      allLinks := m'.allLinks
      closings := m'.closings } := by
  obtain ⟨c, -, h⟩ := closingStep_cases h
  exact h.scope

theorem setClosing_get (hc : m.closings[id]? = some c) (stage : ClosingStage) :
    (m.setClosing id stage).closings[id]? = some { c with stage } := by
  simp [setClosing, hc]

theorem setClosing_get_ne {j : ClosingId} (hj : j ≠ id) (stage : ClosingStage) :
    (m.setClosing id stage).closings[j]? = m.closings[j]? :=
  List.getElem?_modify_ne _ _ hj.symm

theorem ClosingStep.others {j : ClosingId} (h : ClosingStep m id c a m' hs) (hj : j ≠ id) :
    m'.closings[j]? = m.closings[j]? := by
  cases h with
  | clearObservers =>
    rw [clearObservers_scope]
    exact setClosing_get_ne hj _
  | _ => exact setClosing_get_ne hj _

theorem foldl_disconnect_scope (ls : List (LinkId × StreamId)) (m : Manager) :
    ls.foldl (fun m (l, _) => m.modifyLink l Link.disconnect) m =
      { m with
        allLinks := (ls.foldl (fun m (l, _) => m.modifyLink l Link.disconnect) m).allLinks } := by
  induction ls generalizing m with
  | nil => rfl
  | cons l ls ih =>
    rw [List.foldl_cons, ih]
    rfl

/-- Letting stray streams go changes links only. -/
theorem reap_scope {o : Manager × List Happening} (h : reap o = (m', hs)) :
    m' = { o.1 with allLinks := m'.allLinks } := by
  cases h
  exact foldl_disconnect_scope _ _

theorem reap_happenings {o : Manager × List Happening} (h : reap o = (m', hs)) :
    ∃ streams : List StreamId, hs = o.2 ++ streams.map .released := by
  cases h
  exact ⟨o.1.strayStreams.map Prod.snd, by rw [List.map_map]; rfl⟩

end PeerLink.Manager
