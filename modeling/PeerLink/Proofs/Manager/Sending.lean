import PeerLink.Manager.Run

namespace PeerLink.Manager

def SendStage.line? : SendStage → Option LinkId
  | .queued l => some l
  | .connecting l _ => some l
  | .greeting l _ _ => some l
  | .failing l _ => some l
  | .draining l => some l
  | .flushing l => some l
  | _ => none

def SendStage.held? : SendStage → Option LinkId
  | .queued _ => none
  | stage => stage.line?

def SendStage.fresh? : SendStage → Option StreamId
  | .greeting _ stream _ => some stream
  | _ => none

/-- A call may be suspended while it has not begun and while it waits for a lock or for the
network. -/
def SendStage.Rests : SendStage → Prop
  | .linking _ => False
  | .requesting _ => False
  | .failing _ _ => False
  | _ => True

variable (m : Manager)

def atLink (id : SendId) (l : LinkId) (f : Link → Link) (stage : SendStage) : Manager :=
  (m.modifyLink l f).setSend id stage

inductive LookupStep (d : Endpoint) : Lookup → Manager → Lookup → Prop where
  | refuse (hc : m.closed = true) : LookupStep d .checking m .refused
  | enter (hc : m.closed = false) : LookupStep d .checking m .entering
  | meet {l} (hl : m.links.get? d = some l) : LookupStep d .entering m (.confirming l)
  | make (hl : m.links.get? d = none) :
    LookupStep d .entering
      { m with
        allLinks := m.allLinks ++ [{ destination := d }]
        links := m.links.insert d m.allLinks.length } (.confirming m.allLinks.length)
  | withdraw {l} (hc : m.closed = true) : LookupStep d (.confirming l) m (.evicting l)
  | confirm {l} (hc : m.closed = false) : LookupStep d (.confirming l) m (.found l)
  | evict {l} : LookupStep d (.evicting l) (m.evict d l) .refused

/-- The ways in which a call comes to write its frame: what it does to the link `l`, the writer that
it then has, and the bytes that were written on the way. -/
inductive Ready (id : SendId) (s : Send) (l : LinkId) :
    Answer → (Link → Link) → Writer → List Happening → Prop where
  | atOnce {link w} (hs : s.stage = .queued l) (hl : m.allLinks[l]? = some link)
    (hh : link.holder = some (.send id)) (hr : link.retired = false) (hw : link.writer = some w)
    (hb : w.buffer.length < bufferBoundary) : Ready id s l .none (fun k => k) w []
  | greeted {stream unsent} (hs : s.stage = .greeting l stream unsent) (hu : unsent ≠ []) :
    Ready id s l (.accepted unsent.length) (·.connect stream) ⟨stream, []⟩ [.wrote stream unsent]
  | drained {link w} (hs : s.stage = .draining l) (hl : m.allLinks[l]? = some link)
    (hw : link.writer = some w) (hb : w.buffer ≠ []) :
    Ready id s l (.accepted w.buffer.length) (·.consume w.buffer.length) ⟨w.stream, []⟩
      [.wrote w.stream w.buffer]

inductive Unconnected (s : Send) (l : LinkId) : Answer → IoError → List Happening → Prop where
  | timedOut {t} (hs : s.stage = .connecting l t) (ht : t ≤ m.clock) :
    Unconnected s l .none connectTimedOut []
  | refused {t error} (hs : s.stage = .connecting l t) : Unconnected s l (.failed error) error []
  | tooLong {t stream error} (hs : s.stage = .connecting l t)
    (he : Hello.format.encode? m.config.maxFrame (.of m.address) = .error error) :
    Unconnected s l (.connected stream) error [.released stream]
  | broken {stream unsent error} (hs : s.stage = .greeting l stream unsent) :
    Unconnected s l (.failed error) error [.released stream]

inductive SendStep (id : SendId) (s : Send) : Answer → Manager → List Happening → Prop where
  | refuse (hs : s.stage = .starting) (hc : m.closed = true) :
    SendStep id s .none (m.finishSend id (.error .closed)) []
  | reject (hs : s.stage = .starting) (hc : m.closed = false)
    (hf : m.config.maxFrame < s.frame.length) :
    SendStep id s .none
      (m.finishSend id (.error (.frameTooLarge s.frame.length m.config.maxFrame))) []
  | start (hs : s.stage = .starting) (hc : m.closed = false)
    (hf : s.frame.length ≤ m.config.maxFrame) :
    SendStep id s .none (m.setSend id (.linking .checking)) []
  | find {k k' m₁} (hs : s.stage = .linking k)
    (hk : m.lookupStep s.destination k = some (m₁, k')) :
    SendStep id s .none (m₁.setSend id (.linking k')) []
  | found {l} (hs : s.stage = .linking (.found l)) :
    SendStep id s .none (m.setSend id (.requesting l)) []
  | turnAway (hs : s.stage = .linking .refused) :
    SendStep id s .none (m.finishSend id (.error .closed)) []
  | quit {l} (hs : s.stage = .requesting l) (hc : m.cancelled = true) :
    SendStep id s .none (m.finishSend id (.error .closed)) []
  | request {l} (hs : s.stage = .requesting l) (hc : m.cancelled = false) :
    SendStep id s .none (m.atLink id l (·.request (.send id)) (.queued l)) []
  | cancel {l} (hs : s.stage.line? = some l) (hr : s.stage.Rests) (hc : m.cancelled = true) :
    SendStep id s .none
      (m.atLink id l (·.leave (.send id)) (.finished (.error .closed) m.clock))
      (s.stage.fresh?.toList.map .released)
  | retry {l link} (hs : s.stage = .queued l) (hc : m.cancelled = false)
    (hl : m.allLinks[l]? = some link) (hh : link.holder = some (.send id))
    (hr : link.retired = true) :
    SendStep id s .none (m.atLink id l (·.leave (.send id)) (.linking .checking)) []
  | dial {l link} (hs : s.stage = .queued l) (hc : m.cancelled = false)
    (hl : m.allLinks[l]? = some link) (hh : link.holder = some (.send id))
    (hr : link.retired = false) (hw : link.writer = none) :
    SendStep id s .none (m.setSend id (.connecting l (m.clock + m.config.connectTimeout)))
      [.dialled id s.destination]
  | drain {l link w} (hs : s.stage = .queued l) (hc : m.cancelled = false)
    (hl : m.allLinks[l]? = some link) (hh : link.holder = some (.send id))
    (hr : link.retired = false) (hw : link.writer = some w)
    (hb : bufferBoundary ≤ w.buffer.length) :
    SendStep id s .none (m.setSend id (.draining l)) []
  | place {l a g w ws bytes} (hr : Ready m id s l a g w ws) (hc : m.cancelled = false)
    (he : Frame.encode? m.config.maxFrame s.frame = .ok bytes) :
    SendStep id s a (m.atLink id l (fun k => (g k).append bytes) (.flushing l)) ws
  | overflow {l a g w ws error} (hr : Ready m id s l a g w ws) (hc : m.cancelled = false)
    (he : Frame.encode? m.config.maxFrame s.frame = .error error) :
    SendStep id s a
      (m.atLink id l (fun k => (g k).disconnect.leave (.send id))
        (.finished (.error (.connection s.destination error)) m.clock))
      (ws ++ [.warned (.sendFailed s.destination error), .released w.stream])
  | greet {l t stream bytes} (hs : s.stage = .connecting l t) (hc : m.cancelled = false)
    (he : Hello.format.encode? m.config.maxFrame (.of m.address) = .ok bytes) :
    SendStep id s (.connected stream) (m.setSend id (.greeting l stream bytes)) []
  | failConnect {l a error ws} (hu : Unconnected m s l a error ws) (hc : m.cancelled = false) :
    SendStep id s a (m.atLink id l Link.retire (.failing l error)) ws
  | greetPart {l stream unsent count} (hs : s.stage = .greeting l stream unsent)
    (hc : m.cancelled = false) (h₀ : 0 < count) (h₁ : count < unsent.length) :
    SendStep id s (.accepted count) (m.setSend id (.greeting l stream (unsent.drop count)))
      [.wrote stream (unsent.take count)]
  | giveUp {l error} (hs : s.stage = .failing l error) :
    SendStep id s .none
      ((m.evict s.destination l).atLink id l (·.leave (.send id))
        (.finished (.error (.connection s.destination error)) m.clock)) []
  | writePart {l link w count} (hs : s.stage = .draining l ∨ s.stage = .flushing l)
    (hc : m.cancelled = false) (hl : m.allLinks[l]? = some link) (hw : link.writer = some w)
    (h₀ : 0 < count) (h₁ : count < w.buffer.length) :
    SendStep id s (.accepted count) (m.modifyLink l (·.consume count))
      [.wrote w.stream (w.buffer.take count)]
  | writeAll {l link w} (hs : s.stage = .flushing l) (hc : m.cancelled = false)
    (hl : m.allLinks[l]? = some link) (hw : link.writer = some w) (hb : w.buffer ≠ []) :
    SendStep id s (.accepted w.buffer.length)
      (m.atLink id l (fun k => (k.consume w.buffer.length).leave (.send id))
        (.finished (.ok ()) m.clock))
      [.wrote w.stream w.buffer]
  | failWrite {l link w error} (hs : s.stage = .draining l ∨ s.stage = .flushing l)
    (hc : m.cancelled = false) (hl : m.allLinks[l]? = some link) (hw : link.writer = some w) :
    SendStep id s (.failed error)
      (m.atLink id l (fun k => k.disconnect.leave (.send id))
        (.finished (.error (.connection s.destination error)) m.clock))
      [.warned (.sendFailed s.destination error), .released w.stream]

variable {m} {m' : Manager} {id : SendId} {s : Send} {l : LinkId} {a : Answer}
  {hs ws : List Happening}

theorem SendStage.link?_of_line? {stage : SendStage} (h : stage.line? = some l) :
    stage.link? = some l := by
  cases stage <;> first | exact h | cases h

theorem SendStage.line?_of_held? {stage : SendStage} (h : stage.held? = some l) :
    stage.line? = some l := by
  cases stage <;> first | exact h | cases h

theorem Ready.line? {g : Link → Link} {w : Writer} (h : Ready m id s l a g w ws) :
    s.stage.line? = some l := by
  cases h with
  | atOnce hs | greeted hs | drained hs =>
    rw [hs]
    rfl

theorem Unconnected.held? {error : IoError} (h : Unconnected m s l a error ws) :
    s.stage.held? = some l := by
  cases h with
  | timedOut hs | refused hs | tooLong hs | broken hs =>
    rw [hs]
    rfl

theorem modifyLink_modifyLink (f g : Link → Link) :
    (m.modifyLink l f).modifyLink l g = m.modifyLink l fun k => g (f k) := by
  simp only [modifyLink, List.modify_modify_eq]
  rfl

theorem modifyLink_id : m.modifyLink l (fun k => k) = m := by
  have h : m.allLinks.modify l (fun k => k) = m.allLinks := List.modify_id l m.allLinks
  rw [modifyLink, h]

theorem evict_scope (d : Endpoint) (l : LinkId) :
    m.evict d l = { m with links := (m.evict d l).links } := by
  rw [evict]
  split <;> rfl

theorem evict_clock (d : Endpoint) : (m.evict d l).clock = m.clock := by
  rw [evict_scope]

/-- A call that is ready puts its frame into the buffer, or fails because no buffer takes it. -/
theorem stageFrame_cases {g : Link → Link} {w : Writer} (hr : Ready m id s l a g w ws)
    (hc : m.cancelled = false)
    (h : ((m.modifyLink l g).stageFrame id s l w).1 = m' ∧
      ws ++ ((m.modifyLink l g).stageFrame id s l w).2 = hs) : SendStep m id s a m' hs := by
  obtain ⟨rfl, rfl⟩ := h
  rw [stageFrame]
  split
  · next he =>
    simp only [failWrite, leaveLink, modifyLink_modifyLink]
    exact .overflow hr hc he
  · next he =>
    simp only [modifyLink_modifyLink, List.append_nil]
    exact .place hr hc he

theorem queuedStep_cases (hs' : s.stage = .queued l) (h : m.queuedStep id s l = some (m', hs)) :
    SendStep m id s .none m' hs := by
  obtain ⟨link, hl, h'⟩ := Option.bind_eq_some_iff.mp h
  clear h
  split at h'
  · next hc =>
    cases h'
    have hw : SendStep m id s .none _ _ := .cancel (l := l)
      (by rw [hs']; rfl) (by rw [hs']; trivial) hc
    rwa [hs'] at hw
  · next hc =>
    have hc : m.cancelled = false := by simpa using hc
    split at h'
    · cases h'
    · next hh =>
      have hh : link.holder = some (.send id) := by simpa using hh
      split at h'
      · next hr =>
        cases h'
        exact .retry hs' hc hl hh hr
      · next hr =>
        have hr : link.retired = false := by simpa using hr
        split at h'
        · next w hw =>
          have h' : m.beginWrite id s l w = (m', hs) := Option.some.inj h'
          rw [beginWrite] at h'
          split at h'
          · next hb =>
            cases h'
            exact .drain hs' hc hl hh hr hw hb
          · next hb =>
            refine stageFrame_cases (.atOnce hs' hl hh hr hw (by omega)) hc ?_
            rw [modifyLink_id, h']
            exact ⟨rfl, rfl⟩
        · next hw =>
          cases h'
          exact .dial hs' hc hl hh hr hw

theorem connectingStep_cases {t : Nat} (hs' : s.stage = .connecting l t)
    (h : m.connectingStep id l t a = some (m', hs)) : SendStep m id s a m' hs := by
  simp only [connectingStep] at h
  split at h
  · split at h
    · next hc =>
      cases h
      have hw : SendStep m id s .none _ _ := .cancel (l := l)
        (by rw [hs']; rfl) (by rw [hs']; trivial) hc
      rwa [hs'] at hw
    · next hc =>
      split at h
      · next ht =>
        cases h
        exact .failConnect (.timedOut hs' ht) (by simpa using hc)
      · cases h
  · split at h
    · cases h
    · next hc =>
      have h := Option.some.inj h
      rw [beginGreeting] at h
      split at h
      · next he =>
        cases h
        exact .failConnect (.tooLong hs' he) (by simpa using hc)
      · next he =>
        cases h
        exact .greet hs' (by simpa using hc) he
  · split at h
    · cases h
    · next hc =>
      cases h
      exact .failConnect (.refused hs') (by simpa using hc)
  · cases h

theorem greetStep_cases {stream : StreamId} {unsent : Bytes}
    (hs' : s.stage = .greeting l stream unsent)
    (h : m.greetStep id s l stream unsent a = some (m', hs)) : SendStep m id s a m' hs := by
  simp only [greetStep] at h
  split at h
  · split at h
    · next hc =>
      cases h
      have hw : SendStep m id s .none _ _ := .cancel (l := l)
        (by rw [hs']; rfl) (by rw [hs']; trivial) hc
      rwa [hs'] at hw
    · cases h
  · split at h
    · cases h
    · next count hc =>
      obtain ⟨⟨hm, h₀⟩, h₁⟩ : (m.cancelled = false ∧ count ≠ 0) ∧ count ≤ unsent.length := by
        simpa using hc
      split at h
      · next he =>
        subst he
        have hu : unsent ≠ [] := by
          rintro rfl
          exact h₀ rfl
        refine stageFrame_cases (.greeted hs' hu) hm ?_
        simp only [beginWrite, bufferBoundary, List.length_nil, Nat.reduceLeDiff,
          if_false, Option.some.injEq, Prod.mk.injEq] at h
        exact h
      · next he =>
        cases h
        exact .greetPart hs' hm (by omega) (by omega)
  · split at h
    · cases h
    · next hc =>
      cases h
      exact .failConnect (.broken hs') (by simpa using hc)
  · cases h

theorem writeStep_cases {done : Manager → Writer → Manager × List Happening}
    (hs' : s.stage = .draining l ∨ s.stage = .flushing l)
    (hd : ∀ link w, m.allLinks[l]? = some link → link.writer = some w → w.buffer ≠ [] →
      m.cancelled = false → a = .accepted w.buffer.length →
      (done (m.modifyLink l (·.consume w.buffer.length)) ⟨w.stream, []⟩).1 = m' →
      .wrote w.stream w.buffer ::
        (done (m.modifyLink l (·.consume w.buffer.length)) ⟨w.stream, []⟩).2 = hs →
      SendStep m id s a m' hs)
    (h : m.writeStep id s l a done = some (m', hs)) : SendStep m id s a m' hs := by
  obtain ⟨link, hl, h'⟩ := Option.bind_eq_some_iff.mp h
  clear h
  split at h'
  · cases h'
  · next w count hw =>
    split at h'
    · cases h'
    · next hc =>
      obtain ⟨⟨hm, h₀⟩, h₁⟩ : (m.cancelled = false ∧ count ≠ 0) ∧ count ≤ w.buffer.length := by
        simpa using hc
      split at h'
      · next he =>
        subst he
        have hb : w.buffer ≠ [] := by
          intro hb
          exact h₀ (by simp [hb])
        rw [List.take_length] at h'
        have h' := Prod.mk.inj (Option.some.inj h')
        exact hd link w hl hw hb hm rfl h'.1 h'.2
      · next he =>
        cases h'
        exact .writePart hs' hm hl hw (by omega) (by omega)
  · next w error hw =>
    split at h'
    · cases h'
    · next hc =>
      have h' := Option.some.inj h'
      simp only [failWrite, leaveLink, modifyLink_modifyLink] at h'
      cases h'
      exact .failWrite hs' (by simpa using hc) hl hw
  · split at h'
    · next hc =>
      cases h'
      have hf : s.stage.fresh? = none := by rcases hs' with hs' | hs' <;> rw [hs'] <;> rfl
      have hw : SendStep m id s .none _ _ := .cancel (l := l)
        (by rcases hs' with hs' | hs' <;> rw [hs'] <;> rfl)
        (by rcases hs' with hs' | hs' <;> rw [hs'] <;> trivial) hc
      rwa [hf] at hw
    · cases h'
  · cases h'

theorem sendStep_cases (h : m.sendStep id a = some (m', hs)) :
    ∃ s, m.sends[id]? = some s ∧ SendStep m id s a m' hs := by
  obtain ⟨s, hs', h'⟩ := Option.bind_eq_some_iff.mp h
  clear h
  refine ⟨s, hs', ?_⟩
  split at h'
  · next he =>
    split at h'
    · next hc =>
      cases h'
      exact .refuse he hc
    · next hc =>
      have hc : m.closed = false := by simpa using hc
      split at h'
      · next hf =>
        cases h'
        exact .reject he hc hf
      · next hf =>
        cases h'
        exact .start he hc (by omega)
  · next he =>
    cases h'
    exact .found he
  · next he =>
    cases h'
    exact .turnAway he
  · next he =>
    obtain ⟨⟨m₁, k'⟩, hk, h'⟩ := Option.bind_eq_some_iff.mp h'
    cases h'
    exact .find he hk
  · next he =>
    split at h'
    · next hc =>
      cases h'
      exact .quit he hc
    · next hc =>
      cases h'
      exact .request he (by simpa using hc)
  · next he => exact queuedStep_cases he h'
  · next he => exact connectingStep_cases he h'
  · next he => exact greetStep_cases he h'
  · next he =>
    cases h'
    rw [leaveLink, finishSend, ← atLink, modifyLink, evict_clock]
    exact .giveUp he
  · next l he =>
    refine writeStep_cases (.inl he) (fun link w hl hw hb hc ha hm hh => ?_) h'
    subst ha
    exact stageFrame_cases (.drained he hl hw hb) hc ⟨hm, hh⟩
  · next l he =>
    refine writeStep_cases (.inr he) (fun link w hl hw hb hc ha hm hh => ?_) h'
    subst ha hm hh
    simp only [leaveLink, modifyLink_modifyLink]
    exact .writeAll he hc hl hw hb
  · cases h'

/-- A call can be given up wherever it rests, and then gives up the lock or its place in the
line. -/
theorem abandonSend_cases (h : m.abandonSend id = some (m', hs)) :
    ∃ s, m.sends[id]? = some s ∧
      (s.stage = .starting ∧ m' = m.setSend id .abandoned ∧ hs = [] ∨
        ∃ l, s.stage.line? = some l ∧ s.stage.Rests ∧
          m' = m.atLink id l (·.leave (.send id)) .abandoned ∧
          hs = s.stage.fresh?.toList.map .released) := by
  obtain ⟨s, hs', h'⟩ := Option.bind_eq_some_iff.mp h
  clear h
  refine ⟨s, hs', ?_⟩
  dsimp only at h'
  split at h'
  · next he =>
    cases h'
    exact .inl ⟨he, rfl, rfl⟩
  all_goals cases h'
  all_goals
    rename_i he
    rw [he]
    exact .inr ⟨_, rfl, trivial, rfl, rfl⟩

theorem lookupStep_cases {d : Endpoint} {k k' : Lookup} (h : m.lookupStep d k = some (m', k')) :
    LookupStep m d k m' k' := by
  cases k with
  | checking =>
    obtain ⟨rfl, rfl⟩ := Prod.mk.inj (Option.some.inj h)
    split
    · next hc => exact .refuse hc
    · next hc => exact .enter (by simpa using hc)
  | entering =>
    simp only [lookupStep] at h
    split at h
    · next l hl =>
      cases h
      exact .meet hl
    · next hl =>
      cases h
      exact .make hl
  | confirming l =>
    obtain ⟨rfl, rfl⟩ := Prod.mk.inj (Option.some.inj h)
    split
    · next hc => exact .withdraw hc
    · next hc => exact .confirm (by simpa using hc)
  | evicting l =>
    cases h
    exact .evict
  | found l | refused => cases h

theorem lookupStep_scope {d : Endpoint} {k k' : Lookup} (h : m.lookupStep d k = some (m', k')) :
    m' = { m with links := m'.links, allLinks := m'.allLinks } := by
  cases lookupStep_cases h with
  | evict => rw [evict_scope]
  | _ => rfl

theorem openingStep_scope (h : m.openingStep id = some (m', hs)) :
    m' = { m with links := m'.links, allLinks := m'.allLinks, openings := m'.openings } := by
  obtain ⟨o, -, h⟩ := Option.bind_eq_some_iff.mp h
  obtain ⟨⟨m₁, k⟩, hk, h⟩ := Option.bind_eq_some_iff.mp h
  cases h
  rw [lookupStep_scope hk]
  rfl

theorem SendStep.scope (h : SendStep m id s a m' hs) :
    m' = { m with links := m'.links, allLinks := m'.allLinks, sends := m'.sends } := by
  cases h with
  | find _ hk =>
    rw [lookupStep_scope hk]
    rfl
  | giveUp =>
    rw [evict_scope]
    rfl
  | _ => rfl

theorem sendStep_scope (h : m.sendStep id a = some (m', hs)) :
    m' = { m with links := m'.links, allLinks := m'.allLinks, sends := m'.sends } := by
  obtain ⟨s, -, h⟩ := sendStep_cases h
  exact h.scope

theorem abandonSend_scope (h : m.abandonSend id = some (m', hs)) :
    m' = { m with allLinks := m'.allLinks, sends := m'.sends } := by
  obtain ⟨s, -, ⟨-, rfl, -⟩ | ⟨l, -, -, rfl, -⟩⟩ := abandonSend_cases h <;> rfl

end PeerLink.Manager
