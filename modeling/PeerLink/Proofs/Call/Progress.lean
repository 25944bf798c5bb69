import PeerLink.Proofs.Call.Effort
import PeerLink.Proofs.Manager.Silence
import PeerLink.Proofs.Stream.Order

namespace PeerLink.Manager

def Request.Grants : Request → Answer → Prop
  | .none, .none => True
  | .connect, .connected _ => True
  | .write _ bytes, .accepted count => 0 < count ∧ count ≤ bytes.length
  | _, _ => False

/-- A healthy network has an answer to a call, and with each the call takes a step. -/
def Advances (m : Manager) (id : SendId) : Prop :=
  (∃ a, (m.request (.send id)).Grants a) ∧
    ∀ a, (m.request (.send id)).Grants a → ∃ o, m.move (.step (.send id) a) = some o

structure Flowing (d : Endpoint) (m : Manager) : Prop extends Smooth d m where
  pressing : Pressing m
  lasting : Lasting d m

variable {m m' m₁ : Manager} {mv : Move} {hs : List Happening} {l : LinkId} {k : Link}
  {id : SendId} {s : Send} {a : Answer} {d : Endpoint} {w : Writer} {stream : StreamId}
  {bytes : Bytes}

theorem SendStage.not_over_of_line? {stage : SendStage} (h : stage.line? = some l) :
    ¬stage.Over := by
  intro hover
  cases stage <;> first | exact False.elim hover | cases h

theorem move_of_sendStep (h : (m.sendStep id a).isSome = true) :
    ∃ o, m.move (.step (.send id) a) = some o := by
  obtain ⟨o, ho⟩ := Option.isSome_iff_exists.mp h
  exact ⟨reap o, Option.map_eq_some_iff.mpr ⟨o, ho, rfl⟩⟩

theorem advances_of_none (hreq : m.request (.send id) = .none)
    (h : (m.sendStep id .none).isSome = true) : m.Advances id := by
  rw [Advances, hreq]
  refine ⟨⟨.none, trivial⟩, fun a ha => ?_⟩
  cases a <;> first | exact move_of_sendStep h | cases ha

theorem advances_of_write (hreq : m.request (.send id) = .write stream bytes) (hb : bytes ≠ [])
    (h : ∀ count, 0 < count → count ≤ bytes.length →
      (m.sendStep id (.accepted count)).isSome = true) : m.Advances id := by
  rw [Advances, hreq]
  refine ⟨⟨.accepted bytes.length, List.length_pos_iff.mpr hb, Nat.le_refl _⟩, fun a ha => ?_⟩
  cases a <;> first | exact move_of_sendStep (h _ ha.1 ha.2) | cases ha

theorem request_send (hc : m.cancelled = false) : m.request (.send id) = m.sendRequest id := by
  simp [request, hc]

theorem Flowing.acts (h : Flowing d m) (ho : m.closed = false) (hs' : m.sends[id]? = some s)
    (hn : ¬s.stage.Over) (hq : ∀ l, s.stage = .queued l → m.holderOf l = some (.send id)) :
    m.Advances id := by
  have hc : m.cancelled = false := h.flagged.running ho
  have hreq : m.request (.send id) = m.sendRequest id := request_send hc
  cases hst : s.stage with
  | starting =>
    refine advances_of_none (by simp [hreq, sendRequest, hs', hst]) ?_
    simp only [sendStep, hs', hst, ho, Option.bind_eq_bind, Option.bind_some, Bool.false_eq_true,
      if_false]
    split <;> rfl
  | linking n =>
    refine advances_of_none (by simp [hreq, sendRequest, hs', hst]) ?_
    cases n with
    | entering =>
      simp only [sendStep, hs', hst, lookupStep, Option.bind_eq_bind, Option.bind_some]
      split <;> rfl
    | _ => simp [sendStep, hs', hst, lookupStep]
  | requesting l =>
    refine advances_of_none (by simp [hreq, sendRequest, hs', hst]) ?_
    simp [sendStep, hs', hst, hc]
  | queued l =>
    refine advances_of_none (by simp [hreq, sendRequest, hs', hst]) ?_
    obtain ⟨k, hk, hh⟩ := Option.bind_eq_some_iff.mp (hq l hst)
    simp only [sendStep, hs', hst, queuedStep, hk, hh, hc, Option.bind_eq_bind, Option.bind_some,
      Bool.false_eq_true, if_false, ne_eq, not_true_eq_false]
    repeat' split
    all_goals rfl
  | connecting l t =>
    have hreq : m.request (.send id) = .connect := by simp [hreq, sendRequest, hs', hst]
    rw [Advances, hreq]
    refine ⟨⟨.connected 0, trivial⟩, fun a ha => ?_⟩
    cases a with
    | connected stream => exact move_of_sendStep (by simp [sendStep, hs', hst, connectingStep, hc])
    | _ => cases ha
  | greeting l stream unsent =>
    have hu := h.pressing.greeting id s l stream unsent hs' hst
    have hreq : m.request (.send id) = .write stream unsent := by simp [hreq, sendRequest, hs', hst]
    refine advances_of_write hreq hu fun count h₀ h₁ => ?_
    have hno : ¬(m.cancelled || count = 0 || unsent.length < count) = true := by simp [hc]; omega
    simp only [sendStep, hs', hst, greetStep, Option.bind_eq_bind, Option.bind_some, if_neg hno]
    split <;> rfl
  | failing l error =>
    refine advances_of_none (by simp [hreq, sendRequest, hs', hst]) ?_
    simp [sendStep, hs', hst]
  | draining l | flushing l =>
    have hwr : s.stage.writing? = some l := by rw [hst]; rfl
    obtain ⟨k, w, hk, hw⟩ := h.sound.supplied.writing id s l hs' hwr
    have hb := h.pressing.writing id s l k w hs' hwr hk hw
    have hreq : m.request (.send id) = .write w.stream w.buffer := by
      simp [hreq, sendRequest, hs', hst, hk, hw]
    refine advances_of_write hreq hb fun count h₀ h₁ => ?_
    have hno : ¬(m.cancelled || count = 0 || w.buffer.length < count) = true := by simp [hc]; omega
    simp only [sendStep, hs', hst, writeStep, hk, hw, Option.bind_eq_bind, Option.bind_some,
      if_neg hno]
    split <;> rfl
  | finished r t | abandoned =>
    rw [hst] at hn
    exact absurd trivial hn

theorem Sound.leader (h : Sound m) (hf : Flagged m) (ho : m.closed = false)
    (hs' : m.sends[id]? = some s) (hl : s.stage.line? = some l) :
    ∃ j s₁, m.sends[j]? = some s₁ ∧ s₁.stage.line? = some l ∧ m.holderOf l = some (.send j) := by
  obtain ⟨k, hk, -⟩ := h.directed.sends id s l hs' (SendStage.link?_of_line? hl)
  have hin : .send id ∈ k.line := (h.locked.line l k _ hk).mpr ((lineOf_send hs').trans hl)
  obtain ⟨w, hw⟩ : ∃ w, k.holder = some w := by
    cases hh : k.holder with
    | some w => exact ⟨w, rfl⟩
    | none => simp [Link.line, hh, (h.locked.orderly l k hk).idle hh] at hin
  have hline := (h.locked.line l k w hk).mp (Link.holder_mem hw)
  cases w with
  | send j =>
    obtain ⟨s₁, h₁, hl₁⟩ := Option.bind_eq_some_iff.mp hline
    exact ⟨j, s₁, h₁, hl₁, by rw [holderOf, hk]; exact hw⟩
  | closing j =>
    obtain ⟨c, hc, hlc⟩ := Option.bind_eq_some_iff.mp hline
    cases ho.symm.trans (hf.past j c hc (by rintro he; rw [he] at hlc; cases hlc))

theorem Flowing.advances (h : Flowing d m) (ho : m.closed = false) (hs' : m.sends[id]? = some s)
    (hd : s.destination = d) (hn : ¬s.stage.Over) :
    ∃ j s₁, m.sends[j]? = some s₁ ∧ s₁.destination = d ∧ m.Advances j := by
  by_cases hq : ∃ l, s.stage = .queued l
  · obtain ⟨l, hst⟩ := hq
    have hl : s.stage.line? = some l := by rw [hst]; rfl
    obtain ⟨j, s₁, h₁, hl₁, hh⟩ := h.sound.leader h.flagged ho hs' hl
    have hgo := h.sound.directed.sends id s l hs' (SendStage.link?_of_line? hl)
    have hgo₁ := h.sound.directed.sends j s₁ l h₁ (SendStage.link?_of_line? hl₁)
    refine ⟨j, s₁, h₁, (hgo₁.unique hgo).trans hd,
      h.acts ho h₁ (SendStage.not_over_of_line? hl₁) fun l' hst₁ => ?_⟩
    rw [hst₁] at hl₁
    cases hl₁
    exact hh
  · exact ⟨id, s, hs', hd, h.acts ho hs' hn fun l hst => absurd ⟨l, hst⟩ hq⟩

theorem Smooth.not_failing {error : IoError} (h : Smooth d m)
    (hfit : (helloBody m.address).length ≤ Frame.limit m.config.maxFrame)
    (hs' : m.sends[id]? = some s) (hd : s.destination = d) : s.stage ≠ .failing l error := by
  intro hst
  have hcourse := h.course id s hs' hd
  rw [hst] at hcourse
  exact absurd hcourse.2.1 (Nat.not_lt.mpr hfit)

theorem Flowing.new (d address : Endpoint) (config : Config) (clock : Nat) :
    Flowing d (new address config clock) :=
  { Smooth.new d address config clock with
    pressing := .new address config clock
    lasting := by
      intro l k hk
      cases (List.getElem?_nil (i := l)).symm.trans hk }

theorem Flowing.move (h : Flowing d m) (hm : m.move mv = some (m', hs)) (ho : m'.closed = false)
    (hh : (Transition.mk m mv m' hs).Healthy d)
    (hfit : (helloBody m'.address).length ≤ Frame.limit m'.config.maxFrame) : Flowing d m' := by
  have hsm := h.toSmooth.move hm ho hh
  refine { hsm with pressing := h.pressing.move h.sound hm, lasting := ?_ }
  have ho₀ : m.closed = false := (move_later hm).opened ho
  obtain ⟨m₁, hs₁, he, hr⟩ := move_effect hm
  have hlast : Lasting d m₁ := h.lasting.effect h.sound h.flagged ho₀ he fun j s l error hj hd => by
    rw [← sends_of_reap hr] at hj
    exact hsm.not_failing hfit hj hd
  obtain hr | ⟨rfl, -⟩ := hr
  · exact hlast.reap hr
  · exact hlast

theorem run_flowing {address : Endpoint} {config : Config} {clock : Nat} {moves : List Move}
    (h : (new address config clock).run moves = some (m, hs)) (ho : m.closed = false)
    (hh : ∀ t ∈ (new address config clock).transitions moves, t.Healthy d)
    (hfit : (helloBody m.address).length ≤ Frame.limit m.config.maxFrame) :
    Flowing d m ∧ ((new address config clock).transitions moves).countP
      (fun t => t.before.serves d t.move) + m.effort d ≤ m.allowances d := by
  refine run_induction (P := fun m ts => m.closed = false → (∀ t ∈ ts, t.Healthy d) →
      (helloBody m.address).length ≤ Frame.limit m.config.maxFrame →
      Flowing d m ∧ ts.countP (fun t => t.before.serves d t.move) + m.effort d ≤ m.allowances d)
    (fun _ _ _ => ⟨.new d address config clock, Nat.le_refl _⟩) ?_ h ho hh hfit
  intro m ts mv m' hs hi hm ho hh hfit
  have hl := move_later hm
  obtain ⟨hprev, hcount⟩ := hi (hl.opened ho) (fun t ht => hh t (List.mem_append_left _ ht))
    (by rwa [hl.address, hl.config] at hfit)
  refine ⟨hprev.move hm ho (hh _ (List.mem_append_right _ (List.mem_singleton_self _))) hfit, ?_⟩
  have hused := move_effort hm hprev.sound.directed hprev.lasting
  simp only [List.countP_append, List.countP_singleton]
  omega

/-- On a healthy network sizes alone decide what a call returns. It does return if the greeting
fits: the calls to a destination take no more steps than they were allowed, and one of them can take
another unless all of them are over. -/
theorem returned_by_size {address : Endpoint} {config : Config} {clock : Nat} {moves : List Move}
    (h : (new address config clock).run moves = some (m, hs)) (ho : m.closed = false)
    (hh : ∀ t ∈ (new address config clock).transitions moves, t.Healthy d) :
    (∀ (id : SendId) s result time, m.sends[id]? = some s → s.destination = d →
      s.stage = .finished result time →
        result = verdict address config.maxFrame d s.frame) ∧
    ((helloBody address).length ≤ Frame.limit config.maxFrame →
      ((new address config clock).transitions moves).countP
          (fun t => t.before.serves d t.move) ≤ m.allowances d ∧
        ∀ (id : SendId) s, m.sends[id]? = some s → s.destination = d → ¬s.stage.Over →
          ∃ j s₁, m.sends[j]? = some s₁ ∧ s₁.destination = d ∧ m.Advances j) := by
  have hl := run_later h
  refine ⟨fun id s result time hs' hd hst => ?_, fun hfit => ?_⟩
  · have hcourse := (run_smooth h ho hh).course id s hs' hd
    rw [hst, hl.address, hl.config, hd] at hcourse
    exact hcourse
  · obtain ⟨hflow, hcount⟩ := run_flowing h ho hh (by rw [hl.address, hl.config]; exact hfit)
    exact ⟨by omega, fun id s hs' hd hn => hflow.advances ho hs' hd hn⟩

theorem returned_by_size_two_calls :
    let d : Endpoint := ⟨"b", 2⟩
    let step id a := Move.step (.send id) a
    let work id n := List.replicate n (step id .none)
    let moves := .send d [5] :: .send d [6, 7] :: work 0 7 ++ work 1 6 ++
      [step 0 (.connected 3), step 0 (.accepted 20), step 0 (.accepted 30), step 0 (.accepted 5)]
    let m₀ := new ⟨"a", 1⟩ {} 0
    ∃ m hs s₀ s₁, m₀.run moves = some (m, hs) ∧ m.closed = false ∧
      (∀ t ∈ m₀.transitions moves, t.Healthy d) ∧ m.sends = [s₀, s₁] ∧
      s₀.stage = .finished (verdict ⟨"a", 1⟩ 16777216 d s₀.frame) 0 ∧ s₁.stage = .queued 0 ∧
      (m₀.transitions moves).countP (fun t => t.before.serves d t.move) ≤ m.allowances d ∧
      ∃ j s, m.sends[j]? = some s ∧ s.destination = d ∧ m.Advances j := by
  intro d step work moves m₀
  obtain ⟨⟨m, hs⟩, h⟩ : ∃ o, m₀.run moves = some o :=
    Option.isSome_iff_exists.mp (by decide +kernel)
  have hh : ∀ t ∈ m₀.transitions moves, t.Healthy d := by decide +kernel
  have hview : ((m₀.run moves).map fun o => (o.1.closed, o.1.sends.map fun s => (s.destination,
      match s.stage with
      | .finished _ time => some (Sum.inl time)
      | .queued l => some (Sum.inr l)
      | _ => none))) = some (false, [(d, some (.inl 0)), (d, some (.inr 0))]) := by
    decide +kernel
  rw [h] at hview
  simp only [Option.map_some, Option.some.injEq, Prod.mk.injEq] at hview
  obtain ⟨ho, hview⟩ := hview
  obtain ⟨s₀, ss, hsends, hs₀, hrest⟩ := List.map_eq_cons_iff.mp hview
  obtain ⟨s₁, rest, rfl, hs₁, hnil⟩ := List.map_eq_cons_iff.mp hrest
  rw [List.map_eq_nil_iff] at hnil
  subst hnil
  simp only [Prod.mk.injEq] at hs₀ hs₁
  obtain ⟨hd₀, hst₀⟩ := hs₀
  obtain ⟨hd₁, hst₁⟩ := hs₁
  split at hst₀ <;> cases hst₀
  next result hst₀ =>
  split at hst₁ <;> cases hst₁
  next hst₁ =>
  have h₀ : m.sends[0]? = some s₀ := by rw [hsends]; rfl
  have h₁ : m.sends[1]? = some s₁ := by rw [hsends]; rfl
  obtain ⟨hverdict, hreturn⟩ := returned_by_size h ho hh
  obtain ⟨hcount, hadv⟩ := hreturn (by decide +kernel)
  refine ⟨m, hs, s₀, s₁, h, ho, hh, hsends, ?_, hst₁, hcount, ?_⟩
  · rw [hst₀, hverdict 0 s₀ result 0 h₀ hd₀ hst₀]
  · exact hadv 1 s₁ h₁ hd₁ (by rw [hst₁]; exact id)

/-- A limit under the length of the greeting: on a healthy network the call for a body of one byte
fails, and the failure is one that it may be worth to retry. -/
theorem unsent_for_greeting :
    let d : Endpoint := ⟨"b", 2⟩
    let work n := List.replicate n (Move.step (.send 0) .none)
    let moves := .send d [5] :: work 7 ++ .step (.send 0) (.connected 3) :: work 1
    let m₀ := new ⟨"a", 1⟩ { maxFrame := 8 } 0
    let error := RemoteError.connection d (Frame.tooBig .invalidInput)
    (m₀.run moves).map (fun o => (o.1.closed, (o.1.sends[0]?).map fun s => (s.frame,
      match s.stage with
      | .finished (.error error) _ => some error
      | _ => none))) = some (false, some ([5], some error)) ∧
      (∀ t ∈ m₀.transitions moves, t.Healthy d) ∧ [5].length ≤ m₀.config.maxFrame ∧
      error.isRetryable = true := by
  decide +kernel

end PeerLink.Manager
