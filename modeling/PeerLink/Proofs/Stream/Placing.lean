import PeerLink.Proofs.Stream.Postings

namespace PeerLink.Manager

def SendStage.Sent : SendStage → Prop
  | .flushing _ => True
  | .finished result _ => ∀ length max, result ≠ .error (.frameTooLarge length max)
  | .abandoned => True
  | _ => False

def SendStage.Barred : SendStage → Prop
  | .failing _ _ => True
  | .finished _ _ => True
  | .abandoned => True
  | _ => False

def OnStream (m : Manager) (l : LinkId) (stream : StreamId) : Prop :=
  ∃ k w, m.allLinks[l]? = some k ∧ k.writer = some w ∧ w.stream = stream

/-- What the placements of a run say of its calls. -/
structure Placed (m : Manager) (ps : List Placement) : Prop where
  once : (ps.map Placement.send).Nodup
  made : ∀ p ∈ ps, ∃ s, m.sends[p.send]? = some s ∧ s.frame = p.frame ∧
    m.Goes p.link s.destination ∧ s.stage.Sent
  current : ∀ (id : SendId) s l, m.sends[id]? = some s → s.stage = .flushing l →
    ∃ p ∈ ps, p.send = id ∧ p.link = l ∧ m.OnStream l p.stream

variable {m m' m₁ : Manager} {mv : Move} {hs ws : List Happening} {l : LinkId} {k : Link}
  {id j : SendId} {s s₁ : Send} {a : Answer} {ps : List Placement} {t : Transition}

theorem SendStage.flushing?_eq {stage : SendStage} (h : stage.flushing? = some l) :
    stage = .flushing l := by
  cases stage <;> first | exact congrArg _ (Option.some.inj h) | cases h

theorem placed?_eq_some {p : Placement} (h : placed? m m₁ id = some p) :
    p.send = id ∧ ∃ s s₁, m.sends[id]? = some s ∧ m₁.sends[id]? = some s₁ ∧
      s.stage.flushing? = none ∧ s₁.stage = .flushing p.link ∧ s.frame = p.frame ∧
      m₁.OnStream p.link p.stream := by
  obtain ⟨s, hs, h⟩ := Option.bind_eq_some_iff.mp h
  obtain ⟨s₁, h₁, h⟩ := Option.bind_eq_some_iff.mp h
  obtain ⟨l, hl, h⟩ := Option.bind_eq_some_iff.mp h
  obtain ⟨w, hw, h⟩ := Option.bind_eq_some_iff.mp h
  obtain ⟨k, hk, hw⟩ := Option.bind_eq_some_iff.mp hw
  split at h
  · next hn =>
    cases h
    exact ⟨rfl, s, s₁, hs, h₁, hn, SendStage.flushing?_eq hl, rfl, k, w, hk, hw, rfl⟩
  · cases h

theorem SendStep.of_flushing (h : SendStep m id s a m₁ hs) (hs' : m.sends[id]? = some s)
    (he : s.stage = .flushing l) (h₁ : m₁.sends[id]? = some s₁) :
    s₁ = s ∧ (∀ stream, m.OnStream l stream → m₁.OnStream l stream) ∨
      s₁.stage.Sent ∧ s₁.stage.line? = none := by
  cases h with
  | refuse hs | reject hs | start hs | find hs | found hs | turnAway hs | quit hs | request hs
  | retry hs | dial hs | drain hs | greet hs | greetPart hs | giveUp hs => cases he.symm.trans hs
  | failConnect hu =>
    have hc := hu.connecting?
    rw [he] at hc
    cases hc
  | place hr | overflow hr =>
    have hf := hr.unplaced
    rw [he] at hf
    cases hf
  | cancel | writeAll | failWrite =>
    cases (setSend_get hs' _).symm.trans h₁
    exact .inr ⟨nofun, rfl⟩
  | @writePart l' k w count hs =>
    cases hs'.symm.trans h₁
    refine .inl ⟨rfl, ?_⟩
    rintro stream ⟨k₀, w₀, hk₀, hw₀, hst⟩
    obtain hs | hs := hs <;> cases he.symm.trans hs
    have hw₁ : (k₀.consume count).writer = some { w₀ with buffer := w₀.buffer.drop count } := by
      simp [Link.consume, hw₀]
    exact ⟨_, _, modifyLink_get hk₀ _, hw₁, hst⟩

theorem SendStep.of_barred (h : SendStep m id s a m₁ hs) (hs' : m.sends[id]? = some s)
    (hb : s.stage.Barred) (h₁ : m₁.sends[id]? = some s₁) :
    s.stage ≠ .abandoned ∧ (∀ r t, s.stage ≠ .finished r t) ∧ ∃ r t, s₁.stage = .finished r t := by
  cases h with
  | refuse hs | reject hs | start hs | find hs | found hs | turnAway hs | quit hs | request hs
  | retry hs | dial hs | drain hs | greet hs | greetPart hs | writeAll hs =>
    rw [hs] at hb
    cases hb
  | failConnect hu => cases hu with
    | timedOut hs | refused hs | tooLong hs | broken hs =>
      rw [hs] at hb
      cases hb
  | place hr | overflow hr => cases hr with
    | atOnce hs | greeted hs | drained hs =>
      rw [hs] at hb
      cases hb
  | writePart hs | failWrite hs => obtain hs | hs := hs <;> rw [hs] at hb <;> cases hb
  | cancel hl hr =>
    cases he : s.stage <;> rw [he] at hb hl hr <;>
      first | exact False.elim hb | exact False.elim hr | cases hl
  | giveUp he =>
    rw [evict_scope] at h₁
    cases (setSend_get hs' _).symm.trans h₁
    rw [he]
    exact ⟨nofun, nofun, _, _, rfl⟩

theorem SendStep.of_sent (h : SendStep m id s a m₁ hs) (hs' : m.sends[id]? = some s)
    (hst : s.stage.Sent) : ∃ l, s.stage = .flushing l := by
  obtain ⟨stage, h₁⟩ := h.same hs'
  cases he : s.stage with
  | flushing l => exact ⟨l, rfl⟩
  | finished r t => exact absurd he ((h.of_barred hs' (by rw [he]; trivial) h₁).2.1 r t)
  | abandoned => exact absurd he (h.of_barred hs' (by rw [he]; trivial) h₁).1
  | _ =>
    rw [he] at hst
    cases hst

theorem mem_placed {p : Placement} : p ∈ (Transition.mk m mv m₁ hs).placed ↔
    ∃ a, mv = .step (.send p.send) a ∧ placed? m m₁ p.send = some p := by
  constructor
  · intro h
    have h := Option.mem_toList.mp h
    rw [Transition.placement?] at h
    split at h
    · next id a he =>
      obtain ⟨rfl, -⟩ := placed?_eq_some h
      exact ⟨a, he, h⟩
    · cases h
  · rintro ⟨a, rfl, h⟩
    exact Option.mem_toList.mpr h

/-- A call that has come to flush has put its frame on a stream in this step, or flushed before. -/
theorem SendStep.flushed (h : SendStep m id s a m₁ hs) (hs' : m.sends[id]? = some s)
    (hm : Supplied m₁) (h₁ : m₁.sends[id]? = some s₁) (he : s₁.stage = .flushing l) :
    s.stage = .flushing l ∨ ∃ p, placed? m m₁ id = some p ∧ p.link = l := by
  cases hf : s.stage.flushing? with
  | none =>
    obtain ⟨k, w, hk, hw⟩ := hm.writing id s₁ l h₁ (by rw [he]; rfl)
    exact .inr ⟨_, placed?_eq hs' h₁ hf (by rw [he]; rfl) hk hw, rfl⟩
  | some l' =>
    left
    obtain ⟨rfl, -⟩ | ⟨-, hn⟩ := h.of_flushing hs' (SendStage.flushing?_eq hf) h₁
    · exact he
    · rw [he] at hn
      cases hn

theorem Effect.keeps_sent (he : Effect m mv m₁ hs) (hs' : m.sends[j]? = some s)
    (hst : s.stage.Sent) :
    ∃ s₁, m₁.sends[j]? = some s₁ ∧ s₁.frame = s.frame ∧ s₁.destination = s.destination ∧
      s₁.stage.Sent := by
  obtain ⟨stage, h₁, h⟩ := he.keeps_call hs'
  refine ⟨_, h₁, rfl, rfl, ?_⟩
  obtain ⟨rfl, -⟩ | ⟨rfl, -⟩ | ⟨a, -, h⟩ := h
  · exact hst
  · trivial
  · obtain ⟨l, hl⟩ := h.of_sent hs' hst
    obtain ⟨hs₁, -⟩ | ⟨hs₁, -⟩ := h.of_flushing hs' hl h₁
    · rw [hs₁]
      exact hst
    · exact hs₁

theorem Placed.new (address : Endpoint) (config : Config) (clock : Nat) :
    Placed (new address config clock) [] := by
  refine ⟨List.nodup_nil, fun p hp => absurd hp List.not_mem_nil, fun id s l hs => ?_⟩
  simp [Manager.new] at hs

theorem Placed.effect (h : Placed m ps) (hm : Sound m) (he : Effect m mv m₁ hs) :
    Placed m₁ (ps ++ (Transition.mk m mv m₁ hs).placed) := by
  have hm₁ : Sound m₁ := hm.effect he
  have hnew : ∀ p ∈ (Transition.mk m mv m₁ hs).placed, p.send ∉ ps.map Placement.send := by
    intro p hp hmem
    obtain ⟨a, rfl, hnow⟩ := mem_placed.mp hp
    obtain ⟨-, s, s₁, hs', h₁, hn, -⟩ := placed?_eq_some hnow
    obtain ⟨q, hq, hqp⟩ := List.mem_map.mp hmem
    obtain ⟨s', hs'', -, -, hst⟩ := h.made q hq
    rw [hqp] at hs''
    cases hs'.symm.trans hs''
    cases he with
    | aside _ hv => exact hv _ _ rfl
    | send hs₀ hstep =>
      cases hs'.symm.trans hs₀
      obtain ⟨l, hl⟩ := hstep.of_sent hs' hst
      rw [hl] at hn
      cases hn
  refine ⟨?_, fun p hp => ?_, fun j s₁ l h₁ hl => ?_⟩
  · rw [List.map_append, List.nodup_append]
    refine ⟨h.once, ?_, ?_⟩
    · rw [Transition.placed]
      cases Transition.placement? _ <;> simp
    · rintro j hj _ hj' rfl
      obtain ⟨p, hp, rfl⟩ := List.mem_map.mp hj'
      exact hnew p hp hj
  · obtain hp | hp := List.mem_append.mp hp
    · obtain ⟨s, hs', hf, hg, hst⟩ := h.made p hp
      obtain ⟨s₁, h₁, hf₁, hd₁, hst₁⟩ := he.keeps_sent hs' hst
      refine ⟨s₁, h₁, hf₁.trans hf, ?_, hst₁⟩
      rw [hd₁]
      exact hg.effect he
    · obtain ⟨a, rfl, hnow⟩ := mem_placed.mp hp
      obtain ⟨-, s, s₁, hs', h₁, -, hl, hf, -⟩ := placed?_eq_some hnow
      obtain ⟨stage, h₁', -⟩ := he.keeps_call hs'
      cases h₁.symm.trans h₁'
      refine ⟨_, h₁, hf, hm₁.directed.sends _ _ _ h₁ ?_, ?_⟩
      · rw [hl]
        rfl
      · rw [hl]
        trivial
  · obtain ⟨h₁, hmv⟩ | hst | hst | ⟨a, s, rfl, hs', hst⟩ := he.sends h₁
    · obtain ⟨p, hp, hpj, hpl, k, w, hk, hw, hws⟩ := h.current j s₁ l h₁ hl
      obtain ⟨k₁, hk₁, hw₁, -⟩ :=
        he.untouched_of_held hm.locked h₁ (by rw [hl]; rfl) hk hmv
      exact ⟨p, List.mem_append_left _ hp, hpj, hpl, k₁, w, hk₁, hw₁.trans hw, hws⟩
    · cases hl.symm.trans hst
    · cases hl.symm.trans hst
    · obtain hl' | ⟨p, hp, hpl⟩ := hst.flushed hs' hm₁.supplied h₁ hl
      · obtain ⟨p, hp, hpj, hpl, hon⟩ := h.current j s l hs' hl'
        refine ⟨p, List.mem_append_left _ hp, hpj, hpl, ?_⟩
        obtain ⟨-, hkeep⟩ | ⟨-, hn⟩ := hst.of_flushing hs' hl' h₁
        · exact hkeep _ hon
        · rw [hl] at hn
          cases hn
      · obtain ⟨hpj, -, -, -, -, -, -, -, hon⟩ := placed?_eq_some hp
        refine ⟨p, List.mem_append_right _ (mem_placed.mpr ⟨a, ?_, ?_⟩), hpj, hpl, hpl ▸ hon⟩
        · rw [hpj]
        · rw [hpj]
          exact hp

theorem Placed.reap {o : Manager × List Happening} (h : Placed o.1 ps) (hr : reap o = (m', hs)) :
    Placed m' ps := by
  have hs₁ : m'.sends = o.1.sends := by rw [reap_scope hr]
  refine ⟨h.once, fun p hp => ?_, fun id s l hs' hl => ?_⟩
  · obtain ⟨s, hs', hf, hg, hst⟩ := h.made p hp
    exact ⟨s, hs₁ ▸ hs', hf, hg.reap hr, hst⟩
  · rw [hs₁] at hs'
    obtain ⟨p, hp, hpi, hpl, k, w, hk, hw, hst⟩ := h.current id s l hs' hl
    refine ⟨p, hp, hpi, hpl, k, w, ?_, hw, hst⟩
    rw [reap_of_refersTo hr (refersTo_of_send hs' (by rw [hl]; rfl)), hk]

theorem Placed.move (h : Placed m ps) (hm : Sound m) (hmv : m.move mv = some (m', hs)) :
    Placed m' (ps ++ (Transition.mk m mv m' hs).placed) := by
  obtain ⟨m₁, hs₁, he, hr | ⟨rfl, rfl⟩⟩ := move_effect hmv
  · rw [placed_reap hr]
    exact Placed.reap (h.effect hm he) hr
  · exact h.effect hm he

end PeerLink.Manager
