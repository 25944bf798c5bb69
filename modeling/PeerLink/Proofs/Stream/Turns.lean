import PeerLink.Proofs.Stream.Steadiness

namespace PeerLink.Manager

def SendStage.over : SendStage → Bool
  | .finished _ _ => true
  | _ => false

/-- Whether a call goes to a destination. -/
def callsTo (m : Manager) (d : Endpoint) (id : SendId) : Bool :=
  (m.sends[id]?).any (·.destination = d)

def unoccupied (m : Manager) (d : Endpoint) (task : SendId → Nat) : Bool :=
  m.sends.zipIdx.all fun (s, id) =>
    s.destination ≠ d || task id ≠ task m.sends.length || s.stage.over

structure InTurn (d : Endpoint) (task : SendId → Nat) (m : Manager) (ps : List Placement) :
    Prop where
  waits : ∀ (i j : SendId) s s', i < j → m.sends[i]? = some s → m.sends[j]? = some s' →
    s.destination = d → s'.destination = d → task i = task j → s.stage.over = true
  order : ps.Pairwise fun p q => m.callsTo d p.send = true → m.callsTo d q.send = true →
    task p.send = task q.send → p.send < q.send

variable {m m' m₁ : Manager} {mv : Move} {hs : List Happening} {id j : SendId} {s s₁ : Send}
  {d : Endpoint} {task : SendId → Nat} {ps : List Placement}

theorem callsTo_iff : m.callsTo d id = true ↔ ∃ s, m.sends[id]? = some s ∧ s.destination = d := by
  simp [callsTo, Option.any_eq_true]

theorem over_of_unoccupied (h : m.unoccupied d task = true) (hs' : m.sends[id]? = some s)
    (hd : s.destination = d) (ht : task id = task m.sends.length) : s.stage.over = true := by
  have hall := List.all_eq_true.mp h (s, id) (List.mem_zipIdx_iff_getElem?.mpr hs')
  simpa [hd, ht] using hall

theorem SendStage.barred_of_over {stage : SendStage} (h : stage.over = true) : stage.Barred := by
  cases stage <;> trivial

/-- A call that is over stays so, since it can no longer be given up by whoever awaits it. -/
theorem Effect.keeps_over (he : Effect m mv m₁ hs) (hs' : m.sends[j]? = some s)
    (h₁ : m₁.sends[j]? = some s₁) (hd : s.destination = d) (hn : m.letsDown d mv = false)
    (ho : s.stage.over = true) : s₁.stage.over = true := by
  obtain ⟨stage, h₂, h⟩ := he.keeps_call hs'
  cases h₁.symm.trans h₂
  obtain ⟨rfl, -⟩ | ⟨-, rfl⟩ | ⟨a, -, h⟩ := h
  · exact ho
  · simp [letsDown, hs', hd] at hn
  · obtain ⟨-, -, r, t, hr⟩ := h.of_barred hs' (SendStage.barred_of_over ho) h₁
    rw [hr]
    rfl

theorem Effect.callsTo (he : Effect m mv m₁ hs) (hs' : m.sends[id]? = some s) :
    m₁.callsTo d id = m.callsTo d id := by
  obtain ⟨stage, h₁, -⟩ := he.keeps_call hs'
  simp [Manager.callsTo, h₁, hs']

theorem callsTo_reap {hs₁ : List Happening} (hr : reap (m₁, hs₁) = (m', hs) ∨ m₁ = m' ∧ hs₁ = hs) :
    m'.callsTo d id = m₁.callsTo d id := by
  rw [callsTo, sends_of_reap hr]
  rfl

theorem move_callsTo (hm : m.move mv = some (m', hs)) (h : m.callsTo d id = true) :
    m'.callsTo d id = true := by
  obtain ⟨s, hs', -⟩ := callsTo_iff.mp h
  obtain ⟨m₁, hs₁, he, hr⟩ := move_effect hm
  rw [callsTo_reap hr, he.callsTo hs', h]

theorem callsTo_move (hm : m.move mv = some (m', hs)) (h : m'.callsTo d id = true) :
    m.callsTo d id = true ∨ ∃ f, mv = .send d f := by
  obtain ⟨m₁, hs₁, he, hr⟩ := move_effect hm
  have h₁ : m₁.callsTo d id = true := (callsTo_reap hr).symm.trans h
  obtain ⟨s₁, hs₁, hd⟩ := callsTo_iff.mp h₁
  obtain ⟨s, hs'⟩ | ⟨-, hmv, -⟩ := he.origin hs₁
  · exact .inl ((he.callsTo hs').symm.trans h₁)
  · exact .inr ⟨s₁.frame, hd ▸ hmv⟩

theorem InTurn.new (address : Endpoint) (config : Config) (clock : Nat) :
    InTurn d task (new address config clock) [] := by
  refine ⟨fun i j s s' _ hs => ?_, List.Pairwise.nil⟩
  simp [Manager.new] at hs

theorem InTurn.effect_waits (h : InTurn d task m ps) (he : Effect m mv m₁ hs)
    (hn : m.letsDown d mv = false) (hnext : ∀ f, mv = .send d f → m.unoccupied d task = true)
    {i j : SendId} {s₁ s₁' : Send} (hij : i < j) (h₁ : m₁.sends[i]? = some s₁)
    (h₁' : m₁.sends[j]? = some s₁') (hd : s₁.destination = d) (hd' : s₁'.destination = d)
    (ht : task i = task j) : s₁.stage.over = true := by
  have hlt : i < m.sends.length := by
    obtain ⟨s', hs'⟩ | ⟨rfl, -⟩ := he.origin h₁'
    · exact Nat.lt_trans hij (List.getElem?_eq_some_iff.mp hs').1
    · exact hij
  have hs : m.sends[i]? = some m.sends[i] := List.getElem?_eq_getElem hlt
  obtain ⟨stage, h₂, -⟩ := he.keeps_call hs
  have hdi : m.sends[i].destination = d := by
    cases h₁.symm.trans h₂
    exact hd
  refine he.keeps_over hs h₁ hdi hn ?_
  obtain ⟨s', hs'⟩ | ⟨rfl, hmv, -⟩ := he.origin h₁'
  · obtain ⟨stage', h₂', -⟩ := he.keeps_call hs'
    have hdj : s'.destination = d := by
      cases h₁'.symm.trans h₂'
      exact hd'
    exact h.waits i j _ s' hij hs hs' hdi hdj ht
  · exact over_of_unoccupied (hnext _ (hd' ▸ hmv)) hs hdi ht

theorem InTurn.lt_of_placed (h : InTurn d task m ps) (hp : Placed m ps) (he : Effect m mv m₁ hs)
    (hp₁ : Placed m₁ (ps ++ (Transition.mk m mv m₁ hs).placed)) (hn : m.letsDown d mv = false)
    {p q : Placement} (hpm : p ∈ ps) (hq : q ∈ (Transition.mk m mv m₁ hs).placed)
    (hpd : m₁.callsTo d p.send = true) (hqd : m₁.callsTo d q.send = true)
    (ht : task p.send = task q.send) : p.send < q.send := by
  obtain ⟨a, rfl, hnow⟩ := mem_placed.mp hq
  obtain ⟨-, s', s₁', hs', h₁', -, hl, -⟩ := placed?_eq_some hnow
  obtain ⟨s, hs, -⟩ := hp.made p hpm
  obtain ⟨_, hs₀, hd⟩ := callsTo_iff.mp (he.callsTo hs ▸ hpd)
  obtain ⟨_, hs₀', hd'⟩ := callsTo_iff.mp (he.callsTo hs' ▸ hqd)
  cases hs.symm.trans hs₀
  cases hs'.symm.trans hs₀'
  have hne : p.send ≠ q.send := by
    intro e
    have hnodup := hp₁.once
    rw [List.map_append, List.nodup_append] at hnodup
    exact hnodup.2.2 _ (List.mem_map_of_mem hpm) _ (List.mem_map_of_mem hq) e
  refine Nat.lt_of_le_of_ne (Nat.le_of_not_lt fun hlt => ?_) hne
  have hover := h.waits q.send p.send s' s hlt hs' hs hd' hd ht.symm
  have hover := he.keeps_over hs' h₁' hd' hn hover
  rw [hl] at hover
  cases hover

theorem InTurn.effect (h : InTurn d task m ps) (hp : Placed m ps) (he : Effect m mv m₁ hs)
    (hp₁ : Placed m₁ (ps ++ (Transition.mk m mv m₁ hs).placed)) (hn : m.letsDown d mv = false)
    (hnext : ∀ f, mv = .send d f → m.unoccupied d task = true) :
    InTurn d task m₁ (ps ++ (Transition.mk m mv m₁ hs).placed) := by
  refine ⟨fun i j s₁ s₁' hij h₁ h₁' hd hd' ht =>
    h.effect_waits he hn hnext hij h₁ h₁' hd hd' ht, ?_⟩
  apply List.pairwise_append.mpr
  refine ⟨?_, ?_, fun p hpm q hq hpd hqd ht => h.lt_of_placed hp he hp₁ hn hpm hq hpd hqd ht⟩
  · refine h.order.imp_of_mem fun {p q} hpm hqm hlt hpd hqd => ?_
    obtain ⟨s, hs, -⟩ := hp.made p hpm
    obtain ⟨s', hs', -⟩ := hp.made q hqm
    exact hlt (he.callsTo hs ▸ hpd) (he.callsTo hs' ▸ hqd)
  · rw [Transition.placed]
    cases Transition.placement? _ <;> simp

theorem InTurn.move (h : InTurn d task m ps) (hm : Sound m) (hp : Placed m ps)
    (hmv : m.move mv = some (m', hs)) (hn : m.letsDown d mv = false)
    (hnext : ∀ f, mv = .send d f → m.unoccupied d task = true) :
    InTurn d task m' (ps ++ (Transition.mk m mv m' hs).placed) := by
  obtain ⟨m₁, hs₁, he, hr | ⟨rfl, rfl⟩⟩ := move_effect hmv
  · have h₁ := h.effect hp he (hp.effect hm he) hn hnext
    rw [placed_reap hr]
    constructor
    · rw [reap_scope hr]
      exact h₁.waits
    · simpa only [callsTo_reap (.inl hr)] using h₁.order
  · exact h.effect hp he (hp.effect hm he) hn hnext

end PeerLink.Manager
