import PeerLink.Proofs.Stream.Placing

namespace PeerLink.Manager

def holderOf (m : Manager) (l : LinkId) : Option Waiter := (m.allLinks[l]?).bind Link.holder

def Transition.granted? (l : LinkId) (t : Transition) : Option SendId :=
  match t.after.holderOf l with
  | some (.send id) => if t.before.holderOf l = some (.send id) then none else some id
  | _ => none

def grants (l : LinkId) (ts : List Transition) : List SendId :=
  ts.filterMap (Transition.granted? l)

def sendsTo (l : LinkId) (ps : List Placement) : List SendId :=
  (ps.filter (·.link = l)).map Placement.send

/-- The calls that have put frames on streams of a link got its lock in that order. If the lock is
with one that has not done so yet, it is the last that got it. -/
structure InOrder (m : Manager) (ps : List Placement) (granted : LinkId → List SendId) : Prop where
  sub : ∀ l, (sendsTo l ps).Sublist (granted l)
  due : ∀ l (id : SendId) s, m.holderOf l = some (.send id) → m.sends[id]? = some s →
    s.stage.flushing? = none → ∃ before, granted l = before ++ [id] ∧ (sendsTo l ps).Sublist before

variable {m m' m₁ : Manager} {mv : Move} {hs : List Happening} {l : LinkId} {k : Link}
  {id j : SendId} {s s₁ : Send} {a : Answer} {ps : List Placement}
  {granted : LinkId → List SendId}

theorem sendsTo_append {qs : List Placement} :
    sendsTo l (ps ++ qs) = sendsTo l ps ++ sendsTo l qs := by
  simp [sendsTo]

theorem sendsTo_of_forall_ne (h : ∀ p ∈ ps, p.link ≠ l) : sendsTo l ps = [] := by
  rw [sendsTo, List.filter_eq_nil_iff.mpr (by simpa using h), List.map_nil]

theorem granted?_cases {t : Transition} (h : t.after.holderOf l = some (.send id)) :
    t.granted? l = some id ∨ t.granted? l = none ∧ t.before.holderOf l = some (.send id) := by
  rw [Transition.granted?]
  rw [h]
  by_cases hb : t.before.holderOf l = some (.send id)
  · exact .inr ⟨if_pos hb, hb⟩
  · exact .inl (if_neg hb)

theorem SendStep.ready (h : SendStep m id s a m₁ hs) (hs' : m.sends[id]? = some s)
    (hn : s.stage.flushing? = none) (h₁ : m₁.sends[id]? = some s₁)
    (hl : s₁.stage = .flushing l) : ∃ g w ws, Ready m id s l a g w ws := by
  cases h with
  | place hr =>
    cases (setSend_get hs' _).symm.trans h₁
    cases hl
    exact ⟨_, _, _, hr⟩
  | writePart =>
    cases hs'.symm.trans h₁
    rw [hl] at hn
    cases hn
  | find _ hk =>
    rw [lookupStep_scope hk] at h₁
    cases (setSend_get hs' _).symm.trans h₁
    cases hl
  | giveUp =>
    rw [evict_scope] at h₁
    cases (setSend_get hs' _).symm.trans h₁
    cases hl
  | _ =>
    cases (setSend_get hs' _).symm.trans h₁
    cases hl

theorem Effect.eq_send (he : Effect m (.step (.send id) a) m₁ hs) :
    ∃ s, m.sends[id]? = some s ∧ SendStep m id s a m₁ hs := by
  cases he with
  | aside _ hv => exact absurd rfl (hv id a)
  | send hs' h => exact ⟨_, hs', h⟩

/-- A call puts its frame on a stream while it has the lock. -/
theorem Effect.holder_of_placed (he : Effect m mv m₁ hs) (hm : Sound m) {p : Placement}
    (hp : p ∈ (Transition.mk m mv m₁ hs).placed) :
    m.holderOf p.link = some (.send p.send) := by
  obtain ⟨a, rfl, hnow⟩ := mem_placed.mp hp
  obtain ⟨s, hs', hst⟩ := he.eq_send
  obtain ⟨-, s₀, s₁, hs₀, h₁, hn, hl, -⟩ := placed?_eq_some hnow
  cases hs'.symm.trans hs₀
  obtain ⟨g, w, ws, hr⟩ := hst.ready hs' hn h₁ hl
  obtain ⟨k, hk, -⟩ := hm.directed.sends _ _ _ hs' (SendStage.link?_of_line? hr.line?)
  rw [holderOf, hk]
  exact hr.holder hm.locked hs' hk

theorem placed_eq_singleton {p : Placement} (hp : p ∈ (Transition.mk m mv m₁ hs).placed) :
    (Transition.mk m mv m₁ hs).placed = [p] := by
  rw [Transition.placed] at hp ⊢
  rw [Option.mem_toList.mp hp]
  rfl

theorem InOrder.new (address : Endpoint) (config : Config) (clock : Nat) :
    InOrder (new address config clock) [] (fun _ => []) := by
  refine ⟨fun l => List.nil_sublist _, fun l id s h => ?_⟩
  simp [Manager.new, holderOf] at h

theorem holder_line (hm : Locked m) (h : m.holderOf l = some (.send id))
    (hs' : m.sends[id]? = some s) : s.stage.line? = some l := by
  obtain ⟨k, hk, hh⟩ := Option.bind_eq_some_iff.mp h
  rw [← lineOf_send hs', ← hm.line l k _ hk]
  exact Link.holder_mem hh

theorem InOrder.effect (h : InOrder m ps granted) (hm : Sound m) (he : Effect m mv m₁ hs) :
    InOrder m₁ (ps ++ (Transition.mk m mv m₁ hs).placed)
      (fun l => granted l ++ ((Transition.mk m mv m₁ hs).granted? l).toList) := by
  have hm₁ : Sound m₁ := hm.effect he
  have hnot : ∀ l, (∀ p ∈ (Transition.mk m mv m₁ hs).placed, p.link ≠ l) →
      sendsTo l (ps ++ (Transition.mk m mv m₁ hs).placed) = sendsTo l ps := by
    intro l hn
    rw [sendsTo_append, sendsTo_of_forall_ne hn, List.append_nil]
  -- what is put on a stream now was due, and who gets the lock now comes after that
  have hsub : ∀ l, (sendsTo l (ps ++ (Transition.mk m mv m₁ hs).placed)).Sublist (granted l) := by
    intro l
    by_cases hp : ∃ p ∈ (Transition.mk m mv m₁ hs).placed, p.link = l
    · obtain ⟨p, hp, rfl⟩ := hp
      obtain ⟨a, -, hnow⟩ := mem_placed.mp hp
      obtain ⟨-, s, -, hs', -, hn, -⟩ := placed?_eq_some hnow
      obtain ⟨before, hg, hb⟩ := h.due p.link p.send s (he.holder_of_placed hm hp) hs' hn
      have hone : sendsTo p.link [p] = [p.send] := by simp [sendsTo]
      rw [placed_eq_singleton hp, sendsTo_append, hone, hg]
      exact hb.append_right _
    · rw [hnot l fun p hp' e => hp ⟨p, hp', e⟩]
      exact h.sub l
  refine ⟨fun l => (hsub l).trans (List.sublist_append_left _ _), fun l j s₁ hh h₁ hn => ?_⟩
  have hline : s₁.stage.line? = some l := holder_line hm₁.locked hh h₁
  obtain hgr | ⟨hgr, hb⟩ := granted?_cases (t := ⟨m, mv, m₁, hs⟩) hh
  · rw [hgr]
    exact ⟨granted l, rfl, hsub l⟩
  -- the lock was with this call before, so nobody else has put anything on a stream of this link
  have hno : ∀ p ∈ (Transition.mk m mv m₁ hs).placed, p.link ≠ l := by
    rintro p hp rfl
    have hj : p.send = j := by
      have he := (he.holder_of_placed hm hp).symm.trans hb
      cases he
      rfl
    obtain ⟨a, -, hnow⟩ := mem_placed.mp hp
    obtain ⟨-, -, s₂, -, h₂, -, hl, -⟩ := placed?_eq_some hnow
    rw [hj] at h₂
    cases h₁.symm.trans h₂
    rw [hl] at hn
    cases hn
  obtain ⟨s, hs', hn'⟩ : ∃ s, m.sends[j]? = some s ∧ s.stage.flushing? = none := by
    obtain ⟨h₁, -⟩ | hst | hst | ⟨a, s, -, hs', hst⟩ := he.sends h₁
    · exact ⟨s₁, h₁, hn⟩
    · rw [hst] at hline
      cases hline
    · rw [hst] at hline
      cases hline
    · refine ⟨s, hs', ?_⟩
      cases hf : s.stage.flushing? with
      | none => rfl
      | some l' =>
        obtain ⟨rfl, -⟩ | ⟨-, hl⟩ := hst.of_flushing hs' (SendStage.flushing?_eq hf) h₁
        · cases hf.symm.trans hn
        · cases hline.symm.trans hl
  rw [hgr, hnot l hno]
  simpa using h.due l j s hb hs' hn'

theorem reap_holderOf {o : Manager × List Happening} (hr : reap o = (m', hs)) (l : LinkId) :
    m'.holderOf l = o.1.holderOf l := by
  simp only [holderOf]
  cases hk : m'.allLinks[l]? with
  | none =>
    rw [List.getElem?_eq_none_iff, reap_length hr, ← List.getElem?_eq_none_iff] at hk
    rw [hk]
  | some k' =>
    obtain ⟨k, hk₀, ⟨rfl, -⟩ | ⟨-, rfl⟩⟩ := reap_link hr hk
    · rw [hk₀]
    · rw [hk₀]
      rfl

theorem InOrder.move (h : InOrder m ps granted) (hm : Sound m)
    (hmv : m.move mv = some (m', hs)) :
    InOrder m' (ps ++ (Transition.mk m mv m' hs).placed)
      (fun l => granted l ++ ((Transition.mk m mv m' hs).granted? l).toList) := by
  obtain ⟨m₁, hs₁, he, hr | ⟨rfl, rfl⟩⟩ := move_effect hmv
  · have h₁ := h.effect hm he
    have hg : ∀ l, (Transition.mk m mv m' hs).granted? l =
        (Transition.mk m mv m₁ hs₁).granted? l := by
      intro l
      simp only [Transition.granted?, reap_holderOf hr]
    simp only [hg, placed_reap hr]
    refine ⟨h₁.sub, fun l id s hh hs' hn => h₁.due l id s ?_ ?_ hn⟩
    · rw [← hh, reap_holderOf hr]
    · rw [← hs', reap_scope hr]
  · exact h.effect hm he

end PeerLink.Manager
