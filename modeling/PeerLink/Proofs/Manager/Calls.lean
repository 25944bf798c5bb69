import PeerLink.Proofs.Manager.Directions

namespace PeerLink.Manager

variable {m m₁ : Manager} {mv : Move} {hs : List Happening} {id j : SendId} {s s₁ : Send}
  {a : Answer}

theorem SendStep.same (h : SendStep m id s a m₁ hs) (hs' : m.sends[id]? = some s) :
    ∃ stage, m₁.sends[id]? = some { s with stage } := by
  cases h with
  | writePart => exact ⟨s.stage, hs'⟩
  | find _ hk =>
    refine ⟨_, setSend_get ?_ _⟩
    rwa [lookupStep_scope hk]
  | giveUp =>
    rw [evict_scope]
    exact ⟨_, setSend_get hs' _⟩
  | _ => exact ⟨_, setSend_get hs' _⟩

/-- A call is never forgotten, and changes its stage by its own steps or by being given up. -/
theorem Effect.keeps_call (he : Effect m mv m₁ hs) (hs' : m.sends[j]? = some s) :
    ∃ stage, m₁.sends[j]? = some { s with stage } ∧
      (stage = s.stage ∧ (∀ a, mv ≠ .step (.send j) a) ∨ stage = .abandoned ∧ mv = .abandon j ∨
        ∃ a, mv = .step (.send j) a ∧ SendStep m j s a m₁ hs) := by
  cases he with
  | aside hm hv =>
    rw [hm]
    exact ⟨s.stage, hs', .inl ⟨rfl, hv j⟩⟩
  | call =>
    refine ⟨s.stage, ?_, .inl ⟨rfl, nofun⟩⟩
    rw [List.getElem?_append_left (List.getElem?_eq_some_iff.mp hs').1, hs']
  | ask | finish => exact ⟨s.stage, hs', .inl ⟨rfl, nofun⟩⟩
  | @send id s' a _ _ hs₀ h =>
    by_cases hj : j = id
    · subst hj
      cases hs'.symm.trans hs₀
      obtain ⟨stage, h₁⟩ := h.same hs'
      exact ⟨stage, h₁, .inr (.inr ⟨a, rfl, h⟩)⟩
    · exact ⟨s.stage, (h.others hj).trans hs', .inl ⟨rfl, fun _ e => hj (by cases e; rfl)⟩⟩
  | @drop id _ hs₀ | @leave id _ _ hs₀ =>
    by_cases hj : j = id
    · subst hj
      exact ⟨.abandoned, setSend_get hs' _, .inr (.inl ⟨rfl, rfl⟩)⟩
    · exact ⟨s.stage, (setSend_get_ne hj _).trans hs', .inl ⟨rfl, nofun⟩⟩
  | opening _ hk =>
    refine ⟨s.stage, ?_, .inl ⟨rfl, nofun⟩⟩
    rw [lookupStep_scope hk]
    exact hs'
  | closing _ h =>
    refine ⟨s.stage, ?_, .inl ⟨rfl, nofun⟩⟩
    rw [h.scope]
    exact hs'

theorem Effect.sends {j : SendId} (he : Effect m mv m₁ hs) (h₁ : m₁.sends[j]? = some s₁) :
    (m.sends[j]? = some s₁ ∧ ∀ a, mv ≠ .step (.send j) a) ∨ s₁.stage = .starting ∨
      s₁.stage = .abandoned ∨
      ∃ a s, mv = .step (.send j) a ∧ m.sends[j]? = some s ∧ SendStep m j s a m₁ hs := by
  cases he with
  | aside hm hv =>
    rw [hm] at h₁
    exact .inl ⟨h₁, hv j⟩
  | call =>
    obtain h₁ | ⟨-, rfl⟩ := getElem?_concat_cases h₁
    · exact .inl ⟨h₁, nofun⟩
    · exact .inr (.inl rfl)
  | ask | finish => exact .inl ⟨h₁, nofun⟩
  | @send id s a _ _ hs' h =>
    by_cases hj : j = id
    · subst hj
      exact .inr (.inr (.inr ⟨a, s, rfl, hs', h⟩))
    · exact .inl ⟨(h.others hj).symm.trans h₁, fun _ e => hj (by cases e; rfl)⟩
  | drop | leave =>
    obtain ⟨s, hs', ⟨rfl, rfl⟩ | ⟨-, rfl⟩⟩ := getElem?_modify_cases h₁
    · exact .inr (.inr (.inl rfl))
    · exact .inl ⟨hs', nofun⟩
  | opening _ hk =>
    rw [lookupStep_scope hk] at h₁
    exact .inl ⟨h₁, nofun⟩
  | closing _ h =>
    rw [h.scope] at h₁
    exact .inl ⟨h₁, nofun⟩

theorem Effect.origin (he : Effect m mv m₁ hs) (h₁ : m₁.sends[j]? = some s₁) :
    (∃ s, m.sends[j]? = some s) ∨
      j = m.sends.length ∧ mv = .send s₁.destination s₁.frame ∧ s₁.stage = .starting := by
  cases hs' : m.sends[j]? with
  | some s => exact .inl ⟨s, rfl⟩
  | none =>
    right
    cases he with
    | aside hm =>
      rw [hm] at h₁
      cases hs'.symm.trans h₁
    | call =>
      obtain h₁ | ⟨rfl, rfl⟩ := getElem?_concat_cases h₁
      · cases hs'.symm.trans h₁
      · exact ⟨rfl, rfl, rfl⟩
    | ask | finish => cases hs'.symm.trans h₁
    | send hs₀ hst =>
      rw [hst.others (by rintro rfl; cases hs'.symm.trans hs₀)] at h₁
      cases hs'.symm.trans h₁
    | drop | leave =>
      obtain ⟨s, hs₀, -⟩ := getElem?_modify_cases h₁
      cases hs'.symm.trans hs₀
    | opening _ hk =>
      rw [lookupStep_scope hk] at h₁
      cases hs'.symm.trans h₁
    | closing _ hc =>
      rw [hc.scope] at h₁
      cases hs'.symm.trans h₁

theorem Effect.openings (he : Effect m mv m₁ hs) {i : Nat} {o : Opening}
    (h₁ : m₁.openings[i]? = some o) :
    m.openings[i]? = some o ∨ o.stage = .checking ∨
      ∃ o' m₂, m.openings[i]? = some o' ∧ LookupStep m o'.destination o'.stage m₂ o.stage := by
  cases he with
  | aside hm =>
    rw [hm] at h₁
    exact .inl h₁
  | ask =>
    obtain h₁ | ⟨-, rfl⟩ := getElem?_concat_cases h₁
    · exact .inl h₁
    · exact .inr (.inl rfl)
  | call | finish | drop | leave => exact .inl h₁
  | send _ hst =>
    rw [hst.scope] at h₁
    exact .inl h₁
  | @opening i' o' m₂ k ho hk =>
    obtain ⟨o₀, ho₀, ⟨rfl, rfl⟩ | ⟨-, rfl⟩⟩ := getElem?_modify_cases h₁
    · rw [lookupStep_scope hk] at ho₀
      cases ho.symm.trans ho₀
      exact .inr (.inr ⟨o', m₂, ho, lookupStep_cases hk⟩)
    · rw [lookupStep_scope hk] at ho₀
      exact .inl ho₀
  | closing _ hc =>
    rw [hc.scope] at h₁
    exact .inl h₁

theorem Effect.closings (he : Effect m mv m₁ hs) {i : ClosingId} {c₁ : Closing}
    (h₁ : m₁.closings[i]? = some c₁) :
    m.closings[i]? = some c₁ ∨ c₁.stage = .swapping ∨
      ∃ a c, mv = .step (.closing i) a ∧ m.closings[i]? = some c ∧ ClosingStep m i c a m₁ hs := by
  cases he with
  | aside hm =>
    rw [hm] at h₁
    exact .inl h₁
  | finish =>
    obtain h₁ | ⟨-, rfl⟩ := getElem?_concat_cases h₁
    · exact .inl h₁
    · exact .inr (.inl rfl)
  | call | ask | drop | leave => exact .inl h₁
  | send _ hst =>
    rw [hst.scope] at h₁
    exact .inl h₁
  | opening _ hk =>
    rw [lookupStep_scope hk] at h₁
    exact .inl h₁
  | @closing i' c a _ _ hc hst =>
    by_cases hi : i = i'
    · subst hi
      exact .inr (.inr ⟨a, c, rfl, hc, hst⟩)
    · exact .inl ((hst.others hi).symm.trans h₁)

theorem Effect.keeps_closing (he : Effect m mv m₁ hs) {i : ClosingId} {c : Closing}
    (hc : m.closings[i]? = some c) : m₁.closings[i]? = some c ∨
      ∃ a, mv = .step (.closing i) a ∧ ClosingStep m i c a m₁ hs := by
  cases he with
  | aside hm =>
    rw [hm]
    exact .inl hc
  | finish =>
    exact .inl ((List.getElem?_append_left (List.getElem?_eq_some_iff.mp hc).1).trans hc)
  | call | ask | drop | leave => exact .inl hc
  | send _ hst =>
    rw [hst.scope]
    exact .inl hc
  | opening _ hk =>
    rw [lookupStep_scope hk]
    exact .inl hc
  | @closing i' c' a _ _ hc' hst =>
    by_cases hi : i = i'
    · subst hi
      cases hc.symm.trans hc'
      exact .inr ⟨a, rfl, hst⟩
    · exact .inl ((hst.others hi).trans hc)

theorem Effect.closed (he : Effect m mv m₁ hs) (hc : m.closed = true) : m₁.closed = true := by
  cases he with
  | aside hm =>
    rw [hm]
    exact hc
  | call | ask | finish | drop | leave => exact hc
  | send _ hst =>
    rw [hst.scope]
    exact hc
  | opening _ hk =>
    rw [lookupStep_scope hk]
    exact hc
  | closing _ hst => exact hst.closed fun _ => hc

end PeerLink.Manager
