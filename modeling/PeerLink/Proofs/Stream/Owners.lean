import PeerLink.Proofs.Manager.Writers

namespace PeerLink.Manager

inductive Owner where
  | call (id : SendId)
  | link (l : LinkId)
  | closing (id : ClosingId)
  deriving DecidableEq

/-- The writing end of a stream, and the link that it is for as long as there is one. -/
structure Holding where
  writer : Writer
  link : Option LinkId

def SendStage.holding? : SendStage → Option Holding
  | .greeting l stream unsent => some ⟨⟨stream, unsent⟩, some l⟩
  | _ => none

def ClosingStage.holding? : ClosingStage → Option Holding
  | .flushing w _ _ => some ⟨w, none⟩
  | _ => none

def holdingOf (m : Manager) : Owner → Option Holding
  | .call id => (m.sends[id]?).bind (·.stage.holding?)
  | .link l => (m.allLinks[l]?).bind fun k => k.writer.map (⟨·, some l⟩)
  | .closing id => (m.closings[id]?).bind (·.stage.holding?)

variable {m m' m₁ : Manager} {mv : Move} {hs : List Happening} {l : LinkId} {k : Link}
  {id : SendId} {s : Send} {a : Answer} {o : Owner} {x : Holding}

theorem holdingOf_link : m.holdingOf (.link l) = some x ↔
    ∃ k w, m.allLinks[l]? = some k ∧ k.writer = some w ∧ x = ⟨w, some l⟩ := by
  simp only [holdingOf, Option.bind_eq_some_iff, Option.map_eq_some_iff]
  constructor
  · rintro ⟨k, hk, w, hw, rfl⟩
    exact ⟨k, w, hk, hw, rfl⟩
  · rintro ⟨k, w, hk, hw, rfl⟩
    exact ⟨k, hk, w, hw, rfl⟩

theorem holdingOf_call (hs' : m.sends[id]? = some s) :
    m.holdingOf (.call id) = s.stage.holding? := by
  rw [holdingOf, hs']
  rfl

theorem holdingOf_closing {c : ClosingId} {y : Closing} (hc : m.closings[c]? = some y) :
    m.holdingOf (.closing c) = y.stage.holding? := by
  rw [holdingOf, hc]
  rfl

theorem holdingOf_setSend {stage : SendStage} (hs' : m.sends[id]? = some s)
    (h : (m.setSend id stage).holdingOf o = some x) :
    o = .call id ∧ stage.holding? = some x ∨ o ≠ .call id ∧ m.holdingOf o = some x := by
  cases o with
  | call j =>
    by_cases hj : j = id
    · subst hj
      rw [holdingOf_call (setSend_get hs' _)] at h
      exact .inl ⟨rfl, h⟩
    · refine .inr ⟨fun e => hj (by cases e; rfl), ?_⟩
      rwa [holdingOf, setSend_get_ne hj] at h
  | link l => exact .inr ⟨nofun, h⟩
  | closing c => exact .inr ⟨nofun, h⟩

theorem holdingOf_modifyLink {f : Link → Link} (h : (m.modifyLink l f).holdingOf o = some x) :
    (∃ k w, o = .link l ∧ m.allLinks[l]? = some k ∧ (f k).writer = some w ∧ x = ⟨w, some l⟩) ∨
      o ≠ .link l ∧ m.holdingOf o = some x := by
  cases o with
  | call j => exact .inr ⟨nofun, h⟩
  | link j =>
    obtain ⟨k₁, w, hk₁, hw, rfl⟩ := holdingOf_link.mp h
    obtain ⟨k, hk, ⟨rfl, rfl⟩ | ⟨hj, rfl⟩⟩ := getElem?_modify_cases hk₁
    · exact .inl ⟨k, w, rfl, hk, hw, rfl⟩
    · refine .inr ⟨fun e => hj (by cases e; rfl), ?_⟩
      exact holdingOf_link.mpr ⟨k₁, w, hk, hw, rfl⟩
  | closing c => exact .inr ⟨nofun, h⟩

/-- A call that changes its stage and one link. -/
theorem holdingOf_atLink {f : Link → Link} {stage : SendStage} (hs' : m.sends[id]? = some s)
    (h : (m.atLink id l f stage).holdingOf o = some x) :
    o = .call id ∧ stage.holding? = some x ∨
      (∃ k w, o = .link l ∧ m.allLinks[l]? = some k ∧ (f k).writer = some w ∧
        x = ⟨w, some l⟩) ∨
      o ≠ .call id ∧ o ≠ .link l ∧ m.holdingOf o = some x := by
  obtain h | ⟨ho, h⟩ := holdingOf_setSend (m := m.modifyLink l f) hs' h
  · exact .inl h
  · obtain h | ⟨hl, h⟩ := holdingOf_modifyLink h
    · exact .inr (.inl h)
    · exact .inr (.inr ⟨ho, hl, h⟩)

theorem holdingOf_setClosing {c : ClosingId} {y : Closing} {stage : ClosingStage}
    (hc : m.closings[c]? = some y) (h : (m.setClosing c stage).holdingOf o = some x) :
    o = .closing c ∧ stage.holding? = some x ∨ o ≠ .closing c ∧ m.holdingOf o = some x := by
  cases o with
  | call j => exact .inr ⟨nofun, h⟩
  | link l => exact .inr ⟨nofun, h⟩
  | closing j =>
    by_cases hj : j = c
    · subst hj
      rw [holdingOf_closing (setClosing_get hc _)] at h
      exact .inl ⟨rfl, h⟩
    · refine .inr ⟨fun e => hj (by cases e; rfl), ?_⟩
      rwa [holdingOf, setClosing_get_ne hj] at h

theorem holdingOf_lookup {d : Endpoint} {n n' : Lookup} (hk : LookupStep m d n m₁ n')
    (h : m₁.holdingOf o = some x) : m.holdingOf o = some x := by
  cases hk with
  | make =>
    cases o with
    | call j => exact h
    | closing c => exact h
    | link j =>
      obtain ⟨k₁, w, hk₁, hw, rfl⟩ := holdingOf_link.mp h
      obtain hk | ⟨-, rfl⟩ := getElem?_concat_cases hk₁
      · exact holdingOf_link.mpr ⟨k₁, w, hk, hw, rfl⟩
      · cases hw
  | evict =>
    rw [evict_scope] at h
    exact h
  | _ => exact h

theorem holdingOf_reap {p : Manager × List Happening} (hr : reap p = (m', hs))
    (h : m'.holdingOf o = some x) : p.1.holdingOf o = some x := by
  cases o with
  | call j =>
    rw [reap_scope hr] at h
    exact h
  | closing c =>
    rw [reap_scope hr] at h
    exact h
  | link j =>
    obtain ⟨k₁, w, hk₁, hw, rfl⟩ := holdingOf_link.mp h
    obtain ⟨k, hk, ⟨rfl, -⟩ | ⟨-, rfl⟩⟩ := reap_link hr hk₁
    · exact holdingOf_link.mpr ⟨_, w, hk, hw, rfl⟩
    · cases hw

end PeerLink.Manager
