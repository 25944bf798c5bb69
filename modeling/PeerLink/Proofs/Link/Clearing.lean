import PeerLink.Proofs.Link.Currency
import PeerLink.Proofs.Manager.Silence

namespace PeerLink.Manager

def Searches (m : Manager) (d : Endpoint) (n : Lookup) : Prop :=
  (∃ (id : Nat) (o : Opening), m.openings[id]? = some o ∧ o.destination = d ∧ o.stage = n) ∨
    ∃ (id : SendId) (s : Send), m.sends[id]? = some s ∧ s.destination = d ∧ s.stage = .linking n

def Claimed (m : Manager) (d : Endpoint) (l : LinkId) : Prop :=
  m.Searches d (.confirming l) ∨ m.Searches d (.evicting l)

def Emptied (ts : List Transition) : Prop := ∃ t ∈ ts, t.before.Clears t.move

/-- What there is in the link table after a closing has been through it. -/
structure Leftover (m : Manager) (ts : List Transition) : Prop where
  closed : Emptied ts → m.closed = true
  claimed : Emptied ts → ∀ d l, m.links.get? d = some l → m.Claimed d l

variable {m m' m₁ m₂ : Manager} {mv : Move} {hs : List Happening} {l : LinkId} {d : Endpoint}
  {n n' : Lookup} {ts : List Transition} {t : Transition}

theorem Emptied.concat (h : Emptied (ts ++ [t])) : Emptied ts ∨ t.before.Clears t.move := by
  obtain ⟨u, hu, hc⟩ := h
  obtain hu | hu := List.mem_append.mp hu
  · exact .inl ⟨u, hu, hc⟩
  · cases List.mem_singleton.mp hu
    exact .inr hc

theorem Effect.keeps_opening (he : Effect m mv m₁ hs) {i : Nat} {o : Opening}
    (ho : m.openings[i]? = some o) :
    m₁.openings[i]? = some o ∨ ∃ m₂ n, LookupStep m o.destination o.stage m₂ n ∧
      m₁.links = m₂.links ∧ m₁.openings[i]? = some { o with stage := n } := by
  cases he with
  | aside hm =>
    rw [hm]
    exact .inl ho
  | ask => exact .inl ((List.getElem?_append_left (List.getElem?_eq_some_iff.mp ho).1).trans ho)
  | call | finish | drop | leave => exact .inl ho
  | send _ hst =>
    rw [hst.scope]
    exact .inl ho
  | @opening j o' m₂ k ho' hk =>
    have ho₂ : m₂.openings[i]? = some o := by
      rw [lookupStep_scope hk]
      exact ho
    by_cases hj : i = j
    · subst hj
      cases ho.symm.trans ho'
      exact .inr ⟨m₂, k, lookupStep_cases hk, rfl, by simp [setOpening, ho₂]⟩
    · exact .inl ((List.getElem?_modify_ne _ _ (Ne.symm hj)).trans ho₂)
  | closing _ hst =>
    rw [hst.scope]
    exact .inl ho

theorem SendStep.linking {id : SendId} {s : Send} {a : Answer} (h : SendStep m id s a m₁ hs)
    (hn : s.stage = .linking n) (hf : ∀ l, n ≠ .found l) (hr : n ≠ .refused) :
    ∃ m₂ n', m.lookupStep s.destination n = some (m₂, n') ∧ m₁ = m₂.setSend id (.linking n') := by
  have hline : s.stage.line? = none := by rw [hn]; rfl
  cases h with
  | find he hk =>
    cases hn.symm.trans he
    exact ⟨_, _, hk, rfl⟩
  | found he =>
    cases hn.symm.trans he
    exact absurd rfl (hf _)
  | turnAway he =>
    cases hn.symm.trans he
    exact absurd rfl hr
  | cancel hl => cases hline.symm.trans hl
  | place hr | overflow hr => cases hline.symm.trans hr.line?
  | failConnect hu => cases hline.symm.trans (SendStage.line?_of_held? hu.held?)
  | writePart he | failWrite he => obtain he | he := he <;> cases hn.symm.trans he
  | refuse he | reject he | start he | quit he | request he | retry he | dial he | drain he
  | greet he | greetPart he | giveUp he | writeAll he => cases hn.symm.trans he

/-- A call that is finding a link is not given up. -/
theorem Effect.keeps_linking (he : Effect m mv m₁ hs) {i : SendId} {s : Send}
    (hs' : m.sends[i]? = some s) (hn : s.stage = .linking n) :
    m₁.sends[i]? = some s ∨ ∃ a, SendStep m i s a m₁ hs := by
  obtain ⟨stage, h₁, ⟨rfl, -⟩ | ⟨rfl, rfl⟩ | ⟨a, -, hst⟩⟩ := he.keeps_call hs'
  · exact .inl h₁
  · cases he with
    | aside hm =>
      rw [hm] at h₁ ⊢
      exact .inl hs'
    | drop hs₀ hst =>
      cases hs'.symm.trans hs₀
      cases hn.symm.trans hst
    | leave hs₀ _ hrest =>
      cases hs'.symm.trans hs₀
      rw [hn] at hrest
      cases hrest
  · exact .inr ⟨a, hst⟩

theorem Effect.searches (he : Effect m mv m₁ hs) (h : m.Searches d n) (hf : ∀ l, n ≠ .found l)
    (hr : n ≠ .refused) : m₁.Searches d n ∨
      ∃ m₂ n', LookupStep m d n m₂ n' ∧ m₁.links = m₂.links ∧ m₁.Searches d n' := by
  obtain ⟨i, o, ho, rfl, rfl⟩ | ⟨i, s, hs', rfl, hn⟩ := h
  · obtain ho₁ | ⟨m₂, n', hk, hl, ho₁⟩ := he.keeps_opening ho
    · exact .inl (.inl ⟨i, o, ho₁, rfl, rfl⟩)
    · exact .inr ⟨m₂, n', hk, hl, .inl ⟨i, _, ho₁, rfl, rfl⟩⟩
  · obtain h₁ | ⟨a, hst⟩ := he.keeps_linking hs' hn
    · exact .inl (.inr ⟨i, s, h₁, rfl, hn⟩)
    · obtain ⟨m₂, n', hk, rfl⟩ := hst.linking hn hf hr
      have hs₂ : m₂.sends[i]? = some s := by
        rw [lookupStep_scope hk]
        exact hs'
      exact .inr ⟨m₂, n', lookupStep_cases hk, rfl, .inr ⟨i, _, setSend_get hs₂ _, rfl, rfl⟩⟩

theorem Effect.searches_of_made (he : Effect m mv m₁ hs) (h : m.links.get? d ≠ some l)
    (h₁ : m₁.links.get? d = some l) : m₁.Searches d (.confirming l) := by
  have hmade : ∀ {e n m₂ n'}, LookupStep m e n m₂ n' → m₂.links.get? d = some l →
      e = d ∧ n' = .confirming l := fun hk hl => by
    cases hk with
    | @make hn =>
      rw [show _ = _ from Table.get?_insert hn] at hl
      split at hl
      · next hd =>
        cases hl
        exact ⟨hd.symm, rfl⟩
      · exact absurd hl h
    | evict => exact absurd (listed_of_evict hl).1 h
    | _ => exact absurd hl h
  cases he with
  | aside hm =>
    rw [hm] at h₁
    exact absurd h₁ h
  | call | ask | finish | drop | leave => exact absurd h₁ h
  | @send id s _ _ _ hs' hst =>
    cases hst with
    | find he hk =>
      obtain ⟨rfl, rfl⟩ := hmade (lookupStep_cases hk) h₁
      refine .inr ⟨id, _, setSend_get ?_ _, rfl, rfl⟩
      rw [lookupStep_scope hk]
      exact hs'
    | giveUp => exact absurd (listed_of_evict h₁).1 h
    | _ => exact absurd h₁ h
  | @opening id o m₂ k ho hk =>
    obtain ⟨rfl, rfl⟩ := hmade (lookupStep_cases hk) h₁
    refine .inl ⟨id, { o with stage := .confirming l }, ?_, rfl, rfl⟩
    have ho₂ : m₂.openings[id]? = some o := by
      rw [lookupStep_scope hk]
      exact ho
    simp [setOpening, ho₂]
  | closing _ hst =>
    cases hst with
    | clearLinks => cases h₁
    | clearObservers =>
      rw [clearObservers_scope] at h₁
      exact absurd h₁ h
    | _ => exact absurd h₁ h

theorem Effect.claimed (he : Effect m mv m₁ hs) (hc : m.closed = true)
    (h : ∀ l, m.links.get? d = some l → m.Claimed d l) (h₁ : m₁.links.get? d = some l) :
    m₁.Claimed d l := by
  by_cases hl : m.links.get? d = some l
  · obtain hn | hn := h l hl
    · obtain hn | ⟨m₂, n', hk, -, hn⟩ := he.searches hn nofun nofun
      · exact .inl hn
      · cases hk with
        | withdraw => exact .inr hn
        | confirm ho => cases hc.symm.trans ho
    · obtain hn | ⟨m₂, n', hk, hlinks, -⟩ := he.searches hn nofun nofun
      · exact .inr hn
      · cases hk with
        | evict =>
          rw [hlinks] at h₁
          exact absurd ⟨rfl, rfl⟩ (listed_of_evict h₁).2
  · exact .inl (he.searches_of_made hl h₁)

theorem Clears.links (h : m.Clears mv) (hm : m.move mv = some (m', hs)) : m'.links = {} := by
  obtain ⟨id, a, c, ls, rfl, hc, hs'⟩ := h
  obtain ⟨⟨m₁, hs₁⟩, ho, hr⟩ := move_step hm
  obtain ⟨c', hc', hst⟩ := closingStep_cases ho
  cases hc.symm.trans hc'
  rw [reap_scope hr]
  cases hst with
  | clearLinks => rfl
  | again he | swap he | cancel he | clearObservers he | collect he | await he | request he
  | retireIdle he | retireBusy he | flushPart he | flushEnd he | done he | giveUp he =>
    cases hs'.symm.trans he

theorem Leftover.new (address : Endpoint) (config : Config) (clock : Nat) :
    Leftover (new address config clock) [] := by
  constructor <;> rintro ⟨t, ht, -⟩ <;> cases ht

theorem Leftover.move (h : Leftover m ts) (hf : Flagged m) (hm : m.move mv = some (m', hs)) :
    Leftover m' (ts ++ [⟨m, mv, m', hs⟩]) := by
  have hl := move_later hm
  constructor
  · intro ht
    obtain ht | ⟨id, a, c, ls, -, hc, hst⟩ := ht.concat
    · exact hl.closed (h.closed ht)
    · exact hl.closed (hf.past id c hc (by rw [hst]; nofun))
  · intro ht d l hd
    obtain hts | hcl := ht.concat
    · obtain ⟨m₁, hs₁, he, hr | ⟨rfl, -⟩⟩ := move_effect hm
      · rw [reap_scope hr] at hd ⊢
        exact he.claimed (h.closed hts) (h.claimed hts d) hd
      · exact he.claimed (h.closed hts) (h.claimed hts d) hd
    · rw [hcl.links hm] at hd
      cases hd

theorem Searches.rests (h : m.Searches d n) (hr : m.Rests) : n.Rests := by
  obtain ⟨i, o, ho, -, rfl⟩ | ⟨i, s, hs', -, hn⟩ := h
  · exact hr.openings i o ho
  · have hrest := hr.sends i s hs'
    rw [hn] at hrest
    cases hrest

theorem Leftover.empty (h : Leftover m ts) (ht : Emptied ts) (hr : m.Rests) : m.links = {} := by
  refine Table.eq_empty fun d => Option.eq_none_iff_forall_ne_some.mpr fun l hl => ?_
  obtain hn | hn := h.claimed ht d l hl
  · exact hn.rests hr
  · exact hn.rests hr

end PeerLink.Manager
