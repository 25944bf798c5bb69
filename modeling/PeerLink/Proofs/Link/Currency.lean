import PeerLink.Proofs.Link.Retirement

namespace PeerLink.Manager

def Lookup.evicts? : Lookup → Option LinkId
  | .evicting l => some l
  | _ => none

/-- The link that a call takes out of the table with its next step. -/
def SendStage.evicts? : SendStage → Option LinkId
  | .linking lookup => lookup.evicts?
  | .failing l _ => some l
  | _ => none

def ClosingStage.shelved : ClosingStage → List LinkId
  | .retiring ls => ls
  | .queued l ls => l :: ls
  | .flushing _ _ ls => ls
  | _ => []

/-- The link that a move takes out of the table, if it is there. -/
def evicts? (m : Manager) : Move → Option LinkId
  | .step (.send id) _ => (m.sends[id]?).bind (·.stage.evicts?)
  | .step (.opening id) _ => (m.openings[id]?).bind (·.stage.evicts?)
  | _ => none

def Clears (m : Manager) (mv : Move) : Prop :=
  ∃ (id : ClosingId) (a : Answer) (c : Closing) (ls : List LinkId),
    mv = .step (.closing id) a ∧ m.closings[id]? = some c ∧ c.stage = .clearingLinks ls

variable {m m' m₁ m₂ : Manager} {mv : Move} {hs : List Happening} {l i : LinkId} {k k₁ : Link}
  {id j : SendId} {s s₁ : Send} {a : Answer} {d d' : Endpoint} {n n' : Lookup}

theorem evict_listed (h : m.links.get? d = some l) :
    (m.evict d' i).links.get? d = some l ∨ i = l := by
  rw [evict]
  split
  · next he =>
    by_cases hd : d = d'
    · subst hd
      exact .inr (Option.some.inj (he.symm.trans h))
    · exact .inl (Table.get?_erase.trans ((if_neg hd).trans h))
  · exact .inl h

theorem listed_of_evict (h : (m.evict d' i).links.get? d = some l) :
    m.links.get? d = some l ∧ ¬(d = d' ∧ i = l) := by
  rw [evict] at h
  split at h
  · next he =>
    rw [Table.get?_erase] at h
    split at h
    · cases h
    · next hd => exact ⟨h, fun he => hd he.1⟩
  · next he =>
    refine ⟨h, ?_⟩
    rintro ⟨rfl, rfl⟩
    exact he h

theorem LookupStep.listed (hk : LookupStep m d' n m₂ n') (h : m.links.get? d = some l) :
    m₂.links.get? d = some l ∨ n.evicts? = some l := by
  cases hk with
  | make hn =>
    refine .inl ((Table.get?_insert hn).trans ((if_neg ?_).trans h))
    rintro rfl
    cases hn.symm.trans h
  | evict => exact (evict_listed h).imp id (congrArg some)
  | _ => exact .inl h

theorem LookupStep.unlisted (hk : LookupStep m d' n m₂ n') (h : m₂.links.get? d = some l) :
    m.links.get? d = some l ∨ m.allLinks[l]? = none := by
  cases hk with
  | make hn =>
    rw [show _ = _ from Table.get?_insert hn] at h
    split at h
    · cases h
      exact .inr (List.getElem?_eq_none (Nat.le_refl _))
    · exact .inl h
  | evict => exact .inl (listed_of_evict h).1
  | _ => exact .inl h

/-- A link stays in the table until a move takes just that one out, or all. -/
theorem Effect.stays_listed (he : Effect m mv m₁ hs) (h : m.links.get? d = some l) :
    m₁.links.get? d = some l ∨ m.evicts? mv = some l ∨ m.Clears mv := by
  cases he with
  | aside hm =>
    rw [hm]
    exact .inl h
  | call | ask | finish | drop | leave => exact .inl h
  | @send id s _ _ _ hs' hst =>
    cases hst with
    | find he hk =>
      refine ((lookupStep_cases hk).listed h).imp (fun h => h) fun hn => .inl ?_
      simpa [evicts?, hs', he, SendStage.evicts?] using hn
    | giveUp he =>
      refine (evict_listed h).imp (fun h => h) fun hl => .inl ?_
      simp [evicts?, hs', he, SendStage.evicts?, hl]
    | _ => exact .inl h
  | @opening i o _ _ ho hk =>
    refine ((lookupStep_cases hk).listed h).imp (fun h => h) fun hn => .inl ?_
    simpa [evicts?, ho] using hn
  | @closing i c a _ _ hc hst =>
    cases hst with
    | clearLinks he => exact .inr (.inr ⟨i, .none, c, _, rfl, hc, he⟩)
    | clearObservers =>
      rw [clearObservers_scope]
      exact .inl h
    | _ => exact .inl h

theorem Effect.listed (he : Effect m mv m₁ hs) (h : m₁.links.get? d = some l) :
    m.links.get? d = some l ∨ m.allLinks[l]? = none := by
  cases he with
  | aside hm =>
    rw [hm] at h
    exact .inl h
  | call | ask | finish | drop | leave => exact .inl h
  | send _ hst =>
    cases hst with
    | find _ hk => exact (lookupStep_cases hk).unlisted h
    | giveUp => exact .inl (listed_of_evict h).1
    | _ => exact .inl h
  | opening _ hk => exact (lookupStep_cases hk).unlisted h
  | closing _ hst =>
    cases hst with
    | clearLinks => cases h
    | clearObservers =>
      rw [clearObservers_scope] at h
      exact .inl h
    | _ => exact .inl h

/-- A call whose connect has failed takes its link out of the table before it does anything
else. -/
theorem Effect.failing (he : Effect m mv m₁ hs) {error : IoError} (hs' : m.sends[j]? = some s)
    (hst : s.stage = .failing l error) :
    m₁.sends[j]? = some s ∨ m₁.links.get? s.destination ≠ some l := by
  obtain ⟨stage, h₁, ⟨rfl, -⟩ | ⟨rfl, rfl⟩ | ⟨a, rfl, h⟩⟩ := he.keeps_call hs'
  · exact .inl h₁
  · cases he with
    | aside hm =>
      rw [hm]
      exact .inl hs'
    | drop hs₀ h =>
      cases hs'.symm.trans hs₀
      cases hst.symm.trans h
    | leave hs₀ _ hr =>
      cases hs'.symm.trans hs₀
      rw [hst] at hr
      exact hr.elim
  · right
    cases h with
    | giveUp h =>
      cases hst.symm.trans h
      exact fun hl => (listed_of_evict hl).2 ⟨rfl, rfl⟩
    | cancel _ hr =>
      rw [hst] at hr
      exact hr.elim
    | place hr | overflow hr =>
      cases hr with
      | atOnce h | greeted h | drained h => cases hst.symm.trans h
    | failConnect hu =>
      cases hu with
      | timedOut h | refused h | tooLong h | broken h => cases hst.symm.trans h
    | writePart h | failWrite h => obtain h | h := h <;> cases hst.symm.trans h
    | _ h => cases hst.symm.trans h

theorem ClosingStep.shelved {id : ClosingId} {c c₁ : Closing} (h : ClosingStep m id c a m₁ hs)
    (hc : m.closings[id]? = some c) (h₁ : m₁.closings[id]? = some c₁)
    (hl : l ∈ c₁.stage.shelved) : m₁.links = {} ∨ l ∈ c.stage.shelved ∧ m₁.links = m.links := by
  cases h with
  | clearLinks => exact .inl rfl
  | clearObservers _ hn =>
    rw [clearObservers_scope] at h₁
    cases (setClosing_get hc _).symm.trans h₁
    obtain ⟨-, rfl⟩ | ⟨-, rfl⟩ := hn <;> cases hl
  | request hs =>
    cases (setClosing_get hc _).symm.trans h₁
    rw [hs]
    exact .inr ⟨hl, rfl⟩
  | retireIdle hs | retireBusy hs =>
    cases (setClosing_get hc _).symm.trans h₁
    rw [hs]
    exact .inr ⟨List.mem_cons_of_mem _ hl, rfl⟩
  | flushPart hs | flushEnd hs =>
    cases (setClosing_get hc _).symm.trans h₁
    rw [hs]
    exact .inr ⟨hl, rfl⟩
  | _ =>
    cases (setClosing_get hc _).symm.trans h₁
    cases hl

theorem ClosingStage.links_of_shelved {stage : ClosingStage} (h : l ∈ stage.shelved) :
    l ∈ stage.links := by
  cases stage <;> first | exact h | cases h

structure Current (m : Manager) : Prop where
  retired : ∀ d l (k : Link), m.links.get? d = some l → m.allLinks[l]? = some k →
    k.retired = true → ∃ (id : SendId) (s : Send) (error : IoError),
      m.sends[id]? = some s ∧ s.stage = .failing l error
  shelved : ∀ (id : ClosingId) c l d, m.closings[id]? = some c → l ∈ c.stage.shelved →
    m.links.get? d ≠ some l
  sends : ∀ (id : SendId) s l, m.sends[id]? = some s → s.stage = .linking (.evicting l) →
    m.closed = true
  openings : ∀ (id : Nat) o l, m.openings[id]? = some o → o.stage = .evicting l → m.closed = true
  table : m.closed = false → ∀ (l : LinkId) (k : Link), m.allLinks[l]? = some k →
    k.retired = false → m.links.get? k.destination = some l

theorem Current.new (address : Endpoint) (config : Config) (clock : Nat) :
    Current (new address config clock) := by
  constructor <;> intros <;> simp_all [Manager.new, Table.get?]

theorem LookupStep.evicting (h : LookupStep m d n m₂ n') (hn : n' = .evicting l) :
    m.closed = true := by
  cases h <;> first | assumption | cases hn

theorem SendStep.evicting (hst : SendStep m id s a m₁ hs) (hs' : m.sends[id]? = some s)
    (h₁ : m₁.sends[id]? = some s₁) (hl : s₁.stage = .linking (.evicting l)) : m.closed = true := by
  cases hst with
  | find _ hk =>
    rw [lookupStep_scope hk] at h₁
    cases (setSend_get hs' _).symm.trans h₁
    exact (lookupStep_cases hk).evicting (SendStage.linking.inj hl)
  | giveUp =>
    rw [evict_scope] at h₁
    cases (setSend_get hs' _).symm.trans h₁
    cases hl
  | writePart h =>
    cases hs'.symm.trans h₁
    obtain h | h := h <;> cases hl.symm.trans h
  | _ =>
    cases (setSend_get hs' _).symm.trans h₁
    cases hl

theorem Current.retired_of_evicts (h : Current m) (hr : Retiring m) (ho : m.closed = false)
    (hk : m.allLinks[l]? = some k) (hv : m.evicts? mv = some l) : k.retired = true := by
  have hn : m.closed ≠ true := by simp [ho]
  cases mv with
  | step task a =>
    cases task with
    | send id =>
      obtain ⟨s, hs', hl⟩ := Option.bind_eq_some_iff.mp hv
      cases hst : s.stage with
      | linking n =>
        rw [hst] at hl
        cases n with
        | evicting i => exact absurd (h.sends id s i hs' hst) hn
        | _ => cases hl
      | failing i error =>
        rw [hst] at hl
        cases hl
        exact hr.failing id s _ error k hs' hst hk
      | _ =>
        rw [hst] at hl
        cases hl
    | opening id =>
      obtain ⟨o, ho', hl⟩ := Option.bind_eq_some_iff.mp hv
      cases hst : o.stage with
      | evicting i => exact absurd (h.openings id o i ho' hst) hn
      | _ =>
        rw [hst] at hl
        cases hl
    | _ => cases hv
  | _ => cases hv

theorem Current.effect_retired (h : Current m) (hm : Sound m) (he : Effect m mv m₁ hs)
    (hl : m₁.links.get? d = some l) (hk₁ : m₁.allLinks[l]? = some k₁) (hr : k₁.retired = true) :
    ∃ (id : SendId) (s : Send) (error : IoError),
      m₁.sends[id]? = some s ∧ s.stage = .failing l error := by
  obtain hl₀ | hn := he.listed hl
  · have hg : m.Goes l d := hm.directed.table d l (Table.mem_of_get? hl₀)
    obtain ⟨k, hk, -⟩ := id hg
    -- A link that was retired before is with a call that has not taken it out yet.
    have hold : k.retired = true → ∃ (id : SendId) (s : Send) (error : IoError),
        m₁.sends[id]? = some s ∧ s.stage = .failing l error := fun hr => by
      obtain ⟨id, s, error, hs', hst⟩ := h.retired d l k hl₀ hk hr
      refine ⟨id, s, error, (he.failing hs' hst).resolve_right fun hn => hn ?_, hst⟩
      have hd : s.destination = d := (hm.directed.sends id s l hs' (by rw [hst]; rfl)).unique hg
      rw [hd, hl]
    obtain ⟨k₁', hk₁', hb⟩ := he.becomes hk
    cases hk₁.symm.trans hk₁'
    cases hb with
    | kept hret | connected hret => exact hold (hret ▸ hr)
    | failed _ _ _ _ h₁ hst => exact ⟨_, _, _, h₁, hst⟩
    | @retired _ c _ _ _ hc hst =>
      have hmem : l ∈ c.stage.shelved := by
        rw [hst]
        exact List.mem_cons_self
      exact absurd hl₀ (h.shelved _ c l d hc hmem)
  · obtain ⟨-, hret, -⟩ := he.made hn hk₁
    cases hr.symm.trans hret

theorem Current.effect (h : Current m) (hret : Retiring m) (hm : Sound m) (hf : Flagged m)
    (he : Effect m mv m₁ hs) : Current m₁ := by
  refine ⟨fun d l k₁ hl hk₁ hr => h.effect_retired hm he hl hk₁ hr, fun i c₁ l d hc₁ hl ht => ?_,
    fun j s₁ l h₁ hst => ?_, fun i o l ho hst => ?_, fun ho l k₁ hk₁ hr => ?_⟩
  · have hlisted := he.listed ht
    have hstay : ∀ c : Closing, m.closings[i]? = some c → l ∈ c.stage.shelved → False :=
      fun c hc hl => by
        obtain ht | hn := hlisted
        · exact h.shelved i c l d hc hl ht
        · obtain ⟨d', k, hk, -⟩ :=
            hm.directed.closings i c l hc (ClosingStage.links_of_shelved hl)
          cases hn.symm.trans hk
    obtain hc | hst | ⟨a, c, rfl, hc, hst⟩ := he.closings hc₁
    · exact hstay c₁ hc hl
    · rw [hst] at hl
      cases hl
    · obtain hn | ⟨hl, -⟩ := hst.shelved hc hc₁ hl
      · rw [hn] at ht
        cases ht
      · exact hstay c hc hl
  · obtain ⟨h₁, -⟩ | hst' | hst' | ⟨a, s, rfl, hs', hstep⟩ := he.sends h₁
    · exact he.closed (h.sends j s₁ l h₁ hst)
    · cases hst.symm.trans hst'
    · cases hst.symm.trans hst'
    · exact he.closed (hstep.evicting hs' h₁ hst)
  · obtain ho | hst' | ⟨o', m₂, ho', hk⟩ := he.openings ho
    · exact he.closed (h.openings i o l ho hst)
    · cases hst.symm.trans hst'
    · exact he.closed (hk.evicting hst)
  · have ho₀ : m.closed = false := Bool.eq_false_iff.mpr fun hc => by
      cases ho.symm.trans (he.closed hc)
    cases hk : m.allLinks[l]? with
    | none => exact (he.made hk hk₁).2.2
    | some k =>
      have hkr : k.retired = false := Bool.eq_false_iff.mpr fun hkr => by
        obtain ⟨k₁', hk₁', hr'⟩ := he.stays_retired hk hkr
        cases hk₁.symm.trans hk₁'
        cases hr.symm.trans hr'
      have hd : k.destination = k₁.destination :=
        (Goes.effect ⟨k, hk, rfl⟩ he).unique ⟨k₁, hk₁, rfl⟩
      obtain ht | hv | ⟨i, a, c, ls, rfl, hc, hst⟩ := he.stays_listed (h.table ho₀ l k hk hkr)
      · rwa [hd] at ht
      · cases hkr.symm.trans (h.retired_of_evicts hret ho₀ hk hv)
      · cases ho₀.symm.trans (hf.past i c hc (by rw [hst]; nofun))

theorem Current.reap {o : Manager × List Happening} (h : Current o.1) (hr : reap o = (m', hs)) :
    Current m' := by
  have hsc := reap_scope hr
  refine ⟨fun d l k₁ hl hk₁ hret => ?_, ?_, ?_, ?_, fun ho l k₁ hk₁ hret => ?_⟩
  · rw [hsc] at hl
    rw [hsc]
    obtain ⟨k, hk, ⟨rfl, -⟩ | ⟨-, rfl⟩⟩ := reap_link hr hk₁
    · exact h.retired d l k₁ hl hk hret
    · exact h.retired d l k hl hk hret
  · rw [hsc]
    exact h.shelved
  · rw [hsc]
    exact h.sends
  · rw [hsc]
    exact h.openings
  · rw [hsc] at ho ⊢
    obtain ⟨k, hk, ⟨rfl, -⟩ | ⟨-, rfl⟩⟩ := reap_link hr hk₁
    · exact h.table ho l k₁ hk hret
    · exact h.table ho l k hk hret

end PeerLink.Manager
