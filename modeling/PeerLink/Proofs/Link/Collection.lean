import PeerLink.Proofs.Link.Clearing
import PeerLink.Proofs.Link.Isolation

namespace PeerLink.Manager

def collectedBetween : ClosingStage → ClosingStage → List LinkId
  | .collecting, .clearingLinks ls => ls
  | _, _ => []

namespace Transition

variable (t : Transition)

def collected (c : ClosingId) : List LinkId :=
  match t.before.closings[c]?, t.after.closings[c]? with
  | some x, some y => collectedBetween x.stage y.stage
  | _, _ => []

def Retracts (l : LinkId) : Prop :=
  (∃ (id : SendId) (a : Answer) (s : Send), t.move = .step (.send id) a ∧
    t.before.sends[id]? = some s ∧ s.stage = .linking (.evicting l)) ∨
  ∃ (id : Nat) (a : Answer) (o : Opening), t.move = .step (.opening id) a ∧
    t.before.openings[id]? = some o ∧ o.stage = .evicting l

def Discards (l : LinkId) : Prop :=
  ∃ (id : SendId) (a : Answer) (s : Send) (error : IoError), t.move = .step (.send id) a ∧
    t.before.sends[id]? = some s ∧ s.stage = .failing l error

end Transition

def ClosingStage.Ahead : ClosingStage → Prop
  | .cancelling => True
  | .clearingObservers => True
  | .collecting => True
  | _ => False

/-- A link is taken out of the table by a call that looks at the mark again, before the closing has
looked into the table. -/
def Missed (ts : List Transition) (c : ClosingId) (l : LinkId) : Prop :=
  ∃ t ∈ ts, t.Retracts l ∧ ∃ y, t.before.closings[c]? = some y ∧ y.stage.Ahead

def Discarded (ts : List Transition) (l : LinkId) : Prop := ∃ t ∈ ts, t.Discards l

def Collected (ts : List Transition) (c : ClosingId) (l : LinkId) : Prop :=
  ∃ t ∈ ts, l ∈ t.collected c

def Retired (m : Manager) (l : LinkId) : Prop :=
  ∃ k : Link, m.allLinks[l]? = some k ∧ k.retired = true

def Lone (m : Manager) (c : ClosingId) : Prop :=
  ∀ (i : ClosingId) y, m.closings[i]? = some y → i ≠ c →
    y.stage = .swapping ∨ ∃ time, y.stage = .finished time

structure Chased (m : Manager) (ts : List Transition) (c : ClosingId) (l : LinkId)
    (stage : ClosingStage) : Prop where
  ahead : stage.Ahead → (∃ d, m.links.get? d = some l) ∨ Discarded ts l
  past : ¬stage.Ahead → (Collected ts c l ∨ Discarded ts l) ∧ (l ∈ stage.links ∨ m.Retired l)
  gone : Discarded ts l → m.Retired l

/-- A closing by `close` is under way, and a link that was in the table is before or behind it. -/
def Pursued (m : Manager) (ts : List Transition) (c : ClosingId) (l : LinkId) : Prop :=
  ∃ y, m.closings[c]? = some y ∧ y.ending = .close ∧ y.stage ≠ .swapping ∧
    Chased m ts c l y.stage

variable {m m' m₁ m₂ : Manager} {mv : Move} {hs hs₁ : List Happening} {l : LinkId} {d : Endpoint}
  {n : Lookup} {ts : List Transition} {t : Transition} {c : ClosingId} {y : Closing} {a : Answer}

theorem Discarded.append (h : Discarded ts l) : Discarded (ts ++ [t]) l := by
  obtain ⟨u, hu, hd⟩ := h
  exact ⟨u, List.mem_append_left _ hu, hd⟩

theorem Collected.append (h : Collected ts c l) : Collected (ts ++ [t]) c l := by
  obtain ⟨u, hu, hd⟩ := h
  exact ⟨u, List.mem_append_left _ hu, hd⟩

theorem Missed.append (h : Missed ts c l) : Missed (ts ++ [t]) c l := by
  obtain ⟨u, hu, hd⟩ := h
  exact ⟨u, List.mem_append_left _ hu, hd⟩

theorem Discarded.concat (h : Discarded (ts ++ [t]) l) : Discarded ts l ∨ t.Discards l := by
  obtain ⟨u, hu, hd⟩ := h
  obtain hu | hu := List.mem_append.mp hu
  · exact .inl ⟨u, hu, hd⟩
  · cases List.mem_singleton.mp hu
    exact .inr hd

theorem Transition.Discards.retired (h : t.Discards l) (hm : Tabled t.before) :
    t.before.Retired l := by
  obtain ⟨id, a, s, error, -, hs, hst⟩ := h
  obtain ⟨k, hk, -⟩ := hm.sound.directed.sends id s l hs (by rw [hst]; rfl)
  exact ⟨k, hk, hm.retiring.failing id s l error k hs hst hk⟩

theorem evicts?_cases (h : m.evicts? mv = some l) :
    (Transition.mk m mv m' hs).Retracts l ∨ (Transition.mk m mv m' hs).Discards l := by
  cases mv with
  | step task a =>
    cases task with
    | send id =>
      obtain ⟨s, hs', hl⟩ := Option.bind_eq_some_iff.mp h
      cases hst : s.stage with
      | linking n =>
        rw [hst] at hl
        cases n with
        | evicting i =>
          cases hl
          exact .inl (.inl ⟨id, a, s, rfl, hs', hst⟩)
        | _ => cases hl
      | failing i error =>
        rw [hst] at hl
        cases hl
        exact .inr ⟨id, a, s, error, rfl, hs', hst⟩
      | _ =>
        rw [hst] at hl
        cases hl
    | opening id =>
      obtain ⟨o, ho, hl⟩ := Option.bind_eq_some_iff.mp h
      cases hst : o.stage with
      | evicting i =>
        rw [hst] at hl
        cases hl
        exact .inl (.inr ⟨id, a, o, rfl, ho, hst⟩)
      | _ =>
        rw [hst] at hl
        cases hl
    | _ => cases h
  | _ => cases h

theorem Lone.move (h : Lone m c) (hc : m.closed = true) (hm : m.move mv = some (m', hs)) :
    Lone m' c := by
  intro i y' hy' hi
  obtain hy | hs | ⟨a, m₁, hs₁, y, rfl, hy, hst, hp⟩ := move_closing hm hy'
  · exact h i y' hy hi
  · exact .inl hs
  · have hidle := h i y hy hi
    rw [reap_scope hp] at hy'
    cases hst with
    | again =>
      cases (setClosing_get hy _).symm.trans hy'
      exact .inr ⟨_, rfl⟩
    | swap _ ho => cases hc.symm.trans ho
    | cancel he | clearObservers he | collect he | clearLinks he | await he | request he
    | retireIdle he | retireBusy he | flushPart he | flushEnd he | done he | giveUp he =>
      rw [he] at hidle
      obtain hn | ⟨_, hn⟩ := hidle <;> cases hn

theorem ClosingStep.chased (hst : ClosingStep m c y a m₁ hs) (hy : m.closings[c]? = some y)
    (he : y.ending = .close) (hn : y.stage ≠ .swapping) (h : Chased m ts c l y.stage)
    (hkeep : m.Retired l → m₁.Retired l) (ht : t.before = m)
    (ht' : t.after.closings = m₁.closings) (hd : ¬t.Discards l) :
    ∃ stage, m₁.closings[c]? = some { y with stage } ∧ stage ≠ .swapping ∧
      Chased m₁ (ts ++ [t]) c l stage := by
  have hgone : Discarded (ts ++ [t]) l → m₁.Retired l := fun hg =>
    hkeep (h.gone (hg.concat.resolve_right hd))
  -- before the table is looked into, the link is in it or done with
  have hahead : ∀ {stage : ClosingStage}, y.stage.Ahead → stage.Ahead → m₁.links = m.links →
      Chased m₁ (ts ++ [t]) c l stage := fun hy hs hl =>
    ⟨fun _ => (h.ahead hy).imp (fun ⟨d, hd⟩ => ⟨d, hl ▸ hd⟩) Discarded.append,
      fun hn => absurd hs hn, hgone⟩
  -- behind it, the closing has it on its list or has retired it
  have hpast : ∀ {stage : ClosingStage}, ¬y.stage.Ahead → ¬stage.Ahead →
      (l ∈ y.stage.links → l ∈ stage.links ∨ m₁.Retired l) → Chased m₁ (ts ++ [t]) c l stage := by
    intro stage hy hs hl
    obtain ⟨hc, hr⟩ := h.past hy
    exact ⟨fun ha => absurd ha hs,
      fun _ => ⟨hc.imp Collected.append Discarded.append, hr.elim hl fun hr => .inr (hkeep hr)⟩,
      hgone⟩
  cases hst with
  | again hs | swap hs => exact absurd hs hn
  | cancel hs =>
    refine ⟨_, setClosing_get hy _, nofun, hahead ?_ trivial rfl⟩
    rw [hs]
    trivial
  | clearObservers hs hnext =>
    obtain ⟨-, rfl⟩ | ⟨hdrop, -⟩ := hnext
    · refine ⟨.collecting, ?_, nofun, hahead ?_ trivial ?_⟩
      · rw [clearObservers_scope]
        exact setClosing_get hy _
      · rw [hs]
        trivial
      · rw [clearObservers_scope]
        rfl
    · cases he.symm.trans hdrop
  | collect hs =>
    have hget := setClosing_get hy (.clearingLinks m.links.values)
    refine ⟨_, hget, nofun, ⟨nofun, fun _ => ?_, hgone⟩⟩
    obtain ⟨d, hl⟩ | hg := h.ahead (by rw [hs]; trivial)
    · have hmem : l ∈ m.links.values := List.mem_map.mpr ⟨_, Table.mem_of_get? hl, rfl⟩
      refine ⟨.inl ⟨t, List.mem_concat_self, ?_⟩, .inl hmem⟩
      rw [Transition.collected, ht, ht', hy, hget]
      simp only [hs]
      exact hmem
    · exact ⟨.inr hg.append, .inr (hkeep (h.gone hg))⟩
  | clearLinks hs hnext =>
    obtain ⟨-, rfl⟩ | ⟨hdrop, -⟩ := hnext
    · refine ⟨_, setClosing_get hy _, nofun, hpast ?_ not_false fun hl => ?_⟩
      · rw [hs]
        exact not_false
      · rw [hs] at hl
        exact .inl hl
    · cases he.symm.trans hdrop
  | await hs =>
    refine ⟨_, setClosing_get hy _, nofun, hpast ?_ not_false fun hl => ?_⟩
    · rw [hs]
      exact not_false
    · rw [hs] at hl
      cases hl
  | request hs | flushPart hs | flushEnd hs =>
    refine ⟨_, setClosing_get hy _, nofun, hpast ?_ not_false fun hl => ?_⟩
    · rw [hs]
      exact not_false
    · rw [hs] at hl
      exact .inl hl
  | retireIdle hs hk | retireBusy hs hk =>
    refine ⟨_, setClosing_get hy _, nofun, hpast ?_ not_false fun hl => ?_⟩
    · rw [hs]
      exact not_false
    · rw [hs] at hl
      obtain rfl | hl := List.mem_cons.mp hl
      · exact .inr ⟨_, modifyLink_get hk _, (leave_keeps _ _).2⟩
      · exact .inl hl
  | done hs | giveUp hs =>
    refine ⟨_, setClosing_get hy _, nofun, hpast ?_ not_false fun hl => ?_⟩
    · rw [hs]
      exact not_false
    · rw [hs] at hl
      cases hl

theorem Chased.reap {stage : ClosingStage} (h : Chased m₁ ts c l stage)
    (hr : reap (m₁, hs₁) = (m', hs) ∨ m₁ = m' ∧ hs₁ = hs) : Chased m' ts c l stage := by
  obtain hr | ⟨rfl, -⟩ := hr
  · have hret : m₁.Retired l → m'.Retired l := fun ⟨k, hk, hk'⟩ => reap_stays_retired hr hk hk'
    refine ⟨fun ha => ?_, fun hn => (h.past hn).imp_right fun h => h.imp_right hret,
      fun hg => hret (h.gone hg)⟩
    rw [reap_scope hr]
    exact h.ahead ha
  · exact h

/-- A link is pursued until it is retired, or a call that comes too late takes it away. -/
theorem Pursued.move (h : Pursued m ts c l) (ht : Tabled m) (hlone : Lone m c)
    (hm : m.move mv = some (m', hs)) :
    Missed (ts ++ [⟨m, mv, m', hs⟩]) c l ∨ Pursued m' (ts ++ [⟨m, mv, m', hs⟩]) c l := by
  obtain ⟨y, hy, he, hn, hch⟩ := h
  obtain ⟨m₁, hs₁, heff, hr⟩ := move_effect hm
  have hclos := closings_of_reap hr
  have hret : m.Retired l → m₁.Retired l := fun ⟨k, hk, hk'⟩ => heff.stays_retired hk hk'
  have hdisc : (Transition.mk m mv m' hs).Discards l → m₁.Retired l :=
    fun hd => hret (hd.retired ht)
  obtain hy₁ | ⟨a, rfl, hst⟩ := heff.keeps_closing hy
  · have hgone : Discarded (ts ++ [⟨m, mv, m', hs⟩]) l → m₁.Retired l := fun hg =>
      hg.concat.elim (fun hg => hret (hch.gone hg)) hdisc
    by_cases ha : y.stage.Ahead
    · have hnext : ((∃ d, m₁.links.get? d = some l) ∨ Discarded (ts ++ [⟨m, mv, m', hs⟩]) l) →
          Pursued m' (ts ++ [⟨m, mv, m', hs⟩]) c l := fun hl =>
        ⟨y, hclos ▸ hy₁, he, hn,
          Chased.reap ⟨fun _ => hl, fun hna => absurd ha hna, hgone⟩ hr⟩
      obtain ⟨d, hl⟩ | hg := hch.ahead ha
      · obtain hl₁ | hv | ⟨i, b, x, ls, -, hx, hxs⟩ := heff.stays_listed hl
        · exact .inr (hnext (.inl ⟨d, hl₁⟩))
        · have hcases : (Transition.mk m mv m' hs).Retracts l ∨
              (Transition.mk m mv m' hs).Discards l := evicts?_cases hv
          obtain hv | hv := hcases
          · exact .inl ⟨_, List.mem_concat_self, hv, y, hy, ha⟩
          · exact .inr (hnext (.inr ⟨_, List.mem_concat_self, hv⟩))
        · by_cases hi : i = c
          · subst hi
            cases hy.symm.trans hx
            rw [hxs] at ha
            exact ha.elim
          · obtain hs | ⟨time, hs⟩ := hlone i x hx hi <;> cases hxs.symm.trans hs
      · exact .inr (hnext (.inr hg.append))
    · obtain ⟨hc, hl⟩ := hch.past ha
      refine .inr ⟨y, hclos ▸ hy₁, he, hn, Chased.reap ⟨fun h => absurd h ha, fun _ =>
        ⟨hc.imp Collected.append Discarded.append, hl.imp_right hret⟩, hgone⟩ hr⟩
  · have hnd : ¬(Transition.mk m (.step (.closing c) a) m' hs).Discards l := by
      rintro ⟨id, b, s, error, hmv, -⟩
      cases hmv
    obtain ⟨stage, hy₁, hns, hch₁⟩ :=
      hst.chased (t := ⟨m, .step (.closing c) a, m', hs⟩) hy he hn hch hret rfl hclos hnd
    exact .inr ⟨{ y with stage }, hclos ▸ hy₁, he, hns, hch₁.reap hr⟩

theorem Pursued.retired (h : Pursued m ts c l) {time : Nat}
    (hf : m.closings[c]? = some { ending := .close, stage := .finished time }) :
    (Collected ts c l ∨ Discarded ts l) ∧ m.Retired l := by
  obtain ⟨y, hy, -, -, hch⟩ := h
  cases hf.symm.trans hy
  exact (hch.past not_false).imp_right fun h => h.resolve_left List.not_mem_nil

theorem Pursued.refersTo (h : Pursued m ts c l) (hr : ¬m.Retired l) : m.refersTo l = true := by
  obtain ⟨y, hy, -, -, hch⟩ := h
  by_cases ha : y.stage.Ahead
  · obtain ⟨d, hl⟩ | hg := hch.ahead ha
    · exact refersTo_of_table hl
    · exact absurd (hch.gone hg) hr
  · refine refersTo_iff.mpr (.inr (.inr (.inr ⟨c, y, hy, ?_⟩)))
    exact (hch.past ha).2.resolve_right hr

/-- No call to a destination has looked at the mark and is going to look again, with a link in
hand or before it has one. -/
structure Unsought (m : Manager) (d : Endpoint) (l : LinkId) : Prop where
  entering : ¬m.Searches d .entering
  confirming : ¬m.Searches d (.confirming l)
  evicting : ¬m.Searches d (.evicting l)

/-- A call at some stage of finding a link has been there before, has just begun or comes from
another stage. -/
theorem Effect.searched (he : Effect m mv m₁ hs) (h : m₁.Searches d n) : m.Searches d n ∨
    n = .checking ∨ ∃ n' m₂, m.Searches d n' ∧ LookupStep m d n' m₂ n := by
  obtain ⟨i, o, ho, rfl, rfl⟩ | ⟨i, s₁, h₁, rfl, hn⟩ := h
  · cases he with
    | aside hm =>
      rw [hm] at ho
      exact .inl (.inl ⟨i, o, ho, rfl, rfl⟩)
    | ask =>
      obtain ho | ⟨-, rfl⟩ := getElem?_concat_cases ho
      · exact .inl (.inl ⟨i, o, ho, rfl, rfl⟩)
      · exact .inr (.inl rfl)
    | call | finish | drop | leave => exact .inl (.inl ⟨i, o, ho, rfl, rfl⟩)
    | send _ hst =>
      rw [hst.scope] at ho
      exact .inl (.inl ⟨i, o, ho, rfl, rfl⟩)
    | @opening j o' m₂ k ho' hk =>
      obtain ⟨o₀, ho₀, ⟨rfl, rfl⟩ | ⟨-, rfl⟩⟩ := getElem?_modify_cases ho
      · rw [lookupStep_scope hk] at ho₀
        cases ho'.symm.trans ho₀
        exact .inr (.inr ⟨_, m₂, .inl ⟨i, o', ho', rfl, rfl⟩, lookupStep_cases hk⟩)
      · rw [lookupStep_scope hk] at ho₀
        exact .inl (.inl ⟨i, _, ho₀, rfl, rfl⟩)
    | closing _ hc =>
      rw [hc.scope] at ho
      exact .inl (.inl ⟨i, o, ho, rfl, rfl⟩)
  · obtain ⟨hs', -⟩ | hst | hst | ⟨a, s, -, hs', hst⟩ := he.sends h₁
    · exact .inl (.inr ⟨i, s₁, hs', rfl, hn⟩)
    · cases hn.symm.trans hst
    · cases hn.symm.trans hst
    · cases hst with
      | start | retry =>
        cases (setSend_get hs' _).symm.trans h₁
        cases hn
        exact .inr (.inl rfl)
      | @find k k' m₂ hst hk =>
        have hs₂ : m₂.sends[i]? = some s := by
          rw [lookupStep_scope hk]
          exact hs'
        cases (setSend_get hs₂ _).symm.trans h₁
        cases hn
        exact .inr (.inr ⟨k, m₂, .inr ⟨i, s, hs', rfl, hst⟩, lookupStep_cases hk⟩)
      | giveUp =>
        rw [evict_scope] at h₁
        cases (setSend_get hs' _).symm.trans h₁
        cases hn
      | writePart hst =>
        cases hs'.symm.trans h₁
        obtain hst | hst := hst <;> cases hst.symm.trans hn
      | _ =>
        cases (setSend_get hs' _).symm.trans h₁
        cases hn

theorem Unsought.effect (h : Unsought m d l) (he : Effect m mv m₁ hs) (hc : m.closed = true) :
    Unsought m₁ d l := by
  constructor <;> intro h₁ <;> obtain h₀ | h₀ | ⟨n', m₂, h₀, hk⟩ := he.searched h₁
  · exact h.entering h₀
  · cases h₀
  · cases hk with
    | enter ho => cases hc.symm.trans ho
  · exact h.confirming h₀
  · cases h₀
  · cases hk with
    | meet | make => exact h.entering h₀
  · exact h.evicting h₀
  · cases h₀
  · cases hk with
    | withdraw => exact h.confirming h₀

theorem Unsought.move (h : Unsought m d l) (hm : m.move mv = some (m', hs))
    (hc : m.closed = true) : Unsought m' d l := by
  obtain ⟨m₁, hs₁, he, hr | ⟨rfl, -⟩⟩ := move_effect hm
  · have h₁ := h.effect he hc
    rw [reap_scope hr]
    exact ⟨h₁.entering, h₁.confirming, h₁.evicting⟩
  · exact h.effect he hc

theorem Unsought.not_retracts (h : Unsought m d l) (hd : Directed m) (hg : m.Goes l d)
    (ht : t.before = m) : ¬t.Retracts l := by
  subst ht
  rintro (⟨id, a, s, -, hs', hst⟩ | ⟨id, a, o, -, ho, hst⟩)
  · have hto := hd.sends id s l hs' (by rw [hst]; rfl)
    exact h.evicting (.inr ⟨id, s, hs', hto.unique hg, hst⟩)
  · have hto := hd.openings id o l ho (by rw [hst]; rfl)
    exact h.evicting (.inl ⟨id, o, ho, hto.unique hg, hst⟩)

theorem Unsought.run {moves : List Move} (h : Unsought m d l) (ht : Tabled m) (hg : m.Goes l d)
    (hc : m.closed = true) (hm : m.run moves = some (m', hs)) :
    ∀ t ∈ m.transitions moves, ¬t.Retracts l := by
  have hall := run_induction (P := fun m ts => (Unsought m d l ∧ Tabled m ∧ m.Goes l d ∧
    m.closed = true) ∧ ∀ t ∈ ts, ¬t.Retracts l)
    ⟨⟨h, ht, hg, hc⟩, fun _ ht => absurd ht List.not_mem_nil⟩ ?_ hm
  · exact hall.2
  · rintro m ts mv m' hs ⟨⟨h, ht, hg, hc⟩, hall⟩ hm
    refine ⟨⟨h.move hm hc, ht.move hm, hg.move hm, (move_later hm).closed hc⟩, fun t hmem => ?_⟩
    obtain hmem | hmem := List.mem_append.mp hmem
    · exact hall t hmem
    · cases List.mem_singleton.mp hmem
      exact h.not_retracts ht.sound.directed hg rfl

end PeerLink.Manager
