import Mathlib.Data.List.Nodup
import Mathlib.Data.List.Perm.Subperm
import PeerLink.Proofs.Call.Failing

namespace PeerLink.Manager

def Transition.retried? (t : Transition) (id : SendId) : Option LinkId :=
  match (t.before.sends[id]?).map Send.stage, (t.after.sends[id]?).map Send.stage with
  | some (.queued l), some (.linking .checking) => some l
  | _, _ => none

/-- The links that a call has found retired, in this order. -/
def retriedLinks (ts : List Transition) (id : SendId) : List LinkId :=
  ts.filterMap (·.retried? id)

def Strands (m : Manager) (j id : SendId) (l : LinkId) : Prop :=
  ∃ s error s', m.sends[j]? = some s ∧ s.stage = .failing l error ∧ m.sends[id]? = some s' ∧
    s'.stage.link? = some l

/-- One call is to blame for it that another finds a link retired. -/
structure Charged (m : Manager) (ts : List Transition) (id : SendId) (l : LinkId) (j : SendId) :
    Prop where
  other : j ≠ id
  same : ∃ s s', m.sends[j]? = some s ∧ m.sends[id]? = some s' ∧ s.destination = s'.destination
  failed : ∃ t ∈ ts, ∃ error, t.ConnectFails j l error
  pending : ∃ t ∈ ts, t.before.Strands j id l

structure Forsaken (m : Manager) (ts : List Transition) (id : SendId) (l : LinkId) : Prop where
  call : ∃ s, m.sends[id]? = some s ∧ s.stage.link? ≠ some l
  unlisted : ∀ d, m.links.get? d ≠ some l
  made : ∃ d, m.Goes l d
  charged : ∃ j, Charged m ts id l j

def ClosingStage.Halts : ClosingStage → Prop
  | .swapping => False
  | .cancelling => False
  | .finished _ => False
  | _ => True

structure Retries (m : Manager) (ts : List Transition) : Prop where
  halted : ∀ (id : ClosingId) c, m.closings[id]? = some c → c.stage.Halts → m.cancelled = true
  retired : m.cancelled = false → ∀ (id : SendId) s l (k : Link), m.sends[id]? = some s →
    s.stage.link? = some l → m.allLinks[l]? = some k → k.retired = true →
    (∃ (j : SendId) (s' : Send) (error : IoError), m.sends[j]? = some s' ∧
      s'.stage = .failing l error) ∨ ∃ j, Charged m ts id l j
  forsaken : ∀ id, ∀ l ∈ retriedLinks ts id, Forsaken m ts id l
  nodup : ∀ id, (retriedLinks ts id).Nodup

variable {m m' m₁ m₂ : Manager} {mv : Move} {hs hs₁ : List Happening} {l : LinkId} {k : Link}
  {id j : SendId} {s s₁ : Send} {a : Answer} {d : Endpoint} {ts : List Transition}
  {t : Transition} {error : IoError}

theorem LookupStep.link_cases {n n' : Lookup} (h : LookupStep m d n m₂ n')
    (hl : n'.link? = some l) :
    n.link? = some l ∨ m.links.get? d = some l ∨ m.allLinks[l]? = none := by
  cases h with
  | meet hl' =>
    cases hl
    exact .inr (.inl hl')
  | make =>
    cases hl
    exact .inr (.inr (List.getElem?_eq_none (Nat.le_refl _)))
  | withdraw | confirm => exact .inl hl
  | refuse | enter | evict => cases hl

theorem SendStep.link_cases (h : SendStep m id s a m₁ hs) (hs' : m.sends[id]? = some s)
    (h₁ : m₁.sends[id]? = some s₁) (hl : s₁.stage.link? = some l) :
    s.stage.link? = some l ∨ m.links.get? s.destination = some l ∨ m.allLinks[l]? = none := by
  cases h with
  | find he hk =>
    rw [lookupStep_scope hk] at h₁
    cases (setSend_get hs' _).symm.trans h₁
    rw [he]
    exact (lookupStep_cases hk).link_cases hl
  | giveUp =>
    rw [evict_scope] at h₁
    cases (setSend_get hs' _).symm.trans h₁
    cases hl
  | refuse | reject | start | turnAway | quit | cancel | retry | overflow | writeAll | failWrite =>
    cases (setSend_get hs' _).symm.trans h₁
    cases hl
  | found he | request he | dial he | drain he | greet he | greetPart he =>
    cases (setSend_get hs' _).symm.trans h₁
    rw [he]
    exact .inl hl
  | place hr =>
    cases (setSend_get hs' _).symm.trans h₁
    cases hl
    exact .inl (SendStage.link?_of_line? hr.line?)
  | failConnect hu =>
    cases (setSend_get hs' _).symm.trans h₁
    cases hl
    exact .inl (SendStage.link?_of_line? (SendStage.line?_of_held? hu.held?))
  | writePart =>
    cases hs'.symm.trans h₁
    exact .inl hl

theorem link_of_reap (hr : reap (m₁, hs₁) = (m', hs) ∨ m₁ = m' ∧ hs₁ = hs)
    (hk : m'.allLinks[l]? = some k) :
    ∃ k₁ : Link, m₁.allLinks[l]? = some k₁ ∧ k₁.retired = k.retired := by
  obtain hr | ⟨rfl, -⟩ := hr
  · obtain ⟨k₁, hk₁, hsame⟩ := reap_link hr hk
    refine ⟨k₁, hk₁, ?_⟩
    obtain ⟨rfl, -⟩ | ⟨-, rfl⟩ := hsame <;> rfl
  · exact ⟨k, hk, rfl⟩

theorem SendStep.retried (h : SendStep m id s a m₁ hs) (hs' : m.sends[id]? = some s)
    (hq : s.stage = .queued l) (h₁ : m₁.sends[id]? = some s₁)
    (hst : s₁.stage = .linking .checking) :
    m.cancelled = false ∧ m₁.links = m.links ∧ ∃ k : Link, m.allLinks[l]? = some k ∧
      k.holder = some (.send id) ∧ k.retired = true := by
  cases h with
  | retry he hc hk hh hr =>
    cases hq.symm.trans he
    exact ⟨hc, rfl, _, hk, hh, hr⟩
  | find he => cases hq.symm.trans he
  | giveUp he => cases hq.symm.trans he
  | writePart he => obtain he | he := he <;> cases hq.symm.trans he
  | start he => cases hq.symm.trans he
  | _ =>
    cases (setSend_get hs' _).symm.trans h₁
    cases hst

theorem retried?_eq_some (h : t.retried? id = some l) :
    ∃ s s₁, t.before.sends[id]? = some s ∧ s.stage = .queued l ∧ t.after.sends[id]? = some s₁ ∧
      s₁.stage = .linking .checking := by
  rw [Transition.retried?] at h
  split at h
  · next hb ha =>
    cases h
    obtain ⟨s, hs', hst⟩ := Option.map_eq_some_iff.mp hb
    obtain ⟨s₁, h₁, hst₁⟩ := Option.map_eq_some_iff.mp ha
    exact ⟨s, s₁, hs', hst, h₁, hst₁⟩
  · cases h

/-- A retired link whose lock is with a call that has not failed to connect is not in the table. -/
theorem Tabled.unlisted (h : Tabled m) (hk : m.allLinks[l]? = some k) (hr : k.retired = true)
    (hh : k.holder = some (.send id)) (hs' : m.sends[id]? = some s) (hq : s.stage = .queued l) :
    m.links.get? d ≠ some l := by
  intro hl
  obtain ⟨j, s', error, hj, hst⟩ := h.current.retired d l k hl hk hr
  have hheld := h.sound.locked.holder hj (by rw [hst]; rfl) hk
  cases hh.symm.trans hheld
  cases hs'.symm.trans hj
  cases hq.symm.trans hst

theorem ClosingStep.halts {i : ClosingId} {c c₁ : Closing} (h : ClosingStep m i c a m₁ hs)
    (hc : m.closings[i]? = some c) (h₁ : m₁.closings[i]? = some c₁) (hst : c₁.stage.Halts) :
    c.stage.Halts ∨ m₁.cancelled = true := by
  cases h with
  | again | swap | done | giveUp =>
    cases (setClosing_get hc _).symm.trans h₁
    exact hst.elim
  | cancel => exact .inr rfl
  | clearObservers he | collect he | clearLinks he | await he | request he | retireIdle he
  | retireBusy he | flushPart he | flushEnd he =>
    rw [he]
    exact .inl trivial

theorem Charged.move (h : Charged m ts id l j) (hm : m.move mv = some (m', hs)) :
    Charged m' (ts ++ [t]) id l j := by
  obtain ⟨hother, ⟨s, s', hs', hs₀, hd⟩, ⟨u, hu, hf⟩, v, hv, hp⟩ := h
  obtain ⟨m₁, hs₁, he, hr⟩ := move_effect hm
  obtain ⟨stage, h₁, -⟩ := he.keeps_call hs'
  obtain ⟨stage', h₁', -⟩ := he.keeps_call hs₀
  refine ⟨hother, ⟨{ s with stage }, { s' with stage := stage' }, ?_, ?_, hd⟩, ⟨u, List.mem_append_left _ hu, hf⟩,
    v, List.mem_append_left _ hv, hp⟩
  · rw [sends_of_reap hr]
    exact h₁
  · rw [sends_of_reap hr]
    exact h₁'

theorem Strands.charged (h : m.Strands j id l) (hj : j ≠ id) (hd : Directed m)
    (hacc : Accounts m ts) (hm : m.move mv = some (m', hs)) :
    Charged m' (ts ++ [⟨m, mv, m', hs⟩]) id l j := by
  have ⟨s, error, s', hs', hst, hs₀, hl⟩ := h
  obtain ⟨m₁, hs₁, he, hr⟩ := move_effect hm
  obtain ⟨stage, h₁, -⟩ := he.keeps_call hs'
  obtain ⟨stage', h₁', -⟩ := he.keeps_call hs₀
  obtain ⟨u, hu, hf⟩ := hacc.failing j s l error hs' hst
  rw [← sends_of_reap hr] at h₁ h₁'
  have hsame : s.destination = s'.destination :=
    (hd.sends j s l hs' (by rw [hst]; rfl)).unique (hd.sends id s' l hs₀ hl)
  exact ⟨hj, ⟨{ s with stage }, { s' with stage := stage' }, h₁, h₁', hsame⟩, ⟨u, List.mem_append_left _ hu, error, hf⟩,
    _, List.mem_concat_self, h⟩

theorem Retries.new (address : Endpoint) (config : Config) (clock : Nat) :
    Retries (new address config clock) [] := by
  refine ⟨fun id c h => ?_, fun _ id s l k h => ?_, fun id l h => absurd h List.not_mem_nil,
    fun id => List.nodup_nil⟩ <;> simp [Manager.new] at h

theorem Retries.move_halted (h : Retries m ts) (hm : m.move mv = some (m', hs)) {i : ClosingId}
    {c : Closing} (hc : m'.closings[i]? = some c) (hst : c.stage.Halts) : m'.cancelled = true := by
  have hl := move_later hm
  obtain hc | hsw | ⟨a, m₁, hs₁, c₀, rfl, hc₀, ho, hp⟩ := move_closing hm hc
  · exact hl.cancelled (h.halted i c hc hst)
  · rw [hsw] at hst
    exact hst.elim
  · have hscope := reap_scope hp
    rw [hscope] at hc
    obtain hst | hcan := ho.halts hc₀ hc hst
    · exact hl.cancelled (h.halted i c₀ hc₀ hst)
    · rw [hscope]
      exact hcan

theorem Retries.stays_charged (h : Retries m ts) (ht : Tabled m) (hacc : Accounts m ts)
    (hm : m.move mv = some (m', hs)) (he : Effect m mv m₁ hs₁)
    (hcan : m.cancelled = false) (h₁ : m₁.sends[id]? = some s₁) (hl : s₁.stage.link? = some l)
    (hk : m.allLinks[l]? = some k) (hr : k.retired = true) :
    (∃ (j : SendId) (s' : Send) (error : IoError), m₁.sends[j]? = some s' ∧
      s'.stage = .failing l error) ∨
      ∃ j, Charged m' (ts ++ [⟨m, mv, m', hs⟩]) id l j := by
  -- one who was at the link before is charged to who failed meanwhile
  have hwas : ∀ s, m.sends[id]? = some s → s.stage.link? = some l →
      (∃ error, s.stage = .failing l error) ∨
        ∃ j, Charged m' (ts ++ [⟨m, mv, m', hs⟩]) id l j := by
    intro s hs' hls
    obtain ⟨j, s', error, hj, hst⟩ | ⟨j, hc⟩ := h.retired hcan id s l k hs' hls hk hr
    · by_cases hji : j = id
      · subst hji
        cases hs'.symm.trans hj
        exact .inl ⟨error, hst⟩
      · exact .inr ⟨j, Strands.charged ⟨s', error, s, hj, hst, hs', hls⟩ hji ht.sound.directed
          hacc hm⟩
    · exact .inr ⟨j, hc.move hm⟩
  obtain ⟨h₀, -⟩ | hst | hst | ⟨a, s, rfl, hs', hstep⟩ := he.sends h₁
  · obtain ⟨error, hst⟩ | hc := hwas s₁ h₀ hl
    · exact .inl ⟨id, s₁, error, h₁, hst⟩
    · exact .inr hc
  · rw [hst] at hl
    cases hl
  · rw [hst] at hl
    cases hl
  · have hgone : ∀ error, s.stage ≠ .failing l error := fun error hst => by
      cases h₁.symm.trans (hstep.of_failing hs' hst)
      cases hl
    obtain hls | hlt | hn := hstep.link_cases hs' h₁ hl
    · exact .inr ((hwas s hs' hls).resolve_left fun ⟨error, hst⟩ => hgone error hst)
    · obtain ⟨j, s', error, hj, hst⟩ := ht.current.retired s.destination l k hlt hk hr
      have hji : j ≠ id := by
        rintro rfl
        cases hs'.symm.trans hj
        exact hgone error hst
      exact .inl ⟨j, s', error, (hstep.others hji).trans hj, hst⟩
    · cases hn.symm.trans hk

theorem Retries.move_retired (h : Retries m ts) (ht : Tabled m) (hacc : Accounts m ts)
    (hm : m.move mv = some (m', hs)) (hcan : m'.cancelled = false)
    (h₁ : m'.sends[id]? = some s₁) (hl : s₁.stage.link? = some l)
    (hk : m'.allLinks[l]? = some k) (hr : k.retired = true) :
    (∃ (j : SendId) (s' : Send) (error : IoError), m'.sends[j]? = some s' ∧
      s'.stage = .failing l error) ∨ ∃ j, Charged m' (ts ++ [⟨m, mv, m', hs⟩]) id l j := by
  have hcan₀ := (move_later hm).running hcan
  obtain ⟨m₁, hs₁, he, hrp⟩ := move_effect hm
  have hsends := sends_of_reap hrp
  obtain ⟨k₁, hk₁, hret⟩ := link_of_reap hrp hk
  rw [hr] at hret
  rw [hsends] at h₁ ⊢
  cases hk₀ : m.allLinks[l]? with
  | none => cases hret.symm.trans (he.made hk₀ hk₁).2.1
  | some k₀ =>
    obtain ⟨k₁', hk₁', hb⟩ := he.becomes hk₀
    cases hk₁.symm.trans hk₁'
    cases hb with
    | kept hsame | connected hsame =>
      exact h.stays_charged ht hacc hm he hcan₀ h₁ hl hk₀ (hsame.symm.trans hret)
    | failed _ _ _ _ hj hst => exact .inl ⟨_, _, _, hj, hst⟩
    | retired _ _ hc hst => cases hcan₀.symm.trans (h.halted _ _ hc (by rw [hst]; trivial))

theorem Forsaken.move (h : Forsaken m ts id l) (hm : m.move mv = some (m', hs)) :
    Forsaken m' (ts ++ [t]) id l := by
  obtain ⟨⟨s, hs', hl⟩, hun, ⟨e, hg⟩, j, hc⟩ := h
  obtain ⟨m₁, hs₁, he, hr⟩ := move_effect hm
  have hmade : m.allLinks[l]? ≠ none := fun hn => by
    obtain ⟨k, hk, -⟩ := hg
    cases hn.symm.trans hk
  refine ⟨?_, fun d hd => ?_, ⟨e, hg.move hm⟩, j, hc.move hm⟩
  · obtain ⟨stage, h₁, hst⟩ := he.keeps_call hs'
    rw [sends_of_reap hr]
    refine ⟨_, h₁, fun hl₁ => ?_⟩
    obtain ⟨rfl, -⟩ | ⟨rfl, -⟩ | ⟨a, -, hstep⟩ := hst
    · exact hl hl₁
    · cases hl₁
    · obtain hls | hlt | hn := hstep.link_cases hs' h₁ hl₁
      · exact hl hls
      · exact hun _ hlt
      · exact hmade hn
  · rw [scope_of_reap hr] at hd
    obtain hd | hn := he.listed hd
    · exact hun d hd
    · exact hmade hn

theorem Retries.forsakes (h : Retries m ts) (ht : Tabled m)
    (hm : m.move mv = some (m', hs)) (hq : (Transition.mk m mv m' hs).retried? id = some l) :
    Forsaken m' (ts ++ [⟨m, mv, m', hs⟩]) id l := by
  obtain ⟨s, s₁, hs', hst, h₁, hst₁⟩ := retried?_eq_some hq
  have hl : s.stage.link? = some l := by
    rw [hst]
    rfl
  obtain ⟨m₁, hs₁, he, hr⟩ := move_effect hm
  obtain ⟨stage, h₁', hcase⟩ := he.keeps_call hs'
  rw [sends_of_reap hr] at h₁
  cases h₁.symm.trans h₁'
  obtain ⟨rfl, -⟩ | ⟨rfl, -⟩ | ⟨a, rfl, hstep⟩ := hcase
  · cases hst.symm.trans hst₁
  · cases hst₁
  obtain ⟨hcan, hlinks, k, hk, hh, hret⟩ := hstep.retried hs' hst h₁ hst₁
  refine ⟨⟨_, sends_of_reap hr ▸ h₁, by rw [hst₁]; nofun⟩, fun d hd => ?_,
    ⟨_, (ht.sound.directed.sends id s l hs' hl).move hm⟩, ?_⟩
  · rw [scope_of_reap hr, hlinks] at hd
    exact ht.unlisted hk hret hh hs' hst hd
  · obtain ⟨j, s', error, hj, hstj⟩ | ⟨j, hc⟩ := h.retired hcan id s l k hs' hl hk hret
    · have hheld := ht.sound.locked.holder hj (by rw [hstj]; rfl) hk
      cases hh.symm.trans hheld
      cases hs'.symm.trans hj
      cases hst.symm.trans hstj
    · exact ⟨j, hc.move hm⟩

theorem Retries.move (h : Retries m ts) (ht : Tabled m) (hacc : Accounts m ts)
    (hm : m.move mv = some (m', hs)) : Retries m' (ts ++ [⟨m, mv, m', hs⟩]) := by
  have hgrow : ∀ id, retriedLinks (ts ++ [⟨m, mv, m', hs⟩]) id =
      retriedLinks ts id ++ ((Transition.mk m mv m' hs).retried? id).toList := fun id => by
    simp only [retriedLinks, List.filterMap_append]
    cases h : (Transition.mk m mv m' hs).retried? id <;> simp [h]
  refine ⟨fun i c hc hst => h.move_halted hm hc hst,
    fun hcan id s l k hs' hl hk hr => h.move_retired ht hacc hm hcan hs' hl hk hr,
    fun id l hl => ?_, fun id => ?_⟩
  · rw [hgrow] at hl
    obtain hl | hl := List.mem_append.mp hl
    · exact (h.forsaken id l hl).move hm
    · exact h.forsakes ht hm (Option.mem_toList.mp hl)
  · rw [hgrow]
    refine List.nodup_append'.mpr ⟨h.nodup id, Option.toList_nodup _, fun l hl hq => ?_⟩
    obtain ⟨s, -, hs', hst, -⟩ := retried?_eq_some (Option.mem_toList.mp hq)
    obtain ⟨s', hs₀, hn⟩ := (h.forsaken id l hl).call
    cases hs'.symm.trans hs₀
    rw [hst] at hn
    exact hn rfl

theorem run_retries {address : Endpoint} {config : Config} {clock : Nat} {moves : List Move}
    (h : (new address config clock).run moves = some (m, hs)) :
    Tabled m ∧ Accounts m ((new address config clock).transitions moves) ∧
      Retries m ((new address config clock).transitions moves) := by
  refine run_induction (P := fun m ts => Tabled m ∧ Accounts m ts ∧ Retries m ts)
    ⟨.new address config clock, .new address config clock, .new address config clock⟩ ?_ h
  rintro m ts mv m' hs ⟨ht, hacc, hre⟩ hm
  exact ⟨ht.move hm, hacc.move hm, hre.move ht hacc hm⟩

theorem length_le_countP {α : Type} {xs : List α} {p : α → Bool} {is : List Nat}
    (hn : is.Nodup) (h : ∀ i ∈ is, ∃ x, xs[i]? = some x ∧ p x = true) :
    is.length ≤ xs.countP p := by
  obtain ⟨js, -, hlen, hj⟩ := exists_places xs p
  rw [← hlen]
  exact (hn.subperm fun i hi => (hj i).mpr (h i hi)).length_le

/-- Each time that a call starts over another call is to blame, and never the same twice. -/
theorem Retries.blames (h : Retries m ts) (hacc : Accounts m ts) (id : SendId) :
    ∃ blamed : LinkId → SendId, (∀ l ∈ retriedLinks ts id, Charged m ts id l (blamed l)) ∧
      ((retriedLinks ts id).map blamed).Nodup := by
  have hex : ∀ l, ∃ j, l ∈ retriedLinks ts id → Charged m ts id l j := fun l => by
    by_cases hl : l ∈ retriedLinks ts id
    · obtain ⟨j, hc⟩ := (h.forsaken id l hl).charged
      exact ⟨j, fun _ => hc⟩
    · exact ⟨0, fun hl' => absurd hl' hl⟩
  choose blamed hblamed using hex
  refine ⟨blamed, hblamed, List.Nodup.map_on (fun l hl l' hl' he => ?_) (h.nodup id)⟩
  obtain ⟨t, ht, error, hf⟩ := (hblamed l hl).failed
  obtain ⟨u, hu, error', hf'⟩ := (hblamed l' hl').failed
  rw [← he] at hf'
  exact (hacc.unique ht hu hf hf').2

theorem Retries.bounded (h : Retries m ts) (hacc : Accounts m ts) (hs' : m.sends[id]? = some s) :
    (retriedLinks ts id).length < m.sends.countP (·.destination = s.destination) := by
  obtain ⟨blamed, hblamed, hn⟩ := h.blames hacc id
  have hall : (id :: (retriedLinks ts id).map blamed).Nodup := by
    refine List.nodup_cons.mpr ⟨fun hid => ?_, hn⟩
    obtain ⟨l, hl, he⟩ := List.mem_map.mp hid
    exact (hblamed l hl).other he
  have hto : ∀ i ∈ id :: (retriedLinks ts id).map blamed,
      ∃ s' : Send, m.sends[i]? = some s' ∧ decide (s'.destination = s.destination) = true := by
    intro i hi
    obtain rfl | hi := List.mem_cons.mp hi
    · exact ⟨s, hs', by simp⟩
    · obtain ⟨l, hl, rfl⟩ := List.mem_map.mp hi
      obtain ⟨s₁, s₂, h₁, h₂, hd⟩ := (hblamed l hl).same
      cases hs'.symm.trans h₂
      exact ⟨s₁, h₁, by simpa using hd⟩
  have hle := length_le_countP hall hto
  rw [List.length_cons, List.length_map] at hle
  exact hle

end PeerLink.Manager
