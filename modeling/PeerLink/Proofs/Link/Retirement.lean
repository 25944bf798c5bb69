import PeerLink.Proofs.Manager.Writers

namespace PeerLink.Manager

/-- The link for which a call is opening a stream. -/
def SendStage.opening? : SendStage → Option LinkId
  | .connecting l _ => some l
  | .greeting l _ _ => some l
  | _ => none

inductive Becomes (m m₁ : Manager) (l : LinkId) (k k₁ : Link) : Prop where
  | kept (hr : k₁.retired = k.retired) (hw : k₁.writer ≠ none → k.writer ≠ none) :
    Becomes m m₁ l k k₁
  | connected {id : SendId} {s : Send} (hr : k₁.retired = k.retired)
    (hs' : m.sends[id]? = some s) (hl : s.stage.opening? = some l) : Becomes m m₁ l k k₁
  | failed {id : SendId} {s s₁ : Send} {error : IoError} (hr : k₁.retired = true)
    (hw : k₁.writer = k.writer) (hs' : m.sends[id]? = some s) (hl : s.stage.opening? = some l)
    (h₁ : m₁.sends[id]? = some s₁) (hst : s₁.stage = .failing l error) : Becomes m m₁ l k k₁
  | retired {id : ClosingId} {c : Closing} {ls : List LinkId} (hr : k₁.retired = true)
    (hw : k₁.writer = none) (hc : m.closings[id]? = some c) (hst : c.stage = .queued l ls) :
    Becomes m m₁ l k k₁

variable {m m' m₁ : Manager} {mv : Move} {hs : List Happening} {l : LinkId} {k k₁ : Link}
  {id j : SendId} {s s₁ : Send} {a : Answer}

theorem SendStage.connecting?_of_opening? {stage : SendStage} (h : stage.opening? = some l) :
    stage.connecting? = some l := by
  cases stage <;> first | exact h | cases h

theorem SendStage.held?_of_opening? {stage : SendStage} (h : stage.opening? = some l) :
    stage.held? = some l :=
  SendStage.held?_of_connecting? (SendStage.connecting?_of_opening? h)

theorem Unconnected.opening? {error : IoError} (h : Unconnected m s l a error hs) :
    s.stage.opening? = some l := by
  cases h with
  | timedOut hs | refused hs | tooLong hs | broken hs =>
    rw [hs]
    rfl

theorem Untouched.becomes (h : Untouched m₁ l k) :
    ∃ k₁, m₁.allLinks[l]? = some k₁ ∧ Becomes m m₁ l k k₁ := by
  obtain ⟨k₁, hk₁, hw, hr⟩ := h
  exact ⟨k₁, hk₁, .kept hr (by rw [hw]; exact id)⟩

theorem becomes_same (hk : m₁.allLinks[l]? = some k) :
    ∃ k₁, m₁.allLinks[l]? = some k₁ ∧ Becomes m m₁ l k k₁ :=
  ⟨k, hk, .kept rfl id⟩

theorem becomes_modify {i : LinkId} {f : Link → Link} (hk : m.allLinks[l]? = some k)
    (h : i = l → Becomes m m₁ l k (f k)) :
    ∃ k₁, (m.modifyLink i f).allLinks[l]? = some k₁ ∧ Becomes m m₁ l k k₁ := by
  refine ⟨if i = l then f k else k, by simp [modifyLink, List.getElem?_modify, hk], ?_⟩
  split
  · next hi => exact h hi
  · exact .kept rfl id

/-- A call that writes its frame has the stream of its link, or a fresh one for it. -/
theorem Ready.supply {g : Link → Link} {w : Writer} (hr : Ready m id s l a g w hs)
    (hk : m.allLinks[l]? = some k) :
    (g k).retired = k.retired ∧ (k.writer ≠ none ∨ s.stage.opening? = some l) := by
  cases hr with
  | atOnce _ hl _ _ hw | drained _ hl hw =>
    cases hl.symm.trans hk
    exact ⟨rfl, .inl (by rw [hw]; nofun)⟩
  | greeted hs =>
    rw [hs]
    exact ⟨rfl, .inr rfl⟩

theorem SendStep.becomes (hst : SendStep m id s a m₁ hs) (hs' : m.sends[id]? = some s)
    (hk : m.allLinks[l]? = some k) :
    ∃ k₁, m₁.allLinks[l]? = some k₁ ∧ Becomes m m₁ l k k₁ := by
  cases hst with
  | refuse | reject | start | found | turnAway | quit | dial | drain | greet | greetPart =>
    exact becomes_same hk
  | find _ hf =>
    exact Untouched.becomes ((Untouched.lookup hk (lookupStep_cases hf) :) : Untouched _ l k)
  | request => exact Untouched.becomes (Untouched.modify hk fun _ => request_keeps k _)
  | cancel | retry => exact Untouched.becomes (Untouched.modify hk fun _ => leave_keeps k _)
  | giveUp =>
    rw [evict_scope]
    exact Untouched.becomes (Untouched.modify hk fun _ => leave_keeps k _)
  | place hr =>
    refine becomes_modify hk ?_
    rintro rfl
    obtain ⟨hret, hw | hl⟩ := hr.supply hk
    · exact .kept hret fun _ => hw
    · exact .connected hret hs' hl
  | @overflow _ _ g _ _ _ hr =>
    refine becomes_modify hk ?_
    rintro rfl
    have hw : ((g k).disconnect.leave (.send id)).writer = none := by simp [Link.disconnect]
    exact .kept ((leave_keeps _ _).2.trans (hr.supply hk).1) fun h => absurd hw h
  | failConnect hu =>
    refine becomes_modify hk ?_
    rintro rfl
    exact .failed rfl rfl hs' hu.opening? (setSend_get hs' _) rfl
  | @writePart _ _ w count _ _ hl hw =>
    refine becomes_modify hk ?_
    rintro rfl
    cases hl.symm.trans hk
    exact .kept rfl fun _ => by rw [hw]; nofun
  | @writeAll _ _ w _ _ hl hw =>
    refine becomes_modify hk ?_
    rintro rfl
    cases hl.symm.trans hk
    exact .kept (leave_keeps _ _).2 fun _ => by rw [hw]; nofun
  | failWrite =>
    refine becomes_modify hk ?_
    rintro rfl
    have hw : (k.disconnect.leave (.send id)).writer = none := by simp [Link.disconnect]
    exact .kept (leave_keeps _ _).2 fun h => absurd hw h

theorem Effect.becomes (he : Effect m mv m₁ hs) (hk : m.allLinks[l]? = some k) :
    ∃ k₁, m₁.allLinks[l]? = some k₁ ∧ Becomes m m₁ l k k₁ := by
  cases he with
  | aside hm =>
    rw [hm]
    exact becomes_same hk
  | call | ask | finish | drop => exact becomes_same hk
  | leave => exact Untouched.becomes (Untouched.modify hk fun _ => leave_keeps k _)
  | opening _ hf =>
    exact Untouched.becomes ((Untouched.lookup hk (lookupStep_cases hf) :) : Untouched _ l k)
  | send hs' hst => exact hst.becomes hs' hk
  | @closing id _ _ _ _ hc hst =>
    cases hst with
    | request => exact Untouched.becomes (Untouched.modify hk fun _ => request_keeps k _)
    | retireIdle hq | retireBusy hq =>
      refine becomes_modify hk ?_
      rintro rfl
      have hw : (k.shutDown.leave (.closing id)).writer = none := by simp [Link.shutDown]
      exact .retired (leave_keeps _ _).2 hw hc hq
    | clearObservers =>
      rw [clearObservers_scope]
      exact becomes_same hk
    | _ => exact becomes_same hk

/-- A link that a move makes has no stream, is not retired, and is in the table. -/
theorem Effect.made (he : Effect m mv m₁ hs) (hn : m.allLinks[l]? = none)
    (hk : m₁.allLinks[l]? = some k) :
    k.writer = none ∧ k.retired = false ∧ m₁.links.get? k.destination = some l := by
  have hsame : ∀ i f, (m.modifyLink i f).allLinks[l]? ≠ some k := fun i f h => by
    obtain ⟨k₀, hk₀, -⟩ := getElem?_modify_cases h
    cases hn.symm.trans hk₀
  have hlookup : ∀ {d : Endpoint} {n n' : Lookup} {m₂ : Manager}, m.lookupStep d n = some (m₂, n') →
      m₂.allLinks[l]? = some k →
      k.writer = none ∧ k.retired = false ∧ m₂.links.get? k.destination = some l := fun hf hk => by
    cases lookupStep_cases hf with
    | make hl =>
      obtain hk | ⟨rfl, rfl⟩ := getElem?_concat_cases hk
      · cases hn.symm.trans hk
      · exact ⟨rfl, rfl, (Table.get?_insert hl).trans (if_pos rfl)⟩
    | evict =>
      rw [evict_scope] at hk
      cases hn.symm.trans hk
    | _ => cases hn.symm.trans hk
  cases he with
  | aside hm =>
    rw [hm] at hk
    cases hn.symm.trans hk
  | call | ask | finish | drop => cases hn.symm.trans hk
  | leave => exact absurd hk (hsame _ _)
  | opening _ hf => exact (hlookup hf hk :)
  | send _ hst =>
    cases hst with
    | find _ hf => exact (hlookup hf hk :)
    | refuse | reject | start | found | turnAway | quit | dial | drain | greet | greetPart =>
      cases hn.symm.trans hk
    | giveUp =>
      rw [evict_scope] at hk
      exact absurd hk (hsame _ _)
    | _ => exact absurd hk (hsame _ _)
  | closing _ hst =>
    cases hst with
    | request | retireIdle | retireBusy => exact absurd hk (hsame _ _)
    | clearObservers =>
      rw [clearObservers_scope] at hk
      cases hn.symm.trans hk
    | _ => cases hn.symm.trans hk

structure Retiring (m : Manager) : Prop where
  idle : ∀ (l : LinkId) (k : Link), m.allLinks[l]? = some k → k.retired = true → k.writer = none
  opening : ∀ (id : SendId) s l (k : Link), m.sends[id]? = some s → s.stage.opening? = some l →
    m.allLinks[l]? = some k → k.retired = false
  failing : ∀ (id : SendId) s l error (k : Link), m.sends[id]? = some s →
    s.stage = .failing l error → m.allLinks[l]? = some k → k.retired = true

theorem Retiring.new (address : Endpoint) (config : Config) (clock : Nat) :
    Retiring (new address config clock) := by
  constructor <;> intros <;> simp_all [Manager.new]

theorem SendStep.opening (hst : SendStep m id s a m₁ hs) (hs' : m.sends[id]? = some s)
    (h : Retiring m) (h₁ : m₁.sends[id]? = some s₁) (hl : s₁.stage.opening? = some l)
    (hk : m₁.allLinks[l]? = some k) : k.retired = false := by
  cases hst with
  | find _ hf =>
    rw [lookupStep_scope hf] at h₁
    cases (setSend_get hs' _).symm.trans h₁
    cases hl
  | giveUp =>
    rw [evict_scope] at h₁
    cases (setSend_get hs' _).symm.trans h₁
    cases hl
  | dial _ _ hl' _ hr =>
    cases (setSend_get hs' _).symm.trans h₁
    cases hl
    cases hl'.symm.trans hk
    exact hr
  | greet he | greetPart he =>
    cases (setSend_get hs' _).symm.trans h₁
    exact h.opening id s l k hs' (by rw [he]; exact hl) hk
  | writePart he =>
    cases hs'.symm.trans h₁
    obtain he | he := he <;> rw [he] at hl <;> cases hl
  | _ =>
    cases (setSend_get hs' _).symm.trans h₁
    cases hl

theorem SendStep.failing {error : IoError} (hst : SendStep m id s a m₁ hs)
    (hs' : m.sends[id]? = some s) (h₁ : m₁.sends[id]? = some s₁)
    (hl : s₁.stage = .failing l error) (hk : m₁.allLinks[l]? = some k) : k.retired = true := by
  cases hst with
  | find _ hf =>
    rw [lookupStep_scope hf] at h₁
    cases (setSend_get hs' _).symm.trans h₁
    cases hl
  | giveUp =>
    rw [evict_scope] at h₁
    cases (setSend_get hs' _).symm.trans h₁
    cases hl
  | failConnect =>
    cases (setSend_get hs' _).symm.trans h₁
    cases hl
    obtain ⟨k₀, -, ⟨-, rfl⟩ | ⟨hn, -⟩⟩ := getElem?_modify_cases hk
    · rfl
    · exact absurd rfl hn
  | writePart he =>
    cases hs'.symm.trans h₁
    obtain he | he := he <;> cases he.symm.trans hl
  | _ =>
    cases (setSend_get hs' _).symm.trans h₁
    cases hl

theorem Sound.retired_of_held (h : Sound m) (he : Effect m mv m₁ hs) (hs' : m.sends[j]? = some s)
    (hl : s.stage.held? = some l) (hmv : ∀ a, mv ≠ .step (.send j) a)
    (hk : m₁.allLinks[l]? = some k₁) :
    ∃ k, m.allLinks[l]? = some k ∧ k₁.retired = k.retired := by
  obtain ⟨k, hk₀, -⟩ := h.directed.sends j s l hs'
    (SendStage.link?_of_line? (SendStage.line?_of_held? hl))
  obtain ⟨k₁', hk₁, -, hr⟩ := he.untouched_of_held h.locked hs' hl hk₀ hmv
  cases hk.symm.trans hk₁
  exact ⟨k, hk₀, hr⟩

theorem Retiring.effect (h : Retiring m) (hm : Sound m) (he : Effect m mv m₁ hs) :
    Retiring m₁ := by
  refine ⟨fun l k₁ hk₁ hr => ?_, fun j s₁ l k₁ h₁ hl hk₁ => ?_,
    fun j s₁ l error k₁ h₁ hl hk₁ => ?_⟩
  · cases hk : m.allLinks[l]? with
    | none => exact (he.made hk hk₁).1
    | some k =>
      obtain ⟨k₁', hk₁', ht⟩ := he.becomes hk
      cases hk₁.symm.trans hk₁'
      cases ht with
      | kept hret hw => exact not_not.mp fun hn => hw hn (h.idle l k hk (hret ▸ hr))
      | connected hret hs' hl => cases (h.opening _ _ l k hs' hl hk).symm.trans (hret ▸ hr)
      | failed _ hw hs' hl =>
        exact hw.trans
          (hm.supplied.connecting _ _ l k hs' (SendStage.connecting?_of_opening? hl) hk)
      | retired _ hw => exact hw
  · obtain ⟨h₁, hmv⟩ | hst | hst | ⟨a, s, rfl, hs', hst⟩ := he.sends h₁
    · obtain ⟨k, hk, hr⟩ :=
        hm.retired_of_held he h₁ (SendStage.held?_of_opening? hl) hmv hk₁
      exact hr.trans (h.opening j s₁ l k h₁ hl hk)
    · rw [hst] at hl
      cases hl
    · rw [hst] at hl
      cases hl
    · exact hst.opening hs' h h₁ hl hk₁
  · obtain ⟨h₁, hmv⟩ | hst | hst | ⟨a, s, rfl, hs', hst⟩ := he.sends h₁
    · obtain ⟨k, hk, hr⟩ := hm.retired_of_held he h₁ (l := l) (by rw [hl]; rfl) hmv hk₁
      exact hr.trans (h.failing j s₁ l error k h₁ hl hk)
    · cases hl.symm.trans hst
    · cases hl.symm.trans hst
    · exact hst.failing hs' h₁ hl hk₁

theorem Retiring.reap {o : Manager × List Happening} (h : Retiring o.1)
    (hr : reap o = (m', hs)) : Retiring m' := by
  refine ⟨fun l k₁ hk₁ hret => ?_, fun j s l k₁ hs' hl hk₁ => ?_,
    fun j s l error k₁ hs' hl hk₁ => ?_⟩
  all_goals obtain ⟨k, hk, ⟨rfl, -⟩ | ⟨-, rfl⟩⟩ := reap_link hr hk₁
  · exact h.idle l k₁ hk hret
  · rfl
  all_goals rw [reap_scope hr] at hs'
  · exact h.opening j s l k₁ hs' hl hk
  · exact h.opening j s l k hs' hl hk
  · exact h.failing j s l error k₁ hs' hl hk
  · exact h.failing j s l error k hs' hl hk

theorem Effect.stays_retired (he : Effect m mv m₁ hs) (hk : m.allLinks[l]? = some k)
    (hr : k.retired = true) : ∃ k₁, m₁.allLinks[l]? = some k₁ ∧ k₁.retired = true := by
  obtain ⟨k₁, hk₁, ht⟩ := he.becomes hk
  refine ⟨k₁, hk₁, ?_⟩
  cases ht with
  | kept hret | connected hret => exact hret.trans hr
  | failed hret | retired hret => exact hret

end PeerLink.Manager
