import PeerLink.Proofs.Manager.Calls
import PeerLink.Proofs.Manager.Locks

namespace PeerLink.Manager

def Move.waiter? : Move → Option Waiter
  | .step (.send id) _ => some (.send id)
  | .step (.closing id) _ => some (.closing id)
  | _ => none

def SendStage.writing? : SendStage → Option LinkId
  | .draining l => some l
  | .flushing l => some l
  | _ => none

def SendStage.connecting? : SendStage → Option LinkId
  | .connecting l _ => some l
  | .greeting l _ _ => some l
  | .failing l _ => some l
  | _ => none

variable {m m' m₁ : Manager} {mv : Move} {hs : List Happening} {l : LinkId} {k : Link}
  {id : SendId} {s s₁ : Send} {a : Answer}

theorem SendStage.held?_of_writing? {stage : SendStage} (h : stage.writing? = some l) :
    stage.held? = some l := by
  cases stage <;> first | exact h | cases h

theorem SendStage.held?_of_connecting? {stage : SendStage} (h : stage.connecting? = some l) :
    stage.held? = some l := by
  cases stage <;> first | exact h | cases h

theorem eq_step_of_waiter? {j : SendId} (h : mv.waiter? = some (.send j)) :
    ∃ a, mv = .step (.send j) a := by
  cases mv with
  | step task a =>
    cases task <;> cases h
    exact ⟨a, rfl⟩
  | _ => cases h

def Untouched (m : Manager) (l : LinkId) (k : Link) : Prop :=
  ∃ k₁, m.allLinks[l]? = some k₁ ∧ k₁.writer = k.writer ∧ k₁.retired = k.retired

theorem Untouched.refl (hk : m.allLinks[l]? = some k) : Untouched m l k := ⟨k, hk, rfl, rfl⟩

theorem Untouched.modify {i : LinkId} {f : Link → Link} (hk : m.allLinks[l]? = some k)
    (hf : l = i → (f k).writer = k.writer ∧ (f k).retired = k.retired) :
    Untouched (m.modifyLink i f) l k := by
  refine ⟨if i = l then f k else k, by simp [modifyLink, List.getElem?_modify, hk], ?_⟩
  split
  · next hi => exact hf hi.symm
  · exact ⟨rfl, rfl⟩

theorem Untouched.lookup {m₂ : Manager} {d : Endpoint} {n n' : Lookup}
    (hk : m.allLinks[l]? = some k) (h : LookupStep m d n m₂ n') : Untouched m₂ l k := by
  cases h with
  | make =>
    exact ⟨k, by rw [List.getElem?_append_left (List.getElem?_eq_some_iff.mp hk).1, hk], rfl, rfl⟩
  | evict =>
    rw [evict_scope]
    exact .refl hk
  | _ => exact .refl hk

theorem leave_keeps (k : Link) (w : Waiter) :
    (k.leave w).writer = k.writer ∧ (k.leave w).retired = k.retired := by
  rw [Link.leave_rest]
  exact ⟨rfl, rfl⟩

theorem request_keeps (k : Link) (w : Waiter) :
    (k.request w).writer = k.writer ∧ (k.request w).retired = k.retired := by
  rw [Link.request_rest]
  exact ⟨rfl, rfl⟩

theorem SendStep.untouched (hst : SendStep m id s a m₁ hs) (hs' : m.sends[id]? = some s)
    (h : Locked m) (hk : m.allLinks[l]? = some k) (hno : k.holder ≠ some (.send id)) :
    Untouched m₁ l k := by
  have hheld : s.stage.held? ≠ some l := fun hl => hno (h.holder hs' hl hk)
  cases hst with
  | refuse | reject | start | found | turnAway | quit | dial | drain | greet | greetPart =>
    exact .refl hk
  | find _ hf => exact (Untouched.lookup hk (lookupStep_cases hf) :)
  | request => exact Untouched.modify hk fun _ => request_keeps k _
  | cancel | retry => exact Untouched.modify hk fun _ => leave_keeps k _
  | giveUp =>
    rw [evict_scope]
    exact Untouched.modify hk fun _ => leave_keeps k _
  | place hr | overflow hr =>
    exact Untouched.modify hk fun hl => absurd (hr.holder h hs' (hl ▸ hk)) hno
  | failConnect hu => exact Untouched.modify hk fun hl => absurd (hl ▸ hu.held?) hheld
  | writePart he | failWrite he =>
    refine Untouched.modify hk fun hl => absurd ?_ hheld
    obtain he | he := he <;> rw [he, hl] <;> rfl
  | writeAll he =>
    refine Untouched.modify hk fun hl => absurd ?_ hheld
    rw [he, hl]
    rfl

/-- Nobody but the holder of a lock touches the link's writer. -/
theorem Effect.untouched (he : Effect m mv m₁ hs) (h : Locked m) (hk : m.allLinks[l]? = some k)
    (hno : ∀ w, mv.waiter? = some w → k.holder ≠ some w) : Untouched m₁ l k := by
  cases he with
  | aside hm =>
    rw [hm]
    exact .refl hk
  | call | ask | finish | drop => exact .refl hk
  | leave => exact Untouched.modify hk fun _ => leave_keeps k _
  | opening _ hf => exact (Untouched.lookup hk (lookupStep_cases hf) :)
  | send hs' hst => exact hst.untouched hs' h hk (hno _ rfl)
  | closing hc hst =>
    cases hst with
    | request => exact Untouched.modify hk fun _ => request_keeps k _
    | retireIdle _ hl hh | retireBusy _ hl hh =>
      refine Untouched.modify hk fun he => absurd ?_ (hno _ rfl)
      subst he
      cases hl.symm.trans hk
      exact hh
    | clearObservers =>
      rw [clearObservers_scope]
      exact .refl hk
    | _ => exact .refl hk

/-- A call that writes has a writer, and one that connects has none yet. -/
structure Supplied (m : Manager) : Prop where
  writing : ∀ (id : SendId) s l, m.sends[id]? = some s → s.stage.writing? = some l →
    ∃ k w, m.allLinks[l]? = some k ∧ k.writer = some w
  connecting : ∀ (id : SendId) s l (k : Link), m.sends[id]? = some s →
    s.stage.connecting? = some l → m.allLinks[l]? = some k → k.writer = none

theorem Supplied.new (address : Endpoint) (config : Config) (clock : Nat) :
    Supplied (new address config clock) := by
  constructor
  · intro id s l hs
    simp [Manager.new] at hs
  · intro id s l k hs
    simp [Manager.new] at hs

theorem Ready.writer {g : Link → Link} {w : Writer} (hr : Ready m id s l a g w hs)
    (hk : m.allLinks[l]? = some k) : (g k).writer = some w := by
  cases hr with
  | atOnce _ hl _ _ hw =>
    cases hl.symm.trans hk
    exact hw
  | greeted => rfl
  | drained _ hl hw =>
    cases hl.symm.trans hk
    simp [Link.consume, hw]

theorem Unconnected.connecting? {error : IoError} (h : Unconnected m s l a error hs) :
    s.stage.connecting? = some l := by
  cases h with
  | timedOut hs | refused hs | tooLong hs | broken hs =>
    rw [hs]
    rfl

theorem modifyLink_get (hk : m.allLinks[l]? = some k) (f : Link → Link) :
    (m.modifyLink l f).allLinks[l]? = some (f k) := by
  simp [modifyLink, hk]

theorem SendStep.writing (hst : SendStep m id s a m₁ hs) (hs' : m.sends[id]? = some s)
    (hd : Directed m) (h₁ : m₁.sends[id]? = some s₁) (hl : s₁.stage.writing? = some l) :
    ∃ k w, m₁.allLinks[l]? = some k ∧ k.writer = some w := by
  cases hst with
  | refuse | reject | start | found | turnAway | quit | request | cancel | retry | dial | overflow
  | greet | greetPart | failConnect | writeAll | failWrite =>
    cases (setSend_get hs' _).symm.trans h₁
    cases hl
  | find _ hf =>
    rw [lookupStep_scope hf] at h₁
    cases (setSend_get hs' _).symm.trans h₁
    cases hl
  | giveUp =>
    rw [evict_scope] at h₁
    cases (setSend_get hs' _).symm.trans h₁
    cases hl
  | @drain _ k w _ _ hk _ _ hw =>
    cases (setSend_get hs' _).symm.trans h₁
    cases hl
    exact ⟨k, w, hk, hw⟩
  | @place _ _ g w _ bytes hr =>
    cases (setSend_get hs' _).symm.trans h₁
    cases hl
    obtain ⟨k, hk, -⟩ := hd.sends id s l hs' (SendStage.link?_of_line? hr.line?)
    have hw : ((g k).append bytes).writer = some { w with buffer := w.buffer ++ bytes } := by
      simp [Link.append, hr.writer hk]
    exact ⟨_, _, modifyLink_get hk _, hw⟩
  | @writePart _ k w count he _ hk hw =>
    cases hs'.symm.trans h₁
    have hw : (k.consume count).writer = some { w with buffer := w.buffer.drop count } := by
      simp [Link.consume, hw]
    obtain he | he := he <;> rw [he] at hl <;> cases hl <;> exact ⟨_, _, modifyLink_get hk _, hw⟩

theorem SendStep.connecting (hst : SendStep m id s a m₁ hs) (hs' : m.sends[id]? = some s)
    (h : Supplied m) (h₁ : m₁.sends[id]? = some s₁) (hl : s₁.stage.connecting? = some l)
    (hk : m₁.allLinks[l]? = some k) : k.writer = none := by
  cases hst with
  | refuse | reject | start | found | turnAway | quit | request | cancel | retry | drain | place
  | overflow | writeAll | failWrite =>
    cases (setSend_get hs' _).symm.trans h₁
    cases hl
  | find _ hf =>
    rw [lookupStep_scope hf] at h₁
    cases (setSend_get hs' _).symm.trans h₁
    cases hl
  | giveUp =>
    rw [evict_scope] at h₁
    cases (setSend_get hs' _).symm.trans h₁
    cases hl
  | dial _ _ hl' _ _ hw =>
    cases (setSend_get hs' _).symm.trans h₁
    cases hl
    cases hl'.symm.trans hk
    exact hw
  | greet he | greetPart he =>
    cases (setSend_get hs' _).symm.trans h₁
    exact h.connecting id s l k hs' (by rw [he]; exact hl) hk
  | failConnect hu =>
    cases (setSend_get hs' _).symm.trans h₁
    cases hl
    obtain ⟨k₀, hk₀, ⟨-, rfl⟩ | ⟨hn, -⟩⟩ := getElem?_modify_cases hk
    · exact h.connecting id s _ k₀ hs' hu.connecting? hk₀
    · exact absurd rfl hn
  | writePart he =>
    cases hs'.symm.trans h₁
    obtain he | he := he <;> rw [he] at hl <;> cases hl

/-- What holds the lock of a link is the only one that can touch its writer. -/
theorem Effect.untouched_of_held {j : SendId} (he : Effect m mv m₁ hs) (h : Locked m)
    (hs' : m.sends[j]? = some s) (hl : s.stage.held? = some l) (hk : m.allLinks[l]? = some k)
    (hmv : ∀ a, mv ≠ .step (.send j) a) : Untouched m₁ l k := by
  refine he.untouched h hk fun w hw hh => ?_
  rw [h.holder hs' hl hk] at hh
  cases hh
  obtain ⟨a, rfl⟩ := eq_step_of_waiter? hw
  exact hmv a rfl

theorem Supplied.effect (h : Supplied m) (hlk : Locked m) (hd : Directed m)
    (he : Effect m mv m₁ hs) : Supplied m₁ := by
  constructor
  · intro j s₁ l h₁ hl
    obtain ⟨h₁, hmv⟩ | hst | hst | ⟨a, s, rfl, hs', hst⟩ := he.sends h₁
    · obtain ⟨k, w, hk, hw⟩ := h.writing j s₁ l h₁ hl
      obtain ⟨k₁, hk₁, hw₁, -⟩ :=
        he.untouched_of_held hlk h₁ (SendStage.held?_of_writing? hl) hk hmv
      exact ⟨k₁, w, hk₁, hw₁.trans hw⟩
    · rw [hst] at hl
      cases hl
    · rw [hst] at hl
      cases hl
    · exact hst.writing hs' hd h₁ hl
  · intro j s₁ l k h₁ hl hk
    obtain ⟨h₁, hmv⟩ | hst | hst | ⟨a, s, rfl, hs', hst⟩ := he.sends h₁
    · have hheld := SendStage.held?_of_connecting? hl
      obtain ⟨k₀, hk₀, -⟩ := hd.sends j s₁ l h₁
        (SendStage.link?_of_line? (SendStage.line?_of_held? hheld))
      obtain ⟨k₁, hk₁, hw₁, -⟩ := he.untouched_of_held hlk h₁ hheld hk₀ hmv
      cases hk.symm.trans hk₁
      exact hw₁.trans (h.connecting j s₁ l k₀ h₁ hl hk₀)
    · rw [hst] at hl
      cases hl
    · rw [hst] at hl
      cases hl
    · exact hst.connecting hs' h h₁ hl hk

theorem Supplied.reap {o : Manager × List Happening} (h : Supplied o.1)
    (hr : reap o = (m', hs)) : Supplied m' := by
  constructor
  · intro id s l hs' hl
    rw [reap_scope hr] at hs'
    obtain ⟨k, w, hk, hw⟩ := h.writing id s l hs' hl
    have hl' := SendStage.link?_of_line? (SendStage.line?_of_held? (SendStage.held?_of_writing? hl))
    exact ⟨k, w, (reap_of_refersTo hr (refersTo_of_send hs' hl')).trans hk, hw⟩
  · intro id s l k hs' hl hk
    rw [reap_scope hr] at hs'
    obtain ⟨k₀, hk₀, ⟨rfl, -⟩ | ⟨-, rfl⟩⟩ := reap_link hr hk
    · exact h.connecting id s l _ hs' hl hk₀
    · rfl

/-- What holds of the links in every state that a run reaches. -/
structure Sound (m : Manager) : Prop where
  directed : Directed m
  locked : Locked m
  supplied : Supplied m

theorem Sound.new (address : Endpoint) (config : Config) (clock : Nat) :
    Sound (new address config clock) :=
  ⟨.new address config clock, .new address config clock, .new address config clock⟩

theorem Sound.effect (h : Sound m) (he : Effect m mv m₁ hs) : Sound m₁ :=
  ⟨h.directed.effect he, h.locked.effect h.directed he,
    h.supplied.effect h.locked h.directed he⟩

theorem Sound.reap {o : Manager × List Happening} (h : Sound o.1) (hr : reap o = (m', hs)) :
    Sound m' :=
  ⟨h.directed.reap hr, h.locked.reap hr, h.supplied.reap hr⟩

theorem Sound.move (h : Sound m) (hm : m.move mv = some (m', hs)) : Sound m' := by
  obtain ⟨m₁, hs₁, he, hr | ⟨rfl, -⟩⟩ := move_effect hm
  · exact Sound.reap (h.effect he) hr
  · exact h.effect he

theorem run_sound {address : Endpoint} {config : Config} {clock : Nat} {moves : List Move}
    (h : (Manager.new address config clock).run moves = some (m, hs)) : Sound m :=
  run_invariant (fun _ _ _ _ hi hm => hi.move hm) (.new address config clock) h

end PeerLink.Manager
