import Mathlib.Algebra.GroupWithZero.Nat
import PeerLink.Proofs.Call.Readiness

namespace PeerLink.Manager

def frameSize (body : Bytes) : Nat := (Frame.encode body).length

def bothSizes (address : Endpoint) (frame : Bytes) : Nat :=
  frameSize (helloBody address) + frameSize frame

/-- What is ahead of a call at most, the bytes in the buffer of its link apart. -/
def SendStage.labour (address : Endpoint) (frame : Bytes) : SendStage → Nat
  | .starting => bothSizes address frame + 10
  | .linking .checking => bothSizes address frame + 9
  | .linking .entering => bothSizes address frame + 8
  | .linking (.confirming _) => bothSizes address frame + 7
  | .linking (.found _) => bothSizes address frame + 6
  | .linking (.evicting _) => bothSizes address frame + 6
  | .requesting _ => bothSizes address frame + 5
  | .queued _ => bothSizes address frame + 4
  | .connecting _ _ => bothSizes address frame + 3
  | .greeting _ _ unsent => unsent.length + frameSize frame + 2
  | .draining _ => frameSize frame + 1
  | .linking .refused | .flushing _ | .failing _ _ => 1
  | .finished _ _ | .abandoned => 0

def allowance (address : Endpoint) (frame : Bytes) : Nat := SendStage.starting.labour address frame

def Link.backlog (k : Link) : Nat := k.writer.elim 0 (·.buffer.length)

section Totals

variable (d : Endpoint) (m : Manager)

def labours : Nat :=
  (m.sends.map fun s => if s.destination = d then s.stage.labour m.address s.frame else 0).sum

def backlogs : Nat := (m.allLinks.map fun k => if k.destination = d then k.backlog else 0).sum

def effort : Nat := m.labours d + m.backlogs d

/-- What all calls to a destination may cost. -/
def allowances : Nat :=
  (m.sends.map fun s => if s.destination = d then allowance m.address s.frame else 0).sum

/-- Whether a move is a step of a call to a destination. -/
def serves : Move → Bool
  | .step (.send id) _ => (m.sends[id]?).any (·.destination = d)
  | _ => false

end Totals

variable {m m' m₁ : Manager} {mv : Move} {hs ws : List Happening} {l : LinkId} {k : Link}
  {id : SendId} {s : Send} {a : Answer} {d : Endpoint} {w : Writer} {f g : Link → Link}
  {stage : SendStage}

theorem sum_modify {α : Type} {xs : List α} {i : Nat} {x : α} {f : α → α} {g : α → Nat}
    (h : xs[i]? = some x) :
    ((xs.modify i f).map g).sum + g x = (xs.map g).sum + g (f x) := by
  induction xs generalizing i with
  | nil => cases h
  | cons y ys ih =>
    cases i with
    | zero =>
      cases h
      simp only [List.modify_zero_cons, List.map_cons, List.sum_cons]
      omega
    | succ i =>
      have hi := ih h
      simp only [List.modify_succ_cons, List.map_cons, List.sum_cons]
      omega

theorem backlog_of_writer (h : k.writer = some w) : k.backlog = w.buffer.length := by
  rw [Link.backlog, h]
  rfl

@[simp] theorem backlog_leave (k : Link) (w : Waiter) : (k.leave w).backlog = k.backlog := by
  rw [Link.backlog, Link.writer_leave]
  rfl

@[simp] theorem backlog_request (k : Link) (w : Waiter) : (k.request w).backlog = k.backlog := by
  rw [Link.backlog, Link.writer_request]
  rfl

@[simp] theorem backlog_disconnect (k : Link) : k.disconnect.backlog = 0 := rfl

@[simp] theorem backlog_retire (k : Link) : k.retire.backlog = k.backlog := rfl

theorem backlog_append (bytes : Bytes) (h : k.writer = some w) :
    (k.append bytes).backlog = w.buffer.length + bytes.length := by
  simp [Link.append, Link.backlog, h]

theorem backlog_consume (count : Nat) (h : k.writer = some w) :
    (k.consume count).backlog = w.buffer.length - count := by
  simp [Link.consume, Link.backlog, h]

theorem labours_setSend (hs' : m.sends[id]? = some s) (stage : SendStage) :
    (m.setSend id stage).labours d +
        (if s.destination = d then s.stage.labour m.address s.frame else 0) =
      m.labours d + if s.destination = d then stage.labour m.address s.frame else 0 :=
  sum_modify hs'

theorem allowances_setSend (hs' : m.sends[id]? = some s) (stage : SendStage) :
    (m.setSend id stage).allowances d = m.allowances d :=
  Nat.add_right_cancel (sum_modify hs')

theorem backlogs_modifyLink (hk : m.allLinks[l]? = some k)
    (hf : (f k).destination = k.destination) :
    (m.modifyLink l f).backlogs d + (if k.destination = d then k.backlog else 0) =
      m.backlogs d + if k.destination = d then (f k).backlog else 0 := by
  have h := sum_modify (f := f) (g := fun k => if k.destination = d then k.backlog else 0) hk
  rw [hf] at h
  exact h

theorem backlogs_modifyLink_le (hf : ∀ k, (f k).destination = k.destination)
    (hb : ∀ k, (f k).backlog ≤ k.backlog) : (m.modifyLink l f).backlogs d ≤ m.backlogs d := by
  cases hk : m.allLinks[l]? with
  | none =>
    have hsame : m.allLinks.modify l f = m.allLinks :=
      List.modify_eq_self (List.getElem?_eq_none_iff.mp hk)
    exact Nat.le_of_eq (congrArg (fun links => backlogs d { m with allLinks := links }) hsame)
  | some k =>
    have h := backlogs_modifyLink (d := d) hk (hf k)
    have hk := hb k
    split at h <;> omega

theorem effort_of_totals {e : Endpoint} {x x' y y' : Nat}
    (hlab : m₁.labours d + (if e = d then x else 0) = m.labours d + if e = d then x' else 0)
    (hlog : m₁.backlogs d + (if e = d then y else 0) = m.backlogs d + if e = d then y' else 0)
    (hlt : e = d → x' + y' < x + y) :
    m₁.effort d + (if e = d then 1 else 0) ≤ m.effort d := by
  rw [effort, effort]
  by_cases he : e = d
  · have hlt := hlt he
    simp only [if_pos he] at hlab hlog ⊢
    omega
  · simp only [if_neg he] at hlab hlog ⊢
    omega

theorem effort_setSend (hs' : m.sends[id]? = some s)
    (hlt : stage.labour m.address s.frame < s.stage.labour m.address s.frame) :
    (m.setSend id stage).effort d + (if s.destination = d then 1 else 0) ≤ m.effort d :=
  effort_of_totals (y := 0) (labours_setSend hs' stage) rfl fun _ => hlt

theorem effort_atLink (hs' : m.sends[id]? = some s) (hg : m.Goes l s.destination)
    (hf : ∀ k, (f k).destination = k.destination)
    (hlt : ∀ k, m.allLinks[l]? = some k → k.destination = d →
      stage.labour m.address s.frame + (f k).backlog <
        s.stage.labour m.address s.frame + k.backlog) :
    (m.atLink id l f stage).effort d + (if s.destination = d then 1 else 0) ≤ m.effort d := by
  obtain ⟨k, hk, hkd⟩ := hg
  have hlog := backlogs_modifyLink (d := d) hk (hf k)
  rw [hkd] at hlog
  exact effort_of_totals (labours_setSend hs' stage) hlog fun he => hlt k hk (hkd.trans he)

theorem LookupStep.labour {address : Endpoint} {frame : Bytes} {n n' : Lookup}
    (h : LookupStep m d n m₁ n') :
    (SendStage.linking n').labour address frame < (SendStage.linking n).labour address frame := by
  cases h <;> simp only [SendStage.labour] <;> omega

theorem LookupStep.backlogs {e : Endpoint} {n n' : Lookup} (h : LookupStep m e n m₁ n') :
    m₁.backlogs d = m.backlogs d := by
  cases h with
  | make => simp [Manager.backlogs, Link.backlog]
  | evict =>
    rw [evict_scope]
    rfl
  | _ => rfl

theorem SendStage.labour_pos {address : Endpoint} {frame : Bytes} (h : stage.line? = some l) :
    0 < stage.labour address frame := by
  cases stage <;> cases h <;> simp [SendStage.labour]

/-- A call that is ready has its frame ahead of it, behind what is in the buffer. -/
theorem Ready.labour (hr : Ready m id s l a g w ws) (hk : m.allLinks[l]? = some k) :
    w.buffer.length + frameSize s.frame + 1 <
      s.stage.labour m.address s.frame + k.backlog := by
  cases hr with
  | atOnce he hl _ _ hw =>
    cases hl.symm.trans hk
    rw [he, backlog_of_writer hw, SendStage.labour, bothSizes]
    omega
  | greeted he hu =>
    have hpos := List.length_pos_iff.mpr hu
    rw [he, SendStage.labour, List.length_nil]
    omega
  | drained he hl hw hb =>
    cases hl.symm.trans hk
    have hpos := List.length_pos_iff.mpr hb
    rw [he, backlog_of_writer hw, SendStage.labour, List.length_nil]
    omega

/-- Every step of a call uses something up, unless its link has been retired. -/
theorem SendStep.effort (hst : SendStep m id s a m₁ hs) (hs' : m.sends[id]? = some s)
    (hd : Directed m) (hl : Lasting d m) :
    m₁.effort d + (if s.destination = d then 1 else 0) ≤ m.effort d := by
  have hg : ∀ {l}, s.stage.link? = some l → m.Goes l s.destination :=
    fun hl => hd.sends id s _ hs' hl
  cases hst with
  | refuse he | reject he | start he | found he | turnAway he | quit he | dial he =>
    refine effort_setSend hs' ?_
    rw [he]
    simp only [SendStage.labour]
    omega
  | drain he =>
    refine effort_setSend hs' ?_
    rw [he]
    simp only [SendStage.labour, bothSizes]
    omega
  | greet he _ hb =>
    refine effort_setSend hs' ?_
    rw [he, (Frame.encode?_eq_ok.mp hb).2]
    simp only [SendStage.labour, bothSizes, frameSize, helloBody]
    omega
  | greetPart he _ h₀ =>
    refine effort_setSend hs' ?_
    rw [he]
    simp only [SendStage.labour, List.length_drop]
    omega
  | @find n n' m₂ he hk =>
    have hn := lookupStep_cases hk
    have hm₂ : m₂.effort d = m.effort d := by
      rw [Manager.effort, Manager.effort, hn.backlogs, lookupStep_scope hk]
      rfl
    have hs₂ : m₂.sends[id]? = some s := by
      rw [lookupStep_scope hk]
      exact hs'
    rw [← hm₂]
    refine effort_setSend hs₂ ?_
    rw [he]
    exact hn.labour
  | request he =>
    refine effort_atLink hs' (hg (by rw [he]; rfl)) (fun k => k.destination_request _)
      fun k _ _ => ?_
    rw [he, backlog_request]
    simp only [SendStage.labour]
    omega
  | cancel he =>
    refine effort_atLink hs' (hg (SendStage.link?_of_line? he)) (fun k => k.destination_leave _)
      fun k _ _ => ?_
    rw [backlog_leave]
    exact Nat.add_lt_add_right (SendStage.labour_pos he) _
  | retry he _ hk _ hr =>
    refine effort_atLink hs' (hg (by rw [he]; rfl)) (fun k => k.destination_leave _)
      fun k hk' hkd => ?_
    cases hk.symm.trans hk'
    cases hr.symm.trans (hl _ _ hk hkd)
  | place hr _ hb =>
    refine effort_atLink hs' (hg (SendStage.link?_of_line? hr.line?)) (fun k => hr.destination k)
      fun k hk _ => ?_
    have hlt := hr.labour hk
    rw [backlog_append _ (hr.writer hk), (Frame.encode?_eq_ok.mp hb).2, SendStage.labour,
      ← frameSize]
    omega
  | overflow hr =>
    refine effort_atLink hs' (hg (SendStage.link?_of_line? hr.line?))
      (fun k => (Link.destination_leave _ _).trans (hr.destination k)) fun k hk _ => ?_
    have hlt := hr.labour hk
    rw [backlog_leave, backlog_disconnect, SendStage.labour]
    omega
  | failConnect hu =>
    refine effort_atLink hs' (hg (SendStage.link?_of_line? (SendStage.line?_of_held? hu.held?)))
      (fun _ => rfl) fun k _ _ => ?_
    rw [backlog_retire]
    cases hu with
    | timedOut he | refused he | tooLong he | broken he =>
      rw [he]
      simp only [SendStage.labour]
      omega
  | @giveUp l _ he =>
    have hgo : m.Goes l s.destination := hg (by rw [he]; rfl)
    rw [evict_scope]
    refine effort_atLink (m := { m with links := _ }) hs' hgo (fun k => k.destination_leave _)
      fun k _ _ => ?_
    rw [he, backlog_leave]
    simp only [SendStage.labour]
    omega
  | @writePart l k w count he _ hk hw h₀ h₁ =>
    have hgo : m.Goes l s.destination := hg (by obtain he | he := he <;> rw [he] <;> rfl)
    have hkd : k.destination = s.destination := Goes.unique ⟨k, hk, rfl⟩ hgo
    have hlog := backlogs_modifyLink (f := (·.consume count)) (d := d) hk rfl
    rw [hkd, backlog_of_writer hw, backlog_consume count hw] at hlog
    exact effort_of_totals (x := 0) rfl hlog fun _ => by omega
  | writeAll he _ hk hw hb =>
    refine effort_atLink hs' (hg (by rw [he]; rfl)) (fun k => (k.consume _).destination_leave _)
      fun k hk' _ => ?_
    cases hk.symm.trans hk'
    rw [he, backlog_leave, backlog_consume _ hw]
    simp only [SendStage.labour]
    omega
  | @failWrite l _ _ _ he =>
    have hgo : m.Goes l s.destination := hg (by obtain he | he := he <;> rw [he] <;> rfl)
    refine effort_atLink hs' hgo (fun k => k.disconnect.destination_leave _) fun k _ _ => ?_
    rw [backlog_leave, backlog_disconnect]
    obtain he | he := he <;> rw [he] <;> simp only [SendStage.labour] <;> omega

theorem allowances_of_step (hst : SendStep m id s a m₁ hs) (hs' : m.sends[id]? = some s) :
    m₁.allowances d = m.allowances d := by
  have hsends : m₁.sends.map (fun s => (s.destination, s.frame)) =
      m.sends.map fun s => (s.destination, s.frame) := by
    refine List.ext_getElem? fun j => ?_
    rw [List.getElem?_map, List.getElem?_map]
    by_cases hj : j = id
    · obtain ⟨stage, h₁⟩ := hst.same hs'
      rw [hj, h₁, hs']
      rfl
    · rw [hst.others hj]
  have hsum := congrArg (fun xs => (xs.map fun x : Endpoint × Bytes =>
    if x.1 = d then allowance m.address x.2 else 0).sum) hsends
  rw [allowances, allowances, hst.scope]
  simpa only [List.map_map, Function.comp_def] using hsum

theorem ClosingStep.backlogs {id : ClosingId} {c : Closing} (h : ClosingStep m id c a m₁ hs) :
    m₁.backlogs d ≤ m.backlogs d := by
  cases h with
  | request =>
    exact backlogs_modifyLink_le (fun k => k.destination_request _) fun k =>
      Nat.le_of_eq (backlog_request k _)
  | retireIdle | retireBusy =>
    refine backlogs_modifyLink_le (fun k => k.shutDown.destination_leave _) fun k => ?_
    rw [backlog_leave]
    exact Nat.zero_le _
  | clearObservers =>
    rw [clearObservers_scope]
    exact Nat.le_refl _
  | _ => exact Nat.le_refl _

/-- Nothing adds to what is ahead of the calls to a destination but a new one, and that no more than
its allowance. -/
theorem Effect.effort (he : Effect m mv m₁ hs) (hd : Directed m) (hl : Lasting d m) :
    m₁.effort d + (if m.serves d mv then 1 else 0) + m.allowances d ≤
      m.effort d + m₁.allowances d := by
  cases he with
  | @aside mv _ _ hm hv =>
    have hn : m.serves d mv = false := by
      cases mv with
      | step task a => cases task <;> first | rfl | exact absurd rfl (hv _ a)
      | _ => rfl
    rw [hm, hn]
    exact Nat.le_refl _
  | @call e f =>
    have hsum : ∀ (g : Send → Nat) (s : Send),
        ((m.sends ++ [s]).map g).sum = (m.sends.map g).sum + g s := by simp
    simp only [Manager.effort, labours, allowances, hsum, serves, allowance, backlogs]
    simp only [Bool.false_eq_true, if_false]
    omega
  | ask | finish => exact Nat.le_refl _
  | @send id s a _ _ hs' hst =>
    have hw := hst.effort hs' hd hl
    have hserves : m.serves d (.step (.send id) a) = decide (s.destination = d) := by
      simp [serves, hs']
    rw [hserves, allowances_of_step hst hs']
    simpa using hw
  | @drop id s hs' hst =>
    have hw : (m.setSend id .abandoned).effort d + (if s.destination = d then 1 else 0) ≤
      m.effort d := effort_setSend hs' (by rw [hst]; exact Nat.succ_pos _)
    rw [allowances_setSend hs']
    exact Nat.add_le_add_right (Nat.le_of_add_right_le hw) _
  | @leave id s l hs' hline =>
    have hg := hd.sends id s l hs' (SendStage.link?_of_line? hline)
    have hw : (m.atLink id l (·.leave (.send id)) .abandoned).effort d +
        (if s.destination = d then 1 else 0) ≤ m.effort d := by
      refine effort_atLink hs' hg (fun k => k.destination_leave _) fun k _ _ => ?_
      rw [backlog_leave]
      exact Nat.add_lt_add_right (SendStage.labour_pos hline) _
    have ha : (m.atLink id l (·.leave (.send id)) .abandoned).allowances d = m.allowances d :=
      allowances_setSend hs' _
    rw [ha]
    exact Nat.add_le_add_right (Nat.le_of_add_right_le hw) _
  | @opening id o m₂ n ho hk =>
    have hlog := (lookupStep_cases hk).backlogs (d := d)
    have hlab : (m₂.setOpening id n).labours d = m.labours d := by
      rw [lookupStep_scope hk]
      rfl
    have ha : (m₂.setOpening id n).allowances d = m.allowances d := by
      rw [lookupStep_scope hk]
      rfl
    have hm : (m₂.setOpening id n).effort d = m.effort d := by
      rw [Manager.effort, hlab, Manager.effort, ← hlog]
      rfl
    rw [hm, ha]
    exact Nat.le_refl _
  | closing hc hst =>
    have hlog := hst.backlogs (d := d)
    have hlab : m₁.labours d = m.labours d := by
      rw [hst.scope]
      rfl
    have ha : m₁.allowances d = m.allowances d := by
      rw [hst.scope]
      rfl
    rw [ha, Manager.effort, Manager.effort, hlab]
    exact Nat.add_le_add_right (Nat.add_le_add_left hlog _) _

theorem reap_backlogs {o : Manager × List Happening} (h : reap o = (m', hs)) :
    m'.backlogs d ≤ o.1.backlogs d := by
  cases h
  suffices ∀ (ls : List (LinkId × StreamId)) (m : Manager),
      (ls.foldl (fun m p => m.modifyLink p.1 Link.disconnect) m).backlogs d ≤
        m.backlogs d from this _ _
  intro ls
  induction ls with
  | nil => exact fun _ => Nat.le_refl _
  | cons p ls ih =>
    exact fun m => Nat.le_trans (ih _)
      (backlogs_modifyLink_le (fun _ => rfl) fun _ => Nat.zero_le _)

theorem move_effort (hm : m.move mv = some (m', hs)) (hd : Directed m) (hl : Lasting d m) :
    m'.effort d + (if m.serves d mv then 1 else 0) + m.allowances d ≤
      m.effort d + m'.allowances d := by
  obtain ⟨m₁, hs₁, he, hr | ⟨rfl, -⟩⟩ := move_effect hm
  · have h₁ := he.effort hd hl
    have hlog := reap_backlogs (d := d) hr
    have hlab : m'.labours d = m₁.labours d := by
      rw [reap_scope hr]
      rfl
    have ha : m'.allowances d = m₁.allowances d := by
      rw [reap_scope hr]
      rfl
    have hle : m'.effort d ≤ m₁.effort d := by
      rw [effort, effort, hlab]
      exact Nat.add_le_add_left hlog _
    rw [ha]
    omega
  · exact he.effort hd hl

end PeerLink.Manager
