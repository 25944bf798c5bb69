import PeerLink.Proofs.Receiver.Containment
import PeerLink.Proofs.Stream.Shutting

namespace PeerLink.Manager

/-- A link says that it is connected if and only if it has a stream. -/
def Link.Faithful (k : Link) : Prop := k.connected = k.writer.isSome

namespace Link.Faithful

variable {k : Link}

theorem request (h : k.Faithful) (w : Waiter) : (k.request w).Faithful := by
  rw [Link.request_rest]
  exact h

theorem leave (h : k.Faithful) (w : Waiter) : (k.leave w).Faithful := by
  rw [Link.leave_rest]
  exact h

theorem append (h : k.Faithful) (bytes : Bytes) : (k.append bytes).Faithful :=
  h.trans (Option.isSome_map ..).symm

theorem consume (h : k.Faithful) (count : Nat) : (k.consume count).Faithful :=
  h.trans (Option.isSome_map ..).symm

theorem disconnect (k : Link) : k.disconnect.Faithful := rfl

theorem shutDown (k : Link) : k.shutDown.Faithful := rfl

end Link.Faithful

def Faithful (m : Manager) : Prop := ∀ (l : LinkId) (k : Link), m.allLinks[l]? = some k → k.Faithful

/-- A receiver is past its greeting, and not over. -/
def Receives (m : Manager) (k : Nat) : Prop := ∃ r, m.receivers[k]? = some r ∧ r.stage.Live

def Dark (m : Manager) : Prop :=
  ∀ d (l : LinkId) (k : Link), m.links.get? d = some l → m.allLinks[l]? = some k → k.writer = none

structure Stilled (m : Manager) : Prop where
  stopped : m.acceptor = .stopped
  ended : ∀ r ∈ m.receivers, r.stage = .ended

def Overdue (ts : List Transition) : Prop :=
  ∃ t ∈ ts, ∃ address count, .warned (.tasksRemain address count) ∈ t.happenings

structure Subsided (m : Manager) (ts : List Transition) (stage : ClosingStage) : Prop where
  begun : stage ≠ .swapping
  cancelled : stage ≠ .cancelling → m.cancelled = true
  dark : stage.Cleared → Dark m
  stilled : ∀ time, stage = .finished time → Overdue ts ∨ Stilled m

def Subsiding (m : Manager) (ts : List Transition) (c : ClosingId) : Prop :=
  ∃ stage, m.closings[c]? = some { ending := .close, stage } ∧ Subsided m ts stage

variable {m m' m₁ m₂ : Manager} {mv : Move} {hs hs₁ : List Happening} {l : LinkId} {k k₁ : Link}
  {id : SendId} {s : Send} {a : Answer} {d : Endpoint} {n n' : Lookup} {c : ClosingId}
  {y : Closing} {stage : ClosingStage} {ts : List Transition} {t : Transition} {i : Nat}

theorem Faithful.new (address : Endpoint) (config : Config) (clock : Nat) :
    Faithful (new address config clock) := by
  intro l k hk
  simp [Manager.new] at hk

theorem Faithful.modify {f : Link → Link} (h : Faithful m)
    (hf : ∀ k : Link, k.Faithful → (f k).Faithful) : Faithful (m.modifyLink l f) := by
  intro i k₁ hk₁
  obtain ⟨k, hk, ⟨-, rfl⟩ | ⟨-, rfl⟩⟩ := getElem?_modify_cases hk₁
  · exact hf k (h i k hk)
  · exact h i k₁ hk

theorem Faithful.lookup (h : Faithful m) (hk : LookupStep m d n m₂ n') : Faithful m₂ := by
  cases hk with
  | make =>
    intro i k₁ hk₁
    obtain hk | ⟨-, rfl⟩ := getElem?_concat_cases hk₁
    · exact h i k₁ hk
    · rfl
  | evict =>
    rw [evict_scope]
    exact h
  | _ => exact h

theorem Ready.faithful {g : Link → Link} {w : Writer} (hr : Ready m id s l a g w hs)
    (h : k.Faithful) : (g k).Faithful := by
  cases hr with
  | atOnce => exact h
  | greeted => rfl
  | drained => exact h.consume _

theorem Faithful.effect (h : Faithful m) (he : Effect m mv m₁ hs) : Faithful m₁ := by
  cases he with
  | aside hm =>
    rw [hm]
    exact h
  | call | ask | finish | drop => exact h
  | leave => exact h.modify fun _ hk => hk.leave _
  | opening _ hk => exact (h.lookup (lookupStep_cases hk) :)
  | send _ hst =>
    cases hst with
    | find _ hk => exact (h.lookup (lookupStep_cases hk) :)
    | request => exact h.modify fun _ hk => hk.request _
    | cancel | retry => exact h.modify fun _ hk => hk.leave _
    | place hr => exact h.modify fun _ hk => (hr.faithful hk).append _
    | overflow => exact h.modify fun _ _ => (Link.Faithful.disconnect _).leave _
    | failConnect => exact h.modify fun _ hk => hk
    | giveUp =>
      rw [evict_scope]
      exact h.modify fun _ hk => hk.leave _
    | writePart => exact h.modify fun _ hk => hk.consume _
    | writeAll => exact h.modify fun _ hk => (hk.consume _).leave _
    | failWrite => exact h.modify fun _ _ => (Link.Faithful.disconnect _).leave _
    | _ => exact h
  | closing _ hst =>
    cases hst with
    | request => exact h.modify fun _ hk => hk.request _
    | retireIdle | retireBusy => exact h.modify fun _ _ => (Link.Faithful.shutDown _).leave _
    | clearObservers =>
      rw [clearObservers_scope]
      exact h
    | _ => exact h

theorem Faithful.move (h : Faithful m) (hm : m.move mv = some (m', hs)) : Faithful m' := by
  obtain ⟨m₁, hs₁, he, hr | ⟨rfl, -⟩⟩ := move_effect hm
  · intro l k₁ hk₁
    obtain ⟨k, hk, ⟨rfl, -⟩ | ⟨-, rfl⟩⟩ := reap_link hr hk₁
    · exact h.effect he l k₁ hk
    · rfl
  · exact h.effect he

theorem run_faithful {address : Endpoint} {config : Config} {clock : Nat} {moves : List Move}
    (h : (new address config clock).run moves = some (m, hs)) : Faithful m :=
  run_invariant (fun _ _ _ _ => .move) (.new address config clock) h

theorem isConnected_iff (h : Faithful m) :
    m.isConnected l = true ↔ ∃ k : Link, m.allLinks[l]? = some k ∧ k.writer.isSome = true := by
  rw [isConnected]
  cases hk : m.allLinks[l]? with
  | none => simp
  | some k => simp [show k.connected = _ from h l k hk]

theorem keyed_evict (h : m.links.Keyed) : (m.evict d l).links.Keyed := by
  rw [evict]
  split
  · exact h.erase d
  · exact h

theorem LookupStep.keyed (hk : LookupStep m d n m₂ n') (h : m.links.Keyed) : m₂.links.Keyed := by
  cases hk with
  | make hl => exact h.insert hl
  | evict => exact keyed_evict h
  | _ => exact h

theorem Effect.keyed (he : Effect m mv m₁ hs) (h : m.links.Keyed) : m₁.links.Keyed := by
  cases he with
  | aside hm =>
    rw [hm]
    exact h
  | call | ask | finish | drop | leave => exact h
  | opening _ hk => exact (lookupStep_cases hk).keyed h
  | send _ hst =>
    cases hst with
    | find _ hk => exact (lookupStep_cases hk).keyed h
    | giveUp => exact keyed_evict h
    | _ => exact h
  | closing _ hst =>
    cases hst with
    | clearLinks => exact List.nodup_nil
    | clearObservers =>
      rw [clearObservers_scope]
      exact h
    | _ => exact h

theorem move_keyed (hm : m.move mv = some (m', hs)) (h : m.links.Keyed) : m'.links.Keyed := by
  obtain ⟨m₁, hs₁, he, hr⟩ := move_effect hm
  rw [scope_of_reap hr]
  exact he.keyed h

theorem run_keyed {address : Endpoint} {config : Config} {clock : Nat} {moves : List Move}
    (h : (new address config clock).run moves = some (m, hs)) : m.links.Keyed :=
  run_invariant (m := new address config clock) (I := fun m => m.links.Keyed)
    (fun _ _ _ _ hk hm => move_keyed hm hk) List.nodup_nil h

theorem nodup_values (h : m.links.Keyed) (hd : Directed m) : m.links.values.Nodup := by
  refine List.Nodup.map_on ?_ (List.Nodup.of_map _ h)
  rintro ⟨d, l⟩ he ⟨d', l'⟩ he' (rfl : l = l')
  rw [(hd.table d l he).unique (hd.table d' l he')]

theorem length_eq_countP {α : Type} {xs : List α} {p : α → Bool} {is : List Nat}
    (hn : is.Nodup) (h : ∀ i, i ∈ is ↔ ∃ x, xs[i]? = some x ∧ p x = true) :
    is.length = xs.countP p := by
  obtain ⟨js, hjs, hlen, hj⟩ := exists_places xs p
  have hsame : is.Perm js :=
    (List.perm_ext_iff_of_nodup hn hjs).mpr fun i => (h i).trans (hj i).symm
  exact hsame.length_eq.trans hlen

/-- While a manager is open, it counts the streams of its links and the receivers past their
greeting. -/
theorem connectionCount_eq (ht : Tabled m) (hf : Faithful m) (hk : m.links.Keyed) (hc : Tallied m)
    (ho : m.closed = false) : m.connectionCount =
      m.allLinks.countP (·.writer.isSome) + m.receivers.countP (·.stage.Live) := by
  rw [connectionCount, show m.established = _ from hc]
  refine congrArg (· + _) (length_eq_countP ((nodup_values hk ht.sound.directed).filter _) ?_)
  intro l
  rw [List.mem_filter, isConnected_iff hf]
  refine and_iff_right_of_imp fun ⟨k, hk, hw⟩ => ?_
  have hl := ht.current.table ho l k hk (ht.in_use hk (.inl (Option.isSome_iff_ne_none.mp hw)))
  exact List.mem_map.mpr ⟨_, Table.mem_of_get? hl, rfl⟩

/-- The counter stays as it is, or goes up or down by one together with one receiver. -/
theorem move_counts (h : Tallied m) (hm : m.move mv = some (m', hs)) :
    m'.established = m.established ∧ (∀ i, m'.Receives i ↔ m.Receives i) ∨
      ∃ i, (∀ j, j ≠ i → (m'.Receives j ↔ m.Receives j)) ∧
        (¬m.Receives i ∧ m'.Receives i ∧ m'.established = m.established + 1 ∨
          m.Receives i ∧ ¬m'.Receives i ∧ m.established = m'.established + 1) := by
  have h' : m'.established = _ := h.move hm
  rw [show m.established = _ from h, h']
  obtain hk | ⟨stream, peer, hk⟩ | ⟨i, a, stage, -, hk⟩ := move_receivers hm
  · exact .inl ⟨by rw [hk], fun j => by rw [Receives, Receives, hk]⟩
  · refine .inl ⟨by rw [hk, List.countP_append]; rfl, fun j => ?_⟩
    constructor
    · rintro ⟨r, hr, hl⟩
      rw [hk] at hr
      obtain hr | ⟨-, rfl⟩ := getElem?_concat_cases hr
      · exact ⟨r, hr, hl⟩
      · cases hl
    · rintro ⟨r, hr, hl⟩
      refine ⟨r, ?_, hl⟩
      rw [hk, List.getElem?_append_left (List.getElem?_eq_some_iff.mp hr).1, hr]
  · have hother : ∀ j, j ≠ i → (m'.Receives j ↔ m.Receives j) := fun j hj => by
      rw [Receives, Receives, hk, List.getElem?_modify_ne _ _ hj.symm]
    cases hr : m.receivers[i]? with
    | none =>
      have hsame : m'.receivers = m.receivers := by
        rw [hk]
        exact List.modify_eq_self (List.getElem?_eq_none_iff.mp hr)
      exact .inl ⟨by rw [hsame], fun j => by rw [Receives, Receives, hsame]⟩
    | some r =>
      have hc := countP_modify (p := fun r : Receiver => decide r.stage.Live)
        (f := fun r => { r with stage }) hr
      rw [← hk] at hc
      have hbefore : m.Receives i ↔ r.stage.Live := by simp [Receives, hr]
      have hafter : m'.Receives i ↔ stage.Live := by simp [Receives, hk, hr]
      have hsame : (stage.Live ↔ r.stage.Live) → ∀ j, m'.Receives j ↔ m.Receives j := fun h j => by
        by_cases hj : j = i
        · rw [hj, hafter, hbefore, h]
        · exact hother j hj
      by_cases hl : r.stage.Live <;> by_cases hl' : stage.Live <;>
        simp only [hl, hl', decide_true, decide_false, if_true, Bool.false_eq_true, if_false]
          at hc
      · exact .inl ⟨by omega, hsame (iff_of_true hl' hl)⟩
      · exact .inr ⟨i, hother, .inr ⟨hbefore.mpr hl, fun h => hl' (hafter.mp h), by omega⟩⟩
      · exact .inr ⟨i, hother, .inl ⟨fun h => hl (hbefore.mp h), hafter.mpr hl', by omega⟩⟩
      · exact .inl ⟨by omega, hsame (iff_of_false hl' hl)⟩

theorem SendStep.untouched_of_cancelled (hst : SendStep m id s a m₁ hs) (hc : m.cancelled = true)
    (hk : m.allLinks[l]? = some k) : Untouched m₁ l k := by
  cases hst with
  | refuse | reject | start | found | turnAway | quit => exact .refl hk
  | find _ hf => exact (Untouched.lookup hk (lookupStep_cases hf) :)
  | cancel => exact Untouched.modify hk fun _ => leave_keeps k _
  | giveUp =>
    rw [evict_scope]
    exact Untouched.modify hk fun _ => leave_keeps k _
  | request _ hr | retry _ hr | dial _ hr | drain _ hr | place _ hr | overflow _ hr | greet _ hr
  | failConnect _ hr | greetPart _ hr | writePart _ hr | writeAll _ hr | failWrite _ hr =>
    cases hc.symm.trans hr

theorem Effect.idle (he : Effect m mv m₁ hs) (hc : m.cancelled = true)
    (hk : m.allLinks[l]? = some k) (hw : k.writer = none) :
    ∃ k₁, m₁.allLinks[l]? = some k₁ ∧ k₁.writer = none := by
  have hkept : Untouched m₁ l k → ∃ k₁, m₁.allLinks[l]? = some k₁ ∧ k₁.writer = none :=
    fun ⟨k₁, hk₁, hw₁, _⟩ => ⟨k₁, hk₁, hw₁.trans hw⟩
  cases he with
  | aside hm =>
    rw [hm]
    exact ⟨k, hk, hw⟩
  | call | ask | finish | drop => exact ⟨k, hk, hw⟩
  | leave => exact hkept (Untouched.modify hk fun _ => leave_keeps k _)
  | opening _ hf => exact hkept (Untouched.lookup hk (lookupStep_cases hf) :)
  | send _ hst => exact hkept (hst.untouched_of_cancelled hc hk)
  | @closing id _ _ _ _ _ hst =>
    cases hst with
    | request => exact hkept (Untouched.modify hk fun _ => request_keeps k _)
    | @retireIdle i | @retireBusy i =>
      refine ⟨if i = l then k.shutDown.leave (.closing id) else k, ?_, ?_⟩
      · simp [retiring, setClosing, modifyLink, List.getElem?_modify, hk]
      · split
        · exact (leave_keeps _ _).1
        · exact hw
    | clearObservers =>
      rw [clearObservers_scope]
      exact ⟨k, hk, hw⟩
    | _ => exact ⟨k, hk, hw⟩

theorem Dark.effect (h : Dark m) (hd : Directed m) (hc : m.cancelled = true)
    (he : Effect m mv m₁ hs) : Dark m₁ := by
  intro d l k₁ hl hk₁
  obtain hl | hn := he.listed hl
  · obtain ⟨k, hk, -⟩ := hd.table d l (Table.mem_of_get? hl)
    obtain ⟨k₂, hk₂, hw⟩ := he.idle hc hk (h d l k hl hk)
    cases hk₁.symm.trans hk₂
    exact hw
  · exact (he.made hn hk₁).1

theorem Dark.reap (h : Dark m₁)
    (hr : reap (m₁, hs₁) = (m', hs) ∨ m₁ = m' ∧ hs₁ = hs) : Dark m' := by
  obtain hr | ⟨rfl, -⟩ := hr
  · intro d l k₁ hl hk₁
    rw [reap_scope hr] at hl
    obtain ⟨k, hk, ⟨rfl, -⟩ | ⟨-, rfl⟩⟩ := reap_link hr hk₁
    · exact h d l k₁ hl hk
    · rfl
  · exact h

theorem stilled_of_runningTasks (h : m.runningTasks = 0) : Stilled m := by
  simp only [runningTasks, Nat.add_eq_zero_iff, List.length_eq_zero_iff, List.filter_eq_nil_iff,
    decide_eq_true_eq, not_not] at h
  refine ⟨?_, h.1.2⟩
  by_contra hn
  rw [if_neg hn] at h
  cases h.1.1

theorem Stilled.move (h : Stilled m) (hm : m.move mv = some (m', hs)) : Stilled m' := by
  have hacc : ∀ a, mv ≠ .step .acceptor a := by
    rintro a rfl
    obtain ⟨⟨m₁, hs₁⟩, ho, -⟩ := move_step hm
    cases acceptorStep_cases ho with
    | stop hn => exact hn h.stopped
    | accept hn | fail hn | resume hn => cases hn.symm.trans h.stopped
  have hrec : ∀ i a, mv ≠ .step (.receiver i) a := by
    rintro i a rfl
    obtain ⟨⟨m₁, hs₁⟩, ho, -⟩ := move_step hm
    obtain ⟨r, hr, hst⟩ := receiverStep_cases ho
    have hend := h.ended r (List.mem_of_getElem? hr)
    cases hst with
    | halt hn => obtain hn | ⟨t, rd, hn⟩ := hn <;> cases hend.symm.trans hn
    | start hn | reject hn | disagree hn | establish hn | vanish hn | expectGreeting hn
    | expire hn | breakGreeting hn | readGreeting hn | leave hn | fail hn | take hn | finish hn
    | expectFrame hn | breakFrame hn | readFrame hn | locate hn | widen hn | miss hn | hand hn =>
      cases hend.symm.trans hn
  refine ⟨((accepting_of_move hm).1.resolve_left fun ⟨a, ha⟩ => hacc a ha).trans h.stopped, ?_⟩
  suffices hk : m'.receivers = m.receivers from hk ▸ h.ended
  cases mv with
  | step task a =>
    cases task with
    | acceptor => exact absurd rfl (hacc a)
    | receiver i => exact absurd rfl (hrec i a)
    | closing i =>
      obtain ⟨⟨m₁, hs₁⟩, ho, hr⟩ := move_step hm
      rw [reap_scope hr, closingStep_scope ho]
    | _ => exact receivers_of_move hm not_false
  | _ => exact receivers_of_move hm not_false

theorem Overdue.append (h : Overdue ts) : Overdue (ts ++ [t]) := by
  obtain ⟨u, hu, h⟩ := h
  exact ⟨u, List.mem_append_left _ hu, h⟩

theorem Subsided.step (h : Subsided m ts y.stage) (hy : m.closings[c]? = some y)
    (he : y.ending = .close) (hd : Directed m) (hst : ClosingStep m c y a m₁ hs)
    (hhs : hs ⊆ t.happenings) : ∃ stage, m₁.closings[c]? = some { ending := .close, stage } ∧
      Subsided m₁ (ts ++ [t]) stage := by
  have heff : Effect m (.step (.closing c) a) m₁ hs := .closing hy hst
  obtain ⟨ending, stage⟩ := y
  cases he
  have hcancelled : stage ≠ .cancelling → m.cancelled = true := h.cancelled
  have hdark : stage.Cleared → Dark m₁ := fun hc =>
    (h.dark hc).effect hd (hcancelled (by rintro rfl; exact hc)) heff
  cases hst with
  | again hn | swap hn => exact absurd hn h.begun
  | cancel hn =>
    exact ⟨_, setClosing_get hy _, nofun, fun _ => rfl, fun hc => hc.elim, nofun⟩
  | clearObservers hn hnext =>
    obtain ⟨-, rfl⟩ | ⟨hdrop, -⟩ := hnext
    · cases hn
      have hy' := hy
      have hc := hcancelled nofun
      rw [clearObservers_scope] at heff ⊢
      exact ⟨_, setClosing_get hy _, nofun, fun _ => hc, fun hc => hc.elim, nofun⟩
    · cases hdrop
  | collect hn =>
    cases hn
    exact ⟨_, setClosing_get hy _, nofun, fun _ => hcancelled nofun, fun hc => hc.elim, nofun⟩
  | clearLinks hn hnext =>
    obtain ⟨-, rfl⟩ | ⟨hdrop, -⟩ := hnext
    · cases hn
      exact ⟨_, setClosing_get hy _, nofun, fun _ => hcancelled nofun, fun _ => nofun, nofun⟩
    · cases hdrop
  | await hn | request hn | retireIdle hn | retireBusy hn | flushPart hn | flushEnd hn =>
    cases hn
    exact ⟨_, setClosing_get hy _, nofun, fun _ => hcancelled nofun, fun _ => hdark trivial, nofun⟩
  | done hn hr =>
    cases hn
    have hstill := stilled_of_runningTasks hr
    exact ⟨_, setClosing_get hy _, nofun, fun _ => hcancelled nofun, fun _ => hdark trivial,
      fun _ _ => .inr ⟨hstill.stopped, hstill.ended⟩⟩
  | giveUp hn =>
    cases hn
    exact ⟨_, setClosing_get hy _, nofun, fun _ => hcancelled nofun, fun _ => hdark trivial,
      fun _ _ => .inl ⟨t, List.mem_concat_self, _, _, hhs List.mem_cons_self⟩⟩

theorem Subsiding.move (h : Subsiding m ts c) (hd : Directed m)
    (hm : m.move mv = some (m', hs)) : Subsiding m' (ts ++ [⟨m, mv, m', hs⟩]) c := by
  obtain ⟨stage, hy, h⟩ := h
  obtain ⟨m₁, hs₁, he, hr⟩ := move_effect hm
  have hsc := scope_of_reap hr
  obtain hy₁ | ⟨a, rfl, hst⟩ := he.keeps_closing hy
  · refine ⟨stage, closings_of_reap hr ▸ hy₁, h.begun,
      fun hn => (move_later hm).cancelled (h.cancelled hn), fun hc => Dark.reap ?_ hr,
      fun time ht => (h.stilled time ht).imp Overdue.append fun hs => hs.move hm⟩
    exact (h.dark hc).effect hd (h.cancelled (by rintro rfl; exact hc)) he
  · obtain ⟨stage₁, hy₁, h₁⟩ :=
      h.step (t := ⟨m, .step (.closing c) a, m', hs⟩) hy rfl hd hst (happenings_of_reap hr)
    refine ⟨stage₁, closings_of_reap hr ▸ hy₁, h₁.begun, fun hn => ?_,
      fun hc => (h₁.dark hc).reap hr, fun time ht => (h₁.stilled time ht).imp_right fun hs => ?_⟩
    · rw [hsc]
      exact h₁.cancelled hn
    · rw [hsc]
      exact ⟨hs.stopped, hs.ended⟩

theorem Transition.Marks.subsiding (h : t.Marks c)
    (hm : t.before.move t.move = some (t.after, t.happenings)) : Subsiding t.after [] c := by
  have hr := h.effect hm
  refine ⟨.cancelling, ?_, nofun, fun hn => absurd rfl hn, fun hc => hc.elim, nofun⟩
  rw [reap_scope hr]
  exact setClosing_get h.2.2 _

theorem Subsiding.connectionCount {time : Nat} (h : Subsiding m ts c) (hf : Faithful m)
    (hc : Tallied m) (hk : m.links.Keyed)
    (hover : m.closings[c]? = some { ending := .close, stage := .finished time })
    (hn : ¬Overdue ts) : m.connectionCount = 0 := by
  obtain ⟨stage, hy, h⟩ := h
  cases hover.symm.trans hy
  have hstill := (h.stilled time rfl).resolve_left hn
  have hno : m.established = 0 := by
    rw [show m.established = _ from hc, List.countP_eq_zero]
    intro r hr hl
    rw [hstill.ended r hr] at hl
    cases hl
  rw [Manager.connectionCount, hno, List.filter_eq_nil_iff.mpr fun l hl => ?_]
  · rfl
  · rintro hcon
    obtain ⟨k, hk', hw⟩ := (isConnected_iff hf).mp hcon
    obtain ⟨d, hd⟩ := Table.mem_values hl
    rw [h.dark trivial d l k (hk.get? hd) hk'] at hw
    cases hw

/-- The number of connections under every schedule, whatever the network and the callers do. A link
says that it is connected if and only if it has a stream. While the manager is open, the number of
connections is that of the links that have a stream together with that of the receivers that are past
their greeting and not over. The counter for the latter is exact: it goes up by one when a receiver
gets past its greeting, and down by one, from one at least, when such a receiver is over, and stays
the same otherwise. Once the closing that has marked the manager as closed is over, unless it
has warned that tasks remain, the number is zero. -/
theorem connections_counted {address : Endpoint} {config : Config} {clock : Nat}
    {moves : List Move} (h : (new address config clock).run moves = some (m, hs)) :
    (∀ (l : LinkId) (k : Link), m.allLinks[l]? = some k →
      (k.connected = true ↔ k.writer ≠ none)) ∧
    (m.closed = false → m.connectionCount =
      m.allLinks.countP (·.writer.isSome) + m.receivers.countP (·.stage.Live)) ∧
    (∀ mv m' hs', m.move mv = some (m', hs') →
      m'.established = m.established ∧ (∀ i, m'.Receives i ↔ m.Receives i) ∨
        ∃ i, (∀ j, j ≠ i → (m'.Receives j ↔ m.Receives j)) ∧
          (¬m.Receives i ∧ m'.Receives i ∧ m'.established = m.established + 1 ∨
            m.Receives i ∧ ¬m'.Receives i ∧ m.established = m'.established + 1)) ∧
    ∀ c time, (∃ t ∈ (new address config clock).transitions moves, t.Marks c) →
      m.closings[c]? = some { ending := .close, stage := .finished time } →
      (∀ address count, .warned (.tasksRemain address count) ∉ hs) → m.connectionCount = 0 := by
  have hf := run_faithful h
  have hk := run_keyed h
  have hc := run_tallied h
  refine ⟨fun l k hl => ?_, fun ho => connectionCount_eq (run_tabled h) hf hk hc ho,
    fun mv m' hs' hm => move_counts hc hm, fun c time ⟨t, ht, hmark⟩ hover hn => ?_⟩
  · rw [show k.connected = _ from hf l k hl, Option.isSome_iff_ne_none]
  · obtain ⟨before, after, hsplit⟩ := List.append_of_mem ht
    obtain ⟨moves₁, moves₂, hs₁, hs₂, hr₁, -, hm, hr₂, hafter⟩ := run_split h hsplit
    have hend := run_induction (P := fun m ts => Sound m ∧ Subsiding m ts c)
      ⟨(run_sound hr₁).move hm, hmark.subsiding hm⟩
      (fun _ _ _ _ _ ⟨hs, hi⟩ hm => ⟨hs.move hm, hi.move hs.directed hm⟩) hr₂
    refine hend.2.connectionCount hf hc hk hover ?_
    rintro ⟨u, hu, a, n, hw⟩
    refine hn a n ?_
    rw [run_happenings h, hsplit]
    refine List.mem_flatMap.mpr ⟨u, List.mem_append_right _ (List.mem_cons_of_mem _ ?_), hw⟩
    rwa [hafter] at hu

/-- A manager with a connection of either direction, before and after it is closed. -/
theorem connections_counted_closed :
    let a : Endpoint := ⟨"a", 2⟩
    let work (task : Task) (n : Nat) := List.replicate n (Move.step task .none)
    let moves := .send ⟨"b", 1⟩ [1] :: work (.send 0) 7 ++
      [.step (.send 0) (.connected 7), .step (.send 0) (.accepted (greeting a).length),
        .step (.send 0) (.accepted 5), .step .acceptor (.incoming 9 ⟨"c", 3⟩)] ++
      work (.receiver 0) 1 ++ [.step (.receiver 0) (.chunk (greeting ⟨"c", 3⟩))] ++
      work (.receiver 0) 1
    let more := .finish .close :: work (.closing 0) 7 ++ [.step (.closing 0) .shut] ++
      work (.closing 0) 1 ++ work .acceptor 1 ++ work (.receiver 0) 1 ++ work (.closing 0) 1
    ∃ m hs m' hs', (new a {} 0).run moves = some (m, hs) ∧ m.closed = false ∧
      m.connectionCount = 2 ∧ m.connectionCount =
        m.allLinks.countP (·.writer.isSome) + m.receivers.countP (·.stage.Live) ∧
      (new a {} 0).run (moves ++ more) = some (m', hs') ∧
      m'.closings[0]? = some ⟨.close, .finished 0⟩ ∧ m'.connectionCount = 0 := by
  intro a work moves more
  obtain ⟨⟨m, hs⟩, h⟩ : ∃ o, (new a {} 0).run moves = some o :=
    Option.isSome_iff_exists.mp (by decide +kernel)
  obtain ⟨⟨m', hs'⟩, h'⟩ : ∃ o, (new a {} 0).run (moves ++ more) = some o :=
    Option.isSome_iff_exists.mp (by decide +kernel)
  obtain ⟨t, ht⟩ : ∃ t, ((new a {} 0).transitions (moves ++ more))[16]? = some t :=
    Option.isSome_iff_exists.mp (by decide +kernel)
  have hview : ((new a {} 0).run moves).map (fun o => (o.1.closed, o.1.connectionCount)) =
      some (false, 2) := by decide +kernel
  have hview' : ((new a {} 0).run (moves ++ more)).map (fun o => (o.1.closings[0]?,
      o.2.all fun x => !(x matches .warned _))) =
      some (some ⟨.close, .finished 0⟩, true) := by decide +kernel
  simp only [h, h', Option.map_some, Option.some.injEq, Prod.mk.injEq, List.all_eq_true]
    at hview hview'
  obtain ⟨hmark, -⟩ : t.Marks 0 ∧ t.before.OnStream 0 7 :=
    marks_of_getElem? ht rfl (by decide +kernel)
  refine ⟨m, hs, m', hs', h, hview.1, hview.2, (connections_counted h).2.1 hview.1, h', hview'.1,
    (connections_counted h').2.2.2 0 0 ⟨t, List.mem_of_getElem? ht, hmark⟩ hview'.1 ?_⟩
  intro address count hw
  cases hview'.2 _ hw

end PeerLink.Manager
