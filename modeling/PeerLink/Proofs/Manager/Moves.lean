import PeerLink.Proofs.Manager.Ending
import PeerLink.Proofs.Manager.Receiving
import PeerLink.Proofs.Manager.Sending
import PeerLink.Proofs.Manager.Subscribing

namespace PeerLink.Manager

variable {m m' : Manager} {mv : Move} {hs : List Happening}

theorem move_step {task : Task} {a : Answer} (h : m.move (.step task a) = some (m', hs)) :
    ∃ o, m.step task a = some o ∧ reap o = (m', hs) :=
  Option.map_eq_some_iff.mp h

theorem move_abandon {id : SendId} (h : m.move (.abandon id) = some (m', hs)) :
    ∃ o, m.abandonSend id = some o ∧ reap o = (m', hs) :=
  Option.map_eq_some_iff.mp h

theorem step_dispatch {id : SubscriptionId} {a : Answer} {o : Manager × List Happening}
    (h : m.step (.dispatch id) a = some o) : a = .none ∧ m.dispatchStep id = some o := by
  simpa [step] using h

theorem step_opening {id : Nat} {a : Answer} {o : Manager × List Happening}
    (h : m.step (.opening id) a = some o) : a = .none ∧ m.openingStep id = some o := by
  simpa [step] using h

theorem step_registration {id : Nat} {a : Answer} {o : Manager × List Happening}
    (h : m.step (.registration id) a = some o) : a = .none ∧ m.registrationStep id = some o := by
  simpa [step] using h

theorem getElem?_concat_cases {α : Type} {l : List α} {a b : α} {i : Nat}
    (h : (l ++ [a])[i]? = some b) : l[i]? = some b ∨ i = l.length ∧ b = a := by
  rw [List.getElem?_append] at h
  split at h
  · exact .inl h
  · obtain ⟨hi, hb⟩ := List.getElem?_eq_some_iff.mp h
    simp only [List.length_singleton] at hi
    exact .inr ⟨by omega, by simpa using hb.symm⟩

theorem getElem?_modify_cases {α : Type} {xs : List α} {f : α → α} {i j : Nat} {b : α}
    (h : (xs.modify i f)[j]? = some b) :
    ∃ a, xs[j]? = some a ∧ (j = i ∧ b = f a ∨ j ≠ i ∧ b = a) := by
  simp only [List.getElem?_modify, Option.map_eq_map] at h
  obtain ⟨a, ha, rfl⟩ := Option.map_eq_some_iff.mp h
  refine ⟨a, ha, ?_⟩
  by_cases hj : i = j
  · exact .inl ⟨hj.symm, if_pos hj⟩
  · exact .inr ⟨fun e => hj e.symm, if_neg hj⟩

theorem exists_places {α : Type} (xs : List α) (p : α → Bool) :
    ∃ is : List Nat, is.Nodup ∧ is.length = xs.countP p ∧
      ∀ i, i ∈ is ↔ ∃ x, xs[i]? = some x ∧ p x = true := by
  refine ⟨(xs.zipIdx.filter fun x => p x.1).map Prod.snd, ?_, ?_, fun i => ?_⟩
  · refine (List.filter_sublist.map _).nodup ?_
    rw [List.zipIdx_map_snd]
    exact List.nodup_range'
  · calc _ = xs.zipIdx.countP fun x => p x.1 := by
          rw [List.length_map, List.countP_eq_length_filter]
      _ = (xs.zipIdx.map Prod.fst).countP p := (List.countP_map ..).symm
      _ = xs.countP p := by rw [List.zipIdx_map_fst]
  · simp only [List.mem_map, List.mem_filter, Prod.exists, exists_eq_right,
      List.mem_zipIdx_iff_getElem?]

structure Later (m m' : Manager) : Prop where
  address : m'.address = m.address
  config : m'.config = m.config
  closed : m.closed = true → m'.closed = true
  cancelled : m.cancelled = true → m'.cancelled = true

theorem Later.refl (m : Manager) : Later m m := ⟨rfl, rfl, id, id⟩

theorem Later.trans {m₁ : Manager} (h : Later m m₁) (h' : Later m₁ m') : Later m m' :=
  ⟨h'.address.trans h.address, h'.config.trans h.config, fun hc => h'.closed (h.closed hc),
    fun hc => h'.cancelled (h.cancelled hc)⟩

theorem Later.of_eq (ha : m'.address = m.address) (hc : m'.config = m.config)
    (hd : m'.closed = m.closed) (he : m'.cancelled = m.cancelled) : Later m m' :=
  ⟨ha, hc, fun h => hd.trans h, fun h => he.trans h⟩

/-- A manager that is open now has been so before. -/
theorem Later.opened (h : Later m m') (ho : m'.closed = false) : m.closed = false := by
  apply Bool.eq_false_iff.mpr
  intro hc
  exact Bool.eq_false_iff.mp ho (h.closed hc)

theorem Later.running (h : Later m m') (hr : m'.cancelled = false) : m.cancelled = false := by
  apply Bool.eq_false_iff.mpr
  intro hc
  exact Bool.eq_false_iff.mp hr (h.cancelled hc)

theorem closingStep_later {id : ClosingId} {a : Answer}
    (h : m.closingStep id a = some (m', hs)) : Later m m' := by
  obtain ⟨c, -, h⟩ := closingStep_cases h
  cases h with
  | swap => exact ⟨rfl, rfl, fun _ => rfl, fun h => h⟩
  | cancel => exact ⟨rfl, rfl, fun h => h, fun _ => rfl⟩
  | clearObservers =>
    rw [clearObservers_scope]
    exact .of_eq rfl rfl rfl rfl
  | _ => exact .of_eq rfl rfl rfl rfl

theorem step_later {task : Task} {a : Answer} (h : m.step task a = some (m', hs)) :
    Later m m' := by
  cases task with
  | closing id => exact closingStep_later h
  | acceptor =>
    rw [acceptorStep_scope h]
    exact .of_eq rfl rfl rfl rfl
  | receiver id =>
    rw [receiverStep_scope h]
    exact .of_eq rfl rfl rfl rfl
  | dispatch id =>
    rw [dispatchStep_scope (step_dispatch h).2]
    exact .of_eq rfl rfl rfl rfl
  | send id =>
    rw [sendStep_scope h]
    exact .of_eq rfl rfl rfl rfl
  | opening id =>
    rw [openingStep_scope (step_opening h).2]
    exact .of_eq rfl rfl rfl rfl
  | registration id =>
    rw [registrationStep_scope (step_registration h).2]
    exact .of_eq rfl rfl rfl rfl

theorem reap_later {o : Manager × List Happening} (h : reap o = (m', hs)) : Later o.1 m' := by
  rw [reap_scope h]
  exact .of_eq rfl rfl rfl rfl

theorem move_later (h : m.move mv = some (m', hs)) : Later m m' := by
  cases mv with
  | step task a =>
    obtain ⟨o, ho, hr⟩ := move_step h
    exact (step_later ho).trans (reap_later hr)
  | abandon id =>
    obtain ⟨o, ho, hr⟩ := move_abandon h
    have ha : Later m o.1 := by
      rw [abandonSend_scope ho]
      exact .of_eq rfl rfl rfl rfl
    exact ha.trans (reap_later hr)
  | unregister e =>
    have hm : m.removeObserver e = m' := congrArg Prod.fst (Option.some.inj h)
    rw [← hm, removeObserver_scope]
    exact .of_eq rfl rfl rfl rfl
  | _ =>
    cases h
    exact .of_eq rfl rfl rfl rfl

theorem run_later {moves : List Move} (h : m.run moves = some (m', hs)) : Later m m' :=
  run_invariant (I := Later m) (fun _ _ _ _ hi hm => hi.trans (move_later hm)) (Later.refl m) h

theorem run_to {m₀ : Manager} {moves : List Move} {t : Transition} (h : m₀.run moves = some (m, hs))
    (ht : t ∈ m₀.transitions moves) : ∃ moves₁ hs₁, m₀.run moves₁ = some (t.after, hs₁) ∧
      m₀.transitions moves₁ <+: m₀.transitions moves ∧ Later t.after m := by
  obtain ⟨ts₁, ts₂, hsplit⟩ := List.append_of_mem ht
  obtain ⟨moves₁, moves₂, hs₁, hs₂, hr₁, hbefore, hm, hr₂, -⟩ := run_split h hsplit
  obtain ⟨hr, hts⟩ := run_concat hr₁ hm
  refine ⟨_, _, hr, ⟨ts₂, ?_⟩, run_later hr₂⟩
  rw [hts, hbefore, hsplit, List.append_assoc]
  rfl

theorem receiverStep_receivers {id : Nat} {a : Answer} (h : m.receiverStep id a = some (m', hs)) :
    ∃ stage, m'.receivers = m.receivers.modify id fun r => { r with stage } := by
  obtain ⟨r, -, h⟩ := receiverStep_cases h
  cases h with
  | @miss _ _ item => cases item <;> exact ⟨_, rfl⟩
  | @hand _ _ item => cases item <;> exact ⟨_, rfl⟩
  | _ => exact ⟨_, rfl⟩

theorem closingStep_closings {id : ClosingId} {a : Answer}
    (h : m.closingStep id a = some (m', hs)) :
    ∃ stage, m'.closings = m.closings.modify id fun c => { c with stage } := by
  obtain ⟨c, -, h⟩ := closingStep_cases h
  cases h with
  | clearObservers =>
    rw [clearObservers_scope]
    exact ⟨_, rfl⟩
  | _ => exact ⟨_, rfl⟩

theorem acceptorStep_receivers {a : Answer} (h : m.acceptorStep a = some (m', hs)) :
    m'.receivers = m.receivers ∨
      ∃ stream peer, m'.receivers = m.receivers ++ [({ stream, peer } : Receiver)] := by
  cases acceptorStep_cases h with
  | accept => exact .inr ⟨_, _, rfl⟩
  | stop | fail | resume => exact .inl rfl

theorem move_receivers (h : m.move mv = some (m', hs)) :
    m'.receivers = m.receivers ∨
      (∃ stream peer, m'.receivers = m.receivers ++ [({ stream, peer } : Receiver)]) ∨
      ∃ id a stage, mv = .step (.receiver id) a ∧
        m'.receivers = m.receivers.modify id fun r => { r with stage } := by
  cases mv with
  | step task a =>
    obtain ⟨⟨m₁, hs₁⟩, ho, hp⟩ := move_step h
    rw [reap_scope hp]
    cases task with
    | receiver j =>
      obtain ⟨stage, hk⟩ := receiverStep_receivers ho
      exact .inr (.inr ⟨j, a, stage, rfl, hk⟩)
    | acceptor => exact (acceptorStep_receivers ho).imp id .inl
    | send j => exact .inl (by rw [sendStep_scope ho])
    | closing j => exact .inl (by rw [closingStep_scope ho])
    | dispatch j => exact .inl (by rw [dispatchStep_scope (step_dispatch ho).2])
    | opening j => exact .inl (by rw [openingStep_scope (step_opening ho).2])
    | registration j => exact .inl (by rw [registrationStep_scope (step_registration ho).2])
  | abandon j =>
    obtain ⟨⟨m₁, hs₁⟩, ho, hp⟩ := move_abandon h
    exact .inl (by rw [reap_scope hp, abandonSend_scope ho])
  | unregister e =>
    have hm : m.removeObserver e = m' := congrArg Prod.fst (Option.some.inj h)
    exact .inl (by rw [← hm, removeObserver_scope])
  | _ =>
    cases h
    exact .inl rfl

theorem move_receiver {id : Nat} {r : Receiver} (h : m.move mv = some (m', hs))
    (hr : m.receivers[id]? = some r) :
    (∃ a m₁ hs₁, mv = .step (.receiver id) a ∧ ReceiverStep m id r a m₁ hs₁ ∧
        reap (m₁, hs₁) = (m', hs)) ∨
      (∀ a, mv ≠ .step (.receiver id) a) ∧ m'.receivers[id]? = some r := by
  by_cases hmv : ∃ a, mv = .step (.receiver id) a
  · obtain ⟨a, rfl⟩ := hmv
    obtain ⟨⟨m₁, hs₁⟩, ho, hp⟩ := move_step h
    obtain ⟨r', hr', hc⟩ := receiverStep_cases ho
    cases hr.symm.trans hr'
    exact .inl ⟨a, m₁, hs₁, rfl, hc, hp⟩
  · refine .inr ⟨fun a ha => hmv ⟨a, ha⟩, ?_⟩
    obtain hk | ⟨stream, peer, hk⟩ | ⟨j, a, stage, rfl, hk⟩ := move_receivers h
    · rw [hk, hr]
    · rw [hk, List.getElem?_append_left (List.getElem?_eq_some_iff.mp hr).1, hr]
    · have hj : j ≠ id := by
        rintro rfl
        exact hmv ⟨a, rfl⟩
      rw [hk, List.getElem?_modify_ne _ _ hj, hr]

/-- A receiver stays, and only its stage changes. -/
theorem move_stage {id : Nat} {r : Receiver} (h : m.move mv = some (m', hs))
    (hr : m.receivers[id]? = some r) : ∃ stage, m'.receivers[id]? = some { r with stage } := by
  obtain hk | ⟨stream, peer, hk⟩ | ⟨j, a, stage, -, hk⟩ := move_receivers h
  · exact ⟨r.stage, hk ▸ hr⟩
  · exact ⟨r.stage, by rw [hk, List.getElem?_append_left (List.getElem?_eq_some_iff.mp hr).1, hr]⟩
  · rw [hk, List.getElem?_modify, hr]
    by_cases hj : j = id
    · exact ⟨stage, by simp [hj]⟩
    · exact ⟨r.stage, by simp [hj]⟩

theorem move_newReceiver {id : Nat} {r : Receiver} (h : m.move mv = some (m', hs))
    (hn : m.receivers[id]? = none) (hr : m'.receivers[id]? = some r) : r.stage = .opening := by
  obtain hk | ⟨stream, peer, hk⟩ | ⟨j, a, stage, rfl, hk⟩ := move_receivers h
  · cases hn.symm.trans (hk ▸ hr)
  · rw [hk] at hr
    obtain hr | ⟨-, rfl⟩ := getElem?_concat_cases hr
    · cases hn.symm.trans hr
    · rfl
  · rw [hk, List.getElem?_modify, hn] at hr
    cases hr

/-- A closing comes about by a call, and changes by its own steps only. -/
theorem move_closing {id : ClosingId} {c' : Closing} (h : m.move mv = some (m', hs))
    (hc : m'.closings[id]? = some c') :
    m.closings[id]? = some c' ∨ c'.stage = .swapping ∨
      ∃ a m₁ hs₁ c, mv = .step (.closing id) a ∧ m.closings[id]? = some c ∧
        ClosingStep m id c a m₁ hs₁ ∧ reap (m₁, hs₁) = (m', hs) := by
  cases mv with
  | step task a =>
    obtain ⟨⟨m₁, hs₁⟩, ho, hp⟩ := move_step h
    rw [reap_scope hp] at hc
    cases task with
    | closing j =>
      by_cases hj : j = id
      · subst hj
        obtain ⟨c, hg, hs'⟩ := closingStep_cases ho
        exact .inr (.inr ⟨a, m₁, hs₁, c, rfl, hg, hs', hp⟩)
      · obtain ⟨stage, hs'⟩ := closingStep_closings ho
        rw [hs', List.getElem?_modify_ne _ _ hj] at hc
        exact .inl hc
    | acceptor => exact .inl (by rwa [acceptorStep_scope ho] at hc)
    | receiver j => exact .inl (by rwa [receiverStep_scope ho] at hc)
    | send j => exact .inl (by rwa [sendStep_scope ho] at hc)
    | dispatch j => exact .inl (by rwa [dispatchStep_scope (step_dispatch ho).2] at hc)
    | opening j => exact .inl (by rwa [openingStep_scope (step_opening ho).2] at hc)
    | registration j =>
      exact .inl (by rwa [registrationStep_scope (step_registration ho).2] at hc)
  | abandon j =>
    obtain ⟨⟨m₁, hs₁⟩, ho, hp⟩ := move_abandon h
    exact .inl (by rwa [reap_scope hp, abandonSend_scope ho] at hc)
  | unregister e =>
    have hm : m.removeObserver e = m' := congrArg Prod.fst (Option.some.inj h)
    rw [← hm, removeObserver_scope] at hc
    exact .inl hc
  | finish ending =>
    cases h
    obtain hc | ⟨-, rfl⟩ := getElem?_concat_cases hc
    · exact .inl hc
    · exact .inr (.inl rfl)
  | _ =>
    cases h
    exact .inl hc

/-- Whatever is past the first step of a closing has closed the manager. -/
structure Flagged (m : Manager) : Prop where
  cancelled : m.cancelled = true → m.closed = true
  past : ∀ (id : ClosingId) c, m.closings[id]? = some c → c.stage ≠ .swapping → m.closed = true

theorem Flagged.new (address : Endpoint) (config : Config) (clock : Nat) :
    Flagged (new address config clock) := by
  constructor
  · intro h
    cases h
  · intro id c h
    simp [Manager.new] at h

theorem Flagged.running (h : Flagged m) (ho : m.closed = false) : m.cancelled = false := by
  apply Bool.eq_false_iff.mpr
  intro hc
  exact Bool.eq_false_iff.mp ho (h.cancelled hc)

theorem ClosingStep.closed {id : ClosingId} {c : Closing} {a : Answer}
    (h : ClosingStep m id c a m' hs) (hp : c.stage ≠ .swapping → m.closed = true) :
    m'.closed = true := by
  cases h with
  | again _ hc => exact hc
  | swap => rfl
  | clearObservers hs =>
    rw [clearObservers_scope]
    exact hp (by rw [hs]; nofun)
  | _ hs => exact hp (by rw [hs]; nofun)

theorem cancelled_of_step {task : Task} {a : Answer} (h : m.step task a = some (m', hs)) :
    m'.cancelled = m.cancelled ∨
      ∃ (id : ClosingId) (c : Closing), m.closings[id]? = some c ∧ c.stage = .cancelling := by
  cases task with
  | closing id =>
    obtain ⟨c, hc, h⟩ := closingStep_cases h
    cases h with
    | cancel hs => exact .inr ⟨id, c, hc, hs⟩
    | clearObservers =>
      rw [clearObservers_scope]
      exact .inl rfl
    | _ => exact .inl rfl
  | acceptor => exact .inl (by rw [acceptorStep_scope h])
  | receiver id => exact .inl (by rw [receiverStep_scope h])
  | dispatch id => exact .inl (by rw [dispatchStep_scope (step_dispatch h).2])
  | send id => exact .inl (by rw [sendStep_scope h])
  | opening id => exact .inl (by rw [openingStep_scope (step_opening h).2])
  | registration id => exact .inl (by rw [registrationStep_scope (step_registration h).2])

theorem cancelled_of_move (h : m.move mv = some (m', hs)) :
    m'.cancelled = m.cancelled ∨
      ∃ (id : ClosingId) (c : Closing), m.closings[id]? = some c ∧ c.stage = .cancelling := by
  cases mv with
  | step task a =>
    obtain ⟨⟨m₁, hs₁⟩, ho, hp⟩ := move_step h
    have hc := cancelled_of_step ho
    rwa [reap_scope hp]
  | abandon id =>
    obtain ⟨⟨m₁, hs₁⟩, ho, hp⟩ := move_abandon h
    exact .inl (by rw [reap_scope hp, abandonSend_scope ho])
  | unregister e =>
    have hm : m.removeObserver e = m' := congrArg Prod.fst (Option.some.inj h)
    exact .inl (by rw [← hm, removeObserver_scope])
  | _ =>
    cases h
    exact .inl rfl

theorem Flagged.move (hf : Flagged m) (h : m.move mv = some (m', hs)) : Flagged m' := by
  have hl := move_later h
  constructor
  · intro hc
    obtain he | ⟨id, c, hg, hs'⟩ := cancelled_of_move h
    · exact hl.closed (hf.cancelled (he ▸ hc))
    · exact hl.closed (hf.past id c hg (by rw [hs']; nofun))
  · intro id c' hc hs'
    obtain hc | hc | ⟨a, m₁, hs₁, c, rfl, hg, ho, hp⟩ := move_closing h hc
    · exact hl.closed (hf.past id c' hc hs')
    · exact absurd hc hs'
    · exact (reap_later hp).closed (ho.closed fun hn => hf.past id c hg hn)

theorem run_flagged {address : Endpoint} {config : Config} {clock : Nat} {moves : List Move}
    (h : (new address config clock).run moves = some (m, hs)) : Flagged m :=
  run_invariant (fun _ _ _ _ hi hm => hi.move hm) (.new address config clock) h

/-- Whatever a closing does, the manager is closed after it. -/
theorem closed_of_closing {c : ClosingId} {a : Answer}
    (hm : m.move (.step (.closing c) a) = some (m', hs)) (hf : Flagged m) : m'.closed = true := by
  obtain ⟨⟨m₁, hs₁⟩, ho, hr⟩ := move_step hm
  obtain ⟨y, hy, hst⟩ := closingStep_cases ho
  rw [reap_scope hr]
  exact hst.closed (hf.past c y hy)

end PeerLink.Manager
