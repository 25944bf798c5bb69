import PeerLink.Proofs.Manager.Bystanders
import PeerLink.Proofs.Manager.Reaping
import PeerLink.Proofs.Receiver.Interpretation

namespace PeerLink.Manager

/-- Past the greeting, with the connection not over yet. -/
def ReceiverStage.Live : ReceiverStage → Prop
  | .receiving _ _ => True
  | .routing _ _ _ _ => True
  | _ => False

def past (k i : Nat) : Nat := if k < i then i - 1 else i

def Move.sparing (k n : Nat) : Move → Option Move
  | .step .acceptor (.incoming stream peer) =>
    if n = k then none else some (.step .acceptor (.incoming stream peer))
  | .step (.receiver i) a => if i = k then none else some (.step (.receiver (past k i)) a)
  | mv => some mv

/-- Moves where a receiver is left out, given how many there are before them. -/
def without (k : Nat) : Nat → List Move → List Move
  | _, [] => []
  | n, mv :: moves => (mv.sparing k n).toList ++ without k (n + mv.incoming?.toList.length) moves

abbrev sparing (m : Manager) (k : Nat) : Manager := m.withReceivers (m.receivers.eraseIdx k)

def spare (k : Nat) (o : Manager × List Happening) : Manager × List Happening := (o.1.sparing k, o.2)

def Happening.Apart (stream : StreamId) : Happening → Bool
  | .warned _ => false
  | .released s => s ≠ stream
  | _ => true

variable {m m' m₁ : Manager} {mv : Move} {hs : List Happening} {k i n : Nat} {r : Receiver}
  {a : Answer} {t : Transition} {ts : List Transition}

theorem getElem?_eraseIdx_past {α : Type} {xs : List α} (h : i ≠ k) :
    (xs.eraseIdx k)[past k i]? = xs[i]? := by
  rw [past, List.getElem?_eraseIdx]
  split_ifs
  · omega
  · rw [Nat.sub_add_cancel (by omega)]
  · rfl
  · omega

theorem setReceiver_sparing (h : i ≠ k) (stage : ReceiverStage) :
    (m.sparing k).setReceiver (past k i) stage = (m.setReceiver i stage).sparing k := by
  have hl : (m.receivers.eraseIdx k).modify (past k i) (fun r => { r with stage }) =
      (m.receivers.modify i fun r => { r with stage }).eraseIdx k := by
    rw [past]
    split_ifs with hk
    · exact (List.eraseIdx_modify_of_lt _ _ _ _ hk).symm
    · exact (List.eraseIdx_modify_of_gt _ _ _ _ (by omega)).symm
  exact congrArg (fun rs => m.withReceivers rs) hl

theorem setReceiver_own (stage : ReceiverStage) :
    (m.setReceiver k stage).sparing k = m.sparing k :=
  congrArg (fun rs => m.withReceivers rs) (List.eraseIdx_modify_of_eq _ _ _)

theorem endReceiver_sparing (h : i ≠ k) :
    (m.sparing k).endReceiver (past k i) r hs = spare k (m.endReceiver i r hs) := by
  rw [endReceiver, setReceiver_sparing h]
  rfl

theorem endEstablished_sparing (h : i ≠ k) :
    (m.sparing k).endEstablished (past k i) r hs = spare k (m.endEstablished i r hs) :=
  endReceiver_sparing (m := { m with established := m.established - 1 }) h

theorem greetingStep_sparing (h : i ≠ k) (t : Nat) (rd : Reading) :
    (m.sparing k).greetingStep (past k i) r t rd a = (m.greetingStep i r t rd a).map (spare k) := by
  have hestablish : ∀ stage,
      setReceiver { m.sparing k with established := m.established + 1 } (past k i) stage =
        (setReceiver { m with established := m.established + 1 } i stage).sparing k :=
    setReceiver_sparing (m := { m with established := m.established + 1 }) h
  simp only [greetingStep, endReceiver_sparing h, setReceiver_sparing h, hestablish]
  split
  · split_ifs
    · rfl
    · split
      · rfl
      · split_ifs <;> rfl
      · rfl
    · split
      · rfl
      · split_ifs <;> rfl
      · rfl
    · rfl
    · rfl
  · split_ifs
    · rfl
    · split
      · rfl
      · cases rd.take? _ <;> rfl

theorem receivingStep_sparing (h : i ≠ k) (source : Endpoint) (rd : Reading) :
    (m.sparing k).receivingStep (past k i) r source rd a =
      (m.receivingStep i r source rd a).map (spare k) := by
  simp only [receivingStep, endEstablished_sparing h, setReceiver_sparing h, failReceiver]
  split
  · split_ifs
    · rfl
    · split <;> rfl
    · split <;> rfl
    · rfl
  · split_ifs
    · rfl
    · split
      · rfl
      · cases rd.take? _ <;> rfl

theorem afterRouting_sparing (h : i ≠ k) (source : Endpoint) (rd : Reading) (item : Item) :
    (m.sparing k).afterRouting (past k i) r source rd item hs =
      spare k (m.afterRouting i r source rd item hs) := by
  cases item with
  | frame body =>
    rw [afterRouting, setReceiver_sparing h]
    rfl
  | failure error => exact endEstablished_sparing h

theorem routingStep_sparing (h : i ≠ k) (source : Endpoint) (rd : Reading) (item : Item)
    (rt : Routing) : (m.sparing k).routingStep (past k i) r source rd item rt =
      spare k (m.routingStep i r source rd item rt) := by
  have hlocate : ∀ s stage, setReceiver ((m.sparing k).modifySubscription s
      fun s => { s with handles := s.handles + 1 }) (past k i) stage =
        (setReceiver (m.modifySubscription s fun s => { s with handles := s.handles + 1 }) i
          stage).sparing k := fun s stage =>
    setReceiver_sparing (m := m.modifySubscription s fun s => { s with handles := s.handles + 1 })
      h stage
  cases rt with
  | exact =>
    simp only [routingStep, findQueue, afterRouting_sparing h, setReceiver_sparing h]
    cases m.observers.get? source with
    | some s => exact Prod.ext (hlocate s _) rfl
    | none =>
      simp only [Option.map_none]
      split_ifs <;> rfl
  | wildcard =>
    simp only [routingStep, findQueue, afterRouting_sparing h]
    cases m.observers.get? source.toWildcard with
    | some s => exact Prod.ext (hlocate s _) rfl
    | none => rfl
  | handing s =>
    exact afterRouting_sparing (m := (m.modifySubscription s (·.push item)).dropHandle s) h ..

theorem receiverStep_sparing (h : i ≠ k) :
    (m.sparing k).receiverStep (past k i) a = (m.receiverStep i a).map (spare k) := by
  simp only [receiverStep, getElem?_eraseIdx_past h, endReceiver_sparing h, setReceiver_sparing h,
    greetingStep_sparing h, receivingStep_sparing h, routingStep_sparing h]
  cases m.receivers[i]? with
  | none => rfl
  | some r =>
    simp only [Option.bind_eq_bind, Option.bind_some]
    split
    · split_ifs <;> rfl
    · rfl
    · rfl
    · rfl
    · rfl

theorem eraseIdx_concat {α : Type} {xs : List α} {x : α} (h : xs.length ≠ k) :
    (xs ++ [x]).eraseIdx k = xs.eraseIdx k ++ [x] := by
  obtain hk | hk := Nat.lt_or_gt_of_ne h
  · rw [List.eraseIdx_of_length_le (Nat.le_of_lt hk),
      List.eraseIdx_of_length_le (by simp; omega)]
  · exact List.eraseIdx_append_of_lt_length hk _

theorem acceptorStep_sparing (h : ∀ stream peer, a = .incoming stream peer →
    m.receivers.length ≠ k) :
    (m.sparing k).acceptorStep a = (m.acceptorStep a).map (spare k) := by
  simp only [acceptorStep]
  split
  · split_ifs <;> rfl
  · next stream peer _ =>
    split_ifs
    · rfl
    · rw [← eraseIdx_concat (h stream peer rfl)]
      rfl
  · split_ifs <;> rfl
  · split_ifs <;> rfl
  · rfl

theorem reap_spare (o : Manager × List Happening) : reap (spare k o) = spare k (reap o) := by
  have hsame : (reap o).1.receivers = o.1.receivers := by
    rw [reap_scope (show reap o = ((reap o).1, (reap o).2) from rfl)]
  change _ = among ((reap o).1.receivers.eraseIdx k) (reap o)
  rw [hsame]
  exact reap_among o

/-- Where a receiver is left out, an open manager makes every move that is not about it, and this
comes to the same. -/
theorem move_sparing {mv₁ : Move} (hm : m.move mv = some (m', hs)) (hf : Flagged m)
    (ho : m'.closed = false) (hs' : mv.sparing k m.receivers.length = some mv₁) :
    (m.sparing k).move mv₁ = some (m'.sparing k, hs) := by
  have hstep : ∀ {task task' a}, mv = .step task a → mv₁ = .step task' a →
      (m.sparing k).step task' a = (m.step task a).map (spare k) →
      (m.sparing k).move mv₁ = some (m'.sparing k, hs) := by
    rintro task task' a rfl rfl he
    obtain ⟨o, ho, hr⟩ := move_step hm
    rw [move, he, ho]
    exact congrArg some ((reap_spare o).trans (congrArg (spare k) hr))
  have haside : ¬mv.Regards → mv = mv₁ → (m.sparing k).move mv₁ = some (m'.sparing k, hs) := by
    rintro hreg rfl
    have he : (m.sparing k).move mv = (m.move mv).map (among (m.receivers.eraseIdx k)) :=
      move_withReceivers hreg
    rw [he, hm, sparing, receivers_of_move hm hreg]
    rfl
  cases mv with
  | step task a =>
    cases task with
    | acceptor =>
      cases a with
      | incoming stream peer =>
        obtain ⟨hn, hs'⟩ := (Option.ite_none_left_eq_some ..).mp hs'
        exact hstep rfl (Option.some.inj hs').symm (acceptorStep_sparing fun _ _ _ => hn)
      | _ => exact hstep rfl (Option.some.inj hs').symm (acceptorStep_sparing fun _ _ he => by cases he)
    | receiver i =>
      obtain ⟨hn, hs'⟩ := (Option.ite_none_left_eq_some ..).mp hs'
      exact hstep rfl (Option.some.inj hs').symm (receiverStep_sparing hn)
    | closing c => cases ho.symm.trans (closed_of_closing hm hf)
    | _ => exact haside not_false (Option.some.inj hs')
  | _ => exact haside not_false (Option.some.inj hs')

theorem ReceiverStep.unnoticed (h : ReceiverStep m k r a m₁ hs) (hr : m.receivers[k]? = some r)
    (hn : ¬r.stage.Live) (hn₁ : ∀ r₁, m₁.receivers[k]? = some r₁ → ¬r₁.stage.Live) :
    (∃ stage, m₁ = m.setReceiver k stage) ∧
      ∀ x ∈ hs, (∃ w, x = .warned w) ∨ x = .released r.stream := by
  cases h with
  | leave hs | fail hs | take hs | finish hs | expectFrame hs | breakFrame hs | readFrame hs
  | locate hs | widen hs | miss hs | hand hs =>
    rw [hs] at hn
    exact absurd trivial hn
  | establish =>
    have hr' : ({ m with established := m.established + 1 } : Manager).receivers[k]? = some r := hr
    exact absurd trivial (hn₁ _ (setReceiver_get hr' _))
  | start | expectGreeting | readGreeting =>
    exact ⟨⟨_, rfl⟩, fun x hx => absurd hx List.not_mem_nil⟩
  | halt | vanish =>
    refine ⟨⟨_, rfl⟩, fun x hx => .inr (List.mem_singleton.mp hx)⟩
  | reject | disagree | expire | breakGreeting =>
    refine ⟨⟨_, rfl⟩, fun x hx => ?_⟩
    obtain rfl | hx := List.mem_cons.mp hx
    · exact .inl ⟨_, rfl⟩
    · exact .inr (List.mem_singleton.mp hx)

/-- A move about a receiver that does not get past its greeting goes unnoticed elsewhere. -/
theorem move_unnoticed (hm : m.move mv = some (m', hs)) (ht : Tidy m)
    (hs' : mv.sparing k m.receivers.length = none)
    (hn : ∀ r, m.receivers[k]? = some r → ¬r.stage.Live)
    (hn₁ : ∀ r, m'.receivers[k]? = some r → ¬r.stage.Live) : m'.sparing k = m.sparing k ∧
      ∀ x ∈ hs, (∃ w, x = .warned w) ∨
        ∃ r, m.receivers[k]? = some r ∧ x = .released r.stream := by
  cases mv with
  | step task a =>
    cases task with
    | acceptor =>
      cases a with
      | incoming stream peer =>
        obtain hlen | hne := Decidable.em (m.receivers.length = k)
        · rw [move_acceptor ht] at hm
          cases acceptorStep_cases hm with
          | accept =>
            refine ⟨?_, fun x hx => absurd hx List.not_mem_nil⟩
            rw [sparing, sparing, List.eraseIdx_append_of_length_le (Nat.le_of_eq hlen), hlen,
              Nat.sub_self, List.eraseIdx_of_length_le (Nat.le_of_eq hlen)]
            simp
        · rw [Move.sparing, if_neg hne] at hs'
          cases hs'
      | _ => cases hs'
    | receiver i =>
      obtain rfl | hne := Decidable.em (i = k)
      · rw [move_receiver_eq ht] at hm
        obtain ⟨r, hr₀, hst⟩ := receiverStep_cases hm
        obtain ⟨⟨stage, rfl⟩, hx⟩ := hst.unnoticed hr₀ (hn r hr₀) hn₁
        exact ⟨setReceiver_own stage, fun x hmem => (hx x hmem).imp_right fun he => ⟨r, hr₀, he⟩⟩
      · rw [Move.sparing, if_neg hne] at hs'
        cases hs'
    | _ => cases hs'
  | _ => cases hs'

theorem length_receivers_of_move (hm : m.move mv = some (m', hs)) :
    m'.receivers.length = m.receivers.length + mv.incoming?.toList.length := by
  simpa using congrArg List.length (incoming_of_move hm)

theorem run_stage {moves : List Move} (hm : m.run moves = some (m', hs))
    (hr : m.receivers[k]? = some r) : ∃ stage, m'.receivers[k]? = some { r with stage } := by
  refine run_invariant (I := fun m => ∃ stage, m.receivers[k]? = some { r with stage }) ?_
    ⟨r.stage, hr⟩ hm
  rintro m mv m' hs ⟨stage, hr⟩ hm
  obtain ⟨stage', hr'⟩ := move_stage hm hr
  exact ⟨stage', hr'⟩

theorem run_without {moves : List Move} (hm : m.run moves = some (m', hs)) (ht : Tidy m)
    (hf : Flagged m) (ho : m'.closed = false) (hn : ∀ r, m.receivers[k]? = some r → ¬r.stage.Live)
    (hts : ∀ t ∈ m.transitions moves, ∀ r, t.after.receivers[k]? = some r → ¬r.stage.Live) :
    ∃ hs', (m.sparing k).run (without k m.receivers.length moves) = some (m'.sparing k, hs') ∧
      hs'.Sublist hs ∧ ∀ r, m'.receivers[k]? = some r →
        hs'.filter (Happening.Apart r.stream) = hs.filter (Happening.Apart r.stream) := by
  induction moves generalizing m hs with
  | nil =>
    cases hm
    exact ⟨[], rfl, List.Sublist.refl _, fun _ _ => rfl⟩
  | cons mv moves ih =>
    obtain ⟨m₁, hs₁, hs₂, hmv, hrun, rfl⟩ := run_cons.mp hm
    have htrans : m.transitions (mv :: moves) = ⟨m, mv, m₁, hs₁⟩ :: m₁.transitions moves := by
      simp only [transitions, hmv]
    rw [htrans] at hts
    have hn₁ : ∀ r, m₁.receivers[k]? = some r → ¬r.stage.Live := hts _ List.mem_cons_self
    have ho₁ : m₁.closed = false := (run_later hrun).opened ho
    obtain ⟨hs', hrun', hsub, hsame⟩ := ih hrun (ht.move hmv) (hf.move hmv) hn₁
      fun t ht => hts t (List.mem_cons_of_mem _ ht)
    rw [without, ← length_receivers_of_move hmv]
    -- A move is made where the receiver is left out as well, or changes nothing there.
    cases hspare : mv.sparing k m.receivers.length with
    | some mv₁ =>
      have hmv' := move_sparing hmv hf ho₁ hspare
      refine ⟨hs₁ ++ hs', run_cons.mpr ⟨_, hs₁, hs', hmv', hrun', rfl⟩,
        (List.Sublist.refl hs₁).append hsub, fun r hr => ?_⟩
      rw [List.filter_append, List.filter_append, hsame r hr]
    | none =>
      obtain ⟨hsame', hx⟩ := move_unnoticed hmv ht hspare hn hn₁
      rw [hsame'] at hrun'
      refine ⟨hs', hrun', hsub.trans (List.sublist_append_right _ _), fun r hr => ?_⟩
      have hnone : hs₁.filter (Happening.Apart r.stream) = [] := by
        refine List.filter_eq_nil_iff.mpr fun x hmem => ?_
        obtain ⟨w, rfl⟩ | ⟨r₀, hr₀, rfl⟩ := hx x hmem
        · exact Bool.false_ne_true
        · obtain ⟨stage, hr'⟩ := run_stage hm hr₀
          cases hr'.symm.trans hr
          simp [Happening.Apart]
      rw [List.filter_append, hnone, hsame r hr, List.nil_append]

end PeerLink.Manager
