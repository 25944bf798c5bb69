import Mathlib.Tactic.SplitIfs
import PeerLink.Proofs.Manager.Moves

namespace PeerLink.Manager

abbrev withReceivers (m : Manager) (rs : List Receiver) : Manager := { m with receivers := rs }

def among (rs : List Receiver) (o : Manager × List Happening) : Manager × List Happening :=
  (o.1.withReceivers rs, o.2)

abbrev beside (m : Manager) (f : List Receiver → List Receiver)
    (g : List Subscription → List Subscription) : Manager :=
  { m with receivers := f m.receivers, subscriptions := g m.subscriptions }

def besides (f : List Receiver → List Receiver) (g : List Subscription → List Subscription)
    (o : Manager × List Happening) : Manager × List Happening :=
  (o.1.beside f g, o.2)

def Move.Regards : Move → Prop
  | .step .acceptor _ => True
  | .step (.receiver _) _ => True
  | .step (.closing _) _ => True
  | _ => False

def Move.Calls : Move → Prop
  | .step (.send _) _ => True
  | .step (.opening _) _ => True
  | .step _ _ => False
  | .unregister _ => False
  | _ => True

variable {m m' : Manager} {rs : List Receiver} {f : List Receiver → List Receiver}
  {g : List Subscription → List Subscription} {hs : List Happening} {id : SendId} {s : Send}
  {l : LinkId} {a : Answer} {mv : Move}

theorem evict_beside (d : Endpoint) :
    (m.beside f g).evict d l = (m.evict d l).beside f g := by
  simp only [evict]
  split_ifs <;> rfl

theorem lookupStep_beside (d : Endpoint) (n : Lookup) :
    (m.beside f g).lookupStep d n =
      (m.lookupStep d n).map fun o => (o.1.beside f g, o.2) := by
  cases n with
  | entering =>
    simp only [lookupStep]
    split <;> rfl
  | evicting l =>
    simp only [lookupStep, evict_beside]
    rfl
  | _ => rfl

theorem openingStep_beside (i : Nat) :
    (m.beside f g).openingStep i = (m.openingStep i).map (besides f g) := by
  simp only [openingStep, lookupStep_beside]
  cases m.openings[i]? with
  | none => rfl
  | some o =>
    simp only [Option.bind_eq_bind, Option.bind_some]
    cases m.lookupStep o.destination o.stage <;> rfl

theorem stageFrame_beside (w : Writer) :
    (m.beside f g).stageFrame id s l w = besides f g (m.stageFrame id s l w) := by
  simp only [stageFrame]
  split <;> rfl

theorem beginWrite_beside (w : Writer) :
    (m.beside f g).beginWrite id s l w = besides f g (m.beginWrite id s l w) := by
  simp only [beginWrite, stageFrame_beside]
  split_ifs <;> rfl

theorem queuedStep_beside :
    (m.beside f g).queuedStep id s l = (m.queuedStep id s l).map (besides f g) := by
  simp only [queuedStep, beginWrite_beside]
  cases m.allLinks[l]? with
  | none => rfl
  | some k =>
    simp only [Option.bind_eq_bind, Option.bind_some]
    split_ifs
    · rfl
    · rfl
    · rfl
    · split <;> rfl

theorem beginGreeting_beside (stream : StreamId) :
    (m.beside f g).beginGreeting id l stream = besides f g (m.beginGreeting id l stream) := by
  simp only [beginGreeting]
  split <;> rfl

theorem connectingStep_beside (t : Nat) :
    (m.beside f g).connectingStep id l t a = (m.connectingStep id l t a).map (besides f g) := by
  simp only [connectingStep, beginGreeting_beside]
  split
  · split_ifs <;> rfl
  · split_ifs <;> rfl
  · split_ifs <;> rfl
  · rfl

theorem greetStep_beside (stream : StreamId) (unsent : Bytes) :
    (m.beside f g).greetStep id s l stream unsent a =
      (m.greetStep id s l stream unsent a).map (besides f g) := by
  simp only [greetStep]
  split
  · split_ifs <;> rfl
  · split_ifs
    · rfl
    · have hw : ((m.modifyLink l (·.connect stream)).beside f g).beginWrite id s l _ = _ :=
        beginWrite_beside ⟨stream, []⟩
      exact congrArg (fun o : Manager × _ => some (o.1, Happening.wrote stream unsent :: o.2)) hw
    · rfl
  · split_ifs <;> rfl
  · rfl

theorem writeStep_beside {done : Manager → Writer → Manager × List Happening}
    (h : ∀ n w, done (n.beside f g) w = besides f g (done n w)) :
    (m.beside f g).writeStep id s l a done = (m.writeStep id s l a done).map (besides f g) := by
  simp only [writeStep]
  cases m.allLinks[l]? with
  | none => rfl
  | some k =>
    simp only [Option.bind_eq_bind, Option.bind_some]
    split
    · rfl
    · next w count _ =>
      split_ifs
      · rfl
      · exact congrArg (fun o : Manager × _ =>
          some (o.1, Happening.wrote w.stream (w.buffer.take count) :: o.2))
          (h (m.modifyLink l (·.consume count)) _)
      · rfl
    · split_ifs <;> rfl
    · split_ifs <;> rfl
    · rfl

theorem sendStep_beside :
    (m.beside f g).sendStep id a = (m.sendStep id a).map (besides f g) := by
  simp only [sendStep, lookupStep_beside, evict_beside, queuedStep_beside,
    connectingStep_beside, greetStep_beside]
  cases m.sends[id]? with
  | none => rfl
  | some s =>
    simp only [Option.bind_eq_bind, Option.bind_some]
    split
    · split_ifs <;> rfl
    · rfl
    · rfl
    · cases m.lookupStep s.destination _ <;> rfl
    · split_ifs <;> rfl
    · rfl
    · rfl
    · rfl
    · rfl
    · exact writeStep_beside fun _ w => stageFrame_beside w
    · exact writeStep_beside fun _ _ => rfl
    · rfl

theorem abandonSend_beside :
    (m.beside f g).abandonSend id = (m.abandonSend id).map (besides f g) := by
  simp only [abandonSend]
  cases m.sends[id]? with
  | none => rfl
  | some s =>
    simp only [Option.bind_eq_bind, Option.bind_some]
    split <;> rfl

theorem removeObserver_withReceivers (e : Endpoint) :
    (m.withReceivers rs).removeObserver e = (m.removeObserver e).withReceivers rs := by
  simp only [removeObserver]
  split <;> rfl

theorem registrationStep_withReceivers (i : Nat) :
    (m.withReceivers rs).registrationStep i = (m.registrationStep i).map (among rs) := by
  simp only [registrationStep, removeObserver_withReceivers]
  cases m.registrations[i]? with
  | none => rfl
  | some r =>
    simp only [Option.bind_eq_bind, Option.bind_some]
    split
    · rfl
    · split <;> rfl
    · rfl
    · rfl
    · rfl
    · rfl

theorem dispatchStep_withReceivers (i : SubscriptionId) :
    (m.withReceivers rs).dispatchStep i = (m.dispatchStep i).map (among rs) := by
  simp only [dispatchStep]
  cases m.subscriptions[i]? with
  | none => rfl
  | some b =>
    simp only [Option.bind_eq_bind, Option.bind_some]
    by_cases hr : b.stage = .running
    · simp only [hr, ne_eq, not_true_eq_false, if_false]
      split_ifs
      · rfl
      · split <;> rfl
      · split <;> rfl
    · simp only [ne_eq, hr, not_false_eq_true, if_true]
      rfl

theorem foldl_disconnect_beside (ls : List (LinkId × StreamId)) :
    ls.foldl (fun m (l, _) => m.modifyLink l Link.disconnect) (m.beside f g) =
      (ls.foldl (fun m (l, _) => m.modifyLink l Link.disconnect) m).beside f g := by
  induction ls generalizing m with
  | nil => rfl
  | cons p ls ih => exact ih (m := m.modifyLink p.1 Link.disconnect)

theorem reap_besides (o : Manager × List Happening) : reap (besides f g o) = besides f g (reap o) :=
  Prod.ext (foldl_disconnect_beside o.1.strayStreams) rfl

theorem reap_among (o : Manager × List Happening) : reap (among rs o) = among rs (reap o) :=
  reap_besides (f := fun _ => rs) (g := fun ss => ss) o

theorem map_reap_besides {o o' : Outcome} (h : o' = o.map (besides f g)) :
    o'.map reap = (o.map reap).map (besides f g) := by
  subst h
  cases o with
  | none => rfl
  | some o => exact congrArg some (reap_besides o)

theorem move_beside (h : mv.Calls) : (m.beside f g).move mv = (m.move mv).map (besides f g) := by
  cases mv with
  | step task a =>
    cases task with
    | send id => exact map_reap_besides sendStep_beside
    | opening id =>
      refine map_reap_besides ?_
      simp only [step, openingStep_beside]
      split_ifs <;> rfl
    | _ => exact h.elim
  | abandon id => exact map_reap_besides abandonSend_beside
  | unregister e => exact h.elim
  | _ => rfl

theorem move_withReceivers (h : ¬mv.Regards) :
    (m.withReceivers rs).move mv = (m.move mv).map (among rs) := by
  have hcalls : mv.Calls → (m.withReceivers rs).move mv = (m.move mv).map (among rs) :=
    fun h => move_beside (f := fun _ => rs) (g := fun ss => ss) h
  cases mv with
  | step task a =>
    cases task with
    | acceptor | receiver | closing => exact absurd trivial h
    | send | opening => exact hcalls trivial
    | dispatch id | registration id =>
      refine map_reap_besides (f := fun _ => rs) (g := fun ss => ss) ?_
      simp only [step, registrationStep_withReceivers, dispatchStep_withReceivers]
      split_ifs <;> rfl
  | unregister e =>
    simp only [move, unregister, removeObserver_withReceivers]
    rfl
  | _ => exact hcalls trivial

theorem receivers_of_move (hm : m.move mv = some (m', hs)) (h : ¬mv.Regards) :
    m'.receivers = m.receivers := by
  have hsame : m.move mv = (m.move mv).map (among m.receivers) := move_withReceivers h
  rw [hm] at hsame
  exact congrArg (fun o : Manager × _ => o.1.receivers) (Option.some.inj hsame)

/-- The receiver that a move adds. -/
def Move.incoming? : Move → Option Receiver
  | .step .acceptor (.incoming stream peer) => some { stream, peer }
  | _ => none

/-- A receiver as it was when its connection was accepted. -/
def Receiver.asAccepted (r : Receiver) : Receiver := { r with stage := .opening }

theorem map_asAccepted_modify {i : Nat} {stage : ReceiverStage} :
    (rs.modify i fun r => { r with stage }).map Receiver.asAccepted =
      rs.map Receiver.asAccepted := by
  refine List.ext_getElem? fun j => ?_
  rw [List.getElem?_map, List.getElem?_map, List.getElem?_modify]
  cases rs[j]? with
  | none => rfl
  | some r =>
    simp only [Option.map_eq_map, Option.map_some]
    split <;> rfl

/-- Every connection that comes gets a receiver, and keeps it. -/
theorem incoming_of_move (hm : m.move mv = some (m', hs)) :
    m'.receivers.map Receiver.asAccepted =
      m.receivers.map Receiver.asAccepted ++ mv.incoming?.toList := by
  have hsame : mv.incoming? = none → m'.receivers = m.receivers →
      m'.receivers.map Receiver.asAccepted =
        m.receivers.map Receiver.asAccepted ++ mv.incoming?.toList := fun hn he => by
    rw [hn, he, Option.toList_none, List.append_nil]
  cases mv with
  | step task a =>
    obtain ⟨⟨m₁, hs₁⟩, ho, hr⟩ := move_step hm
    cases task with
    | acceptor =>
      rw [reap_scope hr]
      cases acceptorStep_cases ho with
      | accept => exact List.map_append
      | stop | fail | resume => exact (List.append_nil _).symm
    | receiver i =>
      rw [reap_scope hr]
      obtain ⟨stage, hk⟩ := receiverStep_receivers ho
      refine (congrArg _ hk).trans (map_asAccepted_modify.trans ?_)
      exact (List.append_nil _).symm
    | closing c => exact hsame rfl (by rw [reap_scope hr, closingStep_scope ho])
    | _ => exact hsame rfl (receivers_of_move hm not_false)
  | _ => exact hsame rfl (receivers_of_move hm not_false)

/-- The acceptor and the count of connections change by steps of the accepting side only, and the
clock is never put back. -/
theorem accepting_of_move (hm : m.move mv = some (m', hs)) :
    ((∃ a, mv = .step .acceptor a) ∨ m'.acceptor = m.acceptor) ∧
      ((∃ i a, mv = .step (.receiver i) a) ∨ m'.established = m.established) ∧
      m.clock ≤ m'.clock := by
  cases mv with
  | step task a =>
    obtain ⟨⟨m₁, hs₁⟩, ho, hr⟩ := move_step hm
    rw [reap_scope hr]
    cases task with
    | acceptor =>
      rw [acceptorStep_scope ho]
      exact ⟨.inl ⟨a, rfl⟩, .inr rfl, Nat.le_refl _⟩
    | receiver i =>
      rw [receiverStep_scope ho]
      exact ⟨.inr rfl, .inl ⟨i, a, rfl⟩, Nat.le_refl _⟩
    | send id =>
      rw [sendStep_scope ho]
      exact ⟨.inr rfl, .inr rfl, Nat.le_refl _⟩
    | closing id =>
      rw [closingStep_scope ho]
      exact ⟨.inr rfl, .inr rfl, Nat.le_refl _⟩
    | dispatch id =>
      rw [dispatchStep_scope (step_dispatch ho).2]
      exact ⟨.inr rfl, .inr rfl, Nat.le_refl _⟩
    | opening id =>
      rw [openingStep_scope (step_opening ho).2]
      exact ⟨.inr rfl, .inr rfl, Nat.le_refl _⟩
    | registration id =>
      rw [registrationStep_scope (step_registration ho).2]
      exact ⟨.inr rfl, .inr rfl, Nat.le_refl _⟩
  | abandon id =>
    obtain ⟨⟨m₁, hs₁⟩, ho, hr⟩ := move_abandon hm
    rw [reap_scope hr, abandonSend_scope ho]
    exact ⟨.inr rfl, .inr rfl, Nat.le_refl _⟩
  | unregister e =>
    have hm : m.removeObserver e = m' := congrArg Prod.fst (Option.some.inj hm)
    rw [← hm, removeObserver_scope]
    exact ⟨.inr rfl, .inr rfl, Nat.le_refl _⟩
  | elapse time =>
    cases hm
    exact ⟨.inr rfl, .inr rfl, Nat.le_add_right _ _⟩
  | _ =>
    cases hm
    exact ⟨.inr rfl, .inr rfl, Nat.le_refl _⟩

end PeerLink.Manager
