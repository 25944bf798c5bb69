import PeerLink.Proofs.Receiver.Containment

namespace PeerLink

namespace Frame.Intake

variable {max length : Nat} {i i' : Intake} {body buffer : Bytes}

theorem unread_of_takeBody (h : takeBody length buffer = (some body, i')) :
    buffer = body ++ i'.unread := by
  rw [takeBody] at h
  split at h
  · next hc =>
    cases h
    exact (Bytes.cut?_eq_some hc).1
  · cases h

theorem unread_lt (h : i.next max = (.ok (some body), i')) :
    i'.unread.length < i.unread.length := by
  obtain ⟨phase, buffer⟩ := i
  cases phase with
  | body length =>
    simp only [next, Prod.mk.injEq, Except.ok.injEq] at h
    have hb := unread_of_takeBody (Prod.ext h.1 h.2)
    have hn : (Bytes.bigEndian 4 length).length = 4 := Bytes.length_bigEndian ..
    change _ < (Bytes.bigEndian 4 length ++ buffer).length
    rw [hb, List.length_append, List.length_append, hn]
    omega
  | head =>
    simp only [next] at h
    split at h
    · cases h
    · next head rest hc =>
      obtain ⟨hb, hn⟩ := Bytes.cut?_eq_some hc
      split at h
      · cases h
      · simp only [Prod.mk.injEq, Except.ok.injEq] at h
        have hr := unread_of_takeBody (Prod.ext h.1 h.2)
        change _ < buffer.length
        rw [hb, hr, List.length_append, List.length_append, hn]
        omega

end Frame.Intake

namespace Manager

def Routing.effort : Routing → Nat
  | .exact => 3
  | .wildcard => 2
  | .handing _ => 1

def ReceiverStage.effort : ReceiverStage → Nat
  | .opening => 2
  | .greeting _ rd => if rd.fresh then 5 * rd.intake.unread.length + 2 else 1
  | .receiving _ rd => if rd.fresh then 5 * rd.intake.unread.length + 4 else 0
  | .routing _ rd (.frame _) rt => 5 * rd.intake.unread.length + 4 + rt.effort
  | .routing _ _ (.failure _) rt => rt.effort
  | .ended => 0

variable {m m' m₁ : Manager} {hs hs₁ : List Happening} {k max : Nat} {r r₁ : Receiver}
  {rd : Reading} {i : Frame.Intake}

theorem Reading.unread_lt {body : Bytes} (h : rd.frame max = (.ok (some body), i)) :
    i.unread.length < rd.intake.unread.length := by
  rw [Reading.frame] at h
  split at h
  · rw [Frame.Intake.last] at h
    split at h
    · split at h <;> cases h
    · exact Frame.Intake.unread_lt h
  · exact Frame.Intake.unread_lt h

theorem effort_afterRouting {source : Endpoint} {item : Item} {rt : Routing}
    (hr : m.receivers[k]? = some r)
    (hr₁ : (m.afterRouting k r source rd item hs).1.receivers[k]? = some r₁) :
    r₁.stage.effort < (ReceiverStage.routing source rd item rt).effort := by
  have hrt : 0 < rt.effort := by cases rt <;> exact Nat.succ_pos _
  cases item with
  | frame body =>
    cases (setReceiver_get hr _).symm.trans hr₁
    simp only [ReceiverStage.effort]
    split <;> omega
  | failure error =>
    cases (setReceiver_get (m := { m with established := m.established - 1 }) hr _).symm.trans hr₁
    exact hrt

theorem ReceiverStep.effort_lt (h : ReceiverStep m k r .none m₁ hs) (hr : m.receivers[k]? = some r)
    (hr₁ : m₁.receivers[k]? = some r₁) (hc : m.cancelled = false) :
    r₁.stage.effort < r.stage.effort := by
  cases h with
  | leave _ hc' => cases hc.symm.trans hc'
  | readGreeting _ _ _ hrd | readFrame _ _ _ hrd => cases hrd
  | halt hs =>
    cases (setReceiver_get hr _).symm.trans hr₁
    obtain hs | ⟨t, rd, hs⟩ := hs <;> rw [hs] <;> simp only [ReceiverStage.effort]
    · decide
    · split <;> omega
  | start hs | expire hs _ hf =>
    cases (setReceiver_get hr _).symm.trans hr₁
    simp [ReceiverStage.effort, *]
  | reject hs _ hf | disagree hs _ hf | vanish hs _ hf | expectGreeting hs _ hf
  | expectFrame hs _ hf =>
    cases (setReceiver_get hr _).symm.trans hr₁
    simp [hs, ReceiverStage.effort, hf]
  | fail hs _ hf =>
    cases (setReceiver_get hr _).symm.trans hr₁
    simp only [hs, ReceiverStage.effort, Routing.effort, hf, if_true]
    omega
  | take hs _ hf hg =>
    cases (setReceiver_get hr _).symm.trans hr₁
    have := Reading.unread_lt hg
    simp only [hs, ReceiverStage.effort, Routing.effort, hf, if_true]
    omega
  | establish hs _ hf hg =>
    cases (setReceiver_get (m := { m with established := m.established + 1 }) hr _).symm.trans hr₁
    obtain ⟨body, hg, -⟩ := greeting_some hg
    have := Reading.unread_lt hg
    simp only [hs, ReceiverStage.effort, hf, if_true]
    omega
  | finish hs _ hf =>
    cases (setReceiver_get (m := { m with established := m.established - 1 }) hr _).symm.trans hr₁
    simp [hs, ReceiverStage.effort, hf]
  | @locate _ _ item _ _ s hs hk =>
    cases (setReceiver_get (m := m.modifySubscription s fun b =>
      { b with handles := b.handles + 1 }) hr _).symm.trans hr₁
    obtain ⟨rfl, -⟩ | ⟨rfl, -⟩ := hk <;> cases item <;>
      simp [hs, ReceiverStage.effort, Routing.effort]
  | @widen _ _ item hs =>
    cases (setReceiver_get hr _).symm.trans hr₁
    cases item <;> simp [hs, ReceiverStage.effort, Routing.effort]
  | miss hs =>
    rw [hs]
    exact effort_afterRouting hr hr₁
  | @hand _ _ item s hs =>
    rw [hs]
    exact effort_afterRouting (m := (m.modifySubscription s (·.push item)).dropHandle s) hr hr₁

/-- A receiver comes to where it has nothing to do until the network brings something. -/
theorem run_to_rest (ht : Tidy m) (hc : m.cancelled = false) (hr : m.receivers[k]? = some r) :
    ∃ n m₁ hs₁, m.run (List.replicate n (.step (.receiver k) .none)) = some (m₁, hs₁) ∧
      m₁.cancelled = false ∧ m₁.receiverStep k .none = none := by
  -- There is a step to take until the effort that is left is used up.
  induction hn : r.stage.effort using Nat.strong_induction_on generalizing m r with
  | _ n ih =>
    cases ho : m.receiverStep k .none with
    | none => exact ⟨0, m, [], rfl, hc, ho⟩
    | some o =>
      obtain ⟨m₁, hs₁⟩ := o
      have hm : m.move (.step (.receiver k) .none) = some (m₁, hs₁) := (move_receiver_eq ht).trans ho
      obtain ⟨r', hr', hst⟩ := receiverStep_cases ho
      cases hr.symm.trans hr'
      obtain ⟨r₁, hr₁⟩ : ∃ r₁, m₁.receivers[k]? = some r₁ :=
        (move_stage hm hr).imp' _ fun _ h => h
      have hc₁ : m₁.cancelled = false := by
        rw [receiverStep_scope ho]
        exact hc
      obtain ⟨n₁, m₂, hs₂, hrun, hrest⟩ :=
        ih _ (hn ▸ hst.effort_lt hr hr₁ hc) (ht.move hm) hc₁ hr₁ rfl
      exact ⟨n₁ + 1, m₂, _, run_cons.mpr ⟨m₁, hs₁, hs₂, hm, hrun, rfl⟩, hrest⟩

theorem request_of_waiting (hr : m.receivers[k]? = some r) (hc : m.cancelled = false)
    (hw : m.receiverStep k .none = none) (hn : r.stage ≠ .ended) :
    m.request (.receiver k) = .read r.stream ∧
      ∀ bytes, (m.receiverStep k (.chunk bytes)).isSome = true := by
  obtain ⟨t, rd, hs, hf⟩ | ⟨source, rd, hs, hf⟩ | hs := idle_of_waiting hr hc hw
  · refine ⟨by simp [request, receiverRequest, hc, hr, hs, hf], fun bytes => ?_⟩
    simp [receiverStep, greetingStep, hc, hr, hs, hf, Reading.take?]
  · refine ⟨by simp [request, receiverRequest, hc, hr, hs, hf], fun bytes => ?_⟩
    simp [receiverStep, receivingStep, hc, hr, hs, hf, Reading.take?]
  · exact absurd hs hn

def Relayed (max k : Nat) (peer : Endpoint) (ts : List Transition) : Prop :=
  ∃ (chunks : List Bytes) (ending : StreamEnd),
    ts.flatMap (·.reads k) = chunks.map .chunk ++ ending.answers ∧
      ts.flatMap (·.handed k) = interpret max peer chunks.flatten ending

/-- After a run, a receiver deals by itself with all that it has read. Then it is over, or has handed
over what the bytes spell and takes more of them. -/
def Attended (m₀ : Manager) (moves : List Move) (m : Manager) (k : Nat) (r : Receiver) : Prop :=
  ∃ n m₁ hs stage, m.run (List.replicate n (.step (.receiver k) .none)) = some (m₁, hs) ∧
    m₁.receivers[k]? = some { r with stage } ∧
    (stage = .ended ∨ m₁.request (.receiver k) = .read r.stream ∧
      (∀ bytes, (m₁.move (.step (.receiver k) (.chunk bytes))).isSome = true) ∧
      Relayed m₀.config.maxFrame k r.peer
        (m₀.transitions (moves ++ List.replicate n (.step (.receiver k) .none))))

theorem run_attended {address : Endpoint} {config : Config} {clock : Nat} {moves : List Move}
    (h : (new address config clock).run moves = some (m, hs)) (hc : m.cancelled = false)
    (hr : m.receivers[k]? = some r) : Attended (new address config clock) moves m k r := by
  obtain ⟨n, m₁, hs₁, hrun, hc₁, hw⟩ := run_to_rest (run_tidy h) hc hr
  obtain ⟨stage, hr₁⟩ := run_stage hrun hr
  refine ⟨n, m₁, hs₁, stage, hrun, hr₁, ?_⟩
  have hall := run_append.mpr ⟨m, hs, hs₁, h, hrun, rfl⟩
  have hconfig : m₁.config.maxFrame = config.maxFrame := by
    rw [(run_later hall).config]
    rfl
  obtain ⟨chunks, ending, hreads, hp⟩ := (run_received hall).present hc₁ _ hr₁
  obtain rfl | hn := eq_or_ne stage .ended
  · exact .inl rfl
  · obtain ⟨hreq, htake⟩ := request_of_waiting hr₁ hc₁ hw hn
    obtain ⟨hh, -⟩ := settled_of_waiting hr₁ hc₁ hw hn hp
    rw [hconfig] at hh
    exact .inr ⟨hreq, fun bytes => by rw [move_receiver_eq (run_tidy hall)]; exact htake bytes,
      chunks, ending, hreads, hh⟩

end Manager

end PeerLink
