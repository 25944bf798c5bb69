import PeerLink.Proofs.Manager.Connections
import PeerLink.Proofs.Receiver.Punctual

namespace PeerLink.Manager

variable {f : Inflow} {m m' m₁ : Manager} {mv : Move} {hs hs₁ : List Happening} {d id : Nat}
  {r r' : Receiver} {a : Answer} {ts : List Transition} {t : Transition} {address : Endpoint}
  {config : Config} {clock : Nat} {moves : List Move}

def Unstarted (id : Nat) (ts : List Transition) : Prop :=
  ∀ t ∈ ts, (∀ a, t.move ≠ .step (.receiver id) a) ∧ ¬t.after.Receives id

def Keeps (f : Inflow) (id : Nat) (m : Manager) (ts : List Transition) (r : Receiver) : Prop :=
  ∃ start, ts.filterMap (·.start? id) = [start] ∧
    ((∀ x ∈ f.pieces, x.1 ≠ start + m.config.handshakeTimeout) →
      OnTime f m.config.maxFrame (start + m.config.handshakeTimeout) r.peer r.stream m.clock
        (ts.flatMap (·.reads id)) (ts.flatMap (·.doneBy id)) (∃ t ∈ ts, t.after.Receives id) r.stage)

structure Clocked (f : Inflow) (id : Nat) (m : Manager) (ts : List Transition) : Prop where
  punctual : ∀ d, m.deadline? id = some d → m.clock ≤ d
  unstarted : (∀ r, m.receivers[id]? = some r → r.stage = .opening) → Unstarted id ts
  started : ∀ r, m.receivers[id]? = some r → r.stage ≠ .opening → Keeps f id m ts r

def CaughtUp (f : Inflow) (id : Nat) (m : Manager) (ts : List Transition) : Prop :=
  m.receiverStep id .none = none ∧
    (m.receiverRequest id ≠ .none → f.Exhausted m.clock (ts.flatMap (·.reads id)))

theorem Transition.doneBy_of_other (h : ∀ a, t.move ≠ .step (.receiver id) a) :
    t.doneBy id = [] :=
  doneBy_of_ne fun htask => by
    obtain ⟨a, ha⟩ := Move.eq_step_of_task? htask
    exact h a ha

namespace Unstarted

theorem not_live (h : Unstarted id ts) : ¬∃ t ∈ ts, t.after.Receives id :=
  fun ⟨t, ht, hl⟩ => (h t ht).2 hl

theorem doneBy_eq_nil (h : Unstarted id ts) : ts.flatMap (·.doneBy id) = [] :=
  List.flatMap_eq_nil_iff.mpr fun t ht => Transition.doneBy_of_other (h t ht).1

theorem starts_eq_nil (h : Unstarted id ts) : ts.filterMap (·.start? id) = [] :=
  List.filterMap_eq_nil_iff.mpr fun t ht => Transition.start?_of_ne (h t ht).1

theorem concat (h : Unstarted id ts) (hm : ∀ a, t.move ≠ .step (.receiver id) a)
    (hn : ∀ r, t.after.receivers[id]? = some r → r.stage = .opening) : Unstarted id (ts ++ [t]) := by
  intro u hu
  obtain hu | hu := List.mem_append.mp hu
  · exact h u hu
  · cases List.mem_singleton.mp hu
    refine ⟨hm, fun ⟨r, hr, hl⟩ => ?_⟩
    rw [hn r hr] at hl
    exact hl

end Unstarted

theorem starts_concat : (ts ++ [t]).filterMap (·.start? id) =
    ts.filterMap (·.start? id) ++ (t.start? id).toList := by
  rw [List.filterMap_append]
  cases h : t.start? id <;> simp [h]

theorem exists_live_concat : (∃ u ∈ ts ++ [t], u.after.Receives id) ↔
    (∃ u ∈ ts, u.after.Receives id) ∨ t.after.Receives id := by
  simp only [List.mem_append, List.mem_singleton, or_and_right, exists_or, exists_eq_left]

theorem receives_iff (hr : m.receivers[id]? = some r) : m.Receives id ↔ r.stage.Live := by
  simp [Receives, hr]

theorem Keeps.start (hu : Unstarted id ts) (hr : m.receivers[id]? = some r)
    (hs' : r.stage = .opening) (h : ReceiverStep m id r a m' hs) (hc : m.cancelled = false)
    (hr' : m'.receivers[id]? = some r') :
    Keeps f id m' (ts ++ [⟨m, .step (.receiver id) a, m', hs⟩]) r' := by
  cases h with
  | halt _ hc' => cases hc.symm.trans hc'
  | start =>
    cases (setReceiver_get hr _).symm.trans hr'
    refine ⟨m.clock, ?_, fun _ => ⟨rfl, ?_, ?_⟩⟩
    · rw [starts_concat, hu.starts_eq_nil, Transition.start?_of_step rfl hr hs']
      rfl
    · rw [List.flatMap_append, hu.doneBy_eq_nil, List.flatMap_singleton,
        Transition.doneBy_of_step rfl]
      rfl
    · rw [exists_live_concat, receives_iff (m := m.setReceiver id _) hr']
      exact fun h => h.elim hu.not_live fun h => h
  | reject hs | disagree hs | establish hs | vanish hs | expectGreeting hs | expire hs
  | breakGreeting hs | readGreeting hs | leave hs | fail hs | take hs | finish hs
  | expectFrame hs | breakFrame hs | readFrame hs | locate hs | widen hs | miss hs
  | hand hs => cases hs'.symm.trans hs

theorem Keeps.step (hk : Keeps f id m ts r) (hi : Received id m ts) (hr : m.receivers[id]? = some r)
    (hs' : r.stage ≠ .opening) (ho : m.receiverStep id a = some (m', hs)) (hc : m.cancelled = false)
    (htime : Transition.Timely f id ts ⟨m, .step (.receiver id) a, m', hs⟩)
    (hle : ∀ t, m.deadline? id = some t → m.clock ≤ t) (hr' : m'.receivers[id]? = some r') :
    Keeps f id m' (ts ++ [⟨m, .step (.receiver id) a, m', hs⟩]) r' := by
  obtain ⟨start, hstart, hon⟩ := hk
  obtain ⟨r₀, hr₀, hstep⟩ := receiverStep_cases ho
  cases hr.symm.trans hr₀
  obtain ⟨chunks, ending, hreads, hp⟩ := hi.present hc r hr
  have hreads' : (ts ++ [Transition.mk m (.step (.receiver id) a) m' hs]).flatMap (·.reads id) =
      (chunks.map .chunk ++ ending.answers) ++ if a = .none then [] else [a] := by
    rw [List.flatMap_append, List.flatMap_singleton, hreads, Transition.reads_of_step rfl]
  have hscope := receiverStep_scope ho
  have hconfig : m'.config = m.config := by rw [hscope]
  have hclock : m'.clock = m.clock := by rw [hscope]
  refine ⟨start, ?_, fun hoff => ?_⟩
  · rw [starts_concat, hstart, Transition.start?_eq_none hr hs']
    rfl
  rw [hconfig] at hoff ⊢
  have hb := htime.brought
  have hx := htime.exhausted
  rw [hreads'] at hb
  rw [hreads] at hx
  have hon := hon hoff
  rw [hreads] at hon
  obtain ⟨stage, hg, hnext⟩ := advanced_of_step hr hstep hc hp hb
    (fun ha => hx (by rw [ha])) hle hoff hon
  cases hg.symm.trans hr'
  rw [hreads', hclock, List.flatMap_append, List.flatMap_singleton, Transition.doneBy_of_step rfl]
  exact hnext.congr (by rw [exists_live_concat, receives_iff hg])

theorem Keeps.other (hk : Keeps f id m ts r) (hr : m.receivers[id]? = some r)
    (hs' : r.stage ≠ .opening) (hm : ∀ a, mv ≠ .step (.receiver id) a)
    (hmove : m.move mv = some (m', hs)) (hr' : m'.receivers[id]? = some r) :
    Keeps f id m' (ts ++ [⟨m, mv, m', hs⟩]) r := by
  obtain ⟨start, hstart, hon⟩ := hk
  refine ⟨start, ?_, fun hoff => ?_⟩
  · rw [starts_concat, hstart, Transition.start?_eq_none hr hs']
    rfl
  rw [(move_later hmove).config] at hoff ⊢
  rw [List.flatMap_append, List.flatMap_singleton, List.flatMap_append, List.flatMap_singleton,
    Transition.reads_of_ne hm, Transition.doneBy_of_other hm, List.append_nil, List.append_nil]
  have hlater := (hon hoff).later (accepting_of_move hmove).2.2
  refine hlater.congr ?_
  rw [exists_live_concat, receives_iff hr']
  exact (or_iff_left_of_imp hlater.of_live).symm

/-- A deadline is set for a time to come, and time does not go beyond it. -/
theorem clock_le_deadline (ht : Tidy m) (hm : m.move mv = some (m', hs))
    (htime : Transition.Timely f id ts ⟨m, mv, m', hs⟩)
    (hd : m'.deadline? id = some d) : m'.clock ≤ d := by
  obtain ⟨r', rd, hr', hs'⟩ := deadline?_eq_some.mp hd
  cases hr : m.receivers[id]? with
  | none =>
    have hn := move_newReceiver hm hr hr'
    cases hn.symm.trans hs'
  | some r =>
    have hbefore : (∃ rd, r.stage = .greeting d rd) → m'.clock ≤ d :=
      fun ⟨rd, hs⟩ => htime.urgent d (deadline?_eq_some.mpr ⟨r, rd, hr, hs⟩)
    obtain ⟨a, -, -, rfl, -⟩ | ⟨-, hr''⟩ := move_receiver hm hr
    · obtain ⟨r₀, hr₀, hstep⟩ := move_own hm ht
      cases hr.symm.trans hr₀
      obtain ⟨stage, hg, -, hstage⟩ := hstep.follows hr
      cases hg.symm.trans hr'
      obtain ⟨-, rfl⟩ | hs := hstage d rd hs'
      · rw [move_receiver_eq ht] at hm
        rw [receiverStep_scope hm]
        exact Nat.le_add_right _ _
      · exact hbefore hs
    · cases hr''.symm.trans hr'
      exact hbefore ⟨rd, hs'⟩

theorem Clocked.move (h : Clocked f id m ts) (hi : Received id m ts) (ht : Tidy m)
    (hc : m.cancelled = false) (hm : m.move mv = some (m', hs))
    (htime : Transition.Timely f id ts ⟨m, mv, m', hs⟩) :
    Clocked f id m' (ts ++ [⟨m, mv, m', hs⟩]) := by
  have hpunctual : ∀ d, m'.deadline? id = some d → m'.clock ≤ d := fun _ hd =>
    clock_le_deadline ht hm htime hd
  cases hr : m.receivers[id]? with
  | none =>
    have hnew : ∀ r', m'.receivers[id]? = some r' → r'.stage = .opening :=
      fun r' hr' => move_newReceiver hm hr hr'
    have hu : Unstarted id ts := h.unstarted fun r hr' => by cases hr.symm.trans hr'
    exact ⟨hpunctual, fun _ => hu.concat (not_receives hm hr) hnew,
      fun r' hr' hs => absurd (hnew r' hr') hs⟩
  | some r =>
    -- A receiver that has not started does so by its first step.
    have hu : r.stage = .opening → Unstarted id ts := fun hs => h.unstarted fun r₁ hr₁ => by
      cases hr.symm.trans hr₁
      exact hs
    obtain ⟨a, -, -, rfl, -⟩ | ⟨hne, hr'⟩ := move_receiver hm hr
    · obtain ⟨r₀, hr₀, hstep⟩ := move_own hm ht
      cases hr.symm.trans hr₀
      obtain ⟨stage, hr', hstarted, -⟩ := hstep.follows hr
      refine ⟨hpunctual, fun hall => absurd (hall _ hr') hstarted, fun r₁ hr₁ _ => ?_⟩
      cases hr'.symm.trans hr₁
      by_cases hs : r.stage = .opening
      · exact .start (hu hs) hr hs hstep hc hr'
      · rw [move_receiver_eq ht] at hm
        exact (h.started r hr hs).step hi hr hs hm hc htime h.punctual hr'
    · refine ⟨hpunctual, fun hall => (hu (hall r hr')).concat hne hall, fun r₁ hr₁ hs => ?_⟩
      cases hr'.symm.trans hr₁
      exact (h.started r hr hs).other hr hs hne hm hr'

theorem run_clocked (h : (new address config clock).run moves = some (m, hs)) (hc : m.cancelled = false)
    (htime : Timely f id ((new address config clock).transitions moves)) :
    Clocked f id m ((new address config clock).transitions moves) := by
  refine (run_induction (P := fun m ts => Tidy m ∧ Received id m ts ∧
    (m.cancelled = false → Timely f id ts → Clocked f id m ts)) ?_ ?_ h).2.2 hc htime
  · have hn : (new address config clock).receivers[id]? = none := List.getElem?_nil
    refine ⟨.new address config clock, .new id address config clock, fun _ _ =>
      ⟨fun d hd => ?_, ?_, ?_⟩⟩
    · obtain ⟨r, -, hr, -⟩ := deadline?_eq_some.mp hd
      cases hn.symm.trans hr
    · exact fun _ t ht => absurd ht List.not_mem_nil
    · exact fun r hr => by cases hn.symm.trans hr
  · rintro m ts mv m' hs ⟨ht, hi, hk⟩ hm
    refine ⟨ht.move hm, hi.move hm, fun hc htime => ?_⟩
    have hc : m.cancelled = false := (move_later hm).running hc
    obtain ⟨hbefore, hlast⟩ := timely_concat.mp htime
    exact (hk hc hbefore).move hi ht hc hm hlast

theorem takes_of_request (hr : m.receivers[id]? = some r) (hc : m.cancelled = false)
    (hq : m.receiverRequest id ≠ .none)
    (ha : (∃ bytes, a = .chunk bytes) ∨ a = .ended ∨ ∃ error, a = .failed error) :
    ∃ o, m.receiverStep id a = some o := by
  rw [receiverRequest, hr] at hq
  cases hs : r.stage with
  | greeting t rd =>
    cases hf : rd.fresh with
    | true => simp [hs, hf] at hq
    | false =>
      have hstep : m.receiverStep id a = m.greetingStep id r t rd a := by
        simp only [receiverStep, hr, hs, Option.bind_eq_bind, Option.bind_some]
      rw [hstep]
      obtain ⟨bytes, rfl⟩ | rfl | ⟨error, rfl⟩ := ha <;>
        simp [greetingStep, hc, hf, Reading.take?]
  | receiving source rd =>
    cases hf : rd.fresh with
    | true => simp [hs, hf] at hq
    | false =>
      have hstep : m.receiverStep id a = m.receivingStep id r source rd a := by
        simp only [receiverStep, hr, hs, Option.bind_eq_bind, Option.bind_some]
      rw [hstep]
      obtain ⟨bytes, rfl⟩ | rfl | ⟨error, rfl⟩ := ha <;>
        simp [receivingStep, hc, hf, Reading.take?]
  | opening | routing source rd item rt | ended => simp [hs] at hq

/-- A receiver that does not rest has a step to take that keeps to the clock, and comes nearer to
where it rests. -/
theorem exists_timely_step (hr : m.receivers[id]? = some r) (hc : m.cancelled = false)
    (hle : ∀ d, m.deadline? id = some d → m.clock ≤ d)
    (hb : f.Brings m.clock (ts.flatMap (·.reads id))) (hn : ¬CaughtUp f id m ts) :
    ∃ a m₁ hs₁, m.receiverStep id a = some (m₁, hs₁) ∧
      Transition.Timely f id ts ⟨m, .step (.receiver id) a, m₁, hs₁⟩ ∧
      (a = .none ∨ f.left m.clock (ts.flatMap (·.reads id) ++ if a = .none then [] else [a]) <
        f.left m.clock (ts.flatMap (·.reads id))) := by
  by_cases hq : m.receiverRequest id ≠ .none ∧ ¬f.Exhausted m.clock (ts.flatMap (·.reads id))
  · obtain ⟨a, ha, hb', hl⟩ := hb.exists_next hq.2
    obtain ⟨⟨m₁, hs₁⟩, ho⟩ := takes_of_request hr hc hq.1 ha
    have hne : a ≠ .none := by
      rintro rfl
      obtain ⟨_, ha⟩ | ha | ⟨_, ha⟩ := ha <;> cases ha
    refine ⟨a, m₁, hs₁, ho, ⟨?_, fun hm => ?_, fun d hd => ?_⟩, .inr ?_⟩
    · rwa [List.flatMap_append, List.flatMap_singleton, Transition.reads_of_step rfl, if_neg hne]
    · exact absurd (Move.step.inj hm).2 hne
    · rw [receiverStep_scope ho]
      exact hle d hd
    · rwa [if_neg hne]
  · have hx : m.receiverRequest id ≠ .none → f.Exhausted m.clock (ts.flatMap (·.reads id)) :=
      fun h => by_contra fun hn => hq ⟨h, hn⟩
    obtain ⟨⟨m₁, hs₁⟩, ho⟩ := Option.ne_none_iff_exists'.mp fun hw => hn ⟨hw, hx⟩
    refine ⟨.none, m₁, hs₁, ho, ⟨?_, fun _ => hx, fun d hd => ?_⟩, .inl rfl⟩
    · rwa [List.flatMap_append, List.flatMap_singleton, Transition.reads_of_step rfl, if_pos rfl,
        List.append_nil]
    · rw [receiverStep_scope ho]
      exact hle d hd

theorem run_brings (h : (new address config clock).run moves = some (m, hs))
    (htime : Timely f id ((new address config clock).transitions moves)) :
    f.Brings m.clock (((new address config clock).transitions moves).flatMap (·.reads id)) := by
  refine (run_induction (P := fun m ts => Timely f id ts →
    f.Brings m.clock (ts.flatMap (·.reads id))) ?_ ?_ h) htime
  · exact fun _ => ⟨List.nil_prefix, .inl rfl⟩
  · intro m ts mv m' hs _ hm htime
    exact (timely_concat.mp htime).2.brought.later (accepting_of_move hm).2.2

/-- After a run, the receiver's own steps take it in time to where it has nothing to do. -/
def CatchesUp (f : Inflow) (id : Nat) (m₀ : Manager) (moves : List Move) (m : Manager) : Prop :=
  ∃ more m' hs, (∀ mv ∈ more, mv.task? = some (.receiver id)) ∧
    m₀.run (moves ++ more) = some (m', hs) ∧ m'.clock = m.clock ∧ m'.closed = m.closed ∧
    Timely f id (m₀.transitions (moves ++ more)) ∧
    CaughtUp f id m' (m₀.transitions (moves ++ more))

theorem CatchesUp.of_step {m₀ : Manager} {moves : List Move}
    (ho : m.receiverStep id a = some (m₁, hs₁))
    (h : CatchesUp f id m₀ (moves ++ [.step (.receiver id) a]) m₁) :
    CatchesUp f id m₀ moves m := by
  obtain ⟨more, m', hs, hown, hrun, hclock, hclosed, hrest⟩ := h
  have hscope := receiverStep_scope ho
  rw [List.append_assoc] at hrun hrest
  refine ⟨.step (.receiver id) a :: more, m', hs, ?_, hrun, ?_, ?_, hrest⟩
  · exact List.forall_mem_cons.mpr ⟨rfl, hown⟩
  · rw [hclock, hscope]
  · rw [hclosed, hscope]

theorem run_catchesUp (h : (new address config clock).run moves = some (m, hs)) (hc : m.cancelled = false)
    (hr : m.receivers[id]? = some r)
    (htime : Timely f id ((new address config clock).transitions moves)) :
    CatchesUp f id (new address config clock) moves m := by
  -- Reads use up what has come; from one read to the next it takes the steps that are left.
  induction hl : f.left m.clock (((new address config clock).transitions moves).flatMap (·.reads id))
    using Nat.strong_induction_on generalizing moves m hs r with
  | _ left ihl =>
    induction he : r.stage.effort using Nat.strong_induction_on generalizing moves m hs r with
    | _ effort ihe =>
      by_cases hw : CaughtUp f id m ((new address config clock).transitions moves)
      · rw [← List.append_nil moves] at h htime hw
        exact ⟨[], m, hs, nofun, h, rfl, rfl, htime, hw⟩
      · obtain ⟨a, m₁, hs₁, ho, hstep, hless⟩ := exists_timely_step hr hc
          (run_clocked h hc htime).punctual (run_brings h htime) hw
        have hm : m.move (.step (.receiver id) a) = some (m₁, hs₁) :=
          (move_receiver_eq (run_tidy h)).trans ho
        obtain ⟨h₁, hts⟩ := run_concat h hm
        have htime₁ := timely_concat.mpr ⟨htime, hstep⟩
        rw [← hts] at htime₁
        have hscope := receiverStep_scope ho
        have hc₁ : m₁.cancelled = false := by rw [hscope]; exact hc
        obtain ⟨stage, hr₁⟩ := move_stage hm hr
        have hleft : f.left m₁.clock (((new address config clock).transitions
            (moves ++ [.step (.receiver id) a])).flatMap (·.reads id)) =
            f.left m.clock (((new address config clock).transitions moves).flatMap (·.reads id) ++
              if a = .none then [] else [a]) := by
          rw [hts, List.flatMap_append, List.flatMap_singleton, Transition.reads_of_step rfl, hscope]
        refine .of_step ho ?_
        obtain rfl | hless := hless
        · obtain ⟨r₀, hr₀, hst⟩ := receiverStep_cases ho
          cases hr.symm.trans hr₀
          have heffort := hst.effort_lt hr hr₁ hc
          rw [he] at heffort
          rw [if_pos rfl, List.append_nil, hl] at hleft
          exact ihe _ heffort h₁ hc₁ hr₁ htime₁ hleft rfl
        · rw [← hleft, hl] at hless
          exact ihl _ hless h₁ hc₁ hr₁ htime₁ rfl

end PeerLink.Manager
