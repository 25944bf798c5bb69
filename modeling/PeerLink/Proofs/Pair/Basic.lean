import PeerLink.Proofs.Receiver.Intact
import PeerLink.Proofs.Stream.Turns

namespace PeerLink

open Manager

structure Site where
  address : Endpoint
  config : Config := {}
  clock : Nat := 0

def Site.start (s : Site) : Manager := .new s.address s.config s.clock

/-- The longest frame that a site sends and takes: four bytes have to spell its length, however high
the maximum is. -/
def Site.limit (s : Site) : Nat := Frame.limit s.config.maxFrame

structure Layout where
  near : Site
  far : Site
  destination : Endpoint
  peer : Endpoint
  task : SendId → Nat

namespace Layout

variable (L : Layout)

def hello : Bytes := Hello.format.write (.of L.near.address)

def source : Endpoint := resolveSource (.of L.near.address) L.peer

/-- A frame is no longer than the maximum of either site and than four bytes can spell. -/
def Admits (body : Bytes) : Prop := body.length ≤ L.near.limit ∧ body.length ≤ L.far.limit

instance (body : Bytes) : Decidable (L.Admits body) := inferInstanceAs (Decidable (_ ∧ _))

def heard (m : Manager) : Bool :=
  (m.observers.get? L.source).any fun s => (m.subscriptions[s]?).any (·.stage = .running)

end Layout

structure Pair where
  near : Manager
  far : Manager
  sent : List Transition := []
  got : List Transition := []
  arrivals : List (StreamId × Nat) := []

def Manager.ReceiverStage.lingers : ReceiverStage → Bool
  | .greeting _ reading => !reading.fresh
  | _ => false

namespace Pair

inductive Move where
  | near (move : Manager.Move)
  | far (move : Manager.Move)
  | join (stream number : StreamId)
  deriving DecidableEq

def start (L : Layout) : Pair := { near := L.near.start, far := L.far.start }

/-- A call from the near end to the far one is for a frame that both let through (`Admits`). -/
def Move.fits (L : Layout) : Move → Bool
  | .near (.send d frame) => d ≠ L.destination || L.Admits frame
  | _ => true

variable (L : Layout) (p : Pair)

def mayNear (mv : Manager.Move) : Bool :=
  !p.near.letsDown L.destination mv &&
    match mv with
    | .send d _ =>
      d ≠ L.destination || L.heard p.far && p.near.unoccupied L.destination L.task
    | .step (.send _) (.connected stream) => (openedStreams p.sent).all (·.stream ≠ stream)
    | _ => true

def mayRead (stream : StreamId) (id : Nat) : Answer → Bool
  | .none => !(p.far.receivers[id]?).any (·.stage.lingers)
  | .chunk bytes => readBy id p.got ++ bytes <+: taken p.sent stream
  | _ => false

/-- What the far manager may do. It keeps the observer for the near one once it has been called. -/
def mayFar : Manager.Move → Bool
  | .unregister remote =>
    remote ≠ L.source || p.near.sends.all (·.destination ≠ L.destination)
  | .step (.receiver id) answer =>
    p.arrivals.all fun (stream, i) => i ≠ id || p.mayRead stream id answer
  | _ => true

/-- A stream that was opened to the far manager and has not come in there yet. -/
def mayJoin (stream : StreamId) : Bool :=
  (openedStreams p.sent).any
      (fun e => e.stream = stream && p.near.callsTo L.destination e.send) &&
    stream ∉ p.arrivals.map Prod.fst

def advance (m : Manager) (mv : Manager.Move) : Option Transition := do
  let (m', hs) ← m.move mv
  if m'.closed then none else some ⟨m, mv, m', hs⟩

def nearAfter (t : Transition) : Pair := { p with near := t.after, sent := p.sent ++ [t] }

def called (d : Endpoint) (frame : Bytes) : Pair :=
  p.nearAfter ⟨p.near, .send d frame,
    { p.near with sends := p.near.sends ++ [{ destination := d, frame }] }, []⟩

/-- The pair after a step of a call, given what the call makes of the near manager. -/
def stepped (id : SendId) (o : Manager × List Happening) : Pair :=
  p.nearAfter ⟨p.near, .step (.send id) .none, (reap o).1, (reap o).2⟩

def move : Move → Option Pair
  | .near mv =>
    if p.mayNear L mv then (advance p.near mv).map p.nearAfter else none
  | .far mv =>
    if p.mayFar L mv then
      (advance p.far mv).map fun t => { p with far := t.after, got := p.got ++ [t] }
    else none
  | .join stream number =>
    if p.mayJoin L stream then
      (advance p.far (.step .acceptor (.incoming number L.peer))).map fun t =>
        { p with
          far := t.after
          got := p.got ++ [t]
          arrivals := p.arrivals ++ [(stream, p.far.receivers.length)] }
    else none

def run : Pair → List Move → Option Pair
  | p, [] => some p
  | p, mv :: mvs => (p.move L mv).bind (run · mvs)

variable {L p} {p' : Pair} {m m' : Manager} {mv : Manager.Move} {hs : List Happening}
  {t : Transition} {stream : StreamId} {id : Nat} {a : Answer} {d : Endpoint} {frame : Bytes}
  {moves : List Move}

theorem run_cons {mv : Move} (h : p.move L mv = some p') :
    p.run L (mv :: moves) = p'.run L moves := by
  rw [run, h, Option.bind_some]

theorem run_append (moves more : List Move) :
    p.run L (moves ++ more) = (p.run L moves).bind (·.run L more) := by
  induction moves generalizing p with
  | nil => rfl
  | cons mv moves ih => simp [run, ih, Option.bind_assoc]

theorem run_invariant {I : Pair → Prop}
    (next : ∀ p, ∀ mv ∈ moves, ∀ p', I p → p.move L mv = some p' → I p')
    (start : I p) (h : p.run L moves = some p') : I p' := by
  induction moves generalizing p with
  | nil =>
    cases h
    exact start
  | cons mv moves ih =>
    obtain ⟨p₁, hm, hr⟩ := Option.bind_eq_some_iff.mp h
    refine ih (fun p mv hmv => next p mv (List.mem_cons_of_mem _ hmv)) ?_ hr
    exact next p mv List.mem_cons_self p₁ start hm

theorem advance_eq_some (h : advance m mv = some t) :
    ∃ m' hs, t = ⟨m, mv, m', hs⟩ ∧ m.move mv = some (m', hs) ∧ m'.closed = false := by
  obtain ⟨⟨m', hs⟩, hm, h⟩ := Option.bind_eq_some_iff.mp h
  dsimp only at h
  split at h
  · cases h
  · next ho =>
    cases h
    exact ⟨m', hs, rfl, hm, by simpa using ho⟩

/-- Either manager makes a move, or a stream comes in at the far end. -/
theorem move_cases {move : Move} (h : p.move L move = some p') :
    (∃ mv m hs, move = .near mv ∧ p.mayNear L mv = true ∧ p.near.move mv = some (m, hs) ∧
        m.closed = false ∧ p' = { p with near := m, sent := p.sent ++ [⟨p.near, mv, m, hs⟩] }) ∨
      (∃ mv m hs, p.mayFar L mv = true ∧ p.far.move mv = some (m, hs) ∧ m.closed = false ∧
        p' = { p with far := m, got := p.got ++ [⟨p.far, mv, m, hs⟩] }) ∨
      ∃ stream number m hs, p.mayJoin L stream = true ∧ m.closed = false ∧
        p.far.move (.step .acceptor (.incoming number L.peer)) = some (m, hs) ∧
        p' = { p with
          far := m
          got := p.got ++ [⟨p.far, .step .acceptor (.incoming number L.peer), m, hs⟩]
          arrivals := p.arrivals ++ [(stream, p.far.receivers.length)] } := by
  cases move with
  | near mv =>
    obtain ⟨hmay, h⟩ := Option.ite_none_right_eq_some.mp h
    obtain ⟨t, ht, rfl⟩ := Option.map_eq_some_iff.mp h
    obtain ⟨m, hs, rfl, hm, ho⟩ := advance_eq_some ht
    exact .inl ⟨mv, m, hs, rfl, hmay, hm, ho, rfl⟩
  | far mv =>
    obtain ⟨hmay, h⟩ := Option.ite_none_right_eq_some.mp h
    obtain ⟨t, ht, rfl⟩ := Option.map_eq_some_iff.mp h
    obtain ⟨m, hs, rfl, hm, ho⟩ := advance_eq_some ht
    exact .inr (.inl ⟨mv, m, hs, hmay, hm, ho, rfl⟩)
  | join stream number =>
    obtain ⟨hmay, h⟩ := Option.ite_none_right_eq_some.mp h
    obtain ⟨t, ht, rfl⟩ := Option.map_eq_some_iff.mp h
    obtain ⟨m, hs, rfl, hm, ho⟩ := advance_eq_some ht
    exact .inr (.inr ⟨stream, number, m, hs, hmay, ho, hm, rfl⟩)

theorem move_send (hmay : p.mayNear L (.send d frame) = true) (ho : p.near.closed = false) :
    p.move L (.near (.send d frame)) = some (p.called d frame) := by
  simp [move, hmay, advance, Manager.move, ho, called]

theorem move_step {o : Manager × List Happening}
    (hmay : p.mayNear L (.step (.send id) .none) = true) (hs : p.near.sendStep id .none = some o)
    (ho : (p.stepped id o).near.closed = false) :
    p.move L (.near (.step (.send id) .none)) = some (p.stepped id o) := by
  have ho : (reap o).1.closed = false := ho
  simp [move, hmay, advance, Manager.move, Manager.step, hs, ho, stepped]

theorem run_call {s : Send} (hs : p.near.sends[id]? = some s) (h : p.run L moves = some p') :
    ∃ stage, p'.near.sends[id]? = some { s with stage } := by
  refine run_invariant (I := fun p => ∃ stage, p.near.sends[id]? = some { s with stage })
    (fun p mv _ p' hi hm => ?_) ⟨s.stage, hs⟩ h
  obtain ⟨stage, hs⟩ := hi
  obtain ⟨mv, m, hs', -, -, hmv, -, rfl⟩ | ⟨_, _, _, -, -, -, rfl⟩ | ⟨_, _, _, _, -, -, -, rfl⟩ :=
    move_cases hm
  · obtain ⟨m₁, hs₁, he, hr⟩ := move_effect hmv
    obtain ⟨stage', h₁, -⟩ := he.keeps_call hs
    exact ⟨stage', by rw [sends_of_reap hr, h₁]⟩
  · exact ⟨stage, hs⟩
  · exact ⟨stage, hs⟩

theorem heard_iff : L.heard m = true ↔ ∃ s, Hears m L.source s := by
  simp [Layout.heard, Hears, Option.any_eq_true]

theorem mayNear_spares (h : p.mayNear L mv = true) : p.near.letsDown L.destination mv = false := by
  simpa using (Bool.and_eq_true_iff.mp h).1

theorem mayNear_send (h : p.mayNear L (.send L.destination frame) = true) :
    (∃ s, Hears p.far L.source s) ∧ p.near.unoccupied L.destination L.task = true := by
  have h := (Bool.and_eq_true_iff.mp h).2
  simpa [heard_iff] using h

theorem fits_send (h : (Move.near (.send L.destination frame)).fits L = true) :
    L.Admits frame := by
  simpa [Move.fits] using h

theorem mayNear_connected {id : SendId}
    (h : p.mayNear L (.step (.send id) (.connected stream)) = true) :
    ∀ e ∈ openedStreams p.sent, e.stream ≠ stream := by
  have h := (Bool.and_eq_true_iff.mp h).2
  simpa using h

theorem mayFar_unregister (h : p.mayFar L (.unregister L.source) = true) (id : SendId) :
    p.near.callsTo L.destination id = false := by
  have h : ∀ s ∈ p.near.sends, s.destination ≠ L.destination := by simpa [mayFar] using h
  refine Bool.eq_false_iff.mpr fun hc => ?_
  obtain ⟨s, hs, hd⟩ := callsTo_iff.mp hc
  exact h s (List.mem_of_getElem? hs) hd

theorem mayFar_read (h : p.mayFar L (.step (.receiver id) a) = true)
    (ha : (stream, id) ∈ p.arrivals) :
    a = .none ∧ (∀ r, p.far.receivers[id]? = some r → r.stage.lingers = false) ∨
      ∃ bytes, a = .chunk bytes ∧ readBy id p.got ++ bytes <+: taken p.sent stream := by
  have h := List.all_eq_true.mp h _ ha
  have h : p.mayRead stream id a = true := by simpa using h
  cases a with
  | none =>
    refine .inl ⟨rfl, fun r hr => ?_⟩
    simpa [mayRead, hr] using h
  | chunk bytes => exact .inr ⟨bytes, rfl, of_decide_eq_true h⟩
  | _ => cases h

theorem mayJoin_iff : p.mayJoin L stream = true ↔
    (∃ e ∈ openedStreams p.sent, e.stream = stream ∧
      p.near.callsTo L.destination e.send = true) ∧ stream ∉ p.arrivals.map Prod.fst := by
  simp [mayJoin]

end Pair

end PeerLink
