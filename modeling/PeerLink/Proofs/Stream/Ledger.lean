import PeerLink.Proofs.Stream.Owners

namespace PeerLink.Manager

/-- A stream that the network gave to a call that connects. -/
structure Opened where
  stream : StreamId
  link : LinkId
  send : SendId
  deriving DecidableEq

/-- A frame that a call has put behind the bytes that wait for a stream. -/
structure Placement where
  link : LinkId
  stream : StreamId
  send : SendId
  frame : Bytes
  deriving DecidableEq

def SendStage.flushing? : SendStage → Option LinkId
  | .flushing l => some l
  | _ => none

def placed? (before after : Manager) (id : SendId) : Option Placement := do
  let s ← before.sends[id]?
  let s' ← after.sends[id]?
  let l ← s'.stage.flushing?
  let w ← (after.allLinks[l]?).bind Link.writer
  if s.stage.flushing? = none then some ⟨l, w.stream, id, s.frame⟩ else none

def Transition.placement? (t : Transition) : Option Placement :=
  match t.move with
  | .step (.send id) _ => placed? t.before t.after id
  | _ => none

def Transition.opened? (t : Transition) : Option Opened :=
  match t.move with
  | .step (.send id) (.connected stream) =>
    match (t.before.sends[id]?).map Send.stage with
    | some (.connecting l _) => some ⟨stream, l, id⟩
    | _ => none
  | _ => none

def placements (ts : List Transition) : List Placement := ts.filterMap Transition.placement?

/-- The streams that were opened. -/
def openedStreams (ts : List Transition) : List Opened := ts.filterMap Transition.opened?

def written (stream : StreamId) (hs : List Happening) : Bytes :=
  hs.flatMap fun
    | .wrote s bytes => if s = stream then bytes else []
    | _ => []

def greeting (address : Endpoint) : Bytes := Frame.encode (Hello.format.write (.of address))

def framesOn (stream : StreamId) (ps : List Placement) : List Bytes :=
  (ps.filter (·.stream = stream)).map Placement.frame

def content (address : Endpoint) (ps : List Placement) (stream : StreamId) : Bytes :=
  greeting address ++ (framesOn stream ps).flatMap Frame.encode

variable {m m' m₁ : Manager} {mv : Move} {hs hs' : List Happening} {l : LinkId} {k : Link}
  {id : SendId} {s : Send} {a : Answer} {o : Owner} {x y : Holding} {stream : StreamId}
  {ps qs : List Placement} {address : Endpoint}

@[simp] theorem written_nil : written stream [] = [] := rfl

@[simp] theorem written_append :
    written stream (hs ++ hs') = written stream hs ++ written stream hs' :=
  List.flatMap_append

@[simp] theorem written_released (streams : List StreamId) :
    written stream (streams.map .released) = [] := by
  induction streams with
  | nil => rfl
  | cons _ _ ih => exact ih

theorem written_wrote {bytes : Bytes} {s : StreamId} :
    written stream [.wrote s bytes] = if stream = s then bytes else [] := by
  simp [written, eq_comm]

theorem written_of_silent (h : ∀ s b, .wrote s b ∉ hs) : written stream hs = [] := by
  refine List.flatMap_eq_nil_iff.mpr fun x hx => ?_
  cases x with
  | wrote s b => exact absurd hx (h s b)
  | _ => rfl

theorem framesOn_append :
    framesOn stream (ps ++ qs) = framesOn stream ps ++ framesOn stream qs := by
  simp [framesOn]

theorem content_append :
    content address (ps ++ qs) stream =
      content address ps stream ++ (framesOn stream qs).flatMap Frame.encode := by
  simp [content, framesOn_append]

theorem framesOn_of_forall (h : ∀ p ∈ ps, p.stream = stream) :
    framesOn stream ps = ps.map Placement.frame := by
  rw [framesOn, List.filter_eq_self.mpr (by simpa using h)]

theorem framesOn_of_forall_ne (h : ∀ p ∈ ps, p.stream ≠ stream) : framesOn stream ps = [] := by
  rw [framesOn, List.filter_eq_nil_iff.mpr (by simpa using h), List.map_nil]

theorem placed?_setSend {stage : SendStage} (h : stage.flushing? = none) :
    placed? m (m₁.setSend id stage) id = none := by
  refine Option.eq_none_iff_forall_ne_some.mpr fun p hp => ?_
  obtain ⟨_, _, hp⟩ := Option.bind_eq_some_iff.mp hp
  obtain ⟨s', hs', hp⟩ := Option.bind_eq_some_iff.mp hp
  obtain ⟨l, hl, _⟩ := Option.bind_eq_some_iff.mp hp
  simp only [setSend, List.getElem?_modify_eq] at hs'
  obtain ⟨s₀, -, rfl⟩ := Option.map_eq_some_iff.mp hs'
  cases h.symm.trans hl

theorem placed?_eq {s₁ : Send} {w : Writer} (hs' : m.sends[id]? = some s)
    (h₁ : m₁.sends[id]? = some s₁) (hn : s.stage.flushing? = none)
    (hl : s₁.stage.flushing? = some l) (hk : m₁.allLinks[l]? = some k)
    (hw : k.writer = some w) : placed? m m₁ id = some ⟨l, w.stream, id, s.frame⟩ := by
  simp [placed?, hs', h₁, hl, hk, hw, hn]

/-- A call that stays at its stage puts nothing on a stream. -/
theorem placed?_of_same (h : m₁.sends[id]? = m.sends[id]?) : placed? m m₁ id = none := by
  refine Option.eq_none_iff_forall_ne_some.mpr fun p hp => ?_
  obtain ⟨s, hs, hp⟩ := Option.bind_eq_some_iff.mp hp
  obtain ⟨s₁, h₁, hp⟩ := Option.bind_eq_some_iff.mp hp
  obtain ⟨l, hl, hp⟩ := Option.bind_eq_some_iff.mp hp
  obtain ⟨w, hw, hp⟩ := Option.bind_eq_some_iff.mp hp
  have he : s₁ = s := Option.some.inj (h₁.symm.trans (h.trans hs))
  rw [if_neg (by rw [← he, hl]; nofun)] at hp
  cases hp

end PeerLink.Manager
