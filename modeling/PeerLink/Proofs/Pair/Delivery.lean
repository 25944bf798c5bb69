import PeerLink.Proofs.Pair.Joining

namespace PeerLink

open Manager

namespace Manager

def heard (s : SubscriptionId) (ts : List Transition) : List (Nat × Item) :=
  (queuedTo s ts).take (callsOn s ts).length

def SendStage.success? : SendStage → Option Nat
  | .finished (.ok ()) time => some time
  | _ => none

theorem SendStage.of_success? {stage : SendStage} {time : Nat} (h : stage.success? = some time) :
    stage = .finished (.ok ()) time := by
  unfold success? at h
  split at h <;> cases h
  rfl

variable {m : Manager} {id : SendId} {c : Send}

theorem SendStage.eq_queued {stage : SendStage} {l : LinkId} (hl : stage.line? = some l)
    (hn : stage.held? = none) : stage = .queued l := by
  cases stage with
  | queued l' =>
    cases hl
    rfl
  | _ => cases hl.symm.trans hn

theorem sendStep_starting (hc : m.sends[id]? = some c) (hst : c.stage = .starting)
    (ho : m.closed = false) (hl : c.frame.length ≤ m.config.maxFrame) :
    m.sendStep id .none = some (m.setSend id (.linking .checking), []) := by
  simp [sendStep, hc, hst, ho, Nat.not_lt.mpr hl]

theorem sendStep_refused {l : LinkId} {link : Link} {w : Writer} (hc : m.sends[id]? = some c)
    (hst : c.stage = .queued l) (hlink : m.allLinks[l]? = some link) (hn : m.cancelled = false)
    (hh : link.holder = some (.send id)) (hr : link.retired = false) (hw : link.writer = some w)
    (hb : w.buffer.length < bufferBoundary) (hl : Frame.maxBody < c.frame.length) :
    m.sendStep id .none = some (m.failWrite id c l w (Frame.tooBig .invalidInput)) := by
  have he : Frame.encode? m.config.maxFrame c.frame = .error (Frame.tooBig .invalidInput) :=
    Frame.encode?_eq_error.mpr ⟨Nat.lt_of_le_of_lt (Nat.min_le_right _ _) hl, rfl⟩
  simp [sendStep, queuedStep, beginWrite, stageFrame, hc, hst, hlink, hn, hh, hr, hw, he,
    Nat.not_le.mpr hb]

end Manager

namespace Pair

variable (L : Layout) (p : Pair)

def sentTo : List Placement :=
  (placements p.sent).filter fun q => p.near.callsTo L.destination q.send

def heardFrom (s : SubscriptionId) : List Item :=
  ((heard s p.got).filter fun x => x.1 ∈ p.arrivals.map Prod.snd).map Prod.snd

/-- Nothing is left to be done at the far end: streams have come in and have been read, and neither
their receivers nor the observer's dispatch can go on. -/
structure Quiescent (s : SubscriptionId) : Prop where
  arrived : ∀ e ∈ openedStreams p.sent, p.near.callsTo L.destination e.send = true →
    ∃ id, (e.stream, id) ∈ p.arrivals
  read : ∀ st ∈ p.arrivals, readBy st.2 p.got = taken p.sent st.1
  idle : ∀ st ∈ p.arrivals, p.far.receiverStep st.2 .none = none
  drained : p.far.dispatchStep s = none

variable {L p} {m : Manager} {ts : List Transition} {s : SubscriptionId} {k : Endpoint} {id : Nat}
  {e : Opened} {c : Send} {time : Nat}

theorem calls_eq_heard (h : Callee L m ts) (hk : m.observers.get? k = some s) :
    callsOn s ts = (heard s ts).map callbackOf := by
  obtain ⟨b, hb, hn⟩ := h.served.listed h.opened k s hk
  have hq := h.queued.first s b hb hn
  rw [heard, List.map_take, hq, List.take_left]

theorem heard_of_waiting (h : Callee L m ts) (hk : Hears m k s) (hw : m.dispatchStep s = none) :
    heard s ts = queuedTo s ts := by
  obtain ⟨-, b, hb, hr⟩ := hk
  rw [heard, h.queued.drained hb hr h.running hw, List.length_map, List.take_length]

theorem Sound.arrivals_cases (h : Sound L p) : p.arrivals = [] ∨
    ∃ e id, e ∈ openedStreams p.sent ∧ p.near.callsTo L.destination e.send = true ∧
      p.arrivals = [(e.stream, id)] := by
  cases hp : p.arrivals with
  | nil => exact .inl rfl
  | cons st rest =>
    right
    obtain ⟨e, he, hes, hd⟩ := h.streams st (by simp [hp])
    refine ⟨e, st.2, he, hd, ?_⟩
    have hrest : rest = [] := by
      refine List.eq_nil_iff_forall_not_mem.mpr fun st' hst' => ?_
      obtain ⟨e', he', hes', hd'⟩ := h.streams st' (by simp [hp, hst'])
      have hsame := h.caller.single he he' hd hd'
      have hap := h.apart
      rw [hp, List.map_cons, List.nodup_cons] at hap
      exact hap.1 (List.mem_map.mpr ⟨st', hst', by rw [← hes', ← hsame, hes]⟩)
    rw [hrest, hes]

theorem framesOn_eq (h : Caller L m ts) (he : e ∈ openedStreams ts)
    (hd : m.callsTo L.destination e.send = true) {qs : List Placement}
    (hqs : ∀ q ∈ qs, q ∈ placements ts) :
    framesOn e.stream qs =
      (qs.filter fun q => m.callsTo L.destination q.send).map Placement.frame := by
  rw [framesOn]
  congr 1
  refine List.filter_congr fun q hq => ?_
  rw [Bool.eq_iff_iff, decide_eq_true_iff]
  exact h.stream_iff he hd (hqs q hq)

theorem heardFrom_eq {st : StreamId × Nat} (hp : p.arrivals = [st]) :
    p.heardFrom s = ((heard s p.got).filter (·.1 = st.2)).map Prod.snd := by
  simp [heardFrom, hp]

theorem Sound.heardFrom_prefix (h : Sound L p) (hL : L.Admits L.hello)
    (he : e ∈ openedStreams p.sent) (hd : p.near.callsTo L.destination e.send = true)
    (hp : p.arrivals = [(e.stream, id)]) (hk : p.far.observers.get? L.source = some s) :
    p.heardFrom s <+: (p.sentTo L).map fun q => .frame q.frame := by
  have hst : (e.stream, id) ∈ p.arrivals := by simp [hp]
  obtain ⟨s', ⟨hk', -⟩, hpass⟩ := h.heard e.send hd
  cases hk.symm.trans hk'
  obtain ⟨r, hr, -⟩ := (h.attached _ hst).known
  obtain ⟨hh, -, -⟩ := h.intact hL hst hr
  have hheard : p.heardFrom s <+: passedTo id s p.got := by
    rw [heardFrom_eq hp]
    exact ((List.take_prefix _ _).filter _).map _
  have hhanded : passedTo id s p.got <+: (p.got.flatMap (·.handed id)).map Prod.snd := by
    rw [(hpass _ hst).all r hr]
    exact List.prefix_append _ _
  refine hheard.trans (hhanded.trans ((hh.map Prod.snd).trans ?_))
  rw [framesOn_eq h.caller he hd fun _ hq => hq]
  simp [sentTo, Function.comp_def]

theorem Sound.heardFrom_complete {qs : List Placement} (h : Sound L p) (hL : L.Admits L.hello)
    (hquiet : p.Quiescent L s) (he : e ∈ openedStreams p.sent)
    (hd : p.near.callsTo L.destination e.send = true) (hp : p.arrivals = [(e.stream, id)])
    (hk : p.far.observers.get? L.source = some s) (hqs : ∀ q ∈ qs, q ∈ placements p.sent)
    (htaken : content L.near.address qs e.stream <+: taken p.sent e.stream) :
    ((qs.filter fun q => p.near.callsTo L.destination q.send).map fun q => Item.frame q.frame) <+:
      p.heardFrom s := by
  have hst : (e.stream, id) ∈ p.arrivals := by simp [hp]
  obtain ⟨s', hhears, hpass⟩ := h.heard e.send hd
  cases hk.symm.trans hhears.1
  have ha := h.attached _ hst
  obtain ⟨r, hr, hpeer⟩ := ha.known
  obtain ⟨-, -, hn⟩ := h.intact hL hst hr
  have hw := hquiet.idle _ hst
  have hpending : r.stage.pending = [] := by
    obtain ⟨t, rd, hs, -⟩ | ⟨source, rd, hs, -⟩ | hs := idle_of_waiting hr h.callee.running hw <;>
      rw [hs] <;> rfl
  have hall : p.heardFrom s = (p.got.flatMap (·.handed id)).map Prod.snd := by
    rw [(hpass _ hst).all r hr, hpending, List.append_nil, heardFrom_eq hp,
      heard_of_waiting h.callee hhears hquiet.drained]
    rfl
  obtain ⟨chunks, hread, hpos⟩ := h.position hst hr
  obtain ⟨more, hmore⟩ := htaken
  have hflat : chunks.flatten =
      (L.hello :: framesOn e.stream qs).flatMap Frame.encode ++ more := by
    rw [← hread, hquiet.read _ hst, ← hmore]
    rfl
  obtain ⟨-, hfit⟩ := h.caller.taken_prefix he hd hL
  have hfit : ∀ b ∈ L.hello :: framesOn e.stream qs,
      b.length ≤ Frame.limit p.far.config.maxFrame := by
    intro b hb
    rw [h.callee.config]
    refine (hfit b ?_).2
    obtain rfl | hb := List.mem_cons.mp hb
    · exact List.mem_cons_self
    · obtain ⟨q, hq, rfl⟩ := List.mem_map.mp hb
      obtain ⟨hq, hst⟩ := List.mem_filter.mp hq
      exact List.mem_cons_of_mem _ (List.mem_map_of_mem (List.mem_filter.mpr ⟨hqs q hq, hst⟩))
  rw [← h.callee.config, ← hpeer] at hpos
  have hhanded := handed_of_waiting hr h.callee.running hw hn hpos hflat hfit
    (sourceOf?_greeting _ _)
  have hframes := hhanded.map Prod.snd
  rw [← hall, framesOn_eq h.caller he hd hqs] at hframes
  simpa [Function.comp_def] using hframes

theorem Sound.succeeded {qs : List Placement} {j : SendId} (h : Sound L p) (hL : L.Admits L.hello)
    (hquiet : p.Quiescent L s) (hk : p.far.observers.get? L.source = some s)
    (hqs : qs = (p.sentTo L).take (p.heardFrom s).length) (hj : p.near.sends[j]? = some c)
    (hd : c.destination = L.destination) (hok : c.stage = .finished (.ok ()) time) :
    j ∈ qs.map Placement.send := by
  obtain ⟨before, q, after, hps, rfl, htaken⟩ := h.caller.accounted.delivered j c time hj hok
  have hq : q ∈ placements p.sent := by
    rw [hps]
    exact List.mem_append_right _ List.mem_cons_self
  have hcalls : p.near.callsTo L.destination q.send = true := callsTo_iff.mpr ⟨c, hj, hd⟩
  obtain ⟨e, he, hes, hlink⟩ := h.caller.accounted.balanced.listed q hq
  have hde : p.near.callsTo L.destination e.send = true := by
    obtain ⟨c', hj', -, hg, -⟩ := h.caller.accounted.placed.made q hq
    cases hj.symm.trans hj'
    exact (h.caller.goes_iff he).mp (hlink ▸ hd ▸ hg)
  obtain ⟨id, hid⟩ := hquiet.arrived e he hde
  obtain hnone | ⟨e', id', he', hde', hp⟩ := h.arrivals_cases
  · rw [hnone] at hid
    cases hid
  · cases h.caller.single he he' hde hde'
    rw [h.caller.address, ← hes] at htaken
    have hsplit : placements p.sent = (before ++ [q]) ++ after :=
      hps.trans (List.append_cons before q after)
    have hmem : ∀ x ∈ before ++ [q], x ∈ placements p.sent := by
      intro x hx
      rw [hsplit]
      exact List.mem_append_left _ hx
    have hpre := h.heardFrom_complete hL hquiet he hde hp hk hmem htaken
    have hlen := hpre.length_le
    rw [List.length_map] at hlen
    have hfront : ((before ++ [q]).filter fun x => p.near.callsTo L.destination x.send) <+: qs := by
      rw [hqs, List.prefix_take_iff, sentTo, hsplit]
      exact ⟨(List.prefix_append _ _).filter _, hlen⟩
    apply List.mem_map_of_mem
    apply hfront.subset
    exact List.mem_filter.mpr ⟨List.mem_append_right _ (List.mem_singleton_self q), hcalls⟩

/-- However the tasks of two managers and of other peers take their steps, and however the network
cuts the bytes: tasks at the near end send to the far one, one call after the other, and there is an
observer for the near end there. No frame is longer than the maximum of either end or than four
bytes can spell. At every point what it has been called with from there are frames of different
calls, in the order in which they were put on the stream; the frames of one task are in the order of
its calls; and once nothing is left to be done at the far end, every call that has succeeded is among
them exactly once. -/
theorem delivered_in_order {moves : List Move} (hL : L.Admits L.hello)
    (hfits : ∀ mv ∈ moves, mv.fits L = true) (h : (start L).run L moves = some p) :
    (∀ j, p.near.callsTo L.destination j = true → ∃ s, Hears p.far L.source s) ∧
      ∀ s, p.far.observers.get? L.source = some s →
        callsOn s p.got = (heard s p.got).map callbackOf ∧
        ∃ qs, qs <+: p.sentTo L ∧ p.heardFrom s = qs.map (fun q => .frame q.frame) ∧
          (qs.map Placement.send).Nodup ∧
          (∀ q ∈ qs, ∃ c, p.near.sends[q.send]? = some c ∧ c.destination = L.destination ∧
            c.frame = q.frame) ∧
          (qs.Pairwise fun q q' => L.task q.send = L.task q'.send → q.send < q'.send) ∧
          (p.Quiescent L s → ∀ j c t, p.near.sends[j]? = some c → c.destination = L.destination →
            c.stage = .finished (.ok ()) t → (qs.map Placement.send).count j = 1) := by
  have hp : Sound L p := run_sound hL hfits h
  refine ⟨fun j hj => ?_, fun s hs => ⟨calls_eq_heard hp.callee hs, ?_⟩⟩
  · obtain ⟨s, hs, -⟩ := hp.heard j hj
    exact ⟨s, hs⟩
  have hheard : p.heardFrom s <+: (p.sentTo L).map fun q => .frame q.frame := by
    obtain hnone | ⟨e, id, he, hd, hone⟩ := hp.arrivals_cases
    · simp [heardFrom, hnone]
    · exact hp.heardFrom_prefix hL he hd hone hs
  have hsub : ∀ qs, qs <+: p.sentTo L → qs.Sublist (placements p.sent) :=
    fun qs hqs => hqs.sublist.trans List.filter_sublist
  have hcalls : ∀ q ∈ p.sentTo L, p.near.callsTo L.destination q.send = true :=
    fun q hq => (List.mem_filter.mp hq).2
  have hpre : (p.sentTo L).take (p.heardFrom s).length <+: p.sentTo L := List.take_prefix _ _
  have hnodup : (((p.sentTo L).take (p.heardFrom s).length).map Placement.send).Nodup :=
    hp.caller.accounted.placed.once.sublist ((hsub _ hpre).map _)
  refine ⟨(p.sentTo L).take (p.heardFrom s).length, hpre, ?_, hnodup, fun q hq => ?_, ?_,
    fun hquiet j c t hj hd hok => ?_⟩
  · rw [List.map_take]
    exact List.prefix_iff_eq_take.mp hheard
  · obtain ⟨c, hc, hf, -⟩ := hp.caller.accounted.placed.made q ((hsub _ hpre).subset hq)
    obtain ⟨c', hc', hd⟩ := callsTo_iff.mp (hcalls q (hpre.subset hq))
    cases hc.symm.trans hc'
    exact ⟨c, hc, hd, hf⟩
  · refine (hp.caller.turns.order.sublist (hsub _ hpre)).imp_of_mem fun {q q'} hq hq' hlt => ?_
    exact hlt (hcalls q (hpre.subset hq)) (hcalls q' (hpre.subset hq'))
  · exact List.count_eq_one_of_mem hnodup (hp.succeeded hL hquiet hs rfl hj hd hok)

theorem delivered_in_order_two_tasks :
    let L : Layout :=
      { near := { address := ⟨"a", 2⟩ }, far := { address := ⟨"b", 1⟩ }, destination := ⟨"b", 1⟩
        peer := ⟨"p", 9⟩, task := fun j => j }
    let bytes : Bytes := Frame.encode L.hello ++ Frame.encode [1] ++ Frame.encode []
    let near task n : List Move := List.replicate n (.near (.step task .none))
    let far task n : List Move := List.replicate n (.far (.step task .none))
    let answer id a : Move := .near (.step (.send id) a)
    let read c : Move := .far (.step (.receiver 0) (.chunk c))
    let moves := .far (.register ⟨"a", 2⟩ 5) :: far (.registration 0) 4 ++
      [.near (.send ⟨"b", 1⟩ [1]), .near (.send ⟨"b", 1⟩ [])] ++ near (.send 0) 7 ++
      near (.send 1) 6 ++ [answer 0 (.connected 7), .join 7 3,
        answer 0 (.accepted (Frame.encode L.hello).length), answer 0 (.accepted 5),
        answer 1 .none, answer 1 (.accepted 4)] ++ far (.receiver 0) 1 ++ [read (bytes.take 10)] ++
      far (.receiver 0) 1 ++ [read (bytes.drop 10)] ++ far (.receiver 0) 8 ++ far (.dispatch 0) 2
    ∃ (p : Pair) (qs : List Placement), (start L).run L moves = some p ∧ p.Quiescent L 0 ∧
      callsOn 0 p.got = [.next [1], .next []] ∧ p.heardFrom 0 = qs.map (fun q => .frame q.frame) ∧
      (qs.map Placement.send).count 0 = 1 ∧ (qs.map Placement.send).count 1 = 1 := by
  intro L bytes near far answer read moves
  have hL : L.Admits L.hello := by decide +kernel
  have hfits : ∀ mv ∈ moves, mv.fits L = true := by decide +kernel
  obtain ⟨p, h⟩ : ∃ p, (start L).run L moves = some p :=
    Option.isSome_iff_exists.mp (by decide +kernel)
  have hnet : ((start L).run L moves).map (fun p => (openedStreams p.sent, p.arrivals,
      readBy 0 p.got, taken p.sent 7)) = some ([⟨7, 0, 0⟩], [(7, 0)], bytes, bytes) := by
    decide +kernel
  have hfar : ((start L).run L moves).map (fun p => ((p.far.receiverStep 0 .none).isNone,
      (p.far.dispatchStep 0).isNone, p.far.observers.get? L.source)) =
        some (true, true, some 0) := by decide +kernel
  have hcalls : ((start L).run L moves).map (fun p => callsOn 0 p.got) =
      some [.next [1], .next []] := by decide +kernel
  have hnear : ((start L).run L moves).map (fun p => p.near.sends.map fun c =>
      (c.destination, c.stage.success?)) =
        some [(⟨"b", 1⟩, some 0), (⟨"b", 1⟩, some 0)] := by decide +kernel
  simp only [h, Option.map_some, Option.some.injEq, Prod.mk.injEq, Option.isNone_iff_eq_none]
    at hnet hfar hcalls hnear
  obtain ⟨hopened, harrived, hread, htaken⟩ := hnet
  obtain ⟨hidle, hdrained, hs⟩ := hfar
  have hquiet : p.Quiescent L 0 := by
    refine ⟨fun e he _ => ⟨0, ?_⟩, fun st hst => ?_, fun st hst => ?_, hdrained⟩
    · rw [hopened] at he
      cases List.mem_singleton.mp he
      rw [harrived]
      exact List.mem_singleton_self _
    · rw [harrived] at hst
      cases List.mem_singleton.mp hst
      exact hread.trans htaken.symm
    · rw [harrived] at hst
      cases List.mem_singleton.mp hst
      exact hidle
  obtain ⟨c₀, rest, hsends, hc₀, hrest⟩ := List.map_eq_cons_iff.mp hnear
  obtain ⟨c₁, rest, rfl, hc₁, -⟩ := List.map_eq_cons_iff.mp hrest
  have hj₀ : p.near.sends[0]? = some c₀ := by rw [hsends]; rfl
  have hj₁ : p.near.sends[1]? = some c₁ := by rw [hsends]; rfl
  obtain ⟨hd₀, hok₀⟩ := Prod.mk.inj hc₀
  obtain ⟨hd₁, hok₁⟩ := Prod.mk.inj hc₁
  obtain ⟨qs, -, hheard, -, -, -, honce⟩ := ((delivered_in_order hL hfits h).2 0 hs).2
  exact ⟨p, qs, h, hquiet, hcalls, hheard, honce hquiet 0 c₀ 0 hj₀ hd₀ (SendStage.of_success? hok₀),
    honce hquiet 1 c₁ 0 hj₁ hd₁ (SendStage.of_success? hok₁)⟩

/-- The pair after a call and its first step. -/
def begun (d : Endpoint) (frame : Bytes) : Pair :=
  let q := p.called d frame
  q.stepped p.near.sends.length (q.near.setSend p.near.sends.length (.linking .checking), [])

/-- The pair after a call whose frame has been refused for its length. -/
def refused (id : SendId) (c : Send) (l : LinkId) (w : Writer) : Pair :=
  p.stepped id (p.near.failWrite id c l w (Frame.tooBig .invalidInput))

variable {p' : Pair} {d : Endpoint} {frame : Bytes} {moves : List Move}

/-- A call starts if its frame is within the maximum, and keeps to its frame from then on. -/
theorem run_begun (hcall : p.mayNear L (.send d frame) = true) (ho : p.near.closed = false)
    (hl : frame.length ≤ p.near.config.maxFrame)
    (hmay : (p.called d frame).mayNear L (.step (.send p.near.sends.length) .none) = true)
    (ho' : (p.begun d frame).near.closed = false) (hr : (p.begun d frame).run L moves = some p') :
    p.run L (.near (.send d frame) :: .near (.step (.send p.near.sends.length) .none) :: moves) =
        some p' ∧
      ∃ stage, p'.near.sends[p.near.sends.length]? =
        some { destination := d, frame, stage } := by
  have hnew : (p.called d frame).near.sends[p.near.sends.length]? =
      some { destination := d, frame } := List.getElem?_concat_length
  have hstart := move_step hmay (sendStep_starting hnew rfl ho hl) ho'
  have hrest := (run_cons hstart).trans hr
  exact ⟨(run_cons (move_send hcall ho)).trans hrest, run_call hnew hrest⟩

/-- A call that comes to an empty writer with a frame whose length four bytes cannot spell. -/
theorem run_refused {l : LinkId} {link : Link} {stream : StreamId}
    (hc : p.near.sends[id]? = some c) (hst : c.stage = .queued l)
    (hlink : p.near.allLinks[l]? = some link) (hn : p.near.cancelled = false)
    (hh : link.holder = some (.send id)) (hr : link.retired = false)
    (hw : link.writer = some ⟨stream, []⟩) (hl : Frame.maxBody < c.frame.length)
    (hmay : p.mayNear L (.step (.send id) .none) = true)
    (ho : (p.refused id c l ⟨stream, []⟩).near.closed = false) :
    p.run L (.near (.step (.send id) .none) :: moves) =
      (p.refused id c l ⟨stream, []⟩).run L moves :=
  run_cons (move_step hmay
    (sendStep_refused hc hst hlink hn hh hr hw (by simp [bufferBoundary]) hl) ho)

/-- One task sends three frames, none of them above the maximum of either end. Four bytes cannot
spell how long the second is: the stream is let go of for it, and what comes on the next stream is
heard first. -/
theorem overtaken_by_oversized :
    let site (e : Endpoint) : Site := { address := e, config := { maxFrame := 8589934592 } }
    let L : Layout :=
      { near := site ⟨"a", 2⟩, far := site ⟨"b", 1⟩, destination := ⟨"b", 1⟩, peer := ⟨"p", 9⟩
        task := fun _ => 0 }
    let big : Bytes := List.replicate 4294967296 0
    let near task n : List Move := List.replicate n (.near (.step task .none))
    let far task n : List Move := List.replicate n (.far (.step task .none))
    let deliver (id : SendId) (stream : StreamId) (frame : Bytes) : List Move :=
      .near (.send ⟨"b", 1⟩ frame) :: near (.send id) 7 ++
        [.near (.step (.send id) (.connected stream)),
          .near (.step (.send id) (.accepted (Frame.encode L.hello).length)),
          .near (.step (.send id) (.accepted (Frame.encode frame).length))]
    let arrive (stream : StreamId) (id : Nat) (frame : Bytes) : List Move :=
      .join stream stream :: far (.receiver id) 1 ++
        .far (.step (.receiver id) (.chunk (Frame.encode L.hello ++ Frame.encode frame))) ::
        far (.receiver id) 5 ++ far (.dispatch 0) 1
    let moves := .far (.register ⟨"a", 2⟩ 5) :: far (.registration 0) 4 ++ deliver 0 7 [1] ++
      .near (.send ⟨"b", 1⟩ big) :: near (.send 1) 7 ++ deliver 2 8 [3] ++ arrive 8 0 [3] ++
      arrive 7 1 [1]
    (∀ d frame, .near (.send d frame) ∈ moves → frame.length ≤ 8589934592) ∧
      L.hello.length ≤ 8589934592 ∧
      ∃ p, (start L).run L moves = some p ∧
        p.near.sends.map (·.stage.success?) = [some 0, none, some 0] ∧
        callsOn 0 p.got = [.next [3], .next [1]] := by
  intro site L big near far deliver arrive moves
  let step : Move := .near (.step (.send 1) .none)
  let moves₁ := .far (.register ⟨"a", 2⟩ 5) :: far (.registration 0) 4 ++ deliver 0 7 [1]
  let moves₂ := near (.send 1) 5
  let moves₃ := deliver 2 8 [3] ++ arrive 8 0 [3] ++ arrive 7 1 [1]
  let call : Send := { destination := ⟨"b", 1⟩, frame := big, stage := .queued 0 }
  have h₁ : ((start L).run L moves₁).map (fun p => (p.near.sends.length, p.near.closed,
      p.near.config.maxFrame, p.mayNear L (.send ⟨"b", 1⟩ big),
      (p.called ⟨"b", 1⟩ big).mayNear L (.step (.send p.near.sends.length) .none),
      (p.begun ⟨"b", 1⟩ big).near.closed)) = some (1, false, 8589934592, true, true, false) := by
    decide +kernel
  have h₂ : (((start L).run L moves₁).bind fun p =>
      (p.begun ⟨"b", 1⟩ big).run L moves₂).map
      (fun p => ((p.near.sends[1]?).map fun c => (c.stage.line?, c.stage.held?),
        p.near.cancelled, p.near.allLinks, p.mayNear L (.step (.send 1) .none),
        (p.refused 1 call 0 ⟨7, []⟩).near.closed)) =
      some (some (some 0, none), false, [{ destination := ⟨"b", 1⟩, writer := some ⟨7, []⟩
                                           holder := some (.send 1), connected := true }],
        true, false) := by
    decide +kernel
  have h₃ : ((((start L).run L moves₁).bind fun p =>
      (p.begun ⟨"b", 1⟩ big).run L moves₂).bind fun p =>
      (p.refused 1 call 0 ⟨7, []⟩).run L moves₃).map
      (fun p => (p.near.sends.map (·.stage.success?), callsOn 0 p.got)) =
      some ([some 0, none, some 0], [.next [3], .next [1]]) := by
    decide +kernel
  have hhello : L.hello.length ≤ 8589934592 := by decide +kernel
  have hbig : big.length = 4294967296 := List.length_replicate
  -- What is left to show must not be computed: the steps that look at how long the frame is.
  clear_value big
  obtain ⟨p₃, hp₃, h₃⟩ := Option.map_eq_some_iff.mp h₃
  obtain ⟨p₂, hp₂, hp₃⟩ := Option.bind_eq_some_iff.mp hp₃
  obtain ⟨p₁, hp₁, hp₂⟩ := Option.bind_eq_some_iff.mp hp₂
  obtain ⟨_, hp, h₁⟩ := Option.map_eq_some_iff.mp h₁
  cases hp₁.symm.trans hp
  obtain ⟨_, hp, h₂⟩ := Option.map_eq_some_iff.mp h₂
  obtain ⟨_, hp', hp⟩ := Option.bind_eq_some_iff.mp hp
  cases hp₁.symm.trans hp'
  cases hp₂.symm.trans hp
  simp only [Prod.mk.injEq] at h₁ h₂ h₃
  obtain ⟨hlen, hopen, hmax, hcall, hmay, hstill⟩ := h₁
  obtain ⟨hqueued, hrunning, hlinks, hmay', hstill'⟩ := h₂
  have hfits : big.length ≤ p₁.near.config.maxFrame := by
    rw [hbig]
    exact Nat.le_of_lt (Nat.lt_of_lt_of_eq (by decide) hmax.symm)
  have hlong : Frame.maxBody < big.length := by
    rw [hbig]
    decide
  obtain ⟨-, stage, hstage⟩ := run_begun hcall hopen hfits hmay hstill hp₂
  rw [hlen] at hstage
  rw [hstage, Option.map_some, Option.some.injEq, Prod.mk.injEq] at hqueued
  cases SendStage.eq_queued hqueued.1 hqueued.2
  have hrefused : p₂.run L (step :: moves₃) = some p₃ :=
    (run_refused hstage rfl (by rw [hlinks]; rfl) hrunning rfl rfl rfl hlong hmay' hstill').trans
      hp₃
  have hrest : (p₁.begun ⟨"b", 1⟩ big).run L (moves₂ ++ step :: moves₃) = some p₃ := by
    rw [run_append, hp₂, Option.bind_some, hrefused]
  obtain ⟨hrun, -⟩ := run_begun hcall hopen hfits hmay hstill hrest
  rw [hlen] at hrun
  refine ⟨fun d frame h => ?_, hhello, p₃, ?_, h₃⟩
  · have h : frame = [1] ∨ frame = big ∨ frame = [3] := by
      simp only [moves, near, far, deliver, arrive, List.mem_append, List.mem_cons,
        List.mem_replicate] at h
      simp_all
      obtain (⟨-, h⟩ | ⟨-, h⟩) | ⟨-, h⟩ := h <;> simp [h]
    obtain rfl | rfl | rfl := h
    · decide
    · rw [hbig]
      decide
    · decide
  · have hmoves : moves = moves₁ ++ .near (.send ⟨"b", 1⟩ big) :: step ::
        (moves₂ ++ step :: moves₃) := by
      simp [moves, moves₁, moves₂, moves₃, near, step, List.replicate]
    rw [hmoves, run_append, hp₁, Option.bind_some, hrun]

end Pair

end PeerLink
