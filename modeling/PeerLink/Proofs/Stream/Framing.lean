import PeerLink.Proofs.Stream.Balance
import PeerLink.Proofs.Stream.Order

namespace PeerLink.Manager

def Delivered (address : Endpoint) (taken : StreamId → Bytes) (ps : List Placement)
    (id : SendId) : Prop :=
  ∃ before p after, ps = before ++ p :: after ∧ p.send = id ∧
    content address (before ++ [p]) p.stream <+: taken p.stream

structure Spurned (m : Manager) (ps : List Placement) (id : SendId) : Prop where
  barred : ∃ s, m.sends[id]? = some s ∧ s.stage.Barred
  unplaced : ∀ p ∈ ps, p.send ≠ id

def Transition.FailsConnect (t : Transition) (id : SendId) : Prop :=
  ∃ s l error, t.after.sends[id]? = some s ∧ s.stage = .failing l error

/-- What has been written in some moves. -/
def taken (ts : List Transition) (stream : StreamId) : Bytes :=
  written stream (ts.flatMap (·.happenings))

structure Accounted (m : Manager) (ts : List Transition) : Prop where
  sound : Sound m
  balanced : Balanced m m.address (taken ts) (placements ts) (openedStreams ts)
  placed : Placed m (placements ts)
  ordered : InOrder m (placements ts) (grants · ts)
  dialled : ∀ e ∈ openedStreams ts, ∃ s, m.sends[e.send]? = some s ∧ m.Goes e.link s.destination
  delivered : ∀ (id : SendId) s t, m.sends[id]? = some s → s.stage = .finished (.ok ()) t →
    Delivered m.address (taken ts) (placements ts) id
  spurned : ∀ t ∈ ts, ∀ id, t.FailsConnect id → Spurned m (placements ts) id

variable {m m' m₁ : Manager} {mv : Move} {hs : List Happening} {l : LinkId} {id : SendId}
  {s s₁ : Send} {a : Answer} {ps qs : List Placement} {ts : List Transition} {t : Transition}
  {address : Endpoint}

theorem placements_concat : placements (ts ++ [t]) = placements ts ++ t.placed := by
  simp only [placements, Transition.placed]
  rw [List.filterMap_append]
  cases h : t.placement? <;> simp [h]

theorem openedStreams_concat : openedStreams (ts ++ [t]) = openedStreams ts ++ t.opened := by
  simp only [openedStreams, Transition.opened]
  rw [List.filterMap_append]
  cases h : t.opened? <;> simp [h]

theorem grants_concat : grants l (ts ++ [t]) = grants l ts ++ (t.granted? l).toList := by
  simp only [grants]
  rw [List.filterMap_append]
  cases h : t.granted? l <;> simp [h]

theorem taken_concat : taken (ts ++ [t]) = fun s => taken ts s ++ written s t.happenings := by
  funext s
  simp [taken]

theorem Delivered.mono {taken taken' : StreamId → Bytes} (h : Delivered address taken ps id)
    (ht : ∀ s, taken s <+: taken' s) : Delivered address taken' (ps ++ qs) id := by
  obtain ⟨before, p, after, rfl, hp, hc⟩ := h
  refine ⟨before, p, after ++ qs, ?_, hp, hc.trans (ht _)⟩
  rw [List.append_assoc, List.cons_append]

theorem delivered_of_content {taken : StreamId → Bytes} {p : Placement} (hp : p ∈ ps)
    (hc : content address ps p.stream <+: taken p.stream) : Delivered address taken ps p.send := by
  obtain ⟨before, after, rfl⟩ := List.append_of_mem hp
  refine ⟨before, p, after, rfl, rfl, List.IsPrefix.trans ?_ hc⟩
  have happ : before ++ p :: after = (before ++ [p]) ++ after := List.append_cons _ _ _
  have hcont : content address ((before ++ [p]) ++ after) p.stream =
      content address (before ++ [p]) p.stream ++ (framesOn p.stream after).flatMap Frame.encode :=
    content_append
  rw [happ, hcont]
  exact List.prefix_append _ _

theorem SendStep.of_ok {time : Nat} (h : SendStep m id s a m₁ hs) (hs' : m.sends[id]? = some s)
    (h₁ : m₁.sends[id]? = some s₁) (hok : s₁.stage = .finished (.ok ()) time) :
    ∃ l k w, s.stage = .flushing l ∧ m.allLinks[l]? = some k ∧ k.writer = some w ∧
      hs = [.wrote w.stream w.buffer] := by
  cases h with
  | writeAll he _ hl hw => exact ⟨_, _, _, he, hl, hw, rfl⟩
  | writePart he =>
    cases hs'.symm.trans h₁
    obtain he | he := he <;> cases he.symm.trans hok
  | find _ hk =>
    rw [lookupStep_scope hk] at h₁
    cases (setSend_get hs' _).symm.trans h₁
    cases hok
  | giveUp =>
    rw [evict_scope] at h₁
    cases (setSend_get hs' _).symm.trans h₁
    cases hok
  | _ =>
    cases (setSend_get hs' _).symm.trans h₁
    cases hok

theorem Effect.opened (he : Effect m mv m₁ hs) (hm : Sound m) {e : Opened}
    (h : e ∈ (Transition.mk m mv m₁ hs).opened) :
    ∃ s, m₁.sends[e.send]? = some s ∧ m₁.Goes e.link s.destination := by
  obtain ⟨s, time, -, hs', hst⟩ := mem_opened h
  obtain ⟨stage, h₁, -⟩ := he.keeps_call hs'
  exact ⟨_, h₁, (hm.directed.sends _ s _ hs' (by rw [hst]; rfl)).effect he⟩

theorem Spurned.effect (h : Spurned m ps id) (he : Effect m mv m₁ hs) :
    Spurned m₁ (ps ++ (Transition.mk m mv m₁ hs).placed) id := by
  obtain ⟨s, hs', hb⟩ := h.barred
  obtain ⟨stage, h₁, hst⟩ := he.keeps_call hs'
  have hb₁ : SendStage.Barred stage := by
    obtain ⟨rfl, -⟩ | ⟨rfl, -⟩ | ⟨a, -, hst⟩ := hst
    · exact hb
    · trivial
    · obtain ⟨-, -, r, time, hr⟩ := hst.of_barred hs' hb h₁
      cases hr
      trivial
  refine ⟨⟨_, h₁, hb₁⟩, fun p hp => ?_⟩
  obtain hp | hp := List.mem_append.mp hp
  · exact h.unplaced p hp
  · rintro rfl
    obtain ⟨a, -, hnow⟩ := mem_placed.mp hp
    obtain ⟨-, -, s₂, -, h₂, -, hl, -⟩ := placed?_eq_some hnow
    cases h₁.symm.trans h₂
    cases hl
    cases hb₁

theorem Effect.delivered {time : Nat} {es : List Opened} {taken : StreamId → Bytes}
    (he : Effect m mv m₁ hs) (hp : Placed m ps) (hb : Balanced m address taken ps es)
    (h₁ : m₁.sends[id]? = some s₁) (hok : s₁.stage = .finished (.ok ()) time) :
    m.sends[id]? = some s₁ ∨
      Delivered address (fun s => taken s ++ written s hs) ps id := by
  obtain ⟨h₁, -⟩ | hst | hst | ⟨a, s, -, hs', hst⟩ := he.sends h₁
  · exact .inl h₁
  · cases hst.symm.trans hok
  · cases hst.symm.trans hok
  · right
    obtain ⟨l, k, w, hl, hk, hw, rfl⟩ := hst.of_ok hs' h₁ hok
    obtain ⟨p, hp, rfl, rfl, k', w', hk', hw', hst'⟩ := hp.current id s l hs' hl
    cases hk.symm.trans hk'
    cases hw.symm.trans hw'
    have hbook := hb.book (.link p.link) ⟨w, some p.link⟩ (holdingOf_link.mpr ⟨k, w, hk, hw, rfl⟩)
    apply delivered_of_content hp
    rw [← hst', written_wrote, if_pos rfl]
    exact ⟨[], by rw [List.append_nil]; exact hbook.symm⟩

theorem Accounted.new (address : Endpoint) (config : Config) (clock : Nat) :
    Accounted (new address config clock) [] := by
  refine ⟨.new address config clock, .new clock config, .new address config clock,
    .new address config clock, fun e he => absurd he List.not_mem_nil, fun id s t hs => ?_,
    fun t ht => absurd ht List.not_mem_nil⟩
  simp [Manager.new] at hs

theorem Accounted.dialled_move (h : Accounted m ts) (hm : m.move mv = some (m', hs)) {e : Opened}
    (hmem : e ∈ openedStreams (ts ++ [⟨m, mv, m', hs⟩])) :
    ∃ s, m'.sends[e.send]? = some s ∧ m'.Goes e.link s.destination := by
  obtain ⟨m₁, hs₁, he, hr⟩ := move_effect hm
  have hgoes : ∀ l d, m₁.Goes l d → m'.Goes l d := by
    obtain hr | ⟨rfl, -⟩ := hr
    · exact fun l d hg => Goes.reap (o := (m₁, hs₁)) hg hr
    · exact fun l d hg => hg
  rw [sends_of_reap hr]
  rw [openedStreams_concat] at hmem
  obtain hmem | hmem := List.mem_append.mp hmem
  · obtain ⟨s, hs', hg⟩ := h.dialled e hmem
    obtain ⟨stage, h₁, -⟩ := he.keeps_call hs'
    exact ⟨{ s with stage }, h₁, hgoes _ _ (hg.effect he)⟩
  · obtain ⟨s, h₁, hg⟩ := Effect.opened he h.sound hmem
    exact ⟨s, h₁, hgoes _ _ hg⟩

theorem Accounted.delivered_move (h : Accounted m ts) (hm : m.move mv = some (m', hs)) {time : Nat}
    (hs' : m'.sends[id]? = some s) (hok : s.stage = .finished (.ok ()) time) :
    Delivered m.address (taken (ts ++ [⟨m, mv, m', hs⟩]))
      (placements ts ++ (Transition.mk m mv m' hs).placed) id := by
  obtain ⟨m₁, hs₁, he, hr⟩ := move_effect hm
  have htaken : taken (ts ++ [⟨m, mv, m', hs⟩]) = fun s => taken ts s ++ written s hs₁ := by
    rw [taken_concat]
    funext s
    refine congrArg _ ?_
    obtain hr | ⟨-, rfl⟩ := hr
    · exact written_reap hr s
    · rfl
  rw [sends_of_reap hr] at hs'
  rw [htaken]
  obtain h₁ | hd := he.delivered h.placed h.balanced hs' hok
  · exact (h.delivered id s time h₁ hok).mono fun s => List.prefix_append _ _
  · exact hd.mono fun s => List.prefix_rfl

theorem Accounted.spurned_move (h : Accounted m ts) (hm : m.move mv = some (m', hs))
    (hp : Placed m' (placements (ts ++ [⟨m, mv, m', hs⟩])))
    (ht : t ∈ ts ++ [⟨m, mv, m', hs⟩]) (hf : t.FailsConnect id) :
    Spurned m' (placements (ts ++ [⟨m, mv, m', hs⟩])) id := by
  obtain ht | ht := List.mem_append.mp ht
  · obtain ⟨m₁, hs₁, he, hr⟩ := move_effect hm
    have hplaced : (Transition.mk m mv m' hs).placed = (Transition.mk m mv m₁ hs₁).placed := by
      obtain hr | ⟨rfl, rfl⟩ := hr
      · exact placed_reap hr
      · rfl
    have hsp := (h.spurned t ht id hf).effect he
    rw [placements_concat, hplaced]
    exact ⟨sends_of_reap hr ▸ hsp.barred, hsp.unplaced⟩
  · cases List.mem_singleton.mp ht
    obtain ⟨s, l, error, hs', hst⟩ := hf
    refine ⟨⟨s, hs', by rw [hst]; trivial⟩, ?_⟩
    rintro p hmem rfl
    obtain ⟨s', hs'', -, -, hsent⟩ := hp.made p hmem
    cases hs'.symm.trans hs''
    rw [hst] at hsent
    cases hsent

theorem Accounted.move (h : Accounted m ts) (hm : m.move mv = some (m', hs))
    (hn : ((openedStreams (ts ++ [⟨m, mv, m', hs⟩])).map Opened.stream).Nodup) :
    Accounted m' (ts ++ [⟨m, mv, m', hs⟩]) := by
  have haddr : m'.address = m.address := (move_later hm).address
  have hp : Placed m' (placements (ts ++ [⟨m, mv, m', hs⟩])) := by
    rw [placements_concat]
    exact h.placed.move h.sound hm
  refine ⟨h.sound.move hm, ?_, hp, ?_, fun e => h.dialled_move hm, fun id s t hs' hok => ?_,
    fun t ht id => h.spurned_move hm hp ht⟩
  · rw [openedStreams_concat] at hn
    rw [haddr, placements_concat, openedStreams_concat, taken_concat]
    exact h.balanced.move (move_posting hm h.sound.directed) hn
  · have ho := h.ordered.move h.sound hm
    simpa only [placements_concat, grants_concat] using ho
  · rw [haddr, placements_concat]
    exact h.delivered_move hm hs' hok

theorem run_accounted {config : Config} {clock : Nat} {moves : List Move}
    (h : (new address config clock).run moves = some (m, hs))
    (hn : ((openedStreams ((new address config clock).transitions moves)).map
      Opened.stream).Nodup) :
    Accounted m ((new address config clock).transitions moves) := by
  have hall := run_induction
    (P := fun m ts => ((openedStreams ts).map Opened.stream).Nodup → Accounted m ts)
    (fun _ => .new address config clock) (fun m ts mv m' hs ih hm hn => ?_) h
  · exact hall hn
  · apply (ih ?_).move hm hn
    rw [openedStreams_concat, List.map_append] at hn
    exact (List.nodup_append.mp hn).1

theorem Accounted.link_of_stream (h : Accounted m ts)
    (hn : ((openedStreams ts).map Opened.stream).Nodup) {e : Opened} (he : e ∈ openedStreams ts)
    {p : Placement} (hp : p ∈ placements ts) (hs : p.stream = e.stream) : p.link = e.link := by
  obtain ⟨e', he', hs', hl⟩ := h.balanced.listed p hp
  have heq : e' = e := List.inj_on_of_nodup_map hn he' he (hs'.trans hs)
  rw [← hl, heq]

theorem Accounted.in_order (h : Accounted m ts)
    (hn : ((openedStreams ts).map Opened.stream).Nodup) {e : Opened} (he : e ∈ openedStreams ts) :
    (((placements ts).filter (·.stream = e.stream)).map Placement.send).Sublist
      (grants e.link ts) := by
  have hf : (placements ts).filter (·.stream = e.stream) =
      ((placements ts).filter (·.link = e.link)).filter (·.stream = e.stream) := by
    rw [List.filter_filter]
    apply List.filter_congr
    intro p hp
    simpa using fun hs => h.link_of_stream hn he hp hs
  apply List.Sublist.trans _ (h.ordered.sub e.link)
  rw [hf]
  exact List.filter_sublist.map _

/-- However the steps of a manager's tasks and calls follow one another, and whatever the network
and the callers do: a stream has at every moment taken a beginning of the greeting and the frames
that were put on it. These are frames of different calls, to the destination that the stream was
opened for and in the order in which the calls got the lock of its link; no call has put its frame
on two streams. A call that has succeeded has had its whole frame taken, and one whose frame was too
large or whose connect has failed has put none on any stream. Streams that are opened have different
numbers. -/
theorem streams_framed {config : Config} {clock : Nat} {moves : List Move}
    (h : (new address config clock).run moves = some (m, hs))
    (hn : ((openedStreams ((new address config clock).transitions moves)).map
      Opened.stream).Nodup) :
    let ts := (new address config clock).transitions moves
    let ps := placements ts
    (∀ stream, written stream hs <+: content address ps stream) ∧
      (ps.map Placement.send).Nodup ∧
      (∀ p ∈ ps, ∃ s e o, m.sends[p.send]? = some s ∧ s.frame = p.frame ∧
        e ∈ openedStreams ts ∧ e.stream = p.stream ∧
        m.sends[e.send]? = some o ∧ o.destination = s.destination) ∧
      (∀ e ∈ openedStreams ts,
        ((ps.filter (·.stream = e.stream)).map Placement.send).Sublist (grants e.link ts)) ∧
      (∀ (id : SendId) s t, m.sends[id]? = some s → s.stage = .finished (.ok ()) t →
        Delivered address (written · hs) ps id) ∧
      (∀ (id : SendId) s length max t, m.sends[id]? = some s →
        s.stage = .finished (.error (.frameTooLarge length max)) t → ∀ p ∈ ps, p.send ≠ id) ∧
      ∀ t ∈ ts, ∀ id, t.FailsConnect id → ∀ p ∈ ps, p.send ≠ id := by
  intro ts ps
  have hacc : Accounted m ts := run_accounted h hn
  have haddr : m.address = address := (run_later h).address
  have htaken : taken ts = (written · hs) := by
    funext s
    rw [taken, run_happenings h]
  refine ⟨fun stream => ?_, hacc.placed.once, fun p hp => ?_, fun e he => hacc.in_order hn he,
    fun id s t hs' hok => ?_, fun id s length max t hs' hst => ?_,
    fun t ht id hf => (hacc.spurned t ht id hf).unplaced⟩
  · have hpart := hacc.balanced.part stream
    rwa [htaken, haddr] at hpart
  · obtain ⟨s, hs', hf, hg, -⟩ := hacc.placed.made p hp
    obtain ⟨e, he, hst, hl⟩ := hacc.balanced.listed p hp
    obtain ⟨o, ho, hgo⟩ := hacc.dialled e he
    exact ⟨s, e, o, hs', hf, he, hst, ho, (hl ▸ hgo).unique hg⟩
  · have hd := hacc.delivered id s t hs' hok
    rwa [htaken, haddr] at hd
  · rintro p hp rfl
    obtain ⟨s', hs'', -, -, hsent⟩ := hacc.placed.made p hp
    cases hs'.symm.trans hs''
    rw [hst] at hsent
    exact hsent length max rfl

/-- The first of two calls is given up in the middle of its frame; the second goes on after it. -/
theorem streams_framed_abandoned :
    let a : Endpoint := ⟨"a", 2⟩
    let work id n := List.replicate n (Move.step (.send id) .none)
    let moves := [.send ⟨"b", 1⟩ [1], .send ⟨"b", 1⟩ [2]] ++ work 0 7 ++ work 1 6 ++
      [.step (.send 0) (.connected 7), .step (.send 0) (.accepted (greeting a).length),
        .step (.send 0) (.accepted 2), .abandon 0, .step (.send 1) .none,
        .step (.send 1) (.accepted 4)]
    ∃ m hs, (new a {} 0).run moves = some (m, hs) ∧
      written 7 hs = greeting a ++ [0, 0, 0, 1, 1, 0] ∧
      written 7 hs <+: greeting a ++ (Frame.encode [1] ++ Frame.encode [2]) := by
  intro a work moves
  obtain ⟨⟨m, hs⟩, h⟩ : ∃ o, (new a {} 0).run moves = some o :=
    Option.isSome_iff_exists.mp (by decide +kernel)
  have hw : ((new a {} 0).run moves).map (fun o => written 7 o.2) =
      some (greeting a ++ [0, 0, 0, 1, 1, 0]) := by decide +kernel
  rw [h] at hw
  have hps : placements ((new a {} 0).transitions moves) = [⟨0, 7, 0, [1]⟩, ⟨0, 7, 1, [2]⟩] := by
    decide +kernel
  have hall := (streams_framed h (by decide +kernel)).1 7
  rw [hps] at hall
  exact ⟨m, hs, h, Option.some.inj hw, hall⟩

end PeerLink.Manager
