import PeerLink.Proofs.Link.Collection
import PeerLink.Proofs.Stream.Steadiness

namespace PeerLink.Manager

namespace Transition

variable (t : Transition)

/-- A closing by `close` marks the manager as closed. -/
def Marks (c : ClosingId) : Prop :=
  t.move = .step (.closing c) .none ∧ t.before.closed = false ∧
    t.before.closings[c]? = some { ending := .close, stage := .swapping }

def Takes (c : ClosingId) (stream : StreamId) : Prop :=
  t.move = .step (.closing c) .none ∧ ∃ y l ls, t.before.closings[c]? = some y ∧
    y.stage = .queued l ls ∧ t.before.OnStream l stream

def Answers (c : ClosingId) (stream : StreamId) (a : Answer) : Prop :=
  t.move = .step (.closing c) a ∧ ∃ y w time ls, t.before.closings[c]? = some y ∧
    y.stage = .flushing w time ls ∧ w.stream = stream

end Transition

inductive Ended (ts : List Transition) (c : ClosingId) (stream : StreamId) : Prop where
  | shut {t} (ht : t ∈ ts) (ha : t.Answers c stream .shut) (hs : .shut stream ∈ t.happenings)
  | expired {u t} (hu : u ∈ ts) (ht : t ∈ ts) (hut : u.Takes c stream)
    (ha : t.Answers c stream .none) (hle : u.before.clock + flushTimeout ≤ t.before.clock)
  | broken {t error} (ht : t ∈ ts) (ha : t.Answers c stream (.failed error))

def Dropped (ts : List Transition) (stream : StreamId) : Prop :=
  ∃ t ∈ ts, (∃ d error, .warned (.sendFailed d error) ∈ t.happenings) ∧
    .released stream ∈ t.happenings

structure Flushes (m : Manager) (ts : List Transition) (c : ClosingId) (stream : StreamId)
    (y : Closing) (w : Writer) (time : Nat) (ls : List LinkId) : Prop where
  found : m.closings[c]? = some y
  stage : y.stage = .flushing w time ls
  same : w.stream = stream
  taken : ∃ t ∈ ts, t.Takes c stream ∧ time = t.before.clock + flushTimeout

inductive Tended (m : Manager) (ts : List Transition) (c : ClosingId) (l : LinkId)
    (stream : StreamId) : Prop where
  | linked (h : m.OnStream l stream)
  | flushed {y w time ls} (hc : Collected ts c l) (h : Flushes m ts c stream y w time ls)
  | ended (hc : Collected ts c l) (h : Ended ts c stream)
  | dropped (h : Dropped ts stream)

variable {m m' m₁ : Manager} {mv : Move} {hs hs₁ : List Happening} {l : LinkId} {k : Link}
  {id : SendId} {s : Send} {a : Answer} {ts : List Transition} {t : Transition} {c : ClosingId}
  {stream : StreamId} {y : Closing}

theorem Ended.append (h : Ended ts c stream) : Ended (ts ++ [t]) c stream := by
  cases h with
  | shut ht ha hs => exact .shut (List.mem_append_left _ ht) ha hs
  | expired hu ht hut ha hle =>
    exact .expired (List.mem_append_left _ hu) (List.mem_append_left _ ht) hut ha hle
  | broken ht ha => exact .broken (List.mem_append_left _ ht) ha

theorem Effect.leaves_stream (he : Effect m mv m₁ hs) (hm : Sound m) (ho : m.OnStream l stream) :
    m₁.OnStream l stream ∨
      ((∃ d error, .warned (.sendFailed d error) ∈ hs) ∧ .released stream ∈ hs) ∨
      ∃ (i : ClosingId) (y : Closing) (ls : List LinkId) (w : Writer),
        mv = .step (.closing i) .none ∧ m.closings[i]? = some y ∧ y.stage = .queued l ls ∧
        w.stream = stream ∧
        m₁.closings[i]? = some { y with stage := .flushing w (m.clock + flushTimeout) ls } := by
  cases he with
  | aside hm =>
    rw [hm]
    exact .inl ho
  | call | ask | finish | drop => exact .inl ho
  | leave => exact .inl (ho.keep fun k _ _ => (leave_keeps k _).1)
  | send hs' hst => exact (hst.leaves_stream hs' hm ho).imp_right .inl
  | opening _ hf => exact .inl (ho.lookup (lookupStep_cases hf) :)
  | @closing i y _ _ _ hy hst =>
    cases hst with
    | request => exact .inl (ho.keep fun k _ _ => (request_keeps k _).1)
    | retireIdle _ hk' _ hw' =>
      refine .inl (ho.keep fun k hk hj => ?_)
      subst hj
      cases hk.symm.trans hk'
      exact (leave_keeps _ _).1.trans hw'.symm
    | @retireBusy j ls _ v he hk' _ hw' =>
      by_cases hj : j = l
      · subst hj
        obtain ⟨k, w, hk, hw, hws⟩ := ho
        cases hk.symm.trans hk'
        cases hw.symm.trans hw'
        exact .inr (.inr ⟨i, y, ls, _, rfl, hy, he, hws, setClosing_get hy _⟩)
      · exact .inl (ho.keep fun _ _ h => absurd h hj)
    | clearObservers =>
      rw [clearObservers_scope]
      exact .inl ho
    | _ => exact .inl ho

theorem ClosingStep.flushes {w : Writer} {time : Nat} {ls : List LinkId}
    (hst : ClosingStep m c y a m₁ hs) (h : Flushes m ts c stream y w time ls)
    (ht : t.before = m) (hmv : t.move = .step (.closing c) a)
    (hc : t.after.closings = m₁.closings) (hsub : hs ⊆ t.happenings) :
    (∃ z v, Flushes t.after (ts ++ [t]) c stream z v time ls) ∨ Ended (ts ++ [t]) c stream := by
  obtain ⟨u, hu, htakes, htime⟩ := h.taken
  have hanswers : t.Answers c stream a :=
    ⟨hmv, y, w, time, ls, ht ▸ h.found, h.stage, h.same⟩
  cases hst with
  | flushPart hs =>
    cases h.stage.symm.trans hs
    refine .inl ⟨_, _, hc ▸ setClosing_get h.found _, rfl, ?_, u, List.mem_append_left _ hu,
      htakes, htime⟩
    exact h.same
  | flushEnd hs ha =>
    cases h.stage.symm.trans hs
    right
    obtain ⟨rfl, hle, -⟩ | ⟨rfl, -, rfl⟩ | ⟨error, rfl, -⟩ := ha
    · refine .expired (List.mem_append_left _ hu) List.mem_concat_self htakes hanswers ?_
      rw [← htime, ht]
      exact hle
    · refine .shut List.mem_concat_self hanswers (hsub ?_)
      rw [h.same]
      exact List.mem_cons_self
    · exact .broken List.mem_concat_self hanswers
  | again hs | swap hs | cancel hs | clearObservers hs | collect hs | clearLinks hs | await hs
  | request hs | retireIdle hs | retireBusy hs | done hs | giveUp hs => cases h.stage.symm.trans hs

theorem Flushes.move {w : Writer} {time : Nat} {ls : List LinkId}
    (h : Flushes m ts c stream y w time ls) (hm : m.move mv = some (m', hs)) :
    (∃ z v, Flushes m' (ts ++ [⟨m, mv, m', hs⟩]) c stream z v time ls) ∨
      Ended (ts ++ [⟨m, mv, m', hs⟩]) c stream := by
  obtain ⟨m₁, hs₁, he, hr⟩ := move_effect hm
  have hclos := closings_of_reap hr
  obtain hy | ⟨a, rfl, hst⟩ := he.keeps_closing h.found
  · obtain ⟨u, hu, htakes⟩ := h.taken
    exact .inl ⟨y, w, hclos ▸ hy, h.stage, h.same, u, List.mem_append_left _ hu, htakes⟩
  · exact hst.flushes (t := ⟨m, .step (.closing c) a, m', hs⟩) h rfl rfl hclos
      (happenings_of_reap hr)

theorem OnStream.unretired (h : m.OnStream l stream) (hr : Retiring m) : ¬m.Retired l := by
  obtain ⟨k, w, hk, hw, -⟩ := h
  rintro ⟨k', hk', hret⟩
  cases hk.symm.trans hk'
  cases hw.symm.trans (hr.idle l k hk hret)

theorem OnStream.reap (h : m₁.OnStream l stream) (hr : Retiring m₁)
    (hp : reap (m₁, hs₁) = (m', hs)) (hl : m'.Pursued ts c l) : m'.OnStream l stream := by
  have hrefers : m₁.refersTo l = true := by
    have hsame : m'.refersTo l = m₁.refersTo l := by
      rw [reap_scope hp]
      rfl
    rw [← hsame]
    refine hl.refersTo ?_
    rintro ⟨k', hk', hret⟩
    obtain ⟨k₁, hk₁, ⟨rfl, -⟩ | ⟨-, rfl⟩⟩ := reap_link hp hk'
    · exact h.unretired hr ⟨_, hk₁, hret⟩
    · exact h.unretired hr ⟨k₁, hk₁, hret⟩
  obtain ⟨k, w, hk, hw, hs⟩ := h
  exact ⟨k, w, (reap_of_refersTo hp hrefers).trans hk, hw, hs⟩

theorem Pursued.collected (h : Pursued m ts c l) (hy : m.closings[c]? = some y)
    (hn : ¬y.stage.Ahead) (hr : ¬m.Retired l) : Collected ts c l := by
  obtain ⟨z, hz, -, -, hch⟩ := h
  cases hy.symm.trans hz
  exact (hch.past hn).1.resolve_right fun hd => hr (hch.gone hd)

theorem Tended.move (h : Tended m ts c l stream) (ht : Tabled m) (hlone : Lone m c)
    (hp : Pursued m ts c l) (hp' : Pursued m' (ts ++ [⟨m, mv, m', hs⟩]) c l)
    (hm : m.move mv = some (m', hs)) : Tended m' (ts ++ [⟨m, mv, m', hs⟩]) c l stream := by
  cases h with
  | linked ho =>
    obtain ⟨m₁, hs₁, he, hr⟩ := move_effect hm
    obtain ho₁ | ⟨hw, hrel⟩ | ⟨i, y, ls, w, rfl, hy, hst, hws, hy₁⟩ := he.leaves_stream ht.sound ho
    · obtain hr | ⟨rfl, -⟩ := hr
      · exact .linked (ho₁.reap (ht.retiring.effect ht.sound he) hr hp')
      · exact .linked ho₁
    · obtain ⟨d, error, hw⟩ := hw
      have hsub := happenings_of_reap hr
      exact .dropped ⟨_, List.mem_concat_self, ⟨d, error, hsub hw⟩, hsub hrel⟩
    · have hi : i = c := by
        by_contra hi
        obtain hs | ⟨time, hs⟩ := hlone i y hy hi <;> cases hst.symm.trans hs
      subst hi
      have hcoll : Collected ts i l :=
        hp.collected hy (by rw [hst]; exact not_false) (ho.unretired ht.retiring)
      refine .flushed hcoll.append ⟨closings_of_reap hr ▸ hy₁, rfl, hws, _, List.mem_concat_self,
        ⟨rfl, y, l, ls, hy, hst, ho⟩, rfl⟩
  | flushed hc hf =>
    obtain ⟨z, v, hf⟩ | he := hf.move hm
    · exact .flushed hc.append hf
    · exact .ended hc.append he
  | ended hc he => exact .ended hc.append he.append
  | dropped hd =>
    obtain ⟨u, hu, hd⟩ := hd
    exact .dropped ⟨u, List.mem_append_left _ hu, hd⟩

/-- A closing by `close` is under way, and has a link to see to that had a stream when it began,
unless a call has taken the link away from it. -/
structure Shutting (m : Manager) (ts : List Transition) (c : ClosingId) (l : LinkId)
    (stream : StreamId) : Prop where
  tabled : Tabled m
  closed : m.closed = true
  lone : m.Lone c
  course : Missed ts c l ∨ Pursued m ts c l ∧ Tended m ts c l stream

theorem Shutting.move (h : Shutting m ts c l stream) (hm : m.move mv = some (m', hs)) :
    Shutting m' (ts ++ [⟨m, mv, m', hs⟩]) c l stream := by
  refine ⟨h.tabled.move hm, (move_later hm).closed h.closed, h.lone.move h.closed hm, ?_⟩
  obtain hmiss | ⟨hp, ht⟩ := h.course
  · exact .inl hmiss.append
  · obtain hmiss | hp' := hp.move h.tabled h.lone hm
    · exact .inl hmiss
    · exact .inr ⟨hp', ht.move h.tabled h.lone hp hp' hm⟩

theorem Transition.Marks.effect (h : t.Marks c)
    (hm : t.before.move t.move = some (t.after, t.happenings)) :
    reap ({ t.before with closed := true }.setClosing c .cancelling, []) =
      (t.after, t.happenings) := by
  obtain ⟨hmv, hopen, hc⟩ := h
  rw [hmv] at hm
  obtain ⟨⟨m₁, hs₁⟩, ho, hr⟩ := move_step hm
  obtain ⟨y, hy, hst⟩ := closingStep_cases ho
  cases hc.symm.trans hy
  cases hst with
  | again _ hclosed => cases hopen.symm.trans hclosed
  | swap => exact hr
  | cancel hs | clearObservers hs | collect hs | clearLinks hs | await hs | request hs
  | retireIdle hs | retireBusy hs | flushEnd hs | done hs | giveUp hs => cases hs

theorem Transition.Marks.shutting (h : t.Marks c)
    (hm : t.before.move t.move = some (t.after, t.happenings)) (ht : Tabled t.before)
    (ho : t.before.OnStream l stream) : Shutting t.after [] c l stream := by
  have hr := h.effect hm
  obtain ⟨hmv, hopen, hc⟩ := h
  obtain ⟨k, w, hk, hw, hs⟩ := ho
  have hlisted := ht.current.table hopen l k hk (ht.in_use hk (.inl (by rw [hw]; nofun)))
  have hat : t.after.closings[c]? = some { ending := .close, stage := .cancelling } := by
    rw [reap_scope hr]
    exact setClosing_get hc _
  have hclosed : t.after.closed = true := by
    rw [reap_scope hr]
    rfl
  refine ⟨ht.move hm, hclosed, fun i y hy hi => .inl ?_,
    .inr ⟨⟨_, hat, rfl, nofun, ?_⟩, .linked ?_⟩⟩
  · rw [reap_scope hr] at hy
    replace hy : t.before.closings[i]? = some y := (setClosing_get_ne hi _).symm.trans hy
    by_contra hn
    cases hopen.symm.trans (ht.flagged.past i y hy hn)
  · refine ⟨fun _ => .inl ⟨k.destination, ?_⟩, fun hn => absurd trivial hn, ?_⟩
    · rw [reap_scope hr]
      exact hlisted
    · rintro ⟨u, hu, -⟩
      cases hu
  · have hrefers := refersTo_of_table
      (m := { t.before with closed := true }.setClosing c .cancelling) hlisted
    exact ⟨k, w, (reap_of_refersTo hr hrefers).trans hk, hw, hs⟩

theorem Shutting.run {moves : List Move} (h : Shutting m [] c l stream)
    (hm : m.run moves = some (m', hs)) : Shutting m' (m.transitions moves) c l stream :=
  run_induction (P := fun m ts => Shutting m ts c l stream) h
    (fun _ _ _ _ _ hu hm => hu.move hm) hm

structure Exhausted (m : Manager) (address : Endpoint) (taken : StreamId → Bytes)
    (ps : List Placement) (es : List Opened) (stream : StreamId) : Prop where
  known : ∃ e ∈ es, e.stream = stream
  free : ∀ o x, m.holdingOf o = some x → x.writer.stream ≠ stream
  full : taken stream = content address ps stream

theorem Exhausted.move {address : Endpoint} {taken : StreamId → Bytes} {ps : List Placement}
    {es : List Opened} (h : Exhausted t.before address taken ps es stream) (ht : Posting t)
    (hn : ((es ++ t.opened).map Opened.stream).Nodup) :
    Exhausted t.after address (fun s => taken s ++ written s t.happenings) (ps ++ t.placed)
      (es ++ t.opened) stream := by
  obtain ⟨e₀, he₀, hes⟩ := h.known
  refine ⟨⟨e₀, List.mem_append_left _ he₀, hes⟩, ?_, ?_⟩
  · intro o y hy
    cases ht with
    | keep hh => exact h.free o y (hh o y hy)
    | turn o₁ bytes h₀ hh =>
      obtain ⟨-, hy⟩ | ⟨-, hy⟩ := hh o y hy
      · rw [hy.stream]
        exact h.free _ _ h₀
      · exact h.free o y hy
    | @fresh e he hh =>
      obtain ⟨-, rfl⟩ | hy := hh o y hy
      · rintro rfl
        rw [he, List.map_append, List.nodup_append] at hn
        exact hn.2.2 _ (List.mem_map_of_mem he₀) _ (List.mem_singleton.mpr rfl) hes
      · exact h.free o y hy
  · cases ht with
    | keep _ hw hp | fresh _ _ hw hp =>
      rw [hw, hp, List.append_nil, List.append_nil]
      exact h.full
    | turn o₁ bytes h₀ _ hw _ hp =>
      have hne := h.free _ _ h₀
      rw [hw, if_neg hne.symm, List.append_nil, content_of_other fun p hp' => ?_]
      · exact h.full
      · rw [(hp p hp').1]
        exact hne

theorem Transition.Answers.exhausted (h : t.Answers c stream .shut) (hacc : Accounted t.before ts)
    (hm : t.before.move t.move = some (t.after, t.happenings)) :
    Exhausted t.after t.before.address (taken (ts ++ [t])) (placements (ts ++ [t]))
      (openedStreams (ts ++ [t])) stream := by
  obtain ⟨hmv, y, w, time, ls, hy, hst, rfl⟩ := h
  have hplaced : t.placed = [] := by
    rw [Transition.placed, Transition.placement?, hmv]
    rfl
  have hopened : t.opened = [] := by
    rw [Transition.opened, Transition.opened?, hmv]
    rfl
  rw [hmv] at hm
  obtain ⟨⟨m₁, hs₁⟩, ho, hr⟩ := move_step hm
  obtain ⟨y', hy', hstep⟩ := closingStep_cases ho
  cases hy.symm.trans hy'
  cases hstep with
  | flushEnd hs ha =>
    cases hst.symm.trans hs
    obtain ⟨hn, -⟩ | ⟨-, hempty, rfl⟩ | ⟨_, hn, -⟩ := ha
    · cases hn
    · have hhold : t.before.holdingOf (.closing c) = some ⟨w, none⟩ := by
        rw [holdingOf_closing hy, hst]
        rfl
      obtain ⟨e, he, hes, -⟩ := hacc.balanced.known _ _ hhold
      have hbook := hacc.balanced.book _ _ hhold
      rw [hempty, List.append_nil] at hbook
      rw [taken_concat, placements_concat, openedStreams_concat, hplaced, hopened,
        List.append_nil, List.append_nil]
      refine ⟨⟨e, he, hes⟩, fun o x hx heq => ?_, ?_⟩
      · obtain ⟨-, hx⟩ | ⟨hne, hx⟩ := holdingOf_setClosing hy (holdingOf_reap hr hx)
        · cases hx
        · exact hne (hacc.balanced.apart _ _ _ _ hx hhold heq)
      · rw [written_reap hr]
        simpa [written] using hbook
    · cases hn

theorem run_exhausted {address : Endpoint} {config : Config} {clock : Nat} {moves : List Move}
    (h : (new address config clock).run moves = some (m, hs))
    (hn : ((openedStreams ((new address config clock).transitions moves)).map
      Opened.stream).Nodup)
    (ht : t ∈ (new address config clock).transitions moves) (ha : t.Answers c stream .shut) :
    written stream hs =
      content address (placements ((new address config clock).transitions moves)) stream := by
  have hall := run_induction
    (P := fun m ts => ((openedStreams ts).map Opened.stream).Nodup → Accounted m ts ∧
      ∀ t ∈ ts, t.Answers c stream .shut →
        Exhausted m m.address (taken ts) (placements ts) (openedStreams ts) stream)
    (fun _ => ⟨.new address config clock, fun t ht => absurd ht List.not_mem_nil⟩)
    (fun m ts mv m' hs ih hm hn => ?_) h
  · have hfull := ((hall hn).2 t ht ha).full
    rwa [taken, ← run_happenings h, (run_later h).address] at hfull
  · have hn' := hn
    rw [openedStreams_concat] at hn'
    obtain ⟨hacc, hold⟩ := ih (by
      rw [List.map_append] at hn'
      exact (List.nodup_append.mp hn').1)
    refine ⟨hacc.move hm hn, fun t ht ha => ?_⟩
    rw [(move_later hm).address]
    obtain ht | ht := List.mem_append.mp ht
    · rw [taken_concat, placements_concat, openedStreams_concat]
      exact (hold t ht ha).move (move_posting hm hacc.sound.directed) hn'
    · cases List.mem_singleton.mp ht
      exact ha.exhausted hacc hm

theorem Transition.Marks.unsought {d : Endpoint} (h : t.Marks c)
    (hm : t.before.move t.move = some (t.after, t.happenings)) (ht : Tabled t.before)
    (he : ¬t.before.Searches d .entering) (hc : ¬t.before.Searches d (.confirming l)) :
    Unsought t.after d l := by
  have hr := h.effect hm
  obtain ⟨-, hopen, -⟩ := h
  have hsame : ∀ n, t.after.Searches d n → t.before.Searches d n := fun n hn => by
    rw [reap_scope hr] at hn
    exact hn
  refine ⟨fun h => he (hsame _ h), fun h => hc (hsame _ h), fun h => ?_⟩
  obtain ⟨i, o, ho, -, hst⟩ | ⟨i, s, hs', -, hst⟩ := hsame _ h
  · cases hopen.symm.trans (ht.current.openings i o l ho hst)
  · cases hopen.symm.trans (ht.current.sends i s l hs' hst)

/-- When a manager is closed by `close`, every link that has a stream at the moment at which the
manager is marked as closed is in the link table then. By the time the closing is over it is
retired and has no stream. The closing has found it in the table and, having waited for its
lock, has taken its stream, to which it has then written all that was put on it before shutting
it; unless the time for that ran out, or writing failed. Only a call that could not write its
own frame to the stream forestalls the closing: it has let go of the stream. Nothing is said of
a link that a call takes out of the table before the closing has looked into it, because the
call finds the manager closed the second time it looks; for that, a call to the link's
destination must have looked for the first time, and not yet for the second, when the manager
was marked as closed. -/
theorem closing_shuts_links {address : Endpoint} {config : Config} {clock : Nat}
    {moves : List Move} (h : (new address config clock).run moves = some (m, hs))
    (hn : ((openedStreams ((new address config clock).transitions moves)).map
      Opened.stream).Nodup)
    {before after : List Transition}
    (hsplit : (new address config clock).transitions moves = before ++ t :: after)
    (hmark : t.Marks c) {time : Nat}
    (hover : m.closings[c]? = some { ending := .close, stage := .finished time }) {w : Writer}
    (hk : t.before.allLinks[l]? = some k) (hw : k.writer = some w) :
    t.before.links.get? k.destination = some l ∧
      (Missed after c l ∧
          (t.before.Searches k.destination .entering ∨
            t.before.Searches k.destination (.confirming l)) ∨
        (∃ k' : Link, m.allLinks[l]? = some k' ∧ k'.retired = true ∧ k'.writer = none) ∧
          (Collected after c l ∧ Ended after c w.stream ∨
            (Collected after c l ∨ Discarded after l) ∧ Dropped after w.stream)) ∧
      ((∃ u ∈ after, u.Answers c w.stream .shut) → written w.stream hs =
        content address (placements ((new address config clock).transitions moves)) w.stream) := by
  obtain ⟨moves₁, moves₂, hs₁, hs₂, hr₁, -, hm, hr₂, rfl⟩ := run_split h hsplit
  have ht := run_tabled hr₁
  have hlisted := ht.current.table hmark.2.1 l k hk (ht.in_use hk (.inl (by rw [hw]; nofun)))
  have hshut := hmark.shutting hm ht ⟨k, w, hk, hw, rfl⟩
  have hend := hshut.run hr₂
  refine ⟨hlisted, ?_, ?_⟩
  · obtain hmiss | ⟨hp, hten⟩ := hend.course
    · refine .inl ⟨hmiss, ?_⟩
      by_contra hnot
      obtain ⟨hne, hnc⟩ := not_or.mp hnot
      have hgoes : t.after.Goes l k.destination := Goes.move ⟨k, hk, rfl⟩ hm
      obtain ⟨u, hu, hretracts, -⟩ := hmiss
      exact (hmark.unsought hm ht hne hnc).run hshut.tabled hgoes hshut.closed hr₂ u hu hretracts
    · obtain ⟨hfound, hret⟩ := hp.retired hover
      refine .inr ⟨?_, ?_⟩
      · obtain ⟨k', hk', hret⟩ := hret
        exact ⟨k', hk', hret, hend.tabled.retiring.idle l k' hk' hret⟩
      · cases hten with
        | linked ho => exact absurd hret (ho.unretired hend.tabled.retiring)
        | flushed _ hf =>
          cases hover.symm.trans hf.found
          cases hf.stage
        | ended hc he => exact .inl ⟨hc, he⟩
        | dropped hd => exact .inr ⟨hfound, hd⟩
  · rintro ⟨u, hu, ha⟩
    exact run_exhausted h hn (hsplit ▸ List.mem_append_right _ (List.mem_cons_of_mem _ hu)) ha

theorem marks_of_getElem? {m₀ : Manager} {moves : List Move} {n : Nat}
    (ht : (m₀.transitions moves)[n]? = some t)
    (hmv : moves[n]? = some (.step (.closing c) .none))
    (hv : ((m₀.transitions moves)[n]?).map (fun t => (t.before.closed, t.before.closings[c]?,
      (t.before.allLinks[l]?).bind fun k => k.writer.map Writer.stream)) =
      some (false, some ⟨.close, .swapping⟩, some stream)) :
    t.Marks c ∧ t.before.OnStream l stream := by
  simp only [ht, Option.map_some, Option.some.injEq, Prod.mk.injEq] at hv
  obtain ⟨hopen, hat, hlink⟩ := hv
  obtain ⟨k, hk, hw⟩ := Option.bind_eq_some_iff.mp hlink
  obtain ⟨w, hw, hs⟩ := Option.map_eq_some_iff.mp hw
  exact ⟨⟨Option.some.inj ((getElem?_transitions ht).symm.trans hmv), hopen, hat⟩,
    k, w, hk, hw, hs⟩

theorem not_collected (h : (ts.all fun t => decide (l ∉ t.collected c)) = true) :
    ¬Collected ts c l := by
  rintro ⟨t, ht, hl⟩
  exact of_decide_eq_true (List.all_eq_true.mp h t ht) hl

theorem closing_shuts_links_unsent :
    let a : Endpoint := ⟨"a", 2⟩
    let work (task : Task) (n : Nat) := List.replicate n (Move.step task .none)
    let moves := .send ⟨"b", 1⟩ [1] :: work (.send 0) 7 ++
      [.step (.send 0) (.connected 7), .step (.send 0) (.accepted (greeting a).length),
        .step (.send 0) (.accepted 2), .abandon 0, .finish .close] ++ work (.closing 0) 7 ++
      [.step (.closing 0) (.accepted 3), .step (.closing 0) .shut] ++ work (.closing 0) 1 ++
      work .acceptor 1 ++ work (.closing 0) 1
    let ts := (new a {} 0).transitions moves
    ∃ m hs t, (new a {} 0).run moves = some (m, hs) ∧ ts[13]? = some t ∧ t.Marks 0 ∧
      t.before.OnStream 0 7 ∧ m.closings[0]? = some ⟨.close, .finished 0⟩ ∧
      Collected (ts.drop 14) 0 0 ∧ Ended (ts.drop 14) 0 7 ∧ m.Retired 0 ∧
      written 7 hs = greeting a ++ Frame.encode [1] := by
  intro a work moves ts
  obtain ⟨⟨m, hs⟩, h⟩ : ∃ o, (new a {} 0).run moves = some o :=
    Option.isSome_iff_exists.mp (by decide +kernel)
  obtain ⟨t, ht⟩ : ∃ t, ts[13]? = some t :=
    Option.isSome_iff_exists.mp (by decide +kernel)
  have hcalls : (ts[13]?).map (fun t => (t.before.openings.length,
      t.before.sends.all fun s => s.stage matches .abandoned)) = some (0, true) := by
    decide +kernel
  have hafter : ((new a {} 0).run moves).map (fun o => (o.1.closings[0]?, written 7 o.2,
      o.2.all fun x => x matches .dialled .. | .wrote .. | .shut _ | .released _ |
        .stoppedListening)) =
      some (some ⟨.close, .finished 0⟩, greeting a ++ Frame.encode [1], true) := by
    decide +kernel
  rw [h] at hafter
  rw [ht] at hcalls
  simp only [Option.map_some, Option.some.injEq, Prod.mk.injEq, List.all_eq_true] at hafter hcalls
  obtain ⟨hover, hwritten, hcalm⟩ := hafter
  obtain ⟨hno, hgone⟩ := hcalls
  obtain ⟨hmark, k, w, hk, hw, hw7⟩ : t.Marks 0 ∧ t.before.OnStream 0 7 :=
    marks_of_getElem? ht rfl (by decide +kernel)
  have hsplit : ts = ts.take 13 ++ t :: ts.drop 14 := by
    obtain ⟨hlt, rfl⟩ := List.getElem?_eq_some_iff.mp ht
    rw [List.getElem_cons_drop, List.take_append_drop]
  have hnone : ∀ d n, ¬t.before.Searches d n := by
    rintro d n (⟨i, o, ho, -⟩ | ⟨i, s, hs', -, hst⟩)
    · simp [List.length_eq_zero_iff.mp hno] at ho
    · have hs := hgone s (List.mem_of_getElem? hs')
      rw [hst] at hs
      cases hs
  have hmain := (closing_shuts_links h (by decide +kernel) hsplit hmark hover hk hw).2.1
  rw [hw7] at hmain
  obtain ⟨-, hs | hs⟩ | ⟨⟨k', hk', hret, -⟩, ⟨hc, he⟩ | ⟨-, u, hu, ⟨d, error, hwarn⟩, -⟩⟩ := hmain
  · exact absurd hs (hnone _ _)
  · exact absurd hs (hnone _ _)
  · exact ⟨m, hs, t, h, ht, hmark, ⟨k, w, hk, hw, hw7⟩, hover, hc, he, ⟨k', hk', hret⟩, hwritten⟩
  · have hmem : Happening.warned (.sendFailed d error) ∈ hs := by
      rw [run_happenings h]
      exact List.mem_flatMap.mpr ⟨u, List.mem_of_mem_drop hu, hwarn⟩
    cases hcalm _ hmem

/-- A link that is not new can be lost to a call that has looked at the mark before it was set:
the closing does not find it, and its stream is let go without being shut. Neither does a
closing find a link whose stream is lost to a failed write, and which the next call fails to
connect. And what waits for a stream that a closing does find stays unwritten, although there is
time, when writing to it fails. -/
theorem unshut_by_closing :
    let a : Endpoint := ⟨"a", 2⟩
    let b : Endpoint := ⟨"b", 1⟩
    let m₀ := new a {} 0
    let work (task : Task) (n : Nat) := List.replicate n (Move.step task .none)
    let fail (task : Task) := Move.step task (.failed ⟨.brokenPipe, .text "broken"⟩)
    let connect := .send b [1] :: work (.send 0) 7 ++
      [.step (.send 0) (.connected 7), .step (.send 0) (.accepted (greeting a).length)]
    let finish := work (.closing 0) 1 ++ work .acceptor 1 ++ work (.closing 0) 1
    let late := connect ++ [.step (.send 0) (.accepted 5), .open b] ++ work (.opening 0) 1 ++
      .finish .close :: work (.closing 0) 1 ++ work (.opening 0) 3 ++ work (.closing 0) 4 ++ finish
    let lost := connect ++ .send b [2] :: work (.send 1) 6 ++ .finish .close ::
      work (.closing 0) 1 ++ fail (.send 0) :: work (.send 1) 1 ++ fail (.send 1) ::
      work (.send 1) 1 ++ work (.closing 0) 4 ++ finish
    let broken := connect ++ [.step (.send 0) (.accepted 2), .abandon 0, .finish .close] ++
      work (.closing 0) 7 ++ fail (.closing 0) :: finish
    (∃ m hs t, m₀.run late = some (m, hs) ∧ (m₀.transitions late)[14]? = some t ∧ t.Marks 0 ∧
      t.before.OnStream 0 7 ∧ m.closings[0]? = some ⟨.close, .finished 0⟩ ∧
      ¬Collected (m₀.transitions late) 0 0 ∧ ¬m.Retired 0 ∧ .shut 7 ∉ hs) ∧
    (∃ m hs t, m₀.run lost = some (m, hs) ∧ (m₀.transitions lost)[18]? = some t ∧ t.Marks 0 ∧
      t.before.OnStream 0 7 ∧ m.closings[0]? = some ⟨.close, .finished 0⟩ ∧
      ¬Collected (m₀.transitions lost) 0 0 ∧ .shut 7 ∉ hs) ∧
    ∃ m hs t, m₀.run broken = some (m, hs) ∧ (m₀.transitions broken)[13]? = some t ∧
      t.Marks 0 ∧ t.before.OnStream 0 7 ∧ m.closings[0]? = some ⟨.close, .finished 0⟩ ∧
      .shut 7 ∉ hs ∧ written 7 hs = greeting a ++ [0, 0] := by
  intro a b m₀ work fail connect finish late lost broken
  refine ⟨?_, ?_, ?_⟩
  · obtain ⟨⟨m, hs⟩, h⟩ : ∃ o, m₀.run late = some o :=
      Option.isSome_iff_exists.mp (by decide +kernel)
    obtain ⟨t, ht⟩ : ∃ t, (m₀.transitions late)[14]? = some t :=
      Option.isSome_iff_exists.mp (by decide +kernel)
    obtain ⟨hmark, hon⟩ : t.Marks 0 ∧ t.before.OnStream 0 7 :=
      marks_of_getElem? ht rfl (by decide +kernel)
    have hafter : (m₀.run late).map (fun o => (o.1.closings[0]?,
        (o.1.allLinks[0]?).map Link.retired, decide (.shut 7 ∈ o.2))) =
        some (some ⟨.close, .finished 0⟩, some false, false) := by decide +kernel
    simp only [h, Option.map_some, Option.some.injEq, Prod.mk.injEq, decide_eq_false_iff_not]
      at hafter
    obtain ⟨hover, hret, hunshut⟩ := hafter
    refine ⟨m, hs, t, h, ht, hmark, hon, hover, ?_, ?_, hunshut⟩
    · exact not_collected (by decide +kernel)
    · rintro ⟨k, hk, hr⟩
      simp [hk, hr] at hret
  · obtain ⟨⟨m, hs⟩, h⟩ : ∃ o, m₀.run lost = some o :=
      Option.isSome_iff_exists.mp (by decide +kernel)
    obtain ⟨t, ht⟩ : ∃ t, (m₀.transitions lost)[18]? = some t :=
      Option.isSome_iff_exists.mp (by decide +kernel)
    obtain ⟨hmark, hon⟩ : t.Marks 0 ∧ t.before.OnStream 0 7 :=
      marks_of_getElem? ht rfl (by decide +kernel)
    have hafter : (m₀.run lost).map (fun o => (o.1.closings[0]?, decide (.shut 7 ∈ o.2))) =
        some (some ⟨.close, .finished 0⟩, false) := by decide +kernel
    simp only [h, Option.map_some, Option.some.injEq, Prod.mk.injEq, decide_eq_false_iff_not]
      at hafter
    exact ⟨m, hs, t, h, ht, hmark, hon, hafter.1, not_collected (by decide +kernel), hafter.2⟩
  · obtain ⟨⟨m, hs⟩, h⟩ : ∃ o, m₀.run broken = some o :=
      Option.isSome_iff_exists.mp (by decide +kernel)
    obtain ⟨t, ht⟩ : ∃ t, (m₀.transitions broken)[13]? = some t :=
      Option.isSome_iff_exists.mp (by decide +kernel)
    obtain ⟨hmark, hon⟩ : t.Marks 0 ∧ t.before.OnStream 0 7 :=
      marks_of_getElem? ht rfl (by decide +kernel)
    have hafter : (m₀.run broken).map (fun o => (o.1.closings[0]?, decide (.shut 7 ∈ o.2),
        written 7 o.2)) =
        some (some ⟨.close, .finished 0⟩, false, greeting a ++ [0, 0]) := by decide +kernel
    simp only [h, Option.map_some, Option.some.injEq, Prod.mk.injEq, decide_eq_false_iff_not]
      at hafter
    obtain ⟨hover, hunshut, hwritten⟩ := hafter
    exact ⟨m, hs, t, h, ht, hmark, hon, hover, hunshut, hwritten⟩

end PeerLink.Manager
