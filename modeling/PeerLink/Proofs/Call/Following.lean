import PeerLink.Proofs.Call.Retrying
import PeerLink.Proofs.Stream.Framing

namespace PeerLink.Manager

def Transition.FindsStream (t : Transition) (id : SendId) (e : Opened) : Prop :=
  t.move = .step (.send id) .none ∧ ∃ s k w, t.before.sends[id]? = some s ∧
    s.stage = .queued e.link ∧ t.before.allLinks[e.link]? = some k ∧
    k.holder = some (.send id) ∧ k.retired = false ∧ k.writer = some w ∧ w.stream = e.stream

def SendStage.Onward (l : LinkId) (closed : Bool) : SendStage → Prop
  | .linking n => (n = .entering → closed = false) ∧ ∀ i, n.link? = some i → i = l ∨ closed = false
  | .requesting i => i = l ∨ closed = false
  | .queued i => i = l ∨ closed = false
  | .finished result _ => result = .error .closed
  | .abandoned => True
  | _ => False

def Proceeds (us : List Transition) (id : SendId) (d : Endpoint) : Prop :=
  (∃ u ∈ us, .dialled id d ∈ u.happenings) ∨
    ∃ u ∈ us, ∃ e ∈ openedStreams us, u.FindsStream id e

/-- What is known of the links to a destination after a connect to it has failed. None that there
was at that time is used again, and each other got its stream later. -/
structure Since (m₀ : Manager) (d : Endpoint) (m : Manager) (us : List Transition) : Prop where
  later : Later m₀ m
  tabled : Tabled m
  goes : ∀ l d, m₀.Goes l d → m.Goes l d
  retired : m₀.closed = false → ∀ l, m₀.Goes l d →
    ∃ k : Link, m.allLinks[l]? = some k ∧ k.retired = true
  fresh : ∀ o x l, m.holdingOf o = some x → x.link = some l → m₀.allLinks.length ≤ l →
    ∃ e ∈ openedStreams us, e.stream = x.writer.stream ∧ e.link = l

variable {m₀ m m' m₁ : Manager} {mv : Move} {hs : List Happening} {l i : LinkId} {k : Link}
  {id j : SendId} {s s₁ s' : Send} {a : Answer} {d : Endpoint} {ts us : List Transition}
  {t : Transition} {error : IoError} {closed : Bool}

theorem made_of_holding (hd : Directed m) {o : Owner} {x : Holding} (h : m.holdingOf o = some x)
    (hl : x.link = some l) : l < m.allLinks.length := by
  cases o with
  | link i =>
    obtain ⟨k, w, hk, -, rfl⟩ := holdingOf_link.mp h
    cases hl
    exact (List.getElem?_eq_some_iff.mp hk).1
  | call j =>
    obtain ⟨s, hs', hst⟩ := Option.bind_eq_some_iff.mp h
    cases he : s.stage with
    | greeting i stream unsent =>
      rw [he] at hst
      cases hst
      cases hl
      exact (hd.sends j s _ hs' (by rw [he]; rfl)).lt
    | _ =>
      rw [he] at hst
      cases hst
  | closing c =>
    obtain ⟨c, -, hst⟩ := Option.bind_eq_some_iff.mp h
    cases he : c.stage with
    | flushing w time rest =>
      rw [he] at hst
      cases hst
      cases hl
    | _ =>
      rw [he] at hst
      cases hst

theorem Transition.ConnectFails.all_retired (h : t.ConnectFails id l error)
    (hm : t.before.move t.move = some (t.after, t.happenings)) (hb : Tabled t.before)
    (ha : Tabled t.after) (hs' : t.before.sends[id]? = some s) (ho : t.after.closed = false)
    (hg : t.after.Goes i s.destination) :
    ∃ k : Link, t.after.allLinks[i]? = some k ∧ k.retired = true := by
  obtain ⟨k, hk, hd⟩ := hg
  refine ⟨k, hk, ?_⟩
  by_contra hn
  have hlisted := ha.current.table ho i k hk (by simpa using hn)
  obtain ⟨s₀, hs₀, hop, h₁⟩ := h.stage hm
  cases hs'.symm.trans hs₀
  have hls := SendStage.link?_of_line? (SendStage.line?_of_held? (SendStage.held?_of_opening? hop))
  obtain ⟨k₀, hk₀, hd₀⟩ := hb.sound.directed.sends id s l hs' hls
  have hwas := hb.current.table ((move_later hm).opened ho) l k₀ hk₀
    (hb.retiring.opening id s l k₀ hs' hop hk₀)
  obtain ⟨-, a, s₂, ws, hmv, hs₂, hu⟩ := h
  -- the call keeps its link in the table until its next step
  have hstays : t.after.links.get? k₀.destination = some l := by
    obtain hl | hv | ⟨c, b, y, ls, hc, -⟩ := move_stays_listed hm hwas
    · exact hl
    · rw [hmv] at hv
      obtain ⟨s₃, hs₃, hv⟩ := Option.bind_eq_some_iff.mp hv
      cases hs'.symm.trans hs₃
      cases he : s.stage with
      | connecting | greeting =>
        rw [he] at hv
        cases hv
      | _ =>
        rw [he] at hop
        cases hop
    · cases hmv.symm.trans hc
  rw [hd, ← hd₀, hstays] at hlisted
  cases hlisted
  exact hn (ha.retiring.failing id _ l error k h₁ rfl hk)

theorem Since.start (h : t.ConnectFails id l error)
    (hm : t.before.move t.move = some (t.after, t.happenings)) (hb : Tabled t.before)
    (hs' : t.before.sends[id]? = some s) : Since t.after s.destination t.after [] := by
  have ha := hb.move hm
  refine ⟨.refl _, ha, fun _ _ hg => hg, fun ho i hg => h.all_retired hm hb ha hs' ho hg,
    fun o x i hx hl hn => ?_⟩
  exact absurd hn (Nat.not_le_of_lt (made_of_holding ha.sound.directed hx hl))

theorem Since.move (h : Since m₀ d m us) (hm : m.move mv = some (m', hs)) :
    Since m₀ d m' (us ++ [⟨m, mv, m', hs⟩]) := by
  refine ⟨h.later.trans (move_later hm), h.tabled.move hm, fun l d hg => (h.goes l d hg).move hm,
    fun ho l hg => ?_, fun o y l hy hl hn => ?_⟩
  · obtain ⟨k, hk, hr⟩ := h.retired ho l hg
    exact move_stays_retired hm hk hr
  · rw [openedStreams_concat]
    have hold : ∀ o x, m.holdingOf o = some x → x.link = some l →
        ∃ e ∈ openedStreams us ++ (Transition.mk m mv m' hs).opened,
          e.stream = x.writer.stream ∧ e.link = l := fun o x hx hl => by
      obtain ⟨e, he, h₁⟩ := h.fresh o x l hx hl hn
      exact ⟨e, List.mem_append_left _ he, h₁⟩
    cases move_posting hm h.tabled.sound.directed with
    | keep hh => exact hold o y (hh o y hy) hl
    | turn o₁ taken h₀ hh =>
      obtain ⟨-, hturn⟩ | ⟨-, hy₀⟩ := hh o y hy
      · obtain hlink | hlink := hturn.link
        · rw [hturn.stream]
          exact hold _ _ h₀ (hlink ▸ hl)
        · cases hl.symm.trans hlink
      · exact hold o y hy₀ hl
    | @fresh e he hh =>
      obtain ⟨-, rfl⟩ | hy₀ := hh o y hy
      · cases hl
        exact ⟨e, List.mem_append_right _ (by simp [he]), rfl, rfl⟩
      · exact hold o y hy₀ hl

theorem Since.opened (h : Since m₀ d m us) (hk : m.allLinks[i]? = some k) (hr : k.retired = false)
    (hg : m.Goes i d) (ho : m₀.closed = false) {w : Writer} (hw : k.writer = some w) :
    ∃ e ∈ openedStreams us, e.stream = w.stream ∧ e.link = i := by
  refine h.fresh (.link i) ⟨w, some i⟩ i (holdingOf_link.mpr ⟨k, w, hk, hw, rfl⟩) rfl ?_
  by_contra hlt
  have hg₀ : m₀.Goes i _ := ⟨_, List.getElem?_eq_getElem (Nat.lt_of_not_le hlt), rfl⟩
  obtain ⟨k', hk', hr'⟩ := h.retired ho i ((h.goes i _ hg₀).unique hg ▸ hg₀)
  cases hk.symm.trans hk'
  cases hr.symm.trans hr'

theorem SendStep.onward (h : SendStep m id s a m₁ hs) (hs' : m.sends[id]? = some s)
    (h₁ : m₁.sends[id]? = some s₁) (hon : s.stage.Onward l closed)
    (hc : closed = true → m.closed = true) :
    s₁.stage.Onward l closed ∨ .dialled id s.destination ∈ hs ∨
      a = .none ∧ ∃ i k w, s.stage = .queued i ∧ (i = l ∨ closed = false) ∧
        m.allLinks[i]? = some k ∧ k.holder = some (.send id) ∧ k.retired = false ∧
        k.writer = some w := by
  cases h with
  | refuse he | reject he | start he | greet he | greetPart he | giveUp he | writeAll he =>
    rw [he] at hon
    exact hon.elim
  | writePart he | failWrite he =>
    obtain he | he := he
    all_goals
      rw [he] at hon
      exact hon.elim
  | failConnect hu =>
    cases hu with
    | timedOut he | refused he | tooLong he | broken he =>
      rw [he] at hon
      exact hon.elim
  | find he hk =>
    rw [lookupStep_scope hk] at h₁
    cases (setSend_get hs' _).symm.trans h₁
    rw [he] at hon
    refine .inl ?_
    cases lookupStep_cases hk with
    | refuse => exact ⟨nofun, nofun⟩
    | enter ho => exact ⟨fun _ => Bool.eq_false_iff.mpr fun h => by simp [hc h] at ho, nofun⟩
    | meet | make => exact ⟨nofun, fun _ _ => .inr (hon.1 rfl)⟩
    | withdraw | confirm => exact ⟨nofun, hon.2⟩
    | evict => exact ⟨nofun, nofun⟩
  | found he =>
    cases (setSend_get hs' _).symm.trans h₁
    rw [he] at hon
    exact .inl (hon.2 _ rfl)
  | turnAway | quit | cancel =>
    cases (setSend_get hs' _).symm.trans h₁
    exact .inl rfl
  | request he =>
    cases (setSend_get hs' _).symm.trans h₁
    rw [he] at hon
    exact .inl hon
  | retry =>
    cases (setSend_get hs' _).symm.trans h₁
    exact .inl ⟨nofun, nofun⟩
  | dial => exact .inr (.inl List.mem_cons_self)
  | drain he _ hk hh hr hw =>
    rw [he] at hon
    exact .inr (.inr ⟨rfl, _, _, _, he, hon, hk, hh, hr, hw⟩)
  | place hr | overflow hr =>
    cases hr with
    | atOnce he hk hh hr hw =>
      rw [he] at hon
      exact .inr (.inr ⟨rfl, _, _, _, he, hon, hk, hh, hr, hw⟩)
    | greeted he | drained he =>
      rw [he] at hon
      exact hon.elim

theorem Proceeds.append (h : Proceeds us id d) : Proceeds (us ++ [t]) id d := by
  refine h.imp ?_ ?_
  · rintro ⟨u, hu, hd⟩
    exact ⟨u, List.mem_append_left _ hu, hd⟩
  · rintro ⟨u, hu, e, he, hf⟩
    rw [openedStreams_concat]
    exact ⟨u, List.mem_append_left _ hu, e, List.mem_append_left _ he, hf⟩

theorem Since.onward (h : Since m₀ s.destination m us)
    (hl : ∃ k : Link, m.allLinks[l]? = some k ∧ k.retired = true) (hs' : m.sends[j]? = some s)
    (hon : s.stage.Onward l m₀.closed) (hm : m.move mv = some (m', hs)) :
    ∃ stage, m'.sends[j]? = some { s with stage } ∧ (stage.Onward l m₀.closed ∨
      Proceeds (us ++ [⟨m, mv, m', hs⟩]) j s.destination) := by
  obtain ⟨m₁, hs₁, he, hr⟩ := move_effect hm
  obtain ⟨stage, h₁, hcase⟩ := he.keeps_call hs'
  refine ⟨stage, sends_of_reap hr ▸ h₁, ?_⟩
  obtain ⟨rfl, -⟩ | ⟨rfl, -⟩ | ⟨a, rfl, hstep⟩ := hcase
  · exact .inl hon
  · exact .inl trivial
  obtain hon₁ | hd | ⟨rfl, i, k, w, hq, hi, hk, hh, hret, hw⟩ :=
    hstep.onward hs' h₁ hon h.later.closed
  · exact .inl hon₁
  · exact .inr (.inl ⟨_, List.mem_concat_self, happenings_of_reap hr hd⟩)
  · -- the link is not the one that was retired, so its stream is a later one
    have ho : m₀.closed = false := hi.resolve_left fun hi => by
      obtain ⟨k', hk', hr'⟩ := hl
      cases hk.symm.trans (hi ▸ hk')
      cases hret.symm.trans hr'
    have hg := h.tabled.sound.directed.sends j s i hs' (by rw [hq]; rfl)
    obtain ⟨e, he', hstream, rfl⟩ := h.opened hk hret hg ho hw
    refine .inr (.inr ⟨_, List.mem_concat_self, e, ?_, rfl, s, k, w, hs', hq, hk, hh, hret, hw,
      hstream.symm⟩)
    rw [openedStreams_concat]
    exact List.mem_append_left _ he'

theorem onward_of_waiting (hm : Sound m) (hs' : m.sends[id]? = some s)
    (hop : s.stage.opening? = some l) (hj : j ≠ id) (hs₀ : m.sends[j]? = some s')
    (hl : s'.stage.link? = some l) : s'.stage.Onward l closed := by
  have hheld : s'.stage.held? ≠ some l := fun hh => by
    obtain ⟨k, hk, -⟩ := hm.directed.sends j s' l hs₀ hl
    have hholds := hm.locked.holder hs' (SendStage.held?_of_opening? hop) hk
    cases (hm.locked.holder hs₀ hh hk).symm.trans hholds
    exact hj rfl
  cases hst : s'.stage with
  | linking n =>
    rw [hst] at hl
    refine ⟨?_, fun i hi => .inl ?_⟩
    · rintro rfl
      cases hl
    · exact Option.some.inj (hi.symm.trans hl)
  | requesting i | queued i =>
    rw [hst] at hl
    exact .inl (Option.some.inj hl)
  | connecting | greeting | failing | draining | flushing =>
    rw [hst] at hl hheld
    exact absurd hl hheld
  | starting | finished | abandoned =>
    rw [hst] at hl
    cases hl

theorem run_onward (h : t.ConnectFails id l error)
    (hm : t.before.move t.move = some (t.after, t.happenings)) (hb : Tabled t.before)
    (hj : j ≠ id) (hs₀ : t.before.sends[j]? = some s') (hl : s'.stage.link? = some l)
    {moves : List Move} (hr : t.after.run moves = some (m, hs)) :
    ∃ stage, m.sends[j]? = some { s' with stage } ∧ (stage.Onward l t.after.closed ∨
      Proceeds (t.after.transitions moves) j s'.destination) := by
  obtain ⟨s, hs', hop, h₁⟩ := h.stage hm
  have ha := hb.move hm
  have hlink : s.stage.link? = some l :=
    SendStage.link?_of_line? (SendStage.line?_of_held? (SendStage.held?_of_opening? hop))
  have hgo := hb.sound.directed.sends id s l hs' hlink
  have hd : s.destination = s'.destination :=
    hgo.unique (hb.sound.directed.sends j s' l hs₀ hl)
  obtain ⟨k, hk, hkd⟩ := hgo.move hm
  refine (run_induction (P := fun m us => Since t.after s'.destination m us ∧
    (∃ k : Link, m.allLinks[l]? = some k ∧ k.retired = true) ∧
    ∃ stage, m.sends[j]? = some { s' with stage } ∧ (stage.Onward l t.after.closed ∨
      Proceeds us j s'.destination)) ⟨hd ▸ Since.start h hm hb hs',
        ⟨k, hk, ha.retiring.failing id _ l error k h₁ rfl hk⟩, s'.stage, ?_,
        .inl (onward_of_waiting hb.sound hs' hop hj hs₀ hl)⟩ ?_ hr).2.2
  · obtain ⟨-, a, s₂, ws, hmv, -, -⟩ := h
    rw [hmv] at hm
    obtain ⟨m₁, hs₁, he, hrp⟩ := move_effect hm
    obtain ⟨s₃, -, hst⟩ := he.eq_send
    rw [sends_of_reap hrp, hst.others hj]
    exact hs₀
  · rintro m us mv m' hs ⟨hsin, hret, stage, hs₁, hon | hpast⟩ hm'
    all_goals refine ⟨hsin.move hm', ?_, ?_⟩
    · obtain ⟨k, hk, hr⟩ := hret
      exact move_stays_retired hm' hk hr
    · exact hsin.onward (s := { s' with stage }) hret hs₁ hon hm'
    · obtain ⟨k, hk, hr⟩ := hret
      exact move_stays_retired hm' hk hr
    · obtain ⟨m₁, hs₂, he, hrp⟩ := move_effect hm'
      obtain ⟨stage', h₁, -⟩ := he.keeps_call hs₁
      exact ⟨stage', sends_of_reap hrp ▸ h₁, .inr hpast.append⟩

/-- Calls to send under every schedule, whatever comes of their connects. A call that starts over
has left a link for good: it is not in the table any more, and the call never comes to it again.
Each time another call to the same destination is to blame, which has failed to connect for that
link while this one waited; it is a different one each time, so that a call starts over less often
than there are calls to its destination. A connect that fails is what exactly one call returns, and
with its next step at that; and whatever failure a call returns, it is a failure of its own. A call
that was waiting when another one failed to connect returns that the manager is closed, unless it
dials itself or finds a stream that was opened later. -/
theorem failures_charged {address : Endpoint} {config : Config} {clock : Nat} {moves : List Move}
    (h : (new address config clock).run moves = some (m, hs))
    (hts : (new address config clock).transitions moves = ts) :
    (∀ (id : SendId) s, m.sends[id]? = some s →
      (∀ l ∈ retriedLinks ts id, s.stage.link? ≠ some l ∧ ∀ d, m.links.get? d ≠ some l) ∧
      (∃ blamed : LinkId → SendId, (∀ l ∈ retriedLinks ts id, Charged m ts id l (blamed l)) ∧
        ((retriedLinks ts id).map blamed).Nodup) ∧
      (retriedLinks ts id).length < m.sends.countP (·.destination = s.destination)) ∧
    (∀ t ∈ ts, ∀ id l error, t.ConnectFails id l error → ∃ s, m.sends[id]? = some s ∧
      ((∃ time, s.stage = .finished (.error (.connection s.destination error)) time) ∨
        s.stage = .failing l error ∧ ∃ m' hs', m.move (.step (.send id) .none) = some (m', hs') ∧
          m'.sends[id]? = some { s with
            stage := .finished (.error (.connection s.destination error)) m.clock })) ∧
    (ts.Pairwise fun t u => ∀ id l error l' error',
      t.ConnectFails id l error → ¬u.ConnectFails id l' error') ∧
    (∀ (id : SendId) s d error time, m.sends[id]? = some s →
      s.stage = .finished (.error (.connection d error)) time →
      d = s.destination ∧ FailedItself ts id m.config.maxFrame s.frame error) ∧
    ∀ ts₁ t ts₂, ts = ts₁ ++ t :: ts₂ → ∀ id l error, t.ConnectFails id l error →
      ∀ (j : SendId) s₀, j ≠ id → t.before.sends[j]? = some s₀ → s₀.stage.link? = some l →
        ∃ s, m.sends[j]? = some s ∧ s.destination = s₀.destination ∧
          ∀ result time, s.stage = .finished result time →
            result = .error .closed ∨ Proceeds ts₂ j s.destination := by
  subst hts
  obtain ⟨ht, hacc, hre⟩ := run_retries h
  refine ⟨fun id s hs' => ⟨fun l hl => ?_, hre.blames hacc id, hre.bounded hacc hs'⟩,
    fun t htm id l error hf => ?_, hacc.once, hacc.returned,
    fun ts₁ t ts₂ hsplit id l error hf j s₀ hj hs₀ hl => ?_⟩
  · obtain ⟨⟨s', hs₀, hn⟩, hun, -⟩ := hre.forsaken id l hl
    cases hs'.symm.trans hs₀
    exact ⟨hn, hun⟩
  · obtain ⟨s, hs', hst⟩ := hacc.fallen t htm id l error hf
    refine ⟨s, hs', ?_⟩
    cases he : s.stage with
    | failing l' error' =>
      rw [he] at hst
      obtain ⟨rfl, rfl⟩ := hst
      exact .inr ⟨rfl, returns_of_failing hs' he⟩
    | finished result time =>
      rw [he] at hst
      exact .inl ⟨time, congrArg (SendStage.finished · time) hst⟩
    | _ =>
      rw [he] at hst
      exact hst.elim
  · obtain ⟨moves₁, moves₂, hs₁, hs₂, hr₁, -, hm, hr₂, rfl⟩ := run_split h hsplit
    obtain ⟨stage, hs', hon⟩ := run_onward hf hm (run_tabled hr₁) hj hs₀ hl hr₂
    refine ⟨_, hs', rfl, ?_⟩
    rintro result time rfl
    exact hon.imp_left fun hon => hon

theorem failures_charged_refused :
    let b : Endpoint := ⟨"b", 1⟩
    let work id n := List.replicate n (Move.step (.send id) .none)
    let moves := [.send b [1], .send b [2]] ++ work 0 7 ++ work 1 6 ++
      [.step (.send 0) (.failed ⟨.connectionRefused, .text "refused"⟩)] ++ work 0 1 ++ work 1 7
    ∃ m hs ts, (new ⟨"a", 2⟩ {} 0).run moves = some (m, hs) ∧
      (new ⟨"a", 2⟩ {} 0).transitions moves = ts ∧ retriedLinks ts 1 = [0] ∧
      Charged m ts 1 0 0 ∧ ∀ d, m.links.get? d ≠ some 0 := by
  intro b work moves
  obtain ⟨⟨m, hs⟩, h⟩ : ∃ o, (new ⟨"a", 2⟩ {} 0).run moves = some o :=
    Option.isSome_iff_exists.mp (by decide +kernel)
  have hlen : ((new ⟨"a", 2⟩ {} 0).run moves).map (·.1.sends.length) = some 2 := by
    decide +kernel
  have hone : retriedLinks ((new ⟨"a", 2⟩ {} 0).transitions moves) 1 = [0] := by decide +kernel
  have htwo : m.sends.length = 2 := by simpa [h] using hlen
  obtain ⟨s, hs'⟩ : ∃ s, m.sends[1]? = some s :=
    ⟨_, List.getElem?_eq_getElem (by rw [htwo]; decide)⟩
  obtain ⟨hgone, ⟨blamed, hblamed, -⟩, -⟩ := (failures_charged h rfl).1 1 s hs'
  have hmem : 0 ∈ retriedLinks ((new ⟨"a", 2⟩ {} 0).transitions moves) 1 := by simp [hone]
  have hc := hblamed 0 hmem
  obtain ⟨s₀, -, hs₀, -⟩ := hc.same
  have hlt : blamed 0 < 2 := htwo ▸ (List.getElem?_eq_some_iff.mp hs₀).1
  have hfirst : ∀ n : Nat, n < 2 → n ≠ 1 → n = 0 := by omega
  rw [hfirst _ hlt hc.other] at hc
  exact ⟨m, hs, _, h, rfl, hone, hc, (hgone 0 hmem).2⟩

end PeerLink.Manager
