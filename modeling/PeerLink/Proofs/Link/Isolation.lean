import PeerLink.Proofs.Link.Currency

namespace PeerLink.Manager

def bound? (m : Manager) : Move → Option Endpoint
  | .open d => some d
  | .send d _ => some d
  | .abandon id => (m.sends[id]?).map Send.destination
  | .step (.send id) _ => (m.sends[id]?).map Send.destination
  | .step (.opening id) _ => (m.openings[id]?).map Opening.destination
  | _ => none

inductive Occupant where
  | link (l : LinkId)
  | call (id : SendId)

def Occupies (m : Manager) (d : Endpoint) : Occupant → Prop
  | .link l => ∃ k, m.allLinks[l]? = some k ∧ k.destination = d ∧ k.writer ≠ none
  | .call id => ∃ s, m.sends[id]? = some s ∧ s.destination = d ∧ s.stage.opening? ≠ none

/-- What a call leaves alone of a link to somewhere else. -/
structure Apart (m m₁ : Manager) (l : LinkId) : Prop where
  link : m₁.allLinks[l]? = m.allLinks[l]?
  refers : m.refersTo l = true → m₁.refersTo l = true

variable {m m' m₁ m₂ : Manager} {mv : Move} {hs : List Happening} {l i : LinkId} {k : Link}
  {id : SendId} {s : Send} {a : Answer} {d d' : Endpoint} {n n' : Lookup}

theorem Apart.of_eq (hl : m₁.allLinks[l]? = m.allLinks[l]?)
    (ht : ∀ e, (e, l) ∈ m.links.entries → (e, l) ∈ m₁.links.entries)
    (hs : ∀ (id : SendId) (s : Send), m.sends[id]? = some s → s.stage.link? = some l →
      m₁.sends[id]? = some s)
    (ho : ∀ (id : Nat) (o : Opening), m.openings[id]? = some o → o.link? = some l →
      m₁.openings[id]? = some o)
    (hc : m₁.closings = m.closings) : Apart m m₁ l := by
  refine ⟨hl, fun h => refersTo_iff.mpr ?_⟩
  obtain ⟨e, he⟩ | ⟨id, s, hs', hl⟩ | ⟨id, o, ho', hl⟩ | ⟨id, c, hc', hl⟩ := refersTo_iff.mp h
  · exact .inl ⟨e, ht e he⟩
  · exact .inr (.inl ⟨id, s, hs id s hs' hl, hl⟩)
  · exact .inr (.inr (.inl ⟨id, o, ho id o ho' hl, hl⟩))
  · exact .inr (.inr (.inr ⟨id, c, hc ▸ hc', hl⟩))

theorem modifyLink_get_ne (h : i ≠ l) (f : Link → Link) :
    (m.modifyLink i f).allLinks[l]? = m.allLinks[l]? :=
  List.getElem?_modify_ne _ _ h

theorem mem_evict {e : Endpoint} (h : (e, l) ∈ m.links.entries) (hn : e ≠ d) :
    (e, l) ∈ (m.evict d i).links.entries := by
  rw [evict]
  split
  · exact List.mem_filter.mpr ⟨h, by simpa using hn⟩
  · exact h

theorem LookupStep.apart (hk : LookupStep m d n m₂ n') (hn : d' ≠ d) :
    m₂.links.get? d' = m.links.get? d' ∧
      (l < m.allLinks.length → m₂.allLinks[l]? = m.allLinks[l]?) ∧
      ((d', l) ∈ m.links.entries → (d', l) ∈ m₂.links.entries) := by
  cases hk with
  | make hl =>
    exact ⟨(Table.get?_insert hl).trans (if_neg hn), List.getElem?_append_left,
      List.mem_append_left _⟩
  | evict =>
    refine ⟨evict_get? hn, fun _ => ?_, fun h => mem_evict h hn⟩
    rw [evict_scope]
  | _ => exact ⟨rfl, fun _ => rfl, id⟩

theorem SendStep.get?_apart (hst : SendStep m id s a m₁ hs) (hn : d' ≠ s.destination) :
    m₁.links.get? d' = m.links.get? d' := by
  cases hst with
  | find _ hk => exact ((lookupStep_cases hk).apart (l := 0) hn).1
  | giveUp => exact evict_get? hn
  | _ => rfl

theorem SendStep.apart (hst : SendStep m id s a m₁ hs) (hs' : m.sends[id]? = some s)
    (hd : Directed m) (hg : m.Goes l d') (hn : d' ≠ s.destination) : Apart m m₁ l := by
  have hne : ∀ {i}, s.stage.link? = some i → i ≠ l := by
    rintro i hi rfl
    exact hn (hg.unique (hd.sends id s i hs' hi))
  have hout : s.stage.link? ≠ some l := fun h => hne h rfl
  have hsends : ∀ (j : SendId) (t : Send), m.sends[j]? = some t → t.stage.link? = some l →
      m₁.sends[j]? = some t := fun j t ht hl => by
    have hj : j ≠ id := by
      rintro rfl
      cases hs'.symm.trans ht
      exact hout hl
    exact (hst.others hj).trans ht
  have hto : ∀ e, (e, l) ∈ m.links.entries → e = d' := fun e he => (hd.table e l he).unique hg
  have hopen : m₁.openings = m.openings := by rw [hst.scope]
  have hclos : m₁.closings = m.closings := by rw [hst.scope]
  refine .of_eq ?_ (fun e he => ?_) hsends (fun j o ho _ => hopen ▸ ho) hclos
  · cases hst with
    | find _ hk => exact ((lookupStep_cases hk).apart hn).2.1 hg.lt
    | request he | retry he | writeAll he | giveUp he =>
      first | rw [evict_scope] | skip
      exact modifyLink_get_ne (hne (by rw [he]; rfl)) _
    | cancel hl => exact modifyLink_get_ne (hne (SendStage.link?_of_line? hl)) _
    | place hr | overflow hr =>
      exact modifyLink_get_ne (hne (SendStage.link?_of_line? hr.line?)) _
    | failConnect hu =>
      have hl := SendStage.line?_of_held? hu.held?
      exact modifyLink_get_ne (hne (SendStage.link?_of_line? hl)) _
    | writePart he | failWrite he =>
      refine modifyLink_get_ne (hne ?_) _
      obtain he | he := he <;> rw [he] <;> rfl
    | _ => rfl
  · have hed : e ≠ s.destination := hto e he ▸ hn
    cases hst with
    | find _ hk => exact ((lookupStep_cases hk).apart hed).2.2 he
    | giveUp => exact mem_evict he hed
    | _ => exact he

theorem Effect.get?_apart (he : Effect m mv m₁ hs) (hb : m.bound? mv = some d) (hn : d' ≠ d) :
    m₁.links.get? d' = m.links.get? d' := by
  cases he with
  | aside hm => rw [hm]
  | call | ask | drop | leave => rfl
  | finish => cases hb
  | @send id s _ _ _ hs' hst =>
    have hd : s.destination = d := by simpa [bound?, hs'] using hb
    exact hst.get?_apart (hd ▸ hn)
  | @opening id o _ _ ho hk =>
    have hd : o.destination = d := by simpa [bound?, ho] using hb
    exact ((lookupStep_cases hk).apart (l := 0) (hd ▸ hn)).1
  | closing => cases hb

theorem Effect.apart (he : Effect m mv m₁ hs) (hd : Directed m) (hb : m.bound? mv = some d)
    (hg : m.Goes l d') (hn : d' ≠ d) : Apart m m₁ l := by
  have hgiven : ∀ (id : SendId) (s : Send), m.sends[id]? = some s → s.destination = d →
      ∀ i, s.stage.line? = some i → i ≠ l := by
    rintro id s hs' rfl i hi rfl
    exact hn (hg.unique (hd.sends id s i hs' (SendStage.link?_of_line? hi)))
  cases he with
  | aside hm =>
    rw [hm]
    exact ⟨rfl, fun h => h⟩
  | call =>
    refine .of_eq rfl (fun _ h => h) (fun j t ht _ => ?_) (fun _ _ h _ => h) rfl
    exact (List.getElem?_append_left (List.getElem?_eq_some_iff.mp ht).1).trans ht
  | ask =>
    refine .of_eq rfl (fun _ h => h) (fun _ _ h _ => h) (fun j o ho _ => ?_) rfl
    exact (List.getElem?_append_left (List.getElem?_eq_some_iff.mp ho).1).trans ho
  | finish => cases hb
  | @drop id s hs' hst =>
    refine .of_eq rfl (fun _ h => h) (fun j t ht hl => ?_) (fun _ _ h _ => h) rfl
    refine (setSend_get_ne ?_ _).trans ht
    rintro rfl
    cases hs'.symm.trans ht
    rw [hst] at hl
    cases hl
  | @leave id s i hs' hi =>
    have hd' : s.destination = d := by simpa [bound?, hs'] using hb
    have hil := hgiven id s hs' hd' i hi
    refine .of_eq (modifyLink_get_ne hil _) (fun _ h => h) (fun j t ht hl => ?_)
      (fun _ _ h _ => h) rfl
    refine (setSend_get_ne ?_ _).trans ht
    rintro rfl
    cases hs'.symm.trans ht
    exact hil (Option.some.inj ((SendStage.link?_of_line? hi).symm.trans hl))
  | @send id s _ _ _ hs' hst =>
    have hd' : s.destination = d := by simpa [bound?, hs'] using hb
    exact hst.apart hs' hd hg (hd' ▸ hn)
  | @opening id o _ _ ho hk =>
    have hd' : o.destination = d := by simpa [bound?, ho] using hb
    have hk' := lookupStep_cases hk
    have hsc := lookupStep_scope hk
    refine .of_eq ((hk'.apart (hd' ▸ hn)).2.1 hg.lt) (fun e he => ?_) (fun j t ht _ => ?_)
      (fun j t ht hl => ?_) ?_
    · have hed : e = d' := (hd.table e l he).unique hg
      exact (hk'.apart (hed ▸ hd' ▸ hn)).2.2 he
    · rw [hsc]
      exact ht
    · have hj : id ≠ j := by
        rintro rfl
        cases ho.symm.trans ht
        refine hn (hg.unique (hd' ▸ hd.openings id o l ho ?_))
        rw [Opening.link?] at hl
        split at hl
        · cases hl
        · exact hl
      refine (List.getElem?_modify_ne _ _ hj).trans ?_
      rw [hsc]
      exact ht
    · rw [hsc]
      rfl
  | closing => cases hb

theorem move_apart (hm : m.move mv = some (m', hs)) (hd : Directed m) (ht : Tidy m)
    (hb : m.bound? mv = some d) (hn : d' ≠ d) :
    m'.links.get? d' = m.links.get? d' ∧ ∀ l, m.Goes l d' → m'.allLinks[l]? = m.allLinks[l]? := by
  obtain ⟨m₁, hs₁, he, hr | ⟨rfl, -⟩⟩ := move_effect hm
  · refine ⟨?_, fun l hg => ?_⟩
    · rw [reap_scope hr]
      exact he.get?_apart hb hn
    · have ha := he.apart hd hb hg hn
      obtain ⟨k, hk, -⟩ := hg
      by_cases hw : k.writer = none
      · exact (reap_of_idle hr (ha.link.trans hk) hw).trans hk.symm
      · exact (reap_of_refersTo hr (ha.refers (ht l k hk hw))).trans ha.link
  · exact ⟨he.get?_apart hb hn, fun l hg => (he.apart hd hb hg hn).link⟩

structure Tabled (m : Manager) : Prop where
  sound : Sound m
  flagged : Flagged m
  tidy : Tidy m
  retiring : Retiring m
  current : Current m

theorem Tabled.new (address : Endpoint) (config : Config) (clock : Nat) :
    Tabled (new address config clock) :=
  ⟨.new address config clock, .new address config clock, .new address config clock,
    .new address config clock, .new address config clock⟩

theorem Tabled.move (h : Tabled m) (hm : m.move mv = some (m', hs)) : Tabled m' := by
  refine ⟨h.sound.move hm, h.flagged.move hm, h.tidy.move hm, ?_, ?_⟩
  all_goals obtain ⟨m₁, hs₁, he, hr | ⟨rfl, -⟩⟩ := move_effect hm
  · exact (h.retiring.effect h.sound he).reap hr
  · exact h.retiring.effect h.sound he
  · exact (h.current.effect h.retiring h.sound h.flagged he).reap hr
  · exact h.current.effect h.retiring h.sound h.flagged he

theorem run_tabled {address : Endpoint} {config : Config} {clock : Nat} {moves : List Move}
    (h : (new address config clock).run moves = some (m, hs)) : Tabled m :=
  run_invariant (fun _ _ _ _ hi hm => hi.move hm) (.new address config clock) h

theorem Tabled.holder (h : Tabled m) (ht : m.links.get? d = some l)
    (hk : m.allLinks[l]? = some k) (hr : k.retired = true) : k.holder ≠ none := by
  obtain ⟨id, s, error, hs', hst⟩ := h.current.retired d l k ht hk hr
  rw [h.sound.locked.holder hs' (by rw [hst]; rfl) hk]
  nofun

theorem reap_stays_retired {o : Manager × List Happening} (hr : reap o = (m', hs))
    (hk : o.1.allLinks[l]? = some k) (hret : k.retired = true) :
    ∃ k' : Link, m'.allLinks[l]? = some k' ∧ k'.retired = true := by
  obtain ⟨k', hk'⟩ : ∃ k', m'.allLinks[l]? = some k' := by
    refine ⟨_, List.getElem?_eq_getElem ?_⟩
    rw [reap_length hr]
    exact (List.getElem?_eq_some_iff.mp hk).1
  obtain ⟨k₂, hk₂, hsame⟩ := reap_link hr hk'
  cases hk.symm.trans hk₂
  refine ⟨k', hk', ?_⟩
  obtain ⟨rfl, -⟩ | ⟨-, rfl⟩ := hsame <;> exact hret

theorem move_stays_retired (hm : m.move mv = some (m', hs)) (hk : m.allLinks[l]? = some k)
    (hr : k.retired = true) : ∃ k' : Link, m'.allLinks[l]? = some k' ∧ k'.retired = true := by
  obtain ⟨m₁, hs₁, he, hrp | ⟨rfl, -⟩⟩ := move_effect hm
  · obtain ⟨k₁, hk₁, hr₁⟩ := he.stays_retired hk hr
    exact reap_stays_retired hrp hk₁ hr₁
  · exact he.stays_retired hk hr

theorem Tabled.stays_retired (h : Tabled m) (hk : m.allLinks[l]? = some k)
    (hr : k.retired = true) {moves : List Move} (hm : m.run moves = some (m', hs)) :
    ∃ k' : Link, m'.allLinks[l]? = some k' ∧ k'.retired = true ∧ k'.writer = none := by
  have hall : Tabled m' ∧ ∃ k' : Link, m'.allLinks[l]? = some k' ∧ k'.retired = true := by
    refine run_invariant (I := fun m => Tabled m ∧ ∃ k : Link, m.allLinks[l]? = some k ∧
      k.retired = true) ?_ ⟨h, k, hk, hr⟩ hm
    rintro m mv m' hs ⟨h, k, hk, hr⟩ hm
    exact ⟨h.move hm, move_stays_retired hm hk hr⟩
  obtain ⟨h', k', hk', hr'⟩ := hall
  exact ⟨k', hk', hr', h'.retiring.idle l k' hk' hr'⟩

theorem Tabled.in_use (h : Tabled m) (hk : m.allLinks[l]? = some k)
    (hu : k.writer ≠ none ∨ ∃ (id : SendId) (s : Send), m.sends[id]? = some s ∧
      s.stage.opening? = some l) : k.retired = false := by
  obtain hw | ⟨id, s, hs', hl⟩ := hu
  · exact Bool.eq_false_iff.mpr fun hr => hw (h.retiring.idle l k hk hr)
  · exact h.retiring.opening id s l k hs' hl hk

theorem Tabled.occupied (h : Tabled m) (ho : m.closed = false) {x : Occupant}
    (hx : m.Occupies d x) : ∃ l k, m.links.get? d = some l ∧ m.allLinks[l]? = some k ∧
      (x = .link l ∧ k.writer ≠ none ∨ ∃ (id : SendId) (s : Send), x = .call id ∧
        m.sends[id]? = some s ∧ s.stage.opening? = some l) := by
  cases x with
  | link l =>
    obtain ⟨k, hk, rfl, hw⟩ := hx
    have ht := h.current.table ho l k hk (h.in_use hk (.inl hw))
    exact ⟨l, k, ht, hk, .inl ⟨rfl, hw⟩⟩
  | call id =>
    obtain ⟨s, hs', rfl, hop⟩ := hx
    obtain ⟨l, hl⟩ := Option.ne_none_iff_exists'.mp hop
    have hl' := SendStage.link?_of_line? (SendStage.line?_of_held? (SendStage.held?_of_opening? hl))
    obtain ⟨k, hk, hd⟩ := h.sound.directed.sends id s l hs' hl'
    have ht := h.current.table ho l k hk (h.in_use hk (.inr ⟨id, s, hs', hl⟩))
    exact ⟨l, k, hd ▸ ht, hk, .inr ⟨id, s, rfl, hs', hl⟩⟩

theorem Tabled.unique (h : Tabled m) (ho : m.closed = false) {x y : Occupant}
    (hx : m.Occupies d x) (hy : m.Occupies d y) : x = y := by
  obtain ⟨l, k, ht, hk, hx⟩ := h.occupied ho hx
  obtain ⟨l', k', ht', hk', hy⟩ := h.occupied ho hy
  cases ht.symm.trans ht'
  cases hk.symm.trans hk'
  have hidle : ∀ {id : SendId} {s : Send}, m.sends[id]? = some s → s.stage.opening? = some l →
      k.writer = none := fun hs' hl =>
    h.sound.supplied.connecting _ _ l k hs' (SendStage.connecting?_of_opening? hl) hk
  obtain ⟨rfl, hw⟩ | ⟨id, s, rfl, hs', hl⟩ := hx <;>
    obtain ⟨rfl, hw'⟩ | ⟨id', s', rfl, hs'', hl'⟩ := hy
  · rfl
  · exact absurd (hidle hs'' hl') hw
  · exact absurd (hidle hs' hl) hw'
  · have hh := h.sound.locked.holder hs' (SendStage.held?_of_opening? hl) hk
    have hh' := h.sound.locked.holder hs'' (SendStage.held?_of_opening? hl') hk
    cases hh.symm.trans hh'
    rfl

theorem move_stays_listed (hm : m.move mv = some (m', hs)) (ht : m.links.get? d = some l) :
    m'.links.get? d = some l ∨ m.evicts? mv = some l ∨ m.Clears mv := by
  obtain ⟨m₁, hs₁, he, hr | ⟨rfl, -⟩⟩ := move_effect hm
  · rw [reap_scope hr]
    exact he.stays_listed ht
  · exact he.stays_listed ht

theorem Clears.evicts? (h : m.Clears mv) : m.evicts? mv = none := by
  obtain ⟨i, a, c, ls, rfl, -, -⟩ := h
  rfl

/-- The link table under every schedule, whatever the network and the callers do. A retired link
whose lock is free is not in it; a retired link has no stream, and never gets one again. While the
manager is open, a link that has a stream or for which one is being opened is the one that the table
has for its destination, so that there is one such stream at most. Taking a link out of the table
leaves every other link in it, and apart from that only a closing takes links out. What a call does,
how it fails and what it takes out of the table leave alone the links of other destinations. -/
theorem links_current {address : Endpoint} {config : Config} {clock : Nat} {moves : List Move}
    (h : (new address config clock).run moves = some (m, hs)) :
    (∀ d (l : LinkId) (k : Link), m.links.get? d = some l → m.allLinks[l]? = some k → k.retired = true →
      k.holder ≠ none) ∧
    (∀ (l : LinkId) (k : Link), m.allLinks[l]? = some k → k.retired = true → k.writer = none ∧
      ∀ more m' hs', m.run more = some (m', hs') →
        ∃ k' : Link, m'.allLinks[l]? = some k' ∧ k'.retired = true ∧ k'.writer = none) ∧
    (m.closed = false →
      (∀ (l : LinkId) (k : Link), m.allLinks[l]? = some k →
        (k.writer ≠ none ∨ ∃ (id : SendId) (s : Send), m.sends[id]? = some s ∧
          s.stage.opening? = some l) → m.links.get? k.destination = some l) ∧
      ∀ d x y, m.Occupies d x → m.Occupies d y → x = y) ∧
    (∀ mv m' hs', m.move mv = some (m', hs') →
      (∀ l, m.evicts? mv = some l → ∀ d (i : LinkId), i ≠ l → m.links.get? d = some i →
        m'.links.get? d = some i) ∧
      ∀ d i, m.links.get? d = some i →
        m'.links.get? d = some i ∨ m.evicts? mv = some i ∨ m.Clears mv) ∧
    ∀ mv m' hs', m.move mv = some (m', hs') → ∀ d, m.bound? mv = some d → ∀ d', d' ≠ d →
      m'.links.get? d' = m.links.get? d' ∧
        ∀ (l : LinkId), m.Goes l d' → m'.allLinks[l]? = m.allLinks[l]? := by
  have ht := run_tabled h
  refine ⟨fun d l k hl hk hr => ht.holder hl hk hr, fun l k hk hr => ⟨ht.retiring.idle l k hk hr,
      fun more m' hs' hm => ht.stays_retired hk hr hm⟩,
    fun ho => ⟨fun l k hk hu => ht.current.table ho l k hk (ht.in_use hk hu),
      fun d x y hx hy => ht.unique ho hx hy⟩,
    fun mv m' hs' hm => ⟨fun l hv d i hi hg => ?_, fun d i hg => move_stays_listed hm hg⟩,
    fun mv m' hs' hm d hb d' hn => move_apart hm ht.sound.directed ht.tidy hb hn⟩
  obtain hg' | hv' | hc := move_stays_listed hm hg
  · exact hg'
  · exact absurd (Option.some.inj (hv'.symm.trans hv)) hi
  · cases hv.symm.trans hc.evicts?

/-- The first of two calls does not get through. The second, which has waited for its link, goes on
with a fresh one. -/
theorem links_current_refused :
    let b : Endpoint := ⟨"b", 1⟩
    let work id n := List.replicate n (Move.step (.send id) .none)
    let moves := [.send b [1], .send b [2]] ++ work 0 7 ++ work 1 6 ++
      [.step (.send 0) (.failed ⟨.connectionRefused, .text "refused"⟩)] ++ work 0 1 ++ work 1 7
    ∃ m hs, (new ⟨"a", 2⟩ {} 0).run moves = some (m, hs) ∧ m.links.get? b = some 1 ∧
      (m.allLinks[0]?).map Link.retired = some true ∧ m.Occupies b (.call 1) ∧
      ∀ x, m.Occupies b x → x = .call 1 := by
  intro b work moves
  obtain ⟨⟨m, hs⟩, h⟩ : ∃ o, (new ⟨"a", 2⟩ {} 0).run moves = some o :=
    Option.isSome_iff_exists.mp (by decide +kernel)
  have hview : ((new ⟨"a", 2⟩ {} 0).run moves).map (fun o =>
      (o.1.closed, o.1.links.get? b, (o.1.allLinks[0]?).map Link.retired,
        (o.1.sends[1]?).map Send.destination, (o.1.sends[1]?).bind (·.stage.opening?))) =
      some (false, some 1, some true, some b, some 1) := by decide +kernel
  rw [h] at hview
  obtain ⟨hopen, hlisted, hretired, hto, hcall⟩ :
      m.closed = false ∧ m.links.get? b = some 1 ∧ (m.allLinks[0]?).map Link.retired = some true ∧
      (m.sends[1]?).map Send.destination = some b ∧
      (m.sends[1]?).bind (·.stage.opening?) = some 1 := by simpa using hview
  obtain ⟨s, hs', hl⟩ := Option.bind_eq_some_iff.mp hcall
  have hd : s.destination = b := by simpa [hs'] using hto
  have hocc : m.Occupies b (.call 1) := ⟨s, hs', hd, by simp [hl]⟩
  exact ⟨m, hs, h, hlisted, hretired, hocc,
    fun x hx => ((links_current h).2.2.1 hopen).2 b x _ hx hocc⟩

end PeerLink.Manager
