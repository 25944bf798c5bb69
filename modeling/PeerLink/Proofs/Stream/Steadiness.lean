import PeerLink.Proofs.Stream.Framing

namespace PeerLink.Manager

def SendStage.failsBy : SendStage → Answer → Bool
  | _, .failed _ => true
  | .connecting _ _, .none => true
  | _, _ => false

def letsDown (m : Manager) (d : Endpoint) : Move → Bool
  | .step (.send id) answer =>
    (m.sends[id]?).any fun s => s.destination = d && s.stage.failsBy answer
  | .abandon id => (m.sends[id]?).any (·.destination = d)
  | _ => false

def Kept (m : Manager) (e : Opened) : Prop :=
  (∃ (id : SendId) (s : Send) (unsent : Bytes), m.sends[id]? = some s ∧
    s.stage = .greeting e.link e.stream unsent) ∨ m.OnStream e.link e.stream

structure Steady (d : Endpoint) (m : Manager) : Prop where
  fits : ∀ (id : SendId) s, m.sends[id]? = some s → s.destination = d →
    s.frame.length ≤ Frame.limit m.config.maxFrame
  unfailed : ∀ (id : SendId) s l error, m.sends[id]? = some s → s.stage = .failing l error →
    s.destination ≠ d
  sends : ∀ (id : SendId) s l, m.sends[id]? = some s → s.stage ≠ .linking (.evicting l)
  openings : ∀ (id : Nat) o l, m.openings[id]? = some o → o.stage ≠ .evicting l
  table : ∀ l, m.Goes l d → m.links.get? d = some l

/-- Of the streams that were opened, one at most is for a destination, and that one is in use. -/
structure Sole (d : Endpoint) (m : Manager) (es : List Opened) : Prop where
  kept : ∀ e ∈ es, m.Goes e.link d → m.Kept e
  single : ∀ e ∈ es, ∀ e' ∈ es, m.Goes e.link d → m.Goes e'.link d → e = e'

variable {m m' m₁ : Manager} {mv : Move} {hs ws : List Happening} {l : LinkId} {k : Link}
  {id j : SendId} {s s₁ : Send} {a : Answer} {d : Endpoint} {e : Opened} {es : List Opened}
  {stream : StreamId} {ts : List Transition}

theorem OnStream.untouched (h : m.OnStream l stream) (hu : ∀ k, m.allLinks[l]? = some k →
    Untouched m₁ l k) : m₁.OnStream l stream := by
  obtain ⟨k, w, hk, hw, hs⟩ := h
  obtain ⟨k₁, hk₁, hw₁, -⟩ := hu k hk
  exact ⟨k₁, w, hk₁, hw₁.trans hw, hs⟩

theorem OnStream.modify {f : Link → Link} (hk : m.allLinks[l]? = some k)
    (hw : ∃ w, (f k).writer = some w ∧ w.stream = stream) :
    (m.modifyLink l f).OnStream l stream := by
  obtain ⟨w, hw, hs⟩ := hw
  exact ⟨f k, w, modifyLink_get hk f, hw, hs⟩

theorem SendStep.kept_of_greeting {unsent : Bytes} (hst : SendStep m id s a m₁ hs)
    (hs' : m.sends[id]? = some s) (hd : Directed m) (hc : m.cancelled = false)
    (hf : s.frame.length ≤ Frame.limit m.config.maxFrame) (hn : s.stage.failsBy a = false)
    (he : s.stage = .greeting e.link e.stream unsent) : m₁.Kept e := by
  cases hst with
  | refuse h | reject h | start h | find h | found h | turnAway h | quit h | request h | retry h
  | dial h | drain h | greet h | giveUp h | writeAll h => cases he.symm.trans h
  | cancel _ _ h => cases hc.symm.trans h
  | greetPart h =>
    cases he.symm.trans h
    exact .inl ⟨id, _, _, setSend_get hs' _, rfl⟩
  | place hr =>
    cases hr with
    | atOnce h | drained h => cases he.symm.trans h
    | greeted h =>
      cases he.symm.trans h
      obtain ⟨k, hk, -⟩ := hd.sends id s e.link hs' (by rw [he]; rfl)
      exact .inr (.modify hk ⟨_, rfl, rfl⟩)
  | overflow _ _ h =>
    exact absurd (Frame.encode?_eq_error.mp h).1 (Nat.not_lt.mpr hf)
  | failConnect hu =>
    cases hu with
    | timedOut h | refused h | tooLong h => cases he.symm.trans h
    | broken => exact absurd hn (by simp [SendStage.failsBy])
  | writePart h | failWrite h => obtain h | h := h <;> cases he.symm.trans h

theorem OnStream.keep {i : LinkId} {f : Link → Link} (h : m.OnStream l stream)
    (hf : ∀ k, m.allLinks[l]? = some k → i = l → (f k).writer = k.writer) :
    (m.modifyLink i f).OnStream l stream := by
  obtain ⟨k, w, hk, hw, hs⟩ := h
  by_cases hi : i = l
  · subst hi
    exact .modify hk ⟨w, (hf k hk rfl).trans hw, hs⟩
  · exact ⟨k, w, (List.getElem?_modify_ne _ _ hi).trans hk, hw, hs⟩

theorem OnStream.lookup {m₂ : Manager} {d' : Endpoint} {n n' : Lookup} (h : m.OnStream l stream)
    (hk : LookupStep m d' n m₂ n') : m₂.OnStream l stream :=
  h.untouched fun _ hl => Untouched.lookup hl hk

theorem SendStep.leaves_stream (hst : SendStep m id s a m₁ hs) (hs' : m.sends[id]? = some s)
    (hm : Sound m) (ho : m.OnStream l stream) : m₁.OnStream l stream ∨
      (∃ d error, .warned (.sendFailed d error) ∈ hs) ∧ .released stream ∈ hs := by
  have hready : ∀ {g w ws}, Ready m id s l a g w ws → w.stream = stream := fun hr => by
    obtain ⟨k, v, hk, hv, hvs⟩ := ho
    cases hr with
    | atOnce _ hk' _ _ hw | drained _ hk' hw =>
      cases hk.symm.trans hk'
      cases hv.symm.trans hw
      exact hvs
    | greeted he =>
      cases (hm.supplied.connecting id s l k hs' (by rw [he]; rfl) hk).symm.trans hv
  cases hst with
  | refuse | reject | start | found | turnAway | quit | dial | drain | greet | greetPart =>
    exact .inl ho
  | find _ hf => exact .inl (ho.lookup (lookupStep_cases hf) :)
  | request => exact .inl (ho.keep fun k _ _ => (request_keeps k _).1)
  | cancel | retry => exact .inl (ho.keep fun k _ _ => (leave_keeps k _).1)
  | giveUp =>
    rw [evict_scope]
    exact .inl (ho.keep fun k _ _ => (leave_keeps k _).1)
  | failConnect => exact .inl (ho.keep fun _ _ _ => rfl)
  | @place i _ g w _ bytes hr =>
    left
    by_cases hi : i = l
    · subst hi
      have hw := hready hr
      obtain ⟨k, -, hk, -⟩ := ho
      exact .modify (f := fun k => (g k).append bytes) hk
        ⟨{ w with buffer := w.buffer ++ bytes }, by simp [Link.append, hr.writer hk], hw⟩
    · exact ho.keep fun _ _ h => absurd h hi
  | @overflow i _ _ w ws error hr =>
    by_cases hi : i = l
    · subst hi
      rw [hready hr]
      exact .inr ⟨⟨s.destination, error, by simp⟩, by simp⟩
    · exact .inl (ho.keep fun _ _ h => absurd h hi)
  | @writePart i _ _ count =>
    left
    by_cases hi : i = l
    · subst hi
      obtain ⟨k, w, hk, hw, hws⟩ := ho
      exact .modify (f := (·.consume count)) hk
        ⟨{ w with buffer := w.buffer.drop count }, by simp [Link.consume, hw], hws⟩
    · exact ho.keep fun _ _ h => absurd h hi
  | @writeAll i _ v =>
    left
    by_cases hi : i = l
    · subst hi
      obtain ⟨k, w, hk, hw, hws⟩ := ho
      refine .modify (f := fun k => (k.consume v.buffer.length).leave (.send id)) hk
        ⟨{ w with buffer := w.buffer.drop v.buffer.length }, ?_, hws⟩
      rw [(leave_keeps _ _).1]
      simp [Link.consume, hw]
    · exact ho.keep fun _ _ h => absurd h hi
  | @failWrite i _ _ error _ _ hk' hw' =>
    by_cases hi : i = l
    · subst hi
      obtain ⟨k, w, hk, hw, rfl⟩ := ho
      cases hk.symm.trans hk'
      cases hw.symm.trans hw'
      exact .inr ⟨⟨s.destination, error, by simp⟩, by simp⟩
    · exact .inl (ho.keep fun _ _ h => absurd h hi)

theorem SendStep.unwarned (hst : SendStep m id s a m₁ hs)
    (hf : s.frame.length ≤ Frame.limit m.config.maxFrame) (hn : s.stage.failsBy a = false)
    {error : IoError} : .warned (.sendFailed d error) ∉ hs := by
  intro hw
  cases hst with
  | place hr => cases hr <;> simp at hw
  | overflow _ _ he => exact absurd (Frame.encode?_eq_error.mp he).1 (Nat.not_lt.mpr hf)
  | failConnect hu => cases hu <;> simp at hw
  | failWrite => exact absurd hn (by cases s.stage <;> simp [SendStage.failsBy])
  | cancel | dial | greetPart | writePart | writeAll => simp at hw
  | _ => cases hw

theorem SendStep.kept (hst : SendStep m id s a m₁ hs) (hs' : m.sends[id]? = some s) (hm : Sound m)
    (hc : m.cancelled = false)
    (hf : s.destination = d → s.frame.length ≤ Frame.limit m.config.maxFrame)
    (hn : s.destination = d → s.stage.failsBy a = false) (hg : m.Goes e.link d) (h : m.Kept e) :
    m₁.Kept e := by
  have hgoes : ∀ {l}, s.stage.line? = some l → l = e.link → s.destination = d := by
    rintro l hl rfl
    exact (hm.directed.sends id s _ hs' (SendStage.link?_of_line? hl)).unique hg
  obtain ⟨j, sj, unsent, hj, he⟩ | ho := h
  · by_cases hji : j = id
    · subst hji
      cases hs'.symm.trans hj
      have hd : s.destination = d := hgoes (l := e.link) (by rw [he]; rfl) rfl
      exact hst.kept_of_greeting hs' hm.directed hc (hf hd) (hn hd) he
    · exact .inl ⟨j, sj, unsent, (hst.others hji).trans hj, he⟩
  · right
    by_cases hl : s.stage.line? = some e.link
    · have hd : s.destination = d := hgoes hl rfl
      refine (hst.leaves_stream hs' hm ho).resolve_right ?_
      rintro ⟨⟨_, _, hw⟩, -⟩
      exact hst.unwarned (hf hd) (hn hd) hw
    · refine ho.untouched fun k hk => hst.untouched hs' hm.locked hk fun hh => hl ?_
      exact holder_line hm.locked (Option.bind_eq_some_iff.mpr ⟨k, hk, hh⟩) hs'

theorem LookupStep.steady {d' : Endpoint} {n n' : Lookup} (h : LookupStep m d' n m₁ n')
    (ho : m.closed = false) (hn : ∀ l, n ≠ .evicting l)
    (ht : ∀ l, m.Goes l d → m.links.get? d = some l) :
    (∀ l, n' ≠ .evicting l) ∧ ∀ l, m₁.Goes l d → m₁.links.get? d = some l := by
  cases h with
  | refuse hc | withdraw hc => cases ho.symm.trans hc
  | enter | confirm | meet => exact ⟨nofun, ht⟩
  | evict => exact absurd rfl (hn _)
  | make hl =>
    refine ⟨nofun, ?_⟩
    rintro l ⟨k, hk, rfl⟩
    obtain hk | ⟨rfl, rfl⟩ := getElem?_concat_cases hk
    · have hg := ht l ⟨k, hk, rfl⟩
      have hne : k.destination ≠ d' := by
        rintro rfl
        cases hl.symm.trans hg
      exact (Table.get?_insert hl).trans ((if_neg hne).trans hg)
    · exact (Table.get?_insert hl).trans (if_pos rfl)

theorem SendStep.steady (hst : SendStep m id s a m₁ hs) (hs' : m.sends[id]? = some s)
    (ho : m.closed = false) (h : Steady d m) (hg : m₁.Goes l d) : m₁.links.get? d = some l := by
  have he : Effect m (.step (.send id) a) m₁ hs := .send hs' hst
  have hlt := hg.lt
  cases hst with
  | find hs₀ hk =>
    refine ((lookupStep_cases hk).steady ho (fun l hl => ?_) h.table).2 l hg
    exact h.sends id s l hs' (by rw [hs₀, hl])
  | giveUp hs₀ =>
    have hne : d ≠ s.destination := fun e => h.unfailed id s _ _ hs' hs₀ e.symm
    have hlen : l < m.allLinks.length := by
      rw [evict_scope] at hlt
      simpa [atLink, modifyLink, setSend] using hlt
    exact (evict_get? hne).trans (h.table l (hg.before he hlen))
  | request | cancel | retry | place | overflow | failConnect | writePart | writeAll | failWrite =>
    exact h.table l (hg.before he (by simpa [atLink, modifyLink, setSend] using hlt))
  | _ => exact h.table l hg

/-- A connect fails by the network's answer or by its deadline, if the greeting is not too long. -/
theorem SendStep.failsBy {error : IoError} (hst : SendStep m id s a m₁ hs)
    (hs' : m.sends[id]? = some s) (h₁ : m₁.sends[id]? = some s₁) (he : s₁.stage = .failing l error)
    (hg : (Hello.format.write (.of m.address)).length ≤ Frame.limit m.config.maxFrame) :
    s.stage.failsBy a = true := by
  cases hst with
  | failConnect hu =>
    cases hu with
    | timedOut h =>
      rw [h]
      rfl
    | refused | broken => cases s.stage <;> rfl
    | tooLong _ h =>
      exact absurd (Frame.encode?_eq_error.mp h).1 (Nat.not_lt.mpr hg)
  | writePart h =>
    cases hs'.symm.trans h₁
    obtain h | h := h <;> cases he.symm.trans h
  | find _ hk =>
    rw [lookupStep_scope hk] at h₁
    cases (setSend_get hs' _).symm.trans h₁
    cases he
  | giveUp =>
    rw [evict_scope] at h₁
    cases (setSend_get hs' _).symm.trans h₁
    cases he
  | _ =>
    cases (setSend_get hs' _).symm.trans h₁
    cases he

theorem SendStep.not_evicting (hst : SendStep m id s a m₁ hs) (hs' : m.sends[id]? = some s)
    (ho : m.closed = false) (h : Steady d m) (h₁ : m₁.sends[id]? = some s₁) :
    s₁.stage ≠ .linking (.evicting l) := by
  intro he
  cases hst with
  | find hs₀ hk =>
    rw [lookupStep_scope hk] at h₁
    cases (setSend_get hs' _).symm.trans h₁
    refine ((lookupStep_cases hk).steady ho (fun l hl => ?_) h.table).1 l (SendStage.linking.inj he)
    exact h.sends id s l hs' (by rw [hs₀, hl])
  | writePart h =>
    cases hs'.symm.trans h₁
    obtain h | h := h <;> cases he.symm.trans h
  | giveUp =>
    rw [evict_scope] at h₁
    cases (setSend_get hs' _).symm.trans h₁
    cases he
  | _ =>
    cases (setSend_get hs' _).symm.trans h₁
    cases he

theorem Effect.steady_table (he : Effect m mv m₁ hs) (h : Steady d m) (hf : Flagged m)
    (ho : m.closed = false) (ho₁ : m₁.closed = false) (hg : m₁.Goes l d) :
    m₁.links.get? d = some l := by
  have he' := he
  cases he with
  | aside hm =>
    rw [hm] at hg ⊢
    exact h.table l hg
  | call | ask | finish | drop => exact h.table l hg
  | leave =>
    exact h.table l (hg.before he' (by simpa [atLink, modifyLink, setSend] using hg.lt))
  | send hs' hst => exact hst.steady hs' ho h hg
  | opening hi hk =>
    exact ((lookupStep_cases hk).steady ho (fun l => h.openings _ _ l hi) h.table).2 l hg
  | closing hc hst => cases ho₁.symm.trans (hst.closed (hf.past _ _ hc))

/-- No move gets in the way of sending to a destination, unless it lets a call down. -/
theorem Steady.effect (h : Steady d m) (he : Effect m mv m₁ hs) (hf : Flagged m)
    (ho : m.closed = false) (ho₁ : m₁.closed = false) (hc : m₁.config = m.config)
    (hn : m.letsDown d mv = false)
    (hg : (Hello.format.write (.of m.address)).length ≤ Frame.limit m.config.maxFrame)
    (hfit : ∀ f, mv = .send d f → f.length ≤ Frame.limit m.config.maxFrame) : Steady d m₁ := by
  refine ⟨fun j s₁ h₁ hd => ?_, fun j s₁ l error h₁ hst hd => ?_, fun j s₁ l h₁ hst => ?_,
    fun i o l h₁ hst => ?_, fun l hl => he.steady_table h hf ho ho₁ hl⟩
  · rw [hc]
    obtain ⟨s, hs'⟩ | ⟨-, hmv, -⟩ := he.origin h₁
    · obtain ⟨stage, h₂, -⟩ := he.keeps_call hs'
      cases h₁.symm.trans h₂
      exact h.fits j s hs' hd
    · exact hfit _ (hd ▸ hmv)
  · obtain ⟨h₁, -⟩ | hst' | hst' | ⟨a, s, rfl, hs', hst'⟩ := he.sends h₁
    · exact h.unfailed j s₁ l error h₁ hst hd
    · cases hst.symm.trans hst'
    · cases hst.symm.trans hst'
    · have hfails := hst'.failsBy hs' h₁ hst hg
      obtain ⟨stage, h₂⟩ := hst'.same hs'
      cases h₁.symm.trans h₂
      simp [letsDown, hs', show s.destination = d from hd, hfails] at hn
  · obtain ⟨h₁, -⟩ | hst' | hst' | ⟨a, s, rfl, hs', hst'⟩ := he.sends h₁
    · exact h.sends j s₁ l h₁ hst
    · cases hst.symm.trans hst'
    · cases hst.symm.trans hst'
    · exact hst'.not_evicting hs' ho h h₁ hst
  · obtain h₁ | hst' | ⟨o', m₂, hi, hk⟩ := he.openings h₁
    · exact h.openings i o l h₁ hst
    · cases hst.symm.trans hst'
    · exact (hk.steady ho (fun l => h.openings i o' l hi) h.table).1 l hst

theorem Kept.not_connecting {time : Nat} (h : m.Kept e) (hm : Sound m) (hs' : m.sends[id]? = some s)
    (hst : s.stage = .connecting e.link time) : False := by
  obtain ⟨k, hk, -⟩ := hm.directed.sends id s e.link hs' (by rw [hst]; rfl)
  obtain ⟨j, sj, unsent, hj, he⟩ | ⟨k', w, hk', hw, -⟩ := h
  · have h₁ := hm.locked.holder hs' (l := e.link) (by rw [hst]; rfl) hk
    have h₂ := hm.locked.holder hj (l := e.link) (by rw [he]; rfl) hk
    cases h₁.symm.trans h₂
    cases hs'.symm.trans hj
    cases hst.symm.trans he
  · cases hk.symm.trans hk'
    cases hw.symm.trans (hm.supplied.connecting id s _ k hs' (by rw [hst]; rfl) hk)

theorem SendStep.kept_of_connected {time : Nat} (hst : SendStep m id s (.connected stream) m₁ hs)
    (hs' : m.sends[id]? = some s) (he : s.stage = .connecting l time)
    (hg : (Hello.format.write (.of m.address)).length ≤ Frame.limit m.config.maxFrame) :
    m₁.Kept ⟨stream, l, id⟩ := by
  cases hst with
  | greet h =>
    cases he.symm.trans h
    exact .inl ⟨id, _, _, setSend_get hs' _, rfl⟩
  | failConnect hu =>
    cases hu with
    | tooLong _ h =>
      exact absurd (Frame.encode?_eq_error.mp h).1 (Nat.not_lt.mpr hg)
  | place hr | overflow hr => cases hr

theorem Effect.kept (he : Effect m mv m₁ hs) (h : m.Kept e) (hm : Sound m) (hf : Flagged m)
    (hst : Steady d m) (ho : m.closed = false) (ho₁ : m₁.closed = false)
    (hn : m.letsDown d mv = false) (hg : m.Goes e.link d) : m₁.Kept e := by
  have hc : m.cancelled = false := hf.running ho
  have hstay : (∀ (j : SendId) (s : Send), m.sends[j]? = some s → s.destination = d →
      m₁.sends[j]? = some s) → (m.OnStream e.link e.stream → m₁.OnStream e.link e.stream) →
      m₁.Kept e := by
    refine fun hsame hon => h.imp ?_ hon
    rintro ⟨j, s, unsent, hj, hst⟩
    have hd : s.destination = d := (hm.directed.sends j s e.link hj (by rw [hst]; rfl)).unique hg
    exact ⟨j, s, unsent, hsame j s hj hd, hst⟩
  have hspare : ∀ {id : SendId}, mv = .abandon id → ∀ (j : SendId) (s : Send),
      m.sends[j]? = some s → s.destination = d → j ≠ id := by
    rintro id rfl j s hj hd rfl
    simp [letsDown, hj, hd] at hn
  cases he with
  | aside hm' hv =>
    rw [hm'] at hstay ⊢
    exact hstay (fun j s hj _ => hj) fun hon => hon
  | call =>
    refine hstay (fun j s hj _ => ?_) fun hon => hon
    rw [List.getElem?_append_left (List.getElem?_eq_some_iff.mp hj).1, hj]
  | ask | finish => exact hstay (fun j s hj _ => hj) fun hon => hon
  | @send id s a _ _ hs' hst' =>
    have hn' : s.destination = d → s.stage.failsBy a = false := fun hd => by
      simpa [letsDown, hs', hd] using hn
    exact hst'.kept hs' hm hc (fun hd => hst.fits id s hs' hd) hn' hg h
  | drop =>
    exact hstay (fun j s' hj hd => (setSend_get_ne (hspare rfl j s' hj hd) _).trans hj)
      fun hon => hon
  | leave =>
    refine hstay (fun j s' hj hd => (setSend_get_ne (hspare rfl j s' hj hd) _).trans hj)
      fun hon => ?_
    exact hon.untouched fun k hk => Untouched.modify hk fun _ => leave_keeps k _
  | opening _ hk =>
    refine hstay (fun j s hj _ => ?_) fun hon => ?_
    · rw [lookupStep_scope hk]
      exact hj
    · exact hon.untouched fun k hk' => (Untouched.lookup hk' (lookupStep_cases hk) :)
  | closing hc' hst' => cases ho₁.symm.trans (hst'.closed (hf.past _ _ hc'))

theorem Sole.effect (h : Sole d m es) (he : Effect m mv m₁ hs) (hm : Sound m) (hf : Flagged m)
    (hst : Steady d m) (ho : m.closed = false) (ho₁ : m₁.closed = false)
    (hn : m.letsDown d mv = false)
    (hg : (Hello.format.write (.of m.address)).length ≤ Frame.limit m.config.maxFrame)
    (hes : ∀ e ∈ es, ∃ d', m.Goes e.link d') :
    Sole d m₁ (es ++ (Transition.mk m mv m₁ hs).opened) := by
  have hback : ∀ e ∈ es, m₁.Goes e.link d → m.Goes e.link d := fun e hmem hg => by
    obtain ⟨d', hd'⟩ := hes e hmem
    exact hg.before he hd'.lt
  have hnew : ∀ e ∈ (Transition.mk m mv m₁ hs).opened, m₁.Goes e.link d →
      m₁.Kept e ∧ ∀ e' ∈ es, ¬m₁.Goes e'.link d := by
    intro e hmem hgoes
    obtain ⟨s, time, rfl, hs', hstage⟩ := mem_opened hmem
    obtain ⟨s₀, hs₀, hstep⟩ := he.eq_send
    cases hs'.symm.trans hs₀
    refine ⟨hstep.kept_of_connected hs' hstage hg, fun e' hmem' hgoes' => ?_⟩
    obtain ⟨d', hd'⟩ : ∃ d', m.Goes e.link d' :=
      ⟨_, hm.directed.sends e.send s e.link hs' (by rw [hstage]; rfl)⟩
    have hl := hst.table _ (hgoes.before he hd'.lt)
    have hl' := hst.table _ (hback e' hmem' hgoes')
    have hsame : e'.link = e.link := Option.some.inj (hl'.symm.trans hl)
    exact (h.kept e' hmem' (hback e' hmem' hgoes')).not_connecting hm hs'
      (by rw [hsame]; exact hstage)
  refine ⟨fun e hmem hgoes => ?_, fun e hmem e' hmem' hgoes hgoes' => ?_⟩
  · obtain hmem | hmem := List.mem_append.mp hmem
    · exact he.kept (h.kept e hmem (hback e hmem hgoes)) hm hf hst ho ho₁ hn (hback e hmem hgoes)
    · exact (hnew e hmem hgoes).1
  · obtain hmem | hmem := List.mem_append.mp hmem <;>
      obtain hmem' | hmem' := List.mem_append.mp hmem'
    · exact h.single e hmem e' hmem' (hback e hmem hgoes) (hback e' hmem' hgoes')
    · exact absurd hgoes ((hnew e' hmem' hgoes').2 e hmem)
    · exact absurd hgoes' ((hnew e hmem hgoes).2 e' hmem')
    · exact Option.some.inj ((Option.mem_toList.mp hmem).symm.trans (Option.mem_toList.mp hmem'))

theorem Steady.reap {o : Manager × List Happening} (h : Steady d o.1) (hr : reap o = (m', hs)) :
    Steady d m' := by
  have hsc := reap_scope hr
  refine ⟨?_, ?_, ?_, ?_, fun l hl => ?_⟩
  · rw [hsc]
    exact h.fits
  · rw [hsc]
    exact h.unfailed
  · rw [hsc]
    exact h.sends
  · rw [hsc]
    exact h.openings
  · have ht := h.table l (hl.of_reap hr)
    rw [hsc]
    exact ht

theorem Sole.reap {o : Manager × List Happening} (h : Sole d o.1 es) (hst : Steady d o.1)
    (hr : reap o = (m', hs)) : Sole d m' es := by
  refine ⟨fun e hmem hg => ?_, fun e hmem e' hmem' hg hg' =>
    h.single e hmem e' hmem' (hg.of_reap hr) (hg'.of_reap hr)⟩
  have hg := hg.of_reap hr
  refine (h.kept e hmem hg).imp ?_ ?_
  · rw [reap_scope hr]
    exact id
  · rintro ⟨k, w, hk, hw⟩
    exact ⟨k, w, (reap_of_refersTo hr (refersTo_of_table (hst.table _ hg))).trans hk, hw⟩

theorem Steady.move (h : Steady d m) (hes : Sole d m (openedStreams ts)) (hacc : Accounted m ts)
    (hf : Flagged m) (hm : m.move mv = some (m', hs)) (ho : m'.closed = false)
    (hn : m.letsDown d mv = false)
    (hg : (Hello.format.write (.of m.address)).length ≤ Frame.limit m.config.maxFrame)
    (hfit : ∀ f, mv = .send d f → f.length ≤ Frame.limit m.config.maxFrame) :
    Steady d m' ∧ Sole d m' (openedStreams (ts ++ [⟨m, mv, m', hs⟩])) := by
  have hl := move_later hm
  have ho₀ : m.closed = false := hl.opened ho
  have hmade : ∀ e ∈ openedStreams ts, ∃ d', m.Goes e.link d' := fun e he => by
    obtain ⟨s, -, hg⟩ := hacc.dialled e he
    exact ⟨_, hg⟩
  rw [openedStreams_concat]
  obtain ⟨m₁, hs₁, he, hr | ⟨rfl, rfl⟩⟩ := move_effect hm
  · have hsc := reap_scope hr
    have ho₁ : m₁.closed = false := by
      rw [hsc] at ho
      exact ho
    have hc : m₁.config = m.config := by
      rw [← hl.config, hsc]
    have h₁ := h.effect he hf ho₀ ho₁ hc hn hg hfit
    exact ⟨h₁.reap hr, (hes.effect he hacc.sound hf h ho₀ ho₁ hn hg hmade).reap h₁ hr⟩
  · exact ⟨h.effect he hf ho₀ ho hl.config hn hg hfit,
      hes.effect he hacc.sound hf h ho₀ ho hn hg hmade⟩

end PeerLink.Manager
