import PeerLink.Proofs.Manager.Directions

namespace PeerLink.Manager

def ClosingStage.line? : ClosingStage → Option LinkId
  | .queued l _ => some l
  | _ => none

def lineOf (m : Manager) : Waiter → Option LinkId
  | .send id => (m.sends[id]?).bind (·.stage.line?)
  | .closing id => (m.closings[id]?).bind (·.stage.line?)

def heldBy (m : Manager) : Waiter → Option LinkId
  | .send id => (m.sends[id]?).bind (·.stage.held?)
  | .closing _ => none

/-- The lines before the locks agree with the stages of those who stand in them. -/
structure Locked (m : Manager) : Prop where
  orderly : ∀ (l : LinkId) (k : Link), m.allLinks[l]? = some k → k.Orderly
  line : ∀ (l : LinkId) (k : Link) w, m.allLinks[l]? = some k → (w ∈ k.line ↔ m.lineOf w = some l)
  made : ∀ w l, m.lineOf w = some l → l < m.allLinks.length
  held : ∀ w l (k : Link), m.heldBy w = some l → m.allLinks[l]? = some k → k.holder = some w

variable {m m' m₁ : Manager} {mv : Move} {hs : List Happening} {l : LinkId} {w : Waiter}
  {f : Link → Link}

theorem lineOf_of_heldBy (h : m.heldBy w = some l) : m.lineOf w = some l := by
  cases w with
  | send id =>
    obtain ⟨s, hs, hl⟩ := Option.bind_eq_some_iff.mp h
    exact Option.bind_eq_some_iff.mpr ⟨s, hs, SendStage.line?_of_held? hl⟩
  | closing id => cases h

theorem lineOf_send {id : SendId} {s : Send} (hs : m.sends[id]? = some s) :
    m.lineOf (.send id) = s.stage.line? := by
  rw [lineOf, hs]
  rfl

theorem heldBy_send {id : SendId} {s : Send} (hs : m.sends[id]? = some s) :
    m.heldBy (.send id) = s.stage.held? := by
  rw [heldBy, hs]
  rfl

theorem lineOf_closing {id : ClosingId} {c : Closing} (hc : m.closings[id]? = some c) :
    m.lineOf (.closing id) = c.stage.line? := by
  rw [lineOf, hc]
  rfl

def Elsewhere (m m₁ : Manager) (w : Waiter) : Prop :=
  ∀ v, v ≠ w → m₁.lineOf v = m.lineOf v ∧ m₁.heldBy v = m.heldBy v

namespace Locked

theorem new (address : Endpoint) (config : Config) (clock : Nat) :
    Locked (new address config clock) := by
  constructor
  · intro l k hk
    simp [Manager.new] at hk
  · intro l k w hk
    simp [Manager.new] at hk
  · intro w l hw
    cases w <;> simp [Manager.new, lineOf] at hw
  · intro w l k _ hk
    simp [Manager.new] at hk

/-- Nobody changes place, and who has been given a lock had it. -/
theorem stay (h : Locked m) (hn : m.allLinks.length ≤ m₁.allLinks.length)
    (hl : ∀ (l : LinkId) (k₁ : Link), m₁.allLinks[l]? = some k₁ →
      ∃ k : Link, m.allLinks[l]? = some k ∧ k₁.holder = k.holder ∧ k₁.queue = k.queue)
    (hw : ∀ v, m₁.lineOf v = m.lineOf v)
    (hh : ∀ v l (k : Link), m₁.heldBy v = some l → m.allLinks[l]? = some k → k.holder = some v) :
    Locked m₁ := by
  refine ⟨fun l k₁ hk₁ => ?_, fun l k₁ w hk₁ => ?_, fun w l hl => ?_, fun w l k₁ hw hk₁ => ?_⟩
  · obtain ⟨k, hk, hho, hq⟩ := hl l k₁ hk₁
    exact (h.orderly l k hk).congr hho hq
  · obtain ⟨k, hk, hho, hq⟩ := hl l k₁ hk₁
    rw [hw, ← h.line l k w hk, Link.line, hho, hq]
    rfl
  · rw [hw] at hl
    exact Nat.lt_of_lt_of_le (h.made w l hl) hn
  · obtain ⟨k, hk, hho, -⟩ := hl l k₁ hk₁
    rw [hho]
    exact hh w l k hw hk

theorem same (h : Locked m) (hl : m₁.allLinks = m.allLinks) (hw : ∀ v, m₁.lineOf v = m.lineOf v)
    (hh : ∀ v, m₁.heldBy v = m.heldBy v) : Locked m₁ := by
  refine h.stay (hl ▸ Nat.le_refl _) (fun l k₁ hk₁ => ?_) hw fun v l k hv hk => ?_
  · rw [hl] at hk₁
    exact ⟨k₁, hk₁, rfl, rfl⟩
  · rw [hh] at hv
    exact h.held v l k hv hk

theorem grow {d : Endpoint} (h : Locked m)
    (hl : m₁.allLinks = m.allLinks ++ [{ destination := d }]) (hw : ∀ v, m₁.lineOf v = m.lineOf v)
    (hh : ∀ v, m₁.heldBy v = m.heldBy v) : Locked m₁ := by
  have hnew : ∀ w, m.lineOf w ≠ some m.allLinks.length :=
    fun w hw => absurd (h.made w _ hw) (Nat.lt_irrefl _)
  refine ⟨fun l k₁ hk₁ => ?_, fun l k₁ w hk₁ => ?_, fun w l hl' => ?_, fun w l k₁ hw' hk₁ => ?_⟩
  · rw [hl] at hk₁
    obtain hk | ⟨-, rfl⟩ := getElem?_concat_cases hk₁
    · exact h.orderly l k₁ hk
    · exact ⟨fun _ => rfl, List.nodup_nil⟩
  · rw [hl] at hk₁
    rw [hw]
    obtain hk | ⟨rfl, rfl⟩ := getElem?_concat_cases hk₁
    · exact h.line l k₁ w hk
    · exact ⟨nofun, fun hw' => absurd hw' (hnew w)⟩
  · rw [hw] at hl'
    rw [hl, List.length_append]
    exact Nat.lt_succ_of_lt (h.made w l hl')
  · rw [hh] at hw'
    rw [hl] at hk₁
    obtain hk | ⟨rfl, -⟩ := getElem?_concat_cases hk₁
    · exact h.held w l k₁ hw' hk
    · exact absurd (lineOf_of_heldBy hw') (hnew w)

theorem enter (h : Locked m) (hl : m₁.allLinks = m.allLinks.modify l (·.request w))
    (ho : Elsewhere m m₁ w) (hw : m.lineOf w = none) (hw₁ : m₁.lineOf w = some l)
    (hh : m₁.heldBy w = none) (hlt : l < m.allLinks.length) : Locked m₁ := by
  have hout : ∀ (l : LinkId) (k : Link), m.allLinks[l]? = some k → w ∉ k.line := fun l k hk hm => by
    rw [h.line l k w hk, hw] at hm
    cases hm
  refine ⟨fun j k₁ hk₁ => ?_, fun j k₁ v hk₁ => ?_, fun v j hj => ?_, fun v j k₁ hv hk₁ => ?_⟩
  · rw [hl] at hk₁
    obtain ⟨k, hk, ⟨rfl, rfl⟩ | ⟨-, rfl⟩⟩ := getElem?_modify_cases hk₁
    · exact (h.orderly j k hk).request (hout j k hk)
    · exact h.orderly j k₁ hk
  · rw [hl] at hk₁
    obtain ⟨k, hk, hj⟩ := getElem?_modify_cases hk₁
    by_cases hv : v = w
    · subst hv
      rw [hw₁]
      obtain ⟨rfl, rfl⟩ | ⟨hj, rfl⟩ := hj
      · simp [Link.line_request (h.orderly j k hk)]
      · simpa [hout j k₁ hk] using fun e => hj e.symm
    · rw [(ho v hv).1, ← h.line j k v hk]
      obtain ⟨rfl, rfl⟩ | ⟨-, rfl⟩ := hj
      · simp [Link.line_request (h.orderly j k hk), hv]
      · rfl
  · rw [hl, List.length_modify]
    by_cases hv : v = w
    · subst hv
      cases hw₁.symm.trans hj
      exact hlt
    · rw [(ho v hv).1] at hj
      exact h.made v j hj
  · have hvw : v ≠ w := by
      rintro rfl
      cases hh.symm.trans hv
    rw [(ho v hvw).2] at hv
    rw [hl] at hk₁
    obtain ⟨k, hk, ⟨rfl, rfl⟩ | ⟨-, rfl⟩⟩ := getElem?_modify_cases hk₁
    · exact Link.holder_request (h.held v j k hv hk)
    · exact h.held v j k₁ hv hk

theorem leave {g : Link → Link} (h : Locked m)
    (hl : m₁.allLinks = m.allLinks.modify l fun k => (g k).leave w)
    (hg : ∀ k, (g k).holder = k.holder ∧ (g k).queue = k.queue) (ho : Elsewhere m m₁ w)
    (hw : m.lineOf w = some l) (hw₁ : m₁.lineOf w = none) : Locked m₁ := by
  have hgo : ∀ k, m.allLinks[l]? = some k → (g k).Orderly :=
    fun k hk => (h.orderly l k hk).congr (hg k).1 (hg k).2
  have hgl : ∀ k : Link, (g k).line = k.line := fun k => by
    rw [Link.line, (hg k).1, (hg k).2]
    rfl
  refine ⟨fun j k₁ hk₁ => ?_, fun j k₁ v hk₁ => ?_, fun v j hj => ?_, fun v j k₁ hv hk₁ => ?_⟩
  · rw [hl] at hk₁
    obtain ⟨k, hk, ⟨rfl, rfl⟩ | ⟨-, rfl⟩⟩ := getElem?_modify_cases hk₁
    · exact (hgo k hk).leave
    · exact h.orderly j k₁ hk
  · rw [hl] at hk₁
    obtain ⟨k, hk, hj⟩ := getElem?_modify_cases hk₁
    by_cases hv : v = w
    · subst hv
      rw [hw₁]
      obtain ⟨rfl, rfl⟩ | ⟨hj, rfl⟩ := hj
      · simp [Link.mem_line_leave (hgo k hk)]
      · rw [h.line j k₁ v hk, hw]
        simpa using fun e => hj e.symm
    · rw [(ho v hv).1, ← h.line j k v hk]
      obtain ⟨rfl, rfl⟩ | ⟨-, rfl⟩ := hj
      · simp [Link.mem_line_leave (hgo k hk), hv, hgl]
      · rfl
  · rw [hl, List.length_modify]
    have hv : v ≠ w := by
      rintro rfl
      cases hw₁.symm.trans hj
    rw [(ho v hv).1] at hj
    exact h.made v j hj
  · have hvw : v ≠ w := by
      rintro rfl
      cases hw₁.symm.trans (lineOf_of_heldBy hv)
    rw [(ho v hvw).2] at hv
    rw [hl] at hk₁
    obtain ⟨k, hk, ⟨rfl, rfl⟩ | ⟨-, rfl⟩⟩ := getElem?_modify_cases hk₁
    · exact Link.holder_leave hvw ((hg k).1.trans (h.held v j k hv hk))
    · exact h.held v j k₁ hv hk

/-- Finding a link, whoever looks for it, changes no line. -/
theorem lookup {m₂ : Manager} {d : Endpoint} {k k' : Lookup} (h : Locked m)
    (hk : LookupStep m d k m₂ k') (hl : m₁.allLinks = m₂.allLinks)
    (hw : ∀ v, m₁.lineOf v = m.lineOf v) (hh : ∀ v, m₁.heldBy v = m.heldBy v) : Locked m₁ := by
  cases hk with
  | make => exact h.grow hl hw hh
  | evict =>
    rw [evict_scope] at hl
    exact h.same hl hw hh
  | _ => exact h.same hl hw hh

theorem reap {o : Manager × List Happening} (h : Locked o.1) (hr : reap o = (m', hs)) :
    Locked m' := by
  have hsc := reap_scope hr
  have hw : ∀ v, m'.lineOf v = o.1.lineOf v := by
    intro v
    rw [hsc]
    cases v <;> rfl
  have hh : ∀ v, m'.heldBy v = o.1.heldBy v := by
    intro v
    rw [hsc]
    cases v <;> rfl
  refine h.stay (reap_length hr ▸ Nat.le_refl _) (fun l k₁ hk₁ => ?_) hw fun v l k hv hk => ?_
  · obtain ⟨k, hk, ⟨rfl, -⟩ | ⟨-, rfl⟩⟩ := reap_link hr hk₁ <;> exact ⟨_, hk, rfl, rfl⟩
  · rw [hh] at hv
    exact h.held v l k hv hk

end Locked

section SendStep

variable {id : SendId} {s s₁ : Send} {a : Answer}

theorem elsewhere_of_sends (hs : ∀ j ≠ id, m₁.sends[j]? = m.sends[j]?)
    (hc : m₁.closings = m.closings) : Elsewhere m m₁ (.send id) := by
  intro v hv
  cases v with
  | send j =>
    have hj : j ≠ id := fun e => hv (e ▸ rfl)
    simp only [lineOf, heldBy, hs j hj, and_self]
  | closing j =>
    simp only [lineOf, heldBy, hc, and_self]

theorem SendStep.elsewhere (h : SendStep m id s a m₁ hs) : Elsewhere m m₁ (.send id) :=
  elsewhere_of_sends (fun _ hj => h.others hj) (by rw [h.scope])

theorem Ready.keeps {g : Link → Link} {w : Writer} (h : Ready m id s l a g w hs) (k : Link) :
    (g k).holder = k.holder ∧ (g k).queue = k.queue := by
  cases h <;> exact ⟨rfl, rfl⟩

theorem Locked.holder (h : Locked m) (hs' : m.sends[id]? = some s) (hh : s.stage.held? = some l)
    {k : Link} (hk : m.allLinks[l]? = some k) : k.holder = some (.send id) :=
  h.held (.send id) l k ((heldBy_send hs').trans hh) hk

/-- A call that writes its frame has the lock. -/
theorem Ready.holder {g : Link → Link} {w : Writer} {k : Link} (hr : Ready m id s l a g w hs)
    (h : Locked m) (hs' : m.sends[id]? = some s) (hk : m.allLinks[l]? = some k) :
    k.holder = some (.send id) := by
  cases hr with
  | atOnce _ hl hh =>
    cases hl.symm.trans hk
    exact hh
  | greeted he | drained he =>
    refine h.holder hs' ?_ hk
    rw [he]
    rfl

theorem Locked.stay_send (h : Locked m) (hs' : m.sends[id]? = some s)
    (ho : Elsewhere m m₁ (.send id)) (h₁ : m₁.sends[id]? = some s₁)
    (hline : s₁.stage.line? = s.stage.line?) (hn : m.allLinks.length ≤ m₁.allLinks.length)
    (hl : ∀ (l : LinkId) (k₁ : Link), m₁.allLinks[l]? = some k₁ →
      ∃ k : Link, m.allLinks[l]? = some k ∧ k₁.holder = k.holder ∧ k₁.queue = k.queue)
    (hh : ∀ l (k : Link), s₁.stage.held? = some l → m.allLinks[l]? = some k →
      k.holder = some (.send id)) : Locked m₁ := by
  refine h.stay hn hl (fun v => ?_) fun v l k hv hk => ?_
  · by_cases hv : v = .send id
    · rw [hv, lineOf_send hs', lineOf_send h₁, hline]
    · exact (ho v hv).1
  · by_cases hvi : v = .send id
    · subst hvi
      rw [heldBy_send h₁] at hv
      exact hh l k hv hk
    · rw [(ho v hvi).2] at hv
      exact h.held v l k hv hk

theorem keeps_modify {f : Link → Link} (hf : ∀ k, (f k).holder = k.holder ∧ (f k).queue = k.queue)
    (i l : LinkId) (k₁ : Link) (hk₁ : (m.allLinks.modify i f)[l]? = some k₁) :
    ∃ k : Link, m.allLinks[l]? = some k ∧ k₁.holder = k.holder ∧ k₁.queue = k.queue := by
  obtain ⟨k, hk, ⟨-, rfl⟩ | ⟨-, rfl⟩⟩ := getElem?_modify_cases hk₁
  · exact ⟨k, hk, hf k⟩
  · exact ⟨k₁, hk, rfl, rfl⟩

theorem SendStep.locked (hst : SendStep m id s a m₁ hs) (hs' : m.sends[id]? = some s)
    (h : Locked m) (hd : Directed m) : Locked m₁ := by
  have ho := hst.elsewhere
  have hsame : ∀ (l : LinkId) (k₁ : Link), m.allLinks[l]? = some k₁ →
      ∃ k : Link, m.allLinks[l]? = some k ∧ k₁.holder = k.holder ∧ k₁.queue = k.queue :=
    fun _ k₁ hk₁ => ⟨k₁, hk₁, rfl, rfl⟩
  have hkeeps : ∀ l (k : Link), s.stage.held? = some l → m.allLinks[l]? = some k →
      k.holder = some (.send id) := fun l k hl hk => h.holder hs' hl hk
  have hlength : ∀ l (f : Link → Link), m.allLinks.length ≤ (m.allLinks.modify l f).length :=
    fun l f => Nat.le_of_eq (List.length_modify f _ l).symm
  cases hst with
  | refuse he | reject he | start he | found he | turnAway he | quit he =>
    exact h.stay_send hs' ho (setSend_get hs' _) (by rw [he]; rfl) (Nat.le_refl _) hsame nofun
  | @find k k' m₂ he hk =>
    have hg : (m₂.setSend id (.linking k')).sends[id]? = some { s with stage := .linking k' } := by
      rw [lookupStep_scope hk]
      exact setSend_get hs' _
    have hw : ∀ v, (m₂.setSend id (.linking k')).lineOf v = m.lineOf v := fun v => by
      by_cases hv : v = .send id
      · rw [hv, lineOf_send hg, lineOf_send hs', he]
        rfl
      · exact (ho v hv).1
    have hh : ∀ v, (m₂.setSend id (.linking k')).heldBy v = m.heldBy v := fun v => by
      by_cases hv : v = .send id
      · rw [hv, heldBy_send hg, heldBy_send hs', he]
        rfl
      · exact (ho v hv).2
    exact h.lookup (lookupStep_cases hk) rfl hw hh
  | @request l he =>
    obtain ⟨k, hk, -⟩ := hd.sends id s l hs' (by rw [he]; rfl)
    refine h.enter rfl ho ((lineOf_send hs').trans (by rw [he]; rfl))
      (lineOf_send (setSend_get hs' _)) (heldBy_send (setSend_get hs' _)) ?_
    exact (List.getElem?_eq_some_iff.mp hk).1
  | @cancel l hl =>
    exact h.leave rfl (fun _ => ⟨rfl, rfl⟩) ho ((lineOf_send hs').trans hl)
      (lineOf_send (setSend_get hs' _))
  | @retry l _ he =>
    exact h.leave rfl (fun _ => ⟨rfl, rfl⟩) ho ((lineOf_send hs').trans (by rw [he]; rfl))
      (lineOf_send (setSend_get hs' _))
  | @dial l _ he _ hk hh | @drain l _ _ he _ hk hh =>
    refine h.stay_send hs' ho (setSend_get hs' _) (by rw [he]; rfl) (Nat.le_refl _) hsame ?_
    intro l' k hl' hk'
    cases hl'
    cases hk.symm.trans hk'
    exact hh
  | greet he | greetPart he =>
    refine h.stay_send hs' ho (setSend_get hs' _) (by rw [he]; rfl) (Nat.le_refl _) hsame ?_
    intro l k hl hk
    exact hkeeps l k (by rw [he]; exact hl) hk
  | @place l _ g _ _ bytes hr =>
    refine h.stay_send hs' ho (setSend_get hs' _) hr.line?.symm (hlength _ _)
      (keeps_modify (f := fun k => (g k).append bytes) (fun k => hr.keeps k) _) ?_
    intro l k hl hk
    cases hl
    exact hr.holder h hs' hk
  | @overflow l _ g _ _ _ hr =>
    exact h.leave (g := fun k => (g k).disconnect) rfl (fun k => hr.keeps k) ho
      ((lineOf_send hs').trans hr.line?) (lineOf_send (setSend_get hs' _))
  | @failConnect l _ _ _ hu =>
    refine h.stay_send hs' ho (setSend_get hs' _) (SendStage.line?_of_held? hu.held?).symm
      (hlength _ _) (keeps_modify (f := Link.retire) (fun k => ⟨rfl, rfl⟩) _) ?_
    intro l k hl hk
    cases hl
    exact hkeeps _ k hu.held? hk
  | @giveUp l _ he =>
    have hg : (m.evict s.destination l).sends[id]? = some s := by
      rw [evict_scope]
      exact hs'
    refine h.leave (l := l) (g := fun k => k) ?_ (fun _ => ⟨rfl, rfl⟩) ho
      ((lineOf_send hs').trans (by rw [he]; rfl)) (lineOf_send (setSend_get hg _))
    rw [evict_scope]
    rfl
  | @writePart l _ _ count he =>
    exact h.stay_send hs' ho hs' rfl (hlength _ _)
      (keeps_modify (f := (·.consume count)) (fun k => ⟨rfl, rfl⟩) _) hkeeps
  | @writeAll l k w he =>
    exact h.leave (g := fun k => k.consume _) rfl (fun _ => ⟨rfl, rfl⟩) ho
      ((lineOf_send hs').trans (by rw [he]; rfl)) (lineOf_send (setSend_get hs' _))
  | @failWrite l _ _ _ he =>
    refine h.leave (g := fun k => k.disconnect) rfl (fun _ => ⟨rfl, rfl⟩) ho
      ((lineOf_send hs').trans ?_) (lineOf_send (setSend_get hs' _))
    obtain he | he := he <;> rw [he] <;> rfl

end SendStep

section ClosingStep

variable {id : ClosingId} {c c₁ : Closing} {a : Answer}

theorem ClosingStep.elsewhere (h : ClosingStep m id c a m₁ hs) : Elsewhere m m₁ (.closing id) := by
  intro v hv
  cases v with
  | closing j =>
    have hj : j ≠ id := fun e => hv (e ▸ rfl)
    simp only [lineOf, heldBy, h.others hj, and_self]
  | send j =>
    rw [h.scope]
    exact ⟨rfl, rfl⟩

theorem Locked.stay_closing (h : Locked m) (hc : m.closings[id]? = some c)
    (ho : Elsewhere m m₁ (.closing id)) (h₁ : m₁.closings[id]? = some c₁)
    (hline : c.stage.line? = none) (hline₁ : c₁.stage.line? = none)
    (hl : m₁.allLinks = m.allLinks) : Locked m₁ := by
  refine h.same hl (fun v => ?_) fun v => ?_
  · by_cases hv : v = .closing id
    · rw [hv, lineOf_closing hc, lineOf_closing h₁, hline, hline₁]
    · exact (ho v hv).1
  · by_cases hv : v = .closing id
    · rw [hv]
      rfl
    · exact (ho v hv).2

theorem ClosingStep.locked (hst : ClosingStep m id c a m₁ hs) (hc : m.closings[id]? = some c)
    (h : Locked m) (hd : Directed m) : Locked m₁ := by
  have ho := hst.elsewhere
  cases hst with
  | again he | swap he | cancel he | collect he | await he | flushPart he | flushEnd he | done he
  | giveUp he =>
    exact h.stay_closing hc ho (setClosing_get hc _) (by rw [he]; rfl) rfl rfl
  | clearObservers he hn =>
    rw [clearObservers_scope] at ho ⊢
    refine h.stay_closing hc ho (setClosing_get hc _) (by rw [he]; rfl) ?_ rfl
    obtain ⟨-, rfl⟩ | ⟨-, rfl⟩ := hn <;> rfl
  | clearLinks he hn =>
    refine h.stay_closing hc ho (setClosing_get hc _) (by rw [he]; rfl) ?_ rfl
    obtain ⟨-, rfl⟩ | ⟨-, rfl⟩ := hn <;> rfl
  | @request l ls he =>
    obtain ⟨d, k, hk, -⟩ := hd.closings id c l hc (by rw [he]; exact List.mem_cons_self)
    exact h.enter rfl ho ((lineOf_closing hc).trans (by rw [he]; rfl))
      (lineOf_closing (setClosing_get hc _)) rfl (List.getElem?_eq_some_iff.mp hk).1
  | retireIdle he | retireBusy he =>
    exact h.leave (g := Link.shutDown) rfl (fun _ => ⟨rfl, rfl⟩) ho
      ((lineOf_closing hc).trans (by rw [he]; rfl)) (lineOf_closing (setClosing_get hc _))

end ClosingStep

theorem bind_concat {α β : Type} {xs : List α} {a : α} {p : α → Option β} (h : p a = none)
    (i : Nat) : ((xs ++ [a])[i]?).bind p = (xs[i]?).bind p := by
  rw [List.getElem?_append]
  split
  · rfl
  · next hi =>
    have hx : xs[i]? = none := List.getElem?_eq_none (by omega)
    rw [hx]
    cases i - xs.length with
    | zero => exact h
    | succ j => rfl

theorem Locked.effect (h : Locked m) (hd : Directed m) (he : Effect m mv m₁ hs) : Locked m₁ := by
  cases he with
  | aside hm =>
    rw [hm]
    exact h.same rfl (fun v => by cases v <;> rfl) fun v => by cases v <;> rfl
  | call =>
    refine h.same rfl (fun v => ?_) fun v => ?_
    · cases v with
      | send id => exact bind_concat rfl id
      | closing id => rfl
    · cases v with
      | send id => exact bind_concat rfl id
      | closing id => rfl
  | ask => exact h.same rfl (fun v => by cases v <;> rfl) fun v => by cases v <;> rfl
  | finish =>
    refine h.same rfl (fun v => ?_) fun v => by cases v <;> rfl
    cases v with
    | send id => rfl
    | closing id => exact bind_concat rfl id
  | send hs' hst => exact hst.locked hs' h hd
  | closing hc hst => exact hst.locked hc h hd
  | opening _ hk =>
    refine h.lookup (lookupStep_cases hk) rfl (fun v => ?_) fun v => ?_
    · rw [lookupStep_scope hk]
      cases v <;> rfl
    · rw [lookupStep_scope hk]
      cases v <;> rfl
  | drop hs' he =>
    refine h.stay_send hs' (elsewhere_of_sends (fun _ hj => setSend_get_ne hj _) rfl)
      (setSend_get hs' _) (by rw [he]; rfl) (Nat.le_refl _) (fun _ k hk => ⟨k, hk, rfl, rfl⟩) nofun
  | leave hs' hl =>
    exact h.leave rfl (fun _ => ⟨rfl, rfl⟩)
      (elsewhere_of_sends (fun _ hj => setSend_get_ne hj _) rfl)
      ((lineOf_send hs').trans hl) (lineOf_send (setSend_get hs' _))

end PeerLink.Manager
