import PeerLink.Proofs.Frame.Parsing
import PeerLink.Proofs.Stream.Ledger

namespace PeerLink.Manager

variable {m m' m₁ : Manager} {mv : Move} {hs ws : List Happening} {l : LinkId} {k : Link}
  {id : SendId} {s : Send} {a : Answer} {o o₀ o₁ : Owner} {x y : Holding} {stream : StreamId}

def Transition.placed (t : Transition) : List Placement := t.placement?.toList

def Transition.opened (t : Transition) : List Opened := t.opened?.toList

/-- A writing end after a move, given the bytes that were written and the frame that was put behind
those that wait. -/
structure Turned (x y : Holding) (taken : Bytes) (ps : List Placement) : Prop where
  stream : y.writer.stream = x.writer.stream
  link : y.link = x.link ∨ y.link = none
  buffer : x.writer.buffer ++ (ps.map Placement.frame).flatMap Frame.encode =
    taken ++ y.writer.buffer

inductive Posting (t : Transition) : Prop where
  | keep (hh : ∀ o x, t.after.holdingOf o = some x → t.before.holdingOf o = some x)
    (hw : ∀ s, written s t.happenings = []) (hp : t.placed = [])
  | turn {o₀ : Owner} {x : Holding} (o₁ : Owner) (taken : Bytes)
    (h₀ : t.before.holdingOf o₀ = some x)
    (hh : ∀ o y, t.after.holdingOf o = some y →
      o = o₁ ∧ Turned x y taken t.placed ∨ o ≠ o₀ ∧ t.before.holdingOf o = some y)
    (hw : ∀ s, written s t.happenings = if s = x.writer.stream then taken else [])
    (ht : taken <+: x.writer.buffer)
    (hp : ∀ p ∈ t.placed, p.stream = x.writer.stream ∧ x.link = some p.link)
  | fresh {e : Opened} (he : t.opened = [e])
    (hh : ∀ o y, t.after.holdingOf o = some y →
      o = .call e.send ∧ y = ⟨⟨e.stream, greeting t.before.address⟩, some e.link⟩ ∨
        t.before.holdingOf o = some y)
    (hw : ∀ s, written s t.happenings = []) (hp : t.placed = [])

theorem mem_opened {t : Transition} {e : Opened} (h : e ∈ t.opened) :
    ∃ s time, t.move = .step (.send e.send) (.connected e.stream) ∧
      t.before.sends[e.send]? = some s ∧ s.stage = .connecting e.link time := by
  have h := Option.mem_toList.mp h
  simp only [Transition.opened?] at h
  split at h
  · next hmv =>
    split at h
    · next hst =>
      cases h
      obtain ⟨s, hs', hst⟩ := Option.map_eq_some_iff.mp hst
      exact ⟨s, _, hmv, hs', hst⟩
    · cases h
  · cases h

theorem placed_eq_nil (h : ∀ id a, mv ≠ .step (.send id) a) :
    (Transition.mk m mv m₁ hs).placed = [] := by
  rw [Transition.placed, Transition.placement?]
  split
  · next id a he => exact absurd he (h id a)
  · rfl

theorem placed_send :
    (Transition.mk m (.step (.send id) a) m₁ hs).placed = (placed? m m₁ id).toList := rfl

theorem placed_setSend {stage : SendStage} {m₂ : Manager} (h : stage.flushing? = none) :
    (Transition.mk m (.step (.send id) a) (m₂.setSend id stage) hs).placed = [] := by
  rw [placed_send, placed?_setSend h]
  rfl

theorem atLink_keep {f : Link → Link} {stage : SendStage} (hs' : m.sends[id]? = some s)
    (hf : ∀ k, (f k).writer = k.writer ∨ (f k).writer = none) (hst : stage.holding? = none)
    (h : (m.atLink id l f stage).holdingOf o = some x) : m.holdingOf o = some x := by
  obtain ⟨-, h⟩ | ⟨k, w, rfl, hk, hw, rfl⟩ | ⟨-, -, h⟩ := holdingOf_atLink hs' h
  · cases hst.symm.trans h
  · apply holdingOf_link.mpr
    obtain hf | hf := hf k
    · exact ⟨k, w, hk, hf ▸ hw, rfl⟩
    · cases hf.symm.trans hw
  · exact h

theorem setSend_keep {stage : SendStage} (hs' : m.sends[id]? = some s)
    (hst : stage.holding? = none) (h : (m.setSend id stage).holdingOf o = some x) :
    m.holdingOf o = some x := by
  obtain ⟨-, h⟩ | ⟨-, h⟩ := holdingOf_setSend hs' h
  · cases hst.symm.trans h
  · exact h

theorem setClosing_keep {c : ClosingId} {y : Closing} {stage : ClosingStage}
    (hc : m.closings[c]? = some y) (hst : stage.holding? = none)
    (h : (m.setClosing c stage).holdingOf o = some x) : m.holdingOf o = some x := by
  obtain ⟨-, h⟩ | ⟨-, h⟩ := holdingOf_setClosing hc h
  · cases hst.symm.trans h
  · exact h

theorem Ready.holding {g : Link → Link} {w : Writer} (hr : Ready m id s l a g w ws)
    (hs' : m.sends[id]? = some s) :
    ∃ o₀ x taken, m.holdingOf o₀ = some x ∧ (o₀ = .call id ∨ o₀ = .link l) ∧
      x.link = some l ∧ x.writer.stream = w.stream ∧ x.writer.buffer = taken ++ w.buffer ∧
      ∀ s, written s ws = if s = w.stream then taken else [] := by
  cases hr with
  | atOnce he hl hh hr hw =>
    exact ⟨.link l, ⟨w, some l⟩, [], holdingOf_link.mpr ⟨_, w, hl, hw, rfl⟩, .inr rfl, rfl, rfl,
      rfl, fun _ => by simp⟩
  | @greeted stream unsent he =>
    refine ⟨.call id, ⟨⟨stream, unsent⟩, some l⟩, unsent, ?_, .inl rfl, rfl, rfl, ?_,
      fun _ => written_wrote⟩
    · rw [holdingOf_call hs', he]
      rfl
    · simp
  | @drained _ w _ hl hw =>
    exact ⟨.link l, ⟨w, some l⟩, w.buffer, holdingOf_link.mpr ⟨_, w, hl, hw, rfl⟩, .inr rfl, rfl,
      rfl, by simp, fun _ => written_wrote⟩

theorem Ready.unplaced {g : Link → Link} {w : Writer} (hr : Ready m id s l a g w ws) :
    s.stage.flushing? = none := by
  cases hr with
  | atOnce he | greeted he | drained he =>
    rw [he]
    rfl

/-- Who else has a writing end after a call has gone on with a link. -/
theorem holdingOf_ready {f : Link → Link} {stage : SendStage} (hs' : m.sends[id]? = some s)
    (ho : o₀ = .call id ∨ o₀ = .link l) (hst : stage.holding? = none)
    (h : (m.atLink id l f stage).holdingOf o = some x) :
    (∃ k w, o = .link l ∧ m.allLinks[l]? = some k ∧ (f k).writer = some w ∧ x = ⟨w, some l⟩) ∨
      o ≠ o₀ ∧ m.holdingOf o = some x := by
  obtain ⟨-, h⟩ | h | ⟨hc, hl, h⟩ := holdingOf_atLink hs' h
  · cases hst.symm.trans h
  · exact .inl h
  · right
    constructor
    · obtain rfl | rfl := ho
      · exact hc
      · exact hl
    · exact h

theorem Ready.posting_place {g : Link → Link} {w : Writer} {bytes : Bytes} {max : Nat}
    (hr : Ready m id s l a g w ws) (hs' : m.sends[id]? = some s) (hd : Directed m)
    (he : Frame.encode? max s.frame = .ok bytes) :
    Posting ⟨m, .step (.send id) a, m.atLink id l (fun k => (g k).append bytes) (.flushing l),
      ws⟩ := by
  have hb : Frame.encode s.frame = bytes := (Frame.encode?_eq_ok.mp he).2.symm
  obtain ⟨k, hk, -⟩ := hd.sends id s l hs' (SendStage.link?_of_line? hr.line?)
  have hwa : ((g k).append bytes).writer = some { w with buffer := w.buffer ++ bytes } := by
    simp [Link.append, hr.writer hk]
  have hp : (Transition.mk m (.step (.send id) a)
      (m.atLink id l (fun k => (g k).append bytes) (.flushing l)) ws).placed =
      [⟨l, w.stream, id, s.frame⟩] := by
    have hsend : (m.atLink id l (fun k => (g k).append bytes) (.flushing l)).sends[id]? =
        some { s with stage := .flushing l } := setSend_get hs' _
    rw [placed_send, placed?_eq hs' hsend hr.unplaced rfl (modifyLink_get hk _) hwa]
    rfl
  obtain ⟨o₀, x, taken, h₀, ho, hl, hst, hx, hw⟩ := hr.holding hs'
  apply Posting.turn (.link l) taken h₀
  · intro o y hy
    obtain ⟨k₁, w₁, rfl, hk₁, hw₁, rfl⟩ | hy := holdingOf_ready hs' ho rfl hy
    · cases hk.symm.trans hk₁
      cases hwa.symm.trans hw₁
      refine .inl ⟨rfl, hst.symm, .inl hl.symm, ?_⟩
      simp [hp, hx, hb]
    · exact .inr hy
  · rw [hst]
    exact hw
  · rw [hx]
    exact List.prefix_append _ _
  · intro p hp'
    rw [hp, List.mem_singleton] at hp'
    subst hp'
    exact ⟨hst.symm, hl⟩

theorem Ready.posting_overflow {g : Link → Link} {w : Writer} {error : IoError}
    {result : Except RemoteError Unit} {t : Nat} (hr : Ready m id s l a g w ws)
    (hs' : m.sends[id]? = some s) :
    Posting ⟨m, .step (.send id) a,
      m.atLink id l (fun k => (g k).disconnect.leave (.send id)) (.finished result t),
      ws ++ [.warned (.sendFailed s.destination error), .released w.stream]⟩ := by
  obtain ⟨o₀, x, taken, h₀, ho, hl, hst, hx, hw⟩ := hr.holding hs'
  have hp : (Transition.mk m (.step (.send id) a)
      (m.atLink id l (fun k => (g k).disconnect.leave (.send id)) (.finished result t))
      (ws ++ [.warned (.sendFailed s.destination error), .released w.stream])).placed = [] :=
    placed_setSend rfl
  apply Posting.turn o₀ taken h₀
  · intro o y hy
    obtain ⟨k₁, w₁, rfl, hk₁, hw₁, rfl⟩ | hy := holdingOf_ready hs' ho rfl hy
    · rw [Link.writer_leave] at hw₁
      cases hw₁
    · exact .inr hy
  · intro s
    rw [written_append, hw, hst]
    simp [written]
  · rw [hx]
    exact List.prefix_append _ _
  · intro p hp'
    rw [hp] at hp'
    cases hp'

theorem posting_write {f : Link → Link} {w : Writer} {c : Nat}
    (hk : m.allLinks[l]? = some k) (hw : k.writer = some w)
    (hf : (f k).writer = some { w with buffer := w.buffer.drop c })
    (hp : (Transition.mk m mv m₁ hs).placed = [])
    (ho : ∀ o y, m₁.holdingOf o = some y → (m.modifyLink l f).holdingOf o = some y)
    (hws : hs = [.wrote w.stream (w.buffer.take c)]) :
    Posting ⟨m, mv, m₁, hs⟩ := by
  have h₀ : m.holdingOf (.link l) = some ⟨w, some l⟩ := holdingOf_link.mpr ⟨k, w, hk, hw, rfl⟩
  apply Posting.turn (.link l) (w.buffer.take c) h₀
  · intro o y hy
    obtain ⟨k₁, w₁, rfl, hk₁, hw₁, rfl⟩ | hy := holdingOf_modifyLink (ho o y hy)
    · cases hk.symm.trans hk₁
      cases hf.symm.trans hw₁
      exact .inl ⟨rfl, rfl, .inl rfl, by simp [hp]⟩
    · exact .inr hy
  · intro s
    rw [hws, written_wrote]
  · exact List.take_prefix _ _
  · intro p hp'
    rw [hp] at hp'
    cases hp'

theorem SendStep.posting (hst : SendStep m id s a m₁ hs) (hs' : m.sends[id]? = some s)
    (hd : Directed m) : Posting ⟨m, .step (.send id) a, m₁, hs⟩ := by
  cases hst with
  | refuse | reject | start | found | turnAway | quit | dial | drain =>
    exact .keep (fun _ _ => setSend_keep hs' rfl) (fun _ => rfl) (placed_setSend rfl)
  | @find k k' m₂ _ hk =>
    apply Posting.keep ?_ (fun _ => rfl) (placed_setSend rfl)
    intro o x hx
    have hs₂ : m₂.sends[id]? = some s := by rwa [lookupStep_scope hk]
    exact holdingOf_lookup (lookupStep_cases hk) (setSend_keep hs₂ rfl hx)
  | request =>
    refine .keep (fun _ _ => atLink_keep hs' (fun k => .inl ?_) rfl) (fun _ => rfl)
      (placed_setSend rfl)
    exact k.writer_request _
  | cancel =>
    refine .keep (fun _ _ => atLink_keep hs' (fun k => .inl ?_) rfl) (fun _ => written_released _)
      (placed_setSend rfl)
    exact k.writer_leave _
  | retry =>
    refine .keep (fun _ _ => atLink_keep hs' (fun k => .inl ?_) rfl) (fun _ => rfl)
      (placed_setSend rfl)
    exact k.writer_leave _
  | place hr _ he => exact hr.posting_place hs' hd he
  | overflow hr => exact hr.posting_overflow hs'
  | @greet l t stream bytes he _ hb =>
    have hg : greeting m.address = bytes := (Frame.encode?_eq_ok.mp hb).2.symm
    apply Posting.fresh (e := ⟨stream, l, id⟩) ?_ ?_ (fun _ => rfl) (placed_setSend rfl)
    · simp [Transition.opened, Transition.opened?, hs', he]
    · intro o y hy
      obtain ⟨ho, hx⟩ | ⟨-, hx⟩ := holdingOf_setSend hs' hy
      · cases hx
        exact .inl ⟨ho, by rw [hg]⟩
      · exact .inr hx
  | failConnect hu =>
    refine .keep (fun _ _ => atLink_keep hs' (fun k => .inl ?_) rfl) ?_ (placed_setSend rfl)
    · rfl
    · cases hu <;> exact fun _ => rfl
  | @greetPart l stream unsent count he =>
    have h₀ : m.holdingOf (.call id) = some ⟨⟨stream, unsent⟩, some l⟩ := by
      rw [holdingOf_call hs', he]
      rfl
    apply Posting.turn (.call id) (unsent.take count) h₀
    · intro o y hy
      obtain ⟨ho, hx⟩ | hx := holdingOf_setSend hs' hy
      · cases hx
        refine .inl ⟨ho, rfl, .inl rfl, ?_⟩
        rw [placed_setSend rfl]
        simp
      · exact .inr hx
    · exact fun _ => written_wrote
    · exact List.take_prefix _ _
    · intro p hp
      rw [placed_setSend rfl] at hp
      cases hp
  | giveUp =>
    rw [evict_scope]
    refine .keep (fun _ _ h => ?_) (fun _ => rfl) (placed_setSend rfl)
    have h := atLink_keep (m := { m with links := _ }) hs' (fun k => .inl (k.writer_leave _)) rfl h
    exact h
  | @writePart l k w count _ _ hk hw =>
    apply posting_write hk hw (f := (·.consume count)) ?_ ?_ (fun _ _ h => h) rfl
    · simp [Link.consume, hw]
    · have hn : placed? m (m.modifyLink l (·.consume count)) id = none := placed?_of_same rfl
      rw [placed_send, hn]
      rfl
  | @writeAll l k w he _ hk hw =>
    apply posting_write (c := w.buffer.length) hk hw
      (f := fun k => (k.consume w.buffer.length).leave (.send id)) ?_ (placed_setSend rfl) ?_ ?_
    · simp [Link.consume, hw]
    · exact fun _ _ => setSend_keep (m := m.modifyLink l _) hs' rfl
    · rw [List.take_length]
  | failWrite =>
    refine .keep (fun _ _ => atLink_keep hs' (fun k => .inr ?_) rfl) (fun _ => rfl)
      (placed_setSend rfl)
    rw [Link.writer_leave]
    rfl

theorem retiring_keep {c : ClosingId} {y : Closing} {f : Link → Link} {stage : ClosingStage}
    (hc : m.closings[c]? = some y) (hf : ∀ k, (f k).writer = k.writer ∨ (f k).writer = none)
    (h : (m.retiring c l f stage).holdingOf o = some x) :
    o = .closing c ∧ stage.holding? = some x ∨
      o ≠ .closing c ∧ (o = .link l → (∀ k, (f k).writer = none) → False) ∧
        m.holdingOf o = some x := by
  obtain h | ⟨ho, h⟩ := holdingOf_setClosing (m := m.modifyLink l f) hc h
  · exact .inl h
  · obtain ⟨k, w, rfl, hk, hw, rfl⟩ | ⟨hl, h⟩ := holdingOf_modifyLink h
    · refine .inr ⟨ho, fun _ hn => ?_, ?_⟩
      · cases (hn k).symm.trans hw
      · obtain hf | hf := hf k
        · exact holdingOf_link.mpr ⟨k, w, hk, hf ▸ hw, rfl⟩
        · cases hf.symm.trans hw
    · exact .inr ⟨ho, fun e => absurd e hl, h⟩

theorem ClosingStep.posting {c : ClosingId} {z : Closing} (hst : ClosingStep m c z a m₁ hs)
    (hc : m.closings[c]? = some z) : Posting ⟨m, .step (.closing c) a, m₁, hs⟩ := by
  have hp : (Transition.mk m (.step (.closing c) a) m₁ hs).placed = [] := placed_eq_nil nofun
  have hshut : ∀ k : Link, (k.shutDown.leave (.closing c)).writer = none :=
    fun k => Link.writer_leave _ _
  cases hst with
  | again | collect | await | done | giveUp | swap | cancel =>
    exact .keep (fun _ _ h => (setClosing_keep hc rfl h :)) (fun _ => rfl) hp
  | clearObservers _ hn =>
    refine .keep (fun _ _ h => ?_) (fun _ => rfl) hp
    rw [clearObservers_scope] at h
    obtain ⟨-, rfl⟩ | ⟨-, rfl⟩ := hn <;>
      exact (setClosing_keep (m := { m with observers := {}, subscriptions := _ }) hc rfl h :)
  | clearLinks _ hn =>
    refine .keep (fun _ _ h => ?_) (fun _ => rfl) hp
    obtain ⟨-, rfl⟩ | ⟨-, rfl⟩ := hn <;>
      exact (setClosing_keep (m := { m with links := {} }) hc rfl h :)
  | request =>
    refine .keep (fun _ _ h => ?_) (fun _ => rfl) hp
    obtain ⟨-, h⟩ | ⟨-, -, h⟩ := retiring_keep hc (fun k => .inl (k.writer_request _)) h
    · cases h
    · exact h
  | retireIdle =>
    refine .keep (fun _ _ h => ?_) (fun _ => rfl) hp
    obtain ⟨-, h⟩ | ⟨-, -, h⟩ := retiring_keep hc (fun k => .inr (hshut k)) h
    · cases h
    · exact h
  | @retireBusy l ls k w _ hk _ hw =>
    have h₀ : m.holdingOf (.link l) = some ⟨w, some l⟩ :=
      holdingOf_link.mpr ⟨k, w, hk, hw, rfl⟩
    apply Posting.turn (.closing c) [] h₀
    · intro o y hy
      obtain ⟨ho, hy⟩ | ⟨-, hl, hy⟩ := retiring_keep hc (fun k => .inr (hshut k)) hy
      · cases hy
        exact .inl ⟨ho, rfl, .inr rfl, by simp [hp]⟩
      · exact .inr ⟨fun e => hl e hshut, hy⟩
    · simp
    · exact List.nil_prefix
    · simp [hp]
  | @flushPart w t ls count he =>
    have h₀ : m.holdingOf (.closing c) = some ⟨w, none⟩ := by
      rw [holdingOf_closing hc, he]
      rfl
    apply Posting.turn (.closing c) (w.buffer.take count) h₀
    · intro o y hy
      obtain ⟨ho, hy⟩ | hy := holdingOf_setClosing hc hy
      · cases hy
        exact .inl ⟨ho, rfl, .inl rfl, by simp [hp]⟩
      · exact .inr hy
    · exact fun _ => written_wrote
    · exact List.take_prefix _ _
    · simp [hp]
  | flushEnd _ ha =>
    refine .keep (fun _ _ h => (setClosing_keep hc rfl h :)) (fun _ => ?_) hp
    obtain ⟨-, -, rfl⟩ | ⟨-, -, rfl⟩ | ⟨-, -, rfl⟩ := ha <;> rfl

/-- What a move does to writing ends, before stray streams are let go. -/
theorem Effect.posting (he : Effect m mv m₁ hs) (hd : Directed m) : Posting ⟨m, mv, m₁, hs⟩ := by
  cases he with
  | aside hm hv hw =>
    refine .keep (fun o x h => ?_) (fun _ => written_of_silent hw) (placed_eq_nil hv)
    have hsame : m₁.holdingOf o = m.holdingOf o := by
      rw [hm]
      cases o <;> rfl
    exact hsame.symm.trans h
  | call =>
    refine .keep (fun o x h => ?_) (fun _ => rfl) (placed_eq_nil nofun)
    cases o with
    | call j =>
      obtain ⟨s, hs', hx⟩ := Option.bind_eq_some_iff.mp h
      obtain hs' | ⟨-, rfl⟩ := getElem?_concat_cases hs'
      · exact (holdingOf_call hs').trans hx
      · cases hx
    | link l => exact h
    | closing c => exact h
  | ask => exact .keep (fun _ _ h => h) (fun _ => rfl) (placed_eq_nil nofun)
  | finish =>
    refine .keep (fun o x h => ?_) (fun _ => rfl) (placed_eq_nil nofun)
    cases o with
    | call j => exact h
    | link l => exact h
    | closing c =>
      obtain ⟨y, hc, hx⟩ := Option.bind_eq_some_iff.mp h
      obtain hc | ⟨-, rfl⟩ := getElem?_concat_cases hc
      · exact (holdingOf_closing hc).trans hx
      · cases hx
  | send hs' hst => exact hst.posting hs' hd
  | drop hs' =>
    exact .keep (fun _ _ => setSend_keep hs' rfl) (fun _ => rfl) (placed_eq_nil nofun)
  | leave hs' =>
    refine .keep (fun _ _ => atLink_keep hs' (fun k => .inl ?_) rfl) (fun _ => written_released _)
      (placed_eq_nil nofun)
    exact k.writer_leave _
  | opening _ hk =>
    refine .keep (fun o x h => ?_) (fun _ => rfl) (placed_eq_nil nofun)
    apply holdingOf_lookup (lookupStep_cases hk)
    cases o <;> exact h
  | closing hc hst => exact hst.posting hc

theorem placed?_reap {p : Manager × List Happening} (hr : reap p = (m', hs)) :
    placed? m m' id = placed? m p.1 id := by
  have hs₁ : m'.sends = p.1.sends := by rw [reap_scope hr]
  have hl : ∀ s₁, p.1.sends[id]? = some s₁ → ∀ l, s₁.stage.flushing? = some l →
      m'.allLinks[l]? = p.1.allLinks[l]? := by
    intro s₁ h₁ l hl
    apply reap_of_refersTo hr
    apply refersTo_of_send h₁
    cases hst : s₁.stage <;> rw [hst] at hl <;> first | exact hl | cases hl
  simp only [placed?]
  rw [hs₁]
  cases m.sends[id]? with
  | none => rfl
  | some s =>
    cases h₁ : p.1.sends[id]? with
    | none => rfl
    | some s₁ =>
      cases hst : s₁.stage.flushing? with
      | none => simp [hst]
      | some l => simp [hst, hl s₁ h₁ l hst]

theorem placed_reap {p : Manager × List Happening} (hr : reap p = (m', hs)) :
    (Transition.mk m mv m' hs).placed = (Transition.mk m mv p.1 p.2).placed := by
  cases mv with
  | step task a =>
    cases task with
    | send id => exact congrArg Option.toList (placed?_reap hr)
    | _ => rfl
  | _ => rfl

theorem written_reap {p : Manager × List Happening} (hr : reap p = (m', hs)) (s : StreamId) :
    written s hs = written s p.2 := by
  obtain ⟨streams, rfl⟩ := reap_happenings hr
  simp

theorem Posting.reap {p : Manager × List Happening} (h : Posting ⟨m, mv, p.1, p.2⟩)
    (hr : reap p = (m', hs)) : Posting ⟨m, mv, m', hs⟩ := by
  have hp : (Transition.mk m mv m' hs).placed = (Transition.mk m mv p.1 p.2).placed :=
    placed_reap hr
  have hw : ∀ s, written s hs = written s p.2 := written_reap hr
  cases h with
  | keep hh hw₁ hp₁ =>
    refine .keep (fun o x hx => hh o x (holdingOf_reap hr hx)) (fun s => ?_) (hp.trans hp₁)
    exact (hw s).trans (hw₁ s)
  | turn o₁ taken h₀ hh hw₁ ht hp₁ =>
    refine .turn o₁ taken h₀ (fun o y hy => ?_) (fun s => (hw s).trans (hw₁ s)) ht ?_
    · rw [hp]
      exact hh o y (holdingOf_reap hr hy)
    · rw [hp]
      exact hp₁
  | fresh he hh hw₁ hp₁ =>
    refine .fresh he (fun o y hy => hh o y (holdingOf_reap hr hy)) (fun s => ?_) (hp.trans hp₁)
    exact (hw s).trans (hw₁ s)

theorem move_posting (h : m.move mv = some (m', hs)) (hd : Directed m) :
    Posting ⟨m, mv, m', hs⟩ := by
  obtain ⟨m₁, hs₁, he, hr | ⟨rfl, rfl⟩⟩ := move_effect h
  · exact Posting.reap (he.posting hd) hr
  · exact he.posting hd

end PeerLink.Manager
