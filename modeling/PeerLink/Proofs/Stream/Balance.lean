import PeerLink.Proofs.Stream.Postings

namespace PeerLink.Manager

structure Balanced (m : Manager) (address : Endpoint) (taken : StreamId → Bytes)
    (ps : List Placement) (es : List Opened) : Prop where
  book : ∀ o x, m.holdingOf o = some x →
    taken x.writer.stream ++ x.writer.buffer = content address ps x.writer.stream
  part : ∀ stream, taken stream <+: content address ps stream
  apart : ∀ o o' x x', m.holdingOf o = some x → m.holdingOf o' = some x' →
    x.writer.stream = x'.writer.stream → o = o'
  known : ∀ o x, m.holdingOf o = some x →
    ∃ e ∈ es, e.stream = x.writer.stream ∧ ∀ l, x.link = some l → e.link = l
  listed : ∀ p ∈ ps, ∃ e ∈ es, e.stream = p.stream ∧ e.link = p.link
  untaken : ∀ stream, (∀ e ∈ es, e.stream ≠ stream) → taken stream = []

variable {m m' : Manager} {mv : Move} {hs : List Happening} {address : Endpoint}
  {taken : StreamId → Bytes} {ps qs : List Placement} {es : List Opened} {t : Transition}

theorem Balanced.new (clock : Nat) (config : Config) :
    Balanced (new address config clock) address (fun _ => []) [] [] := by
  have hnone : ∀ o, (Manager.new address config clock).holdingOf o = none := by
    intro o
    cases o <;> rfl
  refine ⟨fun o x h => ?_, fun _ => List.nil_prefix, fun o _ x _ h => ?_, fun o x h => ?_,
    fun p hp => absurd hp List.not_mem_nil, fun _ _ => rfl⟩ <;> cases (hnone o).symm.trans h

/-- The stream of no writing end, and with no frame, is one that was not opened. -/
theorem Balanced.content_of_new (h : Balanced m address taken ps es) {stream : StreamId}
    (hn : ∀ e ∈ es, e.stream ≠ stream) : content address ps stream = greeting address := by
  have hno : framesOn stream ps = [] := by
    apply framesOn_of_forall_ne
    intro p hp
    obtain ⟨e, he, hs, -⟩ := h.listed p hp
    exact hs ▸ hn e he
  rw [content, hno]
  simp

theorem content_of_other {stream : StreamId} (h : ∀ p ∈ qs, p.stream ≠ stream) :
    content address (ps ++ qs) stream = content address ps stream := by
  rw [content_append, framesOn_of_forall_ne h]
  simp

theorem Balanced.keep (h : Balanced m address taken ps es) {ns : List Opened}
    (hh : ∀ o x, m'.holdingOf o = some x → m.holdingOf o = some x) :
    Balanced m' address taken ps (es ++ ns) := by
  refine ⟨fun o x hx => h.book o x (hh o x hx), h.part,
    fun o o' x x' hx hx' => h.apart o o' x x' (hh o x hx) (hh o' x' hx'), fun o x hx => ?_,
    fun p hp => ?_, fun s hs => h.untaken s fun e he => hs e (List.mem_append_left _ he)⟩
  · obtain ⟨e, he, hk⟩ := h.known o x (hh o x hx)
    exact ⟨e, List.mem_append_left _ he, hk⟩
  · obtain ⟨e, he, hk⟩ := h.listed p hp
    exact ⟨e, List.mem_append_left _ he, hk⟩

theorem Balanced.fresh (h : Balanced m address taken ps es) {e : Opened}
    (hn : ∀ e' ∈ es, e'.stream ≠ e.stream)
    (hh : ∀ o y, m'.holdingOf o = some y →
      o = .call e.send ∧ y = ⟨⟨e.stream, greeting address⟩, some e.link⟩ ∨
        m.holdingOf o = some y) :
    Balanced m' address taken ps (es ++ [e]) := by
  have hold : ∀ o x, m.holdingOf o = some x → x.writer.stream ≠ e.stream := by
    intro o x hx he
    obtain ⟨e', he', hs, -⟩ := h.known o x hx
    exact hn e' he' (hs.trans he)
  refine ⟨fun o y hy => ?_, h.part, fun o o' y y' hy hy' hs => ?_, fun o y hy => ?_,
    fun p hp => ?_, fun s hs => ?_⟩
  · obtain ⟨rfl, rfl⟩ | hy := hh o y hy
    · change taken e.stream ++ greeting address = content address ps e.stream
      rw [h.content_of_new hn, h.untaken _ hn]
      rfl
    · exact h.book o y hy
  · obtain ⟨rfl, rfl⟩ | hy := hh o y hy <;> obtain ⟨rfl, rfl⟩ | hy' := hh o' y' hy'
    · rfl
    · exact absurd hs.symm (hold o' y' hy')
    · exact absurd hs (hold o y hy)
    · exact h.apart o o' y y' hy hy' hs
  · obtain ⟨rfl, rfl⟩ | hy := hh o y hy
    · exact ⟨e, by simp, rfl, fun l hl => Option.some.inj hl⟩
    · obtain ⟨e', he', hk⟩ := h.known o y hy
      exact ⟨e', List.mem_append_left _ he', hk⟩
  · obtain ⟨e', he', hk⟩ := h.listed p hp
    exact ⟨e', List.mem_append_left _ he', hk⟩
  · exact h.untaken s fun e' he' => hs e' (List.mem_append_left _ he')

theorem Balanced.turn (h : Balanced m address taken ps es) {o₀ o₁ : Owner} {x : Holding}
    {bytes : Bytes} {ns : List Opened} (h₀ : m.holdingOf o₀ = some x)
    (hh : ∀ o y, m'.holdingOf o = some y →
      o = o₁ ∧ Turned x y bytes qs ∨ o ≠ o₀ ∧ m.holdingOf o = some y)
    (ht : bytes <+: x.writer.buffer)
    (hq : ∀ p ∈ qs, p.stream = x.writer.stream ∧ x.link = some p.link) :
    Balanced m' address
      (fun s => taken s ++ if s = x.writer.stream then bytes else []) (ps ++ qs) (es ++ ns) := by
  have hother : ∀ s, s ≠ x.writer.stream → content address (ps ++ qs) s = content address ps s :=
    fun s hs => content_of_other fun p hp he => hs (he.symm.trans (hq p hp).1)
  have hthis : content address (ps ++ qs) x.writer.stream =
      content address ps x.writer.stream ++ (qs.map Placement.frame).flatMap Frame.encode := by
    rw [content_append, framesOn_of_forall fun p hp => (hq p hp).1]
  have hne : ∀ o y, o ≠ o₀ → m.holdingOf o = some y → y.writer.stream ≠ x.writer.stream :=
    fun o y ho hy he => ho (h.apart o o₀ y x hy h₀ he)
  obtain ⟨e₀, he₀, hes, hel⟩ := h.known o₀ x h₀
  refine ⟨fun o y hy => ?_, fun s => ?_, fun o o' y y' hy hy' hs => ?_, fun o y hy => ?_,
    fun p hp => ?_, fun s hs => ?_⟩
  · obtain ⟨-, hy⟩ | ⟨ho, hy⟩ := hh o y hy
    · rw [hy.stream, if_pos rfl, hthis, ← h.book o₀ x h₀, List.append_assoc, List.append_assoc,
        hy.buffer]
    · rw [hother _ (hne o y ho hy), if_neg (hne o y ho hy), List.append_nil]
      exact h.book o y hy
  · by_cases hs : s = x.writer.stream
    · subst hs
      rw [if_pos rfl, hthis, ← h.book o₀ x h₀]
      apply List.IsPrefix.trans _ (List.prefix_append _ _)
      exact (List.prefix_append_right_inj _).mpr ht
    · rw [hother s hs, if_neg hs, List.append_nil]
      exact h.part s
  · obtain ⟨rfl, hy⟩ | ⟨ho, hy⟩ := hh o y hy <;> obtain ⟨rfl, hy'⟩ | ⟨ho', hy'⟩ := hh o' y' hy'
    · rfl
    · exact absurd (hs.symm.trans hy.stream) (hne o' y' ho' hy')
    · exact absurd (hs.trans hy'.stream) (hne o y ho hy)
    · exact h.apart o o' y y' hy hy' hs
  · obtain ⟨-, hy⟩ | ⟨ho, hy⟩ := hh o y hy
    · refine ⟨e₀, List.mem_append_left _ he₀, hes.trans hy.stream.symm, fun l hl => hel l ?_⟩
      obtain hl' | hl' := hy.link
      · exact hl'.symm.trans hl
      · cases hl'.symm.trans hl
    · obtain ⟨e, he, hk⟩ := h.known o y hy
      exact ⟨e, List.mem_append_left _ he, hk⟩
  · obtain hp | hp := List.mem_append.mp hp
    · obtain ⟨e, he, hk⟩ := h.listed p hp
      exact ⟨e, List.mem_append_left _ he, hk⟩
    · obtain ⟨hs, hl⟩ := hq p hp
      exact ⟨e₀, List.mem_append_left _ he₀, hes.trans hs.symm, hel _ hl⟩
  · have hs' : ∀ e ∈ es, e.stream ≠ s := fun e he => hs e (List.mem_append_left _ he)
    have hx : s ≠ x.writer.stream := fun e => hs' e₀ he₀ (hes.trans e.symm)
    rw [h.untaken s hs', if_neg hx]
    rfl

theorem Balanced.move (h : Balanced t.before t.before.address taken ps es) (ht : Posting t)
    (hn : ((es ++ t.opened).map Opened.stream).Nodup) :
    Balanced t.after t.before.address (fun s => taken s ++ written s t.happenings)
      (ps ++ t.placed) (es ++ t.opened) := by
  cases ht with
  | keep hh hw hp =>
    simpa only [hw, hp, List.append_nil] using h.keep hh
  | turn o₁ bytes h₀ hh hw ht hp =>
    simpa only [hw] using h.turn h₀ hh ht hp
  | @fresh e he hh hw hp =>
    rw [he] at hn ⊢
    have hnew : ∀ e' ∈ es, e'.stream ≠ e.stream := by
      intro e' he' hs
      rw [List.map_append, List.nodup_append] at hn
      exact hn.2.2 _ (List.mem_map_of_mem he') _ (List.mem_singleton.mpr rfl) hs
    simpa only [hw, hp, List.append_nil] using h.fresh hnew hh

end PeerLink.Manager
