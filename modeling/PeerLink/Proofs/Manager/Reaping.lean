import PeerLink.Proofs.Manager.Moves

namespace PeerLink.Manager

variable {m m' : Manager} {mv : Move} {hs : List Happening} {l : LinkId}

theorem foldl_disconnect_get {ls : List (LinkId × StreamId)} {k' : Link}
    (h : (ls.foldl (fun m (l, _) => m.modifyLink l Link.disconnect) m).allLinks[l]? = some k') :
    ∃ k, m.allLinks[l]? = some k ∧
      ((∀ s, (l, s) ∉ ls) ∧ k' = k ∨ (∃ s, (l, s) ∈ ls) ∧ k' = k.disconnect) := by
  induction ls generalizing m with
  | nil => exact ⟨k', h, .inl ⟨fun _ => List.not_mem_nil, rfl⟩⟩
  | cons p ls ih =>
    obtain ⟨j, s⟩ := p
    obtain ⟨k₁, hk₁, hk'⟩ := ih h
    obtain ⟨k, hk, ⟨rfl, rfl⟩ | ⟨hj, rfl⟩⟩ := getElem?_modify_cases hk₁
    · refine ⟨k, hk, .inr ⟨⟨s, List.mem_cons_self⟩, ?_⟩⟩
      obtain ⟨-, rfl⟩ | ⟨-, rfl⟩ := hk' <;> rfl
    · refine ⟨k₁, hk, hk'.imp ?_ ?_⟩
      · rintro ⟨hn, rfl⟩
        refine ⟨fun t ht => ?_, rfl⟩
        obtain he | ht := List.mem_cons.mp ht
        · exact hj (Prod.mk.inj he).1
        · exact hn t ht
      · rintro ⟨⟨t, ht⟩, rfl⟩
        exact ⟨⟨t, List.mem_cons_of_mem _ ht⟩, rfl⟩

theorem mem_strayStreams {s : StreamId} : (l, s) ∈ m.strayStreams ↔
    ∃ k w, m.allLinks[l]? = some k ∧ k.writer = some w ∧ w.stream = s ∧ m.refersTo l = false := by
  simp only [strayStreams, List.mem_filterMap, Prod.exists]
  constructor
  · rintro ⟨k, i, hk, h⟩
    have hk := List.mem_zipIdx_iff_getElem?.mp hk
    split at h
    · cases h
    · next w hw =>
      split at h
      · cases h
      · next hr =>
        cases h
        exact ⟨k, w, hk, hw, rfl, by simpa using hr⟩
  · rintro ⟨k, w, hk, hw, rfl, hr⟩
    refine ⟨k, l, List.mem_zipIdx_iff_getElem?.mpr hk, ?_⟩
    simp [hw, hr]

/-- Reaping takes the streams out of the links that nobody refers to, and leaves the others
alone. -/
theorem reap_link {o : Manager × List Happening} {k' : Link} (h : reap o = (m', hs))
    (hk : m'.allLinks[l]? = some k') : ∃ k, o.1.allLinks[l]? = some k ∧
      (k' = k ∧ (o.1.refersTo l = true ∨ k.writer = none) ∨
        o.1.refersTo l = false ∧ k' = k.disconnect) := by
  cases h
  obtain ⟨k, hk, hk'⟩ := foldl_disconnect_get hk
  refine ⟨k, hk, hk'.imp ?_ ?_⟩
  · rintro ⟨hn, hk'⟩
    refine ⟨hk', ?_⟩
    cases hr : o.1.refersTo l with
    | true => exact .inl rfl
    | false =>
      cases hw : k.writer with
      | none => exact .inr rfl
      | some w => exact absurd (mem_strayStreams.mpr ⟨k, w, hk, hw, rfl, hr⟩) (hn _)
  · rintro ⟨⟨s, hs⟩, hk'⟩
    obtain ⟨-, -, -, -, -, hr⟩ := mem_strayStreams.mp hs
    exact ⟨hr, hk'⟩

theorem reap_length {o : Manager × List Happening} (h : reap o = (m', hs)) :
    m'.allLinks.length = o.1.allLinks.length := by
  cases h
  suffices ∀ (ls : List (LinkId × StreamId)) (m : Manager),
      (ls.foldl (fun m (l, _) => m.modifyLink l Link.disconnect) m).allLinks.length =
        m.allLinks.length from this _ _
  intro ls
  induction ls with
  | nil => exact fun _ => rfl
  | cons p ls ih => exact fun m => (ih _).trans (List.length_modify _ _ _)

theorem reap_of_refersTo {o : Manager × List Happening} (h : reap o = (m', hs))
    (hl : o.1.refersTo l = true) : m'.allLinks[l]? = o.1.allLinks[l]? := by
  have hlen := reap_length h
  cases hk : m'.allLinks[l]? with
  | none =>
    rw [List.getElem?_eq_none_iff, hlen] at hk
    exact (List.getElem?_eq_none_iff.mpr hk).symm
  | some k' =>
    obtain ⟨k, hk₀, ⟨rfl, -⟩ | ⟨hn, -⟩⟩ := reap_link h hk
    · exact hk₀.symm
    · cases hl.symm.trans hn

theorem reap_of_idle {o : Manager × List Happening} {k : Link} (h : reap o = (m', hs))
    (hk : o.1.allLinks[l]? = some k) (hw : k.writer = none) : m'.allLinks[l]? = some k := by
  have hlen : l < m'.allLinks.length := by
    rw [reap_length h]
    exact (List.getElem?_eq_some_iff.mp hk).1
  obtain ⟨k', hk'⟩ : ∃ k', m'.allLinks[l]? = some k' := ⟨_, List.getElem?_eq_getElem hlen⟩
  have hget := hk'
  cases h
  obtain ⟨k₀, hk₀, ⟨-, rfl⟩ | ⟨⟨s, hs⟩, -⟩⟩ := foldl_disconnect_get hk'
  · cases hk.symm.trans hk₀
    exact hget
  · obtain ⟨k₁, w, hk₁, hw₁, -⟩ := mem_strayStreams.mp hs
    cases hk.symm.trans hk₁
    cases hw.symm.trans hw₁

def Tidy (m : Manager) : Prop :=
  ∀ (l : LinkId) (k : Link), m.allLinks[l]? = some k → k.writer ≠ none → m.refersTo l = true

theorem Tidy.new (address : Endpoint) (config : Config) (clock : Nat) :
    Tidy (new address config clock) := by
  intro l k hk
  simp [Manager.new] at hk

theorem tidy_of_reap {o : Manager × List Happening} (h : reap o = (m', hs)) : Tidy m' := by
  intro l k' hk' hw
  have hr : m'.refersTo l = o.1.refersTo l := by
    rw [reap_scope h]
    rfl
  obtain ⟨k, -, ⟨rfl, hk⟩ | ⟨-, rfl⟩⟩ := reap_link h hk'
  · rw [hr]
    exact hk.resolve_right hw
  · exact absurd rfl hw

theorem reap_of_tidy (h : Tidy m) : reap (m, hs) = (m, hs) := by
  have hn : m.strayStreams = [] := by
    refine List.eq_nil_iff_forall_not_mem.mpr fun p hp => ?_
    obtain ⟨k, w, hk, hw, -, hr⟩ := mem_strayStreams.mp (show (p.1, p.2) ∈ m.strayStreams from hp)
    have ht := h p.1 k hk (by rw [hw]; nofun)
    cases ht.symm.trans hr
  simp [reap, hn]

theorem Tidy.of_refersTo {m₁ : Manager} (h : Tidy m) (hl : m₁.allLinks = m.allLinks)
    (hr : ∀ l, m.refersTo l = true → m₁.refersTo l = true) : Tidy m₁ := by
  intro l k hk hw
  exact hr l (h l k (hl ▸ hk) hw)

/-- A step that leaves no stray streams is all of its move. -/
theorem move_eq_step {task : Task} (h : ∀ o, m.step task a = some o → Tidy o.1) :
    m.move (.step task a) = m.step task a := by
  rw [move]
  cases ho : m.step task a with
  | none => rfl
  | some o => exact congrArg some (reap_of_tidy (h o ho))

theorem move_acceptor (ht : Tidy m) : m.move (.step .acceptor a) = m.acceptorStep a := by
  refine move_eq_step fun o ho => ?_
  rw [acceptorStep_scope ho]
  exact ht.of_refersTo rfl fun _ h => h

theorem move_receiver_eq {k : Nat} (ht : Tidy m) :
    m.move (.step (.receiver k) a) = m.receiverStep k a := by
  refine move_eq_step fun o ho => ?_
  rw [receiverStep_scope ho]
  exact ht.of_refersTo rfl fun _ h => h

theorem refersTo_of_send {id : SendId} {s : Send} (hs' : m.sends[id]? = some s)
    (hl : s.stage.link? = some l) : m.refersTo l = true := by
  have hany : m.sends.any (·.stage.link? = some l) = true :=
    List.any_eq_true.mpr ⟨s, List.mem_of_getElem? hs', by simpa using hl⟩
  simp [refersTo, hany]

theorem refersTo_of_table {d : Endpoint} (h : m.links.get? d = some l) : m.refersTo l = true := by
  have hv : l ∈ m.links.values := List.mem_map.mpr ⟨_, Table.mem_of_get? h, rfl⟩
  simp [refersTo, hv]

theorem refersTo_iff : m.refersTo l = true ↔ (∃ d, (d, l) ∈ m.links.entries) ∨
    (∃ (id : SendId) (s : Send), m.sends[id]? = some s ∧ s.stage.link? = some l) ∨
    (∃ (id : Nat) (o : Opening), m.openings[id]? = some o ∧ o.link? = some l) ∨
    ∃ (id : ClosingId) (c : Closing), m.closings[id]? = some c ∧ l ∈ c.stage.links := by
  simp only [refersTo, Bool.or_eq_true, or_assoc, List.any_eq_true, List.contains_iff_mem,
    decide_eq_true_eq, List.mem_iff_getElem?, Table.values, List.getElem?_map,
    Option.map_eq_some_iff, Prod.exists]
  grind

theorem refersTo_setClosing {id : ClosingId} {c : Closing} {stage : ClosingStage}
    (hc : m.closings[id]? = some c) (hn : c.stage.links = []) (hl : m.refersTo l = true) :
    (m.setClosing id stage).refersTo l = true := by
  simp only [refersTo, Bool.or_eq_true] at hl ⊢
  refine hl.imp_right fun hl => ?_
  obtain ⟨x, hx, hxl⟩ := List.any_eq_true.mp hl
  obtain ⟨i, hi⟩ := List.mem_iff_getElem?.mp hx
  have hne : id ≠ i := by
    rintro rfl
    cases hc.symm.trans hi
    simp [hn] at hxl
  have hx' : (m.setClosing id stage).closings[i]? = some x :=
    (List.getElem?_modify_ne _ _ hne).trans hi
  exact List.any_eq_true.mpr ⟨x, List.mem_of_getElem? hx', hxl⟩

theorem Tidy.move (h : Tidy m) (hm : m.move mv = some (m', hs)) : Tidy m' := by
  cases mv with
  | step task a =>
    obtain ⟨o, -, hr⟩ := move_step hm
    exact tidy_of_reap hr
  | abandon id =>
    obtain ⟨o, -, hr⟩ := move_abandon hm
    exact tidy_of_reap hr
  | unregister e =>
    have hm : m.removeObserver e = m' := congrArg Prod.fst (Option.some.inj hm)
    rw [← hm, removeObserver_scope]
    exact h.of_refersTo rfl fun _ hr => hr
  | register e o | elapse t =>
    cases hm
    exact h.of_refersTo rfl fun _ hr => hr
  | «open» d | send d f | finish e =>
    cases hm
    refine h.of_refersTo rfl fun l hr => ?_
    simp only [refersTo, List.any_append, Bool.or_eq_true] at hr ⊢
    obtain ((hr | hr) | hr) | hr := hr <;> simp only [hr, true_or, or_true]

theorem run_tidy {address : Endpoint} {config : Config} {clock : Nat} {moves : List Move}
    (h : (Manager.new address config clock).run moves = some (m, hs)) : Tidy m :=
  run_invariant (fun _ _ _ _ hi hm => hi.move hm) (.new address config clock) h

end PeerLink.Manager
