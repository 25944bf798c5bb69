import PeerLink.Proofs.Pair.Basic

namespace PeerLink

open Manager

/-- The near end: all calls to the destination share one stream, on which each task's frames are in
the order of its calls. -/
structure Caller (L : Layout) (m : Manager) (ts : List Transition) : Prop where
  address : m.address = L.near.address
  config : m.config = L.near.config
  opened : m.closed = false
  apart : ((openedStreams ts).map Opened.stream).Nodup
  flagged : Flagged m
  accounted : Accounted m ts
  steady : Steady L.destination m
  sole : Sole L.destination m (openedStreams ts)
  turns : InTurn L.destination L.task m (placements ts)
  admitted : ∀ (id : SendId) s, m.sends[id]? = some s → s.destination = L.destination →
    L.Admits s.frame

structure Callee (L : Layout) (m : Manager) (ts : List Transition) : Prop where
  config : m.config = L.far.config
  opened : m.closed = false
  served : Served m
  queued : Queued m ts
  received : ∀ id, Received id m ts

variable {L : Layout} {m m' : Manager} {mv : Manager.Move} {hs : List Happening}
  {ts : List Transition} {id : SendId} {e : Opened} {q : Placement}

theorem Steady.new (d address : Endpoint) (config : Config) (clock : Nat) :
    Steady d (Manager.new address config clock) := by
  refine ⟨fun id s hs => ?_, fun id s l error hs => ?_, fun id s l hs => ?_,
    fun id o l ho => ?_, fun l hg => ?_⟩
  · simp [Manager.new] at hs
  · simp [Manager.new] at hs
  · simp [Manager.new] at hs
  · simp [Manager.new] at ho
  · obtain ⟨k, hk, -⟩ := hg
    simp [Manager.new] at hk

theorem Caller.new (L : Layout) : Caller L L.near.start [] where
  address := rfl
  config := rfl
  opened := rfl
  apart := List.nodup_nil
  flagged := .new _ _ _
  accounted := .new _ _ _
  steady := Steady.new _ _ _ _
  sole := ⟨fun _ he => absurd he List.not_mem_nil, fun _ he => absurd he List.not_mem_nil⟩
  turns := .new _ _ _
  admitted id s hs := by simp [Site.start, Manager.new] at hs

theorem Caller.move (h : Caller L m ts) (hL : L.Admits L.hello) (hm : m.move mv = some (m', hs))
    (ho : m'.closed = false) (hn : m.letsDown L.destination mv = false)
    (hfresh : ∀ (id : SendId) stream, mv = .step (.send id) (.connected stream) →
      ∀ e ∈ openedStreams ts, e.stream ≠ stream)
    (hnext : ∀ f, mv = .send L.destination f →
      L.Admits f ∧ m.unoccupied L.destination L.task = true) :
    Caller L m' (ts ++ [⟨m, mv, m', hs⟩]) := by
  have hl := move_later hm
  have hapart : ((openedStreams (ts ++ [⟨m, mv, m', hs⟩])).map Opened.stream).Nodup := by
    rw [openedStreams_concat, List.map_append, List.nodup_append]
    refine ⟨h.apart, ?_, ?_⟩
    · rw [Transition.opened]
      cases Transition.opened? _ <;> simp
    · rintro stream hs _ hs' rfl
      obtain ⟨e, he, rfl⟩ := List.mem_map.mp hs'
      obtain ⟨e', he', hse⟩ := List.mem_map.mp hs
      obtain ⟨s, time, hmv, -⟩ := mem_opened he
      exact hfresh _ _ hmv e' he' hse
  have hlimit : Frame.limit m.config.maxFrame = L.near.limit := by
    rw [h.config]
    rfl
  obtain ⟨hsteady, hsole⟩ := h.steady.move h.sole h.accounted h.flagged hm ho hn
    (by rw [hlimit, h.address]; exact hL.1) fun f hf => hlimit ▸ (hnext f hf).1.1
  refine ⟨hl.address.trans h.address, hl.config.trans h.config, ho, hapart, h.flagged.move hm,
    h.accounted.move hm hapart, hsteady, hsole, ?_, fun j s₁ h₁ hd => ?_⟩
  · rw [placements_concat]
    exact h.turns.move h.accounted.sound h.accounted.placed hm hn fun f hf => (hnext f hf).2
  · obtain ⟨m₁, hs₁, he, hr⟩ := move_effect hm
    rw [sends_of_reap hr] at h₁
    obtain ⟨s, hs'⟩ | ⟨-, hmv, -⟩ := he.origin h₁
    · obtain ⟨stage, h₂, -⟩ := he.keeps_call hs'
      cases h₁.symm.trans h₂
      exact h.admitted j s hs' hd
    · exact (hnext _ (hd ▸ hmv)).1

theorem Callee.new (L : Layout) : Callee L L.far.start [] where
  config := rfl
  opened := rfl
  served := .new _ _ _
  queued := .new _ _ _
  received id := .new id _ _ _

theorem Callee.move (h : Callee L m ts) (hm : m.move mv = some (m', hs)) (ho : m'.closed = false) :
    Callee L m' (ts ++ [⟨m, mv, m', hs⟩]) where
  config := (move_later hm).config.trans h.config
  opened := ho
  served := h.served.move hm
  queued := h.queued.move h.served hm
  received id := (h.received id).move hm

theorem Callee.running (h : Callee L m ts) : m.cancelled = false :=
  h.served.flagged.running h.opened

namespace Caller

theorem goes_iff (h : Caller L m ts) (he : e ∈ openedStreams ts) :
    m.Goes e.link L.destination ↔ m.callsTo L.destination e.send = true := by
  obtain ⟨s, hs, hg⟩ := h.accounted.dialled e he
  rw [callsTo_iff]
  constructor
  · exact fun hg' => ⟨s, hs, hg.unique hg'⟩
  · rintro ⟨_, hs', hd⟩
    cases hs.symm.trans hs'
    exact hd ▸ hg

theorem stream_iff (h : Caller L m ts) (he : e ∈ openedStreams ts)
    (hd : m.callsTo L.destination e.send = true) (hq : q ∈ placements ts) :
    q.stream = e.stream ↔ m.callsTo L.destination q.send = true := by
  obtain ⟨s, hs, -, hgq, -⟩ := h.accounted.placed.made q hq
  have hge := (h.goes_iff he).mpr hd
  rw [callsTo_iff]
  constructor
  · intro hst
    have hlink := h.accounted.link_of_stream h.apart he hq hst
    exact ⟨s, hs, (hlink ▸ hgq).unique hge⟩
  · rintro ⟨_, hs', hds⟩
    cases hs.symm.trans hs'
    obtain ⟨e', he', hst, hlink⟩ := h.accounted.balanced.listed q hq
    have hsame : e' = e := h.sole.single e' he' e he (hlink ▸ hds ▸ hgq) hge
    rw [← hst, hsame]

theorem single {e' : Opened} (h : Caller L m ts) (he : e ∈ openedStreams ts)
    (he' : e' ∈ openedStreams ts) (hd : m.callsTo L.destination e.send = true)
    (hd' : m.callsTo L.destination e'.send = true) : e = e' :=
  h.sole.single e he e' he' ((h.goes_iff he).mpr hd) ((h.goes_iff he').mpr hd')

/-- What a stream to the destination has taken is a beginning of the greeting and frames, none of
them too long for either end. -/
theorem taken_prefix (h : Caller L m ts) (he : e ∈ openedStreams ts)
    (hd : m.callsTo L.destination e.send = true) (hL : L.Admits L.hello) :
    taken ts e.stream <+: (L.hello :: framesOn e.stream (placements ts)).flatMap Frame.encode ∧
      ∀ b ∈ L.hello :: framesOn e.stream (placements ts), L.Admits b := by
  constructor
  · have hpart := h.accounted.balanced.part e.stream
    rwa [content, greeting, h.address] at hpart
  · intro b hb
    obtain rfl | hb := List.mem_cons.mp hb
    · exact hL
    · obtain ⟨q, hq, rfl⟩ := List.mem_map.mp hb
      obtain ⟨hq, hst⟩ := List.mem_filter.mp hq
      obtain ⟨s, hs, hds⟩ := callsTo_iff.mp ((h.stream_iff he hd hq).mp (of_decide_eq_true hst))
      obtain ⟨s', hs', hf, -⟩ := h.accounted.placed.made q hq
      cases hs.symm.trans hs'
      exact hf ▸ h.admitted _ s hs hds

end Caller

end PeerLink
