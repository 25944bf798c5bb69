import PeerLink.Proofs.Pair.Ends

namespace PeerLink

open Manager

variable {L : Layout} {m m' m₁ : Manager} {mv : Manager.Move} {hs hs₁ : List Happening}
  {ts : List Transition} {id : Nat} {r : Receiver} {a : Answer} {bytes : Bytes}

namespace Manager

theorem ReceiverStep.lingers (h : ReceiverStep m id r a m₁ hs₁)
    (hw : ∃ peer, .warned (.handshakeTimedOut peer) ∈ hs₁) :
    a = .none ∧ r.stage.lingers = true := by
  obtain ⟨peer, hw⟩ := hw
  cases h with
  | expire hs _ hf =>
    rw [hs]
    exact ⟨rfl, by simp [ReceiverStage.lingers, hf]⟩
  | miss =>
    obtain hw | ⟨s, hw⟩ := afterRouting_happenings hw
    · cases hw
    · cases hw
  | hand =>
    obtain hw | ⟨s, hw⟩ := afterRouting_happenings hw
    · cases List.mem_singleton.mp hw
    · cases hw
  | _ => simp at hw

theorem Transition.TimesOut.lingers (h : (Transition.mk m mv m' hs).TimesOut id)
    (hm : m.move mv = some (m', hs)) :
    mv = .step (.receiver id) .none ∧ ∃ r, m.receivers[id]? = some r ∧ r.stage.lingers = true := by
  obtain ⟨htask, peer, hw⟩ := h
  cases mv with
  | step task a =>
    cases htask
    obtain ⟨⟨m₁, hs₁⟩, ho, hr⟩ := move_step hm
    obtain ⟨r, hg, hstep⟩ := receiverStep_cases ho
    obtain ⟨streams, rfl⟩ := reap_happenings hr
    have hw : ∃ peer, .warned (.handshakeTimedOut peer) ∈ hs₁ := by
      refine ⟨peer, (List.mem_append.mp hw).resolve_right fun hw => ?_⟩
      obtain ⟨_, -, hw⟩ := List.mem_map.mp hw
      cases hw
    obtain ⟨rfl, hl⟩ := hstep.lingers hw
    exact ⟨rfl, r, hg, hl⟩
  | _ => cases htask

theorem incoming_receivers {stream : StreamId} {peer : Endpoint}
    (hm : m.move (.step .acceptor (.incoming stream peer)) = some (m', hs)) :
    m'.receivers = m.receivers ++ [({ stream, peer } : Receiver)] := by
  obtain ⟨⟨m₁, hs₁⟩, ho, hr⟩ := move_step hm
  rw [reap_scope hr]
  cases acceptorStep_cases ho with
  | accept => rfl

end Manager

structure Attached (peer : Endpoint) (m : Manager) (ts : List Transition) (id : Nat)
    (bytes : Bytes) : Prop where
  known : ∃ r, m.receivers[id]? = some r ∧ r.peer = peer
  chunks : ∃ chunks : List Bytes, ts.flatMap (·.reads id) = chunks.map .chunk
  part : readBy id ts <+: bytes
  patient : ∀ t ∈ ts, ¬t.TimesOut id

theorem Attached.start {number : StreamId} {peer : Endpoint} (hi : Received m.receivers.length m ts)
    (hm : m.move (.step .acceptor (.incoming number peer)) = some (m', hs)) :
    Attached peer m' (ts ++ [⟨m, .step .acceptor (.incoming number peer), m', hs⟩])
      m.receivers.length bytes := by
  have hnone : m.receivers[m.receivers.length]? = none := List.getElem?_eq_none (Nat.le_refl _)
  obtain ⟨-, hno⟩ := hi.absent_move (t := ⟨m, _, m', hs⟩) hm hnone
  have hreads := reads_of_absent hno
  refine ⟨⟨{ stream := number, peer }, ?_, rfl⟩, ⟨[], hreads⟩, ?_, fun t ht hl => ?_⟩
  · rw [incoming_receivers hm, List.getElem?_concat_length]
  · rw [readBy, hreads]
    exact List.nil_prefix
  · obtain ⟨htask, -⟩ := hl
    cases hmv : t.move with
    | step task a =>
      rw [hmv] at htask
      cases htask
      exact hno t ht a hmv
    | _ =>
      rw [hmv] at htask
      cases htask

theorem Attached.move {peer : Endpoint} (h : Attached peer m ts id bytes)
    (hm : m.move mv = some (m', hs))
    (hread : ∀ a, mv = .step (.receiver id) a →
      a = .none ∧ (∀ r, m.receivers[id]? = some r → r.stage.lingers = false) ∨
        ∃ more, a = .chunk more ∧ readBy id ts ++ more <+: bytes) :
    Attached peer m' (ts ++ [⟨m, mv, m', hs⟩]) id bytes := by
  have hmore : ∃ chunks : List Bytes, (Transition.mk m mv m' hs).reads id = chunks.map .chunk ∧
      readBy id ts ++ chunks.flatten <+: bytes := by
    by_cases hmv : ∃ a, mv = .step (.receiver id) a
    · obtain ⟨a, rfl⟩ := hmv
      rw [Transition.reads_of_step rfl]
      obtain ⟨rfl, -⟩ | ⟨more, rfl, hp⟩ := hread a rfl
      · exact ⟨[], rfl, by simpa using h.part⟩
      · exact ⟨[more], rfl, by simpa using hp⟩
    · rw [Transition.reads_of_ne fun a ha => hmv ⟨a, ha⟩]
      exact ⟨[], rfl, by simpa using h.part⟩
  obtain ⟨r, hr, hpeer⟩ := h.known
  obtain ⟨r', hr', hp'⟩ := move_peer hm hr
  obtain ⟨chunks, hc⟩ := h.chunks
  obtain ⟨more, hc', hpart⟩ := hmore
  have hall : (ts ++ [Transition.mk m mv m' hs]).flatMap (·.reads id) =
      (chunks ++ more).map .chunk := by
    rw [List.flatMap_append, List.flatMap_singleton, hc, hc', List.map_append]
  refine ⟨⟨r', hr', hp'.trans hpeer⟩, ⟨_, hall⟩, ?_, fun t ht hl => ?_⟩
  · rw [readBy_of_chunks hall, List.flatten_append, ← readBy_of_chunks hc]
    exact hpart
  · obtain ht | ht := List.mem_append.mp ht
    · exact h.patient t ht hl
    · cases List.mem_singleton.mp ht
      obtain ⟨rfl, r₀, hr₀, hlingers⟩ := hl.lingers hm
      obtain ⟨-, hno⟩ | ⟨_, hno, -⟩ := hread _ rfl
      · exact absurd (hno r₀ hr₀) (by rw [hlingers]; nofun)
      · cases hno

namespace Pair

/-- A pair in which streams to the far end are read as they were written. -/
structure Sound (L : Layout) (p : Pair) : Prop where
  caller : Caller L p.near p.sent
  callee : Callee L p.far p.got
  streams : ∀ st ∈ p.arrivals, ∃ e ∈ openedStreams p.sent, e.stream = st.1 ∧
    p.near.callsTo L.destination e.send = true
  apart : (p.arrivals.map Prod.fst).Nodup
  attached : ∀ st ∈ p.arrivals, Attached L.peer p.far p.got st.2 (taken p.sent st.1)
  heard : ∀ id, p.near.callsTo L.destination id = true →
    ∃ s, Hears p.far L.source s ∧ ∀ st ∈ p.arrivals, Passed L.source st.2 s p.far p.got

variable {p p' : Pair} {st : StreamId × Nat}

theorem Sound.start (L : Layout) : Sound L (start L) where
  caller := .new L
  callee := .new L
  streams _ h := absurd h List.not_mem_nil
  apart := List.nodup_nil
  attached _ h := absurd h List.not_mem_nil
  heard id h := by
    obtain ⟨s, hs, -⟩ := callsTo_iff.mp h
    simp [Pair.start, Site.start, Manager.new] at hs

theorem Sound.position (h : Sound L p) (hst : st ∈ p.arrivals)
    (hr : p.far.receivers[st.2]? = some r) : ∃ chunks : List Bytes,
      readBy st.2 p.got = chunks.flatten ∧ Position L.far.config.maxFrame L.peer chunks .pending
        (p.got.flatMap (·.handed st.2)) (∃ t ∈ p.got, t.TimesOut st.2) r.stage := by
  have ha := h.attached st hst
  obtain ⟨r', hr', hpeer⟩ := ha.known
  cases hr.symm.trans hr'
  obtain ⟨chunks, hc⟩ := ha.chunks
  obtain ⟨chunks', ending, hreads, hp⟩ := (h.callee.received st.2).present h.callee.running r hr
  have hboth : chunks'.map Answer.chunk ++ ending.answers =
      chunks.map .chunk ++ StreamEnd.pending.answers := by
    rw [← hreads, hc, StreamEnd.answers, List.append_nil]
  obtain ⟨rfl, rfl⟩ := answers_inj hboth
  refine ⟨chunks', readBy_of_chunks hc, ?_⟩
  rwa [h.callee.config, hpeer] at hp

/-- A receiver at the end of a stream hands over the frames that were put on the stream, as ones
from the near end. -/
theorem Sound.intact (h : Sound L p) (hL : L.Admits L.hello) (hst : st ∈ p.arrivals)
    (hr : p.far.receivers[st.2]? = some r) :
    p.got.flatMap (·.handed st.2) <+:
        (framesOn st.1 (placements p.sent)).map (fun b => (L.source, .frame b)) ∧
      (∀ source, r.stage.source? = some source → source = L.source) ∧ r.stage ≠ .ended := by
  obtain ⟨e, he, hes, hd⟩ := h.streams st hst
  obtain ⟨hpre, hfit⟩ := h.caller.taken_prefix he hd hL
  obtain ⟨chunks, hread, hp⟩ := h.position hst hr
  have ha := h.attached st hst
  rw [hes] at hpre hfit
  refine hp.intact (fun ⟨t, ht, hl⟩ => ha.patient t ht hl) ?_ (fun b hb => (hfit b hb).2)
    (sourceOf?_greeting _ _)
  exact (hread ▸ ha.part).trans hpre

theorem Sound.near {mv : Manager.Move} (h : Sound L p) (hL : L.Admits L.hello)
    (hfits : (Move.near mv).fits L = true) (hmay : p.mayNear L mv = true)
    (hm : p.near.move mv = some (m, hs)) (ho : m.closed = false) :
    Sound L { p with near := m, sent := p.sent ++ [⟨p.near, mv, m, hs⟩] } := by
  have hcaller := h.caller.move hL hm ho (mayNear_spares hmay)
    (fun id stream hmv => mayNear_connected (hmv ▸ hmay)) fun f hf => by
      obtain ⟨-, hfree⟩ := mayNear_send (hf ▸ hmay)
      exact ⟨fits_send (hf ▸ hfits), hfree⟩
  have hstreams : ∀ st ∈ p.arrivals, ∃ e ∈ openedStreams (p.sent ++ [⟨p.near, mv, m, hs⟩]),
      e.stream = st.1 ∧ m.callsTo L.destination e.send = true := by
    intro st hst
    obtain ⟨e, he, hes, hd⟩ := h.streams st hst
    refine ⟨e, ?_, hes, move_callsTo hm hd⟩
    rw [openedStreams_concat]
    exact List.mem_append_left _ he
  refine ⟨hcaller, h.callee, hstreams, h.apart, fun st hst => ?_, fun id hd => ?_⟩
  · have ha := h.attached st hst
    refine ⟨ha.known, ha.chunks, ha.part.trans ?_, ha.patient⟩
    rw [taken_concat]
    exact List.prefix_append _ _
  · obtain hd | ⟨f, rfl⟩ := callsTo_move hm hd
    · exact h.heard id hd
    · -- There is nothing at the far end before the first call; the others find the same observer.
      by_cases hfirst : ∃ j, p.near.callsTo L.destination j = true
      · obtain ⟨j, hj⟩ := hfirst
        exact h.heard j hj
      · obtain ⟨⟨s, hs⟩, -⟩ := mayNear_send hmay
        refine ⟨s, hs, fun st hst => ?_⟩
        obtain ⟨e, -, -, hd⟩ := h.streams st hst
        exact absurd ⟨_, hd⟩ hfirst

theorem Sound.far {mv : Manager.Move} (h : Sound L p) (hL : L.Admits L.hello)
    (hmay : p.mayFar L mv = true) (hm : p.far.move mv = some (m, hs)) (ho : m.closed = false) :
    Sound L { p with far := m, got := p.got ++ [⟨p.far, mv, m, hs⟩] } := by
  refine ⟨h.caller, h.callee.move hm ho, h.streams, h.apart, fun st hst => ?_, fun id hd => ?_⟩
  · refine (h.attached st hst).move hm fun a hmv => ?_
    exact mayFar_read (hmv ▸ hmay) (show (st.1, st.2) ∈ p.arrivals from hst)
  · obtain ⟨s, hs, hpass⟩ := h.heard id hd
    refine ⟨s, hs.move h.callee.served hm ho ?_, fun st hst => ?_⟩
    · rintro rfl
      exact absurd hd (by rw [mayFar_unregister hmay]; nofun)
    · obtain ⟨r, hr, -⟩ := (h.attached st hst).known
      obtain ⟨-, hsrc, -⟩ := h.intact hL hst hr
      exact (hpass st hst).move hm hr fun source he => ⟨hs.1, .inl (hsrc source he).symm⟩

theorem Sound.join {stream number : StreamId} (h : Sound L p) (hL : L.Admits L.hello)
    (hmay : p.mayJoin L stream = true)
    (hm : p.far.move (.step .acceptor (.incoming number L.peer)) = some (m, hs))
    (ho : m.closed = false) :
    Sound L { p with
      far := m
      got := p.got ++ [⟨p.far, .step .acceptor (.incoming number L.peer), m, hs⟩]
      arrivals := p.arrivals ++ [(stream, p.far.receivers.length)] } := by
  have hfar := h.far hL rfl hm ho
  have hnone : p.far.receivers[p.far.receivers.length]? = none :=
    List.getElem?_eq_none (Nat.le_refl _)
  obtain ⟨⟨e, he, hes, hd⟩, hnew⟩ := mayJoin_iff.mp hmay
  refine ⟨hfar.caller, hfar.callee, fun st hst => ?_, ?_, fun st hst => ?_, fun id hd => ?_⟩
  · obtain hst | hst := List.mem_append.mp hst
    · exact h.streams st hst
    · cases List.mem_singleton.mp hst
      exact ⟨e, he, hes, hd⟩
  · rw [List.map_append, List.map_singleton]
    exact List.nodup_append.mpr ⟨h.apart, by simp, by rintro s hs _ hs' rfl; simp_all⟩
  · obtain hst | hst := List.mem_append.mp hst
    · exact hfar.attached st hst
    · cases List.mem_singleton.mp hst
      exact .start (h.callee.received _) hm
  · obtain ⟨s, hs, hpass⟩ := hfar.heard id hd
    refine ⟨s, hs, fun st hst => ?_⟩
    obtain hst | hst := List.mem_append.mp hst
    · exact hpass st hst
    · cases List.mem_singleton.mp hst
      exact .start (h.callee.received _) hm hnone

theorem Sound.move {mv : Pair.Move} (h : Sound L p) (hL : L.Admits L.hello)
    (hfits : mv.fits L = true) (hm : p.move L mv = some p') : Sound L p' := by
  obtain ⟨mv, m, hs, rfl, hmay, hmv, ho, rfl⟩ | ⟨mv, m, hs, hmay, hmv, ho, rfl⟩ |
    ⟨stream, number, m, hs, hmay, ho, hmv, rfl⟩ := move_cases hm
  · exact h.near hL hfits hmay hmv ho
  · exact h.far hL hmay hmv ho
  · exact h.join hL hmay hmv ho

theorem run_sound {moves : List Pair.Move} (hL : L.Admits L.hello)
    (hfits : ∀ mv ∈ moves, mv.fits L = true) (h : (start L).run L moves = some p) : Sound L p :=
  run_invariant (fun _ mv hmv _ hp hm => hp.move hL (hfits mv hmv) hm) (.start L) h

end Pair

end PeerLink
