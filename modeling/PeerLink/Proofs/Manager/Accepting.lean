import Mathlib.Algebra.GroupWithZero.Nat
import PeerLink.Proofs.Manager.Bystanders
import PeerLink.Proofs.Manager.Reaping

namespace PeerLink.Manager

inductive Offer where
  | connection (stream : StreamId) (peer : Endpoint)
  | failure (error : IoError)
  deriving DecidableEq

namespace Offer

/-- An offer is dealt with, and the acceptor asks for the next one. -/
def moves : Offer → List Move
  | connection stream peer => [.step .acceptor (.incoming stream peer)]
  | failure error => [.step .acceptor (.failed error), .elapse acceptPause, .step .acceptor .none]

def receiver? : Offer → Option Receiver
  | connection stream peer => some { stream, peer }
  | failure _ => none

def warning? : Offer → Option Happening
  | connection _ _ => none
  | failure error => some (.warned (.acceptFailed error))

def pause : Offer → Nat
  | connection _ _ => 0
  | failure _ => acceptPause

end Offer

/-- For how long the acceptor does not ask for a connection. -/
def pauseLeft (m : Manager) : Nat :=
  match m.acceptor with
  | .pausing deadline => deadline - m.clock
  | _ => 0

def readying (m : Manager) : List Move :=
  match m.acceptor with
  | .pausing _ => [.elapse m.pauseLeft, .step .acceptor .none]
  | _ => []

def afterOffers (m : Manager) (offers : List Offer) : Manager :=
  { m with
    clock := m.clock + (offers.map Offer.pause).sum
    receivers := m.receivers ++ offers.flatMap (·.receiver?.toList) }

def ready (m : Manager) : Manager :=
  { m with clock := m.clock + m.pauseLeft, acceptor := .accepting }

variable {m m' : Manager} {mv : Move} {hs : List Happening} {a : Answer} {t u : Transition}
  {error : IoError} {stream : StreamId} {peer : Endpoint}

theorem move_accept (ht : Tidy m) (ha : m.acceptor = .accepting) (hc : m.cancelled = false) :
    m.move (.step .acceptor (.incoming stream peer)) =
      some ({ m with receivers := m.receivers ++ [{ stream, peer }] }, []) := by
  simp [move_acceptor ht, acceptorStep, ha, hc]

theorem move_fail (ht : Tidy m) (ha : m.acceptor = .accepting) (hc : m.cancelled = false) :
    m.move (.step .acceptor (.failed error)) =
      some ({ m with acceptor := .pausing (m.clock + acceptPause) },
        [.warned (.acceptFailed error)]) := by
  simp [move_acceptor ht, acceptorStep, ha, hc]

theorem move_resume {deadline : Nat} (ht : Tidy m) (ha : m.acceptor = .pausing deadline)
    (hc : m.cancelled = false) (hd : deadline ≤ m.clock) :
    m.move (.step .acceptor .none) = some ({ m with acceptor := .accepting }, []) := by
  simp [move_acceptor ht, acceptorStep, ha, hc, hd]

theorem move_failed (hm : m.move (.step .acceptor (.failed error)) = some (m', hs)) (ht : Tidy m) :
    m' = { m with acceptor := .pausing (m.clock + acceptPause) } ∧
      hs = [.warned (.acceptFailed error)] := by
  rw [move_acceptor ht] at hm
  cases acceptorStep_cases hm with
  | fail => exact ⟨rfl, rfl⟩

theorem move_pausing {deadline : Nat} (hm : m.move (.step .acceptor a) = some (m', hs))
    (ht : Tidy m) (ha : m.acceptor = .pausing deadline) :
    m.cancelled = true ∧ hs = [.stoppedListening] ∨
      a = .none ∧ deadline ≤ m.clock ∧ m' = { m with acceptor := .accepting } ∧ hs = [] := by
  rw [move_acceptor ht] at hm
  cases acceptorStep_cases hm with
  | stop _ hc => exact .inl ⟨hc, rfl⟩
  | accept hs | fail hs => cases hs.symm.trans ha
  | resume hs _ hd =>
    cases hs.symm.trans ha
    exact .inr ⟨rfl, hd, rfl, rfl⟩

theorem Tidy.elapse (h : Tidy m) (time : Nat) : Tidy { m with clock := m.clock + time } :=
  h.of_refersTo rfl fun _ h => h

theorem afterOffers_cons {offer : Offer} {offers : List Offer} :
    (m.afterOffers [offer]).afterOffers offers = m.afterOffers (offer :: offers) := by
  simp [afterOffers, Nat.add_assoc]

theorem run_offer (ht : Tidy m) (ha : m.acceptor = .accepting) (hc : m.cancelled = false)
    (offer : Offer) :
    m.run offer.moves = some (m.afterOffers [offer], offer.warning?.toList) := by
  cases offer with
  | connection stream peer => exact run_cons.mpr ⟨_, [], [], move_accept ht ha hc, rfl, rfl⟩
  | failure error =>
    have hm : m.move (.step .acceptor (.failed error)) = _ := move_fail ht ha hc
    have hresume := move_resume ((ht.move hm).elapse acceptPause) rfl hc (Nat.le_refl _)
    have hsame : ({ m with clock := m.clock + acceptPause, acceptor := .accepting } : Manager) =
        m.afterOffers [.failure error] := by
      simp [afterOffers, Offer.pause, Offer.receiver?, ← ha]
    exact run_cons.mpr ⟨_, _, [], hm, run_cons.mpr ⟨_, [], [], rfl,
      run_cons.mpr ⟨_, [], [], hresume, congrArg (fun m => some (m, [])) hsame, rfl⟩, rfl⟩, rfl⟩

theorem run_offers (ht : Tidy m) (ha : m.acceptor = .accepting) (hc : m.cancelled = false)
    (offers : List Offer) : m.run (offers.flatMap Offer.moves) =
      some (m.afterOffers offers, offers.flatMap (·.warning?.toList)) := by
  induction offers generalizing m with
  | nil => simp [run, afterOffers]
  | cons offer offers ih =>
    have ho := run_offer ht ha hc offer
    have hrest := ih (run_invariant (fun _ _ _ _ => .move) ht ho) ha hc
    rw [afterOffers_cons] at hrest
    exact run_append.mpr ⟨_, _, _, ho, hrest, rfl⟩

theorem incoming_of_run {moves : List Move} (h : m.run moves = some (m', hs)) :
    m'.receivers.map Receiver.asAccepted =
      m.receivers.map Receiver.asAccepted ++ moves.filterMap Move.incoming? := by
  induction moves generalizing m hs with
  | nil =>
    cases h
    exact (List.append_nil _).symm
  | cons mv moves ih =>
    obtain ⟨m₁, hs₁, hs₂, hm, hrun, rfl⟩ := run_cons.mp h
    rw [ih hrun, incoming_of_move hm, List.append_assoc, List.filterMap_cons]
    cases mv.incoming? <;> rfl

/-- The acceptor goes on as long as the manager is not shut down, and no pause of it is longer than
the one that a failure costs. -/
structure Accepts (m : Manager) : Prop where
  stopped : m.acceptor = .stopped → m.cancelled = true
  pausing : ∀ deadline, m.acceptor = .pausing deadline → deadline ≤ m.clock + acceptPause

theorem Accepts.new (address : Endpoint) (config : Config) (clock : Nat) :
    Accepts (new address config clock) := ⟨nofun, nofun⟩

theorem Accepts.move (h : Accepts m) (hm : m.move mv = some (m', hs)) (ht : Tidy m) :
    Accepts m' := by
  have hl := move_later hm
  obtain ⟨⟨a, rfl⟩ | hsame, -, hclock⟩ := accepting_of_move hm
  · rw [move_acceptor ht] at hm
    cases acceptorStep_cases hm with
    | stop hs hc => exact ⟨fun _ => hc, nofun⟩
    | accept hs hc => exact ⟨h.stopped, h.pausing⟩
    | fail hs hc =>
      refine ⟨nofun, ?_⟩
      rintro _ ⟨⟩
      exact Nat.le_refl _
    | resume hs hc => exact ⟨nofun, nofun⟩
  · refine ⟨fun hs => hl.cancelled (h.stopped (hsame ▸ hs)), fun deadline hd => ?_⟩
    have := h.pausing deadline (hsame ▸ hd)
    omega

theorem run_accepts {address : Endpoint} {config : Config} {clock : Nat} {moves : List Move}
    (h : (new address config clock).run moves = some (m, hs)) : Accepts m :=
  (run_invariant (I := fun m => Tidy m ∧ Accepts m)
    (fun _ _ _ _ ⟨ht, ha⟩ hm => ⟨ht.move hm, ha.move hm ht⟩)
    ⟨.new address config clock, .new address config clock⟩ h).2

theorem run_readying (h : Accepts m) (ht : Tidy m) (hc : m.cancelled = false) :
    m.run m.readying = some (m.ready, []) := by
  cases ha : m.acceptor with
  | accepting =>
    simp only [readying, ready, pauseLeft, ha]
    rw [← ha]
    rfl
  | pausing deadline =>
    have hd : deadline ≤ m.clock + (deadline - m.clock) := by omega
    have hresume := move_resume (ht.elapse (deadline - m.clock)) ha hc hd
    simp only [readying, ready, pauseLeft, ha]
    exact run_cons.mpr ⟨_, [], [], rfl, run_cons.mpr ⟨_, [], [], hresume, rfl, rfl⟩, rfl⟩
  | stopped => cases hc.symm.trans (h.stopped ha)

theorem Accepts.pauseLeft_le (h : Accepts m) : m.pauseLeft ≤ acceptPause := by
  rw [pauseLeft]
  split
  · next deadline ha =>
    have := h.pausing deadline ha
    omega
  · exact Nat.zero_le _

/-- An acceptor that is not shut down deals with whatever is offered to it, after the rest of its
pause if it has to. -/
theorem run_all_offers (h : Accepts m) (ht : Tidy m) (hc : m.cancelled = false)
    (offers : List Offer) : m.run (m.readying ++ offers.flatMap Offer.moves) =
      some (m.ready.afterOffers offers, offers.flatMap (·.warning?.toList)) := by
  have hr := run_readying h ht hc
  have ht₁ : Tidy m.ready := run_invariant (fun _ _ _ _ => .move) ht hr
  exact run_append.mpr ⟨m.ready, [], _, hr, run_offers ht₁ rfl hc offers, rfl⟩

theorem acceptor_of_run {moves : List Move} (h : m.run moves = some (m', hs))
    (hno : ∀ t ∈ m.transitions moves, ∀ a, t.move ≠ .step .acceptor a) :
    m'.acceptor = m.acceptor := by
  refine run_induction (P := fun m' ts => (∀ t ∈ ts, ∀ a, t.move ≠ .step .acceptor a) →
    m'.acceptor = m.acceptor) (fun _ => rfl) (fun m₁ ts mv m₂ hs hi hm hno => ?_) h hno
  obtain ⟨a, rfl⟩ | hsame := (accepting_of_move hm).1
  · exact absurd rfl (hno _ (List.mem_append_right _ List.mem_cons_self) a)
  · exact hsame.trans (hi fun t ht => hno t (List.mem_append_left _ ht))

/-- After a failure the acceptor does nothing until its pause is over. -/
theorem next_of_failure {m₀ : Manager} {moves : List Move} {before mid after : List Transition}
    (h : m₀.run moves = some (m, hs)) (ht : Tidy m₀)
    (hts : m₀.transitions moves = before ++ t :: mid ++ u :: after)
    (hf : t.move = .step .acceptor (.failed error))
    (hmid : ∀ v ∈ mid, ∀ a, v.move ≠ .step .acceptor a) (hu : u.move = .step .acceptor a) :
    u.before.cancelled = true ∧ u.happenings = [.stoppedListening] ∨
      u.move = .step .acceptor .none ∧ t.before.clock + acceptPause ≤ u.before.clock ∧
        u.after = { u.before with acceptor := .accepting } ∧ u.happenings = [] := by
  -- The acceptor is as the failure has left it when its next step comes.
  rw [List.append_assoc, List.cons_append] at hts
  obtain ⟨moves₁, moves₂, hs₁, hs₂, hr₁, -, hmv, hr₂, hts₂⟩ := run_split h hts
  obtain ⟨moves₃, hs₃, hr₃, hts₃, hmu⟩ := run_of_transitions hts₂
  have ht₁ : Tidy t.before := run_invariant (fun _ _ _ _ => .move) ht hr₁
  have ht₂ : Tidy u.before := run_invariant (fun _ _ _ _ => .move) (ht₁.move hmv) hr₃
  have hsame : u.before.acceptor = t.after.acceptor := acceptor_of_run hr₃ (hts₃ ▸ hmid)
  have hpause : t.after.acceptor = .pausing (t.before.clock + acceptPause) := by
    rw [hf] at hmv
    rw [(move_failed hmv ht₁).1]
  rw [hu] at hmu
  obtain hstop | ⟨rfl, hd, hu'⟩ := move_pausing hmu ht₂ (hsame.trans hpause)
  · exact .inl hstop
  · exact .inr ⟨hu, hd, hu'⟩

end PeerLink.Manager
