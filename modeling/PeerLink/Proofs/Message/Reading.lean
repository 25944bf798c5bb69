import PeerLink.Message.Serializer
import PeerLink.Proofs.Message.Kinds
import PeerLink.Proofs.Message.Routes

namespace PeerLink.Message

variable {T : Type} [DecidableEq T] {V : Vocabulary T} {ω : Type}

inductive Decoded.HandedBack (d : Decoded V) : Decoded V → Prop where
  | untried : HandedBack d d
  | again {d₁ d₂ : Decoded V} {type : T} (h : HandedBack d d₁) (he : d₁.downcast type = .error d₂) :
    HandedBack d d₂

theorem Decoded.HandedBack.eq {d d' : Decoded V} (h : d.HandedBack d') : d' = d := by
  induction h with
  | untried => rfl
  | again _ he ih =>
    rw [downcast] at he
    split at he
    · split at he
      · cases he
      · cases he
        exact ih
    · cases he
      exact ih

namespace Registry

structure Holds (r : Registry V) (bytes : Bytes) (e : Envelope) (entry : Registration V)
    (message : V.Value entry.type) : Prop where
  envelope : Envelope.decode bytes = .ok e
  entered : entry ∈ r.entries
  kind : entry.kind = e.kind
  accepted : entry.codec.decode e.payload = .ok message

inductive Fails (r : Registry V) (subscriptions : List (T × ω)) (bytes : Bytes) :
    SerializationError → Prop where
  | malformed {reason} (h : Envelope.decode bytes = .error reason) :
    Fails r subscriptions bytes (.malformed reason)
  | unknownKind {e} (h : Envelope.decode bytes = .ok e)
    (hn : ∀ entry ∈ r.entries, entry.kind ≠ e.kind) :
    Fails r subscriptions bytes (.unknownKind e.kind)
  | payload {e entry fault} (h : Envelope.decode bytes = .ok e) (hm : entry ∈ r.entries)
    (hk : entry.kind = e.kind) (hf : entry.codec.decode e.payload = .error fault) :
    Fails r subscriptions bytes (.payload e.kind fault)
  | noSubscriber {e entry message} (h : r.Holds bytes e entry message)
    (hn : ∀ s ∈ subscriptions, s.1 ≠ entry.type) :
    Fails r subscriptions bytes (.noSubscriber e.kind)

variable {r : Registry V} {bytes : Bytes} {e e' : Envelope} {entry entry' : Registration V}
  {message : V.Value entry.type} {message' : V.Value entry'.type} {error : SerializationError}
  {subscriptions : List (T × ω)} {type : T} {o : ω}

def found (e : Envelope) (entry : Registration V) (message : V.Value entry.type) : Decoded V :=
  ⟨e.kind, e.sequence, entry.type, ⟨entry.type, message⟩⟩

/-- A message handed to one subscriber. -/
def handed (o : ω) (e : Envelope) (entry : Registration V) (message : V.Value entry.type) :
    Handover T V ω :=
  .delivered ⟨o, entry.type, e.sequence, message⟩

theorem Holds.decode (h : r.Holds bytes e entry message) :
    r.decode bytes = .ok (found e entry message) := by
  have hk : r.byKind? e.kind = some entry := byKind?_eq_some.mpr ⟨h.entered, h.kind⟩
  simp only [Registry.decode, h.envelope, hk, Registration.decode, h.accepted]
  rfl

theorem decode_cases (r : Registry V) (bytes : Bytes) :
    (∃ e entry, ∃ message : V.Value entry.type, r.Holds bytes e entry message) ∨
      ∃ error, r.decode bytes = .error error ∧
        ∀ {ω : Type} (subscriptions : List (T × ω)), r.Fails subscriptions bytes error := by
  cases he : Envelope.decode bytes with
  | error reason => exact .inr ⟨_, by simp [Registry.decode, he], fun _ => .malformed he⟩
  | ok e =>
    cases hk : r.byKind? e.kind with
    | none =>
      exact .inr ⟨_, by simp [Registry.decode, he, hk],
        fun _ => .unknownKind he (byKind?_eq_none.mp hk)⟩
    | some entry =>
      obtain ⟨hm, hkind⟩ := byKind?_eq_some.mp hk
      cases hc : entry.codec.decode e.payload with
      | error fault =>
        refine .inr ⟨.payload e.kind fault, ?_, fun _ => .payload he hm hkind hc⟩
        simp [Registry.decode, he, hk, Registration.decode, hc, hkind]
      | ok message => exact .inl ⟨e, entry, message, he, hm, hkind, hc⟩

theorem Holds.unique (h : r.Holds bytes e entry message) (h' : r.Holds bytes e' entry' message') :
    e' = e ∧ (⟨entry', message'⟩ : (entry : Registration V) × V.Value entry.type) =
      ⟨entry, message⟩ := by
  cases h.envelope.symm.trans h'.envelope
  have hk := byKind?_eq_some.mpr ⟨h.entered, h.kind⟩
  have hk' := byKind?_eq_some.mpr ⟨h'.entered, h'.kind⟩
  cases hk.symm.trans hk'
  cases h.accepted.symm.trans h'.accepted
  exact ⟨rfl, rfl⟩

theorem Holds.read_of_last (h : r.Holds bytes e entry message)
    (hl : Router.Last subscriptions entry.type o) :
    r.read bytes (Router.of subscriptions) = (.ok (), [handed o e entry message]) := by
  have hr : (Router.of subscriptions).route? entry.type = some ⟨entry.type, o⟩ :=
    Router.route?_of.mpr ⟨rfl, hl⟩
  simp [Registry.read, h.decode, found, handed, Router.route, hr, Route.hand]

theorem Holds.read_of_none (h : r.Holds bytes e entry message)
    (hn : ∀ s ∈ subscriptions, s.1 ≠ entry.type) :
    r.read bytes (Router.of subscriptions) = (.error (.noSubscriber e.kind), []) := by
  have hr := Router.route?_of_eq_none.mpr hn
  simp [Registry.read, h.decode, found, Router.route, hr]

theorem read_cases (r : Registry V) (bytes : Bytes) (subscriptions : List (T × ω)) :
    (∃ e entry o, ∃ message : V.Value entry.type, r.Holds bytes e entry message ∧
      Router.Last subscriptions entry.type o ∧
      r.read bytes (Router.of subscriptions) = (.ok (), [handed o e entry message])) ∨
    ∃ error, r.Fails subscriptions bytes error ∧
      r.read bytes (Router.of subscriptions) = (.error error, []) := by
  obtain ⟨e, entry, message, h⟩ | ⟨error, hd, hf⟩ := decode_cases r bytes
  · by_cases hs : ∃ s ∈ subscriptions, s.1 = entry.type
    · obtain ⟨⟨t, o⟩, hs, rfl⟩ := hs
      obtain ⟨o', hl⟩ := Router.exists_last hs
      exact .inl ⟨e, entry, o', message, h, hl, h.read_of_last hl⟩
    · have hn : ∀ s ∈ subscriptions, s.1 ≠ entry.type := fun s hs' he => hs ⟨s, hs', he⟩
      exact .inr ⟨_, .noSubscriber h hn, h.read_of_none hn⟩
  · exact .inr ⟨error, hf subscriptions, by simp [Registry.read, hd]⟩

theorem Fails.read (h : r.Fails subscriptions bytes error) :
    r.read bytes (Router.of subscriptions) = (.error error, []) := by
  cases h with
  | malformed h => simp [Registry.read, Registry.decode, h]
  | unknownKind h hn => simp [Registry.read, Registry.decode, h, byKind?_eq_none.mpr hn]
  | payload h hm hk hf =>
    have hkind := byKind?_eq_some.mpr ⟨hm, hk⟩
    simp [Registry.read, Registry.decode, h, hkind, Registration.decode, hf, hk]
  | noSubscriber h hn => exact h.read_of_none hn

theorem downcast_found {d : Decoded V} (hd : (found e entry message).HandedBack d) :
    d.downcast entry.type = .ok ⟨e.sequence, message⟩ := by
  rw [hd.eq]
  simp [found, Decoded.downcast, Decoded.is]

theorem Holds.readAs (h : r.Holds bytes e entry message) :
    r.readAs entry.type bytes = .ok ⟨e.sequence, message⟩ := by
  simp only [Registry.readAs, h.decode, downcast_found .untried]
  rfl

theorem Holds.readAs_of_ne (h : r.Holds bytes e entry message) (hn : entry.type ≠ type) :
    r.readAs type bytes = .error (.typeMismatch e.kind (V.name type)) := by
  simp only [Registry.readAs, h.decode, Decoded.downcast, Decoded.is, found, hn]
  rfl

theorem readAs_iff (r : Registry V) (bytes : Bytes) (type : T) (o : ω)
    (i : Instance (V.Value type)) : r.readAs type bytes = .ok i ↔
      (r.read bytes (Router.of [(type, o)])).2 = [.delivered ⟨o, type, i⟩] := by
  obtain ⟨e, entry, message, h⟩ | ⟨error, hd, hf⟩ := decode_cases r bytes
  · by_cases ht : entry.type = type
    · subst ht
      have hl : Router.Last [(entry.type, o)] entry.type o := ⟨[], [], rfl, by simp⟩
      rw [h.readAs, h.read_of_last hl]
      simp [handed]
    · have hn : ∀ s ∈ [(type, o)], s.1 ≠ entry.type := by
        simpa using fun e => ht e.symm
      rw [h.readAs_of_ne ht, h.read_of_none hn]
      simp
  · simp [Registry.readAs, Registry.read, hd]

theorem readAs_mismatch_iff (r : Registry V) (bytes : Bytes) (type : T) (kind expected : String) :
    r.readAs type bytes = .error (.typeMismatch kind expected) ↔
      expected = V.name type ∧ ∃ e entry, ∃ message : V.Value entry.type,
        r.Holds bytes e entry message ∧ entry.type ≠ type ∧ e.kind = kind := by
  constructor
  · intro hr
    obtain ⟨e, entry, message, h⟩ | ⟨error, hd, hf⟩ := decode_cases r bytes
    · by_cases ht : entry.type = type
      · subst ht
        cases h.readAs.symm.trans hr
      · cases (h.readAs_of_ne ht).symm.trans hr
        exact ⟨rfl, e, entry, message, h, ht, rfl⟩
    · simp only [Registry.readAs, hd] at hr
      cases hr
      cases hf ([] : List (T × Unit))
  · rintro ⟨rfl, e, entry, message, h, ht, rfl⟩
    exact h.readAs_of_ne ht

/-- Whatever the registry, the subscriptions and the bytes: reading hands over one message, and
succeeds, or fails and hands over none; no message comes to a subscriber for another type. It
succeeds for an envelope of a known kind with a payload that the kind's codec accepts, if there is a
subscriber for the kind's type, and the message goes to the last of them. What it fails by is the
first thing that is wrong. Reading as one type agrees with reading for a lone subscriber for it, and
reports a message of another type as such; and a message can be taken as what it is however often it
was taken for something else before. -/
theorem read_all_or_nothing (r : Registry V) (subscriptions : List (T × ω)) (bytes : Bytes) :
    let read := r.read bytes (Router.of subscriptions)
    (read.2.length ≤ 1 ∧ (read.1 = .ok () ↔ read.2 ≠ []) ∧ ∀ w, .warned w ∉ read.2) ∧
    (read.1 = .ok () ↔ ∃ e entry, ∃ message : V.Value entry.type,
      r.Holds bytes e entry message ∧ ∃ s ∈ subscriptions, s.1 = entry.type) ∧
    (∀ e entry (message : V.Value entry.type) o, r.Holds bytes e entry message →
      Router.Last subscriptions entry.type o →
      read.2 = [.delivered ⟨o, entry.type, e.sequence, message⟩]) ∧
    (∀ error, read.1 = .error error ↔ r.Fails subscriptions bytes error) ∧
    (∀ type (o : ω) (i : Instance (V.Value type)), r.readAs type bytes = .ok i ↔
      (r.read bytes (Router.of [(type, o)])).2 = [.delivered ⟨o, type, i⟩]) ∧
    (∀ type kind expected, r.readAs type bytes = .error (.typeMismatch kind expected) ↔
      expected = V.name type ∧ ∃ e entry, ∃ message : V.Value entry.type,
        r.Holds bytes e entry message ∧ entry.type ≠ type ∧ e.kind = kind) ∧
    ∀ e entry (message : V.Value entry.type), r.Holds bytes e entry message →
      ∃ d, r.decode bytes = .ok d ∧
        ∀ d', d.HandedBack d' → d'.downcast entry.type = .ok ⟨e.sequence, message⟩ := by
  intro read
  refine ⟨?_, ?_, fun e entry message o h hl => ?_, fun error => ?_,
    fun type o i => readAs_iff r bytes type o i,
    fun type kind expected => readAs_mismatch_iff r bytes type kind expected,
    fun e entry message h => ⟨_, h.decode, fun d' hd => downcast_found hd⟩⟩
  · obtain ⟨e, entry, o, message, -, -, hr⟩ | ⟨error, -, hr⟩ := read_cases r bytes subscriptions
    · simp [read, hr, handed]
    · simp [read, hr]
  · constructor
    · intro hok
      obtain ⟨e, entry, o, message, h, hl, -⟩ | ⟨error, -, hr⟩ := read_cases r bytes subscriptions
      · exact ⟨e, entry, message, h, _, hl.mem, rfl⟩
      · simp [read, hr] at hok
    · rintro ⟨e, entry, message, h, ⟨t, o⟩, hs, rfl⟩
      obtain ⟨o', hl⟩ := Router.exists_last hs
      exact congrArg Prod.fst (h.read_of_last hl)
  · exact congrArg Prod.snd (h.read_of_last hl)
  · constructor
    · intro he
      obtain ⟨e, entry, o, message, -, -, hr⟩ | ⟨error', hf, hr⟩ := read_cases r bytes subscriptions
      · simp [read, hr] at he
      · have hsame : error' = error := by simpa [read, hr] using he
        exact hsame ▸ hf
    · exact fun hf => congrArg Prod.fst hf.read

end Registry

end PeerLink.Message
