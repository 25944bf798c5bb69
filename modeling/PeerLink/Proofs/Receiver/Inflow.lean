import Mathlib.Data.List.TakeWhile
import PeerLink.Proofs.Receiver.Delivery

namespace PeerLink.Manager

/-- What comes to a connection: pieces of its bytes with their times, and how the bytes end, with
the time at which this is known. No piece overtakes the one before it. -/
structure Inflow where
  pieces : List (Nat × Bytes)
  ending : StreamEnd := .pending
  endTime : Nat := 0

def bytesOf (answers : List Answer) : Bytes :=
  answers.flatMap fun
    | .chunk bytes => bytes
    | _ => []

def endOf (answers : List Answer) : List Answer :=
  answers.filter fun
    | .chunk _ => false
    | _ => true

namespace Inflow

variable (f : Inflow) (now : Nat)

/-- The bytes up to the first piece whose time does not qualify. -/
def bytes (p : Nat → Bool) : Bytes := (f.pieces.takeWhile (p ·.1)).flatMap Prod.snd

def endingAt : StreamEnd :=
  if (∀ x ∈ f.pieces, x.1 ≤ now) ∧ f.endTime ≤ now then f.ending else .pending

def Exhausted (reads : List Answer) : Prop :=
  bytesOf reads = f.bytes (· ≤ now) ∧ endOf reads = (f.endingAt now).answers

def Brings (reads : List Answer) : Prop :=
  bytesOf reads <+: f.bytes (· ≤ now) ∧ (endOf reads = [] ∨ f.Exhausted now reads)

instance (reads : List Answer) : Decidable (f.Exhausted now reads) :=
  inferInstanceAs (Decidable (_ ∧ _))

instance (reads : List Answer) : Decidable (f.Brings now reads) :=
  inferInstanceAs (Decidable (_ ∧ _))

end Inflow

variable {f : Inflow} {now now' d : Nat} {chunks : List Bytes} {ending : StreamEnd}
  {reads : List Answer}

theorem bytesOf_answers : bytesOf (chunks.map .chunk ++ ending.answers) = chunks.flatten := by
  have hend : bytesOf ending.answers = [] := by cases ending <;> rfl
  have hchunks : bytesOf (chunks.map .chunk) = chunks.flatten := by
    induction chunks with
    | nil => rfl
    | cons c chunks ih => exact congrArg (c ++ ·) ih
  rw [bytesOf, List.flatMap_append, ← bytesOf, ← bytesOf, hend, hchunks, List.append_nil]

theorem endOf_answers : endOf (chunks.map .chunk ++ ending.answers) = ending.answers := by
  have hend : endOf ending.answers = ending.answers := by cases ending <;> rfl
  have hchunks : endOf (chunks.map .chunk) = [] := by
    induction chunks with
    | nil => rfl
    | cons c chunks ih => exact ih
  rw [endOf, List.filter_append, ← endOf, ← endOf, hend, hchunks, List.nil_append]

theorem StreamEnd.answers_broken {error : IoError} :
    StreamEnd.pending.answers ++ (if Answer.failed error = .none then [] else [.failed error]) =
      (StreamEnd.broken error).answers := by
  simp [StreamEnd.answers]

theorem StreamEnd.answers_eq_nil : ending.answers = [] ↔ ending = .pending := by
  cases ending <;> simp [StreamEnd.answers]

theorem StreamEnd.answers_injective : Function.Injective StreamEnd.answers := by
  intro e e' h
  have happ : ([] : List Bytes).map Answer.chunk ++ e.answers = [].map Answer.chunk ++ e'.answers := h
  exact (answers_inj happ).2

theorem takeWhile_prefix_of_imp {α : Type} {p q : α → Bool} (h : ∀ x, p x = true → q x = true)
    (xs : List α) : xs.takeWhile p <+: xs.takeWhile q := by
  have hp : xs.takeWhile p = (xs.takeWhile q).takeWhile p := by
    rw [List.takeWhile_takeWhile]
    refine congrArg (xs.takeWhile ·) (funext fun x => ?_)
    cases hx : p x with
    | false => simp
    | true => simp [h x hx]
  rw [hp]
  exact List.takeWhile_prefix _

namespace Inflow

theorem bytes_prefix {p q : Nat → Bool} (h : ∀ t, p t = true → q t = true) :
    f.bytes p <+: f.bytes q := by
  obtain ⟨more, hm⟩ := takeWhile_prefix_of_imp (fun x : Nat × Bytes => h x.1) f.pieces
  exact ⟨more.flatMap Prod.snd, by rw [bytes, bytes, ← hm, List.flatMap_append]⟩

theorem bytes_mono (h : now ≤ now') : f.bytes (· ≤ now) <+: f.bytes (· ≤ now') :=
  bytes_prefix fun _ ht => decide_eq_true ((of_decide_eq_true ht).trans h)

/-- Where nothing comes at the last moment, what is in time is what is there by then. -/
theorem bytes_lt (h : ∀ x ∈ f.pieces, x.1 ≠ d) : f.bytes (· < d) = f.bytes (· ≤ d) := by
  rw [bytes, bytes]
  generalize f.pieces = xs at h
  refine congrArg (List.flatMap Prod.snd) ?_
  induction xs with
  | nil => rfl
  | cons x xs ih =>
    have hx : decide (x.1 < d) = decide (x.1 ≤ d) :=
      decide_eq_decide.mpr ⟨Nat.le_of_lt, fun hle => Nat.lt_of_le_of_ne hle (h x List.mem_cons_self)⟩
    rw [List.takeWhile_cons, List.takeWhile_cons, hx, ih fun y hy => h y (List.mem_cons_of_mem x hy)]

theorem endingAt_of_open (h : f.ending = .pending) : f.endingAt now = .pending := by
  rw [endingAt, h, ite_self]

theorem endingAt_later (h : f.endingAt now ≠ .pending) (hle : now ≤ now') :
    f.endingAt now' = f.endingAt now ∧ f.bytes (· ≤ now') = f.bytes (· ≤ now) := by
  obtain ⟨hnow, htime⟩ : (∀ x ∈ f.pieces, x.1 ≤ now) ∧ f.endTime ≤ now := by
    by_contra hn
    exact h (if_neg hn)
  have hlater : ∀ x ∈ f.pieces, x.1 ≤ now' := fun x hx => (hnow x hx).trans hle
  constructor
  · rw [endingAt, endingAt, if_pos ⟨hlater, htime.trans hle⟩, if_pos ⟨hnow, htime⟩]
  · rw [bytes, bytes, List.takeWhile_eq_self_iff.mpr fun x hx => decide_eq_true (hlater x hx),
      List.takeWhile_eq_self_iff.mpr fun x hx => decide_eq_true (hnow x hx)]

theorem endingAt_ne_pending (h : f.endingAt now ≠ .pending) (hle : now ≤ now') :
    f.endingAt now' ≠ .pending := by
  rw [(endingAt_later h hle).1]
  exact h

theorem Exhausted.answers (h : f.Exhausted now (chunks.map .chunk ++ ending.answers)) :
    chunks.flatten = f.bytes (· ≤ now) ∧ f.endingAt now = ending := by
  rw [Exhausted, bytesOf_answers, endOf_answers] at h
  exact ⟨h.1, (StreamEnd.answers_injective h.2).symm⟩

theorem Brings.prefix_bytes (h : f.Brings now (chunks.map .chunk ++ ending.answers)) :
    chunks.flatten <+: f.bytes (· ≤ now) := by
  have hp := h.1
  rwa [bytesOf_answers] at hp

theorem Brings.ended (h : f.Brings now (chunks.map .chunk ++ ending.answers))
    (he : ending ≠ .pending) : chunks.flatten = f.bytes (· ≤ now) ∧ f.endingAt now = ending := by
  refine (h.2.resolve_left fun hn => he ?_).answers
  rw [endOf_answers] at hn
  exact StreamEnd.answers_eq_nil.mp hn

theorem Brings.later (h : f.Brings now reads) (hle : now ≤ now') : f.Brings now' reads := by
  refine ⟨h.1.trans (bytes_mono hle), ?_⟩
  by_cases he : endOf reads = []
  · exact .inl he
  · obtain ⟨hb, hend⟩ := h.2.resolve_left he
    have hknown : f.endingAt now ≠ .pending := fun hn => he (by rw [hend, hn]; rfl)
    obtain ⟨hl, hbytes⟩ := endingAt_later hknown hle
    exact .inr ⟨hb.trans hbytes.symm, by rw [hl, hend]⟩

def left (f : Inflow) (now : Nat) (reads : List Answer) : Nat :=
  ((f.bytes (· ≤ now)).length - (bytesOf reads).length) +
    ((f.endingAt now).answers.length - (endOf reads).length)

/-- Where something has not been read, the network has it for the next read. -/
theorem Brings.exists_next (h : f.Brings now reads) (hn : ¬f.Exhausted now reads) :
    ∃ a, ((∃ bytes, a = .chunk bytes) ∨ a = .ended ∨ ∃ error, a = .failed error) ∧
      f.Brings now (reads ++ [a]) ∧ f.left now (reads ++ [a]) < f.left now reads := by
  have hend : endOf reads = [] := h.2.resolve_right hn
  obtain ⟨rest, hrest⟩ := h.1
  by_cases he : rest = []
  · rw [he, List.append_nil] at hrest
    have hlast : ∀ a, (f.endingAt now).answers = [a] → endOf [a] = [a] → bytesOf [a] = [] →
        f.Brings now (reads ++ [a]) ∧ f.left now (reads ++ [a]) < f.left now reads := by
      intro a ha hea hba
      have hb : bytesOf (reads ++ [a]) = bytesOf reads := by
        rw [bytesOf, List.flatMap_append, ← bytesOf, ← bytesOf, hba, List.append_nil]
      have hl : endOf (reads ++ [a]) = [a] := by
        rw [endOf, List.filter_append, ← endOf, ← endOf, hend, hea, List.nil_append]
      have hx : f.Exhausted now (reads ++ [a]) := ⟨hb.trans hrest, hl.trans ha.symm⟩
      refine ⟨⟨hx.1 ▸ List.prefix_rfl, .inr hx⟩, ?_⟩
      simp [left, hb, hl, ha, hend]
    cases hknown : f.endingAt now with
    | pending => exact absurd ⟨hrest, by rw [hend, hknown]; rfl⟩ hn
    | closed => exact ⟨_, .inr (.inl rfl), hlast .ended (by rw [hknown]; rfl) rfl rfl⟩
    | broken error =>
      exact ⟨_, .inr (.inr ⟨error, rfl⟩), hlast (.failed error) (by rw [hknown]; rfl) rfl rfl⟩
  · have hb : bytesOf (reads ++ [.chunk rest]) = f.bytes (· ≤ now) := by
      rw [bytesOf, List.flatMap_append, ← bytesOf, ← hrest]
      simp
    have hl : endOf (reads ++ [.chunk rest]) = [] := by
      rw [endOf, List.filter_append, ← endOf, hend]
      rfl
    refine ⟨_, .inl ⟨rest, rfl⟩, ⟨hb ▸ List.prefix_rfl, .inl hl⟩, ?_⟩
    have hlen : (f.bytes (· ≤ now)).length = (bytesOf reads).length + rest.length := by
      rw [← hrest, List.length_append]
    have hpos : 0 < rest.length := List.length_pos_iff.mpr he
    simp only [left, hb, hl, hend]
    omega

end Inflow

def deadline? (m : Manager) (id : Nat) : Option Nat :=
  (m.receivers[id]?).bind fun r =>
    match r.stage with
    | .greeting d _ => some d
    | _ => none

def Transition.start? (id : Nat) (t : Transition) : Option Nat :=
  if t.move = .step (.receiver id) .none ∧
      (t.before.receivers[id]?).map (·.stage) = some .opening then some t.before.clock
  else none

/-- A move after others in which a receiver and time itself keep to the clock. Only what has come is
read; where the receiver could read, it does nothing else before all that has come is read; and time
does not go on beyond a deadline at which the receiver has something to do. -/
structure Transition.Timely (f : Inflow) (id : Nat) (ts : List Transition) (t : Transition) :
    Prop where
  brought : f.Brings t.before.clock ((ts ++ [t]).flatMap (·.reads id))
  exhausted : t.move = .step (.receiver id) .none → t.before.receiverRequest id ≠ .none →
    f.Exhausted t.before.clock (ts.flatMap (·.reads id))
  urgent : ∀ d, t.before.deadline? id = some d → t.after.clock ≤ d

instance (f : Inflow) (id : Nat) (ts : List Transition) (t : Transition) :
    Decidable (t.Timely f id ts) :=
  decidable_of_iff (f.Brings t.before.clock ((ts ++ [t]).flatMap (·.reads id)) ∧
      (t.move = .step (.receiver id) .none → t.before.receiverRequest id ≠ .none →
        f.Exhausted t.before.clock (ts.flatMap (·.reads id))) ∧
      ∀ d ∈ t.before.deadline? id, t.after.clock ≤ d)
    ⟨fun ⟨hb, hx, hu⟩ => ⟨hb, hx, hu⟩, fun ⟨hb, hx, hu⟩ => ⟨hb, hx, hu⟩⟩

def Timely (f : Inflow) (id : Nat) (ts : List Transition) : Prop :=
  ∀ (n : Nat) (t : Transition), ts[n]? = some t → t.Timely f id (ts.take n)

instance (f : Inflow) (id : Nat) (ts : List Transition) : Decidable (Timely f id ts) :=
  decidable_of_iff (∀ n : Fin ts.length, ts[n].Timely f id (ts.take n)) <| by
    constructor
    · intro h n t ht
      obtain ⟨hn, rfl⟩ := List.getElem?_eq_some_iff.mp ht
      exact h ⟨n, hn⟩
    · exact fun h n => h n _ (List.getElem?_eq_getElem n.isLt)

variable {m : Manager} {r : Receiver} {id : Nat} {ts : List Transition} {t : Transition}

theorem deadline?_eq_some : m.deadline? id = some d ↔
    ∃ r rd, m.receivers[id]? = some r ∧ r.stage = .greeting d rd := by
  rw [deadline?, Option.bind_eq_some_iff]
  refine exists_congr fun r => ?_
  cases hs : r.stage <;> simp

theorem Transition.start?_of_step (hm : t.move = .step (.receiver id) .none)
    (hr : t.before.receivers[id]? = some r) (hs : r.stage = .opening) :
    t.start? id = some t.before.clock := by
  rw [start?, hr, if_pos ⟨hm, by rw [Option.map_some, hs]⟩]

theorem Transition.start?_eq_none (hr : t.before.receivers[id]? = some r)
    (hs : r.stage ≠ .opening) : t.start? id = none := by
  refine if_neg fun h => hs ?_
  rw [hr] at h
  exact Option.some.inj h.2

theorem Transition.start?_of_ne (h : ∀ a, t.move ≠ .step (.receiver id) a) :
    t.start? id = none := if_neg fun hs => h _ hs.1

theorem Timely.left {us : List Transition} (h : Timely f id (ts ++ us)) : Timely f id ts := by
  intro n t ht
  have hn : n < ts.length := (List.getElem?_eq_some_iff.mp ht).1
  have hu := h n t (by rw [List.getElem?_append_left hn, ht])
  rwa [List.take_append_of_le_length hn.le] at hu

theorem timely_concat : Timely f id (ts ++ [t]) ↔ Timely f id ts ∧ t.Timely f id ts := by
  refine ⟨fun h => ⟨h.left, ?_⟩, fun ⟨h, ht⟩ n u hu => ?_⟩
  · have ht := h ts.length t (by simp)
    rwa [List.take_left] at ht
  · obtain hu | ⟨rfl, rfl⟩ := getElem?_concat_cases hu
    · have hn : n < ts.length := (List.getElem?_eq_some_iff.mp hu).1
      rw [List.take_append_of_le_length hn.le]
      exact h n u hu
    · rwa [List.take_left]

end PeerLink.Manager
