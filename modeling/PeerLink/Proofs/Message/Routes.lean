import PeerLink.Message.Router
import Mathlib.Data.List.Induction

namespace PeerLink.Message

variable {T : Type} [DecidableEq T] {V : Vocabulary T} {ω : Type}

namespace Router

/-- The router that a sequence of subscriptions leads to. -/
def of (subscriptions : List (T × ω)) : Router T ω :=
  subscriptions.foldl (fun router (type, subscriber) => router.subscribe type subscriber) {}

def Last (subscriptions : List (T × ω)) (type : T) (subscriber : ω) : Prop :=
  ∃ before after, subscriptions = before ++ (type, subscriber) :: after ∧
    ∀ s ∈ after, s.1 ≠ type

variable {router : Router T ω} {type type' : T} {subscriber o : ω}
  {subscriptions : List (T × ω)} {route : Route T ω}

theorem route?_subscribe : (router.subscribe type subscriber).route? type' =
    if type' = type then some ⟨type, subscriber⟩ else router.route? type' := by
  by_cases h : type' = type
  · subst h
    simp [route?, subscribe]
  · have hne : ¬type = type' := fun e => h e.symm
    have hkeep : (fun s : T × Route T ω => !decide (s.1 = type) && decide (s.1 = type')) =
        fun s => decide (s.1 = type') := by
      funext s
      by_cases hs : s.1 = type'
      · simp [hs, h]
      · simp [hs]
    simp [route?, subscribe, h, hne, List.find?_filter, hkeep]

theorem of_concat : of (subscriptions ++ [(type, subscriber)]) =
    (of subscriptions).subscribe type subscriber := by
  simp [of]

omit [DecidableEq T] in
theorem Last.concat_same : Last (subscriptions ++ [(type, subscriber)]) type o ↔
    o = subscriber := by
  constructor
  · rintro ⟨before, after, he, ha⟩
    obtain rfl | ⟨init, s, rfl⟩ := List.eq_nil_or_concat after
    · obtain ⟨-, h⟩ := List.append_inj' he rfl
      cases h
      rfl
    · rw [List.concat_eq_append, ← List.cons_append, ← List.append_assoc] at he
      obtain ⟨-, h⟩ := List.append_inj' he rfl
      cases h
      exact absurd rfl (ha (type, subscriber) (by simp))
  · rintro rfl
    exact ⟨subscriptions, [], rfl, by simp⟩

omit [DecidableEq T] in
theorem Last.concat_other (hn : type' ≠ type) :
    Last (subscriptions ++ [(type, subscriber)]) type' o ↔ Last subscriptions type' o := by
  constructor
  · rintro ⟨before, after, he, ha⟩
    obtain rfl | ⟨init, s, rfl⟩ := List.eq_nil_or_concat after
    · obtain ⟨-, h⟩ := List.append_inj' he rfl
      cases h
      exact absurd rfl hn
    · rw [List.concat_eq_append, ← List.cons_append, ← List.append_assoc] at he
      obtain ⟨h, -⟩ := List.append_inj' he rfl
      exact ⟨before, init, h, fun s hs => ha s (by simp [hs])⟩
  · rintro ⟨before, after, rfl, ha⟩
    refine ⟨before, after ++ [(type, subscriber)], by simp, fun s hs => ?_⟩
    obtain hs | hs := List.mem_append.mp hs
    · exact ha s hs
    · cases List.mem_singleton.mp hs
      exact hn.symm

theorem route?_of : (of subscriptions).route? type = some route ↔
    route.type = type ∧ Last subscriptions type route.subscriber := by
  induction subscriptions using List.reverseRecOn generalizing type with
  | nil =>
    constructor
    · nofun
    · rintro ⟨-, before, after, he, -⟩
      simp at he
  | append_singleton subscriptions s ih =>
    obtain ⟨t, subscriber⟩ := s
    rw [of_concat, route?_subscribe]
    obtain ⟨type', o⟩ := route
    split
    · next h =>
      subst h
      rw [Last.concat_same]
      constructor
      · rintro h
        cases h
        exact ⟨rfl, rfl⟩
      · rintro ⟨rfl, rfl⟩
        rfl
    · next h => rw [ih, Last.concat_other h]

omit [DecidableEq T] in
theorem Last.mem (h : Last subscriptions type o) : (type, o) ∈ subscriptions := by
  obtain ⟨before, after, rfl, -⟩ := h
  simp

theorem exists_last (h : (type, o) ∈ subscriptions) : ∃ o', Last subscriptions type o' := by
  induction subscriptions using List.reverseRecOn with
  | nil => cases h
  | append_singleton subscriptions s ih =>
    obtain ⟨t, subscriber⟩ := s
    by_cases ht : type = t
    · subst ht
      exact ⟨subscriber, Last.concat_same.mpr rfl⟩
    · obtain h | h := List.mem_append.mp h
      · obtain ⟨o', ho'⟩ := ih h
        exact ⟨o', (Last.concat_other ht).mpr ho'⟩
      · cases List.mem_singleton.mp h
        exact absurd rfl ht

theorem route?_of_eq_none : (of subscriptions).route? type = none ↔
    ∀ s ∈ subscriptions, s.1 ≠ type := by
  constructor
  · rintro h ⟨t, o⟩ hs rfl
    obtain ⟨o', ho'⟩ := exists_last hs
    have hr : (of subscriptions).route? t = some ⟨t, o'⟩ := route?_of.mpr ⟨rfl, ho'⟩
    cases h.symm.trans hr
  · intro h
    refine Option.eq_none_iff_forall_ne_some.mpr fun route hr => ?_
    exact h _ (route?_of.mp hr).2.mem rfl

end Router

@[simp] theorem Boxed.open?_self (type : T) (value : V.Value type) :
    (⟨type, value⟩ : Boxed V).open? type = some value := by
  simp [open?]

end PeerLink.Message
