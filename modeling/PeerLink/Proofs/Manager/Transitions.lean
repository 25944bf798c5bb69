import PeerLink.Manager.Run

namespace PeerLink.Manager

/-- A move of a run, with the manager before and after it. -/
structure Transition where
  before : Manager
  move : Move
  after : Manager
  happenings : List Happening

def transitions : Manager → List Move → List Transition
  | _, [] => []
  | m, move :: moves =>
    match m.move move with
    | none => []
    | some (m', hs) => ⟨m, move, m', hs⟩ :: transitions m' moves

theorem run_cons {m m' : Manager} {move : Move} {moves : List Move} {hs : List Happening} :
    m.run (move :: moves) = some (m', hs) ↔ ∃ m₁ hs₁ hs₂, m.move move = some (m₁, hs₁) ∧
      m₁.run moves = some (m', hs₂) ∧ hs = hs₁ ++ hs₂ := by
  rw [run]
  constructor
  · intro h
    obtain ⟨⟨m₁, hs₁⟩, hm, h⟩ := Option.bind_eq_some_iff.mp h
    obtain ⟨⟨m₂, hs₂⟩, hr, h⟩ := Option.bind_eq_some_iff.mp h
    cases h
    exact ⟨m₁, hs₁, hs₂, hm, hr, rfl⟩
  · rintro ⟨m₁, hs₁, hs₂, hm, hr, rfl⟩
    exact Option.bind_eq_some_iff.mpr ⟨_, hm, Option.bind_eq_some_iff.mpr ⟨_, hr, rfl⟩⟩

theorem run_append {m m' : Manager} {xs ys : List Move} {hs : List Happening} :
    m.run (xs ++ ys) = some (m', hs) ↔ ∃ m₁ hs₁ hs₂, m.run xs = some (m₁, hs₁) ∧
      m₁.run ys = some (m', hs₂) ∧ hs = hs₁ ++ hs₂ := by
  induction xs generalizing m hs with
  | nil =>
    constructor
    · exact fun h => ⟨m, [], hs, rfl, h, rfl⟩
    · rintro ⟨_, _, _, hx, hy, rfl⟩
      cases hx
      exact hy
  | cons x xs ih =>
    simp only [List.cons_append, run_cons, ih]
    constructor
    · rintro ⟨m₁, a, _, hm, ⟨m₂, b, c, hx, hy, rfl⟩, rfl⟩
      exact ⟨m₂, a ++ b, c, ⟨m₁, a, b, hm, hx, rfl⟩, hy, by rw [List.append_assoc]⟩
    · rintro ⟨m₂, _, c, ⟨m₁, a, b, hm, hx, rfl⟩, hy, rfl⟩
      exact ⟨m₁, a, b ++ c, hm, ⟨m₂, b, c, hx, hy, rfl⟩, by rw [List.append_assoc]⟩

theorem mem_of_mem_transitions {m : Manager} {moves : List Move} {t : Transition}
    (h : t ∈ m.transitions moves) : t.move ∈ moves := by
  induction moves generalizing m with
  | nil => cases h
  | cons move moves ih =>
    rw [transitions] at h
    split at h
    · cases h
    · obtain rfl | h := List.mem_cons.mp h
      · exact List.mem_cons_self
      · exact List.mem_cons_of_mem _ (ih h)

theorem getElem?_transitions {m : Manager} {moves : List Move} {n : Nat} {t : Transition}
    (h : (m.transitions moves)[n]? = some t) : moves[n]? = some t.move := by
  induction moves generalizing m n with
  | nil => simp [transitions] at h
  | cons move moves ih =>
    rw [transitions] at h
    split at h
    · simp at h
    · cases n with
      | zero =>
        cases h
        rfl
      | succ n => exact ih h

theorem append_cons_eq_concat {α : Type} {x a : α} {xs as bs : List α}
    (h : as ++ a :: bs = xs ++ [x]) :
    as = xs ∧ a = x ∧ bs = [] ∨ ∃ bs', bs = bs' ++ [x] ∧ as ++ a :: bs' = xs := by
  obtain rfl | ⟨bs, b, rfl⟩ := List.eq_nil_or_concat bs
  · obtain ⟨rfl, ha⟩ := List.append_inj' h rfl
    exact .inl ⟨rfl, by simpa using ha, rfl⟩
  · have he : (as ++ a :: bs) ++ [b] = xs ++ [x] := by simpa using h
    obtain ⟨hxs, hb⟩ := List.append_inj' he rfl
    obtain rfl : b = x := by simpa using hb
    exact .inr ⟨bs, List.concat_eq_append, hxs⟩

theorem run_of_transitions {m₀ : Manager} {moves : List Move} {ts₁ ts₂ : List Transition}
    {t : Transition} (h : m₀.transitions moves = ts₁ ++ t :: ts₂) :
    ∃ moves₁ hs, m₀.run moves₁ = some (t.before, hs) ∧ m₀.transitions moves₁ = ts₁ ∧
      t.before.move t.move = some (t.after, t.happenings) := by
  induction moves generalizing m₀ ts₁ with
  | nil => cases List.append_ne_nil_of_right_ne_nil _ (List.cons_ne_nil _ _) h.symm
  | cons move moves ih =>
    rw [transitions] at h
    split at h
    · cases List.append_ne_nil_of_right_ne_nil _ (List.cons_ne_nil _ _) h.symm
    · next m₁ hs₁ hm =>
      cases ts₁ with
      | nil =>
        obtain ⟨rfl, -⟩ := List.cons.inj h
        exact ⟨[], [], rfl, rfl, hm⟩
      | cons t₁ ts₁ =>
        obtain ⟨rfl, hrest⟩ := List.cons.inj h
        obtain ⟨moves₁, hs, hr, ht, hmove⟩ := ih hrest
        refine ⟨move :: moves₁, hs₁ ++ hs, ?_, ?_, hmove⟩
        · exact run_cons.mpr ⟨m₁, hs₁, hs, hm, hr, rfl⟩
        · simp only [transitions, hm, ht]

/-- A run falls into what comes before one of its moves, that move and what comes after it. -/
theorem run_split {m₀ m : Manager} {moves : List Move} {hs : List Happening}
    {ts₁ ts₂ : List Transition} {t : Transition} (hr : m₀.run moves = some (m, hs))
    (h : m₀.transitions moves = ts₁ ++ t :: ts₂) :
    ∃ moves₁ moves₂ hs₁ hs₂, m₀.run moves₁ = some (t.before, hs₁) ∧ m₀.transitions moves₁ = ts₁ ∧
      t.before.move t.move = some (t.after, t.happenings) ∧
      t.after.run moves₂ = some (m, hs₂) ∧ t.after.transitions moves₂ = ts₂ := by
  induction moves generalizing m₀ ts₁ hs with
  | nil => cases List.append_ne_nil_of_right_ne_nil _ (List.cons_ne_nil _ _) h.symm
  | cons move moves ih =>
    obtain ⟨m₁, a, b, hm, hrest, rfl⟩ := run_cons.mp hr
    rw [transitions, hm] at h
    cases ts₁ with
    | nil =>
      obtain ⟨rfl, hts⟩ := List.cons.inj h
      exact ⟨[], moves, [], b, rfl, rfl, hm, hrest, hts⟩
    | cons t₁ ts₁ =>
      obtain ⟨rfl, hts⟩ := List.cons.inj h
      obtain ⟨moves₁, moves₂, c, d, hr₁, ht₁, hmove, hr₂, ht₂⟩ := ih hrest hts
      refine ⟨move :: moves₁, moves₂, a ++ c, d, ?_, ?_, hmove, hr₂, ht₂⟩
      · exact run_cons.mpr ⟨m₁, a, c, hm, hr₁, rfl⟩
      · simp only [transitions, hm, ht₁]

theorem run_concat {m₀ m m' : Manager} {moves : List Move} {mv : Move} {hs hs₁ : List Happening}
    (h : m₀.run moves = some (m, hs)) (hm : m.move mv = some (m', hs₁)) :
    m₀.run (moves ++ [mv]) = some (m', hs ++ hs₁) ∧
      m₀.transitions (moves ++ [mv]) = m₀.transitions moves ++ [⟨m, mv, m', hs₁⟩] := by
  refine ⟨run_append.mpr ⟨m, hs, hs₁, h, run_cons.mpr ⟨m', hs₁, [], hm, rfl, by simp⟩, rfl⟩, ?_⟩
  induction moves generalizing m₀ hs with
  | nil =>
    cases h
    simp only [List.nil_append, transitions, hm]
  | cons move moves ih =>
    obtain ⟨m₁, _, _, hm₁, hrest, -⟩ := run_cons.mp h
    simp only [List.cons_append, transitions, hm₁, ih hrest]

theorem run_induction {m₀ m : Manager} {P : Manager → List Transition → Prop}
    (start : P m₀ [])
    (next : ∀ m ts move m' hs, P m ts → m.move move = some (m', hs) →
      P m' (ts ++ [⟨m, move, m', hs⟩]))
    {moves : List Move} {hs : List Happening} (h : m₀.run moves = some (m, hs)) :
    P m (m₀.transitions moves) := by
  suffices ∀ m₁ ts, P m₁ ts → ∀ hs, m₁.run moves = some (m, hs) → P m (ts ++ m₁.transitions moves)
    from this m₀ [] start hs h
  clear h start
  induction moves with
  | nil =>
    intro m₁ ts hp hs h
    cases h
    simpa [transitions] using hp
  | cons move moves ih =>
    intro m₁ ts hp hs h
    obtain ⟨m₂, hs₁, hs₂, hm, hr, rfl⟩ := run_cons.mp h
    have hn := ih m₂ _ (next m₁ ts move m₂ hs₁ hp hm) hs₂ hr
    simpa [transitions, hm] using hn

theorem run_happenings {m m' : Manager} {moves : List Move} {hs : List Happening}
    (h : m.run moves = some (m', hs)) : hs = (m.transitions moves).flatMap (·.happenings) := by
  induction moves generalizing m hs with
  | nil =>
    cases h
    rfl
  | cons move moves ih =>
    obtain ⟨m₁, hs₁, hs₂, hm, hr, rfl⟩ := run_cons.mp h
    simp only [transitions, hm, List.flatMap_cons, ih hr]

theorem run_invariant {m m' : Manager} {I : Manager → Prop}
    (next : ∀ m move m' hs, I m → m.move move = some (m', hs) → I m')
    {moves : List Move} {hs : List Happening} (start : I m) (h : m.run moves = some (m', hs)) :
    I m' :=
  run_induction (P := fun m _ => I m) start (fun m _ move m' hs => next m move m' hs) h

end PeerLink.Manager
