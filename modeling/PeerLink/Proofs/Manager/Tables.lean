import PeerLink.Manager.Table

namespace PeerLink.Table

variable {κ α : Type} [DecidableEq κ] {t : Table κ α} {k j : κ} {a b : α}

theorem mem_of_get? (h : t.get? k = some a) : (k, a) ∈ t.entries := by
  obtain ⟨l₁, l₂, he, -⟩ := List.lookup_eq_some_iff.mp h
  rw [he]
  exact List.mem_append_right _ List.mem_cons_self

omit [DecidableEq κ] in
theorem mem_values (h : a ∈ t.values) : ∃ k, (k, a) ∈ t.entries := by
  obtain ⟨⟨k, b⟩, he, rfl⟩ := List.mem_map.mp h
  exact ⟨k, he⟩

theorem get?_insert (h : t.get? j = none) :
    (t.insert j b).get? k = if k = j then some b else t.get? k := by
  simp only [get?, insert]
  rw [List.lookup_append]
  split
  · next hk =>
    subst hk
    rw [show t.entries.lookup k = none from h]
    simp
  · next hk =>
    simp [List.lookup_cons, beq_eq_false_iff_ne.mpr hk]

theorem get?_erase : (t.erase j).get? k = if k = j then none else t.get? k := by
  simp only [get?, erase]
  induction t.entries with
  | nil => simp
  | cons e es ih =>
    obtain ⟨i, a⟩ := e
    by_cases hi : i = j
    · subst hi
      rw [List.filter_cons_of_neg (by simp), ih]
      split
      · rfl
      · next hk => rw [List.lookup_cons, beq_eq_false_iff_ne.mpr hk]
    · rw [List.filter_cons_of_pos (by simpa using hi), List.lookup_cons, List.lookup_cons, ih]
      by_cases hk : k = i
      · subst hk
        simp [hi]
      · rw [beq_eq_false_iff_ne.mpr hk]

/-- A table in which nothing can be found is empty. -/
theorem eq_empty (h : ∀ k, t.get? k = none) : t = {} := by
  obtain ⟨_ | ⟨⟨k, a⟩, es⟩⟩ := t
  · rfl
  · cases (h k).symm.trans List.lookup_cons_self

theorem mem_erase (h : (k, a) ∈ (t.erase j).entries) : (k, a) ∈ t.entries :=
  (List.mem_filter.mp h).1

omit [DecidableEq κ] in
theorem mem_insert (h : (k, a) ∈ (t.insert j b).entries) :
    (k, a) ∈ t.entries ∨ k = j ∧ a = b := by
  obtain h | h := List.mem_append.mp h
  · exact .inl h
  · obtain ⟨rfl, rfl⟩ := Prod.mk.inj (List.mem_singleton.mp h)
    exact .inr ⟨rfl, rfl⟩

end PeerLink.Table
