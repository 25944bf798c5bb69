import PeerLink.Manager.Link
import Mathlib.Data.List.Nodup

namespace PeerLink.Manager.Link

def line (k : Link) : List Waiter := k.holder.toList ++ k.queue

/-- Nobody waits for a free lock, and nobody stands in the line twice. -/
structure Orderly (k : Link) : Prop where
  idle : k.holder = none → k.queue = []
  nodup : k.line.Nodup

variable {k : Link} {w w' : Waiter}

theorem holder_mem (h : k.holder = some w) : w ∈ k.line := by
  simp [line, h]

theorem Orderly.congr {k' : Link} (h : k.Orderly) (hh : k'.holder = k.holder)
    (hq : k'.queue = k.queue) : k'.Orderly := by
  refine ⟨?_, ?_⟩
  · rw [hh, hq]
    exact h.idle
  · rw [line, hh, hq]
    exact h.nodup

theorem line_request (h : k.Orderly) : (k.request w).line = k.line ++ [w] := by
  rw [request]
  split
  · next hn => simp [line, hn, h.idle hn]
  · next v hv => simp [line, hv]

theorem Orderly.request (h : k.Orderly) (hw : w ∉ k.line) : (k.request w).Orderly := by
  constructor
  · intro hn
    rw [Link.request] at hn
    split at hn
    · cases hn
    · next v hv => cases hv.symm.trans hn
  · rw [line_request h]
    exact List.nodup_append'.mpr ⟨h.nodup, List.nodup_singleton w, by simpa using hw⟩

theorem holder_request (h : k.holder = some w') : (k.request w).holder = some w' := by
  simp [request, h]

theorem line_release (k : Link) : k.release.line = k.queue := by
  rw [release]
  split
  · next hq => simp [line, hq]
  · next v vs hq => simp [line, hq]

theorem line_leave (h : k.Orderly) : (k.leave w).line = k.line.filter (· ≠ w) := by
  rw [leave]
  split
  · next hw =>
    have hl : k.line = w :: k.queue := by rw [line, hw]; rfl
    have hn : w ∉ k.queue := (List.nodup_cons.mp (hl ▸ h.nodup)).1
    rw [line_release, hl, List.filter_cons_of_neg (by simp)]
    refine (List.filter_eq_self.mpr fun v hv => ?_).symm
    have hv : v ≠ w := fun e => hn (e ▸ hv)
    simpa using hv
  · next hw =>
    rw [line, line, List.filter_append]
    congr 1
    cases hh : k.holder with
    | none => rfl
    | some v =>
      have hv : v ≠ w := fun e => hw (e ▸ hh)
      simp [hv]

theorem queue_release (h : k.release.holder = none) : k.release.queue = [] := by
  rw [release] at h ⊢
  split
  · assumption
  · next hq => simp [hq] at h

theorem Orderly.leave (h : k.Orderly) : (k.leave w).Orderly := by
  constructor
  · intro hn
    rw [Link.leave] at hn ⊢
    split
    · next hw =>
      rw [if_pos hw] at hn
      exact queue_release hn
    · next hw =>
      rw [if_neg hw] at hn
      simp [h.idle hn]
  · rw [line_leave h]
    exact h.nodup.filter _

theorem mem_line_leave (h : k.Orderly) : w' ∈ (k.leave w).line ↔ w' ≠ w ∧ w' ∈ k.line := by
  rw [line_leave h, List.mem_filter, and_comm]
  simp

theorem holder_leave (hn : w' ≠ w) (h : k.holder = some w') : (k.leave w).holder = some w' := by
  rw [leave, if_neg]
  · exact h
  · rw [h]
    simpa using hn

theorem request_rest (k : Link) (w : Waiter) :
    k.request w = { k with holder := (k.request w).holder, queue := (k.request w).queue } := by
  rw [request]
  split <;> rfl

theorem leave_rest (k : Link) (w : Waiter) :
    k.leave w = { k with holder := (k.leave w).holder, queue := (k.leave w).queue } := by
  rw [leave, release]
  repeat' split
  all_goals rfl

@[simp] theorem destination_request (k : Link) (w : Waiter) :
    (k.request w).destination = k.destination := by rw [request_rest]

@[simp] theorem writer_request (k : Link) (w : Waiter) : (k.request w).writer = k.writer := by
  rw [request_rest]

@[simp] theorem destination_leave (k : Link) (w : Waiter) :
    (k.leave w).destination = k.destination := by rw [leave_rest]

@[simp] theorem writer_leave (k : Link) (w : Waiter) : (k.leave w).writer = k.writer := by
  rw [leave_rest]

end PeerLink.Manager.Link
