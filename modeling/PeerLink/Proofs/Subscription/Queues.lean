import PeerLink.Proofs.Subscription.Registering

namespace PeerLink.Manager

namespace Transition

variable (s : SubscriptionId) (t : Transition)

def queued : List (Nat × Item) :=
  match t.move with
  | .step (.receiver id) _ => (t.happenings.filterMap (Happening.enqueued? s)).map (id, ·)
  | _ => []

def calls : List (Callback Bytes) := t.happenings.filterMap (Happening.called? s)

end Transition

def queuedTo (s : SubscriptionId) (ts : List Transition) : List (Nat × Item) :=
  ts.flatMap (·.queued s)

/-- All that a subscription's observer was called with. -/
def callsOn (s : SubscriptionId) (ts : List Transition) : List (Callback Bytes) :=
  ts.flatMap (·.calls s)

/-- The callback for what a receiver has put into a queue. -/
def callbackOf (entry : Nat × Item) : Callback Bytes := entry.2.callback

structure Queued (m : Manager) (ts : List Transition) : Prop where
  first : ∀ s b, m.subscriptions[s]? = some b → b.stage ≠ .ended →
    (queuedTo s ts).map callbackOf = callsOn s ts ++ b.queue.map Item.callback
  unmade : ∀ s, m.subscriptions.length ≤ s → queuedTo s ts = [] ∧ callsOn s ts = []

variable {m m' m₁ : Manager} {mv : Move} {hs hs₁ : List Happening} {s : SubscriptionId}
  {b b₁ : Subscription} {ts : List Transition} {t : Transition}

theorem queuedTo_concat : queuedTo s (ts ++ [t]) = queuedTo s ts ++ t.queued s := by
  simp [queuedTo]

theorem callsOn_concat : callsOn s (ts ++ [t]) = callsOn s ts ++ t.calls s := by
  simp [callsOn]

theorem queued_of_nil (h : t.happenings.filterMap (Happening.enqueued? s) = []) :
    t.queued s = [] := by
  rw [Transition.queued]
  split
  · rw [h, List.map_nil]
  · rfl

theorem queued_released (n : Manager) (streams : List StreamId) :
    (Transition.mk m mv m' (hs ++ streams.map .released)).queued s =
      (Transition.mk m mv n hs).queued s := by
  have hn := (Still.released streams).enqueued s
  simp only [Transition.queued, List.filterMap_append, hn, List.append_nil]

theorem calls_released (n : Manager) (streams : List StreamId) :
    (Transition.mk m mv m' (hs ++ streams.map .released)).calls s =
      (Transition.mk m mv n hs).calls s := by
  have hn := (Still.released streams).called s
  simp only [Transition.calls, List.filterMap_append, hn, List.append_nil]

theorem Fate.balance (hf : Fate m s b mv b₁ hs) (hn : b₁.stage ≠ .ended) :
    b.queue.map Item.callback ++ ((Transition.mk m mv m₁ hs).queued s).map callbackOf =
      (Transition.mk m mv m₁ hs).calls s ++ b₁.queue.map Item.callback := by
  cases hf with
  | keep he hc =>
    rw [queued_of_nil he, Transition.calls, hc]
    simp
  | @push id item hs handles hq =>
    have hb : b.stage ≠ .ended := fun he => hn ((push_stage b item).trans he)
    have hp : (b.push item).queue = b.queue ++ [item] := by
      rw [Subscription.push, if_neg hb]
    have he : Happening.enqueued? s (.enqueued s item) = some item := if_pos rfl
    have hc : (Happening.enqueued s item :: hs).filterMap (Happening.called? s) = [] := hq.called s
    simp only [Transition.queued, Transition.calls, List.filterMap_cons_some he, hq.enqueued s, hc,
      hp]
    simp [callbackOf]
  | deliver _ _ hq =>
    rw [hq]
    simp [Transition.queued, Transition.calls, Happening.called?]
  | halt | complete | undo => exact absurd rfl hn
  | spawn => simp [Transition.queued, Transition.calls]

/-- Nothing happens to a subscription that has not been made. -/
theorem Stir.unmade (h : Stir m mv m₁ hs) (hc : Counted m) (hn : m.subscriptions.length ≤ s) :
    hs.filterMap (Happening.enqueued? s) = [] ∧ hs.filterMap (Happening.called? s) = [] := by
  cases h with
  | aside _ _ _ hq | read _ _ _ hq => exact ⟨hq.enqueued s, hq.called s⟩
  | @hand id r _ _ item t _ _ hs hr hst _ hq =>
    have hpos : 0 < m.uses t := uses_pos_of_handing hr (by rw [hst]; rfl)
    have hne : t ≠ s := Nat.ne_of_lt (Nat.lt_of_lt_of_le (hc.made t hpos) hn)
    have he : Happening.enqueued? s (.enqueued t item) = none := if_neg hne
    exact ⟨by rw [List.filterMap_cons_none he]; exact hq.enqueued s, hq.called s⟩
  | @dispatch id _ _ _ hb h =>
    have hne : id ≠ s := Nat.ne_of_lt (Nat.lt_of_lt_of_le (List.getElem?_eq_some_iff.mp hb).1 hn)
    cases h with
    | halt => exact ⟨rfl, rfl⟩
    | deliver | complete => exact ⟨rfl, by simp [Happening.called?, hne]⟩
  | _ => exact ⟨rfl, rfl⟩

theorem Queued.new (address : Endpoint) (config : Config) (clock : Nat) :
    Queued (new address config clock) [] := by
  refine ⟨fun s b hb => ?_, fun _ _ => ⟨rfl, rfl⟩⟩
  simp [Manager.new] at hb

theorem Queued.move (h : Queued m ts) (hm : Served m) (hmv : m.move mv = some (m', hs)) :
    Queued m' (ts ++ [⟨m, mv, m', hs⟩]) := by
  obtain ⟨m₁, hs₁, hst, hm', streams, rfl⟩ := move_stir hmv
  have hnone : ∀ s, m.subscriptions.length ≤ s →
      queuedTo s (ts ++ [⟨m, mv, m', hs₁ ++ streams.map .released⟩]) = [] ∧
        callsOn s (ts ++ [⟨m, mv, m', hs₁ ++ streams.map .released⟩]) = [] := by
    intro s hs
    obtain ⟨hq, hc⟩ := h.unmade s hs
    obtain ⟨he, hc'⟩ := hst.unmade hm.counted hs
    rw [queuedTo_concat, callsOn_concat, hq, hc, queued_released m₁, calls_released m₁]
    exact ⟨queued_of_nil he, hc'⟩
  refine ⟨fun s b₁ hb₁ hn => ?_, fun s hs => hnone s ?_⟩
  · rw [hm'] at hb₁
    cases hb : m.subscriptions[s]? with
    | some b =>
      obtain ⟨b₂, hb₂, hf⟩ := hst.fate hb
      cases hb₁.symm.trans hb₂
      have hbn : b.stage ≠ .ended := by
        intro he
        cases hf with
        | keep => exact hn he
        | push => exact hn ((push_stage _ _).trans he)
        | halt hd | deliver hd | complete hd => cases he.symm.trans hd
        | undo => exact hn rfl
        | spawn hr hs' =>
          obtain ⟨b', hb', hu⟩ := hm.prepared.own _ _ s hr (by rw [hs']; rfl)
          cases hb.symm.trans hb'
          cases he.symm.trans hu
      rw [queuedTo_concat, callsOn_concat, queued_released m₁, calls_released m₁,
        List.map_append, h.first s b hb hbn, List.append_assoc, hf.balance hn, List.append_assoc]
    | none =>
      obtain ⟨hq, hc⟩ := hnone s (List.getElem?_eq_none_iff.mp hb)
      rw [hq, hc, (hst.fresh hb hb₁).1]
      rfl
  · rw [hm'] at hs
    obtain ⟨⟨id, r, -, -, -, -, rfl⟩, -⟩ | hlen := hst.makes
    · have hle : m.subscriptions.length + 1 ≤ s := by simpa [setRegistration] using hs
      exact Nat.le_of_succ_le hle
    · exact hlen ▸ hs

theorem run_served {address : Endpoint} {config : Config} {clock : Nat} {moves : List Move}
    (h : (new address config clock).run moves = some (m, hs)) :
    Served m ∧ Queued m ((new address config clock).transitions moves) :=
  run_induction (P := fun m ts => Served m ∧ Queued m ts)
    ⟨.new address config clock, .new address config clock⟩
    (fun _ _ _ _ _ hi hm => ⟨hi.1.move hm, hi.2.move hi.1 hm⟩) h

theorem Queued.drained (h : Queued m ts) (hb : m.subscriptions[s]? = some b)
    (hr : b.stage = .running) (hc : m.cancelled = false) (hw : m.dispatchStep s = none) :
    callsOn s ts = (queuedTo s ts).map callbackOf := by
  have hempty : b.queue = [] := by
    cases hl : b.queue with
    | nil => rfl
    | cons item rest => simp [dispatchStep, hb, hr, hc, hl] at hw
  have hq := h.first s b hb (by rw [hr]; nofun)
  rw [hq, hempty, List.map_nil, List.append_nil]

end PeerLink.Manager
