import PeerLink.Proofs.Manager.Bystanders
import PeerLink.Proofs.Subscription.Completion

namespace PeerLink.Manager

/-- What a dispatch has still to do: the items that it has still to deliver, and whether it has
still to tell its observer of the end. -/
structure Lag where
  items : List Item := []
  ends : Bool := false

/-- A subscription whose dispatch is behind. -/
def Subscription.behind (b : Subscription) (d : Lag) : Subscription :=
  { b with
    queue := d.items ++ b.queue
    stage := if d.ends then .running else b.stage }

abbrev lagging (m : Manager) (s : SubscriptionId) (d : Lag) : Manager :=
  m.beside (fun rs => rs) (·.modify s (·.behind d))

def lag (s : SubscriptionId) (d : Lag) : Manager × List Happening → Manager × List Happening :=
  besides (fun rs => rs) (·.modify s (·.behind d))

inductive Lags (m : Manager) (s : SubscriptionId) : Lag → Prop where
  | level : Lags m s {}
  | going {items b} (hb : m.subscriptions[s]? = some b) (hs : b.stage = .running) :
    Lags m s { items }
  | ended {items b} (hb : m.subscriptions[s]? = some b) (hs : b.stage = .ended) (hq : b.queue = [])
    (hh : b.handles = 0) : Lags m s { items, ends := true }

def Move.drains (s : SubscriptionId) : Move → Bool
  | .step (.dispatch t) _ => t = s
  | _ => false

variable {m m' : Manager} {mv : Move} {hs : List Happening} {s t : SubscriptionId}
  {b : Subscription} {d : Lag} {a : Answer} {id i : Nat} {r : Receiver} {e : Endpoint}

theorem lagging_level : m.lagging s {} = m := by
  have hb : (fun b : Subscription => b.behind {}) = fun b => b := rfl
  have hl : m.subscriptions.modify s (fun b => b.behind {}) = m.subscriptions := by
    rw [hb]
    exact List.modify_id s m.subscriptions
  exact congrArg (fun ss => { m with subscriptions := ss }) hl

theorem modify_congr {α : Type} {xs : List α} {f g : α → α}
    (h : ∀ x, xs[i]? = some x → f x = g x) : xs.modify i f = xs.modify i g := by
  refine List.ext_getElem? fun j => ?_
  simp only [List.getElem?_modify]
  by_cases hj : i = j
  · subst hj
    cases hx : xs[i]? with
    | none => rfl
    | some x => simp [h x hx]
  · simp [hj]

theorem modify_lagging {f : Subscription → Subscription}
    (h : t = s → ∀ b, m.subscriptions[s]? = some b → f (b.behind d) = (f b).behind d) :
    (m.lagging s d).modifySubscription t f = (m.modifySubscription t f).lagging s d := by
  have hl : (m.subscriptions.modify s (·.behind d)).modify t f =
      (m.subscriptions.modify t f).modify s (·.behind d) := by
    by_cases ht : t = s
    · subst ht
      rw [List.modify_modify_eq, List.modify_modify_eq]
      exact modify_congr fun b hb => h rfl b hb
    · exact List.modify_modify_ne _ _ _ (Ne.symm ht)
  exact congrArg (fun ss => { m with subscriptions := ss }) hl

theorem dropHandle_lagging : (m.lagging s d).dropHandle t = (m.dropHandle t).lagging s d :=
  modify_lagging fun _ _ _ => rfl

theorem removeObserver_lagging :
    (m.lagging s d).removeObserver e = (m.removeObserver e).lagging s d := by
  simp only [removeObserver]
  split
  · rfl
  · exact congrArg (fun n : Manager => { n with observers := m.observers.erase e })
      dropHandle_lagging

theorem greetingStep_lagging (time : Nat) (rd : Reading) :
    (m.lagging s d).greetingStep id r time rd a = (m.greetingStep id r time rd a).map (lag s d) := by
  simp only [greetingStep]
  split
  · split_ifs
    · rfl
    · split
      · rfl
      · split_ifs <;> rfl
      · rfl
    · split
      · rfl
      · split_ifs <;> rfl
      · rfl
    · rfl
    · rfl
  · split_ifs
    · rfl
    · split
      · rfl
      · cases rd.take? _ <;> rfl

theorem receivingStep_lagging (source : Endpoint) (rd : Reading) :
    (m.lagging s d).receivingStep id r source rd a =
      (m.receivingStep id r source rd a).map (lag s d) := by
  simp only [receivingStep]
  split
  · split_ifs
    · rfl
    · split <;> rfl
    · split <;> rfl
    · rfl
  · split_ifs
    · rfl
    · split
      · rfl
      · cases rd.take? _ <;> rfl

theorem afterRouting_lagging (source : Endpoint) (rd : Reading) (item : Item) :
    (m.lagging s d).afterRouting id r source rd item hs =
      lag s d (m.afterRouting id r source rd item hs) := by
  cases item <;> rfl

/-- What a receiver does next does not depend on how far a dispatch is, so long as nothing comes into
a queue whose dispatch would be over. -/
theorem routingStep_lagging (source : Endpoint) (rd : Reading) (item : Item) (rt : Routing)
    (h : rt = .handing s → ∀ b, m.subscriptions[s]? = some b →
      (b.behind d).push item = (b.push item).behind d) :
    (m.lagging s d).routingStep id r source rd item rt =
      lag s d (m.routingStep id r source rd item rt) := by
  have hfound : ∀ t stage, setReceiver ((m.lagging s d).modifySubscription t
      fun b => { b with handles := b.handles + 1 }) id stage =
        (setReceiver (m.modifySubscription t fun b => { b with handles := b.handles + 1 }) id
          stage).lagging s d := fun t stage =>
    congrArg (·.setReceiver id stage) (modify_lagging fun _ _ _ => rfl)
  cases rt with
  | exact =>
    simp only [routingStep, findQueue]
    cases m.observers.get? source with
    | some t => exact Prod.ext (hfound t _) rfl
    | none =>
      simp only [Option.map_none]
      split_ifs
      · exact afterRouting_lagging source rd item
      · rfl
  | wildcard =>
    simp only [routingStep, findQueue]
    cases m.observers.get? source.toWildcard with
    | some t => exact Prod.ext (hfound t _) rfl
    | none => exact afterRouting_lagging source rd item
  | handing t =>
    have hpush : ((m.lagging s d).modifySubscription t (·.push item)).dropHandle t =
        ((m.modifySubscription t (·.push item)).dropHandle t).lagging s d := by
      rw [modify_lagging (t := t) fun ht b hb => h (congrArg Routing.handing ht) b hb,
        dropHandle_lagging]
    simp only [routingStep, hpush]
    exact afterRouting_lagging source rd item

theorem receiverStep_lagging
    (h : ∀ r src rd item, m.receivers[id]? = some r → r.stage = .routing src rd item (.handing s) →
      ∀ b, m.subscriptions[s]? = some b → (b.behind d).push item = (b.push item).behind d) :
    (m.lagging s d).receiverStep id a = (m.receiverStep id a).map (lag s d) := by
  simp only [receiverStep]
  cases hr : m.receivers[id]? with
  | none => rfl
  | some r =>
    simp only [Option.bind_eq_bind, Option.bind_some]
    split
    · split_ifs <;> rfl
    · exact greetingStep_lagging _ _
    · exact receivingStep_lagging _ _
    · next source rd item rt hst =>
      rw [routingStep_lagging source rd item rt fun hrt => h r source rd item hr (hrt ▸ hst)]
      rfl
    · rfl

theorem modify_concat {α : Type} {xs : List α} {x : α} {f : α → α} (h : i = xs.length → f x = x) :
    (xs ++ [x]).modify i f = xs.modify i f ++ [x] := by
  induction xs generalizing i with
  | nil =>
    cases i with
    | zero => simp [h rfl]
    | succ i => simp
  | cons y ys ih =>
    cases i with
    | zero => rfl
    | succ i => exact congrArg (y :: ·) (ih fun hi => h (congrArg Nat.succ hi))

theorem registrationStep_lagging (h : s = m.subscriptions.length → d = {})
    (hu : ∀ g, m.registrations[id]? = some g → g.stage ≠ .undoing s) :
    (m.lagging s d).registrationStep id = (m.registrationStep id).map (lag s d) := by
  simp only [registrationStep, removeObserver_lagging]
  cases hg : m.registrations[id]? with
  | none => rfl
  | some g =>
    simp only [Option.bind_eq_bind, Option.bind_some]
    split
    · rfl
    · split
      · rfl
      · have hmade := modify_concat (f := (·.behind d))
          (x := { remote := g.remote, observer := g.observer })
          fun hs : s = m.subscriptions.length => by rw [h hs]; rfl
        simp only [List.length_modify, ← hmade]
        rfl
    · rfl
    · next t hst =>
      have hne : t ≠ s := fun ht => hu g hg (ht ▸ hst)
      rw [modify_lagging fun ht => absurd ht hne]
      rfl
    · next t hst =>
      rw [modify_lagging fun _ b _ => by simp [Subscription.behind]]
      rfl
    · rfl

theorem dispatchStep_lagging (h : t ≠ s) :
    (m.lagging s d).dispatchStep t = (m.dispatchStep t).map (lag s d) := by
  have hget : (m.lagging s d).subscriptions[t]? = m.subscriptions[t]? :=
    List.getElem?_modify_ne _ _ h.symm
  simp only [dispatchStep, hget, modify_lagging fun ht => absurd ht h]
  cases m.subscriptions[t]? with
  | none => rfl
  | some b =>
    simp only [Option.bind_eq_bind, Option.bind_some]
    by_cases hr : b.stage = .running
    · simp only [hr, ne_eq, not_true_eq_false, if_false]
      split_ifs
      · rfl
      · split <;> rfl
      · split <;> rfl
    · simp only [ne_eq, hr, not_false_eq_true, if_true]
      rfl

theorem acceptorStep_lagging :
    (m.lagging s d).acceptorStep a = (m.acceptorStep a).map (lag s d) := by
  simp only [acceptorStep]
  split
  · split_ifs <;> rfl
  · split_ifs <;> rfl
  · split_ifs <;> rfl
  · split_ifs <;> rfl
  · rfl

theorem Lags.made (h : Lags m s d) (hs : s = m.subscriptions.length) : d = {} := by
  cases h with
  | level => rfl
  | going hb | ended hb =>
    have hlt := (List.getElem?_eq_some_iff.mp hb).1
    exact absurd hs (Nat.ne_of_lt hlt)

theorem Lags.push (h : Lags m s d) (hv : Served m) (ho : m.closed = false)
    (hr : m.receivers[id]? = some r) (hs : r.stage.handing? = some s)
    (hb : m.subscriptions[s]? = some b) (item : Item) :
    (b.behind d).push item = (b.push item).behind d := by
  obtain ⟨b', hb', hn⟩ := hv.used ho s (uses_pos_of_handing hr hs)
  cases hb.symm.trans hb'
  cases h with
  | level => rfl
  | going =>
    simp [Subscription.push, Subscription.behind, hn]
  | ended hb₀ he =>
    cases hb.symm.trans hb₀
    exact absurd he hn

/-- A dispatch that is behind leaves all moves of an open manager as they are, its own apart. -/
theorem move_lagging (h : Lags m s d) (hv : Served m) (ho : m'.closed = false)
    (hn : mv.drains s = false) (hm : m.move mv = some (m', hs)) :
    (m.lagging s d).move mv = some (m'.lagging s d, hs) := by
  have ho₀ : m.closed = false := (move_later hm).opened ho
  have hall : (m.lagging s d).move mv = (m.move mv).map (lag s d) →
      (m.lagging s d).move mv = some (m'.lagging s d, hs) := fun he => by
    rw [he, hm]
    rfl
  cases mv with
  | step task a =>
    have hstep : (m.lagging s d).step task a = (m.step task a).map (lag s d) →
        (m.lagging s d).move (.step task a) = some (m'.lagging s d, hs) :=
      fun he => hall (map_reap_besides he)
    cases task with
    | send | opening => exact hall (move_beside trivial)
    | acceptor => exact hstep acceptorStep_lagging
    | receiver id =>
      refine hstep (receiverStep_lagging fun r src rd item hr hst b hb => ?_)
      exact h.push hv ho₀ hr (by rw [hst]; rfl) hb item
    | dispatch t =>
      refine hstep ?_
      simp only [step, dispatchStep_lagging (of_decide_eq_false hn)]
      split_ifs <;> rfl
    | registration id =>
      refine hstep ?_
      have hu : ∀ g, m.registrations[id]? = some g → g.stage ≠ .undoing s := fun g hg hst => by
        cases ho₀.symm.trans (hv.prepared.late id g s hg hst)
      simp only [step, registrationStep_lagging h.made hu]
      split_ifs <;> rfl
    | closing c => cases ho.symm.trans (closed_of_closing hm hv.flagged)
  | unregister e =>
    refine hall ?_
    simp only [move, unregister, removeObserver_lagging]
    rfl
  | _ => exact hall (move_beside trivial)

end PeerLink.Manager
