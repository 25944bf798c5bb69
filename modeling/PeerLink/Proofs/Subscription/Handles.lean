import Mathlib.Data.List.Nodup
import PeerLink.Proofs.Subscription.Fates

namespace PeerLink

namespace Table

variable {κ α : Type} [DecidableEq κ] [DecidableEq α] {t : Table κ α} {k : κ} {a : α}

omit [DecidableEq κ] in
theorem count_insert (b : α) :
    (t.insert k a).values.count b = t.values.count b + if a = b then 1 else 0 := by
  simp only [insert, values, List.map_append, List.map_cons, List.map_nil, List.count_append,
    List.count_cons, List.count_nil, beq_iff_eq, Nat.zero_add]

def Keyed (t : Table κ α) : Prop := (t.entries.map Prod.fst).Nodup

omit [DecidableEq α] in
theorem Keyed.insert (h : t.Keyed) (hk : t.get? k = none) : (t.insert k a).Keyed := by
  have hn : k ∉ t.entries.map Prod.fst := by
    intro hm
    obtain ⟨e, he, rfl⟩ := List.mem_map.mp hm
    exact absurd rfl (bne_iff_ne.mp (List.lookup_eq_none_iff.mp hk e he))
  rw [Keyed, Table.insert, List.map_append, List.map_singleton]
  exact List.nodup_append_comm.mp (List.nodup_cons.mpr ⟨hn, h⟩)

omit [DecidableEq α] in
theorem Keyed.erase (h : t.Keyed) (k : κ) : (t.erase k).Keyed :=
  (List.filter_sublist.map _).nodup h

omit [DecidableEq α] in
theorem Keyed.get? (h : t.Keyed) (he : (k, a) ∈ t.entries) : t.get? k = some a := by
  obtain ⟨es⟩ := t
  simp only [Keyed, Table.get?] at h he ⊢
  induction es with
  | nil => cases he
  | cons e es ih =>
    obtain ⟨hn, hes⟩ := List.nodup_cons.mp h
    obtain rfl | he := List.mem_cons.mp he
    · exact List.lookup_cons_self
    · have hk : k ≠ e.1 := fun hk => hn (hk ▸ List.mem_map.mpr ⟨_, he, rfl⟩)
      rw [List.lookup_cons, beq_eq_false_iff_ne.mpr hk]
      exact ih hes he

/-- An entry that is taken out is the only one that goes. -/
theorem Keyed.count_erase (h : t.Keyed) (hk : t.get? k = some a) (b : α) :
    (t.erase k).values.count b + (if a = b then 1 else 0) = t.values.count b := by
  obtain ⟨es⟩ := t
  simp only [Keyed, Table.get?, Table.erase, values] at h hk ⊢
  induction es with
  | nil => cases hk
  | cons e es ih =>
    obtain ⟨j, c⟩ := e
    obtain ⟨hj, hes⟩ := List.nodup_cons.mp h
    by_cases he : k = j
    · subst he
      simp only [List.lookup_cons_self, Option.some.injEq] at hk
      subst hk
      have hself : es.filter (fun e => decide (e.1 ≠ k)) = es := by
        refine List.filter_eq_self.mpr fun e hm => decide_eq_true fun he => ?_
        exact hj (List.mem_map.mpr ⟨e, hm, he⟩)
      rw [List.filter_cons_of_neg (by simp), hself]
      simp only [List.map_cons, List.count_cons, beq_iff_eq]
    · rw [List.lookup_cons, beq_eq_false_iff_ne.mpr he] at hk
      have ih := ih hes hk
      rw [List.filter_cons_of_pos (by simpa using Ne.symm he)]
      simp only [List.map_cons, List.count_cons] at ih ⊢
      omega

end Table

namespace Manager

theorem countP_modify {α : Type} {p : α → Bool} {f : α → α} {xs : List α} {i : Nat} {a : α}
    (h : xs[i]? = some a) : (xs.modify i f).countP p + (if p a then 1 else 0) =
      xs.countP p + (if p (f a) then 1 else 0) := by
  induction xs generalizing i with
  | nil => cases h
  | cons x xs ih =>
    cases i with
    | zero =>
      cases h
      simp only [List.modify_zero_cons, List.countP_cons]
      omega
    | succ i =>
      have := ih h
      simp only [List.modify_succ_cons, List.countP_cons]
      omega

def uses (m : Manager) (s : SubscriptionId) : Nat :=
  m.observers.values.count s + m.receivers.countP (·.stage.handing? = some s)

/-- A subscription has a handle for each way into its queue. -/
structure Counted (m : Manager) : Prop where
  keyed : m.observers.Keyed
  made : ∀ s, 0 < m.uses s → s < m.subscriptions.length
  exact : ∀ s b, m.subscriptions[s]? = some b → b.handles = m.uses s

variable {m m' m₁ : Manager} {mv : Move} {hs : List Happening} {s t : SubscriptionId}
  {b : Subscription} {e : Endpoint}

theorem Counted.new (address : Endpoint) (config : Config) (clock : Nat) :
    Counted (new address config clock) := by
  constructor
  · exact List.nodup_nil
  · intro s h
    simp [uses, Manager.new, Table.values] at h
  · intro s b h
    simp [Manager.new] at h

theorem Counted.same (h : Counted m) (hk : m₁.observers.Keyed) (hu : ∀ s, m₁.uses s = m.uses s)
    (hn : m₁.subscriptions.length = m.subscriptions.length)
    (hb : ∀ (s : SubscriptionId) (b₁ : Subscription), m₁.subscriptions[s]? = some b₁ →
      ∃ b, m.subscriptions[s]? = some b ∧ b₁.handles = b.handles) : Counted m₁ := by
  refine ⟨hk, fun s hs => ?_, fun s b₁ hb₁ => ?_⟩
  · rw [hn]
    exact h.made s (hu s ▸ hs)
  · obtain ⟨b, hb, he⟩ := hb s b₁ hb₁
    rw [hu, he]
    exact h.exact s b hb

theorem Counted.congr (h : Counted m) (ho : m₁.observers = m.observers)
    (hs : m₁.subscriptions = m.subscriptions) (hr : m₁.receivers = m.receivers) : Counted m₁ := by
  refine h.same (ho ▸ h.keyed) (fun s => ?_) (by rw [hs]) fun s b hb => ⟨b, hs ▸ hb, rfl⟩
  rw [uses, ho, hr]
  rfl

theorem uses_setReceiver {id : Nat} {r : Receiver} (hr : m.receivers[id]? = some r)
    (stage : ReceiverStage) (s : SubscriptionId) :
    (m.setReceiver id stage).uses s + (if r.stage.handing? = some s then 1 else 0) =
      m.uses s + if stage.handing? = some s then 1 else 0 := by
  have hc := countP_modify (p := fun r : Receiver => decide (r.stage.handing? = some s))
    (f := fun r => { r with stage }) hr
  simp only [decide_eq_true_eq] at hc
  simp only [uses, setReceiver]
  omega

theorem uses_modifySubscription {f : Subscription → Subscription} :
    (m.modifySubscription t f).uses s = m.uses s := rfl

theorem uses_erase (h : m.observers.Keyed) (ht : m.observers.get? e = some t)
    (s : SubscriptionId) :
    uses { m.dropHandle t with observers := m.observers.erase e } s + (if t = s then 1 else 0) =
      m.uses s := by
  have hc := h.count_erase ht s
  simp only [uses, dropHandle, modifySubscription]
  omega

theorem uses_clearObservers (s : SubscriptionId) :
    m.clearObservers.uses s + m.observers.values.count s = m.uses s := by
  rw [clearObservers_scope]
  simp only [uses, Table.values, List.map_nil, List.count_nil]
  omega

theorem uses_insert (ss : List Subscription) (s : SubscriptionId) :
    uses { m with subscriptions := ss, observers := m.observers.insert e t } s =
      m.uses s + if t = s then 1 else 0 := by
  have := Table.count_insert (t := m.observers) (k := e) (a := t) s
  simp only [uses]
  omega

theorem uses_locate {id : Nat} {r : Receiver} (hr : m.receivers[id]? = some r)
    (hn : r.stage.handing? = none) (src : Endpoint) (rd : Reading) (item : Item)
    (s : SubscriptionId) :
    uses ((m.modifySubscription t fun b => { b with handles := b.handles + 1 }).setReceiver id
      (.routing src rd item (.handing t))) s = m.uses s + if t = s then 1 else 0 := by
  have hu := uses_setReceiver
    (m := m.modifySubscription t fun b => { b with handles := b.handles + 1 }) hr
    (.routing src rd item (.handing t)) s
  rw [hn, if_neg nofun] at hu
  simpa [ReceiverStage.handing?, uses_modifySubscription] using hu

theorem uses_hand {id : Nat} {r : Receiver} {stage : ReceiverStage}
    (hr : m.receivers[id]? = some r) (hs : r.stage.handing? = some t) (ha : stage.handing? = none)
    (item : Item) (s : SubscriptionId) :
    uses (((m.modifySubscription t (·.push item)).dropHandle t).setReceiver id stage) s +
      (if t = s then 1 else 0) = m.uses s := by
  have hu : _ = m.uses s + _ :=
    uses_setReceiver (m := (m.modifySubscription t (·.push item)).dropHandle t) hr stage s
  rw [hs, ha] at hu
  simpa using hu

theorem uses_pos_of_get? (h : m.observers.get? e = some s) : 0 < m.uses s := by
  have hv : s ∈ m.observers.values := List.mem_map.mpr ⟨_, Table.mem_of_get? h, rfl⟩
  have := List.count_pos_iff.mpr hv
  simp only [uses]
  omega

theorem uses_pos_of_handing {id : Nat} {r : Receiver} (hr : m.receivers[id]? = some r)
    (hs : r.stage.handing? = some s) : 0 < m.uses s := by
  have hc : 0 < m.receivers.countP (·.stage.handing? = some s) :=
    List.countP_pos_iff.mpr ⟨r, List.mem_of_getElem? hr, by simp [hs]⟩
  simp only [uses]
  omega

theorem Counted.modify {f : Subscription → Subscription} (h : Counted m)
    (hf : ∀ b, (f b).handles = b.handles) : Counted (m.modifySubscription t f) := by
  refine h.same h.keyed (fun _ => rfl) (List.length_modify _ _ _) fun s b₁ hb₁ => ?_
  obtain ⟨b, hb, ⟨rfl, rfl⟩ | ⟨-, rfl⟩⟩ := getElem?_modify_cases hb₁
  · exact ⟨b, hb, hf b⟩
  · exact ⟨b₁, hb, rfl⟩

theorem Counted.removeObserver (h : Counted m) : Counted (m.removeObserver e) := by
  rw [Manager.removeObserver]
  split
  · exact h
  · next t ht =>
    have hu := uses_erase h.keyed ht
    refine ⟨h.keyed.erase e, fun s hs => ?_, fun s b₁ hb₁ => ?_⟩
    · have hs' : 0 < m.uses s := Nat.lt_of_lt_of_le hs (hu s ▸ Nat.le_add_right _ _)
      exact Nat.lt_of_lt_of_eq (h.made s hs') (List.length_modify _ _ _).symm
    · have hus := hu s
      obtain ⟨b, hb, ⟨rfl, rfl⟩ | ⟨hn, rfl⟩⟩ := getElem?_modify_cases hb₁
      · rw [if_pos rfl, ← h.exact s b hb] at hus
        exact Nat.sub_eq_of_eq_add hus.symm
      · rw [if_neg (Ne.symm hn), ← h.exact s b₁ hb] at hus
        exact hus.symm

theorem foldl_dropHandle_handles {b₁ : Subscription} (ss : List SubscriptionId)
    (h : (ss.foldl dropHandle m).subscriptions[s]? = some b₁) :
    ∃ b, m.subscriptions[s]? = some b ∧ b₁.handles = b.handles - ss.count s := by
  induction ss generalizing m with
  | nil => exact ⟨b₁, h, rfl⟩
  | cons t ss ih =>
    obtain ⟨b₂, hb₂, he⟩ := ih h
    obtain ⟨b, hb, ⟨rfl, rfl⟩ | ⟨hn, rfl⟩⟩ := getElem?_modify_cases hb₂
    · refine ⟨b, hb, ?_⟩
      simp only [List.count_cons_self] at he ⊢
      omega
    · exact ⟨b₂, hb, by rw [he, List.count_cons_of_ne (Ne.symm hn)]⟩

theorem Counted.clearObservers (h : Counted m) : Counted m.clearObservers := by
  have huses := uses_clearObservers (m := m)
  refine ⟨List.nodup_nil, fun s hs => ?_, fun s b₁ hb₁ => ?_⟩
  · rw [length_clearObservers]
    have := huses s
    exact h.made s (by omega)
  · obtain ⟨b, hb, he⟩ := foldl_dropHandle_handles m.observers.values hb₁
    have hn := h.exact s b hb
    have := huses s
    omega

theorem Counted.registration {id : Nat} {r : Registration} (h : Counted m)
    (hst : RegistrationStep m id r m₁) : Counted m₁ := by
  cases hst with
  | insert hs ho =>
    have hu := uses_insert (m := m) (e := r.remote) (t := m.subscriptions.length)
      (m.subscriptions ++ [{ remote := r.remote, observer := r.observer }])
    refine ⟨h.keyed.insert ho, fun s hs => ?_, fun s b₁ hb₁ => ?_⟩
    · have hs := Nat.lt_of_lt_of_eq hs (hu s)
      have hlt : s < m.subscriptions.length + 1 := by
        by_cases he : m.subscriptions.length = s
        · exact he ▸ Nat.lt_succ_self _
        · rw [if_neg he] at hs
          exact Nat.lt_succ_of_lt (h.made s hs)
      simpa [setRegistration] using hlt
    · refine Eq.trans ?_ (hu s).symm
      obtain hb | ⟨rfl, rfl⟩ := getElem?_concat_cases hb₁
      · have hlt := (List.getElem?_eq_some_iff.mp hb).1
        rw [if_neg (Nat.ne_of_gt hlt)]
        exact h.exact s b₁ hb
      · rw [if_pos rfl]
        have hz : m.uses m.subscriptions.length = 0 :=
          Nat.eq_zero_of_not_pos fun hn => absurd (h.made _ hn) (Nat.lt_irrefl _)
        exact congrArg (· + 1) hz.symm
  | @undo s =>
    exact ((h.removeObserver (e := r.remote)).modify (t := s)
      (f := fun s => { s with stage := .ended }) fun _ => rfl).congr rfl rfl rfl
  | @spawn s =>
    exact (h.modify (t := s) (f := fun s => { s with stage := .running }) fun _ => rfl).congr
      rfl rfl rfl
  | _ => exact h.congr rfl rfl rfl

theorem Counted.locate {id : Nat} {r : Receiver} {src key : Endpoint} {rd : Reading} {item : Item}
    (h : Counted m) (hr : m.receivers[id]? = some r) (hn : r.stage.handing? = none)
    (hg : m.observers.get? key = some t) :
    Counted ((m.modifySubscription t fun b => { b with handles := b.handles + 1 }).setReceiver id
      (.routing src rd item (.handing t))) := by
  have hu := uses_locate (t := t) hr hn src rd item
  have hpos : 0 < m.uses t := uses_pos_of_get? hg
  refine ⟨h.keyed, fun s hs => ?_, fun s b₁ hb₁ => ?_⟩
  · refine Nat.lt_of_lt_of_eq ?_ (List.length_modify _ _ _).symm
    have hs := Nat.lt_of_lt_of_eq hs (hu s)
    split at hs
    · next he => exact h.made s (he ▸ hpos)
    · exact h.made s hs
  · refine Eq.trans ?_ (hu s).symm
    obtain ⟨b, hb, ⟨rfl, rfl⟩ | ⟨hn, rfl⟩⟩ := getElem?_modify_cases hb₁
    · rw [if_pos rfl]
      exact congrArg (· + 1) (h.exact s b hb)
    · rw [if_neg (Ne.symm hn)]
      exact h.exact s b₁ hb

/-- A receiver that has put its item into a queue lets go of its handle. -/
theorem Counted.hand {id established : Nat} {r : Receiver} {item : Item} {stage : ReceiverStage}
    (h : Counted m) (hr : m.receivers[id]? = some r) (hs' : r.stage.handing? = some t)
    (ha : stage.handing? = none) :
    Counted { ((m.modifySubscription t (·.push item)).dropHandle t).setReceiver id stage with
      established } := by
  have hu := uses_hand hr hs' ha item
  refine ⟨h.keyed, fun s hs => ?_, fun s b₁ hb₁ => ?_⟩
  · have hs : 0 < m.uses s := Nat.lt_of_lt_of_le hs (by rw [← hu s]; exact Nat.le_add_right _ _)
    apply Nat.lt_of_lt_of_eq (h.made s hs)
    exact ((List.length_modify _ _ _).trans (List.length_modify _ _ _)).symm
  · have hn := hu s
    show _ = uses (((m.modifySubscription t (·.push item)).dropHandle t).setReceiver id stage) s
    obtain ⟨b₂, hb₂, ⟨rfl, rfl⟩ | ⟨hne, rfl⟩⟩ := getElem?_modify_cases hb₁
    · obtain ⟨b, hb, ⟨-, rfl⟩ | ⟨hne, -⟩⟩ := getElem?_modify_cases hb₂
      · have he := h.exact s b hb
        rw [if_pos rfl] at hn
        simp only [push_handles]
        omega
      · exact absurd rfl hne
    · obtain ⟨b, hb, ⟨he, -⟩ | ⟨-, rfl⟩⟩ := getElem?_modify_cases hb₂
      · exact absurd he hne
      · have he := h.exact s b₁ hb
        rw [if_neg (Ne.symm hne)] at hn
        omega

theorem Counted.stir (h : Counted m) (hst : Stir m mv m₁ hs) : Counted m₁ := by
  cases hst with
  | aside hm => exact h.congr (by rw [hm]) (by rw [hm]) (by rw [hm])
  | arrive =>
    refine h.same h.keyed (fun s => ?_) rfl fun s b hb => ⟨b, hb, rfl⟩
    simp [uses, ReceiverStage.handing?]
  | ask => exact h.congr rfl rfl rfl
  | @read id a r stage _ _ hr hb ha =>
    refine h.same h.keyed (fun s => ?_) rfl fun s b hb => ⟨b, hb, rfl⟩
    have hu := uses_setReceiver hr stage s
    rw [hb, ha] at hu
    exact Nat.add_right_cancel hu
  | locate hr hs' hk hg =>
    refine h.locate hr ?_ hg
    rw [hs']
    obtain ⟨rfl, -⟩ | ⟨rfl, -⟩ := hk <;> rfl
  | hand hr hs' ha => exact h.hand hr (by rw [hs']; rfl) ha
  | unregister => exact h.removeObserver
  | registration _ hst => exact h.registration hst
  | dispatch _ hst =>
    cases hst with
    | _ => exact h.modify fun _ => rfl
  | clear => exact h.clearObservers.congr rfl rfl rfl

/-- A queue that nothing leads to is never found again. -/
theorem Stir.unused (h : Stir m mv m₁ hs) (hk : m.observers.Keyed)
    (hlt : s < m.subscriptions.length) (hu : m.uses s = 0) : m₁.uses s = 0 := by
  have herase : ∀ e, (m.removeObserver e).uses s = 0 := by
    intro e
    rw [removeObserver]
    split
    · exact hu
    · next t ht => exact Nat.le_zero.mp (hu ▸ Nat.le.intro (uses_erase hk ht s))
  cases h with
  | aside hm =>
    have ho : m₁.observers = m.observers := by rw [hm]
    have hr : m₁.receivers = m.receivers := by rw [hm]
    rw [uses, ho, hr]
    exact hu
  | arrive => simpa [uses, ReceiverStage.handing?] using hu
  | ask => exact hu
  | @read _ _ _ stage _ _ hr hb ha =>
    have he := uses_setReceiver hr stage s
    rw [hb, ha] at he
    exact (Nat.add_right_cancel he).trans hu
  | @locate id r src rd item rt key t hr hs' hk' hg =>
    have hn : r.stage.handing? = none := by
      rw [hs']
      obtain ⟨rfl, -⟩ | ⟨rfl, -⟩ := hk' <;> rfl
    have hne : t ≠ s := by
      rintro rfl
      exact absurd hu (Nat.ne_of_gt (uses_pos_of_get? hg))
    rw [uses_locate hr hn, if_neg hne]
    exact hu
  | @hand id r _ _ item _ _ _ _ hr hs' ha =>
    have he := uses_hand hr (by rw [hs']; rfl) ha item s
    exact Nat.le_zero.mp (hu ▸ Nat.le.intro he)
  | unregister => exact herase _
  | @registration _ r _ _ hst =>
    cases hst with
    | insert =>
      have he := uses_insert (m := m) (e := r.remote) (t := m.subscriptions.length)
        (m.subscriptions ++ [{ remote := r.remote, observer := r.observer }]) s
      rw [if_neg (Nat.ne_of_gt hlt), hu] at he
      exact he
    | undo => exact herase _
    | _ => exact hu
  | dispatch _ hst => cases hst <;> exact hu
  | clear => exact Nat.le_zero.mp (hu ▸ Nat.le.intro (uses_clearObservers s))

end Manager

end PeerLink
