import PeerLink.Proofs.Link.Line
import PeerLink.Proofs.Manager.Effects
import PeerLink.Proofs.Manager.Reaping
import PeerLink.Proofs.Manager.Tables

namespace PeerLink.Manager

variable {m m' m₁ : Manager} {mv : Move} {hs : List Happening} {l : LinkId} {d : Endpoint}

/-- There is such a link, and it goes there. -/
def Goes (m : Manager) (l : LinkId) (d : Endpoint) : Prop :=
  ∃ k, m.allLinks[l]? = some k ∧ k.destination = d

theorem Goes.modify {j : LinkId} {f : Link → Link} (h : m.Goes l d)
    (hf : ∀ k, (f k).destination = k.destination) : (m.modifyLink j f).Goes l d := by
  obtain ⟨k, hk, hd⟩ := h
  refine ⟨if j = l then f k else k, by simp [modifyLink, List.getElem?_modify, hk], ?_⟩
  split
  · rw [hf, hd]
  · exact hd

theorem Goes.lookup {d' : Endpoint} {k k' : Lookup} (h : m.Goes l d)
    (hk : LookupStep m d' k m₁ k') : m₁.Goes l d := by
  cases hk with
  | make =>
    obtain ⟨k, hk, hd⟩ := h
    exact ⟨k, by rw [List.getElem?_append_left (List.getElem?_eq_some_iff.mp hk).1, hk], hd⟩
  | evict =>
    rw [evict_scope]
    exact h
  | _ => exact h

theorem Ready.destination {id : SendId} {s : Send} {a : Answer} {g : Link → Link} {w : Writer}
    (h : Ready m id s l a g w hs) (k : Link) : (g k).destination = k.destination := by
  cases h <;> rfl

theorem Goes.effect (h : m.Goes l d) (he : Effect m mv m₁ hs) : m₁.Goes l d := by
  cases he with
  | aside hm =>
    rw [hm]
    exact h
  | call | ask | finish | drop => exact h
  | leave => exact h.modify fun k => k.destination_leave _
  | opening _ hk => exact (h.lookup (lookupStep_cases hk) :)
  | send _ hs =>
    cases hs with
    | find _ hk => exact (h.lookup (lookupStep_cases hk) :)
    | request => exact h.modify fun k => k.destination_request _
    | cancel | retry => exact h.modify fun k => k.destination_leave _
    | place hr => exact h.modify fun k => hr.destination k
    | overflow hr =>
      exact h.modify fun k => (Link.destination_leave _ _).trans (hr.destination k)
    | failConnect | writePart => exact h.modify fun _ => rfl
    | giveUp =>
      rw [evict_scope]
      exact h.modify fun k => k.destination_leave _
    | writeAll => exact h.modify fun k => (k.consume _).destination_leave _
    | failWrite => exact h.modify fun k => k.disconnect.destination_leave _
    | _ => exact h
  | closing _ hc =>
    cases hc with
    | request => exact h.modify fun k => k.destination_request _
    | retireIdle | retireBusy => exact h.modify fun k => (k.shutDown).destination_leave _
    | clearObservers =>
      rw [clearObservers_scope]
      exact h
    | _ => exact h

theorem Goes.reap {o : Manager × List Happening} (h : o.1.Goes l d) (hr : reap o = (m', hs)) :
    m'.Goes l d := by
  obtain ⟨k, hk, hd⟩ := h
  have hl := (List.getElem?_eq_some_iff.mp hk).1
  obtain ⟨k', hk'⟩ : ∃ k', m'.allLinks[l]? = some k' :=
    ⟨_, List.getElem?_eq_getElem (by rw [reap_length hr]; exact hl)⟩
  obtain ⟨k₀, hk₀, h₀⟩ := reap_link hr hk'
  cases hk.symm.trans hk₀
  refine ⟨k', hk', ?_⟩
  obtain ⟨rfl, -⟩ | ⟨-, rfl⟩ := h₀ <;> exact hd

theorem Goes.move (h : m.Goes l d) (hm : m.move mv = some (m', hs)) : m'.Goes l d := by
  obtain ⟨m₁, hs₁, he, hr | ⟨rfl, -⟩⟩ := move_effect hm
  · exact Goes.reap (o := (m₁, hs₁)) (h.effect he) hr
  · exact h.effect he

theorem Goes.unique {d d' : Endpoint} (h : m.Goes l d) (h' : m.Goes l d') : d = d' := by
  obtain ⟨k, hk, rfl⟩ := h
  obtain ⟨k', hk', rfl⟩ := h'
  cases hk.symm.trans hk'
  rfl

theorem Goes.lt (h : m.Goes l d) : l < m.allLinks.length := by
  obtain ⟨k, hk, -⟩ := h
  exact (List.getElem?_eq_some_iff.mp hk).1

theorem Goes.before (h : m₁.Goes l d) (he : Effect m mv m₁ hs) (hl : l < m.allLinks.length) :
    m.Goes l d := by
  have hg : m.Goes l _ := ⟨_, List.getElem?_eq_getElem hl, rfl⟩
  exact (hg.effect he).unique h ▸ hg

theorem Goes.of_reap {o : Manager × List Happening} (h : m'.Goes l d)
    (hr : Manager.reap o = (m', hs)) :
    o.1.Goes l d := by
  obtain ⟨k', hk', rfl⟩ := h
  obtain ⟨k, hk, ⟨rfl, -⟩ | ⟨-, rfl⟩⟩ := reap_link hr hk' <;> exact ⟨_, hk, rfl⟩

theorem evict_get? {d' : Endpoint} (h : d ≠ d') : (m.evict d' l).links.get? d = m.links.get? d := by
  rw [evict]
  split
  · exact Table.get?_erase.trans (if_neg h)
  · rfl

structure Directed (m : Manager) : Prop where
  table : ∀ d l, (d, l) ∈ m.links.entries → m.Goes l d
  sends : ∀ (id : SendId) s l, m.sends[id]? = some s → s.stage.link? = some l →
    m.Goes l s.destination
  openings : ∀ (id : Nat) o l, m.openings[id]? = some o → o.stage.link? = some l →
    m.Goes l o.destination
  closings : ∀ (id : ClosingId) c l, m.closings[id]? = some c → l ∈ c.stage.links →
    ∃ d, m.Goes l d

theorem Directed.new (address : Endpoint) (config : Config) (clock : Nat) :
    Directed (new address config clock) := by
  constructor <;> intros <;> simp_all [Manager.new]

theorem setSend_get {id : SendId} {s : Send} (hs : m.sends[id]? = some s) (stage : SendStage) :
    (m.setSend id stage).sends[id]? = some { s with stage } := by
  simp [setSend, hs]

theorem setSend_get_ne {id j : SendId} (hj : j ≠ id) (stage : SendStage) :
    (m.setSend id stage).sends[j]? = m.sends[j]? :=
  List.getElem?_modify_ne _ _ hj.symm

theorem SendStep.others {id j : SendId} {s : Send} {a : Answer} (h : SendStep m id s a m₁ hs)
    (hj : j ≠ id) : m₁.sends[j]? = m.sends[j]? := by
  cases h with
  | writePart => rfl
  | find _ hk =>
    rw [setSend_get_ne hj, lookupStep_scope hk]
  | giveUp =>
    rw [evict_scope]
    exact setSend_get_ne hj _
  | _ => exact setSend_get_ne hj _

/-- A link that is found goes to where one was asked for. -/
theorem LookupStep.directed {k k' : Lookup} (h : LookupStep m d k m₁ k') (hd : Directed m)
    (hk : ∀ l, k.link? = some l → m.Goes l d) :
    (∀ l, k'.link? = some l → m₁.Goes l d) ∧
      ∀ e l, (e, l) ∈ m₁.links.entries → m₁.Goes l e := by
  cases h with
  | refuse | enter => exact ⟨nofun, hd.table⟩
  | meet hl =>
    refine ⟨fun l hk' => ?_, hd.table⟩
    cases hk'
    exact hd.table d _ (Table.mem_of_get? hl)
  | make hl =>
    have hg : Goes { m with
        allLinks := m.allLinks ++ [{ destination := d }]
        links := m.links.insert d m.allLinks.length } m.allLinks.length d :=
      ⟨{ destination := d }, by simp, rfl⟩
    refine ⟨fun l hk' => ?_, fun e l he => ?_⟩
    · cases hk'
      exact hg
    · obtain he | ⟨rfl, rfl⟩ := Table.mem_insert he
      · exact (hd.table e l he).lookup (.make hl)
      · exact hg
  | withdraw | confirm => exact ⟨hk, hd.table⟩
  | @evict l =>
    refine ⟨nofun, fun e l' he => ?_⟩
    have he : (e, l') ∈ m.links.entries := by
      rw [Manager.evict] at he
      split at he
      · exact Table.mem_erase he
      · exact he
    exact (hd.table e l' he).lookup .evict

theorem SendStep.directed {id : SendId} {s s₁ : Send} {a : Answer} (h : SendStep m id s a m₁ hs)
    (hs' : m.sends[id]? = some s) (hd : Directed m) (h₁ : m₁.sends[id]? = some s₁)
    (hl : s₁.stage.link? = some l) : m₁.Goes l s₁.destination := by
  have hg : ∀ l, s.stage.link? = some l → m₁.Goes l s.destination :=
    fun l hl => (hd.sends id s l hs' hl).effect (.send hs' h)
  cases h with
  | refuse | reject | start | turnAway | quit | cancel | retry | overflow | writeAll
  | failWrite =>
    cases (setSend_get hs' _).symm.trans h₁
    cases hl
  | giveUp =>
    rw [evict_scope] at h₁
    cases (setSend_get hs' _).symm.trans h₁
    cases hl
  | find he hk =>
    rw [lookupStep_scope hk] at h₁
    cases (setSend_get hs' _).symm.trans h₁
    have hk' : ∀ l, SendStage.link? (.linking _) = some l → m.Goes l s.destination :=
      fun l hl => hd.sends id s l hs' (he ▸ hl)
    exact ((lookupStep_cases hk).directed hd hk').1 l hl
  | found he | request he | dial he | drain he | greet he | greetPart he =>
    cases (setSend_get hs' _).symm.trans h₁
    refine hg l ?_
    rw [he]
    exact hl
  | failConnect hu =>
    cases (setSend_get hs' _).symm.trans h₁
    refine hg l ?_
    cases hl
    exact SendStage.link?_of_line? (SendStage.line?_of_held? hu.held?)
  | place hr =>
    cases (setSend_get hs' _).symm.trans h₁
    refine hg l ?_
    cases hl
    exact SendStage.link?_of_line? hr.line?
  | writePart =>
    cases hs'.symm.trans h₁
    exact hg l hl

theorem SendStep.table {id : SendId} {s : Send} {a : Answer} (h : SendStep m id s a m₁ hs)
    (hs' : m.sends[id]? = some s) (hd : Directed m) (e : Endpoint)
    (he : (e, l) ∈ m₁.links.entries) : m₁.Goes l e := by
  have hg : (e, l) ∈ m.links.entries → m₁.Goes l e :=
    fun he => (hd.table e l he).effect (.send hs' h)
  cases h with
  | find hf hk =>
    have hk' : ∀ l, SendStage.link? (.linking _) = some l → m.Goes l s.destination :=
      fun l hl => hd.sends id s l hs' (hf ▸ hl)
    exact ((lookupStep_cases hk).directed hd hk').2 e l he
  | giveUp =>
    refine hg ?_
    change (e, l) ∈ (m.evict _ _).links.entries at he
    rw [evict] at he
    split at he
    · exact Table.mem_erase he
    · exact he
  | _ => exact hg he

/-- A closing goes through links that it has found in the table. -/
theorem ClosingStep.links {id : ClosingId} {c c₁ : Closing} {a : Answer}
    (h : ClosingStep m id c a m₁ hs) (hc : m.closings[id]? = some c)
    (h₁ : m₁.closings[id]? = some c₁) (hl : l ∈ c₁.stage.links) :
    l ∈ c.stage.links ∨ l ∈ m.links.values := by
  cases h with
  | again | swap | cancel | await | done | giveUp =>
    cases (setClosing_get hc _).symm.trans h₁
    cases hl
  | clearObservers _ hn =>
    rw [clearObservers_scope] at h₁
    cases (setClosing_get hc _).symm.trans h₁
    obtain ⟨-, rfl⟩ | ⟨-, rfl⟩ := hn <;> cases hl
  | collect =>
    cases (setClosing_get hc _).symm.trans h₁
    exact .inr hl
  | clearLinks hs hn =>
    cases (setClosing_get hc _).symm.trans h₁
    obtain ⟨-, rfl⟩ | ⟨-, rfl⟩ := hn
    · left
      rw [hs]
      exact hl
    · cases hl
  | request hs | flushPart hs =>
    cases (setClosing_get hc _).symm.trans h₁
    left
    rw [hs]
    exact hl
  | retireIdle hs | retireBusy hs =>
    cases (setClosing_get hc _).symm.trans h₁
    left
    rw [hs]
    exact List.mem_cons_of_mem _ hl
  | flushEnd hs =>
    cases (setClosing_get hc _).symm.trans h₁
    left
    rw [hs]
    exact hl

theorem Directed.effect (hd : Directed m) (he : Effect m mv m₁ hs) : Directed m₁ := by
  have hg : ∀ {l d}, m.Goes l d → m₁.Goes l d := fun h => h.effect he
  cases he with
  | aside hm =>
    rw [hm]
    exact ⟨hd.table, hd.sends, hd.openings, hd.closings⟩
  | call =>
    refine ⟨hd.table, fun id s l hs hl => ?_, hd.openings, hd.closings⟩
    obtain hs | ⟨-, rfl⟩ := getElem?_concat_cases hs
    · exact hd.sends id s l hs hl
    · cases hl
  | ask =>
    refine ⟨hd.table, hd.sends, fun id o l ho hl => ?_, hd.closings⟩
    obtain ho | ⟨-, rfl⟩ := getElem?_concat_cases ho
    · exact hd.openings id o l ho hl
    · cases hl
  | finish =>
    refine ⟨hd.table, hd.sends, hd.openings, fun id c l hc hl => ?_⟩
    obtain hc | ⟨-, rfl⟩ := getElem?_concat_cases hc
    · exact hd.closings id c l hc hl
    · cases hl
  | @send id s a _ _ hs' h =>
    refine ⟨fun e l he => h.table hs' hd e he, fun j s₁ l hj hl => ?_, fun j o l ho hl => ?_,
      fun j c l hc hl => ?_⟩
    · by_cases hji : j = id
      · subst hji
        exact h.directed hs' hd hj hl
      · rw [h.others hji] at hj
        exact hg (hd.sends j s₁ l hj hl)
    · rw [h.scope] at ho
      exact hg (hd.openings j o l ho hl)
    · rw [h.scope] at hc
      exact (hd.closings j c l hc hl).imp fun _ => hg
  | @drop id s hs' | @leave id s _ hs' =>
    refine ⟨fun d l h => hg (hd.table d l h), fun j s₁ l hj hl => ?_,
      fun j o l ho hl => hg (hd.openings j o l ho hl),
      fun j c l hc hl => (hd.closings j c l hc hl).imp fun _ => hg⟩
    by_cases hji : j = id
    · subst hji
      cases (setSend_get hs' _).symm.trans hj
      cases hl
    · exact hg (hd.sends j s₁ l ((setSend_get_ne hji _).symm.trans hj) hl)
  | @opening id o m₂ k ho hk =>
    have hlk := (lookupStep_cases hk).directed hd fun l hl => hd.openings id o l ho hl
    have hsc := lookupStep_scope hk
    refine ⟨fun d l h => hlk.2 d l h, fun j s l hs hl => ?_, fun j o' l ho' hl => ?_,
      fun j c l hc hl => ?_⟩
    · rw [hsc] at hs
      exact hg (hd.sends j s l hs hl)
    · simp only [setOpening, List.getElem?_modify, Option.map_eq_map] at ho'
      obtain ⟨o₀, ho₀, rfl⟩ := Option.map_eq_some_iff.mp ho'
      rw [hsc] at ho₀
      by_cases hji : id = j
      · subst hji
        cases ho.symm.trans ho₀
        rw [if_pos rfl] at hl ⊢
        exact hlk.1 l hl
      · rw [if_neg hji] at hl ⊢
        exact hg (hd.openings j o₀ l ho₀ hl)
    · rw [hsc] at hc
      exact (hd.closings j c l hc hl).imp fun _ => hg
  | @closing id c a _ _ hc h =>
    refine ⟨fun d l he => ?_, fun j s l hs hl => ?_, fun j o l ho hl => ?_, fun j c₁ l hj hl => ?_⟩
    · refine hg (hd.table d l ?_)
      cases h with
      | clearLinks => cases he
      | clearObservers =>
        rw [clearObservers_scope] at he
        exact he
      | _ => exact he
    · rw [h.scope] at hs
      exact hg (hd.sends j s l hs hl)
    · rw [h.scope] at ho
      exact hg (hd.openings j o l ho hl)
    · by_cases hji : j = id
      · subst hji
        obtain hl | hl := h.links hc hj hl
        · exact (hd.closings j c l hc hl).imp fun _ => hg
        · obtain ⟨d, hd'⟩ := Table.mem_values hl
          exact ⟨d, hg (hd.table d l hd')⟩
      · rw [h.others hji] at hj
        exact (hd.closings j c₁ l hj hl).imp fun _ => hg

theorem Directed.reap {o : Manager × List Happening} (hd : Directed o.1)
    (hr : reap o = (m', hs)) : Directed m' := by
  have hg : ∀ {l d}, o.1.Goes l d → m'.Goes l d := fun h => h.reap hr
  refine ⟨fun d l h => hg ?_, fun id s l hs hl => hg ?_, fun id k l ho hl => hg ?_,
    fun id c l hc hl => ?_⟩
  · rw [reap_scope hr] at h
    exact hd.table d l h
  · rw [reap_scope hr] at hs
    exact hd.sends id s l hs hl
  · rw [reap_scope hr] at ho
    exact hd.openings id k l ho hl
  · rw [reap_scope hr] at hc
    exact (hd.closings id c l hc hl).imp fun _ => hg

end PeerLink.Manager
