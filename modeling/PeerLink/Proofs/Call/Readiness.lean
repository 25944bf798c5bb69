import PeerLink.Proofs.Call.Outcome
import PeerLink.Proofs.Link.Retirement

namespace PeerLink.Manager

/-- A call that waits for a stream to take bytes has some that it has not taken. -/
structure Pressing (m : Manager) : Prop where
  greeting : ∀ (id : SendId) s l stream unsent, m.sends[id]? = some s →
    s.stage = .greeting l stream unsent → unsent ≠ []
  writing : ∀ (id : SendId) s l (k : Link) w, m.sends[id]? = some s → s.stage.writing? = some l →
    m.allLinks[l]? = some k → k.writer = some w → w.buffer ≠ []

variable {m m' m₁ : Manager} {mv : Move} {hs ws : List Happening} {l : LinkId} {k : Link}
  {id j : SendId} {s s₁ : Send} {a : Answer} {d : Endpoint} {w : Writer} {stream : StreamId}
  {unsent : Bytes}

theorem Pressing.new (address : Endpoint) (config : Config) (clock : Nat) :
    Pressing (new address config clock) := by
  constructor
  · intro id s l stream unsent hs
    simp [Manager.new] at hs
  · intro id s l k w hs
    simp [Manager.new] at hs

theorem SendStep.pressing_greeting (hst : SendStep m id s a m₁ hs) (hs' : m.sends[id]? = some s)
    (h₁ : m₁.sends[id]? = some s₁) (he : s₁.stage = .greeting l stream unsent) : unsent ≠ [] := by
  cases hst with
  | greet _ _ hb =>
    cases (setSend_get hs' _).symm.trans h₁
    cases he
    rw [(Frame.encode?_eq_ok.mp hb).2]
    exact Frame.encode_ne_nil _
  | greetPart _ _ _ hlt =>
    cases (setSend_get hs' _).symm.trans h₁
    cases he
    exact mt List.drop_eq_nil_iff.mp (Nat.not_le.mpr hlt)
  | find _ hk =>
    rw [lookupStep_scope hk] at h₁
    cases (setSend_get hs' _).symm.trans h₁
    cases he
  | giveUp =>
    rw [evict_scope] at h₁
    cases (setSend_get hs' _).symm.trans h₁
    cases he
  | writePart hst =>
    cases hs'.symm.trans h₁
    obtain hst | hst := hst <;> cases hst.symm.trans he
  | _ =>
    cases (setSend_get hs' _).symm.trans h₁
    cases he

theorem SendStep.pressing_writing (hst : SendStep m id s a m₁ hs) (hs' : m.sends[id]? = some s)
    (hd : Directed m) (h₁ : m₁.sends[id]? = some s₁) (hl : s₁.stage.writing? = some l)
    (hk : m₁.allLinks[l]? = some k) (hw : k.writer = some w) : w.buffer ≠ [] := by
  cases hst with
  | drain _ _ hk' _ _ hw' hb =>
    cases (setSend_get hs' _).symm.trans h₁
    cases hl
    cases hk'.symm.trans hk
    cases hw'.symm.trans hw
    intro hn
    simp [hn, bufferBoundary] at hb
  | @place _ _ g w' _ bytes hr _ hb =>
    cases (setSend_get hs' _).symm.trans h₁
    cases hl
    obtain ⟨k₀, hk₀, -⟩ := hd.sends id s l hs' (SendStage.link?_of_line? hr.line?)
    cases (modifyLink_get hk₀ _).symm.trans hk
    have hw' : ((g k₀).append bytes).writer = some { w' with buffer := w'.buffer ++ bytes } := by
      simp [Link.append, hr.writer hk₀]
    cases hw'.symm.trans hw
    rw [(Frame.encode?_eq_ok.mp hb).2]
    exact List.append_ne_nil_of_right_ne_nil _ (Frame.encode_ne_nil _)
  | @writePart l' k₀ w₀ count hst _ hk₀ hw₀ _ hlt =>
    cases hs'.symm.trans h₁
    obtain rfl : l' = l := by obtain hst | hst := hst <;> rw [hst] at hl <;> cases hl <;> rfl
    cases (modifyLink_get hk₀ (·.consume count)).symm.trans hk
    have hw' : (k₀.consume count).writer = some { w₀ with buffer := w₀.buffer.drop count } := by
      simp [Link.consume, hw₀]
    cases hw'.symm.trans hw
    exact mt List.drop_eq_nil_iff.mp (Nat.not_le.mpr hlt)
  | find _ hf =>
    rw [lookupStep_scope hf] at h₁
    cases (setSend_get hs' _).symm.trans h₁
    cases hl
  | giveUp =>
    rw [evict_scope] at h₁
    cases (setSend_get hs' _).symm.trans h₁
    cases hl
  | _ =>
    cases (setSend_get hs' _).symm.trans h₁
    cases hl

theorem Pressing.effect (h : Pressing m) (hm : Sound m) (he : Effect m mv m₁ hs) : Pressing m₁ := by
  constructor
  · intro j s₁ l stream unsent h₁ hst
    obtain ⟨h₁, -⟩ | hst' | hst' | ⟨a, s, rfl, hs', hstep⟩ := he.sends h₁
    · exact h.greeting j s₁ l stream unsent h₁ hst
    · cases hst.symm.trans hst'
    · cases hst.symm.trans hst'
    · exact hstep.pressing_greeting hs' h₁ hst
  · intro j s₁ l k₁ w h₁ hl hk₁ hw
    obtain ⟨h₁, hmv⟩ | hst' | hst' | ⟨a, s, rfl, hs', hstep⟩ := he.sends h₁
    · obtain ⟨k, w₀, hk, -⟩ := hm.supplied.writing j s₁ l h₁ hl
      obtain ⟨k₁', hk₁', hw', -⟩ :=
        he.untouched_of_held hm.locked h₁ (SendStage.held?_of_writing? hl) hk hmv
      cases hk₁.symm.trans hk₁'
      exact h.writing j s₁ l k w h₁ hl hk (hw'.symm.trans hw)
    · rw [hst'] at hl
      cases hl
    · rw [hst'] at hl
      cases hl
    · exact hstep.pressing_writing hs' hm.directed h₁ hl hk₁ hw

theorem Pressing.move (h : Pressing m) (hm : Sound m) (hmv : m.move mv = some (m', hs)) :
    Pressing m' := by
  obtain ⟨m₁, hs₁, he, hr | ⟨rfl, -⟩⟩ := move_effect hmv
  · have h₁ := h.effect hm he
    refine ⟨fun j s l stream unsent hs' => ?_, fun j s l k₁ w hs' hl hk₁ hw => ?_⟩
    · rw [reap_scope hr] at hs'
      exact h₁.greeting j s l stream unsent hs'
    · rw [reap_scope hr] at hs'
      obtain ⟨k, hk, ⟨rfl, -⟩ | ⟨-, rfl⟩⟩ := reap_link hr hk₁
      · exact h₁.writing j s l _ w hs' hl hk hw
      · cases hw
  · exact h.effect hm he

def Lasting (d : Endpoint) (m : Manager) : Prop :=
  ∀ (l : LinkId) (k : Link), m.allLinks[l]? = some k → k.destination = d → k.retired = false

/-- Links are retired by closings and by calls whose connect has failed. -/
theorem Lasting.effect (h : Lasting d m) (hm : Sound m) (hf : Flagged m) (ho : m.closed = false)
    (he : Effect m mv m₁ hs) (hn : ∀ (id : SendId) s l error, m₁.sends[id]? = some s →
      s.destination = d → s.stage ≠ .failing l error) : Lasting d m₁ := by
  intro l k₁ hk₁ hd
  cases hk : m.allLinks[l]? with
  | none => exact (he.made hk hk₁).2.1
  | some k =>
    have hkd : k.destination = d := by
      obtain ⟨k₁', hk₁', hd'⟩ := Goes.effect (d := k.destination) ⟨k, hk, rfl⟩ he
      cases hk₁.symm.trans hk₁'
      exact hd'.symm.trans hd
    obtain ⟨k₁', hk₁', hb⟩ := he.becomes hk
    cases hk₁.symm.trans hk₁'
    cases hb with
    | kept hr | connected hr => exact hr.trans (h l k hk hkd)
    | @failed id s s₁ error _ _ hs' hl h₁ hst =>
      obtain ⟨stage, h₂, -⟩ := he.keeps_call hs'
      cases h₁.symm.trans h₂
      have hgoes := hm.directed.sends id s l hs' (SendStage.link?_of_line?
        (SendStage.line?_of_held? (SendStage.held?_of_opening? hl)))
      exact absurd hst (hn id _ l error h₁ (hgoes.unique ⟨k, hk, hkd⟩))
    | retired _ _ hc hst => cases ho.symm.trans (hf.past _ _ hc (by rw [hst]; nofun))

theorem Lasting.reap {o : Manager × List Happening} (h : Lasting d o.1) (hr : reap o = (m', hs)) :
    Lasting d m' := by
  intro l k₁ hk₁ hd
  obtain ⟨k, hk, ⟨rfl, -⟩ | ⟨-, rfl⟩⟩ := reap_link hr hk₁
  · exact h l _ hk hd
  · exact h l k hk hd

end PeerLink.Manager
