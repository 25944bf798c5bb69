import Mathlib.Data.List.TakeDrop
import Mathlib.Data.List.TakeWhile
import PeerLink.Proofs.Address.Digits

namespace PeerLink.Address

def followers (gs : List UInt16) : List Char := gs.flatMap fun g => ':' :: hexGroup g

/-- The text of some groups ends here, or with the mark for groups that are left out. -/
def Breaks (rest : List Char) : Prop := rest = [] ∨ ∃ cs, rest = ':' :: ':' :: cs

variable {gs : List UInt16} {g : UInt16} {rest : List Char} {ip : V4} {room : Nat}

theorem printGroups_cons (g : UInt16) (gs : List UInt16) :
    printGroups (g :: gs) = hexGroup g ++ followers gs := by
  induction gs generalizing g with
  | nil => simp [printGroups, followers]
  | cons g' gs ih =>
    rw [printGroups, List.map_cons, List.map_cons, List.intercalate_cons_cons, ← List.map_cons,
      ← printGroups, ih]
    simp [followers]

theorem v4?_print (ip : V4) (h : Ends 10 rest) : v4? (ip.print ++ rest) = some (ip, rest) := by
  have hdot : ∀ cs, Ends 10 ('.' :: cs) := fun cs => ends_cons.mpr rfl
  simp only [V4.print, List.append_assoc, List.cons_append, v4?, octet?_decimal _ (hdot _),
    octet?_decimal _ h, mark?, Option.bind_eq_bind, Option.bind_some, if_true, Option.pure_def]

/-- What a run of digits leaves of a dotted quad starts with a dot. -/
theorem v4?_eq_none {cs : List Char}
    (h : ∀ t, (cs.dropWhile fun c => (digitValue? 10 c).isSome) ≠ '.' :: t) : v4? cs = none := by
  rw [v4?]
  rcases hd : octet? cs with _ | ⟨a, rest⟩
  · rfl
  · have hrest : rest = cs.dropWhile fun c => (digitValue? 10 c).isSome := by
      rw [octet?] at hd
      split at hd
      next value count tail hr =>
        split at hd
        · cases hd
        · cases hd
          rw [← rest_of_digitRun 10 0 0, hr]
    have hmark : mark? '.' rest = none := by
      cases rest with
      | nil => rfl
      | cons c t =>
        refine if_neg ?_
        rintro rfl
        exact h t hrest.symm
    simp [hmark]

theorem not_mem_hexGroup (g : UInt16) : '.' ∉ hexGroup g := by
  intro h
  have hd := digitValue?_of_mem_toDigits (by decide : 1 < 16) (Nat.le_refl 16) h
  exact absurd hd (by decide)

theorem behind_group (gs : List UInt16) (h : Breaks rest) :
    followers gs ++ rest = [] ∨ ∃ t, followers gs ++ rest = ':' :: t := by
  cases gs with
  | nil =>
    obtain rfl | ⟨cs, rfl⟩ := h
    · exact .inl rfl
    · exact .inr ⟨':' :: cs, rfl⟩
  | cons g gs => exact .inr ⟨_, rfl⟩

theorem ends_followers (gs : List UInt16) (h : Breaks rest) : Ends 16 (followers gs ++ rest) := by
  obtain hnil | ⟨t, ht⟩ := behind_group gs h
  · rw [hnil]
    exact ends_nil 16
  · rw [ht]
    exact ends_cons.mpr rfl

theorem v4?_group (g : UInt16) (gs : List UInt16) (h : Breaks rest) :
    v4? (hexGroup g ++ (followers gs ++ rest)) = none := by
  refine v4?_eq_none fun t ht => ?_
  -- The dot would stand in the group or right behind it.
  rw [List.dropWhile_append] at ht
  split at ht
  · obtain hnil | ⟨t', ht'⟩ := behind_group gs h
    · rw [hnil] at ht
      cases ht
    · rw [ht', List.dropWhile_cons_of_neg (by decide)] at ht
      cases ht
  · next hne =>
    have hmem : '.' ∈ (hexGroup g).dropWhile fun c => (digitValue? 10 c).isSome := by
      cases hd : (hexGroup g).dropWhile fun c => (digitValue? 10 c).isSome with
      | nil => exact absurd (by rw [hd]; rfl) hne
      | cons c cs =>
        rw [hd] at ht
        cases ht
        exact List.mem_cons_self
    exact not_mem_hexGroup g ((List.dropWhile_suffix _).subset hmem)

theorem groups_of_breaks (room : Nat) (h : Breaks rest) :
    groups room false rest = ([], false, rest) := by
  cases room with
  | zero => rfl
  | succ room =>
    obtain rfl | ⟨cs, rfl⟩ := h
    · rfl
    · have hquad : (if 1 ≤ room then v4? (':' :: cs) else none) = none := by
        split <;> rfl
      have hgroup : group? (':' :: cs) = none := rfl
      simp only [groups, mark?, Bool.false_eq_true, if_false, if_true, hquad, hgroup]

theorem groups_followers (hlen : gs.length ≤ room) (h : Breaks rest) :
    groups room false (followers gs ++ rest) = (gs, false, rest) := by
  induction gs generalizing room with
  | nil => exact groups_of_breaks room h
  | cons g gs ih =>
    obtain ⟨room, rfl⟩ : ∃ n, room = n + 1 := ⟨room - 1, by simp at hlen; omega⟩
    have hlen : gs.length ≤ room := by simpa using hlen
    have hquad : (if 1 ≤ room then v4? (hexGroup g ++ (followers gs ++ rest)) else none) = none := by
      rw [v4?_group g gs h, ite_self]
    have hcons : followers (g :: gs) ++ rest = ':' :: (hexGroup g ++ (followers gs ++ rest)) := by
      simp [followers]
    simp only [hcons, groups, mark?, Bool.false_eq_true, if_false, if_true, hquad,
      group?_hexGroup g (ends_followers gs h), ih hlen]

theorem groups_printGroups (hroom : room ≠ 0) (hlen : gs.length ≤ room) (h : Breaks rest) :
    groups room true (printGroups gs ++ rest) = (gs, false, rest) := by
  obtain ⟨room, rfl⟩ := Nat.exists_eq_succ_of_ne_zero hroom
  cases gs with
  | nil =>
    obtain rfl | ⟨cs, rfl⟩ := h
    · cases room <;> rfl
    · have hquad : (if 1 ≤ room then v4? (':' :: ':' :: cs) else none) = none := by
        split <;> rfl
      have hgroup : group? (':' :: ':' :: cs) = none := rfl
      simp only [printGroups, List.map_nil, List.intercalate_nil, List.nil_append, groups, if_true,
        hquad, hgroup]
  | cons g gs =>
    have hlen : gs.length ≤ room := by simpa using hlen
    have hquad : (if 1 ≤ room then v4? (hexGroup g ++ (followers gs ++ rest)) else none) = none := by
      rw [v4?_group g gs h, ite_self]
    simp only [printGroups_cons, List.append_assoc, groups, if_true, hquad,
      group?_hexGroup g (ends_followers gs h), groups_followers hlen h]

theorem leadingZeros_spec (gs : List UInt16) :
    List.replicate (leadingZeros gs) 0 ++ gs.drop (leadingZeros gs) = gs := by
  have hzero : gs.takeWhile (· = 0) = List.replicate (leadingZeros gs) 0 := by
    rw [List.eq_replicate_iff]
    exact ⟨rfl, fun g hg => of_decide_eq_true (List.mem_takeWhile_imp hg :)⟩
  rw [← hzero, leadingZeros, ← List.prefix_iff_eq_append]
  exact List.takeWhile_prefix _

theorem longestZeros_spec (gs : List UInt16) :
    gs.take (longestZeros gs).1 ++ List.replicate (longestZeros gs).2 0 ++
      gs.drop ((longestZeros gs).1 + (longestZeros gs).2) = gs := by
  induction gs with
  | nil => rfl
  | cons g gs ih =>
    rw [longestZeros]
    split
    · rw [List.take_zero, List.nil_append, Nat.zero_add]
      exact leadingZeros_spec (g :: gs)
    · rw [List.take_succ_cons, Nat.add_right_comm, List.drop_succ_cons, List.cons_append,
        List.cons_append, ih]

theorem longestZeros_le (gs : List UInt16) :
    (longestZeros gs).1 + (longestZeros gs).2 ≤ gs.length := by
  induction gs with
  | nil => exact Nat.le_refl 0
  | cons g gs ih =>
    rw [longestZeros]
    split
    · rw [Nat.zero_add]
      exact (List.takeWhile_prefix _).length_le
    · rw [List.length_cons]
      omega

theorem groups_ofGroups (high low : UInt16) : (V4.ofGroups high low).groups = [high, low] := by
  have hsplit : ∀ g : UInt16, UInt16.ofNat (256 * (UInt8.ofNat (g.toNat / 256)).toNat +
      (UInt8.ofNat g.toNat).toNat) = g := by
    intro g
    have hhigh : g.toNat / 256 < 256 := by
      have := g.toNat_lt
      omega
    have hnumber : 256 * (g.toNat / 256) + g.toNat % 256 = g.toNat := Nat.div_add_mod _ _
    rw [UInt8.toNat_ofNat', UInt8.toNat_ofNat', Nat.mod_eq_of_lt hhigh, hnumber,
      UInt16.ofNat_toNat]
  rw [V4.groups, V4.ofGroups, hsplit, hsplit]

theorem v6OfGroups?_groups (ip : V6) : v6OfGroups? ip.groups = some ip := by
  rw [v6OfGroups?, dif_pos ip.length_groups]

theorem v6?_of_all (ip : V6) : v6? (printGroups ip.groups) = some (ip, []) := by
  have hread := groups_printGroups (by decide : 8 ≠ 0) (Nat.le_of_eq ip.length_groups) (.inl rfl)
  rw [List.append_nil] at hread
  simp only [v6?, hread, ip.length_groups, if_true, v6OfGroups?_groups, Option.map_some]

/-- A version 6 address with the mark: what is read behind it has groups of its own. -/
theorem v6?_of_mark {ip : V6} {front back : List UInt16} {zeros : Nat} {quad : Bool}
    {tail : List Char} (hz : zeros ≠ 0) (hip : front ++ List.replicate zeros 0 ++ back = ip.groups)
    (hback : groups (8 - (front.length + 1)) true tail = (back, quad, [])) :
    v6? (printGroups front ++ ':' :: ':' :: tail) = some (ip, []) := by
  have hlen := congrArg List.length hip
  rw [ip.length_groups] at hlen
  simp only [List.length_append, List.length_replicate] at hlen
  have hread := groups_printGroups (by decide : 8 ≠ 0) (by omega : front.length ≤ 8)
    (.inr ⟨tail, rfl⟩)
  have hcount : 8 - front.length - back.length = zeros := by omega
  simp only [v6?, hread, if_neg (by omega : front.length ≠ 8), Bool.false_eq_true, if_false, hback,
    hcount, hip, v6OfGroups?_groups, Option.map_some]

theorem eq_of_mapped? {ip : V6} {v4 : V4} (h : ip.mapped? = some v4) :
    ip.groups = [0, 0, 0, 0, 0, 0xFFFF] ++ v4.groups := by
  rw [V6.mapped?] at h
  split at h
  · next high low hg =>
    cases h
    rw [hg, groups_ofGroups]
    rfl
  · cases h

theorem groups_mapped (ip : V4) :
    groups 7 true ("ffff:".toList ++ ip.print) = (0xFFFF :: ip.groups, true, []) := by
  have hgroup : group? ("ffff:".toList ++ ip.print) = some (0xFFFF, ':' :: ip.print) := rfl
  have hquad : v4? ("ffff:".toList ++ ip.print) = none := rfl
  have hprint : v4? ip.print = some (ip, []) := by
    have h := v4?_print ip (ends_nil 10)
    rwa [List.append_nil] at h
  rw [groups]
  simp only [if_true, hquad, ite_self, hgroup]
  rw [groups]
  simp only [Bool.false_eq_true, if_false, mark?, if_true, Nat.reduceLeDiff, hprint]

theorem v6?_print (ip : V6) : v6? ip.print = some (ip, []) := by
  rw [V6.print]
  cases hm : ip.mapped? with
  | some v4 =>
    have hip : [] ++ List.replicate 5 0 ++ 0xFFFF :: v4.groups = ip.groups :=
      (eq_of_mapped? hm).symm
    exact v6?_of_mark (by decide) hip (groups_mapped v4)
  | none =>
    have hspec := longestZeros_spec ip.groups
    have hle := longestZeros_le ip.groups
    rcases hz : longestZeros ip.groups with ⟨start, count⟩
    rw [hz] at hspec hle
    rw [ip.length_groups] at hle
    dsimp only at hspec hle ⊢
    split
    · next hcount =>
      have hfront : (ip.groups.take start).length = start := by
        rw [List.length_take, ip.length_groups]
        omega
      have hroom : 8 - ((ip.groups.take start).length + 1) ≠ 0 := by omega
      have hback : (ip.groups.drop (start + count)).length ≤
          8 - ((ip.groups.take start).length + 1) := by
        rw [hfront, List.length_drop, ip.length_groups]
        omega
      have hread := groups_printGroups hroom hback (.inl rfl)
      rw [List.append_nil] at hread
      exact v6?_of_mark (by omega) hspec hread
    · exact v6?_of_all ip

theorem v4?_of_v6 (ip : V6) : v4? ip.print = none := by
  have hmark : ∀ front tail, v4? (printGroups front ++ ':' :: ':' :: tail) = none := by
    intro front tail
    cases front with
    | nil => rfl
    | cons g gs =>
      rw [printGroups_cons, List.append_assoc]
      exact v4?_group g gs (.inr ⟨tail, rfl⟩)
  rw [V6.print]
  split
  · exact hmark [] _
  · dsimp only
    split
    · exact hmark _ _
    · obtain ⟨g, gs, hg⟩ := List.exists_cons_of_length_eq_add_one ip.length_groups
      have hread := v4?_group g gs (.inl rfl)
      rwa [List.append_nil, ← printGroups_cons, ← hg] at hread

end PeerLink.Address

namespace PeerLink.IpAddress

theorem read?_print (ip : IpAddress) : read? ip.print = some ip := by
  cases ip with
  | v4 ip =>
    have hread := Address.v4?_print ip (Address.ends_nil 10)
    rw [List.append_nil] at hread
    rw [print, read?, hread]
    rfl
  | v6 ip => rw [print, read?, Address.v4?_of_v6, Address.v6?_print]

theorem print_injective {ip ip' : IpAddress} (h : ip.print = ip'.print) : ip = ip' := by
  have hread := read?_print ip
  rw [h, read?_print] at hread
  exact (Option.some.inj hread).symm

end PeerLink.IpAddress
