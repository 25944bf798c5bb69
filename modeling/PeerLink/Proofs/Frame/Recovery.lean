import PeerLink.Proofs.Frame.Chunks

namespace PeerLink.Frame

variable {α : Type} {max : Nat} {i i' : Intake} {body rest : Bytes} {error : IoError}

namespace Intake

def Fronts (i : Intake) (body rest : Bytes) : Prop :=
  i = ⟨.head, encode body ++ rest⟩ ∨ i = ⟨.body body.length, body ++ rest⟩

/-- A length above the limit stands in front. -/
def Stuck (max : Nat) (i : Intake) : Prop :=
  i.phase = .head ∧ ∃ head tail, Bytes.cut? 4 i.buffer = some (head, tail) ∧
    limit max < Bytes.number head

theorem takeBody_eq_some {length : Nat} {buffer : Bytes}
    (h : takeBody length buffer = (some body, i)) :
    ∃ rest, buffer = body ++ rest ∧ body.length = length ∧ i = ⟨.head, rest⟩ := by
  rw [takeBody] at h
  split at h
  · next body' rest hc =>
    cases h
    obtain ⟨rfl, hl⟩ := Bytes.cut?_eq_some hc
    exact ⟨rest, rfl, hl, rfl⟩
  · cases h

theorem fronts_of_next (h : i.next max = (.ok (some body), i')) :
    ∃ rest, i.Fronts body rest ∧ i' = ⟨.head, rest⟩ := by
  obtain ⟨phase, buffer⟩ := i
  cases phase with
  | body length =>
    obtain ⟨ht, hi⟩ := Prod.mk.inj h
    obtain ⟨rest, rfl, rfl, he⟩ := takeBody_eq_some (Prod.ext (Except.ok.inj ht) hi)
    exact ⟨rest, .inr rfl, he⟩
  | head =>
    rw [next] at h
    cases hc : Bytes.cut? 4 buffer with
    | none => simp [hc] at h
    | some p =>
      obtain ⟨head, tail⟩ := p
      by_cases hl : limit max < Bytes.number head
      · simp [hc, hl] at h
      · simp only [hc, if_neg hl] at h
        obtain ⟨ht, hi⟩ := Prod.mk.inj h
        obtain ⟨rest, rfl, hn, he⟩ := takeBody_eq_some (Prod.ext (Except.ok.inj ht) hi)
        refine ⟨rest, .inl ?_, he⟩
        rw [mk.injEq, encode, hn, List.append_assoc]
        exact ⟨rfl, Bytes.cut?_eq_bigEndian hc⟩

theorem Stuck.next (h : i.Stuck max) : i.next max = (.error (tooBig .invalidData), i) := by
  obtain ⟨phase, buffer⟩ := i
  obtain ⟨rfl, head, tail, hc, hl⟩ := h
  simp only [Intake.next, hc, if_pos hl]

theorem stuck_of_next (h : i.next max = (.error error, i')) :
    i.Stuck max ∧ error = tooBig .invalidData ∧ i' = i := by
  obtain ⟨phase, buffer⟩ := i
  cases phase with
  | body length => cases h
  | head =>
    cases hc : Bytes.cut? 4 buffer with
    | none => simp [Intake.next, hc] at h
    | some p =>
      obtain ⟨head, tail⟩ := p
      by_cases hl : limit max < Bytes.number head
      · have hs : Stuck max ⟨.head, buffer⟩ := ⟨rfl, head, tail, hc, hl⟩
        rw [hs.next] at h
        cases h
        exact ⟨hs, rfl, rfl⟩
      · simp [Intake.next, hc, hl] at h

theorem Stuck.feed (h : i.Stuck max) (bytes : Bytes) : (i.feed bytes).Stuck max := by
  obtain ⟨hp, head, tail, hc, hl⟩ := h
  exact ⟨hp, head, tail ++ bytes, Bytes.cut?_append_right bytes hc, hl⟩

end Intake

namespace Decoder

variable {d : Decoder α} {bodies : List Bytes} {switched : Option Nat} {k : Nat}

def inCharge (d : Decoder α) (switched : Option Nat) (k : Nat) : Decoder α :=
  match switched with
  | none => d
  | some n => if k < n then d else bare

theorem getElem?_readAll (h : bodies[k]? = some body) :
    (d.readAll switched bodies)[k]? = some ((d.inCharge switched k).read body) := by
  cases switched with
  | none => rw [readAll, List.getElem?_map, h, inCharge, Option.map_some]
  | some n =>
    rw [readAll, inCharge, List.getElem?_append, List.length_map, List.length_take]
    obtain ⟨hk, -⟩ := List.getElem?_eq_some_iff.mp h
    by_cases hn : k < n
    · rw [if_pos (by omega), if_pos hn, List.getElem?_map, List.getElem?_take_of_lt hn, h,
        Option.map_some]
    · have he : n + (k - min n bodies.length) = k := by omega
      rw [if_neg (by omega), if_neg hn, List.getElem?_map, List.getElem?_drop, he, h,
        Option.map_some]

theorem next_eq_error (h : d.next max i = (.error error, i')) :
    i.Stuck max ∧ error = tooBig .invalidData ∧ i' = i ∨
      error ≠ tooBig .invalidData ∧
        ∃ body rest, i.Fronts body rest ∧ d.read body = .error error ∧ i' = ⟨.head, rest⟩ := by
  rcases hn : i.next max with ⟨failure | _ | body, j⟩
  · obtain ⟨hs, rfl, rfl⟩ := Intake.stuck_of_next hn
    rw [next_error hn] at h
    cases h
    exact .inl ⟨hs, rfl, rfl⟩
  · rw [next_none hn] at h
    cases h
  · rw [next_some hn] at h
    obtain ⟨rest, hf, rfl⟩ := Intake.fronts_of_next hn
    obtain ⟨hr, rfl⟩ := Prod.mk.inj h
    have hr : d.read body = .error error := by
      cases hd : d.read body with
      | ok piece => rw [hd] at hr; cases hr
      | error failure =>
        rw [hd] at hr
        cases hr
        rfl
    refine .inr ⟨?_, body, rest, hf, hr, rfl⟩
    rintro rfl
    exact read_ne_tooBig hr

theorem next_of_stuck (h : i.Stuck max) (d : Decoder α) :
    d.next max i = (.error (tooBig .invalidData), i) := next_error h.next

end Decoder

namespace Session

variable {s t : Session α} {d : Decoder α} {bodies taken : List Bytes} {behind : Bytes}

/-- Nothing is found once a length is too large, whatever is done. -/
theorem step_of_stuck (h : s.intake.Stuck max) (deed : Deed) :
    (s.step max deed).intake.Stuck max ∧ (s.step max deed).found = s.found := by
  cases deed with
  | feed chunk => exact ⟨h.feed chunk, rfl⟩
  | unwrap => exact ⟨h, rfl⟩
  | decode =>
    simp only [step, Decoder.next_of_stuck h, note, if_true, and_true]
    exact h

theorem run_of_stuck (h : s.intake.Stuck max) (deeds : List Deed) :
    (run max s deeds).intake.Stuck max ∧ (run max s deeds).found = s.found := by
  induction deeds generalizing s with
  | nil => exact ⟨h, rfl⟩
  | cons deed deeds ih =>
    obtain ⟨hs, hf⟩ := step_of_stuck h deed
    obtain ⟨hr, hrf⟩ := ih hs
    exact ⟨hr, hrf.trans hf⟩

/-- Two sessions that go on alike, whatever lies behind each of them. -/
structure Alike (s t : Session α) : Prop where
  decoder : s.decoder = t.decoder
  intake : s.intake = t.intake
  failure : s.failure = t.failure
  drained : s.drained = t.drained

theorem nothing_later (found found' : List (Except IoError (Piece α))) :
    ∃ later, found = found ++ later ∧ found' = found' ++ later :=
  ⟨[], (List.append_nil _).symm, (List.append_nil _).symm⟩

theorem Alike.note (h : s.Alike t) (result : Except IoError (Option (Piece α))) :
    (s.note result).Alike (t.note result) ∧
      ∃ later, (s.note result).found = s.found ++ later ∧
        (t.note result).found = t.found ++ later := by
  obtain ⟨hd, hi, hf, hr⟩ := h
  rcases result with error | _ | piece
  · by_cases he : error = tooBig .invalidData
    · simp only [Session.note, if_pos he, hf]
      exact ⟨⟨hd, hi, rfl, rfl⟩, nothing_later _ _⟩
    · simp only [Session.note, if_neg he]
      exact ⟨⟨hd, hi, hf, hr⟩, _, rfl, rfl⟩
  · exact ⟨⟨hd, hi, hf, rfl⟩, nothing_later _ _⟩
  · exact ⟨⟨hd, hi, hf, hr⟩, _, rfl, rfl⟩

theorem Alike.step (h : s.Alike t) (max : Nat) (deed : Deed) :
    (s.step max deed).Alike (t.step max deed) ∧
      ∃ later, (s.step max deed).found = s.found ++ later ∧
        (t.step max deed).found = t.found ++ later := by
  cases deed with
  | feed chunk =>
    refine ⟨⟨h.decoder, ?_, h.failure, rfl⟩, nothing_later _ _⟩
    simp only [Session.step, h.intake]
  | unwrap => exact ⟨⟨rfl, h.intake, h.failure, h.drained⟩, nothing_later _ _⟩
  | decode =>
    have hn : s.decoder.next max s.intake = t.decoder.next max t.intake := by
      rw [h.decoder, h.intake]
    have ha : Alike { s with intake := (t.decoder.next max t.intake).2 }
        { t with intake := (t.decoder.next max t.intake).2 } :=
      ⟨h.decoder, rfl, h.failure, h.drained⟩
    simp only [Session.step, hn]
    exact ha.note (t.decoder.next max t.intake).1

theorem Alike.run (h : s.Alike t) (max : Nat) (deeds : List Deed) :
    (run max s deeds).Alike (run max t deeds) ∧
      ∃ later, (run max s deeds).found = s.found ++ later ∧
        (run max t deeds).found = t.found ++ later := by
  induction deeds generalizing s t with
  | nil => exact ⟨h, nothing_later _ _⟩
  | cons deed deeds ih =>
    obtain ⟨hs, later, hl, hl'⟩ := h.step max deed
    obtain ⟨hr, more, hm, hm'⟩ := ih hs
    refine ⟨hr, later ++ more, ?_, ?_⟩
    · rw [← List.append_assoc, ← hl]
      exact hm
    · rw [← List.append_assoc, ← hl']
      exact hm'

theorem run_of_misshapen (h : s.decoder.next max s.intake = (.error error, i'))
    (hne : error ≠ tooBig .invalidData) (deeds : List Deed) :
    (run max s (.decode :: deeds)).Alike (run max { s with intake := i' } deeds) ∧
      ∃ later, (run max s (.decode :: deeds)).found = s.found ++ .error error :: later ∧
        (run max { s with intake := i' } deeds).found = s.found ++ later := by
  have hs : s.step max .decode = { s with intake := i', found := s.found ++ [.error error] } := by
    simp only [step, h, note, if_neg hne]
  have ha : Alike (s.step max .decode) { s with intake := i' } := by
    rw [hs]
    exact ⟨rfl, rfl, rfl, rfl⟩
  obtain ⟨hr, later, hl, hl'⟩ := ha.run max deeds
  refine ⟨hr, later, ?_, hl'⟩
  have hf : (s.step max .decode).found = s.found ++ [.error error] := by rw [hs]
  rw [hf, List.append_assoc] at hl
  exact hl

theorem Tracks.taken_eq (h : s.Tracks max d taken) (hw : ∀ body ∈ bodies, body.length ≤ limit max)
    (hf : s.fed = bodies.flatMap encode ++ behind) :
    taken ++ (parse max s.intake.unread).1 = bodies ++ (parse max behind).1 := by
  have hp := h.parse_fed
  rw [hf, parse_encodes hw] at hp
  exact (congrArg Prod.fst hp).symm

theorem Tracks.found_at {k : Nat} (h : s.Tracks max d taken)
    (hw : ∀ body ∈ bodies, body.length ≤ limit max) (hf : s.fed = bodies.flatMap encode ++ behind)
    (hb : bodies[k]? = some body) (hk : k < s.found.length) :
    s.found[k]? = some ((d.inCharge s.switched k).read body) := by
  obtain ⟨hlt, -⟩ := List.getElem?_eq_some_iff.mp hb
  rw [h.found, Decoder.length_readAll] at hk
  have ht : taken[k]? = some body := by
    rw [← List.getElem?_append_left hk, h.taken_eq hw hf, List.getElem?_append_left hlt, hb]
  rw [h.found]
  exact Decoder.getElem?_readAll ht

theorem Tracks.unread_at (h : s.Tracks max d taken)
    (hw : ∀ body ∈ bodies, body.length ≤ limit max) (hf : s.fed = bodies.flatMap encode ++ behind)
    (hk : s.found.length ≤ bodies.length) :
    s.intake.unread = (bodies.drop s.found.length).flatMap encode ++ behind := by
  have hl : s.found.length = taken.length := by rw [h.found, Decoder.length_readAll]
  have ht : taken = bodies.take s.found.length := by
    have he := congrArg (List.take s.found.length) (h.taken_eq hw hf)
    rwa [List.take_append_of_le_length (Nat.le_of_eq hl), List.take_append_of_le_length hk, hl,
      List.take_length, ← hl] at he
  have hu := h.fed
  rw [hf, ht, ← List.take_append_drop s.found.length bodies, List.flatMap_append,
    List.append_assoc, List.take_append_drop] at hu
  exact (List.append_cancel_left hu).symm

theorem Tracks.length_of_drained (h : s.Tracks max d taken)
    (hw : ∀ body ∈ bodies, body.length ≤ limit max) (hf : s.fed = bodies.flatMap encode ++ behind)
    (hd : s.drained = true) : bodies.length ≤ s.found.length := by
  have ht := h.taken_eq hw hf
  rw [(h.drained hd).2.1, List.append_nil] at ht
  rw [h.found, Decoder.length_readAll, ht, List.length_append]
  exact Nat.le_add_right _ _

/-- What cannot be written as a frame changes nothing. A failing reader stands before a length above
the limit, takes nothing off and fails the same way whatever is done, or it has taken off one frame,
and goes on as if that had never been there. So what becomes of a frame of a string, and where it
stands, is the same whatever the other frames hold. -/
theorem failures_resynchronise (max : Nat) (f : Format α) (s : Session α) :
    (∀ body, s.intake.put max body =
      if limit max < body.length then (.error (tooBig .invalidInput), s.intake)
      else (.ok (), s.intake.feed (encode body))) ∧
    (∀ a, f.put max a s.intake =
      if limit max < (f.write a).length then (.error (tooBig .invalidInput), s.intake)
      else (.ok (), s.intake.feed (encode (f.write a)))) ∧
    (∀ error i, s.decoder.next max s.intake = (.error error, i) →
      (s.intake.Stuck max ∧ error = tooBig .invalidData ∧ i = s.intake ∧
        ∀ deeds, let t := run max s deeds
          t.decoder.next max t.intake = (.error error, t.intake) ∧ t.found = s.found) ∨
      ((∃ body rest, s.intake.Fronts body rest ∧ s.decoder.read body = .error error ∧
          i = ⟨.head, rest⟩) ∧
        ∀ deeds, (run max s (.decode :: deeds)).Alike (run max { s with intake := i } deeds) ∧
          ∃ later, (run max s (.decode :: deeds)).found = s.found ++ .error error :: later ∧
            (run max { s with intake := i } deeds).found = s.found ++ later)) ∧
    ∀ (d : Decoder α) (bodies : List Bytes) (behind : Bytes) (deeds : List Deed),
      (∀ body ∈ bodies, body.length ≤ limit max) →
      let t := run max { decoder := d } deeds
      t.fed = bodies.flatMap encode ++ behind → ∀ k body, bodies[k]? = some body →
        (t.drained = true → k < t.found.length) ∧
        (k < t.found.length → t.found[k]? = some ((d.inCharge t.switched k).read body)) ∧
        (t.found.length = k →
          t.intake.unread = encode body ++ ((bodies.drop (k + 1)).flatMap encode ++ behind)) := by
  refine ⟨fun body => Intake.put_eq max body s.intake,
    fun a => Intake.put_eq max (f.write a) s.intake, fun error i h => ?_, ?_⟩
  · obtain ⟨hs, rfl, hi⟩ | ⟨hne, hb⟩ := Decoder.next_eq_error h
    · refine .inl ⟨hs, rfl, hi, fun deeds => ?_⟩
      obtain ⟨hr, hf⟩ := run_of_stuck hs deeds
      exact ⟨Decoder.next_of_stuck hr _, hf⟩
    · exact .inr ⟨hb, run_of_misshapen h hne⟩
  · intro d bodies behind deeds hw t hf k body hb
    obtain ⟨taken, ht⟩ := tracks_run (tracks_new max d) deeds
    obtain ⟨hk, hbody⟩ := List.getElem?_eq_some_iff.mp hb
    refine ⟨fun hd => ?_, ht.found_at hw hf hb, fun he => ?_⟩
    · exact Nat.lt_of_lt_of_le hk (ht.length_of_drained hw hf hd)
    · have hu : t.intake.unread = (bodies.drop t.found.length).flatMap encode ++ behind :=
        ht.unread_at hw hf (he ▸ Nat.le_of_lt hk)
      rw [hu, he, List.drop_eq_getElem_cons hk, hbody, List.flatMap_cons, List.append_assoc]

def greeting : Bytes := Hello.format.write ⟨1, ⟨"h", 1⟩⟩

def beforeGreeting : Session Hello :=
  { decoder := .typed Hello.format, intake := ⟨.body 1, 0x7B :: encode greeting⟩ }

def greetingAtLast : List Deed :=
  [.feed (encode [0x7B]), .decode, .feed (encode greeting), .decode]

theorem failures_resynchronise_greeting :
    let s := beforeGreeting
    let error : IoError := ⟨.invalidData, .json .cut⟩
    let t := run 64 { decoder := .typed Hello.format } greetingAtLast
    s.decoder.next 64 s.intake = (.error error, ⟨.head, encode greeting⟩) ∧
      (∃ later, (run 64 s [.decode, .decode]).found = s.found ++ .error error :: later ∧
        (run 64 { s with intake := ⟨.head, encode greeting⟩ } [.decode]).found =
          s.found ++ later) ∧
      t.found[1]? = some (.ok (.value ⟨1, ⟨"h", 1⟩⟩)) := by
  have hn : beforeGreeting.decoder.next 64 beforeGreeting.intake =
      (.error ⟨.invalidData, .json .cut⟩, ⟨.head, encode greeting⟩) := by
    decide +kernel
  have hg : ((Decoder.typed Hello.format).inCharge
      (run 64 { decoder := .typed Hello.format } greetingAtLast).switched 1).read greeting =
      .ok (.value ⟨1, ⟨"h", 1⟩⟩) := by
    decide +kernel
  have h := failures_resynchronise 64 Hello.format beforeGreeting
  refine ⟨hn, ?_, ?_⟩
  · obtain ⟨-, he, -⟩ | ⟨-, hd⟩ := h.2.2.1 _ _ hn
    · cases he
    · exact (hd [.decode]).2
  · rw [← hg]
    exact (h.2.2.2 (.typed Hello.format) [[0x7B], greeting] [] greetingAtLast (by decide +kernel)
      (by decide +kernel) 1 greeting rfl).2.1 (by decide +kernel)

end Session

end PeerLink.Frame
