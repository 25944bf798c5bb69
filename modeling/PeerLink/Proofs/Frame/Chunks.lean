import Mathlib.Control.Monad.Basic
import PeerLink.Hello
import PeerLink.Proofs.Frame.Decoders
import PeerLink.Proofs.Json.Shapes

namespace PeerLink.Frame

variable {α : Type}

/-- What is done with a reader: it gets the next chunk, is asked for a frame, or is replaced by one
of bare frames. -/
inductive Deed where
  | feed (chunk : Bytes)
  | decode
  | unwrap

/-- A reader together with what has happened to it. -/
structure Session (α : Type) where
  decoder : Decoder α
  intake : Intake := {}
  /-- All bytes that have come. -/
  fed : Bytes := []
  /-- The pieces, and the failures to read a body, in their order. -/
  found : List (Except IoError (Piece α)) := []
  /-- The first failure to read a frame at all. -/
  failure : Option IoError := none
  /-- How many frames had been read when the decoder was replaced. -/
  switched : Option Nat := none
  /-- Since the last chunk the reader has been asked until it had nothing, or failed. -/
  drained : Bool := true

namespace Session

def note (s : Session α) : Except IoError (Option (Piece α)) → Session α
  | .ok none => { s with drained := true }
  | .ok (some piece) => { s with found := s.found ++ [.ok piece] }
  | .error error =>
    if error = tooBig .invalidData then
      { s with failure := s.failure <|> some error, drained := true }
    else { s with found := s.found ++ [.error error] }

def step (max : Nat) (s : Session α) : Deed → Session α
  | .feed chunk =>
    { s with intake := s.intake.feed chunk, fed := s.fed ++ chunk, drained := false }
  | .decode =>
    let (result, intake) := s.decoder.next max s.intake
    { s with intake }.note result
  | .unwrap => { s with decoder := .bare, switched := s.switched <|> some s.found.length }

def run (max : Nat) (s : Session α) (deeds : List Deed) : Session α := deeds.foldl (step max) s

def switching : Option Nat → List Deed
  | none => []
  | some k => List.replicate k .decode ++ [.unwrap]

def atOnce (switched : Option Nat) (bytes : Bytes) : List Deed :=
  .feed bytes :: switching switched ++ List.replicate (bytes.length + 1) .decode

structure Tracks (max : Nat) (d : Decoder α) (bodies : List Bytes) (s : Session α) : Prop where
  fits : s.intake.Fits max
  within : ∀ body ∈ bodies, body.length ≤ limit max
  fed : s.fed = bodies.flatMap encode ++ s.intake.unread
  found : s.found = d.readAll s.switched bodies
  decoder : s.decoder = if s.switched.isSome then .bare else d
  switched : ∀ k, s.switched = some k → k ≤ bodies.length
  failed : ∀ error, s.failure = some error → error = tooBig .invalidData ∧
    ∀ more, parse max (s.intake.unread ++ more) = ([], .tooLong)
  drained : s.drained = true → s.intake = Intake.settled max s.intake.unread ∧
    (parse max s.intake.unread).1 = [] ∧
    ((parse max s.intake.unread).2 = .tooLong → s.failure.isSome)

variable {max : Nat} {d : Decoder α} {s s' : Session α} {bodies bodies' : List Bytes}

theorem tracks_new (max : Nat) (d : Decoder α) : Tracks max d [] { decoder := d } where
  fits := Intake.fits_new
  within := nofun
  fed := rfl
  found := rfl
  decoder := rfl
  switched := nofun
  failed := nofun
  drained _ := by
    refine ⟨rfl, ?_⟩
    have hp : parse max (Intake.unread {}) = ([], .nothing) := parse_nil
    rw [hp]
    exact ⟨rfl, nofun⟩

theorem Tracks.feed (h : s.Tracks max d bodies) (chunk : Bytes) :
    (s.step max (.feed chunk)).Tracks max d bodies where
  fits := h.fits.feed chunk
  within := h.within
  fed := by
    simp only [step, Intake.unread_feed, h.fed, List.append_assoc]
  found := h.found
  decoder := h.decoder
  switched := h.switched
  failed error he := by
    obtain ⟨rfl, hp⟩ := h.failed error he
    refine ⟨rfl, fun more => ?_⟩
    rw [step, Intake.unread_feed, List.append_assoc]
    exact hp _
  drained := nofun

theorem Tracks.unwrap (h : s.Tracks max d bodies) : (s.step max .unwrap).Tracks max d bodies := by
  have hl : s.found.length = bodies.length := by rw [h.found, Decoder.length_readAll]
  cases hs : s.switched with
  | some k =>
    -- it is bare already, and the first replacement counts
    have hd : s.decoder = .bare := by rw [h.decoder, hs]; rfl
    have he : s.step max .unwrap = s := by
      rw [step, hs, ← hd]
      exact congrArg (fun o => { s with switched := o }) hs.symm
    rw [he]
    exact h
  | none =>
    have hf := h.found
    rw [hs] at hf
    have ht : s.found = d.readAll (some s.found.length) bodies := by
      rw [hl]
      simpa [Decoder.readAll] using hf
    refine ⟨h.fits, h.within, h.fed, ?_, ?_, ?_, h.failed, h.drained⟩
    · rw [step, hs]
      exact ht
    · rw [step, hs]
      rfl
    · intro k hk
      rw [step, hs] at hk
      cases hk
      exact Nat.le_of_eq hl

theorem note_read (s : Session α) (d : Decoder α) (body : Bytes) :
    s.note ((d.read body).map some) = { s with found := s.found ++ [d.read body] } := by
  cases hr : d.read body with
  | ok piece => rfl
  | error error =>
    have he : error ≠ tooBig .invalidData := fun he => Decoder.read_ne_tooBig (he ▸ hr)
    exact if_neg he

theorem Tracks.take {body : Bytes} {i : Intake} (h : s.Tracks max d bodies)
    (hn : s.intake.next max = (.ok (some body), i)) :
    (s.step max .decode).Tracks max d (bodies ++ [body]) := by
  obtain ⟨hi, hb, hu⟩ := Intake.unread_of_some h.fits hn
  obtain ⟨-, hp⟩ := Intake.next_some h.fits hn
  simp only [step, Decoder.next_some hn, note_read]
  have hp := hp []
  rw [List.append_nil] at hp
  exact {
    fits := hi
    within := by simpa [or_imp, forall_and] using ⟨h.within, hb⟩
    fed := by simp [h.fed, hu]
    found := by rw [Decoder.readAll_concat h.switched, ← h.found, ← h.decoder]
    decoder := h.decoder
    switched := fun k hk => by
      rw [List.length_append]
      exact Nat.le_add_right_of_le (h.switched k hk)
    failed := fun error he => by
      have ht := (h.failed error he).2 []
      rw [List.append_nil, hp] at ht
      cases ht
    drained := fun hd => by
      have ht := (h.drained hd).2.1
      rw [hp] at ht
      cases ht }

theorem Tracks.stall (h : s.Tracks max d bodies) (hn : (s.intake.next max).1 = .ok none) :
    (s.step max .decode).Tracks max d bodies ∧ (s.step max .decode).drained = true := by
  rcases hg : s.intake.next max with ⟨result, i⟩
  rw [hg] at hn
  subst hn
  obtain ⟨hi, hu⟩ := Intake.unread_of_none h.fits hg
  obtain ⟨-, -, hp⟩ := Intake.next_none h.fits hg
  have hs := Intake.settled_of_none h.fits hg
  simp only [step, Decoder.next_none hg, note, and_true]
  exact {
    fits := hi
    within := h.within
    fed := by rw [h.fed, hu]
    found := h.found
    decoder := h.decoder
    switched := h.switched
    failed := by rw [hu]; exact h.failed
    drained := fun _ => by
      refine ⟨hu.symm ▸ hs, ?_⟩
      obtain hp | ⟨-, hp⟩ := hp
      all_goals rw [hp]; exact ⟨rfl, nofun⟩ }

theorem Tracks.fail {error : IoError} (h : s.Tracks max d bodies)
    (hn : (s.intake.next max).1 = .error error) :
    (s.step max .decode).Tracks max d bodies ∧ (s.step max .decode).drained = true := by
  rcases hg : s.intake.next max with ⟨result, i⟩
  rw [hg] at hn
  subst hn
  obtain ⟨rfl, hp⟩ := Intake.next_error h.fits hg
  obtain ⟨rfl, hs⟩ := Intake.settled_of_error h.fits hg
  simp only [step, Decoder.next_error hg, note, if_true, and_true]
  exact {
    fits := h.fits
    within := h.within
    fed := h.fed
    found := h.found
    decoder := h.decoder
    switched := h.switched
    failed := fun e he => by
      refine ⟨?_, hp⟩
      cases hf : s.failure with
      | none =>
        rw [hf] at he
        exact (Option.some.inj he).symm
      | some e' =>
        rw [hf] at he
        cases he
        exact (h.failed e hf).1
    drained := fun _ => by
      have hp := hp []
      rw [List.append_nil] at hp
      refine ⟨hs, congrArg Prod.fst hp, fun _ => ?_⟩
      cases s.failure <;> rfl }

theorem Tracks.decode (h : s.Tracks max d bodies) :
    (∃ body, (s.step max .decode).Tracks max d (bodies ++ [body])) ∨
      (s.step max .decode).Tracks max d bodies ∧ (s.step max .decode).drained = true := by
  rcases hg : s.intake.next max with ⟨error | _ | body, i⟩
  · exact .inr (h.fail (congrArg Prod.fst hg))
  · exact .inr (h.stall (congrArg Prod.fst hg))
  · exact .inl ⟨body, h.take hg⟩

theorem run_append (s : Session α) (deeds deeds' : List Deed) :
    run max s (deeds ++ deeds') = run max (run max s deeds) deeds' := List.foldl_append

theorem tracks_run (h : s.Tracks max d bodies) (deeds : List Deed) :
    ∃ bodies, (run max s deeds).Tracks max d bodies := by
  induction deeds generalizing s bodies with
  | nil => exact ⟨bodies, h⟩
  | cons deed deeds ih =>
    cases deed with
    | feed chunk => exact ih (h.feed chunk)
    | unwrap => exact ih h.unwrap
    | decode =>
      obtain ⟨body, h⟩ | ⟨h, -⟩ := h.decode
      · exact ih h
      · exact ih h

theorem Tracks.unread_le (h : s.Tracks max d bodies) : s.intake.unread.length ≤ s.fed.length := by
  rw [h.fed, List.length_append]
  exact Nat.le_add_left _ _

theorem Tracks.parse_fed (h : s.Tracks max d bodies) :
    parse max s.fed = (bodies ++ (parse max s.intake.unread).1, (parse max s.intake.unread).2) := by
  rw [h.fed, parse_encodes h.within]

theorem Tracks.parse_of_drained (h : s.Tracks max d bodies) (hd : s.drained = true) :
    (parse max s.fed).1 = bodies := by
  rw [h.parse_fed, (h.drained hd).2.1, List.append_nil]

theorem Tracks.failure_of_drained (h : s.Tracks max d bodies) (hd : s.drained = true) :
    s.failure =
      if (parse max s.fed).2 = .tooLong then some (tooBig .invalidData) else none := by
  rw [h.parse_fed]
  cases hf : s.failure with
  | none =>
    refine (if_neg fun ht => ?_).symm
    have hs := (h.drained hd).2.2 ht
    rw [hf] at hs
    cases hs
  | some error =>
    obtain ⟨rfl, hp⟩ := h.failed error hf
    have hp := hp []
    rw [List.append_nil] at hp
    rw [hp]
    rfl

theorem Tracks.eq_of_drained (h : s.Tracks max d bodies) (h' : s'.Tracks max d bodies')
    (hd : s.drained = true) (hd' : s'.drained = true) (hf : s.fed = s'.fed)
    (hs : s.switched = s'.switched) : s = s' := by
  have hb : bodies = bodies' := by
    rw [← h.parse_of_drained hd, ← h'.parse_of_drained hd', hf]
  subst hb
  have hu : s.intake.unread = s'.intake.unread := by
    have he := hf
    rw [h.fed, h'.fed] at he
    exact List.append_cancel_left he
  have hfound : s.found = s'.found := by rw [h.found, h'.found, hs]
  have hdecoder : s.decoder = s'.decoder := by rw [h.decoder, h'.decoder, hs]
  have hintake : s.intake = s'.intake := by rw [(h.drained hd).1, (h'.drained hd').1, hu]
  have hfailure : s.failure = s'.failure := by
    rw [h.failure_of_drained hd, h'.failure_of_drained hd', hf]
  cases s
  cases s'
  simp_all

theorem note_keeps (s : Session α) (result : Except IoError (Option (Piece α))) :
    (s.note result).fed = s.fed ∧ (s.note result).switched = s.switched ∧
      (s.drained = true → (s.note result).drained = true) := by
  rcases result with error | _ | piece
  · rw [note]
    split
    · exact ⟨rfl, rfl, fun _ => rfl⟩
    · exact ⟨rfl, rfl, id⟩
  · exact ⟨rfl, rfl, fun _ => rfl⟩
  · exact ⟨rfl, rfl, id⟩

/-- Decoding, however often, adds nothing to what has come and replaces no decoder. -/
theorem decodes_keep (max : Nat) (s : Session α) (n : Nat) :
    (run max s (List.replicate n .decode)).fed = s.fed ∧
      (run max s (List.replicate n .decode)).switched = s.switched ∧
      (s.drained = true → (run max s (List.replicate n .decode)).drained = true) := by
  induction n generalizing s with
  | zero => exact ⟨rfl, rfl, id⟩
  | succ n ih =>
    obtain ⟨hf, hs, hd⟩ := note_keeps { s with intake := (s.decoder.next max s.intake).2 }
      (s.decoder.next max s.intake).1
    obtain ⟨ihf, ihs, ihd⟩ := ih (s.step max .decode)
    exact ⟨ihf.trans hf, ihs.trans hs, fun h => ihd (hd h)⟩

theorem Tracks.frames (h : s.Tracks max d bodies) {n : Nat}
    (hn : bodies.length + n ≤ (parse max s.fed).1.length) :
    ∃ bodies', (run max s (List.replicate n .decode)).Tracks max d bodies' ∧
      bodies'.length = bodies.length + n := by
  induction n generalizing s bodies with
  | zero => exact ⟨bodies, h, rfl⟩
  | succ n ih =>
    have hf : (s.step max .decode).fed = s.fed := (decodes_keep max s 1).1
    obtain ⟨body, ht⟩ | ⟨ht, hd⟩ := h.decode
    · have hl : (bodies ++ [body]).length = bodies.length + 1 := List.length_append
      obtain ⟨bodies', ht, hl'⟩ := ih ht (by rw [hf]; omega)
      exact ⟨bodies', ht, by omega⟩
    · have hp := ht.parse_of_drained hd
      rw [hf] at hp
      rw [hp] at hn
      omega

theorem Tracks.drains (h : s.Tracks max d bodies) {n : Nat} (hn : s.intake.unread.length < n) :
    (run max s (List.replicate n .decode)).drained = true := by
  induction n generalizing s bodies with
  | zero => omega
  | succ n ih =>
    obtain ⟨body, ht⟩ | ⟨-, hd⟩ := h.decode
    · refine ih ht ?_
      have hf : (s.step max .decode).fed = s.fed := (decodes_keep max s 1).1
      have hl := congrArg List.length hf
      rw [ht.fed, h.fed] at hl
      simp only [List.flatMap_append, List.flatMap_singleton, List.length_append,
        length_encode] at hl
      omega
    · exact (decodes_keep max _ n).2.2 hd

theorem tracks_switching (h : s.Tracks max d []) (hs : s.switched = none) {switched : Option Nat}
    (hk : ∀ k, switched = some k → k ≤ (parse max s.fed).1.length) :
    (∃ bodies, (run max s (switching switched)).Tracks max d bodies) ∧
      (run max s (switching switched)).fed = s.fed ∧
      (run max s (switching switched)).switched = switched := by
  refine ⟨tracks_run h _, ?_⟩
  cases switched with
  | none => exact ⟨rfl, hs⟩
  | some k =>
    obtain ⟨bodies, ht, hl⟩ := h.frames (n := k) (by simpa using hk k rfl)
    obtain ⟨hf, hn, -⟩ := decodes_keep max s k
    rw [switching, run_append]
    refine ⟨hf, ?_⟩
    have hlen : (run max s (List.replicate k .decode)).found.length = k := by
      rw [ht.found, Decoder.length_readAll, hl]
      exact Nat.zero_add k
    simp only [run, List.foldl_cons, List.foldl_nil, step] at hn hlen ⊢
    rw [hn, hs, hlen]
    rfl

theorem tracks_atOnce (d : Decoder α) {switched : Option Nat} {bytes : Bytes}
    (hk : ∀ k, switched = some k → k ≤ (parse max bytes).1.length) :
    (∃ bodies, (run max { decoder := d } (atOnce switched bytes)).Tracks max d bodies) ∧
      (run max { decoder := d } (atOnce switched bytes)).drained = true ∧
      (run max { decoder := d } (atOnce switched bytes)).fed = bytes ∧
      (run max { decoder := d } (atOnce switched bytes)).switched = switched := by
  refine ⟨tracks_run (tracks_new max d) _, ?_⟩
  obtain ⟨⟨bodies, ht⟩, hf, hs⟩ := tracks_switching ((tracks_new max d).feed bytes) rfl hk
  obtain ⟨hf', hs', -⟩ := decodes_keep max
    (run max (step max { decoder := d } (.feed bytes)) (switching switched)) (bytes.length + 1)
  have he : run max { decoder := d } (atOnce switched bytes) =
      run max (run max (step max { decoder := d } (.feed bytes)) (switching switched))
        (List.replicate (bytes.length + 1) .decode) := run_append _ _ _
  rw [he]
  have hl : (run max (step max { decoder := d } (.feed bytes)) (switching switched)).fed.length =
      bytes.length := congrArg List.length hf
  exact ⟨ht.drains (Nat.lt_succ_of_le (hl ▸ ht.unread_le)), hf'.trans hf, hs'.trans hs⟩

theorem Tracks.of_frames (h : s.Tracks max d bodies) (hd : s.drained = true)
    (hw : ∀ body ∈ bodies', body.length ≤ limit max) (hf : s.fed = bodies'.flatMap encode) :
    s.found = d.readAll s.switched bodies' ∧ s.failure = none ∧ s.intake = {} := by
  have hp : parse max s.fed = (bodies', .nothing) := by
    have hp := parse_encodes hw []
    rwa [parse_nil, List.append_nil, List.append_nil, ← hf] at hp
  have hb : bodies = bodies' := by rw [← h.parse_of_drained hd, hp]
  subst hb
  refine ⟨h.found, ?_, ?_⟩
  · rw [h.failure_of_drained hd, hp]
    rfl
  · have hu : s.intake.unread = [] := List.self_eq_append_right.mp (hf.symm.trans h.fed)
    rw [(h.drained hd).1, hu, Intake.settled_nil]

/-- A reader is drained by asking it once more often than bytes have come. Whatever the chunks were
and however often it was asked in between, once it is drained all is as if the bytes had come at
once. Frames that an encoder has let through are found as they were, with nothing left over, and so
are the values that a format gives back. -/
theorem run_eq_atOnce (max : Nat) (d : Decoder α) (deeds : List Deed) :
    let s := run max { decoder := d } deeds
    (run max s (List.replicate (s.fed.length + 1) .decode)).drained = true ∧
      (s.drained = true →
        run max { decoder := d } (atOnce s.switched s.fed) = s ∧
        (∀ bodies encodings, bodies.mapM (encode? max) = .ok encodings →
          s.fed = encodings.flatten →
          s.found = d.readAll s.switched bodies ∧ s.failure = none ∧ s.intake = {}) ∧
        ∀ (f : Format α) (values : List α) encodings bodies encodings', d = .typed f →
          f.shape.Faithful → (∀ a, f.ofValue (f.toValue a) = a) →
          values.mapM (f.encode? max) = .ok encodings →
          bodies.mapM (encode? max) = .ok encodings' →
          s.fed = (encodings ++ encodings').flatten →
          s.switched = some values.length ∨ s.switched = none ∧ bodies = [] →
          s.found = values.map (.ok ∘ .value) ++ bodies.map (.ok ∘ .body) ∧
            s.failure = none ∧ s.intake = {}) := by
  intro s
  obtain ⟨bodies, ht⟩ := tracks_run (tracks_new max d) deeds
  refine ⟨ht.drains (Nat.lt_succ_of_le ht.unread_le), fun h => ⟨?_, fun bodies' encodings he hf => ?_,
    ?_⟩⟩
  · have hk : ∀ k, s.switched = some k → k ≤ (parse max s.fed).1.length := by
      intro k hs
      rw [ht.parse_of_drained h]
      exact ht.switched k hs
    obtain ⟨⟨bodies', ht'⟩, hd, hf, hs⟩ := tracks_atOnce d hk
    exact ht'.eq_of_drained ht hd h hf hs
  · obtain ⟨hw, he⟩ := encode_all he
    exact ht.of_frames h hw (hf.trans he)
  · intro f values encodings bodies' encodings' hd hfaith hrest hv hb hf hs
    subst hd
    obtain ⟨hvw, hv⟩ := encode_all (f.encode_values hv)
    obtain ⟨hbw, hb⟩ := encode_all hb
    have hw : ∀ body ∈ values.map f.write ++ bodies', body.length ≤ limit max := by
      intro body hm
      obtain hm | hm := List.mem_append.mp hm
      · exact hvw body hm
      · exact hbw body hm
    have he : s.fed = (values.map f.write ++ bodies').flatMap encode := by
      rw [List.flatMap_append, ← hv, ← hb, ← List.flatten_append]
      exact hf
    obtain ⟨hfound, hr⟩ := ht.of_frames h hw he
    have hread : ∀ a ∈ values, f.read (f.write a) = .ok a :=
      fun a _ => Format.read_write hfaith (hrest a)
    exact ⟨hfound.trans (Decoder.readAll_values hread hs), hr⟩

def greetingInPieces : List Deed :=
  [.feed [0, 0], .decode,
    .feed ([0, 1, 0x7B] ++ encode (Hello.format.write ⟨1, ⟨"h", 1⟩⟩) ++ [0, 0, 0, 3]),
    .decode, .decode, .decode, .unwrap, .feed [0x6F], .decode, .feed [0x6E, 0x65],
    .decode, .decode]

theorem run_eq_atOnce_greeting :
    let s := run 64 { decoder := .typed Hello.format } greetingInPieces
    s.drained = true ∧ s.switched = some 2 ∧
      s.found = [.error ⟨.invalidData, .json .cut⟩, .ok (.value ⟨1, ⟨"h", 1⟩⟩),
        .ok (.body [0x6F, 0x6E, 0x65])] ∧
      run 64 { decoder := .typed Hello.format } (atOnce s.switched s.fed) = s :=
  ⟨by decide +kernel, by decide +kernel, by decide +kernel,
    ((run_eq_atOnce 64 (.typed Hello.format) greetingInPieces).2 (by decide +kernel)).1⟩

end Session

end PeerLink.Frame
