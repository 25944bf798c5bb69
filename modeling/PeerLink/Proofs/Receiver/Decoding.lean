import PeerLink.Proofs.Frame.Parsing
import PeerLink.Proofs.Manager.Receiving

namespace PeerLink.Manager

open PeerLink.Frame (parse)

def sourceOf? (peer : Endpoint) : List Bytes → Option Endpoint
  | [] => none
  | greeting :: _ =>
    match Hello.format.read greeting with
    | .error _ => none
    | .ok hello =>
      if hello.version = Hello.currentVersion then some (resolveSource hello peer) else none

variable {max : Nat} {rd : Reading} {i : Frame.Intake}

theorem sourceOf?_ne_none {peer : Endpoint} {frames : List Bytes} :
    sourceOf? peer frames ≠ none ↔ ∃ body bodies hello, frames = body :: bodies ∧
      Hello.format.read body = .ok hello ∧ hello.version = Hello.currentVersion := by
  cases frames with
  | nil => simp [sourceOf?]
  | cons body bodies =>
    cases hread : Hello.format.read body with
    | error e => simp [sourceOf?, hread]
    | ok hello => simp [sourceOf?, hread]

theorem frame_some {body : Bytes} (hf : rd.intake.Fits max)
    (h : rd.frame max = (.ok (some body), i)) :
    i.Fits max ∧ ∀ more, parse max (rd.intake.unread ++ more) =
      (body :: (parse max (i.unread ++ more)).1, (parse max (i.unread ++ more)).2) := by
  rw [Reading.frame] at h
  split at h
  · rw [Frame.Intake.last] at h
    split at h
    · split at h <;> cases h
    · exact Frame.Intake.next_some hf h
  · exact Frame.Intake.next_some hf h

theorem frame_none (hf : rd.intake.Fits max) (h : rd.frame max = (.ok none, i)) :
    i.Fits max ∧ (∀ more, parse max (i.unread ++ more) = parse max (rd.intake.unread ++ more)) ∧
      (parse max i.unread = ([], .part) ∨ i = {} ∧ parse max i.unread = ([], .nothing)) := by
  rw [Reading.frame] at h
  split at h
  · rw [Frame.Intake.last] at h
    split at h
    · next hn =>
      split at h
      · cases h
        exact Frame.Intake.next_none hf hn
      · cases h
    · next hn => exact absurd h (hn i)
  · exact Frame.Intake.next_none hf h

theorem frame_error {error : IoError} (hf : rd.intake.Fits max)
    (h : rd.frame max = (.error error, i)) :
    (error = Frame.tooBig .invalidData ∧
        ∀ more, parse max (rd.intake.unread ++ more) = ([], .tooLong)) ∨
      (rd.atEnd = true ∧ parse max rd.intake.unread = ([], .part)) := by
  rw [Reading.frame] at h
  split at h
  · next he =>
    rw [Frame.Intake.last] at h
    split at h
    · next j hn =>
      split at h
      · cases h
      · next hb =>
        obtain ⟨-, hm, hp | ⟨rfl, -⟩⟩ := Frame.Intake.next_none hf hn
        · have hm := hm []
          rw [List.append_nil, List.append_nil] at hm
          exact .inr ⟨he, hm ▸ hp⟩
        · exact absurd rfl hb
    · exact .inl (Frame.Intake.next_error hf h)
  · exact .inl (Frame.Intake.next_error hf h)

theorem parse_of_no_frame (hf : rd.intake.Fits max)
    (h : ∀ body, (rd.frame max).1 ≠ .ok (some body)) : (parse max rd.intake.unread).1 = [] := by
  rcases hg : rd.frame max with ⟨error | _ | body, i⟩
  · obtain ⟨-, hp⟩ | ⟨-, hp⟩ := frame_error hf hg
    · have hp := hp []
      rw [List.append_nil] at hp
      rw [hp]
    · rw [hp]
  · obtain ⟨-, hm, hp⟩ := frame_none hf hg
    have hm := hm []
    rw [List.append_nil, List.append_nil] at hm
    rw [← hm]
    obtain hp | ⟨-, hp⟩ := hp <;> rw [hp]
  · exact absurd (congrArg Prod.fst hg) (h body)

theorem greeting_eq (rd : Reading) (max : Nat) :
    rd.greeting max = ((rd.frame max).1.bind Hello.format.ofBody, (rd.frame max).2) := by
  rw [Reading.greeting, Reading.frame]
  split
  · rcases hn : rd.intake.next max with ⟨error | _ | body, i⟩
    · simp [Frame.Format.last, Frame.Format.next, Frame.Intake.last, hn, Except.bind]
    · by_cases hb : i.buffer = [] <;>
        simp [Frame.Format.last, Frame.Format.next, Frame.Intake.last, hn, hb, Except.bind,
          Frame.Format.ofBody]
    · cases hr : Hello.format.read body <;>
        simp [Frame.Format.last, Frame.Format.next, Frame.Intake.last, hn, hr, Except.bind,
          Frame.Format.ofBody]
  · rfl

theorem greeting_none (h : rd.greeting max = (.ok none, i)) : rd.frame max = (.ok none, i) := by
  rw [greeting_eq] at h
  obtain ⟨hb, hi⟩ := Prod.mk.inj h
  rcases hr : rd.frame max with ⟨error | _ | body, j⟩ <;> rw [hr] at hb hi
  · cases hb
  · cases hi
    rfl
  · simp only [Except.bind, Frame.Format.ofBody] at hb
    split at hb <;> cases hb

theorem greeting_some {hello : Hello} (h : rd.greeting max = (.ok (some hello), i)) :
    ∃ body, rd.frame max = (.ok (some body), i) ∧ Hello.format.read body = .ok hello := by
  rw [greeting_eq] at h
  obtain ⟨hb, hi⟩ := Prod.mk.inj h
  rcases hr : rd.frame max with ⟨error | _ | body, j⟩ <;> rw [hr] at hb hi
  · cases hb
  · cases hb
  · cases hi
    refine ⟨body, rfl, ?_⟩
    simp only [Except.bind, Frame.Format.ofBody] at hb
    split at hb
    · next ha =>
      cases hb
      exact ha
    · cases hb

/-- A refused greeting is refused whatever stands behind it, unless the stream has ended within its
frame. -/
theorem greeting_error {error : IoError} (peer : Endpoint) (hf : rd.intake.Fits max)
    (h : rd.greeting max = (.error error, i)) :
    (∀ more, sourceOf? peer (parse max (rd.intake.unread ++ more)).1 = none ∧
      ((parse max (rd.intake.unread ++ more)).1 ≠ [] ∨
        (parse max (rd.intake.unread ++ more)).2 = .tooLong)) ∨
      (rd.atEnd = true ∧ parse max rd.intake.unread = ([], .part)) := by
  rw [greeting_eq] at h
  obtain ⟨hb, hi⟩ := Prod.mk.inj h
  rcases hr : rd.frame max with ⟨error | _ | body, j⟩ <;> rw [hr] at hb hi
  · obtain ⟨-, hp⟩ | hp := frame_error hf hr
    · exact .inl fun more => by rw [hp]; exact ⟨rfl, .inr rfl⟩
    · exact .inr hp
  · cases hb
  · left
    intro more
    rw [(frame_some hf hr).2]
    simp only [Except.bind, Frame.Format.ofBody] at hb
    split at hb
    · cases hb
    · next ha => exact ⟨by simp only [sourceOf?, ha], .inl (List.cons_ne_nil _ _)⟩

end PeerLink.Manager
