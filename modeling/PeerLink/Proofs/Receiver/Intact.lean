import PeerLink.Proofs.Json.Shapes
import PeerLink.Proofs.Receiver.Passing

namespace PeerLink.Manager

open PeerLink.Frame (parse)

def readBy (id : Nat) (ts : List Transition) : Bytes :=
  (ts.flatMap (·.reads id)).flatMap fun
    | .chunk bytes => bytes
    | _ => []

variable {max : Nat} {peer k : Endpoint} {hello : Bytes} {bodies chunks : List Bytes}
  {handed : List (Endpoint × Item)} {late : Prop} {m : Manager} {id : Nat} {r : Receiver}
  {ts : List Transition} {t : Transition}

theorem readBy_of_chunks (h : ts.flatMap (·.reads id) = chunks.map .chunk) :
    readBy id ts = chunks.flatten := by
  rw [readBy, h, List.flatMap_map, List.flatMap_id']

theorem sourceOf?_greeting (address peer : Endpoint) :
    sourceOf? peer [Hello.format.write (.of address)] =
      some (resolveSource (.of address) peer) := by
  simp only [sourceOf?, Hello.read_write]
  exact if_pos rfl

theorem parse_bodies (h : ∀ b ∈ bodies, b.length ≤ Frame.limit max) :
    parse max (bodies.flatMap Frame.encode) = (bodies, .nothing) := by
  have hp := Frame.parse_encodes h []
  rwa [List.append_nil, Frame.parse_nil, List.append_nil] at hp

/-- Frames that may still come do make a difference, so nothing is settled. -/
theorem Settled.not_intact (h : Settled max peer chunks .pending handed late) (hl : ¬late)
    (hpre : chunks.flatten <+: (hello :: bodies).flatMap Frame.encode)
    (hfit : ∀ b ∈ hello :: bodies, b.length ≤ Frame.limit max)
    (hk : sourceOf? peer [hello] = some k) : False := by
  obtain ⟨rest, hrest⟩ := hpre
  have hspell : ∀ more : List Bytes, (∀ b ∈ more, b.length ≤ Frame.limit max) →
      handed = (bodies ++ more).map fun b => (k, .frame b) := by
    intro more hmore
    have hflat : (chunks ++ [rest ++ more.flatMap Frame.encode]).flatten =
        (hello :: (bodies ++ more)).flatMap Frame.encode := by
      rw [List.flatten_append, List.flatten_singleton, ← List.append_assoc, hrest,
        ← List.flatMap_append, List.cons_append]
    have hparse : parse max (chunks ++ [rest ++ more.flatMap Frame.encode]).flatten =
        (hello :: (bodies ++ more), .nothing) := by
      rw [hflat]
      apply parse_bodies
      intro b hb
      obtain hb | hb := List.mem_append.mp (List.cons_append ▸ hb)
      · exact hfit b hb
      · exact hmore b hb
    have hcont : chunks.map Answer.chunk ++ StreamEnd.pending.answers <+:
        (chunks ++ [rest ++ more.flatMap Frame.encode]).map .chunk ++ StreamEnd.pending.answers :=
      ⟨[.chunk (rest ++ more.flatMap Frame.encode)], by simp [StreamEnd.answers]⟩
    rw [h _ .pending hcont fun _ => ⟨hl, by simp⟩, interpret_of_parse hk hparse]
    simp [failure?]
  have hno := hspell [] (by simp)
  have hone := hspell [[]] (by simp)
  have hlen := congrArg List.length (hno.symm.trans hone)
  simp at hlen

theorem Expecting.intact {rd : Reading} {s : Bytes} {frames : List Bytes}
    (h : Expecting max rd s frames .pending)
    (hpre : s <+: (hello :: bodies).flatMap Frame.encode)
    (hfit : ∀ b ∈ hello :: bodies, b.length ≤ Frame.limit max) : frames <+: hello :: bodies := by
  obtain ⟨rest, hrest⟩ := hpre
  have hp := h.parsed rest
  rw [hrest, parse_bodies hfit] at hp
  exact ⟨_, (congrArg Prod.fst hp).symm⟩

theorem Position.intact {stage : ReceiverStage}
    (h : Position max peer chunks .pending handed late stage) (hl : ¬late)
    (hpre : chunks.flatten <+: (hello :: bodies).flatMap Frame.encode)
    (hfit : ∀ b ∈ hello :: bodies, b.length ≤ Frame.limit max)
    (hk : sourceOf? peer [hello] = some k) :
    handed <+: bodies.map (fun b => (k, .frame b)) ∧
      (∀ source, stage.source? = some source → source = k) ∧ stage ≠ .ended := by
  have hfound : ∀ {rd source greeting found}, sourceOf? peer [greeting] = some source →
      handed = found.map (fun b => (source, Item.frame b)) →
      Expecting max rd chunks.flatten (greeting :: found) .pending →
      handed <+: bodies.map (fun b => (k, .frame b)) ∧ source = k := by
    intro rd source greeting found hg hh he
    obtain ⟨rfl, hfound⟩ := List.cons_prefix_cons.mp (he.intact hpre hfit)
    cases hk.symm.trans hg
    exact ⟨hh ▸ hfound.map _, rfl⟩
  cases stage with
  | opening =>
    obtain ⟨-, -, rfl⟩ := h
    exact ⟨List.nil_prefix, nofun, nofun⟩
  | greeting =>
    obtain ⟨rfl, -⟩ := h
    exact ⟨List.nil_prefix, nofun, nofun⟩
  | receiving source rd =>
    obtain ⟨_, _, hg, hh, he⟩ := h
    obtain ⟨hp, rfl⟩ := hfound hg hh he
    exact ⟨hp, fun _ e => (Option.some.inj e).symm, nofun⟩
  | routing source rd item rt =>
    cases item with
    | frame body =>
      obtain ⟨_, _, hg, hh, he⟩ := h
      obtain ⟨hp, rfl⟩ := hfound hg hh he
      exact ⟨hp, fun _ e => (Option.some.inj e).symm, nofun⟩
    | failure => exact (Settled.not_intact h hl hpre hfit hk).elim
  | ended => exact (Settled.not_intact h hl hpre hfit hk).elim

theorem handed_of_waiting {frames : List Bytes} {more : Bytes} (hr : m.receivers[id]? = some r)
    (hc : m.cancelled = false) (hw : m.receiverStep id .none = none) (hn : r.stage ≠ .ended)
    (hp : Position m.config.maxFrame r.peer chunks .pending handed late r.stage)
    (hall : chunks.flatten = (hello :: frames).flatMap Frame.encode ++ more)
    (hfit : ∀ b ∈ hello :: frames, b.length ≤ Frame.limit m.config.maxFrame)
    (hk : sourceOf? r.peer [hello] = some k) :
    frames.map (fun b => (k, .frame b)) <+: handed := by
  obtain ⟨hh, -⟩ := settled_of_waiting hr hc hw hn hp
  have hparse : parse m.config.maxFrame chunks.flatten =
      (hello :: (frames ++ (parse m.config.maxFrame more).1),
        (parse m.config.maxFrame more).2) := by
    rw [hall, Frame.parse_encodes hfit]
    rfl
  rw [hh, interpret_of_parse hk hparse, List.map_append, List.append_assoc]
  exact List.prefix_append _ _

end PeerLink.Manager
