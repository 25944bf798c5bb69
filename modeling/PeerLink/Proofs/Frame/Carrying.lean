import PeerLink.Hello
import PeerLink.Proofs.Frame.Parsing
import PeerLink.Proofs.Json.Shapes

namespace PeerLink.Frame

variable {α : Type} {max : Nat} {body : Bytes} {f : Format α} {a : α}

theorem Intake.next_encode (h : body.length ≤ limit max) (behind : Bytes) :
    Intake.next max ⟨.head, encode body ++ behind⟩ = (.ok (some body), ⟨.head, behind⟩) := by
  have hn := number_bigEndian_of_le h
  rw [encode, List.append_assoc]
  simp only [Intake.next, Bytes.cut?_bigEndian, hn, if_neg (Nat.not_lt.mpr h), takeBody,
    Bytes.cut?_append]

namespace Format

/-- A value comes through a frame if its JSON is within the maximum and four bytes can spell how
long it is (`maxBody`); otherwise no frame is written for it. -/
structure Carried (f : Format α) (max : Nat) (a : α) : Prop where
  carried : (f.write a).length ≤ max → (f.write a).length ≤ maxBody →
    ∃ head, head.length = 4 ∧ Bytes.number head = (f.write a).length ∧
      (∀ i : Intake, f.put max a i = (.ok (), i.feed (head ++ f.write a))) ∧
      ∀ behind, f.next max ⟨.head, head ++ f.write a ++ behind⟩ =
        (.ok (some a), ⟨.head, behind⟩)
  refused : max < (f.write a).length ∨ maxBody < (f.write a).length →
    ∀ i : Intake, f.put max a i = (.error (tooBig .invalidInput), i)

theorem next_write (hr : f.read (f.write a) = .ok a) (h : (f.write a).length ≤ limit max)
    (behind : Bytes) :
    f.next max ⟨.head, encode (f.write a) ++ behind⟩ = (.ok (some a), ⟨.head, behind⟩) := by
  rw [next, Intake.next_encode h]
  simp [Except.bind, ofBody, hr]

theorem carried_of_read (hr : f.read (f.write a) = .ok a) : f.Carried max a where
  carried hmax hbody := by
    have hl : (f.write a).length ≤ limit max := Nat.le_min.mpr ⟨hmax, hbody⟩
    refine ⟨Bytes.bigEndian 4 (f.write a).length, Bytes.length_bigEndian 4 _,
      number_bigEndian_of_le hl, fun i => ?_, next_write hr hl⟩
    rw [put, Intake.put_eq, if_neg (Nat.not_lt.mpr hl), encode]
  refused h i := by
    have hl : limit max < (f.write a).length := by
      rw [limit]
      omega
    rw [put, Intake.put_eq, if_pos hl]

end Format

end PeerLink.Frame

namespace PeerLink

theorem Endpoint.read_write (e : Endpoint) : Endpoint.format.read (Endpoint.format.write e) = .ok e :=
  Frame.Format.read_write Endpoint.shape_faithful (Endpoint.ofValue_toValue e)

/-- Each greeting and each endpoint comes through a frame as it is, whatever is in its host, unless
its JSON is longer than the maximum or than four bytes can spell. -/
theorem Hello.carried_in_frames (max : Nat) (h : Hello) (e : Endpoint) :
    Hello.format.Carried max h ∧ Endpoint.format.Carried max e :=
  ⟨Frame.Format.carried_of_read (Hello.read_write h),
    Frame.Format.carried_of_read (Endpoint.read_write e)⟩

def Endpoint.motley : Endpoint := ⟨"\"\\\u0001é😀", 65535⟩

theorem Hello.carried_in_frames_motley :
    (Endpoint.format.write .motley).length ≤ 64 ∧
      ∃ head, head.length = 4 ∧ Bytes.number head = (Endpoint.format.write .motley).length ∧
        (∀ i : Frame.Intake, Endpoint.format.put 64 .motley i =
          (.ok (), i.feed (head ++ Endpoint.format.write .motley))) ∧
        ∀ behind, Endpoint.format.next 64 ⟨.head, head ++ Endpoint.format.write .motley ++ behind⟩ =
          (.ok (some .motley), ⟨.head, behind⟩) := by
  have hl : (Endpoint.format.write .motley).length ≤ 64 := by decide +kernel
  refine ⟨hl, (Hello.carried_in_frames 64 (.of .motley) .motley).2.carried hl ?_⟩
  exact Nat.le_trans hl (by decide)

theorem Json.Text.length_write_replicate (n : Nat) (c : Char) :
    (Json.Text.write (String.ofList (List.replicate n c))).length =
      n * (Json.Text.writeChar c).length + 2 := by
  simp [Json.Text.write, List.length_flatMap]

theorem Endpoint.length_write (host : String) :
    (Endpoint.format.write ⟨host, 1⟩).length = (Json.Text.write host).length + 18 := by
  have hhost : (Json.Text.write "host").length = 6 := by decide +kernel
  have hport : (Json.Text.write "port").length = 6 := by decide +kernel
  have hone : (Json.writeInteger 1).length = 1 := by decide +kernel
  simp [Frame.Format.write, format, shape, toValue, Json.Shape.write, Json.Fields.write,
    Json.Shape.unsigned, hhost, hport, hone]
  omega

/-- A host of control characters, six bytes each: the maximum lets its JSON through, but four bytes
cannot spell how long it is. -/
theorem Endpoint.refused_within_maximum :
    let e : Endpoint := ⟨String.ofList (List.replicate 715827883 '\x01'), 1⟩
    (Endpoint.format.write e).length ≤ 8589934592 ∧ ∀ i : Frame.Intake,
      Endpoint.format.put 8589934592 e i = (.error (Frame.tooBig .invalidInput), i) := by
  intro e
  have hl : (Endpoint.format.write e).length = 4294967318 := by
    rw [Endpoint.length_write, Json.Text.length_write_replicate]
    decide
  refine ⟨?_, (Frame.Format.carried_of_read (Endpoint.read_write e)).refused (.inr ?_)⟩
  · rw [hl]
    decide
  · rw [hl]
    decide

end PeerLink
