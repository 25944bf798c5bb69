import PeerLink.Json.Skip

namespace PeerLink.Json

mutual

inductive Shape where
  | integer (least greatest : Int)
  | text
  | unit
  | record (fields : Fields)

inductive Fields where
  | none
  | field (name : String) (shape : Shape) (others : Fields)

end

mutual

def Shape.Value : Shape → Type
  | .integer least greatest => { n : Int // least ≤ n ∧ n ≤ greatest }
  | .text => String
  | .unit => Unit
  | .record fields => fields.Values

def Fields.Values : Fields → Type
  | .none => Unit
  | .field _ shape others => shape.Value × others.Values

end

/-- A place for each member of a record, filled once the member has been read. -/
def Fields.Slots : Fields → Type
  | .none => Unit
  | .field _ shape others => Option shape.Value × others.Slots

def Fields.emptySlots : (fields : Fields) → fields.Slots
  | .none => ()
  | .field _ _ others => (Option.none, others.emptySlots)

def Fields.complete? : (fields : Fields) → fields.Slots → Option fields.Values
  | .none, _ => some ()
  | .field _ _ others, (slot, slots) =>
    match slot, others.complete? slots with
    | some v, some vs => some (v, vs)
    | _, _ => Option.none

/-- The problem with a value that is not of the wanted type: it is read as far as its kind demands,
and only then refused. -/
def otherKind (input : Bytes) : Problem :=
  let refuse {α : Type} : Except Problem α → Problem
    | .error p => p
    | .ok _ => .mismatch
  match input with
  | [] => .cut
  | b :: r =>
    if b = 0x6E then refuse (word (asciis "ull") r)
    else if b = 0x74 then refuse (word (asciis "rue") r)
    else if b = 0x66 then refuse (word (asciis "alse") r)
    else if b = 0x22 then refuse (Text.read r)
    else if b = 0x5B ∨ b = 0x7B then .mismatch
    else
      match Number.read? (b :: r) with
      | some reading => refuse reading
      | Option.none => .malformed

def readInteger (least greatest : Int) (input : Bytes) :
    Reading { n : Int // least ≤ n ∧ n ≤ greatest } :=
  match Number.read? input with
  | Option.none => .error (otherKind input)
  | some (.error p) => .error p
  | some (.ok (.fraction, _)) => .error .mismatch
  | some (.ok (.integer n, r)) =>
    if h : least ≤ n ∧ n ≤ greatest then .ok (⟨n, h⟩, r) else .error .mismatch

def readText : Bytes → Reading String
  | 0x22 :: r => Text.read r
  | input => .error (otherKind input)

def readUnit : Bytes → Reading Unit
  | 0x6E :: r => (word (asciis "ull") r).map fun r => ((), r)
  | input => .error (otherKind input)

def colon (input : Bytes) : Except Problem Bytes :=
  match skipBlanks input with
  | [] => .error .cut
  | 0x3A :: r => .ok r
  | _ => .error .malformed

def memberName? (first : Bool) (input : Bytes) : Reading (Option String) :=
  match skipBlanks input with
  | [] => .error .cut
  | 0x7D :: r => .ok (Option.none, 0x7D :: r)
  | b :: r =>
    if !first && b ≠ 0x2C then .error .malformed
    else
      match if first then b :: r else skipBlanks r with
      | [] => .error .cut
      | 0x22 :: r => (Text.read r).map fun (name, r) => (some name, r)
      | _ => .error .malformed

/-- Reads the members of an object. `entry` reads a member that the record knows, its colon first,
and gives nothing for any other name. -/
def members {σ : Type} (entry : σ → String → Bytes → Option (Reading σ)) :
    (fuel : Nat) → (first : Bool) → σ → Bytes → Reading σ
  | 0, _, _, _ => .error .cut
  | fuel + 1, first, slots, input =>
    match memberName? first input with
    | .error p => .error p
    | .ok (Option.none, r) => .ok (slots, r)
    | .ok (some name, r) =>
      match entry slots name r with
      | some (.error p) => .error p
      | some (.ok (slots, r)) => members entry fuel false slots r
      | Option.none =>
        match colon r with
        | .error p => .error p
        | .ok r =>
          match Skip.any r with
          | .error p => .error p
          | .ok r => members entry fuel false slots r

/-- Goes to the next element of an array that still has to have one. -/
def element (first : Bool) (input : Bytes) : Except Problem Bytes :=
  match skipBlanks input with
  | [] => .error .cut
  | 0x5D :: _ => .error .mismatch
  | b :: r =>
    if first then .ok (b :: r)
    else if b = 0x2C then
      match skipBlanks r with
      | [] => .error .cut
      | 0x5D :: _ => .error .malformed
      | r => .ok r
    else .error .malformed

def arrayEnd (input : Bytes) : Except Problem Bytes :=
  match skipBlanks input with
  | [] => .error .cut
  | 0x5D :: r => .ok r
  | _ => .error .malformed

def objectEnd (input : Bytes) : Except Problem Bytes :=
  match skipBlanks input with
  | [] => .error .cut
  | 0x7D :: r => .ok r
  | _ => .error .malformed

mutual

def Shape.readValue : (shape : Shape) → Bytes → Reading shape.Value
  | .integer least greatest, input => readInteger least greatest (skipBlanks input)
  | .text, input => readText (skipBlanks input)
  | .unit, input => readUnit (skipBlanks input)
  | .record fields, input =>
    match skipBlanks input with
    | 0x5B :: r =>
      match fields.readItems true r with
      | .error p => .error p
      | .ok (values, r) => (arrayEnd r).map fun r => (values, r)
    | 0x7B :: r =>
      match members fields.readEntry (r.length + 1) true fields.emptySlots r with
      | .error p => .error p
      | .ok (slots, r) =>
        match fields.complete? slots with
        | Option.none => .error .mismatch
        | some values => (objectEnd r).map fun r => (values, r)
    | input => .error (otherKind input)

/-- Reads the member of the given name into its slot, if there is such a member; a second one of the
same name is refused before its value is looked at. -/
def Fields.readEntry :
    (fields : Fields) → fields.Slots → String → Bytes → Option (Reading fields.Slots)
  | .none, _, _, _ => Option.none
  | .field name shape others, (slot, slots), key, input =>
    if key = name then
      some <|
        match slot with
        | some _ => .error .mismatch
        | Option.none =>
          match colon input with
          | .error p => .error p
          | .ok r =>
            match shape.readValue r with
            | .error p => .error p
            | .ok (v, r) => .ok ((some v, slots), r)
    else
      (others.readEntry slots key input).map fun reading =>
        reading.map fun (slots, r) => ((slot, slots), r)

def Fields.readItems : (fields : Fields) → (first : Bool) → Bytes → Reading fields.Values
  | .none, _, input => .ok ((), input)
  | .field _ shape others, first, input =>
    match element first input with
    | .error p => .error p
    | .ok r =>
      match shape.readValue r with
      | .error p => .error p
      | .ok (v, r) =>
        match others.readItems false r with
        | .error p => .error p
        | .ok (vs, r) => .ok ((v, vs), r)

end

/-- The value that a whole input spells. -/
def Shape.read (shape : Shape) (input : Bytes) : Except Problem shape.Value :=
  match shape.readValue input with
  | .error p => .error p
  | .ok (v, r) => if (skipBlanks r).isEmpty then .ok v else .error .malformed

def writeInteger (n : Int) : Bytes :=
  (if n < 0 then [0x2D] else []) ++ (Nat.toDigits 10 n.natAbs).map ascii

mutual

def Shape.write : (shape : Shape) → shape.Value → Bytes
  | .integer _ _, n => writeInteger n.val
  | .text, s => Text.write s
  | .unit, _ => asciis "null"
  | .record fields, values => 0x7B :: fields.write true values ++ [0x7D]

/-- The members of an object, with commas between them. -/
def Fields.write : (fields : Fields) → (first : Bool) → fields.Values → Bytes
  | .none, _, _ => []
  | .field name shape others, first, (v, vs) =>
    (if first then [] else [0x2C]) ++ Text.write name ++ 0x3A :: shape.write v ++
      others.write false vs

end

def Shape.unsigned (bits : Nat) : Shape := .integer 0 ((1 <<< bits : Nat) - 1)

def Shape.signed (bits : Nat) : Shape :=
  .integer (-(1 <<< (bits - 1) : Nat)) ((1 <<< (bits - 1) : Nat) - 1)

end PeerLink.Json
