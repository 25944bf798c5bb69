import Mathlib.Algebra.GroupWithZero.Nat
import Mathlib.Data.List.Nodup
import PeerLink.Config
import PeerLink.Proofs.Text.Numerals

namespace PeerLink.Config

inductive Form where
  | numeral (bits : Nat)
  | truth

def Form.Admits : Form → List Char → Prop
  | .numeral bits, cs => ∃ n, Text.Numeral.Spells cs n ∧ n < 2 ^ bits
  | .truth, cs => cs = "true".toList ∨ cs = "false".toList

structure Entry where
  name : String
  form : Form

def startEntry : Entry := ⟨"TETHER_TCP_PORT_RANGE_START", .numeral 16⟩

def restEntries : List Entry :=
  [⟨"TETHER_TCP_PORT_RANGE_COUNT", .numeral 16⟩, ⟨"TETHER_TCP_PORT_RANGE_TRY_COUNT", .numeral 32⟩]

def otherEntries : List Entry :=
  [⟨"TETHER_MAX_FRAME_BYTES", .numeral 64⟩, ⟨"TETHER_CONNECT_TIMEOUT_MS", .numeral 64⟩,
    ⟨"TETHER_HANDSHAKE_TIMEOUT_MS", .numeral 64⟩, ⟨"TETHER_SHUTDOWN_TIMEOUT_MS", .numeral 64⟩,
    ⟨"TETHER_TCP_NODELAY", .truth⟩]

def entries : List Entry := startEntry :: (restEntries ++ otherEntries)

variable {α : Type} {v : Variable α} {name : String} {bits n default : Nat} {cs : List Char}
  {e : Entry} {lookup lookup' : Lookup} {w : Warning} {raw : String}

/-- A variable is that of an entry: exactly the texts of its form are read. -/
structure Variable.Has (v : Variable α) (e : Entry) : Prop where
  name : v.name = e.name
  form : ∀ cs, (v.read? cs).isSome = true ↔ e.form.Admits cs

theorem read?_bits : Text.Numeral.read? ((1 <<< bits) - 1) cs = some n ↔
    Text.Numeral.Spells cs n ∧ n < 2 ^ bits := by
  rw [Text.Numeral.read?_eq_some_iff, Nat.one_shiftLeft,
    Nat.le_sub_one_iff_lt (Nat.two_pow_pos bits)]

theorem natural_has (name : String) (bits : Nat) :
    (natural name bits).Has ⟨name, .numeral bits⟩ := by
  refine ⟨rfl, fun cs => ?_⟩
  rw [Option.isSome_iff_exists]
  exact exists_congr fun n => read?_bits

theorem noDelayFlag_has : noDelayFlag.Has ⟨"TETHER_TCP_NODELAY", .truth⟩ := by
  refine ⟨rfl, fun cs => ?_⟩
  simp only [noDelayFlag, truth?, Form.Admits]
  split
  · next h => simp [h]
  · next h =>
    split
    · next h' => simp [h']
    · next h' => exact ⟨nofun, fun hc => absurd hc (not_or.mpr ⟨h, h'⟩)⟩

instance (form : Form) (cs : List Char) : Decidable (form.Admits cs) :=
  match form with
  | .numeral bits => decidable_of_iff _ ((natural_has "" bits).form cs)
  | .truth => inferInstanceAs (Decidable (_ ∨ _))

def Entry.Valid (e : Entry) (lookup : Lookup) : Prop :=
  ∃ raw ∈ lookup e.name, e.form.Admits (Text.trim raw.toList)

def Entry.Invalid (e : Entry) (lookup : Lookup) : Prop :=
  ∃ raw ∈ lookup e.name, ¬e.form.Admits (Text.trim raw.toList)

instance (e : Entry) (lookup : Lookup) : Decidable (e.Valid lookup) :=
  inferInstanceAs (Decidable (∃ raw ∈ lookup e.name, _))

instance (e : Entry) (lookup : Lookup) : Decidable (e.Invalid lookup) :=
  inferInstanceAs (Decidable (∃ raw ∈ lookup e.name, _))

def valid (lookup : Lookup) : Lookup := fun name =>
  if ∃ e ∈ entries, e.name = name ∧ e.Invalid lookup then none else lookup name

def consulted (lookup : Lookup) : List Entry :=
  startEntry :: ((if startEntry.Valid lookup then restEntries else []) ++ otherEntries)

def Assigns (lookup : Lookup) (name : String) (bits n : Nat) : Prop :=
  ∃ raw ∈ lookup name, Text.Numeral.Spells (Text.trim raw.toList) n ∧ n < 2 ^ bits

/-- A number is that of a variable or, where this is not set to one, the default. -/
def Gives (lookup : Lookup) (name : String) (bits default n : Nat) : Prop :=
  Assigns lookup name bits n ∨ (∀ k, ¬Assigns lookup name bits k) ∧ n = default

/-- Two lookups have the same text for a variable, up to blanks around it, or both have none. -/
def Agree (lookup lookup' : Lookup) (name : String) : Prop :=
  (lookup name).map (fun raw => Text.trim raw.toList) =
    (lookup' name).map fun raw => Text.trim raw.toList

instance (lookup lookup' : Lookup) (name : String) : Decidable (Agree lookup lookup' name) :=
  inferInstanceAs (Decidable (_ = _))

theorem value?_natural : (natural name bits).value? lookup = some n ↔
    Assigns lookup name bits n := by
  rw [Variable.value?, Option.bind_eq_some_iff]
  exact exists_congr fun raw => and_congr_right fun _ => read?_bits

theorem gives_getD : Gives lookup name bits default
    (((natural name bits).value? lookup).getD default) := by
  cases h : (natural name bits).value? lookup with
  | some n => exact .inl (value?_natural.mp h)
  | none =>
    refine .inr ⟨fun k hk => ?_, rfl⟩
    cases h.symm.trans (value?_natural.mpr hk)

theorem Assigns.lt (h : Assigns lookup name bits n) : n < 2 ^ bits := by
  obtain ⟨-, -, -, hn⟩ := h
  exact hn

theorem Gives.lt (h : Gives lookup name bits default n) (hd : default < 2 ^ bits) :
    n < 2 ^ bits := by
  obtain h | ⟨-, rfl⟩ := h
  · exact h.lt
  · exact hd

theorem Agree.value? (h : Agree lookup lookup' v.name) : v.value? lookup = v.value? lookup' := by
  have hmap : ∀ l : Lookup, v.value? l =
      ((l v.name).map fun raw => Text.trim raw.toList).bind v.read? := fun l => by
    rw [Variable.value?, Option.bind_map]
    rfl
  rw [hmap lookup, hmap lookup', h]

theorem Variable.Has.isSome (h : v.Has e) :
    (v.value? lookup).isSome = true ↔ e.Valid lookup := by
  simp only [Variable.value?, Option.isSome_bind, Option.any_eq_true, h.form, h.name, Entry.Valid,
    Option.mem_def]

theorem names_nodup : (entries.map Entry.name).Nodup := by decide

theorem valid_of_mem (he : e ∈ entries) :
    valid lookup e.name = if e.Invalid lookup then none else lookup e.name := by
  have hiff : (∃ e' ∈ entries, e'.name = e.name ∧ e'.Invalid lookup) ↔ e.Invalid lookup := by
    constructor
    · rintro ⟨e', he', hn, hi⟩
      obtain rfl := List.inj_on_of_nodup_map names_nodup he' he hn
      exact hi
    · exact fun hi => ⟨e, he, rfl, hi⟩
  simp only [valid, hiff]

theorem Variable.Has.value?_of_invalid (h : v.Has e) (hi : e.Invalid lookup) :
    v.value? lookup = none := by
  obtain ⟨raw, hr, hn⟩ := hi
  rw [← h.form, Option.not_isSome_iff_eq_none] at hn
  rw [Variable.value?, h.name, hr]
  exact hn

theorem Variable.Has.value?_valid (h : v.Has e) (he : e ∈ entries) :
    v.value? (valid lookup) = v.value? lookup := by
  by_cases hi : e.Invalid lookup
  · rw [h.value?_of_invalid hi, Variable.value?, h.name, valid_of_mem he, if_pos hi]
    rfl
  · rw [Variable.value?, Variable.value?, h.name, valid_of_mem he, if_neg hi]

theorem not_invalid_valid (he : e ∈ entries) : ¬e.Invalid (valid lookup) := by
  rintro ⟨raw, hr, hn⟩
  rw [valid_of_mem he] at hr
  split at hr
  · cases hr
  · next hi => exact hi ⟨raw, hr, hn⟩

def Entry.warning? (e : Entry) (lookup : Lookup) : Option Warning :=
  if e.Invalid lookup then (lookup e.name).map (.invalidValue e.name) else none

theorem warning?_eq_some : e.warning? lookup = some w ↔
    ∃ raw ∈ lookup e.name, e.Invalid lookup ∧ w = .invalidValue e.name raw := by
  simp only [Entry.warning?, Option.ite_none_right_eq_some, Option.map_eq_some_iff]
  constructor
  · rintro ⟨hi, raw, hr, rfl⟩
    exact ⟨raw, hr, hi, rfl⟩
  · rintro ⟨raw, hr, hi, rfl⟩
    exact ⟨hi, raw, hr, rfl⟩

theorem Variable.Has.warnings (h : v.Has e) :
    v.warnings lookup = (e.warning? lookup).toList := by
  cases hr : lookup e.name with
  | none => simp [Variable.warnings, Entry.warning?, h.name, hr]
  | some raw =>
    have hi : e.Invalid lookup ↔ v.read? (Text.trim raw.toList) = none := by
      rw [← Option.not_isSome_iff_eq_none, h.form]
      simp [Entry.Invalid, hr]
    cases hv : v.read? (Text.trim raw.toList) <;>
      simp [Variable.warnings, Entry.warning?, h.name, hr, hi, hv]

theorem warnings_eq (lookup : Lookup) :
    warnings lookup = (consulted lookup).filterMap (·.warning? lookup) := by
  have hn : ∀ name bits, (natural name bits).warnings lookup =
      ((⟨name, .numeral bits⟩ : Entry).warning? lookup).toList :=
    fun name bits => (natural_has name bits).warnings
  have hs : (rangeStart.value? lookup).isSome = true ↔ startEntry.Valid lookup :=
    (natural_has _ 16).isSome
  have hcons : ∀ (e : Entry) es, (e :: es).filterMap (·.warning? lookup) =
      (e.warning? lookup).toList ++ es.filterMap (·.warning? lookup) := fun e es => by
    rw [List.filterMap_cons]
    cases e.warning? lookup <;> rfl
  simp only [warnings, hs, noDelayFlag_has.warnings]
  simp only [rangeStart, rangeCount, rangeTries, maxFrameBytes, connectTimeoutMillis,
    handshakeTimeoutMillis, shutdownTimeoutMillis, hn]
  by_cases hv : startEntry.Valid lookup
  all_goals
    simp only [consulted, hv, if_true, if_false, restEntries, otherEntries, List.cons_append,
      List.nil_append, hcons, List.append_assoc, List.filterMap_nil, List.append_nil]
    rfl

theorem consulted_sublist (lookup : Lookup) : (consulted lookup).Sublist entries := by
  refine List.Sublist.cons_cons _ (List.Sublist.append ?_ (List.Sublist.refl _))
  split
  · exact List.Sublist.refl _
  · exact List.nil_sublist _

theorem warnings_nodup (lookup : Lookup) : (warnings lookup).Nodup := by
  have hn : ((consulted lookup).map Entry.name).Nodup :=
    ((consulted_sublist lookup).map _).nodup names_nodup
  rw [warnings_eq, List.Nodup, List.pairwise_filterMap]
  refine (List.pairwise_map.mp hn).imp fun hne w hw w' hw' => ?_
  obtain ⟨raw, -, -, rfl⟩ := warning?_eq_some.mp hw
  obtain ⟨raw', -, -, rfl⟩ := warning?_eq_some.mp hw'
  exact fun he => hne (Warning.invalidValue.inj he).1

theorem mem_warnings : w ∈ warnings lookup ↔ ∃ e ∈ consulted lookup,
    ∃ raw ∈ lookup e.name, e.Invalid lookup ∧ w = .invalidValue e.name raw := by
  rw [warnings_eq, List.mem_filterMap]
  exact exists_congr fun e => and_congr_right fun _ => warning?_eq_some

theorem ofLookup_valid (lookup : Lookup) : ofLookup (valid lookup) = ofLookup lookup := by
  have hn : ∀ name bits, ⟨name, .numeral bits⟩ ∈ entries →
      (natural name bits).value? (valid lookup) = (natural name bits).value? lookup :=
    fun name bits he => (natural_has name bits).value?_valid he
  have hflag : noDelayFlag.value? (valid lookup) = noDelayFlag.value? lookup :=
    noDelayFlag_has.value?_valid (by simp [entries, otherEntries])
  have hmem : rangeStart.value? (valid lookup) = rangeStart.value? lookup ∧
      rangeCount.value? (valid lookup) = rangeCount.value? lookup ∧
      rangeTries.value? (valid lookup) = rangeTries.value? lookup ∧
      maxFrameBytes.value? (valid lookup) = maxFrameBytes.value? lookup ∧
      connectTimeoutMillis.value? (valid lookup) = connectTimeoutMillis.value? lookup ∧
      handshakeTimeoutMillis.value? (valid lookup) = handshakeTimeoutMillis.value? lookup ∧
      shutdownTimeoutMillis.value? (valid lookup) = shutdownTimeoutMillis.value? lookup := by
    refine ⟨hn _ _ ?_, hn _ _ ?_, hn _ _ ?_, hn _ _ ?_, hn _ _ ?_, hn _ _ ?_, hn _ _ ?_⟩ <;>
      simp [entries, startEntry, restEntries, otherEntries]
  simp only [ofLookup, portRange?, hmem, hflag]

theorem warnings_valid (lookup : Lookup) : warnings (valid lookup) = [] := by
  refine List.eq_nil_iff_forall_not_mem.mpr fun w hw => ?_
  obtain ⟨e, he, -, -, hi, -⟩ := mem_warnings.mp hw
  exact not_invalid_valid ((consulted_sublist _).subset he) hi

/-- The rest of a port range has defaults of its own: a thousand ports, and as many tries as there
are ports. -/
theorem range_gives {r : PortRange} (h : portRange? lookup = some r) :
    Assigns lookup rangeStart.name 16 r.start.toNat ∧
      Gives lookup rangeCount.name 16 1000 r.count.toNat ∧
      Gives lookup rangeTries.name 32 r.count.toNat r.tries.toNat := by
  obtain ⟨start, hs, rfl⟩ := Option.map_eq_some_iff.mp h
  have hstart : Assigns lookup rangeStart.name 16 start := value?_natural.mp hs
  have hcount : Gives lookup rangeCount.name 16 1000 ((rangeCount.value? lookup).getD 1000) :=
    gives_getD
  have hc := hcount.lt (by decide)
  have htries : Gives lookup rangeTries.name 32 ((rangeCount.value? lookup).getD 1000)
      ((rangeTries.value? lookup).getD ((rangeCount.value? lookup).getD 1000)) := gives_getD
  have ht := htries.lt (by omega)
  change Assigns lookup _ 16 (UInt16.ofNat _).toNat ∧
    Gives lookup _ 16 1000 (UInt16.ofNat _).toNat ∧
      Gives lookup _ 32 (UInt16.ofNat _).toNat (UInt32.ofNat _).toNat
  rw [UInt16.toNat_ofNat_of_lt' hstart.lt, UInt16.toNat_ofNat_of_lt' hc,
    UInt32.toNat_ofNat_of_lt' ht]
  exact ⟨hstart, hcount, htries⟩

theorem noDelay_eq_false : (ofLookup lookup).noDelay = false ↔
    ∃ raw ∈ lookup noDelayFlag.name, Text.trim raw.toList = "false".toList := by
  have hread : ∀ cs, truth? cs = some false ↔ cs = "false".toList := fun cs => by
    rw [truth?]
    split
    · next h => simp [h]
    · simp
  change (noDelayFlag.value? lookup).getD true = false ↔ _
  rw [Option.getD_eq_iff]
  simp only [Variable.value?, Option.bind_eq_some_iff, noDelayFlag, hread, Option.mem_def,
    reduceCtorEq, and_false, or_false]

/-- What is read from a lookup, and what is warned about. -/
structure Follows (lookup : Lookup) : Prop where
  /-- A variable that cannot be read counts as absent. -/
  same : ofLookup (valid lookup) = ofLookup lookup
  quiet : warnings (valid lookup) = []
  /-- If it is consulted it is warned about once, with its text as it is. -/
  warned : ∀ e ∈ consulted lookup, e.Invalid lookup → ∀ raw ∈ lookup e.name,
    (warnings lookup).count (.invalidValue e.name raw) = 1
  due : ∀ w ∈ warnings lookup, ∃ e ∈ consulted lookup, ∃ raw ∈ lookup e.name,
    e.Invalid lookup ∧ w = .invalidValue e.name raw
  ranged : (ofLookup lookup).portRange.isSome = true ↔ startEntry.Valid lookup
  /-- Without a number of tries, there are as many as there are ports in the end. -/
  range : ∀ r ∈ (ofLookup lookup).portRange,
    Assigns lookup "TETHER_TCP_PORT_RANGE_START" 16 r.start.toNat ∧
      Gives lookup "TETHER_TCP_PORT_RANGE_COUNT" 16 1000 r.count.toNat ∧
      Gives lookup "TETHER_TCP_PORT_RANGE_TRY_COUNT" 32 r.count.toNat r.tries.toNat
  maxFrame : Gives lookup "TETHER_MAX_FRAME_BYTES" 64 16777216 (ofLookup lookup).maxFrame
  connectTimeout :
    Gives lookup "TETHER_CONNECT_TIMEOUT_MS" 64 5000 (ofLookup lookup).connectTimeout
  handshakeTimeout :
    Gives lookup "TETHER_HANDSHAKE_TIMEOUT_MS" 64 5000 (ofLookup lookup).handshakeTimeout
  shutdownTimeout :
    Gives lookup "TETHER_SHUTDOWN_TIMEOUT_MS" 64 5000 (ofLookup lookup).shutdownTimeout
  noDelay : (ofLookup lookup).noDelay = false ↔
    ∃ raw ∈ lookup "TETHER_TCP_NODELAY", Text.trim raw.toList = "false".toList

/-- Each field is the same for two lookups that agree on its own variables. -/
structure Independent (lookup lookup' : Lookup) : Prop where
  portRange : (∀ e ∈ startEntry :: restEntries, Agree lookup lookup' e.name) →
    (ofLookup lookup).portRange = (ofLookup lookup').portRange
  maxFrame : Agree lookup lookup' "TETHER_MAX_FRAME_BYTES" →
    (ofLookup lookup).maxFrame = (ofLookup lookup').maxFrame
  connectTimeout : Agree lookup lookup' "TETHER_CONNECT_TIMEOUT_MS" →
    (ofLookup lookup).connectTimeout = (ofLookup lookup').connectTimeout
  handshakeTimeout : Agree lookup lookup' "TETHER_HANDSHAKE_TIMEOUT_MS" →
    (ofLookup lookup).handshakeTimeout = (ofLookup lookup').handshakeTimeout
  shutdownTimeout : Agree lookup lookup' "TETHER_SHUTDOWN_TIMEOUT_MS" →
    (ofLookup lookup).shutdownTimeout = (ofLookup lookup').shutdownTimeout
  noDelay : Agree lookup lookup' "TETHER_TCP_NODELAY" →
    (ofLookup lookup).noDelay = (ofLookup lookup').noDelay

theorem follows (lookup : Lookup) : Follows lookup where
  same := ofLookup_valid lookup
  quiet := warnings_valid lookup
  warned e he hi raw hr := List.count_eq_one_of_mem (warnings_nodup lookup)
    (mem_warnings.mpr ⟨e, he, raw, hr, hi, rfl⟩)
  due _ hw := mem_warnings.mp hw
  ranged := by
    have hs : (ofLookup lookup).portRange.isSome = (rangeStart.value? lookup).isSome :=
      Option.isSome_map
    rw [hs]
    exact (natural_has _ 16).isSome
  range _ hr := range_gives hr
  maxFrame := gives_getD
  connectTimeout := gives_getD
  handshakeTimeout := gives_getD
  shutdownTimeout := gives_getD
  noDelay := noDelay_eq_false

theorem independent (lookup lookup' : Lookup) : Independent lookup lookup' where
  portRange h := by
    have hs : rangeStart.value? lookup = rangeStart.value? lookup' :=
      Agree.value? (h startEntry List.mem_cons_self)
    have hr : ∀ e ∈ restEntries, Agree lookup lookup' e.name :=
      fun e he => h e (List.mem_cons_of_mem _ he)
    have hc : rangeCount.value? lookup = rangeCount.value? lookup' :=
      Agree.value? (hr _ List.mem_cons_self)
    have ht : rangeTries.value? lookup = rangeTries.value? lookup' :=
      Agree.value? (hr _ (List.mem_cons_of_mem _ List.mem_cons_self))
    change portRange? lookup = portRange? lookup'
    rw [portRange?, portRange?, hs, hc, ht]
  maxFrame h := congrArg (·.getD 16777216) (Agree.value? (v := maxFrameBytes) h)
  connectTimeout h := congrArg (·.getD 5000) (Agree.value? (v := connectTimeoutMillis) h)
  handshakeTimeout h := congrArg (·.getD 5000) (Agree.value? (v := handshakeTimeoutMillis) h)
  shutdownTimeout h := congrArg (·.getD 5000) (Agree.value? (v := shutdownTimeoutMillis) h)
  noDelay h := congrArg (·.getD true) (Agree.value? (v := noDelayFlag) h)

/-- A configuration is read from its variables one by one, and from those that can be read. -/
theorem variables_independent (lookup lookup' : Lookup) :
    Follows lookup ∧ Independent lookup lookup' :=
  ⟨follows lookup, independent lookup lookup'⟩

/-- Two lookups that have the same texts for a port range, up to blanks, and little else in common:
the number of ports cannot be read, and so there are a thousand ports and as many tries. -/
theorem variables_independent_range :
    let lookup : Lookup := fun name =>
      [("TETHER_TCP_PORT_RANGE_START", "  +8000"), ("TETHER_TCP_PORT_RANGE_COUNT", "-1"),
        ("TETHER_MAX_FRAME_BYTES", "lots")].lookup name
    let lookup' : Lookup := fun name =>
      [("TETHER_TCP_PORT_RANGE_START", "+8000\t"), ("TETHER_TCP_PORT_RANGE_COUNT", "-1 "),
        ("TETHER_MAX_FRAME_BYTES", "0064"), ("TETHER_TCP_NODELAY", "false")].lookup name
    (∀ e ∈ startEntry :: restEntries, Agree lookup lookup' e.name) ∧
      warnings lookup = [.invalidValue "TETHER_TCP_PORT_RANGE_COUNT" "-1",
        .invalidValue "TETHER_MAX_FRAME_BYTES" "lots"] ∧
      (ofLookup lookup).portRange = some ⟨8000, 1000, 1000⟩ ∧
      (ofLookup lookup').portRange = some ⟨8000, 1000, 1000⟩ := by
  intro lookup lookup'
  have hagree : ∀ e ∈ startEntry :: restEntries, Agree lookup lookup' e.name := by decide +kernel
  have hrange : (ofLookup lookup).portRange = some ⟨8000, 1000, 1000⟩ := by decide +kernel
  have hsame := (variables_independent lookup lookup').2.portRange hagree
  exact ⟨hagree, by decide +kernel, hrange, hsame.symm.trans hrange⟩

end PeerLink.Config
