import Mathlib.Data.List.Nodup
import PeerLink.Cluster.Calls

namespace PeerLink

namespace PortRange

def capacity (r : PortRange) : Nat :=
  min (min r.count.toNat r.tries.toNat) (65536 - r.start.toNat)

variable {r : PortRange} {port : UInt16} {i : Nat}

theorem ports_eq (r : PortRange) :
    r.ports = (List.range r.capacity).map fun i => UInt16.ofNat (r.start.toNat + i) := by
  have hstart : r.start.toNat ≤ 65535 := Nat.le_of_lt_succ r.start.toNat_lt
  have hcapacity : min (if r.count = 0 then 0 else r.tries.toNat)
      (r.last + 1 - r.start.toNat) = r.capacity := by
    rw [capacity, last]
    split
    · next h =>
      have h0 : r.count.toNat = 0 := congrArg UInt16.toNat h
      omega
    · next h =>
      have h0 : r.count.toNat ≠ 0 := fun h0 => h (UInt16.toNat_inj.mp h0)
      omega
  rw [ports, List.range'_eq_map_range, ← List.map_take, List.take_range, hcapacity, List.map_map]
  rfl

theorem getElem?_ports :
    r.ports[i]? = some port ↔ i < r.capacity ∧ port.toNat = r.start.toNat + i := by
  have hport : i < r.capacity → (UInt16.ofNat (r.start.toNat + i)).toNat = r.start.toNat + i := by
    intro h
    rw [capacity] at h
    exact UInt16.toNat_ofNat_of_lt (by omega : r.start.toNat + i < 65536)
  rw [ports_eq, List.getElem?_map, Option.map_eq_some_iff]
  constructor
  · rintro ⟨j, hj, rfl⟩
    obtain ⟨hlt, rfl⟩ := List.getElem?_eq_some_iff.mp hj
    rw [List.length_range] at hlt
    rw [List.getElem_range]
    exact ⟨hlt, hport hlt⟩
  · rintro ⟨hlt, hp⟩
    refine ⟨i, List.getElem?_range hlt, ?_⟩
    rw [← UInt16.toNat_inj, hport hlt, hp]

theorem length_ports (r : PortRange) : r.ports.length = r.capacity := by
  rw [ports_eq, List.length_map, List.length_range]

theorem nodup_ports (r : PortRange) : r.ports.Nodup := by
  rw [List.nodup_iff_injective_getElem]
  rintro ⟨i, hi⟩ ⟨j, hj⟩ (he : r.ports[i] = r.ports[j])
  have hpi := (getElem?_ports.mp (List.getElem?_eq_getElem hi)).2
  have hpj := (getElem?_ports.mp (List.getElem?_eq_getElem hj)).2
  rw [Fin.mk.injEq]
  rw [he] at hpi
  omega

theorem within_of_mem_ports (h : port ∈ r.ports) :
    r.start.toNat ≤ port.toNat ∧ port.toNat < r.start.toNat + r.count.toNat := by
  obtain ⟨i, hi⟩ := List.mem_iff_getElem?.mp h
  obtain ⟨hlt, hp⟩ := getElem?_ports.mp hi
  rw [capacity] at hlt
  omega

end PortRange

namespace Manager

variable {σ β : Type}

def recording (bind : Endpoint → σ → Except IoError β × σ) (e : Endpoint) :
    σ × List (Endpoint × Except IoError β) →
      Except IoError β × σ × List (Endpoint × Except IoError β)
  | (s, record) => ((bind e s).1, (bind e s).2, record ++ [(e, (bind e s).1)])

def Failed (x : Endpoint × Except IoError β) : Prop := ∃ error, x.2 = .error error

inductive Concluded (without : IoError) :
    List (Endpoint × Except IoError β) → Except IoError β → Prop where
  | untried : Concluded without [] (.error without)
  | found {front e b} (hf : ∀ x ∈ front, Failed x) :
    Concluded without (front ++ [(e, .ok b)]) (.ok b)
  | failed {front e error} (hf : ∀ x ∈ front, Failed x) :
    Concluded without (front ++ [(e, .error error)]) (.error error)

/-- A search of a port range for a listener. The attempts go to the ports from the start upwards;
none comes after a success, and a failure is reported after all the candidates. -/
structure SearchesPorts (requested : Endpoint) (r : PortRange)
    (record : List (Endpoint × Except IoError β)) (result : Except RemoteError β) : Prop where
  ports : ∀ (i : Nat) e, (record.map Prod.fst)[i]? = some e → r.start.toNat + i ≤ 65535 ∧
    e = ⟨requested.host, UInt16.ofNat (r.start.toNat + i)⟩
  once : (record.map Prod.fst).Nodup
  bounded : record.length ≤ min (min r.count.toNat r.tries.toNat) (65536 - r.start.toNat)
  found : ∀ b, result = .ok b →
    ∃ front e, record = front ++ [(e, .ok b)] ∧ ∀ x ∈ front, Failed x
  failed : ∀ error, result = .error error → (∀ x ∈ record, Failed x) ∧
    record.length = min (min r.count.toNat r.tries.toNat) (65536 - r.start.toNat) ∧
    (record = [] ∧ error = .bind requested ⟨.addrNotAvailable, .text "empty port range"⟩ ∨
      ∃ front e cause, record = front ++ [(e, .error cause)] ∧ error = .bind requested cause)

/-- A listener to a port listens at that port, unless it is port 0. -/
def Provider.KeepsPorts (p : Provider σ β) : Prop :=
  ∀ e s s' t listener address, p.bind e s = (.ok listener, s') →
    p.address listener t = .ok address → e.port ≠ 0 → address.port = e.port

variable {bind : Endpoint → σ → Except IoError β × σ} {requested e : Endpoint}
  {range : Option PortRange} {r : PortRange} {error without : IoError} {es : List Endpoint}
  {record : List (Endpoint × Except IoError β)} {result : Except IoError β} {s s' : σ} {b : β}

theorem Concluded.cons (h : Concluded error record result) :
    Concluded without ((e, .error error) :: record) result := by
  have hcons : ∀ front : List (Endpoint × Except IoError β), (∀ x ∈ front, Failed x) →
      ∀ x ∈ (e, .error error) :: front, Failed x :=
    fun front hf => List.forall_mem_cons.mpr ⟨⟨error, rfl⟩, hf⟩
  cases h with
  | untried => exact @Concluded.failed β without [] e error nofun
  | found hf => exact .found (hcons _ hf)
  | failed hf => exact .failed (hcons _ hf)

theorem firstBound_recording (bind : Endpoint → σ → Except IoError β × σ) (es : List Endpoint)
    (without : IoError) (s : σ) (record : List (Endpoint × Except IoError β)) :
    ∃ tried, firstBound (recording bind) es without (s, record) =
        ((firstBound bind es without s).1, (firstBound bind es without s).2, record ++ tried) ∧
      tried.map Prod.fst <+: es ∧ Concluded without tried (firstBound bind es without s).1 ∧
      ∀ error, (firstBound bind es without s).1 = .error error → tried.map Prod.fst = es := by
  induction es generalizing without s record with
  | nil => exact ⟨[], by simp [firstBound], List.prefix_refl _, .untried, fun _ _ => rfl⟩
  | cons e es ih =>
    rcases hb : bind e s with ⟨error | b, s₁⟩
    · have hstep : recording bind e (s, record) =
          (.error error, s₁, record ++ [(e, .error error)]) := by
        simp only [recording, hb]
      obtain ⟨tried, hrun, hpre, hc, hall⟩ := ih error s₁ (record ++ [(e, .error error)])
      refine ⟨(e, .error error) :: tried, ?_, ?_, ?_, ?_⟩
      · simp only [firstBound, hb, hstep, hrun, List.append_assoc, List.singleton_append]
      · exact List.cons_prefix_cons.mpr ⟨rfl, hpre⟩
      · simpa only [firstBound, hb] using hc.cons
      · intro error' he
        simp only [firstBound, hb] at he
        rw [List.map_cons, hall error' he]
    · have hstep : recording bind e (s, record) = (.ok b, s₁, record ++ [(e, .ok b)]) := by
        simp only [recording, hb]
      refine ⟨[(e, .ok b)], ?_, ?_, ?_, ?_⟩
      · simp only [firstBound, hb, hstep]
      · exact List.cons_prefix_cons.mpr ⟨rfl, List.nil_prefix⟩
      · have hc : Concluded without [(e, .ok b)] (.ok b) := @Concluded.found β without [] e b nofun
        simpa only [firstBound, hb] using hc
      · intro error he
        simp only [firstBound, hb, reduceCtorEq] at he

theorem firstBound_single (bind : Endpoint → σ → Except IoError β × σ) (e : Endpoint)
    (without : IoError) (s : σ) : firstBound bind [e] without s = bind e s := by
  rw [firstBound]
  rcases bind e s with ⟨error | b, s₁⟩ <;> rfl

theorem exists_bound (h : firstBound bind es without s = (.ok b, s')) :
    ∃ i e s₁, es[i]? = some e ∧ bind e s₁ = (.ok b, s') ∧ (i = 0 → s₁ = s) := by
  induction es generalizing without s with
  | nil => cases h
  | cons e es ih =>
    rw [firstBound] at h
    split at h
    · next b' s₁ hb =>
      cases h
      exact ⟨0, e, s, rfl, hb, fun _ => rfl⟩
    · obtain ⟨i, e', s₁, he, hb, -⟩ := ih h
      exact ⟨i + 1, e', s₁, he, hb, nofun⟩

theorem bindListener_eq (bind : Endpoint → σ → Except IoError β × σ) (requested : Endpoint)
    (range : Option PortRange) (s : σ) : bindListener bind requested range s =
      ((firstBound bind (candidates requested range) noCandidate s).1.mapError (.bind requested),
        (firstBound bind (candidates requested range) noCandidate s).2) := by
  rw [bindListener]
  rcases firstBound bind (candidates requested range) noCandidate s with ⟨error | b, s₁⟩ <;> rfl

theorem candidates_of_range (hport : requested.port = 0) :
    candidates requested (some r) = r.ports.map requested.withPort := by
  rw [candidates, Endpoint.isWildcard, if_pos (decide_eq_true hport)]

theorem candidates_of_none (h : ∀ r, range = some r → requested.port ≠ 0) :
    candidates requested range = [requested] := by
  cases range with
  | none => rfl
  | some r =>
    refine if_neg fun hw => ?_
    exact h r rfl (of_decide_eq_true hw)

theorem searchesPorts_of_concluded (hpre : record.map Prod.fst <+: r.ports.map requested.withPort)
    (hc : Concluded noCandidate record result)
    (hall : ∀ error, result = .error error →
      record.map Prod.fst = r.ports.map requested.withPort) :
    SearchesPorts requested r record (result.mapError (.bind requested)) := by
  have hlen : (r.ports.map requested.withPort).length = r.capacity := by
    rw [List.length_map, PortRange.length_ports]
  have hinj : Function.Injective requested.withPort := by
    intro port port' h
    exact (Endpoint.mk.inj h).2
  refine ⟨fun i e he => ?_, ?_, ?_, fun b hb => ?_, fun error he => ?_⟩
  · obtain ⟨hi, rfl⟩ := List.getElem?_eq_some_iff.mp he
    have hp := List.prefix_iff_getElem?.mp hpre i hi
    rw [List.getElem?_map] at hp
    obtain ⟨port, hp, hport⟩ := Option.map_eq_some_iff.mp hp
    obtain ⟨hlt, hn⟩ := PortRange.getElem?_ports.mp hp
    have := port.toNat_lt
    refine ⟨by omega, ?_⟩
    rw [← hport, ← hn, UInt16.ofNat_toNat]
    rfl
  · exact hpre.sublist.nodup ((List.nodup_map_iff hinj).mpr (PortRange.nodup_ports r))
  · have := hpre.length_le
    rwa [hlen, List.length_map] at this
  · cases hc with
    | untried => cases hb
    | found hf =>
      cases hb
      exact ⟨_, _, rfl, hf⟩
    | failed => cases hb
  · have hcount : ∀ error, result = .error error → record.length = r.capacity := by
      intro error he
      rw [← hlen, ← hall error he, List.length_map]
    cases hc with
    | untried =>
      cases he
      exact ⟨nofun, hcount _ rfl, .inl ⟨rfl, rfl⟩⟩
    | found => cases he
    | @failed front e cause hf =>
      cases he
      refine ⟨?_, hcount _ rfl, .inr ⟨front, e, cause, rfl, rfl⟩⟩
      intro x hx
      obtain hx | hx := List.mem_append.mp hx
      · exact hf x hx
      · cases List.mem_singleton.mp hx
        exact ⟨cause, rfl⟩

/-- Whatever comes of binding, and however it depends on what was bound before: for port 0 and a
port range the candidates are tried in order, and for anything else there is one attempt. -/
theorem bindListener_searches (bind : Endpoint → σ → Except IoError β × σ) (requested : Endpoint)
    (range : Option PortRange) (s : σ) :
    ∃ result s' record,
      bindListener (recording bind) requested range (s, []) = (result, s', record) ∧
      bindListener bind requested range s = (result, s') ∧
      (∀ r, range = some r → requested.port = 0 → SearchesPorts requested r record result) ∧
      ((∀ r, range = some r → requested.port ≠ 0) →
        record = [(requested, (bind requested s).1)] ∧
          result = (bind requested s).1.mapError (.bind requested)) := by
  obtain ⟨tried, hrun, hpre, hc, hall⟩ :=
    firstBound_recording bind (candidates requested range) noCandidate s []
  rw [bindListener_eq, bindListener_eq, hrun, List.nil_append]
  refine ⟨_, _, tried, rfl, rfl, ?_, ?_⟩
  · rintro r rfl hport
    rw [candidates_of_range hport] at hpre hc hall ⊢
    exact searchesPorts_of_concluded hpre hc hall
  · intro h
    rw [candidates_of_none h] at hrun ⊢
    simp only [firstBound_single, recording, List.nil_append, Prod.mk.injEq, true_and] at hrun ⊢
    exact ⟨hrun.symm, trivial⟩

theorem bindListener_searches_upwards :
    let bind (e : Endpoint) (attempts : Nat) : Except IoError UInt16 × Nat :=
      (if e.port = 65534 ∧ attempts = 1 then .ok e.port else .error ⟨.addrInUse, .bare⟩,
        attempts + 1)
    let r : PortRange := ⟨65533, 10, 4⟩
    let record := [(⟨"h", 65533⟩, .error ⟨.addrInUse, .bare⟩), (⟨"h", 65534⟩, .ok 65534)]
    r.ports = [65533, 65534, 65535] ∧
      bindListener (recording bind) ⟨"h", 0⟩ (some r) (0, []) = (.ok 65534, 2, record) ∧
      SearchesPorts ⟨"h", 0⟩ r record (.ok 65534) := by
  intro bind r record
  have hports : r.ports = [65533, 65534, 65535] := by decide +kernel
  have hrun : bindListener (recording bind) ⟨"h", 0⟩ (some r) (0, []) =
      (.ok 65534, 2, record) := by
    rw [bindListener_eq, candidates_of_range rfl, hports]
    rfl
  obtain ⟨result, s', record', hsame, -, hs, -⟩ :=
    bindListener_searches bind ⟨"h", 0⟩ (some r) 0
  obtain ⟨rfl, rfl, rfl⟩ : result = .ok 65534 ∧ s' = 2 ∧ record' = record := by
    rw [hrun] at hsame
    simpa [eq_comm] using hsame
  exact ⟨hports, hrun, hs r rfl rfl⟩

theorem keepsPorts_provider (fault : Option IoError) : (Cluster.provider fault).KeepsPorts := by
  rintro e ⟨n, attempts⟩ s' t listener address hb ha hport
  obtain rfl : listener = address := by
    cases fault with
    | none => exact Except.ok.inj ha
    | some error => cases ha
  have hw : e.isWildcard = false := decide_eq_false hport
  have hb : (n.bind e).1 = .ok listener := congrArg Prod.fst hb
  rw [Network.bind] at hb
  split at hb
  · cases hb
  · rw [hw, if_neg Bool.false_ne_true] at hb
    split at hb
    · cases hb
    · cases hb
      rfl

/-- A manager that is bound through a port range listens at one of the candidates, within the range;
only a range that starts with port 0 has its first attempt left to the network's choice. -/
theorem listens_in_range {p : Provider σ β} {config : Config} {clock : Nat} {m : Manager}
    {listener : β} (hp : p.KeepsPorts) (hr : config.portRange = some r)
    (hport : requested.port = 0) (h : listen p requested config clock s = (.ok (m, listener), s')) :
    m.address.port ∈ r.ports ∧ r.start.toNat ≤ m.address.port.toNat ∧
        m.address.port.toNat < r.start.toNat + r.count.toNat ∨
      r.start = 0 ∧ p.bind requested s = (.ok listener, s') := by
  rw [listen, hr, bindListener_eq, candidates_of_range hport] at h
  rcases hb : firstBound p.bind (r.ports.map requested.withPort) noCandidate s with ⟨error | b, s₁⟩
  · rw [hb] at h
    cases h
  · rw [hb] at h
    dsimp only [Except.mapError] at h
    split at h
    · cases h
    · next address ha =>
      cases h
      obtain ⟨i, e, s₂, he, hbind, hfirst⟩ := exists_bound hb
      rw [List.getElem?_map] at he
      obtain ⟨port, hi, rfl⟩ := Option.map_eq_some_iff.mp he
      by_cases hzero : port = 0
      · right
        obtain ⟨-, hn⟩ := PortRange.getElem?_ports.mp hi
        rw [hzero] at hn
        have hstart : r.start.toNat = 0 ∧ i = 0 := by
          have h0 : (0 : UInt16).toNat = 0 := rfl
          omega
        refine ⟨UInt16.toNat_inj.mp hstart.1, ?_⟩
        rw [← hfirst hstart.2, ← hbind, hzero, Endpoint.withPort, ← hport]
      · left
        have haddress : address.port = port := hp _ _ _ _ _ _ hbind ha hzero
        have hmem : port ∈ r.ports := List.mem_of_getElem? hi
        rw [new, haddress]
        exact ⟨hmem, PortRange.within_of_mem_ports hmem⟩

theorem listens_in_range_taken :
    let p := Cluster.provider none
    let n : Network := { listeners := [{ address := ⟨"10.0.0.1", 7000⟩ }] }
    let config : Config := { portRange := some ⟨7000, 10, 10⟩ }
    ∃ m listener s', p.KeepsPorts ∧
      listen p ⟨"10.0.0.1", 0⟩ config 0 (n, []) = (.ok (m, listener), s') ∧
      m.address.port ∈ PortRange.ports ⟨7000, 10, 10⟩ ∧ m.address = ⟨"10.0.0.1", 7001⟩ := by
  intro p n config
  have hrun : listen p ⟨"10.0.0.1", 0⟩ config 0 (n, []) =
      (.ok (new ⟨"10.0.0.1", 7001⟩ config 0, ⟨"10.0.0.1", 7001⟩),
        ({ n with listeners := n.listeners ++ [{ address := ⟨"10.0.0.1", 7001⟩ }] },
          [⟨"10.0.0.1", 7000⟩, ⟨"10.0.0.1", 7001⟩])) := by
    rfl
  refine ⟨_, _, _, keepsPorts_provider none, hrun, ?_, rfl⟩
  obtain ⟨hmem, -⟩ | ⟨hzero, -⟩ := listens_in_range (keepsPorts_provider none) rfl rfl hrun
  · exact hmem
  · exact absurd hzero (by decide)

theorem listens_outside_range :
    let vars := [("TETHER_TCP_PORT_RANGE_START", "0"), ("TETHER_TCP_PORT_RANGE_COUNT", "10")]
    let p := Cluster.provider none
    let config := Config.ofLookup (fun name => List.lookup name vars)
    config.portRange = some ⟨0, 10, 10⟩ ∧ p.KeepsPorts ∧
      ∃ m listener s', listen p ⟨"10.0.0.1", 0⟩ config 0 ({}, []) = (.ok (m, listener), s') ∧
        m.address.port = 40000 ∧ m.address.port ∉ PortRange.ports ⟨0, 10, 10⟩ := by
  intro vars p config
  have hrange : config.portRange = some ⟨0, 10, 10⟩ := by decide +kernel
  have hports : (⟨0, 10, 10⟩ : PortRange).ports = [0, 1, 2, 3, 4, 5, 6, 7, 8, 9] := by
    decide +kernel
  have hrun : listen p ⟨"10.0.0.1", 0⟩ config 0 ({}, []) =
      (.ok (new ⟨"10.0.0.1", 40000⟩ config 0, ⟨"10.0.0.1", 40000⟩),
        (({} : Network).bind ⟨"10.0.0.1", 0⟩).2, [⟨"10.0.0.1", 0⟩]) := by
    rw [listen, hrange, bindListener_eq, candidates_of_range rfl, hports]
    rfl
  exact ⟨hrange, keepsPorts_provider none, _, _, _, hrun, rfl, by rw [hports]; decide⟩

end Manager

end PeerLink
