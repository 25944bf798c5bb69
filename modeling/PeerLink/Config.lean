import PeerLink.Log.Warning
import PeerLink.Text.Blank
import PeerLink.Text.Numeral

namespace PeerLink

structure PortRange where
  start : UInt16
  count : UInt16
  tries : UInt32
  deriving DecidableEq, Repr

namespace PortRange

/-- The last port of the range, which is not past 65535. -/
def last (r : PortRange) : Nat := min (r.start.toNat + (r.count.toNat - 1)) 65535

/-- The candidates: the ports from the first to the last, but no more than `tries` of them. A range
of no ports has none. -/
def ports (r : PortRange) : List UInt16 :=
  let span := List.range' r.start.toNat (r.last + 1 - r.start.toNat)
  (span.take (if r.count = 0 then 0 else r.tries.toNat)).map UInt16.ofNat

def size (r : PortRange) : Nat := r.ports.length

end PortRange

/-- Sizes are in bytes, timeouts in milliseconds. -/
structure Config where
  maxFrame : Nat := 16777216
  connectTimeout : Nat := 5000
  handshakeTimeout : Nat := 5000
  shutdownTimeout : Nat := 5000
  noDelay : Bool := true
  portRange : Option PortRange := none
  deriving DecidableEq, Repr

namespace Config

structure Variable (α : Type) where
  name : String
  read? : List Char → Option α

def natural (name : String) (bits : Nat) : Variable Nat :=
  ⟨name, Text.Numeral.read? ((1 <<< bits) - 1)⟩

def truth? (cs : List Char) : Option Bool :=
  if cs = "true".toList then some true else if cs = "false".toList then some false else none

def rangeStart := natural "TETHER_TCP_PORT_RANGE_START" 16
def rangeCount := natural "TETHER_TCP_PORT_RANGE_COUNT" 16
def rangeTries := natural "TETHER_TCP_PORT_RANGE_TRY_COUNT" 32
def maxFrameBytes := natural "TETHER_MAX_FRAME_BYTES" 64
def connectTimeoutMillis := natural "TETHER_CONNECT_TIMEOUT_MS" 64
def handshakeTimeoutMillis := natural "TETHER_HANDSHAKE_TIMEOUT_MS" 64
def shutdownTimeoutMillis := natural "TETHER_SHUTDOWN_TIMEOUT_MS" 64
def noDelayFlag : Variable Bool := ⟨"TETHER_TCP_NODELAY", truth?⟩

/-- Where values of variables come from. -/
abbrev Lookup := String → Option String

def Variable.value? {α : Type} (v : Variable α) (lookup : Lookup) : Option α :=
  (lookup v.name).bind fun raw => v.read? (Text.trim raw.toList)

/-- The warning that a variable gives cause for: it is set, but not readable. -/
def Variable.warnings {α : Type} (v : Variable α) (lookup : Lookup) : List Warning :=
  match lookup v.name with
  | none => []
  | some raw =>
    match v.read? (Text.trim raw.toList) with
    | some _ => []
    | none => [.invalidValue v.name raw]

def portRange? (lookup : Lookup) : Option PortRange :=
  (rangeStart.value? lookup).map fun start =>
    let count := (rangeCount.value? lookup).getD 1000
    let tries := (rangeTries.value? lookup).getD count
    ⟨UInt16.ofNat start, UInt16.ofNat count, UInt32.ofNat tries⟩

def ofLookup (lookup : Lookup) : Config :=
  let defaults : Config := {}
  { maxFrame := (maxFrameBytes.value? lookup).getD defaults.maxFrame
    connectTimeout := (connectTimeoutMillis.value? lookup).getD defaults.connectTimeout
    handshakeTimeout := (handshakeTimeoutMillis.value? lookup).getD defaults.handshakeTimeout
    shutdownTimeout := (shutdownTimeoutMillis.value? lookup).getD defaults.shutdownTimeout
    noDelay := (noDelayFlag.value? lookup).getD defaults.noDelay
    portRange := portRange? lookup }

/-- The warnings in the order in which the variables are consulted; the rest of a port range is
consulted only if its start is readable. -/
def warnings (lookup : Lookup) : List Warning :=
  rangeStart.warnings lookup ++
    (if (rangeStart.value? lookup).isSome then
      rangeCount.warnings lookup ++ rangeTries.warnings lookup
    else []) ++
    maxFrameBytes.warnings lookup ++ connectTimeoutMillis.warnings lookup ++
    handshakeTimeoutMillis.warnings lookup ++ shutdownTimeoutMillis.warnings lookup ++
    noDelayFlag.warnings lookup

end Config

end PeerLink
