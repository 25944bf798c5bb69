import PeerLink.Text.Alphanumeric
import PeerLink.Text.Blank
import PeerLink.Text.Numeral

namespace PeerLink.Log

inductive Level where
  | error
  | warn
  | info
  | debug
  | trace
  deriving DecidableEq, Repr

def Level.rank : Level → Nat
  | .error => 1
  | .warn => 2
  | .info => 3
  | .debug => 4
  | .trace => 5

def Level.ofRank? : Nat → Option Level
  | 1 => some .error
  | 2 => some .warn
  | 3 => some .info
  | 4 => some .debug
  | 5 => some .trace
  | _ => none

/-- A directive's level; none is off. -/
structure Directive where
  target : List Char
  level : Option Level
  deriving DecidableEq, Repr

def lower (cs : List Char) : List Char := cs.map Char.toLower

def level? (cs : List Char) : Option (Option Level) :=
  match Text.Numeral.read? 5 cs with
  | some rank => some (Level.ofRank? rank)
  | none =>
    match String.ofList (lower cs) with
    | "off" => some none
    | "error" => some (some .error)
    | "warn" => some (some .warn)
    | "info" => some (some .info)
    | "debug" => some (some .debug)
    | "trace" => some (some .trace)
    | _ => none

def canStart (c : Char) : Bool :=
  Text.Alphanumeric.isAlphanumeric c || c = '_' || c = ':' || c = '-'

/-- A level for every target, a target for which everything is logged, or a target with its level.
Blanks count as part of a target, but none may stand before one that has a level. -/
def directive? (cs : List Char) : Option Directive :=
  if !(cs.dropWhile Text.isBlank).head?.any canStart then none
  else
    match cs.span (· ≠ '=') with
    | (_, []) => some ((level? cs).elim ⟨cs, some .trace⟩ fun level => ⟨[], level⟩)
    | (target, _ :: text) =>
      if target.head?.any Text.isBlank then none
      else if text.isEmpty then some ⟨target, some .trace⟩
      else (level? text).map fun level => ⟨target, level⟩

def splitCommas : List Char → List (List Char)
  | [] => [[]]
  | c :: cs =>
    match splitCommas cs with
    | [] => [[c]]
    | part :: parts => if c = ',' then [] :: part :: parts else (c :: part) :: parts

abbrev Filter := List Directive

/-- The readable directives of a text; if there are none, errors of every target. -/
def Filter.read (text : String) : Filter :=
  let directives := (splitCommas text.toList).filterMap fun part =>
    if part.isEmpty then none else directive? part
  if directives.isEmpty then [⟨[], some .error⟩] else directives

def Filter.pick (best : Option Directive) (d : Directive) : Option Directive :=
  match best with
  | none => some d
  | some b => if b.target.length ≤ d.target.length then some d else some b

/-- The most verbose level that is written for a target. -/
def Filter.level (f : Filter) (target : String) : Option Level :=
  let directives := f.filter fun d => d.target.isPrefixOf target.toList
  (directives.foldl pick none).bind Directive.level

def Filter.enabled (f : Filter) (target : String) (level : Level) : Bool :=
  match f.level target with
  | none => false
  | some most => level.rank ≤ most.rank

def ownLevel : Option String → Level
  | some "trace" => .trace
  | some "debug" => .debug
  | some "warn" => .warn
  | some "warning" => .warn
  | some "error" => .error
  | _ => .info

inductive Style where
  | text
  | json
  deriving DecidableEq, Repr

structure Setup where
  filter : Filter
  style : Style
  deriving DecidableEq, Repr

/-- The general variable wins over the program's own, which is for the program's targets only. -/
def Setup.ofVariables (lookup : String → Option String) : Setup where
  filter :=
    match lookup "RUST_LOG" with
    | some text => Filter.read text
    | none =>
      let level := ownLevel (lookup "TETHER_LOG")
      [⟨"tether".toList, some level⟩, ⟨"tether_ping".toList, some level⟩]
  style := if lookup "LOG_FORMAT" = some "json" then .json else .text

end PeerLink.Log
