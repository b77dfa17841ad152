import TestDispatch.Glob.Pattern
import TestDispatch.Text.Utf8
/-! Matching a compiled pattern against the UTF-8 bytes of a name: a literal is its bytes, `?`
is one byte and a class is a set of bytes. The match is anchored at both ends. -/
namespace TestDispatch.Glob

open TestDispatch.Text

/-- A step of the byte-level form of a pattern. -/
inductive Elem
  /-- One byte inside (or, when negated, outside) the union of the byte ranges. -/
  | byteSet (negated : Bool) (ranges : List (UInt8 × UInt8))
  /-- Any run of bytes, empty included. -/
  | anyRun
  /-- Nothing, or any run of bytes that ends with `/`. -/
  | dirPrefix
deriving DecidableEq, Repr

def inRanges (b : UInt8) (ranges : List (UInt8 × UInt8)) : Bool :=
  ranges.any fun r => r.1 ≤ b ∧ b ≤ r.2

def exactly (b : UInt8) : Elem := .byteSet false [(b, b)]

def slash : UInt8 := 0x2F

def rangeBytes (r : Char × Char) : List (UInt8 × UInt8) :=
  let first := Utf8.bytes (String.singleton r.1)
  let last := Utf8.bytes (String.singleton r.2)
  if r.1 = r.2 then first.map fun b => (b, b)
  else
    (first.dropLast.map fun b => (b, b)) ++ [(first.getLastD 0, last.headD 0)] ++
      (last.tail.map fun b => (b, b))

def Token.elems : Token → List Elem
  | .literal c => (Utf8.bytes (String.singleton c)).map exactly
  | .any => [.byteSet true []]
  | .zeroOrMore => [.anyRun]
  | .recursivePrefix => [.dirPrefix]
  | .recursiveSuffix => [exactly slash, .anyRun]
  | .recursiveZeroOrMore => [exactly slash, .dirPrefix]
  | .charClass negated ranges => [.byteSet negated (ranges.flatMap rangeBytes)]

/-- The byte-level form of a token list; a lone recursive prefix matches everything. -/
def compile (tokens : List Token) : List Elem :=
  if tokens = [.recursivePrefix] then [.anyRun] else tokens.flatMap Token.elems

abbrev State := Nat × Bool

def skipFrom (elems : Array Elem) : Nat → Nat → List State
  | 0, _ => []
  | fuel + 1, i =>
    match elems[i]? with
    | some .anyRun | some .dirPrefix => (i + 1, false) :: skipFrom elems fuel (i + 1)
    | _ => []

/-- The closure of a set of positions under moves that read nothing. -/
def close (elems : Array Elem) (states : List State) : List State :=
  (states ++ states.flatMap fun s => if s.2 then [] else skipFrom elems elems.size s.1).eraseDups

def advance (elems : Array Elem) (b : UInt8) (s : State) : List State :=
  match elems[s.1]?, s.2 with
  | some (.byteSet negated ranges), false => if inRanges b ranges != negated then [(s.1 + 1, false)] else []
  | some .anyRun, _ => [(s.1, false)]
  | some .dirPrefix, _ => if b = slash then [(s.1, true), (s.1 + 1, false)] else [(s.1, true)]
  | _, _ => []

def run (elems : Array Elem) (states : List State) : List UInt8 → List State
  | [] => states
  | b :: bs => run elems (close elems (states.flatMap (advance elems b))) bs

/-- Whether the compiled pattern matches all of the bytes. -/
def matchesBytes (elems : List Elem) (bytes : List UInt8) : Bool :=
  let arr := elems.toArray
  (run arr (close arr [(0, false)]) bytes).contains (arr.size, false)

def matchesName (tokens : List Token) (name : String) : Bool :=
  matchesBytes (compile tokens) (Utf8.bytes name)

end TestDispatch.Glob
