/-! Shell patterns for `case` and the trimming expansions: unquoted `*`, `?` and bracket
expressions; every other character matches itself. -/
namespace TestDispatch.Shell

/-- One element of a pattern. -/
inductive PatElem
  | lit (c : Char)
  | any
  | star
  /-- A set of characters: single ones and inclusive ranges, possibly negated. -/
  | set (negated : Bool) (items : List (Char × Char))
deriving DecidableEq, Repr

/-- The items of a bracket expression up to `]` (a `]` first is an item), and what follows. -/
def bracketItems : Nat → Bool → List (Char × Bool) → Option (List (Char × Char) × List (Char × Bool))
  | 0, _, _ => none
  | _ + 1, _, [] => none
  | fuel + 1, first, (c, q) :: r =>
    if c = ']' ∧ !q ∧ !first then some ([], r)
    else
      match r with
      | ('-', false) :: (d, dq) :: r' =>
        if d = ']' ∧ !dq then
          (bracketItems fuel false r).map fun (items, rest) => ((c, c) :: items, rest)
        else (bracketItems fuel false r').map fun (items, rest) => ((c, d) :: items, rest)
      | _ => (bracketItems fuel false r).map fun (items, rest) => ((c, c) :: items, rest)

def compilePattern : Nat → List (Char × Bool) → List PatElem
  | 0, _ => []
  | _ + 1, [] => []
  | fuel + 1, (c, q) :: r =>
    if q then .lit c :: compilePattern fuel r
    else if c = '*' then .star :: compilePattern fuel r
    else if c = '?' then .any :: compilePattern fuel r
    else if c = '[' then
      let (negated, body) := match r with
        | ('!', false) :: r' | ('^', false) :: r' => (true, r')
        | _ => (false, r)
      match bracketItems (body.length + 1) true body with
      | some (items, rest) => .set negated items :: compilePattern fuel rest
      | none => .lit c :: compilePattern fuel r
    else .lit c :: compilePattern fuel r

def PatElem.accepts (e : PatElem) (c : Char) : Bool :=
  match e with
  | .lit d => c = d
  | .any => true
  | .star => true
  | .set negated items => negated != items.any fun (lo, hi) => lo ≤ c ∧ c ≤ hi

def patMatches : List PatElem → List Char → Bool
  | [], cs => cs.isEmpty
  | .star :: ps, cs => (List.range (cs.length + 1)).any fun k => patMatches ps (cs.drop k)
  | p :: ps, c :: cs => p.accepts c && patMatches ps cs
  | _ :: _, [] => false
termination_by ps cs => (ps.length, cs.length)
decreasing_by
  all_goals simp_wf
  -- every call drops a pattern element
  all_goals (left; omega)

def matchesText (pattern : List (Char × Bool)) (s : String) : Bool :=
  patMatches (compilePattern (pattern.length + 1) pattern) s.toList

/-- Remove the shortest (or longest) prefix, or suffix, of `s` that the pattern matches. -/
def trimBy (pattern : List (Char × Bool)) (suffix longest : Bool) (s : String) : String :=
  let ps := compilePattern (pattern.length + 1) pattern
  let cs := s.toList
  let n := cs.length
  let lengths := if longest then (List.range (n + 1)).reverse else List.range (n + 1)
  let hit := lengths.find? fun k =>
    if suffix then patMatches ps (cs.drop (n - k)) else patMatches ps (cs.take k)
  match hit with
  | some k => String.ofList (if suffix then cs.take (n - k) else cs.drop k)
  | none => s

end TestDispatch.Shell
