/-! Braces as plain characters: every `{` and `}` outside a bracket expression is wrapped into a
class of its own, and bracket expressions are copied untouched. -/
namespace TestDispatch.Glob

def bracketRest : List Char → List Char × List Char
  | [] => ([], [])
  | c :: cs =>
    if c = ']' then ([c], cs)
    else
      let (members, rest) := bracketRest cs
      (c :: members, rest)

theorem bracketRest_length (cs : List Char) :
    (bracketRest cs).2.length ≤ cs.length := by
  induction cs with
  | nil => simp [bracketRest]
  | cons c cs ih =>
    simp only [bracketRest]
    split
    · simp
    · simp; omega

/-- The opening part of a bracket expression after `[`: an optional negation mark and an
optional leading `]`. -/
def bracketOpen (cs : List Char) : List Char × List Char :=
  let (neg, cs) := match cs with
    | c :: r => if c = '!' ∨ c = '^' then ([c], r) else ([], c :: r)
    | [] => ([], [])
  match cs with
  | ']' :: r => (neg ++ [']'], r)
  | _ => (neg, cs)

theorem bracketOpen_length (cs : List Char) : (bracketOpen cs).2.length ≤ cs.length := by
  unfold bracketOpen
  cases cs with
  | nil => simp
  | cons c r =>
    simp only
    split
    · rename_i h
      split at h <;> simp_all
      omega
    · split <;> simp_all

/-- Rewrite a pattern so that braces outside bracket expressions match themselves. -/
def literalBraces : List Char → List Char
  | [] => []
  | c :: cs =>
    if c = '[' then
      have := bracketOpen_length cs
      have := bracketRest_length (bracketOpen cs).2
      '[' :: (bracketOpen cs).1 ++ (bracketRest (bracketOpen cs).2).1 ++
        literalBraces (bracketRest (bracketOpen cs).2).2
    else if c = '{' ∨ c = '}' then '[' :: c :: ']' :: literalBraces cs
    else c :: literalBraces cs
termination_by cs => cs.length
decreasing_by all_goals (simp only [List.length_cons]; omega)

def literalBracesText (pattern : String) : String := String.ofList (literalBraces pattern.toList)

end TestDispatch.Glob
