/-! Glob patterns as token lists: `?`, `*`, character classes, and `**`, which is recursive
only next to separators. Every other character stands for itself. -/
namespace TestDispatch.Glob

/-- One unit of a pattern. -/
inductive Token
  | literal (c : Char)
  | any
  | zeroOrMore
  /-- `**/` at the start: nothing, or any text ending with `/`. -/
  | recursivePrefix
  /-- `/**` at the end: `/` followed by anything. -/
  | recursiveSuffix
  /-- `/**/` inside: `/`, or `/` then any text ending with `/`. -/
  | recursiveZeroOrMore
  /-- A class of characters, each range from its first to its last character. -/
  | charClass (negated : Bool) (ranges : List (Char × Char))
deriving DecidableEq, Repr

inductive GlobError
  | unclosedClass
  | invalidRange (first last : Char)
deriving DecidableEq, Repr

def GlobError.message : GlobError → String
  | .unclosedClass => "unclosed character class; missing ']'"
  | .invalidRange first last => s!"invalid range; '{first}' > '{last}'"

def closeRange (c : Char) : List (Char × Char) → Except GlobError (List (Char × Char))
  | (first, _) :: rest => if c < first then .error (.invalidRange first c) else .ok ((first, c) :: rest)
  | [] => .ok [(c, c)]

/-- The members of a class after `[` and an optional negation, up to and including the
closing `]`. `ranges` is kept newest first; `inRange` means a `-` after a member is pending. -/
def classBody (ranges : List (Char × Char)) (first inRange : Bool) :
    List Char → Except GlobError (List (Char × Char) × List Char)
  | [] => .error .unclosedClass
  | c :: cs =>
    if c = ']' ∧ ¬first then
      .ok ((if inRange then ('-', '-') :: ranges else ranges).reverse, cs)
    else if c = ']' ∨ (c = '-' ∧ first) then classBody ((c, c) :: ranges) false inRange cs
    else if c = '-' then
      if inRange then
        match closeRange '-' ranges with
        | .ok rs => classBody rs false false cs
        | .error e => .error e
      else classBody ranges false true cs
    else if inRange then
      match closeRange c ranges with
      | .ok rs => classBody rs false false cs
      | .error e => .error e
    else classBody ((c, c) :: ranges) false false cs

theorem classBody_rest_length (ranges : List (Char × Char)) (first inRange : Bool)
    (cs : List Char) (rs : List (Char × Char)) (rest : List Char)
    (h : classBody ranges first inRange cs = .ok (rs, rest)) : rest.length < cs.length := by
  induction cs generalizing ranges first inRange with
  | nil => simp [classBody] at h
  | cons c cs ih =>
    simp only [classBody] at h
    repeat' split at h
    all_goals first
      | (simp only [Except.ok.injEq, Prod.mk.injEq] at h; rw [← h.2]; simp)
      | (have h' := ih _ _ _ h; simp; omega)
      | simp at h

def classStart : List Char → Bool × List Char
  | c :: r => if c = '!' ∨ c = '^' then (true, r) else (false, c :: r)
  | [] => (false, [])

theorem classStart_length (cs : List Char) : (classStart cs).2.length ≤ cs.length := by
  cases cs with
  | nil => simp [classStart]
  | cons c r => simp only [classStart]; split <;> simp

/-- Replace the last token after `**` that ends a separator: a recursive prefix or suffix
stays, anything else (the separator itself) becomes a recursive suffix at the end of the
pattern, or a recursive middle before another `/`. -/
def replaceLast (suffix : Bool) : List Token → List Token
  | .recursivePrefix :: rest => .recursivePrefix :: rest
  | .recursiveSuffix :: rest => .recursiveSuffix :: rest
  | _ :: rest => (if suffix then .recursiveSuffix else .recursiveZeroOrMore) :: rest
  | [] => []

/-- Tokens of a pattern. `acc` is newest first and `prev` is the character before the input. -/
def tokenize (acc : List Token) (prev : Option Char) : List Char → Except GlobError (List Token)
  | [] => .ok acc.reverse
  | '?' :: cs => tokenize (.any :: acc) (some '?') cs
  | '[' :: cs =>
    match h : classBody [] true false (classStart cs).2 with
    | .ok (ranges, rest) =>
      have : rest.length < (classStart cs).2.length := classBody_rest_length _ _ _ _ _ _ h
      have : (classStart cs).2.length ≤ cs.length := classStart_length cs
      tokenize (.charClass (classStart cs).1 ranges :: acc) (some ']') rest
    | .error e => .error e
  | '*' :: '*' :: cs =>
    if acc.isEmpty then
      if cs.head? = some '/' then tokenize (.recursivePrefix :: acc) (some '/') cs.tail
      else if cs.isEmpty then tokenize (.recursivePrefix :: acc) (some '*') []
      else tokenize (.zeroOrMore :: .zeroOrMore :: acc) (some '*') cs
    else if prev ≠ some '/' then tokenize (.zeroOrMore :: .zeroOrMore :: acc) (some '*') cs
    else if cs.isEmpty then tokenize (replaceLast true acc) (some '*') []
    else if cs.head? = some '/' then tokenize (replaceLast false acc) (some '/') cs.tail
    else tokenize (.zeroOrMore :: .zeroOrMore :: acc) (some '*') cs
  | '*' :: cs => tokenize (.zeroOrMore :: acc) (some '*') cs
  | c :: cs => tokenize (.literal c :: acc) (some c) cs
termination_by cs => cs.length
decreasing_by all_goals (simp only [List.length_cons, List.length_tail, List.length_nil] at *; omega)

def parse (pattern : String) : Except GlobError (List Token) := tokenize [] none pattern.toList

end TestDispatch.Glob
