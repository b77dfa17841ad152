/-! The syntax of the command language tool scripts are written in: words, simple commands,
pipelines, and-or lists and compound commands. -/
namespace TestDispatch.Shell

/-- How a `${name...}` expansion uses its word. -/
inductive Fallback
  /-- `-`: the word when the parameter is unset. -/
  | useDefault
  /-- `=`: the word, also assigned, when the parameter is unset. -/
  | assign
  /-- `+`: the word when the parameter is set. -/
  | alternative
  /-- `?`: an error naming the parameter when it is unset. -/
  | required
deriving DecidableEq, Repr

mutual

/-- A piece of a word before expansion; `quoted` pieces are not split into fields. -/
inductive Piece where
  | text (s : String) (quoted : Bool)
  | param (name : String) (form : ParamForm) (quoted : Bool)
  | arith (body : List Piece) (quoted : Bool)
  /-- A command substitution, kept as the source text between its delimiters. -/
  | command (source : String) (quoted : Bool)

inductive ParamForm where
  | plain
  /-- `${#name}`: the length of the value. -/
  | length
  /-- `${name-word}` and its relatives; `colon` also treats an empty value as unset. -/
  | fallback (kind : Fallback) (colon : Bool) (word : List Piece)
  /-- `${name#word}`, `${name##word}`, `${name%word}`, `${name%%word}`. -/
  | trim (suffix longest : Bool) (word : List Piece)

inductive Redirect where
  | write (fd : Nat) (target : List Piece) (append : Bool)
  | read (fd : Nat) (source : List Piece)
  | dup (fd target : Nat)
  | close (fd : Nat)
  /-- A here-document: the lines after the command, as a word that is always quoted. -/
  | here (fd : Nat) (body : List Piece)

/-- A command. -/
inductive Command where
  | simple (line : Nat) (assigns : List (String × List Piece)) (words : List (List Piece))
      (redirects : List Redirect)
  | group (body : List Clause) (redirects : List Redirect)
  | subshell (body : List Clause) (redirects : List Redirect)
  | branch (arms : List (List Clause × List Clause)) (otherwise : List Clause)
      (redirects : List Redirect)
  | loop (untilTrue : Bool) (cond body : List Clause) (redirects : List Redirect)
  | each (name : String) (items : Option (List (List Piece))) (body : List Clause)
      (redirects : List Redirect)
  | choose (subject : List Piece) (arms : List (List (List Piece) × List Clause))
      (redirects : List Redirect)
  | define (name : String) (body : Command)

inductive Pipe where
  | mk (negated : Bool) (stages : List Command)

inductive Clause where
  | mk (first : Pipe) (rest : List (Bool × Pipe))

end

instance : Inhabited Command := ⟨.simple 0 [] [] []⟩

abbrev Word := List Piece

def Word.ofText (s : String) : Word := [.text s false]

end TestDispatch.Shell
