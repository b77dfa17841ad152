import TestDispatch.Text.Utf8
import TestDispatch.Arithmetic
/-! The output of `echo` and `printf`, as bytes: backslash escapes, and the C conversions with
flags, width and precision. -/
namespace TestDispatch.Shell

open scoped TestDispatch.Arithmetic

def isOctalByte (b : UInt8) : Bool := 48 ≤ b ∧ b ≤ 55

def octalRun : Nat → Nat → List UInt8 → Nat × List UInt8
  | 0, v, bs => (v, bs)
  | n + 1, v, b :: r => if isOctalByte b then octalRun n (8 * v + (b.toNat - 48)) r else (v, b :: r)
  | _ + 1, v, [] => (v, [])

/-- The byte an escape stands for, given the bytes after the backslash, and the rest; an
unknown escape is a backslash, and the byte after it is read again. -/
def escapeByte (bs : List UInt8) : UInt8 × List UInt8 :=
  match bs with
  | b :: r =>
    if isOctalByte b then
      let (v, rest) := octalRun 3 0 bs
      (UInt8.ofNat v, rest)
    else if b = 92 then (92, r)
    else if b = 97 then (7, r)
    else if b = 98 then (8, r)
    else if b = 102 then (12, r)
    else if b = 110 then (10, r)
    else if b = 114 then (13, r)
    else if b = 116 then (9, r)
    else if b = 118 then (11, r)
    else (92, bs)
  | [] => (92, [])

def expandEscapesFuel : Nat → List UInt8 → List UInt8 × Bool
  | 0, _ => ([], false)
  | _ + 1, [] => ([], false)
  | _ + 1, 92 :: 99 :: _ => ([], true)
  | fuel + 1, 92 :: 48 :: b :: r =>
    if isOctalByte b then
      let (v, rest) := octalRun 3 0 (b :: r)
      let (out, stop) := expandEscapesFuel fuel rest
      (UInt8.ofNat v :: out, stop)
    else
      let (out, stop) := expandEscapesFuel fuel (b :: r)
      (0 :: out, stop)
  | fuel + 1, 92 :: r =>
    let (v, rest) := escapeByte r
    let (out, stop) := expandEscapesFuel fuel rest
    (v :: out, stop)
  | fuel + 1, b :: r =>
    let (out, stop) := expandEscapesFuel fuel r
    (b :: out, stop)

/-- Expand the escapes of an `echo` or `%b` argument; `true` when `\c` ended the output. -/
def expandEscapes (bs : List UInt8) : List UInt8 × Bool := expandEscapesFuel (bs.length + 1) bs

/-- The output of `echo`: a leading `-n` drops the final line break; arguments are separated
by spaces and their escapes expanded; `\c` ends the output at once. -/
def echoBytes (args : List String) : List UInt8 :=
  let (newline, args) := match args with
    | "-n" :: rest => (false, rest)
    | _ => (true, args)
  let ending : List UInt8 := if newline then [10] else []
  let rec go : List String → List UInt8
    | [] => ending
    | [a] =>
      let (out, stop) := expandEscapes (Text.Utf8.bytes a)
      if stop then out else out ++ ending
    | a :: rest =>
      let (out, stop) := expandEscapes (Text.Utf8.bytes a)
      if stop then out else out ++ 32 :: go rest
  go args

structure Printed where
  out : List UInt8
  warnings : List String
  status : Nat
deriving Repr

/-- A number read as C's `strtoimax` or `strtoumax` reads it in base 0: blanks, a sign, a base
prefix and digits. The value (clamped to the type), the text left, and whether it overflowed;
`none` when no digit was read. -/
def readCNumber (unsigned : Bool) (cs : List Char) : Option (Int × List Char × Bool) :=
  let cs := cs.dropWhile fun c => c = ' ' ∨ c = '\t' ∨ c = '\n' ∨ c = '\r' ∨ c = '\x0b' ∨ c = '\x0c'
  let (negative, body) := match cs with
    | '-' :: r => (true, r)
    | '+' :: r => (false, r)
    | _ => (false, cs)
  let digitsOf (base : Nat) (ds : List Char) : Nat × Nat × List Char :=
    let rec go : List Char → Nat × Nat × List Char
      | c :: r =>
        let d := if c.isDigit then some (c.toNat - 48)
          else if 'a' ≤ c ∧ c ≤ 'f' then some (c.toNat - 87)
          else if 'A' ≤ c ∧ c ≤ 'F' then some (c.toNat - 55) else none
        match d with
        | some d => if d < base then
            let (k, v, rest) := go r
            (k + 1, d * base ^ k + v, rest)
          else (0, 0, c :: r)
        | none => (0, 0, c :: r)
      | [] => (0, 0, [])
    go ds
  let parsed : Option (Nat × List Char) := match body with
    | '0' :: x :: r =>
      if x = 'x' ∨ x = 'X' then
        let (k, v, rest) := digitsOf 16 r
        if k = 0 then some (0, x :: r) else some (v, rest)
      else
        let (_, v, rest) := digitsOf 8 (x :: r)
        some (v, rest)
    | c :: _ => if c.isDigit then (let (_, v, rest) := digitsOf 10 body; some (v, rest)) else none
    | [] => none
  parsed.map fun (v, rest) =>
    if unsigned then
      if v ≥ 2 ^ (64 : Nat) then ((2 ^ (64 : Nat) - 1 : Nat), rest, true)
      else (if negative then (((2 ^ (64 : Nat) - v) % 2 ^ (64 : Nat) : Nat) : Int) else (v : Int), rest, false)
    else if negative then
      if v > 2 ^ (63 : Nat) then (-(2 ^ (63 : Nat) : Int), rest, true) else (-(v : Int), rest, false)
    else if v ≥ 2 ^ (63 : Nat) then ((2 ^ (63 : Nat) - 1 : Nat), rest, true) else ((v : Int), rest, false)

/-- The number of a `printf` argument: a quote first gives the code of the next byte; else
a C number, with a warning when the text was not all converted. -/
def numericArg (unsigned : Bool) (arg : String) : Int × Option String :=
  match arg.toList with
  | '"' :: _ | '\'' :: _ =>
    ((Text.Utf8.bytes arg).drop 1 |>.head? |>.map (·.toNat) |>.getD 0, none)
  | cs =>
    match readCNumber unsigned cs with
    | none =>
      if cs.isEmpty then (0, none) else (0, some s!"{arg}: expected numeric value")
    | some (v, rest, overflow) =>
      if !rest.isEmpty then (v, some s!"{arg}: not completely converted")
      else if overflow then (v, some s!"{arg}: Numerical result out of range")
      else (v, none)

def natDigits (base : Nat) (upper : Bool) (n : Nat) : List UInt8 :=
  (Nat.toDigits base n).map fun c =>
    let c := if upper then c.toUpper else c
    UInt8.ofNat c.toNat

def padTo (width : Nat) (left : Bool) (body : List UInt8) : List UInt8 :=
  let fill := List.replicate (width - body.length) (32 : UInt8)
  if left then body ++ fill else fill ++ body

structure Spec where
  flags : List Char
  width : Nat
  left : Bool
  precision : Option Nat
deriving Repr

def formatInteger (spec : Spec) (conv : Char) (v : Int) : List UInt8 :=
  let signed := conv = 'd' ∨ conv = 'i'
  let magnitude : Nat := if signed then v.natAbs else (v % (2 ^ (64 : Nat) : Int)).toNat
  let base := if conv = 'o' then 8 else if conv = 'x' ∨ conv = 'X' then 16 else 10
  let digits := if spec.precision = some 0 ∧ magnitude = 0 then []
    else natDigits base (conv = 'X') magnitude
  let digits := match spec.precision with
    | some p => List.replicate (p - digits.length) (48 : UInt8) ++ digits
    | none => digits
  let alt := spec.flags.contains '#'
  let digits := if alt ∧ conv = 'o' ∧ digits.head? ≠ some 48 then 48 :: digits else digits
  let sign : List UInt8 :=
    if signed ∧ v < 0 then [45]
    else if signed ∧ spec.flags.contains '+' then [43]
    else if signed ∧ spec.flags.contains ' ' then [32]
    else if alt ∧ magnitude ≠ 0 ∧ conv = 'x' then [48, 120]
    else if alt ∧ magnitude ≠ 0 ∧ conv = 'X' then [48, 88]
    else []
  if spec.flags.contains '0' ∧ !spec.left ∧ spec.precision.isNone then
    sign ++ List.replicate (spec.width - sign.length - digits.length) (48 : UInt8) ++ digits
  else padTo spec.width spec.left (sign ++ digits)

def formatBytes (spec : Spec) (bs : List UInt8) : List UInt8 :=
  let bs := match spec.precision with
    | some p => bs.take p
    | none => bs
  padTo spec.width spec.left bs

structure PrintState where
  out : List UInt8 := []
  warnings : List String := []
  args : List String
  used : Bool := false
  status : Nat := 0
  stopped : Bool := false

def PrintState.take (s : PrintState) : Option String × PrintState :=
  match s.args with
  | a :: rest => (some a, { s with args := rest, used := true })
  | [] => (none, s)

def PrintState.takeNumber (s : PrintState) (unsigned : Bool) : Int × PrintState :=
  match s.take with
  | (some a, s) =>
    let (v, warning) := numericArg unsigned a
    match warning with
    | some w => (v, { s with warnings := s.warnings ++ [w], status := 1 })
    | none => (v, s)
  | (none, s) => (0, s)

def specDigits (cs : List Char) : Nat × List Char :=
  let (ds, rest) := cs.span Char.isDigit
  (ds.foldl (fun n c => 10 * n + (c.toNat - 48)) 0, rest)

def printPass : Nat → List Char → PrintState → PrintState
  | 0, _, s => s
  | _ + 1, [], s => s
  | fuel + 1, '\\' :: r, s =>
    let bytes := Text.Utf8.bytes (String.ofList r)
    let (b, rest) := escapeByte bytes
    let restChars := (Text.Utf8.lossy rest).toList
    printPass fuel restChars { s with out := s.out ++ [b] }
  | fuel + 1, '%' :: '%' :: r, s => printPass fuel r { s with out := s.out ++ [37] }
  | fuel + 1, '%' :: r, s =>
    let (flags, r) := r.span fun c => "#-+ 0".toList.contains c
    let (width, left, r, s) : Nat × Bool × List Char × PrintState := match r with
      | '*' :: r' =>
        let (w, s) := s.takeNumber false
        (w.natAbs, flags.contains '-' || w < 0, r', s)
      | _ => let (w, r') := specDigits r; (w, flags.contains '-', r', s)
    let (precision, r, s) : Option Nat × List Char × PrintState := match r with
      | '.' :: '*' :: r' =>
        let (p, s) := s.takeNumber false
        (if p < 0 then none else some p.toNat, r', s)
      | '.' :: r' => let (p, r'') := specDigits r'; (some p, r'', s)
      | _ => (none, r, s)
    let spec : Spec := ⟨flags, width, left, precision⟩
    match r with
    | [] => { s with warnings := s.warnings ++ ["missing format character"], status := 1, stopped := true }
    | conv :: r =>
      if conv = 's' then
        let (a, s) := s.take
        printPass fuel r { s with out := s.out ++ formatBytes spec (Text.Utf8.bytes (a.getD "")) }
      else if conv = 'b' then
        let (a, s) := s.take
        let (bs, stop) := expandEscapes (Text.Utf8.bytes (a.getD ""))
        let s := { s with out := s.out ++ formatBytes spec bs }
        if stop then { s with stopped := true } else printPass fuel r s
      else if conv = 'c' then
        let (a, s) := s.take
        let b := ((Text.Utf8.bytes (a.getD "")).head?).getD 0
        printPass fuel r { s with out := s.out ++ padTo spec.width spec.left [b] }
      else if conv = 'd' ∨ conv = 'i' ∨ conv = 'o' ∨ conv = 'u' ∨ conv = 'x' ∨ conv = 'X' then
        let (v, s) := s.takeNumber (conv ≠ 'd' ∧ conv ≠ 'i')
        printPass fuel r { s with out := s.out ++ formatInteger spec conv v }
      else
        let directive := "%" ++ String.ofList (flags ++ (r.take 0)) ++ String.singleton conv
        { s with warnings := s.warnings ++ [s!"{directive}: invalid directive"], status := 1,
                 stopped := true }
  | fuel + 1, c :: r, s => printPass fuel r { s with out := s.out ++ Text.Utf8.bytes (String.singleton c) }

/-- Run `printf` with a format and arguments: the format is used again while a pass used an
argument and arguments remain. -/
def printfBytes (format : String) (args : List String) : Printed :=
  let fmt := format.toList
  let rec loop : Nat → PrintState → PrintState
    | 0, s => s
    | fuel + 1, s =>
      let s' := printPass (2 * fmt.length + 2) fmt { s with used := false }
      if s'.stopped ∨ !s'.used ∨ s'.args.isEmpty then s' else loop fuel s'
  let s := loop (args.length + 1) { args := args }
  ⟨s.out, s.warnings, s.status⟩

end TestDispatch.Shell
