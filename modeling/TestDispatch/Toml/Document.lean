import TestDispatch.Toml.Lexical
/-! TOML documents, read line by line into a record of what each path names, under the rules of
TOML 1.0 for defining keys and tables. -/
namespace TestDispatch.Toml

inductive Seg
  | key (k : String)
  | elem (i : Nat)
deriving DecidableEq, Repr

/-- How a table came to be. -/
inductive Origin
  | implicit
  | header
  /-- By a dotted key. -/
  | dotted
deriving DecidableEq, Repr

inductive Node
  | value (v : Value)
  | table (origin : Origin)
  | tables (count : Nat)
deriving DecidableEq, Repr

abbrev Doc := List (List Seg × Node)

namespace Doc

def find (d : Doc) (p : List Seg) : Option Node := (d.find? (·.1 = p)).map (·.2)

def set (d : Doc) (p : List Seg) (n : Node) : Doc := (p, n) :: d.filter (·.1 ≠ p)

/-- Walk from `base` through the tables named by `keys` for a header, making missing ones as
parents; arrays of tables are entered at their last element. -/
def descendHeader (d : Doc) (base : List Seg) : List String → Option (Doc × List Seg)
  | [] => some (d, base)
  | k :: ks =>
    let p := base ++ [.key k]
    match d.find p with
    | none => descendHeader (d.set p (.table .implicit)) p ks
    | some (.value _) => none
    | some (.tables n) => descendHeader d (p ++ [.elem (n - 1)]) ks
    | some (.table _) => descendHeader d p ks

/-- Walk from `base` through the tables named by the leading keys of a dotted key, making
missing ones; only tables made by dotted keys can be entered. -/
def descendDotted (d : Doc) (base : List Seg) : List String → Option (Doc × List Seg)
  | [] => some (d, base)
  | k :: ks =>
    let p := base ++ [.key k]
    match d.find p with
    | none => descendDotted (d.set p (.table .dotted)) p ks
    | some (.table .dotted) => descendDotted d p ks
    | some _ => none

def define (d : Doc) (sect : List Seg) (keys : List String) (v : Value) : Option Doc := do
  let last ← keys.getLast?
  let (d, base) ← descendDotted d sect keys.dropLast
  let p := base ++ [.key last]
  match d.find p with
  | some _ => none
  | none => some (d.set p (.value v))

def openTable (d : Doc) (keys : List String) : Option (Doc × List Seg) := do
  let last ← keys.getLast?
  let (d, base) ← descendHeader d [] keys.dropLast
  let p := base ++ [.key last]
  match d.find p with
  | none => some (d.set p (.table .header), p)
  | some (.table .implicit) => some (d.set p (.table .header), p)
  | some _ => none

def openElement (d : Doc) (keys : List String) : Option (Doc × List Seg) := do
  let last ← keys.getLast?
  let (d, base) ← descendHeader d [] keys.dropLast
  let p := base ++ [.key last]
  match d.find p with
  | none => some (d.set p (.tables 1), p ++ [.elem 0])
  | some (.tables n) => some (d.set p (.tables (n + 1)), p ++ [.elem n])
  | some _ => none

end Doc

/-- The keys of an inline table so far, each with whether it names a table made by a dotted
key (which more dotted keys may extend). -/
abbrev InlineKeys := List (List String × Bool)

def InlineKeys.add (ks : InlineKeys) (path : List String) : Option InlineKeys :=
  let prefixes := (List.range path.length).map fun n => path.take n
  let step (acc : Option InlineKeys) (p : List String) : Option InlineKeys :=
    acc.bind fun ks =>
      if p.isEmpty then some ks
      else match ks.find? (·.1 = p) with
        | some (_, true) => some ks
        | some (_, false) => none
        | none => some ((p, true) :: ks)
  (prefixes.foldl step (some ks)).bind fun ks =>
    if ks.any (·.1 = path) then none else some ((path, false) :: ks)

def skipArrayGap : Nat → List Char → Option (List Char)
  | 0, _ => none
  | fuel + 1, cs =>
    match skipBlank cs with
    | '#' :: r => (commentRest r).bind fun r' =>
        match newline? r' with
        | some r'' => skipArrayGap fuel r''
        | none => none
    | r => match newline? r with
      | some r' => skipArrayGap fuel r'
      | none => some r

mutual

def value : Nat → Reader Value
  | 0, _ => none
  | fuel + 1, cs =>
    match cs with
    | '"' :: _ | '\'' :: _ => (string cs).map fun (s, r) => (.string s, r)
    | '[' :: r => (arrayItems fuel true r).map fun r' => (.array, r')
    | '\x7b' :: r => (inlineTable fuel [] true (skipBlank r)).map fun r' => (.table, r')
    | _ => scalarValue cs

def arrayItems : Nat → Bool → List Char → Option (List Char)
  | 0, _, _ => none
  | fuel + 1, first, cs => do
    let cs ← skipArrayGap (cs.length + 1) cs
    match cs with
    | ']' :: r => some r
    | _ =>
      if !first then none
      else
        let (_, r) ← value fuel cs
        let r ← skipArrayGap (r.length + 1) r
        match r with
        | ']' :: r' => some r'
        | ',' :: r' => arrayItems fuel true r'
        | _ => none

def inlineTable : Nat → InlineKeys → Bool → List Char → Option (List Char)
  | 0, _, _, _ => none
  | fuel + 1, keys, first, cs =>
    match cs with
    | '\x7d' :: r => if first then some r else none
    | _ => do
      let (path, r) ← key cs
      let r ← match skipBlank r with
        | '=' :: r => some (skipBlank r)
        | _ => none
      let (_, r) ← value fuel r
      let keys ← keys.add path
      match skipBlank r with
      | '\x7d' :: r' => some r'
      | ',' :: r' => inlineTable fuel keys false (skipBlank r')
      | _ => none

end

def lineEnd (cs : List Char) : Option (List Char) :=
  let cs := skipBlank cs
  let cs := match cs with
    | '#' :: r => commentRest r
    | _ => some cs
  cs.bind fun cs => if cs.isEmpty then some [] else newline? cs

def header (close : List Char) (cs : List Char) : Option (List String × List Char) := do
  let (k, r) ← key (skipBlank cs)
  let r := skipBlank r
  if r.take close.length = close then some (k, r.drop close.length) else none

/-- The lines of a document, building the record of its paths; `sect` is the path of the
table that key-value lines go to. -/
def lines : Nat → Doc → List Seg → List Char → Option Doc
  | 0, _, _, _ => none
  | fuel + 1, d, sect, cs =>
    match skipBlank cs with
    | [] => some d
    | '#' :: r => (lineEnd ('#' :: r)).bind (lines fuel d sect)
    | '\n' :: r => lines fuel d sect r
    | '\r' :: '\n' :: r => lines fuel d sect r
    | '[' :: '[' :: r => do
      let (k, r) ← header [']', ']'] r
      let (d, s) ← d.openElement k
      lines fuel d s (← lineEnd r)
    | '[' :: r => do
      let (k, r) ← header [']'] r
      let (d, s) ← d.openTable k
      lines fuel d s (← lineEnd r)
    | r => do
      let (k, r) ← key r
      let r ← match skipBlank r with
        | '=' :: r => some (skipBlank r)
        | _ => none
      let (v, r) ← value (r.length + 1) r
      let d ← d.define sect k v
      lines fuel d sect (← lineEnd r)

/-- Read a document; a leading byte order mark is allowed. `none` when it is not valid. -/
def parse (text : String) : Option Doc :=
  let cs := match text.toList with
    | '﻿' :: r => r
    | cs => cs
  lines (cs.length + 1) [] [] cs

def Doc.top (d : Doc) (k : String) : Option Node := d.find [.key k]

end TestDispatch.Toml
