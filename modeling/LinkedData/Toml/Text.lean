/-
  LinkedData.Toml.Text — strings and keys of TOML documents, read.

  Each reader takes the characters that remain and gives back what it read with the rest, or
  nothing when the text is no such thing.
-/

import LinkedData.Hex

namespace LinkedData.Toml

def isSpace (c : Char) : Bool := c == ' ' || c == '\t'

/-- Characters that stand for themselves on one line: no control characters but the tab. -/
def isPlain (c : Char) : Bool := c == '\t' || (0x20 ≤ c.toNat && c.toNat ≠ 0x7F)

def skipSpaces (cs : List Char) : List Char := cs.dropWhile isSpace

/-- The rest after a line end, if there is one. -/
def lineEnd? : List Char → Option (List Char)
  | '\n' :: cs => some cs
  | '\r' :: '\n' :: cs => some cs
  | _ => none

/-! ## Escapes -/

/-- The character of a number in hexadecimal: no surrogates, nothing beyond the last character. -/
def numbered? (cs : List Char) : Option Char := do
  let n ← Hex.value? cs
  if h : n.isValidChar then some (Char.ofNatAux n h) else none

def escaped? : Char → Option Char
  | 'b' => some '\x08'
  | 't' => some '\t'
  | 'n' => some '\n'
  | 'f' => some '\x0c'
  | 'r' => some '\r'
  | '"' => some '"'
  | '\\' => some '\\'
  | _ => none

abbrev Text := List Char × List Char

def Text.cons (c : Char) (t : Text) : Text := (c :: t.1, t.2)

/-! ## Strings, after their opening marks -/

def basic : List Char → Option Text
  | [] => none
  | '"' :: cs => some ([], cs)
  | '\\' :: 'u' :: a :: b :: c :: d :: cs => do
    let x ← numbered? [a, b, c, d]
    (basic cs).map (.cons x)
  | '\\' :: 'U' :: a :: b :: c :: d :: e :: f :: g :: h :: cs => do
    let x ← numbered? [a, b, c, d, e, f, g, h]
    (basic cs).map (.cons x)
  | '\\' :: c :: cs => do
    let x ← escaped? c
    (basic cs).map (.cons x)
  | c :: cs => if isPlain c then (basic cs).map (.cons c) else none

def literal : List Char → Option Text
  | [] => none
  | '\'' :: cs => some ([], cs)
  | c :: cs => if isPlain c then (literal cs).map (.cons c) else none

/-- Several lines. A backslash at the end of a line takes the blanks and the line ends after it
    away: `skipping` says that this is going on. One or two quotes may come before the closing three. -/
def longBasic (skipping : Bool) : List Char → Option Text
  | [] => none
  | '\r' :: '\n' :: cs => if skipping then longBasic true cs else (longBasic false cs).map (.cons '\n')
  | '\n' :: cs => if skipping then longBasic true cs else (longBasic false cs).map (.cons '\n')
  | '"' :: '"' :: '"' :: '"' :: '"' :: cs => some (['"', '"'], cs)
  | '"' :: '"' :: '"' :: '"' :: cs => some (['"'], cs)
  | '"' :: '"' :: '"' :: cs => some ([], cs)
  | '\\' :: 'u' :: a :: b :: c :: d :: cs => do
    let x ← numbered? [a, b, c, d]
    (longBasic false cs).map (.cons x)
  | '\\' :: 'U' :: a :: b :: c :: d :: e :: f :: g :: h :: cs => do
    let x ← numbered? [a, b, c, d, e, f, g, h]
    (longBasic false cs).map (.cons x)
  | '\\' :: c :: cs =>
    match escaped? c with
    | some x => (longBasic false cs).map (.cons x)
    | none => if (lineEnd? (skipSpaces (c :: cs))).isSome then longBasic true (c :: cs) else none
  | c :: cs =>
    if skipping && isSpace c then longBasic true cs
    else if isPlain c then (longBasic false cs).map (.cons c)
    else none

def longLiteral : List Char → Option Text
  | [] => none
  | '\r' :: '\n' :: cs => (longLiteral cs).map (.cons '\n')
  | '\n' :: cs => (longLiteral cs).map (.cons '\n')
  | '\'' :: '\'' :: '\'' :: '\'' :: '\'' :: cs => some (['\'', '\''], cs)
  | '\'' :: '\'' :: '\'' :: '\'' :: cs => some (['\''], cs)
  | '\'' :: '\'' :: '\'' :: cs => some ([], cs)
  | c :: cs => if isPlain c then (longLiteral cs).map (.cons c) else none

/-- A line end right after the opening marks is no part of a long string. -/
def afterOpening (cs : List Char) : List Char := (lineEnd? cs).getD cs

/-- A string of any kind, with its marks. -/
def string : List Char → Option Text
  | '"' :: '"' :: '"' :: cs => longBasic false (afterOpening cs)
  | '\'' :: '\'' :: '\'' :: cs => longLiteral (afterOpening cs)
  | '"' :: cs => basic cs
  | '\'' :: cs => literal cs
  | _ => none

/-! ## Keys -/

def bareKeyChar (c : Char) : Bool := c.isAlphanum || c == '-' || c == '_'

def simpleKey : List Char → Option Text
  | '"' :: cs => basic cs
  | '\'' :: cs => literal cs
  | cs => if cs.takeWhile bareKeyChar = [] then none else some (cs.takeWhile bareKeyChar, cs.dropWhile bareKeyChar)

/-- A key has fewer names than this. -/
def keyLimit : Nat := 80

/-- One name, or several joined by points; `fuel` is at least the number of characters. The blanks
    after it are taken too. -/
def names : Nat → List Char → Option (List String × List Char)
  | 0, _ => none
  | fuel + 1, cs => do
    let (name, cs) ← simpleKey (skipSpaces cs)
    match skipSpaces cs with
    | '.' :: cs => (names fuel cs).map fun r => (String.ofList name :: r.1, r.2)
    | cs => some ([String.ofList name], cs)

def key (cs : List Char) : Option (List String × List Char) :=
  (names cs.length cs).filter fun r => r.1.length < keyLimit

end LinkedData.Toml
