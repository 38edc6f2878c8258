import SodiumDecl.Json.Number

/-!
# Tokens

`tokens` splits a text into JSON tokens, one character at a time. A `Scanner` holds the
tokens read so far and what the current one may still become. The first character that
cannot stand where it is yields the token `bad`, and nothing after it is read.

A string token holds its text, or nothing when an escape names half of a surrogate pair:
such a string is well-formed but names no text.
-/

namespace SodiumDecl.Json

/-- The tokens of JSON. -/
inductive Token
  | openBrace | closeBrace | openBracket | closeBracket | comma | colon
  | null
  | bool (value : Bool)
  | number (literal : Literal)
  | string (text : Option String)
  | bad
  deriving DecidableEq, Repr

/-! ## Strings -/

/-- The characters of a sequence of code points in which two surrogates, high then low,
stand for one character. A surrogate out of such a pair stands for none. -/
def scalars? : List Nat → Option (List Char)
  | [] => some []
  | [n] => if h : n.isValidChar then some [Char.ofNatAux n h] else none
  | n :: m :: rest =>
    if h : n.isValidChar then (scalars? (m :: rest)).map (Char.ofNatAux n h :: ·)
    else if n < 0xDC00 && 0xDC00 ≤ m && m < 0xE000 then
      (scalars? rest).map (Char.ofNat (0x10000 + (n - 0xD800) * 0x400 + (m - 0xDC00)) :: ·)
    else none

/-- The value of a hexadecimal digit. -/
def hexValue? (c : Char) : Option Nat :=
  if '0' ≤ c && c ≤ '9' then some (c.toNat - '0'.toNat)
  else if 'a' ≤ c && c ≤ 'f' then some (c.toNat - 'a'.toNat + 10)
  else if 'A' ≤ c && c ≤ 'F' then some (c.toNat - 'A'.toNat + 10)
  else none

/-- The code point that a one-character escape names. -/
def escaped? : Char → Option Nat
  | '"' => some 0x22
  | '\\' => some 0x5C
  | '/' => some 0x2F
  | 'b' => some 0x08
  | 'f' => some 0x0C
  | 'n' => some 0x0A
  | 'r' => some 0x0D
  | 't' => some 0x09
  | _ => none

/-! ## Numbers -/

/-- The characters of which numbers are made. -/
def isNumberChar (c : Char) : Bool := c.isDigit || c ∈ ['+', '-', '.', 'e', 'E']

/-- A run of digits, at least one, and what follows it. -/
def digits? (cs : List Char) : Option (List Char × List Char) :=
  let run := cs.takeWhile Char.isDigit
  if run.isEmpty then none else some (run, cs.dropWhile Char.isDigit)

/-- The digits before the point: a zero, or a run that starts with no zero. -/
def whole? (cs : List Char) : Option (List Char × List Char) :=
  match digits? cs with
  | some ('0' :: _ :: _, _) => none
  | other => other

/-- The digits after the point, none when there is no point. -/
def fraction? : List Char → Option (List Char × List Char)
  | '.' :: cs => digits? cs
  | cs => some ([], cs)

/-- The sign and the digits of the exponent, when there is one. -/
def exponent? : List Char → Option (Option (Bool × List Char) × List Char)
  | [] => some (none, [])
  | c :: cs =>
    if c = 'e' || c = 'E' then
      let (negative, cs) := match cs with
        | '-' :: cs => (true, cs)
        | '+' :: cs => (false, cs)
        | cs => (false, cs)
      (digits? cs).map fun (digits, rest) => (some (negative, digits), rest)
    else some (none, c :: cs)

/-- The longest number at the front, and what follows it. -/
def literal? (cs : List Char) : Option (Literal × List Char) := do
  let (negative, cs) := match cs with
    | '-' :: cs => (true, cs)
    | cs => (false, cs)
  let (whole, cs) ← whole? cs
  let (fraction, cs) ← fraction? cs
  let (exponent, cs) ← exponent? cs
  return (⟨negative, whole, fraction, exponent⟩, cs)

/-- The tokens of a run of number characters. What follows a number directly is bad. -/
def numberTokens (cs : List Char) : List Token :=
  match literal? cs with
  | none => [.bad]
  | some (l, []) => [.number l]
  | some (l, _ :: _) => [.number l, .bad]

/-! ## The scanner -/

/-- What the characters since the last token may still become. -/
inductive Mode
  /-- Nothing has begun. -/
  | between
  /-- A word, of which these characters must follow. -/
  | word (rest : List Char) (token : Token)
  /-- A number, of which these characters are read, latest first. -/
  | number (read : List Char)
  /-- A string, of which these code points are read, latest first. -/
  | string (read : List Nat)
  /-- The character after a backslash. -/
  | escape (read : List Nat)
  /-- The digits of a hexadecimal escape, of which some are still to come. -/
  | hex (read : List Nat) (left : Nat) (value : Nat)
  /-- A bad token was read. -/
  | stopped

/-- The tokens read so far, latest first, and the mode. -/
structure Scanner where
  mode : Mode := .between
  tokens : List Token := []

namespace Scanner

/-- A token ends here. -/
def emit (s : Scanner) (t : Token) : Scanner := ⟨.between, t :: s.tokens⟩

/-- The text is malformed here. -/
def stop (s : Scanner) : Scanner := ⟨.stopped, .bad :: s.tokens⟩

/-- Go on in another mode. -/
def turn (s : Scanner) (m : Mode) : Scanner := ⟨m, s.tokens⟩

/-- Read a character with which a token may begin. -/
def start (s : Scanner) (c : Char) : Scanner :=
  match c with
  | ' ' | '\t' | '\n' | '\r' => s
  | '{' => s.emit .openBrace
  | '}' => s.emit .closeBrace
  | '[' => s.emit .openBracket
  | ']' => s.emit .closeBracket
  | ',' => s.emit .comma
  | ':' => s.emit .colon
  | '"' => s.turn (.string [])
  | 'n' => s.turn (.word ['u', 'l', 'l'] .null)
  | 't' => s.turn (.word ['r', 'u', 'e'] (.bool true))
  | 'f' => s.turn (.word ['a', 'l', 's', 'e'] (.bool false))
  | c => if c = '-' || c.isDigit then s.turn (.number [c]) else s.stop

/-- A run of number characters ends here. -/
def endNumber (s : Scanner) (read : List Char) : Scanner :=
  match numberTokens read.reverse with
  | [t] => s.emit t
  | ts => ⟨.stopped, ts.reverse ++ s.tokens⟩

/-- Read one character. -/
def step (s : Scanner) (c : Char) : Scanner :=
  match s.mode with
  | .between => s.start c
  | .word [] t => (s.emit t).start c
  | .word [d] t => if c = d then s.emit t else s.stop
  | .word (d :: ds) t => if c = d then s.turn (.word ds t) else s.stop
  | .number read =>
    if isNumberChar c then s.turn (.number (c :: read))
    else
      let ended := s.endNumber read
      match ended.mode with
      | .between => ended.start c
      | _ => ended
  | .string read =>
    if c = '"' then s.emit (.string ((scalars? read.reverse).map String.ofList))
    else if c = '\\' then s.turn (.escape read)
    else if c.toNat < 0x20 then s.stop
    else s.turn (.string (c.toNat :: read))
  | .escape read =>
    if c = 'u' then s.turn (.hex read 4 0)
    else match escaped? c with
      | some n => s.turn (.string (n :: read))
      | none => s.stop
  | .hex read left value =>
    match hexValue? c with
    | none => s.stop
    | some d =>
      let value := 16 * value + d
      if left ≤ 1 then s.turn (.string (value :: read)) else s.turn (.hex read (left - 1) value)
  | .stopped => s

/-- All tokens, in order, once the text is at its end. -/
def finish (s : Scanner) : List Token :=
  let s := match s.mode with
    | .between | .stopped => s
    | .number read => s.endNumber read
    | _ => s.stop
  s.tokens.reverse

end Scanner

/-- The tokens of a text. -/
def tokens (text : List Char) : List Token := (text.foldl Scanner.step {}).finish

end SodiumDecl.Json
