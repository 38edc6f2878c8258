import SodiumDecl.Toml.Scalar
import SodiumDecl.Toml.Table

/-!
# Reading TOML

`read?` takes a text to the members of its top table, or to nothing if the text is not
TOML 1.0. Arrays and inline tables may be nested and keys dotted up to a limit.

A reader is a function on the characters that are left. The readers of nested values count
down a number that starts above the length of the text, and so end on every text.
-/

namespace SodiumDecl.Toml

/-- A reader of a part of the text. It gives the characters that are left. -/
abbrev Reader := StateT (List Char) Option

namespace Reader

/-- The next character, which stays. -/
def peek? : Reader (Option Char) := return (← get).head?

/-- Pass a text if it comes next. -/
def pass? (text : List Char) : Reader Bool := do
  let cs ← get
  if text.isPrefixOf cs then
    set (cs.drop text.length)
    return true
  else return false

/-- Pass a text that has to come next. -/
def pass (text : List Char) : Reader Unit := do
  guard (← pass? text)

/-- Pass the longest run of characters of a kind. -/
def span (kind : Char → Bool) : Reader (List Char) := do
  let cs ← get
  set (cs.dropWhile kind)
  return cs.takeWhile kind

end Reader

open Reader

/-! ## Blanks, comments and line ends -/

/-- A blank inside a line. -/
def isBlank (c : Char) : Bool := c = ' ' || c = '\t'

/-- A character that may stand in texts and comments: no control character but the tab. -/
def isShown (c : Char) : Bool := c = '\t' || (0x20 ≤ c.toNat && c.toNat ≠ 0x7F)

/-- Pass blanks. -/
def blanks : Reader Unit := do
  let _ ← span isBlank

/-- Pass a line end, if one comes next. -/
def lineEnd? : Reader Bool := do
  if ← pass? ['\n'] then return true else pass? ['\r', '\n']

/-- Pass a comment, if one comes next. -/
def comment : Reader Unit := do
  if ← pass? ['#'] then
    let _ ← span isShown

/-- Pass what may follow on a line, and its end. -/
def restOfLine : Reader Unit := do
  blanks
  comment
  if (← get).isEmpty then return () else guard (← lineEnd?)

/-- Pass blanks, comments and line ends, at most `fuel` of them. -/
def gap : Nat → Reader Unit
  | 0 => return ()
  | fuel + 1 => do
    blanks
    comment
    if ← lineEnd? then gap fuel else return ()

/-! ## Texts -/

/-- The character of hexadecimal digits, if it is one. -/
def hexChar? (cs : List Char) (width : Nat) : Option Char :=
  let n := digitsValue 16 cs
  if cs.length = width && cs.all (isDigitOf 16) && Nat.isValidChar n then some (Char.ofNat n)
  else none

/-- The character of a hexadecimal escape with `width` digits. -/
def hexEscape (width : Nat) : Reader Char := do
  let cs ← get
  set (cs.drop width)
  match hexChar? (cs.take width) width with
  | some c => return c
  | none => failure

/-- The character that an escape names, behind its backslash. -/
def escape : Reader Char := do
  match ← get with
  | [] => failure
  | c :: rest =>
    set rest
    match c with
    | 'b' => return Char.ofNat 0x08
    | 't' => return '\t'
    | 'n' => return '\n'
    | 'f' => return Char.ofNat 0x0C
    | 'r' => return '\r'
    | '"' => return '"'
    | '\\' => return '\\'
    | 'u' => hexEscape 4
    | 'U' => hexEscape 8
    | _ => failure

/-- The rest of a text in double quotes. -/
def basicText : Nat → Reader (List Char)
  | 0 => failure
  | fuel + 1 => do
    if ← pass? ['"'] then return []
    if ← pass? ['\\'] then
      let c ← escape
      return c :: (← basicText fuel)
    match ← get with
    | [] => failure
    | c :: rest =>
      guard (isShown c)
      set rest
      return c :: (← basicText fuel)

/-- The rest of a text in single quotes. -/
def literalText : Reader (List Char) := do
  let text ← span fun c => isShown c && c ≠ '\''
  pass ['\'']
  return text

/-- How many of a run of quotes belong to the text before its end, if the run ends it. A
run of one or two quotes does not, and a text ends in at most two quotes of its own. -/
def quotesBeforeEnd? (run : Nat) : Option (Option Nat) :=
  if run < 3 then some none else if run ≤ 5 then some (some (run - 3)) else none

/-- What follows the blanks and line ends at the front. -/
def afterBlankLines : List Char → List Char
  | '\r' :: '\n' :: cs => afterBlankLines cs
  | c :: cs => if isBlank c || c = '\n' then afterBlankLines cs else c :: cs
  | [] => []

/-- Pass the blanks and line ends behind a backslash, if it ends its line. -/
def foldedLine? : Reader Bool := do
  let cs ← get
  blanks
  if ← lineEnd? then
    modify afterBlankLines
    return true
  else
    set cs
    return false

/-- The rest of a text of several lines between three quotes. Only double quotes allow
escapes. -/
def longText (quote : Char) : Nat → Reader (List Char)
  | 0 => failure
  | fuel + 1 => do
    match ← get with
    | [] => failure
    | c :: rest =>
      if c = quote then
        let quotes ← span (· = quote)
        match quotesBeforeEnd? quotes.length with
        | none => failure
        | some (some own) => return List.replicate own quote
        | some none => return quotes ++ (← longText quote fuel)
      else if c = '\\' && quote = '"' then
        set rest
        if ← foldedLine? then longText quote fuel
        else
          let d ← escape
          return d :: (← longText quote fuel)
      else if ← lineEnd? then return '\n' :: (← longText quote fuel)
      else
        guard (isShown c)
        set rest
        return c :: (← longText quote fuel)

/-- A text of one line. -/
def shortString : Reader String := do
  if ← pass? ['"'] then
    return String.ofList (← basicText ((← get).length + 1))
  else
    pass ['\'']
    return String.ofList (← literalText)

/-- A text. A line end just behind the opening quotes does not belong to it. -/
def anyString : Reader String := do
  if ← pass? ['"', '"', '"'] then
    let _ ← lineEnd?
    return String.ofList (← longText '"' ((← get).length + 1))
  else if ← pass? ['\'', '\'', '\''] then
    let _ ← lineEnd?
    return String.ofList (← longText '\'' ((← get).length + 1))
  else shortString

/-! ## Keys -/

/-- A character of a key without quotes. -/
def isBare (c : Char) : Bool := c.isAlphanum || c = '_' || c = '-'

/-- A part of a key. -/
def simpleKey : Reader String := do
  match ← peek? with
  | some c =>
    if c = '"' || c = '\'' then shortString
    else
      let name ← span isBare
      guard !name.isEmpty
      return String.ofList name
  | none => failure

/-- The parts of a key, at most `fuel` of them. -/
def keyParts : Nat → Reader (List String)
  | 0 => failure
  | fuel + 1 => do
    blanks
    let k ← simpleKey
    blanks
    if ← pass? ['.'] then return k :: (← keyParts fuel) else return [k]

/-- How deep values may be nested and how many parts a key may have. -/
def depthLimit : Nat := 79

/-- A key: the parts before its last one, and the last one. -/
def key : Reader (List String × String) := do
  let parts ← keyParts depthLimit
  match parts.getLast? with
  | some k => return (parts.dropLast, k)
  | none => failure

/-! ## Values -/

/-- A character that ends a value without quotes. -/
def endsScalar (c : Char) : Bool := c ∈ [' ', '\t', '\n', '\r', '#', ',', ']', '}']

/-- A number, a truth value, a date or a time. A blank may stand between a date and a time
of day. -/
def scalar : Reader Node := do
  let word ← span (!endsScalar ·)
  guard (isScalar word)
  if isDate word then
    let cs ← get
    match cs with
    | ' ' :: rest =>
      if isOffsetTime (rest.takeWhile (!endsScalar ·)) then
        set (rest.dropWhile (!endsScalar ·))
    | _ => pure ()
  return .other

mutual
/-- A value, with `room` for arrays and inline tables around each other. -/
def value : Nat → Nat → Reader Node
  | 0, _ => failure
  | fuel + 1, room => do
    match ← peek? with
    | none => failure
    | some c =>
      if c = '"' || c = '\'' then return .text (← anyString)
      else if c = '[' then
        pass ['[']
        guard (0 < room)
        elements fuel (room - 1)
        return .other
      else if c = '{' then
        pass ['{']
        guard (0 < room)
        blanks
        if ← pass? ['}'] then return .other
        let _ ← pairs fuel (room - 1) []
        return .other
      else scalar

/-- The rest of an array. -/
def elements : Nat → Nat → Reader Unit
  | 0, _ => failure
  | fuel + 1, room => do
    gap fuel
    if ← pass? [']'] then return ()
    let _ ← value fuel room
    gap fuel
    if ← pass? [','] then elements fuel room else pass [']']

/-- The rest of an inline table, which stays on its line, with the members before it. -/
def pairs : Nat → Nat → Members → Reader Members
  | 0, _, _ => failure
  | fuel + 1, room, ms => do
    let (path, k) ← key
    pass ['=']
    blanks
    let v ← value fuel room
    blanks
    match addDotted k v path ms with
    | none => failure
    | some ms =>
      if ← pass? [','] then pairs fuel room ms
      else
        pass ['}']
        return ms
end

/-! ## Documents -/

/-- The members of the top table, and the header under which keys are added. -/
structure State where
  top : Members
  header : List String

/-- A header behind its first bracket. -/
def header (s : State) : Reader State := do
  let isElement ← pass? ['[']
  let (path, k) ← key
  pass (if isElement then [']', ']'] else [']'])
  restOfLine
  match alongHeader (if isElement then openElement k else openTable k) path s.top with
  | some top => return ⟨top, path ++ [k]⟩
  | none => failure

/-- A key with its value. -/
def keyValue (fuel : Nat) (s : State) : Reader State := do
  let (path, k) ← key
  pass ['=']
  blanks
  let v ← value fuel depthLimit
  restOfLine
  match alongHeader (addDotted k v path) s.header s.top with
  | some top => return { s with top }
  | none => failure

/-- The lines of a document. -/
def lines : Nat → State → Reader State
  | 0, s => return s
  | fuel + 1, s => do
    blanks
    comment
    if (← get).isEmpty then return s
    else if ← lineEnd? then lines fuel s
    else if ← pass? ['['] then lines fuel (← header s)
    else lines fuel (← keyValue fuel s)

/-- The members of the top table of a text. A byte order mark may stand before it. -/
def read? (text : String) : Option Members :=
  let cs := text.toList
  let cs := if cs.head? = some (Char.ofNat 0xFEFF) then cs.drop 1 else cs
  match (lines (cs.length + 2) ⟨[], []⟩).run cs with
  | some (s, []) => some s.top
  | _ => none

end SodiumDecl.Toml
