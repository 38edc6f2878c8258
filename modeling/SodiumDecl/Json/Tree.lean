import SodiumDecl.Json.Token

/-!
# Trees

`Tree` is what the tokens of a text say up to the first place where the text is not JSON.
Arrays and objects record whether their end was reached, and a member or a text without a
readable value has the value `broken`, so a reader of the tree meets the faults of the
text in the order in which they stand there. Members keep their order and may repeat a key.

`read` builds the tree with an explicit stack of the arrays and objects that are still
open, one token at a time, so nesting has no limit here.
-/

namespace SodiumDecl.Json

/-- A value as it is written. A number is absent when no double holds it, a string when it
names no text. -/
inductive Tree
  | null
  | bool (value : Bool)
  | number (value : Option Number)
  | string (text : Option String)
  | array (elems : List Tree) (closed : Bool)
  | object (members : List (Option String × Tree)) (closed : Bool)
  | broken

/-- The value is JSON to its end. -/
def Tree.isIntact : Tree → Bool
  | .array _ closed => closed
  | .object _ closed => closed
  | .broken => false
  | _ => true

/-- A text as read: its first value, and whether more follows it. -/
structure Reading where
  root : Tree
  trailing : Bool

/-- An open array or object, its elements or members latest first. In `member` the value
of a key is still to come. -/
inductive Frame
  | array (elems : List Tree)
  | object (members : List (Option String × Tree))
  | member (members : List (Option String × Tree)) (key : Option String)

/-- What may come next inside the innermost frame. -/
inductive Expect
  | value
  | valueOrEnd
  | key
  | keyOrEnd
  | colon
  | more
  deriving DecidableEq

/-- How far a text is read. -/
inductive Builder
  /-- Inside the frames, innermost first. -/
  | inside (stack : List Frame) (expect : Expect)
  /-- The first value is read and nothing followed it. -/
  | complete (root : Tree)
  /-- No more tokens count. -/
  | over (reading : Reading)

/-- The value of an open frame, `last` being its latest value. -/
def Frame.cut (last : Option Tree) : Frame → Tree
  | .array elems => .array (last.toList ++ elems).reverse false
  | .object members => .object members.reverse false
  | .member members key => .object ((key, last.getD .broken) :: members).reverse false

namespace Builder

/-- The value of a text that is malformed inside the frames. -/
def collapse (last : Option Tree) : List Frame → Tree
  | [] => last.getD .broken
  | f :: fs => collapse (some (f.cut last)) fs

/-- The text is malformed here. -/
def fail (stack : List Frame) : Builder := .over ⟨collapse none stack, false⟩

/-- A value ends here. -/
def supply (t : Tree) : List Frame → Builder
  | [] => .complete t
  | .array elems :: fs => .inside (.array (t :: elems) :: fs) .more
  | .member members key :: fs => .inside (.object ((key, t) :: members) :: fs) .more
  | .object members :: fs => fail (.object members :: fs)

/-- The innermost array ends here. -/
def endArray : List Frame → Builder
  | .array elems :: fs => supply (.array elems.reverse true) fs
  | fs => fail fs

/-- The innermost object ends here. -/
def endObject : List Frame → Builder
  | .object members :: fs => supply (.object members.reverse true) fs
  | fs => fail fs

/-- A value begins here. -/
def value (stack : List Frame) : Token → Builder
  | .null => supply .null stack
  | .bool b => supply (.bool b) stack
  | .number l => supply (.number l.number?) stack
  | .string s => supply (.string s) stack
  | .openBracket => .inside (.array [] :: stack) .valueOrEnd
  | .openBrace => .inside (.object [] :: stack) .keyOrEnd
  | _ => fail stack

/-- A key stands here. -/
def key : List Frame → Token → Builder
  | .object members :: fs, .string s => .inside (.member members s :: fs) .colon
  | fs, _ => fail fs

/-- A comma stands here. -/
def next : List Frame → Builder
  | .array elems :: fs => .inside (.array elems :: fs) .value
  | .object members :: fs => .inside (.object members :: fs) .key
  | fs => fail fs

/-- Read one token. -/
def step : Builder → Token → Builder
  | .over r, _ => .over r
  | .complete root, _ => .over ⟨root, true⟩
  | .inside stack .value, t => value stack t
  | .inside stack .valueOrEnd, t =>
    match t with
    | .closeBracket => endArray stack
    | t => value stack t
  | .inside stack .key, t => key stack t
  | .inside stack .keyOrEnd, t =>
    match t with
    | .closeBrace => endObject stack
    | t => key stack t
  | .inside stack .colon, t =>
    match t with
    | .colon => .inside stack .value
    | _ => fail stack
  | .inside stack .more, t =>
    match t with
    | .comma => next stack
    | .closeBracket => endArray stack
    | .closeBrace => endObject stack
    | _ => fail stack

/-- The tokens are at their end. -/
def finish : Builder → Reading
  | .over r => r
  | .complete root => ⟨root, false⟩
  | .inside stack _ => ⟨collapse none stack, false⟩

end Builder

/-- The tree of a text. -/
def read (text : String) : Reading :=
  ((tokens text.toList).foldl Builder.step (.inside [] .value)).finish

end SodiumDecl.Json
