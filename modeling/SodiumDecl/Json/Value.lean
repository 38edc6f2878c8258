import SodiumDecl.Json.Tree

/-!
# Values

`Value` is a JSON value without its spelling: the members of an object are sorted by key
and each key stands once. `Tree.value?` takes a tree to its value, the last of two equal
keys winning, if arrays and objects are nested no deeper than a given limit. `Value.tree`
is a tree of the value again, and `Value.text` its text without blanks.
-/

namespace SodiumDecl.Json

/-- A JSON value. -/
inductive Value
  | null
  | bool (value : Bool)
  | number (value : Number)
  | string (text : String)
  | array (elems : List Value)
  | object (members : List (String × Value))

/-- Set one member among members sorted by key. -/
def insertMember (k : String) (v : Value) : List (String × Value) → List (String × Value)
  | [] => [(k, v)]
  | m :: ms =>
    if k < m.1 then (k, v) :: m :: ms
    else if k = m.1 then (k, v) :: ms
    else m :: insertMember k v ms

/-- The object with these members, the last of two equal keys winning. -/
def Value.ofMembers (members : List (String × Value)) : Value :=
  .object (members.foldl (fun ms m => insertMember m.1 m.2 ms) [])

/-- The member of an object at a key. -/
def Value.member? (v : Value) (k : String) : Option Value :=
  match v with
  | .object ms => ms.lookup k
  | _ => none

/-- The text of a string value. -/
def Value.string? : Value → Option String
  | .string s => some s
  | _ => none

/-! ## From and to trees -/

/-- How deep arrays and objects may be nested in a text that is read as a value. -/
def nestingLimit : Nat := 127

mutual
/-- The value of a tree whose nesting stays within the limit. -/
def Tree.value? : Nat → Tree → Option Value
  | _, .null => some .null
  | _, .bool b => some (.bool b)
  | _, .number n => n.map .number
  | _, .string s => s.map .string
  | n + 1, .array ts true => (Tree.values? n ts).map .array
  | n + 1, .object ms true => (Tree.members? n ms).map .ofMembers
  | _, _ => none

/-- The values of the elements of an array. -/
def Tree.values? : Nat → List Tree → Option (List Value)
  | _, [] => some []
  | n, t :: ts => do
    let v ← t.value? n
    return v :: (← Tree.values? n ts)

/-- The members of an object, in the order of the tree. -/
def Tree.members? : Nat → List (Option String × Tree) → Option (List (String × Value))
  | _, [] => some []
  | _, (none, _) :: _ => none
  | n, (some k, t) :: ms => do
    let v ← t.value? n
    return (k, v) :: (← Tree.members? n ms)
end

/-- The value of a whole text. -/
def value? (text : String) : Option Value :=
  let r := read text
  if r.trailing then none else r.root.value? nestingLimit

mutual
/-- The tree of a value. -/
def Value.tree : Value → Tree
  | .null => .null
  | .bool b => .bool b
  | .number n => .number (some n)
  | .string s => .string (some s)
  | .array vs => .array (Value.trees vs) true
  | .object ms => .object (Value.memberTrees ms) true

/-- The trees of the elements of an array. -/
def Value.trees : List Value → List Tree
  | [] => []
  | v :: vs => v.tree :: Value.trees vs

/-- The trees of the members of an object. -/
def Value.memberTrees : List (String × Value) → List (Option String × Tree)
  | [] => []
  | (k, v) :: ms => (some k, v.tree) :: Value.memberTrees ms
end

/-! ## Text -/

/-- A character inside a string: the quote, the backslash and the control characters below
the blank are escaped. -/
def escape (c : Char) : List Char :=
  if c = '"' then ['\\', '"']
  else if c = '\\' then ['\\', '\\']
  else if c = '\n' then ['\\', 'n']
  else if c = '\r' then ['\\', 'r']
  else if c = '\t' then ['\\', 't']
  else if c.toNat = 0x08 then ['\\', 'b']
  else if c.toNat = 0x0C then ['\\', 'f']
  else if c.toNat < 0x20 then
    ['\\', 'u', '0', '0', Nat.digitChar (c.toNat / 16), Nat.digitChar (c.toNat % 16)]
  else [c]

/-- The text of a string, between quotes. -/
def stringText (s : String) : List Char := '"' :: s.toList.flatMap escape ++ ['"']

mutual
/-- The text of a value. -/
def Value.chars : Value → List Char
  | .null => ['n', 'u', 'l', 'l']
  | .bool true => ['t', 'r', 'u', 'e']
  | .bool false => ['f', 'a', 'l', 's', 'e']
  | .number n => n.text
  | .string s => stringText s
  | .array [] => ['[', ']']
  | .array (v :: vs) => '[' :: v.chars ++ Value.elemChars vs ++ [']']
  | .object [] => ['{', '}']
  | .object ((k, v) :: ms) => '{' :: stringText k ++ ':' :: v.chars ++ Value.memberChars ms ++ ['}']

/-- The text of the elements after the first, each after a comma. -/
def Value.elemChars : List Value → List Char
  | [] => []
  | v :: vs => ',' :: v.chars ++ Value.elemChars vs

/-- The text of the members after the first, each after a comma. -/
def Value.memberChars : List (String × Value) → List Char
  | [] => []
  | (k, v) :: ms => ',' :: stringText k ++ ':' :: v.chars ++ Value.memberChars ms
end

/-- The text of a value. -/
def Value.text (v : Value) : String := String.ofList v.chars

end SodiumDecl.Json
