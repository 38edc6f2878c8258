import SodiumDecl.Text.CaseTable

/-!
# Lower-casing

`lowercase` maps a text to lower case by the rules of Unicode that depend on no language:
each character has its own mapping, `İ` becomes two characters, and a capital sigma
becomes `ς` at the end of a word and `σ` elsewhere. A word ends where a letter stands
before the sigma and none after it, the characters of `caseIgnorable` not counted.
-/

namespace SodiumDecl.Text

/-- Membership in a table of intervals of code points. -/
def inTable (table : List (Nat × Nat)) (c : Char) : Bool :=
  table.any fun r => r.1 ≤ c.toNat && c.toNat ≤ r.2

/-- The nearest character that counts is a letter with case. -/
def startsCased (cs : List Char) : Bool :=
  match cs.dropWhile (inTable caseIgnorable) with
  | [] => false
  | c :: _ => inTable cased c

/-- The lower-case form of one character, the sigma rule aside. -/
def lowerChar (c : Char) : List Char :=
  if c.toNat < 0x80 then [c.toLower]
  else if c = 'İ' then ['i', Char.ofNat 0x307]
  else match lowerRuns.find? (·.covers c.toNat) with
    | some r => [Char.ofNat (c.toNat + r.shift).toNat]
    | none => [c]

/-- Lower-case `cs`, where `before` holds the characters passed so far, nearest first. -/
def lowerFrom (before : List Char) : List Char → List Char
  | [] => []
  | c :: cs =>
    (if c = 'Σ' then [if startsCased before && !startsCased cs then 'ς' else 'σ'] else lowerChar c)
      ++ lowerFrom (c :: before) cs

/-- The lower-case form of a text. -/
def lowercase (s : String) : String := String.ofList (lowerFrom [] s.toList)

end SodiumDecl.Text
