/-!
# Searching in texts

`occurs` finds a text inside another. `pieces` cuts a text at the occurrences of another,
found from left to right without overlap, and `substitute` puts a text in their place.
-/

namespace SodiumDecl.Text

/-- The characters of `needle` stand together somewhere in a text. -/
def occurs (needle : List Char) : List Char → Bool
  | [] => needle.isEmpty
  | c :: cs => needle.isPrefixOf (c :: cs) || occurs needle cs

theorem occurs_iff {needle text : List Char} : occurs needle text = true ↔ needle <:+: text := by
  induction text with
  | nil => rw [occurs, List.isEmpty_iff, List.infix_nil]
  | cons c cs ih =>
    rw [occurs, Bool.or_eq_true, List.isPrefixOf_iff_prefix, ih, List.infix_cons_iff]

/-- What stands before, between and after the occurrences of `needle`, where the first
`skip` characters belong to an occurrence that was found before. -/
def pieces (needle : List Char) : Nat → List Char → List (List Char)
  | _, [] => [[]]
  | skip + 1, _ :: cs => pieces needle skip cs
  | 0, c :: cs =>
    if needle.isPrefixOf (c :: cs) then [] :: pieces needle (needle.length - 1) cs
    else (pieces needle 0 cs).modifyHead (c :: ·)

/-- Put `value` in the place of each occurrence of a non-empty `needle`. -/
def substitute (needle value text : String) : String :=
  String.ofList (value.toList.intercalate (pieces needle.toList 0 text.toList))

/-- A text stands inside another. -/
def contains (needle text : String) : Bool := occurs needle.toList text.toList

theorem contains_iff {needle text : String} :
    contains needle text = true ↔ needle.toList <:+: text.toList := occurs_iff

end SodiumDecl.Text
