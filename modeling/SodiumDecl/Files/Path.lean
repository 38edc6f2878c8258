/-!
# Paths

A path is kept as it is written, so that reports show it unchanged. Joining puts a slash
between two paths unless one stands there or the left one is empty, and an absolute right
path replaces the left one.
-/

namespace SodiumDecl

/-- A path. -/
structure Path where
  text : String
  deriving DecidableEq, Repr

namespace Path

/-- The path starts at the root. -/
def isAbsolute (p : Path) : Bool := p.text.toList.head? = some '/'

/-- The path ends in a slash. -/
def endsInSlash (p : Path) : Bool := p.text.toList.getLast? = some '/'

/-- The path has a null character, which no name can have. -/
def hasNull (p : Path) : Bool := p.text.toList.contains (Char.ofNat 0)

/-- A text that an entry can have as its name: `.` and `..` lead elsewhere, and a slash or a
null character never gets into a name. -/
def IsName (n : String) : Prop :=
  n ≠ "" ∧ n ≠ "." ∧ n ≠ ".." ∧ '/' ∉ n.toList ∧ Char.ofNat 0 ∉ n.toList

instance (n : String) : Decidable (IsName n) := inferInstanceAs (Decidable (_ ∧ _ ∧ _ ∧ _ ∧ _))

/-- The path `s` below the path `p`. -/
def join (p : Path) (s : String) : Path :=
  if (Path.mk s).isAbsolute then ⟨s⟩
  else if p.text.isEmpty || p.endsInSlash then ⟨p.text ++ s⟩
  else ⟨p.text ++ "/" ++ s⟩

instance : HDiv Path String Path := ⟨join⟩

/-- The names between the slashes, the empty ones left out. -/
def names (p : Path) : List String :=
  ((p.text.toList.splitOn '/').filter (!·.isEmpty)).map String.ofList

/-- The last name of a path, unless the path leads elsewhere. -/
def fileName? (p : Path) : Option String :=
  ((p.names.filter (· ≠ ".")).getLast?).filter (· ≠ "..")

/-- The path from the root, or from the working directory, along some names. -/
def ofComponents (absolute : Bool) (names : List String) : Path :=
  ⟨(if absolute then "/" else "") ++ "/".intercalate names⟩

/-- A piece between slashes that leads nowhere. -/
def isVoid (piece : List Char) : Bool := piece.isEmpty || piece = ['.']

/-- The pieces up to the last one that leads somewhere. -/
def trimVoid (pieces : List (List Char)) : List (List Char) :=
  (pieces.reverse.dropWhile isVoid).reverse

/-- The path in front of the last component, if it has one. Slashes and pieces `.` that are
last then go away, but a piece `.` at the front of a relative path is a component. -/
def parent? (p : Path) : Option Path :=
  let pieces := p.text.toList.splitOn '/'
  let front := pieces.take 1
  let (front, body) := if front.any isVoid then (front, pieces.drop 1) else ([], pieces)
  match trimVoid body with
  | [] => if front = [['.']] then some ⟨""⟩ else none
  | rest =>
    let kept := front ++ trimVoid rest.dropLast
    some ⟨if kept = [[]] then "/" else String.ofList (['/'].intercalate kept)⟩

/-- The directory in which the last component stands. For a single name it is the working
directory. -/
def directory (p : Path) : Path :=
  match p.parent? with
  | some ⟨""⟩ | none => ⟨"."⟩
  | some d => d

end Path

end SodiumDecl
