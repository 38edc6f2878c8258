/-!
# Invocations

What the arguments of the command line ask for. Options take a value, in the next argument
or attached to the option, and each may be given once. Flags may share one argument, and
an option may end it. The first argument that is out of place, or that asks for help or
the version, decides before the rest is looked at.
-/

namespace SodiumDecl.CommandLine

/-- The options that take a value. -/
inductive Name
  | output
  | base
  | release
  | minimum
  | config
  deriving DecidableEq, Repr

/-- The option is a path, which may not be empty. -/
def Name.isPath : Name → Bool
  | .output | .base | .config => true
  | .release | .minimum => false

/-- The option of a long name. -/
def Name.ofLong? (name : String) : Option Name :=
  [("output", .output), ("base", .base), ("setversion", .release), ("min-version", .minimum),
    ("config", .config)].lookup name

/-- The option of a letter. -/
def Name.ofLetter? (c : Char) : Option Name :=
  [('o', .output), ('b', .base), ('v', .release)].lookup c

/-- The values of the options, and the flag of the extended build. -/
structure Settled where
  values : List (Name × String) := []
  extended : Bool := false
  deriving DecidableEq, Repr

/-- What is asked for: declarations into an output, help, the version, or nothing that the
command line allows. -/
inductive Invocation
  | generate (output : String) (settled : Settled)
  | help
  | version
  | usageError
  deriving DecidableEq, Repr

/-- An argument by its form. -/
inductive Word
  | terminator
  | long (name : String) (value : Option String)
  | letters (cs : List Char)
  | plain (text : String)

/-- The form of an argument. A single dash is plain. -/
def Word.of (arg : String) : Word :=
  match arg.toList with
  | ['-', '-'] => .terminator
  | '-' :: '-' :: cs =>
    let name := String.ofList (cs.takeWhile (· ≠ '='))
    match cs.dropWhile (· ≠ '=') with
    | [] => .long name none
    | _ :: value => .long name (some (String.ofList value))
  | '-' :: c :: cs => .letters (c :: cs)
  | _ => .plain arg

namespace Settled

/-- Give an option its value. -/
def assign (s : Settled) (n : Name) (value : String) : Except Invocation Settled :=
  if (s.values.lookup n).isSome || (n.isPath && value.isEmpty) then .error .usageError
  else .ok { s with values := s.values ++ [(n, value)] }

/-- Ask for the extended build. -/
def extend (s : Settled) : Except Invocation Settled :=
  if s.extended then .error .usageError else .ok { s with extended := true }

/-- Read letters. An option at their end without a value waits for one. -/
def letters (s : Settled) : List Char → Except Invocation (Settled × Option Name)
  | [] => .ok (s, none)
  | c :: cs =>
    if c = 's' then do letters (← s.extend) cs
    else if c = 'h' then .error .help
    else if c = 'V' then .error .version
    else match Name.ofLetter? c, cs with
      | none, _ => .error .usageError
      | some n, [] => .ok (s, some n)
      | some n, '=' :: value => do return (← s.assign n (String.ofList value), none)
      | some n, value => do return (← s.assign n (String.ofList value), none)

/-- Read a long option or flag. An option without a value waits for one. -/
def long (s : Settled) (name : String) (value : Option String) :
    Except Invocation (Settled × Option Name) :=
  match Name.ofLong? name, value with
  | some n, none => .ok (s, some n)
  | some n, some v => do return (← s.assign n v, none)
  | none, some _ => .error .usageError
  | none, none =>
    if name = "sumo" then do return (← s.extend, none)
    else if name = "help" then .error .help
    else if name = "version" then .error .version
    else .error .usageError

/-- All arguments are read. The output has to be given. -/
def finish (s : Settled) : Invocation :=
  match s.values.lookup .output with
  | some o => .generate o s
  | none => .usageError

/-- Read the arguments, where an option may wait for its value. -/
def read (s : Settled) : Option Name → List String → Except Invocation Settled
  | none, [] => .ok s
  | some _, [] => .error .usageError
  | some n, a :: as =>
    match Word.of a with
    | .plain text => do (← s.assign n text).read none as
    | _ => .error .usageError
  | none, a :: as =>
    match Word.of a with
    | .terminator => if as.isEmpty then .ok s else .error .usageError
    | .plain _ => .error .usageError
    | .letters cs => do
      let (s, waiting) ← s.letters cs
      s.read waiting as
    | .long name value => do
      let (s, waiting) ← s.long name value
      s.read waiting as

end Settled

/-- What the arguments ask for. -/
def Invocation.ofArguments (args : List String) : Invocation :=
  match Settled.read {} none args with
  | .ok s => s.finish
  | .error i => i

end SodiumDecl.CommandLine
