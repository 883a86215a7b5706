import SheetLint.CommandLine.Options

/-!
# Arguments

Arguments are read from left to right. A value is looked at when the argument behind it is read, or
at once if it is attached to its switch; an unknown switch is reported before a value that waits.
-/

namespace SheetLint.CommandLine

/-- What waits to be looked at: a switch, perhaps with its value, or paths. -/
inductive Pending where
  | nothing
  | switch (s : Switch) (value : Option String)
  | paths (values : List String)

/-- What has been read: the options so far, the switches that were given, and what waits. -/
structure Reading where
  options : Options
  given : List Switch
  pending : Pending

namespace Reading

/-- Nothing has been read. -/
def initial : Reading := ⟨{}, [], .nothing⟩

/-- Notes that a switch is given. Most switches are given at most once. -/
def note (r : Reading) (s : Switch) : Except Usage Reading :=
  if !s.repeats && r.given.contains s then .error .repeatedArgument
  else .ok { r with given := s :: r.given, pending := .nothing }

/-- The options with one more value. -/
def withValue (o : Options) (s : Switch) (value : String) : Except Usage Options :=
  match s with
  | .config =>
    if value = "" then .error .invalidValue
    else .ok { o with config := some (Path.ofString value) }
  | .exclude => .ok { o with exclude := o.exclude ++ [value] }
  | .linter => .ok { o with linters := o.linters ++ [value] }
  | .reporter =>
    match Format.words.lookup value with
    | some format => .ok { o with format := format }
    | none => .error .invalidValue
  | .color =>
    match ColorChoice.words.lookup value with
    | some color => .ok { o with color := color }
    | none => .error .invalidValue
  | .maxWarnings =>
    match Budget.parse value with
    | .ok budget => .ok { o with budget := budget }
    | .error _ => .error .rejectedValue
  | .verbose | .help | .version => .error .needlessValue

/-- Takes a switch with its value. -/
def takeValue (r : Reading) (s : Switch) (value : String) : Except Usage Reading := do
  let r ← r.note s
  let options ← withValue r.options s value
  return { r with options := options }

/-- Takes a switch that stands alone. -/
def takeFlag (r : Reading) (s : Switch) : Except Usage Reading :=
  match s with
  | .help => .error .help
  | .version => .error .version
  | _ => do
    let r ← r.note s
    return { r with options := { r.options with verbose := true } }

/-- Looks at what waits. A switch that still lacks its value, and an empty path, are refused. -/
def settle (r : Reading) : Except Usage Reading :=
  match r.pending with
  | .nothing => .ok r
  | .switch _ none => .error .invalidValue
  | .switch s (some value) => r.takeValue s value
  | .paths values =>
    if values.contains "" then .error .invalidValue
    else
      .ok { r with
        options := { r.options with paths := r.options.paths ++ values.map Path.ofString }
        pending := .nothing }

/-- Takes a switch, perhaps with a value attached to it. -/
def takeSwitch (r : Reading) (s : Switch) (attached : Option String) : Except Usage Reading :=
  if s.takesValue then do
    let r ← r.settle
    match attached with
    | some value => r.takeValue s value
    | none => return { r with pending := .switch s none }
  else
    match attached with
    | some _ => .error .needlessValue
    | none => do
      let r ← r.settle
      r.takeFlag s

/-- Takes an argument that begins with two hyphens, which are left out. A value may be attached
    with an equals sign. -/
def takeLong (r : Reading) (text : List Char) : Except Usage Reading :=
  let word := text.takeWhile (· != '=')
  let attached :=
    match text.dropWhile (· != '=') with
    | _ :: value => some (String.ofList value)
    | [] => none
  match Switch.words.lookup (String.ofList word) with
  | none => .error .unknownArgument
  | some s => r.takeSwitch s attached

/-- Takes an argument that begins with one hyphen, which is left out: letters of switches, the last
    of which may have a value attached to it, perhaps with an equals sign. -/
def takeShort (r : Reading) : List Char → Except Usage Reading
  | [] => .ok r
  | c :: cs =>
    match Switch.letters.lookup c with
    | none => .error .unknownArgument
    | some s =>
      if s.takesValue then
        match cs with
        | [] => r.takeSwitch s none
        | '=' :: value => r.takeSwitch s (some (String.ofList value))
        | value => r.takeSwitch s (some (String.ofList value))
      else do
        let r ← r.takeSwitch s none
        takeShort r cs

/-- Takes a path. -/
def takePath (r : Reading) (path : String) : Except Usage Reading :=
  match r.pending with
  | .paths values => .ok { r with pending := .paths (values ++ [path]) }
  | _ => do
    let r ← r.settle
    return { r with pending := .paths [path] }

/-- Takes an argument that is not a switch: the value of the switch that lacks one, or a path. -/
def takePlain (r : Reading) (text : String) : Except Usage Reading :=
  match r.pending with
  | .switch s none => .ok { r with pending := .switch s (some text) }
  | _ => r.takePath text

/-- The characters of a number behind its sign: digits, at most one point among them, and at most
    one exponent. `start` says that nothing was read yet, `point` and `power` that these were. -/
def isNumberTail (start point power : Bool) : List Char → Bool
  | [] => true
  | c :: cs =>
    if c.isDigit then isNumberTail false point power cs
    else if c = '.' ∧ !point ∧ !power ∧ !start then isNumberTail false true power cs
    else if c = 'e' ∧ !power ∧ !start ∧ !cs.isEmpty then isNumberTail false point true cs
    else false

/-- The reading waits for a number, which may be negative. -/
def awaitsNumber (r : Reading) : Bool :=
  match r.pending with
  | .switch .maxWarnings none => true
  | _ => false

/-- Takes one argument in front of the end of the switches. -/
def take (r : Reading) (argument : String) : Except Usage Reading :=
  match argument.toList with
  | '-' :: '-' :: text => r.takeLong text
  | '-' :: c :: cs =>
    if r.awaitsNumber && isNumberTail true false false (c :: cs) then r.takePlain argument
    else r.takeShort (c :: cs)
  | _ => r.takePlain argument

/-- Takes arguments. Two hyphens alone end the switches. -/
def takeAll (r : Reading) : List String → Except Usage Reading
  | [] => r.settle
  | argument :: rest =>
    if argument = "--" then do
      let r ← rest.foldlM takePath r
      r.settle
    else do
      let r ← r.take argument
      takeAll r rest

end Reading

/-- What some arguments ask for. -/
def parse (arguments : List String) : Except Usage Options := do
  let r ← Reading.initial.takeAll arguments
  return r.options

end SheetLint.CommandLine
