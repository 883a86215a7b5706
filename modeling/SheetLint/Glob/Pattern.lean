/-!
# Glob patterns

The parts of a glob: characters, wildcards, character classes, groups of alternatives, and double
stars, whose meaning depends on what stands around them.
-/

namespace SheetLint.Glob

/-- Why a text is not a glob. -/
inductive Fault where
  | unclosedClass
  | invalidRange (first last : Char)
  | unopenedGroup
  | unclosedGroup
  | danglingEscape
  deriving DecidableEq, Repr

/-- The fault in words. -/
def Fault.message : Fault → String
  | unclosedClass => "unclosed character class; missing ']'"
  | invalidRange first last =>
    "invalid range; '" ++ String.singleton first ++ "' > '" ++ String.singleton last ++ "'"
  | unopenedGroup =>
    "unopened alternate group; missing '\x7b' (maybe escape '\x7d' with '[\x7d]'?)"
  | unclosedGroup =>
    "unclosed alternate group; missing '\x7d' (maybe escape '\x7b' with '[\x7b]'?)"
  | danglingEscape => "dangling '\\'"

/-- A part of a glob. A double star at the front, between separators and at the end takes whole
    directories, with the separators next to it. -/
inductive Part where
  | literal (c : Char)
  | any
  | star
  | leadingDirectories
  | trailingEntries
  | innerDirectories
  | charClass (negated : Bool) (ranges : List (Char × Char))
  | group (alternatives : List (List Part))

/-- Reads a class behind its opening and negation: its ranges, the last first, and the length of
    what was read. `first` says that nothing was read yet, and `open_` that a hyphen waits for the
    end of the last range. -/
def classRanges? (first open_ : Bool) (ranges : List (Char × Char)) :
    List Char → Except Fault (List (Char × Char) × Nat)
  | [] => .error .unclosedClass
  | c :: cs => do
    if c = ']' ∧ !first then
      return (if open_ then ('-', '-') :: ranges else ranges, 1)
    else if c = '-' ∧ !first ∧ !open_ then
      let (ranges, n) ← classRanges? false true ranges cs
      return (ranges, n + 1)
    else
      match open_, ranges with
      | true, (low, _) :: rest =>
        if c < low then throw (.invalidRange low c)
        else
          let (ranges, n) ← classRanges? false false ((low, c) :: rest) cs
          return (ranges, n + 1)
      | _, _ =>
        let (ranges, n) ← classRanges? false false ((c, c) :: ranges) cs
        return (ranges, n + 1)

/-- Reads a class behind its opening bracket, and gives the length of what was read. A first
    exclamation mark or caret turns it round. -/
def charClass? (cs : List Char) : Except Fault (Part × Nat) :=
  match cs with
  | '!' :: rest | '^' :: rest => do
    let (ranges, n) ← classRanges? true false [] rest
    return (.charClass true ranges.reverse, n + 1)
  | _ => do
    let (ranges, n) ← classRanges? true false [] cs
    return (.charClass false ranges.reverse, n)

/-- What has been read of a glob: the parts of the alternative that is being read, the last first,
    and for each open group its earlier alternatives and the parts in front of it. -/
structure Draft where
  parts : List Part
  groups : List (List (List Part) × List Part)

namespace Draft

/-- Adds a part. -/
def push (d : Draft) (part : Part) : Draft :=
  { d with parts := part :: d.parts }

/-- Nothing has been read of the alternative. -/
def atStart (d : Draft) : Bool :=
  d.parts.isEmpty

/-- A group is open. -/
def inGroup (d : Draft) : Bool :=
  !d.groups.isEmpty

/-- Opens a group. -/
def openGroup (d : Draft) : Draft :=
  ⟨[], ([], d.parts) :: d.groups⟩

/-- Begins the next alternative of a group; outside of groups a comma is a character. -/
def comma (d : Draft) : Draft :=
  match d.groups with
  | [] => d.push (.literal ',')
  | (earlier, before) :: groups => ⟨[], (d.parts.reverse :: earlier, before) :: groups⟩

/-- Closes a group. -/
def closeGroup (d : Draft) : Except Fault Draft :=
  match d.groups with
  | [] => .error .unopenedGroup
  | (earlier, before) :: groups =>
    .ok ⟨.group (d.parts.reverse :: earlier).reverse :: before, groups⟩

/-- Puts a double star in the place of the part in front of it, which it takes along. Double stars
    in a row are one. -/
def pushDirectories (d : Draft) (part : Part) : Draft :=
  match d.parts with
  | .leadingDirectories :: _ => d
  | .trailingEntries :: _ => d
  | _ :: parts => { d with parts := part :: parts }
  | [] => { d with parts := [part] }

/-- Two stars that are not a double star. -/
def pushStars (d : Draft) : Draft :=
  (d.push .star).push .star

/-- Adds a double star in front of `next`, behind the character `previous`, and says whether the
    separator at the front of `next` belongs to it. -/
def doubleStar (d : Draft) (previous : Option Char) (next : Option Char) : Draft × Bool :=
  if d.atStart then
    if next = none ∨ next = some '/' then (d.push .leadingDirectories, next = some '/')
    else (d.pushStars, false)
  else if previous = some '/' ∨
      (d.inGroup ∧ (previous = some ',' ∨ previous = some '\x7b')) then
    if next = none ∨ (d.inGroup ∧ (next = some ',' ∨ next = some '\x7d')) then
      (d.pushDirectories .trailingEntries, false)
    else if next = some '/' then (d.pushDirectories .innerDirectories, true)
    else (d.pushStars, false)
  else (d.pushStars, false)

end Draft

/-- Reads a glob from where `draft` has got to, behind the character `previous`. If `lenient` is
    set, the first opening bracket without a closing one, and all behind it, are characters;
    `plain` says that such a bracket was met. -/
def read (lenient plain : Bool) (previous : Option Char) (draft : Draft) :
    List Char → Except Fault Draft
  | [] => .ok draft
  | '\\' :: [] => .error .danglingEscape
  | '\\' :: c :: cs => read lenient plain (some c) (draft.push (.literal c)) cs
  | '?' :: cs => read lenient plain (some '?') (draft.push .any) cs
  | '*' :: '*' :: cs =>
    let (next, takes) := draft.doubleStar previous cs.head?
    if takes then read lenient plain (some '/') next (cs.drop 1)
    else read lenient plain (some '*') next cs
  | '*' :: cs => read lenient plain (some '*') (draft.push .star) cs
  | '\x7b' :: cs => read lenient plain (some '\x7b') draft.openGroup cs
  | ',' :: cs => read lenient plain (some ',') draft.comma cs
  | '\x7d' :: cs =>
    match draft.closeGroup with
    | .error e => .error e
    | .ok closed => read lenient plain (some '\x7d') closed cs
  | c :: cs =>
    if c = '[' ∧ !plain then
      match charClass? cs with
      | .ok (part, n) => read lenient plain (some ']') (draft.push part) (cs.drop n)
      | .error .unclosedClass =>
        if lenient then read lenient true (some c) (draft.push (.literal c)) cs
        else .error .unclosedClass
      | .error e => .error e
    else read lenient plain (some c) (draft.push (.literal c)) cs
termination_by cs => cs.length
decreasing_by all_goals simp only [List.length_drop, List.length_cons]; omega

/-- The parts of a glob. -/
def parts? (lenient : Bool) (text : String) : Except Fault (List Part) := do
  let draft ← read lenient false none ⟨[], []⟩ text.toList
  if draft.inGroup then throw .unclosedGroup
  else return draft.parts.reverse

end SheetLint.Glob
