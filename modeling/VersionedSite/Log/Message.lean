import VersionedSite.Json.Reader
import VersionedSite.Log.Mark

/-!
# Messages with arguments

A message is a text with marks that arguments are put in for. A mark begins with a percent sign; two of
them are the sign itself. Arguments are taken in their order, also for a width or a number of places
that is marked by a star; a single object that has members can be asked for its members by name
instead. Every argument has to be put in, unless arguments have names.
-/

namespace VersionedSite.Log

open Text

/-- The arguments that are still to be put in. -/
structure Supply where
  /-- The members that can be asked for by name. -/
  named : Option (List (String × Json)) := none
  /-- The arguments that come next. -/
  rest : List Json

/-- The supply of arguments. -/
def Supply.ofList : List Json → Supply
  | [.obj (m :: members)] => { named := some (m :: members), rest := [.obj (m :: members)] }
  | arguments => { rest := arguments }

/-- A reading of marks, which may take arguments. -/
abbrev Taking := StateT Supply (Except FillFault)

namespace Taking

/-- The next argument. -/
def next : Taking Json := do
  let supply ← get
  match supply.rest with
  | [] => throw .tooFew
  | j :: rest =>
    set { supply with rest }
    return j

/-- The next argument, for a width or a number of places. -/
def nextWhole : Taking Int := do
  match wholeNumber? (← next) with
  | some n => return n
  | none => throw .wrongKind

/-- A text up to the bracket that closes the ones that are open, and the rest behind it. -/
def bracketed : (depth : Nat) → (done : List Char) → List Char → Option (List Char × List Char)
  | _, _, [] => none
  | depth, done, c :: rest =>
    if c == ')' then
      if depth = 0 then some (done.reverse, rest) else bracketed (depth - 1) (c :: done) rest
    else if c == '(' then bracketed (depth + 1) (c :: done) rest
    else bracketed depth (c :: done) rest

/-- The name in brackets that a mark may begin with. What has the name is the next argument. -/
def name : List Char → Taking (List Char)
  | '(' :: rest => do
    match (← get).named with
    | none => throw .unnamed
    | some members =>
      match bracketed 0 [] rest with
      | none => throw .badMark
      | some (name, rest) =>
        match Json.lookup (String.ofList name) members with
        | none => throw .unknownName
        | some j =>
          set { named := some members, rest := [j] : Supply }
          return rest
  | s => return s

/-- The flags of a mark. -/
def flags (m : Mark) : List Char → Mark × List Char
  | '-' :: rest => flags { m with left := true } rest
  | '+' :: rest => flags { m with plus := true } rest
  | ' ' :: rest => flags { m with blank := true } rest
  | '#' :: rest => flags { m with full := true } rest
  | '0' :: rest => flags { m with zeros := true } rest
  | s => (m, s)

/-- The digits at the head of a text as a number of a limited size. -/
def amount (limit : Nat) (s : List Char) : Taking (Nat × List Char) := do
  let n := Json.digitsValue (s.takeWhile Char.isDigit)
  if n > limit then throw .badMark
  return (n, s.dropWhile Char.isDigit)

/-- The width of a mark. A width below zero counts from the left; the least number of 64 bits, which is
the opposite of none, counts as no width. -/
def width (m : Mark) (s : List Char) : Taking (Mark × List Char) := do
  match s with
  | '*' :: rest =>
    let n ← nextWhole
    if n < -Int.pow 2 63 ∨ Int.pow 2 63 ≤ n then throw .tooGreat
    let width := if n = -Int.pow 2 63 then none else some n.natAbs
    return ({ m with left := m.left || decide (n < 0), width }, rest)
  | c :: _ =>
    if c.isDigit then
      let (n, rest) ← amount (Nat.pow 2 63 - 1) s
      return ({ m with width := some n }, rest)
    else return (m, s)
  | [] => return (m, [])

/-- The number of places of a mark. -/
def places (m : Mark) (s : List Char) : Taking (Mark × List Char) := do
  match s with
  | '.' :: '*' :: rest =>
    let n ← nextWhole
    if n < -Int.pow 2 31 ∨ Int.pow 2 31 ≤ n then throw .tooGreat
    return ({ m with places := some n.toNat }, rest)
  | '.' :: rest =>
    let (n, rest) ← amount (Nat.pow 2 31 - 1) rest
    return ({ m with places := some n }, rest)
  | _ => return (m, s)

/-- The kind of a mark, behind a size that does not matter. -/
def kind (s : List Char) : Taking (Char × List Char) := do
  let s :=
    match s with
    | 'h' :: rest | 'l' :: rest | 'L' :: rest => rest
    | _ => s
  match s with
  | [] => throw .badMark
  | c :: rest => return (c, rest)

/-- The argument for a mark, and the rest behind the mark. `s` begins behind the percent sign. -/
def argument (s : List Char) : Taking (Points × List Char) := do
  let s ← name s
  let (m, s) := flags {} s
  let (m, s) ← width m s
  let (m, s) ← places m s
  let (k, s) ← kind s
  let j ← next
  let told ← m.tell k j
  return (told, s)

/-- Put arguments in for the marks of a text. `done` is what has been filled in, in reverse. Each of at
most `fuel` steps takes a character at least. -/
def fillFrom : (fuel : Nat) → (done : Points) → List Char → Taking Points
  | 0, done, _ => return done.reverse
  | _, done, [] => return done.reverse
  | fuel + 1, done, '%' :: '%' :: rest => fillFrom fuel ('%'.toNat :: done) rest
  | fuel + 1, done, '%' :: rest => do
    let (told, rest) ← argument rest
    fillFrom fuel (told.reverse ++ done) rest
  | fuel + 1, done, c :: rest => fillFrom fuel (c.toNat :: done) rest

end Taking

/-- A text with all arguments put in. Without arguments it is left as it is. -/
def fill (template : String) (arguments : List Json) : Except FillFault Points :=
  let s := template.toList
  if arguments.isEmpty then .ok (.ofChars s)
  else
    match (Taking.fillFrom s.length [] s).run (Supply.ofList arguments) with
    | .error fault => .error fault
    | .ok (text, supply) =>
      if supply.rest.isEmpty || supply.named.isSome then .ok text else .error .tooMany

end VersionedSite.Log
