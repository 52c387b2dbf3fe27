import TreeMatch.Yaml.Cursor

/-!
# Plain scalars

A scalar without quotes ends at a colon or a comment that follows a blank, in brackets also at their
punctuation, at a line that is indented too little, or at a line that separates documents. One line
break within it becomes a space and further ones remain.
-/

namespace TreeMatch.Yaml.Scan

/-- Whether a plain scalar ends before what is left of the text. -/
def endsPlain (inFlow : Bool) (rest : List Char) : Bool :=
  let c := rest.headD endMark
  let after := (rest.drop 1).headD endMark
  isBlankOrEnd c || (c == ':' && (isBlankOrEnd after || (inFlow && isOneOf ",[]\x7b\x7d" after))) ||
    (inFlow && isOneOf ",?[]\x7b\x7d" c)

/-- The run of a plain scalar up to the next blank or its end. -/
def plainRun (inFlow : Bool) : List Char → List Char
  | [] => []
  | c :: rest => if endsPlain inFlow (c :: rest) then [] else c :: plainRun inFlow rest

/-- The line breaks after the first one, and whether a separator ended them. -/
def plainBreaks : Nat → Scan (List Char × Bool)
  | 0 => return ([], false)
  | fuel + 1 => do
    skipSpaces
    let found ← lineBreak
    if found.isEmpty then return ([], false)
    if (← get).atSeparator then return (found, true)
    let (more, stopped) ← plainBreaks fuel
    return (found ++ more, stopped)

/-- What stands between two runs of a plain scalar: nothing if the scalar is over, and whether a
line break was passed. -/
def plainSpaces (fuel : Nat) : Scan (List Char × Bool) := do
  let blanks ← takeWhile (· == ' ')
  let found ← lineBreak
  if found.isEmpty then return (blanks, false)
  if (← get).atSeparator then return ([], true)
  let (more, stopped) ← plainBreaks fuel
  if stopped then return ([], true)
  if found != ['\n'] then return (found ++ more, true)
  return (if more.isEmpty then [' '] else more, true)

/-- The runs of a plain scalar, after the blanks `before` the next of them. Gives back the text, and
whether the scanner stands after a line break. -/
def plainRuns (inFlow : Bool) (indent : Int) (before : List Char) (afterBreak : Bool) :
    Nat → Scan (List Char × Bool)
  | 0 => return ([], afterBreak)
  | fuel + 1 => do
    if (← peek 0) == '#' then return ([], afterBreak)
    let run := plainRun inFlow (← get).rest
    if run.isEmpty then return ([], afterBreak)
    skip run.length
    let (spaces, broke) ← plainSpaces fuel
    if spaces.isEmpty || (← peek 0) == '#' || (!inFlow && (← get).column < indent) then
      return (before ++ run, broke)
    let (more, broke) ← plainRuns inFlow indent spaces broke fuel
    return (before ++ run ++ more, broke)

/-- A plain scalar, and whether the scanner stands after a line break. -/
def plainText (inFlow : Bool) (indent : Int) : Scan (String × Bool) := do
  let (cs, broke) ← plainRuns inFlow indent [] false ((← get).left + 1)
  return (String.ofList cs, broke)

end TreeMatch.Yaml.Scan
