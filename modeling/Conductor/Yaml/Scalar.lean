import Conductor.Text.Digit
import Conductor.Yaml.Cursor

/-! The three ways to write a scalar: plain, in quotes, or as a block of lines. -/

namespace Conductor.Yaml

open Reading

/-- A single line break between two lines is a space; of more breaks the first is dropped. -/
def foldBreaks (first more : String) : String :=
  if first ≠ "\n" then first ++ more else if more = "" then " " else more

/-! Plain scalars. -/

/-- The marks that part the items within brackets, and the brackets. -/
def flowMarks : List Char := [',', '[', ']', '\x7b', '\x7d']

/-- The length of the plain text at the start: up to a gap, to a colon before a gap, and within
brackets to a mark of theirs. -/
def plainLength (flow : Bool) : List Char → Nat
  | [] => 0
  | c :: s =>
    if isGap c || (c = ':' && s.head?.all fun d => isGap d || (flow && flowMarks.contains d))
      || (flow && (c = '?' || flowMarks.contains c)) then 0
    else plainLength flow s + 1

/-- The empty lines ahead, and whether a document marker ends them. -/
def plainBreaks : Nat → Reading (String × Bool)
  | 0 => failure
  | fuel + 1 => do
    if (← get).atMarker then return ("", true)
    skipSpaces
    let line ← lineBreak
    if line = "" then return ("", false)
    let (more, marker) ← plainBreaks fuel
    return (line ++ more, marker)

/-- What stands for the space after a piece of plain text, and whether that space broke the line. No
text means that the scalar ends. -/
def plainGap : Reading (String × Bool) := do
  let blanks ← run (· = ' ')
  let first ← lineBreak
  if first = "" then return (blanks, false)
  let (more, marker) ← plainBreaks (← bound)
  return (if marker then "" else foldBreaks first more, true)

/-- The pieces of a plain scalar from the cursor on, after the space `gap`; also whether the space
after the last piece broke the line. -/
def plainPieces (flow : Bool) (margin : Nat) (gap : String) (broken : Bool) :
    Nat → Reading (String × Bool)
  | 0 => failure
  | fuel + 1 => do
    let here ← get
    let length := plainLength flow here.rest
    if length = 0 || here.rest.head? = some '#' then return ("", broken)
    advance length
    let piece := gap ++ String.ofList (here.rest.take length)
    let (gap, broken) ← plainGap
    if gap = "" || (← peek) = some '#' || (!flow && (← get).column < margin) then
      return (piece, broken)
    let (more, broken) ← plainPieces flow margin gap broken fuel
    return (piece ++ more, broken)

/-- A plain scalar whose lines start at column `margin` or after it. -/
def plain (flow : Bool) (margin : Nat) : Reading (String × Bool) := do
  plainPieces flow margin "" false (← bound)

/-! Scalars in quotes. -/

/-- The character that a letter after a backslash stands for. -/
def escaped? (c : Char) : Option Char :=
  match c with
  | '0' => some '\x00'
  | 'a' => some '\x07'
  | 'b' => some '\x08'
  | 't' | '\t' => some '\t'
  | 'n' => some '\n'
  | 'v' => some '\x0b'
  | 'f' => some '\x0c'
  | 'r' => some '\r'
  | 'e' => some '\x1b'
  | ' ' | '"' | '\\' | '/' => some c
  | 'N' => some '\x85'
  | '_' => some '\xa0'
  | 'L' => some '\u2028'
  | 'P' => some '\u2029'
  | _ => none

/-- The number of hexadecimal digits that follow a letter after a backslash. -/
def escapeWidth? (c : Char) : Option Nat :=
  match c with
  | 'x' => some 2
  | 'u' => some 4
  | 'U' => some 8
  | _ => none

def hexDigit? (c : Char) : Option Nat :=
  if c.isDigit then some (c.toNat - 48)
  else if 'a' ≤ c && c ≤ 'f' then some (c.toNat - 87)
  else if 'A' ≤ c && c ≤ 'F' then some (c.toNat - 55)
  else none

/-- A number of exactly `width` hexadecimal digits. -/
def hex (width : Nat) : Reading Nat := do
  let digits := (← get).rest.take width
  guard (digits.length = width)
  advance width
  match digits.mapM hexDigit? with
  | some ds => return ds.foldl (fun n d => 16 * n + d) 0
  | none => failure

/-- The character of a code point whose number has `width` digits. The two halves of a pair make one
character. -/
def codePoint (width : Nat) : Reading Char := do
  let n ← hex width
  if 0xD800 ≤ n && n < 0xDC00 then
    guard ((← get).rest.take 2 = ['\\', 'u'])
    advance 2
    let m ← hex 4
    guard (0xDC00 ≤ m && m < 0xE000)
    return Char.ofNat (0x10000 + (n - 0xD800) * 1024 + (m - 0xDC00))
  else
    guard (n < 0xDC00 || (0xE000 ≤ n && n < 0x110000))
    return Char.ofNat n

/-- The empty lines ahead, up to what stands on the next line. -/
def quotedBreaks : Nat → Reading String
  | 0 => failure
  | fuel + 1 => do
    guard !(← get).atMarker
    let _ ← run fun c => c = ' ' || c = '\t'
    let line ← lineBreak
    if line = "" then return "" else return line ++ (← quotedBreaks fuel)

/-- What a backslash and the characters after it stand for. -/
def escape : Reading String := do
  advance 1
  match ← peek with
  | none => failure
  | some c =>
    if isBreak c then
      let _ ← lineBreak
      quotedBreaks (← bound)
    else
      advance 1
      match escaped? c, escapeWidth? c with
      | some e, _ => return String.singleton e
      | none, some width => return String.singleton (← codePoint width)
      | none, none => failure

/-- Blanks within quotes. Those around a line break go with it. -/
def quotedGap : Reading String := do
  let blanks ← run fun c => c = ' ' || c = '\t'
  let first ← lineBreak
  if first = "" then return blanks
  return foldBreaks first (← quotedBreaks (← bound))

/-- What is left of a scalar in quotes, the closing quote included. -/
def quotedRest (quote : Char) : Nat → Reading String
  | 0 => failure
  | fuel + 1 => do
    match (← get).rest with
    | [] => failure
    | c :: rest =>
      if c = quote then
        advance 1
        if quote = '\'' && rest.head? = some '\'' then
          advance 1
          return "'" ++ (← quotedRest quote fuel)
        else return ""
      else
        let piece ←
          if c = '\\' && quote = '"' then escape
          else if isGap c then quotedGap
          else do
            advance 1
            pure (String.singleton c)
        return piece ++ (← quotedRest quote fuel)

/-- A scalar in quotes; the cursor stands at the opening quote. -/
def quoted (quote : Char) : Reading String := do
  advance 1
  quotedRest quote (← bound)

/-! Block scalars. -/

/-- What happens to the line breaks at the end of a block: one stays, none stays, or all stay. -/
inductive Chomping where
  | clip
  | strip
  | keep

def chomping : Reading Chomping := do
  match ← peek with
  | some '+' => advance 1; return .keep
  | some '-' => advance 1; return .strip
  | _ => return .clip

def indentation : Reading (Option Nat) := do
  match (← peek).bind Text.asciiDigit? with
  | some d =>
    guard (d ≠ 0)
    advance 1
    return some d
  | none => return none

/-- The two indicators of a block, in either order. -/
def blockHeader : Reading (Chomping × Option Nat) := do
  let early ← indentation
  let chomping ← chomping
  let late ← if early.isNone then indentation else pure none
  return (chomping, early <|> late)

/-- Skips spaces up to a column. -/
def indentTo (column : Nat) : Reading Unit := do
  let here ← get
  advance (min (column - here.column) (here.rest.takeWhile (· = ' ')).length)

/-- The empty lines ahead in a block indented to a column. -/
def blockBreaks (indent : Nat) : Nat → Reading String
  | 0 => failure
  | fuel + 1 => do
    indentTo indent
    let line ← lineBreak
    if line = "" then return "" else return line ++ (← blockBreaks indent fuel)

/-- The empty lines at the start of a block, and the widest column that their spaces or those of the
first line reach. -/
def leadingBreaks (width : Nat) : Nat → Reading (String × Nat)
  | 0 => failure
  | fuel + 1 => do
    let here ← get
    let spaces := (here.rest.takeWhile (· = ' ')).length
    advance spaces
    let width := if spaces = 0 then width else max width (here.column + spaces)
    let line ← lineBreak
    if line = "" then return ("", width)
    let (more, width) ← leadingBreaks width fuel
    return (line ++ more, width)

/-- The lines of a block up to its last break; then that break, and the empty lines after it. -/
def blockLines (folded : Bool) (indent : Nat) (last breaks : String) :
    Nat → Reading (String × String × String)
  | 0 => failure
  | fuel + 1 => do
    let inside : Cursor → Bool := fun c => c.column = indent && !c.rest.isEmpty
    let flush : Cursor → Bool := fun c => c.rest.head?.all fun d => d ≠ ' ' && d ≠ '\t'
    let here ← get
    if !inside here then return ("", last, breaks)
    let line ← run (!isBreak ·)
    let first ← lineBreak
    let empties ← blockBreaks indent (← bound)
    let there ← get
    let between :=
      if !inside there then ""
      else if folded && first = "\n" && flush here && flush there then
        if empties = "" then " " else ""
      else first
    let (more, last, trailing) ← blockLines folded indent first empties fuel
    return (breaks ++ line ++ between ++ more, last, trailing)

/-- A block scalar within lines that start at column `margin` or after it. -/
def block (folded : Bool) (margin : Nat) : Reading String := do
  advance 1
  let (chomping, step) ← blockHeader
  ensureGap
  guard ((← peek) ≠ some '\t')
  endLine
  let least := max margin 1
  let (indent, breaks) ← match step with
    | none => do
      let (breaks, width) ← leadingBreaks 0 (← bound)
      pure (max least width, breaks)
    | some n => do
      let indent := least + n - 1
      pure (indent, ← blockBreaks indent (← bound))
  let (text, last, trailing) ← blockLines folded indent "" breaks (← bound)
  match chomping with
  | .strip => return text
  | .clip => return text ++ last
  | .keep => return text ++ last ++ trailing

end Conductor.Yaml
