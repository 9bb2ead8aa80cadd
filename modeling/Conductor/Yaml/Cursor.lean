/-! A place in a YAML text, and readers that move it forward. A reader that yields nothing has met a
text that is no YAML. -/

namespace Conductor.Yaml

def isBreak (c : Char) : Bool :=
  c = '\n' || c = '\r' || c = '\x85' || c = '\u2028' || c = '\u2029'

/-- A space, a tab or a line break. -/
def isGap (c : Char) : Bool := c = ' ' || c = '\t' || isBreak c

/-- The characters that may stand in a text at all. -/
def isPrintable (c : Char) : Bool :=
  let n := c.toNat
  n = 9 || n = 10 || n = 13 || (32 ≤ n && n ≤ 126) || n = 133 || (160 ≤ n && n ≤ 0xD7FF)
    || (0xE000 ≤ n && n ≤ 0xFFFD) || 0x10000 ≤ n

/-- A character of a name: a letter, a digit, `-` or `_` of ASCII. -/
def isNameChar (c : Char) : Bool := c.isAlphanum || c = '-' || c = '_'

/-- What is left of a text, with the number of characters before it and its line and column. A byte
order mark takes no column. -/
structure Cursor where
  rest : List Char
  index : Nat
  line : Nat
  column : Nat

namespace Cursor

def start (text : List Char) : Cursor := ⟨text, 0, 0, 0⟩

def next (c : Cursor) : Cursor :=
  match c.rest with
  | [] => c
  | x :: rest =>
    if isBreak x && !(x = '\r' && rest.head? = some '\n') then ⟨rest, c.index + 1, c.line + 1, 0⟩
    else if x = '\uFEFF' then ⟨rest, c.index + 1, c.line, c.column⟩
    else ⟨rest, c.index + 1, c.line, c.column + 1⟩

def skip : Nat → Cursor → Cursor
  | 0, c => c
  | n + 1, c => skip n c.next

/-- The text is over, or a gap follows, `n` characters on. -/
def gapAt (c : Cursor) (n : Nat) : Bool := c.rest[n]?.all isGap

/-- Three hyphens or three points that stand alone part documents at the start of a line. -/
def atMarker (c : Cursor) : Bool :=
  (c.rest.take 3 = ['-', '-', '-'] || c.rest.take 3 = ['.', '.', '.']) && c.gapAt 3

/-- The end of the line or of the text. -/
def atLineEnd (c : Cursor) : Bool := c.rest.head?.all isBreak

end Cursor

abbrev Reading := StateT Cursor Option

namespace Reading

def peek : Reading (Option Char) := return (← get).rest.head?

def advance (n : Nat) : Reading Unit := modify (·.skip n)

/-- The characters of a class at the cursor. -/
def run (p : Char → Bool) : Reading String := do
  let word := (← get).rest.takeWhile p
  advance word.length
  return String.ofList word

def skipSpaces : Reading Unit := do
  let _ ← run (· = ' ')

/-- Skips a comment that starts at the cursor. -/
def skipComment : Reading Unit := do
  if (← peek) = some '#' then
    let _ ← run (!isBreak ·)

/-- Passes a line break and yields the text that it stands for; the empty text where there is none. -/
def lineBreak : Reading String := do
  match (← get).rest with
  | '\r' :: '\n' :: _ => advance 2; return "\n"
  | c :: _ =>
    if c = '\u2028' || c = '\u2029' then advance 1; return String.singleton c
    else if isBreak c then advance 1; return "\n"
    else return ""
  | [] => return ""

/-- Ends a line on which nothing but a comment may follow. -/
def endLine : Reading Unit := do
  skipSpaces
  skipComment
  guard (← get).atLineEnd
  let _ ← lineBreak

/-- The cursor stands before a gap or at the end. -/
def ensureGap : Reading Unit := do guard ((← get).gapAt 0)

/-- The number of characters left, which bounds every loop over them. -/
def bound : Reading Nat := return (← get).rest.length + 1

end Reading

end Conductor.Yaml
