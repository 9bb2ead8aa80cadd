import Conductor.Yaml.Scalar

/-! The tokens of a YAML text. The layout of its lines becomes tokens too: a block opens where the
column grows and ends where it shrinks, and a key is marked once the colon after it is seen. -/

namespace Conductor.Yaml

/-- A tag as written: a handle with a suffix, or without a handle the whole name. -/
structure TagName where
  handle : Option String
  suffix : String

inductive Token where
  /-- The version line, with the first number of the version. -/
  | version (major : String)
  /-- A line that lets a handle stand for the start of a tag. -/
  | handle (name start : String)
  | otherDirective
  | documentStart
  | documentEnd
  | blockSequence
  | blockMapping
  | blockEnd
  | flowSequence
  | flowSequenceEnd
  | flowMapping
  | flowMappingEnd
  | blockEntry
  | flowEntry
  | key
  | value
  | alias (name : String)
  | anchor (name : String)
  | tag (name : TagName)
  /-- A scalar, which is plain or has quotes or a block around it. -/
  | scalar (text : String) (plain : Bool)

open Reading

/-- One or more characters of a name. -/
def name : Reading String := do
  let word ← run isNameChar
  guard (word ≠ "")
  return word

/-- The name of an anchor or alias, after the mark for it. -/
def anchorName : Reading String := do
  advance 1
  let word ← name
  guard ((← peek).all fun c => isGap c || "?:,]\x7d%@`".contains c)
  return word

/-- The marks that a tag may hold besides letters and digits. -/
def isTagChar (c : Char) : Bool := c.isAlphanum || "-;/?:@&=+$,_.!~*'()[]%".contains c

/-- Puts the characters back that are written as a percent sign and two hexadecimal digits. -/
def unescapeTag : List Char → Option (List Char)
  | '%' :: a :: b :: s => do
    let high ← hexDigit? a
    let low ← hexDigit? b
    let rest ← unescapeTag s
    return Char.ofNat (16 * high + low) :: rest
  | c :: s => if c = '%' then none else (unescapeTag s).map (c :: ·)
  | [] => some []

def tagText : Reading String := do
  let word ← run isTagChar
  guard (word ≠ "")
  match unescapeTag word.toList with
  | some text => return String.ofList text
  | none => failure

/-- A handle: one mark alone, or a name between two. -/
def tagHandle : Reading String := do
  guard ((← peek) = some '!')
  advance 1
  if (← peek) = some ' ' then return "!"
  let word ← run isNameChar
  guard ((← peek) = some '!')
  advance 1
  return "!" ++ word ++ "!"

/-- The end of a word at a space or at the end of the line. -/
def ensureSpace : Reading Unit := do
  ensureGap
  guard ((← peek) ≠ some '\t')

def tagName : Reading TagName := do
  let after := (← get).rest.drop 1
  let tag ←
    if after.head? = some '<' then do
      advance 2
      let text ← tagText
      guard ((← peek) = some '>')
      advance 1
      pure ⟨none, text⟩
    else if after.head?.all isGap then do
      advance 1
      pure ⟨none, "!"⟩
    else if (after.takeWhile fun c => c = '\t' || !isGap c).contains '!' then do
      let handle ← tagHandle
      pure ⟨some handle, ← tagText⟩
    else do
      advance 1
      pure ⟨some "!", ← tagText⟩
  ensureSpace
  return tag

def versionNumber : Reading String := do
  let digits ← run Char.isDigit
  guard (digits ≠ "")
  return digits

/-- A line that starts with a percent sign. -/
def directive : Reading Token := do
  advance 1
  let word ← name
  ensureSpace
  let token ←
    if word = "YAML" then do
      skipSpaces
      let major ← versionNumber
      guard ((← peek) = some '.')
      advance 1
      let _ ← versionNumber
      ensureSpace
      pure (Token.version major)
    else if word = "TAG" then do
      skipSpaces
      let handle ← tagHandle
      guard ((← peek) = some ' ')
      skipSpaces
      let start ← tagText
      ensureSpace
      pure (Token.handle handle start)
    else do
      let _ ← run (!isBreak ·)
      pure Token.otherDirective
  endLine
  return token

/-- A token that turns out to be a key if a colon follows it on its line. -/
structure Candidate where
  /-- The number of tokens before it. -/
  position : Nat
  /-- It must be a key, because nothing else may stand in its column. -/
  required : Bool
  start : Cursor

/-- A key stays on its line and within 1024 characters. -/
def Candidate.stale (c : Candidate) (here : Cursor) : Bool :=
  c.start.line != here.line || 1024 < here.index - c.start.index

/-- The state of the search for tokens. -/
structure Layout where
  cursor : Cursor
  tokens : Array Token := #[]
  /-- The first column that is inside the innermost block; none is open at zero. -/
  margin : Nat := 0
  /-- The margins of the blocks around. -/
  outerMargins : List Nat := []
  /-- A key may start here. -/
  keyAllowed : Bool := true
  candidate : Option Candidate := none
  /-- The candidates around the open brackets, from the innermost on. -/
  outerCandidates : List (Option Candidate) := []

abbrev Scan := StateT Layout Option

namespace Scan

def inFlow : Scan Bool := return !(← get).outerCandidates.isEmpty

def emit (t : Token) : Scan Unit := modify fun l => { l with tokens := l.tokens.push t }

/-- Runs a reader at the cursor. -/
def read {α : Type} (r : Reading α) : Scan α := do
  match r (← get).cursor with
  | some (a, cursor) => modify fun l => { l with cursor }; return a
  | none => failure

def allowKey (allowed : Bool) : Scan Unit := modify fun l => { l with keyAllowed := allowed }

/-- Gives the candidate up, which is an error if it has to be a key. -/
def dropCandidate : Scan Unit := do
  guard !((← get).candidate.any (·.required))
  modify fun l => { l with candidate := none }

/-- Takes the next token as a candidate, if a key may start here. -/
def addCandidate : Scan Unit := do
  let l ← get
  if l.keyAllowed then
    dropCandidate
    let required := l.outerCandidates.isEmpty && l.margin = l.cursor.column + 1
    modify fun l => { l with candidate := some ⟨l.tokens.size, required, l.cursor⟩ }

/-- Gives up the candidates that the cursor has left behind. -/
def dropStale : Scan Unit := do
  let l ← get
  guard ((l.candidate :: l.outerCandidates).all
    fun c => c.all fun c => !(c.stale l.cursor && c.required))
  let keep := fun c : Option Candidate => c.filter fun c => !c.stale l.cursor
  set { l with candidate := keep l.candidate, outerCandidates := l.outerCandidates.map keep }

/-- Ends the blocks whose margin is beyond a column, from the innermost on. -/
def closeBlocks (limit : Nat) : Nat → List Nat → Scan Unit
  | margin, outer =>
    if limit < margin then
      match outer with
      | [] => modify fun l => { l with margin := 0, tokens := l.tokens.push .blockEnd }
      | m :: outer => do
        emit .blockEnd
        modify fun l => { l with margin := m, outerMargins := outer }
        closeBlocks limit m outer
    else pure ()
termination_by _ outer => outer.length

/-- Ends the blocks that do not reach the column `limit - 1`. Within brackets the layout means
nothing. -/
def unwind (limit : Nat) : Scan Unit := do
  if !(← inFlow) then
    let l ← get
    closeBlocks limit l.margin l.outerMargins

/-- Opens a block at a column if it lies inside the innermost one. -/
def openBlock (column : Nat) : Scan Bool := do
  let l ← get
  if l.margin ≤ column then
    set { l with margin := column + 1, outerMargins := l.margin :: l.outerMargins }
    return true
  else return false

/-- Skips spaces, comments and empty lines. Outside of brackets a new line may start with a key. -/
def skipToToken : Nat → Scan Unit
  | 0 => failure
  | fuel + 1 => do
    read skipSpaces
    read skipComment
    if (← read lineBreak) ≠ "" then
      if !(← inFlow) then allowKey true
      skipToToken fuel

/-- A token with nothing else to it, `n` characters long. -/
def mark (t : Token) (n : Nat) : Scan Unit := do
  read (advance n)
  emit t

/-- Ends all that is open in a document. -/
def endDocument : Scan Unit := do
  unwind 0
  dropCandidate
  allowKey false

def openFlow (t : Token) : Scan Unit := do
  addCandidate
  modify fun l =>
    { l with candidate := none, outerCandidates := l.candidate :: l.outerCandidates }
  allowKey true
  mark t 1

def closeFlow (t : Token) : Scan Unit := do
  dropCandidate
  match (← get).outerCandidates with
  | [] => failure
  | candidate :: outer => modify fun l => { l with candidate, outerCandidates := outer }
  allowKey false
  mark t 1

/-- A token that opens a block of its own in its column, unless one is open there. -/
def openAt (block : Token) : Scan Unit := do
  if !(← inFlow) then
    guard (← get).keyAllowed
    if ← openBlock (← get).cursor.column then emit block

def blockEntry : Scan Unit := do
  openAt .blockSequence
  allowKey true
  dropCandidate
  mark .blockEntry 1

def explicitKey : Scan Unit := do
  openAt .blockMapping
  allowKey !(← inFlow)
  dropCandidate
  mark .key 1

/-- A colon: what the candidate started is the key, and a block may open with it. -/
def value : Scan Unit := do
  match (← get).candidate with
  | some c =>
    modify fun l => { l with candidate := none }
    let opens ← if ← inFlow then pure false else openBlock c.start.column
    let marks := if opens then #[Token.blockMapping, .key] else #[Token.key]
    modify fun l => { l with
      tokens := l.tokens.extract 0 c.position ++ marks ++ l.tokens.extract c.position l.tokens.size }
    allowKey false
  | none =>
    openAt .blockMapping
    allowKey !(← inFlow)
  mark .value 1

/-- A token that may be or start a key, and that no key may follow at once. -/
def word (r : Reading Token) : Scan Unit := do
  addCandidate
  allowKey false
  emit (← read r)

def blockScalar (folded : Bool) : Scan Unit := do
  allowKey true
  dropCandidate
  let margin := (← get).margin
  emit (.scalar (← read (block folded margin)) false)

def plainScalar : Scan Unit := do
  addCandidate
  allowKey false
  let (text, broken) ← read (plain (← inFlow) (← get).margin)
  if broken then allowKey true
  emit (.scalar text true)

/-- Tells whether a plain scalar can start with `c` before the text `rest`. -/
def startsPlain (flow : Bool) (c : Char) (rest : List Char) : Bool :=
  !(isGap c || "-?:,[]\x7b\x7d#&*!|>'\"%@`".contains c)
    || (!rest.head?.all isGap && (c = '-' || (!flow && (c = '?' || c = ':'))))

/-- The token that starts with `c`, which stands at the cursor before `rest`. -/
def token (c : Char) (rest : List Char) : Scan Unit := do
  let here := (← get).cursor
  let flow ← inFlow
  let alone := rest.head?.all isGap
  if here.column = 0 && c = '%' then
    endDocument
    emit (← read directive)
  else if here.column = 0 && here.atMarker then
    endDocument
    mark (if c = '-' then .documentStart else .documentEnd) 3
  else match c with
  | '[' => openFlow .flowSequence
  | '{' => openFlow .flowMapping
  | ']' => closeFlow .flowSequenceEnd
  | '}' => closeFlow .flowMappingEnd
  | ',' => do
    allowKey true
    dropCandidate
    mark .flowEntry 1
  | '*' => word (return .alias (← anchorName))
  | '&' => word (return .anchor (← anchorName))
  | '!' => word (return .tag (← tagName))
  | '\'' | '"' => word (return .scalar (← quoted c) false)
  | _ =>
    if c = '-' && alone then blockEntry
    else if c = '?' && (flow || alone) then explicitKey
    else if c = ':' && (flow || alone) then value
    else if (c = '|' || c = '>') && !flow then blockScalar (c = '>')
    else do
      guard (startsPlain flow c rest)
      plainScalar

/-- All tokens from the cursor on. -/
def tokens : Nat → Scan Unit
  | 0 => failure
  | fuel + 1 => do
    skipToToken ((← get).cursor.rest.length + 1)
    dropStale
    unwind ((← get).cursor.column + 1)
    match (← get).cursor.rest with
    | [] => endDocument
    | c :: rest => do
      token c rest
      tokens fuel

end Scan

/-- The tokens of a text, which may start with a byte order mark. -/
def Token.scan? (text : List Char) : Option (List Token) := do
  guard (text.all isPrintable)
  let start := Cursor.start text
  let start := if text.head? = some '\uFEFF' then start.next else start
  let (_, layout) ← Scan.tokens (text.length + 1) { cursor := start }
  return layout.tokens.toList

end Conductor.Yaml
