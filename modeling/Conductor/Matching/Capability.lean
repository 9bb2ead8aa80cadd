import Conductor.Decimal.Nearest
import Conductor.Matching.Keywords

/-! Which capabilities a keyword calls for, and how well a set of them covers a task. -/

namespace Conductor.Matching

/-- A group of words that stand for one capability; the first of them names it. -/
structure Synonyms where
  root : List Char
  others : List (List Char)

def Synonyms.terms (g : Synonyms) : List (List Char) := g.root :: g.others

def synonyms : List Synonyms := ([
  ("code", ["coding", "programming", "development", "software", "developer"]),
  ("write", ["writing", "content", "copywriting", "author", "documentation"]),
  ("analyze", ["analysis", "analytics", "data", "research", "investigate"]),
  ("design", ["designing", "ui", "ux", "graphic", "visual", "creative"]),
  ("communicate", ["communication", "email", "messaging", "outreach", "correspondence"]),
  ("automate", ["automation", "scripting", "workflow", "bot"]),
  ("search", ["searching", "research", "find", "lookup", "query"]),
  ("organize", ["organization", "manage", "schedule", "planning", "coordinate"]),
  ("translate", ["translation", "language", "localize", "i18n"]),
  ("summarize", ["summary", "digest", "brief", "overview", "recap"])] : List (String × List String)).map
    fun g => ⟨g.1.toList, g.2.map String.toList⟩

/-- Some term of the group occurs in the text. -/
def Synonyms.touches (g : Synonyms) (s : List Char) : Bool := g.terms.any (Text.occurs · s)

/-- One of the two contains the other, or both contain a term of one group. Case does not count. -/
def fits (capability keyword : List Char) : Bool :=
  let c := Text.lower capability
  let k := Text.lower keyword
  Text.occurs k c || Text.occurs c k || synonyms.any fun g => g.touches c && g.touches k

/-- The capabilities that fit some keyword, each once, in order, after those of `found`. -/
def matchedFrom (keywords : List (List Char)) (found : List (List Char)) :
    List (List Char) → List (List Char)
  | [] => found
  | c :: cs =>
    if found.contains c then matchedFrom keywords found cs
    else if keywords.any (fits c) then matchedFrom keywords (found ++ [c]) cs
    else matchedFrom keywords found cs

def matched (keywords capabilities : List (List Char)) : List (List Char) :=
  matchedFrom keywords [] capabilities

/-- The share of the keywords that `count` capabilities make up, at most one. -/
def share (count keywords : Nat) : Float :=
  if keywords = 0 then 0.0
  else
    let x := Decimal.nearest count keywords
    if 1.0 < x then 1.0 else x

def score (keywords capabilities : List (List Char)) : Float :=
  share (matched keywords capabilities).length keywords.length

/-- Writes a tag at the end of a list unless it is there. -/
def addTag (tags : List (List Char)) (tag : List Char) : List (List Char) :=
  if tags.contains tag then tags else tags ++ [tag]

/-- The keyword is part of a term of the group, or the other way round. -/
def Synonyms.near (g : Synonyms) (keyword : List Char) : Bool :=
  g.terms.any fun t => Text.occurs keyword t || Text.occurs t keyword

/-- The tags that one keyword suggests: the names of its groups, and itself if it is long enough. -/
def tagsOf (keyword : List Char) : List (List Char) :=
  (synonyms.filter (·.near keyword)).map (·.root) ++ if keyword.length > 3 then [keyword] else []

/-- Capability tags for a task, in the order in which its keywords bring them in. -/
def suggest (text : List Char) : List (List Char) :=
  ((keywords text).flatMap tagsOf).foldl addTag []

end Conductor.Matching
