import Conductor.Text.Lower
import Conductor.Text.Split
import Conductor.Text.Word

/-! The words of a task description that tell what it is about. -/

namespace Conductor.Matching

def stopWords : List (List Char) := [
  "the", "a", "an", "and", "or", "but", "in", "on", "at", "to", "for", "of", "with", "by", "from",
  "as", "is", "was", "are", "were", "been", "be", "have", "has", "had", "do", "does", "did", "will",
  "would", "could", "should", "may", "might", "must", "shall", "can", "need", "this", "that", "these",
  "those", "i", "me", "my", "we", "our", "you", "your", "it", "its", "they", "them", "their", "what",
  "which", "who", "whom", "where", "when", "why", "how", "all", "each", "every", "both", "few", "more",
  "most", "some", "any", "no", "not", "only", "just", "also", "very"].map String.toList

/-- Punctuation becomes a blank. -/
def spaced (c : Char) : Char := if Text.isWord c || Text.isBlank c then c else ' '

def isKeyword (w : List Char) : Bool := w.length > 2 && !stopWords.contains w

/-- The keywords of a text in their order, each as often as it occurs. -/
def keywords (text : List Char) : List (List Char) :=
  (Text.words ((Text.lower text).map spaced)).filter isKeyword

end Conductor.Matching
