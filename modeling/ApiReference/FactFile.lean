/-
  The content of fact and configuration files.

  A file holds one document in JSON notation, or nothing.  A fact file may begin with a header line
  that names its kind; lines that begin with `#` before the document are comments.

  1. `stripHeader`, `readDocument`;
  2. `loadFacts`       -- the document of a fact file, its sections completed.
-/
import ApiReference.Data.Json
import ApiReference.Facts.Link
import ApiReference.Text.Basic

namespace ApiReference

/-! ## 1. Documents -/

/-- The start of a header line. -/
def headerStart : String := "### YamlMime:"

/-- **The text without its header line** and the empty lines after it. -/
def stripHeader (text : String) : String :=
  let (first, rest) := Text.breakAt (· == '\n') text.toList
  if headerStart.toList.isPrefixOf first then String.ofList (rest.dropWhile (· == '\n')) else text

/-- The text after its leading blanks and comment lines. -/
def skipComments : (fuel : Nat) → List Char → List Char
  | 0, cs => cs
  | n + 1, cs =>
    match Json.skip cs with
    | '#' :: r => skipComments n (Text.breakAt (· == '\n') r).2
    | r => r

/-- **The document of a text**; an empty text is `null`. -/
def readDocument (text : String) : Except Fault Value :=
  match skipComments (text.toList.length + 1) text.toList with
  | [] => .ok .null
  | cs => match Json.read? (String.ofList cs) with
    | some v => .ok v
    | none => .error .unreadable

/-- The content of a file as text: line ends are unified. -/
def fileText (content : String) : String := String.ofList (Text.unifyNewlines content.toList)

/-! ## 2. Fact files -/

/-- **The fact document of a file.**  A document that does not count as set is an empty one, and any
    other must be a map. -/
def loadFacts (path content : String) : Except Fault Value := do
  let v ← readDocument (stripHeader (fileText content))
  if v.isTrue then
    match v with
    | .map es => .ok (.map (Link.withSections es))
    | _ => .error (.notAMapping path)
  else .ok (.map (Link.withSections []))

end ApiReference
