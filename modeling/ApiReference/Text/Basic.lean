/-
  Small operations on texts, all defined on their characters.

  A text is taken apart as a list of characters, so that every operation here has the lemmas of
  lists.
-/
namespace ApiReference.Text

/-- Does the text begin with `start`? -/
def startsWith (s start : String) : Bool := start.toList.isPrefixOf s.toList

/-- Does the text end with `tail`? -/
def endsWith (s tail : String) : Bool := tail.toList.isSuffixOf s.toList

/-- Every `old` character becomes `new`. -/
def replaceChar (s : String) (old new : Char) : String :=
  String.ofList (s.toList.map (fun c => if c = old then new else c))

/-- The part before the first character that satisfies `p`, and the part after it. -/
def breakAt (p : Char → Bool) (cs : List Char) : List Char × List Char :=
  (cs.takeWhile (fun c => !p c), (cs.dropWhile (fun c => !p c)).drop 1)

/-- The text after its last dot; the whole text when it has none. -/
def afterLastDot (s : String) : String :=
  String.ofList (s.toList.reverse.takeWhile (· != '.')).reverse

/-- The parts of a list between separators. -/
def splitOn {α : Type} [DecidableEq α] (sep : α) : List α → List (List α)
  | [] => [[]]
  | c :: r =>
    if c = sep then [] :: splitOn sep r
    else match splitOn sep r with
      | [] => [[c]]
      | w :: ws => (c :: w) :: ws

/-- **Line ends as one character**: a carriage return, alone or before a line feed, becomes a line
    feed. -/
def unifyNewlines : List Char → List Char
  | [] => []
  | '\r' :: '\n' :: r => '\n' :: unifyNewlines r
  | '\r' :: r => '\n' :: unifyNewlines r
  | c :: r => c :: unifyNewlines r

/-- The characters that end a line. -/
def isLineEnd (c : Char) : Bool :=
  [0xa, 0xb, 0xc, 0xd, 0x1c, 0x1d, 0x1e, 0x85, 0x2028, 0x2029].contains c.toNat

/-- **The lines of a text**, each up to the character that ends it. -/
def lines : List Char → List (List Char)
  | [] => []
  | '\r' :: '\n' :: r => [] :: lines r
  | c :: r =>
    if isLineEnd c then [] :: lines r
    else match lines r with
      | [] => [[c]]
      | w :: ws => (c :: w) :: ws

end ApiReference.Text
