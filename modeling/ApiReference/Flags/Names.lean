/-
  Flag names and how a document's spelling leads to them.

  1. `words`         -- a run-together name split into its words: an acronym keeps its capitals
                        together and gives the last one back to a following title word, so
                        `UniqueESSymbol` has the words `Unique`, `ES`, `Symbol`;
  2. `flagName`      -- the table spelling of a name: its words in capitals, joined by underscores;
  3. `FlagFamily.table`, `Flags.parse` -- the bits of each name, and the flags of a list of names.
-/
import ApiReference.Data.Value
import ApiReference.Text.Case

namespace ApiReference

/-! ## 1. Words -/

/-- The ASCII capitals. -/
def isCapital (c : Char) : Bool := 'A' ≤ c && c ≤ 'Z'

/-- The ASCII small letters. -/
def isSmall (c : Char) : Bool := 'a' ≤ c && c ≤ 'z'

/-- Small letters and digits: what continues a word. -/
def isWordTail (c : Char) : Bool := isSmall c || ('0' ≤ c && c ≤ '9')

/-- How many of the leading capitals form an acronym: all of them, or all but the last when a small
    letter follows. -/
def acronymLength (cs : List Char) : Nat :=
  match cs.dropWhile isCapital with
  | c :: _ => if isSmall c then (cs.takeWhile isCapital).length - 1 else (cs.takeWhile isCapital).length
  | [] => (cs.takeWhile isCapital).length

/-- **The first word** of `c :: r` and what follows it; an empty word when `c` is in no word. -/
def firstWord (c : Char) (r : List Char) : List Char × List Char :=
  if 2 ≤ acronymLength (c :: r) then
    (c :: r.take (acronymLength (c :: r) - 1), r.drop (acronymLength (c :: r) - 1))
  else if isCapital c || isWordTail c then (c :: r.takeWhile isWordTail, r.dropWhile isWordTail)
  else ([], r)

/-- What follows the first word is no longer than what follows its first character. -/
theorem length_firstWord_rest (c : Char) (r : List Char) : (firstWord c r).2.length ≤ r.length := by
  unfold firstWord
  split
  · simp
  · split
    · exact (List.dropWhile_sublist _).length_le
    · simp

/-- **The words of a name**, in order. -/
def words : List Char → List (List Char)
  | [] => []
  | c :: r =>
    let rest := words (firstWord c r).2
    if (firstWord c r).1.isEmpty then rest else (firstWord c r).1 :: rest
termination_by cs => cs.length
decreasing_by exact Nat.lt_succ_of_le (length_firstWord_rest c r)

/-! ## 2. Table spelling -/

/-- **The table spelling of a flag name.**  A name in capitals, or with an underscore, only changes
    its case. -/
def flagName (name : String) : String :=
  if Text.isAllUpper name || name.toList.contains '_' then Text.upper name
  else "_".intercalate ((words name.toList).map (fun w => Text.upper (String.ofList w)))

/-! ## 3. Tables -/

/-- The bits of a union of named bit numbers. -/
def unionOf (ns : List Nat) : Nat := ns.foldl (fun b n => b ||| 1 <<< n) 0

/-- The names of the symbol flags. -/
def symbolNames : List (String × Nat) :=
  [("NONE", 0), ("FUNCTION_SCOPED_VARIABLE", 1 <<< 0), ("BLOCK_SCOPED_VARIABLE", 1 <<< 1),
   ("PROPERTY", 1 <<< 2), ("ENUM_MEMBER", 1 <<< 3), ("FUNCTION", 1 <<< 4), ("CLASS", 1 <<< 5),
   ("INTERFACE", 1 <<< 6), ("CONST_ENUM", 1 <<< 7), ("REGULAR_ENUM", 1 <<< 8),
   ("VALUE_MODULE", 1 <<< 9), ("NAMESPACE_MODULE", 1 <<< 10), ("TYPE_LITERAL", 1 <<< 11),
   ("OBJECT_LITERAL", 1 <<< 12), ("METHOD", 1 <<< 13), ("CONSTRUCTOR", 1 <<< 14),
   ("GET_ACCESSOR", 1 <<< 15), ("SET_ACCESSOR", 1 <<< 16), ("SIGNATURE", 1 <<< 17),
   ("TYPE_PARAMETER", 1 <<< 18), ("TYPE_ALIAS", 1 <<< 19), ("ALIAS", 1 <<< 21),
   ("PROTOTYPE", 1 <<< 22), ("OPTIONAL", 1 <<< 24), ("VARIABLE", unionOf [0, 1]),
   ("ENUM", unionOf [8, 7]), ("ACCESSOR", unionOf [15, 16]),
   ("CLASS_OR_INTERFACE", unionOf [5, 6]), ("FUNCTION_LIKE", unionOf [4, 13, 14, 17])]

/-- The names of the type flags. -/
def typeNames : List (String × Nat) :=
  [("NONE", 0), ("ANY", 1 <<< 0), ("UNKNOWN", 1 <<< 1), ("STRING", 1 <<< 2), ("NUMBER", 1 <<< 3),
   ("BOOLEAN", 1 <<< 4), ("ENUM", 1 <<< 5), ("BIG_INT", 1 <<< 6), ("STRING_LITERAL", 1 <<< 7),
   ("NUMBER_LITERAL", 1 <<< 8), ("BOOLEAN_LITERAL", 1 <<< 9), ("ENUM_LITERAL", 1 <<< 10),
   ("BIG_INT_LITERAL", 1 <<< 11), ("ES_SYMBOL", 1 <<< 12), ("UNIQUE_ES_SYMBOL", 1 <<< 13),
   ("VOID", 1 <<< 14), ("UNDEFINED", 1 <<< 15), ("NULL", 1 <<< 16), ("NEVER", 1 <<< 17),
   ("TYPE_PARAMETER", 1 <<< 18), ("OBJECT", 1 <<< 19), ("UNION", 1 <<< 20),
   ("INTERSECTION", 1 <<< 21), ("INDEX", 1 <<< 22), ("INDEXED_ACCESS", 1 <<< 23),
   ("CONDITIONAL", 1 <<< 24), ("SUBSTITUTION", 1 <<< 25), ("NON_PRIMITIVE", 1 <<< 26),
   ("TEMPLATE_LITERAL", 1 <<< 27), ("LITERAL", unionOf [7, 8, 11, 9]),
   ("ENUM_LIKE", unionOf [5, 10]), ("UNION_OR_INTERSECTION", unionOf [20, 21]),
   ("INTRINSIC", unionOf [0, 1, 17, 14, 15, 16, 2, 3, 4, 6, 12, 26, 9])]

/-- The names of the object flags. -/
def objectNames : List (String × Nat) :=
  [("NONE", 0), ("CLASS", 1 <<< 0), ("INTERFACE", 1 <<< 1), ("REFERENCE", 1 <<< 2),
   ("TUPLE", 1 <<< 3), ("ANONYMOUS", 1 <<< 4), ("MAPPED", 1 <<< 5),
   ("CLASS_OR_INTERFACE", unionOf [0, 1])]

/-- The names of the modifier flags. -/
def modifierNames : List (String × Nat) :=
  [("NONE", 0), ("EXPORT", 1 <<< 0), ("AMBIENT", 1 <<< 1), ("PUBLIC", 1 <<< 2),
   ("PRIVATE", 1 <<< 3), ("PROTECTED", 1 <<< 4), ("STATIC", 1 <<< 5), ("READONLY", 1 <<< 6),
   ("ABSTRACT", 1 <<< 7), ("ASYNC", 1 <<< 8), ("DEFAULT", 1 <<< 9), ("CONST", 1 <<< 11)]

/-- **The names of a family** with their bits; some names stand for several bits. -/
def FlagFamily.table : FlagFamily → List (String × Nat)
  | .symbol => symbolNames
  | .type => typeNames
  | .object => objectNames
  | .modifier => modifierNames

namespace Flags

variable {family : FlagFamily}

/-- The flags of one name, as the document writes it; `null` is the name `Null`. -/
def ofName (name : Value) : Except Fault (Flags family) :=
  let written := match name with
    | .null => "Null"
    | v => v.text
  match family.table.lookup (flagName written) with
  | some bits => .ok ⟨bits⟩
  | none => .error (.unknownFlag family name.text)

/-- **The flags of a document field**: nothing, one name, or a sequence of names. -/
def parse (names : Value) : Except Fault (Flags family) :=
  if names.isTrue then
    match names with
    | .str _ => ofName names
    | v => do
      let ns ← v.elements
      ns.foldlM (fun fs n => do return fs ∪ (← ofName n)) ∅
  else .ok ∅

end Flags

/-! ## 4. The flags the library asks for -/

/-- Flags of symbols. -/
abbrev SymbolFlags := Flags .symbol
/-- Flags of types. -/
abbrev TypeFlags := Flags .type
/-- Flags of object types. -/
abbrev ObjectFlags := Flags .object
/-- Modifiers written on declarations. -/
abbrev SyntaxFlags := Flags .modifier

namespace SymbolFlags

def variableKinds : SymbolFlags := ⟨unionOf [0, 1]⟩
def properties : SymbolFlags := .bit 2
def enumMembers : SymbolFlags := .bit 3
def functions : SymbolFlags := .bit 4
def classes : SymbolFlags := .bit 5
def classesAndInterfaces : SymbolFlags := ⟨unionOf [5, 6]⟩
def constEnums : SymbolFlags := .bit 7
def enums : SymbolFlags := ⟨unionOf [7, 8]⟩
def valueModules : SymbolFlags := .bit 9
def namespaceModules : SymbolFlags := .bit 10
def methods : SymbolFlags := .bit 13
def constructors : SymbolFlags := .bit 14
def accessors : SymbolFlags := ⟨unionOf [15, 16]⟩
def setters : SymbolFlags := .bit 16
def typeAliases : SymbolFlags := .bit 19
def aliases : SymbolFlags := .bit 21
def prototypes : SymbolFlags := .bit 22
def optionals : SymbolFlags := .bit 24

/-- Functions, methods, constructors and bare signatures. -/
def callables : SymbolFlags := ⟨unionOf [4, 13, 14, 17]⟩

/-- Symbols that an anonymous object type can stand for. -/
def typeQueries : SymbolFlags := ⟨unionOf [10, 13, 4, 5, 7, 8]⟩

end SymbolFlags

namespace TypeFlags

/-- The types a language has built in. -/
def intrinsics : TypeFlags := ⟨unionOf [0, 1, 17, 14, 15, 16, 2, 3, 4, 6, 12, 26, 9]⟩
def any : TypeFlags := .bit 0
def enums : TypeFlags := .bit 5
def enumLike : TypeFlags := ⟨unionOf [5, 10]⟩
def stringLiterals : TypeFlags := .bit 7
def numberLiterals : TypeFlags := .bit 8
def bigintLiterals : TypeFlags := .bit 11
def uniqueSymbols : TypeFlags := .bit 13
def typeParameters : TypeFlags := .bit 18
def objects : TypeFlags := .bit 19
def unions : TypeFlags := .bit 20
def unionsAndIntersections : TypeFlags := ⟨unionOf [20, 21]⟩
def keyQueries : TypeFlags := .bit 22
def indexedAccesses : TypeFlags := .bit 23
def conditionals : TypeFlags := .bit 24
def substitutions : TypeFlags := .bit 25
def templateLiterals : TypeFlags := .bit 27

end TypeFlags

namespace ObjectFlags

def classes : ObjectFlags := .bit 0
def classesAndInterfaces : ObjectFlags := ⟨unionOf [0, 1]⟩
def references : ObjectFlags := .bit 2
def tuples : ObjectFlags := .bit 3
def anonymous : ObjectFlags := .bit 4

end ObjectFlags

namespace SyntaxFlags

def exports : SyntaxFlags := .bit 0
def ambient : SyntaxFlags := .bit 1
def publics : SyntaxFlags := .bit 2
def privates : SyntaxFlags := .bit 3
def protecteds : SyntaxFlags := .bit 4
def statics : SyntaxFlags := .bit 5
def readonlyOrConst : SyntaxFlags := ⟨unionOf [6, 11]⟩
def abstracts : SyntaxFlags := .bit 7
def asyncs : SyntaxFlags := .bit 8
def defaults : SyntaxFlags := .bit 9

end SyntaxFlags

end ApiReference
