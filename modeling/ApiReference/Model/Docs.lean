/-
  The documentation of a member, and how comments and tags fold into it.

  1. `Docs`          -- the documentation fields, each set or unset;
  2. `appendText`    -- repeated tags of one kind share a field, one text a line;
  3. `Docs.backfill` -- a member takes over what it leaves unset from the member it overrides, or
                        from its last overload.
-/
import ApiReference.Data.Value

namespace ApiReference

/-! ## 1. Documentation fields -/

/-- **Named texts in order of first mention.** -/
abbrev NamedTexts := List (String × String)

/-- **The documentation fields of a member.** -/
structure Docs where
  summary : Option String := none
  description : Option String := none
  examples : Option (List String) := none
  seeAlso : Option (List String) := none
  since : Option String := none
  category : Option String := none
  deprecatedMessage : Option String := none
  defaultValue : Option Value := none
  unknownTags : Option NamedTexts := none
  returnSummary : Option Value := none
deriving Repr, Inhabited

/-! ## 2. Repeated texts -/

/-- **A text added to a field** on a line of its own; an empty text adds nothing, and an empty field
    is replaced. -/
def appendText (existing addition : Option String) : Option String :=
  match addition with
  | none => existing
  | some "" => existing
  | some a =>
    match existing with
    | none => some a
    | some "" => some a
    | some e => some (e ++ "\n" ++ a)

namespace NamedTexts

/-- The text of a name. -/
def get? (ts : NamedTexts) (name : String) : Option String := ts.lookup name

/-- One name set: replaced in place, or added at the end. -/
def set (name text : String) : NamedTexts → NamedTexts
  | [] => [(name, text)]
  | (n, t) :: r => if n = name then (n, text) :: r else (n, t) :: set name text r

/-- **A text added under a name.** -/
def add (ts : NamedTexts) (name text : String) : NamedTexts :=
  set name ((appendText (ts.get? name) (some text)).getD "") ts

end NamedTexts

/-! ## 3. Taking over documentation -/

/-- **Unset fields are taken over**, set ones stay. -/
def Docs.backfill (target source : Docs) : Docs where
  summary := target.summary <|> source.summary
  description := target.description <|> source.description
  examples := target.examples <|> source.examples
  seeAlso := target.seeAlso <|> source.seeAlso
  since := target.since <|> source.since
  category := target.category <|> source.category
  deprecatedMessage := target.deprecatedMessage <|> source.deprecatedMessage
  defaultValue := target.defaultValue <|> source.defaultValue
  unknownTags := target.unknownTags <|> source.unknownTags
  returnSummary := target.returnSummary <|> source.returnSummary

end ApiReference
