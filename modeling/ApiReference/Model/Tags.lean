/-
  Folding documentation tags into records.

  * `Member.applyTags`     -- the tags of a member's comment.  Visibility is not set but returned, so
                              that the caller can add it after all written modifiers.
  * `UnitRecord.applyTags` -- the tags of a file.

  A tag either adds to a field (a line more, an entry more), or replaces it, or sets a mark; names
  that no rule knows collect under their own name.
-/
import ApiReference.Model.Records

namespace ApiReference

/-- The visibility that a level of an `access` tag names; unknown levels are public. -/
def accessLevel (level : String) : Modifier :=
  match level with
  | "package" => .internal
  | "internal" => .internal
  | "protected" => .protected_
  | "private" => .private_
  | _ => .public_

/-- The visibility that a tag sets by its own name. -/
def accessibilityTag? (name : String) : Option Modifier :=
  match name with
  | "internal" => some .internal
  | "package" => some .internal
  | "private" => some .private_
  | "protected" => some .protected_
  | "public" => some .public_
  | _ => none

/-- Tags that other parts of the record take care of. -/
def isSkippedTag (name : String) : Bool :=
  ["param", "return", "returns", "type", "template", "typeparam"].contains name

namespace Member

/-- A change of the documentation fields. -/
def mapDocs (m : Member) (f : Docs → Docs) : Member := { m with docs := f m.docs }

/-- The effect of a tag on the record, visibility apart. -/
def applyTag (m : Member) (tag : Tag) : Member :=
  let text := some tag.text
  match tag.name with
  | "example" => m.mapDocs fun d => { d with examples := some (d.examples.getD [] ++ [tag.text]) }
  | "see" => m.mapDocs fun d => { d with seeAlso := some (d.seeAlso.getD [] ++ [tag.text]) }
  | "desc" | "description" | "remarks" =>
    m.mapDocs fun d => { d with description := appendText d.description text }
  | "ignore" | "hidden" => { m with ignored := true }
  | "since" => m.mapDocs fun d => { d with since := appendText d.since text }
  | "deprecated" =>
    (m.mark .deprecated).mapDocs fun d =>
      { d with deprecatedMessage := appendText d.deprecatedMessage text }
  | "default" => m.mapDocs fun d => { d with defaultValue := some (.str tag.text) }
  | "category" => m.mapDocs fun d => { d with category := text }
  | "summary" => m.mapDocs fun d => { d with summary := appendText d.summary text }
  | "experimental" | "beta" => m.mark .experimental
  | "todo" => { m.mark .experimental with ignored := true }
  | "access" => m
  | "abstract" => m.mark .abstract_
  | "final" | "sealed" => m.mark .final
  | "readonly" => m.mark .readOnly
  | "name" => { m with name := .str tag.text }
  | name => m.mapDocs fun d => { d with unknownTags := some ((d.unknownTags.getD []).add name tag.text) }

/-- **One tag**: the record it leaves and the visibility in force after it. -/
def foldTag (state : Member × Modifier) (tag : Tag) : Member × Modifier :=
  let (m, access) := state
  if isSkippedTag tag.name then (m, access)
  else match accessibilityTag? tag.name with
    | some level =>
      (m.mapDocs fun d => { d with summary := appendText d.summary (some tag.text) }, level)
    | none =>
      (m.applyTag tag, if tag.name = "access" then accessLevel (Text.trim tag.text) else access)

/-- **All tags in order.** -/
def applyTags (m : Member) (tags : List Tag) (access : Modifier) : Member × Modifier :=
  tags.foldl foldTag (m, access)

end Member

namespace UnitRecord

/-- The effect of a tag on a unit. -/
def applyTag (u : UnitRecord) (tag : Tag) : UnitRecord :=
  let text := some tag.text
  match tag.name with
  | "file" | "fileoverview" => { u with summary := appendText u.summary text }
  | "author" => { u with author := appendText u.author text }
  | "copyright" => { u with copyright := appendText u.copyright text }
  | "license" | "licence" => { u with license := appendText u.license text }
  | "module" =>
    { u with isModule := true, name := if tag.text = "" then u.name else tag.text }
  | "version" => { u with version := text }
  | "created" => { u with created := text }
  | "modified" => { u with modified := text }
  | name => { u with unknownTags := some ((u.unknownTags.getD []).add name tag.text) }

/-- **All tags in order.** -/
def applyTags (u : UnitRecord) (tags : List Tag) : UnitRecord := tags.foldl applyTag u

end UnitRecord

end ApiReference
