/-
  Documentation tags, folded field by field.

  A tag writes at most one text field of a record, and may mark the record, hide it or name its
  visibility besides.  So each field is folded from the tags that write it, in order and whatever stands
  between them; and two neighbours that write different fields may change places.

  1. `Tag.field?`, `Tag.mark?`, `Tag.hides` -- what a tag is about;
  2. `foldTag_eq`        -- all that one tag does to a record;
  3. `texts`, `foldl_field` -- the texts of a field, and a field as the fold of its texts;
  4. `lines?`, `NamedTexts.add_map` -- texts as lines, and lines under names;
  5. `Member.folded`, `applyTags_fresh` -- what all tags leave of a fresh record;
  6. `applyTags_fieldwise` -- the same, and neighbours that do not write the same field.
-/
import ApiReference.Proofs.Facts.Access
import ApiReference.Proofs.Facts.Overrides
import ApiReference.Proofs.Model.Order
import Mathlib.Data.List.Perm.Basic

namespace ApiReference

/-! ## 1. What a tag is about -/

/-- **The parts of a record that hold the texts of tags.**  What no rule knows is kept under its name. -/
inductive TextField where
  | examples
  | seeAlso
  | description
  | since
  | deprecatedMessage
  | summary
  | defaultValue
  | category
  | name
  | unknown (name : String)
deriving DecidableEq, Repr

namespace Tag

/-- **Where the text of a tag goes**, if it goes anywhere. -/
def field? (tag : Tag) : Option TextField :=
  match tag.name with
  | "example" => some .examples
  | "see" => some .seeAlso
  | "desc" | "description" | "remarks" => some .description
  | "since" => some .since
  | "deprecated" => some .deprecatedMessage
  | "summary" | "internal" | "package" | "private" | "protected" | "public" => some .summary
  | "default" => some .defaultValue
  | "category" => some .category
  | "name" => some .name
  | "ignore" | "hidden" | "todo" | "experimental" | "beta" | "abstract" | "final" | "sealed"
  | "readonly" | "access" => none
  | "param" | "return" | "returns" | "type" | "template" | "typeparam" => none
  | name => some (.unknown name)

/-- The modifier that a tag sets, visibility apart. -/
def mark? (tag : Tag) : Option Modifier :=
  match tag.name with
  | "deprecated" => some .deprecated
  | "experimental" | "beta" | "todo" => some .experimental
  | "abstract" => some .abstract_
  | "final" | "sealed" => some .final
  | "readonly" => some .readOnly
  | _ => none

/-- Does a tag ask to leave the record out? -/
def hides (tag : Tag) : Bool := ["ignore", "hidden", "todo"].contains tag.name

/-- The name of a tag that no rule knows. -/
def unknown? (tag : Tag) : Option String :=
  match tag.field? with
  | some (.unknown name) => some name
  | _ => none

end Tag

/-! ## 2. One tag -/

/-- A text put into a field. -/
def Docs.put (d : Docs) (text : String) : Option TextField → Docs
  | some .examples => { d with examples := some (d.examples.getD [] ++ [text]) }
  | some .seeAlso => { d with seeAlso := some (d.seeAlso.getD [] ++ [text]) }
  | some .description => { d with description := appendText d.description (some text) }
  | some .since => { d with since := appendText d.since (some text) }
  | some .deprecatedMessage =>
    { d with deprecatedMessage := appendText d.deprecatedMessage (some text) }
  | some .summary => { d with summary := appendText d.summary (some text) }
  | some .defaultValue => { d with defaultValue := some (.str text) }
  | some .category => { d with category := some text }
  | some (.unknown name) => { d with unknownTags := some ((d.unknownTags.getD []).add name text) }
  | some .name | none => d

namespace Member

/-- A record with one tag more. -/
def told (m : Member) (tag : Tag) : Member :=
  { m with
    name := if tag.field? = some .name then .str tag.text else m.name
    ignored := tag.hides || m.ignored
    modifiers := (tag.mark?.map m.modifiers.insert).getD m.modifiers
    docs := m.docs.put tag.text tag.field? }

/-- The names that some rule knows. -/
def ruledNames : List String :=
  ["example", "see", "desc", "description", "remarks", "ignore", "hidden", "since", "deprecated",
   "default", "category", "summary", "experimental", "beta", "todo", "access", "abstract", "final",
   "sealed", "readonly", "name", "internal", "package", "private", "protected", "public",
   "param", "return", "returns", "type", "template", "typeparam"]

theorem mem_ruledNames_of_skipped : ∀ name ∈ ["param", "return", "returns", "type", "template", "typeparam"],
    name ∈ ruledNames := by decide

theorem mem_ruledNames_of_hiding : ∀ name ∈ ["ignore", "hidden", "todo"], name ∈ ruledNames := by decide

theorem foldTag_of_ruled (m : Member) (a : Modifier) (text : String) :
    ∀ name ∈ ruledNames, (foldTag (m, a) ⟨name, text⟩).1 = m.told ⟨name, text⟩ := by
  simp only [ruledNames, List.forall_mem_cons]
  and_intros
  all_goals first | rfl | nofun

/-- A name that no rule knows is kept with its text, and does nothing else. -/
theorem field?_of_unruled {name : String} (text : String) (h : name ∉ ruledNames) :
    Tag.field? ⟨name, text⟩ = some (.unknown name) ∧ Tag.mark? ⟨name, text⟩ = none ∧
      Tag.hides ⟨name, text⟩ = false := by
  refine ⟨?_, ?_, ?_⟩
  · unfold Tag.field?
    dsimp only
    split <;> first | rfl | exact absurd (by decide) h
  · unfold Tag.mark?
    dsimp only
    split <;> first | rfl | exact absurd (by decide) h
  · rw [Tag.hides, List.contains_eq_mem]
    exact decide_eq_false fun hmem => h (mem_ruledNames_of_hiding name hmem)

theorem foldTag_of_unruled (m : Member) (a : Modifier) {name text : String} (h : name ∉ ruledNames) :
    (foldTag (m, a) ⟨name, text⟩).1 = m.told ⟨name, text⟩ := by
  obtain ⟨hfield, hmark, hhides⟩ := field?_of_unruled text h
  have hskipped : isSkippedTag name = false := by
    rw [isSkippedTag, List.contains_eq_mem]
    exact decide_eq_false fun hmem => h (mem_ruledNames_of_skipped name hmem)
  have haccess : accessibilityTag? name = none := by
    unfold accessibilityTag?
    split <;> first | rfl | exact absurd (by decide) h
  rw [told, hfield, hmark, hhides, foldTag]
  simp only [hskipped, haccess, applyTag, Bool.false_eq_true, if_false]
  split <;> first | rfl | exact absurd (by decide) h

/-- **All that one tag does to a record.** -/
theorem foldTag_eq (st : Member × Modifier) (tag : Tag) : (foldTag st tag).1 = st.1.told tag := by
  by_cases h : tag.name ∈ ruledNames
  · exact foldTag_of_ruled st.1 st.2 tag.text tag.name h
  · exact foldTag_of_unruled st.1 st.2 h

/-- **All that tags do to a record**, one after the other. -/
theorem applyTags_eq (m : Member) (tags : List Tag) (a : Modifier) :
    (m.applyTags tags a).1 = tags.foldl told m := by
  unfold applyTags
  suffices h : ∀ st : Member × Modifier, (tags.foldl foldTag st).1 = tags.foldl told st.1 from h (m, a)
  induction tags with
  | nil => exact fun _ => rfl
  | cons tag tags ih => exact fun st => (ih _).trans (by rw [foldTag_eq, List.foldl_cons])

end Member

/-! ## 3. The texts of a field -/

/-- **The texts that tags have for a field**, in order. -/
def texts (field : TextField) (tags : List Tag) : List String :=
  tags.filterMap fun tag => if tag.field? = some field then some tag.text else none

theorem texts_cons (field : TextField) (tag : Tag) (tags : List Tag) : texts field (tag :: tags) =
    if tag.field? = some field then tag.text :: texts field tags else texts field tags := by
  by_cases h : tag.field? = some field
  · simp [texts, h]
  · simp [texts, h]

namespace Member

/-- **A field is folded from its texts.**  It is enough that a tag that writes the field does so from the
    text and the field alone, and that no other tag touches it. -/
theorem foldl_field {α : Type} (get : Member → α) (field : TextField) (update : α → String → α)
    (h : ∀ m tag, get (m.told tag) = if tag.field? = some field then update (get m) tag.text else get m)
    (tags : List Tag) (m : Member) :
    get (tags.foldl told m) = (texts field tags).foldl update (get m) := by
  -- over the tags from the front, for any record so far; a tag for another field only passes it on
  induction tags generalizing m with
  | nil => rfl
  | cons tag tags ih =>
    rw [List.foldl_cons, ih, h, texts_cons]
    split <;> rfl

end Member

/-! ## 4. Lists, lines and names -/

/-- A list that is unset when it is empty. -/
def unlessEmpty {α : Type} (xs : List α) : Option (List α) := if xs = [] then none else some xs

theorem getD_unlessEmpty {α : Type} (xs : List α) : (unlessEmpty xs).getD [] = xs := by
  unfold unlessEmpty
  split
  next h => exact h.symm
  next => rfl

theorem isSome_unlessEmpty {α : Type} (xs : List α) : (unlessEmpty xs).isSome = !xs.isEmpty := by
  cases xs <;> rfl

theorem unlessEmpty_concat {α : Type} (xs : List α) (x : α) : unlessEmpty (xs ++ [x]) = some (xs ++ [x]) :=
  if_neg (List.append_ne_nil_of_right_ne_nil xs (List.cons_ne_nil x []))

/-- Entries added one by one. -/
theorem foldl_entries (ts : List String) :
    ts.foldl (fun o t => some (o.getD [] ++ [t])) none = unlessEmpty ts := by
  induction ts using List.reverseRecOn with
  | nil => rfl
  | append_singleton ts t ih => rw [List.foldl_concat, ih, getD_unlessEmpty, unlessEmpty_concat]

/-- The last of some texts stays. -/
theorem foldl_last {α : Type} (f : String → α) (x : α) (ts : List String) :
    ts.foldl (fun _ t => f t) x = (ts.getLast?.map f).getD x := by
  induction ts using List.reverseRecOn with
  | nil => rfl
  | append_singleton ts t _ => rw [List.foldl_concat, List.getLast?_concat]; rfl

theorem foldl_last_some {α : Type} (f : String → α) (ts : List String) :
    ts.foldl (fun _ t => some (f t)) none = ts.getLast?.map f := by
  rw [foldl_last fun t => some (f t)]
  cases ts.getLast? <;> rfl

/-- The texts that make a line: all but the empty ones. -/
def lines (ts : List String) : List String := ts.filter (· ≠ "")

theorem lines_append (ts us : List String) : lines (ts ++ us) = lines ts ++ lines us :=
  List.filter_append ts us

theorem lines_singleton {t : String} (ht : t ≠ "") : lines [t] = [t] :=
  List.filter_cons_of_pos (decide_eq_true ht)

theorem ne_empty_of_mem_lines {ts : List String} {t : String} (h : t ∈ lines ts) : t ≠ "" :=
  of_decide_eq_true (List.mem_filter.1 h).2

/-- **Texts as lines**, after the one that is there already.  Without any line the field stays as it is. -/
def lines? (start : Option String) (ts : List String) : Option String :=
  if lines ts = [] then start else some ("\n".intercalate (lines (start.toList ++ ts)))

theorem intercalate_ne_empty {sep : String} {ts : List String} (hts : ts ≠ []) (h : ∀ t ∈ ts, t ≠ "") :
    sep.intercalate ts ≠ "" := by
  obtain ⟨t, ts, rfl⟩ := List.exists_cons_of_ne_nil hts
  have ht : t ≠ "" := h t List.mem_cons_self
  cases ts with
  | nil => rwa [String.intercalate_singleton]
  | cons u ts =>
    rw [String.intercalate_cons_cons]
    simp only [ne_eq, String.append_eq_empty_iff, ht, false_and, not_false_eq_true]

/-- One more line. -/
theorem appendText_some {start : Option String} {t : String} (ht : t ≠ "") :
    appendText start (some t) = some ("\n".intercalate (lines start.toList ++ [t])) := by
  unfold appendText
  split
  next h => exact nomatch h
  next h => exact absurd (Option.some.inj h) ht
  next u _ h =>
    obtain rfl := Option.some.inj h
    split
    next => rfl
    next => rfl
    next e hne =>
      rw [Option.toList_some, lines_singleton fun he => hne (he ▸ rfl), List.singleton_append,
        String.intercalate_cons_cons, String.intercalate_singleton]

/-- A text added to lines is one more line, or none. -/
theorem appendText_lines? (start : Option String) (ts : List String) (t : String) :
    appendText (lines? start ts) (some t) = lines? start (ts ++ [t]) := by
  by_cases ht : t = ""
  -- an empty text is no line, on either side
  · subst ht
    have hlines : ∀ us : List String, lines (us ++ [""]) = lines us := fun us =>
      (lines_append us [""]).trans (List.append_nil _)
    rw [lines?, lines?, hlines, ← List.append_assoc, hlines]
    rfl
  · rw [appendText_some ht, lines?, lines?, ← List.append_assoc, lines_append ts, lines_append (_ ++ ts),
      lines_singleton ht, if_neg (List.append_ne_nil_of_right_ne_nil _ (List.cons_ne_nil t []))]
    -- the first line is put behind the start, every later one behind the lines so far
    by_cases hts : lines ts = []
    · rw [if_pos hts, lines_append, hts, List.append_nil]
    · have hne : lines (start.toList ++ ts) ≠ [] := by
        rw [lines_append]
        exact List.append_ne_nil_of_right_ne_nil _ hts
      have htext : "\n".intercalate (lines (start.toList ++ ts)) ≠ "" :=
        intercalate_ne_empty hne fun _ => ne_empty_of_mem_lines
      rw [if_neg hts, Option.toList_some, lines_singleton htext, List.singleton_append,
        String.intercalate_cons_cons, String.intercalate_singleton,
        String.intercalate_append_of_ne_nil hne (List.cons_ne_nil t []), String.intercalate_singleton]

/-- **Texts added one by one stand in lines.** -/
theorem foldl_appendText (start : Option String) (ts : List String) :
    ts.foldl (fun o t => appendText o (some t)) start = lines? start ts := by
  induction ts using List.reverseRecOn with
  | nil => exact (if_pos rfl).symm
  | append_singleton ts t ih => rw [List.foldl_concat, ih, appendText_lines?]

/-- An empty text is as good as none to add to. -/
theorem appendText_getD (o : Option String) (t : String) :
    (appendText (some (o.getD "")) (some t)).getD "" = (appendText o (some t)).getD "" := by
  cases o with
  | some _ => rfl
  | none =>
    by_cases ht : t = ""
    · rw [ht]; rfl
    · rw [appendText_some ht, appendText_some ht]; rfl

namespace NamedTexts

/-- The text of a name in a list that has one for each of some names. -/
theorem get?_map (names : List String) (g : String → String) (n : String) :
    get? (names.map fun k => (k, g k)) n = if n ∈ names then some (g n) else none := by
  rw [get?]
  induction names with
  | nil => rfl
  | cons k names ih =>
    rw [List.map_cons, List.lookup_cons]
    by_cases hk : n = k
    · simp [hk]
    · simp [beq_false_of_ne hk, hk, ih]

/-- A text set under a name: a new name comes last. -/
theorem set_map {names : List String} (hnames : names.Nodup) (g : String → String) (n t : String) :
    set n t (names.map fun k => (k, g k)) =
      (if n ∈ names then names else names ++ [n]).map fun k => (k, if k = n then t else g k) := by
  induction names with
  | nil => simp [set]
  | cons k names ih =>
    obtain ⟨hk, hnames⟩ := List.nodup_cons.1 hnames
    rw [List.map_cons, set]
    by_cases hkn : k = n
    · subst hkn
      have hrest : ∀ l ∈ names, (l, g l) = (l, if l = k then t else g l) := fun l hl => by
        rw [if_neg fun h : l = k => hk (h ▸ hl)]
      rw [if_pos rfl, if_pos List.mem_cons_self, List.map_cons, if_pos rfl, List.map_congr_left hrest]
    · rw [if_neg hkn, ih hnames]
      by_cases hn : n ∈ names
      · simp [hn, hkn]
      · simp [hn, hkn, Ne.symm hkn]

/-- **A text added under a name**: its text grows by a line, and a new name comes last. -/
theorem add_map {names : List String} (hnames : names.Nodup) {g : String → Option String} (n t : String)
    (hg : n ∉ names → g n = none) :
    add (names.map fun k => (k, (g k).getD "")) n t =
      (if n ∈ names then names else names ++ [n]).map fun k =>
        (k, (if k = n then appendText (g k) (some t) else g k).getD "") := by
  have htext : (appendText (get? (names.map fun k => (k, (g k).getD "")) n) (some t)).getD "" =
      (appendText (g n) (some t)).getD "" := by
    rw [get?_map]
    split
    next => exact appendText_getD (g n) t
    next h => rw [hg h]
  rw [add, htext, set_map hnames]
  refine List.map_congr_left fun k _ => ?_
  split
  next h => rw [h]
  next => rfl

end NamedTexts

/-! ## 5. All tags -/

/-- **The names that no rule knows**, each where it is first met. -/
def unknownNames (tags : List Tag) : List String := (tags.filterMap Tag.unknown?).eraseDups

namespace Tag

theorem unknown?_eq_some {tag : Tag} {n : String} :
    tag.unknown? = some n ↔ tag.field? = some (.unknown n) := by
  unfold unknown?
  split
  next k h => rw [h, Option.some.injEq, Option.some.injEq, TextField.unknown.injEq]
  next h => exact ⟨nofun, fun hn => absurd hn (h n)⟩

end Tag

theorem nodup_unknownNames (tags : List Tag) : (unknownNames tags).Nodup := nodup_eraseDups _

/-- A new name comes last. -/
theorem unknownNames_concat (tags : List Tag) (tag : Tag) : unknownNames (tags ++ [tag]) =
    match tag.unknown? with
    | some n => if n ∈ unknownNames tags then unknownNames tags else unknownNames tags ++ [n]
    | none => unknownNames tags := by
  rw [unknownNames, eraseDups_filterMap_concat]
  cases tag.unknown? <;> rfl

/-- One more text under the name of a tag. -/
theorem texts_unknown_concat (tags : List Tag) (tag : Tag) (n : String) :
    texts (.unknown n) (tags ++ [tag]) =
      texts (.unknown n) tags ++ if tag.unknown? = some n then [tag.text] else [] := by
  simp only [Tag.unknown?_eq_some]
  rw [texts, List.filterMap_append, ← texts]
  by_cases h : tag.field? = some (.unknown n)
  · simp [h]
  · simp [h]

/-- One more line under the name of a tag. -/
theorem lines?_unknown_concat (tags : List Tag) {tag : Tag} {n : String} (htag : tag.unknown? = some n)
    (k : String) : lines? none (texts (.unknown k) (tags ++ [tag])) =
      if k = n then appendText (lines? none (texts (.unknown k) tags)) (some tag.text)
      else lines? none (texts (.unknown k) tags) := by
  rw [texts_unknown_concat, htag, appendText_lines?]
  by_cases h : k = n
  · simp [h]
  · simp [h, Ne.symm h]

/-- A name that was not met has no texts. -/
theorem texts_unknown_eq_nil {tags : List Tag} {n : String} (h : n ∉ unknownNames tags) :
    texts (.unknown n) tags = [] := by
  rw [texts, List.filterMap_eq_nil_iff]
  intro tag htag
  refine if_neg fun hfield => h ?_
  exact List.mem_eraseDups.2 (List.mem_filterMap.2 ⟨tag, htag, Tag.unknown?_eq_some.2 hfield⟩)

namespace Member

theorem unknownTags_told (m : Member) (tag : Tag) : (m.told tag).docs.unknownTags =
    match tag.unknown? with
    | some n => some ((m.docs.unknownTags.getD []).add n tag.text)
    | none => m.docs.unknownTags := by
  rw [told, Tag.unknown?]
  cases tag.field? with
  | none => rfl
  | some field => cases field <;> rfl

/-- **Unknown tags collect under their names**, which stand in the order in which they are first met. -/
theorem unknownTags_foldl {m : Member} (hm : m.docs.unknownTags = none) (tags : List Tag) :
    (tags.foldl told m).docs.unknownTags =
      unlessEmpty ((unknownNames tags).map fun n => (n, (lines? none (texts (.unknown n) tags)).getD "")) := by
  induction tags using List.reverseRecOn with
  | nil => exact hm
  | append_singleton tags tag ih =>
    rw [List.foldl_concat, unknownTags_told, ih, getD_unlessEmpty, unknownNames_concat]
    cases htag : tag.unknown? with
    | none => simp [texts_unknown_concat, htag]
    | some n =>
      -- a name that is new had no text so far, so what is added is its first
      have hnew : n ∉ unknownNames tags → lines? none (texts (.unknown n) tags) = none := fun h => by
        rw [texts_unknown_eq_nil h]; rfl
      have hne : (if n ∈ unknownNames tags then unknownNames tags else unknownNames tags ++ [n]) ≠ [] := by
        split
        next h => exact List.ne_nil_of_mem h
        next => exact List.append_ne_nil_of_right_ne_nil _ (List.cons_ne_nil n [])
      simp only [lines?_unknown_concat tags htag]
      rw [NamedTexts.add_map (g := fun k => lines? none (texts (.unknown k) tags)) (nodup_unknownNames tags)
        n tag.text hnew, unlessEmpty, if_neg (mt List.map_eq_nil_iff.1 hne)]

/-- A documentation field is folded from its texts. -/
theorem docs_foldl {α : Type} (get : Docs → α) (field : TextField) (update : α → String → α)
    (h : ∀ d text f, get (d.put text f) = if f = some field then update (get d) text else get d)
    (tags : List Tag) (m : Member) :
    get (tags.foldl told m).docs = (texts field tags).foldl update (get m.docs) :=
  foldl_field (fun m => get m.docs) field update (fun m tag => h m.docs tag.text tag.field?) tags m

theorem modifiers_foldl (tags : List Tag) (m : Member) :
    (tags.foldl told m).modifiers = (tags.filterMap Tag.mark?).foldl Modifiers.insert m.modifiers := by
  induction tags generalizing m with
  | nil => rfl
  | cons tag tags ih =>
    rw [List.foldl_cons, ih, told]
    cases htag : tag.mark? with
    | none => rw [List.filterMap_cons_none htag]; rfl
    | some x => rw [List.filterMap_cons_some htag]; rfl

theorem ignored_foldl (tags : List Tag) (m : Member) :
    (tags.foldl told m).ignored = (tags.any Tag.hides || m.ignored) := by
  induction tags generalizing m with
  | nil => rfl
  | cons tag tags ih =>
    rw [List.foldl_cons, ih, told, List.any_cons, Bool.or_left_comm, Bool.or_assoc]

/-- **A record before its tags are read**: nothing but a summary is documented. -/
def fresh (m : Member) (summary : Option String) : Member :=
  { m with docs := { summary }, modifiers := ∅, ignored := false }

/-- **What tags leave of a fresh record**, field by field. -/
def folded (m : Member) (summary : Option String) (tags : List Tag) : Member :=
  { m with
    name := ((texts .name tags).getLast?.map .str).getD m.name
    ignored := tags.any Tag.hides
    modifiers := (tags.filterMap Tag.mark?).foldl Modifiers.insert ∅
    docs :=
      { summary := lines? summary (texts .summary tags)
        description := lines? none (texts .description tags)
        examples := unlessEmpty (texts .examples tags)
        seeAlso := unlessEmpty (texts .seeAlso tags)
        since := lines? none (texts .since tags)
        category := (texts .category tags).getLast?
        deprecatedMessage := lines? none (texts .deprecatedMessage tags)
        defaultValue := (texts .defaultValue tags).getLast?.map .str
        unknownTags := unlessEmpty
          ((unknownNames tags).map fun n => (n, (lines? none (texts (.unknown n) tags)).getD "")) } }

attribute [ext] Docs

theorem docs_foldl_fresh (m : Member) (summary : Option String) (tags : List Tag) :
    (tags.foldl told (m.fresh summary)).docs = (m.folded summary tags).docs := by
  -- the fields that hold texts as lines
  have hlines : ∀ (get : Docs → Option String) (field : TextField),
      (∀ d text f, get (d.put text f) = if f = some field then appendText (get d) (some text) else get d) →
      get (tags.foldl told (m.fresh summary)).docs = lines? (get { summary }) (texts field tags) :=
    fun get field h => (docs_foldl get field _ h tags _).trans (foldl_appendText _ _)
  -- the fields that hold texts as entries
  have hentries : ∀ (get : Docs → Option (List String)) (field : TextField), get { summary } = none →
      (∀ d text f, get (d.put text f) =
        if f = some field then some ((get d).getD [] ++ [text]) else get d) →
      get (tags.foldl told (m.fresh summary)).docs = unlessEmpty (texts field tags) :=
    fun get field hnone h => (docs_foldl get field _ h tags _).trans
      ((congrArg (List.foldl _ · _) hnone).trans (foldl_entries _))
  apply Docs.ext
  case summary => exact hlines _ .summary (by rintro d t (_ | _ | _) <;> rfl)
  case description => exact hlines _ .description (by rintro d t (_ | _ | _) <;> rfl)
  case since => exact hlines _ .since (by rintro d t (_ | _ | _) <;> rfl)
  case deprecatedMessage => exact hlines _ .deprecatedMessage (by rintro d t (_ | _ | _) <;> rfl)
  case examples => exact hentries _ .examples rfl (by rintro d t (_ | _ | _) <;> rfl)
  case seeAlso => exact hentries _ .seeAlso rfl (by rintro d t (_ | _ | _) <;> rfl)
  case defaultValue =>
    exact (docs_foldl Docs.defaultValue .defaultValue (fun _ t => some (.str t))
      (by rintro d t (_ | _ | _) <;> rfl) tags _).trans (foldl_last_some _ _)
  case category =>
    exact (docs_foldl Docs.category .category (fun _ t => some t)
      (by rintro d t (_ | _ | _) <;> rfl) tags _).trans ((foldl_last_some (fun t => t) _).trans Option.map_id')
  case unknownTags => exact unknownTags_foldl rfl tags
  case returnSummary =>
    exact (docs_foldl Docs.returnSummary .name (fun o _ => o)
      (by rintro d t (_ | _ | _) <;> rfl) tags _).trans (List.foldl_fixed _)

/-- **All tags on a fresh record**: each field is what its own tags say. -/
theorem applyTags_fresh (m : Member) (summary : Option String) (tags : List Tag) (a : Modifier) :
    (m.fresh summary).applyTags tags a = (m.folded summary tags, lastLevel tags a) := by
  have hretold : ((m.fresh summary).Retold _) := retold_applyTags (m.fresh summary) tags a
  have hname : (tags.foldl told (m.fresh summary)).name = ((texts .name tags).getLast?.map .str).getD m.name :=
    (foldl_field Member.name .name (fun _ t => .str t) (fun _ _ => rfl) tags _).trans (foldl_last _ _ _)
  have hignored : (tags.foldl told (m.fresh summary)).ignored = tags.any Tag.hides :=
    (ignored_foldl tags _).trans (Bool.or_false _)
  rw [Retold, applyTags_eq, hname, hignored, modifiers_foldl, docs_foldl_fresh] at hretold
  exact Prod.ext ((applyTags_eq _ tags a).trans hretold) (level_applyTags _ tags a).1

/-- Tags that other parts take care of do nothing. -/
theorem applyTags_filter (m : Member) (tags : List Tag) (a : Modifier) :
    m.applyTags (tags.filter fun tag => !isSkippedTag tag.name) a = m.applyTags tags a := by
  have hstep : (fun (st : Member × Modifier) tag =>
      if (!isSkippedTag tag.name) = true then foldTag st tag else st) = foldTag := by
    funext st tag
    cases h : isSkippedTag tag.name with
    | true =>
      unfold foldTag
      simp only [h, if_true]
      rfl
    | false => rfl
  rw [applyTags, List.foldl_filter, hstep, applyTags]

end Member

/-- A modifier is set exactly when some tag sets it. -/
theorem has_marks (tags : List Tag) (s : Modifiers) (x : Modifier) :
    ((tags.filterMap Tag.mark?).foldl Modifiers.insert s).has x =
      (s.has x || tags.any fun tag => tag.mark? = some x) := by
  induction tags generalizing s with
  | nil => exact (Bool.or_false _).symm
  | cons tag tags ih =>
    rw [List.any_cons]
    cases h : tag.mark? with
    | none => simp [List.filterMap_cons_none h, ih]
    | some y => simp [List.filterMap_cons_some h, ih, Modifiers.has_insert, Bool.or_assoc]

/-! ## 6. Neighbours -/

/-- **Tags that do not write the same field.** -/
def Tag.Apart (a b : Tag) : Prop := a.field? = none ∨ a.field? ≠ b.field?

/-- **Records that differ in the order of unknown names at most.** -/
structure Member.SameButOrder (c d : Member) : Prop where
  fields : c = { d with docs := { d.docs with unknownTags := c.docs.unknownTags } }
  set : c.docs.unknownTags.isSome = d.docs.unknownTags.isSome
  perm : (c.docs.unknownTags.getD []).Perm (d.docs.unknownTags.getD [])

/-- Two neighbours change places. -/
theorem perm_swap {α : Type} (pre post : List α) (a b : α) :
    (pre ++ a :: b :: post).Perm (pre ++ b :: a :: post) :=
  .append_left pre (.swap b a post)

/-- Two neighbours, of which a function sees at most one, may change places. -/
theorem filterMap_swap {α β : Type} {f : α → Option β} {a b : α} (h : f a = none ∨ f b = none)
    (pre post : List α) :
    (pre ++ a :: b :: post).filterMap f = (pre ++ b :: a :: post).filterMap f := by
  rw [List.filterMap_append, List.filterMap_append]
  rcases h with h | h
  · simp only [List.filterMap_cons, h]
  · simp only [List.filterMap_cons, h]

theorem texts_swap {a b : Tag} (h : a.Apart b) (pre post : List Tag) (field : TextField) :
    texts field (pre ++ a :: b :: post) = texts field (pre ++ b :: a :: post) := by
  refine filterMap_swap ?_ pre post
  by_cases ha : a.field? = some field
  · refine .inr (if_neg fun hb => ?_)
    rcases h with hnone | hne
    · exact nomatch ha.symm.trans hnone
    · exact hne (ha.trans hb.symm)
  · exact .inl (if_neg ha)

theorem lastLevel_swap {a b : Tag} (h : a.level? = none ∨ b.level? = none) (pre post : List Tag)
    (level : Modifier) :
    lastLevel (pre ++ a :: b :: post) level = lastLevel (pre ++ b :: a :: post) level := by
  rw [lastLevel, filterMap_swap h, lastLevel]

/-- Unless the names of both are new, two neighbours leave the names in the same order. -/
theorem unknownNames_swap {a b : Tag} {pre : List Tag} (post : List Tag)
    (h : ∀ x y, a.unknown? = some x → b.unknown? = some y → x ∈ unknownNames pre ∨ y ∈ unknownNames pre) :
    unknownNames (pre ++ a :: b :: post) = unknownNames (pre ++ b :: a :: post) := by
  unfold unknownNames at h ⊢
  cases ha : a.unknown? with
  | none => rw [filterMap_swap (.inl ha)]
  | some x =>
    cases hb : b.unknown? with
    | none => rw [filterMap_swap (.inr hb)]
    | some y =>
      simp only [List.filterMap_append, List.filterMap_cons_some ha, List.filterMap_cons_some hb]
      rcases h x y ha hb with hx | hy
      · exact eraseDups_swap_of_mem (List.mem_eraseDups.1 hx) _
      · exact (eraseDups_swap_of_mem (List.mem_eraseDups.1 hy) _).symm

instance : RightCommutative Modifiers.insert where
  right_comm s x y := by
    simp only [Modifiers.insert, Nat.or_assoc, Nat.or_comm (1 <<< x.bit)]

namespace Member

variable {a b : Tag} (m : Member) (summary : Option String) (pre post : List Tag)

/-- The fields that tags fold into, unknown names apart, do not depend on the order of two neighbours
    that write different fields. -/
theorem folded_swap (h : a.Apart b) : m.folded summary (pre ++ a :: b :: post) =
    { m.folded summary (pre ++ b :: a :: post) with
      docs := { (m.folded summary (pre ++ b :: a :: post)).docs with
        unknownTags := (m.folded summary (pre ++ a :: b :: post)).docs.unknownTags } } := by
  have hperm := perm_swap pre post a b
  have hmarks := (hperm.filterMap Tag.mark?).foldl_eq (f := Modifiers.insert) ∅
  have hhides : (pre ++ a :: b :: post).any Tag.hides = (pre ++ b :: a :: post).any Tag.hides :=
    hperm.any_eq
  simp only [folded, texts_swap h pre post, hmarks, hhides]

theorem sameButOrder_swap (h : a.Apart b) :
    (m.folded summary (pre ++ a :: b :: post)).SameButOrder (m.folded summary (pre ++ b :: a :: post)) := by
  have hnames := (perm_eraseDups ((perm_swap pre post a b).filterMap Tag.unknown?)).map fun n =>
    (n, (lines? none (texts (.unknown n) (pre ++ b :: a :: post))).getD "")
  refine ⟨folded_swap m summary pre post h, ?_, ?_⟩
  · simp only [folded, texts_swap h pre post, isSome_unlessEmpty]
    exact congrArg (!·) hnames.isEmpty_eq
  · simp only [folded, texts_swap h pre post, getD_unlessEmpty]
    exact hnames

/-- Unless the names of both are new, nothing at all changes. -/
theorem folded_eq_swap (h : a.Apart b)
    (hold : ∀ x y, a.unknown? = some x → b.unknown? = some y → x ∈ unknownNames pre ∨ y ∈ unknownNames pre) :
    m.folded summary (pre ++ a :: b :: post) = m.folded summary (pre ++ b :: a :: post) := by
  rw [folded_swap m summary pre post h]
  simp only [folded, texts_swap h pre post, unknownNames_swap post hold]

/-- **Tags fold field by field.**  Each field of a fresh record is what the tags that write it say, in
    their order; a modifier is set exactly when some tag sets it; and tags that other parts take care of
    do nothing.  So two neighbours that do not write the same field may change places: nothing changes
    but the order of two names that are new, and the visibility in force if both name one. -/
theorem applyTags_fieldwise (level : Modifier) :
    (∀ tags, (m.fresh summary).applyTags tags level = (m.folded summary tags, lastLevel tags level) ∧
      (∀ x, (m.folded summary tags).has x = tags.any fun tag => tag.mark? = some x) ∧
      (m.fresh summary).applyTags (tags.filter fun tag => !isSkippedTag tag.name) level =
        (m.fresh summary).applyTags tags level) ∧
    ∀ (pre post : List Tag) (a b : Tag), a.Apart b →
      ((m.fresh summary).applyTags (pre ++ a :: b :: post) level).1.SameButOrder
        ((m.fresh summary).applyTags (pre ++ b :: a :: post) level).1 ∧
      ((∀ x y, a.unknown? = some x → b.unknown? = some y →
          x ∈ unknownNames pre ∨ y ∈ unknownNames pre) →
        ((m.fresh summary).applyTags (pre ++ a :: b :: post) level).1 =
          ((m.fresh summary).applyTags (pre ++ b :: a :: post) level).1) ∧
      (a.level? = none ∨ b.level? = none →
        ((m.fresh summary).applyTags (pre ++ a :: b :: post) level).2 =
          ((m.fresh summary).applyTags (pre ++ b :: a :: post) level).2) := by
  refine ⟨fun tags => ⟨applyTags_fresh m summary tags level, fun x => ?_, applyTags_filter _ tags level⟩,
    fun pre post a b h => ?_⟩
  · have hempty : Modifiers.has ∅ x = false := Nat.zero_testBit x.bit
    exact (has_marks tags ∅ x).trans (by rw [hempty, Bool.false_or])
  · simp only [applyTags_fresh]
    exact ⟨sameButOrder_swap m summary pre post h, folded_eq_swap m summary pre post h,
      fun hlevel => lastLevel_swap hlevel pre post level⟩

/-- A tag that no rule knows beside one that marks and hides the record. -/
theorem applyTags_fieldwise_todo : Tag.Apart ⟨"note", "a"⟩ ⟨"todo", "b"⟩ ∧
    ((({} : Member).fresh none).applyTags [⟨"note", "a"⟩, ⟨"todo", "b"⟩] .public_).1.SameButOrder
      ((({} : Member).fresh none).applyTags [⟨"todo", "b"⟩, ⟨"note", "a"⟩] .public_).1 :=
  have happart : Tag.Apart ⟨"note", "a"⟩ ⟨"todo", "b"⟩ := .inr (by decide)
  ⟨happart, ((applyTags_fieldwise {} none .public_).2 [] [] _ _ happart).1⟩

end Member

end ApiReference
