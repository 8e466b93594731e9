/-
  The words and marks of printed types.

  A printed type is a sequence of words and of a few fixed marks.  Written one after the other they
  leave no gaps, so whether a text has only one division into words and marks depends on what may stand
  next to what: a word is never followed by a word, and after `keyof` and `new` a type begins.

  1. `Lexeme`            -- words and marks, and their characters;
  2. `Glued`             -- what may stand next to what;
  3. `Glued.eq_of_chars` -- a text has at most one division.
-/
import ApiReference.Render.Token
import Mathlib.Data.List.TakeWhile

namespace ApiReference

/-! ## 1. Words and marks -/

/-- **A word or a mark** of a printed type. -/
inductive Lexeme where
  | word (name : String)
  | leftParen
  | rightParen
  | leftBracket
  | rightBracket
  | leftAngle
  | rightAngle
  | comma
  | colon
  | mayMiss
  | dots
  | bar
  | ampersand
  | extending
  | whenTrue
  | whenFalse
  | arrow
  | equals
  | keyOf
  | new
deriving DecidableEq

namespace Lexeme

/-- The characters of a word or mark. -/
def chars : Lexeme → List Char
  | .word name => name.toList
  | .leftParen => ['(']
  | .rightParen => [')']
  | .leftBracket => ['[']
  | .rightBracket => [']']
  | .leftAngle => ['<']
  | .rightAngle => ['>']
  | .comma => [',', ' ']
  | .colon => [':', ' ']
  | .mayMiss => ['?']
  | .dots => ['.', '.', '.']
  | .bar => [' ', '|', ' ']
  | .ampersand => [' ', '&', ' ']
  | .extending => [' ', 'e', 'x', 't', 'e', 'n', 'd', 's', ' ']
  | .whenTrue => [' ', '?', ' ']
  | .whenFalse => [' ', ':', ' ']
  | .arrow => [' ', '=', '>', ' ']
  | .equals => [' ', '=', ' ']
  | .keyOf => ['k', 'e', 'y', 'o', 'f', ' ']
  | .new => ['n', 'e', 'w', ' ']

/-- The characters of a sequence. -/
def charsOf (ls : List Lexeme) : List Char := ls.flatMap chars

@[simp] theorem charsOf_nil : charsOf [] = [] := rfl

@[simp] theorem charsOf_cons (l : Lexeme) (ls : List Lexeme) :
    charsOf (l :: ls) = l.chars ++ charsOf ls := rfl

@[simp] theorem charsOf_append (ls ls' : List Lexeme) :
    charsOf (ls ++ ls') = charsOf ls ++ charsOf ls' := List.flatMap_append

/-- Can the character be part of a name? -/
def isNamePart (c : Char) : Bool :=
  c ∉ [' ', '(', ')', '[', ']', '<', '>', ',', ':', '?', '.', '|', '&', '=']

/-- **An identifier**: characters that no mark has, and not the reserved word of conditional types. -/
structure IsName (name : String) : Prop where
  parts : ∀ c ∈ name.toList, isNamePart c = true
  nonempty : name.toList ≠ []
  unreserved : name.toList ≠ ['e', 'x', 't', 'e', 'n', 'd', 's']

/-! ## 2. Neighbours -/

/-- A mark that is not spelled with letters. -/
def isPlain : Lexeme → Bool
  | .word _ | .keyOf | .new => false
  | _ => true

/-- Can a type begin with it? -/
def isStart : Lexeme → Bool
  | .word _ | .leftParen | .leftBracket | .leftAngle | .keyOf | .new => true
  | _ => false

/-- **What may follow**: after a word no letters, after `keyof` a type, after `new` its parameters. -/
def Fits : Lexeme → List Lexeme → Prop
  | .word name, ls => IsName name ∧ ∀ l ∈ ls.head?, l.isPlain
  | .keyOf, ls => ∃ l ∈ ls.head?, l.isStart
  | .new, ls => ls.head? = some .leftParen
  | _, _ => True

/-- **A sequence in which everything may follow.** -/
def Glued : List Lexeme → Prop
  | [] => True
  | l :: ls => l.Fits ls ∧ Glued ls

/-- The letters at the start of a word or mark. -/
def letters : Lexeme → List Char
  | .word name => name.toList
  | .keyOf => ['k', 'e', 'y', 'o', 'f']
  | .new => ['n', 'e', 'w']
  | _ => []

/-- Plain marks begin with no letter. -/
theorem takeWhile_of_isPlain {ls : List Lexeme} (h : ∀ l ∈ ls.head?, l.isPlain) :
    (charsOf ls).takeWhile isNamePart = [] := by
  cases ls with
  | nil => rfl
  | cons l ls =>
    have hl := h l rfl
    cases l <;> first
      | rfl
      | cases hl

/-- The letters at the start of a text are those of its first word or mark. -/
theorem takeWhile_charsOf {l : Lexeme} {ls : List Lexeme} (h : Glued (l :: ls)) :
    (charsOf (l :: ls)).takeWhile isNamePart = l.letters := by
  cases l with
  | word name =>
    obtain ⟨⟨hname, hplain⟩, -⟩ := h
    rw [charsOf_cons, chars, List.takeWhile_append_of_pos hname.parts, takeWhile_of_isPlain hplain,
      List.append_nil, letters]
  | _ => rfl

/-! ## 3. One division -/

theorem word_or_keyword {l : Lexeme} (h : ¬ l.isPlain) :
    (∃ name, l = .word name) ∨ l = .keyOf ∨ l = .new := by
  cases l with
  | word name => exact .inl ⟨name, rfl⟩
  | keyOf => exact .inr (.inl rfl)
  | new => exact .inr (.inr rfl)
  | _ => exact absurd rfl h

theorem charsOf_cons_ne_nil {l : Lexeme} {ls : List Lexeme} (h : Glued (l :: ls)) :
    charsOf (l :: ls) ≠ [] := by
  cases l with
  | word name => exact List.append_ne_nil_of_left_ne_nil h.1.1.nonempty _
  | _ => exact List.cons_ne_nil _ _

/-- The marks that are not spelled with letters. -/
def plainMarks : List Lexeme :=
  [.leftParen, .rightParen, .leftBracket, .rightBracket, .leftAngle, .rightAngle, .comma, .colon,
    .mayMiss, .dots, .bar, .ampersand, .extending, .whenTrue, .whenFalse, .arrow, .equals]

theorem mem_plainMarks {l : Lexeme} (h : l.isPlain) : l ∈ plainMarks := by
  cases l <;> first
    | decide
    | cases h

/-- No plain mark is the beginning of another. -/
theorem eq_of_begins : ∀ l ∈ plainMarks, ∀ l' ∈ plainMarks, l.chars <+: l'.chars → l = l' := by
  decide

/-- Plain marks at the start of one text are equal. -/
theorem eq_of_isPlain {l l' : Lexeme} {ls ls' : List Lexeme} (hl : l.isPlain) (hl' : l'.isPlain)
    (h : charsOf (l :: ls) = charsOf (l' :: ls')) : l = l' := by
  have hstart : l.chars <+: charsOf (l :: ls) := ⟨_, rfl⟩
  have hstart' : l'.chars <+: charsOf (l :: ls) := ⟨_, h.symm⟩
  rcases List.prefix_or_prefix_of_prefix hstart hstart' with hp | hp
  · exact eq_of_begins l (mem_plainMarks hl) l' (mem_plainMarks hl') hp
  · exact (eq_of_begins l' (mem_plainMarks hl') l (mem_plainMarks hl) hp).symm

/-- After a word, a space does not look like the one before a type. -/
theorem not_start_of_isPlain {l l' : Lexeme} {ls ls' : List Lexeme} (hl : l.isPlain)
    (hl' : l'.isStart) (hglued : Glued (l' :: ls')) :
    charsOf (l :: ls) ≠ ' ' :: charsOf (l' :: ls') := by
  intro h
  cases l' with
  | word name =>
    have hname := hglued.1.1
    have hletters := takeWhile_charsOf hglued
    -- the letters after the space are those of a name: none, or the reserved word
    cases l with
    | extending =>
      rw [← (List.cons.inj h).2] at hletters
      exact hname.unreserved hletters.symm
    | bar | ampersand | whenTrue | whenFalse | arrow | equals =>
      rw [← (List.cons.inj h).2] at hletters
      exact hname.nonempty hletters.symm
    | word name => cases hl
    | keyOf => cases hl
    | new => cases hl
    | _ => simp [chars] at h
  | leftParen | leftBracket | leftAngle | keyOf | new => cases l <;> simp [chars, isPlain] at h hl
  | _ => cases hl'

/-- A word and a mark spelled with letters begin different texts. -/
theorem word_ne {name : String} {l : Lexeme} {ls ls' : List Lexeme} (hl : l = .keyOf ∨ l = .new)
    (hglued : Glued (.word name :: ls)) (hglued' : Glued (l :: ls')) :
    charsOf (.word name :: ls) ≠ charsOf (l :: ls') := by
  intro h
  have hletters : name.toList = l.letters := by
    have hsame := congrArg (List.takeWhile isNamePart) h
    rwa [takeWhile_charsOf hglued, takeWhile_charsOf hglued'] at hsame
  have hspace : charsOf ls = ' ' :: charsOf ls' := by
    rw [charsOf_cons, chars, hletters] at h
    rcases hl with rfl | rfl
    · exact List.append_cancel_left (show letters .keyOf ++ _ = letters .keyOf ++ ' ' :: _ from h)
    · exact List.append_cancel_left (show letters .new ++ _ = letters .new ++ ' ' :: _ from h)
  cases ls with
  | nil => cases hspace
  | cons m ls =>
    have hplain : m.isPlain := hglued.1.2 m rfl
    obtain ⟨l', hhead, hstart⟩ : ∃ l' ∈ ls'.head?, l'.isStart := by
      rcases hl with rfl | rfl
      · exact hglued'.1
      · exact ⟨.leftParen, hglued'.1, rfl⟩
    cases ls' with
    | nil => cases hhead
    | cons l'' ls' =>
      cases hhead
      exact not_start_of_isPlain hplain hstart hglued'.2 hspace

/-- Only plain marks have no letters. -/
theorem letters_eq_nil {l : Lexeme} {ls : List Lexeme} (hglued : Glued (l :: ls)) :
    l.letters = [] ↔ l.isPlain := by
  cases l with
  | word name => exact iff_of_false hglued.1.1.nonempty Bool.false_ne_true
  | _ => decide

/-- **A text begins with one word or mark only.** -/
theorem Glued.head_eq {l l' : Lexeme} {ls ls' : List Lexeme} (hglued : Glued (l :: ls))
    (hglued' : Glued (l' :: ls')) (h : charsOf (l :: ls) = charsOf (l' :: ls')) : l = l' := by
  have hletters : l.letters = l'.letters := by
    rw [← takeWhile_charsOf hglued, ← takeWhile_charsOf hglued', h]
  have hplain : l.isPlain ↔ l'.isPlain := by
    rw [← letters_eq_nil hglued, ← letters_eq_nil hglued', hletters]
  by_cases hl : l.isPlain
  · exact eq_of_isPlain hl (hplain.1 hl) h
  · have hl' : ¬ l'.isPlain := fun hl' => hl (hplain.2 hl')
    rcases word_or_keyword hl with ⟨name, rfl⟩ | hword <;>
      rcases word_or_keyword hl' with ⟨name', rfl⟩ | hword'
    · exact congrArg _ (String.toList_inj.1 hletters)
    · exact absurd h (word_ne hword' hglued hglued')
    · exact absurd h.symm (word_ne hword hglued' hglued)
    · rcases hword with rfl | rfl <;> rcases hword' with rfl | rfl
      · rfl
      · cases hletters
      · cases hletters
      · rfl

/-- **A text has at most one division** into words and marks. -/
theorem Glued.eq_of_chars {ls ls' : List Lexeme} (hglued : Glued ls) (hglued' : Glued ls')
    (h : charsOf ls = charsOf ls') : ls = ls' := by
  induction ls generalizing ls' with
  | nil =>
    cases ls' with
    | nil => rfl
    | cons l' ls' => exact absurd h.symm (charsOf_cons_ne_nil hglued')
  | cons l ls ih =>
    cases ls' with
    | nil => exact absurd h (charsOf_cons_ne_nil hglued)
    | cons l' ls' =>
      obtain rfl := hglued.head_eq hglued' h
      rw [ih hglued.2 hglued'.2 (List.append_cancel_left h)]

end Lexeme

end ApiReference
