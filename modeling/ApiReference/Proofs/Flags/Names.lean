/-
  The words of flag names.

  A run-together name has no marks between its words: a capital begins a title word, and an acronym keeps
  its capitals together.  Reading such a name takes the longest acronym that no small letter follows, so
  the last capital of a run goes to the title word after it.  Two acronyms side by side are read as one;
  where no two are, exactly the words are found.

  1. case inside ASCII;
  2. `BeginsAcronym`  -- the acronyms that a text may begin with, and the longest of them;
  3. `words_flatten`  -- the words of a run-together name;
  4. `flagName_words` -- their table spelling, which is spelled like itself.
-/
import ApiReference.Flags.Names
import Mathlib.Data.List.Chain
import Mathlib.Data.List.TakeWhile

namespace ApiReference

/-! ## 1. Case inside ASCII -/

theorem isCapital_iff {c : Char} : isCapital c = true ↔ 65 ≤ c.toNat ∧ c.toNat ≤ 90 := by
  simp [isCapital, Char.le_def, UInt32.le_iff_toNat_le]

theorem isSmall_iff {c : Char} : isSmall c = true ↔ 97 ≤ c.toNat ∧ c.toNat ≤ 122 := by
  simp [isSmall, Char.le_def, UInt32.le_iff_toNat_le]

theorem isWordTail_iff {c : Char} : isWordTail c = true ↔
    (97 ≤ c.toNat ∧ c.toNat ≤ 122) ∨ (48 ≤ c.toNat ∧ c.toNat ≤ 57) := by
  simp [isWordTail, isSmall, Char.le_def, UInt32.le_iff_toNat_le]

/-- No capital continues a word. -/
theorem isWordTail_of_isCapital {c : Char} (hc : isCapital c = true) : isWordTail c = false := by
  rw [isCapital_iff] at hc
  rw [← Bool.not_eq_true, isWordTail_iff]
  omega

theorem isSmall_of_isCapital {c : Char} (hc : isCapital c = true) : isSmall c = false := by
  rw [isCapital_iff] at hc
  rw [← Bool.not_eq_true, isSmall_iff]
  omega

theorem isWordTail_of_isSmall {c : Char} (hc : isSmall c = true) : isWordTail c = true := by
  rw [isSmall_iff] at hc
  exact isWordTail_iff.2 (.inl hc)

/-- **What flag names are spelled with**: a character of ASCII that is no small letter. -/
structure IsSpelled (c : Char) : Prop where
  ascii : c.toNat < 128
  large : isSmall c = false

namespace Text

theorem Run.holds_of_lt {r : Run} {n : Nat} (h : n < r.1) : r.holds n = false := by
  unfold Run.holds
  rw [decide_eq_false (Nat.not_le.2 h), Bool.false_and, Bool.false_and]

/-- Rows of code points past ASCII hold none of it. -/
theorem any_holds_of_ascii {runs : List Run} (hruns : ∀ r ∈ runs, 128 ≤ r.1) {n : Nat} (hn : n < 128) :
    runs.any (Run.holds · n) = false := by
  refine List.any_eq_false.2 fun r hr => ?_
  rw [Run.holds_of_lt (Nat.lt_of_lt_of_le hn (hruns r hr))]
  exact Bool.false_ne_true

/-- **The case tables inside ASCII**: only their first rows reach into it. -/
theorem ascii_tables {c : Char} (hc : c.toNat < 128) :
    isUppercase c = Run.holds (0x41, 0x5a, 1) c.toNat ∧ isLowercase c = Run.holds (0x61, 0x7a, 1) c.toNat ∧
      isTitlecase c = false ∧ upperChar c =
        if Run.holds (0x61, 0x7a, 1) c.toNat then [Char.ofNat (Int.toNat (c.toNat + -32))] else [c] := by
  have hupper : ∀ r ∈ uppercaseRuns.tail, 128 ≤ r.1 := by decide +kernel
  have hlower : ∀ r ∈ lowercaseRuns.tail, 128 ≤ r.1 := by decide +kernel
  have htitle : ∀ r ∈ titlecaseRuns, 128 ≤ r.1 := by decide +kernel
  have hshifts : ∀ e ∈ upperShifts.tail, 128 ≤ e.1.1 := by decide +kernel
  have hspellings : ∀ e ∈ upperSpellings, 128 ≤ e.1 := by decide +kernel
  refine ⟨?_, ?_, any_holds_of_ascii htitle hc, ?_⟩
  · rw [isUppercase, show uppercaseRuns = (0x41, 0x5a, 1) :: uppercaseRuns.tail from rfl, List.any_cons,
      any_holds_of_ascii hupper hc, Bool.or_false]
  · rw [isLowercase, show lowercaseRuns = (0x61, 0x7a, 1) :: lowercaseRuns.tail from rfl, List.any_cons,
      any_holds_of_ascii hlower hc, Bool.or_false]
  · have hspelled : upperSpellings.find? (·.1 == c.toNat) = none := by
      refine List.find?_eq_none.2 fun e he h => ?_
      have hle := hspellings e he
      rw [eq_of_beq h] at hle
      omega
    have hshifted : upperShifts.tail.find? (·.1.holds c.toNat) = none := by
      refine List.find?_eq_none.2 fun e he => ?_
      rw [Run.holds_of_lt (Nat.lt_of_lt_of_le hc (hshifts e he))]
      exact Bool.false_ne_true
    rw [upperChar, hspelled, show upperShifts = ((0x61, 0x7a, 1), -32) :: upperShifts.tail from rfl,
      List.find?_cons, hshifted]
    dsimp only
    cases Run.holds (0x61, 0x7a, 1) c.toNat <;> rfl

/-- Inside ASCII the case of a character is that of the letters `A` to `Z`, and its upper-case spelling is
    one such character. -/
theorem ascii_case {c : Char} (hc : c.toNat < 128) :
    isUppercase c = isCapital c ∧ isLowercase c = isSmall c ∧ isTitlecase c = false ∧
      upperChar c = [c.toUpper] ∧ c.toUpper.toNat < 128 ∧ isSmall c.toUpper = false ∧
      (isSmall c = false → c.toUpper = c) := by
  obtain ⟨hupper, hlower, htitle, hspelling⟩ := ascii_tables hc
  have hall : ∀ n : Fin 128, Run.holds (0x41, 0x5a, 1) n = isCapital (Char.ofNat n) ∧
      Run.holds (0x61, 0x7a, 1) n = isSmall (Char.ofNat n) ∧
      (if Run.holds (0x61, 0x7a, 1) n then [Char.ofNat (Int.toNat (n + -32))] else [Char.ofNat n]) =
        [(Char.ofNat n).toUpper] ∧ (Char.ofNat n).toUpper.toNat < 128 ∧
      isSmall (Char.ofNat n).toUpper = false ∧
      (isSmall (Char.ofNat n) = false → (Char.ofNat n).toUpper = Char.ofNat n) := by decide +kernel
  obtain ⟨hcapital, hsmall, hshift, hrest⟩ := hall ⟨c.toNat, hc⟩
  dsimp only at hcapital hsmall hshift hrest
  rw [Char.ofNat_toNat] at hcapital hsmall hshift hrest
  exact ⟨hupper.trans hcapital, hlower.trans hsmall, htitle, hspelling.trans hshift, hrest⟩

/-- Upper-casing a text of ASCII characters changes them one by one. -/
theorem upper_of_ascii {cs : List Char} (h : ∀ c ∈ cs, c.toNat < 128) :
    upper (String.ofList cs) = String.ofList (cs.map Char.toUpper) := by
  have hchars : cs.flatMap upperChar = cs.map Char.toUpper := by
    rw [List.map_eq_flatMap, List.flatMap_def, List.flatMap_def]
    exact congrArg _ (List.map_congr_left fun c hc => (ascii_case (h c hc)).2.2.2.1)
  rw [upper, String.toList_ofList, hchars]

/-- What is spelled without small letters is not changed. -/
theorem upper_of_spelled {s : String} (h : ∀ c ∈ s.toList, IsSpelled c) : upper s = s := by
  have hsame : s.toList.map Char.toUpper = s.toList := by
    refine (List.map_congr_left fun c hc => ?_).trans (List.map_id _)
    exact (ascii_case (h c hc).ascii).2.2.2.2.2.2 (h c hc).large
  have hupper := upper_of_ascii fun c hc => (h c hc).ascii
  rwa [hsame, String.ofList_toList] at hupper

/-- A text with a small letter is not written in capitals. -/
theorem not_isAllUpper {s : String} {c : Char} (hc : c ∈ s.toList) (hsmall : isSmall c = true) :
    isAllUpper s = false := by
  have hascii : c.toNat < 128 := by
    rw [isSmall_iff] at hsmall
    omega
  have hlower : isLowercase c = true := (ascii_case hascii).2.1.trans hsmall
  have hany : s.toList.any (fun c => isLowercase c || isTitlecase c) = true :=
    List.any_eq_true.2 ⟨c, hc, by rw [hlower]; rfl⟩
  rw [isAllUpper, hany, Bool.not_true, Bool.and_false]

/-- A text with a capital and without small letters is. -/
theorem isAllUpper_of_spelled {s : String} (h : ∀ c ∈ s.toList, IsSpelled c)
    (hcapital : ∃ c ∈ s.toList, isCapital c = true) : isAllUpper s = true := by
  obtain ⟨c, hc, hcap⟩ := hcapital
  have hupper : s.toList.any isUppercase = true :=
    List.any_eq_true.2 ⟨c, hc, (ascii_case (h c hc).ascii).1.trans hcap⟩
  have hlower : s.toList.any (fun c => isLowercase c || isTitlecase c) = false := by
    refine List.any_eq_false.2 fun d hd => ?_
    obtain ⟨-, hlow, htitle, -⟩ := ascii_case (h d hd).ascii
    rw [hlow, htitle, (h d hd).large]
    exact Bool.false_ne_true
  rw [isAllUpper, hupper, hlower]
  rfl

end Text

/-! ## 2. Acronyms at the start of a text -/

/-- **A text may begin with an acronym of `n` letters**: two capitals or more, and no small letter after
    them. -/
structure BeginsAcronym (cs : List Char) (n : Nat) : Prop where
  two : 2 ≤ n
  inside : n ≤ cs.length
  capitals : ∀ c ∈ cs.take n, isCapital c = true
  free : ∀ c, cs[n]? = some c → isSmall c = false

/-- The capitals at the start of a text are all taken for an acronym, or all but the last where a small
    letter follows them. -/
theorem acronymLength_cases (cs : List Char) : ∃ run after, cs = run ++ after ∧
    (∀ c ∈ run, isCapital c = true) ∧ (∀ c, after.head? = some c → isCapital c = false) ∧
    ((∃ c, after.head? = some c ∧ isSmall c = true ∧ acronymLength cs = run.length - 1) ∨
      (∀ c, after.head? = some c → isSmall c = false) ∧ acronymLength cs = run.length) := by
  refine ⟨cs.takeWhile isCapital, cs.dropWhile isCapital, List.takeWhile_append_dropWhile.symm,
    fun c hc => List.mem_takeWhile_imp hc, fun c hc => ?_, ?_⟩
  · have hstop := List.head?_dropWhile_not isCapital cs
    rw [hc] at hstop
    simpa using hstop
  · unfold acronymLength
    cases cs.dropWhile isCapital with
    | nil => exact .inr ⟨nofun, rfl⟩
    | cons c r =>
      dsimp only
      by_cases hsmall : isSmall c = true
      · exact .inl ⟨c, rfl, hsmall, if_pos hsmall⟩
      · refine .inr ⟨fun d hd => ?_, if_neg hsmall⟩
        cases hd
        exact Bool.not_eq_true _ ▸ hsmall

/-- **The acronym that is taken** is one that the text may begin with, if it has two letters. -/
theorem beginsAcronym_acronymLength {cs : List Char} (h : 2 ≤ acronymLength cs) :
    BeginsAcronym cs (acronymLength cs) := by
  obtain ⟨run, after, hcs, hrun, -, hlength⟩ := acronymLength_cases cs
  generalize acronymLength cs = n at h hlength ⊢
  have hle : n ≤ run.length := by
    rcases hlength with ⟨-, -, -, hlength⟩ | ⟨-, hlength⟩ <;> omega
  refine ⟨h, ?_, fun c hc => hrun c ?_, fun c hc => ?_⟩
  · rw [hcs, List.length_append]
    omega
  · rw [hcs, List.take_append_of_le_length hle] at hc
    exact List.mem_of_mem_take hc
  · rw [hcs] at hc
    rcases hlength with ⟨-, -, -, hlength⟩ | ⟨hfree, hlength⟩
    -- before a small letter the last capital of the run follows the acronym
    · rw [List.getElem?_append_left (by omega)] at hc
      exact isSmall_of_isCapital (hrun c (List.mem_of_getElem? hc))
    · rw [hlength, List.getElem?_append_right (Nat.le_refl _), Nat.sub_self,
        ← List.head?_eq_getElem?] at hc
      exact hfree c hc

/-- **No longer one** may be taken. -/
theorem BeginsAcronym.le {cs : List Char} {n : Nat} (h : BeginsAcronym cs n) :
    n ≤ acronymLength cs := by
  obtain ⟨run, after, hcs, -, hstop, hlength⟩ := acronymLength_cases cs
  have hin := h.inside
  have hall : cs.length = run.length + after.length := by rw [hcs, List.length_append]
  have hnext : cs[run.length]? = after.head? := by
    rw [hcs, List.getElem?_append_right (Nat.le_refl _), Nat.sub_self, ← List.head?_eq_getElem?]
  -- it ends with the run, for what comes next is no capital
  have hle : n ≤ run.length := by
    by_contra hlong
    obtain ⟨c, hc⟩ : ∃ c, cs[run.length]? = some c := ⟨_, List.getElem?_eq_getElem (by omega)⟩
    have hmem : c ∈ cs.take n := by
      refine List.mem_of_getElem? (i := run.length) ?_
      rw [List.getElem?_take_of_lt (by omega), hc]
    have hcapital := h.capitals c hmem
    rw [hstop c (hnext.symm.trans hc)] at hcapital
    exact Bool.false_ne_true hcapital
  rcases hlength with ⟨c, hc, hsmall, hlength⟩ | ⟨-, hlength⟩
  · have hne : n ≠ run.length := by
      rintro rfl
      have hfree := h.free c (hnext.trans hc)
      rw [hsmall] at hfree
      exact Bool.false_ne_true hfree.symm
    omega
  · omega

/-! ## 3. Words -/

/-- **A title word**: a capital, a small letter, and whatever continues a word. -/
def IsTitleWord : List Char → Prop
  | c :: d :: r => isCapital c = true ∧ isSmall d = true ∧ ∀ x ∈ r, isWordTail x = true
  | _ => False

/-- **An acronym**: two capitals or more. -/
def IsAcronym (w : List Char) : Prop := 2 ≤ w.length ∧ ∀ c ∈ w, isCapital c = true

-- the characters of the word are looked through, and not all that there are
instance : DecidablePred IsTitleWord
  | c :: d :: r => decidable_of_iff (isCapital c = true ∧ isSmall d = true ∧ r.all isWordTail = true)
      (and_congr_right' (and_congr_right' List.all_eq_true))
  | [] => inferInstanceAs (Decidable False)
  | [_] => inferInstanceAs (Decidable False)

instance : DecidablePred IsAcronym := fun w =>
  decidable_of_iff (2 ≤ w.length ∧ w.all isCapital = true) (and_congr_right' List.all_eq_true)

theorem IsTitleWord.letters {w : List Char} (hw : IsTitleWord w) : ∃ c d r, w = c :: d :: r ∧
    isCapital c = true ∧ isSmall d = true ∧ ∀ x ∈ r, isWordTail x = true := by
  match w, hw with
  | c :: d :: r, ⟨hc, hd, hr⟩ => exact ⟨c, d, r, rfl, hc, hd, hr⟩

/-- Words begin with a capital. -/
theorem exists_capital {w : List Char} (hw : IsTitleWord w ∨ IsAcronym w) :
    ∃ c r, w = c :: r ∧ isCapital c = true := by
  rcases hw with htitle | ⟨hlong, hcapitals⟩
  · obtain ⟨c, d, r, rfl, hc, -⟩ := htitle.letters
    exact ⟨c, d :: r, rfl, hc⟩
  · cases w with
    | nil => cases hlong
    | cons c r => exact ⟨c, r, rfl, hcapitals c List.mem_cons_self⟩

/-- The characters of words are ASCII, and none of them is an underscore. -/
theorem ascii_of_word {w : List Char} (hw : IsTitleWord w ∨ IsAcronym w) {c : Char} (hc : c ∈ w) :
    c.toNat < 128 ∧ c ≠ '_' := by
  have hletter : isCapital c = true ∨ isWordTail c = true := by
    rcases hw with htitle | ⟨-, hcapitals⟩
    · obtain ⟨a, b, r, rfl, ha, hb, hr⟩ := htitle.letters
      rcases List.mem_cons.1 hc with rfl | hc
      · exact .inl ha
      · rcases List.mem_cons.1 hc with rfl | hc
        · exact .inr (isWordTail_of_isSmall hb)
        · exact .inr (hr c hc)
    · exact .inl (hcapitals c hc)
  rw [isCapital_iff, isWordTail_iff] at hletter
  refine ⟨by omega, ?_⟩
  rintro rfl
  have hcode : '_'.toNat = 95 := rfl
  omega

/-- **A title word is found** where it is followed by nothing or by a capital. -/
theorem words_title {w rest : List Char} (hw : IsTitleWord w)
    (hrest : ∀ c, rest.head? = some c → isCapital c = true) : words (w ++ rest) = w :: words rest := by
  obtain ⟨c, d, r, rfl, hc, hd, hr⟩ := hw.letters
  -- its second letter is small, so it begins with no acronym
  have hshort : ¬ 2 ≤ acronymLength (c :: d :: (r ++ rest)) := by
    intro hlong
    have hmem : d ∈ (c :: d :: (r ++ rest)).take (acronymLength (c :: d :: (r ++ rest))) := by
      refine List.mem_of_getElem? (i := 1) ?_
      rw [List.getElem?_take_of_lt (by omega)]
      rfl
    have hcapital := (beginsAcronym_acronymLength hlong).capitals d hmem
    rw [isSmall_of_isCapital hcapital] at hd
    exact Bool.false_ne_true hd
  have htail : ∀ x ∈ d :: r, isWordTail x = true := by
    intro x hx
    rcases List.mem_cons.1 hx with rfl | hx
    · exact isWordTail_of_isSmall hd
    · exact hr x hx
  -- the word ends at the capital that follows, or with the text
  have hspan : (d :: r ++ rest).takeWhile isWordTail = d :: r ∧
      (d :: r ++ rest).dropWhile isWordTail = rest := by
    rw [List.takeWhile_append_of_pos htail, List.dropWhile_append_of_pos htail]
    cases rest with
    | nil => exact ⟨List.append_nil _, rfl⟩
    | cons x rest =>
      have hx := isWordTail_of_isCapital (hrest x rfl)
      rw [List.takeWhile_cons, hx, List.dropWhile_cons, hx]
      exact ⟨List.append_nil _, rfl⟩
  have hfirst : firstWord c (d :: r ++ rest) = (c :: d :: r, rest) := by
    unfold firstWord
    rw [List.cons_append, if_neg hshort, ← List.cons_append, hspan.1, hspan.2, hc]
    rfl
  rw [List.cons_append, words]
  simp only [hfirst]
  rfl

/-- An acronym ends before a capital and a small letter: the small one can be neither in it nor next to
    it. -/
theorem BeginsAcronym.le_of_small {w r : List Char} {a b : Char} {n : Nat} (hb : isSmall b = true)
    (hn : BeginsAcronym (w ++ a :: b :: r) n) : n ≤ w.length := by
  have hsmall : (w ++ a :: b :: r)[w.length + 1]? = some b := by
    rw [List.getElem?_append_right (by omega), show w.length + 1 - w.length = 1 by omega]
    rfl
  by_contra hlt
  rcases Nat.lt_or_ge (w.length + 1) n with hin | hnext
  · have hmem : b ∈ (w ++ a :: b :: r).take n := by
      refine List.mem_of_getElem? (i := w.length + 1) ?_
      rw [List.getElem?_take_of_lt hin, hsmall]
    have hcapital := hn.capitals b hmem
    rw [isSmall_of_isCapital hcapital] at hb
    exact Bool.false_ne_true hb
  · obtain rfl : n = w.length + 1 := by omega
    have hfree := hn.free b hsmall
    rw [hb] at hfree
    exact Bool.false_ne_true hfree.symm

/-- An acronym is the longest that a text begins with, where nothing or a title word follows it. -/
theorem acronymLength_append {w rest : List Char} (hw : IsAcronym w)
    (hrest : rest = [] ∨ ∃ v r, IsTitleWord v ∧ rest = v ++ r) :
    acronymLength (w ++ rest) = w.length := by
  obtain ⟨hlong, hcapitals⟩ := hw
  have hbegins : BeginsAcronym (w ++ rest) w.length := by
    refine ⟨hlong, ?_, fun c hc => ?_, fun c hc => ?_⟩
    · rw [List.length_append]
      omega
    · rw [List.take_left] at hc
      exact hcapitals c hc
    · rw [List.getElem?_append_right (Nat.le_refl _), Nat.sub_self] at hc
      rcases hrest with rfl | ⟨v, r, hv, rfl⟩
      · cases hc
      · obtain ⟨a, b, v, rfl, ha, -⟩ := hv.letters
        cases hc
        exact isSmall_of_isCapital ha
  have htaken := beginsAcronym_acronymLength (Nat.le_trans hlong hbegins.le)
  refine Nat.le_antisymm ?_ hbegins.le
  rcases hrest with rfl | ⟨v, r, hv, rfl⟩
  · have hin := htaken.inside
    rwa [List.append_nil] at hin ⊢
  · obtain ⟨a, b, v, rfl, -, hb, -⟩ := hv.letters
    exact htaken.le_of_small hb

/-- **An acronym is found** where it is followed by nothing or by a title word: that gets its capital
    back. -/
theorem words_acronym {w rest : List Char} (hw : IsAcronym w)
    (hrest : rest = [] ∨ ∃ v r, IsTitleWord v ∧ rest = v ++ r) : words (w ++ rest) = w :: words rest := by
  have htaken := acronymLength_append hw hrest
  have hlong := hw.1
  obtain ⟨c, v, rfl, -⟩ := exists_capital (.inr hw)
  have hfirst : firstWord c (v ++ rest) = (c :: v, rest) := by
    unfold firstWord
    rw [← List.cons_append, htaken, if_pos hlong, List.length_cons, Nat.add_sub_cancel,
      List.take_left, List.drop_left]
  rw [List.cons_append, words]
  simp only [hfirst]
  rfl

/-- **The words of a run-together name** are those that it was made of. -/
theorem words_flatten {ws : List (List Char)} (hwords : ∀ w ∈ ws, IsTitleWord w ∨ IsAcronym w)
    (hapart : ws.IsChain fun v w => ¬ (IsAcronym v ∧ IsAcronym w)) : words ws.flatten = ws := by
  induction ws with
  | nil =>
    rw [List.flatten_nil, words]
  | cons w ws ih =>
    have hrest := ih (fun v hv => hwords v (List.mem_cons_of_mem w hv)) hapart.tail
    rw [List.flatten_cons]
    rcases hwords w List.mem_cons_self with htitle | hacronym
    -- a title word ends at the capital of the next word
    · rw [words_title htitle fun c hc => ?_, hrest]
      cases ws with
      | nil => cases hc
      | cons v ws =>
        obtain ⟨d, r, rfl, hd⟩ := exists_capital (hwords v (List.mem_cons_of_mem w List.mem_cons_self))
        cases hc
        exact hd
    · rw [words_acronym hacronym ?_, hrest]
      cases ws with
      | nil => exact .inl rfl
      | cons v ws =>
        have hv := hwords v (List.mem_cons_of_mem w List.mem_cons_self)
        have hnot := (List.isChain_cons_cons.1 hapart).1
        exact .inr ⟨v, ws.flatten, hv.resolve_right fun h => hnot ⟨hacronym, h⟩, rfl⟩

/-! ## 4. Table spelling -/

/-- **The words in capitals**, joined by underscores. -/
def spelling (ws : List (List Char)) : String :=
  "_".intercalate (ws.map fun w => String.ofList (w.map Char.toUpper))

/-- What a joined text is made of. -/
theorem mem_intercalate {α : Type} {sep : List α} {ls : List (List α)} {x : α}
    (hx : x ∈ sep.intercalate ls) : x ∈ sep ∨ ∃ l ∈ ls, x ∈ l := by
  induction ls with
  | nil => cases hx
  | cons l ls ih =>
    cases ls with
    | nil =>
      rw [List.intercalate_singleton] at hx
      exact .inr ⟨l, List.mem_cons_self, hx⟩
    | cons l' ls =>
      rw [List.intercalate_cons_cons, List.append_assoc, List.mem_append, List.mem_append] at hx
      rcases hx with hx | hx | hx
      · exact .inr ⟨l, List.mem_cons_self, hx⟩
      · exact .inl hx
      · exact (ih hx).imp_right fun ⟨m, hm, hxm⟩ => ⟨m, List.mem_cons_of_mem l hm, hxm⟩

section Spelling

variable {ws : List (List Char)} (hwords : ∀ w ∈ ws, IsTitleWord w ∨ IsAcronym w)
include hwords

/-- A table spelling has no small letter, -/
theorem isSpelled_spelling : ∀ c ∈ (spelling ws).toList, IsSpelled c := by
  intro c hc
  rw [spelling, String.toList_intercalate] at hc
  rcases mem_intercalate hc with hmark | ⟨l, hl, hcl⟩
  · obtain rfl : c = '_' := List.mem_singleton.1 hmark
    exact ⟨by decide, rfl⟩
  · rw [List.map_map] at hl
    obtain ⟨w, hw, rfl⟩ := List.mem_map.1 hl
    rw [Function.comp_apply, String.toList_ofList] at hcl
    obtain ⟨d, hd, rfl⟩ := List.mem_map.1 hcl
    obtain ⟨-, -, -, -, hascii, hlarge, -⟩ := Text.ascii_case (ascii_of_word (hwords w hw) hd).1
    exact ⟨hascii, hlarge⟩

/-- and begins with a capital. -/
theorem exists_capital_spelling (hne : ws ≠ []) : ∃ c ∈ (spelling ws).toList, isCapital c = true := by
  obtain ⟨w, ws, rfl⟩ := List.exists_cons_of_ne_nil hne
  have hw := hwords w List.mem_cons_self
  obtain ⟨c, r, rfl, hc⟩ := exists_capital hw
  obtain ⟨-, -, -, -, -, -, hsame⟩ := Text.ascii_case (ascii_of_word hw List.mem_cons_self).1
  refine ⟨c, ?_, hc⟩
  simp only [spelling, String.toList_intercalate, List.map_cons, String.toList_ofList,
    hsame (isSmall_of_isCapital hc), List.intercalate_cons_cons_left, List.mem_cons_self]

/-- Each word is put in capitals by itself. -/
theorem upper_words : ws.map (fun w => Text.upper (String.ofList w)) =
    ws.map fun w => String.ofList (w.map Char.toUpper) :=
  List.map_congr_left fun w hw => Text.upper_of_ascii fun _ hc => (ascii_of_word (hwords w hw) hc).1

/-- A name with a title word in it is split into its words: it has a small letter and no underscore. -/
theorem flagName_of_title (hapart : ws.IsChain fun v w => ¬ (IsAcronym v ∧ IsAcronym w))
    (htitle : ∃ w ∈ ws, IsTitleWord w) : flagName (String.ofList ws.flatten) = spelling ws := by
  obtain ⟨w, hw, htitle⟩ := htitle
  obtain ⟨c, d, r, rfl, -, hd, -⟩ := htitle.letters
  have hmem : d ∈ (String.ofList ws.flatten).toList := by
    rw [String.toList_ofList]
    exact List.mem_flatten.2 ⟨_, hw, List.mem_cons_of_mem c List.mem_cons_self⟩
  have hmark : (String.ofList ws.flatten).toList.contains '_' = false := by
    rw [← Bool.not_eq_true, List.contains_iff_mem, String.toList_ofList]
    intro hin
    obtain ⟨v, hv, hin⟩ := List.mem_flatten.1 hin
    exact (ascii_of_word (hwords v hv) hin).2 rfl
  unfold flagName
  rw [Text.not_isAllUpper hmem hd, hmark, if_neg (by decide), String.toList_ofList,
    words_flatten hwords hapart, upper_words hwords]
  rfl

end Spelling

/-- What is written in capitals keeps its spelling. -/
theorem flagName_of_spelled {s : String} (h : ∀ c ∈ s.toList, IsSpelled c)
    (hcapital : ∃ c ∈ s.toList, isCapital c = true) : flagName s = s := by
  unfold flagName
  rw [Text.isAllUpper_of_spelled h hcapital, Bool.true_or, if_pos rfl, Text.upper_of_spelled h]

/-- An acronym by itself is written in capitals already. -/
theorem flagName_of_acronym {w : List Char} (hw : IsAcronym w) :
    flagName (String.ofList w) = spelling [w] := by
  have hspelled : ∀ c ∈ (String.ofList w).toList, IsSpelled c := by
    rw [String.toList_ofList]
    exact fun c hc => ⟨(ascii_of_word (.inr hw) hc).1, isSmall_of_isCapital (hw.2 c hc)⟩
  have hcapital : ∃ c ∈ (String.ofList w).toList, isCapital c = true := by
    obtain ⟨c, r, rfl, hc⟩ := exists_capital (.inr hw)
    rw [String.toList_ofList]
    exact ⟨c, List.mem_cons_self, hc⟩
  calc flagName (String.ofList w)
      = String.ofList w := flagName_of_spelled hspelled hcapital
    _ = Text.upper (String.ofList w) := (Text.upper_of_spelled hspelled).symm
    _ = spelling [w] := Text.upper_of_ascii fun c hc => (ascii_of_word (.inr hw) hc).1

/-- **A run-together name is spelled by its words.**  Take any words, at least one, of which each is a title
    word or an acronym, and no two acronyms side by side.  The table spelling of the name that they make
    without marks between them is the words in capitals, joined by underscores; and the table spelling of
    that is that itself. -/
theorem flagName_words {ws : List (List Char)} (hne : ws ≠ [])
    (hwords : ∀ w ∈ ws, IsTitleWord w ∨ IsAcronym w)
    (hapart : ws.IsChain fun v w => ¬ (IsAcronym v ∧ IsAcronym w)) :
    flagName (String.ofList ws.flatten) = spelling ws ∧ flagName (spelling ws) = spelling ws := by
  refine ⟨?_, flagName_of_spelled (isSpelled_spelling hwords) (exists_capital_spelling hwords hne)⟩
  by_cases htitle : ∃ w ∈ ws, IsTitleWord w
  · exact flagName_of_title hwords hapart htitle
  · -- without a title word there is a single acronym, as no two stand side by side
    have hacronym : ∀ w ∈ ws, IsAcronym w := fun w hw =>
      (hwords w hw).resolve_left fun h => htitle ⟨w, hw, h⟩
    match ws, hapart with
    | [w], _ =>
      rw [List.flatten_cons, List.flatten_nil, List.append_nil]
      exact flagName_of_acronym (hacronym w List.mem_cons_self)
    | v :: w :: ws, hapart =>
      have hboth : IsAcronym v ∧ IsAcronym w :=
        ⟨hacronym v List.mem_cons_self, hacronym w (List.mem_cons_of_mem v List.mem_cons_self)⟩
      exact absurd hboth (List.isChain_cons_cons.1 hapart).1

/-- An acronym between two title words, the first of which has a digit. -/
theorem flagName_words_acronym :
    let ws := ["Es5".toList, "URL".toList, "Index".toList]
    ws ≠ [] ∧ (∀ w ∈ ws, IsTitleWord w ∨ IsAcronym w) ∧
    (ws.IsChain fun v w => ¬ (IsAcronym v ∧ IsAcronym w)) ∧
    flagName "Es5URLIndex" = "ES5_URL_INDEX" ∧ flagName "ES5_URL_INDEX" = "ES5_URL_INDEX" := by
  intro ws
  have hne : ws ≠ [] := List.cons_ne_nil _ _
  have hwords : ∀ w ∈ ws, IsTitleWord w ∨ IsAcronym w := by decide
  have hapart : ws.IsChain fun v w => ¬ (IsAcronym v ∧ IsAcronym w) := by decide
  have hspelling : spelling ws = "ES5_URL_INDEX" := by decide
  have hjoined : String.ofList ws.flatten = "Es5URLIndex" := by decide
  have hnames := flagName_words hne hwords hapart
  rw [hspelling, hjoined] at hnames
  exact ⟨hne, hwords, hapart, hnames⟩

end ApiReference
