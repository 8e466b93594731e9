/-
  Dotted ids.

  An id spells the names around a symbol, outermost first, as one text.  Parts without dots can be read
  off it again, and names without the mark that private names get are told apart; then the symbol is
  found from the outermost name inward.  But the chain of names is cut at the source file, so an id says
  nothing of the file, and symbols of different files may share one.

  1. `eq_of_intercalate`, `replaceChar_replaceChar` -- what the text of an id says of its parts;
  2. `exists_outward`      -- the chain of a symbol, up to its source file;
  3. `eq_of_names`         -- chains with the same names, from one place outward;
  4. `home_ne_of_symbolId` -- only symbols of different files share an id.
-/
import ApiReference.Proofs.Facts.Aliases
import Mathlib.Logic.Relation

namespace ApiReference

/-! ## 1. The text of an id -/

/-- Parts without dots are read off the dotted text. -/
theorem eq_of_intercalate {xs ys : List String} (hxs : xs ≠ []) (hys : ys ≠ [])
    (hdots : ∀ x ∈ xs, '.' ∉ x.toList) (hdots' : ∀ y ∈ ys, '.' ∉ y.toList)
    (h : ".".intercalate xs = ".".intercalate ys) : xs = ys := by
  have hsplit : ∀ {zs : List String}, zs ≠ [] → (∀ z ∈ zs, '.' ∉ z.toList) →
      (".".intercalate zs).toList.splitOn '.' = zs.map String.toList := by
    intro zs hne hz
    rw [String.toList_intercalate]
    refine List.splitOn_intercalate '.' ?_ (by simpa using hne)
    exact List.forall_mem_map.2 hz
  have hparts : xs.map String.toList = ys.map String.toList := by
    rw [← hsplit hxs hdots, ← hsplit hys hdots', h]
  exact List.map_injective_iff.2 (fun _ _ => String.toList_injective) hparts

namespace Text

theorem toList_replaceChar (s : String) (old new : Char) :
    (replaceChar s old new).toList = s.toList.map (fun c => if c = old then new else c) :=
  String.toList_ofList

/-- What was replaced by a new character is restored. -/
theorem replaceChar_replaceChar {s : String} (old : Char) {new : Char} (hs : new ∉ s.toList) :
    replaceChar (replaceChar s old new) new old = s := by
  refine String.toList_injective ?_
  rw [toList_replaceChar, toList_replaceChar, List.map_map]
  refine (List.map_congr_left fun c hc => ?_).trans (List.map_id _)
  have hnew : c ≠ new := fun he => hs (he ▸ hc)
  by_cases hold : c = old
  · simp [hold]
  · simp [hold, hnew]

end Text

namespace Facts

variable (f : Facts)

/-! ## 2. The symbols around a symbol -/

/-- **No symbol lies in itself**, however deep. -/
def ParentsAcyclic : Prop :=
  ∀ s, ¬ Relation.TransGen (fun s p => (f.symbol s).parent = some p) s s

/-- The outermost symbol around a symbol: its source file is not counted. -/
def outermost (s : SymbolId) : SymbolId := (f.outward s).getLast?.getD s

/-- **What a symbol lies in at last**: its source file, or nothing. -/
def home (s : SymbolId) : Option SymbolId := (f.symbol (f.outermost s)).parent

variable {f}

theorem parent_of_parentOf {s p : SymbolId} (h : f.parentOf s = some p) :
    (f.symbol s).parent = some p := by
  unfold parentOf at h
  split at h
  · rename_i q hq
    split at h
    · cases h
    · rwa [hq]
  · cases h

/-- A symbol without a declaring parent lies in a source file, or in nothing. -/
theorem sourceFile_of_parentOf {s m : SymbolId} (h : f.parentOf s = none)
    (hm : (f.symbol s).parent = some m) : (f.symbol m).sourceFile = true := by
  unfold parentOf at h
  rw [hm] at h
  simpa using h

/-- **The chain of a symbol**: each node lies in the next, and the last, where nothing lies in itself,
is not inside another symbol. -/
theorem exists_outward (f : Facts) (s : SymbolId) :
    ∃ l, f.outward s = s :: l ∧ (s :: l).IsChain (fun x y => f.parentOf x = some y) ∧
      (f.ParentsAcyclic → ∀ last, (s :: l).getLast? = some last → f.parentOf last = none) := by
  have hdeclared : ∀ x y, f.parentOf x = some y → x ∈ f.declaredSymbols := by
    intro x y hxy
    by_contra hx
    have hparent := parent_of_parentOf hxy
    rw [symbol_eq_empty hx] at hparent
    cases hparent
  obtain ⟨l, hl, hchain, hend⟩ := chain_spec hdeclared (f.symbols.length + 1) [] s List.nodup_nil
    (fun x hx => nomatch hx) List.not_mem_nil (by simp [declaredSymbols])
  refine ⟨l, hl, hchain, fun hacyclic last hlast => ?_⟩
  rcases hend last hlast with hnone | ⟨b, hb, hmem⟩
  · exact hnone
  · -- the last node would lie in one that lies in it
    have hb' : b ∈ s :: l := hmem.resolve_left List.not_mem_nil
    have hwithin : ∀ x ∈ s :: l,
        Relation.ReflTransGen (fun x y => (f.symbol x).parent = some y) x last := by
      refine hchain.backwards_induction _ _ (fun x y hxy h => .head (parent_of_parentOf hxy) h) ?_
      intro hne
      rw [List.getLast?_eq_getLast_of_ne_nil hne] at hlast
      rw [Option.some.inj hlast]
    exact absurd (.head' (parent_of_parentOf hb) (hwithin b hb')) (hacyclic last)

theorem outermost_eq {s : SymbolId} {l : List SymbolId} (h : f.outward s = s :: l) :
    (s :: l).getLast? = some (f.outermost s) := by
  rw [outermost, h, List.getLast?_cons]
  rfl

/-- Where nothing lies in itself, the home of a symbol is a source file. -/
theorem sourceFile_of_home (hacyclic : f.ParentsAcyclic) {s m : SymbolId} (h : f.home s = some m) :
    (f.symbol m).sourceFile = true := by
  obtain ⟨l, hl, -, hend⟩ := exists_outward f s
  exact sourceFile_of_parentOf (hend hacyclic _ (outermost_eq hl)) h

/-! ## 3. Chains with the same names -/

/-- The names can be told apart in an id. -/
def NamesPlain (f : Facts) : Prop :=
  ∀ s ∈ f.declaredSymbols, '.' ∉ (f.symbol s).escapedName.toList ∧
    '@' ∉ (f.symbol s).escapedName.toList

/-- **No two different symbols have one parent and one name.** -/
def NamesDistinct (f : Facts) : Prop :=
  ∀ s ∈ f.declaredSymbols, ∀ s' ∈ f.declaredSymbols, (f.symbol s).parent = (f.symbol s').parent →
    (f.symbol s).escapedName = (f.symbol s').escapedName → s = s'

variable {s s' : SymbolId}

theorem escapedName_of_idPart (hplain : f.NamesPlain) (hs : s ∈ f.declaredSymbols)
    (hs' : s' ∈ f.declaredSymbols) (h : f.idPart s = f.idPart s') :
    (f.symbol s).escapedName = (f.symbol s').escapedName := by
  have hrestored := Text.replaceChar_replaceChar '#' (hplain s hs).2
  have hrestored' := Text.replaceChar_replaceChar '#' (hplain s' hs').2
  rw [← hrestored, ← hrestored']
  exact congrArg (Text.replaceChar · '@' '#') h

/-- **Chains with the same names are the same**, from one place outward. -/
theorem eq_of_names (hplain : f.NamesPlain) (hdistinct : f.NamesDistinct) {l l' : List SymbolId}
    (hl : l.IsChain (fun x y => f.parentOf x = some y)) (hdeclared : ∀ x ∈ l, x ∈ f.declaredSymbols)
    (hl' : l'.IsChain (fun x y => f.parentOf x = some y))
    (hdeclared' : ∀ x ∈ l', x ∈ f.declaredSymbols) (hnames : l.map f.idPart = l'.map f.idPart)
    (hend : ∀ x ∈ l.getLast?, ∀ y ∈ l'.getLast?, (f.symbol x).parent = (f.symbol y).parent) :
    l = l' := by
  induction l generalizing l' with
  | nil => exact (List.map_eq_nil_iff.1 hnames.symm).symm
  | cons a l ih =>
    cases l' with
    | nil => cases hnames
    | cons a' l' =>
      obtain ⟨hname, hnames⟩ := List.cons.inj hnames
      have hdecl : ∀ x ∈ l, x ∈ f.declaredSymbols := fun x hx => hdeclared x (List.mem_cons_of_mem a hx)
      have hdecl' : ∀ x ∈ l', x ∈ f.declaredSymbols :=
        fun x hx => hdeclared' x (List.mem_cons_of_mem a' hx)
      have ha := hdeclared a List.mem_cons_self
      have ha' := hdeclared' a' List.mem_cons_self
      have hsame : ∀ p, (f.symbol a).parent = p → (f.symbol a').parent = p → a = a' :=
        fun p hp hp' => hdistinct a ha a' ha' (hp.trans hp'.symm)
          (escapedName_of_idPart hplain ha ha' hname)
      -- the outer symbols agree first; then these two have one parent and one name
      cases l with
      | nil =>
        obtain rfl : l' = [] := List.map_eq_nil_iff.1 hnames.symm
        rw [hsame _ rfl (hend a rfl a' rfl).symm]
      | cons b l =>
        cases l' with
        | nil => cases hnames
        | cons b' l' =>
          obtain ⟨hab, hl⟩ := List.isChain_cons_cons.1 hl
          obtain ⟨hab', hl'⟩ := List.isChain_cons_cons.1 hl'
          rw [List.getLast?_cons_cons, List.getLast?_cons_cons] at hend
          have htail := ih hl hdecl hl' hdecl' hnames hend
          obtain ⟨rfl, rfl⟩ := List.cons.inj htail
          rw [hsame _ (parent_of_parentOf hab) (parent_of_parentOf hab')]

/-! ## 4. Ids -/

/-- The symbols around a declared symbol are declared. -/
theorem outward_declared (hf : f.Closed) (hs : s ∈ f.declaredSymbols) :
    ∀ x ∈ f.outward s, x ∈ f.declaredSymbols := by
  obtain ⟨l, hl, hchain, -⟩ := exists_outward f s
  rw [hl]
  refine hchain.induction _ _ (fun x y hxy _ => ?_) fun _ => hs
  obtain ⟨e, he, hy⟩ := List.mem_map.1 (parentOf_declared hf hxy)
  exact List.mem_map.2 ⟨e, he, by rw [hy]⟩

/-- The names around a symbol have no dots. -/
theorem idPart_noDots (hplain : f.NamesPlain) (hs : s ∈ f.declaredSymbols) :
    '.' ∉ (f.idPart s).toList := by
  rw [idPart, Text.toList_replaceChar, List.mem_map]
  rintro ⟨c, hc, he⟩
  split at he
  · cases he
  · exact (hplain s hs).1 (he ▸ hc)

/-- **Only symbols of different source files share an id.**  Take facts in which no symbol lies in itself,
no name has a dot or an at sign, and no two different symbols have one parent and one name.  Where two
different symbols have one id, what they lie in at last differs, and is a source file. -/
theorem home_ne_of_symbolId {document : Value} (hlink : Facts.link document = .ok f)
    (hacyclic : f.ParentsAcyclic) (hplain : f.NamesPlain) (hdistinct : f.NamesDistinct)
    (hs : s ∈ f.declaredSymbols) (hs' : s' ∈ f.declaredSymbols) (hne : s ≠ s')
    (hid : f.symbolId s = f.symbolId s') :
    f.home s ≠ f.home s' ∧
      ∀ m, f.home s = some m ∨ f.home s' = some m → (f.symbol m).sourceFile = true := by
  have hf : f.Closed := closed_of_link hlink
  obtain ⟨l, hl, hchain, -⟩ := exists_outward f s
  obtain ⟨l', hl', hchain', -⟩ := exists_outward f s'
  have hdeclared := outward_declared hf hs
  have hdeclared' := outward_declared hf hs'
  rw [hl] at hdeclared
  rw [hl'] at hdeclared'
  refine ⟨fun hhome => hne ?_, fun m hm =>
    hm.elim (sourceFile_of_home hacyclic) (sourceFile_of_home hacyclic)⟩
  -- the names are read off the id, and the symbols found from the common home inward
  have hnames : (s :: l).map f.idPart = (s' :: l').map f.idPart := by
    have hparts : ∀ {ls : List SymbolId}, (∀ x ∈ ls, x ∈ f.declaredSymbols) →
        ∀ part ∈ ls.reverse.map f.idPart, '.' ∉ part.toList := by
      intro ls hls
      refine List.forall_mem_map.2 fun x hx => ?_
      exact idPart_noDots hplain (hls x (List.mem_reverse.1 hx))
    rw [symbolId, symbolId, hl, hl'] at hid
    have hsame := eq_of_intercalate (by simp) (by simp) (hparts hdeclared) (hparts hdeclared') hid
    rw [List.map_reverse, List.map_reverse] at hsame
    exact List.reverse_injective hsame
  have hend : ∀ x ∈ (s :: l).getLast?, ∀ y ∈ (s' :: l').getLast?,
      (f.symbol x).parent = (f.symbol y).parent := by
    intro x hx y hy
    obtain rfl := Option.some.inj ((outermost_eq hl).symm.trans hx)
    obtain rfl := Option.some.inj ((outermost_eq hl').symm.trans hy)
    exact hhome
  exact (List.cons.inj (eq_of_names hplain hdistinct hchain hdeclared hchain' hdeclared' hnames hend)).1

/-- Does the table list every symbol after the one it lies in? -/
def ParentsListedEarlier (f : Facts) : Prop :=
  ∀ s ∈ f.declaredSymbols, ∀ p ∈ (f.symbol s).parent,
    f.declaredSymbols.idxOf p < f.declaredSymbols.idxOf s

instance (f : Facts) : Decidable f.ParentsListedEarlier :=
  inferInstanceAs (Decidable (∀ s ∈ f.declaredSymbols, ∀ p ∈ (f.symbol s).parent,
    f.declaredSymbols.idxOf p < f.declaredSymbols.idxOf s))

instance (f : Facts) : Decidable f.NamesPlain :=
  inferInstanceAs (Decidable (∀ s ∈ f.declaredSymbols, '.' ∉ (f.symbol s).escapedName.toList ∧
    '@' ∉ (f.symbol s).escapedName.toList))

instance (f : Facts) : Decidable f.NamesDistinct :=
  inferInstanceAs (Decidable (∀ s ∈ f.declaredSymbols, ∀ s' ∈ f.declaredSymbols,
    (f.symbol s).parent = (f.symbol s').parent →
      (f.symbol s).escapedName = (f.symbol s').escapedName → s = s'))

/-- In a table in which parents come earlier nothing lies in itself. -/
theorem parentsAcyclic_of_listedEarlier (h : f.ParentsListedEarlier) : f.ParentsAcyclic := by
  have hplace : ∀ s p, Relation.TransGen (fun s p => (f.symbol s).parent = some p) s p →
      f.declaredSymbols.idxOf p < f.declaredSymbols.idxOf s := by
    have hstep : ∀ s p, (f.symbol s).parent = some p →
        f.declaredSymbols.idxOf p < f.declaredSymbols.idxOf s := by
      intro s p hp
      by_cases hs : s ∈ f.declaredSymbols
      · exact h s hs p hp
      · rw [symbol_eq_empty hs] at hp
        cases hp
    intro s p hsp
    induction hsp with
    | single hp => exact hstep s _ hp
    | tail _ hp ih => exact Nat.lt_trans (hstep _ _ hp) ih
  exact fun s hs => Nat.lt_irrefl _ (hplace s s hs)

/-- Two source files that export symbols of one name. -/
def twoFilesDocument : Value := .map [
  ("units", .list [.map [("name", .str "a"), ("symbol", .str "a")],
    .map [("name", .str "b"), ("symbol", .str "b")]]),
  ("symbols", .map [
    ("a", .map [("name", .str "a"), ("sourceFile", .bool true), ("exports", .list [.str "ax"])]),
    ("b", .map [("name", .str "b"), ("sourceFile", .bool true), ("exports", .list [.str "bx"])]),
    ("ax", .map [("name", .str "x"), ("parent", .str "a")]),
    ("bx", .map [("name", .str "x"), ("parent", .str "b")])])]

/-- What is found out about the two files. -/
theorem exists_twoFiles : ∃ f, Facts.link twoFilesDocument = .ok f ∧ f.ParentsAcyclic ∧ f.NamesPlain ∧
    f.NamesDistinct ∧ ⟨"ax"⟩ ∈ f.declaredSymbols ∧ ⟨"bx"⟩ ∈ f.declaredSymbols ∧
    f.symbolId ⟨"ax"⟩ = "x" ∧ f.symbolId ⟨"bx"⟩ = "x" := by
  have hcheck : (Facts.link twoFilesDocument).toOption.any (fun f =>
      decide (f.ParentsListedEarlier ∧ f.NamesPlain ∧ f.NamesDistinct ∧
        ⟨"ax"⟩ ∈ f.declaredSymbols ∧ ⟨"bx"⟩ ∈ f.declaredSymbols ∧
        f.symbolId ⟨"ax"⟩ = "x" ∧ f.symbolId ⟨"bx"⟩ = "x")) = true := by decide +kernel
  cases hlink : Facts.link twoFilesDocument with
  | error e =>
    rw [hlink] at hcheck
    cases hcheck
  | ok f =>
    rw [hlink] at hcheck
    obtain ⟨hearlier, hrest⟩ := of_decide_eq_true hcheck
    exact ⟨f, rfl, parentsAcyclic_of_listedEarlier hearlier, hrest⟩

/-- The two files are what tells the two symbols apart. -/
theorem home_ne_of_symbolId_twoFiles : ∃ f, Facts.link twoFilesDocument = .ok f ∧ f.ParentsAcyclic ∧
    f.NamesPlain ∧ f.NamesDistinct ∧ f.home ⟨"ax"⟩ ≠ f.home ⟨"bx"⟩ := by
  obtain ⟨f, hlink, hacyclic, hplain, hdistinct, hs, hs', hid, hid'⟩ := exists_twoFiles
  exact ⟨f, hlink, hacyclic, hplain, hdistinct, (home_ne_of_symbolId hlink hacyclic hplain hdistinct
    hs hs' (by decide) (hid.trans hid'.symm)).1⟩

/-- **Ids are not unique in a compilation**: what two files export under one name has one id. -/
theorem symbolId_shared : ∃ f s s', Facts.link twoFilesDocument = .ok f ∧ f.ParentsAcyclic ∧
    f.NamesPlain ∧ f.NamesDistinct ∧ s ∈ f.declaredSymbols ∧ s' ∈ f.declaredSymbols ∧ s ≠ s' ∧
    f.symbolId s = f.symbolId s' := by
  obtain ⟨f, hlink, hacyclic, hplain, hdistinct, hs, hs', hid, hid'⟩ := exists_twoFiles
  exact ⟨f, _, _, hlink, hacyclic, hplain, hdistinct, hs, hs', by decide, hid.trans hid'.symm⟩

end Facts

end ApiReference
