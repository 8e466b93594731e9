/-
  Folding hides tokens and loses none.

  A shortened list keeps its middle as the details of one token, and a collapsed signature keeps all of
  its tokens.  With the details put back, and parentheses apart, every rendering within sensible limits
  is the one that folds nothing.

  1. `expand`, `strip`   -- details put back, parentheses left out;
  2. `Limits.Sensible`   -- shortening a list and putting its details back;
  3. `Style.whole`       -- the walk that folds nothing;
  4. `Reads`             -- the same tokens, details put back;
  5. `ForLarge`          -- large limits fold nothing;
  6. renderings that show no folded token.
-/
import ApiReference.Proofs.Render.Limits
import ApiReference.Proofs.Render.Settled

namespace ApiReference

/-! ## 1. Details -/

namespace Token

mutual

/-- **A token, or its details in its place**, and so on inside them. -/
def expand : Token → List Token
  | .piece kind text member => [.piece kind text member]
  | .circular h => [.circular h]
  | .folded _ _ details => expandAll details

/-- The tokens of a list with all details in place. -/
def expandAll : List Token → List Token
  | [] => []
  | t :: ts => expand t ++ expandAll ts

end

@[simp] theorem expandAll_nil : expandAll [] = [] := rfl

@[simp] theorem expandAll_cons (t : Token) (ts : List Token) :
    expandAll (t :: ts) = expand t ++ expandAll ts := rfl

@[simp] theorem expandAll_append (ts us : List Token) :
    expandAll (ts ++ us) = expandAll ts ++ expandAll us := by
  induction ts with
  | nil => rfl
  | cons t ts ih => rw [List.cons_append, expandAll_cons, ih, expandAll_cons, List.append_assoc]

@[simp] theorem expand_piece (kind : TokenKind) (text : Value) (member : Option MemberHandle) :
    expand (.piece kind text member) = [.piece kind text member] := rfl

@[simp] theorem expand_punct (text : String) : expand (punct text) = [punct text] := rfl

@[simp] theorem expand_folded (kind : TokenKind) (text : String) (details : List Token) :
    expand (.folded kind text details) = expandAll details := rfl

/-- Is the token a parenthesis? -/
def isParenthesis (t : Token) : Bool :=
  match t.kind, t.text with
  | .punctuation, .str text => text == "(" || text == ")"
  | _, _ => false

/-- The tokens without parentheses. -/
def strip (ts : List Token) : List Token := ts.filter fun t => !t.isParenthesis

@[simp] theorem strip_append (ts us : List Token) : strip (ts ++ us) = strip ts ++ strip us :=
  List.filter_append ..

@[simp] theorem strip_open (ts : List Token) : strip (punct "(" :: ts) = strip ts := rfl

@[simp] theorem strip_close : strip [punct ")"] = [] := rfl

/-- Does the token have details? -/
def isFolded : Token → Bool
  | .folded .. => true
  | _ => false

end Token

open Token

/-- Parentheses are left out. -/
theorem strip_parenthesize (ts : List Token) : strip (parenthesize ts) = strip ts := by
  unfold parenthesize
  split
  · rfl
  · rw [strip_open, strip_append, strip_close, List.append_nil]

theorem strip_expandAll_parenthesize (ts : List Token) :
    strip (expandAll (parenthesize ts)) = strip (expandAll ts) := by
  unfold parenthesize
  split
  · rfl
  · simp

/-! ## 2. Lists -/

theorem joinWith_cons (separator : String) (e : List Token) {es : List (List Token)} (h : es ≠ []) :
    joinWith separator (e :: es) = e ++ punct separator :: joinWith separator es := by
  cases es with
  | nil => exact absurd rfl h
  | cons f fs => rfl

theorem expandAll_joinWith (separator : String) (es : List (List Token)) :
    expandAll (joinWith separator es) = joinWith separator (es.map expandAll) := by
  induction es with
  | nil => rfl
  | cons e es ih =>
    by_cases hes : es = []
    · subst hes
      rfl
    · rw [joinWith_cons _ _ hes, List.map_cons, joinWith_cons _ _ (by simpa using hes), ← ih]
      simp

/-- Entries that are joined before are joined as well. -/
theorem joinWith_joined (separator : String) (es fs : List (List Token)) {ds : List (List Token)}
    (hds : ds ≠ []) :
    joinWith separator (es ++ joinWith separator ds :: fs) = joinWith separator (es ++ (ds ++ fs)) := by
  induction es with
  | nil =>
    induction ds with
    | nil => exact absurd rfl hds
    | cons d ds ih =>
      by_cases hds' : ds = []
      · subst hds'
        rfl
      · rw [joinWith_cons _ d hds', List.nil_append, List.nil_append, List.cons_append,
          joinWith_cons _ d (by simp [hds'])]
        have hrest := ih hds'
        rw [List.nil_append, List.nil_append] at hrest
        rw [← hrest]
        cases fs with
        | nil => rfl
        | cons f fs =>
          rw [joinWith_cons _ _ (List.cons_ne_nil f fs), joinWith_cons _ _ (List.cons_ne_nil f fs)]
          simp
  | cons e es ih =>
    rw [List.cons_append, List.cons_append, joinWith_cons _ _ (by simp), ih,
      joinWith_cons _ _ (by simp [hds])]

/-- **Limits that leave a shortened list its ends**: the shown entries are no more than the list may
    have. -/
structure Limits.Sensible (l : Limits) : Prop where
  head : 0 ≤ l.headItems
  tail : 0 ≤ l.tailItems
  fits : l.headItems + l.tailItems ≤ l.maxItems

/-- A shortened list with the hidden entries in their place is the list. -/
theorem Limits.Sensible.slices {l : Limits} (h : l.Sensible) {α : Type} {es : List α}
    (hlong : ¬ (es.length : Int) ≤ l.maxItems) :
    l.headOf es ++ (l.hiddenOf es ++ l.tailOf es) = es ∧ l.hiddenOf es ≠ [] := by
  obtain ⟨hhead, htail, hfits⟩ := h
  obtain ⟨a, ha⟩ := Int.eq_ofNat_of_zero_le hhead
  obtain ⟨b, hb⟩ := Int.eq_ofNat_of_zero_le htail
  have hparts := (Limits.parts_append_iff ha (by omega) hb (by omega)).2 (show a + b ≤ es.length by omega)
  have hhides := (Limits.hiddenOf_ne_nil_iff ha (by omega) hb (by omega)).2
    (show a + b < es.length by omega)
  exact ⟨by rw [← List.append_assoc]; exact hparts, hhides⟩

/-- **Shortening a list hides entries and loses none.** -/
theorem Limits.Sensible.expandAll_truncate {l : Limits} (h : l.Sensible) (separator : String)
    (es : List (List Token)) :
    expandAll (joinWith separator (l.truncate separator es)) = expandAll (joinWith separator es) := by
  unfold truncate
  split
  · rfl
  · rename_i hlong
    obtain ⟨hcut, hhidden⟩ := h.slices hlong
    -- the marker expands to the hidden entries, joined as they would stand there
    have hmarker : expandAll (joinWith separator
        (l.headOf es ++ [Token.folded .more ("+" ++ toString (l.hiddenOf es).length ++ " more")
          (joinWith separator (l.hiddenOf es))] :: l.tailOf es)) =
        joinWith separator ((l.headOf es).map expandAll ++
          joinWith separator ((l.hiddenOf es).map expandAll) :: (l.tailOf es).map expandAll) := by
      rw [expandAll_joinWith, List.map_append, List.map_cons, ← expandAll_joinWith separator (l.hiddenOf es)]
      simp
    rw [hmarker, joinWith_joined _ _ _ (by simpa using hhidden), ← List.map_append, ← List.map_append,
      hcut, expandAll_joinWith]

/-! ## 3. The whole -/

namespace Style

variable (st : Style) (m : Model)

/-- **The walk that folds nothing.** -/
def whole : (fuel : Nat) → (active : List TypeHandle) → Option TypeHandle → Rendering (List Token)
  | 0, _, _ => throw (.fault .endless)
  | _ + 1, _, none => return [plain .name "?"]
  | n + 1, active, some h =>
    if h ∈ active then return [.circular h]
    else (st.layout m h).render .whole (whole n (h :: active))

end Style

/-! ## 4. The same tokens -/

/-- **The second list is the first with all details in place**, parentheses apart. -/
def Reads (ts us : List Token) : Prop := strip (expandAll ts) = strip us

namespace Reads

theorem append {ts ts' us us' : List Token} (h : Reads ts us) (h' : Reads ts' us') :
    Reads (ts ++ ts') (us ++ us') := by
  unfold Reads at *
  rw [expandAll_append, strip_append, strip_append, h, h']

theorem punct (text : String) : Reads [Token.punct text] [Token.punct text] := rfl

theorem flatten {es fs : List (List Token)} (h : es.Forall₂ Reads fs) : Reads es.flatten fs.flatten := by
  induction h with
  | nil => rfl
  | cons h _ ih => exact h.append ih

theorem joinWith (separator : String) {es fs : List (List Token)} (h : es.Forall₂ Reads fs) :
    Reads (ApiReference.joinWith separator es) (ApiReference.joinWith separator fs) := by
  induction h with
  | nil => rfl
  | cons h hs ih =>
    cases hs with
    | nil => exact h
    | cons h' hs' => exact h.append ((punct separator).append ih)

end Reads

/-- Entry by entry, a second list can be found with what the first one promises. -/
theorem exists_forall₂ {α β γ : Type} {R : α → β → Prop} {S : α → γ → Prop} {Q : β → γ → Prop}
    {as : List α} {bs : List β} (h : as.Forall₂ R bs)
    (hstep : ∀ a ∈ as, ∀ b, R a b → ∃ c, S a c ∧ Q b c) :
    ∃ cs, as.Forall₂ S cs ∧ bs.Forall₂ Q cs := by
  induction h with
  | nil => exact ⟨[], .nil, .nil⟩
  | cons hab _ ih =>
    obtain ⟨c, hS, hQ⟩ := hstep _ List.mem_cons_self _ hab
    obtain ⟨cs, hSs, hQs⟩ := ih fun a ha => hstep a (List.mem_cons_of_mem _ ha)
    exact ⟨c :: cs, .cons hS hSs, .cons hQ hQs⟩

/-- **A layout within limits reads as the whole layout**, if its parts do. -/
theorem Layout.reads_render {l : Limits} (hl : l.Sensible) {depth : Nat}
    {W W' : Option TypeHandle → Rendering (List Token)}
    (hW : ∀ p ts, W p = .ok ts → ∃ us, W' p = .ok us ∧ Reads ts us) {x : Layout} {ts : List Token}
    (hts : render (l.manner depth) W x = .ok ts) : ∃ us, render .whole W' x = .ok us ∧ Reads ts us := by
  induction x generalizing ts with
  | own kind text member =>
    cases hts
    exact ⟨_, rfl, rfl⟩
  | part p => exact hW p ts hts
  | stop cause => cases hts
  | list joint ls ih =>
    obtain ⟨es, hes, rfl⟩ := render_list_eq_ok.1 hts
    obtain ⟨fs, hfs, hreads⟩ := exists_forall₂ hes fun x hx e he => ih x hx he
    refine ⟨_, render_list_eq_ok.2 ⟨fs, hfs, rfl⟩, ?_⟩
    cases joint with
    | close => exact .flatten hreads
    | apart separator => exact .joinWith separator hreads
    | limited separator =>
      exact (congrArg strip (hl.expandAll_truncate separator es)).trans (Reads.joinWith separator hreads)
  | swapped first second ihf ihs =>
    obtain ⟨before, after, hfirst, hsecond, rfl⟩ := render_swapped_eq_ok.1 hts
    obtain ⟨before', hbefore, hreads⟩ := ihf hfirst
    obtain ⟨after', hafter, hreads'⟩ := ihs hsecond
    exact ⟨_, render_swapped_eq_ok.2 ⟨before', after', hbefore, hafter, rfl⟩, hreads.append hreads'⟩
  | enclosed x ih =>
    obtain ⟨vs, hvs, rfl⟩ := render_enclosed_eq_ok.1 hts
    obtain ⟨us, hus, hreads⟩ := ih hvs
    refine ⟨_, render_enclosed_eq_ok.2 ⟨us, hus, rfl⟩, ?_⟩
    exact (strip_expandAll_parenthesize vs).trans (hreads.trans (strip_parenthesize us).symm)
  | signature x ih =>
    obtain ⟨vs, hvs, rfl⟩ := render_signature_eq_ok.1 hts
    obtain ⟨us, hus, hreads⟩ := ih hvs
    refine ⟨_, render_signature_eq_ok.2 ⟨us, hus, rfl⟩, ?_⟩
    -- collapsed or not, a signature expands to the same tokens
    have hshown : expandAll ((l.manner depth).collapse vs) = expandAll vs := by
      unfold Limits.manner
      dsimp only
      split
      · simp
      · rfl
    exact (congrArg strip hshown).trans hreads

/-- **A walk within limits reads as the whole.** -/
theorem Style.reads_walk {st : Style} (hl : st.limits.Sensible) {m : Model} {n : Nat}
    {active : List TypeHandle} {depth : Nat} {p : Option TypeHandle} {ts : List Token}
    (hts : st.walk m n active depth p = .ok ts) : ∃ us, st.whole m n active p = .ok us ∧ Reads ts us := by
  induction n generalizing active depth p ts with
  | zero => exact nomatch hts
  | succ n ih =>
    cases p with
    | none =>
      cases hts
      exact ⟨_, rfl, rfl⟩
    | some h =>
      unfold walk at hts
      unfold whole
      split at hts
      · rename_i hactive
        cases hts
        exact ⟨_, if_pos hactive, rfl⟩
      · rename_i hactive
        rw [if_neg hactive]
        rw [node_eq] at hts
        exact Layout.reads_render hl (fun p ts hts => ih hts) hts

/-! ## 5. Large limits -/

/-- **Holds of all limits that are large enough**, for lists and for signatures. -/
def ForLarge (P : Limits → Prop) : Prop :=
  ∃ N : Nat, ∀ l : Limits, N ≤ l.maxItems → N ≤ l.collapseNodes → P l

namespace ForLarge

variable {P Q : Limits → Prop}

theorem mono (h : ForLarge P) (hPQ : ∀ l, P l → Q l) : ForLarge Q := by
  obtain ⟨N, hN⟩ := h
  exact ⟨N, fun l hmax hcollapse => hPQ l (hN l hmax hcollapse)⟩

theorem of_forall (h : ∀ l, P l) : ForLarge P := ⟨0, fun l _ _ => h l⟩

theorem and (hP : ForLarge P) (hQ : ForLarge Q) : ForLarge fun l => P l ∧ Q l := by
  obtain ⟨N, hN⟩ := hP
  obtain ⟨M, hM⟩ := hQ
  refine ⟨max N M, fun l hmax hcollapse => ⟨hN l ?_ ?_, hM l ?_ ?_⟩⟩ <;> omega

theorem all {α : Type} {xs : List α} {P : α → Limits → Prop} (h : ∀ x ∈ xs, ForLarge (P x)) :
    ForLarge fun l => ∀ x ∈ xs, P x l := by
  induction xs with
  | nil => exact .of_forall fun _ _ hx => absurd hx List.not_mem_nil
  | cons x xs ih =>
    refine ((h x List.mem_cons_self).and (ih fun y hy => h y (List.mem_cons_of_mem x hy))).mono ?_
    exact fun l hl => List.forall_mem_cons.2 hl

/-- Lists of a given length are not shortened, signatures of a given length not collapsed. -/
theorem folds (n : Nat) : ForLarge fun l => (n : Int) ≤ l.maxItems ∧ (n : Int) ≤ l.collapseNodes :=
  ⟨n, fun _ hmax hcollapse => ⟨hmax, hcollapse⟩⟩

end ForLarge

theorem Layout.renderAll_congr {manner manner' : Manner}
    {W W' : Option TypeHandle → Rendering (List Token)} {ls : List Layout}
    (h : ∀ x ∈ ls, render manner W x = render manner' W' x) :
    renderAll manner W ls = renderAll manner' W' ls := by
  induction ls with
  | nil => rfl
  | cons x ls ih =>
    rw [renderAll_cons, renderAll_cons, h x List.mem_cons_self,
      ih fun y hy => h y (List.mem_cons_of_mem x hy)]

/-- **Large limits fold nothing of a layout**, if they fold nothing of its parts. -/
theorem Layout.forLarge_render {W : Limits → Option TypeHandle → Rendering (List Token)}
    {W' : Option TypeHandle → Rendering (List Token)}
    (hW : ∀ p, ForLarge fun l => W l p = W' p) (depth : Nat) (x : Layout) :
    ForLarge fun l => render (l.manner depth) (W l) x = render .whole W' x := by
  induction x with
  | own kind text member => exact .of_forall fun _ => rfl
  | part p => exact hW p
  | stop cause => exact .of_forall fun _ => rfl
  | list joint ls ih =>
    refine ((ForLarge.all ih).and (.folds ls.length)).mono fun l hl => ?_
    obtain ⟨hall, hmax, -⟩ := hl
    have hentries := renderAll_congr hall
    rw [render, render, hentries]
    -- limits above the number of entries cut nothing
    cases hes : renderAll .whole W' ls with
    | error cause => rfl
    | ok es =>
      have hlength := (renderAll_eq_ok.1 hes).length_eq
      cases joint with
      | close => rfl
      | apart separator => rfl
      | limited separator =>
        have hshort : l.truncate separator es = es := if_pos (by omega)
        show Except.ok (joinWith separator (l.truncate separator es)) = _
        rw [hshort]
        rfl
  | swapped first second ihf ihs =>
    refine (ihf.and ihs).mono fun l hl => ?_
    rw [render_swapped, render_swapped, hl.1, hl.2]
  | enclosed x ih =>
    refine ih.mono fun l hx => ?_
    rw [render_enclosed, render_enclosed, hx]
  | signature x ih =>
    -- how large the limits must be is known only from the length of the whole
    cases hvs : render .whole W' x with
    | error cause =>
      refine ih.mono fun l hx => ?_
      rw [render_signature, render_signature, hx, hvs]
      rfl
    | ok vs =>
      refine (ih.and (.folds vs.length)).mono fun l hl => ?_
      obtain ⟨hx, -, hcollapse⟩ := hl
      rw [render_signature, render_signature, hx, hvs]
      have hshown : (l.manner depth).collapse vs = vs := by
        refine if_neg ?_
        simp only [Bool.and_eq_true, decide_eq_true_eq, not_and]
        omega
      show Except.ok ((l.manner depth).collapse vs) = _
      rw [hshown]
      rfl

/-- **Large limits fold nothing of a walk.** -/
theorem Style.forLarge_walk (st : Style) (m : Model) (n : Nat) (active : List TypeHandle)
    (depth : Nat) (p : Option TypeHandle) :
    ForLarge fun l => ({ st with limits := l } : Style).walk m n active depth p =
      st.whole m n active p := by
  induction n generalizing active depth p with
  | zero => exact .of_forall fun _ => rfl
  | succ n ih =>
    cases p with
    | none => exact .of_forall fun _ => rfl
    | some h =>
      by_cases hactive : h ∈ active
      · refine .of_forall fun l => ?_
        rw [walk, whole, if_pos hactive, if_pos hactive]
      · refine (Layout.forLarge_render (ih (h :: active) (depth + 1)) depth (st.layout m h)).mono
          fun l hl => ?_
        rw [walk, whole, if_neg hactive, if_neg hactive, node_eq]
        exact hl

/-! ## 6. Nothing folded -/

/-- No token of the list has details. -/
def Flat (ts : List Token) : Prop := ∀ t ∈ ts, t.isFolded = false

theorem flat_append {ts us : List Token} : Flat (ts ++ us) ↔ Flat ts ∧ Flat us :=
  List.forall_mem_append

theorem flat_joinWith {separator : String} {es : List (List Token)} :
    Flat (joinWith separator es) ↔ ∀ e ∈ es, Flat e := by
  induction es with
  | nil => exact ⟨fun _ _ h => absurd h List.not_mem_nil, fun _ _ h => absurd h List.not_mem_nil⟩
  | cons e es ih =>
    rw [List.forall_mem_cons]
    by_cases hes : es = []
    · subst hes
      exact ⟨fun h => ⟨h, fun _ h => absurd h List.not_mem_nil⟩, fun h => h.1⟩
    · rw [joinWith_cons _ _ hes, flat_append, ← ih]
      exact and_congr_right fun _ => ⟨fun h => (List.forall_mem_cons.1 h).2,
        fun h => List.forall_mem_cons.2 ⟨rfl, h⟩⟩

theorem flat_flatten {es : List (List Token)} : Flat es.flatten ↔ ∀ e ∈ es, Flat e := by
  unfold Flat
  simp only [List.mem_flatten, forall_exists_index, and_imp]
  exact ⟨fun h e he t ht => h t e he ht, fun h t e he ht => h e he t ht⟩

theorem flat_parenthesize {ts : List Token} : Flat (parenthesize ts) ↔ Flat ts := by
  unfold parenthesize
  split
  · exact Iff.rfl
  · rw [show punct "(" :: (ts ++ [punct ")"]) = [punct "("] ++ (ts ++ [punct ")"]) from rfl,
      flat_append, flat_append]
    have hopen : Flat [punct "("] := List.forall_mem_singleton.2 rfl
    have hclose : Flat [punct ")"] := List.forall_mem_singleton.2 rfl
    exact ⟨fun h => h.2.1, fun h => ⟨hopen, h, hclose⟩⟩

/-- A list that shows no folded token was not shortened. -/
theorem Limits.truncate_of_flat {l : Limits} {separator : String} {es : List (List Token)}
    (h : ∀ e ∈ l.truncate separator es, Flat e) : l.truncate separator es = es := by
  unfold truncate at h ⊢
  split
  · rfl
  · rename_i hlong
    rw [if_neg hlong] at h
    have hmarker := h _ (List.mem_append_right _ List.mem_cons_self) _ List.mem_cons_self
    exact nomatch hmarker

/-- The entries of a list that shows no folded token are shown as they are. -/
theorem Joint.join_of_flat {l : Limits} {depth : Nat} {joint : Joint} {es : List (List Token)}
    (h : Flat (joint.join (l.manner depth) es)) :
    joint.join (l.manner depth) es = joint.join .whole es ∧ ∀ e ∈ es, Flat e := by
  cases joint with
  | close => exact ⟨rfl, flat_flatten.1 h⟩
  | apart separator => exact ⟨rfl, flat_joinWith.1 h⟩
  | limited separator =>
    have hentries := flat_joinWith.1 h
    have hshort : l.truncate separator es = es := Limits.truncate_of_flat hentries
    refine ⟨congrArg (joinWith separator) hshort, ?_⟩
    rw [← hshort]
    exact hentries

/-- **A layout that shows no folded token is shown whole.** -/
theorem Layout.whole_of_flat {l : Limits} {depth : Nat}
    {W W' : Option TypeHandle → Rendering (List Token)}
    (hW : ∀ p ts, W p = .ok ts → Flat ts → W' p = .ok ts) {x : Layout} {ts : List Token}
    (hts : render (l.manner depth) W x = .ok ts) (hflat : Flat ts) : render .whole W' x = .ok ts := by
  induction x generalizing ts with
  | own kind text member => exact hts
  | part p => exact hW p ts hts hflat
  | stop cause => cases hts
  | list joint ls ih =>
    obtain ⟨es, hes, rfl⟩ := render_list_eq_ok.1 hts
    obtain ⟨hjoin, hentries⟩ := Joint.join_of_flat hflat
    refine render_list_eq_ok.2 ⟨es, ?_, hjoin.symm⟩
    clear hts hflat hjoin
    induction hes with
    | nil => exact .nil
    | cons he _ ihes =>
      rw [List.forall_mem_cons] at hentries ih
      exact .cons (ih.1 he hentries.1) (ihes ih.2 hentries.2)
  | swapped first second ihf ihs =>
    obtain ⟨before, after, hfirst, hsecond, rfl⟩ := render_swapped_eq_ok.1 hts
    obtain ⟨hbefore, hafter⟩ := flat_append.1 hflat
    exact render_swapped_eq_ok.2 ⟨before, after, ihf hfirst hbefore, ihs hsecond hafter, rfl⟩
  | enclosed x ih =>
    obtain ⟨vs, hvs, rfl⟩ := render_enclosed_eq_ok.1 hts
    exact render_enclosed_eq_ok.2 ⟨vs, ih hvs (flat_parenthesize.1 hflat), rfl⟩
  | signature x ih =>
    obtain ⟨vs, hvs, rfl⟩ := render_signature_eq_ok.1 hts
    unfold Limits.manner at hflat ⊢
    dsimp only at hflat ⊢
    split at hflat
    -- a collapsed signature would be one folded token
    · exact nomatch List.forall_mem_singleton.1 hflat
    · rename_i hshort
      rw [if_neg hshort]
      exact render_signature_eq_ok.2 ⟨vs, ih hvs hflat, rfl⟩

/-- **A walk that shows no folded token is the whole.** -/
theorem Style.whole_of_flat {st : Style} {m : Model} {n : Nat} {active : List TypeHandle} {depth : Nat}
    {p : Option TypeHandle} {ts : List Token} (hts : st.walk m n active depth p = .ok ts)
    (hflat : Flat ts) : st.whole m n active p = .ok ts := by
  induction n generalizing active depth p ts with
  | zero => exact nomatch hts
  | succ n ih =>
    cases p with
    | none => exact hts
    | some h =>
      unfold walk at hts
      unfold whole
      split at hts
      · rename_i hactive
        rw [if_pos hactive]
        exact hts
      · rename_i hactive
        rw [if_neg hactive]
        rw [node_eq] at hts
        exact Layout.whole_of_flat (fun p ts hts hflat => ih hts hflat) hts hflat

/-- The whole shows no folded token. -/
theorem Layout.flat_render {W : Option TypeHandle → Rendering (List Token)}
    (hW : ∀ p ts, W p = .ok ts → Flat ts) {x : Layout} {ts : List Token}
    (hts : render .whole W x = .ok ts) : Flat ts := by
  induction x generalizing ts with
  | own kind text member =>
    cases hts
    exact List.forall_mem_singleton.2 rfl
  | part p => exact hW p ts hts
  | stop cause => cases hts
  | list joint ls ih =>
    obtain ⟨es, hes, rfl⟩ := render_list_eq_ok.1 hts
    have hentries : ∀ e ∈ es, Flat e := by
      clear hts
      induction hes with
      | nil => exact fun e he => absurd he List.not_mem_nil
      | cons he _ ihes =>
        rw [List.forall_mem_cons] at ih ⊢
        exact ⟨ih.1 he, ihes ih.2⟩
    cases joint with
    | close => exact flat_flatten.2 hentries
    | apart separator => exact flat_joinWith.2 hentries
    | limited separator => exact flat_joinWith.2 hentries
  | swapped first second ihf ihs =>
    obtain ⟨before, after, hfirst, hsecond, rfl⟩ := render_swapped_eq_ok.1 hts
    exact flat_append.2 ⟨ihf hfirst, ihs hsecond⟩
  | enclosed x ih =>
    obtain ⟨vs, hvs, rfl⟩ := render_enclosed_eq_ok.1 hts
    exact flat_parenthesize.2 (ih hvs)
  | signature x ih =>
    obtain ⟨vs, hvs, rfl⟩ := render_signature_eq_ok.1 hts
    exact ih hvs

theorem Style.flat_whole {st : Style} {m : Model} {n : Nat} {active : List TypeHandle}
    {p : Option TypeHandle} {ts : List Token} (hts : st.whole m n active p = .ok ts) : Flat ts := by
  induction n generalizing active p ts with
  | zero => exact nomatch hts
  | succ n ih =>
    cases p with
    | none =>
      cases hts
      exact List.forall_mem_singleton.2 rfl
    | some h =>
      unfold whole at hts
      split at hts
      · cases hts
        exact List.forall_mem_singleton.2 rfl
      · exact Layout.flat_render (fun p ts hts => ih hts) hts

/-! ## 7. Finished graphs -/

namespace Build

/-- **Folding hides tokens and loses none.**  Within sensible limits, a rendering with all details in
    place is, parentheses apart, the rendering that every large enough limits give and that folds
    nothing. -/
theorem details_restore_whole {cx : Context} {st : Style} (hst : st.Steady) {s : Store}
    (hs : s.Graph cx) (hl : st.limits.Sensible) (root : Option TypeHandle) :
    ∃ ts full s', (settled cx (st.tokens · root)).run s = (.ok ts, s') ∧
      strip (expandAll ts) = strip full ∧ Flat full ∧
      ∃ N : Nat, ∀ st' : Style, st'.rawText = st.rawText → N ≤ st'.limits.maxItems →
        N ≤ st'.limits.collapseNodes →
          ∃ s'', (settled cx (st'.tokens · root)).run s = (.ok full, s'') := by
  obtain ⟨ts, s', hrun, htokens⟩ := exists_run_tokens hst hs root
  obtain ⟨full, hfull, hreads⟩ := Style.reads_walk hl htokens
  refine ⟨ts, full, s', hrun, hreads, Style.flat_whole hfull, ?_⟩
  -- one bound serves the whole graph, as nothing is left to be worked out in it
  obtain ⟨N, hN⟩ := st.forLarge_walk (s.workedOut cx) ((s.workedOut cx).types.size + 2) [] 0 root
  refine ⟨N, fun st' hraw hmax hcollapse => ?_⟩
  obtain ⟨limits, rawText⟩ := st'
  cases hraw
  have hlarge : ({ st with limits } : Style).tokens (s.workedOut cx) root = .ok full :=
    (hN limits hmax hcollapse).trans hfull
  have hst' : ({ st with limits } : Style).Steady := hst
  obtain ⟨us, s'', hrun', hus⟩ := exists_run_tokens hst' hs root
  cases hus.symm.trans hlarge
  exact ⟨s'', hrun'⟩

/-- Three natives and their union. -/
def unionOfThree : Store := .ofRecords [] [{ kind := .native, name := some "A" },
  { kind := .native, name := some "B" }, { kind := .native, name := some "C" },
  { kind := .union, operands := some [some ⟨0⟩, some ⟨1⟩, some ⟨2⟩] }]

/-- Lists of more than two entries show their ends. -/
def endsOnly : Style := .byKind { maxItems := 2, headItems := 1, tailItems := 1 }

/-- The union shows its first and its last operand. -/
theorem details_restore_whole_union :
    (∃ ts, endsOnly.tokens unionOfThree.toModel (some ⟨3⟩) = .ok ts ∧ ts.length = 5 ∧ ¬ Flat ts) ∧
      ∃ ts full s',
        (settled .blank (endsOnly.tokens · (some ⟨3⟩))).run unionOfThree = (.ok ts, s') ∧
        strip (expandAll ts) = strip full ∧ Flat full ∧
        ∃ N : Nat, ∀ st' : Style, st'.rawText = endsOnly.rawText → N ≤ st'.limits.maxItems →
          N ≤ st'.limits.collapseNodes →
            ∃ s'', (settled .blank (st'.tokens · (some ⟨3⟩))).run unionOfThree =
              (.ok full, s'') := by
  refine ⟨⟨_, rfl, rfl, fun hflat => ?_⟩, details_restore_whole (Style.steady_byKind _)
    (Store.graph_ofRecords (by simp) (by decide) (by decide) (by simp)) ⟨by decide, by decide, by decide⟩ _⟩
  exact absurd (hflat _ (List.mem_cons_of_mem _ (List.mem_cons_of_mem _ List.mem_cons_self))) (by decide)

end Build

end ApiReference
