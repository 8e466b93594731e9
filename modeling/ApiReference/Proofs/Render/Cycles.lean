/-
  Cycles are cut off where they close.

  The walk keeps the records that are open on the path.  The tokens of a part are the marker of a
  circular type if its record is open, and otherwise the layout of its record with the tokens of each
  part in its place, one path further.  So a marker stands exactly where the path comes back to one of
  its records, and the markers of a rendering are those places, in order; a type that does not contain
  itself shows none, however many records it shares, and shows what its unfolding shows.

  1. `Rendered`           -- the tokens at a place;
  2. `markers`, `shown`   -- markers and parts, in the order in which they stand;
  3. `Closes`, `Reaches`  -- the places where paths close;
  4. `Acyclic`            -- types that do not contain themselves;
  5. `Unfolding`          -- records drawn apart;
  6. finished graphs.
-/
import ApiReference.Proofs.Render.Folded
import Mathlib.Logic.Relation

namespace ApiReference

open Token

/-- **The record shows the part.** -/
def Style.HasPart (st : Style) (m : Model) (h : TypeHandle) (p : Option TypeHandle) : Prop :=
  Layout.part p ∈ (st.layout m h).leaves

/-! ## 1. The tokens at a place -/

/-- **The tokens of a part**, with the records that are open at its place. -/
inductive Rendered (st : Style) (m : Model) :
    List TypeHandle → Option TypeHandle → List Token → Prop
  | absent (path : List TypeHandle) : Rendered st m path none [plain .name "?"]
  /-- an open record is cut off -/
  | again {path : List TypeHandle} {h : TypeHandle} : h ∈ path →
      Rendered st m path (some h) [.circular h]
  /-- another one is opened: its layout is shown, with the tokens `W p` in the place of each part `p`;
      the place is as deep as there are open records -/
  | opened {path : List TypeHandle} {h : TypeHandle} (W : Option TypeHandle → List Token)
      {ts : List Token} : h ∉ path → (∀ p, st.HasPart m h p → Rendered st m (h :: path) p (W p)) →
      (st.layout m h).render (st.limits.manner path.length) (fun p => .ok (W p)) = .ok ts →
      Rendered st m path (some h) ts

namespace Layout

variable {manner : Manner} {W W' : Option TypeHandle → Rendering (List Token)}

/-- A layout shows of the parts what the parts on it show. -/
theorem render_congr {x : Layout} (hW : ∀ p, .part p ∈ x.leaves → W p = W' p) :
    render manner W x = render manner W' x := by
  induction x with
  | own kind text member => rfl
  | part p => exact hW p List.mem_cons_self
  | stop cause => rfl
  | list joint ls ih =>
    simp only [leaves_list, List.mem_flatMap] at hW
    rw [render, render, renderAll_congr fun l hl => ih l hl fun p hp => hW p ⟨l, hl, hp⟩]
  | swapped first second ihf ihs =>
    simp only [leaves, List.mem_append] at hW
    rw [render_swapped, render_swapped, ihf fun p hp => hW p (.inl hp), ihs fun p hp => hW p (.inr hp)]
  | enclosed x ih => rw [render_enclosed, render_enclosed, ih hW]
  | signature x ih => rw [render_signature, render_signature, ih hW]

/-- The parts of a layout that is rendered are rendered. -/
theorem exists_part {x : Layout} {ts : List Token} (hts : render manner W x = .ok ts)
    {p : Option TypeHandle} (hp : .part p ∈ x.leaves) : ∃ us, W p = .ok us := by
  induction x generalizing ts with
  | own kind text member => exact nomatch List.mem_singleton.1 hp
  | part q =>
    cases List.mem_singleton.1 hp
    exact ⟨ts, hts⟩
  | stop cause => cases hts
  | list joint ls ih =>
    obtain ⟨es, hes, -⟩ := render_list_eq_ok.1 hts
    rw [leaves_list, List.mem_flatMap] at hp
    obtain ⟨l, hl, hp⟩ := hp
    obtain ⟨i, hi, rfl⟩ := List.getElem_of_mem hl
    exact ih _ hl (hes.get hi (hes.length_eq ▸ hi)) hp
  | swapped first second ihf ihs =>
    obtain ⟨before, after, hfirst, hsecond, -⟩ := render_swapped_eq_ok.1 hts
    exact (List.mem_append.1 hp).elim (ihf hfirst) (ihs hsecond)
  | enclosed x ih =>
    obtain ⟨us, hus, -⟩ := render_enclosed_eq_ok.1 hts
    exact ih hus hp
  | signature x ih =>
    obtain ⟨us, hus, -⟩ := render_signature_eq_ok.1 hts
    exact ih hus hp

end Layout

/-- **A place has one rendering.** -/
theorem Rendered.unique {st : Style} {m : Model} {path : List TypeHandle} {p : Option TypeHandle}
    {ts us : List Token} (h : Rendered st m path p ts) (h' : Rendered st m path p us) : ts = us := by
  induction h generalizing us with
  | absent =>
    cases h'
    rfl
  | again hopen =>
    cases h' with
    | again => rfl
    | opened _ hnew => exact absurd hopen hnew
  | opened W hnew _ hts ih =>
    cases h' with
    | again hopen => exact absurd hopen hnew
    | opened W' _ hparts' hus =>
      rw [Layout.render_congr fun p hp => congrArg Except.ok (ih p hp (hparts' p hp))] at hts
      exact Except.ok.inj (hts.symm.trans hus)

/-- **The walk renders its part**, as deep as there are open records. -/
theorem Style.rendered_walk {st : Style} {m : Model} {n : Nat} {active : List TypeHandle}
    {p : Option TypeHandle} {ts : List Token} (hts : st.walk m n active active.length p = .ok ts) :
    Rendered st m active p ts := by
  induction n generalizing active p ts with
  | zero => exact nomatch hts
  | succ n ih =>
    cases p with
    | none =>
      cases hts
      exact .absent active
    | some h =>
      unfold walk at hts
      split at hts
      · rename_i hactive
        cases hts
        exact .again hactive
      · rename_i hactive
        rw [node_eq] at hts
        -- what the walk one path further gives for the parts that are shown
        let W p := ((st.walk m n (h :: active) (active.length + 1) p).toOption).getD []
        have hW : ∀ p, st.HasPart m h p → st.walk m n (h :: active) (active.length + 1) p = .ok (W p) := by
          intro p hp
          obtain ⟨us, hus⟩ := Layout.exists_part hts hp
          simp only [W, hus, Except.toOption, Option.getD_some]
        rw [Layout.render_congr hW] at hts
        exact .opened W hactive (fun p hp => ih (hW p hp)) hts

/-! ## 2. Markers in order -/

namespace Token

/-- The record at which a token cuts off. -/
def cutOff? : Token → Option TypeHandle
  | .circular h => some h
  | _ => none

/-- **The markers of tokens**, in order; those among details stand where the details are hidden. -/
def markers (ts : List Token) : List TypeHandle := (expandAll ts).filterMap cutOff?

theorem mem_markers {h : TypeHandle} {ts : List Token} : h ∈ markers ts ↔ .circular h ∈ expandAll ts := by
  rw [markers, List.mem_filterMap]
  constructor
  · rintro ⟨t, ht, he⟩
    cases t with
    | circular x =>
      cases he
      exact ht
    | _ => exact nomatch he
  · exact fun hmem => ⟨_, hmem, rfl⟩

@[simp] theorem markers_append (ts us : List Token) : markers (ts ++ us) = markers ts ++ markers us := by
  rw [markers, expandAll_append, List.filterMap_append]
  rfl

@[simp] theorem markers_punct (text : String) (ts : List Token) : markers (punct text :: ts) = markers ts :=
  rfl

@[simp] theorem markers_folded (kind : TokenKind) (text : String) (details ts : List Token) :
    markers (.folded kind text details :: ts) = markers details ++ markers ts := by
  rw [markers, expandAll_cons, expand_folded, List.filterMap_append]
  rfl

theorem markers_flatten (es : List (List Token)) : markers es.flatten = es.flatMap markers := by
  induction es with
  | nil => rfl
  | cons e es ih => rw [List.flatten_cons, markers_append, ih, List.flatMap_cons]

end Token

/-- Separators are no markers. -/
theorem markers_joinWith (separator : String) (es : List (List Token)) :
    markers (joinWith separator es) = es.flatMap markers := by
  induction es with
  | nil => rfl
  | cons e es ih =>
    by_cases hes : es = []
    · subst hes
      rw [joinWith, List.flatMap_cons, List.flatMap_nil, List.append_nil]
    · rw [joinWith_cons _ _ hes, markers_append, markers_punct, ih, List.flatMap_cons]

/-- Nor are parentheses. -/
theorem markers_parenthesize (ts : List Token) : markers (parenthesize ts) = markers ts := by
  unfold parenthesize
  split
  · rfl
  · rw [markers_punct, markers_append, markers_punct]
    exact List.append_nil _

theorem map_slice {α β : Type} (f : α → β) (xs : List α) (start stop : Int) :
    slice (xs.map f) start stop = (slice xs start stop).map f := by
  simp only [slice, List.map_drop, List.map_take, List.length_map]

/-- **The entries of a list in the order in which they stand in its tokens.**  A shortened list holds its
    first entries, then the hidden ones, then its last ones. -/
def Joint.arrange {α : Type} (l : Limits) : Joint → List α → List α
  | .close, es => es
  | .apart _, es => es
  | .limited _, es => if (es.length : Int) ≤ l.maxItems then es
    else l.headOf es ++ (l.hiddenOf es ++ l.tailOf es)

/-- **Every entry of a shortened list is shown or hidden**, whatever the limits. -/
theorem Limits.mem_slices {α : Type} (l : Limits) {es : List α} {e : α} :
    e ∈ l.headOf es ++ (l.hiddenOf es ++ l.tailOf es) ↔ e ∈ es := by
  have hstart : clampBound es.length 0 = 0 := clampBound_natCast (Nat.zero_le es.length)
  have hend : clampBound es.length es.length = es.length := clampBound_natCast (Nat.le_refl _)
  simp only [headOf, hiddenOf, tailOf, slice, hstart, hend, List.drop_zero, List.take_length,
    List.mem_append]
  generalize clampBound es.length l.headItems = a
  generalize clampBound es.length (es.length - l.tailItems) = b
  constructor
  · rintro (h | h | h)
    · exact List.mem_of_mem_take h
    · exact List.mem_of_mem_take (List.mem_of_mem_drop h)
    · exact List.mem_of_mem_drop h
  -- an entry lies before the tail or in it, and if before, in the head or between the two
  · intro h
    rw [← List.take_append_drop b es, List.mem_append] at h
    rcases h with h | h
    · rw [← List.take_append_drop a (es.take b), List.mem_append, List.take_take] at h
      rcases h with h | h
      · exact .inl (List.take_subset_take_left es (Nat.min_le_left a b) h)
      · exact .inr (.inl h)
    · exact .inr (.inr h)

namespace Joint

variable {α β : Type} (l : Limits) (joint : Joint)

theorem mem_arrange {es : List α} {e : α} : e ∈ joint.arrange l es ↔ e ∈ es := by
  cases joint with
  | close => rfl
  | apart separator => rfl
  | limited separator =>
    rw [arrange]
    split
    · rfl
    · exact l.mem_slices

theorem map_arrange (f : α → β) (es : List α) :
    (joint.arrange l es).map f = joint.arrange l (es.map f) := by
  cases joint with
  | close => rfl
  | apart separator => rfl
  | limited separator =>
    simp only [arrange, Limits.headOf, Limits.hiddenOf, Limits.tailOf, List.length_map]
    split
    · rfl
    · simp only [map_slice, List.map_append]

/-- The markers of a list are those of its entries, as the entries stand. -/
theorem markers_join (depth : Nat) (es : List (List Token)) :
    markers (joint.join (l.manner depth) es) = (joint.arrange l es).flatMap markers := by
  cases joint with
  | close => exact markers_flatten es
  | apart separator => exact markers_joinWith separator es
  | limited separator =>
    show markers (joinWith separator (l.truncate separator es)) = _
    rw [markers_joinWith, Limits.truncate, arrange]
    split
    · rfl
    -- the details of the marker token are the hidden entries
    · simp only [List.flatMap_append, List.flatMap_cons, markers_folded, markers_joinWith]
      rw [show markers [] = [] from rfl, List.append_nil]

end Joint

namespace Layout

variable (l : Limits)

mutual

/-- **The parts of a layout**, in the order in which they stand in its tokens. -/
def shown : Layout → List (Option TypeHandle)
  | .part p => [p]
  | .list joint entries => (joint.arrange l (shownAll entries)).flatten
  | .swapped first second => shown first ++ shown second
  | .enclosed x | .signature x => shown x
  | .own .. | .stop _ => []

/-- The parts of entries. -/
def shownAll : List Layout → List (List (Option TypeHandle))
  | [] => []
  | x :: xs => shown x :: shownAll xs

end

theorem shownAll_eq_map (xs : List Layout) : shownAll l xs = xs.map (shown l) := by
  induction xs with
  | nil => rfl
  | cons x xs ih => rw [shownAll, ih, List.map_cons]

variable {l}

/-- The parts of a list are those of its entries, as the entries stand. -/
theorem shown_list (joint : Joint) (xs : List Layout) :
    shown l (.list joint xs) = (joint.arrange l xs).flatMap (shown l) := by
  rw [shown, shownAll_eq_map, ← Joint.map_arrange, List.flatMap_def]

/-- **All parts are shown**, whatever the limits. -/
theorem mem_shown {p : Option TypeHandle} {x : Layout} : p ∈ x.shown l ↔ .part p ∈ x.leaves := by
  induction x with
  | own kind text member => simp [shown, leaves]
  | part q => simp [shown, leaves]
  | stop cause => simp [shown, leaves]
  | list joint xs ih =>
    rw [shown_list, leaves_list, List.mem_flatMap, List.mem_flatMap]
    exact exists_congr fun x => ⟨fun h => have hx := (joint.mem_arrange l).1 h.1; ⟨hx, (ih x hx).1 h.2⟩,
      fun h => ⟨(joint.mem_arrange l).2 h.1, (ih x h.1).2 h.2⟩⟩
  | swapped first second ihf ihs => rw [shown, leaves, List.mem_append, List.mem_append, ihf, ihs]
  | enclosed x ih => exact ih
  | signature x ih => exact ih

/-- **The markers of a layout** are those of its parts, in the order in which the parts stand. -/
theorem markers_render {depth : Nat} {W : Option TypeHandle → List Token} {x : Layout} {ts : List Token}
    (hts : render (l.manner depth) (fun p => .ok (W p)) x = .ok ts) :
    markers ts = (x.shown l).flatMap fun p => markers (W p) := by
  induction x generalizing ts with
  | own kind text member =>
    cases hts
    rfl
  | part p =>
    cases hts
    exact (List.append_nil _).symm
  | stop cause => cases hts
  | list joint xs ih =>
    obtain ⟨es, hes, rfl⟩ := render_list_eq_ok.1 hts
    have hentries : es.map markers = xs.map fun x => (x.shown l).flatMap fun p => markers (W p) := by
      clear hts
      induction hes with
      | nil => rfl
      | cons he _ ihes =>
        rw [List.forall_mem_cons] at ih
        rw [List.map_cons, List.map_cons, ih.1 he, ihes ih.2]
    rw [Joint.markers_join, shown_list, List.flatMap_assoc, List.flatMap_def, List.flatMap_def,
      Joint.map_arrange, Joint.map_arrange, hentries]
  | swapped first second ihf ihs =>
    obtain ⟨before, after, hfirst, hsecond, rfl⟩ := render_swapped_eq_ok.1 hts
    rw [markers_append, ihf hfirst, ihs hsecond, shown, List.flatMap_append]
  | enclosed x ih =>
    obtain ⟨us, hus, rfl⟩ := render_enclosed_eq_ok.1 hts
    rw [markers_parenthesize]
    exact ih hus
  | signature x ih =>
    obtain ⟨us, hus, rfl⟩ := render_signature_eq_ok.1 hts
    rw [show markers ((l.manner depth).collapse us) = markers us from ?_]
    · exact ih hus
    · unfold Limits.manner
      dsimp only
      split
      · rw [markers_folded]
        exact List.append_nil _
      · rfl

end Layout

/-! ## 3. Places -/

/-- **The records at which the paths of a part close**, in the order of the places: that of the part
    itself if it is open, and otherwise those of its parts, one path further. -/
inductive Style.Closes (st : Style) (m : Model) :
    List TypeHandle → Option TypeHandle → List TypeHandle → Prop
  | absent (path : List TypeHandle) : Closes st m path none []
  | again {path : List TypeHandle} {h : TypeHandle} : h ∈ path → Closes st m path (some h) [h]
  | opened {path : List TypeHandle} {h : TypeHandle} (V : Option TypeHandle → List TypeHandle) :
      h ∉ path → (∀ p, st.HasPart m h p → Closes st m (h :: path) p (V p)) →
      Closes st m path (some h) (((st.layout m h).shown st.limits).flatMap V)

/-- **The places of a walk**: from a part, with the records open there, on to a part inside it, with
    the records open at that place. -/
inductive Style.Reaches (st : Style) (m : Model) :
    List TypeHandle → Option TypeHandle → List TypeHandle → Option TypeHandle → Prop
  | here (path : List TypeHandle) (p : Option TypeHandle) : Reaches st m path p path p
  | into {path path' : List TypeHandle} {h : TypeHandle} {q r : Option TypeHandle} : h ∉ path →
      st.HasPart m h q → Reaches st m (h :: path) q path' r → Reaches st m path (some h) path' r

section

variable {st : Style} {m : Model}

/-- **No record is open twice on a path.** -/
theorem Style.Reaches.nodup {path path' : List TypeHandle} {p r : Option TypeHandle}
    (h : st.Reaches m path p path' r) (hpath : path.Nodup) : path'.Nodup := by
  induction h with
  | here => exact hpath
  | into hnew _ _ ih => exact ih (List.nodup_cons.2 ⟨hnew, hpath⟩)

/-- **The markers of a part are where its paths close**, in order. -/
theorem Rendered.closes {path : List TypeHandle} {p : Option TypeHandle} {ts : List Token}
    (h : Rendered st m path p ts) : st.Closes m path p (markers ts) := by
  induction h with
  | absent path => exact .absent path
  | again hopen => exact .again hopen
  | opened W hnew _ hts ih =>
    rw [Layout.markers_render hts]
    exact .opened _ hnew ih

/-- A path closes at a place whose record is open. -/
theorem Style.Closes.reaches {x : TypeHandle} {path hs : List TypeHandle} {p : Option TypeHandle}
    (h : st.Closes m path p hs) (hx : x ∈ hs) : ∃ path', st.Reaches m path p path' (some x) ∧ x ∈ path' := by
  induction h with
  | absent => exact absurd hx List.not_mem_nil
  | @again path h hopen =>
    cases List.mem_singleton.1 hx
    exact ⟨path, .here _ _, hopen⟩
  | opened V hnew _ ih =>
    obtain ⟨q, hq, hx⟩ := List.mem_flatMap.1 hx
    have hpart := Layout.mem_shown.1 hq
    obtain ⟨path', hreach, hmem⟩ := ih q hpart hx
    exact ⟨path', .into hnew hpart hreach, hmem⟩

/-- At a place whose record is open the path closes. -/
theorem Style.Reaches.closes {x : TypeHandle} {path path' hs : List TypeHandle}
    {p r : Option TypeHandle} (hreach : st.Reaches m path p path' r) (h : st.Closes m path p hs)
    (hr : r = some x) (hx : x ∈ path') : x ∈ hs := by
  induction hreach generalizing hs with
  | here path p =>
    subst hr
    cases h with
    | again => exact List.mem_singleton.2 rfl
    | opened _ hnew => exact absurd hx hnew
  | into hnew hpart _ ih =>
    cases h with
    | again hopen => exact absurd hopen hnew
    | opened V _ hparts =>
      exact List.mem_flatMap.2 ⟨_, Layout.mem_shown.2 hpart, ih (hparts _ hpart) hr hx⟩

/-- **Markers stand exactly where a path comes back to one of its records.** -/
theorem Rendered.circular_iff {x : TypeHandle} {path : List TypeHandle} {p : Option TypeHandle}
    {ts : List Token} (h : Rendered st m path p ts) :
    .circular x ∈ expandAll ts ↔ ∃ path', st.Reaches m path p path' (some x) ∧ x ∈ path' := by
  rw [← mem_markers]
  exact ⟨h.closes.reaches, fun ⟨_, hreach, hx⟩ => hreach.closes h.closes rfl hx⟩

/-! ## 4. Types that do not contain themselves -/

/-- One record shows the other. -/
def Style.Step (st : Style) (m : Model) (h h' : TypeHandle) : Prop := st.HasPart m h (some h')

/-- The record is the part, or inside it. -/
def Style.Within (st : Style) (m : Model) (p : Option TypeHandle) (h : TypeHandle) : Prop :=
  ∃ r, p = some r ∧ Relation.ReflTransGen (st.Step m) r h

/-- **No record inside the type contains itself.** -/
def Style.Acyclic (st : Style) (m : Model) (p : Option TypeHandle) : Prop :=
  ∀ h, st.Within m p h → ¬ Relation.TransGen (st.Step m) h h

/-- The record of a place is inside the part from which it is reached. -/
theorem Style.Reaches.within {path path' : List TypeHandle} {p r : Option TypeHandle}
    {x : TypeHandle} (h : st.Reaches m path p path' r) (hr : r = some x) : st.Within m p x := by
  induction h with
  | here path p => exact ⟨x, hr, .refl⟩
  | into _ hpart _ ih =>
    obtain ⟨q, rfl, hq⟩ := ih hr
    exact ⟨_, rfl, .head hpart hq⟩

/-- The records that are opened on the way to a place contain its record. -/
theorem Style.Reaches.contains {path path' : List TypeHandle} {p r : Option TypeHandle}
    {x y : TypeHandle} (h : st.Reaches m path p path' r) (hr : r = some x) (hy : y ∈ path') :
    y ∈ path ∨ st.Within m p y ∧ Relation.TransGen (st.Step m) y x := by
  induction h with
  | here => exact .inl hy
  | into hnew hpart hrest ih =>
    rcases ih hr hy with hmem | ⟨⟨q, hq, hwithin⟩, hcontains⟩
    · rcases List.mem_cons.1 hmem with rfl | hmem
      · obtain ⟨q, rfl, hq⟩ := hrest.within hr
        exact .inr ⟨⟨y, rfl, .refl⟩, .head' hpart hq⟩
      · exact .inl hmem
    · subst hq
      exact .inr ⟨⟨_, rfl, .head hpart hwithin⟩, hcontains⟩

/-- **A type that does not contain itself shows no marker.** -/
theorem Rendered.not_circular {p : Option TypeHandle} {ts : List Token}
    (h : Rendered st m [] p ts) (hac : st.Acyclic m p) (x : TypeHandle) :
    .circular x ∉ expandAll ts := by
  intro hx
  obtain ⟨path', hreach, hmem⟩ := h.circular_iff.1 hx
  rcases hreach.contains rfl hmem with hnil | ⟨hwithin, hcycle⟩
  · exact List.not_mem_nil hnil
  · exact hac x hwithin hcycle

end

/-! ## 5. Unfoldings -/

namespace Token

variable (π : TypeHandle → TypeHandle) (ρ : MemberHandle → MemberHandle)

mutual

/-- The token with other handles. -/
def rename : Token → Token
  | .piece kind text member => .piece kind text (member.map ρ)
  | .folded kind text details => .folded kind text (renameAll details)
  | .circular h => .circular (π h)

/-- The tokens with other handles. -/
def renameAll : List Token → List Token
  | [] => []
  | t :: ts => rename t :: renameAll ts

end

theorem renameAll_eq_map (ts : List Token) : renameAll π ρ ts = ts.map (rename π ρ) := by
  induction ts with
  | nil => rfl
  | cons t ts ih => rw [renameAll, ih, List.map_cons]

@[simp] theorem renameAll_append (ts us : List Token) :
    renameAll π ρ (ts ++ us) = renameAll π ρ ts ++ renameAll π ρ us := by
  simp only [renameAll_eq_map, List.map_append]

@[simp] theorem length_renameAll (ts : List Token) : (renameAll π ρ ts).length = ts.length := by
  rw [renameAll_eq_map, List.length_map]

end Token

section

variable {π : TypeHandle → TypeHandle} {ρ : MemberHandle → MemberHandle}

theorem renameAll_joinWith (separator : String) (es : List (List Token)) :
    renameAll π ρ (joinWith separator es) = joinWith separator (es.map (renameAll π ρ)) := by
  induction es with
  | nil => rfl
  | cons e es ih =>
    by_cases hes : es = []
    · subst hes
      rfl
    · rw [joinWith_cons _ _ hes, List.map_cons, joinWith_cons _ _ (by simpa using hes), ← ih]
      simp only [renameAll_append, renameAll, punct, plain, rename, Option.map_none]

theorem renameAll_parenthesize (ts : List Token) :
    renameAll π ρ (parenthesize ts) = parenthesize (renameAll π ρ ts) := by
  match ts with
  | [] => rfl
  | [t] => rfl
  | t :: u :: us =>
    simp only [parenthesize, renameAll, renameAll_append, punct, plain, rename, Option.map_none]

/-- Lists are shortened by their length. -/
theorem Limits.truncate_renameAll (l : Limits) (separator : String) (es : List (List Token)) :
    l.truncate separator (es.map (renameAll π ρ)) = (l.truncate separator es).map (renameAll π ρ) := by
  unfold truncate headOf hiddenOf tailOf
  rw [List.length_map]
  split
  · rfl
  · simp only [map_slice, List.length_map, List.map_append, List.map_cons, renameAll, rename,
      renameAll_joinWith]

theorem Joint.renameAll_join (l : Limits) (depth : Nat) (joint : Joint) (es : List (List Token)) :
    renameAll π ρ (joint.join (l.manner depth) es) =
      joint.join (l.manner depth) (es.map (renameAll π ρ)) := by
  cases joint with
  | close =>
    show renameAll π ρ es.flatten = (es.map (renameAll π ρ)).flatten
    rw [renameAll_eq_map, List.map_flatten, show renameAll π ρ = List.map (rename π ρ) from
      funext (renameAll_eq_map π ρ)]
  | apart separator => exact renameAll_joinWith separator es
  | limited separator =>
    show renameAll π ρ (joinWith separator (l.truncate separator es)) = joinWith separator (l.truncate _ _)
    rw [renameAll_joinWith, l.truncate_renameAll]

theorem Limits.renameAll_collapse (l : Limits) (depth : Nat) (ts : List Token) :
    renameAll π ρ ((l.manner depth).collapse ts) = (l.manner depth).collapse (renameAll π ρ ts) := by
  unfold manner
  dsimp only
  rw [length_renameAll]
  split
  · rfl
  · rfl

end

namespace Layout

variable (π : TypeHandle → TypeHandle) (ρ : MemberHandle → MemberHandle)

mutual

/-- The layout with other handles. -/
def rename : Layout → Layout
  | .own kind text member => .own kind text (member.map ρ)
  | .part p => .part (p.map π)
  | .list joint entries => .list joint (renameAll entries)
  | .swapped first second => .swapped (rename first) (rename second)
  | .enclosed l => .enclosed (rename l)
  | .signature l => .signature (rename l)
  | .stop cause => .stop cause

def renameAll : List Layout → List Layout
  | [] => []
  | l :: ls => rename l :: renameAll ls

end

theorem renameAll_eq_map (ls : List Layout) : renameAll π ρ ls = ls.map (rename π ρ) := by
  induction ls with
  | nil => rfl
  | cons l ls ih => rw [renameAll, ih, List.map_cons]

variable {π ρ}

theorem leaves_rename (x : Layout) : (x.rename π ρ).leaves = x.leaves.map (rename π ρ) := by
  induction x with
  | own kind text member => rfl
  | part p => rfl
  | stop cause => rfl
  | list joint ls ih =>
    rw [rename, leaves_list, leaves_list, renameAll_eq_map, List.flatMap_map, List.map_flatMap]
    exact List.flatMap_congr ih
  | swapped first second ihf ihs => rw [rename, leaves, leaves, ihf, ihs, List.map_append]
  | enclosed x ih => exact ih
  | signature x ih => exact ih

/-- **A layout with other handles shows the same tokens with other handles**, if its parts do. -/
theorem render_rename {l : Limits} {depth : Nat} {W W' : Option TypeHandle → Rendering (List Token)}
    {x : Layout} (hW : ∀ p, .part p ∈ x.leaves → ∀ us ts, W p = .ok us → W' (p.map π) = .ok ts →
      ts = Token.renameAll π ρ us) {us ts : List Token} (hus : render (l.manner depth) W x = .ok us)
    (hts : render (l.manner depth) W' (x.rename π ρ) = .ok ts) : ts = Token.renameAll π ρ us := by
  induction x generalizing us ts with
  | own kind text member =>
    cases hus
    cases hts
    rfl
  | part p => exact hW p List.mem_cons_self us ts hus hts
  | stop cause => cases hus
  | list joint ls ih =>
    obtain ⟨es, hes, rfl⟩ := render_list_eq_ok.1 hus
    rw [rename, renameAll_eq_map] at hts
    obtain ⟨fs, hfs, rfl⟩ := render_list_eq_ok.1 hts
    rw [Joint.renameAll_join]
    congr 1
    -- both sides render the same entries, so they agree one by one
    rw [leaves_list] at hW
    clear hus hts
    induction hes generalizing fs with
    | nil =>
      cases hfs
      rfl
    | cons he hes ihes =>
      cases hfs with
      | cons hf hfs =>
        rw [List.forall_mem_cons] at ih
        rw [List.map_cons, ih.1 (fun p hp => hW p (List.mem_append_left _ hp)) he hf,
          ihes ih.2 (fun p hp => hW p (List.mem_append_right _ hp)) _ hfs]
  | swapped first second ihf ihs =>
    obtain ⟨before, after, hfirst, hsecond, rfl⟩ := render_swapped_eq_ok.1 hus
    obtain ⟨before', after', hfirst', hsecond', rfl⟩ := render_swapped_eq_ok.1 hts
    rw [Token.renameAll_append, ihf (fun p hp => hW p (List.mem_append_left _ hp)) hfirst hfirst',
      ihs (fun p hp => hW p (List.mem_append_right _ hp)) hsecond hsecond']
  | enclosed x ih =>
    obtain ⟨vs, hvs, rfl⟩ := render_enclosed_eq_ok.1 hus
    obtain ⟨vs', hvs', rfl⟩ := render_enclosed_eq_ok.1 hts
    rw [renameAll_parenthesize, ih hW hvs hvs']
  | signature x ih =>
    obtain ⟨vs, hvs, rfl⟩ := render_signature_eq_ok.1 hus
    obtain ⟨vs', hvs', rfl⟩ := render_signature_eq_ok.1 hts
    rw [Limits.renameAll_collapse, ih hW hvs hvs']

end Layout

namespace Style

variable {st : Style} {u m : Model} {π : TypeHandle → TypeHandle} {ρ : MemberHandle → MemberHandle}

/-- **The records inside a type drawn apart**: each stands for a record of the graph, and shows what
    that record shows.  The unfolding of a type into a tree has one record for each place. -/
def Unfolding (st : Style) (u m : Model) (root : Option TypeHandle) (π : TypeHandle → TypeHandle)
    (ρ : MemberHandle → MemberHandle) : Prop :=
  ∀ h, st.Within u root h → (st.layout u h).rename π ρ = st.layout m (π h)

theorem Within.step {root : Option TypeHandle} {h h' : TypeHandle} (hh : st.Within m root h)
    (hstep : st.Step m h h') : st.Within m root h' := by
  obtain ⟨r, hr, hpath⟩ := hh
  exact ⟨r, hr, hpath.tail hstep⟩

/-- A part of a drawn-apart record stands for a part of the record. -/
theorem Unfolding.hasPart {root : Option TypeHandle} (hu : st.Unfolding u m root π ρ) {h : TypeHandle}
    (hh : st.Within u root h) {p : Option TypeHandle} (hp : st.HasPart u h p) :
    st.HasPart m (π h) (p.map π) := by
  unfold HasPart
  rw [← hu h hh, Layout.leaves_rename]
  exact List.mem_map.2 ⟨_, hp, rfl⟩

/-- **Two walks in step**: over the drawn-apart records, and over the records they stand for.  The
    open records contain the next one, so none of them is met again. -/
theorem Unfolding.walk {root : Option TypeHandle} (hu : st.Unfolding u m root π ρ)
    (hac : st.Acyclic m (root.map π)) {n n' : Nat} {active : List TypeHandle} {depth : Nat}
    {p : Option TypeHandle} {us ts : List Token} (hwithin : ∀ h, p = some h → st.Within u root h)
    (hreach : ∀ h, p = some h → st.Within m (root.map π) (π h))
    (hactive : ∀ a ∈ active, ∀ h, p = some h → Relation.TransGen (st.Step m) (π a) (π h))
    (hus : st.walk u n active depth p = .ok us)
    (hts : st.walk m n' (active.map π) depth (p.map π) = .ok ts) : ts = renameAll π ρ us := by
  induction n generalizing n' active depth p us ts with
  | zero => exact nomatch hus
  | succ n ih =>
    cases n' with
    | zero => exact nomatch hts
    | succ n' =>
      cases p with
      | none =>
        cases hus
        cases hts
        rfl
      | some h =>
        -- an open record below itself would be a cycle
        have hnew : π h ∉ active.map π := by
          intro hmem
          obtain ⟨a, ha, he⟩ := List.mem_map.1 hmem
          exact hac (π h) (hreach h rfl) (he ▸ hactive a ha h rfl)
        have hnew' : h ∉ active := fun hmem => hnew (List.mem_map_of_mem hmem)
        rw [Style.walk, if_neg hnew', node_eq] at hus
        rw [Option.map_some, Style.walk, if_neg hnew, node_eq, ← hu h (hwithin h rfl)] at hts
        refine Layout.render_rename (fun q hq vs ws hvs hws => ?_) hus hts
        have hpart := hu.hasPart (hwithin h rfl) hq
        refine ih ?_ ?_ ?_ hvs (show st.walk m n' ((h :: active).map π) _ _ = _ from hws)
        · rintro h' rfl
          exact (hwithin h rfl).step hq
        · rintro h' rfl
          exact (hreach h rfl).step hpart
        · rintro a ha h' rfl
          rcases List.mem_cons.1 ha with rfl | ha
          · exact .single hpart
          · exact (hactive a ha h rfl).tail hpart

/-- **A type that does not contain itself shows what its unfolding shows.** -/
theorem Unfolding.exists_tokens {root : Option TypeHandle} (hu : st.Unfolding u m root π ρ)
    (hac : st.Acyclic m (root.map π)) (hgoes : ∀ h, (st.layout m h).Goes) {ts : List Token}
    (hts : st.tokens m (root.map π) = .ok ts) :
    ∃ us, st.tokens u root = .ok us ∧ renameAll π ρ us = ts := by
  obtain ⟨us, hus⟩ : ∃ us, st.tokens u root = .ok us := by
    refine exists_walk (P := st.Within u root) (fun h hh cause hstop => ?_) (fun h hh h' hp => hh.step hp)
      List.nodup_nil (fun _ h => absurd h List.not_mem_nil) (Nat.le_refl _) 0 fun h he => ⟨h, he, .refl⟩
    refine hgoes (π h) cause ?_
    rw [← hu h hh, Layout.leaves_rename]
    exact List.mem_map.2 ⟨_, hstop, rfl⟩
  refine ⟨us, hus, (hu.walk hac (fun h he => ⟨h, he, .refl⟩) (fun h he => ?_)
    (fun a ha => absurd ha List.not_mem_nil) hus hts).symm⟩
  rw [he]
  exact ⟨π h, rfl, .refl⟩

end Style

/-! ## 6. Finished graphs -/

/-- Records that show only earlier ones do not contain themselves. -/
theorem Style.acyclic_of_lt {st : Style} {m : Model}
    (h : ∀ x y, st.Step m x y → y.index < x.index) (p : Option TypeHandle) : st.Acyclic m p := by
  intro x _ hcycle
  have hlt : ∀ y, Relation.TransGen (st.Step m) x y → y.index < x.index := by
    intro y hy
    induction hy with
    | single hstep => exact h _ _ hstep
    | tail _ hstep ih => exact (h _ _ hstep).trans ih
  exact Nat.lt_irrefl _ (hlt x hcycle)

namespace Build

/-- **A rendering marks exactly the cycles.**  Every type record of a finished graph is rendered.  Its
    tokens are fixed place by place: a part is cut off where its record is open on the path, and shown by
    its layout otherwise.  The markers, also those among details, are in order the records at which a path
    closes; no record is open twice on a path.  A type that does not contain itself shows no marker, and
    what its unfolding shows. -/
theorem cycles_marked {cx : Context} {st : Style} (hst : st.Steady) {s : Store} (hs : s.Graph cx)
    (root : Option TypeHandle) :
    ∃ ts s', (settled cx (st.tokens · root)).run s = (.ok ts, s') ∧
      Rendered st (s.workedOut cx) [] root ts ∧ st.Closes (s.workedOut cx) [] root (markers ts) ∧
      (∀ h, .circular h ∈ expandAll ts ↔
        ∃ path, st.Reaches (s.workedOut cx) [] root path (some h) ∧ h ∈ path) ∧
      (∀ path p, st.Reaches (s.workedOut cx) [] root path p → path.Nodup) ∧
      (st.Acyclic (s.workedOut cx) root → (∀ h, .circular h ∉ expandAll ts) ∧
        ∀ u root' π ρ, st.Unfolding u (s.workedOut cx) root' π ρ → root'.map π = root →
          ∃ us, st.tokens u root' = .ok us ∧ renameAll π ρ us = ts) := by
  obtain ⟨ts, s', hrun, htokens⟩ := exists_run_tokens hst hs root
  have hrendered : Rendered st (s.workedOut cx) [] root ts := Style.rendered_walk htokens
  refine ⟨ts, s', hrun, hrendered, hrendered.closes, fun h => hrendered.circular_iff,
    fun path p hreach => hreach.nodup List.nodup_nil, fun hac => ⟨hrendered.not_circular hac, ?_⟩⟩
  rintro u root' π ρ hu rfl
  exact hu.exists_tokens hac hs.goes_layout htokens

/-- A tuple that holds itself, a native and itself again. -/
def ring : Store :=
  .ofRecords [] [{ kind := .native, name := some "A" },
    { kind := .tuple, elements := some [some ⟨1⟩, some ⟨0⟩, some ⟨1⟩] }]

theorem layout_ring (cx : Context) (i : Nat) :
    (Style.byKind {}).layout (ring.workedOut cx) ⟨i⟩ = match i with
      | 0 => .plain .builtin "A"
      | 1 => .seq [.punct "[", .list (.apart ", ") [.part (some ⟨1⟩), .part (some ⟨0⟩), .part (some ⟨1⟩)],
          .punct "]"]
      | _ => .plain .name "unknown" := by
  unfold Style.layout
  rw [Store.type_workedOut]
  match i with
  | 0 => rfl
  | 1 => rfl
  | i + 2 => rfl

/-- Inside the tuple its own record is open, the native is not. -/
theorem rendered_ring (cx : Context) : Rendered (Style.byKind {}) (ring.workedOut cx) [] (some ⟨1⟩)
    [punct "[", .circular ⟨1⟩, punct ", ", plain .builtin "A", punct ", ", .circular ⟨1⟩, punct "]"] := by
  refine .opened (fun p => if p = some ⟨1⟩ then [.circular ⟨1⟩] else [plain .builtin "A"])
    List.not_mem_nil (fun p hp => ?_) ?_
  · have hparts : p = some ⟨1⟩ ∨ p = some ⟨0⟩ := by
      rw [Style.HasPart, layout_ring] at hp
      have hleaves : Layout.part p ∈ [.punct "[", .part (some ⟨1⟩), .part (some ⟨0⟩), .part (some ⟨1⟩),
        .punct "]"] := hp
      simpa [Layout.punct, Layout.plain, or_left_comm, or_comm] using hleaves
    rcases hparts with rfl | rfl
    · exact .again List.mem_cons_self
    · refine .opened (fun _ => []) (by decide) (fun q hq => ?_) ?_
      · rw [Style.HasPart, layout_ring] at hq
        exact nomatch List.mem_singleton.1 hq
      · rw [layout_ring]
        rfl
  · rw [layout_ring]
    rfl

/-- A pair of one native with itself. -/
def sharedPair : Store :=
  .ofRecords [] [{ kind := .native, name := some "A" }, { kind := .tuple, elements := some [some ⟨0⟩, some ⟨0⟩] }]

/-- The pair as a tree, with two natives. -/
def drawnPair : Store :=
  .ofRecords [] [{ kind := .native, name := some "A" }, { kind := .native, name := some "A" },
    { kind := .tuple, elements := some [some ⟨0⟩, some ⟨1⟩] }]

/-- The tuple of the tree stands for the tuple, its elements for the shared one. -/
def ofDrawn (h : TypeHandle) : TypeHandle := ⟨h.index - 1⟩

theorem layout_sharedPair (cx : Context) (i : Nat) :
    (Style.byKind {}).layout (sharedPair.workedOut cx) ⟨i⟩ = match i with
      | 0 => .plain .builtin "A"
      | 1 => .seq [.punct "[", .list (.apart ", ") [.part (some ⟨0⟩), .part (some ⟨0⟩)], .punct "]"]
      | _ => .plain .name "unknown" := by
  unfold Style.layout
  rw [Store.type_workedOut]
  match i with
  | 0 => rfl
  | 1 => rfl
  | i + 2 => rfl

theorem acyclic_sharedPair (cx : Context) (p : Option TypeHandle) :
    (Style.byKind {}).Acyclic (sharedPair.workedOut cx) p := by
  refine Style.acyclic_of_lt (fun x y hstep => ?_) p
  obtain ⟨i⟩ := x
  rw [Style.Step, Style.HasPart, layout_sharedPair] at hstep
  match i with
  | 0 => exact nomatch List.mem_singleton.1 hstep
  | 1 =>
    have hparts : Layout.part (some y) ∈ [.punct "[", .part (some ⟨0⟩), .part (some ⟨0⟩), .punct "]"] := hstep
    simp only [List.mem_cons, Layout.part.injEq, Option.some.injEq, reduceCtorEq, Layout.punct,
      Layout.plain, List.not_mem_nil, false_or, or_false, or_self] at hparts
    subst hparts
    exact Nat.zero_lt_one
  | i + 2 => exact nomatch List.mem_singleton.1 hstep

theorem unfolding_drawnPair (cx : Context) :
    (Style.byKind {}).Unfolding drawnPair.toModel (sharedPair.workedOut cx) (some ⟨2⟩) ofDrawn id := by
  rintro ⟨i⟩ -
  rw [ofDrawn, layout_sharedPair]
  match i with
  | 0 => rfl
  | 1 => rfl
  | 2 => rfl
  | i + 3 => rfl

/-- The tuple is cut off at each place inside itself.  The pair shows no marker for the native that it
    shares, and shows what its tree shows. -/
theorem cycles_marked_tuples : (∃ ts s',
    (settled .blank ((Style.byKind {}).tokens · (some ⟨1⟩))).run ring = (.ok ts, s') ∧
      ts = [punct "[", .circular ⟨1⟩, punct ", ", plain .builtin "A", punct ", ", .circular ⟨1⟩, punct "]"] ∧
      (Style.byKind {}).Closes (ring.workedOut .blank) [] (some ⟨1⟩) [⟨1⟩, ⟨1⟩]) ∧
    ∃ ts s', (settled .blank ((Style.byKind {}).tokens · (some ⟨1⟩))).run sharedPair =
      (.ok ts, s') ∧ (∀ h, .circular h ∉ expandAll ts) ∧
    ∃ us, (Style.byKind {}).tokens drawnPair.toModel (some ⟨2⟩) = .ok us ∧
      renameAll ofDrawn id us = ts := by
  constructor
  · have hgraph : ring.Graph .blank :=
      Store.graph_ofRecords (by simp) (by decide) (by decide) (by simp)
    obtain ⟨ts, s', hrun, hrendered, hcloses, -⟩ :=
      cycles_marked (Style.steady_byKind {}) hgraph (some ⟨1⟩)
    have hts := hrendered.unique (rendered_ring _)
    subst hts
    exact ⟨_, s', hrun, rfl, hcloses⟩
  · have hgraph : sharedPair.Graph .blank :=
      Store.graph_ofRecords (by simp) (by decide) (by decide) (by simp)
    obtain ⟨ts, s', hrun, -, -, -, -, hac⟩ := cycles_marked (Style.steady_byKind {}) hgraph (some ⟨1⟩)
    obtain ⟨hnone, htree⟩ := hac (acyclic_sharedPair _ _)
    exact ⟨ts, s', hrun, hnone, htree _ _ _ _ (unfolding_drawnPair _) rfl⟩

end Build

end ApiReference
