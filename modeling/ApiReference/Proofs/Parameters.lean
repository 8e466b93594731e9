/-
  Dotted parameter tags.

  A tag whose name has a dot describes a part of the parameter that is named by what stands before the
  first dot.  The parameter is searched by a prefix, its name and a dot.  With names that have no dots
  this finds the parameter by the first segment of the tag's name, also where one name begins with
  another or is empty, and the part is named by the last segment.

  1. `Text.segments`     -- a dotted name, its first segment and its last;
  2. `ParamTag.describes` -- the parameter that a tag is about, and what it gets;
  3. `takes_tag`         -- one tag;
  4. `parts_attached`    -- the tags of a declaration.
-/
import ApiReference.Proofs.Build.Requests
import Mathlib.Data.List.TakeWhile

namespace ApiReference

/-! ## 1. Dotted names -/

namespace Text

/-- **The segments of a name**: the texts between its dots. -/
def segments (name : String) : List String := (name.toList.splitOn '.').map String.ofList

theorem segments_of_not_mem {name : String} (h : '.' ∉ name.toList) : segments name = [name] := by
  unfold segments
  rw [List.splitOn_eq_singleton h, List.map_singleton, String.ofList_toList]

theorem segments_ne_nil (name : String) : segments name ≠ [] :=
  fun h => List.splitOn_ne_nil _ _ (List.map_eq_nil_iff.1 h)

/-- **A search by prefix is one by the first segment.**  A text begins with a name that has no dot, and a
    dot, when the name is its first segment and not the only one. -/
theorem startsWith_dot_iff {name : String} (hname : '.' ∉ name.toList) (text : String) :
    startsWith text (name ++ ".") = true ↔ ∃ rest, rest ≠ [] ∧ segments text = name :: rest := by
  have hdot : (name ++ ".").toList = name.toList ++ ['.'] := by
    rw [String.toList_append]
    rfl
  unfold startsWith
  rw [List.isPrefixOf_iff_prefix, hdot]
  constructor
  · rintro ⟨r, hr⟩
    rw [List.append_assoc, List.singleton_append] at hr
    refine ⟨segments (String.ofList r), segments_ne_nil _, ?_⟩
    unfold segments
    rw [← hr, List.splitOn_append_cons_self_of_not_mem hname, List.map_cons, String.ofList_toList,
      String.toList_ofList]
  · rintro ⟨rest, hrest, hsegments⟩
    obtain ⟨l, ls, hsplit, hl, hls⟩ := List.map_eq_cons_iff.1 hsegments
    have hne : ls ≠ [] := by
      rintro rfl
      exact hrest hls.symm
    obtain ⟨m, ms, rfl⟩ := List.exists_cons_of_ne_nil hne
    -- put together again, the segments are the text
    have hwhole : ['.'].intercalate (l :: m :: ms) = text.toList := hsplit ▸ List.intercalate_splitOn '.'
    rw [← hl, String.toList_ofList, ← hwhole]
    exact ⟨['.'].intercalate (m :: ms), by simp [List.intercalate]⟩

/-- **What stands after the last dot is the last segment.** -/
theorem getLast?_segments (text : String) : (segments text).getLast? = some (afterLastDot text) := by
  by_cases hdot : '.' ∈ text.toList
  · -- the last dot is the first one from the end
    obtain ⟨after, before, hsplit, hafter⟩ := List.eq_append_cons_of_mem (List.mem_reverse.2 hdot)
    have htext : text.toList = before.reverse ++ '.' :: after.reverse := by
      rw [← List.reverse_reverse text.toList, hsplit]
      simp
    have hlast : afterLastDot text = String.ofList after.reverse := by
      unfold afterLastDot
      rw [hsplit, List.takeWhile_append_of_pos, List.takeWhile_cons_of_neg (by simp), List.append_nil]
      intro c hc
      exact bne_iff_ne.2 fun he => hafter (he ▸ hc)
    have hplain : '.' ∉ after.reverse := fun h => hafter (List.mem_reverse.1 h)
    unfold segments
    rw [htext, List.splitOn_append_cons_self, List.splitOn_eq_singleton hplain, List.map_append, hlast]
    exact List.getLast?_concat
  · have hall : afterLastDot text = text := by
      unfold afterLastDot
      rw [List.takeWhile_eq_self_iff.2, List.reverse_reverse, String.ofList_toList]
      intro c hc
      exact bne_iff_ne.2 fun he => hdot (he ▸ List.mem_reverse.1 hc)
    rw [segments_of_not_mem hdot, hall]
    rfl

end Text

/-! ## 2. Parameters and their tags -/

/-- **The tag describes a part of the parameter**: its name has a dot, and the text before the first one
    is the parameter's name. -/
def ParamTag.describes (tag : ParamTag) (p : Parameter) : Bool :=
  match p.name, Text.segments tag.name with
  | .str name, first :: _ :: _ => name == first
  | _, _ => false

/-- The part that a tag describes, with a record for its type. -/
def ParamTag.part (tag : ParamTag) (type : Option TypeHandle) : Parameter where
  name := .str ((Text.segments tag.name).getLast?.getD "")
  type
  summary := Build.nonEmpty tag.text
  optional := tag.optional

/-- **The record of the part that a tag describes**; its type has the record that is cached for it. -/
def Store.IsPartOf (s : Store) (tag : ParamTag) (sub : Parameter) : Prop :=
  ∃ type, Option.Rel (fun t => s.IsType (some (.known t))) tag.type type ∧ sub = tag.part type

/-- **A parameter with more parts**, after those that it has. -/
def Parameter.withParts (p : Parameter) (parts : List Parameter) : Parameter :=
  if parts.isEmpty then p else { p with subParameters := some (p.subParameters.getD [] ++ parts) }

/-- **Parameters that dotted tags tell apart**: their names are texts without dots, all different. -/
structure Parameter.Apart (ps : List Parameter) : Prop where
  plain : ∀ p ∈ ps, ∃ name, p.name = .str name ∧ '.' ∉ name.toList
  distinct : (ps.map (·.name)).Nodup

/-- The parameter with the part, if it is the one described. -/
def ParamTag.attach (tag : ParamTag) (sub p : Parameter) : Parameter :=
  if tag.describes p then p.addSub sub else p

/-- Parts are added one by one. -/
theorem Parameter.withParts_cons (p sub : Parameter) (parts : List Parameter) :
    p.withParts (sub :: parts) = (p.addSub sub).withParts parts := by
  cases parts with
  | nil => rfl
  | cons next parts =>
    unfold withParts addSub
    rw [if_neg (by simp), if_neg (by simp)]
    simp

namespace ParamTag

variable {tag : ParamTag} {p q sub : Parameter} {ps : List Parameter}

theorem describes_iff : tag.describes p = true ↔
    ∃ name rest, p.name = .str name ∧ rest ≠ [] ∧ Text.segments tag.name = name :: rest := by
  unfold describes
  constructor
  · intro h
    split at h
    · rename_i name first second rest hname hsegments
      cases eq_of_beq h
      exact ⟨name, second :: rest, hname, List.cons_ne_nil _ _, hsegments⟩
    · exact nomatch h
  · rintro ⟨name, rest, hname, hrest, hsegments⟩
    obtain ⟨second, rest, rfl⟩ := List.exists_cons_of_ne_nil hrest
    rw [hname, hsegments]
    exact beq_self_eq_true name

/-- A tag without a dot describes no part. -/
theorem describes_of_not_mem (h : '.' ∉ tag.name.toList) : tag.describes p = false := by
  rw [Bool.eq_false_iff]
  intro hp
  obtain ⟨name, rest, -, hrest, hsegments⟩ := describes_iff.1 hp
  rw [Text.segments_of_not_mem h] at hsegments
  exact hrest (List.cons.inj hsegments).2.symm

/-- It describes parts of parameters of one name only. -/
theorem name_eq_of_describes (hp : tag.describes p = true) (hq : tag.describes q = true) :
    p.name = q.name := by
  obtain ⟨name, rest, hname, -, hsegments⟩ := describes_iff.1 hp
  obtain ⟨name', rest', hname', -, hsegments'⟩ := describes_iff.1 hq
  rw [hname, hname', (List.cons.inj (hsegments.symm.trans hsegments')).1]

theorem name_attach : (tag.attach sub p).name = p.name := by
  unfold attach
  split <;> rfl

/-- Another tag describes it as before. -/
theorem describes_attach (other : ParamTag) : other.describes (tag.attach sub p) = other.describes p := by
  unfold describes
  rw [name_attach]

/-- **The parameter that is found is the one described.** -/
theorem owner?_eq (hps : ∀ p ∈ ps, ∃ name, p.name = .str name ∧ '.' ∉ name.toList) :
    Build.owner? tag.name ps = .ok (ps.findIdx? tag.describes) := by
  induction ps with
  | nil => rfl
  | cons p ps ih =>
    obtain ⟨name, hname, hplain⟩ := hps p List.mem_cons_self
    have hfound : Text.startsWith tag.name (name ++ ".") = tag.describes p := by
      rw [Bool.eq_iff_iff, Text.startsWith_dot_iff hplain, describes_iff]
      constructor
      · rintro ⟨rest, hrest, hsegments⟩
        exact ⟨name, rest, hname, hrest, hsegments⟩
      · rintro ⟨name', rest, hname', hrest, hsegments⟩
        cases hname.symm.trans hname'
        exact ⟨rest, hrest, hsegments⟩
    unfold Build.owner?
    rw [hname]
    dsimp only
    rw [hfound, List.findIdx?_cons, ih fun q hq => hps q (List.mem_cons_of_mem p hq)]
    split <;> rfl

/-- **The part is attached to no other parameter.** -/
theorem addPart_eq (hps : (ps.map (·.name)).Nodup) {i : Nat} (hi : ps.findIdx? tag.describes = some i) :
    Build.addPart i sub ps = ps.map (tag.attach sub) := by
  induction ps generalizing i with
  | nil => cases hi
  | cons p ps ih =>
    obtain ⟨hp, hps⟩ := List.nodup_cons.1 hps
    rw [List.findIdx?_cons] at hi
    unfold Build.addPart
    by_cases hhere : tag.describes p = true
    · rw [if_pos hhere] at hi
      cases hi
      have hothers : ps.map (tag.attach sub) = ps := by
        refine (List.map_congr_left fun q hq => ?_).trans (List.map_id ps)
        refine if_neg fun hq' => hp ?_
        exact List.mem_map.2 ⟨q, hq, (name_eq_of_describes hhere hq').symm⟩
      rw [List.modify_zero_cons, List.map_cons, hothers, attach, if_pos hhere]
    · rw [if_neg hhere] at hi
      obtain ⟨j, hj, rfl⟩ := Option.map_eq_some_iff.1 hi
      rw [List.modify_succ_cons, List.map_cons, attach, if_neg hhere]
      exact congrArg _ (ih hps hj)

end ParamTag

/-- Parameters are told apart as before. -/
theorem Parameter.Apart.attach {ps : List Parameter} (hps : Parameter.Apart ps) (tag : ParamTag)
    (sub : Parameter) : Parameter.Apart (ps.map (tag.attach sub)) where
  plain := by
    intro q hq
    obtain ⟨p, hp, rfl⟩ := List.mem_map.1 hq
    rw [ParamTag.name_attach]
    exact hps.plain p hp
  distinct := by
    have hnames : (ps.map (tag.attach sub)).map (·.name) = ps.map (·.name) := by
      rw [List.map_map]
      exact List.map_congr_left fun p _ => ParamTag.name_attach
    rw [hnames]
    exact hps.distinct

/-! ## 3. One tag -/

/-- **A function record with its parameters**, which dotted tags tell apart. -/
structure Store.HasParameters (s : Store) (h : MemberHandle) (ps : List Parameter) : Prop where
  sound : s.Sound
  inside : s.HasMember h
  parameters : (s.member h).parameters = some ps
  apart : Parameter.Apart ps

/-- Other parameters for a member. -/
def Store.setParameters (s : Store) (h : MemberHandle) (ps : List Parameter) : Store :=
  s.setMember h { s.member h with parameters := some ps }

/-- **Only the parameters of a member are written**; other members that were there are left alone. -/
structure Store.Reparametrized (s : Store) (h : MemberHandle) (ps : List Parameter) (s' : Store) : Prop where
  grows : s.Grows s'
  own : s'.member h = { s.member h with parameters := some ps }
  others : ∀ x, s.HasMember x → x ≠ h → s'.member x = s.member x

theorem Store.Reparametrized.trans {s s' s'' : Store} {h : MemberHandle} {ps qs : List Parameter}
    (hr : s.Reparametrized h ps s') (hr' : s'.Reparametrized h qs s'') : s.Reparametrized h qs s'' where
  grows := hr.grows.trans hr'.grows
  own := by rw [hr'.own, hr.own]
  others := fun x hx hne =>
    (hr'.others x (hx.mono hr.grows.extends) hne).trans (hr.others x hx hne)

namespace Build

variable {cx : Context} {r : Requests} {n : Nat} {s : Store} {h : MemberHandle} {ps : List Parameter}

/-- **What one tag does**, whatever comes after it: nothing where it describes no part of a parameter;
    else its part is attached, unless the request for its type fails. -/
inductive Takes (r : Requests) (h : MemberHandle) (ps : List Parameter) (tag : ParamTag) (s : Store) : Prop where
  | skips : ps.any tag.describes = false →
      (∀ tags, (subParameters r h (tag :: tags)).run s = (subParameters r h tags).run s) →
      Takes r h ps tag s
  | attaches (sub : Parameter) (s' : Store) : ps.any tag.describes = true → s'.IsPartOf tag sub →
      s'.HasParameters h (ps.map (tag.attach sub)) → s.Reparametrized h (ps.map (tag.attach sub)) s' →
      (∀ tags, (subParameters r h (tag :: tags)).run s = (subParameters r h tags).run s') →
      Takes r h ps tag s
  | fails (t : TypeId) (f : Fault) (s' : Store) : ps.any tag.describes = true → tag.type = some t →
      (r.type (some (.known t))).run s = (.error f, s') → s'.member h = s.member h →
      (∀ tags, (subParameters r h (tag :: tags)).run s = (.error f, s')) →
      Takes r h ps tag s

/-- The rest of the work for a tag that describes a part of a parameter. -/
theorem run_subParameters_cons (hp : s.HasParameters h ps) (tag : ParamTag) (tags : List ParamTag) :
    (subParameters r h (tag :: tags)).run s =
      (match ps.findIdx? tag.describes with
        | none => subParameters r h tags
        | some i => do
          let type ← optionalType r tag.type
          modifyMember h (fun c => { c with parameters := c.parameters.map (addPart i (tag.part type)) })
          subParameters r h tags).run s := by
  -- a part is named by what follows the last dot
  have hpart : ∀ type : Option TypeHandle, ({
      name := .str (Text.afterLastDot tag.name)
      type
      summary := nonEmpty tag.text
      optional := tag.optional } : Parameter) = tag.part type := by
    intro type
    unfold ParamTag.part
    rw [Text.getLast?_segments]
    rfl
  have hps : (s.member h).parameters.getD [] = ps := by rw [hp.parameters]; rfl
  rw [subParameters]
  by_cases hdot : tag.name.toList.contains '.' = true
  · rw [if_pos hdot]
    have hread : (member h).run s = (.ok (s.member h), s) := rfl
    rw [run_bind_ok hread, hps, ParamTag.owner?_eq hp.apart.plain]
    simp only [hpart]
    cases ps.findIdx? tag.describes with
    | none => rfl
    | some i => rfl
  · rw [if_neg hdot]
    -- a name without a dot describes no part
    have hnone : ps.findIdx? tag.describes = none := by
      rw [List.findIdx?_eq_none_iff]
      intro p _
      exact ParamTag.describes_of_not_mem fun hmem => hdot (List.contains_iff_mem.2 hmem)
    rw [hnone]

/-- **A part is attached** when its type was asked for, which leaves the member as it is. -/
theorem hasParameters_attach (hp : s.HasParameters h ps) {s₁ : Store} (hframed : s.Framed s₁)
    (hs₁ : s₁.Sound) {tag : ParamTag} {i : Nat} (hi : ps.findIdx? tag.describes = some i) {sub : Parameter}
    (hsub : sub.Refers s₁.toModel) :
    (s₁.setParameters h (ps.map (tag.attach sub))).HasParameters h (ps.map (tag.attach sub)) ∧
      s.Reparametrized h (ps.map (tag.attach sub)) (s₁.setParameters h (ps.map (tag.attach sub))) := by
  have hin : s₁.HasMember h := hp.inside.mono hframed.grows.extends
  have hsame : s₁.member h = s.member h := hframed.member h hp.inside
  have hrefers : ({ s₁.member h with parameters := some (ps.map (tag.attach sub)) } : Member).Refers
      s₁.toModel := by
    refine { hs₁.member h with parameters := fun qs hqs => ?_ }
    cases hqs
    rw [← ParamTag.addPart_eq hp.apart.distinct hi]
    exact refers_addPart ((hs₁.member h).parameters ps (hsame ▸ hp.parameters)) hsub
  have hwritten : (s₁.setParameters h (ps.map (tag.attach sub))).member h =
      { s₁.member h with parameters := some (ps.map (tag.attach sub)) } := Store.member_setMember_self hin
  have hgrows : s₁.Grows (s₁.setParameters h (ps.map (tag.attach sub))) := Store.grows_setMember ..
  refine ⟨⟨hs₁.setMember hrefers, hin.mono hgrows.extends, ?_, hp.apart.attach tag sub⟩,
    hframed.grows.trans hgrows, ?_, fun x hx hne => ?_⟩
  · rw [hwritten]
  · rw [hwritten, hsame]
  · exact (Store.member_setMember_ne hne).trans (hframed.member x hx)

/-- A request leaves the records that are there alone, also where it fails. -/
theorem member_of_fails (hs : s.Sound) (hh : s.HasMember h) (hr : r.Lawful cx n) {t : TypeId}
    (ht : TypeIn cx.facts.typeIds (some t)) {f : Fault} {s' : Store}
    (hrun : (r.type (some (.known t))).run s = (.error f, s')) : s'.member h = s.member h := by
  have houtcome := hr.type (Scope.outer s) s _ (Facts.typeKey_known (ht t rfl)) hs (Scope.fits_outer s)
  rw [hrun] at houtcome
  refine (Trace.kept houtcome hs.calm).1.member h hh fun howns => ?_
  rcases howns.2.2 with he | ⟨hle, -⟩
  · exact nomatch he
  · exact absurd hh (Nat.not_lt.2 hle)

theorem run_modifyMember (h : MemberHandle) (g : Member → Member) (s : Store) :
    (modifyMember h g).run s = (.ok ⟨⟩, s.setMember h (g (s.member h))) := by
  show (Except.ok _, ({ s with members := s.members.modify h.index g } : Store)) = _
  rw [Registry.modify_const]
  rfl

/-- The record of a type fails where the request for it does. -/
theorem optionalType_error {t : Option TypeId} {f : Fault} {s' : Store}
    (hrun : (optionalType r t).run s = (.error f, s')) :
    ∃ u, t = some u ∧ (r.type (some (.known u))).run s = (.error f, s') := by
  cases t with
  | none => cases hrun
  | some u =>
    refine ⟨u, rfl, ?_⟩
    unfold optionalType at hrun
    dsimp only at hrun
    rcases hasked : (r.type (some (.known u))).run s with ⟨result, s₁⟩
    cases result with
    | ok x =>
      rw [run_bind_ok hasked] at hrun
      cases hrun
    | error g =>
      rw [run_bind_error hasked] at hrun
      cases hrun
      rfl

/-- **One tag is taken in one of three ways.** -/
theorem takes_tag (hr : r.Lawful cx n) (hp : s.HasParameters h ps) {tag : ParamTag}
    (htag : TypeIn cx.facts.typeIds tag.type) : Takes r h ps tag s := by
  have hany : (ps.findIdx? tag.describes).isSome = ps.any tag.describes := List.findIdx?_isSome
  cases hi : ps.findIdx? tag.describes with
  | none =>
    rw [hi] at hany
    refine .skips hany.symm fun tags => ?_
    rw [run_subParameters_cons hp, hi]
  | some i =>
    rw [hi] at hany
    have hasks := asks_optionalType (n := n) (c := Scope.outer s) (s := s) hr htag hp.sound
      (Scope.fits_outer s)
    rcases hrun : (optionalType r tag.type).run s with ⟨result, s₁⟩
    rw [hrun] at hasks
    cases result with
    | ok type =>
      obtain ⟨htrace, hframed, htype⟩ := hasks
      have hsub : (tag.part type).Refers s₁.toModel :=
        .intro (Store.typeIn_of_rel htype) fun qs hqs => nomatch hqs
      obtain ⟨hp', hwritten⟩ := hasParameters_attach hp hframed (htrace.sound hp.sound) hi hsub
      have hpart : (s₁.setParameters h (ps.map (tag.attach (tag.part type)))).IsPartOf tag (tag.part type) :=
        ⟨type, htype, rfl⟩
      refine .attaches _ _ hany.symm hpart hp' hwritten fun tags => ?_
      -- the parameters are still those that were searched
      have hsame : (s₁.member h).parameters = some ps := by
        rw [hframed.member h hp.inside, hp.parameters]
      rw [run_subParameters_cons hp, hi]
      dsimp only
      rw [run_bind_ok hrun, run_bind_ok (run_modifyMember ..), hsame, Option.map_some,
        ParamTag.addPart_eq hp.apart.distinct hi]
      rfl
    | error f =>
      obtain ⟨t, ht, hfails⟩ := optionalType_error hrun
      refine .fails t f s₁ hany.symm ht hfails ?_ fun tags => ?_
      · exact member_of_fails hp.sound hp.inside hr (ht ▸ htag) hfails
      · rw [run_subParameters_cons hp, hi]
        dsimp only
        rw [run_bind_error hrun]

end Build

/-! ## 4. The tags of a declaration -/

/-- **Each parameter has the parts that its tags describe**, in the order of the tags, after those that it
    had.  Nothing else of it is changed, and nothing of other members. -/
def Store.Attached (s : Store) (h : MemberHandle) (ps : List Parameter) (tags : List ParamTag)
    (s' : Store) : Prop :=
  ∃ ps', s.Reparametrized h ps' s' ∧ List.Forall₂ (fun p p' => ∃ parts,
    List.Forall₂ s'.IsPartOf (tags.filter fun tag => tag.describes p) parts ∧ p' = p.withParts parts) ps ps'

namespace Store

variable {s s' s₁ : Store} {h : MemberHandle} {ps : List Parameter} {tag : ParamTag} {tags : List ParamTag}
variable {sub : Parameter}

theorem IsPartOf.mono (hp : s.IsPartOf tag sub) (hg : s.Grows s') : s'.IsPartOf tag sub := by
  obtain ⟨type, htype, rfl⟩ := hp
  exact ⟨type, rel_imp (fun t x hx => hg.types.find? _ _ hx) htype, rfl⟩

namespace Attached

theorem nil (hp : s.HasParameters h ps) : s.Attached h ps [] s := by
  refine ⟨ps, ⟨.refl s, ?_, fun _ _ _ => rfl⟩, List.forall₂_same.2 fun p _ => ⟨[], .nil, rfl⟩⟩
  rw [← hp.parameters]

/-- One more tag that describes no part. -/
theorem skip (hnone : ps.any tag.describes = false) (ha : s.Attached h ps tags s') :
    s.Attached h ps (tag :: tags) s' := by
  obtain ⟨ps', hr, hall⟩ := ha
  refine ⟨ps', hr, ?_⟩
  rw [List.forall₂_iff_get] at hall ⊢
  refine ⟨hall.1, fun i hi hi' => ?_⟩
  rw [List.filter_cons_of_neg]
  · exact hall.2 i hi hi'
  · exact List.any_eq_false.1 hnone _ (List.get_mem ps ⟨i, hi⟩)

/-- One more tag, whose part is attached first. -/
theorem cons (hr : s.Reparametrized h (ps.map (tag.attach sub)) s₁) (hpart : s₁.IsPartOf tag sub)
    (ha : s₁.Attached h (ps.map (tag.attach sub)) tags s') : s.Attached h ps (tag :: tags) s' := by
  obtain ⟨ps', hr', hall⟩ := ha
  refine ⟨ps', hr.trans hr', (List.forall₂_map_left_iff.1 hall).imp fun p p' ⟨parts, hparts, hp'⟩ => ?_⟩
  rw [show (fun other : ParamTag => other.describes (tag.attach sub p)) = fun other => other.describes p
    from funext fun other => ParamTag.describes_attach other] at hparts
  by_cases hp : tag.describes p = true
  · refine ⟨sub :: parts, ?_, ?_⟩
    · rw [List.filter_cons_of_pos (p := fun other : ParamTag => other.describes p) hp]
      exact .cons (hpart.mono hr'.grows) hparts
    · rw [hp', ParamTag.attach, if_pos hp, Parameter.withParts_cons]
  · refine ⟨parts, ?_, ?_⟩
    · rw [List.filter_cons_of_neg (p := fun other : ParamTag => other.describes p) hp]
      exact hparts
    · rw [hp', ParamTag.attach, if_neg hp]

end Attached

end Store

namespace Build

variable {cx : Context} {r : Requests} {n : Nat} {s : Store} {h : MemberHandle} {ps : List Parameter}

/-- **Tags that describe no part of a parameter have no effect.** -/
theorem run_described (hr : r.Lawful cx n) (hp : s.HasParameters h ps) {tags : List ParamTag}
    (htags : ∀ tag ∈ tags, TypeIn cx.facts.typeIds tag.type) :
    (subParameters r h tags).run s =
      (subParameters r h (tags.filter fun tag => ps.any tag.describes)).run s := by
  induction tags generalizing s ps with
  | nil => rfl
  | cons tag tags ih =>
    have hrest := fun other hother => htags other (List.mem_cons_of_mem tag hother)
    rw [List.filter_cons]
    cases takes_tag hr hp (htags tag List.mem_cons_self) with
    | skips hnone hrun =>
      rw [hrun, if_neg (Bool.eq_false_iff.1 hnone)]
      exact ih hp hrest
    | attaches sub s₁ hany _ hp₁ _ hrun =>
      -- the same tags describe parts afterwards
      have hsame : (fun other : ParamTag => (ps.map (tag.attach sub)).any other.describes) =
          fun other => ps.any other.describes := by
        funext other
        rw [List.any_map]
        exact congrArg ps.any (funext fun p => ParamTag.describes_attach other)
      rw [hrun, if_pos hany, hrun, ih hp₁ hrest, hsame]
    | fails t f s₁ hany _ _ _ hrun => rw [hrun, if_pos hany, hrun]

/-- **What a list of tags does**: all parts are attached, or those of the tags before the first one whose
    type cannot be had. -/
theorem attached_subParameters (hr : r.Lawful cx n) (hp : s.HasParameters h ps) {tags : List ParamTag}
    (htags : ∀ tag ∈ tags, TypeIn cx.facts.typeIds tag.type) :
    (∀ s', (subParameters r h tags).run s = (.ok ⟨⟩, s') → s.Attached h ps tags s') ∧
    ∀ f s', (subParameters r h tags).run s = (.error f, s') → ∃ before tag after t s₁,
      tags = before ++ tag :: after ∧ tag.type = some t ∧ s.Attached h ps before s₁ ∧
      (r.type (some (.known t))).run s₁ = (.error f, s') ∧ s'.member h = s₁.member h := by
  induction tags generalizing s ps with
  | nil =>
    refine ⟨fun s' hrun => ?_, fun f s' hrun => ?_⟩
    · cases hrun
      exact .nil hp
    · cases hrun
  | cons tag tags ih =>
    have hrest := fun other hother => htags other (List.mem_cons_of_mem tag hother)
    cases takes_tag hr hp (htags tag List.mem_cons_self) with
    | skips hnone hrun =>
      rw [hrun]
      obtain ⟨hok, hfails⟩ := ih hp hrest
      refine ⟨fun s' hs' => (hok s' hs').skip hnone, fun f s' hs' => ?_⟩
      -- this tag is among those before the one that fails
      obtain ⟨before, last, after, t, s₁, rfl, ht, hbefore, hrequest⟩ := hfails f s' hs'
      exact ⟨tag :: before, last, after, t, s₁, rfl, ht, hbefore.skip hnone, hrequest⟩
    | attaches sub s₁ _ hpart hp₁ hwritten hrun =>
      rw [hrun]
      obtain ⟨hok, hfails⟩ := ih hp₁ hrest
      refine ⟨fun s' hs' => .cons hwritten hpart (hok s' hs'), fun f s' hs' => ?_⟩
      obtain ⟨before, last, after, t, s₂, rfl, ht, hbefore, hrequest⟩ := hfails f s' hs'
      exact ⟨tag :: before, last, after, t, s₂, rfl, ht, .cons hwritten hpart hbefore, hrequest⟩
    | fails t f s₁ _ ht hrequest hsame hrun =>
      rw [hrun]
      refine ⟨fun s' hs' => ?_, fun g s' hs' => ?_⟩
      · cases hs'
      · cases hs'
        exact ⟨[], tag, tags, t, s, rfl, ht, .nil hp, hrequest, hsame⟩

/-- **Dotted parameter tags reach the right parameter.**  Take any declaration, and a function record whose
    parameters have texts without dots as names, all different.

    Only the tags matter that describe a part of a parameter: a tag whose name has no dot, or whose text
    before the first dot names no parameter, has no effect at all.  In the end each parameter has one part
    more for each tag that describes one of it, in the order of the tags and after those that it had; the
    part is named by the text after the last dot and has the text, the type and the mark of the tag.  No
    other field of a parameter changes, and no other member.

    This fails only where the request for the type of such a tag does; the parts of the tags before it are
    attached then. -/
theorem parts_attached (hf : cx.facts.Closed) (n : Nat) (d : DeclarationId) (hp : s.HasParameters h ps) :
    let r := requestsWithin cx n
    let tags := (cx.facts.declaration d).paramTags
    let described := tags.filter fun tag => ps.any tag.describes
    (subParameters r h tags).run s = (subParameters r h described).run s ∧
    (∀ s', (subParameters r h tags).run s = (.ok ⟨⟩, s') → s.Attached h ps tags s') ∧
    ∀ f s', (subParameters r h tags).run s = (.error f, s') → ∃ before tag after t s₁,
      described = before ++ tag :: after ∧ tag.type = some t ∧ s.Attached h ps before s₁ ∧
      (r.type (some (.known t))).run s₁ = (.error f, s') ∧ s'.member h = s₁.member h := by
  intro r tags described
  have hr : r.Lawful cx n := lawful_requestsWithin hf n
  have htags : ∀ tag ∈ tags, TypeIn cx.facts.typeIds tag.type := (hf.declaration d).paramTags
  have hsame : (subParameters r h tags).run s = (subParameters r h described).run s :=
    run_described hr hp htags
  refine ⟨hsame, (attached_subParameters hr hp htags).1, fun f s' hrun => ?_⟩
  have hdescribed : ∀ tag ∈ described, TypeIn cx.facts.typeIds tag.type :=
    fun tag hmem => htags tag (List.mem_filter.1 hmem).1
  exact (attached_subParameters hr hp hdescribed).2 f s' (hsame ▸ hrun)

/-- A function whose parameters are tagged, one by a name with three segments. -/
def taggedParametersDocument : Value := .map [
  ("declarations", .map [("d", .map [("paramTags", .list [
    .map [("name", .str "ab.x.y"), ("text", .str "text"), ("type", .str "T")],
    .map [("name", .str "a")],
    .map [("name", .str "b.z")],
    .map [("name", .str "a.v"), ("optional", .bool true)],
    .map [("name", .str ".u")],
    .map [("name", .str "ab.t")]])])]),
  ("types", .map [("T", .map [("flags", .str "NUMBER")])])]

/-- Parameters of which one name begins with another, and one is empty. -/
def taggedParameters : List Parameter :=
  [{ name := .str "a" }, { name := .str "ab", subParameters := some [{ name := .str "w" }] },
    { name := .str "" }]

/-- A store with these parameters in its only member. -/
def taggedStore : Store :=
  (({} : Store).addMember none).setMember ⟨0⟩ { parameters := some taggedParameters }

theorem hasParameters_taggedStore : taggedStore.HasParameters ⟨0⟩ taggedParameters where
  sound := by
    have hempty : (({} : Store).addMember none).Sound :=
      Store.Sound.empty.addMember (Store.Sound.empty.memberKeys.push_none {})
    have hplain : ∀ name, Parameter.Refers (({} : Store).addMember none).toModel { name } :=
      fun name => .intro .none fun _ => nofun
    refine hempty.setMember { Member.refers_empty with parameters := fun ps hps => ?_ }
    cases hps
    refine List.forall_mem_cons.2 ⟨hplain _, List.forall_mem_cons.2 ⟨?_, List.forall_mem_singleton.2 (hplain _)⟩⟩
    refine .intro .none fun subs hsubs => ?_
    cases hsubs
    exact List.forall_mem_singleton.2 (hplain _)
  inside := Nat.one_pos
  parameters := rfl
  apart := {
    plain := by
      refine List.forall_mem_cons.2 ⟨⟨"a", rfl, by decide⟩, List.forall_mem_cons.2 ⟨⟨"ab", rfl, by decide⟩, ?_⟩⟩
      exact List.forall_mem_singleton.2 ⟨"", rfl, by decide⟩
    distinct := by simp [taggedParameters] }

/-- The names of the parts of a member's parameters. -/
def partNames (m : Member) : List (List String) :=
  (m.parameters.getD []).map fun p => (p.subParameters.getD []).map fun q => q.name.text

/-- The tag with three segments reaches the parameter that its first one names, and those that name no
    parameter or no part reach none. -/
theorem parts_attached_prefixed : ∃ (cx : Context) (s' : Store),
    let r := requestsWithin cx 2
    let tags := (cx.facts.declaration ⟨"d"⟩).paramTags
    cx.facts.Closed ∧ taggedStore.HasParameters ⟨0⟩ taggedParameters ∧
    (subParameters r ⟨0⟩ tags).run taggedStore = (.ok ⟨⟩, s') ∧
    taggedStore.Attached ⟨0⟩ taggedParameters tags s' ∧
    tags.map (·.name) = ["ab.x.y", "a", "b.z", "a.v", ".u", "ab.t"] ∧
    partNames (s'.member ⟨0⟩) = [["v"], ["w", "y", "t"], ["u"]] := by
  have hcheck : (Facts.link taggedParametersDocument).toOption.any (fun f =>
      let cx : Context := { Context.blank with facts := f }
      let tags := (cx.facts.declaration ⟨"d"⟩).paramTags
      let outcome := (subParameters (requestsWithin cx 2) ⟨0⟩ tags).run taggedStore
      decide (outcome.1.toOption.isSome = true ∧
        tags.map (·.name) = ["ab.x.y", "a", "b.z", "a.v", ".u", "ab.t"] ∧
        partNames (outcome.2.member ⟨0⟩) = [["v"], ["w", "y", "t"], ["u"]])) = true := by
    decide +kernel
  obtain ⟨f, hlink, hfound⟩ := exists_ok_of_any hcheck
  obtain ⟨hok, hnames, hparts⟩ := of_decide_eq_true hfound
  let cx : Context := { Context.blank with facts := f }
  have hf : cx.facts.Closed := closed_of_link hlink
  obtain ⟨-, hends, -⟩ := parts_attached hf 2 ⟨"d"⟩ hasParameters_taggedStore
  rcases hrun : (subParameters (requestsWithin cx 2) ⟨0⟩ (cx.facts.declaration ⟨"d"⟩).paramTags).run
    taggedStore with ⟨result, s'⟩
  rw [hrun] at hok hparts
  cases result with
  | error e => cases hok
  | ok a => exact ⟨cx, s', hf, hasParameters_taggedStore, hrun, hends s' hrun, hnames, hparts⟩

end Build

end ApiReference
