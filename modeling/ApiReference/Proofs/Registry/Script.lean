/-
  One record for each key, in any nesting.

  A request for a key runs a script of its own while the record is filling, and that script may ask
  for the same key, for keys that are filling further out, or for new ones, and may then fail.  A
  filling that stops in the middle is the shorter script, failing at its end; a failure that stops
  the fillings around it is a script in which these end there and fail too.

  So what is said of a registry is said at every moment of a run, at every depth: before each
  operation, when it has registered its record, and after it.

  1. `Moment`          -- an operation with the registry that it meets;
  2. `moments`         -- the moments of a run, in the order in which the operations start;
  3. `begun`           -- what one operation registers and answers;
  4. `Course`          -- what a run keeps from each moment to all later ones, composed along the script;
  5. `OneRecordEach`   -- one record for each key, in every run.
-/
import ApiReference.Registry.Script
import ApiReference.Proofs.Registry
import Mathlib.Data.List.Range
import Mathlib.Data.List.Nodup

namespace ApiReference.Registry

/-! ## 1. Moments -/

/-- **A moment of a run**: an operation that starts, and the registry that it meets. -/
structure Moment where
  registry : Scripted
  op : Op

namespace Moment

/-- What the operation answers. -/
def answer (m : Moment) : Answer := (m.op.run m.registry).1

/-- The registry after the operation. -/
def next (m : Moment) : Scripted := (m.op.run m.registry).2

/-- The key whose filling the operation starts, if it starts one. -/
def fills : Moment → Option String
  | ⟨r, .getOrCreate key _ _⟩ => if r.contains key then none else some key
  | _ => none

/-- Does the operation register a record? -/
def registers (m : Moment) : Bool :=
  match m.op with
  | .register => true
  | _ => m.fills.isSome

/-- **The registry when the operation has begun**: its record is registered, and nothing of its filling
has run. -/
def begun (m : Moment) : Scripted :=
  match m.op with
  | .register => m.registry.push none .empty
  | _ =>
    match m.fills with
    | some key => m.registry.push (some key) .filling
    | none => m.registry

end Moment

/-- Does the operation only look at records? -/
def Op.looks : Op → Bool
  | .getOrCreate _ _ _ | .register => false
  | .get _ | .record _ | .contains _ | .all => true

/-! ## 2. The moments of a run -/

mutual

/-- The moments of an operation: it starts, and then what its filling runs, if it runs one. -/
def Op.moments (r : Scripted) : Op → List Moment
  | .getOrCreate key fill fails =>
    ⟨r, .getOrCreate key fill fails⟩ ::
      match r.find? key with
      | some _ => []
      | none => moments (r.push (some key) .filling) fill
  | .register => [⟨r, .register⟩]
  | .get key => [⟨r, .get key⟩]
  | .record handle => [⟨r, .record handle⟩]
  | .contains key => [⟨r, .contains key⟩]
  | .all => [⟨r, .all⟩]

/-- **The moments of a script**, those of nested scripts in their places. -/
def moments (r : Scripted) : List Op → List Moment
  | [] => []
  | op :: ops => op.moments r ++ moments (op.run r).2 ops

end

mutual

/-- An answer, and the answers given while it was worked out. -/
def Answer.all : Answer → List Answer
  | .created record inner => .created record inner :: answers inner
  | .fillFailed inner => .fillFailed inner :: answers inner
  | .registered handle => [.registered handle]
  | .got record => [.got record]
  | .looked record => [.looked record]
  | .contained b => [.contained b]
  | .listed records => [.listed records]

/-- **All answers given**, in the order in which the operations start. -/
def answers : List Answer → List Answer
  | [] => []
  | a :: as => a.all ++ answers as

end

mutual

theorem Op.answer_moments (r : Scripted) :
    (op : Op) → (op.moments r).map Moment.answer = (op.run r).1.all
  | .getOrCreate key fill fails => by
    have ih := answer_moments_all (r.push (some key) .filling) fill
    rw [Op.moments, List.map_cons, Moment.answer]
    cases hkey : r.find? key with
    | some h => simp [Op.run, hkey, Answer.all, answers]
    | none => cases fails <;> simp [Op.run, hkey, Answer.all, ih]
  | .register => rfl
  | .get _ => rfl
  | .record _ => rfl
  | .contains _ => rfl
  | .all => rfl

/-- **The moments are those of the run**: what their operations answer is what the run answers. -/
theorem answer_moments_all (r : Scripted) :
    (ops : List Op) → (moments r ops).map Moment.answer = answers (runAll r ops).1
  | [] => rfl
  | op :: ops => by
    have hfirst := Op.answer_moments r op
    have hrest := answer_moments_all (op.run r).2 ops
    rw [moments, List.map_append, hfirst, hrest]
    rfl

end

/-! ## 3. One operation -/

namespace Moment

section Request

variable {r : Scripted} {key : String} {fill : List Op} {fails : Bool} {h : Nat}

/-- A request for a key that has a record runs nothing and changes nothing. -/
theorem run_found (hkey : r.find? key = some h) :
    (Op.getOrCreate key fill fails).run r = (.created (see r h) [], r) := by
  rw [Op.run, hkey]

theorem begun_found (hkey : r.find? key = some h) : begun ⟨r, .getOrCreate key fill fails⟩ = r := by
  simp [begun, fills, contains, hkey]

theorem moments_found (hkey : r.find? key = some h) :
    Op.moments r (.getOrCreate key fill fails) = [⟨r, .getOrCreate key fill fails⟩] := by
  simp [Op.moments, hkey]

/-- A request for a new key registers its record before anything runs. -/
theorem begun_new (hkey : r.find? key = none) :
    begun ⟨r, .getOrCreate key fill fails⟩ = r.push (some key) .filling := by
  simp [begun, fills, contains, hkey]

theorem moments_new (hkey : r.find? key = none) :
    Op.moments r (.getOrCreate key fill fails) = ⟨r, .getOrCreate key fill fails⟩ ::
      moments (begun ⟨r, .getOrCreate key fill fails⟩) fill := by
  simp [Op.moments, hkey, begun_new hkey]

theorem next_failed (hkey : r.find? key = none) (fill : List Op) : next ⟨r, .getOrCreate key fill true⟩ =
    (runAll (begun ⟨r, .getOrCreate key fill true⟩) fill).2 := by
  simp [next, Op.run, hkey, begun_new hkey]

theorem next_filled (hkey : r.find? key = none) (fill : List Op) : next ⟨r, .getOrCreate key fill false⟩ =
    (runAll (begun ⟨r, .getOrCreate key fill false⟩) fill).2.modify r.size (fun _ => .done) := by
  simp [next, Op.run, hkey, begun_new hkey]

/-- A request for a new key answers the record registered, unless its filling fails. -/
theorem answer_new (hkey : r.find? key = none) :
    (∃ p inner, answer ⟨r, .getOrCreate key fill fails⟩ = .created (r.size, p) inner) ∨
      fails = true ∧ ∃ inner, answer ⟨r, .getOrCreate key fill fails⟩ = .fillFailed inner := by
  cases fails with
  | true =>
    rw [answer, Op.run, hkey]
    exact .inr ⟨rfl, _, rfl⟩
  | false =>
    rw [answer, Op.run, hkey]
    exact .inl ⟨_, _, rfl⟩

/-- Under which handle a request finds or registers its record. -/
theorem find?_begun (r : Scripted) (key : String) (fill : List Op) (fails : Bool) :
    (begun ⟨r, .getOrCreate key fill fails⟩).find? key = some ((r.find? key).getD r.size) := by
  cases hkey : r.find? key with
  | some h => rwa [begun_found hkey]
  | none =>
    rw [begun_new hkey]
    exact find?_push_self hkey _

end Request

/-- The operation that starts the filling of a key. -/
theorem fills_eq {m : Moment} {key : String} (h : m.fills = some key) :
    m.registry.find? key = none ∧ m.begun.find? key = some m.registry.size := by
  obtain ⟨r, op⟩ := m
  cases op with
  | getOrCreate key' fill fails =>
    cases hkey : r.find? key' with
    | some _ => simp [fills, contains, hkey] at h
    | none =>
      obtain rfl : key' = key := by simpa [fills, contains, hkey] using h
      have hbegun := find?_begun r key' fill fails
      rw [hkey] at hbegun
      exact ⟨hkey, hbegun⟩
  | _ => cases h

/-- An operation registers one record, or none. -/
theorem size_begun (m : Moment) :
    m.begun.size = m.registry.size + if m.registers then 1 else 0 := by
  obtain ⟨r, op⟩ := m
  unfold begun registers
  cases op with
  | register => exact size_push _ _ _
  | _ => cases h : fills _ <;> simp

/-- What an operation registers leaves the records before it where they are. -/
theorem grows_begun (m : Moment) : m.registry.Grows m.begun := by
  obtain ⟨r, op⟩ := m
  unfold begun
  cases op with
  | register => exact grows_push _ _ _
  | _ => cases fills _ <;> first | exact .refl _ | exact grows_push _ _ _

/-- A key is registered only where it has no record. -/
theorem distinct_begun (m : Moment) (h : m.registry.KeysDistinct) : m.begun.KeysDistinct := by
  obtain ⟨r, op⟩ := m
  cases op with
  | register => exact h.push_none _
  | getOrCreate key fill fails =>
    cases hkey : r.find? key with
    | some _ => rwa [begun_found hkey]
    | none =>
      rw [begun_new hkey]
      exact h.push_some hkey _
  | _ => exact h

/-- A record without a key is registered under the next handle, and no key finds it. -/
theorem keyAt_begun {m : Moment} (hop : m.op = .register) :
    m.begun.keyAt m.registry.size = none := by
  obtain ⟨r, op⟩ := m
  subst hop
  exact (keyAt_push _ _ _ _).trans (if_pos rfl)

end Moment

/-! ## 4. A run -/

/-- **What a stretch of a run keeps**, from the registry it starts from to the one it ends with.  Records
are never moved, and keys never lose them: from each moment to all later ones. -/
structure Course (r : Scripted) (ms : List Moment) (r' : Scripted) : Prop where
  grows : r.Grows r'
  starts : ∀ m ∈ ms, r.Grows m.registry
  runs : ∀ m ∈ ms, m.begun.Grows m.next
  ends : ∀ m ∈ ms, m.next.Grows r'
  later : ms.Pairwise fun m m' => m.begun.Grows m'.registry
  handles : (ms.filter Moment.registers).map (·.registry.size) =
    List.range' r.size (r'.size - r.size)
  distinct : r.KeysDistinct → r'.KeysDistinct

namespace Course

variable {r r' r'' : Scripted} {ms ms' : List Moment}

theorem nil (r : Scripted) : Course r [] r where
  grows := .refl r
  starts _ hm := nomatch hm
  runs _ hm := nomatch hm
  ends _ hm := nomatch hm
  later := .nil
  handles := by simp
  distinct h := h

/-- One stretch after another. -/
theorem append (h : Course r ms r') (h' : Course r' ms' r'') : Course r (ms ++ ms') r'' where
  grows := h.grows.trans h'.grows
  starts m hm := by
    rcases List.mem_append.1 hm with hm | hm
    · exact h.starts m hm
    · exact h.grows.trans (h'.starts m hm)
  runs m hm := by
    rcases List.mem_append.1 hm with hm | hm
    · exact h.runs m hm
    · exact h'.runs m hm
  ends m hm := by
    rcases List.mem_append.1 hm with hm | hm
    · exact (h.ends m hm).trans h'.grows
    · exact h'.ends m hm
  later := by
    refine List.pairwise_append.2 ⟨h.later, h'.later, fun m hm m' hm' => ?_⟩
    exact ((h.runs m hm).trans (h.ends m hm)).trans (h'.starts m' hm')
  handles := by
    have hle : r.size ≤ r'.size := h.grows.size
    have hle' : r'.size ≤ r''.size := h'.grows.size
    rw [List.filter_append, List.map_append, h.handles, h'.handles]
    rw [show r''.size - r.size = (r'.size - r.size) + (r''.size - r'.size) by omega,
      ← List.range'_append_1, Nat.add_sub_cancel' hle]
  distinct hr := h'.distinct (h.distinct hr)

/-- An operation that starts, and the stretch that runs inside it. -/
theorem enter {m : Moment} (h : Course m.begun ms r') (hnext : r'.Grows m.next)
    (hsize : m.next.size = r'.size) (hdistinct : r'.KeysDistinct → m.next.KeysDistinct) :
    Course m.registry (m :: ms) m.next where
  grows := m.grows_begun.trans (h.grows.trans hnext)
  starts m' hm' := by
    rcases List.mem_cons.1 hm' with rfl | hm'
    · exact .refl _
    · exact m.grows_begun.trans (h.starts m' hm')
  runs m' hm' := by
    rcases List.mem_cons.1 hm' with rfl | hm'
    · exact h.grows.trans hnext
    · exact h.runs m' hm'
  ends m' hm' := by
    rcases List.mem_cons.1 hm' with rfl | hm'
    · exact .refl _
    · exact (h.ends m' hm').trans hnext
  later := List.pairwise_cons.2 ⟨h.starts, h.later⟩
  handles := by
    have hle : m.begun.size ≤ r'.size := h.grows.size
    have hbegun := m.size_begun
    rw [List.filter_cons]
    -- an operation that registers a key takes the next handle; any other takes none
    cases hregisters : m.registers with
    | false =>
      rw [hregisters] at hbegun
      rw [if_neg (by simp), h.handles, hsize, hbegun]
      rfl
    | true =>
      rw [hregisters] at hbegun
      rw [if_pos rfl, List.map_cons, h.handles, hsize, hbegun, if_pos rfl, ← List.range'_succ]
      rw [hbegun, if_pos rfl] at hle
      rw [show r'.size - (m.registry.size + 1) + 1 = r'.size - m.registry.size by omega]
  distinct hr := hdistinct (h.distinct (m.distinct_begun hr))

/-- An operation that runs nothing inside. -/
theorem single (m : Moment) (hnext : m.next = m.begun) : Course m.registry [m] m.next :=
  enter (.nil m.begun) (hnext ▸ .refl _) (congrArg size hnext) (hnext ▸ id)

end Course

mutual

/-- **An operation keeps the course**: one case for each operation. -/
theorem Op.course (r : Scripted) : (op : Op) → Course r (op.moments r) (op.run r).2
  | .getOrCreate key fill fails => by
    cases hkey : r.find? key with
    | some h =>
      rw [Moment.moments_found hkey]
      refine .single ⟨r, _⟩ ?_
      rw [Moment.next, Moment.run_found hkey, Moment.begun_found hkey]
    | none =>
      rw [Moment.moments_new hkey]
      -- the record stands there, filling, before the nested script starts
      have hinner := course (Moment.begun ⟨r, .getOrCreate key fill fails⟩) fill
      cases fails with
      | true =>
        have hnext := Moment.next_failed hkey fill
        exact .enter hinner (hnext ▸ .refl _) (congrArg size hnext) (hnext ▸ id)
      | false =>
        have hnext := Moment.next_filled hkey fill
        exact .enter hinner (hnext ▸ grows_modify _ _ _) (hnext ▸ size_modify _ _ _)
          fun hdistinct => hnext ▸ hdistinct.modify _ _
  | .register => .single ⟨r, .register⟩ rfl
  | .get key => .single ⟨r, .get key⟩ rfl
  | .record handle => .single ⟨r, .record handle⟩ rfl
  | .contains key => .single ⟨r, .contains key⟩ rfl
  | .all => .single ⟨r, .all⟩ rfl

/-- **A script keeps the course.** -/
theorem course (r : Scripted) : (ops : List Op) → Course r (moments r ops) (runAll r ops).2
  | [] => .nil r
  | op :: ops => (Op.course r op).append (course (op.run r).2 ops)

end

/-! ## 5. One record for each key -/

/-- A registry that a run passes through: before an operation, when it has begun, after it, or in the
end. -/
def Passes (script : List Op) (r : Scripted) : Prop :=
  r = (runAll {} script).2 ∨ ∃ m ∈ moments {} script, r = m.registry ∨ r = m.begun ∨ r = m.next

/-- **The operation finds the key's record**: a request answers it and runs nothing, and looking for the
key gives it. -/
def Moment.Finds (m : Moment) (key : String) (h : Nat) : Prop :=
  (∀ fill fails, m.op = .getOrCreate key fill fails →
    m.answer = .created (see m.registry h) [] ∧ m.next = m.registry) ∧
  (m.op = .get key → m.answer = .got (some (see m.registry h))) ∧
  (m.op = .contains key → m.answer = .contained true)

/-- **What holds in every run of a script** on a registry that begins empty. -/
structure OneRecordEach (script : List Op) : Prop where
  /-- the moments are all operations that answered, in the order in which they started -/
  answered : (moments {} script).map Moment.answer = answers (runAll {} script).1
  /-- the records have the handles 0, …, n - 1, in the order of registration -/
  handles : ((moments {} script).filter Moment.registers).map (·.registry.size) =
    List.range (runAll {} script).2.size
  /-- and a record without a key answers its handle, a listing those of all records -/
  listed : ∀ m ∈ moments {} script,
    (m.op = .register → m.answer = .registered m.registry.size) ∧
    (m.op = .all → m.answer = .listed ((List.range m.registry.size).map (see m.registry)))
  /-- a request for a key has the record that is there or registers one, under the next handle, before
  anything else; it answers the record unless its filling fails -/
  created : ∀ m ∈ moments {} script, ∀ key fill fails, m.op = .getOrCreate key fill fails →
    ∃ h, (m.registry.find? key = some h ∨ m.registry.find? key = none ∧ h = m.registry.size) ∧
      m.begun.find? key = some h ∧
      ((∃ p inner, m.answer = .created (h, p) inner) ∨ fails = true ∧
        ∃ inner, m.answer = .fillFailed inner)
  /-- no two keys have the same record, and no key is registered twice -/
  distinct : ∀ r, Passes script r → r.KeysDistinct ∧
    ∀ key key' h, r.find? key = some h → r.find? key' = some h → key = key'
  /-- no key has a record that was registered without one -/
  keyless : ∀ m ∈ moments {} script, m.op = .register →
    ∀ r, Passes script r → ∀ key, r.find? key ≠ some m.registry.size
  /-- a key that has a record when an operation has begun has it ever after: during its own filling,
  and when that has failed -/
  kept : (moments {} script).Pairwise fun m m' => ∀ key h, m.begun.find? key = some h →
    m'.Finds key h
  /-- a key is filled at most once -/
  once : ((moments {} script).filterMap Moment.fills).Nodup
  /-- looking changes nothing -/
  looks : ∀ m ∈ moments {} script, m.op.looks = true → m.next = m.registry

theorem Moment.finds {m : Moment} {key : String} {h : Nat} (hkey : m.registry.find? key = some h) :
    m.Finds key h := by
  obtain ⟨r, op⟩ := m
  refine ⟨?_, ?_, ?_⟩
  · rintro fill fails rfl
    have hrun := @run_found r key fill fails h hkey
    exact ⟨congrArg Prod.fst hrun, congrArg Prod.snd hrun⟩
  · rintro rfl
    rw [answer, Op.run, hkey]
    rfl
  · rintro rfl
    rw [answer, Op.run, contains, hkey]
    rfl

/-- Whatever a run passes through, it ends with more. -/
theorem Passes.grows {script : List Op} {r : Scripted} (h : Passes script r) :
    r.Grows (runAll {} script).2 := by
  have hcourse := course {} script
  rcases h with rfl | ⟨m, hm, hr⟩
  · exact .refl _
  · have hend := (hcourse.runs m hm).trans (hcourse.ends m hm)
    rcases hr with rfl | rfl | rfl
    · exact m.grows_begun.trans hend
    · exact hend
    · exact hcourse.ends m hm

/-- **The registry keeps one record for each key**, under any nesting and any failure. -/
theorem one_record_each (script : List Op) : OneRecordEach script where
  answered := answer_moments_all {} script
  handles := by simpa [List.range_eq_range', size] using (course {} script).handles
  listed := by
    rintro ⟨r, op⟩ -
    exact ⟨by rintro rfl; rfl, by rintro rfl; rfl⟩
  created := by
    rintro ⟨r, op⟩ - key fill fails rfl
    have hbegun := Moment.find?_begun r key fill fails
    cases hkey : r.find? key with
    | some h =>
      rw [hkey] at hbegun
      have hrun := @Moment.run_found r key fill fails h hkey
      exact ⟨h, .inl rfl, hbegun, .inl ⟨_, _, congrArg Prod.fst hrun⟩⟩
    | none =>
      rw [hkey] at hbegun
      exact ⟨r.size, .inr ⟨rfl, rfl⟩, hbegun, Moment.answer_new hkey⟩
  distinct r hr := by
    have hlast : (runAll {} script).2.KeysDistinct := by
      refine (course {} script).distinct fun h k hk => ?_
      cases hk
    refine ⟨.of_grows hr.grows hlast, fun key key' h hkey hkey' => ?_⟩
    exact Option.some.inj ((keyAt_of_find? hkey).symm.trans (keyAt_of_find? hkey'))
  keyless m hm hop r hr key hkey := by
    have hcourse := course {} script
    have hgrows := (hcourse.runs m hm).trans (hcourse.ends m hm)
    have hsize : m.registry.size < m.begun.size := by
      rw [Moment.size_begun, Moment.registers, hop]
      exact Nat.lt_succ_self _
    -- in the end the record stands there without a key
    have hnone : (runAll {} script).2.keyAt m.registry.size = none := by
      rw [hgrows.keyAt _ hsize, Moment.keyAt_begun hop]
    have hsome := keyAt_of_find? (hr.grows.find? key _ hkey)
    rw [hnone] at hsome
    cases hsome
  kept := by
    refine (course {} script).later.imp fun hgrows key h hkey => ?_
    exact Moment.finds (hgrows.find? key h hkey)
  once := by
    refine List.Pairwise.filterMap Moment.fills ?_ (course {} script).later
    intro m m' hgrows key hkey key' hkey' heq
    subst heq
    -- the later one finds the record that the earlier one filled, so it does not fill it again
    have hfound := hgrows.find? key _ (Moment.fills_eq hkey).2
    rw [(Moment.fills_eq hkey').1] at hfound
    cases hfound
  looks := by
    rintro ⟨r, op⟩ - hop
    cases op with
    | getOrCreate key fill fails => cases hop
    | register => cases hop
    | _ => rfl

end ApiReference.Registry
