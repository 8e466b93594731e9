/-
  Plain data: what fact documents, settings and dumped models are made of.

  A fact document is written by another program, so any field may hold any value, and the library
  reads each field by a fixed rule.

  1. `Value`                         -- the data, maps in written order;
  2. `Value.isTrue`                  -- which values count as set;
  3. `Value.text`, `Value.quoted`    -- a value where a text is wanted;
  4. `Value.toInt`                   -- a value where a whole number is wanted;
  5. `fields`, `get`, `index`, `elements` -- a value where a map or a sequence is wanted.
-/
import ApiReference.Decimal.Shortest
import ApiReference.Text.Numeral
import ApiReference.Text.Quoted
import ApiReference.Fault

namespace ApiReference

open Decimal (Double)

/-! ## 1. Data -/

/-- **Plain data.**  Whole numbers are unbounded and differ from floating-point ones; the entries of
    a map keep the order in which they were written. -/
inductive Value where
  | null
  | bool (b : Bool)
  | int (n : Int)
  | float (d : Double)
  | str (s : String)
  | list (elements : List Value)
  | map (entries : List (String × Value))
deriving Inhabited, Repr

namespace Value

/-- The value of a key, in a list of entries. -/
def lookup (key : String) : List (String × Value) → Option Value
  | [] => none
  | (k, v) :: r => if k = key then some v else lookup key r

/-- The entries with one key set: replaced in place, or added at the end. -/
def insert (key : String) (value : Value) : List (String × Value) → List (String × Value)
  | [] => [(key, value)]
  | (k, v) :: r => if k = key then (k, value) :: r else (k, v) :: insert key value r

/-- Setting a key changes that key and no other. -/
theorem lookup_insert (key other : String) (value : Value) (es : List (String × Value)) :
    lookup other (insert key value es) = if key = other then some value else lookup other es := by
  induction es with
  | nil => simp [insert, lookup]
  | cons e r ih =>
    obtain ⟨k, v⟩ := e
    by_cases hk : k = key
    · subst hk
      simp only [insert, lookup, if_true]
      split <;> rfl
    · simp only [insert, hk, if_false, lookup, ih]
      by_cases ho : k = other
      · subst ho
        simp [Ne.symm hk]
      · simp [ho]

/-- Setting a key keeps the keys in their order; a new one comes last. -/
theorem keys_insert (key : String) (value : Value) (es : List (String × Value)) :
    (insert key value es).map Prod.fst =
      if key ∈ es.map Prod.fst then es.map Prod.fst else es.map Prod.fst ++ [key] := by
  induction es with
  | nil => simp [insert]
  | cons e r ih =>
    obtain ⟨k, v⟩ := e
    by_cases hk : k = key
    · simp [insert, hk]
    · simp only [insert, hk, if_false, List.map_cons, ih, List.mem_cons]
      by_cases hr : key ∈ r.map Prod.fst
      · simp [hr]
      · simp [hr, Ne.symm hk]

/-- A value that may be unset; `null` stands for unset. -/
def toOption : Value → Option Value
  | null => none
  | v => some v

/-- The value of an optional one; unset is `null`. -/
def ofOption : Option Value → Value
  | none => null
  | some v => v

/-! ## 2. Truth -/

/-- **Does the value count as set?**  `null`, `false`, zero and everything empty do not. -/
def isTrue : Value → Bool
  | null => false
  | bool b => b
  | int n => n != 0
  | float d => !d.isZero
  | str s => s != ""
  | list xs => !xs.isEmpty
  | map es => !es.isEmpty

/-! ## 3. Text form -/

mutual

/-- **A value inside a written list or map**: texts are quoted. -/
def quoted : Value → String
  | null => "None"
  | bool true => "True"
  | bool false => "False"
  | int n => toString n
  | float d => d.text
  | str s => Text.quoted s
  | list xs => "[" ++ ", ".intercalate (quotedAll xs) ++ "]"
  | map es => "\x7b" ++ ", ".intercalate (quotedEntries es) ++ "\x7d"

/-- The elements of a written list. -/
def quotedAll : List Value → List String
  | [] => []
  | v :: r => quoted v :: quotedAll r

/-- The entries of a written map. -/
def quotedEntries : List (String × Value) → List String
  | [] => []
  | (k, v) :: r => (Text.quoted k ++ ": " ++ quoted v) :: quotedEntries r

end

/-- **A value as text**: a text is itself, anything else is written out. -/
def text : Value → String
  | str s => s
  | v => v.quoted

/-- A value as text when it counts as set, else the empty text. -/
def textOrEmpty (v : Value) : String := if v.isTrue then v.text else ""

/-! ## 4. Numbers -/

/-- **A value as a whole number**: floats lose their fraction, truth values are 0 and 1, texts are
    read. -/
def toInt : Value → Except Fault Int
  | int n => .ok n
  | bool b => .ok (if b then 1 else 0)
  | float d => match d.truncate? with
    | some n => .ok n
    | none => .error (if d.isInfinite then .infinite else .notANumeral)
  | str s => match Text.readInt? s with
    | some n => .ok n
    | none => .error .notANumeral
  | _ => .error .notNumeric

/-! ## 5. Maps and sequences -/

/-- The entries of a map. -/
def fields : Value → Except Fault (List (String × Value))
  | map es => .ok es
  | _ => .error .noField

/-- An entry of a map, or a default where the map lacks it. -/
def getD (v : Value) (key : String) (default : Value) : Except Fault Value :=
  match v with
  | map es => .ok ((lookup key es).getD default)
  | _ => .error .noField

/-- An entry of a map, `null` where the map lacks it. -/
def get (v : Value) (key : String) : Except Fault Value := v.getD key .null

/-- A required entry of a map. -/
def index (v : Value) (key : String) : Except Fault Value :=
  match v with
  | map es => match lookup key es with
    | some w => .ok w
    | none => .error .missingKey
  | _ => .error .notIndexable

/-- **The elements of a value**: of a list its elements, of a text its characters, of a map its
    keys. -/
def elements : Value → Except Fault (List Value)
  | list xs => .ok xs
  | str s => .ok (s.toList.map (fun c => str (String.singleton c)))
  | map es => .ok (es.map (fun e => str e.1))
  | _ => .error .notIterable

/-- The elements of a value that counts as set; of any other, none. -/
def elementsIfTrue (v : Value) : Except Fault (List Value) :=
  if v.isTrue then v.elements else .ok []

end Value

end ApiReference
