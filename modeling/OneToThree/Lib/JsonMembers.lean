import OneToThree.Lib.JsonUnits
import Mathlib.Data.List.Sort

/-!
# Members of objects

An object of the language has every member once: first those that are array indices, in ascending
order, and then the others, in the order in which they came. A collation may take two names for the
same, and a stable sort by it leaves these in their order.

* `JsonUnits.reorders_iff`: two values are the same with their members sorted exactly if one comes
  from the other by exchanging neighbouring members, at any depth, that the collation tells apart.
-/

namespace JsText

/-- The texts, with commas between them. -/
def join : List JsText → JsText
  | [] => []
  | [t] => t
  | t :: ts => t ++ 0x2C :: join ts

end JsText

namespace JsonUnits

open JsText

/-- Numbers with their order, among them the natural ones. -/
class OrderedNumber (N : Type) extends Number N where
  ofNat : ℕ → N
  ge : N → N → Bool
  ge_ofNat : ∀ a b, ge (ofNat a) (ofNat b) = decide (b ≤ a)

instance : OrderedNumber ℕ where
  ofNat n := n
  ge a b := b ≤ a
  ge_ofNat _ _ := rfl

/-! ## Conversions -/

section
variable {N : Type} [Number N]

def Value.isTruthy : Value N → Bool
  | .null => false
  | .bool b => b
  | .num n => Number.write n ≠ ascii "0"
  | .str t => t ≠ []
  | _ => true

mutual

/-- `String(x)`. -/
def Value.toText : Value N → JsText
  | .null => ascii "null"
  | .bool true => ascii "true"
  | .bool false => ascii "false"
  | .num n => Number.write n
  | .str t => t
  | .arr xs => join (elemTexts xs)
  | .obj _ => ascii "[object Object]"

/-- In an array, `null` is an empty text. -/
def elemTexts : List (Value N) → List JsText
  | [] => []
  | .null :: xs => [] :: elemTexts xs
  | x :: xs => x.toText :: elemTexts xs

end

end

/-! ## Objects as they are read -/

section
variable {N : Type}

/-- The index of an array, with no zero before it. -/
def arrayIndex (key : JsText) : Option ℕ := (readNat key).filter (· < 2 ^ 32 - 1)

/-- A member of a name that is there stays in its place. -/
def setMember (members : List (JsText × Value N)) (key : JsText) (x : Value N) :
    List (JsText × Value N) :=
  if members.any (·.1 = key) then members.map fun m => if m.1 = key then (key, x) else m
  else members ++ [(key, x)]

def ownMembers (fields : List (JsText × Value N)) : List (JsText × Value N) :=
  let members := fields.foldl (fun members m => setMember members m.1 m.2) []
  let indices := members.filterMap fun m => (arrayIndex m.1).map fun i => (i, m)
  (indices.insertionSort fun a b => a.1 ≤ b.1).map (·.2) ++
    members.filter fun m => (arrayIndex m.1).isNone

mutual

def Value.own : Value N → Value N
  | .arr xs => .arr (ownElems xs)
  | .obj fields => .obj (ownMembers (ownFields fields))
  | x => x

def ownElems : List (Value N) → List (Value N)
  | [] => []
  | x :: xs => x.own :: ownElems xs

def ownFields : List (JsText × Value N) → List (JsText × Value N)
  | [] => []
  | (key, x) :: fields => (key, x.own) :: ownFields fields

end

/-- `JSON.parse`, with the members of objects as the language keeps them. -/
def parseOwn [Number N] (t : JsText) : Option (Value N) := (parse t).map Value.own

theorem foldl_setMember (members fields : List (JsText × Value N))
    (h : (members ++ fields).Pairwise fun a b => a.1 ≠ b.1) :
    fields.foldl (fun members m => setMember members m.1 m.2) members = members ++ fields := by
  induction fields generalizing members with
  | nil => exact (List.append_nil _).symm
  | cons m fields ih =>
    have hnew : ¬members.any (·.1 = m.1) = true := by
      rw [List.any_eq_true]
      rintro ⟨m', hm', heq⟩
      exact (List.pairwise_append.1 h).2.2 m' hm' m List.mem_cons_self (of_decide_eq_true heq)
    rw [List.foldl_cons, setMember, if_neg hnew, ih _, List.append_assoc, List.singleton_append]
    rwa [List.append_assoc, List.singleton_append]

/-- Fields of distinct names, none of them an array index, are the members as they stand. -/
theorem ownMembers_eq_self {fields : List (JsText × Value N)}
    (h : fields.Pairwise fun a b => a.1 ≠ b.1) (hindex : ∀ m ∈ fields, arrayIndex m.1 = none) :
    ownMembers fields = fields := by
  have hnone : (fields.filterMap fun m => (arrayIndex m.1).map fun i => (i, m)) = [] := by
    rw [List.filterMap_eq_nil_iff]
    intro m hm
    rw [hindex m hm, Option.map_none]
  have hall : (fields.filter fun m => (arrayIndex m.1).isNone) = fields := by
    rw [List.filter_eq_self]
    intro m hm
    rw [hindex m hm, Option.isNone_none]
  rw [ownMembers, foldl_setMember [] fields h, List.nil_append, hnone, hall]
  rfl

end

/-! ## Sorted members -/

/-- An order of names that may take two of them for the same. -/
structure Collation where
  le : JsText → JsText → Bool
  trans : ∀ a b c, le a b → le b c → le a c
  total : ∀ a b, le a b || le b a

namespace Collation

variable {N : Type} (C : Collation)

def tellsApart (a b : JsText) : Prop := ¬(C.le a b = true ∧ C.le b a = true)

def sortMembers {A : Type} (members : List (JsText × A)) : List (JsText × A) :=
  members.insertionSort fun a b => C.le a.1 b.1 = true

mutual

/-- The value with the members of its objects sorted. -/
def sorted : Value N → Value N
  | .arr xs => .arr (sortedElems xs)
  | .obj fields => .obj (C.sortMembers (sortedFields fields))
  | x => x

def sortedElems : List (Value N) → List (Value N)
  | [] => []
  | x :: xs => sorted x :: sortedElems xs

def sortedFields : List (JsText × Value N) → List (JsText × Value N)
  | [] => []
  | (key, x) :: fields => (key, sorted x) :: sortedFields fields

end

/-- The same up to the order of members that are told apart. -/
inductive Reorders : Value N → Value N → Prop
  | refl (x : Value N) : Reorders x x
  | symm {x y : Value N} : Reorders x y → Reorders y x
  | trans {x y z : Value N} : Reorders x y → Reorders y z → Reorders x z
  | swap {a b : JsText × Value N} (pre post : List (JsText × Value N)) : C.tellsApart a.1 b.1 →
    Reorders (.obj (pre ++ a :: b :: post)) (.obj (pre ++ b :: a :: post))
  | member {x y : Value N} (pre : List (JsText × Value N)) (key : JsText)
    (post : List (JsText × Value N)) : Reorders x y →
    Reorders (.obj (pre ++ (key, x) :: post)) (.obj (pre ++ (key, y) :: post))
  | elem {x y : Value N} (pre post : List (Value N)) : Reorders x y →
    Reorders (.arr (pre ++ x :: post)) (.arr (pre ++ y :: post))

variable {C}

theorem sortedElems_eq (xs : List (Value N)) : C.sortedElems xs = xs.map C.sorted := by
  induction xs with
  | nil => rfl
  | cons x xs ih => rw [sortedElems, ih, List.map_cons]

theorem sortedFields_eq (fields : List (JsText × Value N)) :
    C.sortedFields fields = fields.map fun m => (m.1, C.sorted m.2) := by
  induction fields with
  | nil => rfl
  | cons m fields ih =>
    obtain ⟨key, x⟩ := m
    rw [sortedFields, ih, List.map_cons]

/-! ## What sorting forgets -/

section
variable {A : Type} {a b : JsText × A}

theorem orderedInsert_comm (hab : C.tellsApart a.1 b.1) (l : List (JsText × A)) :
    (l.orderedInsert (fun a b => C.le a.1 b.1 = true) b).orderedInsert
        (fun a b => C.le a.1 b.1 = true) a =
      (l.orderedInsert (fun a b => C.le a.1 b.1 = true) a).orderedInsert
        (fun a b => C.le a.1 b.1 = true) b := by
  -- One of the two is below the other, and stays before it.
  wlog hle : C.le a.1 b.1 = true generalizing a b
  · have htotal := C.total a.1 b.1
    rw [Bool.or_eq_true] at htotal
    exact (this (fun h => hab h.symm) (htotal.resolve_left hle)).symm
  have hlt : ¬C.le b.1 a.1 = true := fun h => hab ⟨hle, h⟩
  induction l with
  | nil => simp [hle, hlt]
  | cons c l ih =>
    by_cases hbc : C.le b.1 c.1 = true
    · have hac := C.trans _ _ _ hle hbc
      simp [hle, hlt, hbc, hac]
    · by_cases hac : C.le a.1 c.1 = true
      · simp [hlt, hbc, hac]
      · simp [hbc, hac, ih]

theorem sortMembers_swap (hab : C.tellsApart a.1 b.1) (pre post : List (JsText × A)) :
    C.sortMembers (pre ++ a :: b :: post) = C.sortMembers (pre ++ b :: a :: post) := by
  induction pre with
  | nil => exact orderedInsert_comm hab _
  | cons c pre ih => exact congrArg (List.orderedInsert _ c) ih

end

theorem Reorders.sorted_eq {x y : Value N} (h : C.Reorders x y) : C.sorted x = C.sorted y := by
  induction h with
  | refl => rfl
  | symm _ ih => exact ih.symm
  | trans _ _ ih ih' => exact ih.trans ih'
  | @swap a b pre post hab =>
    simp only [sorted, sortedFields_eq, List.map_append, List.map_cons]
    exact congrArg Value.obj
      (sortMembers_swap (a := (a.1, C.sorted a.2)) (b := (b.1, C.sorted b.2)) hab _ _)
  | member pre key post _ ih =>
    simp only [sorted, sortedFields_eq, List.map_append, List.map_cons, ih]
  | elem pre post _ ih =>
    simp only [sorted, sortedElems_eq, List.map_append, List.map_cons, ih]

theorem reorders_orderedInsert (pre : List (JsText × Value N)) (a : JsText × Value N)
    (l : List (JsText × Value N)) :
    C.Reorders (.obj (pre ++ a :: l))
      (.obj (pre ++ l.orderedInsert (fun a b => C.le a.1 b.1 = true) a)) := by
  induction l generalizing pre with
  | nil => exact .refl _
  | cons b l ih =>
    rw [List.orderedInsert_cons]
    split_ifs with hab
    · exact .refl _
    · have hswap : C.Reorders (.obj (pre ++ a :: b :: l)) (.obj (pre ++ b :: a :: l)) :=
        .swap pre l fun h => hab h.1
      have hrest := ih (pre ++ [b])
      rw [List.append_assoc, List.append_assoc] at hrest
      exact hswap.trans hrest

theorem reorders_sortMembers (pre l : List (JsText × Value N)) :
    C.Reorders (.obj (pre ++ l)) (.obj (pre ++ C.sortMembers l)) := by
  induction l generalizing pre with
  | nil => exact .refl _
  | cons a l ih =>
    have hrest := ih (pre ++ [a])
    rw [List.append_assoc, List.append_assoc] at hrest
    exact hrest.trans (reorders_orderedInsert pre a _)

mutual

theorem reorders_sorted : ∀ x : Value N, C.Reorders x (C.sorted x)
  | .null => .refl _
  | .bool _ => .refl _
  | .num _ => .refl _
  | .str _ => .refl _
  | .arr xs => by
    rw [sorted]
    exact reorders_sortedElems [] xs
  | .obj fields => by
    rw [sorted]
    exact (reorders_sortedFields [] fields).trans (reorders_sortMembers [] _)

theorem reorders_sortedElems : ∀ pre xs : List (Value N),
    C.Reorders (.arr (pre ++ xs)) (.arr (pre ++ C.sortedElems xs))
  | _, [] => .refl _
  | pre, x :: xs => by
    have hrest := reorders_sortedElems (pre ++ [C.sorted x]) xs
    rw [List.append_assoc, List.append_assoc] at hrest
    exact (Reorders.elem pre xs (reorders_sorted x)).trans hrest

theorem reorders_sortedFields : ∀ pre fields : List (JsText × Value N),
    C.Reorders (.obj (pre ++ fields)) (.obj (pre ++ C.sortedFields fields))
  | _, [] => .refl _
  | pre, (key, x) :: fields => by
    have hrest := reorders_sortedFields (pre ++ [(key, C.sorted x)]) fields
    rw [List.append_assoc, List.append_assoc] at hrest
    exact (Reorders.member pre key fields (reorders_sorted x)).trans hrest

end

theorem reorders_iff {x y : Value N} : C.Reorders x y ↔ C.sorted x = C.sorted y := by
  refine ⟨Reorders.sorted_eq, fun h => ?_⟩
  have hx := reorders_sorted (C := C) x
  rw [h] at hx
  exact hx.trans (reorders_sorted y).symm

/-! ## What does not depend on the order -/

theorem ne_of_tellsApart {a b : JsText} (h : C.tellsApart a b) : a ≠ b := by
  rintro rfl
  have hrefl : C.le a a = true := by simpa using C.total a a
  exact h ⟨hrefl, hrefl⟩

/-- What is read of a value as a text stands where it stood. -/
theorem Reorders.text?_get? {x y : Value N} (h : C.Reorders x y) (key : String) :
    x.text? = y.text? ∧ (x.get? key).bind Value.text? = (y.get? key).bind Value.text? := by
  induction h with
  | refl => exact ⟨rfl, rfl⟩
  | symm _ ih => exact ⟨ih.1.symm, ih.2.symm⟩
  | trans _ _ ih ih' => exact ⟨ih.1.trans ih'.1, ih.2.trans ih'.2⟩
  | @swap a b pre post hab =>
    refine ⟨rfl, ?_⟩
    obtain ⟨k, x⟩ := a
    obtain ⟨l, y⟩ := b
    have hne : k ≠ l := ne_of_tellsApart hab
    simp only [Value.get?, field_append, field]
    by_cases hk : k = ascii key
    · rw [if_pos hk, if_neg fun hl => hne (hk.trans hl.symm)]
      simp
    · rw [if_neg hk]
      simp
  | member pre k post _ ih =>
    refine ⟨rfl, ?_⟩
    simp only [Value.get?, field_append, field]
    by_cases hk : k = ascii key
    · cases field (ascii key) post <;> simp [hk, ih.1]
    · rw [if_neg hk, if_neg hk]
  | elem => exact ⟨rfl, rfl⟩

end Collation

end JsonUnits
