import Mathlib.Algebra.Order.Ring.Int
import Mathlib.Data.Char
import Mathlib.Data.List.Lex

/-!
# JSON values (`json_value.cpp`)

A `Json::Value` without its comments and offsets, as `Reader` makes them: a string has a text, which
that of `Value(stringValue)` has not, and an array has all its elements, where an assignment beyond
its end would leave holes. The members of an object are kept in the order of their names, as in the
`std::map` of the source; `insert` is `operator[]` followed by an assignment.

Results:
* `find_insert`: what is found after an insertion.
* `insert_of_lt`: a name behind all others is inserted at the end.
* `IsSorted.insert`: an insertion keeps the order.
-/

namespace Camerasp.Json

/-- `Json::Value`; `double` is `ρ`. -/
inductive Value (ρ : Type*)
  | null
  | int (v : Int)
  | uint (v : Nat)
  | real (v : ρ)
  | string (v : List Char)
  | bool (v : Bool)
  | array (v : List (Value ρ))
  | object (v : List (List Char × Value ρ))

/-- The members of an object, in the order of their names. -/
abbrev Members (ρ : Type*) := List (List Char × Value ρ)

variable {ρ : Type*}

/-- `members[key] = v`. -/
def Members.insert (key : List Char) (v : Value ρ) : Members ρ → Members ρ
  | [] => [(key, v)]
  | (k, u) :: members =>
    if key = k then (key, v) :: members
    else if key < k then (key, v) :: (k, u) :: members
    else (k, u) :: insert key v members

/-- `find`. -/
def Members.find (key : List Char) : Members ρ → Option (Value ρ)
  | [] => none
  | (k, u) :: members => if k = key then some u else find key members

/-- The members come in the order of their names, and no two have one name. -/
def Members.IsSorted (members : Members ρ) : Prop := members.Pairwise fun m m' => m.1 < m'.1

namespace Value

/-- `isArray() || isObject()`. -/
def isContainer : Value ρ → Bool
  | .array _ | .object _ => true
  | _ => false

def empty : Value ρ → Bool
  | .null => true
  | .array v => v.isEmpty
  | .object v => v.isEmpty
  | _ => false

/-- `operator[]` with a name, which throws where there are no members. -/
def member (key : List Char) : Value ρ → Option (Value ρ)
  | .null => some .null
  | .object v => some ((Members.find key v).getD .null)
  | _ => none

/-- The limits of an `int`. -/
def inInt (v : Int) : Option Int32 :=
  if -2 ^ 31 ≤ v ∧ v < 2 ^ 31 then some (Int32.ofInt v) else none

/-- `asInt`, which throws out of the range of an `int`, and for anything that is no number;
`toInt` converts a `double`. -/
def asInt (toInt : ρ → Option Int32) : Value ρ → Option Int32
  | .null => some 0
  | .int v => inInt v
  | .uint v => inInt v
  | .real v => toInt v
  | .bool v => some (if v then 1 else 0)
  | .string _ | .array _ | .object _ => none

/-- The values that a value is made of. -/
def parts : Value ρ → List (Value ρ)
  | .array v => v
  | .object v => v.map Prod.snd
  | _ => []

/-- `p` holds of a value and of all that are in it, and it is at most `n` deep. -/
def Within (p : Value ρ → Prop) : Nat → Value ρ → Prop
  | 0, _ => False
  | n + 1, v => p v ∧ ∀ u ∈ v.parts, Within p n u

/-- What the reader makes of numbers and objects: an `int` where an integer fits or is negative,
else a `uint`, of 64 bits both, and members in order. -/
def IsNormal : Value ρ → Prop
  | .int v => -2 ^ 63 ≤ v ∧ v < 2 ^ 31
  | .uint v => 2 ^ 31 ≤ v ∧ v < 2 ^ 64
  | .object v => Members.IsSorted v
  | _ => True

def isReal : Value ρ → Bool
  | .real _ => true
  | _ => false

/-- What is read again as it was written. -/
def IsWritable (v : Value ρ) : Prop := v.IsNormal ∧ v.isReal = false

theorem Within.imp {p q : Value ρ → Prop} (h : ∀ v, p v → q v) {n : Nat} {v : Value ρ}
    (hv : Within p n v) : Within q n v := by
  induction n generalizing v with
  | zero => exact hv
  | succ n ih => exact ⟨h v hv.1, fun u hu => ih (hv.2 u hu)⟩

theorem Within.mono {p : Value ρ → Prop} {n m : Nat} (h : n ≤ m) {v : Value ρ}
    (hv : Within p n v) : Within p m v := by
  induction n generalizing m v with
  | zero => exact hv.elim
  | succ n ih =>
    obtain ⟨m, rfl⟩ := Nat.exists_eq_add_of_le' (Nat.one_le_of_lt h)
    exact ⟨hv.1, fun u hu => ih (Nat.le_of_succ_le_succ h) (hv.2 u hu)⟩

theorem Within.and {p q : Value ρ → Prop} {n m : Nat} {v : Value ρ} (hp : Within p n v)
    (hq : Within q m v) : Within (fun v => p v ∧ q v) m v := by
  induction m generalizing n v with
  | zero => exact hq
  | succ m ih =>
    cases n with
    | zero => exact hp.elim
    | succ n => exact ⟨⟨hp.1, hq.1⟩, fun u hu => ih (hp.2 u hu) (hq.2 u hu)⟩

end Value

namespace Members

variable {key k : List Char} {v : Value ρ} {members : Members ρ}

theorem find_insert_self : (members.insert key v).find key = some v := by
  induction members with
  | nil => simp [insert, find]
  | cons m members ih =>
    obtain ⟨k, u⟩ := m
    unfold insert
    split
    · simp [find]
    · rename_i hne
      split
      · simp [find]
      · simpa [find, Ne.symm hne] using ih

theorem find_insert_of_ne (h : k ≠ key) : (members.insert key v).find k = members.find k := by
  induction members with
  | nil => simp [insert, find, h.symm]
  | cons m members ih =>
    obtain ⟨k', u⟩ := m
    unfold insert
    split
    · rename_i heq
      subst heq
      simp [find, h.symm]
    · split
      · simp [find, h.symm]
      · simp [find, ih]

/-- **What is found after an insertion.** -/
theorem find_insert : (members.insert key v).find k =
    if k = key then some v else members.find k := by
  split
  · rename_i heq
    rw [heq]
    exact find_insert_self
  · rename_i hne
    exact find_insert_of_ne hne

theorem insert_of_lt (h : ∀ m ∈ members, m.1 < key) :
    members.insert key v = members ++ [(key, v)] := by
  induction members with
  | nil => rfl
  | cons m members ih =>
    obtain ⟨k, u⟩ := m
    have hlt : k < key := h (k, u) List.mem_cons_self
    unfold insert
    rw [if_neg (ne_of_gt hlt), if_neg (lt_asymm hlt),
      ih fun m hm => h m (List.mem_cons_of_mem _ hm)]
    rfl

theorem mem_insert {m : List Char × Value ρ} (h : m ∈ members.insert key v) :
    m = (key, v) ∨ m ∈ members := by
  induction members with
  | nil => simpa [insert] using h
  | cons m' members ih =>
    obtain ⟨k, u⟩ := m'
    unfold insert at h
    split_ifs at h with hk hlt
    · obtain rfl | h := List.mem_cons.mp h
      · exact .inl rfl
      · exact .inr (List.mem_cons_of_mem _ h)
    · exact List.mem_cons.mp h
    · obtain rfl | h := List.mem_cons.mp h
      · exact .inr List.mem_cons_self
      · exact (ih h).imp_right (List.mem_cons_of_mem _)

/-- **An insertion keeps the order.** -/
theorem IsSorted.insert (h : members.IsSorted) : (members.insert key v).IsSorted := by
  induction members with
  | nil => exact List.pairwise_singleton _ _
  | cons m members ih =>
    obtain ⟨k, u⟩ := m
    obtain ⟨hfirst, hrest⟩ := List.pairwise_cons.mp h
    unfold Members.insert
    split_ifs with hk hlt
    · subst hk
      exact List.pairwise_cons.mpr ⟨hfirst, hrest⟩
    · refine List.pairwise_cons.mpr ⟨fun m hm => ?_, h⟩
      obtain rfl | hm := List.mem_cons.mp hm
      · exact hlt
      · exact hlt.trans (hfirst m hm)
    · refine List.pairwise_cons.mpr ⟨fun m hm => ?_, ih hrest⟩
      obtain rfl | hm := mem_insert hm
      · exact lt_of_le_of_ne (not_lt.mp hlt) (Ne.symm hk)
      · exact hfirst m hm

end Members

end Camerasp.Json
