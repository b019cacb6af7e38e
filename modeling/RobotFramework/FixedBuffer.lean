import Mathlib.Data.List.Basic

/-!
# Buffers of a fixed size

A buffer has elements that may not be assigned yet, and it keeps the positions beyond its end that were
written to. Copying a list into a fresh buffer writes nothing outside it exactly if the list is not too
long, and assigns every element exactly if it is not too short.
-/

/-- A buffer of a fixed size; an element that was never assigned is `none`. -/
structure FixedBuffer (α : Type) (size : Nat) where
  elements : Vector (Option α) size
  outside : List Nat
  deriving DecidableEq, Repr

namespace FixedBuffer

variable {α : Type} {size : Nat}

def uninitialized (α : Type) (size : Nat) : FixedBuffer α size where
  elements := Vector.replicate size none
  outside := []

/-- A buffer that holds a vector. -/
def ofVector (v : Vector α size) : FixedBuffer α size where
  elements := v.map some
  outside := []

/-- Writes one element, or notes the position if it is beyond the end. -/
def write (b : FixedBuffer α size) (i : Nat) (a : α) : FixedBuffer α size :=
  if h : i < size then { b with elements := b.elements.set i (some a) }
  else { b with outside := b.outside ++ [i] }

/-- Writes the elements of a list from a position on. -/
def copyFrom (b : FixedBuffer α size) (i : Nat) : List α → FixedBuffer α size
  | [] => b
  | a :: source => copyFrom (b.write i a) (i + 1) source

/-- A copy of a list to the start of a fresh buffer. -/
def copy (size : Nat) (source : List α) : FixedBuffer α size :=
  (uninitialized α size).copyFrom 0 source

def InBounds (b : FixedBuffer α size) : Prop := b.outside = []

def Assigned (b : FixedBuffer α size) : Prop := ∀ i : Fin size, b.elements[i].isSome = true

instance (b : FixedBuffer α size) : Decidable b.InBounds := inferInstanceAs (Decidable (b.outside = []))

instance (b : FixedBuffer α size) : Decidable b.Assigned :=
  inferInstanceAs (Decidable (∀ _ : Fin size, _))

/-- The elements, if all of them are assigned. -/
def toVector? (b : FixedBuffer α size) : Option (Vector α size) :=
  if h : b.Assigned then some (Vector.ofFn fun i => b.elements[i].get (h i)) else none

theorem toVector?_of_assigned {b : FixedBuffer α size} (h : b.Assigned) : ∃ v, b.toVector? = some v := by
  unfold toVector?
  rw [dif_pos h]
  exact ⟨_, rfl⟩

theorem ofVector_inj {v w : Vector α size} : ofVector v = ofVector w ↔ v = w := by
  constructor
  · intro h
    have helements : v.map some = w.map some := congrArg elements h
    apply Vector.ext
    intro i hi
    have hsome : (v.map some)[i] = (w.map some)[i] := by rw [helements]
    rw [Vector.getElem_map, Vector.getElem_map] at hsome
    exact Option.some.inj hsome
  · rintro rfl
    rfl

theorem inBounds_ofVector (v : Vector α size) : (ofVector v).InBounds := rfl

theorem assigned_ofVector (v : Vector α size) : (ofVector v).Assigned := by
  intro i
  simp [ofVector]

/-! ## Copying -/

theorem getElem_write (b : FixedBuffer α size) (i : Nat) (a : α) (j : Nat) (hj : j < size) :
    (b.write i a).elements[j] = if i = j then some a else b.elements[j] := by
  unfold write
  by_cases hi : i < size
  · rw [dif_pos hi]
    exact Vector.getElem_set hi hj
  · rw [dif_neg hi, if_neg (by omega)]

theorem getElem_copyFrom (source : List α) : ∀ (b : FixedBuffer α size) (i j : Nat) (hj : j < size),
    (b.copyFrom i source).elements[j] =
      if i ≤ j then source[j - i]?.or b.elements[j] else b.elements[j] := by
  induction source with
  | nil =>
    intro b i j hj
    unfold copyFrom
    simp
  | cons a source ih =>
    intro b i j hj
    unfold copyFrom
    rw [ih, getElem_write]
    rcases Nat.lt_trichotomy i j with hlt | rfl | hgt
    · have hsucc : j - i = j - (i + 1) + 1 := by omega
      rw [if_pos (by omega), if_neg (by omega), if_pos (by omega), hsucc, List.getElem?_cons_succ]
    · rw [if_neg (by omega), if_pos rfl, if_pos (Nat.le_refl i), Nat.sub_self, List.getElem?_cons_zero,
        Option.some_or]
    · rw [if_neg (by omega), if_neg (by omega), if_neg (by omega)]

theorem outside_copyFrom (source : List α) : ∀ (b : FixedBuffer α size) (i : Nat),
    (b.copyFrom i source).outside =
      b.outside ++ (List.range' i source.length).filter (size ≤ ·) := by
  induction source with
  | nil =>
    intro b i
    simp [copyFrom]
  | cons a source ih =>
    intro b i
    unfold copyFrom
    rw [ih, List.length_cons, List.range'_succ, List.filter_cons]
    unfold write
    by_cases hi : i < size
    · rw [dif_pos hi, if_neg (by simpa using hi)]
    · rw [dif_neg hi, if_pos (by simpa using hi), List.append_assoc, List.singleton_append]

/-- **In bounds.** -/
theorem inBounds_copy (source : List α) : (copy size source).InBounds ↔ source.length ≤ size := by
  unfold InBounds copy
  rw [outside_copyFrom]
  show [] ++ _ = [] ↔ _
  rw [List.nil_append, List.filter_eq_nil_iff]
  constructor
  · intro h
    by_contra hlong
    refine h size (List.mem_range'_1.mpr ⟨Nat.zero_le _, by omega⟩) (by simp)
  · intro hle i hi
    have := (List.mem_range'_1.mp hi).2
    simp
    omega

theorem getElem_copy (source : List α) (j : Nat) (hj : j < size) :
    (copy size source).elements[j] = source[j]? := by
  unfold copy
  rw [getElem_copyFrom, if_pos (Nat.zero_le j), Nat.sub_zero]
  show source[j]?.or (Vector.replicate size none)[j] = _
  rw [Vector.getElem_replicate, Option.or_none]

/-- **Assigned.** -/
theorem assigned_copy (source : List α) : (copy size source).Assigned ↔ size ≤ source.length := by
  unfold Assigned
  constructor
  · intro h
    by_contra hshort
    have hsome := h ⟨source.length, by omega⟩
    rw [Fin.getElem_fin, getElem_copy] at hsome
    simp at hsome
  · intro hle i
    rw [Fin.getElem_fin, getElem_copy]
    have := i.isLt
    simp
    omega

theorem copy_toList (v : Vector α size) : copy size v.toList = ofVector v := by
  have helements : (copy size v.toList).elements = (ofVector v).elements := by
    apply Vector.ext
    intro j hj
    rw [getElem_copy]
    simp [ofVector, hj]
  have houtside : (copy size v.toList).outside = (ofVector v).outside := by
    exact (inBounds_copy v.toList).mpr (by simp)
  cases hc : copy size v.toList
  rw [hc] at helements houtside
  dsimp only at helements houtside
  rw [helements, houtside]

end FixedBuffer
