import Mathlib.Algebra.Order.Ring.Int
import Mathlib.Order.Lattice

set_option autoImplicit false

namespace Flom

def gintFits (value : Int) : Prop := -2 ^ 31 ≤ value ∧ value < 2 ^ 31

theorem int32_ofInt_toInt_iff (value : Int) : (Int32.ofInt value).toInt = value ↔
    gintFits value := by
  constructor
  · intro same
    have low := (Int32.ofInt value).le_toInt
    have high := (Int32.ofInt value).toInt_lt
    rw [same] at low high
    exact ⟨low, high⟩
  · rintro ⟨low, high⟩
    have size : (Int32.size : Int) = 4294967296 := rfl
    rw [Int32.toInt_ofInt]
    exact Int.bmod_eq_of_le (by omega) (by omega)

theorem int32_add_toInt {first second : Int32} (fits : gintFits (first.toInt + second.toInt)) :
    (first + second).toInt = first.toInt + second.toInt := by
  obtain ⟨low, high⟩ := fits
  rw [Int32.toInt_add]
  apply Int.bmod_eq_of_le <;> omega

theorem int32_sub_toInt {first second : Int32} (fits : gintFits (first.toInt - second.toInt)) :
    (first - second).toInt = first.toInt - second.toInt := by
  obtain ⟨low, high⟩ := fits
  rw [Int32.toInt_sub]
  apply Int.bmod_eq_of_le <;> omega

structure Slots (total locked : Int32) (held : Nat) : Prop where
  count : locked.toInt = held
  bound : (held : Int) ≤ max total.toInt 0

theorem Slots.free_iff {total locked : Int32} {held : Nat} (slots : Slots total locked held) :
    0 < total - locked ↔ (held : Int) < total.toInt := by
  have low := total.le_toInt
  have high := total.toInt_lt
  have count := slots.count
  have bound := slots.bound
  have subtracted : (total - locked).toInt = total.toInt - locked.toInt :=
    int32_sub_toInt ⟨by omega, by omega⟩
  rw [Int32.lt_iff_toInt_lt, subtracted, count, Int32.toInt_zero]
  omega

theorem Slots.take {total locked : Int32} {held : Nat} (slots : Slots total locked held)
    (free : 0 < total - locked) : Slots total (locked + 1) (held + 1) := by
  have high := total.toInt_lt
  have count := slots.count
  have room := slots.free_iff.mp free
  have one : (1 : Int32).toInt = 1 := rfl
  have added : (locked + 1).toInt = locked.toInt + (1 : Int32).toInt :=
    int32_add_toInt ⟨by omega, by omega⟩
  exact ⟨by rw [added, one, count]; rfl, by omega⟩

theorem Slots.release {total locked : Int32} {held : Nat} (slots : Slots total locked (held + 1)) :
    Slots total (locked - 1) held := by
  have high := total.toInt_lt
  have count := slots.count
  have bound := slots.bound
  have one : (1 : Int32).toInt = 1 := rfl
  have subtracted : (locked - 1).toInt = locked.toInt - (1 : Int32).toInt :=
    int32_sub_toInt ⟨by omega, by omega⟩
  exact ⟨by rw [subtracted, one, count]; omega, by omega⟩

theorem Slots.le {total locked : Int32} {held : Nat} (slots : Slots total locked held)
    (capacity : 0 ≤ total) :
    locked ≤ total := by
  have positive := Int32.le_iff_toInt_le.mp capacity
  have bound := slots.bound
  rw [Int32.toInt_zero] at positive
  rw [Int32.le_iff_toInt_le, slots.count]
  omega

theorem slots_init (total : Int32) : Slots total 0 0 := ⟨rfl, by simp⟩

end Flom
