import Mathlib.Data.List.Rotate
import Mathlib.Data.Nat.ModEq

/-!
# Windows of a circular buffer

The occupied part of a circular buffer: `count` places from `head` on, where
place 0 follows the last one.
-/

namespace SdDatabase.CircularWindow

set_option autoImplicit false

variable {A B : Type}

def window (slots : List A) (head count : Nat) : List A :=
  (slots.rotate head).take count

theorem window_get (slots : List A) (head count index : Nat) (inside : index < count)
    (fits : count ≤ slots.length) :
    (window slots head count)[index]? = slots[(index + head) % slots.length]? := by
  rw [window, List.getElem?_take_of_lt inside, List.getElem?_rotate (by omega)]

theorem length_window (slots : List A) (head count : Nat) (fits : count ≤ slots.length) :
    (window slots head count).length = count := by
  rw [window, List.length_take, List.length_rotate]
  exact Nat.min_eq_left fits

theorem map_window (f : A → B) (slots : List A) (head count : Nat) :
    (window slots head count).map f = window (slots.map f) head count := by
  rw [window, window, List.map_take, List.map_rotate]

theorem window_nodup (slots : List A) (head count : Nat) (distinct : slots.Nodup) :
    (window slots head count).Nodup :=
  (List.nodup_rotate.mpr distinct).sublist (List.take_sublist _ _)

theorem mem_of_mem_window {slots : List A} {head count : Nat} {item : A}
    (member : item ∈ window slots head count) : item ∈ slots :=
  List.mem_rotate.mp (List.mem_of_mem_take member)

theorem place_ne (size head first second : Nat) (order : first < second)
    (inside : second < size) : (first + head) % size ≠ (second + head) % size := by
  intro same
  have congruent : Nat.ModEq size first second := Nat.ModEq.add_right_cancel' head same
  have equal := Nat.ModEq.eq_of_lt_of_lt congruent (by omega) inside
  omega

theorem window_push (slots : List A) (head count : Nat) (item : A)
    (room : count < slots.length) :
    window (slots.set ((head + count) % slots.length) item) head (count + 1) =
      window slots head count ++ [item] := by
  have size : (slots.set ((head + count) % slots.length) item).length = slots.length :=
    List.length_set
  have place : (head + count) % slots.length < slots.length := Nat.mod_lt _ (by omega)
  apply List.ext_getElem?
  intro index
  by_cases old : index < count
  · have other : (head + count) % slots.length ≠ (index + head) % slots.length := by
      rw [Nat.add_comm head count]
      exact (place_ne slots.length head index count old room).symm
    rw [List.getElem?_append_left (by rw [length_window _ _ _ (by omega)]; exact old),
      window_get _ _ _ _ (by omega) (by omega), window_get _ _ _ _ old (by omega), size,
      List.getElem?_set_ne other]
  · have behind : (window slots head count).length ≤ index := by
      rw [length_window _ _ _ (by omega)]
      omega
    rw [List.getElem?_append_right behind, length_window _ _ _ (by omega)]
    by_cases last : index = count
    · rw [last, window_get _ _ _ _ (by omega) (by omega), size, Nat.add_comm count head,
        List.getElem?_set_self place, Nat.sub_self]
      rfl
    · have past : (window (slots.set ((head + count) % slots.length) item) head
          (count + 1)).length ≤ index := by
        rw [length_window _ _ _ (by omega)]
        omega
      rw [List.getElem?_eq_none past, List.getElem?_eq_none]
      simp only [List.length_singleton]
      omega

/-- The first place of a window with the window behind it. -/
theorem window_pop (slots : List A) (head count : Nat) (inside : head < slots.length)
    (fits : count + 1 ≤ slots.length) :
    window slots head (count + 1) =
      slots[head] :: window slots ((head + 1) % slots.length) count := by
  apply List.ext_getElem?
  intro index
  cases index with
  | zero =>
      rw [window_get _ _ _ _ (by omega) fits, Nat.zero_add, Nat.mod_eq_of_lt inside,
        List.getElem?_eq_getElem inside]
      rfl
  | succ index =>
      rw [List.getElem?_cons_succ]
      by_cases within : index < count
      · rw [window_get _ _ _ _ (by omega) fits, window_get _ _ _ _ within (by omega),
          Nat.add_mod_mod]
        congr 2
        omega
      · rw [List.getElem?_eq_none (by rw [length_window _ _ _ fits]; omega),
          List.getElem?_eq_none (by rw [length_window _ _ _ (by omega)]; omega)]

end SdDatabase.CircularWindow
