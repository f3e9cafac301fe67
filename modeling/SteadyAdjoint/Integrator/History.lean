import SteadyAdjoint.Linear.Matrix

/-!
# Solution histories

A solution history is the array of accepted states of a run, oldest first. With a storage
limit it keeps only the newest `max limit 1` states: `push` appends and then drops the oldest
states beyond the limit. Appending is amortised constant time, so a long run without a
limit costs linear time in its length.

The facts stated here: pushing appends to the list of retained states and, under a limit,
drops the oldest ones; the pushed state becomes current; and the history never holds more
states than its limit allows.
-/

namespace SteadyAdjoint.Integrator

/-- An accepted state: its time, its step number, the step that reached it, the state and its
time derivative (one column per direction), and the second derivative when known. -/
structure SolutionState (R : Type) where
  time : R
  index : Nat
  dt : R
  x : Matrix R
  xDot : Matrix R
  xDotDot : Option (Matrix R)

/-- The accepted states of a run, oldest first, and the storage limit. -/
structure History (R : Type) where
  limit : Option Nat
  states : Array (SolutionState R) := #[]

namespace History

variable {R : Type}

/-- The newest state. -/
def current (h : History R) : Option (SolutionState R) := h.states.back?

/-- The oldest retained state. -/
def oldest (h : History R) : Option (SolutionState R) := h.states[0]?

/-- The number of retained states. -/
def length (h : History R) : Nat := h.states.size

/-- The largest number of states kept under a limit. -/
def capacity : Option Nat → Option Nat
  | some l => some (max l 1)
  | none => none

/-- Appends a state and drops the oldest ones beyond the limit. -/
def push (h : History R) (s : SolutionState R) : History R :=
  let all := h.states.push s
  match capacity h.limit with
  | some cap =>
    if cap < all.size then { h with states := all.extract (all.size - cap) all.size }
    else { h with states := all }
  | none => { h with states := all }

/-- Forgets every state. -/
def clear (h : History R) : History R := { h with states := #[] }

/-- The retained states, oldest first. -/
def toList (h : History R) : List (SolutionState R) := h.states.toList

/-- The newest `n` states, oldest first. -/
def newest (h : History R) (n : Nat) : List (SolutionState R) := h.toList.drop (h.length - n)

/-- The current state is the last of the retained ones. -/
theorem current_eq_getLast? (h : History R) : h.current = h.toList.getLast? := by
  simp [current, toList]

@[simp] theorem toList_clear (h : History R) : h.clear.toList = [] := rfl

/-- Without a limit, pushing appends. -/
theorem toList_push_of_capacity_none (h : History R) (s : SolutionState R)
    (hc : capacity h.limit = none) : (h.push s).toList = h.toList ++ [s] := by
  unfold push toList
  rw [hc]
  simp

/-- Under a limit, pushing appends and then keeps the newest `cap` states. -/
theorem toList_push_of_capacity_some (h : History R) (s : SolutionState R) (cap : Nat)
    (hc : capacity h.limit = some cap) :
    (h.push s).toList = (h.toList ++ [s]).drop (h.length + 1 - cap) := by
  unfold push toList length
  rw [hc]
  simp only
  split
  · rw [Array.toList_extract, List.extract_eq_take_drop, List.take_of_length_le (by simp)]
    simp
  · rename_i hle
    simp only [Array.size_push] at hle
    simp [show h.states.size + 1 - cap = 0 by omega]

theorem current_push (h : History R) (s : SolutionState R) : (h.push s).current = some s := by
  unfold push current
  cases hc : capacity h.limit with
  | none => simp
  | some cap =>
    simp only
    split
    · rename_i hlt
      rw [← Array.getLast?_toList, Array.toList_extract, List.extract_eq_take_drop,
        List.take_of_length_le (by simp), List.getLast?_drop, Array.getLast?_toList]
      simp only [Array.length_toList, Array.size_push, Array.back?_push]
      have : ¬ (h.states.size + 1 ≤ h.states.size + 1 - cap) := by
        simp only [Array.size_push] at hlt
        have : 0 < cap := by
          cases hl : h.limit <;> simp_all [capacity]
          omega
        omega
      simp [this]
    · simp

theorem length_push_le (h : History R) (s : SolutionState R) (cap : Nat)
    (hc : capacity h.limit = some cap) : (h.push s).length ≤ cap := by
  unfold push length
  rw [hc]
  simp only
  split
  · simp only [Array.size_extract]
    omega
  · simp only [Array.size_push] at *
    omega

end History

end SteadyAdjoint.Integrator
