import SteadyAdjoint.Proofs.ExactMatrix
import SteadyAdjoint.Linear.Lu

/-!
# Exact solves with the LU factorisation

In exact arithmetic `Matrix.factor` computes a true factorisation `P · A = L · U`, and a solve
that succeeds returns a solution of the system.

The factorisation works in place on the row-major grid of the matrix. After `k` columns the
grid holds the multipliers of those columns below the diagonal, the finished rows of `U`
above, and the trailing block still to be eliminated; `Eliminated` says that these pieces
multiply back to the rows of `A` in the order of the swaps made so far. Each column keeps it:
a swap of two rows not yet finished, the elimination below a nonzero pivot, and the skip of a
column that is zero on and below the diagonal. The solve is then a permutation, forward
substitution with `L` and back substitution with `U`, each with an invariant of its own.

## Main statements

* `Grid.read_eliminate`, `Grid.read_swapRows`, `pivotRow_spec`: the steps of the elimination.
* `factor_eliminated`: the factorisation is `P · A = L · U`.
* `factor_solveColumn`: the solve of one column solves `A · x = c`.
* `Factors.mul_solve`: a solve that succeeds solves `A · X = B`.
-/

namespace SteadyAdjoint

open Finset

/-! ## §1 Loops over `0, …, N - 1` -/

/-- A property that holds before a loop over `0, …, N - 1`, and that every pass carries from
`k` to `k + 1`, holds after the loop. -/
theorem foldl_range_of_step {α : Type} (P : ℕ → α → Prop) {f : α → ℕ → α} {init : α} {N : ℕ}
    (h0 : P 0 init) (hstep : ∀ k acc, k < N → P k acc → P (k + 1) (f acc k)) :
    P N ((List.range N).foldl f init) := by
  suffices h : ∀ k ≤ N, P k ((List.range k).foldl f init) from h N le_rfl
  intro k hk
  induction k with
  | zero => exact h0
  | succ k ih =>
    rw [List.range_succ, List.foldl_append, List.foldl_cons, List.foldl_nil]
    exact hstep k _ hk (ih (Nat.le_of_succ_le hk))

/-- A loop whose passes keep the size of an array keeps it. -/
theorem size_foldl {β : Type} (l : List β) {f : Array ℝ → β → Array ℝ}
    (hf : ∀ a x, (f a x).size = a.size) (a : Array ℝ) : (l.foldl f a).size = a.size := by
  induction l generalizing a with
  | nil => rfl
  | cons x l ih => rw [List.foldl_cons, ih, hf]

/-! ## §2 Reading and writing the grid -/

namespace Grid

variable {n : ℕ}

/-- Cells of a row-major grid of width `n` with columns below `n` have distinct positions. -/
theorem index_eq_iff {i j i' j' : ℕ} (hj : j < n) (hj' : j' < n) :
    i * n + j = i' * n + j' ↔ i = i' ∧ j = j' := by
  constructor
  · intro h
    have hn : 0 < n := Nat.lt_of_le_of_lt (Nat.zero_le j) hj
    have hq := congrArg (· / n) h
    have hr := congrArg (· % n) h
    simp only [Nat.mul_comm _ n, Nat.mul_add_div hn, Nat.div_eq_of_lt hj, Nat.div_eq_of_lt hj',
      Nat.mul_add_mod, Nat.mod_eq_of_lt hj, Nat.mod_eq_of_lt hj', add_zero] at hq hr
    exact ⟨hq, hr⟩
  · rintro ⟨rfl, rfl⟩
    rfl

/-- A cell of an `n × n` grid lies inside its array. -/
theorem index_lt {i j : ℕ} (hi : i < n) (hj : j < n) : i * n + j < n * n := by
  have h : (i + 1) * n ≤ n * n := Nat.mul_le_mul_right n hi
  rw [Nat.succ_mul] at h
  omega

/-- A write changes its own cell and no other. -/
theorem read_write {a : Array ℝ} (ha : a.size = n * n) {i j : ℕ} (hi : i < n) (hj : j < n)
    (x : ℝ) (i' : ℕ) {j' : ℕ} (hj' : j' < n) :
    read (write a n i j x) n i' j' = if i' = i ∧ j' = j then x else read a n i' j' := by
  unfold read write
  rw [Array.getD_eq_getD_getElem?, Array.getD_eq_getD_getElem?, Array.getElem?_setIfInBounds]
  by_cases h : i' = i ∧ j' = j
  · obtain ⟨rfl, rfl⟩ := h
    simp [ha, index_lt hi hj]
  · have hne : ¬ i * n + j = i' * n + j' := fun e => by
      obtain ⟨h1, h2⟩ := (index_eq_iff hj hj').1 e
      exact h ⟨h1.symm, h2.symm⟩
    simp [h, hne]

/-- Writing column `c` of distinct rows, each from its own entries in columns `i` and `c`,
changes exactly those cells. -/
theorem read_foldl_write {i c : ℕ} (hi : i < n) (hc : c < n) (G : ℕ → ℝ → ℝ → ℝ)
    {l : List ℕ} (hl : l.Nodup) (hlt : ∀ r ∈ l, r < n) {a : Array ℝ} (ha : a.size = n * n)
    (r : ℕ) {j : ℕ} (hj : j < n) :
    read (l.foldl (fun a r => write a n r c (G r (read a n r i) (read a n r c))) a) n r j =
      if j = c ∧ r ∈ l then G r (read a n r i) (read a n r c) else read a n r j := by
  induction l generalizing a with
  | nil => simp
  | cons r0 l ih =>
    obtain ⟨hr0, hl'⟩ := List.nodup_cons.1 hl
    have hr0n : r0 < n := hlt r0 List.mem_cons_self
    rw [List.foldl_cons, ih hl' (fun r hr => hlt r (List.mem_cons_of_mem _ hr))
      (by rw [size_write, ha])]
    -- the write to row `r0` is seen in row `r0` only
    have hRead : ∀ j', j' < n →
        read (write a n r0 c (G r0 (read a n r0 i) (read a n r0 c))) n r j' =
          if r = r0 ∧ j' = c then G r0 (read a n r0 i) (read a n r0 c) else read a n r j' :=
      fun j' hj' => read_write ha hr0n hc _ r hj'
    rw [hRead i hi, hRead c hc, hRead j hj]
    by_cases hr : r ∈ l
    · have hne : r ≠ r0 := fun e => hr0 (e ▸ hr)
      simp [hr, hne]
    · by_cases hrr : r = r0
      · subst hrr
        by_cases hjc : j = c <;> simp [hr, hjc]
      · simp [hr, hrr]

/-- The rows updated below row `i`: `i + 1, …, n - 1`. -/
theorem mem_below {i r : ℕ} : r ∈ (List.range (n - i - 1)).map (i + 1 + ·) ↔ i < r ∧ r < n := by
  simp only [List.mem_map, List.mem_range]
  constructor
  · rintro ⟨k, hk, rfl⟩
    omega
  · rintro ⟨h1, h2⟩
    exact ⟨r - (i + 1), by omega, by omega⟩

theorem nodup_below (i : ℕ) : ((List.range (n - i - 1)).map (i + 1 + ·)).Nodup :=
  List.nodup_range.map fun _ _ h => Nat.add_left_cancel h

/-- The trailing update below row `i`, column after column: each column `c` of the rows in
`below` loses the multiple of row `i` given by the multiplier in column `i`. -/
theorem read_foldl_update {i : ℕ} (hi : i < n) {below : List ℕ} (hb : below.Nodup)
    (hbr : ∀ r ∈ below, i < r ∧ r < n) {ks : List ℕ} (hks : ks.Nodup)
    (hkn : ∀ k ∈ ks, i + 1 + k < n) {a : Array ℝ} (ha : a.size = n * n) (r : ℕ) {c : ℕ}
    (hc : c < n) :
    read (ks.foldl (fun a k => below.foldl (fun a' r => write a' n r (i + 1 + k)
        ((-read a n i (i + 1 + k)) * read a' n r i + read a' n r (i + 1 + k))) a) a) n r c =
      if r ∈ below ∧ (∃ k ∈ ks, c = i + 1 + k) then (-read a n i c) * read a n r i + read a n r c
      else read a n r c := by
  induction ks generalizing a with
  | nil => simp
  | cons k0 ks ih =>
    obtain ⟨hk0, hks'⟩ := List.nodup_cons.1 hks
    have hc0 : i + 1 + k0 < n := hkn k0 List.mem_cons_self
    have hbn : ∀ r ∈ below, r < n := fun r hr => (hbr r hr).2
    -- column `i + 1 + k0` first, by the column lemma
    have hCol := read_foldl_write hi hc0 (fun _ x y => (-read a n i (i + 1 + k0)) * x + y) hb hbn ha
    have hSize : (below.foldl (fun a' r => write a' n r (i + 1 + k0)
        ((-read a n i (i + 1 + k0)) * read a' n r i + read a' n r (i + 1 + k0))) a).size =
        n * n := by
      rw [size_foldl _ (fun a _ => size_write _ _ _ _ _), ha]
    rw [List.foldl_cons, ih hks' (fun k hk => hkn k (List.mem_cons_of_mem _ hk)) hSize]
    -- row `i` and column `i` are not written by it
    have hRow : ∀ c', c' < n → read (below.foldl (fun a' r => write a' n r (i + 1 + k0)
        ((-read a n i (i + 1 + k0)) * read a' n r i + read a' n r (i + 1 + k0))) a) n i c' =
        read a n i c' := fun c' hc' => by
      rw [hCol i hc']
      have : i ∉ below := fun h => (Nat.lt_irrefl i (hbr i h).1)
      simp [this]
    rw [hRow c hc, hCol r hi, hCol r hc]
    have hiC : ¬ i = i + 1 + k0 := by omega
    by_cases hcc : c = i + 1 + k0
    · subst hcc
      by_cases hr : r ∈ below <;> simp [hr, hk0]
    · have hIff : (∃ k ∈ k0 :: ks, c = i + 1 + k) ↔ ∃ k ∈ ks, c = i + 1 + k := by
        simp [hcc]
      simp only [hIff, hcc, hiC, false_and, if_false]

/-- **One elimination step** at column `i` with pivot `d`: the entries below the pivot become
the multipliers `a[r][i] / d`, the trailing block loses the multiples of row `i`, and every
other entry stays. -/
theorem read_eliminate {a : Array ℝ} (ha : a.size = n * n) {i : ℕ} (hi : i < n) (d : ℝ)
    (r : ℕ) {c : ℕ} (hc : c < n) :
    read (eliminate a n i d) n r c =
      if i < r ∧ r < n ∧ c = i then read a n r i * (1 / d)
      else if i < r ∧ r < n ∧ i < c then (-read a n i c) * (read a n r i * (1 / d)) + read a n r c
      else read a n r c := by
  unfold eliminate
  simp only [Scalar.numeral_real, Nat.cast_one]
  have hbr : ∀ r ∈ (List.range (n - i - 1)).map (i + 1 + ·), i < r ∧ r < n := fun r hr =>
    mem_below.1 hr
  have hbn : ∀ r ∈ (List.range (n - i - 1)).map (i + 1 + ·), r < n := fun r hr => (hbr r hr).2
  -- the multipliers first, by the column lemma with `c = i`
  have hScaled := read_foldl_write hi hi (fun _ x _ => x * (1 / d)) (nodup_below i) hbn ha
  have hSize : ((List.map (i + 1 + ·) (List.range (n - i - 1))).foldl
      (fun a r => write a n r i (read a n r i * (1 / d))) a).size = n * n := by
    rw [size_foldl _ (fun a _ => size_write _ _ _ _ _), ha]
  rw [read_foldl_update hi (nodup_below i) hbr List.nodup_range
    (fun k hk => by rw [List.mem_range] at hk; omega) hSize r hc]
  rw [hScaled i hc, hScaled r hi, hScaled r hc]
  have hiNot : i ∉ (List.range (n - i - 1)).map (i + 1 + ·) := fun h =>
    Nat.lt_irrefl i (mem_below.1 h).1
  have hCols : (∃ k ∈ List.range (n - i - 1), c = i + 1 + k) ↔ i < c := by
    simp only [List.mem_range]
    constructor
    · rintro ⟨k, _, rfl⟩
      omega
    · intro h
      exact ⟨c - (i + 1), by omega, by omega⟩
  simp only [hCols, mem_below, hiNot, true_and]
  by_cases h1 : i < r
  · by_cases h2 : r < n
    · by_cases hci : c = i
      · subst hci
        simp [h1, h2]
      · by_cases hic : i < c <;> simp [h1, h2, hci, hic]
    · simp [h1, h2]
  · simp [h1]

/-- **A row swap** exchanges rows `i` and `k`. -/
theorem read_swapRows {a : Array ℝ} (ha : a.size = n * n) {i k : ℕ} (hi : i < n) (hk : k < n)
    (r : ℕ) {j : ℕ} (hj : j < n) :
    read (swapRows a n i k) n r j = read a n (Equiv.swap i k r) j := by
  unfold swapRows
  -- column by column: the columns done are swapped, the others as they were
  suffices h : ∀ (js : List ℕ), js.Nodup → (∀ j ∈ js, j < n) → ∀ (a : Array ℝ), a.size = n * n →
      read (js.foldl (fun a j => write (write a n i j (read a n k j)) n k j (read a n i j)) a)
        n r j = if j ∈ js then read a n (Equiv.swap i k r) j else read a n r j by
    rw [h _ List.nodup_range (fun j hj => List.mem_range.1 hj) a ha]
    simp [hj]
  intro js hjs hjn
  induction js with
  | nil => simp
  | cons j0 js ih =>
    intro a ha
    obtain ⟨hj0, hjs'⟩ := List.nodup_cons.1 hjs
    have hj0n : j0 < n := hjn j0 List.mem_cons_self
    have hSize : (write (write a n i j0 (read a n k j0)) n k j0 (read a n i j0)).size = n * n := by
      rw [size_write, size_write, ha]
    rw [List.foldl_cons, ih hjs' (fun j hj => hjn j (List.mem_cons_of_mem _ hj)) _ hSize]
    -- after column `j0`, row `r` of it is row `swap i k r`, and other columns are unchanged
    have hRead : ∀ r' j', j' < n → read (write (write a n i j0 (read a n k j0)) n k j0
        (read a n i j0)) n r' j' = if j' = j0 then read a n (Equiv.swap i k r') j0
          else read a n r' j' := by
      intro r' j' hj'
      rw [read_write (by rw [size_write, ha]) hk hj0n _ r' hj', read_write ha hi hj0n _ r' hj',
        Equiv.swap_apply_def]
      by_cases hjj : j' = j0
      · subst hjj
        by_cases hrk : r' = k
        · subst hrk
          by_cases hki : r' = i
          · subst hki
            simp
          · simp [hki]
        · by_cases hri : r' = i
          · subst hri
            simp [hrk]
          · simp [hrk, hri]
      · simp [hjj]
    rw [hRead _ j hj, hRead r j hj]
    by_cases hjm : j ∈ js
    · have hne : j ≠ j0 := fun e => hj0 (e ▸ hjm)
      simp [hjm, hne]
    · by_cases hjj : j = j0
      · subst hjj
        simp [hjm]
      · simp [hjm, hjj]

theorem size_eliminate (a : Array ℝ) (i : ℕ) (d : ℝ) : (eliminate a n i d).size = a.size := by
  unfold eliminate
  rw [size_foldl _ (fun a _ => size_foldl _ (fun a _ => size_write _ _ _ _ _) a),
    size_foldl _ (fun a _ => size_write _ _ _ _ _)]

end Grid

open Grid

/-- **The pivot** of column `i` is a row at or below `i` whose entry has the largest
magnitude there. -/
theorem pivotRow_spec {n : ℕ} (a : Array ℝ) {i : ℕ} (hi : i < n) :
    i ≤ pivotRow a n i ∧ pivotRow a n i < n ∧
      ∀ r, i ≤ r → r < n → |read a n r i| ≤ |read a n (pivotRow a n i) i| := by
  have h : i ≤ pivotRow a n i ∧ pivotRow a n i ≤ i + (n - i - 1) ∧
      ∀ r, i ≤ r → r ≤ i + (n - i - 1) → |read a n r i| ≤ |read a n (pivotRow a n i) i| := by
    unfold pivotRow
    apply foldl_range_of_step (fun K best => i ≤ best ∧ best ≤ i + K ∧
      ∀ r, i ≤ r → r ≤ i + K → |read a n r i| ≤ |read a n best i|)
    · refine ⟨le_rfl, by omega, fun r h1 h2 => ?_⟩
      rw [show r = i by omega]
    · intro K best _ ⟨h1, h2, h3⟩
      dsimp only
      by_cases hLt : Scalar.abs (read a n best i) < Scalar.abs (read a n (i + 1 + K) i)
      · rw [if_pos hLt]
        simp only [Scalar.abs_real] at hLt
        refine ⟨by omega, by omega, fun r hr1 hr2 => ?_⟩
        by_cases hr : r ≤ i + K
        · exact (h3 r hr1 hr).trans hLt.le
        · rw [show r = i + 1 + K by omega]
      · rw [if_neg hLt]
        simp only [Scalar.abs_real, not_lt] at hLt
        refine ⟨h1, by omega, fun r hr1 hr2 => ?_⟩
        by_cases hr : r ≤ i + K
        · exact h3 r hr1 hr
        · rw [show r = i + 1 + K by omega]
          exact hLt
  obtain ⟨h1, h2, h3⟩ := h
  exact ⟨h1, by omega, fun r hr1 hr2 => h3 r hr1 (by omega)⟩

/-! ## §3 The rows of `P · A` -/

/-- The permutation of the rows made by the swaps in order: row `i` of `P · A` is row
`rowPerm swaps i` of `A`. -/
def rowPerm (swaps : List (ℕ × ℕ)) : Equiv.Perm ℕ := (swaps.map fun p => Equiv.swap p.1 p.2).prod

theorem rowPerm_cons (p : ℕ × ℕ) (swaps : List (ℕ × ℕ)) :
    rowPerm (p :: swaps) = Equiv.swap p.1 p.2 * rowPerm swaps := by
  simp [rowPerm]

theorem rowPerm_append (swaps : List (ℕ × ℕ)) (p : ℕ × ℕ) :
    rowPerm (swaps ++ [p]) = rowPerm swaps * Equiv.swap p.1 p.2 := by
  simp [rowPerm, List.prod_append]

section Rows

variable {n : ℕ} {swaps : List (ℕ × ℕ)}

/-- Swaps of rows below `n` leave the rows from `n` on in place. -/
theorem rowPerm_of_le (hs : ∀ p ∈ swaps, p.1 < n ∧ p.2 < n) {r : ℕ} (hr : n ≤ r) :
    rowPerm swaps r = r := by
  induction swaps with
  | nil => rfl
  | cons p swaps ih =>
    have hp := hs p List.mem_cons_self
    rw [rowPerm_cons, Equiv.Perm.mul_apply, ih (fun q hq => hs q (List.mem_cons_of_mem _ hq))]
    exact Equiv.swap_apply_of_ne_of_ne (by omega) (by omega)

/-- Swaps of rows below `n` permute the rows below `n`. -/
theorem rowPerm_lt (hs : ∀ p ∈ swaps, p.1 < n ∧ p.2 < n) {r : ℕ} (hr : r < n) :
    rowPerm swaps r < n := by
  by_contra h
  have hFix := rowPerm_of_le hs (not_lt.1 h)
  rw [(rowPerm swaps).injective hFix] at h
  exact h hr

theorem rowPerm_symm_lt (hs : ∀ p ∈ swaps, p.1 < n ∧ p.2 < n) {r : ℕ} (hr : r < n) :
    (rowPerm swaps).symm r < n := by
  by_contra h
  have hFix := rowPerm_of_le hs (not_lt.1 h)
  rw [Equiv.apply_symm_apply] at hFix
  rw [← hFix] at h
  exact h hr

end Rows

/-- Entry `(m, j)` of the upper factor after `k` columns: the finished rows above `k` from
their diagonal on, and the trailing block from column `k` on in the rows still to come. -/
def upperAt (a : ℕ → ℕ → ℝ) (k m j : ℕ) : ℝ :=
  if m < k then (if m ≤ j then a m j else 0) else if k ≤ j then a m j else 0

/-- The grid `a` after `k` columns of the elimination of the `n × n` matrix `A`, with the swaps
made so far: every row of `P · A` is the combination of the rows of the upper part with the
multipliers of its own row in the first `k` columns. -/
structure Eliminated (A : ℕ → ℕ → ℝ) (n k : ℕ) (a : ℕ → ℕ → ℝ) (swaps : List (ℕ × ℕ)) :
    Prop where
  swaps_lt : ∀ p ∈ swaps, p.1 < n ∧ p.2 < n
  row_eq : ∀ i j, i < n → j < n →
    A (rowPerm swaps i) j = ∑ m ∈ range (min i k), a i m * upperAt a k m j + upperAt a k i j

namespace Eliminated

variable {A : ℕ → ℕ → ℝ} {n k : ℕ} {a : ℕ → ℕ → ℝ} {swaps : List (ℕ × ℕ)}

/-- Before the first column the grid is the matrix itself. -/
theorem start (hA : ∀ i j, i < n → j < n → a i j = A i j) : Eliminated A n 0 a [] := by
  refine ⟨by simp, fun i j hi hj => ?_⟩
  simp [upperAt, rowPerm, hA i j hi hj]

/-- The finished rows of the upper part do not depend on the columns eliminated after them. -/
theorem upperAt_of_lt {a a' : ℕ → ℕ → ℝ} {k k' m j : ℕ} (hm : m < k) (hm' : m < k')
    (ha : m ≤ j → a' m j = a m j) : upperAt a' k' m j = upperAt a k m j := by
  by_cases hmj : m ≤ j <;> simp [upperAt, hm, hm', hmj, ha]

/-- **A swap of two rows at or below `k`** before column `k` is eliminated keeps the
invariant, with the swap recorded. -/
theorem swap (h : Eliminated A n k a swaps) (hk : k < n) {p : ℕ} (hkp : k ≤ p) (hp : p < n)
    (a' : ℕ → ℕ → ℝ) (ha' : ∀ r j, r < n → j < n → a' r j = a (Equiv.swap k p r) j) :
    Eliminated A n k a' (swaps ++ [(k, p)]) := by
  refine ⟨fun q hq => ?_, fun i j hi hj => ?_⟩
  · rcases List.mem_append.1 hq with hq | hq
    · exact h.swaps_lt q hq
    · rw [List.mem_singleton] at hq
      subst hq
      exact ⟨hk, hp⟩
  · -- the rows above `k` stay where they are
    have hFix : ∀ m, m < k → Equiv.swap k p m = m := fun m hm =>
      Equiv.swap_apply_of_ne_of_ne (by omega) (by omega)
    have hUpper : ∀ m, m < k → upperAt a' k m j = upperAt a k m j := fun m hm =>
      upperAt_of_lt hm hm fun _ => by rw [ha' m j (by omega) hj, hFix m hm]
    have hτ : Equiv.swap k p i < n := by
      rw [Equiv.swap_apply_def]
      split_ifs <;> omega
    rw [rowPerm_append, Equiv.Perm.mul_apply, h.row_eq _ j hτ hj]
    by_cases hik : i < k
    · rw [hFix i hik, hUpper i hik]
      refine congrArg (· + upperAt a k i j) (sum_congr rfl fun m hm => ?_)
      have hm' : m < k := lt_of_lt_of_le (mem_range.1 hm) (min_le_right i k)
      rw [hUpper m hm', ha' i m hi (by omega), hFix i hik]
    · -- a row at or below `k` is the row it was swapped with
      have hτk : k ≤ Equiv.swap k p i := by
        rw [Equiv.swap_apply_def]
        split_ifs <;> omega
      rw [min_eq_right (not_lt.1 hik), min_eq_right hτk]
      have hLast : upperAt a' k i j = upperAt a k (Equiv.swap k p i) j := by
        simp [upperAt, hik, not_lt.2 hτk, ha' i j hi hj]
      rw [hLast]
      refine congrArg (· + upperAt a k (Equiv.swap k p i) j) (sum_congr rfl fun m hm => ?_)
      have hm' : m < k := mem_range.1 hm
      rw [hUpper m hm', ha' i m hi (by omega)]

/-- **A column that is zero on and below the diagonal** is skipped: the invariant holds one
column further without any change. -/
theorem skip (h : Eliminated A n k a swaps) (hk : k < n)
    (hZero : ∀ r, k ≤ r → r < n → a r k = 0) : Eliminated A n (k + 1) a swaps := by
  refine ⟨h.swaps_lt, fun i j hi hj => ?_⟩
  have hUpper : ∀ m, m < k → upperAt a (k + 1) m j = upperAt a k m j := fun m hm =>
    upperAt_of_lt hm (by omega) fun _ => rfl
  rw [h.row_eq i j hi hj]
  by_cases hik : i ≤ k
  · rw [min_eq_left hik, min_eq_left (by omega)]
    have hLast : upperAt a (k + 1) i j = upperAt a k i j := by
      by_cases hi' : i < k
      · exact hUpper i hi'
      · have : i = k := by omega
        subst this
        simp [upperAt]
    rw [hLast]
    refine congrArg (· + upperAt a k i j) (sum_congr rfl fun m hm => ?_)
    rw [hUpper m (by have := mem_range.1 hm; omega)]
  · -- a row below `k`: its multiplier in column `k` is zero
    rw [min_eq_right (by omega), min_eq_right (by omega), sum_range_succ,
      hZero i (by omega) hi, zero_mul, add_zero]
    have hLast : upperAt a (k + 1) i j = upperAt a k i j := by
      by_cases hjk : j = k
      · subst hjk
        simp [upperAt, hik, hZero i (by omega) hi]
      · have h1 : ¬ i < k + 1 := by omega
        have h2 : ¬ i < k := by omega
        by_cases hkj : k ≤ j
        · simp [upperAt, h1, h2, hkj, show k + 1 ≤ j by omega]
        · simp [upperAt, h1, h2, hkj, show ¬ k + 1 ≤ j by omega]
    rw [hLast]
    refine congrArg (· + upperAt a k i j) (sum_congr rfl fun m hm => ?_)
    rw [hUpper m (mem_range.1 hm)]

/-- **The elimination of column `k` below a nonzero pivot** keeps the invariant one column
further: the multiplier `a[r][k] / a[k][k]` times row `k` is what row `r` loses. -/
theorem eliminate (h : Eliminated A n k a swaps) (hk : k < n) (hPivot : a k k ≠ 0)
    {a' : ℕ → ℕ → ℝ} (ha' : ∀ r c, c < n → a' r c =
      if k < r ∧ r < n ∧ c = k then a r k * (1 / a k k)
      else if k < r ∧ r < n ∧ k < c then (-a k c) * (a r k * (1 / a k k)) + a r c
      else a r c) :
    Eliminated A n (k + 1) a' swaps := by
  refine ⟨h.swaps_lt, fun i j hi hj => ?_⟩
  -- rows at or above `k` are not touched
  have hRow : ∀ r c, r ≤ k → c < n → a' r c = a r c := fun r c hr hc => by
    rw [ha' r c hc, if_neg (by omega), if_neg (by omega)]
  have hUpper : ∀ m, m < k → upperAt a' (k + 1) m j = upperAt a k m j := fun m hm =>
    upperAt_of_lt hm (by omega) fun _ => hRow m j (by omega) hj
  rw [h.row_eq i j hi hj]
  by_cases hik : i ≤ k
  · rw [min_eq_left hik, min_eq_left (by omega)]
    have hLast : upperAt a' (k + 1) i j = upperAt a k i j := by
      by_cases hi' : i < k
      · exact hUpper i hi'
      · have : i = k := by omega
        subst this
        simp [upperAt, hRow i j le_rfl hj]
    rw [hLast]
    refine congrArg (· + upperAt a k i j) (sum_congr rfl fun m hm => ?_)
    have hm := mem_range.1 hm
    rw [hUpper m (by omega), hRow i m hik (by omega)]
  · -- a row below `k` gains the multiple of row `k` and loses it again in the trailing block
    rw [min_eq_right (by omega), min_eq_right (by omega), sum_range_succ]
    have hSum : ∑ m ∈ range k, a' i m * upperAt a' (k + 1) m j =
        ∑ m ∈ range k, a i m * upperAt a k m j := by
      refine sum_congr rfl fun m hm => ?_
      have hm := mem_range.1 hm
      rw [hUpper m hm, ha' i m (by omega), if_neg (by omega), if_neg (by omega)]
    rw [hSum, add_assoc]
    refine congrArg (_ + ·) ?_
    have hMult : a' i k = a i k * (1 / a k k) := by
      rw [ha' i k hk, if_pos ⟨by omega, hi, rfl⟩]
    have hRowK : upperAt a' (k + 1) k j = if k ≤ j then a k j else 0 := by
      simp [upperAt, hRow k j le_rfl hj]
    rw [hMult, hRowK]
    have h1 : ¬ i < k + 1 := by omega
    have h2 : ¬ i < k := by omega
    rcases lt_trichotomy j k with hjk | rfl | hjk
    · simp [upperAt, h1, h2, not_le.2 hjk, show ¬ k + 1 ≤ j by omega]
    · simp only [upperAt, h1, h2, le_refl, if_true, if_false, show ¬ j + 1 ≤ j by omega, add_zero]
      field_simp
    · have hj' := ha' i j hj
      rw [if_neg (by omega), if_pos ⟨by omega, hi, hjk⟩] at hj'
      simp only [upperAt, h1, h2, hjk.le, show k + 1 ≤ j by omega, if_true, if_false, hj']
      ring

end Eliminated

/-! ## §4 The factorisation -/

/-- **The factorisation is `P · A = L · U`**: after all columns the grid of `Matrix.factor`
holds the multipliers of `L` below the diagonal and `U` on and above it, and the swaps give
`P`. -/
theorem factor_eliminated (m : Matrix ℝ) (hsq : m.cols = m.rows) :
    ∃ data : Array ℝ, data.size = m.rows * m.rows ∧
      m.factor.lu = Matrix.ofFn m.rows m.rows (fun i j => read data m.rows i j) ∧
      Eliminated m.get m.rows m.rows (read data m.rows) m.factor.swaps := by
  unfold Matrix.factor
  dsimp only
  generalize hLoop : List.foldl _ (m.data, []) (List.range m.rows) = st
  have hInv : st.1.size = m.rows * m.rows ∧
      Eliminated m.get m.rows m.rows (read st.1 m.rows) st.2 := by
    rw [← hLoop]
    apply foldl_range_of_step (fun k (st : Array ℝ × List (ℕ × ℕ)) =>
      st.1.size = m.rows * m.rows ∧ Eliminated m.get m.rows k (read st.1 m.rows) st.2)
    · refine ⟨by rw [m.size_eq, hsq], Eliminated.start fun i j _ _ => ?_⟩
      simp only [Grid.read, Matrix.get, hsq]
    · rintro k ⟨a, swaps⟩ hk ⟨hSize, hElim⟩
      dsimp only at hSize hElim ⊢
      obtain ⟨hpk, hpn, hMax⟩ := pivotRow_spec (n := m.rows) a hk
      split_ifs with hZero hDiag
      · -- no nonzero entry on or below the diagonal: the column is skipped
        have hz : read a m.rows (pivotRow a m.rows k) k = 0 := by simpa using hZero
        refine ⟨hSize, hElim.skip hk fun r hr1 hr2 => ?_⟩
        have h := hMax r hr1 hr2
        rw [hz, abs_zero] at h
        exact abs_eq_zero.1 (le_antisymm h (abs_nonneg _))
      · -- the pivot is on the diagonal: no swap
        have hPivot : read a m.rows k k ≠ 0 := by
          rw [hDiag] at hZero
          simpa using hZero
        rw [hDiag]
        exact ⟨by rw [size_eliminate, hSize], hElim.eliminate hk hPivot fun r c hc =>
          read_eliminate hSize hk _ r hc⟩
      · -- the pivot row is swapped up first
        set piv := pivotRow a m.rows k
        have hSwapped := hElim.swap hk hpk hpn (read (swapRows a m.rows k piv) m.rows)
          fun r j _ hj => read_swapRows hSize hk hpn r hj
        have hSize' : (swapRows a m.rows k piv).size = m.rows * m.rows := by
          rw [size_swapRows, hSize]
        have hd : read a m.rows piv k = read (swapRows a m.rows k piv) m.rows k k := by
          rw [read_swapRows hSize hk hpn k hk, Equiv.swap_apply_left]
        have hPivot : read (swapRows a m.rows k piv) m.rows k k ≠ 0 := by
          rw [← hd]
          simpa using hZero
        rw [hd]
        exact ⟨by rw [size_eliminate, hSize'], hSwapped.eliminate hk hPivot fun r c hc =>
          read_eliminate hSize' hk _ r hc⟩
  obtain ⟨data, swaps⟩ := st
  exact ⟨data, hInv.1, rfl, hInv.2⟩

/-! ## §5 Permutation and substitution in one column -/

/-- Writing distinct positions of an array, each from its own old entry, changes exactly
those positions. -/
theorem getD_foldl_set (idx : ℕ → ℕ) (hidx : Function.Injective idx) (g : ℕ → ℝ → ℝ)
    {l : List ℕ} (hl : l.Nodup) (b : Array ℝ) (r : ℕ) :
    (l.foldl (fun b k => b.setIfInBounds (idx k) (g (idx k) (b.getD (idx k) 0))) b).getD r 0 =
      if r < b.size ∧ ∃ k ∈ l, idx k = r then g r (b.getD r 0) else b.getD r 0 := by
  induction l generalizing b with
  | nil => simp
  | cons k0 l ih =>
    obtain ⟨hk0, hl'⟩ := List.nodup_cons.1 hl
    rw [List.foldl_cons, ih hl', Array.size_setIfInBounds]
    -- the write at `idx k0` is seen there only
    have hSet : ∀ q, (b.setIfInBounds (idx k0) (g (idx k0) (b.getD (idx k0) 0))).getD q 0 =
        if q = idx k0 ∧ q < b.size then g q (b.getD q 0) else b.getD q 0 := by
      intro q
      rw [Array.getD_eq_getD_getElem?, Array.getElem?_setIfInBounds, Array.getD_eq_getD_getElem?]
      by_cases hq : q = idx k0
      · subst hq
        by_cases hlt : idx k0 < b.size
        · simp [hlt]
        · simp [hlt]
      · simp [hq, Ne.symm hq]
    rw [hSet r]
    by_cases hr0 : r = idx k0
    · subst hr0
      have hNot : ¬ ∃ k ∈ l, idx k = idx k0 := fun ⟨k, hk, e⟩ => hk0 (hidx e ▸ hk)
      simp [hNot]
    · simp [hr0, Ne.symm hr0]

/-- **The swaps applied to a column** put entry `rowPerm swaps r` in row `r`. -/
theorem getD_permuteColumn (swaps : List (ℕ × ℕ)) {b : Array ℝ}
    (hs : ∀ p ∈ swaps, p.1 < b.size ∧ p.2 < b.size) {r : ℕ} (hr : r < b.size) :
    (permuteColumn swaps b).getD r 0 = b.getD (rowPerm swaps r) 0 ∧
      (permuteColumn swaps b).size = b.size := by
  unfold permuteColumn
  simp only [Scalar.numeral_real, Nat.cast_zero]
  induction swaps generalizing b with
  | nil => simp [rowPerm]
  | cons p swaps ih =>
    obtain ⟨i, k⟩ := p
    obtain ⟨hi, hk⟩ := hs (i, k) List.mem_cons_self
    rw [List.foldl_cons]
    dsimp only
    have hSize : ((b.setIfInBounds i (b.getD k 0)).setIfInBounds k (b.getD i 0)).size = b.size := by
      simp
    obtain ⟨hEntry, hSize'⟩ :=
      ih (b := (b.setIfInBounds i (b.getD k 0)).setIfInBounds k (b.getD i 0))
      (fun q hq => hSize ▸ hs q (List.mem_cons_of_mem _ hq)) (hSize ▸ hr)
    refine ⟨?_, hSize'.trans hSize⟩
    rw [hEntry, rowPerm_cons, Equiv.Perm.mul_apply]
    -- one swap of two entries
    have hq : rowPerm swaps r < b.size := by
      rw [← hSize]
      exact rowPerm_lt (fun q hq => hSize ▸ hs q (List.mem_cons_of_mem _ hq)) (hSize ▸ hr)
    generalize rowPerm swaps r = q at hq
    simp only [Array.getD_eq_getD_getElem?, Array.getElem?_setIfInBounds, Array.size_setIfInBounds,
      Equiv.swap_apply_def]
    by_cases hqk : k = q
    · subst hqk
      by_cases hik : i = k
      · subst hik
        simp [hi]
      · simp [hi, hk, Ne.symm hik]
    · by_cases hqi : i = q
      · subst hqi
        simp [hi, hqk]
      · simp [hqk, hqi, Ne.symm hqk, Ne.symm hqi]

/-- One pass of forward substitution with the unknown `k`: the rows below `k` lose the unknown
times their multiplier in column `k`, and the other rows are kept. -/
theorem getD_forwardPass (lu : Matrix ℝ) {b : Array ℝ} (hb : b.size = lu.rows) (k r : ℕ) :
    ((List.range (lu.rows - k - 1)).foldl (fun b' q => b'.setIfInBounds (k + 1 + q)
        (-b.getD k 0 * lu.get (k + 1 + q) k + b'.getD (k + 1 + q) 0)) b).getD r 0 =
      if k < r ∧ r < lu.rows then -b.getD k 0 * lu.get r k + b.getD r 0 else b.getD r 0 := by
  have hNew := getD_foldl_set (fun q => k + 1 + q) (fun _ _ h => Nat.add_left_cancel h)
    (fun r v => -b.getD k 0 * lu.get r k + v) (List.nodup_range (n := lu.rows - k - 1)) b r
  beta_reduce at hNew
  -- the rows written are exactly those below `k`
  have hBelow : (r < b.size ∧ ∃ q ∈ List.range (lu.rows - k - 1), k + 1 + q = r) ↔
      k < r ∧ r < lu.rows := by
    simp only [List.mem_range, hb]
    constructor
    · rintro ⟨h1, q, hq, rfl⟩
      omega
    · rintro ⟨h1, h2⟩
      exact ⟨h2, r - (k + 1), by omega, by omega⟩
  simpa only [hBelow] using hNew

/-- One pass of back substitution at row `i`: the row takes `coeff`, the rows above lose
`coeff` times their entry in column `i`, and the rows below are kept. -/
theorem getD_backPass (lu : Matrix ℝ) {b : Array ℝ} (hb : b.size = lu.rows) {i : ℕ}
    (hi : i < lu.rows) (coeff : ℝ) (r : ℕ) :
    ((List.range i).foldl (fun b' r => b'.setIfInBounds r (-coeff * lu.get r i + b'.getD r 0))
        (b.setIfInBounds i coeff)).getD r 0 =
      if r < i then -coeff * lu.get r i + b.getD r 0 else if r = i then coeff else b.getD r 0 := by
  have h := getD_foldl_set (fun q => q) (fun _ _ h => h)
    (fun r v => -coeff * lu.get r i + v) (List.nodup_range (n := i)) (b.setIfInBounds i coeff) r
  beta_reduce at h
  rw [h]
  simp only [Array.size_setIfInBounds, List.mem_range, exists_eq_right, hb]
  simp only [Array.getD_eq_getD_getElem?, Array.getElem?_setIfInBounds]
  by_cases hri : r < i
  · simp [hri, show r < lu.rows by omega, show i ≠ r by omega]
  · by_cases hr : r = i
    · subst hr
      simp [hb, hi]
    · simp [hri, hr, Ne.symm hr]

/-- **Forward substitution** solves `L · w = c` with the unit lower factor of `lu`. -/
theorem forwardColumn_spec (lu : Matrix ℝ) {c : Array ℝ} (hc : c.size = lu.rows) :
    (forwardColumn lu c).size = lu.rows ∧ ∀ r, r < lu.rows →
      (forwardColumn lu c).getD r 0 + ∑ m ∈ range r, lu.get r m * (forwardColumn lu c).getD m 0 =
        c.getD r 0 := by
  unfold forwardColumn
  simp only [Scalar.numeral_real, Nat.cast_zero]
  generalize hLoop : List.foldl _ c (List.range (lu.rows - 1)) = w
  -- after the columns `0, …, k - 1`, the rows below `k` have lost their first `k` terms
  have hInv : w.size = lu.rows ∧ ∀ r, r < lu.rows →
      w.getD r 0 = c.getD r 0 - ∑ m ∈ range (min r (lu.rows - 1)), lu.get r m * w.getD m 0 := by
    rw [← hLoop]
    apply foldl_range_of_step (fun k (b : Array ℝ) => b.size = lu.rows ∧ ∀ r, r < lu.rows →
      b.getD r 0 = c.getD r 0 - ∑ m ∈ range (min r k), lu.get r m * b.getD m 0)
    · exact ⟨hc, fun r _ => by simp⟩
    · intro k b hk ⟨hSize, hRows⟩
      set b' := List.foldl (fun b_1 q => b_1.setIfInBounds (k + 1 + q)
        (-b.getD k 0 * lu.get (k + 1 + q) k + b_1.getD (k + 1 + q) 0)) b
        (List.range (lu.rows - k - 1))
      have hNew : ∀ r, b'.getD r 0 =
          if k < r ∧ r < lu.rows then -b.getD k 0 * lu.get r k + b.getD r 0 else b.getD r 0 :=
        getD_forwardPass lu hSize k
      refine ⟨by rw [size_foldl _ (fun _ _ => Array.size_setIfInBounds), hSize], fun r hr => ?_⟩
      -- the pass writes only below row `k`: the unknowns up to `k`, and sums over them, stay
      have hKeep : ∀ m, m ≤ k → b'.getD m 0 = b.getD m 0 := fun m hm => by
        rw [hNew m, if_neg (by omega)]
      have hKeptSum : ∀ j, j ≤ k + 1 → ∑ m ∈ range j, lu.get r m * b'.getD m 0 =
          ∑ m ∈ range j, lu.get r m * b.getD m 0 := fun j hj =>
        sum_congr rfl fun m hm => by rw [hKeep m (by have := mem_range.1 hm; omega)]
      by_cases hrk : r ≤ k
      · rw [hKeep r hrk, hRows r hr, min_eq_left hrk, min_eq_left (show r ≤ k + 1 by omega),
          hKeptSum r (by omega)]
      · rw [hNew r, if_pos ⟨by omega, hr⟩, hRows r hr, min_eq_right (by omega),
          min_eq_right (by omega), sum_range_succ, hKeep k le_rfl, hKeptSum k (by omega)]
        ring
  refine ⟨hInv.1, fun r hr => ?_⟩
  rw [hInv.2 r hr, min_eq_left (by omega)]
  ring

/-- **Back substitution** solves `U · x = w` with the upper factor of `lu`: it succeeds only
when no diagonal entry of `U` is zero, and then each row of `U · x` is the entry of `w`. -/
theorem backColumn_spec (lu : Matrix ℝ) {w x : Array ℝ} (hw : w.size = lu.rows)
    (h : backColumn lu w = some x) :
    x.size = lu.rows ∧ ∀ r, r < lu.rows →
      ∑ m ∈ Ico r lu.rows, lu.get r m * x.getD m 0 = w.getD r 0 := by
  -- after the rows `n - 1, …, n - k`: those rows are solved, and the rows above have lost the
  -- terms of the solved unknowns
  suffices hInv : x.size = lu.rows ∧ ∀ r, r < lu.rows →
      (r + lu.rows < lu.rows → x.getD r 0 =
        w.getD r 0 - ∑ m ∈ Ico (lu.rows - lu.rows) lu.rows, lu.get r m * x.getD m 0) ∧
      (lu.rows ≤ r + lu.rows → ∑ m ∈ Ico r lu.rows, lu.get r m * x.getD m 0 = w.getD r 0) from
    ⟨hInv.1, fun r hr => (hInv.2 r hr).2 (by omega)⟩
  revert x
  unfold backColumn
  simp only [Scalar.numeral_real, Nat.cast_zero]
  apply foldl_range_of_step (fun k (ob : Option (Array ℝ)) => ∀ b, ob = some b →
    b.size = lu.rows ∧ ∀ r, r < lu.rows →
      (r + k < lu.rows → b.getD r 0 =
        w.getD r 0 - ∑ m ∈ Ico (lu.rows - k) lu.rows, lu.get r m * b.getD m 0) ∧
      (lu.rows ≤ r + k → ∑ m ∈ Ico r lu.rows, lu.get r m * b.getD m 0 = w.getD r 0))
  · intro b hb
    cases hb
    exact ⟨hw, fun r hr => ⟨fun _ => by simp, fun h => absurd h (by omega)⟩⟩
  · intro k ob hk hOb b' hb'
    rw [Option.bind_eq_some_iff] at hb'
    obtain ⟨b, rfl, hb'⟩ := hb'
    obtain ⟨hSize, hRows⟩ := hOb b rfl
    split_ifs at hb' with hDiag
    cases hb'
    set i := lu.rows - 1 - k with hi
    have hPivot : lu.get i i ≠ 0 := by simpa using hDiag
    set coeff := b.getD i 0 / lu.get i i with hCoeff
    set b' := List.foldl (fun b_1 r => b_1.setIfInBounds r (-coeff * lu.get r i + b_1.getD r 0))
      (b.setIfInBounds i coeff) (List.range i)
    -- the new entries: row `i` solved, the rows above updated, the rows below kept
    have hNew : ∀ r, b'.getD r 0 =
        if r < i then -coeff * lu.get r i + b.getD r 0
        else if r = i then coeff else b.getD r 0 :=
      getD_backPass lu hSize (by omega) coeff
    -- so every sum over the unknowns below row `i` is as it was
    have hSolved : ∀ r j, i < j → ∑ m ∈ Ico j lu.rows, lu.get r m * b'.getD m 0 =
        ∑ m ∈ Ico j lu.rows, lu.get r m * b.getD m 0 := fun r j hj =>
      sum_congr rfl fun m hm => by
        have := mem_Ico.1 hm
        rw [hNew m, if_neg (by omega), if_neg (by omega)]
    refine ⟨by rw [size_foldl _ (fun _ _ => Array.size_setIfInBounds), Array.size_setIfInBounds,
      hSize], fun r hr => ⟨fun hrk => ?_, fun hrk => ?_⟩⟩
    · -- a row above `i`: it loses the term of the unknown `i`
      have hAbove := (hRows r hr).1 (by omega)
      rw [hNew r, if_pos (by omega), hAbove,
        sum_eq_sum_Ico_succ_bot (show lu.rows - (k + 1) < lu.rows by omega),
        show lu.rows - (k + 1) = i by omega, show i + 1 = lu.rows - k by omega, hNew i,
        if_neg (lt_irrefl i), if_pos rfl, hSolved r _ (by omega)]
      ring
    · by_cases hri : r = i
      · -- row `i` itself: its unknown is the entry over the pivot
        subst hri
        have hRow := (hRows i hr).1 (by omega)
        have hCancel : lu.get i i * coeff = b.getD i 0 := by
          rw [hCoeff]
          field_simp
        rw [sum_eq_sum_Ico_succ_bot hr, hNew i, if_neg (lt_irrefl i), if_pos rfl,
          hSolved i _ (by omega), show i + 1 = lu.rows - k by omega, hCancel, hRow]
        ring
      · -- a row below `i` was solved before and keeps its unknowns
        rw [hSolved r r (by omega)]
        exact (hRows r hr).2 (by omega)

/-! ## §6 The solve -/

/-- A column of a matrix holds its entries. -/
theorem getD_col (m : Matrix ℝ) (j : ℕ) {r : ℕ} (hr : r < m.rows) :
    (m.col j).getD r 0 = m.get r j := by
  simp [Matrix.col, Array.getD_eq_getD_getElem?, hr]

/-- Every value of a `mapM` in `Option` that succeeds is the value at its index. -/
theorem mapM_eq_some {β : Type} {g : ℕ → Option β} (d : β) :
    ∀ {l : List ℕ} {cs : List β}, l.mapM g = some cs →
      ∀ i (hi : i < l.length), g l[i] = some (cs.getD i d)
  | [], _, _, i, hi => absurd hi (by simp)
  | a :: l, cs, h, i, hi => by
    rw [List.mapM_cons] at h
    simp only [bind, pure, Option.bind_eq_some_iff, Option.some.injEq] at h
    obtain ⟨x, hx, xs, hxs, rfl⟩ := h
    cases i with
    | zero => exact hx
    | succ i => exact mapM_eq_some d hxs i (by simpa using hi)

/-- A finished row of the upper factor, summed against `f`, is the sum from its diagonal on. -/
theorem sum_upperAt {a : ℕ → ℕ → ℝ} {n q : ℕ} (hq : q < n) (f : ℕ → ℝ) :
    ∑ k ∈ range n, upperAt a n q k * f k = ∑ k ∈ Ico q n, a q k * f k := by
  have hFilter : (range n).filter (fun k => q ≤ k) = Ico q n := by
    ext k
    simp only [mem_filter, mem_range, mem_Ico]
    omega
  rw [← hFilter, sum_filter]
  exact sum_congr rfl fun k _ => by by_cases hk : q ≤ k <;> simp [upperAt, hq, hk]

/-- **`L · U` against both triangular solves**: when `w` solves `L · w = p` and `x` solves
`U · x = w` on the grid after all columns, row `i` of `P · A` against `x` gives `p i`. -/
theorem Eliminated.sum_mul_eq {A a : ℕ → ℕ → ℝ} {n : ℕ} {swaps : List (ℕ × ℕ)}
    (hElim : Eliminated A n n a swaps) {p w x : ℕ → ℝ}
    (hForward : ∀ i, i < n → w i + ∑ q ∈ range i, a i q * w q = p i)
    (hBack : ∀ q, q < n → ∑ k ∈ Ico q n, a q k * x k = w q) {i : ℕ} (hi : i < n) :
    ∑ k ∈ range n, A (rowPerm swaps i) k * x k = p i := by
  have hUpper : ∀ q, q < n → ∑ k ∈ range n, upperAt a n q k * x k = w q := fun q hq => by
    rw [sum_upperAt hq, hBack q hq]
  calc ∑ k ∈ range n, A (rowPerm swaps i) k * x k
      = ∑ k ∈ range n, (∑ q ∈ range i, a i q * upperAt a n q k + upperAt a n i k) * x k :=
        sum_congr rfl fun k hk => by rw [hElim.row_eq i k hi (mem_range.1 hk), min_eq_left hi.le]
    _ = ∑ q ∈ range i, a i q * w q + w i := by
        simp only [add_mul, sum_add_distrib, sum_mul]
        rw [sum_comm, hUpper i hi]
        congr 1
        exact sum_congr rfl fun q hq => by
          rw [← hUpper q (by have := mem_range.1 hq; omega), mul_sum]
          exact sum_congr rfl fun k _ => by ring
    _ = p i := by rw [← hForward i hi, add_comm]

/-- **One column of a solve**: the swaps, forward and back substitution with the factors of a
square `A` give a solution of `A · x = c`, whenever back substitution succeeds. -/
theorem factor_solveColumn {m : Matrix ℝ} (hsq : m.cols = m.rows) {c x : Array ℝ}
    (hc : c.size = m.rows)
    (h : backColumn m.factor.lu (forwardColumn m.factor.lu (permuteColumn m.factor.swaps c)) =
      some x) {r : ℕ} (hr : r < m.rows) :
    ∑ k ∈ range m.rows, m.get r k * x.getD k 0 = c.getD r 0 := by
  obtain ⟨data, -, hLu, hElim⟩ := factor_eliminated m hsq
  have hLuRows : m.factor.lu.rows = m.rows := by rw [hLu]; rfl
  have hLuGet : ∀ r c, r < m.rows → c < m.rows → m.factor.lu.get r c = read data m.rows r c :=
    fun r c hr hc => by rw [hLu, Matrix.get_ofFn _ hr hc]
  set p := permuteColumn m.factor.swaps c
  have hSwaps : ∀ q ∈ m.factor.swaps, q.1 < c.size ∧ q.2 < c.size := by
    simpa [hc] using hElim.swaps_lt
  -- row `r` of `A` is row `i` of `P · A`
  have hi := rowPerm_symm_lt hElim.swaps_lt hr
  obtain ⟨hEntry, hpSize⟩ := getD_permuteColumn m.factor.swaps hSwaps (by rwa [hc])
  obtain ⟨hwSize, hForward⟩ := forwardColumn_spec m.factor.lu (c := p) (by rw [hpSize, hc, hLuRows])
  obtain ⟨-, hBack⟩ := backColumn_spec m.factor.lu hwSize h
  rw [hLuRows] at hForward hBack
  have hRow := hElim.sum_mul_eq (p := fun i => p.getD i 0) (x := fun k => x.getD k 0)
    (fun i hi => by
      rw [← hForward i hi]
      congr 1
      exact sum_congr rfl fun q hq => by rw [hLuGet i q hi (by have := mem_range.1 hq; omega)])
    (fun q hq => by
      rw [← hBack q hq]
      exact sum_congr rfl fun k hk => by rw [hLuGet q k hq (mem_Ico.1 hk).2]) hi
  rw [Equiv.apply_symm_apply] at hRow
  rw [hRow, (getD_permuteColumn m.factor.swaps hSwaps (by rwa [hc])).1, Equiv.apply_symm_apply]

/-- **A solve that succeeds solves the system**: in exact arithmetic the factors of `A` give
`A · X = B`, whenever no diagonal entry of `U` is zero and the system can be posed. -/
theorem Factors.mul_solve {m b x : Matrix ℝ} (h : m.factor.solve b = .ok x) : m * x = b := by
  unfold Factors.solve at h
  split_ifs at h with hFits
  -- the system could be posed: `A` is square with as many rows as `B`
  have hShape : m.factor.shape = m.shape := rfl
  simp only [Factors.fits, hShape, Matrix.shape, Bool.not_eq_true', Bool.not_eq_false,
    Bool.and_eq_true, beq_iff_eq] at hFits
  obtain ⟨⟨hRows, hsq⟩, -⟩ := hFits
  dsimp only at h
  split at h
  · cases h
  rename_i cs hCols
  injection h with hx
  refine Matrix.ext_get hRows (by rw [← hx]; rfl) fun r j hr hj => ?_
  have hr' : r < m.rows := hr
  have hj' : j < b.cols := by rw [← hx] at hj; exact hj
  -- column `j` of the solution solves the system for column `j` of `B`
  have hColumn := mapM_eq_some #[] hCols j (by simpa using hj')
  simp only [List.getElem_range] at hColumn
  have hSolved := factor_solveColumn hsq.symm (by rw [Matrix.size_col, hRows]) hColumn hr'
  rw [Matrix.get_mul_real m x hr' hj, ← hsq, ← getD_col b j (hRows ▸ hr'), ← hSolved]
  refine sum_congr rfl fun k hk => ?_
  rw [← hx, Matrix.get_ofFn _ (by rw [← hRows]; exact mem_range.1 hk) hj']
  simp only [Scalar.numeral_real, Nat.cast_zero]

end SteadyAdjoint
