import Symplex.PdqSort.Insertion

namespace Symplex.PdqSort

variable {α : Type} {less : α → α → Bool}

variable (less) in
def OrderedRange (a b : Nat) (l : List α) : Prop :=
  ∀ i j, a ≤ i → i < j → j < b → lessAt less l j i = false

theorem OrderedRange.sortedRange {a b : Nat} {l : List α} (ordered : OrderedRange less a b l) :
    SortedRange less a b l :=
  fun k ak kb => ordered (k - 1) k (by omega) (by omega) kb

theorem orderedRange_of_pairwise {l : List α} (ordered : l.Pairwise fun x y => less y x = false) :
    OrderedRange less 0 l.length l := fun i j _ ij jl => by
  rw [lessAt_some (List.getElem?_eq_getElem jl) (List.getElem?_eq_getElem (ij.trans jl))]
  exact List.pairwise_iff_getElem.mp ordered i j (ij.trans jl) jl ij

theorem insertionSort_of_sorted {a b : Nat} {l : List α} (sorted : SortedRange less a b l) :
    insertionSort less a b l = l :=
  List.foldlRecOn (motive := (· = l)) _ _ l rfl fun l' same i mem => by
    obtain ⟨ai, ib⟩ := List.mem_range'_1.mp mem
    rw [same, show i - a = i - a - 1 + 1 by omega, insertDown, if_neg (by simp [sorted i (by omega) (by omega)])]

theorem skipSorted_of_sorted {a b i : Nat} {l : List α} (sorted : SortedRange less a b l) (ai : a < i)
    (ib : i ≤ b) : skipSorted less l b (b - i) i = b := by
  obtain ⟨ir, rb, -, stop⟩ := skipSorted_spec l (b - i) i ai ib le_rfl (sorted.mono le_rfl ib)
  refine Nat.le_antisymm rb (Nat.not_lt.mp fun short => ?_)
  have descent := stop short
  rw [sorted _ (by omega) short] at descent
  cases descent

theorem partialInsertionSort_of_sorted {a b : Nat} {l : List α} (sorted : SortedRange less a b l) (ab : a < b)
    (steps : Nat) : partialInsertionSort less a b (steps + 1) (a + 1) l = (true, l) := by
  rw [partialInsertionSort]
  dsimp only
  rw [skipSorted_of_sorted sorted (by omega) ab, if_pos rfl]

theorem order2_of_not_less {l : List α} {a b : Nat} (swaps : Nat) (inOrder : lessAt less l b a = false) :
    order2 less l a b swaps = (a, b, swaps) := by
  rw [order2, if_neg (by simp [inOrder])]

theorem median_of_ordered {lo hi : Nat} {l : List α} (ordered : OrderedRange less lo hi l) {a b c : Nat}
    (swaps : Nat) (la : lo ≤ a) (ab : a < b) (bc : b < c) (ch : c < hi) :
    median less l a b c swaps = (b, swaps) := by
  simp only [median, order2_of_not_less swaps (ordered a b la ab (by omega)),
    order2_of_not_less swaps (ordered b c (by omega) bc ch)]

theorem choosePivot_of_ordered {a b : Nat} {l : List α} (ordered : OrderedRange less a b l) (ab : a < b) :
    (choosePivot less l a b).2 = .increasing := by
  unfold choosePivot
  dsimp only
  split
  · split
    · simp (disch := omega) only [medianAdjacent, median_of_ordered ordered]
      rfl
    · simp (disch := omega) only [median_of_ordered ordered]
      rfl
  · rfl

theorem pdqsort_of_ordered {a b : Nat} {l : List α} (ordered : OrderedRange less a b l) :
    ∀ (fuel limit : Nat), (b - a ≤ 12 ∨ 0 < limit) → pdqsort less fuel a b limit true true l = l
  | 0, _, _ => insertionSort_of_sorted ordered.sortedRange
  | fuel + 1, limit, limited => by
    rw [pdqsort.eq_2]
    split
    · exact insertionSort_of_sorted ordered.sortedRange
    rw [if_neg (by omega), if_pos rfl]
    dsimp only
    have hint : choosePivot less l a b = ((choosePivot less l a b).1, .increasing) :=
      Prod.ext rfl (choosePivot_of_ordered ordered (by omega))
    rw [hint, if_neg (show SortedHint.increasing ≠ .decreasing by decide)]
    dsimp only
    rw [if_pos (show (true && true && decide (SortedHint.increasing = .increasing)) = true by decide),
      partialInsertionSort_of_sorted ordered.sortedRange (by omega)]
    rfl

theorem sortSlice_of_pairwise {l : List α} (ordered : l.Pairwise fun x y => less y x = false) :
    sortSlice less l = l :=
  pdqsort_of_ordered (orderedRange_of_pairwise ordered) _ _ (by unfold bitsLen; split <;> omega)

end Symplex.PdqSort
