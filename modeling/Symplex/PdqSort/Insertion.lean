import Symplex.PdqSort.Window

namespace Symplex.PdqSort

variable {α : Type} {less : α → α → Bool} {ok : α → Prop}

variable (less) in
structure Inserting (a j i : Nat) (l : List α) : Prop where
  below : SortedRange less a j l
  above : SortedRange less j (i + 1) l
  bridge : a < j → j < i → lessAt less l (j + 1) (j - 1) = false

theorem Inserting.moveDown {a j i : Nat} {l : List α} (order : StrictWeakOn less ok) (ins : Inserting less a j i l)
    (aj : a < j) (ji : j ≤ i) (il : i < l.length) (lt : lessAt less l j (j - 1) = true) :
    Inserting less a (j - 1) i (swap l j (j - 1)) := by
  have sj : (swap l j (j - 1))[j]? = l[j - 1]? := getElem?_swap_left (by omega) (by omega)
  have sj1 : (swap l j (j - 1))[j - 1]? = l[j]? := getElem?_swap_right (by omega) (by omega)
  have other : ∀ m, m ≠ j → m ≠ j - 1 → (swap l j (j - 1))[m]? = l[m]? := fun m mj mj1 =>
    getElem?_swap_other mj mj1
  refine ⟨ins.below.mono le_rfl (by omega) |>.congr fun m _ mj => other m (by omega) (by omega), ?_, ?_⟩
  · intro m jm mi
    rcases Nat.lt_trichotomy m (j + 1) with mj | rfl | mj
    · obtain rfl : m = j := by omega
      rw [lessAt_congr sj sj1]
      exact lessAt_asymm order lt
    · rw [lessAt_congr (other (j + 1) (by omega) (by omega)) (show _ = l[j - 1]? by simpa using sj)]
      exact ins.bridge aj (by omega)
    · rw [lessAt_congr (other m (by omega) (by omega)) (other (m - 1) (by omega) (by omega))]
      exact ins.above m (by omega) mi
  · intro aj' _
    rw [lessAt_congr (show _ = l[j - 1]? by rw [Nat.sub_add_cancel (by omega)]; exact sj)
      (other (j - 1 - 1) (by omega) (by omega))]
    exact ins.below (j - 1) aj' (by omega)

theorem Inserting.finish {a j i : Nat} {l : List α} (ins : Inserting less a j i l)
    (stop : a < j → lessAt less l j (j - 1) = false) : SortedRange less a (i + 1) l :=
  ins.below.join ins.above fun aj _ => stop aj

theorem insertDown_sorted {a i : Nat} (order : StrictWeakOn less ok) :
    ∀ (k j : Nat) (l : List α), k = j - a → a ≤ j → j ≤ i → i < l.length → Inserting less a j i l →
      Permutes a (i + 1) l (insertDown less k j l) ∧ SortedRange less a (i + 1) (insertDown less k j l)
  | 0, j, l, hk, aj, _, _, ins => by
    rw [insertDown]
    exact ⟨Permutes.refl _ _ _, ins.finish fun _ => by omega⟩
  | k + 1, j, l, hk, aj, ji, il, ins => by
    rw [insertDown]
    split
    · rename_i lt
      have rest := insertDown_sorted order k (j - 1) (swap l j (j - 1)) (by omega) (by omega) (by omega)
        (by rw [length_swap]; exact il) (ins.moveDown order (by omega) ji il lt)
      exact ⟨(swap_permutes (by omega) (by omega) (by omega) (by omega) (by omega)).trans rest.1, rest.2⟩
    · rename_i nlt
      exact ⟨Permutes.refl _ _ _, ins.finish fun _ => by simpa using nlt⟩

theorem insertionSort_loop {a b : Nat} (order : StrictWeakOn less ok) :
    ∀ (n m : Nat) (l : List α), a < m → m + n ≤ b → b ≤ l.length → SortedRange less a m l →
      Permutes a b l ((List.range' m n).foldl (fun l i => insertDown less (i - a) i l) l) ∧
        SortedRange less a (m + n) ((List.range' m n).foldl (fun l i => insertDown less (i - a) i l) l)
  | 0, m, l, _, _, _, sorted => ⟨Permutes.refl _ _ _, sorted⟩
  | n + 1, m, l, am, mb, bl, sorted => by
    have step := insertDown_sorted order (m - a) m l rfl (by omega) le_rfl (by omega)
      ⟨sorted, sortedRange_of_le l le_rfl, fun _ mm => absurd mm (Nat.lt_irrefl m)⟩
    have rest := @insertionSort_loop a b order n (m + 1) _ (by omega) (by omega)
      (by rw [step.1.length]; exact bl) step.2
    rw [List.range'_succ, List.foldl_cons, show m + (n + 1) = m + 1 + n by omega]
    exact ⟨(step.1.widen (by omega) (by omega) (by omega)).trans rest.1, rest.2⟩

theorem insertionSort_sorted {a b : Nat} (order : StrictWeakOn less ok) (l : List α) (bl : b ≤ l.length) :
    Permutes a b l (insertionSort less a b l) ∧ SortedRange less a b (insertionSort less a b l) := by
  by_cases ab : a < b
  · have loop := insertionSort_loop order (b - (a + 1)) (a + 1) l (by omega) (by omega) bl
      (sortedRange_of_le l le_rfl)
    rw [Nat.add_sub_cancel' (by omega)] at loop
    exact loop
  · rw [insertionSort, Nat.sub_eq_zero_of_le (by omega), List.range'_zero, List.foldl_nil]
    exact ⟨Permutes.refl _ _ _, sortedRange_of_le l (by omega)⟩

theorem skipSorted_spec {a b : Nat} (l : List α) :
    ∀ (n i : Nat), a < i → i ≤ b → b - i ≤ n → SortedRange less a i l →
      i ≤ skipSorted less l b n i ∧ skipSorted less l b n i ≤ b ∧
        SortedRange less a (skipSorted less l b n i) l ∧
        (skipSorted less l b n i < b → lessAt less l (skipSorted less l b n i) (skipSorted less l b n i - 1) = true)
  | 0, i, _, ib, bn, sorted => by
    rw [skipSorted]
    exact ⟨le_rfl, ib, sorted, fun _ => by omega⟩
  | n + 1, i, ai, ib, bn, sorted => by
    rw [skipSorted]
    split
    · rename_i next
      have rest := @skipSorted_spec a b l n (i + 1) (by omega) (by omega) (by omega)
        (sorted.join (sortedRange_of_le l le_rfl) fun _ _ => by simpa using next.2)
      exact ⟨by omega, rest.2.1, rest.2.2⟩
    · rename_i stop
      refine ⟨le_rfl, ib, sorted, fun lt => ?_⟩
      simpa [lt] using stop

theorem shiftLeft_eq_insertDown {a b : Nat} :
    ∀ (m : Nat) (l : List α), a ≤ m → m < b → b ≤ l.length → Floor less a b l →
      shiftLeft less m l = insertDown less (m - a) m l
  | 0, l, am, _, _, _ => by rw [shiftLeft, Nat.le_zero.mp am, insertDown]
  | m + 1, l, am, mb, bl, floor => by
    rw [shiftLeft]
    by_cases at_a : m + 1 = a
    · subst at_a
      rw [Nat.sub_self, insertDown]
      have get : l[m]? = some l[m] := List.getElem?_eq_getElem (by omega)
      have get1 : l[m + 1]? = some l[m + 1] := List.getElem?_eq_getElem (by omega)
      rw [lessAt_some get1 get, floor l[m] (by omega) (by simp) _ (mem_window le_rfl mb get1)]
      rfl
    · rw [show m + 1 - a = (m - a) + 1 by omega, insertDown, Nat.add_sub_cancel]
      by_cases lt : lessAt less l (m + 1) m = true
      · rw [if_pos lt, if_neg (by simp [lt])]
        exact @shiftLeft_eq_insertDown a b m _ (by omega) (by omega) (by rw [length_swap]; exact bl)
          (floor.permutes (swap_permutes (by omega) mb (by omega) (by omega) bl))
      · rw [if_neg lt, if_pos (by simp [lt])]

theorem shiftRight_permutes {i b : Nat} :
    ∀ (n j : Nat) (l : List α), i + 1 ≤ j → j + n = b → b ≤ l.length → Permutes i b l (shiftRight less n j l)
  | 0, _, l, _, _, _ => by rw [shiftRight]; exact Permutes.refl _ _ _
  | n + 1, j, l, ij, jb, bl => by
    rw [shiftRight]
    split
    · exact Permutes.refl _ _ _
    · exact (swap_permutes (by omega) (by omega) (by omega) (by omega) bl).trans
        (@shiftRight_permutes i b n (j + 1) _ (by omega) (by omega) (by rw [length_swap]; exact bl))

theorem partialInsertionSort_move {a b i : Nat} {l : List α} (order : StrictWeakOn less ok) (ai : a < i)
    (ib : i < b) (bl : b ≤ l.length) (sorted : SortedRange less a i l) (floor : Floor less a b l) :
    Permutes a b l (if 2 ≤ b - i then shiftRight less (b - (i + 1)) (i + 1)
        (if 2 ≤ i - a then shiftLeft less (i - 1) (swap l i (i - 1)) else swap l i (i - 1))
      else if 2 ≤ i - a then shiftLeft less (i - 1) (swap l i (i - 1)) else swap l i (i - 1)) ∧
    SortedRange less a i (if 2 ≤ b - i then shiftRight less (b - (i + 1)) (i + 1)
        (if 2 ≤ i - a then shiftLeft less (i - 1) (swap l i (i - 1)) else swap l i (i - 1))
      else if 2 ≤ i - a then shiftLeft less (i - 1) (swap l i (i - 1)) else swap l i (i - 1)) := by
  have swapped : Permutes a b l (swap l i (i - 1)) := swap_permutes (by omega) ib (by omega) (by omega) bl
  have below : SortedRange less a (i - 1) (swap l i (i - 1)) :=
    (sorted.mono le_rfl (by omega)).congr fun k _ ki => getElem?_swap_other (by omega) (by omega)
  have left : Permutes a b l (if 2 ≤ i - a then shiftLeft less (i - 1) (swap l i (i - 1)) else swap l i (i - 1)) ∧
      SortedRange less a i (if 2 ≤ i - a then shiftLeft less (i - 1) (swap l i (i - 1)) else swap l i (i - 1)) := by
    split
    · rw [shiftLeft_eq_insertDown (i - 1) _ (by omega) (by omega) (by rw [length_swap]; exact bl)
        (floor.permutes swapped)]
      have inserted := insertDown_sorted order (i - 1 - a) (i - 1) _ rfl (by omega) le_rfl
        (by rw [length_swap]; omega) ⟨below, sortedRange_of_le _ le_rfl, fun _ stop => absurd stop (Nat.lt_irrefl _)⟩
      rw [Nat.sub_add_cancel (by omega)] at inserted
      exact ⟨swapped.trans (inserted.1.widen le_rfl (by omega) (by omega)), inserted.2⟩
    · exact ⟨swapped, sortedRange_of_le _ (by omega)⟩
  split
  · have shifted := @shiftRight_permutes α less i b (b - (i + 1)) (i + 1) _ le_rfl (by omega)
      (by rw [left.1.length]; exact bl)
    exact ⟨left.1.trans (shifted.widen (by omega) (by omega) le_rfl),
      left.2.congr fun k _ ki => shifted.outside k (.inl ki)⟩
  · exact left

theorem partialInsertionSort_sorted {a b : Nat} (order : StrictWeakOn less ok) :
    ∀ (steps i : Nat) (l : List α), a < i → i ≤ b → b ≤ l.length → SortedRange less a i l → Floor less a b l →
      Permutes a b l (partialInsertionSort less a b steps i l).2 ∧
        ((partialInsertionSort less a b steps i l).1 = true → SortedRange less a b (partialInsertionSort less a b steps i l).2)
  | 0, _, l, _, _, _, _, _ => by
    rw [partialInsertionSort]
    exact ⟨Permutes.refl _ _ _, fun no => by cases no⟩
  | steps + 1, i, l, ai, ib, bl, sorted, floor => by
    obtain ⟨ii, ib', prefixSorted, -⟩ := skipSorted_spec l (b - i) i ai ib le_rfl sorted
    rw [partialInsertionSort]
    dsimp only
    generalize skipSorted less l b (b - i) i = i' at ii ib' prefixSorted
    by_cases done : i' = b
    · rw [if_pos done]
      exact ⟨Permutes.refl _ _ _, fun _ => by rw [← done]; exact prefixSorted⟩
    by_cases short : b - a < 50
    · rw [if_neg done, if_pos short]
      exact ⟨Permutes.refl _ _ _, fun no => by cases no⟩
    rw [if_neg done, if_neg short]
    have moved := partialInsertionSort_move order (by omega) (Nat.lt_of_le_of_ne ib' done) bl prefixSorted floor
    have rest := @partialInsertionSort_sorted a b order steps i' _ (by omega) ib'
      (by rw [moved.1.length]; exact bl) moved.2 (floor.permutes moved.1)
    exact ⟨moved.1.trans rest.1, rest.2⟩

end Symplex.PdqSort
