import Symplex.PdqSort.Heap
import Symplex.PdqSort.Insertion
import Symplex.PdqSort.Partition

namespace Symplex.PdqSort

variable {α : Type} {less : α → α → Bool} {ok : α → Prop}

theorem order2_bounds (less : α → α → Bool) (l : List α) {lo hi a b : Nat} (swaps : Nat) (ha : lo ≤ a ∧ a < hi) (hb : lo ≤ b ∧ b < hi) :
    (lo ≤ (order2 less l a b swaps).1 ∧ (order2 less l a b swaps).1 < hi) ∧
      (lo ≤ (order2 less l a b swaps).2.1 ∧ (order2 less l a b swaps).2.1 < hi) := by
  unfold order2
  split
  · exact ⟨hb, ha⟩
  · exact ⟨ha, hb⟩

theorem median_bounds (less : α → α → Bool) (l : List α) {lo hi a b c : Nat} (swaps : Nat) (ha : lo ≤ a ∧ a < hi) (hb : lo ≤ b ∧ b < hi)
    (hc : lo ≤ c ∧ c < hi) : lo ≤ (median less l a b c swaps).1 ∧ (median less l a b c swaps).1 < hi := by
  simp only [median]
  have first := order2_bounds less l swaps ha hb
  have second := order2_bounds less l (order2 less l a b swaps).2.2 first.2 hc
  exact (order2_bounds less l _ first.1 second.1).2

theorem medianAdjacent_bounds (less : α → α → Bool) (l : List α) {lo hi m : Nat} (swaps : Nat) (lm : lo + 1 ≤ m)
    (mh : m + 1 < hi) : lo ≤ (medianAdjacent less l m swaps).1 ∧ (medianAdjacent less l m swaps).1 < hi :=
  median_bounds less l swaps ⟨by omega, by omega⟩ ⟨by omega, by omega⟩ ⟨by omega, by omega⟩

theorem choosePivot_bounds (less : α → α → Bool) (l : List α) {a b : Nat} (ab : a < b) :
    a ≤ (choosePivot less l a b).1 ∧ (choosePivot less l a b).1 < b := by
  unfold choosePivot
  dsimp only
  split
  · split
    · exact median_bounds less l _ (medianAdjacent_bounds less l 0 (by omega) (by omega))
        (medianAdjacent_bounds less l _ (by omega) (by omega)) (medianAdjacent_bounds less l _ (by omega) (by omega))
    · exact median_bounds less l 0 ⟨by omega, by omega⟩ ⟨by omega, by omega⟩ ⟨by omega, by omega⟩
  · exact ⟨Nat.le_add_right _ _, show a + (b - a) / 4 * 2 < b by omega⟩

theorem reverseRange_permutes {a b : Nat} (l : List α) (bl : b ≤ l.length) : Permutes a b l (reverseRange a b l) :=
  List.foldlRecOn (motive := fun l' => Permutes a b l l') _ _ l (Permutes.refl a b l) fun l' p n mem => by
    have := List.mem_range.mp mem
    exact p.trans (swap_permutes (by omega) (by omega) (by omega) (by omega) (by rw [p.length]; exact bl))

theorem two_pow_bitsLen_le {n : Nat} (pos : 0 < n) : 2 ^ bitsLen n ≤ 2 * n := by
  rw [bitsLen, if_neg (by omega), Nat.pow_succ, Nat.mul_comm]
  exact Nat.mul_le_mul_left 2 (Nat.log2_self_le (by omega))

theorem breakPatterns_permutes {a b : Nat} (l : List α) (bl : b ≤ l.length) : Permutes a b l (breakPatterns a b l) := by
  unfold breakPatterns
  dsimp only
  split
  · exact Permutes.refl a b l
  · rename_i long
    have modulus := two_pow_bitsLen_le (show 0 < b - a by omega)
    refine List.foldlRecOn (motive := fun s : List α × BitVec 64 => Permutes a b l s.1) _ _ _ (Permutes.refl a b l)
      fun s p i mem => ?_
    have := List.mem_range.mp mem
    have other := Nat.mod_lt (xorshiftNext s.2).toNat (show 0 < 2 ^ bitsLen (b - a) from Nat.pos_pow_of_pos _ (by omega))
    refine p.trans (swap_permutes (by omega) (by omega) (by omega) ?_ (by rw [p.length]; exact bl))
    split <;> omega

theorem equalPart_sorted (order : StrictWeakOn less ok) {a m b : Nat} {l : List α} (oks : ∀ y ∈ l, ok y)
    (bl : b ≤ l.length) (am : a < m) (mb : m ≤ b) (floor : Floor less a b l) (pos : 0 < a)
    (notBelow : lessAt less l (a - 1) a = false) (equal : ∀ k, a ≤ k → k < m → lessAt less l a k = false)
    (greater : ∀ k, m ≤ k → k < b → lessAt less l a k = true) : SortedRange less a m l ∧ Floor less m b l := by
  refine ⟨fun k ak km => ?_, floor_of_lessAt fun k mk kb => ?_⟩
  · have abovePivot : lessAt less l k a = false :=
      lessAt_negTrans order oks (by omega) (by omega) (by omega) (floor.lessAt pos ak.le (by omega) bl) notBelow
    exact lessAt_negTrans order oks (by omega) (by omega) (by omega) abovePivot (equal (k - 1) (by omega) (by omega))
  · exact lessAt_negTrans order oks (by omega) (by omega) (by omega) (lessAt_asymm order (greater k mk kb))
      (equal (m - 1) (by omega) (by omega))

theorem pdqsort_sorted (order : StrictWeakOn less ok) :
    ∀ (fuel a b limit : Nat) (wasBalanced wasPartitioned : Bool) (l : List α), b ≤ l.length → (∀ y ∈ l, ok y) →
      Floor less a b l → Permutes a b l (pdqsort less fuel a b limit wasBalanced wasPartitioned l) ∧
        SortedRange less a b (pdqsort less fuel a b limit wasBalanced wasPartitioned l)
  | 0, _, _, _, _, _, l, bl, _, _ => insertionSort_sorted order l bl
  | fuel + 1, a, b, limit, wasBalanced, wasPartitioned, l, bl, oks, floor => by
    have ih := pdqsort_sorted order fuel
    rw [pdqsort.eq_2]
    split
    · exact insertionSort_sorted order l bl
    split
    · exact heapSort_sorted order l (by omega) bl oks
    split
    next l1 limit1 broken =>
    have p1 : Permutes a b l l1 := by
      split at broken <;> cases broken
      · exact Permutes.refl a b l
      · exact breakPatterns_permutes l bl
    split
    next pivot hint chosen =>
    have pivotIn : a ≤ pivot ∧ pivot < b := by
      have bounds := choosePivot_bounds less l1 (show a < b by omega)
      rwa [chosen] at bounds
    split
    next l2 pivot2 hint2 reversed =>
    have p2 : Permutes a b l l2 ∧ a ≤ pivot2 ∧ pivot2 < b := by
      split at reversed <;> cases reversed
      · exact ⟨p1.trans (reverseRange_permutes l1 (by rw [p1.length]; exact bl)), by omega, by omega⟩
      · exact ⟨p1, pivotIn⟩
    split
    next sorted l3 tried =>
    have p3 : Permutes a b l l3 ∧ (sorted = true → SortedRange less a b l3) := by
      split at tried
      · have attempt := partialInsertionSort_sorted order 5 (a + 1) l2 (by omega) (by omega)
          (by rw [p2.1.length]; exact bl) (sortedRange_of_le l2 le_rfl) (floor.permutes p2.1)
        rw [tried] at attempt
        exact ⟨p2.1.trans attempt.1, attempt.2⟩
      · cases tried
        exact ⟨p2.1, fun no => by cases no⟩
    split
    · exact ⟨p3.1, p3.2 ‹_›⟩
    have bl3 : b ≤ l3.length := by rw [p3.1.length]; exact bl
    have oks3 := p3.1.forall_mem (by omega) oks
    have floor3 := floor.permutes p3.1
    split
    · rename_i _ notBelow
      split
      next mid l4 equal =>
      have spec := partitionEqual_spec order l3 p2.2.1 p2.2.2 bl3
      rw [equal] at spec
      obtain ⟨amid, midb, p4, same, greater, pivotAt⟩ := spec
      have bl4 : b ≤ l4.length := by rw [p4.length]; exact bl3
      have oks4 := p4.forall_mem (by omega) oks3
      have sides := equalPart_sorted order oks4 bl4 amid midb (floor3.permutes p4) notBelow.1
        (by rw [lessAt_congr (p4.outside (a - 1) (.inl (by omega))) pivotAt]; simpa using notBelow.2) same greater
      have rest := ih mid b limit1 wasBalanced wasPartitioned l4 bl4 oks4 sides.2
      refine ⟨p3.1.trans (p4.trans (rest.1.widen amid.le midb le_rfl)), ?_⟩
      exact (sides.1.congr fun k _ km => rest.1.outside k (.inl km)).join rest.2 fun _ mb =>
        (sides.2.permutes rest.1).lessAt (by omega) le_rfl mb (by rw [rest.1.length]; exact bl4)
    · split
      next mid alreadyPartitioned l4 parted =>
      have spec := @partition_spec _ less a b pivot2 l3 p2.2.1 p2.2.2 bl3
      rw [parted] at spec
      obtain ⟨amid, midb, p4, below, above⟩ := spec
      have bl4 : b ≤ l4.length := by rw [p4.length]; exact bl3
      have oks4 := p4.forall_mem (by omega) oks3
      have ceil4 : Ceil less a mid l4 := ceil_of_lessAt fun k ak km => lessAt_asymm order (below k ak km)
      have floor4 : Floor less (mid + 1) b l4 := floor_of_lessAt fun k mk kb => above k (by omega) kb
      have floorLow : Floor less a mid l4 := (floor3.permutes p4).shrink midb.le
      split
      · have low := ih a mid limit1 true true l4 (by omega) oks4 floorLow
        have bl5 : b ≤ (pdqsort less fuel a mid limit1 true true l4).length := by rw [low.1.length]; exact bl4
        have high := ih (mid + 1) b limit1 (decide ((b - a) / 8 ≤ mid - a)) alreadyPartitioned _ bl5 (low.1.forall_mem amid oks4)
          (floor4.congr fun k mk _ => low.1.outside k (.inr (by omega)))
        refine ⟨p3.1.trans (p4.trans ((low.1.widen le_rfl amid midb.le).trans
          (high.1.widen (by omega) (by omega) le_rfl))), ?_⟩
        exact SortedRange.around (low.2.congr fun k _ km => high.1.outside k (.inl (by omega))) high.2
          ((ceil4.permutes low.1).congr fun k _ _ => high.1.outside k (.inl (by omega)))
          ((floor4.congr fun k mk _ => low.1.outside k (.inr (by omega))).permutes high.1)
          (high.1.length ▸ bl5)
      · have high := ih (mid + 1) b limit1 true true l4 bl4 oks4 floor4
        have bl5 : b ≤ (pdqsort less fuel (mid + 1) b limit1 true true l4).length := by rw [high.1.length]; exact bl4
        have low := ih a mid limit1 (decide ((b - a) / 8 ≤ b - mid)) alreadyPartitioned _ (by omega) (high.1.forall_mem (by omega) oks4)
          (floorLow.congr fun k _ km => high.1.outside k (.inl (by omega)))
        refine ⟨p3.1.trans (p4.trans ((high.1.widen (by omega) (by omega) le_rfl).trans
          (low.1.widen le_rfl amid midb.le))), ?_⟩
        exact SortedRange.around low.2 (high.2.congr fun k mk _ => low.1.outside k (.inr (by omega)))
          ((ceil4.congr fun k _ _ => high.1.outside k (.inl (by omega))).permutes low.1)
          ((floor4.permutes high.1).congr fun k mk _ => low.1.outside k (.inr (by omega)))
          (low.1.length ▸ bl5)

theorem pdqsort_fuel_succ : ∀ (fuel a b limit : Nat) (wasBalanced wasPartitioned : Bool) (l : List α),
    b - a ≤ fuel → b ≤ l.length →
      pdqsort less (fuel + 1) a b limit wasBalanced wasPartitioned l = pdqsort less fuel a b limit wasBalanced wasPartitioned l
  | 0, a, b, _, _, _, l, enough, _ => by rw [pdqsort.eq_2, if_pos (by omega), pdqsort.eq_1]
  | fuel + 1, a, b, limit, wasBalanced, wasPartitioned, l, enough, bl => by
    have ih := pdqsort_fuel_succ fuel
    rw [pdqsort.eq_2, pdqsort.eq_2]
    split
    · rfl
    split
    · rfl
    split
    next l1 limit1 broken =>
    have bl1 : b ≤ l1.length := by
      split at broken <;> cases broken
      · exact bl
      · rw [(breakPatterns_perm a b l).length_eq]; exact bl
    split
    next pivot hint chosen =>
    have pivotIn := choosePivot_bounds less l1 (show a < b by omega)
    rw [chosen] at pivotIn
    split
    next l2 pivot2 hint2 reversed =>
    have p2 : b ≤ l2.length ∧ a ≤ pivot2 ∧ pivot2 < b := by
      split at reversed <;> cases reversed
      · exact ⟨by rw [(reverseRange_perm a b l1).length_eq]; exact bl1, by omega, by omega⟩
      · exact ⟨bl1, pivotIn⟩
    split
    next sorted l3 tried =>
    have bl3 : b ≤ l3.length := by
      split at tried
      · have same := (partialInsertionSort_perm less a b 5 (a + 1) l2).length_eq
        rw [tried] at same
        rw [same]; exact p2.1
      · cases tried; exact p2.1
    split
    · rfl
    split
    · split
      next mid l4 equal =>
      have parted := @partitionEqual_partitioned _ less a b pivot2 l3 p2.2.1 p2.2.2 bl3
      rw [equal] at parted
      exact ih mid b _ _ _ l4 (by have := parted.2.1.lower; omega) (by rw [parted.1.length]; exact bl3)
    · split
      next mid alreadyPartitioned l4 parted =>
      have spec := @partition_spec _ less a b pivot2 l3 p2.2.1 p2.2.2 bl3
      rw [parted] at spec
      obtain ⟨amid, midb, p4, -, -⟩ := spec
      have bl4 : b ≤ l4.length := by rw [p4.length]; exact bl3
      split
      · rw [ih a mid _ _ _ l4 (by omega) (by omega)]
        exact ih (mid + 1) b _ _ _ _ (by omega) (by rw [(pdqsort_perm less _ _ _ _ _ _ l4).length_eq]; exact bl4)
      · rw [ih (mid + 1) b _ _ _ l4 (by omega) bl4]
        exact ih a mid _ _ _ _ (by omega) (by rw [(pdqsort_perm less _ _ _ _ _ _ l4).length_eq]; omega)

theorem sortSlice_sorted (order : StrictWeakOn less ok) (l : List α) (oks : ∀ y ∈ l, ok y) :
    (sortSlice less l).Perm l ∧ (sortSlice less l).Pairwise (fun x y => less y x = false) := by
  have run := pdqsort_sorted order l.length 0 l.length (bitsLen l.length) true true l le_rfl oks
    fun _ pos => absurd pos (Nat.lt_irrefl 0)
  have length : (sortSlice less l).length = l.length := run.1.length
  refine ⟨run.1.list_perm (Nat.zero_le _), List.pairwise_iff_getElem.mpr fun i j hi hj ij => ?_⟩
  have ordered : lessAt less (sortSlice less l) j i = false := run.2.lessAt_of_lt order (run.1.forall_mem (Nat.zero_le _) oks) length.ge (Nat.zero_le i) j ij
    (length ▸ hj)
  rwa [lessAt_some (List.getElem?_eq_getElem hj) (List.getElem?_eq_getElem hi)] at ordered

end Symplex.PdqSort
