import Symplex.PdqSort.Window

namespace Symplex.PdqSort

variable {α : Type} {less : α → α → Bool} {ok : α → Prop}

def IsChild (c k : Nat) : Prop := c = 2 * k + 1 ∨ c = 2 * k + 2

theorem IsChild.parent {c k : Nat} (child : IsChild c k) : (c - 1) / 2 = k := by
  unfold IsChild at child
  omega

theorem IsChild.lt {c k : Nat} (child : IsChild c k) : k < c := by
  unfold IsChild at child
  omega

variable (less) in
def Heap (first lo hi : Nat) (l : List α) : Prop :=
  ∀ k c, lo ≤ k → IsChild c k → c < hi → lessAt less l (first + k) (first + c) = false

variable (less) in
structure SiftOrder (first lo hi root : Nat) (l : List α) : Prop where
  except : ∀ k c, lo ≤ k → k ≠ root → IsChild c k → c < hi → lessAt less l (first + k) (first + c) = false
  grand : lo < root → ∀ c, IsChild c root → c < hi → lessAt less l (first + (root - 1) / 2) (first + c) = false

theorem SiftOrder.finish {first lo hi root : Nat} {l : List α} (sift : SiftOrder less first lo hi root l)
    (stop : ∀ c, IsChild c root → c < hi → lessAt less l (first + root) (first + c) = false) :
    Heap less first lo hi l := fun k c lk child ch => by
  by_cases kr : k = root
  · subst kr
    exact stop c child ch
  · exact sift.except k c lk kr child ch

theorem siftChild_spec (order : StrictWeakOn less ok) (l : List α) (first : Nat) {root hi : Nat} (has : 2 * root + 1 < hi) :
    IsChild (if 2 * root + 2 < hi ∧ lessAt less l (first + 2 * root + 1) (first + 2 * root + 2) = true
      then 2 * root + 2 else 2 * root + 1) root ∧
    (if 2 * root + 2 < hi ∧ lessAt less l (first + 2 * root + 1) (first + 2 * root + 2) = true
      then 2 * root + 2 else 2 * root + 1) < hi ∧
    ∀ s, IsChild s root → s < hi →
      lessAt less l (first + if 2 * root + 2 < hi ∧ lessAt less l (first + 2 * root + 1) (first + 2 * root + 2) = true
        then 2 * root + 2 else 2 * root + 1) (first + s) = false := by
  split
  · rename_i right
    refine ⟨.inr rfl, right.1, fun s child sh => ?_⟩
    rcases child with rfl | rfl
    · exact lessAt_asymm order right.2
    · exact lessAt_irrefl order l _
  · rename_i left
    refine ⟨.inl rfl, has, fun s child sh => ?_⟩
    rcases child with rfl | rfl
    · exact lessAt_irrefl order l _
    · simpa [sh] using left

theorem SiftOrder.moveDown {first lo hi root child : Nat} {l : List α} (order : StrictWeakOn less ok)
    (sift : SiftOrder less first lo hi root l) (lr : lo ≤ root) (isChild : IsChild child root)
    (ch : child < hi) (bl : first + hi ≤ l.length)
    (dominates : ∀ s, IsChild s root → s < hi → lessAt less l (first + child) (first + s) = false)
    (lt : lessAt less l (first + root) (first + child) = true) :
    SiftOrder less first lo hi child (swap l (first + root) (first + child)) := by
  have rc := isChild.lt
  have atRoot : (swap l (first + root) (first + child))[first + root]? = l[first + child]? :=
    getElem?_swap_left (by omega) (by omega)
  have atChild : (swap l (first + root) (first + child))[first + child]? = l[first + root]? :=
    getElem?_swap_right (by omega) (by omega)
  have other : ∀ m, m ≠ root → m ≠ child → (swap l (first + root) (first + child))[first + m]? = l[first + m]? :=
    fun m mr mc => getElem?_swap_other (by omega) (by omega)
  constructor
  · intro k c lk kc child' ch'
    by_cases kr : k = root
    · subst kr
      by_cases cc : c = child
      · subst cc
        rw [lessAt_congr atRoot atChild]
        exact lessAt_asymm order lt
      · rw [lessAt_congr atRoot (other c (by have := child'.lt; omega) cc)]
        exact dominates c child' ch'
    · by_cases cr : c = root
      · subst cr
        have parent := child'.parent
        rw [lessAt_congr (other k kr kc) atRoot, ← parent]
        exact sift.grand (by have := child'.lt; omega) child isChild ch
      · have cc : c ≠ child := fun same => kr (by rw [← child'.parent, same, isChild.parent])
        rw [lessAt_congr (other k kr kc) (other c cr cc)]
        exact sift.except k c lk kr child' ch'
  · intro _ c child' ch'
    rw [isChild.parent, lessAt_congr atRoot (other c (by have := child'.lt; omega) (by have := child'.lt; omega))]
    exact sift.except child c (by omega) (by omega) child' ch'

theorem siftDown_heap (order : StrictWeakOn less ok) {first lo hi : Nat} :
    ∀ (n root : Nat) (l : List α), lo ≤ root → hi ≤ root + n → first + hi ≤ l.length → (∀ y ∈ l, ok y) →
      SiftOrder less first lo hi root l →
      Permutes first (first + hi) l (siftDown less hi first n root l) ∧ Heap less first lo hi (siftDown less hi first n root l)
  | 0, root, l, _, fuel, _, _, sift => by
    rw [siftDown]
    exact ⟨Permutes.refl _ _ _, sift.finish fun c child ch => absurd ch (by have := child.lt; omega)⟩
  | n + 1, root, l, lr, fuel, bl, oks, sift => by
    rw [siftDown]
    split
    · exact ⟨Permutes.refl _ _ _, sift.finish fun c child ch => absurd ch (by unfold IsChild at child; omega)⟩
    · rename_i has
      obtain ⟨isChild, ch, dominates⟩ := siftChild_spec order l first (Nat.lt_of_not_le has)
      dsimp only
      generalize (if 2 * root + 2 < hi ∧ lessAt less l (first + 2 * root + 1) (first + 2 * root + 2) = true
        then 2 * root + 2 else 2 * root + 1) = child at isChild ch dominates ⊢
      split
      · rename_i stop
        refine ⟨Permutes.refl _ _ _, sift.finish fun c child' ch' => ?_⟩
        exact lessAt_negTrans order oks (by omega) (by omega) (by omega) (by simpa using stop)
          (dominates c child' ch')
      · rename_i go
        have swapped : Permutes first (first + hi) l (swap l (first + root) (first + child)) :=
          swap_permutes (by omega) (by omega) (by omega) (by omega) bl
        have rest := @siftDown_heap order first lo hi n child _ (by have := isChild.lt; omega)
          (by have := isChild.lt; omega) (by rw [swapped.length]; exact bl)
          (fun y mem => oks y ((swapped.list_perm (by omega)).mem_iff.mp mem))
          (sift.moveDown order lr isChild ch bl dominates (by simpa using go))
        exact ⟨swapped.trans rest.1, rest.2⟩

theorem Heap.root_max (order : StrictWeakOn less ok) {first hi : Nat} {l : List α} (heap : Heap less first 0 hi l)
    (oks : ∀ y ∈ l, ok y) (bl : first + hi ≤ l.length) :
    ∀ k, k < hi → lessAt less l first (first + k) = false
  | 0, _ => lessAt_irrefl order l first
  | k + 1, kh => by
    have child : IsChild (k + 1) (k / 2) := by unfold IsChild; omega
    exact lessAt_negTrans order oks (by omega) (by omega) (by omega)
      (Heap.root_max order heap oks bl (k / 2) (by omega)) (heap _ _ (Nat.zero_le _) child kh)

theorem range_succ_reverse (m : Nat) : (List.range (m + 1)).reverse = m :: (List.range m).reverse := by
  rw [List.range_succ, List.reverse_append]
  rfl

theorem heapify_heap (order : StrictWeakOn less ok) {first hi : Nat} :
    ∀ (m : Nat) (l : List α), first + hi ≤ l.length → (∀ y ∈ l, ok y) → Heap less first m hi l →
      Permutes first (first + hi) l ((List.range m).reverse.foldl (fun l i => siftDown less hi first hi i l) l) ∧
        Heap less first 0 hi ((List.range m).reverse.foldl (fun l i => siftDown less hi first hi i l) l)
  | 0, l, _, _, heap => ⟨Permutes.refl _ _ _, heap⟩
  | m + 1, l, bl, oks, heap => by
    rw [range_succ_reverse, List.foldl_cons]
    have sifted := siftDown_heap order hi m l le_rfl (by omega) bl oks
      ⟨fun k c mk km child ch => heap k c (by omega) child ch, fun mm => absurd mm (Nat.lt_irrefl m)⟩
    have rest := @heapify_heap order first hi m _ (by rw [sifted.1.length]; exact bl)
      (fun y mem => oks y ((sifted.1.list_perm (by omega)).mem_iff.mp mem)) sifted.2
    exact ⟨sifted.1.trans rest.1, rest.2⟩

theorem popHeap_sorted (order : StrictWeakOn less ok) {first hi : Nat} :
    ∀ (m : Nat) (l : List α), m ≤ hi → first + hi ≤ l.length → (∀ y ∈ l, ok y) → Heap less first 0 m l →
      SortedRange less (first + m) (first + hi) l →
      (m < hi → ∀ k < m, lessAt less l (first + m) (first + k) = false) →
      Permutes first (first + hi) l
          ((List.range m).reverse.foldl (fun l i => siftDown less i first i 0 (swap l first (first + i))) l) ∧
        SortedRange less first (first + hi)
          ((List.range m).reverse.foldl (fun l i => siftDown less i first i 0 (swap l first (first + i))) l)
  | 0, l, _, _, _, _, sorted, _ => ⟨Permutes.refl _ _ _, sorted⟩
  | m + 1, l, mh, bl, oks, heap, sorted, top => by
    rw [range_succ_reverse, List.foldl_cons]
    have maxed := heap.root_max order oks (by omega)
    have swapped : Permutes first (first + (m + 1)) l (swap l first (first + m)) :=
      swap_permutes (by omega) (by omega) (by omega) (by omega) (by omega)
    have atTop : (swap l first (first + m))[first + m]? = l[first]? := getElem?_swap_right (by omega) (by omega)
    have other : ∀ k, k ≠ first → k ≠ first + m → (swap l first (first + m))[k]? = l[k]? :=
      fun k k0 km => getElem?_swap_other k0 km
    have sifted := @siftDown_heap _ _ _ order first 0 m m 0 (swap l first (first + m)) le_rfl (by omega)
      (by rw [length_swap]; omega) (fun y mem => oks y ((swapped.list_perm (by omega)).mem_iff.mp mem))
      ⟨fun k c _ k0 child ch => by
        rw [lessAt_congr (other _ (by omega) (by have := child.lt; omega)) (other _ (by have := child.lt; omega) (by omega))]
        exact heap k c (Nat.zero_le _) child (by omega),
       fun zero => absurd zero (Nat.lt_irrefl 0)⟩
    generalize siftDown less m first m 0 (swap l first (first + m)) = l' at sifted
    have sameAbove : ∀ k, first + m ≤ k → l'[k]? = (swap l first (first + m))[k]? :=
      fun k mk => sifted.1.outside k (.inr mk)
    have newTop : l'[first + m]? = l[first]? := (sameAbove _ le_rfl).trans atTop
    have rest := @popHeap_sorted order first hi m l' (by omega)
      (by rw [sifted.1.length, length_swap]; exact bl)
      (fun y mem => oks y (((sifted.1.list_perm (by omega)).trans (swapped.list_perm (by omega))).mem_iff.mp mem))
      sifted.2 ?sorted ?top
    · exact ⟨(swapped.widen le_rfl (by omega) (by omega)).trans
        ((sifted.1.widen le_rfl (by omega) (by omega)).trans rest.1), rest.2⟩
    case sorted =>
      have lower : SortedRange less (first + m) (first + (m + 1)) l' := sortedRange_of_le l' le_rfl
      refine lower.join (sorted.congr fun k mk _ => (sameAbove k (by omega)).trans (other k (by omega) (by omega)))
        fun _ mh' => ?_
      rw [lessAt_congr ((sameAbove _ (by omega)).trans (other _ (by omega) (by omega)))
        (show l'[first + (m + 1) - 1]? = l[first]? by rw [show first + (m + 1) - 1 = first + m by omega]; exact newTop)]
      simpa using top (by omega) 0 (Nat.succ_pos m)
    case top =>
      intro _ k km
      have kl : first + k < l'.length := by rw [sifted.1.length, length_swap]; omega
      obtain ⟨j, fj, jm, get⟩ := exists_of_mem_window (sifted.1.mem_iff.mp (mem_window (Nat.le_add_right first k)
        (by omega) (List.getElem?_eq_getElem kl)))
      by_cases j0 : j = first
      · rw [j0, getElem?_swap_left (by omega) (by omega)] at get
        rw [lessAt_congr newTop (show l'[first + k]? = l[first + m]? by rw [List.getElem?_eq_getElem kl, get])]
        exact maxed m (by omega)
      · rw [other j j0 (by omega)] at get
        rw [lessAt_congr newTop (show l'[first + k]? = l[j]? by rw [List.getElem?_eq_getElem kl, get])]
        simpa [Nat.add_sub_cancel' fj] using maxed (j - first) (by omega)

theorem heapSort_sorted (order : StrictWeakOn less ok) {a b : Nat} (l : List α) (ab : a ≤ b) (bl : b ≤ l.length)
    (oks : ∀ y ∈ l, ok y) : Permutes a b l (heapSort less a b l) ∧ SortedRange less a b (heapSort less a b l) := by
  unfold heapSort
  dsimp only
  have built := @heapify_heap _ _ _ order a (b - a) ((b - a - 1) / 2 + 1) l (by omega) oks
    fun k c lk child ch => absurd ch (by unfold IsChild at child; omega)
  generalize (List.range ((b - a - 1) / 2 + 1)).reverse.foldl (fun l i => siftDown less (b - a) a (b - a) i l) l = heap
    at built
  have popped := @popHeap_sorted _ _ _ order a (b - a) (b - a) heap le_rfl (by rw [built.1.length]; omega)
    (fun y mem => oks y ((built.1.list_perm (by omega)).mem_iff.mp mem)) built.2 (sortedRange_of_le heap (by omega))
    fun short => absurd short (Nat.lt_irrefl _)
  rw [Nat.add_sub_cancel' ab] at built popped
  exact ⟨built.1.trans popped.1, popped.2⟩

end Symplex.PdqSort
