import Symplex.PdqSort

namespace Symplex.PdqSort

variable {α : Type}

theorem length_swap (l : List α) (i j : Nat) : (swap l i j).length = l.length := by
  unfold swap
  split
  · exact List.length_ofFn _
  · rfl

theorem getElem?_swap {l : List α} {i j : Nat} (hi : i < l.length) (hj : j < l.length) (k : Nat) :
    (swap l i j)[k]? = if k = i then l[j]? else if k = j then l[i]? else l[k]? := by
  rw [swap, dif_pos ⟨hi, hj⟩, List.getElem?_ofFn]
  unfold List.ofFnNthVal
  split
  · rename_i hk
    simp only [Function.comp, Equiv.swap_apply_def, Fin.ext_iff, List.get_eq_getElem]
    split_ifs <;> simp_all
  · rename_i hk
    rw [if_neg (by omega), if_neg (by omega), List.getElem?_eq_none (by omega)]

def window (a b : Nat) (l : List α) : List α := (l.take b).drop a

theorem getElem?_window (a b : Nat) (l : List α) (k : Nat) :
    (window a b l)[k]? = if a + k < b then l[a + k]? else none := by
  rw [window, List.getElem?_drop, List.getElem?_take]

theorem window_split {a c b : Nat} (l : List α) (ac : a ≤ c) (cb : c ≤ b) :
    window a b l = window a c l ++ window c b l := by
  unfold window
  conv_lhs => rw [← List.take_append_drop c (l.take b), List.take_take, Nat.min_eq_left cb]
  rw [List.drop_append_eq_append_drop]
  congr 1
  by_cases short : a ≤ (l.take c).length
  · rw [Nat.sub_eq_zero_of_le short, List.drop_zero]
  · have empty : (l.take b).drop c = [] := by
      simp only [List.length_take, not_le] at short
      simp only [List.drop_eq_nil_iff, List.length_take]
      omega
    rw [empty, List.drop_nil]

theorem length_window (a b : Nat) (l : List α) : (window a b l).length = min b l.length - a := by
  simp [window]

theorem window_congr {a b : Nat} {l l' : List α} (same : ∀ k, a ≤ k → k < b → l'[k]? = l[k]?) :
    window a b l' = window a b l := by
  apply List.ext_getElem?
  intro k
  rw [getElem?_window, getElem?_window]
  split
  · exact same _ (Nat.le_add_right a k) ‹_›
  · rfl

theorem mem_window {a b k : Nat} {l : List α} {x : α} (ak : a ≤ k) (kb : k < b) (get : l[k]? = some x) :
    x ∈ window a b l := by
  have shifted : (window a b l)[k - a]? = some x := by
    rw [getElem?_window, if_pos (by omega), Nat.add_sub_cancel' ak, get]
  exact List.getElem?_mem shifted

theorem exists_of_mem_window {a b : Nat} {l : List α} {x : α} (mem : x ∈ window a b l) :
    ∃ k, a ≤ k ∧ k < b ∧ l[k]? = some x := by
  obtain ⟨n, get⟩ := List.mem_iff_getElem?.mp mem
  rw [getElem?_window] at get
  split at get
  · exact ⟨a + n, Nat.le_add_right a n, ‹_›, get⟩
  · cases get

theorem take_window_drop {a b : Nat} (l : List α) (ab : a ≤ b) :
    l.take a ++ window a b l ++ l.drop b = l := by
  calc l.take a ++ window a b l ++ l.drop b = (l.take b).take a ++ (l.take b).drop a ++ l.drop b := by
        rw [List.take_take, Nat.min_eq_left ab, window]
    _ = l := by rw [List.take_append_drop, List.take_append_drop]

structure Permutes (a b : Nat) (l l' : List α) : Prop where
  length : l'.length = l.length
  outside : ∀ k, k < a ∨ b ≤ k → l'[k]? = l[k]?
  perm : (window a b l').Perm (window a b l)

theorem Permutes.refl (a b : Nat) (l : List α) : Permutes a b l l :=
  ⟨rfl, fun _ _ => rfl, List.Perm.refl _⟩

theorem Permutes.trans {a b : Nat} {l l' l'' : List α} (first : Permutes a b l l')
    (second : Permutes a b l' l'') : Permutes a b l l'' :=
  ⟨second.length.trans first.length, fun k out => (second.outside k out).trans (first.outside k out),
    second.perm.trans first.perm⟩

theorem Permutes.widen {a b a' b' : Nat} {l l' : List α} (inner : Permutes a b l l') (aa : a' ≤ a)
    (ab : a ≤ b) (bb : b ≤ b') : Permutes a' b' l l' := by
  refine ⟨inner.length, fun k out => inner.outside k (by omega), ?_⟩
  have front : window a' a l' = window a' a l := window_congr fun k _ kb => inner.outside k (.inl kb)
  have back : window b b' l' = window b b' l := window_congr fun k bk _ => inner.outside k (.inr bk)
  rw [window_split l' aa (Nat.le_trans ab bb), window_split l aa (Nat.le_trans ab bb),
    window_split l' ab bb, window_split l ab bb, front, back]
  exact (List.Perm.refl _).append (inner.perm.append (List.Perm.refl _))

theorem Permutes.list_perm {a b : Nat} {l l' : List α} (p : Permutes a b l l') (ab : a ≤ b) : l'.Perm l := by
  have front : l'.take a = l.take a := by
    apply List.ext_getElem?
    intro k
    rw [List.getElem?_take, List.getElem?_take]
    split
    · exact p.outside k (.inl ‹_›)
    · rfl
  have back : l'.drop b = l.drop b := by
    apply List.ext_getElem?
    intro k
    rw [List.getElem?_drop, List.getElem?_drop]
    exact p.outside _ (.inr (Nat.le_add_right b k))
  rw [← take_window_drop l' ab, ← take_window_drop l ab, front, back]
  exact ((List.Perm.refl _).append p.perm).append (List.Perm.refl _)

theorem Permutes.mem_iff {a b : Nat} {l l' : List α} (p : Permutes a b l l') {x : α} :
    x ∈ window a b l' ↔ x ∈ window a b l :=
  p.perm.mem_iff

theorem swap_permutes {a b i j : Nat} {l : List α} (ai : a ≤ i) (ib : i < b) (aj : a ≤ j) (jb : j < b)
    (bl : b ≤ l.length) : Permutes a b l (swap l i j) := by
  refine ⟨length_swap l i j, fun k out => ?_, ?_⟩
  · rw [getElem?_swap (by omega) (by omega), if_neg (by omega), if_neg (by omega)]
  · have windowed : window a b (swap l i j) = swap (window a b l) (i - a) (j - a) := by
      apply List.ext_getElem?
      intro k
      have lw := length_window a b l
      rw [getElem?_swap (by omega) (by omega), getElem?_window, getElem?_window, getElem?_window,
        getElem?_window, getElem?_swap (by omega) (by omega)]
      by_cases kb : a + k < b
      · simp only [if_pos kb, if_pos (show a + (i - a) < b by omega), if_pos (show a + (j - a) < b by omega)]
        split_ifs <;> first | rfl | omega | (congr 1; omega)
      · rw [if_neg kb]
        split_ifs <;> first | rfl | omega
    rw [windowed]
    exact swap_perm _ _ _

theorem getElem?_swap_left {l : List α} {i j : Nat} (hi : i < l.length) (hj : j < l.length) :
    (swap l i j)[i]? = l[j]? := by
  rw [getElem?_swap hi hj, if_pos rfl]

theorem getElem?_swap_right {l : List α} {i j : Nat} (hi : i < l.length) (hj : j < l.length) :
    (swap l i j)[j]? = l[i]? := by
  rw [getElem?_swap hi hj]
  split_ifs with same
  · rw [same]
  · rfl
  · contradiction

theorem getElem?_swap_other {l : List α} {i j k : Nat} (ki : k ≠ i) (kj : k ≠ j) :
    (swap l i j)[k]? = l[k]? := by
  by_cases inside : i < l.length ∧ j < l.length
  · rw [getElem?_swap inside.1 inside.2, if_neg ki, if_neg kj]
  · rw [swap, dif_neg inside]

variable (less : α → α → Bool)

/-- The laws `sort.Slice` needs of `less` over the values `ok` admits: asymmetry, and
transitivity of not-less, so that the elements it leaves unordered are equivalent. -/
structure StrictWeakOn (ok : α → Prop) : Prop where
  asymm : ∀ {x y}, less x y = true → less y x = false
  negTrans : ∀ {x y z}, ok x → ok y → ok z → less x y = false → less y z = false → less x z = false

variable {less}

theorem StrictWeakOn.irrefl {ok : α → Prop} (order : StrictWeakOn less ok) (x : α) : less x x = false := by
  cases h : less x x
  · rfl
  · exact ((order.asymm h).symm.trans h).symm

theorem lessAt_some {l : List α} {i j : Nat} {x y : α} (gi : l[i]? = some x) (gj : l[j]? = some y) :
    lessAt less l i j = less x y := by
  simp only [lessAt, gi, gj]

theorem lessAt_congr {l l' : List α} {i j i' j' : Nat} (si : l'[i']? = l[i]?) (sj : l'[j']? = l[j]?) :
    lessAt less l' i' j' = lessAt less l i j := by
  simp only [lessAt, si, sj]

theorem lessAt_asymm {ok : α → Prop} (order : StrictWeakOn less ok) {l : List α} {i j : Nat}
    (lt : lessAt less l i j = true) : lessAt less l j i = false := by
  unfold lessAt at lt ⊢
  split at lt
  · rename_i x y gi gj
    simp only [gj, gi]
    exact order.asymm lt
  · cases lt

theorem lessAt_irrefl {ok : α → Prop} (order : StrictWeakOn less ok) (l : List α) (i : Nat) :
    lessAt less l i i = false := by
  unfold lessAt
  split
  · rename_i x y gi gj
    rw [gi] at gj
    cases gj
    exact order.irrefl x
  · rfl

theorem lessAt_negTrans {ok : α → Prop} (order : StrictWeakOn less ok) {l : List α} (oks : ∀ y ∈ l, ok y)
    {i j k : Nat} (hi : i < l.length) (hj : j < l.length) (hk : k < l.length)
    (ij : lessAt less l i j = false) (jk : lessAt less l j k = false) : lessAt less l i k = false := by
  rw [lessAt_some (List.getElem?_eq_getElem hi) (List.getElem?_eq_getElem hj)] at ij
  rw [lessAt_some (List.getElem?_eq_getElem hj) (List.getElem?_eq_getElem hk)] at jk
  rw [lessAt_some (List.getElem?_eq_getElem hi) (List.getElem?_eq_getElem hk)]
  exact order.negTrans (oks _ (List.getElem_mem _)) (oks _ (List.getElem_mem _)) (oks _ (List.getElem_mem _)) ij jk

variable (less)

def SortedRange (a b : Nat) (l : List α) : Prop := ∀ k, a < k → k < b → lessAt less l k (k - 1) = false

def Floor (a b : Nat) (l : List α) : Prop :=
  ∀ x, 0 < a → l[a - 1]? = some x → ∀ y ∈ window a b l, less y x = false

variable {less}

theorem sortedRange_of_le {a b : Nat} (l : List α) (short : b ≤ a + 1) : SortedRange less a b l :=
  fun _ ak kb => absurd (Nat.lt_of_lt_of_le kb short) (by omega)

theorem SortedRange.mono {a b a' b' : Nat} {l : List α} (sorted : SortedRange less a b l) (aa : a ≤ a')
    (bb : b' ≤ b) : SortedRange less a' b' l :=
  fun k ak kb => sorted k (by omega) (by omega)

theorem SortedRange.congr {a b : Nat} {l l' : List α} (sorted : SortedRange less a b l)
    (same : ∀ k, a ≤ k → k < b → l'[k]? = l[k]?) : SortedRange less a b l' := fun k ak kb => by
  rw [lessAt_congr (same k (by omega) kb) (same (k - 1) (by omega) (by omega))]
  exact sorted k ak kb

theorem SortedRange.join {a c b : Nat} {l : List α} (left : SortedRange less a c l) (right : SortedRange less c b l)
    (meet : a < c → c < b → lessAt less l c (c - 1) = false) : SortedRange less a b l := fun k ak kb => by
  rcases Nat.lt_trichotomy k c with kc | rfl | ck
  · exact left k ak kc
  · exact meet ak kb
  · exact right k ck kb

theorem Floor.permutes {a b : Nat} {l l' : List α} (floor : Floor less a b l) (p : Permutes a b l l') :
    Floor less a b l' := fun x pos below y mem =>
  floor x pos (by rw [← p.outside (a - 1) (.inl (by omega)), below]) y (p.mem_iff.mp mem)

theorem Floor.shrink {a b b' : Nat} {l : List α} (floor : Floor less a b l) (bb : b' ≤ b) :
    Floor less a b' l := fun x pos below y mem => by
  obtain ⟨k, ak, kb, get⟩ := exists_of_mem_window mem
  exact floor x pos below y (mem_window ak (by omega) get)

theorem Floor.lessAt {a b k : Nat} {l : List α} (floor : Floor less a b l) (pos : 0 < a) (ak : a ≤ k) (kb : k < b)
    (bl : b ≤ l.length) : lessAt less l k (a - 1) = false := by
  rw [lessAt_some (List.getElem?_eq_getElem (by omega)) (List.getElem?_eq_getElem (by omega))]
  exact floor _ pos (List.getElem?_eq_getElem _) _ (mem_window ak kb (List.getElem?_eq_getElem _))

theorem floor_of_lessAt {a b : Nat} {l : List α} (below : ∀ k, a ≤ k → k < b → lessAt less l k (a - 1) = false) :
    Floor less a b l := fun _ _ get _ mem => by
  obtain ⟨k, ak, kb, getk⟩ := exists_of_mem_window mem
  exact (lessAt_some getk get).symm.trans (below k ak kb)

theorem Floor.congr {a b : Nat} {l l' : List α} (floor : Floor less a b l)
    (same : ∀ k, a - 1 ≤ k → k < b → l'[k]? = l[k]?) : Floor less a b l' := fun x pos below y mem => by
  obtain ⟨k, ak, kb, -⟩ := exists_of_mem_window mem
  rw [same (a - 1) le_rfl (by omega)] at below
  rw [window_congr fun k ak kb => same k (by omega) kb] at mem
  exact floor x pos below y mem

variable (less) in
def Ceil (a b : Nat) (l : List α) : Prop :=
  ∀ x, l[b]? = some x → ∀ y ∈ window a b l, less x y = false

theorem Ceil.permutes {a b : Nat} {l l' : List α} (ceil : Ceil less a b l) (p : Permutes a b l l') :
    Ceil less a b l' := fun x above y mem =>
  ceil x (by rw [← p.outside b (.inr le_rfl), above]) y (p.mem_iff.mp mem)

theorem Ceil.lessAt {a b k : Nat} {l : List α} (ceil : Ceil less a b l) (ak : a ≤ k) (kb : k < b)
    (bl : b < l.length) : lessAt less l b k = false := by
  rw [lessAt_some (List.getElem?_eq_getElem bl) (List.getElem?_eq_getElem (by omega))]
  exact ceil _ (List.getElem?_eq_getElem _) _ (mem_window ak kb (List.getElem?_eq_getElem _))

theorem ceil_of_lessAt {a b : Nat} {l : List α} (above : ∀ k, a ≤ k → k < b → lessAt less l b k = false) :
    Ceil less a b l := fun _ get _ mem => by
  obtain ⟨k, ak, kb, getk⟩ := exists_of_mem_window mem
  exact (lessAt_some get getk).symm.trans (above k ak kb)

theorem Ceil.congr {a b : Nat} {l l' : List α} (ceil : Ceil less a b l)
    (same : ∀ k, a ≤ k → k ≤ b → l'[k]? = l[k]?) : Ceil less a b l' := fun x above y mem => by
  obtain ⟨k, ak, kb, -⟩ := exists_of_mem_window mem
  rw [same b (by omega) le_rfl] at above
  rw [window_congr fun k ak kb => same k ak kb.le] at mem
  exact ceil x above y mem

theorem Permutes.forall_mem {a b : Nat} {l l' : List α} {P : α → Prop} (p : Permutes a b l l') (ab : a ≤ b)
    (all : ∀ y ∈ l, P y) : ∀ y ∈ l', P y := fun y mem =>
  all y ((p.list_perm ab).subset mem)

theorem SortedRange.around {a m b : Nat} {l : List α} (left : SortedRange less a m l)
    (right : SortedRange less (m + 1) b l) (ceil : Ceil less a m l) (floor : Floor less (m + 1) b l)
    (bl : b ≤ l.length) : SortedRange less a b l :=
  left.join ((sortedRange_of_le l le_rfl).join right fun _ mb => floor.lessAt (Nat.succ_pos m) le_rfl mb bl)
    fun am mb => ceil.lessAt (by omega) (by omega) (by omega)

theorem SortedRange.lessAt_of_lt {ok : α → Prop} (order : StrictWeakOn less ok) {a b i : Nat} {l : List α}
    (oks : ∀ y ∈ l, ok y) (sorted : SortedRange less a b l) (bl : b ≤ l.length) (ai : a ≤ i) :
    ∀ j, i < j → j < b → lessAt less l j i = false
  | 0, ij, _ => absurd ij (Nat.not_lt_zero i)
  | j + 1, ij, jb => by
    rcases Nat.lt_or_ge i j with below | above
    · exact lessAt_negTrans order oks (by omega) (by omega) (by omega) (sorted (j + 1) (by omega) jb)
        (SortedRange.lessAt_of_lt order oks sorted bl ai j below (by omega))
    · obtain rfl : i = j := by omega
      exact sorted (i + 1) (by omega) jb

end Symplex.PdqSort
