import Symplex.PdqSort.Window

namespace Symplex.PdqSort

variable {α : Type} {less : α → α → Bool} {ok : α → Prop}

theorem advance_spec (p : Nat → Bool) (j : Nat) : ∀ (n i : Nat), j + 1 - i ≤ n → i ≤ j + 1 →
    i ≤ advance p j n i ∧ advance p j n i ≤ j + 1 ∧ (∀ k, i ≤ k → k < advance p j n i → p k = true) ∧
      (advance p j n i ≤ j → p (advance p j n i) = false)
  | 0, i, fuel, meet => by
    rw [advance]
    exact ⟨le_rfl, meet, fun k ik ki => absurd ki (by omega), fun ij => absurd ij (by omega)⟩
  | n + 1, i, fuel, meet => by
    rw [advance]
    split
    · rename_i go
      have rest := advance_spec p j n (i + 1) (by omega) (by omega)
      refine ⟨by omega, rest.2.1, fun k ik kr => ?_, rest.2.2.2⟩
      rcases Nat.eq_or_lt_of_le ik with rfl | ik
      · exact go.2
      · exact rest.2.2.1 k ik kr
    · rename_i stop
      exact ⟨le_rfl, meet, fun k ik ki => absurd ki (by omega), fun ij => by simpa [ij] using stop⟩

theorem retreat_spec (p : Nat → Bool) (i : Nat) (pos : 1 ≤ i) : ∀ (n j : Nat), j + 1 - i ≤ n → i ≤ j + 1 →
    retreat p i n j ≤ j ∧ i ≤ retreat p i n j + 1 ∧ (∀ k, retreat p i n j < k → k ≤ j → p k = true) ∧
      (i ≤ retreat p i n j → p (retreat p i n j) = false)
  | 0, j, fuel, meet => by
    rw [retreat]
    exact ⟨le_rfl, meet, fun k jk kj => absurd kj (by omega), fun ij => absurd ij (by omega)⟩
  | n + 1, j, fuel, meet => by
    rw [retreat]
    split
    · rename_i go
      have rest := retreat_spec p i pos n (j - 1) (by omega) (by omega)
      refine ⟨by omega, rest.2.1, fun k rk kj => ?_, rest.2.2.2⟩
      rcases Nat.eq_or_lt_of_le kj with rfl | kj
      · exact go.2
      · exact rest.2.2.1 k rk (by omega)
    · rename_i stop
      exact ⟨le_rfl, meet, fun k jk kj => absurd kj (by omega), fun ij => by simpa [ij] using stop⟩

theorem round_spec (P Q : Nat → Bool) (negation : ∀ k, Q k = !P k) {i j : Nat} (pos : 1 ≤ i) (meet : i ≤ j + 1) :
    i ≤ advance P j (j + 1 - i) i ∧
      retreat Q (advance P j (j + 1 - i) i) (j + 1 - advance P j (j + 1 - i) i) j ≤ j ∧
      (∀ k, i ≤ k → k < advance P j (j + 1 - i) i → P k = true) ∧
      (∀ k, retreat Q (advance P j (j + 1 - i) i) (j + 1 - advance P j (j + 1 - i) i) j < k → k ≤ j → P k = false) ∧
      (retreat Q (advance P j (j + 1 - i) i) (j + 1 - advance P j (j + 1 - i) i) j < advance P j (j + 1 - i) i →
        retreat Q (advance P j (j + 1 - i) i) (j + 1 - advance P j (j + 1 - i) i) j + 1 = advance P j (j + 1 - i) i) ∧
      (advance P j (j + 1 - i) i ≤ retreat Q (advance P j (j + 1 - i) i) (j + 1 - advance P j (j + 1 - i) i) j →
        advance P j (j + 1 - i) i < retreat Q (advance P j (j + 1 - i) i) (j + 1 - advance P j (j + 1 - i) i) j ∧
          P (advance P j (j + 1 - i) i) = false ∧
          P (retreat Q (advance P j (j + 1 - i) i) (j + 1 - advance P j (j + 1 - i) i) j) = true) := by
  obtain ⟨ii, ij, passed, stopI⟩ := advance_spec P j (j + 1 - i) i le_rfl meet
  generalize advance P j (j + 1 - i) i = i' at ii ij passed stopI ⊢
  obtain ⟨jj, ji, failed, stopJ⟩ := retreat_spec Q i' (by omega) (j + 1 - i') j le_rfl ij
  generalize retreat Q i' (j + 1 - i') j = j' at jj ji failed stopJ ⊢
  refine ⟨ii, jj, passed, fun k jk kj => by simpa [negation] using failed k jk kj, fun crossed => by omega,
    fun le => ?_⟩
  have atJ : P j' = true := by simpa [negation] using stopJ le
  have atI : P i' = false := stopI (by omega)
  exact ⟨Nat.lt_of_le_of_ne le (fun same => by rw [same, atJ] at atI; cases atI), atI, atJ⟩

variable (less) in
structure Partitioning (a b i j : Nat) (l : List α) : Prop where
  lower : a < i
  upper : j < b
  meet : i ≤ j + 1
  left : ∀ k, a < k → k < i → lessAt less l k a = true
  right : ∀ k, j < k → k < b → lessAt less l k a = false

variable (less) in
structure Partitioned (a b m : Nat) (l : List α) : Prop where
  lower : a ≤ m
  upper : m < b
  left : ∀ k, a < k → k ≤ m → lessAt less l k a = true
  right : ∀ k, m < k → k < b → lessAt less l k a = false

theorem Partitioning.round {a b i j : Nat} {l : List α} (st : Partitioning less a b i j l) (bl : b ≤ l.length) :
    let i' := advance (fun k => lessAt less l k a) j (j + 1 - i) i
    let j' := retreat (fun k => !lessAt less l k a) i' (j + 1 - i') j
    (j' < i' → Partitioned less a b j' l) ∧
      (¬ j' < i' → Permutes (a + 1) b l (swap l i' j') ∧ i ≤ i' ∧ Partitioning less a b (i' + 1) (j' - 1) (swap l i' j')) := by
  have lower := st.lower
  have upper := st.upper
  dsimp only
  obtain ⟨ii, jj, passed, failed, crossed, stuck⟩ :=
    round_spec (fun k => lessAt less l k a) (fun k => !lessAt less l k a) (fun _ => rfl) (by omega) st.meet
  generalize advance (fun k => lessAt less l k a) j (j + 1 - i) i = i' at ii jj passed failed crossed stuck ⊢
  generalize retreat (fun k => !lessAt less l k a) i' (j + 1 - i') j = j' at jj failed crossed stuck ⊢
  have lefts : ∀ k, a < k → k < i' → lessAt less l k a = true := fun k ak ki =>
    if ik : i ≤ k then passed k ik ki else st.left k ak (by omega)
  have rights : ∀ k, j' < k → k < b → lessAt less l k a = false := fun k jk kb =>
    if kj : k ≤ j then failed k jk kj else st.right k (by omega) kb
  refine ⟨fun lt => ⟨by omega, by omega, fun k ak kj => lefts k ak (by omega), rights⟩,
    fun ge => ?_⟩
  obtain ⟨lt, atI, atJ⟩ := stuck (by omega)
  have atA : (swap l i' j')[a]? = l[a]? := getElem?_swap_other (by omega) (by omega)
  refine ⟨swap_permutes (by omega) (by omega) (by omega) (by omega) bl, ii,
    ⟨by omega, by omega, by omega, fun k ak ki => ?_, fun k jk kb => ?_⟩⟩
  · rcases Nat.lt_or_ge k i' with ki' | ki'
    · rw [lessAt_congr (getElem?_swap_other (by omega) (by omega)) atA]
      exact lefts k ak ki'
    · obtain rfl : k = i' := by omega
      rw [lessAt_congr (getElem?_swap_left (by omega) (by omega)) atA]
      exact atJ
  · rcases Nat.lt_or_ge j' k with jk' | jk'
    · rw [lessAt_congr (getElem?_swap_other (by omega) (by omega)) atA]
      exact rights k jk' kb
    · obtain rfl : k = j' := by omega
      rw [lessAt_congr (getElem?_swap_right (by omega) (by omega)) atA]
      exact atI

theorem partitionLoop_spec {a b : Nat} :
    ∀ (n i j : Nat) (l : List α), b - i ≤ n → b ≤ l.length → Partitioning less a b i j l →
      Permutes (a + 1) b l (partitionLoop less a n i j l).2 ∧
        Partitioned less a b (partitionLoop less a n i j l).1 (partitionLoop less a n i j l).2
  | 0, i, j, l, fuel, _, st => by
    rw [partitionLoop]
    have := st.meet
    have := st.upper
    exact ⟨Permutes.refl _ _ _, ⟨by have := st.lower; omega, st.upper, fun k ak kj => st.left k ak (by omega), st.right⟩⟩
  | n + 1, i, j, l, fuel, bl, st => by
    obtain ⟨crossed, stuck⟩ := st.round bl
    rw [partitionLoop]
    split
    · exact ⟨Permutes.refl _ _ _, crossed ‹_›⟩
    · obtain ⟨swapped, ii, next⟩ := stuck ‹_›
      have rest := @partitionLoop_spec a b n _ _ _ (by have := next.lower; omega) (by rw [swapped.length]; exact bl) next
      exact ⟨swapped.trans rest.1, rest.2⟩

theorem Partitioned.swapPivot {a b m : Nat} {l : List α} (done : Partitioned less a b m l) (bl : b ≤ l.length) :
    Permutes a b l (swap l m a) ∧ (∀ k, a ≤ k → k < m → lessAt less (swap l m a) k m = true) ∧
      (∀ k, m < k → k < b → lessAt less (swap l m a) k m = false) := by
  have lower := done.lower
  have upper := done.upper
  have atM : (swap l m a)[m]? = l[a]? := getElem?_swap_left (by omega) (by omega)
  refine ⟨swap_permutes (by omega) upper le_rfl (by omega) bl, fun k ak km => ?_, fun k mk kb => ?_⟩
  · rcases Nat.eq_or_lt_of_le ak with rfl | ak
    · rw [lessAt_congr (getElem?_swap_right (by omega) (by omega)) atM]
      exact done.left m (by omega) le_rfl
    · rw [lessAt_congr (getElem?_swap_other (by omega) (by omega)) atM]
      exact done.left k ak (by omega)
  · rw [lessAt_congr (getElem?_swap_other (by omega) (by omega)) atM]
    exact done.right k mk kb

theorem partition_spec {a b pivot : Nat} (l : List α) (ap : a ≤ pivot) (pb : pivot < b) (bl : b ≤ l.length) :
    a ≤ (partition less a b pivot l).1 ∧ (partition less a b pivot l).1 < b ∧
      Permutes a b l (partition less a b pivot l).2.2 ∧
      (∀ k, a ≤ k → k < (partition less a b pivot l).1 →
        lessAt less (partition less a b pivot l).2.2 k (partition less a b pivot l).1 = true) ∧
      (∀ k, (partition less a b pivot l).1 < k → k < b →
        lessAt less (partition less a b pivot l).2.2 k (partition less a b pivot l).1 = false) := by
  have swapped : Permutes a b l (swap l a pivot) := swap_permutes le_rfl (by omega) ap pb bl
  have start : Partitioning less a b (a + 1) (b - 1) (swap l a pivot) :=
    ⟨by omega, by omega, by omega, fun k ak ka => absurd ka (by omega), fun k bk kb => absurd kb (by omega)⟩
  have sl : b ≤ (swap l a pivot).length := by rw [length_swap]; exact bl
  obtain ⟨crossed, stuck⟩ := start.round sl
  rw [Nat.sub_add_cancel (by omega : 1 ≤ b)] at crossed stuck
  unfold partition
  dsimp only
  generalize advance (fun k => lessAt less (swap l a pivot) k a) (b - 1) (b - (a + 1)) (a + 1) = i at crossed stuck ⊢
  generalize retreat (fun k => !lessAt less (swap l a pivot) k a) i (b - i) (b - 1) = j at crossed stuck ⊢
  split
  · obtain ⟨moved, left, right⟩ := (crossed ‹_›).swapPivot sl
    exact ⟨(crossed ‹_›).lower, (crossed ‹_›).upper, swapped.trans moved, left, right⟩
  · obtain ⟨moved, ii, next⟩ := stuck ‹_›
    have looped := @partitionLoop_spec α less a b (b - a) _ _ _ (by omega)
      (by rw [moved.length]; exact sl) next
    generalize partitionLoop less a (b - a) (i + 1) (j - 1) (swap (swap l a pivot) i j) = r at looped
    obtain ⟨m, l'⟩ := r
    obtain ⟨final, left, right⟩ := looped.2.swapPivot (by rw [looped.1.length, moved.length]; exact sl)
    exact ⟨looped.2.lower, looped.2.upper, swapped.trans ((moved.widen (by omega) (by omega) le_rfl).trans
      ((looped.1.widen (by omega) (by omega) le_rfl).trans final)), left, right⟩

variable (less) in
structure EqPartitioning (a b i j : Nat) (l : List α) : Prop where
  lower : a < i
  upper : j < b
  meet : i ≤ j + 1
  left : ∀ k, a < k → k < i → lessAt less l a k = false
  right : ∀ k, j < k → k < b → lessAt less l a k = true

variable (less) in
structure EqPartitioned (a b m : Nat) (l : List α) : Prop where
  lower : a < m
  upper : m ≤ b
  left : ∀ k, a < k → k < m → lessAt less l a k = false
  right : ∀ k, m ≤ k → k < b → lessAt less l a k = true

theorem EqPartitioning.round {a b i j : Nat} {l : List α} (st : EqPartitioning less a b i j l) (bl : b ≤ l.length) :
    let i' := advance (fun k => !lessAt less l a k) j (j + 1 - i) i
    let j' := retreat (fun k => lessAt less l a k) i' (j + 1 - i') j
    (j' < i' → EqPartitioned less a b i' l) ∧
      (¬ j' < i' → Permutes (a + 1) b l (swap l i' j') ∧ i ≤ i' ∧ EqPartitioning less a b (i' + 1) (j' - 1) (swap l i' j')) := by
  have lower := st.lower
  have upper := st.upper
  have meet := st.meet
  dsimp only
  obtain ⟨ii, jj, passed, failed, crossed, stuck⟩ :=
    round_spec (fun k => !lessAt less l a k) (fun k => lessAt less l a k) (fun _ => by simp) (by omega) st.meet
  generalize advance (fun k => !lessAt less l a k) j (j + 1 - i) i = i' at ii jj passed failed crossed stuck ⊢
  generalize retreat (fun k => lessAt less l a k) i' (j + 1 - i') j = j' at jj failed crossed stuck ⊢
  have lefts : ∀ k, a < k → k < i' → lessAt less l a k = false := fun k ak ki =>
    if ik : i ≤ k then by simpa using passed k ik ki else st.left k ak (by omega)
  have rights : ∀ k, j' < k → k < b → lessAt less l a k = true := fun k jk kb =>
    if kj : k ≤ j then by simpa using failed k jk kj else st.right k (by omega) kb
  refine ⟨fun lt => ⟨by omega, by omega, lefts, fun k ik kb => rights k (by omega) kb⟩, fun ge => ?_⟩
  obtain ⟨lt, atI, atJ⟩ := stuck (by omega)
  have atA : (swap l i' j')[a]? = l[a]? := getElem?_swap_other (by omega) (by omega)
  refine ⟨swap_permutes (by omega) (by omega) (by omega) (by omega) bl, ii,
    ⟨by omega, by omega, by omega, fun k ak ki => ?_, fun k jk kb => ?_⟩⟩
  · rcases Nat.lt_or_ge k i' with ki' | ki'
    · rw [lessAt_congr atA (getElem?_swap_other (by omega) (by omega))]
      exact lefts k ak ki'
    · obtain rfl : k = i' := by omega
      rw [lessAt_congr atA (getElem?_swap_left (by omega) (by omega))]
      simpa using atJ
  · rcases Nat.lt_or_ge j' k with jk' | jk'
    · rw [lessAt_congr atA (getElem?_swap_other (by omega) (by omega))]
      exact rights k jk' kb
    · obtain rfl : k = j' := by omega
      rw [lessAt_congr atA (getElem?_swap_right (by omega) (by omega))]
      simpa using atI

theorem partitionEqualLoop_spec {a b : Nat} :
    ∀ (n i j : Nat) (l : List α), b - i ≤ n → b ≤ l.length → EqPartitioning less a b i j l →
      Permutes (a + 1) b l (partitionEqualLoop less a n i j l).2 ∧
        EqPartitioned less a b (partitionEqualLoop less a n i j l).1 (partitionEqualLoop less a n i j l).2
  | 0, i, j, l, fuel, _, st => by
    rw [partitionEqualLoop]
    have := st.meet
    have := st.upper
    exact ⟨Permutes.refl _ _ _, ⟨st.lower, by omega, st.left, fun k ik kb => st.right k (by omega) kb⟩⟩
  | n + 1, i, j, l, fuel, bl, st => by
    obtain ⟨crossed, stuck⟩ := st.round bl
    rw [partitionEqualLoop]
    split
    · exact ⟨Permutes.refl _ _ _, crossed ‹_›⟩
    · obtain ⟨swapped, ii, next⟩ := stuck ‹_›
      have rest := @partitionEqualLoop_spec a b n _ _ _ (by have := next.lower; omega)
        (by rw [swapped.length]; exact bl) next
      exact ⟨swapped.trans rest.1, rest.2⟩

theorem partitionEqual_partitioned {a b pivot : Nat} (l : List α) (ap : a ≤ pivot) (pb : pivot < b)
    (bl : b ≤ l.length) :
    Permutes a b l (partitionEqual less a b pivot l).2 ∧
      EqPartitioned less a b (partitionEqual less a b pivot l).1 (partitionEqual less a b pivot l).2 ∧
      (partitionEqual less a b pivot l).2[a]? = l[pivot]? := by
  have swapped : Permutes a b l (swap l a pivot) := swap_permutes le_rfl (by omega) ap pb bl
  obtain ⟨moved, done⟩ := @partitionEqualLoop_spec α less a b (b - a) (a + 1) (b - 1) (swap l a pivot) (by omega)
    (by rw [length_swap]; exact bl)
    ⟨by omega, by omega, by omega, fun k ak ka => absurd ka (by omega), fun k bk kb => absurd kb (by omega)⟩
  exact ⟨swapped.trans (moved.widen (by omega) (by omega) le_rfl), done,
    (moved.outside a (.inl (Nat.lt_succ_self a))).trans (getElem?_swap_left (by omega) (by omega))⟩

theorem partitionEqual_spec (order : StrictWeakOn less ok) {a b pivot : Nat} (l : List α) (ap : a ≤ pivot)
    (pb : pivot < b) (bl : b ≤ l.length) :
    a < (partitionEqual less a b pivot l).1 ∧ (partitionEqual less a b pivot l).1 ≤ b ∧
      Permutes a b l (partitionEqual less a b pivot l).2 ∧
      (∀ k, a ≤ k → k < (partitionEqual less a b pivot l).1 → lessAt less (partitionEqual less a b pivot l).2 a k = false) ∧
      (∀ k, (partitionEqual less a b pivot l).1 ≤ k → k < b → lessAt less (partitionEqual less a b pivot l).2 a k = true) ∧
      (partitionEqual less a b pivot l).2[a]? = l[pivot]? := by
  obtain ⟨moved, done, pivotAt⟩ := partitionEqual_partitioned l ap pb bl
  refine ⟨done.lower, done.upper, moved, fun k ak km => ?_, done.right, pivotAt⟩
  rcases Nat.eq_or_lt_of_le ak with rfl | ak
  · exact lessAt_irrefl order _ _
  · exact done.left k ak km

end Symplex.PdqSort
