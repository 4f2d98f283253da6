import Mathlib.Algebra.Group.Nat.Basic
import Mathlib.Data.List.FinRange
import Symplex.Basic

namespace Symplex.PdqSort

variable {α : Type} (less : α → α → Bool)

/-- `data.Less(i, j)`. -/
def lessAt (l : List α) (i j : Nat) : Bool :=
  match l[i]?, l[j]? with
  | some x, some y => less x y
  | _, _ => false

/-- `data.Swap(i, j)`: the elements at `i` and `j` exchanged. -/
def swap (l : List α) (i j : Nat) : List α :=
  if h : i < l.length ∧ j < l.length then List.ofFn (l.get ∘ Equiv.swap ⟨i, h.1⟩ ⟨j, h.2⟩) else l

def insertDown : Nat → Nat → List α → List α
  | 0, _, l => l
  | k + 1, j, l => if lessAt less l j (j - 1) then insertDown k (j - 1) (swap l j (j - 1)) else l

/-- `insertionSort_func(data, a, b)`. -/
def insertionSort (a b : Nat) (l : List α) : List α :=
  (List.range' (a + 1) (b - (a + 1))).foldl (fun l i => insertDown less (i - a) i l) l

/-- `siftDown_func(data, lo, hi, first)` from `root`; `n` bounds the iterations, as `root`
grows at each. -/
def siftDown (hi first : Nat) : Nat → Nat → List α → List α
  | 0, _, l => l
  | n + 1, root, l =>
    if hi ≤ 2 * root + 1 then l
    else
      let child := if 2 * root + 2 < hi ∧ lessAt less l (first + 2 * root + 1) (first + 2 * root + 2)
        then 2 * root + 2 else 2 * root + 1
      if !lessAt less l (first + root) (first + child) then l
      else siftDown hi first n child (swap l (first + root) (first + child))

/-- `heapSort_func(data, a, b)`. -/
def heapSort (a b : Nat) (l : List α) : List α :=
  let hi := b - a
  let heap := (List.range ((hi - 1) / 2 + 1)).reverse.foldl (fun l i => siftDown less hi a hi i l) l
  (List.range hi).reverse.foldl (fun l i => siftDown less i a i 0 (swap l a (a + i))) heap

/-- `xorshift.Next`. -/
def xorshiftNext (r : BitVec 64) : BitVec 64 :=
  let r := r ^^^ (r <<< 13)
  let r := r ^^^ (r >>> 7)
  r ^^^ (r <<< 17)

/-- `bits.Len(uint(n))`. -/
def bitsLen (n : Nat) : Nat := if n = 0 then 0 else n.log2 + 1

/-- `breakPatterns_func(data, a, b)`: three swaps at positions drawn from a generator seeded
with the length. -/
def breakPatterns (a b : Nat) (l : List α) : List α :=
  let length := b - a
  if length < 8 then l
  else
    let modulus := 2 ^ bitsLen length
    let idx := a + length / 4 * 2 - 1
    ((List.range 3).foldl (fun (state : List α × BitVec 64) i =>
      let random := xorshiftNext state.2
      let other := random.toNat % modulus
      let other := if length ≤ other then other - length else other
      (swap state.1 (idx - 1 + i) (a + other), random)) (l, BitVec.ofNat 64 length)).1

/-- `sortedHint`. -/
inductive SortedHint where
  | unknown
  | increasing
  | decreasing
  deriving DecidableEq

/-- `order2_func`: `a` and `b` in `Less` order, counting a swap when they were not. -/
def order2 (l : List α) (a b swaps : Nat) : Nat × Nat × Nat :=
  if lessAt less l b a then (b, a, swaps + 1) else (a, b, swaps)

/-- `median_func`: the index of the median of `a`, `b` and `c`. -/
def median (l : List α) (a b c swaps : Nat) : Nat × Nat :=
  let (a, b, swaps) := order2 less l a b swaps
  let (b, _, swaps) := order2 less l b c swaps
  let (_, b, swaps) := order2 less l a b swaps
  (b, swaps)

/-- `medianAdjacent_func`. -/
def medianAdjacent (l : List α) (a swaps : Nat) : Nat × Nat := median less l (a - 1) a (a + 1) swaps

/-- `choosePivot_func(data, a, b)`: a static pivot below 8 elements, a median of three below
50, Tukey's ninther from 50 on; the hint says how many of the comparisons swapped. -/
def choosePivot (l : List α) (a b : Nat) : Nat × SortedHint :=
  let len := b - a
  let (pivot, swaps) :=
    if 8 ≤ len then
      if 50 ≤ len then
        let (i, swaps) := medianAdjacent less l (a + len / 4 * 1) 0
        let (j, swaps) := medianAdjacent less l (a + len / 4 * 2) swaps
        let (k, swaps) := medianAdjacent less l (a + len / 4 * 3) swaps
        median less l i j k swaps
      else median less l (a + len / 4 * 1) (a + len / 4 * 2) (a + len / 4 * 3) 0
    else (a + len / 4 * 2, 0)
  (pivot, if swaps = 0 then .increasing else if swaps = 12 then .decreasing else .unknown)

/-- `reverseRange_func(data, a, b)`. -/
def reverseRange (a b : Nat) (l : List α) : List α :=
  (List.range ((b - a) / 2)).foldl (fun l n => swap l (a + n) (b - 1 - n)) l

def skipSorted (l : List α) (b : Nat) : Nat → Nat → Nat
  | 0, i => i
  | n + 1, i => if i < b ∧ !lessAt less l i (i - 1) then skipSorted l b n (i + 1) else i

def shiftLeft : Nat → List α → List α
  | 0, l => l
  | j + 1, l => if !lessAt less l (j + 1) j then l else shiftLeft j (swap l (j + 1) j)

def shiftRight : Nat → Nat → List α → List α
  | 0, _, l => l
  | n + 1, j, l => if !lessAt less l j (j - 1) then l else shiftRight n (j + 1) (swap l j (j - 1))

/-- `partialInsertionSort_func(data, a, b)` from its `steps`-th last step, at `i`: whether the
range ended sorted, and the slice. -/
def partialInsertionSort (a b : Nat) : Nat → Nat → List α → Bool × List α
  | 0, _, l => (false, l)
  | steps + 1, i, l =>
    let i := skipSorted less l b (b - i) i
    if i = b then (true, l)
    else if b - a < 50 then (false, l)
    else
      let l := swap l i (i - 1)
      let l := if 2 ≤ i - a then shiftLeft less (i - 1) l else l
      let l := if 2 ≤ b - i then shiftRight less (b - (i + 1)) (i + 1) l else l
      partialInsertionSort a b steps i l

def advance (p : Nat → Bool) (j : Nat) : Nat → Nat → Nat
  | 0, i => i
  | n + 1, i => if i ≤ j ∧ p i then advance p j n (i + 1) else i

def retreat (p : Nat → Bool) (i : Nat) : Nat → Nat → Nat
  | 0, j => j
  | n + 1, j => if i ≤ j ∧ p j then retreat p i n (j - 1) else j

def partitionLoop (a : Nat) : Nat → Nat → Nat → List α → Nat × List α
  | 0, _, j, l => (j, l)
  | n + 1, i, j, l =>
    let i := advance (fun i => lessAt less l i a) j (j + 1 - i) i
    let j := retreat (fun j => !lessAt less l j a) i (j + 1 - i) j
    if j < i then (j, l) else partitionLoop a n (i + 1) (j - 1) (swap l i j)

/-- `partition_func(data, a, b, pivot)`: the pivot's new index, whether the range was already
partitioned, and the slice. -/
def partition (a b pivot : Nat) (l : List α) : Nat × Bool × List α :=
  let l := swap l a pivot
  let i := advance (fun i => lessAt less l i a) (b - 1) (b - (a + 1)) (a + 1)
  let j := retreat (fun j => !lessAt less l j a) i (b - i) (b - 1)
  if j < i then (j, true, swap l j a)
  else
    let (j, l) := partitionLoop less a (b - a) (i + 1) (j - 1) (swap l i j)
    (j, false, swap l j a)

def partitionEqualLoop (a : Nat) : Nat → Nat → Nat → List α → Nat × List α
  | 0, i, _, l => (i, l)
  | n + 1, i, j, l =>
    let i := advance (fun i => !lessAt less l a i) j (j + 1 - i) i
    let j := retreat (fun j => lessAt less l a j) i (j + 1 - i) j
    if j < i then (i, l) else partitionEqualLoop a n (i + 1) (j - 1) (swap l i j)

/-- `partitionEqual_func(data, a, b, pivot)`: the elements equal to the pivot first. -/
def partitionEqual (a b pivot : Nat) (l : List α) : Nat × List α :=
  partitionEqualLoop less a (b - a) (a + 1) (b - 1) (swap l a pivot)

/-- `pdqsort_func(data, a, b, limit)`, the iterations of its loop with `wasBalanced` and
`wasPartitioned` as they stand. `fuel` bounds the depth of iterations and nested calls: each
shrinks `[a, b)`, so `b - a` suffices, and at depth `0` the range is empty. -/
def pdqsort : Nat → Nat → Nat → Nat → Bool → Bool → List α → List α
  | 0, a, b, _, _, _, l => insertionSort less a b l
  | fuel + 1, a, b, limit, wasBalanced, wasPartitioned, l =>
    let length := b - a
    if length ≤ 12 then insertionSort less a b l
    else if limit = 0 then heapSort less a b l
    else
      let (l, limit) := if wasBalanced then (l, limit) else (breakPatterns a b l, limit - 1)
      let (pivot, hint) := choosePivot less l a b
      let (l, pivot, hint) :=
        if hint = .decreasing then (reverseRange a b l, b - 1 - (pivot - a), SortedHint.increasing)
        else (l, pivot, hint)
      let (sorted, l) :=
        if wasBalanced && wasPartitioned && hint = .increasing then partialInsertionSort less a b 5 (a + 1) l
        else (false, l)
      if sorted then l
      else if 0 < a ∧ !lessAt less l (a - 1) pivot then
        let (mid, l) := partitionEqual less a b pivot l
        pdqsort fuel mid b limit wasBalanced wasPartitioned l
      else
        let (mid, alreadyPartitioned, l) := partition less a b pivot l
        if mid - a < b - mid then
          pdqsort fuel (mid + 1) b limit (decide (length / 8 ≤ mid - a)) alreadyPartitioned
            (pdqsort fuel a mid limit true true l)
        else
          pdqsort fuel a mid limit (decide (length / 8 ≤ b - mid)) alreadyPartitioned
            (pdqsort fuel (mid + 1) b limit true true l)

/-- `sort.Slice(x, less)`. -/
def sortSlice (l : List α) : List α := pdqsort less l.length 0 l.length (bitsLen l.length) true true l

open List (Perm)

theorem swap_perm (l : List α) (i j : Nat) : (swap l i j).Perm l := by
  unfold swap
  split
  · exact (Equiv.Perm.ofFn_comp_perm _ _).trans (by rw [List.ofFn_get])
  · exact List.Perm.refl l

theorem foldl_perm {β : Type} {f : List α → β → List α} (step : ∀ l x, (f l x).Perm l) :
    ∀ (xs : List β) (l : List α), (xs.foldl f l).Perm l
  | [], _ => List.Perm.refl _
  | x :: xs, l => (foldl_perm step xs (f l x)).trans (step l x)

theorem insertDown_perm : ∀ (k j : Nat) (l : List α), (insertDown less k j l).Perm l
  | 0, _, _ => List.Perm.refl _
  | k + 1, j, l => by
    unfold insertDown
    split
    · exact (insertDown_perm k _ _).trans (swap_perm l _ _)
    · exact List.Perm.refl l

theorem insertionSort_perm (a b : Nat) (l : List α) : (insertionSort less a b l).Perm l :=
  foldl_perm (fun l i => insertDown_perm less _ i l) _ l

theorem siftDown_perm (hi first : Nat) : ∀ (n root : Nat) (l : List α), (siftDown less hi first n root l).Perm l
  | 0, _, _ => List.Perm.refl _
  | n + 1, root, l => by
    unfold siftDown
    dsimp only
    split_ifs <;>
      first
        | exact List.Perm.refl l
        | exact (siftDown_perm hi first n _ _).trans (swap_perm l _ _)

theorem heapSort_perm (a b : Nat) (l : List α) : (heapSort less a b l).Perm l :=
  (foldl_perm (fun l i => (siftDown_perm less i a i 0 _).trans (swap_perm l _ _)) _ _).trans
    (foldl_perm (fun l i => siftDown_perm less _ a _ i l) _ l)

theorem foldl_fst_perm {β γ : Type} {f : List α × γ → β → List α × γ} (step : ∀ s x, (f s x).1.Perm s.1) :
    ∀ (xs : List β) (s : List α × γ), (xs.foldl f s).1.Perm s.1
  | [], _ => List.Perm.refl _
  | x :: xs, s => (foldl_fst_perm step xs (f s x)).trans (step s x)

theorem breakPatterns_perm (a b : Nat) (l : List α) : (breakPatterns a b l).Perm l := by
  unfold breakPatterns
  dsimp only
  split
  · exact List.Perm.refl l
  · exact foldl_fst_perm (fun s _ => swap_perm s.1 _ _) _ _

theorem reverseRange_perm (a b : Nat) (l : List α) : (reverseRange a b l).Perm l :=
  foldl_perm (fun l _ => swap_perm l _ _) _ l

theorem shiftLeft_perm : ∀ (j : Nat) (l : List α), (shiftLeft less j l).Perm l
  | 0, _ => List.Perm.refl _
  | j + 1, l => by
    unfold shiftLeft
    split
    · exact List.Perm.refl l
    · exact (shiftLeft_perm j _).trans (swap_perm l _ _)

theorem shiftRight_perm : ∀ (n j : Nat) (l : List α), (shiftRight less n j l).Perm l
  | 0, _, _ => List.Perm.refl _
  | n + 1, j, l => by
    unfold shiftRight
    split
    · exact List.Perm.refl l
    · exact (shiftRight_perm n _ _).trans (swap_perm l _ _)

theorem partialInsertionSort_perm (a b : Nat) :
    ∀ (steps i : Nat) (l : List α), (partialInsertionSort less a b steps i l).2.Perm l
  | 0, _, _ => List.Perm.refl _
  | steps + 1, i, l => by
    unfold partialInsertionSort
    dsimp only
    split_ifs
    · exact List.Perm.refl l
    · exact List.Perm.refl l
    all_goals
      refine (partialInsertionSort_perm a b steps _ _).trans ?_
      first
        | exact ((shiftRight_perm less _ _ _).trans ((shiftLeft_perm less _ _).trans (swap_perm l _ _)))
        | exact ((shiftRight_perm less _ _ _).trans (swap_perm l _ _))
        | exact ((shiftLeft_perm less _ _).trans (swap_perm l _ _))
        | exact swap_perm l _ _

theorem partitionLoop_perm (a : Nat) : ∀ (n i j : Nat) (l : List α), (partitionLoop less a n i j l).2.Perm l
  | 0, _, _, _ => List.Perm.refl _
  | n + 1, i, j, l => by
    unfold partitionLoop
    dsimp only
    split
    · exact List.Perm.refl l
    · exact (partitionLoop_perm a n _ _ _).trans (swap_perm l _ _)

theorem partition_perm (a b pivot : Nat) (l : List α) : (partition less a b pivot l).2.2.Perm l := by
  unfold partition
  dsimp only
  split
  · exact (swap_perm _ _ _).trans (swap_perm l _ _)
  · exact (swap_perm _ _ _).trans ((partitionLoop_perm less a _ _ _ _).trans ((swap_perm _ _ _).trans (swap_perm l _ _)))

theorem partitionEqualLoop_perm (a : Nat) :
    ∀ (n i j : Nat) (l : List α), (partitionEqualLoop less a n i j l).2.Perm l
  | 0, _, _, _ => List.Perm.refl _
  | n + 1, i, j, l => by
    unfold partitionEqualLoop
    dsimp only
    split
    · exact List.Perm.refl l
    · exact (partitionEqualLoop_perm a n _ _ _).trans (swap_perm l _ _)

theorem partitionEqual_perm (a b pivot : Nat) (l : List α) : (partitionEqual less a b pivot l).2.Perm l :=
  (partitionEqualLoop_perm less a _ _ _ _).trans (swap_perm l _ _)

theorem pdqsort_perm : ∀ (fuel a b limit : Nat) (wasBalanced wasPartitioned : Bool) (l : List α),
    (pdqsort less fuel a b limit wasBalanced wasPartitioned l).Perm l
  | 0, a, b, _, _, _, l => insertionSort_perm less a b l
  | fuel + 1, a, b, limit, wasBalanced, wasPartitioned, l => by
    have ih := pdqsort_perm fuel
    rw [pdqsort.eq_2]
    split
    · exact insertionSort_perm less a b l
    split
    · exact heapSort_perm less a b l
    split
    next l1 limit1 broken =>
    have p1 : l1.Perm l := by
      split at broken <;> cases broken
      · exact List.Perm.refl l
      · exact breakPatterns_perm a b l
    split
    next pivot hint _ =>
    split
    next l2 pivot2 hint2 reversed =>
    have p2 : l2.Perm l := by
      split at reversed <;> cases reversed
      · exact (reverseRange_perm a b l1).trans p1
      · exact p1
    split
    next sorted l3 tried =>
    have p3 : l3.Perm l := by
      split at tried
      · exact (congrArg Prod.snd tried ▸ partialInsertionSort_perm less a b 5 (a + 1) l2).trans p2
      · cases tried
        exact p2
    split
    · exact p3
    split
    · split
      next mid l4 equal =>
      exact (ih _ _ _ _ _ _).trans ((congrArg Prod.snd equal ▸ partitionEqual_perm less a b pivot2 l3).trans p3)
    · split
      next mid alreadyPartitioned l4 parted =>
      have p4 : l4.Perm l := (congrArg (fun r : Nat × Bool × List α => r.2.2) parted ▸ partition_perm less a b pivot2 l3).trans p3
      split
      · exact (ih _ _ _ _ _ _).trans ((ih _ _ _ _ _ _).trans p4)
      · exact (ih _ _ _ _ _ _).trans ((ih _ _ _ _ _ _).trans p4)

theorem sortSlice_perm (l : List α) : (sortSlice less l).Perm l := pdqsort_perm less _ _ _ _ _ _ l

end Symplex.PdqSort
