import Symplex.Core.Negotiation
import Symplex.PdqSort.Sorted
import Symplex.PdqSort.Presorted

namespace Symplex.Core

def candidateScore (intentVector : List Float32) (c : AgentProfile) : Float64 :=
  cosineSimilarity intentVector c.embeddingVector

theorem rankOrder :
    PdqSort.StrictWeakOn (fun x y : AgentProfile × Float64 => y.2.lt x.2) (fun p => p.2.isNaN = false) :=
  ⟨Float64.lt_asymm, fun _ number _ xy yz => Float64.lt_eq_false_trans number yz xy⟩

theorem rankCandidates_pairwise (intentVector : List Float32) (candidates : List AgentProfile)
    (noNaN : ∀ c ∈ candidates, (candidateScore intentVector c).isNaN = false) :
    (rankCandidates intentVector candidates).Pairwise
      (fun x y => (candidateScore intentVector x).lt (candidateScore intentVector y) = false) := by
  have sorted := PdqSort.sortSlice_sorted rankOrder
    (candidates.map fun c => (c, cosineSimilarity intentVector c.embeddingVector)) fun p mem => by
      obtain ⟨c, mc, rfl⟩ := List.mem_map.mp mem
      exact noNaN c mc
  refine List.pairwise_map.mpr (sorted.2.imp_of_mem fun mx my ordered => ?_)
  obtain ⟨c, -, rfl⟩ := List.mem_map.mp (sorted.1.subset mx)
  obtain ⟨d, -, rfl⟩ := List.mem_map.mp (sorted.1.subset my)
  exact ordered

/-- When no candidate scores NaN, `RankCandidates` returns the candidates highest score first: a
permutation of them along which no candidate scores below one after it. -/
theorem rankCandidates_descending (intentVector : List Float32) (candidates : List AgentProfile)
    (noNaN : ∀ c ∈ candidates, (candidateScore intentVector c).isNaN = false) :
    (rankCandidates intentVector candidates).Perm candidates ∧
      (rankCandidates intentVector candidates).Pairwise
        (fun x y => (candidateScore intentVector x).lt (candidateScore intentVector y) = false) :=
  ⟨rankCandidates_perm intentVector candidates, rankCandidates_pairwise intentVector candidates noNaN⟩

set_option maxRecDepth 2000 in
theorem rankCandidates_descending_pair :
    (∀ c ∈ [(⟨[], [], [], [], []⟩ : AgentProfile), ⟨[], [], [], [Float32.one], []⟩],
        (candidateScore [Float32.one] c).isNaN = false) ∧
      (rankCandidates [Float32.one] [⟨[], [], [], [], []⟩, ⟨[], [], [], [Float32.one], []⟩]).Perm
        [⟨[], [], [], [], []⟩, ⟨[], [], [], [Float32.one], []⟩] ∧
      (rankCandidates [Float32.one] [⟨[], [], [], [], []⟩, ⟨[], [], [], [Float32.one], []⟩]).Pairwise
        (fun x y => (candidateScore [Float32.one] x).lt (candidateScore [Float32.one] y) = false) :=
  have noNaN : ∀ c ∈ [(⟨[], [], [], [], []⟩ : AgentProfile), ⟨[], [], [], [Float32.one], []⟩],
      (candidateScore [Float32.one] c).isNaN = false := by decide
  ⟨noNaN, rankCandidates_descending _ _ noNaN⟩

theorem rankCandidates_first_best {intentVector : List Float32} {candidates : List AgentProfile}
    (noNaN : ∀ c ∈ candidates, (candidateScore intentVector c).isNaN = false)
    (nonempty : 0 < (rankCandidates intentVector candidates).length) :
    ∀ c ∈ candidates,
      (candidateScore intentVector (rankCandidates intentVector candidates)[0]).lt (candidateScore intentVector c) = false := by
  intro c mem
  obtain ⟨j, hj, found⟩ := List.getElem_of_mem ((rankCandidates_perm _ _).symm.subset mem)
  rw [← found]
  rcases Nat.eq_zero_or_pos j with rfl | pos
  · exact Float64.lt_irrefl _
  · exact List.pairwise_iff_getElem.mp (rankCandidates_pairwise _ _ noNaN) 0 j nonempty hj pos

/-- `RankCandidates` returns candidates that already come highest score first as they are, in
their order, whatever the scores: `sort.Slice` leaves a slice already in order unchanged. -/
theorem rankCandidates_of_descending {intentVector : List Float32} {candidates : List AgentProfile}
    (descending : candidates.Pairwise
      fun x y => (candidateScore intentVector x).lt (candidateScore intentVector y) = false) :
    rankCandidates intentVector candidates = candidates := by
  rw [rankCandidates, PdqSort.sortSlice_of_pairwise (List.pairwise_map.mpr descending), List.map_map]
  exact List.map_id _

set_option maxRecDepth 2000 in
theorem rankCandidates_of_descending_pair :
    [(⟨[], [], [], [Float32.one], []⟩ : AgentProfile), ⟨[], [], [], [], []⟩].Pairwise
        (fun x y => (candidateScore [Float32.one] x).lt (candidateScore [Float32.one] y) = false) ∧
      rankCandidates [Float32.one] [⟨[], [], [], [Float32.one], []⟩, ⟨[], [], [], [], []⟩] =
        [⟨[], [], [], [Float32.one], []⟩, ⟨[], [], [], [], []⟩] :=
  have descending : [(⟨[], [], [], [Float32.one], []⟩ : AgentProfile), ⟨[], [], [], [], []⟩].Pairwise
      (fun x y => (candidateScore [Float32.one] x).lt (candidateScore [Float32.one] y) = false) := by decide
  ⟨descending, rankCandidates_of_descending descending⟩

/-- `RankCandidates` does not rank the candidates without an embedding last, as its comment says:
they score `0`, so when no score is NaN each of them comes before every candidate whose
similarity is negative. -/
theorem rankCandidates_unembedded_before_negative {intentVector : List Float32} {candidates : List AgentProfile}
    (noNaN : ∀ c ∈ candidates, (candidateScore intentVector c).isNaN = false) {i j : Nat}
    (hi : i < (rankCandidates intentVector candidates).length) (hj : j < (rankCandidates intentVector candidates).length)
    (unembedded : (rankCandidates intentVector candidates)[i].embeddingVector = [])
    (negative : (candidateScore intentVector (rankCandidates intentVector candidates)[j]).lt Float64.zero = true) :
    i < j := by
  have zero : candidateScore intentVector (rankCandidates intentVector candidates)[i] = Float64.zero := by
    rw [candidateScore, unembedded, cosineSimilarity_nil_right]
  rcases Nat.lt_trichotomy i j with before | rfl | after
  · exact before
  · rw [zero, Float64.lt_irrefl] at negative
    cases negative
  · have ordered := List.pairwise_iff_getElem.mp (rankCandidates_pairwise _ _ noNaN) j i hj hi after
    rw [zero, negative] at ordered
    cases ordered

def opposedCandidates : List AgentProfile := [⟨[], [], [], [Float32.one.neg], []⟩, ⟨[], [], [], [], []⟩]

set_option maxRecDepth 2000 in
theorem rankCandidates_unembedded_before_opposite :
    (∀ c ∈ opposedCandidates, (candidateScore [Float32.one] c).isNaN = false) ∧
      ∃ (hi : 0 < (rankCandidates [Float32.one] opposedCandidates).length)
        (hj : 1 < (rankCandidates [Float32.one] opposedCandidates).length),
        (rankCandidates [Float32.one] opposedCandidates)[0].embeddingVector = [] ∧
        (candidateScore [Float32.one] (rankCandidates [Float32.one] opposedCandidates)[1]).lt Float64.zero = true ∧
        0 < 1 :=
  have noNaN : ∀ c ∈ opposedCandidates, (candidateScore [Float32.one] c).isNaN = false := by decide
  have hi : 0 < (rankCandidates [Float32.one] opposedCandidates).length := by decide
  have hj : 1 < (rankCandidates [Float32.one] opposedCandidates).length := by decide
  have unembedded : (rankCandidates [Float32.one] opposedCandidates)[0].embeddingVector = [] := rfl
  have opposite : (candidateScore [Float32.one]
      ((rankCandidates [Float32.one] opposedCandidates).get ⟨1, by decide⟩)).lt Float64.zero = true := by decide
  ⟨noNaN, hi, hj, unembedded, opposite, rankCandidates_unembedded_before_negative noNaN hi hj unembedded opposite⟩

/-- A stable sort of `candidates` by descending score: a permutation of them along which no score
is below the next, in which the candidates of each score keep their input order. -/
def StableRanking (intentVector : List Float32) (candidates ranked : List AgentProfile) : Prop :=
  ranked.Perm candidates ∧
    ranked.Pairwise (fun x y => (candidateScore intentVector x).lt (candidateScore intentVector y) = false) ∧
    ∀ s, ranked.filter (fun c => (candidateScore intentVector c).beq s) =
      candidates.filter (fun c => (candidateScore intentVector c).beq s)

def tieCandidate (embedding : List Float32) (n : Nat) : AgentProfile :=
  ⟨[BitVec.ofNat 8 n], [], [], embedding, []⟩

def tieCandidates : List AgentProfile :=
  (List.range 12).map (tieCandidate []) ++ [tieCandidate [Float32.one] 12]

set_option maxRecDepth 2000 in
theorem rankCandidates_tieCandidates :
    rankCandidates [Float32.one] tieCandidates =
      tieCandidate [Float32.one] 12 :: [6, 2, 3, 4, 5, 0, 7, 8, 9, 10, 11, 1].map (tieCandidate []) := by
  decide

set_option maxRecDepth 2000 in
/-- `RankCandidates` is not a stable sort, even when no score is NaN. -/
theorem rankCandidates_not_stable :
    ¬ ∀ (intentVector : List Float32) (candidates : List AgentProfile),
      (∀ c ∈ candidates, (candidateScore intentVector c).isNaN = false) →
        StableRanking intentVector candidates (rankCandidates intentVector candidates) := by
  intro stable
  have ties := (stable [Float32.one] tieCandidates (by decide)).2.2 Float64.zero
  rw [rankCandidates_tieCandidates] at ties
  exact absurd ties (by decide)

end Symplex.Core
