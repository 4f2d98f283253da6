import Symplex.Core.Did

namespace Symplex.Core

open Float32

def inUnitInterval (v : Float32) : Bool := zero.le v && v.le one

theorem inUnitInterval_not_isNaN {v : Float32} (bounded : inUnitInterval v) : ¬ v.isNaN := by
  simp_all [inUnitInterval, Float32.le]

theorem inUnitInterval_not_isInf {v : Float32} (bounded : inUnitInterval v) : ¬ v.isInf := by
  have keyZero : zero.key = 0 := by decide
  have keyOne : one.key = 0x3F800000 := by decide
  simp only [inUnitInterval, Float32.le, Bool.and_eq_true, Bool.not_eq_true', decide_eq_true_eq,
    keyZero, keyOne] at bounded
  simp only [isInf, key, decide_eq_true_eq] at bounded ⊢
  split at bounded <;> omega

theorem clamp_of_isNaN {v : Float32} (nan : v.isNaN) : clamp v = v := by
  simp [clamp, Float32.lt, nan]

theorem clamp_inUnitInterval {v : Float32} (finite : ¬ v.isNaN) : inUnitInterval (clamp v) := by
  unfold clamp
  split
  · decide
  split
  · decide
  rename_i low high
  have keyZero : zero.key = 0 := by decide
  have keyOne : one.key = 0x3F800000 := by decide
  have zeroFinite : zero.isNaN = false := by decide
  have oneFinite : one.isNaN = false := by decide
  simp only [Float32.lt, Float32.le, inUnitInterval, finite, zeroFinite, oneFinite, keyZero, keyOne,
    Bool.not_false, Bool.true_and, Bool.and_true, decide_eq_true_eq, Bool.not_eq_true,
    Bool.false_eq_true, not_false_eq_true, Bool.and_self, Bool.not_eq_false, Bool.and_eq_true]
    at low high ⊢
  omega

/-- The ledger calls a run is made of. -/
inductive LedgerOp where
  | set (src dst : Bytes) (score : Float32)
  | apply (src dst : Bytes) (delta : Float32)
  deriving DecidableEq, Repr

def LedgerOp.run (tg : TrustGraph) : LedgerOp → TrustGraph
  | .set src dst score => tg.set src dst score
  | .apply src dst delta => tg.apply src dst delta

def LedgerOp.argument : LedgerOp → Float32
  | .set _ _ score => score
  | .apply _ _ delta => delta

def runLedger (ops : List LedgerOp) : TrustGraph := ops.foldl LedgerOp.run newTrustGraph

@[simp] theorem runLedger_append (ops : List LedgerOp) (op : LedgerOp) :
    runLedger (ops ++ [op]) = op.run (runLedger ops) := by
  simp [runLedger]

/-- Every stored score lies in `[0, 1]`. -/
def TrustGraph.bounded (tg : TrustGraph) : Prop :=
  ∀ k v, tg.scores.lookup k = some v → inUnitInterval v

theorem TrustGraph.get_inUnitInterval {tg : TrustGraph} (bounded : tg.bounded) (src dst : Bytes) :
    inUnitInterval (tg.get src dst) := by
  unfold TrustGraph.get
  cases stored : tg.scores.lookup (trustKey src dst) with
  | none => decide
  | some v => exact bounded _ _ stored

theorem TrustGraph.bounded_insert {tg : TrustGraph} (bounded : tg.bounded) {k : Bytes} {v : Float32}
    (fresh : inUnitInterval v) : (⟨tg.scores.insert k v⟩ : TrustGraph).bounded := by
  intro k' v' stored
  by_cases same : k' = k
  · subst same
    rw [AList.lookup_insert] at stored
    cases stored
    exact fresh
  · rw [AList.lookup_insert_ne same] at stored
    exact bounded _ _ stored

theorem TrustGraph.bounded_run {tg : TrustGraph} (bounded : tg.bounded) (op : LedgerOp)
    (finite : ¬ op.argument.isNaN) : (op.run tg).bounded := by
  cases op with
  | set src dst score => exact TrustGraph.bounded_insert bounded (clamp_inUnitInterval finite)
  | apply src dst delta =>
    have old := TrustGraph.get_inUnitInterval bounded src dst
    refine TrustGraph.bounded_insert bounded (clamp_inUnitInterval (add_not_isNaN ?_ finite ?_))
    · exact inUnitInterval_not_isNaN old
    · exact fun ⟨inf, _⟩ => inUnitInterval_not_isInf old inf

/-- A run whose calls pass no NaN keeps every score in `[0, 1]`. -/
theorem runLedger_bounded (ops : List LedgerOp) (finite : ∀ op ∈ ops, ¬ op.argument.isNaN) :
    (runLedger ops).bounded := by
  induction ops using List.reverseRecOn with
  | nil =>
    intro k v stored
    simp [runLedger, newTrustGraph] at stored
  | append_singleton ops op ih =>
    rw [runLedger_append]
    exact TrustGraph.bounded_run (ih fun o mem => finite o (by simp [mem])) op (finite op (by simp))

theorem runLedger_bounded_set_apply :
    (∀ op ∈ [LedgerOp.set [] [] Float32.one, .apply [] [] Float32.negZero], ¬ op.argument.isNaN) ∧
      (runLedger [.set [] [] Float32.one, .apply [] [] Float32.negZero]).bounded :=
  ⟨by decide, runLedger_bounded _ (by decide)⟩

theorem get_isNaN_applied {tg : TrustGraph} {src dst : Bytes} (nan : (tg.get src dst).isNaN)
    (deltas : List Float32) :
    (((deltas.map (LedgerOp.apply src dst)).foldl LedgerOp.run tg).get src dst).isNaN := by
  induction deltas generalizing tg with
  | nil => exact nan
  | cons delta deltas ih =>
    apply ih
    have sum := add_isNaN_left nan delta
    simp only [LedgerOp.run, TrustGraph.get_apply, clamp_of_isNaN sum, sum]

/-- A NaN `TrustDelta` (one `SendIntent` decodes from the wire unchecked) is stored on its edge
as NaN, outside `[0, 1]`, and no later `Apply` on that edge clears it. -/
theorem nan_delta_poisons_edge (src dst : Bytes) (delta : Float32) (nan : delta.isNaN)
    (later : List Float32) :
    inUnitInterval ((runLedger (.apply src dst delta :: later.map (LedgerOp.apply src dst))).get
      src dst) = false := by
  have first : ((LedgerOp.apply src dst delta).run newTrustGraph |>.get src dst).isNaN := by
    have sum := add_isNaN_right (newTrustGraph.get src dst) nan
    simp only [LedgerOp.run, TrustGraph.get_apply, clamp_of_isNaN sum, sum]
  exact Bool.eq_false_iff.mpr fun bounded =>
    inUnitInterval_not_isNaN bounded (get_isNaN_applied first later)

theorem nan_delta_poisons_edge_default :
    Float32.defaultNaN.isNaN ∧
      inUnitInterval ((runLedger [.apply [] [] Float32.defaultNaN]).get [] []) = false :=
  ⟨by decide, nan_delta_poisons_edge [] [] Float32.defaultNaN (by decide) []⟩

end Symplex.Core
