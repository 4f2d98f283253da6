import Mathlib.Tactic.IntervalCases
import Symplex.Codec.Records

namespace Symplex.Core

open Protowire

section Grammar

variable {σ : Type} {field : Nat → Nat → Bytes → σ → Except GoError (σ × Nat)} {tagError : GoError}

/-- A field case reads only bytes that are there. -/
def FieldBounded (field : Nat → Nat → Bytes → σ → Except GoError (σ × Nat)) : Prop :=
  ∀ num typ b m m' n, field num typ b m = .ok (m', n) → n ≤ b.length

theorem readField_consumed {α : Type} {consume : Bytes → Option (α × Nat)} {err : GoError}
    {b : Bytes} {set : α → σ} {m' : σ} {n : Nat}
    (bounded : ∀ b v n, consume b = some (v, n) → n ≤ b.length)
    (read : readField consume err b set = .ok (m', n)) : n ≤ b.length := by
  unfold readField at read
  split at read
  · cases read
  · rename_i found
    cases read
    exact bounded _ _ _ found

theorem skipField_consumed {num typ : Nat} {err : GoError} {b : Bytes} {m m' : σ} {n : Nat}
    (skip : skipField num typ err b m = .ok (m', n)) : n ≤ b.length := by
  unfold skipField at skip
  split at skip
  · cases skip
  · rename_i found
    cases skip
    exact consumeFieldValue_consumed found

end Grammar

theorem consumeBytes_bounded : ∀ b v n, consumeBytes b = some (v, n) → n ≤ b.length :=
  fun _ _ _ found => (consumeBytes_consumed found).2

theorem consumeVarint_bounded : ∀ b v n, consumeVarint b = some (v, n) → n ≤ b.length :=
  fun _ _ _ found => (consumeVarint_consumed found).2

theorem consumeFixed32_bounded : ∀ b v n, consumeFixed32 b = some (v, n) → n ≤ b.length := by
  intro b v n found
  obtain ⟨rfl, enough⟩ := consumeFixed32_consumed found
  exact enough

theorem strMapEntryField_bounded : FieldBounded strMapEntryField := by
  intro num typ b m m' n read
  unfold strMapEntryField at read
  split at read
  case h_3 => exact skipField_consumed read
  all_goals exact readField_consumed consumeBytes_bounded read

theorem intentField_bounded : FieldBounded intentField := by
  intro num typ b m m' n read
  unfold intentField at read
  split at read
  case h_8 =>
    split at read
    · cases read
    · rename_i found
      split at read
      · cases read
      · cases read
        exact (consumeBytes_consumed found).2
  case h_9 => exact skipField_consumed read
  all_goals first
    | exact readField_consumed consumeBytes_bounded read
    | exact readField_consumed consumeVarint_bounded read
    | exact readField_consumed consumeFixed32_bounded read

theorem handshakeField_bounded : FieldBounded handshakeField := by
  intro num typ b m m' n read
  unfold handshakeField at read
  split at read
  case h_9 => exact skipField_consumed read
  all_goals first
    | exact readField_consumed consumeBytes_bounded read
    | exact readField_consumed consumeVarint_bounded read

theorem negotiationField_bounded : FieldBounded negotiationField := by
  intro num typ b m m' n read
  unfold negotiationField at read
  split at read
  case h_10 => exact skipField_consumed read
  all_goals first
    | exact readField_consumed consumeBytes_bounded read
    | exact readField_consumed consumeVarint_bounded read
    | exact readField_consumed consumeFixed32_bounded read

theorem capabilityField_bounded : FieldBounded capabilityField := by
  intro num typ b m m' n read
  unfold capabilityField at read
  split at read
  case h_6 => exact skipField_consumed read
  all_goals first
    | exact readField_consumed consumeBytes_bounded read
    | exact readField_consumed consumeVarint_bounded read

def lengthRecord (num typ : Nat) (s : Bytes) : Bytes := appendTag num typ ++ appendBytes s

def varintRecord (num typ v : Nat) : Bytes := appendTag num typ ++ appendVarint v

def fixed32Record (num typ : Nat) (w : BitVec 32) : Bytes := appendTag num typ ++ appendFixed32 w

theorem Reads.skip {σ : Type} {field : Nat → Nat → Bytes → σ → Except GoError (σ × Nat)} {tagError err : GoError}
    {num typ : Nat} {m : σ} (positive : 1 ≤ num) (bound : num < 2 ^ 31) (wire : typ < 8) {value : Bytes}
    (case : ∀ b, field num typ b m = skipField num typ err b m)
    (skips : ∀ rest, consumeFieldValue num typ (value ++ rest) = some value.length) :
    Reads field tagError (appendTag num typ ++ value) m m :=
  Reads.record positive bound wire fun rest => by
    rw [case, skipField, skips]

theorem Reads.unknown {σ : Type} {field : Nat → Nat → Bytes → σ → Except GoError (σ × Nat)}
    {tagError err : GoError} {num : Nat} {a : Bytes} {m₀ m : σ} (before : Reads field tagError a m₀ m)
    (positive : 1 ≤ num) (bound : num < 2 ^ 31) (case : ∀ typ b, field num typ b m = skipField num typ err b m) :
    (∀ v, v < 2 ^ 64 → fieldLoop field tagError (a ++ varintRecord num 0 v) m₀ = .ok m) ∧
      (∀ s : Bytes, s.length < 2 ^ 64 → fieldLoop field tagError (a ++ lengthRecord num 2 s) m₀ = .ok m) ∧
      ∀ w, fieldLoop field tagError (a ++ fixed32Record num 5 w) m₀ = .ok m :=
  ⟨fun _ small => (before.append (Reads.skip positive bound (by decide) (case 0) fun rest => by
      simp [consumeFieldValue, consumeScalar, consumeVarint_appendVarint small rest])).decode,
    fun _ small => (before.append (Reads.skip positive bound (by decide) (case 2) fun rest => by
      simp [consumeFieldValue, consumeScalar, consumeBytes_appendBytes small rest])).decode,
    fun w => (before.append (Reads.skip positive bound (by decide) (case 5) fun rest => by
      simp [consumeFieldValue, consumeScalar, consumeFixed32_appendFixed32 w rest])).decode⟩

end Symplex.Core
