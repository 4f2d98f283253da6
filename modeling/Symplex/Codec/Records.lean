import Symplex.Core.Encoding

namespace Symplex.Core

open Protowire

section Records

variable {σ : Type} {field : Nat → Nat → Bytes → σ → Except GoError (σ × Nat)} {tagError : GoError}

/-- The decoder loop reads the complete records `a`, taking the message from `m` to `m'`,
whatever bytes follow them. -/
def Reads (field : Nat → Nat → Bytes → σ → Except GoError (σ × Nat)) (tagError : GoError)
    (a : Bytes) (m m' : σ) : Prop :=
  ∀ rest, fieldLoop field tagError (a ++ rest) m = fieldLoop field tagError rest m'

theorem Reads.nil (m : σ) : Reads field tagError [] m m := fun _ => rfl

theorem Reads.append {a b : Bytes} {m m' m'' : σ} (first : Reads field tagError a m m')
    (second : Reads field tagError b m' m'') : Reads field tagError (a ++ b) m m'' := fun rest => by
  rw [List.append_assoc, first, second]

theorem Reads.decode {a : Bytes} {m m' : σ} (reads : Reads field tagError a m m') :
    fieldLoop field tagError a m = .ok m' := by
  simpa [fieldLoop_nil] using reads []

theorem Reads.record {num typ : Nat} {w : Bytes} {m m' : σ} (positive : 1 ≤ num)
    (bound : num < 2 ^ 31) (wire : typ < 8)
    (read : ∀ rest, field num typ (w ++ rest) m = .ok (m', w.length)) :
    Reads field tagError (appendTag num typ ++ w) m m' := fun rest => by
  have tag := consumeTag_appendTag positive bound wire (w ++ rest)
  rw [← List.append_assoc] at tag
  have nonempty : appendTag num typ ++ w ++ rest ≠ [] := by simp [appendTag, appendVarint_ne_nil]
  rw [fieldLoop_step nonempty tag (by rw [List.append_assoc, List.drop_left]; exact read rest),
    List.append_assoc, List.drop_left, List.drop_left]

theorem readField_append {α : Type} {consume : Bytes → Option (α × Nat)} {err : GoError}
    {w rest : Bytes} {x : α} {set : α → σ} (consumed : consume (w ++ rest) = some (x, w.length)) :
    readField consume err (w ++ rest) set = .ok (set x, w.length) := by
  simp [readField, consumed]

theorem decodePackedF32_appendFixed32 (v : BitVec 32) (rest : Bytes) :
    decodePackedF32 (appendFixed32 v ++ rest) = ⟨v⟩ :: decodePackedF32 rest := by
  have word := consumeFixed32_appendFixed32 v rest
  simp only [appendFixed32, List.cons_append, consumeFixed32, Option.some.injEq, Prod.mk.injEq,
    and_true] at word
  simp only [appendFixed32, List.cons_append, decodePackedF32, word]
  rfl

theorem decodePackedF32_flatMap (fs : List Float32) :
    decodePackedF32 (fs.flatMap fun f => appendFixed32 f.bits) = fs := by
  induction fs with
  | nil => rfl
  | cons f fs ih => rw [List.flatMap_cons, decodePackedF32_appendFixed32, ih]

section Field

variable (num : Nat) {err : GoError} {m : σ} (positive : 1 ≤ num) (bound : num < 2 ^ 31)
include positive bound

theorem Reads.bytes (v : Bytes) (set : σ → Bytes → σ)
    (case : ∀ b m, field num 2 b m = readField consumeBytes err b (set m))
    (unchanged : v = [] → set m v = m) (fits : (encBytes num v).length < 2 ^ 64) :
    Reads field tagError (encBytes num v) m (set m v) := by
  by_cases empty : v = []
  · rw [unchanged empty, encBytes, if_pos empty]
    exact Reads.nil m
  · rw [encBytes, if_neg empty] at fits ⊢
    have small : v.length < 2 ^ 64 := by simp only [appendBytes, List.length_append] at fits; omega
    exact Reads.record positive bound (by decide) fun rest => by
      rw [case, readField_append (consumeBytes_appendBytes small rest)]

theorem Reads.packedF32 (fs : List Float32) (set : σ → List Float32 → σ)
    (case : ∀ b m, field num 2 b m = readField consumeBytes err b fun b => set m (decodePackedF32 b))
    (unchanged : fs = [] → set m fs = m) (fits : (encPackedF32 num fs).length < 2 ^ 64) :
    Reads field tagError (encPackedF32 num fs) m (set m fs) := by
  by_cases empty : fs = []
  · rw [unchanged empty, encPackedF32, if_pos empty]
    exact Reads.nil m
  · rw [encPackedF32, if_neg empty] at fits ⊢
    have small : (fs.flatMap fun f => appendFixed32 f.bits).length < 2 ^ 64 := by
      simp only [appendBytes, List.length_append] at fits; omega
    exact Reads.record positive bound (by decide) fun rest => by
      rw [case, readField_append (consumeBytes_appendBytes small rest), decodePackedF32_flatMap]

theorem Reads.i64 (v : BitVec 64) (set : σ → BitVec 64 → σ)
    (case : ∀ b m, field num 0 b m = readField consumeVarint err b (set m))
    (unchanged : v = 0 → set m v = m) : Reads field tagError (encI64 num v) m (set m v) := by
  by_cases zero : v = 0
  · rw [unchanged zero, encI64, if_pos zero]
    exact Reads.nil m
  · rw [encI64, if_neg zero]
    have value : BitVec.ofNat 64 v.toNat = v := by simp
    exact Reads.record positive bound (by decide) fun rest => by
      rw [case, readField_append (consumeVarint_appendVarint v.isLt rest), value]

def wireFloat (v : Float32) : Float32 := if v.beq Float32.zero then Float32.zero else v

theorem Reads.f32 (v : Float32) (set : σ → Float32 → σ)
    (case : ∀ b m, field num 5 b m = readField consumeFixed32 err b fun w => set m ⟨w⟩)
    (unchanged : set m Float32.zero = m) :
    Reads field tagError (encF32 num v) m (set m (wireFloat v)) := by
  by_cases zero : v.beq Float32.zero
  · rw [wireFloat, if_pos zero, unchanged, encF32, if_pos zero]
    exact Reads.nil m
  · rw [wireFloat, if_neg zero, encF32, if_neg zero]
    exact Reads.record positive bound (by decide) fun rest => by
      rw [case, readField_append (consumeFixed32_appendFixed32 v.bits rest)]

theorem Reads.boolean (v : Bool) (set : σ → Bool → σ)
    (case : ∀ b m, field num 0 b m = readField consumeVarint err b fun x => set m (x != 0))
    (unchanged : set m false = m) : Reads field tagError (encBoolean num v) m (set m v) := by
  cases v with
  | false =>
    rw [unchanged]
    exact Reads.nil m
  | true =>
    exact Reads.record positive bound (by decide) fun rest => by
      rw [case, readField_append (consumeVarint_appendVarint (by decide) rest)]
      rfl

end Field

theorem encStrs_cons (num : Nat) (s : Bytes) (ss : List Bytes) :
    encStrs num (s :: ss) = appendTag num 2 ++ appendBytes s ++ encStrs num ss := by
  simp [encStrs]

theorem Reads.strs (num : Nat) {err : GoError} (positive : 1 ≤ num) (bound : num < 2 ^ 31)
    (ss : List Bytes) (get : σ → List Bytes) (set : σ → List Bytes → σ)
    (case : ∀ b m, field num 2 b m = readField consumeBytes err b fun s => set m (get m ++ [s]))
    (get_set : ∀ m l, get (set m l) = l) (set_set : ∀ m l l', set (set m l) l' = set m l')
    (set_get : ∀ m, set m (get m) = m) (m : σ)
    (fits : (encStrs num ss).length < 2 ^ 64) :
    Reads field tagError (encStrs num ss) m (set m (get m ++ ss)) := by
  induction ss generalizing m with
  | nil =>
    rw [List.append_nil, set_get]
    exact Reads.nil m
  | cons s ss ih =>
    rw [encStrs_cons] at fits ⊢
    simp only [List.length_append] at fits
    have small : s.length < 2 ^ 64 := by simp only [appendBytes, List.length_append] at fits; omega
    have head : Reads field tagError (appendTag num 2 ++ appendBytes s) m (set m (get m ++ [s])) :=
      Reads.record positive bound (by decide) fun rest => by
        rw [case, readField_append (consumeBytes_appendBytes small rest)]
    have tail := ih (set m (get m ++ [s])) (by omega)
    rw [get_set, set_set, List.append_assoc, List.singleton_append] at tail
    exact head.append tail

end Records

end Symplex.Core
