import Mathlib.Tactic.Ring
import Symplex.Basic

namespace Symplex.Protowire

/-- `AppendVarint`: seven bits a byte, least significant first, `0x80` on all bytes but
the last. The argument is the `uint64` value. -/
def appendVarint (v : Nat) : Bytes :=
  if v < 0x80 then [BitVec.ofNat 8 v]
  else BitVec.ofNat 8 (v % 0x80 + 0x80) :: appendVarint (v / 0x80)
termination_by v
decreasing_by omega

def varintFrom : Nat → Bytes → Option (Nat × Nat)
  | _, [] => none
  | i, x :: rest =>
    if i = 9 then (if x.toNat < 2 then some (x.toNat * 2 ^ 63, 10) else none)
    else if x.toNat < 0x80 then some (x.toNat * 2 ^ (7 * i), i + 1)
    else (varintFrom (i + 1) rest).map fun (v, n) => ((x.toNat - 0x80) * 2 ^ (7 * i) + v, n)

def consumeVarint (b : Bytes) : Option (BitVec 64 × Nat) :=
  (varintFrom 0 b).map fun (v, n) => (BitVec.ofNat 64 v, n)

theorem varintFrom_consumed {i : Nat} {b : Bytes} {v n : Nat} (h : varintFrom i b = some (v, n)) :
    i < n ∧ n ≤ i + b.length := by
  induction b generalizing i v n with
  | nil => cases h
  | cons x rest ih =>
    simp only [varintFrom] at h
    split at h
    · split at h
      · cases h; simp only [List.length_cons]; omega
      · cases h
    split at h
    · cases h; simp only [List.length_cons]; omega
    · obtain ⟨⟨v', n'⟩, inner, same⟩ := Option.map_eq_some'.mp h
      cases same
      have := ih inner
      simp only [List.length_cons]; omega

theorem consumeVarint_consumed {b : Bytes} {v : BitVec 64} {n : Nat}
    (h : consumeVarint b = some (v, n)) : 1 ≤ n ∧ n ≤ b.length := by
  obtain ⟨⟨v', n'⟩, inner, same⟩ := Option.map_eq_some'.mp h
  cases same
  have := varintFrom_consumed inner
  omega

/-- `EncodeTag` then `AppendVarint`. -/
def appendTag (num typ : Nat) : Bytes := appendVarint (num * 8 + typ)

/-- `ConsumeTag`: the field number must lie in `1 .. MaxInt32` (`DecodeTag` maps larger
ones to `-1`). -/
def consumeTag (b : Bytes) : Option (Nat × Nat × Nat) :=
  match consumeVarint b with
  | none => none
  | some (v, n) =>
    if v.toNat / 8 < 1 ∨ 2 ^ 31 - 1 < v.toNat / 8 then none else some (v.toNat / 8, v.toNat % 8, n)

theorem consumeTag_consumed {b : Bytes} {num typ n : Nat} (h : consumeTag b = some (num, typ, n)) :
    1 ≤ n ∧ n ≤ b.length := by
  unfold consumeTag at h
  split at h
  · cases h
  · rename_i v n' read
    split at h
    · cases h
    · cases h; exact consumeVarint_consumed read

def appendBytes (v : Bytes) : Bytes := appendVarint v.length ++ v

/-- `ConsumeBytes`, and `ConsumeString` alike. -/
def consumeBytes (b : Bytes) : Option (Bytes × Nat) :=
  match consumeVarint b with
  | none => none
  | some (m, n) =>
    if (b.drop n).length < m.toNat then none else some ((b.drop n).take m.toNat, n + m.toNat)

theorem consumeBytes_consumed {b v : Bytes} {n : Nat} (h : consumeBytes b = some (v, n)) :
    1 ≤ n ∧ n ≤ b.length := by
  unfold consumeBytes at h
  split at h
  · cases h
  · rename_i m n' read
    have := consumeVarint_consumed read
    split at h
    · cases h
    · cases h; simp only [List.length_drop] at *; omega

/-- `AppendFixed32`: four bytes, least significant first. -/
def appendFixed32 (v : BitVec 32) : Bytes :=
  [v.setWidth 8, (v >>> 8).setWidth 8, (v >>> 16).setWidth 8, (v >>> 24).setWidth 8]

def consumeFixed32 : Bytes → Option (BitVec 32 × Nat)
  | b0 :: b1 :: b2 :: b3 :: _ =>
    some (BitVec.ofNat 32 (b0.toNat + b1.toNat * 2 ^ 8 + b2.toNat * 2 ^ 16 + b3.toNat * 2 ^ 24), 4)
  | _ => none

theorem consumeFixed32_consumed {b : Bytes} {v : BitVec 32} {n : Nat}
    (h : consumeFixed32 b = some (v, n)) : n = 4 ∧ 4 ≤ b.length := by
  match b, h with
  | _ :: _ :: _ :: _ :: _, h => cases h; simp

def consumeFixed64 (b : Bytes) : Option (BitVec 64 × Nat) :=
  if b.length < 8 then none
  else some (BitVec.ofNat 64 ((b.take 8).foldr (fun x acc => x.toNat + 256 * acc) 0), 8)

def consumeScalar (typ : Nat) (b : Bytes) : Option Nat :=
  match typ with
  | 0 => (consumeVarint b).map (·.2)
  | 1 => (consumeFixed64 b).map (·.2)
  | 2 => (consumeBytes b).map (·.2)
  | 5 => (consumeFixed32 b).map (·.2)
  | _ => none

theorem consumeScalar_consumed {typ : Nat} {b : Bytes} {n : Nat} (h : consumeScalar typ b = some n) :
    1 ≤ n ∧ n ≤ b.length := by
  unfold consumeScalar at h
  split at h <;> (try cases h) <;> obtain ⟨⟨v, n'⟩, read, same⟩ := Option.map_eq_some'.mp h <;>
    cases same
  · exact consumeVarint_consumed read
  · unfold consumeFixed64 at read
    split at read
    · cases read
    · cases read; omega
  · exact consumeBytes_consumed read
  · have := consumeFixed32_consumed read; omega

def consumeGroup (num : Nat) (b : Bytes) (depth : Int) : Option Nat :=
  match _read : consumeTag b with
  | none => none
  | some (num2, typ2, n) =>
    if typ2 = 4 then (if num = num2 then some n else none)
    else
      let inner :=
        if typ2 = 3 then (if depth - 1 < 0 then none else consumeGroup num2 (b.drop n) (depth - 1))
        else consumeScalar typ2 (b.drop n)
      match inner with
      | none => none
      | some m => (consumeGroup num (b.drop (n + m)) depth).map (n + m + ·)
termination_by b.length
decreasing_by
  all_goals
    have := consumeTag_consumed _read
    simp only [List.length_drop]
    omega

/-- `ConsumeFieldValue`, with `DefaultRecursionLimit = 10000`. -/
def consumeFieldValue (num typ : Nat) (b : Bytes) : Option Nat :=
  if typ = 3 then consumeGroup num b 10000 else consumeScalar typ b

theorem appendVarint_small {v : Nat} (small : v < 0x80) : appendVarint v = [BitVec.ofNat 8 v] := by
  rw [appendVarint, if_pos small]

theorem appendVarint_large {v : Nat} (large : ¬ v < 0x80) :
    appendVarint v = BitVec.ofNat 8 (v % 0x80 + 0x80) :: appendVarint (v / 0x80) := by
  rw [appendVarint, if_neg large]

theorem appendVarint_length_le (v : Nat) : (appendVarint v).length ≤ v + 1 := by
  induction v using Nat.strong_induction_on with
  | _ v ih =>
    by_cases small : v < 0x80
    · rw [appendVarint_small small, List.length_singleton]
      omega
    · have tail := ih (v / 0x80) (by omega)
      rw [appendVarint_large small, List.length_cons]
      omega

theorem appendVarint_length_le_of_lt : ∀ (k : Nat) {v : Nat}, v < 2 ^ (7 * (k + 1)) →
    (appendVarint v).length ≤ k + 1
  | 0, v, bound => by rw [appendVarint_small (by simpa using bound)]; rfl
  | k + 1, v, bound => by
    by_cases small : v < 0x80
    · rw [appendVarint_small small, List.length_singleton]
      omega
    · have split : 2 ^ (7 * (k + 1 + 1)) = 2 ^ (7 * (k + 1)) * 0x80 := by
        rw [show 7 * (k + 1 + 1) = 7 * (k + 1) + 7 by omega, Nat.pow_add]
      have tail := appendVarint_length_le_of_lt k
        ((Nat.div_lt_iff_lt_mul (by decide)).mpr (split ▸ bound))
      rw [appendVarint_large small, List.length_cons]
      omega

theorem appendVarint_length_le_ten {v : Nat} (bound : v < 2 ^ 64) : (appendVarint v).length ≤ 10 :=
  appendVarint_length_le_of_lt 9 (Nat.lt_of_lt_of_le bound (Nat.pow_le_pow_right (by decide) (by decide)))

theorem varintFrom_appendVarint (v : Nat) : ∀ (i : Nat) (rest : Bytes), i ≤ 9 → v < 2 ^ (64 - 7 * i) →
    varintFrom i (appendVarint v ++ rest) = some (v * 2 ^ (7 * i), i + (appendVarint v).length) := by
  induction v using Nat.strong_induction_on with
  | _ v ih =>
    intro i rest index bound
    by_cases small : v < 0x80
    · have byte : (BitVec.ofNat 8 v).toNat = v := by simp; omega
      rw [appendVarint_small small]
      simp only [List.singleton_append, varintFrom, byte, List.length_singleton]
      split
      · rename_i last
        subst last
        have two : v < 2 := by simpa using bound
        simp [two]
      · simp [small]
    · have nine : i ≠ 9 := by rintro rfl; simp at bound; omega
      have byte : (BitVec.ofNat 8 (v % 0x80 + 0x80)).toNat = v % 0x80 + 0x80 := by simp; omega
      have below : v / 0x80 < 2 ^ (64 - 7 * (i + 1)) := by
        rw [Nat.div_lt_iff_lt_mul (by decide)]
        calc v < 2 ^ (64 - 7 * i) := bound
          _ = 2 ^ (64 - 7 * (i + 1)) * 2 ^ 7 := by rw [← Nat.pow_add]; congr 1; omega
      rw [appendVarint_large small, List.cons_append, varintFrom, if_neg nine, byte,
        if_neg (by omega), ih (v / 0x80) (Nat.div_lt_self (by omega) (by decide)) (i + 1) rest
          (by omega) below]
      simp only [Option.map_some', List.length_cons, Option.some.injEq, Prod.mk.injEq]
      refine ⟨?_, by omega⟩
      have split := Nat.mod_add_div v 128
      have shift : 2 ^ (7 * (i + 1)) = 2 ^ (7 * i) * 128 := by rw [Nat.mul_succ, Nat.pow_add]
      rw [shift, Nat.add_sub_cancel]
      conv_rhs => rw [← split]
      ring

theorem consumeVarint_appendVarint {v : Nat} (bound : v < 2 ^ 64) (rest : Bytes) :
    consumeVarint (appendVarint v ++ rest) = some (BitVec.ofNat 64 v, (appendVarint v).length) := by
  simp [consumeVarint, varintFrom_appendVarint v 0 rest (by decide) bound]

theorem appendVarint_ne_nil (v : Nat) : appendVarint v ≠ [] := by
  rw [appendVarint]; split <;> simp

theorem consumeTag_appendTag {num typ : Nat} (positive : 1 ≤ num) (bound : num < 2 ^ 31)
    (wire : typ < 8) (rest : Bytes) :
    consumeTag (appendTag num typ ++ rest) = some (num, typ, (appendTag num typ).length) := by
  have value : (BitVec.ofNat 64 (num * 8 + typ)).toNat = num * 8 + typ := by simp; omega
  simp only [consumeTag, appendTag, consumeVarint_appendVarint (show num * 8 + typ < 2 ^ 64 by omega), value]
  rw [if_neg (by omega)]
  congr 3 <;> omega

theorem consumeBytes_appendBytes {v : Bytes} (bound : v.length < 2 ^ 64) (rest : Bytes) :
    consumeBytes (appendBytes v ++ rest) = some (v, (appendBytes v).length) := by
  have value : (BitVec.ofNat 64 v.length).toNat = v.length := by simp; omega
  simp only [consumeBytes, appendBytes, List.append_assoc, consumeVarint_appendVarint bound, value,
    List.drop_left, List.length_append, List.take_left, if_neg (show ¬ v.length + rest.length < v.length by omega)]

theorem consumeFixed32_appendFixed32 (v : BitVec 32) (rest : Bytes) :
    consumeFixed32 (appendFixed32 v ++ rest) = some (v, 4) := by
  simp only [appendFixed32, List.cons_append, consumeFixed32, Option.some.injEq, Prod.mk.injEq, and_true]
  apply BitVec.eq_of_toNat_eq
  have bound := v.isLt
  simp only [BitVec.toNat_ofNat, BitVec.toNat_setWidth, BitVec.toNat_ushiftRight, Nat.shiftRight_eq_div_pow]
  omega

theorem consumeGroup_no_tag {num : Nat} {b : Bytes} {depth : Int} (tag : consumeTag b = none) :
    consumeGroup num b depth = none := by
  rw [consumeGroup]; split <;> simp_all

theorem consumeGroup_of_tag {num num2 typ2 n : Nat} {b : Bytes} {depth : Int}
    (tag : consumeTag b = some (num2, typ2, n)) :
    consumeGroup num b depth =
      if typ2 = 4 then (if num = num2 then some n else none)
      else match (if typ2 = 3 then (if depth - 1 < 0 then none else consumeGroup num2 (b.drop n) (depth - 1))
          else consumeScalar typ2 (b.drop n)) with
        | none => none
        | some m => (consumeGroup num (b.drop (n + m)) depth).map (n + m + ·) := by
  rw [consumeGroup]
  split
  · simp_all
  · rename_i found
    rw [tag] at found
    cases found
    rfl

theorem consumeGroup_consumed {num : Nat} {b : Bytes} {depth : Int} {r : Nat}
    (h : consumeGroup num b depth = some r) : r ≤ b.length := by
  induction num, b, depth using consumeGroup.induct generalizing r with
  | case1 num b depth tag => rw [consumeGroup_no_tag tag] at h; cases h
  | case2 b depth num n tag =>
    rw [consumeGroup_of_tag tag, if_pos rfl, if_pos rfl] at h
    cases h
    have := consumeTag_consumed tag
    omega
  | case3 num b depth num2 n other tag =>
    rw [consumeGroup_of_tag tag, if_pos rfl, if_neg other] at h
    cases h
  | case4 num b depth num2 typ2 n tag notEnd inner missing =>
    rw [consumeGroup_of_tag tag, if_neg notEnd] at h
    simp only [inner, dite_eq_ite] at missing
    rw [missing] at h
    cases h
  | case5 num b depth num2 typ2 n tag notEnd inner value found nested =>
    rename_i tail
    rw [consumeGroup_of_tag tag, if_neg notEnd] at h
    simp only [inner, dite_eq_ite] at found
    rw [found] at h
    obtain ⟨r', rest, rfl⟩ := Option.map_eq_some'.mp h
    have inside : value ≤ (b.drop n).length := by
      split at found
      · split at found
        · cases found
        · exact nested found
      · exact (consumeScalar_consumed found).2
    have rest := tail rest
    have := consumeTag_consumed tag
    rw [List.length_drop] at inside rest
    omega

theorem consumeFieldValue_consumed {num typ : Nat} {b : Bytes} {n : Nat}
    (h : consumeFieldValue num typ b = some n) : n ≤ b.length := by
  unfold consumeFieldValue at h
  split at h
  · exact consumeGroup_consumed h
  · exact (consumeScalar_consumed h).2

@[simp] theorem length_appendFixed32 (v : BitVec 32) : (appendFixed32 v).length = 4 := rfl

end Symplex.Protowire
