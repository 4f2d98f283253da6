import Mathlib.Data.List.AList

namespace Symplex

abbrev Bytes := List (BitVec 8)

def ascii (s : String) : Bytes := s.toList.map fun c => BitVec.ofNat 8 c.toNat

inductive GoError where
  | errorf (format : String) (args : List (Bytes ⊕ Int))
  | wrapf (format : String) (args : List (Bytes ⊕ Int)) (wrapped : GoError)
  deriving DecidableEq, Repr

instance instDecidableEqExcept {ε α : Type _} [DecidableEq ε] [DecidableEq α] : DecidableEq (Except ε α)
  | .error a, .error b => decidable_of_iff (a = b) (by simp)
  | .ok a, .ok b => decidable_of_iff (a = b) (by simp)
  | .error _, .ok _ => isFalse (by simp)
  | .ok _, .error _ => isFalse (by simp)

def hexEncode (b : Bytes) : Bytes :=
  b.flatMap fun x => [hexDigit (x.toNat / 16), hexDigit (x.toNat % 16)]
where
  hexDigit (n : Nat) : BitVec 8 := BitVec.ofNat 8 (if n < 10 then 0x30 + n else 0x57 + n)

abbrev GoMap (κ ν : Type) := AList (fun _ : κ => ν)

end Symplex
