import Symplex.Core.Did

namespace Symplex.Core

theorem utf8Size_cases (x : Nat) :
    x < 0xE0 ∧ utf8Size x = 2 ∨ 0xE0 ≤ x ∧ x < 0xF0 ∧ utf8Size x = 3 ∨ 0xF0 ≤ x ∧ utf8Size x = 4 := by
  unfold utf8Size
  split_ifs <;> omega

theorem decodeRune_large {p0 : BitVec 8} (rest : Bytes) (large : 0x80 ≤ p0.toNat) :
    0x80 ≤ (decodeRune (p0 :: rest)).1 := by
  simp only [decodeRune, if_neg (show ¬ p0.toNat < 0x80 by omega)]
  split_ifs with valid
  · simp only [validSequence, Bool.and_eq_true, decide_eq_true_eq] at valid
    obtain ⟨⟨⟨⟨⟨⟨lead, last⟩, -⟩, low⟩, high⟩, -⟩, -⟩ := valid
    have second : (p0.toNat = 0xE0 → 0xA0 ≤ (rest.getD 0 0).toNat) ∧
        (p0.toNat = 0xF0 → 0x90 ≤ (rest.getD 0 0).toNat) ∧ (rest.getD 0 0).toNat ≤ 0xBF := by
      split_ifs at low high <;> omega
    simp only [sequenceValue]
    rcases utf8Size_cases p0.toNat with ⟨short, two⟩ | ⟨_, short, three⟩ | ⟨long, four⟩
    · rw [if_pos two]
      omega
    · rw [if_neg (by omega), if_pos three]
      omega
    · rw [if_neg (by omega), if_neg (by omega)]
      omega
  · decide

theorem decodeRune_colon (p0 : BitVec 8) (rest : Bytes) : (decodeRune (p0 :: rest)).1 = 0x3A ↔ p0 = 0x3A := by
  rw [BitVec.toNat_eq, show (0x3A : BitVec 8).toNat = 0x3A from rfl]
  by_cases small : p0.toNat < 0x80
  · rw [decodeRune, if_pos small]
  · have := decodeRune_large rest (Nat.not_lt.mp small)
    omega

theorem validSequence_continuation {p0 : BitVec 8} {rest : Bytes} (valid : validSequence p0 rest = true)
    {k : Nat} (inside : k + 1 < utf8Size p0.toNat) : 0x80 ≤ (rest.getD k 0).toNat := by
  simp only [validSequence, Bool.and_eq_true, decide_eq_true_eq, Bool.or_eq_true] at valid
  obtain ⟨⟨⟨⟨⟨⟨-, -⟩, -⟩, low⟩, -⟩, third⟩, fourth⟩ := valid
  match k, inside with
  | 0, _ => split_ifs at low <;> omega
  | 1, _ => omega
  | 2, _ => omega
  | k + 3, inside => unfold utf8Size at inside; split_ifs at inside <;> omega

theorem decodeRune_take_no_colon {p0 : BitVec 8} (rest : Bytes) (notColon : p0 ≠ 0x3A) :
    0x3A ∉ (p0 :: rest).take (decodeRune (p0 :: rest)).2 := by
  simp only [decodeRune]
  split_ifs with small valid
  · simpa using Ne.symm notColon
  · have size := utf8Size_pos p0.toNat
    rw [show utf8Size p0.toNat = utf8Size p0.toNat - 1 + 1 by omega, List.take_succ_cons, List.mem_cons,
      not_or]
    refine ⟨Ne.symm notColon, fun mem => ?_⟩
    obtain ⟨k, bound, colon⟩ := List.getElem_of_mem mem
    rw [List.getElem_take] at colon
    have within : k < rest.length := by simp at bound; omega
    have := validSequence_continuation valid (show k + 1 < utf8Size p0.toNat by simp at bound; omega)
    rw [List.getD_eq_getElem?_getD, List.getElem?_eq_getElem within, Option.getD_some, colon] at this
    exact absurd this (by decide)
  · simpa using Ne.symm notColon

theorem firstColon_some : ∀ (rest : Bytes) (i j : Nat), firstColon rest i = some j →
    ∃ pre post, rest = pre ++ 0x3A :: post ∧ 0x3A ∉ pre ∧ j = i + pre.length := by
  intro rest i
  induction rest, i using firstColon.induct with
  | case1 i => simp [firstColon]
  | case2 rest i nonempty colon =>
    intro j found
    rw [firstColon, if_neg nonempty, if_pos colon] at found
    cases found
    obtain ⟨p0, post, rfl⟩ := List.exists_cons_of_ne_nil nonempty
    exact ⟨[], post, by rw [(decodeRune_colon p0 post).mp colon]; rfl, List.not_mem_nil _, rfl⟩
  | case3 rest i nonempty notColon ih =>
    intro j found
    rw [firstColon, if_neg nonempty, if_neg notColon] at found
    obtain ⟨pre, post, split, clear, rfl⟩ := ih j found
    obtain ⟨p0, tail, rfl⟩ := List.exists_cons_of_ne_nil nonempty
    have width := decodeRune_width nonempty
    refine ⟨(p0 :: tail).take (decodeRune (p0 :: tail)).2 ++ pre, post, ?_, ?_, ?_⟩
    · rw [List.append_assoc, ← split, List.take_append_drop]
    · simp only [List.mem_append, not_or]
      exact ⟨decodeRune_take_no_colon tail (mt (decodeRune_colon p0 tail).mpr notColon), clear⟩
    · simp only [List.length_append, List.length_take, Nat.min_eq_left width.2]
      omega

theorem firstColon_split : ∀ (rest : Bytes) (i : Nat) (pre post : Bytes), rest = pre ++ 0x3A :: post →
    0x3A ∉ pre → firstColon rest i = some (i + pre.length) := by
  intro rest i
  induction rest, i using firstColon.induct with
  | case1 i => simp
  | case2 rest i nonempty colon =>
    intro pre post split clear
    rw [firstColon, if_neg nonempty, if_pos colon]
    match pre, split with
    | [], _ => rfl
    | p0 :: pre, split =>
      rw [split, List.cons_append, decodeRune_colon] at colon
      exact absurd (colon ▸ List.mem_cons_self p0 pre) clear
  | case3 rest i nonempty notColon ih =>
    intro pre post split clear
    subst split
    rw [firstColon, if_neg nonempty, if_neg notColon]
    cases pre with
    | nil => exact absurd ((decodeRune_colon _ _).mpr rfl) notColon
    | cons p0 pre =>
      have inside := decodeRune_take_no_colon (pre ++ 0x3A :: post) (mt (decodeRune_colon _ _).mpr notColon)
      have width : (decodeRune (p0 :: pre ++ 0x3A :: post)).2 ≤ (p0 :: pre).length := by
        by_contra long
        obtain ⟨k, beyond⟩ : ∃ k, (decodeRune (p0 :: pre ++ 0x3A :: post)).2 - (p0 :: pre).length = k + 1 :=
          ⟨_, (Nat.succ_pred_eq_of_pos (by omega)).symm⟩
        apply inside
        rw [← List.cons_append, List.take_append_eq_append_take, beyond, List.take_succ_cons]
        simp
      rw [List.drop_append_of_le_length width] at ih ⊢
      rw [ih _ post rfl (fun mem => clear (List.mem_of_mem_drop mem)), List.length_drop]
      congr 1
      omega

/-- `ParseDID` accepts exactly `did:`, a non-empty method without `:`, a `:` and a non-empty id,
provided `Sscanf`'s `%s` finds a word after `did:`, that is, unless the method starts with spaces
that run into a newline. It returns that method and id, without keys. -/
theorem parseDID_eq_ok_iff (s : Bytes) (d : DID) :
    parseDID s = .ok d ↔ ∃ m id, s = ascii "did:" ++ m ++ 0x3A :: id ∧ m ≠ [] ∧ 0x3A ∉ m ∧ id ≠ [] ∧
      scanWord isScanSpace (m ++ 0x3A :: id) = true ∧ d = ⟨m, id, none, none⟩ := by
  constructor
  · intro parsed
    unfold parseDID at parsed
    split_ifs at parsed with unscanned short
    split at parsed
    · cases parsed
    · rename_i i found
      split_ifs at parsed with empty
      cases parsed
      obtain ⟨pre, post, split, clear, rfl⟩ := firstColon_some _ _ _ found
      simp only [sscanfDid, Bool.not_eq_true', Bool.not_eq_false, Bool.and_eq_true, decide_eq_true_eq] at unscanned
      have method : (pre ++ 0x3A :: post).take pre.length = pre := List.take_left _ _
      have rest : (pre ++ 0x3A :: post).drop (pre.length + 1) = post := List.drop_append 1
      rw [split, Nat.zero_add, method, rest, not_or] at empty
      rw [split] at unscanned
      refine ⟨pre, post, by rw [← List.take_append_drop 4 s, unscanned.1, split, List.append_assoc], empty.1,
        clear, empty.2, unscanned.2, ?_⟩
      rw [split, Nat.zero_add, method, rest]
  · rintro ⟨m, id, rfl, nonempty, clear, named, scanned, rfl⟩
    have prefix_ : (ascii "did:" ++ m ++ 0x3A :: id).take 4 = ascii "did:" := by
      simp [List.append_assoc, List.take_append_eq_append_take, ascii]
    have rest : (ascii "did:" ++ m ++ 0x3A :: id).drop 4 = m ++ 0x3A :: id := by
      simp [List.append_assoc, List.drop_append_eq_append_drop, ascii]
    rw [parseDID, sscanfDid, prefix_, rest, scanned, if_neg (by decide), if_neg (by simp [ascii]),
      firstColon_split _ 0 m id rfl clear, Nat.zero_add]
    simp [nonempty, named, List.drop_append_eq_append_drop]

/-- `did:\n:x` fits the grammar, method `\n` and id `x`, but `Sscanf` stops at the newline. -/
theorem parseDID_rejects_newline_method :
    ascii "did:\n:x" = ascii "did:" ++ ascii "\n" ++ 0x3A :: ascii "x" ∧ ascii "\n" ≠ [] ∧
      (0x3A : BitVec 8) ∉ ascii "\n" ∧ ascii "x" ≠ [] ∧
      parseDID (ascii "did:\n:x") = .error (.errorf "did: invalid format %q" [.inl (ascii "did:\n:x")]) := by
  have newline : scanWord isScanSpace (ascii "\n:x") = false := by
    rw [scanWord]
    decide
  refine ⟨rfl, by decide, by decide, by decide, ?_⟩
  rw [parseDID, if_pos (by simp [sscanfDid, ascii] at newline ⊢; exact newline)]

end Symplex.Core
