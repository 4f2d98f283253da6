import Symplex.P2p.Host

namespace Symplex.P2p

open Core

/-- `Unframe` panics exactly on the inputs of five or more bytes whose length field is zero:
it slices `frame[5:4]`. -/
theorem unframe_eq_none_iff (f : Bytes) :
    unframe f = none ↔ 5 ≤ f.length ∧ bigEndianUint32 f = 0 := by
  unfold unframe Core.slice
  split_ifs with short incomplete bounds
  · simp only [reduceCtorEq, false_iff]
    omega
  · simp only [reduceCtorEq, false_iff]
    omega
  · simp only [Option.map_some', reduceCtorEq, false_iff]
    omega
  · simp only [Option.map_none', true_iff]
    omega

theorem readMsg_eq_ok {f : Bytes} {t : MessageType} {p : Bytes} :
    readMsg f = .ok (t, p) ↔ 4 + bigEndianUint32 f ≤ f.length ∧ 1 ≤ bigEndianUint32 f ∧
      bigEndianUint32 f ≤ maxFrameBytes ∧ f.getD 4 0 = t ∧ (f.take (4 + bigEndianUint32 f)).drop 5 = p := by
  have payload : ((f.drop 4).take (bigEndianUint32 f)).drop 1 = (f.take (4 + bigEndianUint32 f)).drop 5 := by
    simp only [List.drop_take, List.drop_drop]
    congr 1
    omega
  have kind : (f.drop 4).getD 0 0 = f.getD 4 0 := by simp [List.getD_eq_getElem?_getD]
  unfold readMsg
  rw [payload, kind, List.length_drop]
  split_ifs with short range enough
  · simp only [reduceCtorEq, false_iff]
    omega
  · simp only [reduceCtorEq, false_iff]
    omega
  · simp only [reduceCtorEq, false_iff]
    omega
  · have fits : 4 + bigEndianUint32 f ≤ f.length ∧ 1 ≤ bigEndianUint32 f ∧
        bigEndianUint32 f ≤ maxFrameBytes := by omega
    simp only [Except.ok.injEq, Prod.mk.injEq, fits, true_and]

theorem unframe_eq_ok {f : Bytes} {t : MessageType} {p : Bytes} :
    unframe f = some (.ok (t, p)) ↔ 5 ≤ 4 + bigEndianUint32 f ∧ 4 + bigEndianUint32 f ≤ f.length ∧
      f.getD 4 0 = t ∧ (f.take (4 + bigEndianUint32 f)).drop 5 = p := by
  unfold unframe Core.slice
  split_ifs with short incomplete bounds
  · simp only [Option.some.injEq, reduceCtorEq, false_iff]
    omega
  · simp only [Option.some.injEq, reduceCtorEq, false_iff]
    omega
  · simp only [Option.map_some', Option.some.injEq, Except.ok.injEq, Prod.mk.injEq, bounds, true_and]
  · simp only [Option.map_none', reduceCtorEq, false_iff]
    exact fun ⟨low, enough, _⟩ => bounds ⟨low, enough⟩

/-- `readMsg` accepts exactly the frames `Unframe` accepts whose length field lies in
`[1, 4 MiB]`, and reads the same type and payload from them. -/
theorem readMsg_eq_ok_iff (f : Bytes) (t : MessageType) (p : Bytes) :
    readMsg f = .ok (t, p) ↔
      unframe f = some (.ok (t, p)) ∧ 1 ≤ bigEndianUint32 f ∧ bigEndianUint32 f ≤ maxFrameBytes := by
  rw [readMsg_eq_ok, unframe_eq_ok]
  constructor
  · rintro ⟨enough, low, high, kind, payload⟩
    exact ⟨⟨by omega, enough, kind, payload⟩, low, high⟩
  · rintro ⟨⟨-, enough, kind, payload⟩, low, high⟩
    exact ⟨enough, low, high, kind, payload⟩

theorem unframe_panics_on_zero_length :
    unframe [0, 0, 0, 0, 1] = none ∧
      readMsg [0, 0, 0, 0, 1] = .error (.errorf "readMsg: invalid length %d" [.inr 0]) :=
  ⟨rfl, rfl⟩

theorem bigEndianUint32_frame (msgType : MessageType) (payload rest : Bytes) :
    bigEndianUint32 (frame msgType payload ++ rest) = (1 + payload.length) % 2 ^ 32 := by
  rw [frame, List.append_assoc, bigEndianUint32_bigEndian32, BitVec.toNat_ofNat]

theorem unframe_zero_length {f : Bytes} (long : 5 ≤ f.length) (zero : bigEndianUint32 f = 0) :
    unframe f = none := by
  rw [unframe, if_neg (by omega), if_neg (by omega), Core.slice, if_neg (by omega), Option.map_none']

theorem unframe_frame_take (msgType : MessageType) (payload rest : Bytes) {n : Nat}
    (field : (1 + payload.length) % 2 ^ 32 = n + 1) :
    unframe (frame msgType payload ++ rest) = some (.ok (msgType, payload.take n)) := by
  have within : n ≤ payload.length := by have := Nat.mod_le (1 + payload.length) (2 ^ 32); omega
  rw [unframe_eq_ok, bigEndianUint32_frame, field, show 4 + (n + 1) = n + 5 by omega]
  refine ⟨by omega, by simp; omega, by simp [frame, bigEndian32], ?_⟩
  simp [frame, bigEndian32, List.take_append_of_le_length within]

/-- `Unframe` of a frame, whatever follows it: `Frame` casts `1 + len(payload)` to `uint32`, so
the length field is that sum modulo `2^32`. A sum that wraps to zero makes `Unframe` panic; one
that wraps to `n + 1` gives back only the first `n` payload bytes. -/
theorem unframe_frame (msgType : MessageType) (payload rest : Bytes) :
    unframe (frame msgType payload ++ rest) =
      if (1 + payload.length) % 2 ^ 32 = 0 then none
      else some (.ok (msgType, payload.take ((1 + payload.length) % 2 ^ 32 - 1))) := by
  split_ifs with wrapped
  · exact unframe_zero_length (by simp; omega) (by rw [bigEndianUint32_frame, wrapped])
  · obtain ⟨n, field⟩ : ∃ n, (1 + payload.length) % 2 ^ 32 = n + 1 :=
      ⟨_, (Nat.succ_pred_eq_of_ne_zero wrapped).symm⟩
    rw [unframe_frame_take msgType payload rest field, field, Nat.add_sub_cancel]

/-- Below `2^32 - 1` payload bytes, `Unframe` gives back every frame whatever follows it. -/
theorem unframe_frame_of_fits (msgType : MessageType) (payload rest : Bytes)
    (fits : 1 + payload.length < 2 ^ 32) :
    unframe (frame msgType payload ++ rest) = some (.ok (msgType, payload)) := by
  rw [unframe_frame_take msgType payload rest (by rw [Nat.mod_eq_of_lt fits, Nat.add_comm]),
    List.take_length]

theorem unframe_frame_of_fits_then_frame :
    1 + [0x2A].length < 2 ^ 32 ∧
      unframe (frame msgIntent [0x2A] ++ frame msgHandshake []) = some (.ok (msgIntent, [0x2A])) :=
  ⟨by decide, unframe_frame_of_fits msgIntent [0x2A] (frame msgHandshake []) (by decide)⟩

end Symplex.P2p
