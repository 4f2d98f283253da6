import Symplex.Core.Types

namespace Symplex.Core

/-- The primitives `did.go` takes from Go's standard library: `hex.EncodeToString` of
`sha256.Sum256`, `ed25519.Sign` (private key, message) and `ed25519.Verify` (public key,
message, signature). -/
structure Crypto where
  sha256Hex : Bytes → Bytes
  sign : Bytes → Bytes → Bytes
  verify : Bytes → Bytes → Bytes → Bool

def blankCrypto : Crypto := ⟨fun _ => [], fun _ _ => [], fun _ _ _ => false⟩

variable (C : Crypto)

def publicKeySize : Nat := 32

def errNoPrivateKey : GoError := .errorf "did: private key not available" []

def didFromKey (pub : Bytes) (priv : Option Bytes) : DID :=
  { method := ascii "symplex", id := C.sha256Hex pub, pubKey := some pub, privKey := priv }

/-- `NewDID`, given what `ed25519.GenerateKey` returned. -/
def newDID (generated : Except GoError (Bytes × Bytes)) : Except GoError DID :=
  match generated with
  | .error e => .error (.wrapf "did: key generation failed: %w" [] e)
  | .ok (pub, priv) => .ok (didFromKey C pub (some priv))

def didFromPublicKey (pubKey : Bytes) : Except GoError DID :=
  if pubKey.length ≠ publicKeySize then
    .error (.errorf "did: expected %d-byte public key, got %d" [.inr publicKeySize, .inr pubKey.length])
  else .ok (didFromKey C pubKey none)

/-- `NewAgent`, given what `ed25519.GenerateKey` returned. -/
def newAgent (id : Bytes) (capabilities : List Bytes) (generated : Except GoError (Bytes × Bytes)) :
    Except GoError Agent :=
  (newDID C generated).map fun d => ⟨id, d, capabilities, d.pubKey.getD [], d.privKey.getD []⟩

/-- `DID.String`: `did:<method>:<id>`. -/
def DID.string (d : DID) : Bytes := ascii "did:" ++ d.method ++ ascii ":" ++ d.id

def DID.sign (d : DID) (data : Bytes) : Except GoError Bytes :=
  match d.privKey with
  | none => .error errNoPrivateKey
  | some k => .ok (C.sign k data)

def DID.verify (d : DID) (data sig : Bytes) : Bool :=
  match d.pubKey with
  | none => false
  | some k => C.verify k data sig

def DID.validateBinding (d : DID) (pubKey : Bytes) : Bool := C.sha256Hex pubKey = d.id

/-- `(*DID).PublicKey`: a copy of the key, `nil` for a DID without one. -/
def DID.publicKey (d : DID) : Bytes := d.pubKey.getD []

def Agent.publicKey (a : Agent) : Bytes := a.pubKey

def Agent.sign (a : Agent) (data : Bytes) : Except GoError Bytes := a.did.sign C data

def runeError : Nat := 0xFFFD

def utf8Size (x : Nat) : Nat := if x < 0xE0 then 2 else if x < 0xF0 then 3 else 4

def validSequence (p0 : BitVec 8) (rest : Bytes) : Bool :=
  let x := p0.toNat
  let lo := if x = 0xE0 then 0xA0 else if x = 0xF0 then 0x90 else 0x80
  let hi := if x = 0xED then 0x9F else if x = 0xF4 then 0x8F else 0xBF
  let b1 := (rest.getD 0 0).toNat
  let b2 := (rest.getD 1 0).toNat
  let b3 := (rest.getD 2 0).toNat
  0xC2 ≤ x && x ≤ 0xF4 && utf8Size x ≤ rest.length + 1 && lo ≤ b1 && b1 ≤ hi &&
    (utf8Size x < 3 || 0x80 ≤ b2 && b2 ≤ 0xBF) && (utf8Size x < 4 || 0x80 ≤ b3 && b3 ≤ 0xBF)

def sequenceValue (p0 : BitVec 8) (rest : Bytes) : Nat :=
  let x := p0.toNat
  let b1 := (rest.getD 0 0).toNat % 0x40
  let b2 := (rest.getD 1 0).toNat % 0x40
  let b3 := (rest.getD 2 0).toNat % 0x40
  if utf8Size x = 2 then x % 0x20 * 0x40 + b1
  else if utf8Size x = 3 then x % 0x10 * 0x1000 + b1 * 0x40 + b2
  else x % 0x08 * 0x40000 + b1 * 0x1000 + b2 * 0x40 + b3

def decodeRune : Bytes → Nat × Nat
  | [] => (runeError, 0)
  | p0 :: rest =>
    if p0.toNat < 0x80 then (p0.toNat, 1)
    else if validSequence p0 rest then (sequenceValue p0 rest, utf8Size p0.toNat)
    else (runeError, 1)

theorem utf8Size_pos (x : Nat) : 1 ≤ utf8Size x := by unfold utf8Size; split_ifs <;> omega

theorem decodeRune_width {b : Bytes} (nonempty : b ≠ []) :
    1 ≤ (decodeRune b).2 ∧ (decodeRune b).2 ≤ b.length := by
  match b, nonempty with
  | p0 :: rest, _ =>
    have size := utf8Size_pos p0.toNat
    simp only [decodeRune, List.length_cons]
    split_ifs with ascii valid
    · omega
    · simp only [validSequence, Bool.and_eq_true, decide_eq_true_eq] at valid
      omega
    · omega

def isScanSpace (r : Nat) : Bool :=
  (0x09 ≤ r && r ≤ 0x0D) || r = 0x20 || r = 0x85 || r = 0xA0 || r = 0x1680 ||
    (0x2000 ≤ r && r ≤ 0x200A) || r = 0x2028 || r = 0x2029 || r = 0x202F || r = 0x205F || r = 0x3000

def scanWord (space : Nat → Bool) (rest : Bytes) : Bool :=
  if rest = [] then false
  else if (decodeRune rest).1 = 0x0A then false
  else if space (decodeRune rest).1 then scanWord space (rest.drop (decodeRune rest).2)
  else true
termination_by rest.length
decreasing_by
  have := decodeRune_width ‹rest ≠ []›
  simp only [List.length_drop]
  omega

def sscanfDid (s : Bytes) : Bool := s.take 4 = ascii "did:" && scanWord isScanSpace (s.drop 4)

def firstColon (rest : Bytes) (i : Nat) : Option Nat :=
  if rest = [] then none
  else if (decodeRune rest).1 = 0x3A then some i
  else firstColon (rest.drop (decodeRune rest).2) (i + (decodeRune rest).2)
termination_by rest.length
decreasing_by
  have := decodeRune_width ‹rest ≠ []›
  simp only [List.length_drop]
  omega

def parseDID (s : Bytes) : Except GoError DID :=
  if !sscanfDid s then .error (.errorf "did: invalid format %q" [.inl s])
  else if s.length ≤ 4 then .error (.errorf "did: too short %q" [.inl s])
  else
    match firstColon (s.drop 4) 0 with
    | none => .error (.errorf "did: invalid format %q" [.inl s])
    | some i =>
      if (s.drop 4).take i = [] ∨ (s.drop 4).drop (i + 1) = [] then
        .error (.errorf "did: invalid format %q" [.inl s])
      else .ok ⟨(s.drop 4).take i, (s.drop 4).drop (i + 1), none, none⟩

def plainMethod : Bytes → Bool
  | [] => false
  | a :: rest => !isScanSpace a.toNat && a.toNat != 0x0A &&
      (a :: rest).all fun c => c.toNat < 0x80 && c.toNat != 0x3A

theorem decodeRune_ascii {a : BitVec 8} (rest : Bytes) (small : a.toNat < 0x80) :
    decodeRune (a :: rest) = (a.toNat, 1) := by
  simp [decodeRune, small]

theorem firstColon_plain {pre : Bytes} (plain : ∀ c ∈ pre, c.toNat < 0x80 ∧ c.toNat ≠ 0x3A)
    (rest : Bytes) (i : Nat) : firstColon (pre ++ 0x3A :: rest) i = some (i + pre.length) := by
  induction pre generalizing i with
  | nil =>
    rw [List.nil_append, firstColon, if_neg (List.cons_ne_nil _ _), decodeRune_ascii _ (by decide)]
    rfl
  | cons a pre ih =>
    obtain ⟨small, notColon⟩ := plain a (List.mem_cons_self a pre)
    rw [List.cons_append, firstColon, if_neg (List.cons_ne_nil _ _), decodeRune_ascii _ small,
      if_neg notColon, List.drop_one, List.tail_cons,
      ih (fun c mem => plain c (List.mem_cons_of_mem a mem)), List.length_cons]
    congr 1
    omega

theorem scanWord_word {a : BitVec 8} (rest : Bytes) (small : a.toNat < 0x80)
    (notNewline : a.toNat ≠ 0x0A) (notSpace : isScanSpace a.toNat = false) :
    scanWord isScanSpace (a :: rest) = true := by
  rw [scanWord, if_neg (List.cons_ne_nil _ _), decodeRune_ascii _ small, if_neg notNewline,
    notSpace]
  rfl

theorem parseDID_string (d : DID) (plain : plainMethod d.method = true) :
    parseDID d.string = if d.id = [] then .error (.errorf "did: invalid format %q" [.inl d.string])
      else .ok ⟨d.method, d.id, none, none⟩ := by
  obtain ⟨method, id, pub, priv⟩ := d
  match method, plain with
  | a :: rest, plain =>
    simp only [plainMethod, Bool.and_eq_true, Bool.not_eq_true', bne_iff_ne, ne_eq,
      List.all_eq_true, decide_eq_true_eq] at plain
    obtain ⟨⟨notSpace, notNewline⟩, chars⟩ := plain
    have tail : (DID.string ⟨a :: rest, id, pub, priv⟩).drop 4 = (a :: rest) ++ 0x3A :: id := by
      simp [DID.string, ascii]
    have head : (DID.string ⟨a :: rest, id, pub, priv⟩).take 4 = ascii "did:" := by
      simp [DID.string, ascii]
    have scanned : sscanfDid (DID.string ⟨a :: rest, id, pub, priv⟩) = true := by
      rw [sscanfDid, head, tail, List.cons_append,
        scanWord_word _ (chars a (List.mem_cons_self a rest)).1 notNewline notSpace]
      rfl
    have colon := firstColon_plain (fun c mem => chars c mem) id 0
    have long : ¬ (DID.string ⟨a :: rest, id, pub, priv⟩).length ≤ 4 := by
      simp [DID.string, ascii]
    rw [parseDID, scanned, if_neg (by decide), if_neg long, tail, colon, Nat.zero_add]

    dsimp only
    rw [List.take_left, List.drop_append 1, List.drop_one, List.tail_cons]
    simp only [List.cons_ne_nil, false_or]

structure TrustGraph where
  scores : GoMap Bytes Float32

def newTrustGraph : TrustGraph := ⟨∅⟩

def trustKey (src dst : Bytes) : Bytes := src ++ ascii "->" ++ dst

/-- `clamp`: `v < 0` gives 0 and `v > 1` gives 1. -/
def clamp (v : Float32) : Float32 :=
  if v.lt Float32.zero then Float32.zero else if Float32.one.lt v then Float32.one else v

def TrustGraph.set (tg : TrustGraph) (src dst : Bytes) (score : Float32) : TrustGraph :=
  ⟨tg.scores.insert (trustKey src dst) (clamp score)⟩

/-- `Get`: an absent entry reads as the zero `float32`. -/
def TrustGraph.get (tg : TrustGraph) (src dst : Bytes) : Float32 :=
  (tg.scores.lookup (trustKey src dst)).getD Float32.zero

def TrustGraph.apply (tg : TrustGraph) (src dst : Bytes) (delta : Float32) : TrustGraph :=
  ⟨tg.scores.insert (trustKey src dst)
    (clamp ((tg.scores.lookup (trustKey src dst)).getD Float32.zero + delta))⟩

@[simp] theorem TrustGraph.get_apply (tg : TrustGraph) (src dst : Bytes) (delta : Float32) :
    (tg.apply src dst delta).get src dst = clamp (tg.get src dst + delta) := by
  simp [TrustGraph.get, TrustGraph.apply]

theorem TrustGraph.get_apply_ne (tg : TrustGraph) (src : Bytes) {dst d : Bytes} (delta : Float32)
    (other : dst ≠ d) : (tg.apply src dst delta).get src d = tg.get src d := by
  have keys : trustKey src d ≠ trustKey src dst := fun same => other (List.append_cancel_left same).symm
  simp only [TrustGraph.get, TrustGraph.apply, AList.lookup_insert_ne keys]

def TrustGraph.update (tg : TrustGraph) (src : Bytes) : Option (Bytes × Float32) → TrustGraph
  | none => tg
  | some (dst, delta) => tg.apply src dst delta

def edgeDelta (d : Bytes) (u : Option (Bytes × Float32)) : Option Float32 :=
  u.bind fun u => if u.1 = d then some u.2 else none

theorem TrustGraph.get_update (tg : TrustGraph) (src d : Bytes) (u : Option (Bytes × Float32)) :
    (tg.update src u).get src d =
      ((edgeDelta d u).map fun delta => clamp (tg.get src d + delta)).getD (tg.get src d) := by
  match u with
  | none => rfl
  | some (dst, delta) =>
    by_cases same : dst = d
    · subst same
      simp [TrustGraph.update, edgeDelta]
    · simp [TrustGraph.update, edgeDelta, same, TrustGraph.get_apply_ne _ _ _ same]

end Symplex.Core
