import Bwk.XOnlyKeys
import Mathlib.Data.List.Infix

namespace Bwk

/-!
# The inputs that count

`sp/src/core/receiving.rs`: a silent payment is derived from the public keys of
the inputs that count.  A key is read back from a finalized input and the
script it spends, both of them bytes; parsing keys and hashing come from
outside.
-/

abbrev Bytes := List UInt8

/-- What the `bitcoin` and `secp256k1` crates supply about bytes. -/
structure KeyCrate (G X : Type) where
  hash160 : Bytes → Bytes
  /-- `PublicKey::from_slice`. -/
  publicKey : Bytes → Option G
  /-- `XOnlyPublicKey::from_slice`. -/
  xOnlyKey : Bytes → Option X

structure FinalizedInput where
  scriptSig : Bytes
  witness : List Bytes
  deriving Repr, DecidableEq

/-- Why no key could be read. -/
inductive InputError where
  | invalidInput (reason : String)
  | secp256k1
  deriving Repr, DecidableEq

/-- The internal key nobody holds. -/
def numsH : Bytes :=
  [0x50, 0x92, 0x9b, 0x74, 0xc1, 0xa0, 0x49, 0x54, 0xb7, 0x8b, 0x4b, 0x60,
   0x35, 0xe9, 0x7a, 0x5e, 0x07, 0x8a, 0x5a, 0x0f, 0x28, 0xec, 0x96, 0xd5,
   0x47, 0xbf, 0xee, 0x9a, 0xce, 0x80, 0x3a, 0xc0]

/-- The bytes from `first` up to, but not including, `last`. -/
def slice (bytes : Bytes) (first last : Nat) : Bytes :=
  (bytes.drop first).take (last - first)

/-- Every run of `size` bytes, from the first to the last. -/
def windows (size : Nat) (bytes : Bytes) : List Bytes :=
  (List.range (bytes.length + 1 - size)).map
    (fun first => slice bytes first (first + size))

/-- Pay to a public key hash. -/
def p2pkh (hash : Bytes) : Bytes :=
  [0x76, 0xa9, 0x14] ++ hash ++ [0x88, 0xac]

/-- Pay to a script hash. -/
def p2sh (hash : Bytes) : Bytes :=
  [0xa9, 0x14] ++ hash ++ [0x87]

/-- Pay to a witness public key hash. -/
def p2wpkh (hash : Bytes) : Bytes :=
  [0x00, 0x14] ++ hash

/-- Pay to a taproot output key. -/
def p2tr (key : Bytes) : Bytes :=
  [0x51, 0x20] ++ key

/-- `Script::is_p2pkh`. -/
def isP2pkh (spk : Bytes) : Bool :=
  spk.length = 25 ∧ spk.take 3 = [0x76, 0xa9, 0x14] ∧
    spk.drop 23 = [0x88, 0xac]

/-- `Script::is_p2sh`. -/
def isP2sh (spk : Bytes) : Bool :=
  spk.length = 23 ∧ spk.take 2 = [0xa9, 0x14] ∧ spk.drop 22 = [0x87]

/-- `Script::is_p2wpkh`. -/
def isP2wpkh (spk : Bytes) : Bool :=
  spk.length = 22 ∧ spk.take 2 = [0x00, 0x14]

/-- `Script::is_p2tr`. -/
def isP2tr (spk : Bytes) : Bool :=
  spk.length = 34 ∧ spk.take 2 = [0x51, 0x20]

section Eligible

variable {G X : Type} [AddCommGroup G]
variable (keys : XOnlyKeys G X) (crate : KeyCrate G X)

def compressedPubkey (bytes keyHash : Bytes) : Option G :=
  if bytes.length ≠ 33 ∨ crate.hash160 bytes ≠ keyHash then
    none
  else
    crate.publicKey bytes

def witnessPubkey
    (witness : List Bytes)
    (keyHash : Bytes)
    (reason : String) : Except InputError (Option G) :=
  match witness.getLast?.bind (compressedPubkey crate · keyHash) with
  | some pubkey => .ok (some pubkey)
  | none => .error (.invalidInput reason)

def taprootPubkey
    (witness : List Bytes)
    (spk : Bytes) : Except InputError (Option G) :=
  let hasAnnex :=
    (witness.getLast?.bind List.head?).any (fun byte => byte = 0x50)
  let stackLen := witness.length - hasAnnex.toNat
  let outputKey : Except InputError (Option G) :=
    match crate.xOnlyKey (slice spk 2 34) with
    | some xonly => .ok (some (keys.even xonly))
    | none => .error .secp256k1
  if stackLen = 0 then
    .error (.invalidInput "empty P2TR witness")
  else if stackLen > 1 then
    -- The control block is the last item, the internal key its bytes 1..33.
    match witness[stackLen - 1]? with
    | some control =>
        if control.length < 33 then
          .error (.invalidInput "invalid P2TR control block")
        else if slice control 1 33 = numsH then
          .ok none
        else
          outputKey
    | none => .error (.invalidInput "invalid P2TR control block")
  else
    outputKey

def eligibleInputPubkey
    (input : FinalizedInput)
    (spk : Bytes) : Except InputError (Option G) :=
  if isP2pkh spk then
    if input.witness ≠ [] ∨ input.scriptSig = [] then
      .error (.invalidInput "invalid P2PKH spend")
    else
      .ok ((windows 33 input.scriptSig).reverse.findSome?
        (compressedPubkey crate · (slice spk 3 23)))
  else if isP2sh spk then
    let redeemScript := input.scriptSig.drop 1
    if input.scriptSig.length ≠ 23 ∨ input.scriptSig.head? ≠ some 22 then
      .ok none
    else if ¬ isP2wpkh redeemScript ∨
        crate.hash160 redeemScript ≠ slice spk 2 22 then
      .ok none
    else
      witnessPubkey crate input.witness (slice redeemScript 2 22)
        "invalid P2SH-P2WPKH spend"
  else if isP2wpkh spk then
    if input.scriptSig ≠ [] then
      .error (.invalidInput "non-empty P2WPKH scriptSig")
    else
      witnessPubkey crate input.witness (slice spk 2 22)
        "invalid P2WPKH spend"
  else if isP2tr spk then
    if input.scriptSig ≠ [] then
      .error (.invalidInput "non-empty P2TR scriptSig")
    else
      taprootPubkey keys crate input.witness spk
  else
    .ok none

end Eligible

section Templates

variable {hash key : Bytes}

@[simp] theorem isP2pkh_p2pkh (length : hash.length = 20) :
    isP2pkh (p2pkh hash) = true := by
  simp [isP2pkh, p2pkh, length]

@[simp] theorem slice_p2pkh (length : hash.length = 20) :
    slice (p2pkh hash) 3 23 = hash := by
  simp [slice, p2pkh, ← length]

@[simp] theorem isP2sh_p2sh (length : hash.length = 20) :
    isP2sh (p2sh hash) = true := by
  simp [isP2sh, p2sh, length]

@[simp] theorem slice_p2sh (length : hash.length = 20) :
    slice (p2sh hash) 2 22 = hash := by
  simp [slice, p2sh, ← length]

@[simp] theorem isP2wpkh_p2wpkh (length : hash.length = 20) :
    isP2wpkh (p2wpkh hash) = true := by
  simp [isP2wpkh, p2wpkh, length]

@[simp] theorem slice_p2wpkh (length : hash.length = 20) :
    slice (p2wpkh hash) 2 22 = hash := by
  simp [slice, p2wpkh, ← length]

@[simp] theorem isP2tr_p2tr (length : key.length = 32) :
    isP2tr (p2tr key) = true := by
  simp [isP2tr, p2tr, length]

@[simp] theorem slice_p2tr (length : key.length = 32) :
    slice (p2tr key) 2 34 = key := by
  simp [slice, p2tr, ← length]

theorem only_p2pkh {spk : Bytes} (template : isP2pkh spk = true) :
    isP2sh spk = false ∧ isP2wpkh spk = false ∧ isP2tr spk = false := by
  simp only [isP2pkh, isP2sh, isP2wpkh, isP2tr, decide_eq_true_eq,
    decide_eq_false_iff_not] at template ⊢
  omega

theorem only_p2sh {spk : Bytes} (template : isP2sh spk = true) :
    isP2pkh spk = false ∧ isP2wpkh spk = false ∧ isP2tr spk = false := by
  simp only [isP2pkh, isP2sh, isP2wpkh, isP2tr, decide_eq_true_eq,
    decide_eq_false_iff_not] at template ⊢
  omega

theorem only_p2wpkh {spk : Bytes} (template : isP2wpkh spk = true) :
    isP2pkh spk = false ∧ isP2sh spk = false ∧ isP2tr spk = false := by
  simp only [isP2pkh, isP2sh, isP2wpkh, isP2tr, decide_eq_true_eq,
    decide_eq_false_iff_not] at template ⊢
  omega

theorem only_p2tr {spk : Bytes} (template : isP2tr spk = true) :
    isP2pkh spk = false ∧ isP2sh spk = false ∧ isP2wpkh spk = false := by
  simp only [isP2pkh, isP2sh, isP2wpkh, isP2tr, decide_eq_true_eq,
    decide_eq_false_iff_not] at template ⊢
  omega

theorem isP2wpkh_iff (spk : Bytes) :
    isP2wpkh spk ↔ ∃ hash : Bytes, hash.length = 20 ∧ spk = p2wpkh hash := by
  constructor
  · intro template
    simp only [isP2wpkh, decide_eq_true_eq] at template
    refine ⟨spk.drop 2, by simp [template.1], ?_⟩
    rw [p2wpkh, ← template.2, List.take_append_drop]
  · rintro ⟨hash, length, rfl⟩
    exact isP2wpkh_p2wpkh length

end Templates

end Bwk
