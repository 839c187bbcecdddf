import Bwk.Bech32

namespace Bwk.SpAddress

/-!
# Silent payment addresses

`sp/src/core/utils/common.rs`: an address is two public keys and a version,
written in Bech32m behind the name of its network.
-/

open Bech32 (Text U5 Bytes Variant lower upper)

inductive Network where
  | mainnet
  | testnet
  | regtest
  deriving Repr, DecidableEq

/-- What the `bech32` crate supplies. -/
structure Bech32Crate where
  decode : Text → Except Bech32.Error (Text × List U5 × Variant)
  encode : Text → List U5 → Variant → Except Bech32.Error Text
  toBase32 : Bytes → List U5
  fromBase32 : List U5 → Except Bech32.Error Bytes

/-- What the `secp256k1` crate supplies about public keys. -/
structure KeyCrate (PublicKey : Type) where
  fromSlice : Bytes → Option PublicKey
  serialize : PublicKey → Bytes

inductive Error where
  | unsupportedVersion (version : Nat)
  | wrongAddressLength (length : Nat)
  | invalidAddress (cause : Bech32.Error)
  | wrongHrp (hrp : Text)
  | secp256k1Error
  deriving Repr, DecidableEq

inductive Failure where
  | returned (error : Error)
  /-- A slice past the end of some bytes. -/
  | panicked
  deriving Repr, DecidableEq

/-- An address; the version is checked when it is made. -/
structure SilentPaymentAddress (PublicKey : Type) where
  version : UInt8
  scanPubkey : PublicKey
  mPubkey : PublicKey
  network : Network
  supported : version = 0
  deriving DecidableEq

variable {PublicKey : Type}

/-- `SilentPaymentAddress::new`. -/
def new
    (scanPubkey mPubkey : PublicKey)
    (network : Network)
    (version : UInt8) : Except Error (SilentPaymentAddress PublicKey) :=
  if supported : version = 0 then
    .ok ⟨version, scanPubkey, mPubkey, network, supported⟩
  else
    .error (.unsupportedVersion version.toNat)

/-- The human-readable part of a network. -/
def hrpOf : Network → Text
  | .mainnet => ['s', 'p']
  | .testnet => ['t', 's', 'p']
  | .regtest => ['s', 'p', 'r', 't']

/-- The network of a human-readable part. -/
def networkOf (hrp : Text) : Option Network :=
  if hrp = ['s', 'p'] then
    some .mainnet
  else if hrp = ['t', 's', 'p'] then
    some .testnet
  else if hrp = ['s', 'p', 'r', 't'] then
    some .regtest
  else
    none

/-- `TryFrom<&str>`: the checksum that was found is not looked at. -/
def tryFrom
    (bech32 : Bech32Crate)
    (keys : KeyCrate PublicKey)
    (addr : Text) : Except Failure (SilentPaymentAddress PublicKey) :=
  match bech32.decode addr with
  | .error cause => .error (.returned (.invalidAddress cause))
  | .ok (hrp, data, _) =>
      if data.length ≠ 107 then
        .error (.returned (.wrongAddressLength data.length))
      else
        match data, networkOf hrp with
        | [], _ => .error .panicked
        | _ :: _, none => .error (.returned (.wrongHrp hrp))
        | version :: payload, some network =>
            match bech32.fromBase32 payload with
            | .error cause => .error (.returned (.invalidAddress cause))
            | .ok bytes =>
                if bytes.length < 33 then
                  .error .panicked
                else
                  match keys.fromSlice (bytes.take 33),
                    keys.fromSlice (bytes.drop 33) with
                  | some scanPubkey, some mPubkey =>
                      match new scanPubkey mPubkey network
                          (UInt8.ofNat version.val) with
                      | .ok address => .ok address
                      | .error error => .error (.returned error)
                  | _, _ => .error (.returned .secp256k1Error)

/-- `u5::try_from_u8`. -/
def u5? (value : UInt8) : Option U5 :=
  if fits : value.toNat < 32 then some ⟨value.toNat, fits⟩ else none

/-- The symbols of an address, unless its version does not fit in one. -/
def symbols?
    (bech32 : Bech32Crate)
    (keys : KeyCrate PublicKey)
    (address : SilentPaymentAddress PublicKey) : Option (List U5) :=
  (u5? address.version).map fun version =>
    version :: bech32.toBase32
      (keys.serialize address.scanPubkey ++ keys.serialize address.mPubkey)

/-- `String::from`; nothing is a panic of one of the two `unwrap`. -/
def toText
    (bech32 : Bech32Crate)
    (keys : KeyCrate PublicKey)
    (address : SilentPaymentAddress PublicKey) : Option Text :=
  (symbols? bech32 keys address).bind fun data =>
    (bech32.encode (hrpOf address.network) data .bech32m).toOption

/--
The crate writes in lower case and reads what it writes in either case; it
reads nothing else; and bytes and symbols correspond, with the last symbol
filled up.
-/
structure Bech32Crate.Lawful (bech32 : Bech32Crate) : Prop where
  decode_encode :
    ∀ hrp data variant, Bech32.checkHrp hrp = .ok () → lower hrp = hrp →
      ∃ text, bech32.encode hrp data variant = .ok text ∧ lower text = text ∧
        bech32.decode text = .ok (hrp, data, variant) ∧
        bech32.decode (upper text) = .ok (hrp, data, variant)
  encode_of_decode :
    ∀ text hrp data variant, bech32.decode text = .ok (hrp, data, variant) →
      bech32.encode hrp data variant = .ok (lower text) ∧
        (text = lower text ∨ text = upper (lower text))
  fromBase32_toBase32 :
    ∀ bytes, bech32.fromBase32 (bech32.toBase32 bytes) = .ok bytes
  toBase32_of_fromBase32 :
    ∀ symbols bytes, bech32.fromBase32 symbols = .ok bytes →
      bech32.toBase32 bytes = symbols
  length_toBase32 :
    ∀ bytes, (bech32.toBase32 bytes).length = (8 * bytes.length + 4) / 5

/-- A public key has one serialization of 33 bytes, and is read from it. -/
structure KeyCrate.Lawful (keys : KeyCrate PublicKey) : Prop where
  length_serialize : ∀ key, (keys.serialize key).length = 33
  fromSlice_serialize : ∀ key, keys.fromSlice (keys.serialize key) = some key
  serialize_of_fromSlice :
    ∀ bytes key, bytes.length = 33 → keys.fromSlice bytes = some key →
      keys.serialize key = bytes

/-- An accepted text is, up to its case, how its address is written. -/
def OneSpelling
    (bech32 : Bech32Crate)
    (keys : KeyCrate PublicKey)
    (addr : Text) : Prop :=
  ∀ address, tryFrom bech32 keys addr = .ok address →
    ∃ text, toText bech32 keys address = some text ∧
      (addr = text ∨ addr = upper text)

/-- A text is how an address would be written with the older checksum. -/
def OlderSpelling
    (bech32 : Bech32Crate)
    (keys : KeyCrate PublicKey)
    (addr : Text) : Prop :=
  ∃ (address : SilentPaymentAddress PublicKey) (data : List U5) (text : Text),
    symbols? bech32 keys address = some data ∧
      bech32.encode (hrpOf address.network) data .bech32 = .ok text ∧
      (addr = text ∨ addr = upper text)

/-- The network of its own human-readable part. -/
@[simp] theorem networkOf_hrpOf (network : Network) :
    networkOf (hrpOf network) = some network := by
  cases network <;> rfl

theorem hrpOf_of_networkOf
    {hrp : Text}
    {network : Network}
    (read : networkOf hrp = some network) :
    hrpOf network = hrp := by
  unfold networkOf at read
  split at read
  · cases read
    exact Eq.symm ‹_›
  · split at read
    · cases read
      exact Eq.symm ‹_›
    · split at read
      · cases read
        exact Eq.symm ‹_›
      · cases read

theorem checkHrp_hrpOf (network : Network) :
    Bech32.checkHrp (hrpOf network) = .ok () ∧
      lower (hrpOf network) = hrpOf network := by
  cases network <;> exact ⟨by decide +kernel, by decide +kernel⟩

theorem u5?_version (address : SilentPaymentAddress PublicKey) :
    u5? address.version = some 0 := by
  rw [address.supported]
  rfl

section Laws

variable {bech32 : Bech32Crate} {keys : KeyCrate PublicKey}

theorem symbols?_eq (address : SilentPaymentAddress PublicKey) :
    symbols? bech32 keys address =
      some (0 :: bech32.toBase32
        (keys.serialize address.scanPubkey ++
          keys.serialize address.mPubkey)) := by
  rw [symbols?, u5?_version]
  rfl

variable {address : SilentPaymentAddress PublicKey} {addr : Text}

theorem tryFrom_of_symbols
    (lawful : bech32.Lawful)
    (lawfulKeys : keys.Lawful)
    {data : List U5}
    (written : symbols? bech32 keys address = some data)
    {variant : Variant}
    (decoded :
      bech32.decode addr = .ok (hrpOf address.network, data, variant)) :
    tryFrom bech32 keys addr = .ok address := by
  rw [symbols?_eq, Option.some_inj] at written
  subst written
  have size :
      (keys.serialize address.scanPubkey ++
        keys.serialize address.mPubkey).length = 66 := by
    rw [List.length_append, lawfulKeys.length_serialize,
      lawfulKeys.length_serialize]
  have symbolCount :
      (0 :: bech32.toBase32 (keys.serialize address.scanPubkey ++
        keys.serialize address.mPubkey)).length = 107 := by
    rw [List.length_cons, lawful.length_toBase32, size]
  rw [tryFrom, decoded]
  dsimp only
  rw [if_neg (by rw [symbolCount]; simp), networkOf_hrpOf]
  dsimp only
  rw [lawful.fromBase32_toBase32]
  dsimp only
  rw [if_neg (by omega),
    List.take_left' (lawfulKeys.length_serialize address.scanPubkey),
    List.drop_left' (lawfulKeys.length_serialize address.scanPubkey),
    lawfulKeys.fromSlice_serialize, lawfulKeys.fromSlice_serialize]
  cases address with
  | mk version scanPubkey mPubkey network supported =>
      subst supported
      rfl

theorem symbols_of_tryFrom
    (lawful : bech32.Lawful)
    (lawfulKeys : keys.Lawful)
    (parsed : tryFrom bech32 keys addr = .ok address) :
    ∃ data variant,
      bech32.decode addr = .ok (hrpOf address.network, data, variant) ∧
        symbols? bech32 keys address = some data := by
  unfold tryFrom at parsed
  split at parsed
  · cases parsed
  · rename_i hrp data variant decoded
    split at parsed
    · cases parsed
    · rename_i size
      rw [not_not] at size
      split at parsed
      · cases parsed
      · cases parsed
      · rename_i version payload network read
        split at parsed
        · cases parsed
        · rename_i bytes grouped
          split at parsed
          · cases parsed
          · rename_i long
            split at parsed
            · rename_i scanPubkey mPubkey scanRead mRead
              have regrouped := lawful.toBase32_of_fromBase32 _ _ grouped
              have bytesLength : bytes.length = 66 := by
                have count := lawful.length_toBase32 bytes
                rw [regrouped] at count
                rw [List.length_cons] at size
                omega
              have scanWritten :=
                lawfulKeys.serialize_of_fromSlice _ _
                  (by rw [List.length_take]; omega) scanRead
              have mWritten :=
                lawfulKeys.serialize_of_fromSlice _ _
                  (by rw [List.length_drop]; omega) mRead
              rw [new] at parsed
              split at parsed
              · rename_i made isMade
                cases parsed
                split at isMade
                · rename_i supported
                  cases isMade
                  have zero : version = 0 := by
                    have value := congrArg UInt8.toNat supported
                    rw [UInt8.toNat_ofNat',
                      Nat.mod_eq_of_lt (by omega)] at value
                    exact Fin.ext value
                  refine ⟨version :: payload, variant, ?_, ?_⟩
                  · rw [decoded, hrpOf_of_networkOf read]
                  · rw [symbols?_eq, scanWritten, mWritten,
                      List.take_append_drop, regrouped, zero]
                · cases isMade
              · cases parsed
            · cases parsed

theorem tryFrom_not_panicked
    (lawful : bech32.Lawful)
    (addr : Text) :
    tryFrom bech32 keys addr ≠ .error .panicked := by
  intro parsed
  unfold tryFrom at parsed
  split at parsed
  · cases parsed
  · rename_i hrp data variant decoded
    split at parsed
    · cases parsed
    · rename_i size
      rw [not_not] at size
      split at parsed
      · cases size
      · cases parsed
      · rename_i version payload network read
        split at parsed
        · cases parsed
        · rename_i bytes grouped
          split at parsed
          · rename_i short
            have count := lawful.length_toBase32 bytes
            rw [lawful.toBase32_of_fromBase32 _ _ grouped] at count
            rw [List.length_cons] at size
            omega
          · split at parsed
            · split at parsed
              · cases parsed
              · cases parsed
            · cases parsed

theorem toText_spec
    (lawful : bech32.Lawful)
    (address : SilentPaymentAddress PublicKey)
    (variant : Variant) :
    ∃ data text,
      symbols? bech32 keys address = some data ∧
        bech32.encode (hrpOf address.network) data variant = .ok text ∧
        bech32.decode text =
          .ok (hrpOf address.network, data, variant) ∧
        bech32.decode (upper text) =
          .ok (hrpOf address.network, data, variant) := by
  obtain ⟨passes, small⟩ := checkHrp_hrpOf address.network
  obtain ⟨text, encoded, -, decoded, decodedUpper⟩ :=
    lawful.decode_encode (hrpOf address.network)
      (0 :: bech32.toBase32 (keys.serialize address.scanPubkey ++
        keys.serialize address.mPubkey)) variant passes small
  exact ⟨_, text, symbols?_eq address, encoded, decoded, decodedUpper⟩

end Laws

/--
Every address is read back from how it is written, no text makes the parser
panic, and an accepted text is how its address is written exactly when it does
not have the older checksum: the parser takes either of the two.
-/
theorem one_spelling_iff
    (bech32 : Bech32Crate)
    (keys : KeyCrate PublicKey)
    (lawful : bech32.Lawful)
    (lawfulKeys : keys.Lawful) :
    (∀ address, ∃ text, toText bech32 keys address = some text ∧
      tryFrom bech32 keys text = .ok address) ∧
      (∀ addr, tryFrom bech32 keys addr ≠ .error .panicked) ∧
      ∀ addr, OneSpelling bech32 keys addr ↔
        ¬ OlderSpelling bech32 keys addr := by
  refine ⟨?_, ?_, ?_⟩
  · intro address
    obtain ⟨data, text, written, encoded, decoded, -⟩ :=
      toText_spec lawful address .bech32m
    refine ⟨text, ?_, tryFrom_of_symbols lawful lawfulKeys written decoded⟩
    rw [toText, written, Option.bind_some, encoded]
    rfl
  · intro addr
    exact tryFrom_not_panicked lawful addr
  · intro addr
    constructor
    · rintro one ⟨address, data, text, written, encoded, spelled⟩
      obtain ⟨data', text', written', encoded', decoded, decodedUpper⟩ :=
        @toText_spec _ _ keys lawful address .bech32
      rw [written, Option.some_inj] at written'
      subst written'
      rw [encoded, Except.ok.injEq] at encoded'
      subst encoded'
      have older :
          bech32.decode addr =
            .ok (hrpOf address.network, data, .bech32) := by
        obtain rfl | rfl := spelled
        · exact decoded
        · exact decodedUpper
      obtain ⟨current, shown, same⟩ :=
        one address (tryFrom_of_symbols lawful lawfulKeys written older)
      obtain ⟨data', text', written', encoded', decoded, decodedUpper⟩ :=
        @toText_spec _ _ keys lawful address .bech32m
      rw [written, Option.some_inj] at written'
      subst written'
      rw [toText, written, Option.bind_some, encoded'] at shown
      cases shown
      have newer :
          bech32.decode addr =
            .ok (hrpOf address.network, data, .bech32m) := by
        obtain rfl | rfl := same
        · exact decoded
        · exact decodedUpper
      rw [older] at newer
      cases newer
    · intro notOlder address parsed
      obtain ⟨data, variant, decoded, written⟩ :=
        symbols_of_tryFrom lawful lawfulKeys parsed
      obtain ⟨encoded, spelled⟩ := lawful.encode_of_decode _ _ _ _ decoded
      cases variant with
      | bech32 =>
          exact absurd ⟨address, data, _, written, encoded, spelled⟩ notOlder
      | bech32m =>
          refine ⟨lower addr, ?_, spelled⟩
          rw [toText, written, Option.bind_some, encoded]
          rfl

def codec : Bech32Crate where
  decode := Bech32.decode
  encode := Bech32.encode
  toBase32 := Bech32.toBase32
  fromBase32 := Bech32.fromBase32

theorem codec_lawful : codec.Lawful where
  decode_encode _ data variant passes small :=
    Bech32.decode_encode passes small data variant
  encode_of_decode _ _ _ _ read := Bech32.encode_of_decode read
  fromBase32_toBase32 := Bech32.fromBase32_toBase32
  toBase32_of_fromBase32 _ _ read := Bech32.toBase32_of_fromBase32 read
  length_toBase32 := Bech32.length_toBase32

def fieldPrime : Nat :=
  2 ^ 256 - 2 ^ 32 - 977

/-- A power in the field, by the bits of the exponent from the lowest. -/
def powMod : Nat → Nat → Nat → Nat → Nat
  | 0, _, _, power => power
  | bits + 1, base, exponent, power =>
      powMod bits (base * base % fieldPrime) (exponent / 2)
        (if exponent % 2 = 1 then power * base % fieldPrime else power)

/-- A compressed point of the curve: the sign, and a coordinate whose cube plus
seven is a square. -/
def isPoint (bytes : Bytes) : Bool :=
  match bytes with
  | sign :: coordinate =>
      let x := coordinate.foldl (fun value byte => 256 * value + byte.toNat) 0
      (sign = 2 || sign = 3) && coordinate.length = 32 && x < fieldPrime &&
        powMod 256 ((x * x * x + 7) % fieldPrime) ((fieldPrime - 1) / 2) 1 = 1
  | [] => false

/-- A public key, by its serialization. -/
abbrev Point := { bytes : Bytes // isPoint bytes = true }

/-- The compressed keys of the curve. -/
def compressed : KeyCrate Point where
  fromSlice bytes :=
    if onCurve : isPoint bytes = true then some ⟨bytes, onCurve⟩ else none
  serialize key := key.val

theorem length_of_isPoint
    {bytes : Bytes}
    (onCurve : isPoint bytes = true) :
    bytes.length = 33 := by
  cases bytes with
  | nil =>
      cases onCurve
  | cons sign coordinate =>
      simp only [isPoint, Bool.and_eq_true, decide_eq_true_eq] at onCurve
      rw [List.length_cons, onCurve.1.1.2]

theorem compressed_lawful : compressed.Lawful where
  length_serialize key := length_of_isPoint key.property
  fromSlice_serialize key := dif_pos key.property
  serialize_of_fromSlice bytes key _ read := by
    simp only [compressed] at read
    split at read
    · cases read
      rfl
    · cases read

/-- The laws hold together. -/
theorem one_spelling_compressed :
    (∀ address, ∃ text, toText codec compressed address = some text ∧
      tryFrom codec compressed text = .ok address) ∧
      (∀ addr, tryFrom codec compressed addr ≠ .error .panicked) ∧
      ∀ addr, OneSpelling codec compressed addr ↔
        ¬ OlderSpelling codec compressed addr :=
  one_spelling_iff codec compressed codec_lawful compressed_lawful

/-- An address with the older checksum. -/
def olderText : Text :=
  ("sp1qqgste7k9hx0qftg6qmwlkqtwuy6cycyavzmzj85c6qdfhjdpdjtdgqjuexzk6murw56" ++
    "suy3e0rd2cgqvycxttddwsvgxe2usfpxumr70xcsaxvtw").toList

/-- The same address as it is written. -/
def writtenText : Text :=
  ("sp1qqgste7k9hx0qftg6qmwlkqtwuy6cycyavzmzj85c6qdfhjdpdjtdgqjuexzk6murw56" ++
    "suy3e0rd2cgqvycxttddwsvgxe2usfpxumr70xc9pkqwv").toList

/-- The older checksum is accepted, and written back as the newer one. -/
theorem older_spelling_accepted :
    (tryFrom codec compressed olderText).toOption.bind
        (toText codec compressed) = some writtenText ∧
      ¬ OneSpelling codec compressed olderText := by
  have respelled :
      (tryFrom codec compressed olderText).toOption.bind
        (toText codec compressed) = some writtenText := by
    decide +kernel
  refine ⟨respelled, ?_⟩
  intro one
  cases parsed : tryFrom codec compressed olderText with
  | error failure =>
      rw [parsed] at respelled
      cases respelled
  | ok address =>
      obtain ⟨text, written, same⟩ := one address parsed
      rw [parsed] at respelled
      have found : text = writtenText :=
        Option.some_inj.mp (written.symm.trans respelled)
      rw [found] at same
      obtain lowerCase | upperCase := same
      · exact absurd lowerCase (by decide +kernel)
      · exact absurd upperCase (by decide +kernel)

end Bwk.SpAddress
