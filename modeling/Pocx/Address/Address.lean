import Mathlib.Data.List.Basic

set_option autoImplicit false

namespace Pocx.Address

/-- `BASE58_DECODED_LENGTH`: version byte, payload and checksum. -/
def base58DecodedLength : Nat := 25

def payloadLength : Nat := 20

/-- What is used of the crate `bs58`: Base58Check strings of any length, the empty one included. -/
structure Bs58 where
  checksum : List UInt8 → List UInt8
  encodeCheck : List UInt8 → List Char
  decodeCheck : List Char → Option (List UInt8)
  checksum_length : ∀ bytes, (checksum bytes).length = 4
  encode_decode : ∀ {address bytes}, decodeCheck address = some bytes →
    encodeCheck bytes = address
  encode_injective : ∀ {bytes bytes'}, encodeCheck bytes = encodeCheck bytes' → bytes = bytes'

/-- What is used of `bech32::segwit`. An address is decoded to its human readable part, the witness
version and the program; it is encoded in lower case. -/
structure Segwit where
  Hrp : Type
  parseHrp : List Char → Except String Hrp
  display : Hrp → List Char
  encode : Hrp → Nat → List UInt8 → Except String (List Char)
  decode : List Char → Except String (Hrp × Nat × List UInt8)
  version_le : ∀ {address hrp version program}, decode address = .ok (hrp, version, program) →
    version ≤ 16
  encode_decode : ∀ {address hrp version program}, decode address = .ok (hrp, version, program) →
    ∃ parsed, parseHrp (display hrp) = .ok parsed ∧
      encode parsed version program = .ok (address.map Char.toLower)
  encode_injective : ∀ {hrp version version' program address},
    encode hrp version program = .ok address → encode hrp version' program = .ok address →
    version = version'

inductive NetworkId
  | base58 (version : UInt8)
  | bech32 (hrp : List Char)
deriving DecidableEq

inductive AddressFormat
  | base58
  | bech32
deriving DecidableEq

inductive AddressError
  | invalidBase58 (message : String)
  | invalidBech32 (message : String)
  | invalidLength (expected actual : Nat)
  | checksumError
  | invalidWitnessVersion (version : Nat)
  | invalidHrp (message : String)
  | unknownFormat
deriving DecidableEq

section Codecs

variable (bs58 : Bs58) (segwit : Segwit)

/-- `bs58::encode(..).with_check_version(..)` -/
def base58Encode (payload : List UInt8) (version : UInt8) : Except AddressError (List Char) :=
  .ok (bs58.encodeCheck (version :: payload))

/-- The bytes and the checksum at the start of a buffer of zeros, where `onto` puts them. -/
def base58Buffer (bytes : List UInt8) : List UInt8 :=
  bytes ++ bs58.checksum bytes ++ List.replicate (base58DecodedLength - (bytes.length + 4)) 0

/-- `base58::decode`. How many bytes `onto` has put into the buffer is not looked at. -/
def base58Decode (address : List Char) : Except AddressError (List UInt8 × UInt8) :=
  match bs58.decodeCheck address with
  | none => .error .checksumError
  | some bytes =>
    if base58DecodedLength < bytes.length + 4 then .error .checksumError
    else
      let decoded := base58Buffer bs58 bytes
      .ok (decoded, decoded.headD 0)

/-- `bech32::encode` -/
def bech32Encode (payload : List UInt8) (hrp : List Char) : Except AddressError (List Char) :=
  match segwit.parseHrp hrp with
  | .error message => .error (.invalidHrp message)
  | .ok hrpParsed =>
    match segwit.encode hrpParsed 0 payload with
    | .error message => .error (.invalidBech32 message)
    | .ok encoded => .ok encoded

/-- `bech32::decode` -/
def bech32Decode (address : List Char) : Except AddressError (List UInt8 × List Char) :=
  match segwit.decode address with
  | .error message => .error (.invalidBech32 message)
  | .ok (hrp, witnessVersion, witnessProgram) =>
    if witnessVersion = 0 then
      if witnessProgram.length ≠ payloadLength then
        .error (.invalidLength payloadLength witnessProgram.length)
      else .ok (witnessProgram, segwit.display hrp)
    else if witnessVersion ≤ 16 then
      if witnessProgram.length ≠ payloadLength then
        .error (.invalidLength payloadLength witnessProgram.length)
      else .ok (witnessProgram, segwit.display hrp)
    else .error (.invalidWitnessVersion witnessVersion)

/-- `detect_address_format` -/
def detectAddressFormat (address : List Char) : Option AddressFormat :=
  match bech32Decode segwit address with
  | .ok _ => some .bech32
  | .error _ =>
    match base58Decode bs58 address with
    | .ok _ => some .base58
    | .error _ => none

/-- `encode_address` -/
def encodeAddress (payload : List UInt8) (networkId : NetworkId) :
    Except AddressError (List Char) :=
  if payload.length ≠ payloadLength then .error (.invalidLength payloadLength payload.length)
  else
    match networkId with
    | .base58 version => base58Encode bs58 payload version
    | .bech32 hrp => bech32Encode segwit payload hrp

/-- `decode_address` -/
def decodeAddress (address : List Char) : Except AddressError (List UInt8 × NetworkId) :=
  match detectAddressFormat bs58 segwit address with
  | some .base58 =>
    match base58Decode bs58 address with
    | .error error => .error error
    | .ok (decoded, version) => .ok ((decoded.drop 1).take 20, .base58 version)
  | some .bech32 =>
    match bech32Decode segwit address with
    | .error error => .error error
    | .ok (payload, hrp) => .ok (payload, .bech32 hrp)
  | none => .error .unknownFormat

/-- The address that stands for all spellings of an address: Bech32 comes in two cases. -/
def canonical (networkId : NetworkId) (address : List Char) : List Char :=
  match networkId with
  | .base58 _ => address
  | .bech32 _ => address.map Char.toLower

/-- What is decoded is encoded to the address it came from, which is the only one it comes from. -/
structure Inverse (address : List Char) : Prop where
  encodes : ∀ payload networkId, decodeAddress bs58 segwit address = .ok (payload, networkId) →
    encodeAddress bs58 segwit payload networkId = .ok (canonical networkId address)

/-- A segwit address that `bech32::decode` takes, of any version. -/
def TakenAsBech32 (address : List Char) (version : Nat) : Prop :=
  ∃ hrp program, segwit.decode address = .ok (hrp, version, program) ∧
    program.length = payloadLength

/-- Base58Check bytes that `base58::decode` takes. -/
def TakenAsBase58 (address : List Char) (bytes : List UInt8) : Prop :=
  bs58.decodeCheck address = some bytes ∧ bytes.length + 4 ≤ base58DecodedLength

/-- The code's part in telling addresses apart: the witness version is 0, and Base58Check bytes are a
version byte and a payload of the standard length. -/
def Standard (address : List Char) : Prop :=
  (∀ version, TakenAsBech32 segwit address version → version = 0) ∧
    ((∀ version, ¬ TakenAsBech32 segwit address version) →
      ∀ bytes, TakenAsBase58 bs58 address bytes → bytes.length = payloadLength + 1)

variable {bs58 segwit} {address : List Char}

theorem bech32Decode_taken {hrp : segwit.Hrp} {version : Nat} {program : List UInt8}
    (decoded : segwit.decode address = .ok (hrp, version, program))
    (sized : program.length = payloadLength) :
    bech32Decode segwit address = .ok (program, segwit.display hrp) := by
  have small := segwit.version_le decoded
  by_cases zero : version = 0
  · simp only [bech32Decode, decoded, zero, sized, ne_eq, not_true_eq_false, ↓reduceIte]
  · simp only [bech32Decode, decoded, zero, small, sized, ne_eq, not_true_eq_false, ↓reduceIte]

theorem bech32Decode_refused (untaken : ∀ version, ¬ TakenAsBech32 segwit address version) :
    ∃ error, bech32Decode segwit address = .error error := by
  unfold bech32Decode
  split
  · exact ⟨_, rfl⟩
  · rename_i hrp version program decoded
    have unsized : program.length ≠ payloadLength := by
      intro sized
      exact untaken version ⟨hrp, program, decoded, sized⟩
    simp only [if_pos unsized]
    split
    · exact ⟨_, rfl⟩
    split
    · exact ⟨_, rfl⟩
    · exact ⟨_, rfl⟩

theorem decodeAddress_bech32 {hrp : segwit.Hrp} {version : Nat} {program : List UInt8}
    (decoded : segwit.decode address = .ok (hrp, version, program))
    (sized : program.length = payloadLength) :
    decodeAddress bs58 segwit address = .ok (program, .bech32 (segwit.display hrp)) := by
  simp only [decodeAddress, detectAddressFormat, bech32Decode_taken decoded sized]

theorem base58Buffer_length {bytes : List UInt8} (fits : bytes.length + 4 ≤ base58DecodedLength) :
    (base58Buffer bs58 bytes).length = base58DecodedLength := by
  rw [base58Buffer, List.length_append, List.length_append, bs58.checksum_length,
    List.length_replicate, Nat.add_sub_cancel' fits]

theorem decodeAddress_base58 (untaken : ∀ version, ¬ TakenAsBech32 segwit address version)
    {bytes : List UInt8} (taken : TakenAsBase58 bs58 address bytes) :
    decodeAddress bs58 segwit address =
      .ok (((base58Buffer bs58 bytes).drop 1).take 20,
        .base58 ((base58Buffer bs58 bytes).headD 0)) := by
  obtain ⟨error, refused⟩ := bech32Decode_refused untaken
  obtain ⟨decoded, fits⟩ := taken
  have room := Nat.not_lt.mpr fits
  simp only [decodeAddress, detectAddressFormat, refused, base58Decode, decoded, if_neg room]

theorem decodeAddress_refused (untaken : ∀ version, ¬ TakenAsBech32 segwit address version)
    (unfit : ∀ bytes, ¬ TakenAsBase58 bs58 address bytes) :
    decodeAddress bs58 segwit address = .error .unknownFormat := by
  obtain ⟨error, refused⟩ := bech32Decode_refused untaken
  have failed : base58Decode bs58 address = .error .checksumError := by
    unfold base58Decode
    split
    · rfl
    · rename_i bytes decoded
      apply if_pos
      apply Nat.lt_of_not_le
      intro fits
      exact unfit bytes ⟨decoded, fits⟩
  simp only [decodeAddress, detectAddressFormat, refused, failed]

theorem encodeAddress_bech32 {hrp : List Char} {parsed : segwit.Hrp} {payload : List UInt8}
    (sized : payload.length = payloadLength) (parses : segwit.parseHrp hrp = .ok parsed)
    (encoded : List Char) :
    encodeAddress bs58 segwit payload (.bech32 hrp) = .ok encoded ↔
      segwit.encode parsed 0 payload = .ok encoded := by
  simp only [encodeAddress, sized, ne_eq, not_true_eq_false, ↓reduceIte, bech32Encode, parses]
  cases segwit.encode parsed 0 payload with
  | error message => simp only [reduceCtorEq]
  | ok found => simp only [Except.ok.injEq]

/-- A Bech32 address goes back to itself if its witness version is 0. -/
theorem inverse_bech32 {version : Nat} (taken : TakenAsBech32 segwit address version) :
    Inverse bs58 segwit address ↔ version = 0 := by
  obtain ⟨hrp, program, decoded, sized⟩ := taken
  obtain ⟨parsed, parses, encodes⟩ := segwit.encode_decode decoded
  have done : decodeAddress bs58 segwit address = _ := decodeAddress_bech32 decoded sized
  constructor
  · intro inverse
    have again := (encodeAddress_bech32 sized parses _).mp (inverse.encodes _ _ done)
    exact (segwit.encode_injective again encodes).symm
  · rintro rfl
    constructor
    intro payload networkId decoded'
    rw [done] at decoded'
    injection decoded' with same
    injection same with payloads networks
    rw [← payloads, ← networks]
    exact (encodeAddress_bech32 sized parses _).mpr encodes

/-- A Base58 address goes back to itself if its bytes have the standard length. -/
theorem inverse_base58 (untaken : ∀ version, ¬ TakenAsBech32 segwit address version)
    {bytes : List UInt8} (taken : TakenAsBase58 bs58 address bytes) :
    Inverse bs58 segwit address ↔ bytes.length = payloadLength + 1 := by
  have source := bs58.encode_decode taken.1
  have done := decodeAddress_base58 untaken taken
  have filled : (base58Buffer bs58 bytes).length = base58DecodedLength :=
    base58Buffer_length taken.2
  have payload : (((base58Buffer bs58 bytes).drop 1).take 20).length = payloadLength := by
    rw [List.length_take, List.length_drop, filled]
    rfl
  constructor
  · intro inverse
    have again := inverse.encodes _ _ done
    simp only [encodeAddress, payload, ne_eq, not_true_eq_false, ↓reduceIte, base58Encode,
      canonical, Except.ok.injEq] at again
    have encoded := bs58.encode_injective (again.trans source.symm)
    rw [← encoded, List.length_cons, payload]
  · intro sized
    obtain ⟨version, rest, rfl⟩ := List.exists_cons_of_length_eq_add_one sized
    have twenty : rest.length = 20 := Nat.succ.inj sized
    have whole : ((base58Buffer bs58 (version :: rest)).drop 1).take 20 = rest := by
      simp only [base58Buffer, List.cons_append, List.append_assoc, List.drop_succ_cons,
        List.drop_zero]
      exact List.take_left' twenty
    have first : (base58Buffer bs58 (version :: rest)).headD 0 = version := rfl
    constructor
    intro payload' networkId decoded
    rw [done] at decoded
    injection decoded with same
    injection same with payloads networks
    rw [← payloads, ← networks]
    rw [whole] at payload ⊢
    simp only [encodeAddress, payload, ne_eq, not_true_eq_false, ↓reduceIte, base58Encode,
      canonical, first, source]

/-- Decoding is the inverse of encoding on the standard addresses, and on no others that are
accepted; two standard addresses are not decoded to the same. -/
theorem inverse_iff (bs58 : Bs58) (segwit : Segwit) (address : List Char) :
    (Inverse bs58 segwit address ↔ Standard bs58 segwit address) ∧
    ∀ other payload networkId, Standard bs58 segwit address → Standard bs58 segwit other →
      decodeAddress bs58 segwit address = .ok (payload, networkId) →
      decodeAddress bs58 segwit other = .ok (payload, networkId) →
      canonical networkId address = canonical networkId other := by
  have exact_ (address : List Char) :
      Inverse bs58 segwit address ↔ Standard bs58 segwit address := by
    by_cases bech32 : ∃ version, TakenAsBech32 segwit address version
    · obtain ⟨version, taken⟩ := bech32
      rw [inverse_bech32 taken]
      constructor
      · intro zero
        refine ⟨?_, fun untaken => absurd taken (untaken version)⟩
        rintro version' ⟨hrp', program', decoded', -⟩
        obtain ⟨hrp, program, decoded, -⟩ := taken
        rw [decoded] at decoded'
        injection decoded' with same
        injection same with hrps versions
        injection versions with versions
        rw [← versions]
        exact zero
      · intro standard
        exact standard.1 version taken
    · have untaken : ∀ version, ¬ TakenAsBech32 segwit address version := by
        intro version taken
        exact bech32 ⟨version, taken⟩
      by_cases base58 : ∃ bytes, TakenAsBase58 bs58 address bytes
      · obtain ⟨bytes, taken⟩ := base58
        rw [inverse_base58 untaken taken]
        constructor
        · intro sized
          refine ⟨fun version taken => absurd taken (untaken version), ?_⟩
          rintro - bytes' ⟨decoded', -⟩
          rw [taken.1, Option.some.injEq] at decoded'
          rw [← decoded']
          exact sized
        · intro standard
          exact standard.2 untaken bytes taken
      · have refused : decodeAddress bs58 segwit address = .error .unknownFormat := by
          apply decodeAddress_refused untaken
          intro bytes taken
          exact base58 ⟨bytes, taken⟩
        constructor
        · intro _
          exact ⟨fun version taken => absurd taken (untaken version),
            fun _ bytes taken => absurd ⟨bytes, taken⟩ base58⟩
        · intro _
          constructor
          intro payload networkId decoded
          rw [refused] at decoded
          cases decoded
  refine ⟨exact_ address, ?_⟩
  intro other payload networkId standard standard' decoded decoded'
  have first := ((exact_ address).mpr standard).encodes _ _ decoded
  have second := ((exact_ other).mpr standard').encodes _ _ decoded'
  rw [first] at second
  injection second

end Codecs

section Collisions

def shortBytes : List UInt8 := 0x55 :: List.replicate 19 0x42

def shortAddress : List Char := "8mop3s2UAYpan9ZUFeFbydwvxMHZ6KFwh".toList

/-- The short bytes and the first byte of their checksum. -/
def paddedBytes : List UInt8 := shortBytes ++ [201]

def paddedAddress : List Char := "bJmcfdoUu9T26GnKHdRTNz5T9JY4iKZgik".toList

theorem byteChar_injective : Function.Injective fun byte : UInt8 => Char.ofNat byte.toNat := by
  have values : ∀ n < 256, (Char.ofNat n).toNat = n := by decide +kernel
  intro byte byte' same
  have codes := congrArg Char.toNat same
  rw [values byte.toNat byte.toNat_lt, values byte'.toNat byte'.toNat_lt] at codes
  exact UInt8.toNat_inj.mp codes

/-- Two Base58Check strings as they are; other bytes are written in characters that Base58 does not
have, and no other string is decoded. -/
def sampleBs58 : Bs58 where
  checksum := fun bytes => if bytes = shortBytes then [201, 42, 247, 124] else [194, 11, 33, 241]
  encodeCheck := fun bytes =>
    if bytes = shortBytes then shortAddress
    else if bytes = paddedBytes then paddedAddress
    else '#' :: bytes.map fun byte => Char.ofNat byte.toNat
  decodeCheck := fun address =>
    if address = shortAddress then some shortBytes
    else if address = paddedAddress then some paddedBytes
    else none
  checksum_length := by
    intro bytes
    split
    · rfl
    · rfl
  encode_decode := by
    intro address bytes decoded
    split at decoded
    · rename_i short
      injection decoded with same
      rw [if_pos same.symm, short]
    split at decoded
    · rename_i padded
      injection decoded with same
      have other : bytes ≠ shortBytes := by
        rw [← same]
        decide
      rw [if_neg other, if_pos same.symm, padded]
    · cases decoded
  encode_injective := by
    have differ : shortAddress ≠ paddedAddress := by decide
    have short (rest : List Char) : shortAddress ≠ '#' :: rest := by
      intro same
      have first := congrArg (List.headD · ' ') same
      revert first
      exact (by decide : ¬ shortAddress.headD ' ' = '#')
    have padded (rest : List Char) : paddedAddress ≠ '#' :: rest := by
      intro same
      have first := congrArg (List.headD · ' ') same
      revert first
      exact (by decide : ¬ paddedAddress.headD ' ' = '#')
    intro bytes bytes' same
    by_cases first : bytes = shortBytes
    · by_cases first' : bytes' = shortBytes
      · rw [first, first']
      · by_cases second' : bytes' = paddedBytes
        · rw [if_pos first, if_neg first', if_pos second'] at same
          exact absurd same differ
        · rw [if_pos first, if_neg first', if_neg second'] at same
          exact absurd same (short _)
    · by_cases second : bytes = paddedBytes
      · by_cases first' : bytes' = shortBytes
        · rw [if_neg first, if_pos second, if_pos first'] at same
          exact absurd same.symm differ
        · by_cases second' : bytes' = paddedBytes
          · rw [second, second']
          · rw [if_neg first, if_pos second, if_neg first', if_neg second'] at same
            exact absurd same (padded _)
      · by_cases first' : bytes' = shortBytes
        · rw [if_neg first, if_neg second, if_pos first'] at same
          exact absurd same.symm (short _)
        · by_cases second' : bytes' = paddedBytes
          · rw [if_neg first, if_neg second, if_neg first', if_pos second'] at same
            exact absurd same.symm (padded _)
          · rw [if_neg first, if_neg second, if_neg first', if_neg second'] at same
            injection same with _ same
            exact byteChar_injective.list_map same

def program : List UInt8 := List.replicate 20 0x42

def versionZero : List Char := "pocx1qgfpyysjzgfpyysjzgfpyysjzgfpyysjz3pkq44".toList

def versionOne : List Char := "pocx1pgfpyysjzgfpyysjzgfpyysjzgfpyysjz0r38au".toList

/-- Two segwit addresses of one program as they are; no other string is decoded. -/
def sampleSegwit : Segwit where
  Hrp := Unit
  parseHrp := fun hrp => if hrp = "pocx".toList then .ok () else .error "unknown"
  display := fun _ => "pocx".toList
  encode := fun _ version bytes =>
    if bytes = program ∧ version = 0 then .ok versionZero
    else if bytes = program ∧ version = 1 then .ok versionOne
    else .error "unknown"
  decode := fun address =>
    if address = versionZero then .ok ((), 0, program)
    else if address = versionOne then .ok ((), 1, program)
    else .error "unknown"
  version_le := by
    intro address hrp version bytes decoded
    split at decoded
    · cases decoded
      decide
    split at decoded
    · cases decoded
      decide
    · cases decoded
  encode_decode := by
    intro address hrp version bytes decoded
    refine ⟨(), if_pos rfl, ?_⟩
    split at decoded
    · rename_i zero
      cases decoded
      rw [zero]
      decide
    split at decoded
    · rename_i one
      cases decoded
      rw [one]
      decide
    · cases decoded
  encode_injective := by
    have differ : versionZero ≠ versionOne := by decide
    intro hrp version version' bytes address encoded encoded'
    split at encoded
    · rename_i zero
      split at encoded'
      · rename_i zero'
        rw [zero.2, zero'.2]
      split at encoded'
      · cases encoded
        injection encoded' with same
        exact absurd same.symm differ
      · cases encoded'
    split at encoded
    · rename_i one
      split at encoded'
      · cases encoded
        injection encoded' with same
        exact absurd same differ
      split at encoded'
      · rename_i one'
        rw [one.2, one'.2]
      · cases encoded'
    · cases encoded

/-- Two addresses of different witness versions are decoded to the same, and a Base58 address of a
short payload is taken although encoding what it is decoded to gives another one. -/
theorem addresses_collide :
    (versionZero ≠ versionOne ∧
      decodeAddress sampleBs58 sampleSegwit versionZero =
        .ok (program, .bech32 "pocx".toList) ∧
      decodeAddress sampleBs58 sampleSegwit versionOne =
        .ok (program, .bech32 "pocx".toList) ∧
      ¬ Inverse sampleBs58 sampleSegwit versionOne) ∧
    ∃ payload, decodeAddress sampleBs58 sampleSegwit shortAddress = .ok (payload, .base58 0x55) ∧
      encodeAddress sampleBs58 sampleSegwit payload (.base58 0x55) = .ok paddedAddress ∧
      paddedAddress ≠ shortAddress := by
  have one : TakenAsBech32 sampleSegwit versionOne 1 := ⟨(), program, rfl, rfl⟩
  refine ⟨⟨by decide, rfl, rfl, ?_⟩, (paddedBytes.drop 1), rfl, rfl, by decide⟩
  rw [inverse_bech32 one]
  decide

end Collisions

end Pocx.Address
