import Mathlib.Data.List.Basic
import Pocx.Hashlib.Shabal256
import Pocx.PlotFile.Reading

set_option autoImplicit false

namespace Pocx.PlotFile

open Hashlib (U8s)

/-- What is used of the crate `hex`. -/
structure HexCrate where
  Error : Type
  encode : List UInt8 → List Char
  encodeUpper : List UInt8 → List Char
  decodeToSlice : List Char → (n : Nat) → Except Error (U8s n)
  decode_encodeUpper : ∀ {n : Nat} (bytes : U8s n),
    decodeToSlice (encodeUpper (List.ofFn bytes)) n = .ok bytes
  encodeUpper_length : ∀ bytes, (encodeUpper bytes).length = 2 * bytes.length
  encodeUpper_digits : ∀ bytes, ∀ c ∈ encodeUpper bytes,
    c ∈ ['0', '1', '2', '3', '4', '5', '6', '7', '8', '9', 'A', 'B', 'C', 'D', 'E', 'F']

inductive ParseIntError
  | empty
  | invalidDigit
  | posOverflow
deriving DecidableEq

def parseDigits (max : Nat) : List Char → Nat → Except ParseIntError Nat
  | [], result => .ok result
  | c :: rest, result =>
    if c.isDigit then
      if max < 10 * result + (c.toNat - '0'.toNat) then .error .posOverflow
      else parseDigits max rest (10 * result + (c.toNat - '0'.toNat))
    else .error .invalidDigit

/-- `str::parse` at an unsigned type. A plus sign in front is accepted. -/
def parseUnsigned (max : Nat) (text : List Char) : Except ParseIntError Nat :=
  match text with
  | [] => .error .empty
  | ['+'] => .error .invalidDigit
  | '+' :: rest => parseDigits max rest 0
  | c :: rest => parseDigits max (c :: rest) 0

/-- The text before the last dot and that behind it. -/
def splitLastDot (name : List Char) : Option (List Char × List Char) :=
  match name.reverse.dropWhile (· != '.') with
  | [] => none
  | _ :: before => some (before.reverse, (name.reverse.takeWhile (· != '.')).reverse)

/-- `Path::extension`; a name that starts with its only dot has none. -/
def extension (name : List Char) : Option (List Char) :=
  match splitLastDot name with
  | none => none
  | some (before, after) => if before = [] then none else some after

/-- `Path::file_stem` -/
def fileStem (name : List Char) : List Char :=
  match splitLastDot name with
  | none => name
  | some (before, _) => if before = [] then name else before

/-- `PathBuf::set_extension`, to an extension that is not empty. -/
def setExtension (name extension : List Char) : List Char := fileStem name ++ '.' :: extension

/-- The name that `PoCXPlotFile::new` gives a plot. -/
def newName (hex : HexCrate) (addressPayload : U8s 20) (seedDecoded : U8s 32)
    (numberOfWarps compression : Nat) : List Char :=
  hex.encodeUpper (List.ofFn addressPayload) ++ '_' ::
    (hex.encodeUpper (List.ofFn seedDecoded) ++ '_' ::
      (Nat.toDigits 10 numberOfWarps ++ '_' :: 'X' :: (Nat.toDigits 10 compression ++
        ['.', 't', 'm', 'p'])))

/-- The name that `finalize` gives a file. -/
def finalizedName (name : List Char) : List Char :=
  if extension name = some ['t', 'm', 'p'] then setExtension name ['p', 'o', 'c', 'x'] else name

/-- The errors of `open`; the extension is missing where there is none. -/
inductive OpenError (hex : HexCrate)
  | fileNotFound
  | invalidFilename (filename : Option (List Char))
  | invalidExtension (extension : Option (List Char))
  | hex (error : hex.Error)
  | invalidSeed (length : Nat) (seed : List Char)
  | parseInt (error : ParseIntError)
  | invalidCompression (text : List Char)
  | fileSizeMismatch (expected actual : Nat)

/-- `PlotFileMeta`, without the path and the time of the file. -/
structure PlotFileMeta where
  base58 : List Char
  base58Decoded : U8s 20
  seed : List Char
  seedDecoded : U8s 32
  numberOfWarps : Nat
  compression : Nat
  filename : List Char

/-- `str::len` -/
def byteLength (text : List Char) : Nat := (text.map Char.utf8Size).sum

/-- The part of `open` that reads the name of the file. -/
def parseName (hex : HexCrate) (filename : List Char) : Except (OpenError hex) PlotFileMeta :=
  match filename.splitOn '_' with
  | [base58Raw, seedString, warps, compressionPart] =>
    match extension filename with
    | none => .error (.invalidExtension none)
    | some extension =>
      if extension ≠ ['p', 'o', 'c', 'x'] then .error (.invalidExtension (some extension))
      else
        match hex.decodeToSlice base58Raw 20 with
        | .error error => .error (.hex error)
        | .ok base58Decoded =>
          if byteLength seedString ≠ 64 then
            .error (.invalidSeed (byteLength seedString) seedString)
          else
            match hex.decodeToSlice seedString 32 with
            | .error error => .error (.hex error)
            | .ok seedDecoded =>
              match parseUnsigned u64Max warps with
              | .error error => .error (.parseInt error)
              | .ok numberOfWarps =>
                match compressionPart with
                | 'X' :: rest =>
                  match parseUnsigned 255 (rest.takeWhile (· != '.')) with
                  | .error error => .error (.parseInt error)
                  | .ok compression =>
                    .ok
                      { base58 := base58Raw
                        base58Decoded := base58Decoded
                        seed := hex.encode (List.ofFn seedDecoded)
                        seedDecoded := seedDecoded
                        numberOfWarps := numberOfWarps
                        compression := compression
                        filename := filename }
                | text => .error (.invalidCompression text)
  | _ => .error (.invalidFilename (some filename))

/-- `PoCXPlotFile::open`, up to its system calls: of a file of some size, if there is one, with a
name that is UTF-8, if it is. The expected size is computed in 64 bits. -/
def openPlot (hex : HexCrate) (filename : Option (List Char)) (size : Option Nat) :
    Except (OpenError hex) PlotFileMeta :=
  match size with
  | none => .error .fileNotFound
  | some size =>
    match filename with
    | none => .error (.invalidFilename none)
    | some filename =>
      match parseName hex filename with
      | .error error => .error error
      | .ok plotMeta =>
        let expSize := plotMeta.numberOfWarps * warpSize % 2 ^ 64
        if size ≠ expSize then .error (.fileSizeMismatch expSize size) else .ok plotMeta

section Numbers

theorem parseDigits_digits (max : Nat) (text : List Char) (result : Nat)
    (digits : ∀ c ∈ text, c.isDigit = true) (small : Nat.ofDigitChars 10 text result ≤ max) :
    parseDigits max text result = .ok (Nat.ofDigitChars 10 text result) := by
  induction text generalizing result with
  | nil => rw [parseDigits, Nat.ofDigitChars_nil]
  | cons c rest ih =>
    rw [Nat.ofDigitChars_cons] at small ⊢
    have grown : 10 * result + (c.toNat - '0'.toNat) ≤
        Nat.ofDigitChars 10 rest (10 * result + (c.toNat - '0'.toNat)) := by
      rw [Nat.ofDigitChars_eq_ofDigitChars_zero]
      have power : 1 ≤ 10 ^ rest.length := Nat.one_le_pow _ _ (by decide)
      have scaled := Nat.mul_le_mul_right (10 * result + (c.toNat - '0'.toNat)) power
      omega
    rw [parseDigits, if_pos (digits c List.mem_cons_self), if_neg (by omega)]
    exact ih _ (fun later member => digits later (List.mem_cons_of_mem _ member)) small

theorem parseUnsigned_digits {max : Nat} {text : List Char} (nonempty : text ≠ [])
    (digits : ∀ c ∈ text, c.isDigit = true) (small : Nat.ofDigitChars 10 text 0 ≤ max) :
    parseUnsigned max text = .ok (Nat.ofDigitChars 10 text 0) := by
  cases text with
  | nil => exact absurd rfl nonempty
  | cons c rest =>
    have plus : c ≠ '+' := by
      rintro rfl
      have digit := digits '+' List.mem_cons_self
      cases digit
    have parsed := parseDigits_digits max (c :: rest) 0 digits small
    unfold parseUnsigned
    split
    · cases ‹c :: rest = []›
    · rename_i same
      injection same with first
      exact absurd first plus
    · rename_i same
      injection same with first
      exact absurd first plus
    · rename_i same
      rw [← same]
      exact parsed

theorem toDigits_isDigit (n : Nat) : ∀ c ∈ Nat.toDigits 10 n, c.isDigit = true := by
  intro c member
  exact Nat.isDigit_of_mem_toDigits (b := 10) (by decide) (by decide) member

/-- A number written in decimal is read back. -/
theorem parseUnsigned_toDigits {max n : Nat} (small : n ≤ max) :
    parseUnsigned max (Nat.toDigits 10 n) = .ok n := by
  have value : Nat.ofDigitChars 10 (Nat.toDigits 10 n) 0 = n := Nat.ofDigitChars_ten_toDigits
  have parsed := @parseUnsigned_digits max (Nat.toDigits 10 n) Nat.toDigits_ne_nil
    (toDigits_isDigit n) (by rw [value]; exact small)
  rw [value] at parsed
  exact parsed

end Numbers

section Texts

/-- The last dot of a text is the one with no dot behind it. -/
theorem splitLastDot_append (before after : List Char) (plain : ∀ c ∈ after, c ≠ '.') :
    splitLastDot (before ++ '.' :: after) = some (before, after) := by
  have stays : ∀ c ∈ after.reverse, (c != '.') = true := by
    intro c member
    exact bne_iff_ne.mpr (plain c (List.mem_reverse.mp member))
  have reversed : (before ++ '.' :: after).reverse = after.reverse ++ '.' :: before.reverse := by
    simp only [List.reverse_append, List.reverse_cons, List.append_assoc, List.singleton_append]
  have dropped : (after.reverse ++ '.' :: before.reverse).dropWhile (· != '.') =
      '.' :: before.reverse := by
    rw [List.dropWhile_append_of_pos stays]
    rfl
  have taken : (after.reverse ++ '.' :: before.reverse).takeWhile (· != '.') = after.reverse := by
    rw [List.takeWhile_append_of_pos stays]
    simp
  rw [splitLastDot, reversed, dropped, taken]
  simp only [List.reverse_reverse]

theorem extension_append {before after : List Char} (nonempty : before ≠ [])
    (plain : ∀ c ∈ after, c ≠ '.') : extension (before ++ '.' :: after) = some after := by
  rw [extension, splitLastDot_append before after plain]
  simp only [if_neg nonempty]

theorem setExtension_append {before after : List Char} (nonempty : before ≠ [])
    (plain : ∀ c ∈ after, c ≠ '.') (new : List Char) :
    setExtension (before ++ '.' :: after) new = before ++ '.' :: new := by
  rw [setExtension, fileStem, splitLastDot_append before after plain]
  simp only [if_neg nonempty]

/-- Four parts without underscores. -/
theorem splitOn_parts {first second third fourth : List Char} (plain : ∀ part ∈
      [first, second, third, fourth], '_' ∉ part) :
    (first ++ '_' :: (second ++ '_' :: (third ++ '_' :: fourth))).splitOn '_' =
      [first, second, third, fourth] := by
  have split := List.splitOn_intercalate '_' plain (List.cons_ne_nil _ _)
  have joined : ['_'].intercalate [first, second, third, fourth] =
      first ++ '_' :: (second ++ '_' :: (third ++ '_' :: fourth)) := by
    simp [List.intercalate]
  rw [joined] at split
  exact split

end Texts

section Names

variable (hex : HexCrate)

theorem encodeUpper_plain (bytes : List UInt8) :
    '_' ∉ hex.encodeUpper bytes ∧ '.' ∉ hex.encodeUpper bytes := by
  constructor
  · intro member
    have digit := hex.encodeUpper_digits bytes _ member
    revert digit
    decide
  · intro member
    have digit := hex.encodeUpper_digits bytes _ member
    revert digit
    decide

theorem encodeUpper_byteLength (bytes : List UInt8) :
    byteLength (hex.encodeUpper bytes) = 2 * bytes.length := by
  have sizes : ∀ c ∈ ['0', '1', '2', '3', '4', '5', '6', '7', '8', '9', 'A', 'B', 'C', 'D', 'E', 'F'],
      c.utf8Size = 1 := by simp [Char.utf8Size]
  have ones : (hex.encodeUpper bytes).map Char.utf8Size =
      List.replicate (hex.encodeUpper bytes).length 1 := by
    rw [List.eq_replicate_iff]
    refine ⟨List.length_map _, ?_⟩
    intro size member
    obtain ⟨c, digit, rfl⟩ := List.mem_map.mp member
    exact sizes c (hex.encodeUpper_digits bytes c digit)
  rw [byteLength, ones, List.sum_replicate_nat, Nat.mul_one, hex.encodeUpper_length]

section

variable (addressPayload : U8s 20) (seedDecoded : U8s 32) (numberOfWarps compression : Nat)

/-- The name of a plot up to its extension. -/
def stem : List Char :=
  hex.encodeUpper (List.ofFn addressPayload) ++ '_' ::
    (hex.encodeUpper (List.ofFn seedDecoded) ++ '_' ::
      (Nat.toDigits 10 numberOfWarps ++ '_' :: 'X' :: Nat.toDigits 10 compression))

theorem stem_ne_nil : stem hex addressPayload seedDecoded numberOfWarps compression ≠ [] := by
  intro empty
  have lengths := congrArg List.length empty
  simp only [stem, List.length_append, List.length_cons, List.length_nil] at lengths
  omega

theorem newName_stem :
    newName hex addressPayload seedDecoded numberOfWarps compression =
      stem hex addressPayload seedDecoded numberOfWarps compression ++ '.' :: ['t', 'm', 'p'] := by
  simp only [newName, stem, List.append_assoc, List.cons_append]

theorem finalizedName_stem :
    finalizedName (newName hex addressPayload seedDecoded numberOfWarps compression) =
      stem hex addressPayload seedDecoded numberOfWarps compression ++
        '.' :: ['p', 'o', 'c', 'x'] := by
  have nonempty := stem_ne_nil hex addressPayload seedDecoded numberOfWarps compression
  have plain : ∀ c ∈ ['t', 'm', 'p'], c ≠ '.' := by simp
  rw [newName_stem, finalizedName, if_pos (extension_append nonempty plain),
    setExtension_append nonempty plain]

/-- The parts of the name of a finished plot. -/
theorem finalizedName_parts :
    (stem hex addressPayload seedDecoded numberOfWarps compression ++
        '.' :: ['p', 'o', 'c', 'x']).splitOn '_' =
      [hex.encodeUpper (List.ofFn addressPayload), hex.encodeUpper (List.ofFn seedDecoded),
        Nat.toDigits 10 numberOfWarps,
        'X' :: (Nat.toDigits 10 compression ++ '.' :: ['p', 'o', 'c', 'x'])] := by
  have shape : stem hex addressPayload seedDecoded numberOfWarps compression ++
        '.' :: ['p', 'o', 'c', 'x'] =
      hex.encodeUpper (List.ofFn addressPayload) ++ '_' ::
        (hex.encodeUpper (List.ofFn seedDecoded) ++ '_' ::
          (Nat.toDigits 10 numberOfWarps ++ '_' ::
            ('X' :: (Nat.toDigits 10 compression ++ '.' :: ['p', 'o', 'c', 'x'])))) := by
    simp only [stem, List.append_assoc, List.cons_append]
  rw [shape]
  apply splitOn_parts
  intro part member
  simp only [List.mem_cons, List.not_mem_nil, or_false] at member
  rcases member with rfl | rfl | rfl | rfl
  · exact (encodeUpper_plain hex _).1
  · exact (encodeUpper_plain hex _).1
  · exact Nat.underscore_not_in_toDigits
  · have tail : '_' ∉ '.' :: ['p', 'o', 'c', 'x'] := by decide
    simp only [List.mem_cons, List.mem_append, not_or]
    exact ⟨by decide, Nat.underscore_not_in_toDigits, by decide, by decide, by decide, by decide,
      by decide, List.not_mem_nil⟩

/-- What `new` writes into a name, `open` reads out of it. -/
theorem parseName_finalizedName (warpsLe : numberOfWarps ≤ u64Max) (compressionLe : compression ≤ 255) :
    ∃ plotMeta, parseName hex
        (finalizedName (newName hex addressPayload seedDecoded numberOfWarps compression)) =
          .ok plotMeta ∧
      plotMeta.base58Decoded = addressPayload ∧ plotMeta.seedDecoded = seedDecoded ∧
      plotMeta.numberOfWarps = numberOfWarps ∧ plotMeta.compression = compression := by
  have nonempty := stem_ne_nil hex addressPayload seedDecoded numberOfWarps compression
  have plain : ∀ c ∈ ['p', 'o', 'c', 'x'], c ≠ '.' := by simp
  have seedLength : byteLength (hex.encodeUpper (List.ofFn seedDecoded)) = 64 := by
    rw [encodeUpper_byteLength, List.length_ofFn]
  have digits : ∀ c ∈ Nat.toDigits 10 compression, (c != '.') = true := by
    intro c member
    have digit := toDigits_isDigit compression c member
    apply bne_iff_ne.mpr
    rintro rfl
    cases digit
  have level : (Nat.toDigits 10 compression ++ '.' :: ['p', 'o', 'c', 'x']).takeWhile (· != '.') =
      Nat.toDigits 10 compression := by
    rw [List.takeWhile_append_of_pos digits]
    simp
  rw [finalizedName_stem, parseName, finalizedName_parts]
  simp only [extension_append nonempty plain, hex.decode_encodeUpper, seedLength,
    parseUnsigned_toDigits warpsLe, level, parseUnsigned_toDigits compressionLe, ne_eq,
    not_true_eq_false, ↓reduceIte]
  exact ⟨_, rfl, rfl, rfl, rfl, rfl⟩

end

end Names

/-- An opened plot has the size that its name says, and room for all its scoops. -/
structure OpenSound (hex : HexCrate) (filename : Option (List Char)) (size : Nat) : Prop where
  sized : ∀ plotMeta, openPlot hex filename (some size) = .ok plotMeta →
    size = plotMeta.numberOfWarps * warpSize
  room : ∀ plotMeta, openPlot hex filename (some size) = .ok plotMeta →
    ∀ scoop < numScoops, ∀ nonce < plotMeta.numberOfWarps * numScoops, ∃ offset,
      fileOffsetNonce plotMeta.numberOfWarps scoop nonce = .ok offset ∧ offset + scoopSize ≤ size

/-- The names that `new` and `finalize` make are read back by `open`, and a file of the size that goes
with the name is opened. -/
def NamesRoundTrip (hex : HexCrate) : Prop :=
  ∀ (addressPayload : U8s 20) (seedDecoded : U8s 32) (numberOfWarps compression : Nat),
    numberOfWarps < 2 ^ 64 → compression < 2 ^ 8 → ∃ name plotMeta,
      finalizedName (newName hex addressPayload seedDecoded numberOfWarps compression) = name ∧
      parseName hex name = .ok plotMeta ∧
      plotMeta.base58Decoded = addressPayload ∧ plotMeta.seedDecoded = seedDecoded ∧
      plotMeta.numberOfWarps = numberOfWarps ∧ plotMeta.compression = compression ∧
      (numberOfWarps * warpSize < 2 ^ 64 →
        openPlot hex (some name) (some (numberOfWarps * warpSize)) = .ok plotMeta)

theorem openPlot_ok (hex : HexCrate) (filename : Option (List Char)) (size : Nat)
    (plotMeta : PlotFileMeta) :
    openPlot hex filename (some size) = .ok plotMeta ↔
      ∃ name, filename = some name ∧ parseName hex name = .ok plotMeta ∧
        size = plotMeta.numberOfWarps * warpSize % 2 ^ 64 := by
  cases filename with
  | none => simp only [openPlot, reduceCtorEq, false_and, exists_false]
  | some name =>
    cases parsed : parseName hex name with
    | error error =>
      simp only [openPlot, parsed, reduceCtorEq, Option.some.injEq, exists_eq_left', false_and]
    | ok found =>
      by_cases sized : size = found.numberOfWarps * warpSize % 2 ^ 64
      · simp only [openPlot, parsed, sized, ne_eq, not_true_eq_false, ↓reduceIte, Except.ok.injEq,
          Option.some.injEq, exists_eq_left']
        constructor
        · rintro rfl
          exact ⟨rfl, rfl⟩
        · rintro ⟨same, -⟩
          exact same
      · simp only [openPlot, parsed, sized, ne_eq, not_false_eq_true, ↓reduceIte, reduceCtorEq,
          Except.ok.injEq, Option.some.injEq, exists_eq_left', false_iff]
        rintro ⟨rfl, same⟩
        exact sized same

theorem names_round_trip (hex : HexCrate) : NamesRoundTrip hex := by
  intro addressPayload seedDecoded numberOfWarps compression warpsLt compressionLt
  obtain ⟨plotMeta, parsed, payload, seed, warps, level⟩ := parseName_finalizedName hex
    addressPayload seedDecoded numberOfWarps compression (Nat.le_pred_of_lt warpsLt)
    (Nat.le_pred_of_lt compressionLt)
  refine ⟨_, plotMeta, rfl, parsed, payload, seed, warps, level, ?_⟩
  intro small
  apply (openPlot_ok hex _ _ plotMeta).mpr
  exact ⟨_, rfl, parsed, by rw [warps, Nat.mod_eq_of_lt small]⟩

theorem warps_small (numberOfWarps : Nat) :
    numberOfWarps < 2 ^ 34 ↔ numberOfWarps * warpSize < 2 ^ 64 := by
  have size : warpSize = 2 ^ 30 := by decide
  rw [size]
  omega

/-- Names are read back as they were written. An opened plot has the size that its name says unless
the name has a number of warps whose size wraps around to that of the file. -/
theorem plot_names_iff (hex : HexCrate) (filename : Option (List Char)) (size : Nat) :
    NamesRoundTrip hex ∧ OpenSound hex filename size ↔
      ∀ name plotMeta, filename = some name → parseName hex name = .ok plotMeta →
        plotMeta.numberOfWarps < 2 ^ 34 ∨ size ≠ plotMeta.numberOfWarps * warpSize % 2 ^ 64 := by
  constructor
  · rintro ⟨-, sound⟩ name plotMeta named parsed
    by_contra neither
    obtain ⟨large, wrapped⟩ := not_or.mp neither
    rw [ne_eq, Decidable.not_not] at wrapped
    have opened := (openPlot_ok hex filename size plotMeta).mpr ⟨name, named, parsed, wrapped⟩
    have exact_ := sound.sized plotMeta opened
    apply large
    rw [warps_small, ← exact_, wrapped]
    exact Nat.mod_lt _ (by decide)
  · intro bounded
    have sized : ∀ plotMeta, openPlot hex filename (some size) = .ok plotMeta →
        plotMeta.numberOfWarps * warpSize < 2 ^ 64 ∧
          size = plotMeta.numberOfWarps * warpSize := by
      intro plotMeta opened
      obtain ⟨name, named, parsed, wrapped⟩ := (openPlot_ok hex filename size plotMeta).mp opened
      rcases bounded name plotMeta named parsed with small | other
      · have room := (warps_small plotMeta.numberOfWarps).mp small
        exact ⟨room, by rw [wrapped, Nat.mod_eq_of_lt room]⟩
      · exact absurd wrapped other
    refine ⟨names_round_trip hex, ⟨fun plotMeta opened => (sized plotMeta opened).2, ?_⟩⟩
    intro plotMeta opened scoop scoopLt nonce nonceLt
    obtain ⟨small, same⟩ := sized plotMeta opened
    have located := fileOffsetNonce_ok small scoopLt nonceLt
    refine ⟨_, located, ?_⟩
    rw [same]
    exact (layout small).inside scoop nonce _ located

section Hex

/-- The digits of `hex::encode_upper`. -/
def upperDigit (n : Nat) : Char := Char.ofNat (if n < 10 then 48 + n else 55 + n)

def lowerDigit (n : Nat) : Char := Char.ofNat (if n < 10 then 48 + n else 87 + n)

def digitValue (c : Char) : Option Nat :=
  if '0' ≤ c ∧ c ≤ '9' then some (c.toNat - 48)
  else if 'a' ≤ c ∧ c ≤ 'f' then some (c.toNat - 87)
  else if 'A' ≤ c ∧ c ≤ 'F' then some (c.toNat - 55)
  else none

inductive FromHexError
  | invalidHexCharacter
  | oddLength
  | invalidStringLength
deriving DecidableEq

def decodePairs : List Char → Option (List UInt8)
  | [] => some []
  | [_] => none
  | first :: second :: rest =>
    (digitValue first).bind fun high =>
      (digitValue second).bind fun low =>
        (decodePairs rest).map fun bytes => UInt8.ofNat (16 * high + low) :: bytes

def decodeSlice (text : List Char) (n : Nat) : Except FromHexError (U8s n) :=
  if byteLength text % 2 ≠ 0 then .error .oddLength
  else if byteLength text / 2 ≠ n then .error .invalidStringLength
  else
    match decodePairs text with
    | none => .error .invalidHexCharacter
    | some bytes => .ok fun i => bytes.getD i 0

def encodeWith (digit : Nat → Char) (bytes : List UInt8) : List Char :=
  bytes.flatMap fun byte => [digit (byte.toNat / 16), digit (byte.toNat % 16)]

theorem upperDigit_facts : ∀ n < 16,
    digitValue (upperDigit n) = some n ∧ (upperDigit n).utf8Size = 1 ∧
      upperDigit n ∈ ['0', '1', '2', '3', '4', '5', '6', '7', '8', '9', 'A', 'B', 'C', 'D', 'E',
        'F'] := by
  decide

theorem decodePairs_upper (bytes : List UInt8) :
    decodePairs (encodeWith upperDigit bytes) = some bytes := by
  induction bytes with
  | nil => rfl
  | cons byte rest ih =>
    have small := byte.toNat_lt
    have high := (upperDigit_facts (byte.toNat / 16) (by omega)).1
    have low := (upperDigit_facts (byte.toNat % 16) (by omega)).1
    have whole : UInt8.ofNat (16 * (byte.toNat / 16) + byte.toNat % 16) = byte := by
      rw [Nat.div_add_mod, UInt8.ofNat_toNat]
    have cells : encodeWith upperDigit (byte :: rest) =
        upperDigit (byte.toNat / 16) :: upperDigit (byte.toNat % 16) ::
          encodeWith upperDigit rest := rfl
    rw [cells, decodePairs, high, low, ih, Option.bind_some, Option.bind_some, Option.map_some,
      whole]

theorem encodeWith_length (digit : Nat → Char) (bytes : List UInt8) :
    (encodeWith digit bytes).length = 2 * bytes.length := by
  induction bytes with
  | nil => rfl
  | cons byte rest ih =>
    have cells : encodeWith digit (byte :: rest) =
        digit (byte.toNat / 16) :: digit (byte.toNat % 16) :: encodeWith digit rest := rfl
    rw [cells, List.length_cons, List.length_cons, ih, List.length_cons]
    omega

theorem byteLength_upper (bytes : List UInt8) :
    byteLength (encodeWith upperDigit bytes) = 2 * bytes.length := by
  induction bytes with
  | nil => rfl
  | cons byte rest ih =>
    have small := byte.toNat_lt
    have high := (upperDigit_facts (byte.toNat / 16) (by omega)).2.1
    have low := (upperDigit_facts (byte.toNat % 16) (by omega)).2.1
    have cells : encodeWith upperDigit (byte :: rest) =
        upperDigit (byte.toNat / 16) :: upperDigit (byte.toNat % 16) ::
          encodeWith upperDigit rest := rfl
    rw [byteLength] at ih ⊢
    rw [cells, List.map_cons, List.map_cons, List.sum_cons, List.sum_cons, high, low, ih,
      List.length_cons]
    omega

/-- The crate by its documentation. -/
def hexCrate : HexCrate where
  Error := FromHexError
  encode := encodeWith lowerDigit
  encodeUpper := encodeWith upperDigit
  decodeToSlice := decodeSlice
  decode_encodeUpper := by
    intro n bytes
    have even : 2 * n % 2 = 0 := Nat.mul_mod_right 2 n
    have half : 2 * n / 2 = n := Nat.mul_div_cancel_left n (by decide)
    simp only [decodeSlice, byteLength_upper, List.length_ofFn, even, half, ne_eq,
      not_true_eq_false, ↓reduceIte, decodePairs_upper]
    congr 1
    funext i
    simp
  encodeUpper_length := encodeWith_length upperDigit
  encodeUpper_digits := by
    intro bytes c member
    obtain ⟨byte, -, digits⟩ := List.mem_flatMap.mp member
    have small := byte.toNat_lt
    rcases List.mem_cons.mp digits with rfl | second
    · exact (upperDigit_facts (byte.toNat / 16) (by omega)).2.2
    · rw [List.mem_singleton.mp second]
      exact (upperDigit_facts (byte.toNat % 16) (by omega)).2.2

end Hex

/-- A plot of 2 ^ 34 warps in an empty file. -/
theorem empty_plot_opened :
    ∃ name plotMeta,
      finalizedName (newName hexCrate (fun _ => 0) (fun _ => 0) (2 ^ 34) 1) = name ∧
      openPlot hexCrate (some name) (some 0) = .ok plotMeta ∧
      plotMeta.numberOfWarps = 2 ^ 34 ∧ ¬ OpenSound hexCrate (some name) 0 := by
  obtain ⟨name, plotMeta, named, parsed, -, -, warps, -, -⟩ := names_round_trip hexCrate
    (fun _ => 0) (fun _ => 0) (2 ^ 34) 1 (by decide) (by decide)
  have opened : openPlot hexCrate (some name) (some 0) = .ok plotMeta := by
    apply (openPlot_ok hexCrate _ 0 plotMeta).mpr
    refine ⟨name, rfl, parsed, ?_⟩
    rw [warps]
    decide
  refine ⟨name, plotMeta, named, opened, warps, ?_⟩
  intro sound
  have size := sound.sized plotMeta opened
  rw [warps] at size
  revert size
  decide

end Pocx.PlotFile
