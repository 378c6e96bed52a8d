import Pocx.Hashlib.Scoop

set_option autoImplicit false

namespace Pocx.Hashlib

open ByteStore

/-- A fixed-size byte array of the source. -/
abbrev U8s (n : Nat) := Fin n → UInt8

instance neZero8 : NeZero 8 := ⟨by decide⟩

instance neZero12 : NeZero 12 := ⟨by decide⟩

instance neZero16 : NeZero 16 := ⟨by decide⟩

instance neZero20 : NeZero 20 := ⟨by decide⟩

instance neZero32 : NeZero 32 := ⟨by decide⟩

def U8s.get {n : Nat} [NeZero n] (bytes : U8s n) (i : Nat) : UInt8 := bytes (Fin.ofNat n i)

def U8s.bytes {n : Nat} [NeZero n] (bytes : U8s n) : Bytes := ⟨n, bytes.get⟩

/-- The 32-bit words of the source's arrays. -/
abbrev Words (n : Nat) := Vector UInt32 n

namespace Shabal256

def aInit : Words 12 :=
  #v[0x52F84552, 0xE54B7999, 0x2D8EE3EC, 0xB9645191, 0xE0078B86, 0xBB7C44C9, 0xD2B5C1CA,
    0xB0D2EB8C, 0x14CE5A45, 0x22AF50DC, 0xEFFDBC6B, 0xEB21B74A]

def bInit : Words 16 :=
  #v[0xB555C6EE, 0x3E710596, 0xA72A652F, 0x9301515F, 0xDA28C1FA, 0x696FD868, 0x9CB6BF72,
    0x0AFE4002, 0xA6E03615, 0x5138C1D4, 0xBE216306, 0xB38B8890, 0x3EA8B96B, 0x3299ACE4,
    0x30924DD4, 0x55CB34A5]

def cInit : Words 16 :=
  #v[0xB405F031, 0xC4233EBA, 0xB3733979, 0xC0DD9D55, 0xC51C28AE, 0xA327B8E1, 0x56C56167,
    0xED614433, 0x88B59D60, 0x60E2CEBA, 0x758B4B8B, 0x83E82A7F, 0xBC968828, 0xE6E00BF7,
    0xBA839E55, 0x9B491C60]

/-- The locals of the hash functions. -/
structure State where
  a : Words 12
  b : Words 16
  c : Words 16
  wLow : UInt32
  wHigh : UInt32
deriving DecidableEq

def init : State := ⟨aInit, bInit, cInit, 1, 0⟩

/-- Register `k` of a ring of registers. -/
def reg {α : Type} {n : Nat} [NeZero n] (words : Vector α n) (k : Nat) : α :=
  words.get ⟨k % n, Nat.mod_lt _ (Nat.pos_of_neZero n)⟩

def setReg {α : Type} {n : Nat} [NeZero n] (words : Vector α n) (k : Nat) (value : α) :
    Vector α n :=
  words.set (k % n) value (Nat.mod_lt _ (Nat.pos_of_neZero n))

def rotl (x : UInt32) (n : UInt32) : UInt32 := x <<< n ||| x >>> (32 - n)

/-- `input_block_add` -/
def inputBlockAdd (data : Words 16) (state : State) : State :=
  { state with b := Vector.zipWith (· + ·) state.b data }

/-- `input_block_sub` -/
def inputBlockSub (data : Words 16) (state : State) : State :=
  { state with c := Vector.zipWith (· - ·) state.c data }

/-- `xor_w` -/
def xorW (state : State) : State :=
  { state with
    a := setReg (setReg state.a 0 (reg state.a 0 ^^^ state.wLow)) 1
      (reg state.a 1 ^^^ state.wHigh) }

/-- `perm_elt` as `perm` calls it for its `k`-th time. -/
def permElt (data : Words 16) (state : State) (k : Nat) : State :=
  let xa :=
    (reg state.a k ^^^ rotl (reg state.a (k + 11)) 15 * 5 ^^^ reg state.c (8 + 15 * k)) * 3 ^^^
      reg state.b (k + 13) ^^^ (reg state.b (k + 9) &&& ~~~ reg state.b (k + 6)) ^^^ reg data k
  { state with
    a := setReg state.a k xa
    b := setReg state.b k (~~~ (rotl (reg state.b k) 1 ^^^ xa)) }

/-- `perm` -/
def perm (data : Words 16) (state : State) : State :=
  (List.range 48).foldl (permElt data) state

/-- The additions at the end of `apply_p`. -/
def addC (state : State) : State :=
  { state with
    a := Vector.ofFn fun i =>
      state.a.get i + reg state.c (i + 11) + reg state.c (i + 15) + reg state.c (i + 3) }

/-- `apply_p` -/
def applyP (data : Words 16) (state : State) : State :=
  addC (perm data { state with b := state.b.map fun x => rotl x 17 })

/-- `swap_bc` -/
def swapBC (state : State) : State := { state with b := state.c, c := state.b }

/-- `incr_w` -/
def incrW (state : State) : State :=
  { state with
    wLow := state.wLow + 1
    wHigh := if state.wLow + 1 = 0 then state.wHigh + 1 else state.wHigh }

/-- A block that is not the last one. -/
def absorb (data : Words 16) (state : State) : State :=
  incrW (swapBC (inputBlockSub data (applyP data (xorW (inputBlockAdd data state)))))

/-- One of the three rounds behind the last block. -/
def finalRound (data : Words 16) (state : State) : State :=
  applyP data (xorW (swapBC state))

/-- The last block. -/
def close (data : Words 16) (state : State) : State :=
  finalRound data (finalRound data (finalRound data (applyP data (xorW (inputBlockAdd data state)))))

/-- The little-endian word `i` of some bytes. -/
def leWord (byte : Nat → UInt8) (i : Nat) : UInt32 :=
  (byte (4 * i)).toUInt32 ||| (byte (4 * i + 1)).toUInt32 <<< 8 |||
    (byte (4 * i + 2)).toUInt32 <<< 16 ||| (byte (4 * i + 3)).toUInt32 <<< 24

def blockAt (data : Bytes) (k : Nat) : Words 16 :=
  Vector.ofFn fun i => leWord data.byte (16 * k + i)

/-- The bytes of `b[8..16]`. -/
def digest (b : Words 16) : U8s 32 :=
  fun i => (reg b (8 + i / 4) >>> UInt32.ofNat (8 * (i % 4))).toUInt8

/-- A subtraction behind a swap is undone by the next addition of the same block. -/
theorem inputBlockAdd_swapped (data : Words 16) (state : State) :
    inputBlockAdd data (swapBC (inputBlockSub data state)) = swapBC state := by
  have undone : Vector.zipWith (· + ·) (Vector.zipWith (· - ·) state.c data) data = state.c := by
    apply Vector.ext
    intro k kLt
    rw [Vector.getElem_zipWith, Vector.getElem_zipWith, UInt32.sub_add_cancel]
  simp only [inputBlockAdd, swapBC, inputBlockSub, undone]

end Shabal256

open Shabal256

/-- `shabal256`. Bytes behind the last full block of `data` are ignored. -/
def shabal256 (data : Bytes) (preTerm : Option (Words 16)) (term : Words 16) : U8s 32 :=
  let absorbed := (List.range (data.len / 64)).foldl (fun state k => absorb (blockAt data k) state) init
  let state :=
    match preTerm with
    | some block => absorb block absorbed
    | none => absorbed
  digest (close term state).b

/-- A block given as two halves. -/
def halves (first second : Nat → UInt32) : Words 16 :=
  Vector.ofFn fun i => if i.val < 8 then first i else second (i - 8)

/-- The fifth of the words `b` as `u64`s. -/
def qualityOf (b : Words 16) : UInt64 := (reg b 9).toUInt64 <<< 32 ||| (reg b 8).toUInt64

/-- `shabal256_lite`. The `_dl` variants of the block functions take a block as two halves. -/
def shabal256Lite (data : Scoop) (gensig : U8s 32) : UInt64 :=
  let word := leWord (U8s.get data.byte)
  let state := absorb (halves (leWord gensig.get) word) init
  qualityOf (close (halves (fun i => word (8 + i)) fun i => if i = 0 then 0x80 else 0) state).b

end Pocx.Hashlib
