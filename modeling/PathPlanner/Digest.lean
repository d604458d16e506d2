import PathPlanner.Ids
import PathPlanner.Lib.Clamped

set_option autoImplicit false

namespace PathPlanner

def kDigestBytes : Nat := 32

structure Digest where
  bytes : Bytes
  size : bytes.length = kDigestBytes
deriving DecidableEq

theorem Digest.bytes_injective : Function.Injective Digest.bytes := by
  rintro ⟨a, _⟩ ⟨b, _⟩ same
  cases same
  rfl

instance : LinearOrder Digest := LinearOrder.lift' Digest.bytes Digest.bytes_injective

def Digest.isZero (digest : Digest) : Bool := digest.bytes.all (· == 0)

instance : Sentinel Digest := ⟨fun digest => !digest.isZero⟩

abbrev CollectivePlanId := StrongId .collectivePlan Digest

def Digest.zero : Digest := ⟨List.replicate kDigestBytes 0, by simp⟩

abbrev Word := BitVec 32

namespace Sha256

def roundConstants : List Word := [
  0x428a2f98, 0x71374491, 0xb5c0fbcf, 0xe9b5dba5, 0x3956c25b, 0x59f111f1, 0x923f82a4, 0xab1c5ed5,
  0xd807aa98, 0x12835b01, 0x243185be, 0x550c7dc3, 0x72be5d74, 0x80deb1fe, 0x9bdc06a7, 0xc19bf174,
  0xe49b69c1, 0xefbe4786, 0x0fc19dc6, 0x240ca1cc, 0x2de92c6f, 0x4a7484aa, 0x5cb0a9dc, 0x76f988da,
  0x983e5152, 0xa831c66d, 0xb00327c8, 0xbf597fc7, 0xc6e00bf3, 0xd5a79147, 0x06ca6351, 0x14292967,
  0x27b70a85, 0x2e1b2138, 0x4d2c6dfc, 0x53380d13, 0x650a7354, 0x766a0abb, 0x81c2c92e, 0x92722c85,
  0xa2bfe8a1, 0xa81a664b, 0xc24b8b70, 0xc76c51a3, 0xd192e819, 0xd6990624, 0xf40e3585, 0x106aa070,
  0x19a4c116, 0x1e376c08, 0x2748774c, 0x34b0bcb5, 0x391c0cb3, 0x4ed8aa4a, 0x5b9cca4f, 0x682e6ff3,
  0x748f82ee, 0x78a5636f, 0x84c87814, 0x8cc70208, 0x90befffa, 0xa4506ceb, 0xbef9a3f7, 0xc67178f2]

structure State where
  a : Word
  b : Word
  c : Word
  d : Word
  e : Word
  f : Word
  g : Word
  h : Word
deriving DecidableEq, Repr

def initialState : State :=
  ⟨0x6a09e667, 0xbb67ae85, 0x3c6ef372, 0xa54ff53a, 0x510e527f, 0x9b05688c, 0x1f83d9ab, 0x5be0cd19⟩

def rotr (value : Word) (shift : Nat) : Word := (value >>> shift) ||| (value <<< (32 - shift))

def blockWords : Nat → Bytes → List Word
  | 0, _ => []
  | n + 1, block =>
      let byte (i : Nat) : Word := BitVec.ofNat 32 (block.getD i 0).toNat
      ((byte 0 <<< 24) ||| (byte 1 <<< 16) ||| (byte 2 <<< 8) ||| byte 3) :: blockWords n (block.drop 4)

-- The schedule is kept newest word first: position k holds schedule[index - 1 - k].
def extendSchedule : Nat → List Word → List Word
  | 0, newest => newest
  | n + 1, newest =>
      let s0 := rotr (newest.getD 14 0) 7 ^^^ rotr (newest.getD 14 0) 18 ^^^ (newest.getD 14 0 >>> 3)
      let s1 := rotr (newest.getD 1 0) 17 ^^^ rotr (newest.getD 1 0) 19 ^^^ (newest.getD 1 0 >>> 10)
      extendSchedule n ((newest.getD 15 0 + s0 + newest.getD 6 0 + s1) :: newest)

def schedule (block : Bytes) : List Word := (extendSchedule 48 (blockWords 16 block).reverse).reverse

def mixRound (s : State) (input : Word × Word) : State :=
  let bigS1 := rotr s.e 6 ^^^ rotr s.e 11 ^^^ rotr s.e 25
  let choose := (s.e &&& s.f) ^^^ (~~~ s.e &&& s.g)
  let temp1 := s.h + bigS1 + choose + input.1 + input.2
  let bigS0 := rotr s.a 2 ^^^ rotr s.a 13 ^^^ rotr s.a 22
  let majority := (s.a &&& s.b) ^^^ (s.a &&& s.c) ^^^ (s.b &&& s.c)
  ⟨temp1 + (bigS0 + majority), s.a, s.b, s.c, s.d + temp1, s.e, s.f, s.g⟩

def compress (state : State) (block : Bytes) : State :=
  let mixed := (roundConstants.zip (schedule block)).foldl mixRound state
  ⟨state.a + mixed.a, state.b + mixed.b, state.c + mixed.c, state.d + mixed.d,
    state.e + mixed.e, state.f + mixed.f, state.g + mixed.g, state.h + mixed.h⟩

-- Only the first buffered bytes of the block buffer are ever read.
structure Hasher where
  state : State
  totalBytes : BitVec 64
  buffered : Bytes

def start : Hasher := ⟨initialState, 0, []⟩

def compressBlocks : Nat → State → Bytes → State × Bytes
  | 0, state, data => (state, data)
  | n + 1, state, data => compressBlocks n (compress state (data.take 64)) (data.drop 64)

def absorb (hasher : Hasher) (data : Bytes) : Hasher :=
  let (state, rest) := compressBlocks (data.length / 64) hasher.state data
  { hasher with state, buffered := if rest.isEmpty then hasher.buffered else rest }

def update (hasher : Hasher) (data : Bytes) : Hasher :=
  let hasher := { hasher with totalBytes := hasher.totalBytes + BitVec.ofNat 64 data.length }
  if hasher.buffered.isEmpty then absorb hasher data
  else
    let take := min data.length (64 - hasher.buffered.length)
    let filled := hasher.buffered ++ data.take take
    if filled.length = 64 then
      absorb { hasher with state := compress hasher.state filled, buffered := [] } (data.drop take)
    else absorb { hasher with buffered := filled } (data.drop take)

-- At most 63 zero bytes bring the buffer to 56 bytes.
def padZeros : Nat → Hasher → Hasher
  | 0, hasher => hasher
  | n + 1, hasher => if hasher.buffered.length = 56 then hasher else padZeros n (update hasher [0])

def lengthBytes (bitLength : BitVec 64) : Bytes :=
  (List.range 8).map fun index => UInt8.ofNat (bitLength >>> (56 - 8 * index)).toNat

def wordBytes (word : Word) : Bytes :=
  [UInt8.ofNat (word >>> 24).toNat, UInt8.ofNat (word >>> 16).toNat,
    UInt8.ofNat (word >>> 8).toNat, UInt8.ofNat word.toNat]

def State.digest (state : State) : Digest where
  bytes := wordBytes state.a ++ wordBytes state.b ++ wordBytes state.c ++ wordBytes state.d ++
    wordBytes state.e ++ wordBytes state.f ++ wordBytes state.g ++ wordBytes state.h
  size := rfl

def finish (hasher : Hasher) : Digest :=
  let padded := padZeros 64 (update hasher [0x80])
  (update padded (lengthBytes (hasher.totalBytes * 8))).state.digest

def hash (data : Bytes) : Digest := finish (update start data)

end Sha256

def crcStep (value : Word) : Word :=
  if (value &&& 1) ≠ 0 then 0xEDB88320 ^^^ (value >>> 1) else value >>> 1

def crcTable (index : Word) : Word := Nat.repeat crcStep 8 index

def crc32 (data : Bytes) : Word :=
  data.foldl (fun value byte => crcTable ((value ^^^ BitVec.ofNat 32 byte.toNat) &&& 0xFF) ^^^ (value >>> 8))
    0xFFFFFFFF ^^^ 0xFFFFFFFF

def saturatingAdd (a b ceiling : Nat) : Nat :=
  if a ≥ ceiling ∨ b ≥ ceiling ∨ a > ceiling - b then ceiling else a + b

def saturatingMul (a b ceiling : Nat) : Nat :=
  if a = 0 ∨ b = 0 then 0
  else if a ≥ ceiling ∨ b ≥ ceiling then ceiling
  else if a > ceiling / b then ceiling
  else a * b

theorem saturating_add_clamps (a b ceiling : Nat) :
    saturatingAdd a b ceiling = Clamped.clampAdd ceiling a b := by
  unfold saturatingAdd Clamped.clampAdd
  split <;> omega

theorem saturating_add_comm (a b ceiling : Nat) : saturatingAdd a b ceiling = saturatingAdd b a ceiling := by
  rw [saturating_add_clamps, saturating_add_clamps, Clamped.clampAdd, Clamped.clampAdd, add_comm]

def saturatingSum (values : List Nat) : Nat := values.foldl (fun total value => saturatingAdd total value kCostCeiling) 0

theorem saturating_sum_eq (values : List Nat) : saturatingSum values = min kCostCeiling values.sum := by
  have same : (fun total value => saturatingAdd total value kCostCeiling) = Clamped.clampAdd kCostCeiling := by
    funext total value
    exact saturating_add_clamps total value kCostCeiling
  rw [saturatingSum, same, Clamped.clamp_fold kCostCeiling values 0 (Nat.zero_le _), zero_add]

end PathPlanner
