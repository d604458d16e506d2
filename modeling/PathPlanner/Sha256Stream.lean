import PathPlanner.Digest
import PathPlanner.Lib.Blocks

set_option autoImplicit false

namespace PathPlanner

-- SHA-256 as FIPS 180-4 defines it on messages of whole bytes.
namespace Fips180

open Sha256 (State)

def choose (x y z : Word) : Word := (x &&& y) ^^^ (~~~ x &&& z)

def majority (x y z : Word) : Word := (x &&& y) ^^^ (x &&& z) ^^^ (y &&& z)

def bigSigma0 (x : Word) : Word := x.rotateRight 2 ^^^ x.rotateRight 13 ^^^ x.rotateRight 22

def bigSigma1 (x : Word) : Word := x.rotateRight 6 ^^^ x.rotateRight 11 ^^^ x.rotateRight 25

def smallSigma0 (x : Word) : Word := x.rotateRight 7 ^^^ x.rotateRight 18 ^^^ (x >>> 3)

def smallSigma1 (x : Word) : Word := x.rotateRight 17 ^^^ x.rotateRight 19 ^^^ (x >>> 10)

-- The first sixty-four primes.
def primes : List Nat := (List.range 312).filter fun n => Nat.Prime n

-- The first 32 bits of the fractional part of a root.
def rootFraction (degree n : Nat) : Word := BitVec.ofNat 32 (Nat.nthRoot degree (n * 2 ^ (32 * degree)))

def roundConstant (t : Nat) : Word := rootFraction 3 (primes.getD t 0)

def initialWord (i : Nat) : Word := rootFraction 2 (primes.getD i 0)

def initialHash : State :=
  ⟨initialWord 0, initialWord 1, initialWord 2, initialWord 3, initialWord 4, initialWord 5, initialWord 6, initialWord 7⟩

def fromBigEndian (bytes : Bytes) : Nat := bytes.foldl (fun value byte => value * 2 ^ 8 + byte.toNat) 0

def bigEndian (width value : Nat) : Bytes := (List.range width).map fun index => UInt8.ofNat (value / 2 ^ (8 * (width - 1 - index)))

def zeroBytes (length : Nat) : Nat := (119 - length % 64) % 64

-- The standard stops short of 2 ^ 64 bits; the length of a longer message is kept modulo 2 ^ 64.
def pad (message : Bytes) : Bytes :=
  message ++ [0x80] ++ List.replicate (zeroBytes message.length) 0 ++ bigEndian 8 (8 * message.length)

def messageWord (block : Bytes) (t : Nat) : Word :=
  BitVec.ofNat 32 (fromBigEndian ((List.range 4).map fun index => block.getD (4 * t + index) 0))

def scheduleWord (block : Bytes) (t : Nat) : Word :=
  if t < 16 then messageWord block t
  else smallSigma1 (scheduleWord block (t - 2)) + scheduleWord block (t - 7) + smallSigma0 (scheduleWord block (t - 15)) +
    scheduleWord block (t - 16)
termination_by t

def round (block : Bytes) (s : State) (t : Nat) : State :=
  let t1 := s.h + bigSigma1 s.e + choose s.e s.f s.g + roundConstant t + scheduleWord block t
  let t2 := bigSigma0 s.a + majority s.a s.b s.c
  ⟨t1 + t2, s.a, s.b, s.c, s.d + t1, s.e, s.f, s.g⟩

def compress (hash : State) (block : Bytes) : State :=
  let mixed := (List.range 64).foldl (round block) hash
  ⟨mixed.a + hash.a, mixed.b + hash.b, mixed.c + hash.c, mixed.d + hash.d,
    mixed.e + hash.e, mixed.f + hash.f, mixed.g + hash.g, mixed.h + hash.h⟩

def sha256 (message : Bytes) : Bytes :=
  let hash := (Blocks.blocks 64 (pad message)).foldl compress initialHash
  [hash.a, hash.b, hash.c, hash.d, hash.e, hash.f, hash.g, hash.h].flatMap fun word => bigEndian 4 word.toNat

-- The padding fills the last block, with the fewest zeros that do.
theorem pad_fills (message : Bytes) : 64 ∣ (pad message).length := by
  simp only [pad, zeroBytes, bigEndian, List.length_append, List.length_replicate, List.length_map, List.length_range,
    List.length_cons, List.length_nil]
  omega

theorem zero_bytes_least (length zeros : Nat) (fills : 64 ∣ length + 1 + zeros + 8) : zeroBytes length ≤ zeros := by
  unfold zeroBytes
  omega

end Fips180

namespace Sha256

open Fips180 Blocks

theorem round_constants_eq : roundConstants = (List.range 64).map roundConstant := by decide +kernel

theorem initial_state_eq : initialState = initialHash := by decide +kernel

theorem from_big_endian_four (a b c d : UInt8) : fromBigEndian [a, b, c, d] =
    ((a.toNat * 2 ^ 8 + b.toNat) * 2 ^ 8 + c.toNat) * 2 ^ 8 + d.toNat := by
  simp [fromBigEndian]

-- The four bytes of a word do not overlap, so joining their bits adds them up.
theorem join_bytes (a b c d : UInt8) :
    ((BitVec.ofNat 32 a.toNat <<< 24) ||| (BitVec.ofNat 32 b.toNat <<< 16) ||| (BitVec.ofNat 32 c.toNat <<< 8) |||
      BitVec.ofNat 32 d.toNat) = BitVec.ofNat 32 (fromBigEndian [a, b, c, d]) := by
  have aSmall := a.toNat_lt
  have bSmall := b.toNat_lt
  have cSmall := c.toNat_lt
  have dSmall := d.toNat_lt
  apply BitVec.eq_of_toNat_eq
  have shifted (value : Nat) (shift : Nat) (small : value < 2 ^ 8) (low : shift ≤ 24) :
      (BitVec.ofNat 32 value <<< shift).toNat = value <<< shift := by
    have room : value * 2 ^ shift < 2 ^ 32 :=
      calc value * 2 ^ shift < 2 ^ 8 * 2 ^ shift := Nat.mul_lt_mul_of_pos_right small (by positivity)
        _ = 2 ^ (8 + shift) := (pow_add 2 8 shift).symm
        _ ≤ 2 ^ 32 := Nat.pow_le_pow_right (by decide) (by omega)
    rw [BitVec.toNat_shiftLeft, BitVec.toNat_ofNat, Nat.mod_eq_of_lt (by omega : value < 2 ^ 32), Nat.shiftLeft_eq, Nat.mod_eq_of_lt room]
  rw [BitVec.toNat_or, BitVec.toNat_or, BitVec.toNat_or, shifted _ 24 aSmall le_rfl, shifted _ 16 bSmall (by decide),
    shifted _ 8 cSmall (by decide), BitVec.toNat_ofNat, BitVec.toNat_ofNat, from_big_endian_four,
    Nat.mod_eq_of_lt (by omega : d.toNat < 2 ^ 32), Nat.or_assoc, Nat.or_assoc, ← Nat.shiftLeft_add_eq_or_of_lt dSmall,
    ← Nat.shiftLeft_add_eq_or_of_lt (i := 16), ← Nat.shiftLeft_add_eq_or_of_lt (i := 24)]
  all_goals
    simp only [Nat.shiftLeft_eq]
    omega

theorem block_words_eq (count : Nat) (block : Bytes) : blockWords count block = (List.range count).map (messageWord block) := by
  induction count generalizing block with
  | zero => rfl
  | succ count ih =>
      have later (t : Nat) : messageWord (block.drop 4) t = messageWord block (t + 1) := by
        unfold messageWord
        congr 2
        apply List.map_congr_left
        intro index _
        rw [List.getD_eq_getElem?_getD, List.getD_eq_getElem?_getD, List.getElem?_drop, show 4 + (4 * t + index) = 4 * (t + 1) + index by omega]
      have first : messageWord block 0 =
          BitVec.ofNat 32 (fromBigEndian [block.getD 0 0, block.getD 1 0, block.getD 2 0, block.getD 3 0]) := rfl
      rw [blockWords, ih, List.range_succ_eq_map, List.map_cons, List.map_map, first, ← join_bytes]
      exact congrArg _ (List.map_congr_left fun t _ => later t)

-- The words so far, newest first, determine the next one.
theorem extend_schedule_eq (block : Bytes) (more known : Nat) (enough : 16 ≤ known) :
    extendSchedule more ((List.range known).map (scheduleWord block)).reverse =
      ((List.range (known + more)).map (scheduleWord block)).reverse := by
  induction more generalizing known with
  | zero => rfl
  | succ more ih =>
      have held (back : Nat) (inside : back < known) :
          ((List.range known).map (scheduleWord block)).reverse.getD back 0 = scheduleWord block (known - 1 - back) := by
        rw [List.getD_eq_getElem?_getD, List.getElem?_reverse (by simpa using inside)]
        simp [show known - 1 - back < known by omega]
      have next : scheduleWord block known =
          scheduleWord block (known - 1 - 15) + smallSigma0 (scheduleWord block (known - 1 - 14)) +
            scheduleWord block (known - 1 - 6) + smallSigma1 (scheduleWord block (known - 1 - 1)) := by
        rw [scheduleWord, if_neg (by omega), show known - 2 = known - 1 - 1 by omega, show known - 7 = known - 1 - 6 by omega,
          show known - 15 = known - 1 - 14 by omega, show known - 16 = known - 1 - 15 by omega]
        ac_rfl
      have grown : ((List.range (known + 1)).map (scheduleWord block)).reverse =
          scheduleWord block known :: ((List.range known).map (scheduleWord block)).reverse := by
        rw [List.range_succ, List.map_append, List.reverse_append]
        rfl
      rw [extendSchedule, held 15 (by omega), held 14 (by omega), held 6 (by omega), held 1 (by omega)]
      rw [show known + (more + 1) = known + 1 + more by omega, ← ih (known + 1) (by omega), grown, next]
      rfl

theorem schedule_eq (block : Bytes) : schedule block = (List.range 64).map (scheduleWord block) := by
  have first : blockWords 16 block = (List.range 16).map (scheduleWord block) := by
    rw [block_words_eq]
    apply List.map_congr_left
    intro t early
    rw [scheduleWord, if_pos (List.mem_range.mp early)]
  rw [schedule, first, extend_schedule_eq block 48 16 le_rfl, List.reverse_reverse]

theorem compress_eq (state : State) (block : Bytes) : Sha256.compress state block = Fips180.compress state block := by
  have rounds : (roundConstants.zip (schedule block)).foldl mixRound state = (List.range 64).foldl (round block) state := by
    rw [round_constants_eq, schedule_eq, List.zip_map', List.foldl_map]
    rfl
  simp only [Sha256.compress, Fips180.compress, rounds, BitVec.add_comm]

theorem compress_blocks_eq (count : Nat) (state : State) (data : Bytes) :
    compressBlocks count state data = ((blocksOf 64 count data).foldl Sha256.compress state, data.drop (64 * count)) := by
  induction count generalizing state data with
  | zero => rfl
  | succ count ih =>
      rw [compressBlocks, ih, blocksOf, List.foldl_cons, List.drop_drop, Nat.mul_succ, Nat.add_comm 64]

-- A hasher has taken in the whole blocks of what it saw and holds the rest.
def Holds (first : State) (hasher : Hasher) (seen : Bytes) : Prop :=
  Buffered 64 Sha256.compress first hasher.state hasher.buffered seen

theorem absorb_eq (hasher : Hasher) (data : Bytes) : absorb hasher data =
    { hasher with
      state := (blocks 64 data).foldl Sha256.compress hasher.state
      buffered := if (data.drop (64 * (data.length / 64))).isEmpty then hasher.buffered else data.drop (64 * (data.length / 64)) } := by
  rw [absorb, compress_blocks_eq]
  rfl

theorem absorb_nil (hasher : Hasher) : absorb hasher [] = hasher := rfl

theorem absorb_holds (first : State) (hasher : Hasher) (seen data : Bytes) (empty : hasher.buffered = [])
    (holds : Holds first hasher seen) : Holds first (absorb hasher data) (seen ++ data) := by
  rw [Holds, empty] at holds
  have rest : (absorb hasher data).buffered = data.drop (64 * (data.length / 64)) := by
    rw [absorb_eq]
    dsimp only
    split
    · rename_i none
      rw [empty, List.isEmpty_iff.mp none]
    · rfl
  rw [Holds, rest, absorb_eq]
  exact holds.take_in data

theorem update_holds (first : State) (hasher : Hasher) (seen data : Bytes) (holds : Holds first hasher seen) :
    Holds first (update hasher data) (seen ++ data) := by
  have short := holds.short
  unfold update
  dsimp only
  split
  · rename_i empty
    exact absorb_holds first _ seen data (List.isEmpty_iff.mp empty) holds
  · split
    · -- the pending bytes and the first new ones make up a block
      rename_i _ full
      have filled := holds.whole_blocks (data.take (min data.length (64 - hasher.buffered.length))) (dvd_of_eq full.symm)
      rw [blocks_one (by decide) _ full, List.foldl_cons, List.foldl_nil] at filled
      have taken := absorb_holds first { hasher with
          state := Sha256.compress hasher.state (hasher.buffered ++ data.take (min data.length (64 - hasher.buffered.length)))
          totalBytes := hasher.totalBytes + BitVec.ofNat 64 data.length
          buffered := [] } _ (data.drop (min data.length (64 - hasher.buffered.length))) rfl filled
      rwa [List.append_assoc, List.take_append_drop] at taken
    · -- all the new bytes fit the pending block
      rename_i _ unfilled
      have fits : data.length < 64 - hasher.buffered.length := by
        rw [List.length_append, List.length_take] at unfilled
        omega
      rw [min_eq_left fits.le, List.take_length, List.drop_length, absorb_nil]
      exact holds.keep data (by rw [List.length_append]; omega)

theorem update_total (hasher : Hasher) (data : Bytes) :
    (update hasher data).totalBytes = hasher.totalBytes + BitVec.ofNat 64 data.length := by
  unfold update
  simp only [absorb_eq]
  split
  · rfl
  · split <;> rfl

theorem updates_holds (first : State) (chunks : List Bytes) (hasher : Hasher) (seen : Bytes) (holds : Holds first hasher seen) :
    Holds first (chunks.foldl update hasher) (seen ++ chunks.flatten) ∧
      (chunks.foldl update hasher).totalBytes = hasher.totalBytes + BitVec.ofNat 64 chunks.flatten.length := by
  induction chunks generalizing hasher seen with
  | nil => simpa using holds
  | cons chunk rest ih =>
      obtain ⟨held, total⟩ := ih _ _ (update_holds first hasher seen chunk holds)
      rw [List.foldl_cons, List.flatten_cons, ← List.append_assoc]
      refine ⟨held, ?_⟩
      rw [total, update_total, List.length_append, BitVec.ofNat_add, BitVec.add_assoc]

-- One turn of the padding loop.
def padTurn (hasher : Hasher) : Hasher := update hasher [0]

theorem pad_turns_hold (first : State) (hasher : Hasher) (seen : Bytes) (holds : Holds first hasher seen) (turns : Nat) :
    Holds first (padTurn^[turns] hasher) (seen ++ List.replicate turns 0) := by
  induction turns with
  | zero => simpa using holds
  | succ turns ih =>
      rw [Function.iterate_succ_apply', List.replicate_succ', ← List.append_assoc]
      exact update_holds first _ _ _ ih

-- The loop leaves after its first turn that ends with 56 bytes pending.
theorem pad_zeros_eq (turns fuel : Nat) (hasher : Hasher) (enough : turns ≤ fuel)
    (before : ∀ fewer < turns, (padTurn^[fewer] hasher).buffered.length ≠ 56)
    (reached : (padTurn^[turns] hasher).buffered.length = 56) : padZeros fuel hasher = padTurn^[turns] hasher := by
  induction turns generalizing fuel hasher with
  | zero =>
      cases fuel with
      | zero => rfl
      | succ fuel => exact if_pos reached
  | succ turns ih =>
      obtain ⟨fuel, rfl⟩ : ∃ less, fuel = less + 1 := ⟨fuel - 1, by omega⟩
      have going : hasher.buffered.length ≠ 56 := before 0 (Nat.succ_pos turns)
      rw [padZeros, if_neg going, Function.iterate_succ_apply]
      exact ih fuel _ (by omega) (fun fewer less => before (fewer + 1) (by omega)) reached

def padTurns (pending : Nat) : Nat := (120 - pending) % 64

theorem padding_stops (hasher : Hasher) (short : hasher.buffered.length < 64) :
    padTurns hasher.buffered.length ≤ 63 ∧ (padTurn^[padTurns hasher.buffered.length] hasher).buffered.length = 56 ∧
      ∀ fewer < padTurns hasher.buffered.length, (padTurn^[fewer] hasher).buffered.length ≠ 56 := by
  have itself : Holds hasher.state hasher hasher.buffered := by
    have none : Buffered 64 Sha256.compress hasher.state hasher.state [] [] := Buffered.nil (by decide)
    exact none.keep hasher.buffered short
  have length (turns : Nat) := (pad_turns_hold hasher.state hasher hasher.buffered itself turns).pending_length
  simp only [List.length_append, List.length_replicate] at length
  refine ⟨by unfold padTurns; omega, ?_, ?_⟩
  · rw [length, padTurns]
    omega
  · intro fewer less
    rw [length]
    unfold padTurns at less
    omega

theorem word_bytes_eq (word : Word) : wordBytes word = bigEndian 4 word.toNat := by
  simp [wordBytes, bigEndian, List.range_succ, Nat.shiftRight_eq_div_pow]

theorem length_bytes_eq (length : Nat) : lengthBytes (BitVec.ofNat 64 length * 8) = bigEndian 8 (8 * length) := by
  unfold lengthBytes bigEndian
  apply List.map_congr_left
  intro index early
  have inside := List.mem_range.mp early
  apply UInt8.toNat_inj.mp
  have bits : (BitVec.ofNat 64 length * 8).toNat = 8 * length % 2 ^ 64 := by
    rw [BitVec.toNat_mul, BitVec.toNat_ofNat]
    change length % 2 ^ 64 * 8 % 2 ^ 64 = _
    omega
  rw [UInt8.toNat_ofNat', UInt8.toNat_ofNat', BitVec.toNat_ushiftRight, bits, Nat.shiftRight_eq_div_pow]
  interval_cases index <;> omega

theorem digest_bytes (state : State) : state.digest.bytes =
    [state.a, state.b, state.c, state.d, state.e, state.f, state.g, state.h].flatMap fun word => bigEndian 4 word.toNat := by
  simp only [State.digest, word_bytes_eq, List.flatMap_cons, List.flatMap_nil, List.append_nil, List.append_assoc]

theorem finish_eq (hasher : Hasher) (seen : Bytes) (holds : Holds initialState hasher seen)
    (total : hasher.totalBytes = BitVec.ofNat 64 seen.length) : (finish hasher).bytes = sha256 seen := by
  have marked := update_holds initialState hasher seen [0x80] holds
  have pending := marked.pending_length
  obtain ⟨few, reached, before⟩ := padding_stops _ marked.short
  have turns : padTurns (update hasher [0x80]).buffered.length = zeroBytes seen.length := by
    rw [pending, List.length_append, List.length_singleton, padTurns, zeroBytes]
    omega
  have padded := pad_zeros_eq _ 64 _ (few.trans (by decide)) before reached
  have filled := update_holds initialState _ _ (lengthBytes (hasher.totalBytes * 8))
    (pad_turns_hold initialState _ _ marked (zeroBytes seen.length))
  have message : seen ++ [0x80] ++ List.replicate (zeroBytes seen.length) 0 ++ lengthBytes (hasher.totalBytes * 8) = pad seen := by
    rw [total, length_bytes_eq, pad]
  rw [message] at filled
  have final := filled.finished (pad_fills seen)
  rw [finish, padded, turns, digest_bytes, final, sha256, initial_state_eq]
  have same : Sha256.compress = Fips180.compress := by
    funext state block
    exact compress_eq state block
  rw [same]

theorem streaming_exact :
    (∀ chunks : List Bytes, (finish (chunks.foldl update start)).bytes = sha256 chunks.flatten) ∧
    (∀ hasher : Hasher, hasher.buffered.length < 64 → ∃ turns ≤ 63, (padTurn^[turns] hasher).buffered.length = 56 ∧
      (∀ fewer < turns, (padTurn^[fewer] hasher).buffered.length ≠ 56) ∧
      ∀ fuel ≥ turns, padZeros fuel hasher = padTurn^[turns] hasher) := by
  refine ⟨?_, ?_⟩
  · intro chunks
    obtain ⟨holds, total⟩ := updates_holds initialState chunks start [] (Buffered.nil (by decide))
    exact finish_eq _ _ holds (total.trans (BitVec.zero_add _))
  · intro hasher short
    obtain ⟨few, reached, before⟩ := padding_stops hasher short
    exact ⟨_, few, reached, before, fun fuel enough => pad_zeros_eq _ fuel hasher enough before reached⟩

theorem abc_streamed :
    (finish ([text "a", [], text "bc"].foldl update start)).bytes = sha256 (text "abc") ∧
    ∃ turns ≤ 63, (padTurn^[turns] { start with buffered := text "abc" }).buffered.length = 56 ∧
      (∀ fewer < turns, (padTurn^[fewer] { start with buffered := text "abc" }).buffered.length ≠ 56) ∧
      ∀ fuel ≥ turns, padZeros fuel { start with buffered := text "abc" } = padTurn^[turns] { start with buffered := text "abc" } :=
  ⟨streaming_exact.1 [text "a", [], text "bc"], streaming_exact.2 { start with buffered := text "abc" } (by decide)⟩

example : (hash (text "abc")).bytes.take 8 = [0xba, 0x78, 0x16, 0xbf, 0x8f, 0x01, 0xcf, 0xea] := by decide +kernel

end Sha256

end PathPlanner
