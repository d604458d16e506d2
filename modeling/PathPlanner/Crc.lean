import PathPlanner.Store.MetaCodec
import PathPlanner.Store.RecordAudit
import PathPlanner.Wire.FrameCodec

set_option autoImplicit false

namespace PathPlanner

open Checks Codec

section Folds

variable {σ α : Type} (step : σ → α → σ)

theorem foldl_injective (states : ∀ letter, Function.Injective fun state => step state letter) (word : List α) :
    Function.Injective fun state => word.foldl step state := by
  induction word with
  | nil => exact Function.injective_id
  | cons letter rest ih => exact ih.comp (states letter)

-- A fold that forgets neither the state nor the letter tells any two words apart that differ in one place.
theorem foldl_set_ne (states : ∀ letter, Function.Injective fun state => step state letter)
    (letters : ∀ state, Function.Injective (step state)) (word : List α) (index : Nat) (inside : index < word.length)
    (letter : α) (differs : letter ≠ word[index]) (start : σ) :
    (word.set index letter).foldl step start ≠ word.foldl step start := by
  induction word generalizing index start with
  | nil => exact absurd inside (Nat.not_lt_zero _)
  | cons first rest ih =>
      cases index with
      | zero =>
          intro same
          exact differs (letters start (foldl_injective step states rest same))
      | succ index => exact ih index (Nat.lt_of_succ_lt_succ inside) differs (step start first)

end Folds

theorem odd_word (value : Word) : (value &&& 1) ≠ 0 ↔ value.getLsbD 0 = true := by
  rw [ne_eq, show (1 : Word) = 1#32 from rfl, BitVec.and_one_eq_setWidth_ofBool_getLsbD]
  cases value.getLsbD 0 <;> decide

-- What the table step folds back for a bit that is shifted out.
def feedback (bit : Bool) : Word := if bit then 0xEDB88320 else 0

theorem feedback_xor (left right : Bool) : feedback (left ^^ right) = feedback left ^^^ feedback right := by
  cases left <;> cases right <;> rfl

theorem crc_step_eq (value : Word) : crcStep value = feedback (value.getLsbD 0) ^^^ (value >>> 1) := by
  unfold crcStep feedback
  simp only [odd_word]
  split
  · rfl
  · exact BitVec.zero_xor.symm

-- The polynomial's highest bit records the bit that was shifted out.
theorem crc_step_high (value : Word) : (crcStep value).getLsbD 31 = value.getLsbD 0 := by
  rw [crc_step_eq]
  cases value.getLsbD 0 <;> simp [feedback]

theorem crc_step_injective : Function.Injective crcStep := by
  intro left right same
  have low : left.getLsbD 0 = right.getLsbD 0 := by
    rw [← crc_step_high, ← crc_step_high, same]
  rw [crc_step_eq, crc_step_eq, low, BitVec.xor_right_inj] at same
  apply BitVec.eq_of_getLsbD_eq
  intro index _
  cases index with
  | zero => exact low
  | succ index =>
      have bit := congrArg (fun word : Word => word.getLsbD index) same
      simpa [Nat.add_comm] using bit

theorem crc_step_xor (left right : Word) : crcStep (left ^^^ right) = crcStep left ^^^ crcStep right := by
  rw [crc_step_eq, crc_step_eq, crc_step_eq, BitVec.getLsbD_xor, BitVec.ushiftRight_xor_distrib, feedback_xor]
  ac_rfl

theorem repeat_crc_step_injective (count : Nat) : Function.Injective (Nat.repeat crcStep count) := by
  induction count with
  | zero => exact Function.injective_id
  | succ count ih => exact crc_step_injective.comp ih

theorem repeat_crc_step_xor (count : Nat) (left right : Word) :
    Nat.repeat crcStep count (left ^^^ right) = Nat.repeat crcStep count left ^^^ Nat.repeat crcStep count right := by
  induction count with
  | zero => rfl
  | succ count ih => rw [Nat.repeat, ih, crc_step_xor, Nat.repeat, Nat.repeat]

-- Bits that have not reached the low end are only moved.
theorem repeat_crc_step_clear (value : Word) (clear : ∀ bit < 8, value.getLsbD bit = false) (count : Nat) (few : count ≤ 8) :
    Nat.repeat crcStep count value = value >>> count := by
  induction count with
  | zero => exact (BitVec.ushiftRight_zero value).symm
  | succ count ih =>
      have low : (value >>> count).getLsbD 0 = false := by
        rw [BitVec.getLsbD_ushiftRight]
        exact clear _ (by omega)
      rw [Nat.repeat, ih (by omega), crc_step_eq, low, ← BitVec.shiftRight_add]
      exact BitVec.zero_xor

theorem low_byte_bit (index : Nat) : (0xFF : Word).getLsbD index = decide (index < 8) := by
  rw [show (0xFF : Word) = BitVec.ofNat 32 (2 ^ 8 - 1) from rfl, BitVec.getLsbD_ofNat, Nat.testBit_two_pow_sub_one]
  by_cases low : index < 8
  · simp [low, show index < 32 by omega]
  · simp [low]

theorem split_low_byte (value : Word) : value = (value &&& 0xFF) ^^^ (value &&& ~~~0xFF) := by
  ext index
  simp only [BitVec.getElem_xor, BitVec.getElem_and, BitVec.getElem_not]
  cases value[index] <;> cases (0xFF : Word)[index] <;> rfl

-- Eight steps look the low byte up and move the others down.
theorem eight_crc_steps (value : Word) : Nat.repeat crcStep 8 value = crcTable (value &&& 0xFF) ^^^ (value >>> 8) := by
  have clear : ∀ bit < 8, (value &&& ~~~0xFF).getLsbD bit = false := by
    intro bit low
    rw [BitVec.getLsbD_and, BitVec.getLsbD_not, low_byte_bit]
    simp [low]
  have moved : (value &&& ~~~0xFF) >>> 8 = value >>> 8 := by
    apply BitVec.eq_of_getLsbD_eq
    intro index _
    rw [BitVec.getLsbD_ushiftRight, BitVec.getLsbD_ushiftRight, BitVec.getLsbD_and, BitVec.getLsbD_not, low_byte_bit]
    by_cases room : 8 + index < 32
    · simp [room]
    · simp [BitVec.getLsbD_of_ge value (8 + index) (by omega)]
  calc Nat.repeat crcStep 8 value
      = Nat.repeat crcStep 8 ((value &&& 0xFF) ^^^ (value &&& ~~~0xFF)) := by rw [← split_low_byte]
    _ = crcTable (value &&& 0xFF) ^^^ Nat.repeat crcStep 8 (value &&& ~~~0xFF) := repeat_crc_step_xor 8 _ _
    _ = crcTable (value &&& 0xFF) ^^^ (value >>> 8) := by rw [repeat_crc_step_clear _ clear 8 le_rfl, moved]

-- One turn of the loop of crc32.
def crcAbsorb (value : Word) (byte : UInt8) : Word :=
  crcTable ((value ^^^ BitVec.ofNat 32 byte.toNat) &&& 0xFF) ^^^ (value >>> 8)

theorem crc32_eq (data : Bytes) : crc32 data = data.foldl crcAbsorb 0xFFFFFFFF ^^^ 0xFFFFFFFF := rfl

theorem crc_absorb_eq (value : Word) (byte : UInt8) :
    crcAbsorb value byte = Nat.repeat crcStep 8 (value ^^^ BitVec.ofNat 32 byte.toNat) := by
  have small : BitVec.ofNat 32 byte.toNat >>> 8 = 0#32 := by
    apply BitVec.eq_of_toNat_eq
    have fits := byte.toNat_lt
    simp only [BitVec.toNat_ushiftRight, BitVec.toNat_ofNat, Nat.shiftRight_eq_div_pow]
    omega
  rw [eight_crc_steps, BitVec.ushiftRight_xor_distrib, small, BitVec.xor_zero, crcAbsorb]

theorem crc_absorb_states (byte : UInt8) : Function.Injective fun value => crcAbsorb value byte := by
  intro left right same
  simp only [crc_absorb_eq] at same
  exact (BitVec.xor_left_inj _).mp (repeat_crc_step_injective 8 same)

theorem crc_absorb_bytes (value : Word) : Function.Injective (crcAbsorb value) := by
  intro left right same
  rw [crc_absorb_eq, crc_absorb_eq] at same
  have words := congrArg BitVec.toNat ((BitVec.xor_right_inj _).mp (repeat_crc_step_injective 8 same))
  have leftFits := left.toNat_lt
  have rightFits := right.toNat_lt
  rw [BitVec.toNat_ofNat, BitVec.toNat_ofNat, Nat.mod_eq_of_lt (by omega), Nat.mod_eq_of_lt (by omega)] at words
  exact UInt8.toNat_inj.mp words

theorem crc32_set_ne (data : Bytes) (index : Nat) (inside : index < data.length) (byte : UInt8) (differs : byte ≠ data[index]) :
    crc32 (data.set index byte) ≠ crc32 data := by
  rw [crc32_eq, crc32_eq, ne_eq, BitVec.xor_left_inj]
  exact foldl_set_ne crcAbsorb crc_absorb_states crc_absorb_bytes data index inside byte differs _

-- A body and the word that holds its checksum.
def sealed (body : Bytes) : Bytes := body ++ ByteWriter.u32 (crc32 body).toNat

theorem sealed_length (body : Bytes) : (sealed body).length = body.length + 4 := by
  rw [sealed, List.length_append, ByteWriter.u32_length]

-- A replaced byte is either one of the body's, and then the word is another one, or one of the word's.
theorem sealed_set_ne (body other : Bytes) (long : other.length = body.length) (index : Nat) (inside : index < (sealed body).length)
    (byte : UInt8) (differs : byte ≠ (sealed body)[index]) : (sealed body).set index byte ≠ sealed other := by
  intro same
  by_cases early : index < body.length
  · have parts : body.set index byte ++ ByteWriter.u32 (crc32 body).toNat = sealed other := by
      rw [← same, sealed, List.set_append_left _ _ early]
    obtain ⟨bodies, words⟩ := List.append_inj parts (by rw [List.length_set, long])
    have crc : (crc32 other).toNat = (crc32 body).toNat :=
      ByteReader.u32_reads.delimited.injective _ _ (BitVec.isLt _) (BitVec.isLt _) words.symm
    refine crc32_set_ne body index early byte ?_ ?_
    · simpa [sealed, List.getElem_append_left early] using differs
    · rw [bodies]
      exact BitVec.eq_of_toNat_eq crc
  · have parts : body ++ (ByteWriter.u32 (crc32 body).toNat).set (index - body.length) byte = sealed other := by
      rw [← same, sealed, List.set_append_right _ _ (not_lt.mp early)]
    obtain ⟨rfl, words⟩ := List.append_inj parts long.symm
    have kept := List.getElem_set_self (l := sealed body) (i := index) (a := byte) (by rw [List.length_set]; exact inside)
    simp only [same] at kept
    exact differs kept.symm

namespace Wire

theorem decode_frame_header_sealed (bytes : Bytes) (header : FrameHeader) (decoded : decodeFrameHeader bytes = .ok header) :
    ∃ body, body.length = kHeaderCrcCoverageBytes ∧ bytes.take (kHeaderCrcCoverageBytes + 4) = sealed body := by
  simp only [decodeFrameHeader, then_ok, deny_ok] at decoded
  obtain ⟨_, decoded⟩ := decoded
  obtain ⟨raw, rawRead, judged⟩ := (bind_ok _ _ _).mp decoded
  obtain ⟨_, words⟩ := ByteReader.complete_canonical raw_header_reads _ _ rawRead
  obtain ⟨type, facts, rfl⟩ := (judge_header_ok _ _ _).mp judged
  have size : (sealed (coveredWords raw)).length = kHeaderCrcCoverageBytes + 4 := by
    rw [sealed_length, covered_words_length]
  have covered : bytes.take kHeaderCrcCoverageBytes = coveredWords raw := by
    rw [← take_covered raw [], List.append_nil, ← words, List.take_take]
    rfl
  have crc : raw.headerCrc.toNat = (crc32 (coveredWords raw)).toNat := by
    rw [← facts.crc, covered]
    rfl
  refine ⟨coveredWords raw, covered_words_length raw, ?_⟩
  calc bytes.take (kHeaderCrcCoverageBytes + 4)
      = (bytes.take kFrameHeaderBytes).take (kHeaderCrcCoverageBytes + 4) := by rw [List.take_take]; rfl
    _ = (headerWords raw).take (kHeaderCrcCoverageBytes + 4) := by rw [words]
    _ = sealed (coveredWords raw) := by
        rw [headerWords, crc]
        simp only [List.append_assoc]
        rw [← List.append_assoc, ← sealed]
        exact List.take_left' size

theorem decode_frame_header_set (bytes : Bytes) (header : FrameHeader) (decoded : decodeFrameHeader bytes = .ok header)
    (index : Nat) (early : index < kHeaderCrcCoverageBytes + 4) (inside : index < bytes.length) (byte : UInt8)
    (differs : byte ≠ bytes[index]) (other : FrameHeader) : decodeFrameHeader (bytes.set index byte) ≠ .ok other := by
  intro changed
  obtain ⟨body, long, front⟩ := decode_frame_header_sealed bytes header decoded
  obtain ⟨body', long', front'⟩ := decode_frame_header_sealed _ other changed
  rw [List.take_set, front] at front'
  have there : index < (sealed body).length := by
    rw [sealed_length, long]
    exact early
  have kept : (sealed body)[index] = bytes[index] := by
    simp only [← front, List.getElem_take]
  exact sealed_set_ne body body' (long'.trans long.symm) index there byte (kept ▸ differs) front'

end Wire

namespace PlanStore

open StoreRecord

theorem decode_meta_sealed (bytes : Bytes) (found : StoreMeta) (decoded : decodeMeta bytes = .ok found) :
    ∃ body, body.length + 4 = kMetaBytes ∧ bytes = sealed body := by
  simp only [decodeMeta, then_ok, deny_ok, not_not] at decoded
  obtain ⟨size, crc, _⟩ := decoded
  have room : 4 ≤ bytes.length := by
    rw [size]
    decide
  have tail := word_bytes bytes (bytes.length - 4) (by omega)
  rw [List.drop_eq_nil_of_le (by omega : bytes.length ≤ bytes.length - 4 + 4), List.append_nil, ← crc] at tail
  refine ⟨bytes.take (bytes.length - 4), ?_, ?_⟩
  · rw [List.length_take, ← size]
    omega
  · rw [sealed, ← tail, List.take_append_drop]

theorem decode_meta_set (bytes : Bytes) (found : StoreMeta) (decoded : decodeMeta bytes = .ok found) (index : Nat)
    (inside : index < bytes.length) (byte : UInt8) (differs : byte ≠ bytes[index]) (other : StoreMeta) :
    decodeMeta (bytes.set index byte) ≠ .ok other := by
  intro changed
  obtain ⟨body, long, rfl⟩ := decode_meta_sealed bytes found decoded
  obtain ⟨body', long', same⟩ := decode_meta_sealed _ other changed
  exact sealed_set_ne body body' (Nat.add_right_cancel (long'.trans long.symm)) index inside byte differs same

end PlanStore

namespace Crc

open Wire PlanStore

theorem byte_changes_detected :
    (∀ (data : Bytes) (index : Nat) (inside : index < data.length) (byte : UInt8), byte ≠ data[index] →
      crc32 (data.set index byte) ≠ crc32 data) ∧
    (∀ (header : FrameHeader) (payload : Bytes) (index : Nat) (inside : index < (encodeFrame header payload).length)
      (byte : UInt8), index < kHeaderCrcCoverageBytes + 4 → byte ≠ (encodeFrame header payload)[index] →
      ∀ decoded, decodeFrameHeader ((encodeFrame header payload).set index byte) ≠ .ok decoded) ∧
    (∀ (epoch : Epoch) (incarnation : Incarnation) (sequence : UInt64) (index : Nat)
      (inside : index < (encodeMeta epoch incarnation sequence).length) (byte : UInt8),
      byte ≠ (encodeMeta epoch incarnation sequence)[index] →
      ∀ found, decodeMeta ((encodeMeta epoch incarnation sequence).set index byte) ≠ .ok found) := by
  refine ⟨crc32_set_ne, ?_, ?_⟩
  · intro header payload index inside byte early differs
    have small : payload.length ≤ kMaxFramePayloadBytes := by
      by_contra large
      rw [encodeFrame, if_pos (not_le.mp large)] at inside
      exact Nat.not_lt_zero _ inside
    obtain ⟨decoded, accepted, _⟩ := (bind_ok _ _ _).mp (decode_encode_frame header payload small)
    exact decode_frame_header_set _ decoded accepted index early inside byte differs
  · intro epoch incarnation sequence index inside byte differs
    exact decode_meta_set _ _ (decode_encode_meta epoch incarnation sequence) index inside byte differs

theorem flags_change_detected :
    crc32 ([1, 2, 3].set 1 7) ≠ crc32 [1, 2, 3] ∧
    (∀ decoded, decodeFrameHeader ((encodeFrame {} []).set 8 1) ≠ .ok decoded) ∧
    (∀ found, decodeMeta ((encodeMeta ⟨1⟩ ⟨2⟩ 3).set 10 9) ≠ .ok found) :=
  ⟨byte_changes_detected.1 [1, 2, 3] 1 (by decide) 7 (by decide),
    byte_changes_detected.2.1 {} [] 8 (by decide +kernel) 1 (by decide) (by decide +kernel),
    byte_changes_detected.2.2 ⟨1⟩ ⟨2⟩ 3 10 (by decide +kernel) 9 (by decide +kernel)⟩

end Crc

end PathPlanner
