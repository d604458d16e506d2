import PathPlanner.Lib.Failures
import PathPlanner.Wire.PayloadCodecs

set_option autoImplicit false

namespace PathPlanner

open Codec

theorem decimal_length (n digits : Nat) (some : 0 < digits) (small : n < 10 ^ digits) : (decimal n).length ≤ digits := by
  rw [decimal, List.length_map]
  exact (Nat.length_toDigits_le_iff (by decide) some).mpr small

namespace Wire

-- A message short enough for every field that carries one.
def Terse (status : Status) : Prop := status.detail.length ≤ kMaxDetailBytes

theorem failure_terse (code : ErrorCode) (detail : String) (short : (text detail).length ≤ kMaxDetailBytes) :
    Terse (failure code detail) := short

theorem truncated_terse (needed available : Nat) (few : needed < 2 ^ 32) (left : available ≤ kMaxFramePayloadBytes) :
    Terse (ByteReader.truncated needed available) := by
  have need := decimal_length needed 10 (by decide) (few.trans (by decide))
  have have' := decimal_length available 10 (by decide) (lt_of_le_of_lt left (by decide))
  have words : (text "need ").length = 5 ∧ (text " bytes but only ").length = 16 ∧ (text " remain").length = 7 := by decide
  simp only [Terse, ByteReader.truncated, List.length_append, words, kMaxDetailBytes]
  omega

theorem trailing_terse (left : Nat) (small : left ≤ kMaxFramePayloadBytes) : Terse (ByteReader.trailing left) := by
  have digits := decimal_length left 10 (by decide) (lt_of_le_of_lt small (by decide))
  have words : (text " unexpected trailing bytes").length = 26 := by decide
  simp only [Terse, ByteReader.trailing, List.length_append, words, kMaxDetailBytes]
  omega

theorem too_long_terse (code : ErrorCode) (lead : String) (short : (text lead).length ≤ 100) (length limit : Nat)
    (few : length < 2 ^ 32) (bounded : limit < 2 ^ 32) : Terse ⟨code, ByteReader.tooLong lead length limit⟩ := by
  have first := decimal_length length 10 (by decide) (few.trans (by decide))
  have second := decimal_length limit 10 (by decide) (bounded.trans (by decide))
  have words : (text " exceeds limit ").length = 15 := by decide
  simp only [Terse, ByteReader.tooLong, List.length_append, words, kMaxDetailBytes]
  omega

-- How a decoder of a frame's payload fails.
abbrev FailsTersely {α : Type} (read : ByteReader α) : Prop := Fails read kMaxFramePayloadBytes Terse

theorem u8_terse : FailsTersely ByteReader.u8 where
  failed input error small failed := by
    cases input with
    | nil =>
        cases failed
        exact truncated_terse 1 0 (by decide) (Nat.zero_le _)
    | cons byte rest => cases failed
  shrinks input value rest read := by
    cases input with
    | nil => cases read
    | cons byte others =>
        cases read
        exact Nat.le_succ _

theorem halves_terse {half : ByteReader Nat} (fails : FailsTersely half) (join : Nat → Nat → Nat) :
    FailsTersely (do
      let low ← half
      let high ← half
      pure (join low high)) :=
  fails.bind fun _ _ _ _ => fails.bind fun _ _ _ _ => .pure _

theorem u16_terse : FailsTersely ByteReader.u16 := halves_terse u8_terse _

theorem u32_terse : FailsTersely ByteReader.u32 := halves_terse u16_terse _

theorem u64_terse : FailsTersely ByteReader.u64 := halves_terse u32_terse _

theorem word16_terse : FailsTersely ByteReader.word16 := u16_terse.map _

theorem word32_terse : FailsTersely ByteReader.word32 := u32_terse.map _

theorem word64_terse : FailsTersely ByteReader.word64 := u64_terse.map _

theorem boolean_terse : FailsTersely ByteReader.boolean :=
  (u8_terse.checked fun _ _ _ _ => failure_terse _ _ (by decide)).map _

theorem raw_terse (size : Nat) (few : size < 2 ^ 32) : FailsTersely (ByteReader.raw size) where
  failed input error small failed := by
    rw [ByteReader.raw] at failed
    split at failed <;> cases failed
    exact truncated_terse size input.length few small
  shrinks input value rest read := by
    rw [ByteReader.raw] at read
    split at read <;> cases read
    rw [List.length_drop]
    exact Nat.sub_le _ _

theorem digest_terse : FailsTersely ByteReader.digest := (raw_terse kDigestBytes (by decide)).map _

theorem string_terse (maxBytes : Nat) (bounded : maxBytes < 2 ^ 32) : FailsTersely (ByteReader.string maxBytes) := by
  have word (input : Bytes) (value : Nat) (rest : Bytes) (read : ByteReader.u32 input = .ok (value, rest)) : value < 2 ^ 32 :=
    (ByteReader.u32_reads.canonical input value rest read).1
  refine Fails.bind (u32_terse.checked fun input value rest read => ?_) fun input value rest read => ?_
  · exact too_long_terse _ _ (by decide) value maxBytes (word input value rest read) bounded
  · obtain ⟨inside, _⟩ := ((ByteReader.u32_reads.checked _ _).canonical input value rest read)
    exact raw_terse value inside.1

theorem complete_terse {α : Type} {read : ByteReader α} (fails : FailsTersely read) (payload : Bytes)
    (small : payload.length ≤ kMaxFramePayloadBytes) (status : Status) (failed : ByteReader.complete read payload = .error status) :
    Terse status :=
  fails.whole trailing_terse payload small status failed

theorem hello_terse : FailsTersely readHello :=
  word16_terse.bind fun _ _ _ _ => (string_terse _ (by decide)).bind fun _ _ _ _ => word64_terse.bind fun _ _ _ _ => .pure _

theorem plan_request_terse : FailsTersely readPlanRequest :=
  word32_terse.bind fun _ _ _ _ => boolean_terse.bind fun _ _ _ _ => (string_terse _ (by decide)).bind fun _ _ _ _ => .pure _

theorem get_plan_request_terse : FailsTersely readGetPlanRequest :=
  word32_terse.bind fun _ _ _ _ => digest_terse.bind fun _ _ _ _ => .pure _

theorem list_plans_request_terse : FailsTersely readListPlansRequest := word32_terse.bind fun _ _ _ _ => .pure _

theorem revalidate_request_terse : FailsTersely readRevalidateRequest :=
  word32_terse.bind fun _ _ _ _ => digest_terse.bind fun _ _ _ _ => (string_terse _ (by decide)).bind fun _ _ _ _ => .pure _

theorem shutdown_request_terse : FailsTersely readShutdownRequest :=
  word32_terse.bind fun _ _ _ _ => word64_terse.bind fun _ _ _ _ => .pure _

end Wire

end PathPlanner
