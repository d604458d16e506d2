import PathPlanner.Buffer
import PathPlanner.Lib.Codec

set_option autoImplicit false

namespace PathPlanner

open Codec

-- A failed read makes every later one fail with the same status, so the first failure is the reader's answer.
abbrev ByteReader (α : Type) := Reader UInt8 Status α

def Digest.ofBytes (bytes : Bytes) : Digest :=
  ⟨(bytes ++ List.replicate kDigestBytes 0).take kDigestBytes, by simp⟩

namespace ByteWriter

@[simp] theorem u8_length (value : Nat) : (u8 value).length = 1 := rfl

@[simp] theorem u16_length (value : Nat) : (u16 value).length = 2 := rfl

@[simp] theorem u32_length (value : Nat) : (u32 value).length = 4 := rfl

@[simp] theorem u64_length (value : Nat) : (u64 value).length = 8 := rfl

@[simp] theorem boolean_length (value : Bool) : (boolean value).length = 1 := rfl

@[simp] theorem string_length (value : Bytes) : (string value).length = 4 + value.length := by simp [string]

@[simp] theorem id_length {tag : IdTag} (value : StrongId tag Bytes) : (id value).length = 4 + value.value.length := by simp [id]

@[simp] theorem generation_length {tag : IdTag} (value : StrongId tag UInt64) : (generation value).length = 8 := rfl

@[simp] theorem digest_length (value : Digest) : (digest value).length = kDigestBytes := value.size

@[simp] theorem counted_length {α : Type} (element : α → Bytes) (items : List α) :
    (counted element items).length = 4 + (items.map fun item => (element item).length).sum := by
  simp [counted, List.length_flatMap]

end ByteWriter

namespace ByteReader

def truncated (needed available : Nat) : Status :=
  ⟨.truncatedRecord, text "need " ++ decimal needed ++ text " bytes but only " ++ decimal available ++ text " remain"⟩

def u8 : ByteReader Nat := fun input =>
  match input with
  | [] => .error (truncated 1 0)
  | byte :: rest => .ok (byte.toNat, rest)

def u16 : ByteReader Nat := do
  let low ← u8
  let high ← u8
  pure (low + high * 2 ^ 8)

def u32 : ByteReader Nat := do
  let low ← u16
  let high ← u16
  pure (low + high * 2 ^ 16)

def u64 : ByteReader Nat := do
  let low ← u32
  let high ← u32
  pure (low + high * 2 ^ 32)

def boolean : ByteReader Bool :=
  (· == 1) <$> checked u8 (· > 1) fun _ => failure .invalidSyntax "boolean field must be 0 or 1"

def raw (size : Nat) : ByteReader Bytes := fun input =>
  if size > input.length then .error (truncated size input.length) else .ok (input.take size, input.drop size)

def tooLong (lead : String) (length limit : Nat) : Bytes :=
  text lead ++ decimal length ++ text " exceeds limit " ++ decimal limit

def string (maxBytes : Nat) : ByteReader Bytes := do
  let length ← checked u32 (· > maxBytes) fun length => ⟨.stringTooLong, tooLong "encoded string length " length maxBytes⟩
  raw length

def digest : ByteReader Digest := Digest.ofBytes <$> raw kDigestBytes

def count (maxCount : Nat) : ByteReader Nat :=
  checked u32 (· > maxCount) fun value => ⟨.tooManyItems, tooLong "encoded count " value maxCount⟩

def counted {α : Type} (maxCount : Nat) (element : ByteReader α) : ByteReader (List α) := count maxCount >>= times element

def id (tag : IdTag) : ByteReader (StrongId tag Bytes) := StrongId.mk <$> string kMaxIdentifierBytes

def word8 : ByteReader UInt8 := UInt8.ofNat <$> u8

def word16 : ByteReader UInt16 := UInt16.ofNat <$> u16

def word32 : ByteReader UInt32 := UInt32.ofNat <$> u32

def word64 : ByteReader UInt64 := UInt64.ofNat <$> u64

def generation (tag : IdTag) : ByteReader (StrongId tag UInt64) := StrongId.mk <$> word64

def trailing (remaining : Nat) : Status := ⟨.trailingGarbage, decimal remaining ++ text " unexpected trailing bytes"⟩

-- A read of the whole input, as require_end demands.
def complete {α : Type} (read : ByteReader α) (input : Bytes) : Result α := whole read trailing input

theorem u8_reads : Reads u8 ByteWriter.u8 (· < 2 ^ 8) where
  accepts value rest inside := by
    change Except.ok ((UInt8.ofNat value).toNat, rest) = _
    rw [UInt8.toNat_ofNat', Nat.mod_eq_of_lt inside]
  canonical input value rest accepted := by
    cases input with
    | nil => cases accepted
    | cons byte others =>
        cases accepted
        exact ⟨byte.toNat_lt, by simp [ByteWriter.u8]⟩

-- Two halves, the low one first.
theorem halves_reads (width : Nat) {half : ByteReader Nat} {write : Nat → Bytes} (reads : Reads half write (· < 2 ^ width)) :
    Reads (do
        let low ← half
        let high ← half
        pure (low + high * 2 ^ width))
      (fun value => write (value % 2 ^ width) ++ write (value / 2 ^ width % 2 ^ width)) (· < 2 ^ (width + width)) where
  accepts value rest inside := by
    have room : 0 < 2 ^ width := by positivity
    have high : value / 2 ^ width < 2 ^ width := by
      rw [Nat.div_lt_iff_lt_mul room, ← pow_add]
      exact inside
    rw [bind_accepted]
    refine ⟨value % 2 ^ width, write (value / 2 ^ width % 2 ^ width) ++ rest, ?_, ?_⟩
    · rw [List.append_assoc]
      exact reads.accepts _ _ (Nat.mod_lt _ room)
    · rw [bind_accepted]
      refine ⟨_, rest, reads.accepts _ _ (Nat.mod_lt _ room), ?_⟩
      rw [Nat.mod_eq_of_lt high, Nat.mul_comm, Nat.mod_add_div]
      rfl
  canonical input value rest accepted := by
    have room : 0 < 2 ^ width := by positivity
    rw [bind_accepted] at accepted
    obtain ⟨low, middle, first, second⟩ := accepted
    rw [bind_accepted] at second
    obtain ⟨high, after, second, done⟩ := second
    cases done
    obtain ⟨lowFits, rfl⟩ := reads.canonical _ _ _ first
    obtain ⟨highFits, rfl⟩ := reads.canonical _ _ _ second
    constructor
    · calc low + high * 2 ^ width < 2 ^ width + high * 2 ^ width := by omega
        _ = (high + 1) * 2 ^ width := by ring
        _ ≤ 2 ^ width * 2 ^ width := Nat.mul_le_mul_right _ highFits
        _ = 2 ^ (width + width) := (pow_add _ _ _).symm
    · rw [Nat.add_mul_mod_self_right, Nat.mod_eq_of_lt lowFits, Nat.add_mul_div_right _ _ room,
        Nat.div_eq_of_lt lowFits, zero_add, Nat.mod_eq_of_lt highFits, List.append_assoc]

theorem u16_reads : Reads u16 ByteWriter.u16 (· < 2 ^ 16) := halves_reads 8 u8_reads

theorem u32_reads : Reads u32 ByteWriter.u32 (· < 2 ^ 32) := halves_reads 16 u16_reads

theorem u64_reads : Reads u64 ByteWriter.u64 (· < 2 ^ 64) := halves_reads 32 u32_reads

theorem boolean_reads : Reads boolean ByteWriter.boolean always := by
  have bits := u8_reads.checked (· > 1) fun _ => failure .invalidSyntax "boolean field must be 0 or 1"
  refine (bits.map (· == 1) (fun value : Bool => if value then 1 else 0) ?_ ?_).convert (fun _ => rfl) ?_
  · rintro value ⟨_, small⟩
    have cases : value = 0 ∨ value = 1 := by omega
    rcases cases with rfl | rfl <;> rfl
  · rintro (_ | _) _ <;> rfl
  · rintro (_ | _) <;> simp

theorem raw_reads (size : Nat) : Reads (raw size) (fun bytes => bytes) (·.length = size) where
  accepts value rest inside := by
    have long : ¬ size > (value ++ rest).length := by
      rw [List.length_append]
      omega
    rw [raw, if_neg long, ← inside, List.take_left, List.drop_left]
  canonical input value rest accepted := by
    unfold raw at accepted
    split_ifs at accepted with short
    cases accepted
    exact ⟨by rw [List.length_take]; omega, (List.take_append_drop size input).symm⟩

theorem string_reads (maxBytes : Nat) (fits : maxBytes < 2 ^ 32) : Reads (string maxBytes) ByteWriter.string (·.length ≤ maxBytes) := by
  have lengths := u32_reads.checked (· > maxBytes) fun length => ⟨.stringTooLong, tooLong "encoded string length " length maxBytes⟩
  have body := Reads.field always List.length lengths fun length => (raw_reads length).convert (fun _ => rfl) fun bytes =>
    (show (always bytes ∧ bytes.length = length) ∧ True ↔ _ by simp)
  refine body.convert (fun _ => rfl) fun bytes => ?_
  simp only [always_holds, true_and, and_true, not_lt, gt_iff_lt]
  omega

theorem digest_reads : Reads digest ByteWriter.digest always := by
  refine ((raw_reads kDigestBytes).map Digest.ofBytes Digest.bytes ?_ ?_).convert (fun _ => rfl) ?_
  · intro bytes size
    exact List.take_left' size
  · intro value _
    apply Digest.bytes_injective
    exact List.take_left' value.size
  · exact fun value => iff_of_true trivial value.size

theorem count_reads (maxCount : Nat) (fits : maxCount < 2 ^ 32) : Reads (count maxCount) ByteWriter.u32 (· ≤ maxCount) := by
  refine (u32_reads.checked (· > maxCount) _).convert (fun _ => rfl) fun value => ?_
  omega

theorem counted_reads {α : Type} (maxCount : Nat) (fits : maxCount < 2 ^ 32) {element : ByteReader α} {write : α → Bytes}
    {domain : α → Prop} (reads : Reads element write domain) :
    Reads (counted maxCount element) (ByteWriter.counted write)
      (fun values => values.length ≤ maxCount ∧ ∀ value ∈ values, domain value) :=
  (count_reads maxCount fits).counted reads

theorem id_reads (tag : IdTag) : Reads (id tag) ByteWriter.id (·.value.length ≤ kMaxIdentifierBytes) :=
  (string_reads kMaxIdentifierBytes (by decide)).map StrongId.mk StrongId.value (fun _ _ => rfl) (fun _ _ => rfl)

theorem word8_reads : Reads word8 (fun value => ByteWriter.u8 value.toNat) always :=
  (u8_reads.map UInt8.ofNat UInt8.toNat (fun _ small => by simpa using small) (fun _ _ => by simp)).convert (fun _ => rfl)
    fun value => iff_of_true trivial value.toNat_lt

theorem word16_reads : Reads word16 (fun value => ByteWriter.u16 value.toNat) always :=
  (u16_reads.map UInt16.ofNat UInt16.toNat (fun _ small => by simpa using small) (fun _ _ => by simp)).convert (fun _ => rfl)
    fun value => iff_of_true trivial value.toNat_lt

theorem word32_reads : Reads word32 (fun value => ByteWriter.u32 value.toNat) always :=
  (u32_reads.map UInt32.ofNat UInt32.toNat (fun _ small => by simpa using small) (fun _ _ => by simp)).convert (fun _ => rfl)
    fun value => iff_of_true trivial value.toNat_lt

theorem word64_reads : Reads word64 (fun value => ByteWriter.u64 value.toNat) always :=
  (u64_reads.map UInt64.ofNat UInt64.toNat (fun _ small => by simpa using small) (fun _ _ => by simp)).convert (fun _ => rfl)
    fun value => iff_of_true trivial value.toNat_lt

theorem generation_reads (tag : IdTag) : Reads (generation tag) ByteWriter.generation always :=
  word64_reads.map StrongId.mk StrongId.value (fun _ _ => rfl) (fun _ _ => rfl)

theorem complete_accepts {α : Type} {read : ByteReader α} {write : α → Bytes} {domain : α → Prop} (reads : Reads read write domain)
    (value : α) (inside : domain value) : complete read (write value) = .ok value := reads.whole_accepts trailing value inside

theorem complete_canonical {α : Type} {read : ByteReader α} {write : α → Bytes} {domain : α → Prop} (reads : Reads read write domain)
    (input : Bytes) (value : α) (accepted : complete read input = .ok value) : domain value ∧ input = write value :=
  reads.whole_canonical trailing input value accepted

end ByteReader

end PathPlanner
