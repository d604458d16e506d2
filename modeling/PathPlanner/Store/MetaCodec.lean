import PathPlanner.Store.StoreCases

set_option autoImplicit false

namespace PathPlanner.PlanStore

open Checks Codec StoreFiles StoreRecord

def encodeMetaBody (found : StoreMeta) : Bytes :=
  ByteWriter.u16 found.version.toNat ++ (ByteWriter.generation found.epoch ++
    (ByteWriter.generation found.incarnation ++ ByteWriter.u64 found.sequence.toNat))

theorem meta_reads : Reads readMeta encodeMetaBody always :=
  (Reads.field always StoreMeta.version ByteReader.word16_reads fun version =>
    .field _ StoreMeta.epoch (ByteReader.generation_reads _) fun epoch =>
    .field _ StoreMeta.incarnation (ByteReader.generation_reads _) fun incarnation =>
    .final _ StoreMeta.sequence (fun sequence => { version, epoch, incarnation, sequence }) ByteReader.word64_reads
      (by rintro _ ⟨⟩; simp [and_assoc])).convert (by simp [encodeMetaBody]) (by simp)

@[simp] theorem encode_meta_length (epoch : Epoch) (incarnation : Incarnation) (sequence : UInt64) :
    (encodeMeta epoch incarnation sequence).length = kMetaBytes := rfl

theorem decode_encode_meta (epoch : Epoch) (incarnation : Incarnation) (sequence : UInt64) :
    decodeMeta (encodeMeta epoch incarnation sequence) =
      .ok { version := UInt16.ofNat kStoreFormatVersion, epoch, incarnation, sequence } := by
  let found : StoreMeta := { version := UInt16.ofNat kStoreFormatVersion, epoch, incarnation, sequence }
  have body : encodeMeta epoch incarnation sequence = (kMetaMagic ++ encodeMetaBody found) ++
      (ByteWriter.u32 (crc32 (kMetaMagic ++ encodeMetaBody found)).toNat ++ []) := by
    simp [encodeMeta, encodeMetaBody, found, kStoreFormatVersion]
  have long : (encodeMeta epoch incarnation sequence).length - 4 = (kMetaMagic ++ encodeMetaBody found).length := rfl
  have word := word_at_append (kMetaMagic ++ encodeMetaBody found) [] (crc32 (kMetaMagic ++ encodeMetaBody found)).toNat (BitVec.isLt _)
  have magic : ByteReader.raw kMetaMagic.length (encodeMeta epoch incarnation sequence) =
      .ok (kMetaMagic, encodeMetaBody found ++ ByteWriter.u32 (crc32 (kMetaMagic ++ encodeMetaBody found)).toNat) := by
    rw [body, List.append_nil, List.append_assoc]
    exact (ByteReader.raw_reads _).accepts kMetaMagic _ rfl
  rw [decodeMeta, then_ok, deny_ok, then_ok, deny_ok, bind_ok]
  refine ⟨not_not.mpr rfl, ?_, _, magic, ?_⟩
  · rw [long, body, word, List.take_left]
    exact not_not.mpr rfl
  · rw [then_ok, deny_ok, bind_ok]
    refine ⟨not_not.mpr rfl, _, meta_reads.accepts found _ trivial, ?_⟩
    simp [found, kStoreFormatVersion]

end PathPlanner.PlanStore
