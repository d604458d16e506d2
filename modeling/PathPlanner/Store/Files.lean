import PathPlanner.Store.RecordCodec

set_option autoImplicit false

namespace PathPlanner

-- The regular files of the store's directory, by name.
abbrev FileName := Bytes

abbrev Directory := FileName → Option Bytes

def hexDigit (value : Nat) : UInt8 := UInt8.ofNat (if value < 10 then 48 + value else 87 + value)

def Digest.hex (digest : Digest) : Bytes :=
  digest.bytes.flatMap fun byte => [hexDigit (byte.toNat / 16), hexDigit (byte.toNat % 16)]

namespace StoreFiles

def hexOf (value : UInt64) : Bytes :=
  (List.range 16).reverse.map fun index => hexDigit (value.toNat / 16 ^ index % 16)

def metaFileName : FileName := text "store.meta"

def recordFileName (digest : Digest) : FileName := text "plan-" ++ digest.hex ++ text ".rec"

def stagingFileName (token micros : UInt64) : FileName :=
  text "tmp-" ++ hexOf token ++ text "-" ++ hexOf micros ++ text ".tmp"

def isRecordFile (name : FileName) : Bool := (text "plan-").isPrefixOf name && (text ".rec").isSuffixOf name

def isStagingFile (name : FileName) : Bool := (text "tmp-").isPrefixOf name && (text ".tmp").isSuffixOf name

-- path::operator/ on a directory and a file name.
def pathText (root : Bytes) (name : FileName) : Bytes :=
  if root.isEmpty ∨ root.getLast? = some 47 then root ++ name else root ++ text "/" ++ name

inductive ReadFault where
  | opening | sizing | short

inductive StagingFault where
  | creating | writing

-- What one call of the store sees of the world outside: counter values and clock readings in the order they
-- are drawn, the directory as it is enumerated, and which file system calls fail with which message.
structure Environment where
  token : Nat → UInt64
  micros : Nat → UInt64
  listing : Nat → List FileName
  directoryFault : Option Bytes
  enumerateFault : Nat → Option Bytes
  existsFault : Bool
  regularFault : FileName → Bool
  readFault : FileName → Option ReadFault
  stagingFault : FileName → Option StagingFault
  replaceFault : FileName → Option Bytes
  removeFault : FileName → Option Bytes

inductive Effect where
  | stage (name : FileName) (bytes : Bytes)
  | rename (source target : FileName)
  | remove (name : FileName)

def Effect.apply (dir : Directory) : Effect → Directory
  | .stage name bytes => Function.update dir name (some bytes)
  | .rename source target => Function.update (Function.update dir source none) target (dir source)
  | .remove name => Function.update dir name none

def performAll (effects : List Effect) (dir : Directory) : Directory := effects.foldl Effect.apply dir

def filesystemFailure (what : String) (path message : Bytes) : Status :=
  ⟨.storeIoFailure, text what ++ text " " ++ path ++ text ": " ++ message⟩

-- A staging file that cannot be completed or moved is removed again.
def writeFileAtomic (env : Environment) (root : Bytes) (staging target : FileName) (bytes : Bytes) :
    Result Unit × List Effect :=
  match env.stagingFault target with
  | some .creating => (.error ⟨.storeIoFailure, text "cannot create staging file " ++ pathText root staging⟩, [])
  | some .writing => (.error ⟨.storeIoFailure, text "failed to write staging file " ++ pathText root staging⟩, [])
  | none =>
      match env.replaceFault target with
      | some message => (.error ⟨.atomicReplaceFailed,
          text "atomic replace of " ++ pathText root target ++ text " failed: " ++ message⟩,
          [.stage staging bytes, .remove staging])
      | none => (.ok (), [.stage staging bytes, .rename staging target])

def readFile (env : Environment) (root : Bytes) (dir : Directory) (name : FileName) (maxBytes : Nat) : Result Bytes :=
  match env.readFault name, dir name with
  | some .opening, _ | _, none => .error ⟨.storeIoFailure, text "cannot open " ++ pathText root name⟩
  | some .sizing, _ => .error ⟨.storeIoFailure, text "cannot size " ++ pathText root name⟩
  | fault, some bytes =>
      if bytes.length > maxBytes then .error ⟨.oversizedRecord, pathText root name ++ text " exceeds the record bound"⟩
      else if fault.isSome then .error ⟨.truncatedRecord, text "short read from " ++ pathText root name⟩
      else .ok bytes

theorem perform_append (first second : List Effect) (dir : Directory) :
    performAll (first ++ second) dir = performAll second (performAll first dir) := by
  rw [performAll, List.foldl_append]
  rfl

-- A name no effect mentions keeps its file.
def Effect.Spares (name : FileName) : Effect → Prop
  | .stage other _ => other ≠ name
  | .rename source target => source ≠ name ∧ target ≠ name
  | .remove other => other ≠ name

theorem apply_spared (effect : Effect) (dir : Directory) (name : FileName) (spared : effect.Spares name) :
    effect.apply dir name = dir name := by
  cases effect with
  | stage other bytes => exact Function.update_of_ne (Ne.symm spared) _ _
  | rename source target =>
      rw [Effect.apply, Function.update_of_ne (Ne.symm spared.2), Function.update_of_ne (Ne.symm spared.1)]
  | remove other => exact Function.update_of_ne (Ne.symm spared) _ _

theorem perform_spared (effects : List Effect) (dir : Directory) (name : FileName)
    (spared : ∀ effect ∈ effects, effect.Spares name) : performAll effects dir name = dir name := by
  induction effects generalizing dir with
  | nil => rfl
  | cons effect rest ih =>
      have later := ih (effect.apply dir) fun other member => spared other (List.mem_cons_of_mem _ member)
      exact later.trans (apply_spared effect dir name (spared effect List.mem_cons_self))

theorem replaced_file (dir : Directory) (staging target : FileName) (bytes : Bytes) :
    performAll [.stage staging bytes, .rename staging target] dir target = some bytes := by
  simp [performAll, Effect.apply]

theorem read_file_ok (env : Environment) (root : Bytes) (dir : Directory) (name : FileName) (maxBytes : Nat) (bytes : Bytes)
    (read : readFile env root dir name maxBytes = .ok bytes) : dir name = some bytes ∧ bytes.length ≤ maxBytes := by
  unfold readFile at read
  split at read
  · cases read
  · cases read
  · cases read
  · split_ifs at read with long fault
    cases read
    exact ⟨by assumption, not_lt.mp long⟩

theorem read_file_calm (env : Environment) (root : Bytes) (dir : Directory) (name : FileName) (maxBytes : Nat) (bytes : Bytes)
    (calm : env.readFault name = none) (held : dir name = some bytes) (small : bytes.length ≤ maxBytes) :
    readFile env root dir name maxBytes = .ok bytes := by
  unfold readFile
  simp only [calm, held]
  rw [if_neg (not_lt.mpr small)]
  rfl

theorem hex_digit_injective (left right : Nat) (first : left < 16) (second : right < 16)
    (same : hexDigit left = hexDigit right) : left = right := by
  have table : ∀ left < 16, ∀ right < 16, hexDigit left = hexDigit right → left = right := by decide
  exact table left first right second same

theorem hex_injective (left right : Digest) (same : left.hex = right.hex) : left = right := by
  apply Digest.bytes_injective
  have long := left.size.trans right.size.symm
  unfold Digest.hex at same
  generalize left.bytes = first at same long
  generalize right.bytes = second at same long
  induction first generalizing second with
  | nil => exact (List.length_eq_zero_iff.mp long.symm).symm
  | cons a rest ih =>
      cases second with
      | nil => simp at long
      | cons b others =>
          simp only [List.flatMap_cons, List.cons_append, List.nil_append, List.cons.injEq] at same
          obtain ⟨high, low, tails⟩ := same
          have aSmall := a.toNat_lt
          have bSmall := b.toNat_lt
          have highs := hex_digit_injective _ _ (by omega) (by omega) high
          have lows := hex_digit_injective _ _ (by omega) (by omega) low
          have bytes : a = b := UInt8.toNat_inj.mp (by omega)
          rw [bytes, ih others tails (by simpa using long)]

theorem record_file_name_injective : Function.Injective recordFileName := by
  intro left right same
  simp only [recordFileName, List.append_assoc] at same
  exact hex_injective left right (List.append_cancel_right (List.append_cancel_left same))

theorem record_file_name_record (digest : Digest) : isRecordFile (recordFileName digest) = true := by
  rw [isRecordFile, recordFileName, Bool.and_eq_true, List.isPrefixOf_iff_prefix, List.isSuffixOf_iff_suffix]
  exact ⟨by rw [List.append_assoc]; exact List.prefix_append _ _, List.suffix_append _ _⟩

-- The three kinds of files differ in their first byte.
theorem record_first (name : FileName) (record : isRecordFile name = true) : name.head? = some 112 := by
  rw [isRecordFile, Bool.and_eq_true, List.isPrefixOf_iff_prefix] at record
  obtain ⟨⟨rest, rfl⟩, _⟩ := record
  rfl

theorem staging_not_record (token micros : UInt64) : isRecordFile (stagingFileName token micros) = false := by
  by_contra record
  have first := record_first _ (Bool.not_eq_false _ ▸ record)
  cases first

theorem staging_file_first (name : FileName) (staging : isStagingFile name = true) : name.head? = some 116 := by
  rw [isStagingFile, Bool.and_eq_true, List.isPrefixOf_iff_prefix] at staging
  obtain ⟨⟨rest, rfl⟩, _⟩ := staging
  rfl

theorem meta_not_record : isRecordFile metaFileName = false := by decide

end StoreFiles

end PathPlanner
