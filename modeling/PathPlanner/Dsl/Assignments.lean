import PathPlanner.Request

set_option autoImplicit false

namespace PathPlanner

open Checks

def kMaxTextLineBytes : Nat := 4096
def kMaxInputBytes : Nat := 32 * 1024 * 1024

namespace Dsl

def isSpace (ch : UInt8) : Bool := ch == 32 || ch == 9

def parseDigits (value : Nat) : Bytes → Result Nat
  | [] => .ok value
  | ch :: rest => do
      deny (ch < 48 ∨ ch > 57) (failure .malformedNumber "expected a decimal number")
      let digit := ch.toNat - 48
      deny (value > (2 ^ 64 - 1 - digit) / 10) (failure .valueOutOfRange "number does not fit in 64 bits")
      parseDigits (value * 10 + digit) rest

def parseU64 (number : Bytes) : Result Nat := do
  deny (number = []) (failure .missingRequiredField "expected a decimal number")
  deny (number.length > 1 ∧ number.head? = some 48) (failure .malformedNumber "numbers must not carry leading zeros")
  parseDigits 0 number

def parseU32 (number : Bytes) : Result Nat := do
  let wide ← parseU64 number
  deny (wide > 2 ^ 32 - 1) (failure .valueOutOfRange "number does not fit in 32 bits")
  .ok wide

-- The names a table gives the values of an enumeration.
def parseNamed {α : Type} (table : List (String × α)) (name : Bytes) : Option α :=
  (table.find? fun entry => text entry.1 = name).map Prod.snd

def parseBool : Bytes → Option Bool := parseNamed [("0", false), ("1", true)]

def parseCollectiveKind : Bytes → Option CollectiveKind :=
  parseNamed [("ring", .ring), ("tree", .tree), ("pairwise", .pairwise), ("alltoall", .allToAll),
    ("hierarchical", .hierarchical)]

def parseTreeDirection : Bytes → Option TreeDirection :=
  parseNamed [("forward", .forward), ("reverse", .reverse), ("bidirectional", .bidirectional)]

def parseGroupPattern : Bytes → Option GroupPattern :=
  parseNamed [("ring", .ring), ("tree", .tree), ("pairwise", .pairwise), ("alltoall", .allToAll)]

def parseEvidenceClass : Bytes → Option EvidenceClass :=
  parseNamed [("unknown", .unknown), ("synthetic", .synthetic), ("measured", .measured)]

def parseDomainKind : Bytes → Option DomainKind :=
  parseNamed [("device", .device), ("host", .host), ("rack", .rack), ("pod", .pod), ("site", .site)]

def parseDisjointness : Bytes → Option Disjointness :=
  parseNamed [("none", .none), ("edge", .edge), ("node", .node)]

def parseDomainDiversity : Bytes → Option DomainDiversity :=
  parseNamed [("none", .none), ("preferred", .preferred), ("required", .required)]

def parseEvidenceRequirement : Bytes → Option EvidenceRequirement :=
  parseNamed [("any", .any), ("synthetic-or-better", .syntheticOrBetter), ("synthetic", .syntheticOrBetter),
    ("measured", .measured)]

def makeIdentifier (name : Bytes) : Result Bytes := do
  if isValidIdentifier name = true then .ok name
  else do
    deny (name = []) (failure .missingRequiredField "identifier must not be empty")
    deny (name.length > kMaxIdentifierBytes) (failure .stringTooLong "identifier exceeds 64 bytes")
    .error (failure .invalidCharacter "identifier contains an unsupported character")

def makeTierName (name : Bytes) : Result Bytes := do
  if isValidTierName name = true then .ok name
  else do
    deny (name = []) (failure .missingRequiredField "tier name must not be empty")
    deny (name.length > kMaxTierNameBytes) (failure .stringTooLong "tier name exceeds 32 bytes")
    .error (failure .invalidCharacter "tier name contains an unsupported character")

def splitList (list : Bytes) (separator : UInt8) : List Bytes :=
  if list = [] then [] else list.splitOn separator

structure Assignment where
  key : Bytes
  value : Bytes
deriving DecidableEq, Repr

abbrev AssignmentList := List Assignment

-- A failure inside the value of a key names the key.
def underKey {α : Type} (key : Bytes) (outcome : Result α) : Result α :=
  match outcome with
  | .ok value => .ok value
  | .error status => .error ⟨status.code, key ++ text ": " ++ status.detail⟩

namespace AssignmentList

def has (entries : AssignmentList) (key : String) : Bool := entries.any fun entry => entry.key = text key

def get (entries : AssignmentList) (key : String) : Bytes :=
  match entries.find? fun entry => entry.key = text key with
  | some entry => entry.value
  | none => []

def keyByte (ch : UInt8) : Bool := !isSpace ch && ch != 61

def parseFrom (entries : AssignmentList) (line : Bytes) : Result AssignmentList :=
  match _start : line.dropWhile isSpace with
  | [] => .ok entries
  | first :: more =>
      let key := (first :: more).takeWhile keyByte
      match _stop : (first :: more).dropWhile keyByte with
      | 61 :: rest => do
          let value := rest.takeWhile fun ch => !isSpace ch
          deny (key = []) (failure .invalidSyntax "empty key before '='")
          deny (value = []) ⟨.invalidSyntax, text "empty value for key " ++ key⟩
          deny (key ∈ entries.map Assignment.key) ⟨.duplicateIdentifier, text "repeated key " ++ key⟩
          parseFrom (entries ++ [⟨key, value⟩]) (rest.dropWhile fun ch => !isSpace ch)
      | _ => .error ⟨.invalidSyntax, text "expected key=value, found " ++ key⟩
termination_by line.length
decreasing_by
  have spaces := (List.dropWhile_sublist isSpace (l := line)).length_le
  have letters := (List.dropWhile_sublist keyByte (l := first :: more)).length_le
  have tail := (List.dropWhile_sublist (fun ch => !isSpace ch) (l := rest)).length_le
  rw [_start] at spaces
  rw [_stop, List.length_cons] at letters
  omega

def parse (line : Bytes) : Result AssignmentList := parseFrom [] line

def rejectUnknown (entries : AssignmentList) (accepted : List String) : Result Unit :=
  forEach (fun entry : Assignment => deny (entry.key ∉ accepted.map text) ⟨.unknownKeyword, text "unknown key " ++ entry.key⟩) entries

def require (entries : AssignmentList) (key : String) : Result Unit :=
  deny (entries.has key = false) ⟨.missingRequiredField, text "missing required key " ++ text key⟩

def number (entries : AssignmentList) (key : String) (fallback : Nat) (required : Bool) : Result Nat :=
  if entries.has key = false then do
    deny (required = true) ⟨.missingRequiredField, text "missing required key " ++ text key⟩
    .ok fallback
  else underKey (text key) (parseU64 (entries.get key))

def number32 (entries : AssignmentList) (key : String) (fallback : Nat) (required : Bool) : Result Nat :=
  if entries.has key = false then do
    deny (required = true) ⟨.missingRequiredField, text "missing required key " ++ text key⟩
    .ok fallback
  else underKey (text key) (parseU32 (entries.get key))

def label (entries : AssignmentList) (key : String) : Result Bytes :=
  if entries.has key = false then .ok []
  else do
    let value := entries.get key
    deny (value.length > kMaxPlacementLabelBytes ∨ isValidIdentifier value = false)
      ⟨.invalidCharacter, text key ++ text ": not a valid placement label"⟩
    .ok value

-- An optional key whose value stands for a member of an enumeration.
def named {α : Type} (entries : AssignmentList) (key : String) (parse : Bytes → Option α) (current : α) (error : Status) :
    Result α :=
  if entries.has key = false then .ok current
  else
    match parse (entries.get key) with
    | some value => .ok value
    | none => .error error

-- An optional key whose value is a name of some kind.
def optional {tag : IdTag} (entries : AssignmentList) (key : String) (make : Bytes → Result Bytes) :
    Result (StrongId tag Bytes) :=
  if entries.has key = false then .ok unset
  else do
    let name ← underKey (text key) (make (entries.get key))
    .ok ⟨name⟩

-- The names of a list, one after the other; a bounded list refuses the name that is one too many.
def readNames {tag : IdTag} (key : String) (make : Bytes → Result Bytes) (bound : Option (Nat × Status))
    (read : List (StrongId tag Bytes)) : List Bytes → Result (List (StrongId tag Bytes))
  | [] => .ok read
  | item :: rest => do
      let name ← underKey (text key) (make item)
      match bound with
      | some (limit, excess) => deny (read.length ≥ limit) excess
      | none => .ok ()
      readNames key make bound (read ++ [⟨name⟩]) rest

def nameList {tag : IdTag} (entries : AssignmentList) (key : String) (make : Bytes → Result Bytes) (bound : Option (Nat × Status))
    (read : List (StrongId tag Bytes)) : Result (List (StrongId tag Bytes)) :=
  if entries.has key = false then .ok read
  else readNames key make bound read (splitList (entries.get key) 44)

end AssignmentList

end Dsl

end PathPlanner
