import PathPlanner.Digest

set_option autoImplicit false

namespace PathPlanner.ByteWriter

-- A writer is the bytes it has appended; wider integers split into halves, low half first.
def u8 (value : Nat) : Bytes := [UInt8.ofNat value]

def u16 (value : Nat) : Bytes := u8 (value % 2 ^ 8) ++ u8 (value / 2 ^ 8 % 2 ^ 8)

def u32 (value : Nat) : Bytes := u16 (value % 2 ^ 16) ++ u16 (value / 2 ^ 16 % 2 ^ 16)

def u64 (value : Nat) : Bytes := u32 (value % 2 ^ 32) ++ u32 (value / 2 ^ 32 % 2 ^ 32)

def boolean (value : Bool) : Bytes := u8 (if value then 1 else 0)

def string (value : Bytes) : Bytes := u32 value.length ++ value

def digest (value : Digest) : Bytes := value.bytes

def tagged (tag : String) : Bytes := string (text tag)

def id {tag : IdTag} (value : StrongId tag Bytes) : Bytes := string value.value

def generation {tag : IdTag} (value : StrongId tag UInt64) : Bytes := u64 value.value.toNat

-- A counted list: the length as a u32, then every element.
def counted {α : Type} (element : α → Bytes) (items : List α) : Bytes :=
  u32 items.length ++ items.flatMap element

end PathPlanner.ByteWriter
