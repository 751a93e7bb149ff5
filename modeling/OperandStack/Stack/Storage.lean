/-!
# Storage of a stack

How much storage a stack has after it grew. Storage is asked for twice as large as before,
and by a quarter larger once it is large; it is handed out in blocks of certain sizes or, above
those, in pages, so that there may be room for some entries more.
-/

namespace OperandStack.Storage

/-- The number of bytes an entry takes. -/
def entrySize : Nat := 112

/-- The sizes of blocks in bytes. -/
def blockSizes : List Nat :=
  [8, 16, 24, 32, 48, 64, 80, 96, 112, 128, 144, 160, 176, 192, 208, 224, 240, 256, 288, 320, 352,
    384, 416, 448, 480, 512, 576, 640, 704, 768, 896, 1024, 1152, 1280, 1408, 1536, 1792, 2048,
    2304, 2688, 3072, 3200, 3456, 4096, 4864, 5120, 5376, 6144, 6528, 6784, 6912, 8192, 9472, 9728,
    10240, 10880, 12288, 13568, 14336, 16384, 18432, 19072, 20480, 21760, 24576, 27264, 28672,
    32768]

def pageSize : Nat := 8192

/-- Blocks for more than this many bytes start with a header. -/
def headerLimit : Nat := 512

def headerSize : Nat := 8

/-- The number of bytes that are handed out when `bytes` are asked for. -/
def handedOut (bytes : Nat) : Nat :=
  let header := if headerLimit < bytes then headerSize else 0
  match blockSizes.find? (bytes + header ≤ ·) with
  | some size => size - header
  | none => (bytes + pageSize - 1) / pageSize * pageSize

/-- From this capacity on storage grows by less than its double. -/
def slowLimit : Nat := 256

/-- The capacity that is asked for when the given one is used up. -/
def wanted (capacity : Nat) : Nat :=
  if capacity = 0 then 1
  else if capacity < slowLimit then 2 * capacity
  else capacity + (capacity + 3 * slowLimit) / 4

/-- The capacity after growth. -/
def grow (capacity : Nat) : Nat := handedOut (wanted capacity * entrySize) / entrySize

end OperandStack.Storage
