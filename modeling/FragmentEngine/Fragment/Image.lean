import FragmentEngine.Fragment.Basic
/-!
# Fragment images

The bytes of a fragment on disk: a mark and a version, the name and the temporary flag, the columns with type
tags and identifier flags, then the cells row by row. Texts and cells are preceded by their length in four
bytes; the count of columns takes four bytes and that of rows eight.
-/

namespace FragmentEngine.Image

/-- The bytes that every image starts with. -/
def mark : Bytes := [0x46, 0x52, 0x41, 0x47]

def version : UInt8 := 1

/-! ## Writing -/

/-- Bytes preceded by their length. -/
def chunk (bytes : Bytes) : Bytes := Bytes.littleEndian 4 bytes.length ++ bytes

def flag (b : Bool) : UInt8 := if b then 1 else 0

def fieldBytes (f : Field) : Bytes := chunk (Text.Utf8.encode f.name) ++ [f.type.tag, flag f.identifier]

def recordBytes (r : Record) : Bytes := r.cells.flatMap chunk

/-- The image of a fragment. -/
def ofFragment (f : Fragment) : Bytes :=
  mark ++ [version] ++ chunk (Text.Utf8.encode f.name) ++ [flag f.temporary] ++
    Bytes.littleEndian 4 f.schema.width ++ f.schema.fields.flatMap fieldBytes ++
    Bytes.littleEndian 8 f.rowCount ++ f.records.flatMap recordBytes

/-! ## Reading -/

/-- Reading from the front of the bytes to come. -/
abbrev Reader := StateT Bytes (Except Error)

/-- The next `n` bytes. -/
def take (n : Nat) : Reader Bytes := fun bytes =>
  if bytes.length < n then .error (.disk .unexpectedEnd) else .ok (bytes.take n, bytes.drop n)

def byte : Reader UInt8 := fun
  | [] => .error (.disk .unexpectedEnd)
  | b :: rest => .ok (b, rest)

/-- The number of the next `n` bytes. -/
def number (n : Nat) : Reader Nat := return (← take n).toNat

/-- Bytes preceded by their length, which must not exceed the bytes left. -/
def readChunk : Reader Bytes := do
  let n ← number 4
  let left ← get
  if left.length < n then throw (.store .truncatedImage)
  take n

def readText : Reader String := do
  let bytes ← readChunk
  match Text.Utf8.decode bytes with
  | .ok s => return s
  | .error e => throw (.store (.imageText e))

/-- A flag is set by any byte but zero. -/
def readFlag : Reader Bool := return (← byte) != 0

def readField : Reader Field := do
  let name ← readText
  let tag ← byte
  match FieldType.ofTag? tag with
  | none => throw (.store (.unknownTypeTag tag.toNat))
  | some type => return ⟨name, type, ← readFlag⟩

/-- What `read` reads, `n` times. -/
def times {α : Type} (read : Reader α) : Nat → Reader (List α)
  | 0 => return []
  | n + 1 => do
    let x ← read
    return x :: (← times read n)

def readRecord (width : Nat) : Reader Record := return ⟨← times readChunk width⟩

def readFragment : Reader Fragment := do
  if (← take 4) ≠ mark then throw (.store .notAnImage)
  let v ← byte
  if v ≠ version then throw (.store (.unsupportedVersion v.toNat))
  let name ← readText
  let temporary ← readFlag
  let width ← number 4
  let fields ← times readField width
  let rows ← number 8
  let records ← times (readRecord width) rows
  return ⟨name, ⟨fields⟩, records, temporary⟩

/-- The fragment of an image; what follows it is ignored. -/
def toFragment (bytes : Bytes) : Except Error Fragment := readFragment.run' bytes

end FragmentEngine.Image
