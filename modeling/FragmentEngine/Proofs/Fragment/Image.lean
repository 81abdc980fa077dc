import Mathlib.Algebra.GroupWithZero.Nat
import FragmentEngine.Fragment.Image
import FragmentEngine.Proofs.Text.Utf8
/-!
# Images read back

A fragment is recovered from its image: every item is written so that its reader stops exactly behind it,
whatever follows.
-/

namespace FragmentEngine.Image

variable {α β : Type}

/-- A reader takes the given bytes off the front of any others and gives `x`. -/
def Reads (read : Reader α) (bytes : Bytes) (x : α) : Prop := ∀ rest, read (bytes ++ rest) = .ok (x, rest)

namespace Reads

theorem pure (x : α) : Reads (Pure.pure x) [] x := fun _ => rfl

theorem bind {read : Reader α} {next : α → Reader β} {front back : Bytes} {x : α} {y : β}
    (first : Reads read front x) (second : Reads (next x) back y) : Reads (read >>= next) (front ++ back) y := by
  intro rest
  rw [List.append_assoc]
  show (read (front ++ (back ++ rest)) >>= fun p => next p.1 p.2) = _
  rw [first]
  exact second rest

theorem map {read : Reader α} {bytes : Bytes} {x : α} (f : α → β) (h : Reads read bytes x) :
    Reads (do return f (← read)) bytes (f x) := by
  intro rest
  show (read (bytes ++ rest) >>= fun p => .ok (f p.1, p.2)) = _
  rw [h]
  rfl

/-! ## Items -/

theorem take (bytes : Bytes) : Reads (Image.take bytes.length) bytes bytes := by
  intro rest
  have long : ¬(bytes ++ rest).length < bytes.length := by simp
  simp only [Image.take, if_neg long, List.take_left, List.drop_left]

theorem byte (b : UInt8) : Reads Image.byte [b] b := fun _ => rfl

theorem number {k n : Nat} (h : n < Nat.pow 256 k) : Reads (Image.number k) (Bytes.littleEndian k n) n := by
  have read := (take (Bytes.littleEndian k n)).map Bytes.toNat
  rwa [Bytes.length_littleEndian, Bytes.toNat_littleEndian h] at read

theorem flag (b : Bool) : Reads readFlag [Image.flag b] b := by
  have read := (byte (Image.flag b)).map (· != 0)
  cases b <;> exact read

theorem chunk {bytes : Bytes} (short : bytes.length < 2 ^ 32) : Reads readChunk (Image.chunk bytes) bytes := by
  refine (number (k := 4) short).bind ?_
  intro rest
  have long : ¬(bytes ++ rest).length < bytes.length := by simp
  show (if (bytes ++ rest).length < bytes.length then _ else Image.take bytes.length) (bytes ++ rest) = _
  rw [if_neg long]
  exact take bytes rest

theorem text {s : String} (short : (Text.Utf8.encode s).length < 2 ^ 32) :
    Reads readText (Image.chunk (Text.Utf8.encode s)) s := by
  have read : Reads readText (Image.chunk (Text.Utf8.encode s) ++ []) s := by
    refine (chunk short).bind ?_
    rw [Text.Utf8.decode_encode]
    exact pure s
  rwa [List.append_nil] at read

theorem field {f : Field} (short : (Text.Utf8.encode f.name).length < 2 ^ 32) :
    Reads readField (fieldBytes f) f := by
  refine (text short).bind ((byte f.type.tag).bind ?_)
  rw [FieldType.ofTag?_tag]
  exact (flag f.identifier).map (Field.mk f.name f.type)

/-- Items written one after the other are read by their number. -/
theorem times {read : Reader α} {write : α → Bytes} {xs : List α} (each : ∀ x ∈ xs, Reads read (write x) x) :
    Reads (Image.times read xs.length) (xs.flatMap write) xs := by
  induction xs with
  | nil => exact pure []
  | cons x xs ih =>
    have others := ih fun y hy => each y (List.mem_cons_of_mem x hy)
    rw [List.flatMap_cons]
    exact (each x List.mem_cons_self).bind (others.map (x :: ·))

theorem record {r : Record} (short : ∀ cell ∈ r.cells, cell.length < 2 ^ 32) :
    Reads (readRecord r.width) (recordBytes r) r :=
  (times fun cell hc => chunk (short cell hc)).map Record.mk

end Reads

/-! ## Fragments -/

/-- Every length and count of a fragment fits the bytes an image has for it, and its records are as wide as its
schema. -/
structure Fits (f : Fragment) : Prop where
  name : (Text.Utf8.encode f.name).length < 2 ^ 32
  width : f.schema.width < 2 ^ 32
  names : ∀ field ∈ f.schema.fields, (Text.Utf8.encode field.name).length < 2 ^ 32
  records : ∀ r ∈ f.records, r.width = f.schema.width
  cells : ∀ r ∈ f.records, ∀ cell ∈ r.cells, cell.length < 2 ^ 32
  /-- Rows are counted by 64 bits. -/
  rows : f.rowCount < 2 ^ 64

instance (f : Fragment) : Decidable (Fits f) :=
  decidable_of_iff ((Text.Utf8.encode f.name).length < 2 ^ 32 ∧ f.schema.width < 2 ^ 32 ∧
      (∀ field ∈ f.schema.fields, (Text.Utf8.encode field.name).length < 2 ^ 32) ∧
      (∀ r ∈ f.records, r.width = f.schema.width) ∧ (∀ r ∈ f.records, ∀ cell ∈ r.cells, cell.length < 2 ^ 32) ∧
      f.rowCount < 2 ^ 64)
    ⟨fun ⟨name, width, names, records, cells, rows⟩ => ⟨name, width, names, records, cells, rows⟩,
      fun h => ⟨h.name, h.width, h.names, h.records, h.cells, h.rows⟩⟩

theorem Reads.fragment {f : Fragment} (fits : Fits f) : Reads readFragment (ofFragment f) f := by
  have fields := times fun field hf => Reads.field (fits.names field hf)
  have records : Reads (Image.times (readRecord f.schema.width) f.rowCount) (f.records.flatMap recordBytes)
      f.records := by
    refine times fun r hr => ?_
    have read := record (fits.cells r hr)
    rwa [fits.records r hr] at read
  simp only [ofFragment, List.append_assoc]
  refine (take mark).bind ?_
  refine (byte version).bind ?_
  refine (text fits.name).bind ?_
  refine (flag f.temporary).bind ?_
  refine (number (k := 4) fits.width).bind ?_
  refine fields.bind ?_
  refine (number (k := 8) fits.rows).bind ?_
  exact records.map fun records => (⟨f.name, f.schema, records, f.temporary⟩ : Fragment)

/-- A fragment that fits is read back from its image. -/
theorem toFragment_ofFragment {f : Fragment} (fits : Fits f) : toFragment (ofFragment f) = .ok f := by
  have read := Reads.fragment fits []
  rw [List.append_nil] at read
  show (readFragment (ofFragment f)).map Prod.fst = _
  rw [read]
  rfl

/-- An intermediate result of two rows, with an empty cell and one whose bytes are no text. -/
def twoRows : Fragment where
  name := "größe"
  schema := ⟨[⟨"id", .long, true⟩, ⟨"raw", .blob, false⟩]⟩
  records := [⟨[(7 : Long).toBytes, []]⟩, ⟨[(-1 : Long).toBytes, [0, 255, 0]]⟩]
  temporary := true

theorem toFragment_ofFragment_twoRows : Fits twoRows ∧ toFragment (ofFragment twoRows) = .ok twoRows := by
  have fits : Fits twoRows := by constructor <;> decide +kernel
  exact ⟨fits, toFragment_ofFragment fits⟩

end FragmentEngine.Image
