import FragmentEngine.Proofs.Fragment.Image
/-!
# Truncated images

An image that is cut off is not read as a smaller fragment, wherever the cut is. Up to the cut its items are read as in
the whole image, and the item that the cut goes through is missed: every reader needs all the bytes that it takes.
-/

namespace FragmentEngine.Image

variable {α β : Type}

/-- The bytes end too early: inside an item of a fixed size, or before as many bytes as their length says. -/
def EndsEarly (x : Except Error α) : Prop := x = .error (.disk .unexpectedEnd) ∨ x = .error (.store .truncatedImage)

theorem EndsEarly.bind {x : Except Error α} (h : EndsEarly x) (next : α → Except Error β) : EndsEarly (x >>= next) := by
  rcases h with rfl | rfl
  · exact .inl rfl
  · exact .inr rfl

/-- A reader takes just the given bytes off the front of any others and gives `x`. Of a part of these bytes it finds that
they end too early. -/
structure ReadsWhole (read : Reader α) (bytes : Bytes) (x : α) : Prop where
  reads : Reads read bytes x
  cut : ∀ n < bytes.length, EndsEarly (read (bytes.take n))

namespace ReadsWhole

theorem pure (x : α) : ReadsWhole (Pure.pure x) [] x := ⟨.pure x, nofun⟩

/-- A cut goes through the bytes of the first reader, or lets it succeed and goes through those of the second. -/
theorem cut_bind {read : Reader α} {next : α → Reader β} {front back : Bytes} {x : α} (first : ReadsWhole read front x)
    (second : ∀ n < back.length, EndsEarly (next x (back.take n))) :
    ∀ n < (front ++ back).length, EndsEarly ((read >>= next) ((front ++ back).take n)) := by
  intro n short
  show EndsEarly (read ((front ++ back).take n) >>= fun p => next p.1 p.2)
  rw [List.take_append]
  by_cases inside : n < front.length
  · have none : n - front.length = 0 := by omega
    rw [none, List.take_zero, List.append_nil]
    exact (first.cut n inside).bind _
  · rw [List.take_of_length_le (Nat.le_of_not_lt inside), first.reads]
    rw [List.length_append] at short
    exact second (n - front.length) (by omega)

theorem bind {read : Reader α} {next : α → Reader β} {front back : Bytes} {x : α} {y : β}
    (first : ReadsWhole read front x) (second : ReadsWhole (next x) back y) :
    ReadsWhole (read >>= next) (front ++ back) y :=
  ⟨first.reads.bind second.reads, first.cut_bind second.cut⟩

theorem map {read : Reader α} {bytes : Bytes} {x : α} (f : α → β) (h : ReadsWhole read bytes x) :
    ReadsWhole (do return f (← read)) bytes (f x) :=
  ⟨h.reads.map f, fun n short => (h.cut n short).bind _⟩

/-! ## Items -/

theorem take (bytes : Bytes) : ReadsWhole (Image.take bytes.length) bytes bytes := by
  refine ⟨.take bytes, fun n short => .inl ?_⟩
  have less : (bytes.take n).length < bytes.length := by rwa [List.length_take_of_le (Nat.le_of_lt short)]
  exact if_pos less

theorem byte (b : UInt8) : ReadsWhole Image.byte [b] b := by
  refine ⟨.byte b, fun n short => .inl ?_⟩
  rw [List.length_singleton, Nat.lt_one_iff] at short
  rw [short]
  rfl

theorem number {k n : Nat} (h : n < Nat.pow 256 k) : ReadsWhole (Image.number k) (Bytes.littleEndian k n) n := by
  have read := (take (Bytes.littleEndian k n)).map Bytes.toNat
  rwa [Bytes.length_littleEndian, Bytes.toNat_littleEndian h] at read

theorem flag (b : Bool) : ReadsWhole readFlag [Image.flag b] b := by
  have read := (byte (Image.flag b)).map (· != 0)
  cases b <;> exact read

/-- Of a chunk whose bytes are cut off the length exceeds those that are left. -/
theorem chunk {bytes : Bytes} (short : bytes.length < 2 ^ 32) : ReadsWhole readChunk (Image.chunk bytes) bytes := by
  refine ⟨.chunk short, (number (k := 4) short).cut_bind fun n cut => .inr ?_⟩
  have less : (bytes.take n).length < bytes.length := by rwa [List.length_take_of_le (Nat.le_of_lt cut)]
  show (if (bytes.take n).length < bytes.length then _ else Image.take bytes.length) (bytes.take n) = _
  rw [if_pos less]
  rfl

theorem text {s : String} (short : (Text.Utf8.encode s).length < 2 ^ 32) :
    ReadsWhole readText (Image.chunk (Text.Utf8.encode s)) s := by
  have read : ReadsWhole readText (Image.chunk (Text.Utf8.encode s) ++ []) s := by
    refine (chunk short).bind ?_
    rw [Text.Utf8.decode_encode]
    exact pure s
  rwa [List.append_nil] at read

theorem field {f : Field} (short : (Text.Utf8.encode f.name).length < 2 ^ 32) :
    ReadsWhole readField (fieldBytes f) f := by
  refine (text short).bind ((byte f.type.tag).bind ?_)
  rw [FieldType.ofTag?_tag]
  exact (flag f.identifier).map (Field.mk f.name f.type)

/-- Of items written one after the other a cut goes through one, and those before it are read. -/
theorem times {read : Reader α} {write : α → Bytes} {xs : List α}
    (each : ∀ x ∈ xs, ReadsWhole read (write x) x) : ReadsWhole (Image.times read xs.length) (xs.flatMap write) xs := by
  induction xs with
  | nil => exact pure []
  | cons x xs ih =>
    have others := ih fun y hy => each y (List.mem_cons_of_mem x hy)
    rw [List.flatMap_cons]
    exact (each x List.mem_cons_self).bind (others.map (x :: ·))

theorem record {r : Record} (short : ∀ cell ∈ r.cells, cell.length < 2 ^ 32) :
    ReadsWhole (readRecord r.width) (recordBytes r) r :=
  (times fun cell hc => chunk (short cell hc)).map Record.mk

theorem fragment {f : Fragment} (fits : Fits f) : ReadsWhole readFragment (ofFragment f) f := by
  have fields := times fun c hc => field (fits.names c hc)
  have records : ReadsWhole (Image.times (readRecord f.schema.width) f.rowCount) (f.records.flatMap recordBytes)
      f.records := by
    refine times fun r hr => ?_
    have read := record (fits.cells r hr)
    rwa [fits.records r hr] at read
  simp only [ofFragment, List.append_assoc]
  refine (take mark).bind ?_
  refine (byte version).bind ?_
  refine (text fits.name).bind ?_
  refine (flag f.temporary).bind ?_
  refine (number (k := 4) fits.width).bind ?_
  refine fields.bind ?_
  refine (number (k := 8) fits.rows).bind ?_
  exact records.map fun records => (⟨f.name, f.schema, records, f.temporary⟩ : Fragment)

end ReadsWhole

/-- No part of an image is read as a fragment: it is refused because it ends too early. -/
theorem toFragment_take {f : Fragment} (fits : Fits f) {n : Nat} (cut : n < (ofFragment f).length) :
    EndsEarly (toFragment ((ofFragment f).take n)) :=
  ((ReadsWhole.fragment fits).cut n cut).bind _

/-- Cut off just behind its first row, the image of two rows is not read as one row. -/
theorem toFragment_take_twoRows :
    let oneRow := { twoRows with records := twoRows.records.take 1 }
    Fits twoRows ∧ (ofFragment oneRow).length < (ofFragment twoRows).length ∧
      EndsEarly (toFragment ((ofFragment twoRows).take (ofFragment oneRow).length)) := by
  intro oneRow
  have fits : Fits twoRows := by constructor <;> decide +kernel
  have cut : (ofFragment oneRow).length < (ofFragment twoRows).length := by decide +kernel
  exact ⟨fits, cut, toFragment_take fits cut⟩

end FragmentEngine.Image
