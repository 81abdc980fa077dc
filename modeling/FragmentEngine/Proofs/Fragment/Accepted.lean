import FragmentEngine.Proofs.Fragment.Image
import FragmentEngine.Proofs.Outcome
/-!
# Accepted images

Bytes that are read as a fragment start with the image of that fragment, up to its flags: these are read from any
byte and written as zero or one. Each item therefore has exactly one accepted form, and whatever is accepted can be
written again.
-/

namespace FragmentEngine.Image

variable {α β : Type} {bytes rest : Bytes}

/-! ## Flags -/

/-- Bytes none of which is a flag. -/
def plain (bytes : Bytes) : List Bool := List.replicate bytes.length false

/-- The last byte of a column is a flag. -/
def fieldFlags (f : Field) : List Bool := plain (chunk (Text.Utf8.encode f.name)) ++ [false, true]

/-- Which bytes of an image are flags: the one behind the name and those of the columns. -/
def flags (f : Fragment) : List Bool :=
  plain mark ++ plain [version] ++ plain (chunk (Text.Utf8.encode f.name)) ++ [true] ++
    plain (Bytes.littleEndian 4 f.schema.width) ++ f.schema.fields.flatMap fieldFlags ++
    plain (Bytes.littleEndian 8 f.rowCount) ++ plain (f.records.flatMap recordBytes)

theorem length_plain (bytes : Bytes) : (plain bytes).length = bytes.length := List.length_replicate

theorem length_fieldFlags (f : Field) : (fieldFlags f).length = (fieldBytes f).length := by
  simp [fieldFlags, fieldBytes, length_plain]

/-- The list has an entry for every byte of the image. -/
theorem length_flags (f : Fragment) : (flags f).length = (ofFragment f).length := by
  simp only [flags, ofFragment, List.length_append, length_plain, List.length_flatMap, length_fieldFlags,
    List.length_singleton]

theorem plain_append (bytes bytes' : Bytes) : plain (bytes ++ bytes') = plain bytes ++ plain bytes' := by
  simp [plain, List.replicate_append_replicate]

theorem flatMap_plain (write : α → Bytes) (xs : List α) :
    (xs.flatMap fun x => plain (write x)) = plain (xs.flatMap write) := by
  induction xs with
  | nil => rfl
  | cons x xs ih => rw [List.flatMap_cons, List.flatMap_cons, plain_append, ih]

/-- A byte as it is written again. -/
def settle (isFlag : Bool) (b : UInt8) : UInt8 := if isFlag then flag (b != 0) else b

/-- The bytes are those of an image, with any form of the flags that are set. -/
def Settles (mask : List Bool) (bytes image : Bytes) : Prop :=
  bytes.length = mask.length ∧ List.zipWith settle mask bytes = image

namespace Settles

variable {mask mask' : List Bool} {front image image' : Bytes}

theorem length_eq (h : Settles mask front image) : image.length = front.length := by
  rw [← h.2, List.length_zipWith, h.1, Nat.min_self]

/-- Bytes without flags are those of the image. -/
theorem plain_iff : Settles (plain image) front image ↔ front = image := by
  have same (bytes : Bytes) : List.zipWith settle (plain bytes) bytes = bytes := by
    induction bytes with
    | nil => rfl
    | cons b bytes ih => exact congrArg (b :: ·) ih
  constructor
  · rintro ⟨hlength, h⟩
    rw [plain, List.length_replicate] at hlength
    rw [plain, ← hlength] at h
    exact (same front).symm.trans h
  · rintro rfl
    exact ⟨by simp [plain], same front⟩

theorem refl (image : Bytes) : Settles (plain image) image image := plain_iff.2 rfl

theorem flag_iff {x : Bool} : Settles [true] front [flag x] ↔ ∃ b, (b != 0) = x ∧ front = [b] := by
  have flag_inj {x y : Bool} : flag x = flag y ↔ x = y := by cases x <;> cases y <;> decide
  constructor
  · rintro ⟨hlength, h⟩
    obtain ⟨b, rfl⟩ := List.length_eq_one_iff.1 hlength
    exact ⟨b, flag_inj.1 (List.singleton_inj.1 h), rfl⟩
  · rintro ⟨b, rfl, rfl⟩
    exact ⟨rfl, rfl⟩

/-- What is written in two parts is accepted in two parts. -/
theorem append_iff (hmask : mask.length = image.length) :
    Settles (mask ++ mask') front (image ++ image') ↔
      ∃ first second, Settles mask first image ∧ Settles mask' second image' ∧ front = first ++ second := by
  constructor
  · rintro ⟨hlength, h⟩
    rw [List.length_append] at hlength
    have hfirst : (front.take mask.length).length = mask.length := List.length_take_of_le (by omega)
    rw [← List.take_append_drop mask.length front, List.zipWith_append hfirst.symm] at h
    obtain ⟨h, h'⟩ := List.append_inj h (by rw [List.length_zipWith, hfirst, Nat.min_self, hmask])
    exact ⟨_, _, ⟨hfirst, h⟩, ⟨by rw [List.length_drop]; omega, h'⟩, (List.take_append_drop _ _).symm⟩
  · rintro ⟨first, second, ⟨hfirst, rfl⟩, ⟨hsecond, rfl⟩, rfl⟩
    exact ⟨by simp [hfirst, hsecond], List.zipWith_append hfirst.symm⟩

/-- A part without flags, then others. -/
theorem plain_append_iff : Settles (plain image ++ mask') front (image ++ image') ↔
    ∃ second, Settles mask' second image' ∧ front = image ++ second := by
  rw [append_iff (length_plain image)]
  simp only [plain_iff, exists_and_left, exists_eq_left]

/-- A flag, then others. -/
theorem flag_append_iff {x : Bool} : Settles ([true] ++ mask') front ([flag x] ++ image') ↔
    ∃ b, (b != 0) = x ∧ ∃ second, Settles mask' second image' ∧ front = b :: second := by
  rw [append_iff rfl]
  simp only [flag_iff]
  constructor
  · rintro ⟨_, second, ⟨b, hb, rfl⟩, hsecond, rfl⟩
    exact ⟨b, hb, second, hsecond, rfl⟩
  · rintro ⟨b, hb, second, hsecond, rfl⟩
    exact ⟨[b], second, ⟨b, hb, rfl⟩, hsecond, rfl⟩

end Settles

/-! ## What the readers accept -/

theorem bind_eq_ok {read : Reader α} {next : α → Reader β} {y : β} :
    (read >>= next) bytes = .ok (y, rest) ↔
      ∃ x left, read bytes = .ok (x, left) ∧ next x left = .ok (y, rest) := by
  show (read bytes >>= fun p => next p.1 p.2) = _ ↔ _
  rw [Outcome.bind_eq_ok, Prod.exists]

theorem pure_eq_ok {x y : α} : (pure x : Reader α) bytes = .ok (y, rest) ↔ x = y ∧ bytes = rest := by
  show Except.ok (x, bytes) = _ ↔ _
  simp

theorem take_eq_ok {n : Nat} {front : Bytes} :
    take n bytes = .ok (front, rest) ↔ front.length = n ∧ bytes = front ++ rest := by
  constructor
  · intro h
    unfold take at h
    split at h
    · cases h
    · cases h
      exact ⟨List.length_take_of_le (by omega), (List.take_append_drop n bytes).symm⟩
  · rintro ⟨rfl, rfl⟩
    exact Reads.take front rest

theorem byte_eq_ok {b : UInt8} : byte bytes = .ok (b, rest) ↔ bytes = b :: rest := by
  cases bytes with
  | nil => simp [byte]
  | cons a bytes => simp [byte]

theorem number_eq_ok {k n : Nat} :
    number k bytes = .ok (n, rest) ↔ n < Nat.pow 256 k ∧ bytes = Bytes.littleEndian k n ++ rest := by
  constructor
  · intro h
    obtain ⟨front, left, hfront, h⟩ := bind_eq_ok.1 h
    obtain ⟨rfl, rfl⟩ := pure_eq_ok.1 h
    obtain ⟨rfl, rfl⟩ := take_eq_ok.1 hfront
    exact ⟨Bytes.toNat_lt front, by rw [Bytes.littleEndian_toNat]⟩
  · rintro ⟨small, rfl⟩
    exact Reads.number small rest

theorem readFlag_eq_ok {x : Bool} : readFlag bytes = .ok (x, rest) ↔ ∃ b, (b != 0) = x ∧ bytes = b :: rest := by
  unfold readFlag
  simp only [bind_eq_ok, pure_eq_ok, byte_eq_ok]
  constructor
  · rintro ⟨b, left, rfl, hx, rfl⟩
    exact ⟨b, hx, rfl⟩
  · rintro ⟨b, hx, rfl⟩
    exact ⟨b, rest, rfl, hx, rfl⟩

theorem readChunk_eq_ok {data : Bytes} :
    readChunk bytes = .ok (data, rest) ↔ data.length < 2 ^ 32 ∧ bytes = chunk data ++ rest := by
  constructor
  · intro hread
    obtain ⟨n, left, hn, h⟩ := bind_eq_ok.1 hread
    obtain ⟨small, rfl⟩ := number_eq_ok.1 hn
    have htake : take n left = .ok (data, rest) := by
      by_cases short : left.length < n
      · have h : (if left.length < n then _ else _ : Reader Bytes) left = .ok (data, rest) := h
        rw [if_pos short] at h
        cases h
      · have h : (if left.length < n then _ else take n : Reader Bytes) left = .ok (data, rest) := h
        rwa [if_neg short] at h
    obtain ⟨rfl, rfl⟩ := take_eq_ok.1 htake
    exact ⟨small, by rw [chunk, List.append_assoc]⟩
  · rintro ⟨short, rfl⟩
    exact Reads.chunk short rest

theorem readText_eq_ok {s : String} : readText bytes = .ok (s, rest) ↔
    (Text.Utf8.encode s).length < 2 ^ 32 ∧ bytes = chunk (Text.Utf8.encode s) ++ rest := by
  constructor
  · intro hread
    obtain ⟨data, left, hdata, h⟩ := bind_eq_ok.1 hread
    obtain ⟨short, rfl⟩ := readChunk_eq_ok.1 hdata
    cases htext : Text.Utf8.decode data with
    | error e =>
      rw [htext] at h
      cases h
    | ok text =>
      rw [htext] at h
      obtain ⟨rfl, rfl⟩ := pure_eq_ok.1 h
      rw [Text.Utf8.encode_of_decode htext]
      exact ⟨short, rfl⟩
  · rintro ⟨short, rfl⟩
    exact Reads.text short rest

/-! ## Items -/

/-- `read` takes off the front just the bytes that settle to what is written for a result that fits. -/
def Accepts (read : Reader α) (fits : α → Prop) (mask : α → List Bool) (write : α → Bytes) : Prop :=
  ∀ bytes rest x, read bytes = .ok (x, rest) ↔
    fits x ∧ ∃ front, Settles (mask x) front (write x) ∧ bytes = front ++ rest

theorem accepts_chunk :
    Accepts readChunk (fun data => data.length < 2 ^ 32) (fun data => plain (chunk data)) chunk := by
  intro bytes rest data
  simp only [readChunk_eq_ok, Settles.plain_iff, exists_eq_left]

theorem settles_field {f : Field} {front : Bytes} : Settles (fieldFlags f) front (fieldBytes f) ↔
    ∃ b, (b != 0) = f.identifier ∧ front = chunk (Text.Utf8.encode f.name) ++ [f.type.tag, b] := by
  have hparts : Settles (fieldFlags f) front (fieldBytes f) ↔ Settles
      (plain (chunk (Text.Utf8.encode f.name)) ++ (plain [f.type.tag] ++ [true])) front
      (chunk (Text.Utf8.encode f.name) ++ ([f.type.tag] ++ [flag f.identifier])) := Iff.rfl
  rw [hparts]
  simp only [Settles.plain_append_iff, Settles.flag_iff]
  constructor
  · rintro ⟨_, ⟨_, ⟨b, hb, rfl⟩, rfl⟩, rfl⟩
    exact ⟨b, hb, rfl⟩
  · rintro ⟨b, hb, rfl⟩
    exact ⟨_, ⟨_, ⟨b, hb, rfl⟩, rfl⟩, rfl⟩

theorem accepts_field :
    Accepts readField (fun f => (Text.Utf8.encode f.name).length < 2 ^ 32) fieldFlags fieldBytes := by
  intro bytes rest f
  simp only [settles_field]
  constructor
  · intro hread
    obtain ⟨name, left, hname, h⟩ := bind_eq_ok.1 hread
    obtain ⟨tag, left', htag, h⟩ := bind_eq_ok.1 h
    cases htype : FieldType.ofTag? tag with
    | none =>
      rw [htype] at h
      cases h
    | some type =>
      rw [htype] at h
      obtain ⟨x, left'', hx, h⟩ := bind_eq_ok.1 h
      obtain ⟨rfl, rfl⟩ := pure_eq_ok.1 h
      obtain ⟨b, hb, rfl⟩ := readFlag_eq_ok.1 hx
      obtain rfl := byte_eq_ok.1 htag
      obtain ⟨short, rfl⟩ := readText_eq_ok.1 hname
      exact ⟨short, _, ⟨b, hb, rfl⟩, by simp [FieldType.tag_eq_of_ofTag? htype]⟩
  · rintro ⟨short, _, ⟨b, hb, rfl⟩, rfl⟩
    rw [List.append_assoc]
    refine bind_eq_ok.2 ⟨_, _, readText_eq_ok.2 ⟨short, rfl⟩, bind_eq_ok.2 ⟨_, _, byte_eq_ok.2 rfl, ?_⟩⟩
    rw [FieldType.ofTag?_tag]
    exact bind_eq_ok.2 ⟨_, _, readFlag_eq_ok.2 ⟨b, hb, rfl⟩, rfl⟩

/-- Items one after the other, as many as asked for. -/
theorem times_eq_ok {read : Reader α} {fits : α → Prop} {mask : α → List Bool} {write : α → Bytes}
    (each : Accepts read fits mask write) (hmask : ∀ x, (mask x).length = (write x).length) {n : Nat} {xs : List α} :
    times read n bytes = .ok (xs, rest) ↔ xs.length = n ∧ (∀ x ∈ xs, fits x) ∧
      ∃ front, Settles (xs.flatMap mask) front (xs.flatMap write) ∧ bytes = front ++ rest := by
  induction n generalizing bytes xs with
  | zero =>
    simp only [times, pure_eq_ok, List.length_eq_zero_iff]
    constructor
    · rintro ⟨rfl, rfl⟩
      exact ⟨rfl, nofun, [], ⟨rfl, rfl⟩, rfl⟩
    · rintro ⟨rfl, -, front, ⟨hlength, -⟩, rfl⟩
      rw [List.length_eq_zero_iff.1 hlength]
      exact ⟨rfl, rfl⟩
  | succ n ih =>
    simp only [times, bind_eq_ok, pure_eq_ok]
    constructor
    · rintro ⟨x, left, hx, xs, left', hxs, rfl, rfl⟩
      obtain ⟨fit, front, hfront, rfl⟩ := (each _ _ _).1 hx
      obtain ⟨rfl, fits, front', hfront', rfl⟩ := ih.1 hxs
      refine ⟨rfl, List.forall_mem_cons.2 ⟨fit, fits⟩, front ++ front', ?_, by rw [List.append_assoc]⟩
      exact (Settles.append_iff (hmask x)).2 ⟨_, _, hfront, hfront', rfl⟩
    · rintro ⟨hlength, fits, front, hfront, rfl⟩
      cases xs with
      | nil => cases hlength
      | cons x xs =>
        obtain ⟨first, others, hfirst, hothers, rfl⟩ := (Settles.append_iff (hmask x)).1 hfront
        obtain ⟨fit, fits⟩ := List.forall_mem_cons.1 fits
        rw [List.append_assoc]
        exact ⟨x, _, (each _ _ _).2 ⟨fit, _, hfirst, rfl⟩, xs, rest,
          ih.2 ⟨Nat.succ.inj hlength, fits, _, hothers, rfl⟩, rfl, rfl⟩

theorem accepts_record (width : Nat) :
    Accepts (readRecord width) (fun r => r.width = width ∧ ∀ cell ∈ r.cells, cell.length < 2 ^ 32)
      (fun r => plain (recordBytes r)) recordBytes := by
  intro bytes rest r
  unfold readRecord
  simp only [bind_eq_ok, pure_eq_ok, times_eq_ok accepts_chunk fun data => length_plain (chunk data), flatMap_plain]
  constructor
  · rintro ⟨cells, left, ⟨hwidth, short, front, hfront, rfl⟩, rfl, rfl⟩
    exact ⟨⟨hwidth, short⟩, front, hfront, rfl⟩
  · rintro ⟨⟨hwidth, short⟩, front, hfront, rfl⟩
    exact ⟨r.cells, rest, ⟨hwidth, short, front, hfront, rfl⟩, rfl, rfl⟩

/-! ## Fragments -/

theorem settles_fragment {f : Fragment} {front : Bytes} : Settles (flags f) front (ofFragment f) ↔
    ∃ b, (b != 0) = f.temporary ∧
      ∃ columns, Settles (f.schema.fields.flatMap fieldFlags) columns (f.schema.fields.flatMap fieldBytes) ∧
        front = mark ++ ([version] ++ (chunk (Text.Utf8.encode f.name) ++ (b ::
          (Bytes.littleEndian 4 f.schema.width ++ (columns ++
            (Bytes.littleEndian 8 f.rowCount ++ f.records.flatMap recordBytes)))))) := by
  have hfields : (f.schema.fields.flatMap fieldFlags).length = (f.schema.fields.flatMap fieldBytes).length := by
    simp only [List.length_flatMap, length_fieldFlags]
  simp only [flags, ofFragment, List.append_assoc, Settles.plain_append_iff, Settles.flag_append_iff,
    Settles.append_iff hfields, Settles.plain_iff]
  constructor
  · rintro ⟨_, ⟨_, ⟨_, ⟨b, hb, _, ⟨_, ⟨columns, _, hcolumns, ⟨_, rfl, rfl⟩, rfl⟩, rfl⟩, rfl⟩, rfl⟩, rfl⟩, rfl⟩
    exact ⟨b, hb, columns, hcolumns, rfl⟩
  · rintro ⟨b, hb, columns, hcolumns, rfl⟩
    exact ⟨_, ⟨_, ⟨_, ⟨b, hb, _, ⟨_, ⟨columns, _, hcolumns, ⟨_, rfl, rfl⟩, rfl⟩, rfl⟩, rfl⟩, rfl⟩, rfl⟩, rfl⟩

/-- Each item that is read was written, or is another form of a flag. -/
theorem settles_of_readFragment {f : Fragment} (h : readFragment bytes = .ok (f, rest)) :
    Fits f ∧ ∃ front, Settles (flags f) front (ofFragment f) ∧ bytes = front ++ rest := by
  simp only [settles_fragment]
  obtain ⟨front, _, hmark, h⟩ := bind_eq_ok.1 h
  by_cases hfront : front = mark
  case neg =>
    rw [if_pos hfront] at h
    cases h
  subst hfront
  obtain ⟨v, _, hversion, h⟩ := bind_eq_ok.1 h
  by_cases hv : v = version
  case neg =>
    rw [if_pos hv] at h
    cases h
  subst hv
  obtain ⟨name, _, hname, h⟩ := bind_eq_ok.1 h
  obtain ⟨temporary, _, htemporary, h⟩ := bind_eq_ok.1 h
  obtain ⟨width, _, hwidth, h⟩ := bind_eq_ok.1 h
  obtain ⟨fields, _, hfields, h⟩ := bind_eq_ok.1 h
  obtain ⟨rows, _, hrows, h⟩ := bind_eq_ok.1 h
  obtain ⟨records, _, hrecords, h⟩ := bind_eq_ok.1 h
  obtain ⟨rfl, rfl⟩ := pure_eq_ok.1 h
  -- each item names the bytes that the one before it left
  obtain ⟨hcount, hrecord, _, hall, rfl⟩ := (times_eq_ok (accepts_record width) fun r => length_plain _).1 hrecords
  rw [flatMap_plain, Settles.plain_iff] at hall
  obtain ⟨fewRows, rfl⟩ := number_eq_ok.1 hrows
  obtain ⟨rfl, hnames, columns, hcolumns, rfl⟩ := (times_eq_ok accepts_field length_fieldFlags).1 hfields
  obtain ⟨narrow, rfl⟩ := number_eq_ok.1 hwidth
  obtain ⟨b, hb, rfl⟩ := readFlag_eq_ok.1 htemporary
  obtain ⟨short, rfl⟩ := readText_eq_ok.1 hname
  obtain rfl := byte_eq_ok.1 hversion
  obtain ⟨-, rfl⟩ := take_eq_ok.1 hmark
  subst hall hcount
  refine ⟨⟨short, narrow, hnames, fun r hr => (hrecord r hr).1, fun r hr => (hrecord r hr).2, fewRows⟩, _,
    ⟨b, hb, columns, hcolumns, rfl⟩, ?_⟩
  simp only [List.append_assoc, List.cons_append]
  rfl

/-- Each item is read as it was written, also in another form of a flag. -/
theorem readFragment_settled {f : Fragment} {front : Bytes} (fits : Fits f)
    (h : Settles (flags f) front (ofFragment f)) : readFragment (front ++ rest) = .ok (f, rest) := by
  obtain ⟨b, hb, columns, hcolumns, rfl⟩ := settles_fragment.1 h
  simp only [List.append_assoc]
  refine bind_eq_ok.2 ⟨_, _, take_eq_ok.2 ⟨rfl, rfl⟩, ?_⟩
  refine bind_eq_ok.2 ⟨_, _, byte_eq_ok.2 rfl, ?_⟩
  refine bind_eq_ok.2 ⟨_, _, readText_eq_ok.2 ⟨fits.name, rfl⟩, ?_⟩
  refine bind_eq_ok.2 ⟨_, _, readFlag_eq_ok.2 ⟨b, hb, List.cons_append⟩, ?_⟩
  simp only [List.append_assoc]
  refine bind_eq_ok.2 ⟨_, _, number_eq_ok.2 ⟨fits.width, rfl⟩, ?_⟩
  refine bind_eq_ok.2 ⟨_, _, (times_eq_ok accepts_field length_fieldFlags).2
    ⟨rfl, fits.names, columns, hcolumns, rfl⟩, ?_⟩
  refine bind_eq_ok.2 ⟨_, _, number_eq_ok.2 ⟨fits.rows, rfl⟩, ?_⟩
  refine bind_eq_ok.2 ⟨f.records, rest, (times_eq_ok (accepts_record _) fun r => length_plain _).2
    ⟨rfl, fun r hr => ⟨fits.records r hr, fits.cells r hr⟩, f.records.flatMap recordBytes, ?_, rfl⟩, ?_⟩
  · rw [flatMap_plain]
    exact .refl _
  · rfl

/-- A fragment that fits is read from its image and from the forms that differ in flags that are set, and from
nothing else. -/
theorem accepts_fragment : Accepts readFragment Fits flags ofFragment := by
  intro bytes rest f
  constructor
  · exact settles_of_readFragment
  · rintro ⟨fits, front, hfront, rfl⟩
    exact readFragment_settled fits hfront

theorem toFragment_eq_ok {f : Fragment} : toFragment bytes = .ok f ↔
    Fits f ∧ ∃ front, Settles (flags f) front (ofFragment f) ∧ ∃ rest, bytes = front ++ rest := by
  constructor
  · intro h
    obtain ⟨⟨f, rest⟩, hread, rfl⟩ := Outcome.map_eq_ok.1 (show (readFragment bytes).map Prod.fst = _ from h)
    obtain ⟨fits, front, hfront, rfl⟩ := (accepts_fragment _ _ _).1 hread
    exact ⟨fits, front, hfront, rest, rfl⟩
  · rintro ⟨fits, front, hfront, rest, rfl⟩
    show (readFragment (front ++ rest)).map Prod.fst = _
    rw [(accepts_fragment _ _ _).2 ⟨fits, front, hfront, rfl⟩]
    rfl

/-- The image of what was read is no longer than what it was read from, gives the same fragment and differs from the
bytes in its place only where they have another form of a flag that is set. -/
theorem ofFragment_of_toFragment {f : Fragment} (h : toFragment bytes = .ok f) :
    (ofFragment f).length ≤ bytes.length ∧ toFragment (ofFragment f) = .ok f ∧
      ∀ (place : Nat) (b : UInt8), (ofFragment f)[place]? = some b → bytes[place]? = some b ∨
        (flags f)[place]? = some true ∧ b = 1 ∧ ∃ a, a ≠ 0 ∧ bytes[place]? = some a := by
  obtain ⟨fits, front, hfront, rest, rfl⟩ := toFragment_eq_ok.1 h
  have hlength : (ofFragment f).length = front.length := hfront.length_eq
  refine ⟨by simp [hlength], ?_, fun place b hb => ?_⟩
  · have read := Reads.fragment fits []
    rw [List.append_nil] at read
    show (readFragment (ofFragment f)).map Prod.fst = _
    rw [read]
    rfl
  · rw [← hfront.2] at hb
    obtain ⟨isFlag, a, hflag, ha, hsettle⟩ := List.getElem?_zipWith_eq_some.1 hb
    have ha' : (front ++ rest)[place]? = some a := by
      rw [List.getElem?_append_left (List.getElem?_eq_some_iff.1 ha).1, ha]
    cases isFlag with
    | false => exact .inl (by rw [ha', ← hsettle]; rfl)
    | true =>
      by_cases zero : a = 0
      · subst zero
        exact .inl (by rw [ha', ← hsettle]; rfl)
      · have hone : settle true a = 1 := by simp [settle, flag, zero]
        exact .inr ⟨hflag, hsettle.symm.trans hone, a, zero, ha'⟩

/-- Two rows written with other forms of both flags that are set, and bytes behind the last row. -/
def looseTwoRows : Bytes :=
  mark ++ [version] ++ chunk (Text.Utf8.encode "größe") ++ [7] ++ Bytes.littleEndian 4 2 ++
    chunk (Text.Utf8.encode "id") ++ [1, 255] ++ chunk (Text.Utf8.encode "raw") ++ [4, 0] ++
    Bytes.littleEndian 8 2 ++ twoRows.records.flatMap recordBytes ++ [1, 2, 3]

theorem ofFragment_looseTwoRows : toFragment looseTwoRows = .ok twoRows ∧
    (ofFragment twoRows).length ≤ looseTwoRows.length ∧ toFragment (ofFragment twoRows) = .ok twoRows ∧
      ∀ (place : Nat) (b : UInt8), (ofFragment twoRows)[place]? = some b → looseTwoRows[place]? = some b ∨
        (flags twoRows)[place]? = some true ∧ b = 1 ∧ ∃ a, a ≠ 0 ∧ looseTwoRows[place]? = some a := by
  have read : toFragment looseTwoRows = .ok twoRows := by decide +kernel
  exact ⟨read, ofFragment_of_toFragment read⟩

end FragmentEngine.Image
