import FragmentEngine.Proofs.Fragment.WellFormed
import FragmentEngine.Proofs.Text.Blank
import FragmentEngine.Proofs.Text.Run
/-!
# Imported rows

What an import holds of a text: the lines that become rows, the words that a line is read as, the columns that are kept
of it, and the identifiers, which are counted up. The count has no number to go on with behind the greatest long, and
a further row overflows there however good its line is.
-/

namespace FragmentEngine

/-! ## Words -/

namespace Text

variable {p : Char → Bool} {gap run rest part : List Char} {parts : List (List Char)}

/-- The runs without a character of `p` that are not empty. -/
def runs (p : Char → Bool) (cs : List Char) : List (List Char) := (splitAll p cs).filter (!·.isEmpty)

theorem runs_gap (h : ∀ c ∈ gap, p c = true) : runs p (gap ++ rest) = runs p rest := by
  induction gap with
  | nil => rfl
  | cons c gap ih =>
    rw [List.forall_mem_cons] at h
    rw [← ih h.2, runs, List.cons_append, splitAll, if_pos h.1]
    rfl

theorem splitAll_run (h : ∀ c ∈ run, p c = false) (split : splitAll p rest = part :: parts) :
    splitAll p (run ++ rest) = (run ++ part) :: parts := by
  induction run with
  | nil => exact split
  | cons c run ih =>
    rw [List.forall_mem_cons] at h
    rw [List.cons_append, splitAll, if_neg (ne_true_of_eq_false h.1), ih h.2]
    rfl

/-- A run is the first one if a character of `p` follows or nothing. -/
theorem runs_run (filled : run ≠ []) (h : ∀ c ∈ run, p c = false) (ends : ∀ c ∈ rest.head?, p c = true) :
    runs p (run ++ rest) = run :: runs p rest := by
  obtain ⟨parts, split⟩ : ∃ parts, splitAll p rest = [] :: parts := by
    cases rest with
    | nil => exact ⟨[], rfl⟩
    | cons c rest => exact ⟨splitAll p rest, by rw [splitAll, if_pos (ends c rfl)]⟩
  rw [runs, runs, splitAll_run h split, split, List.append_nil]
  simp [filled]

end Text

/-- The numbers that a dimension selects, at least one: those from its first column, but not from before column 1, to
its last one, or to the end of the line. -/
def Dimension.Selects (d : Dimension) (xs kept : List Binary64) : Prop :=
  kept ≠ [] ∧ ∃ before after, xs = before ++ (kept ++ after) ∧ (before.length + 1 : Int) = max d.start.toInt 1 ∧
    if d.stop.toInt ≤ 0 then after = [] else (before.length + kept.length : Int) = d.stop.toInt

namespace Import

variable {r : Import} {text : String} {line : List Char} {xs kept : List Binary64}

/-- Commas and blanks stand between numbers. -/
def separates (c : Char) : Bool := c == ',' || Text.isBlank c

/-- A line consists of words, with separators around and between them. -/
inductive Spells : List (List Char) → List Char → Prop where
  | nothing {gap : List Char} (apart : ∀ c ∈ gap, separates c = true) : Spells [] gap
  | word {gap word rest : List Char} {words : List (List Char)} (apart : ∀ c ∈ gap, separates c = true)
      (filled : word ≠ []) (solid : ∀ c ∈ word, separates c = false) (ends : ∀ c ∈ rest.head?, separates c = true)
      (others : Spells words rest) : Spells (word :: words) (gap ++ (word ++ rest))

theorem runs_of_spells {words : List (List Char)} (h : Spells words line) : Text.runs separates line = words := by
  induction h with
  | @nothing gap apart =>
    rw [← List.append_nil gap, Text.runs_gap apart]
    rfl
  | word apart filled solid ends _ ih => rw [Text.runs_gap apart, Text.runs_run filled solid ends, ih]

/-- A separator in front of a line stands between no words. -/
theorem Spells.separator {words : List (List Char)} {c : Char} (h : Spells words line) (apart : separates c = true) :
    Spells words (c :: line) := by
  cases h with
  | nothing others => exact .nothing (List.forall_mem_cons.2 ⟨apart, others⟩)
  | @word gap _ _ _ others filled solid ends rest =>
    exact @Spells.word (c :: gap) _ _ _ (List.forall_mem_cons.2 ⟨apart, others⟩) filled solid ends rest

/-- Any other character in front of a line is a word of its own, or the first one grows. -/
theorem Spells.letter {words : List (List Char)} {c : Char} (h : Spells words line) (solid : separates c = false) :
    ∃ words, Spells words (c :: line) := by
  have alone : ∀ d ∈ [c], separates d = false := fun d mem => by rwa [List.mem_singleton.1 mem]
  by_cases ends : ∀ d ∈ line.head?, separates d = true
  · exact ⟨[c] :: words, @Spells.word [] _ _ _ nofun (List.cons_ne_nil c []) alone ends h⟩
  · cases h with
    | @nothing gap apart => exact absurd (fun d mem => apart d (List.mem_of_mem_head? mem)) ends
    | @word gap word rest words apart _ others next more =>
      cases gap with
      | nil =>
        exact ⟨(c :: word) :: words, @Spells.word [] _ _ _ nofun (List.cons_ne_nil c word)
          (List.forall_mem_cons.2 ⟨solid, others⟩) next more⟩
      | cons d gap =>
        refine absurd (fun e mem => ?_) ends
        rw [← Option.some.inj mem]
        exact apart d List.mem_cons_self

/-- Every line consists of words. -/
theorem exists_spells (line : List Char) : ∃ words, Spells words line := by
  induction line with
  | nil => exact ⟨[], .nothing nofun⟩
  | cons c line ih =>
    obtain ⟨words, spells⟩ := ih
    cases kind : separates c with
    | true => exact ⟨words, spells.separator kind⟩
    | false => exact spells.letter kind

theorem spells_iff {words : List (List Char)} : Spells words line ↔ Text.runs separates line = words := by
  refine ⟨runs_of_spells, fun h => ?_⟩
  obtain ⟨words', spells⟩ := exists_spells line
  rw [← h, runs_of_spells spells]
  exact spells

/-! ## Lines -/

/-- The words of a line are numbers. -/
def Reads (line : List Char) (xs : List Binary64) : Prop :=
  ∃ words, Spells words line ∧ List.Forall₂ (fun word x => Decimal.double? word = some x) words xs

theorem numbers_eq_ok {n : Nat} : numbers n line = .ok xs ↔ Reads line xs := by
  refine Outcome.mapM_eq_ok.trans ⟨fun h => ⟨_, spells_iff.2 rfl, h.imp fun word x read => ?_⟩, ?_⟩
  · split at read
    next found =>
      cases read
      exact found
    · cases read
  · rintro ⟨words, spells, h⟩
    cases spells_iff.1 spells
    exact h.imp fun word x read => by rw [read]

theorem columns_eq_ok {d : Dimension} : columns xs (some d) = .ok kept ↔ d.Selects xs kept := by
  unfold columns Dimension.Selects
  dsimp only
  generalize first : max d.start.toInt 1 = a
  generalize last : (if d.stop.toInt ≤ 0 then (xs.length : Int) else d.stop.toInt) = b
  have pos : 1 ≤ a := by omega
  constructor
  · intro h
    split at h
    · cases h
    next inside =>
      cases h
      refine ⟨?_, xs.take (a.toNat - 1), xs.drop b.toNat, ?_, ?_, ?_⟩
      · rw [← List.length_pos_iff, List.length_drop, List.length_take]
        omega
      · rw [← List.append_assoc]
        nth_rewrite 1 [← List.take_append_drop b.toNat xs]
        congr 1
        nth_rewrite 1 [← List.take_append_drop (a.toNat - 1) (xs.take b.toNat)]
        rw [List.take_take, Nat.min_eq_left (by omega)]
      · rw [List.length_take]
        omega
      · split at last
        · rw [if_pos ‹_›, List.drop_eq_nil_iff]
          omega
        · rw [if_neg ‹_›, List.length_drop, List.length_take, List.length_take]
          omega
  · rintro ⟨filled, before, after, rfl, start, stop⟩
    have some := List.length_pos_iff.2 filled
    have ends : b = before.length + kept.length := by
      split at stop
      · rw [if_pos ‹_›, stop] at last
        simp only [List.length_append, List.length_nil] at last
        omega
      · rw [if_neg ‹_›] at last
        omega
    rw [if_neg (by simp only [List.length_append]; omega), ← List.append_assoc,
      List.take_left' (by rw [List.length_append]; omega), List.drop_left' (by omega)]

/-- The numbers that are kept of a line. -/
def Keeps (r : Import) (line : List Char) (kept : List Binary64) : Prop :=
  ∃ xs, Reads line xs ∧
    match r.dimensions.head? with
    | none => kept = xs
    | some d => d.Selects xs kept

theorem keeps_iff (n : Nat) :
    r.Keeps line kept ↔ ∃ xs, numbers n line = .ok xs ∧ columns xs r.dimensions.head? = .ok kept := by
  refine exists_congr fun xs => and_congr numbers_eq_ok.symm ?_
  cases r.dimensions.head? with
  | none => simp [columns, eq_comm]
  | some d => exact columns_eq_ok.symm

/-! ## Rows -/

/-- The bytes are groups of eight, of which each is a number, its least significant byte first. -/
def Packs (bytes : Bytes) (xs : List Binary64) : Prop :=
  bytes.length = 8 * xs.length ∧
    ∀ j x, xs[j]? = some x → Bytes.toNat ((bytes.drop (8 * j)).take 8) = x.bits.toNat

theorem packs_pack (xs : List Binary64) : Packs (pack xs) xs := by
  induction xs with
  | nil => exact ⟨rfl, nofun⟩
  | cons x xs ih =>
    obtain ⟨length, groups⟩ := ih
    have split : pack (x :: xs) = x.toBytes ++ pack xs := List.flatMap_cons
    refine ⟨?_, fun j y at_j => ?_⟩
    · rw [split, List.length_append, x.length_toBytes, length, List.length_cons]
      omega
    · cases j with
      | zero =>
        cases at_j
        rw [split, Nat.mul_zero, List.drop_zero, List.take_left' x.length_toBytes]
        exact Bytes.toNat_littleEndian x.bits.toNat_lt
      | succ j =>
        rw [split, show 8 * (j + 1) = x.toBytes.length + 8 * j by rw [x.length_toBytes]; omega,
          List.drop_length_add_append]
        exact groups j y at_j

/-- The record of a line and its place among the lines. -/
def record (r : Import) (row : List Char × Nat) : Except Error Record := do
  Record.ofValues (schema r.measure).types (← r.row row.2 row.1)

/-- A line becomes a record if it has numbers to keep and the count still is a long. -/
theorem record_eq_ok {i : Nat} {c : Record} : r.record (line, i) = .ok c ↔
    ∃ kept id, r.Keeps line kept ∧ id.toInt = r.firstId.toInt + i ∧ c = ⟨[Long.toBytes id, pack kept]⟩ := by
  unfold record row
  constructor
  · intro h
    obtain ⟨values, h, made⟩ := Outcome.bind_eq_ok.1 h
    obtain ⟨xs, hxs, h⟩ := Outcome.bind_eq_ok.1 h
    obtain ⟨kept, hkept, h⟩ := Outcome.bind_eq_ok.1 h
    split at h
    next id counted =>
      cases h
      cases made
      exact ⟨kept, id, (keeps_iff _).2 ⟨xs, hxs, hkept⟩, Long.ofInt?_eq_some counted, rfl⟩
    · cases h
  · rintro ⟨kept, id, keeps, counted, rfl⟩
    obtain ⟨xs, hxs, hkept⟩ := (keeps_iff (i + 1)).1 keeps
    simp only [hxs, hkept, Outcome.ok_bind, ← counted, Long.ofInt?_toInt]
    rfl

theorem exists_record {i : Nat} : (∃ c, r.record (line, i) = .ok c) ↔
    (∃ kept, r.Keeps line kept) ∧ r.firstId.toInt + i ≤ Long.greatest := by
  simp only [record_eq_ok]
  constructor
  · rintro ⟨-, kept, id, keeps, counted, rfl⟩
    exact ⟨⟨kept, keeps⟩, counted ▸ id.toInt_le_greatest⟩
  · rintro ⟨⟨kept, keeps⟩, most⟩
    have least := r.firstId.least_le_toInt
    exact ⟨_, kept, Int64.ofInt (r.firstId.toInt + i), keeps, Long.ofInt?_eq_some (if_pos ⟨by omega, most⟩), rfl⟩

theorem numbers_fails (n : Nat) (line : List Char) : Outcome.FailsOnly (· ≠ .overflow) (numbers n line) := by
  refine .mapM fun word _ => ?_
  split
  · exact .ok _
  · exact .error nofun

theorem columns_fails (xs : List Binary64) (d : Option Dimension) :
    Outcome.FailsOnly (· ≠ .overflow) (columns xs d) := by
  cases d with
  | none => exact .ok _
  | some d =>
    unfold columns
    dsimp only
    generalize (if d.stop.toInt ≤ 0 then (xs.length : Int) else d.stop.toInt) = last
    split
    · exact .error nofun
    · exact .ok _

/-- A line overflows if it has numbers to keep and the count has left the longs. -/
theorem record_eq_overflow {i : Nat} : r.record (line, i) = .error .overflow ↔
    (∃ kept, r.Keeps line kept) ∧ Long.greatest < r.firstId.toInt + i := by
  have least := r.firstId.least_le_toInt
  unfold record row
  constructor
  · intro h
    rcases Outcome.bind_eq_error.1 h with h | ⟨values, h, made⟩
    · rcases Outcome.bind_eq_error.1 h with h | ⟨xs, hxs, h⟩
      · exact absurd rfl (numbers_fails _ _ _ h)
      rcases Outcome.bind_eq_error.1 h with h | ⟨kept, hkept, h⟩
      · exact absurd rfl (columns_fails _ _ _ h)
      refine ⟨⟨kept, (keeps_iff _).2 ⟨xs, hxs, hkept⟩⟩, ?_⟩
      by_contra most
      rw [Long.ofInt?, if_pos ⟨by omega, by omega⟩] at h
      cases h
    · obtain ⟨xs, -, h⟩ := Outcome.bind_eq_ok.1 h
      obtain ⟨kept, -, h⟩ := Outcome.bind_eq_ok.1 h
      split at h <;> cases h
      cases made
  · rintro ⟨⟨kept, keeps⟩, beyond⟩
    obtain ⟨xs, hxs, hkept⟩ := (keeps_iff (i + 1)).1 keeps
    have none : Long.ofInt? (r.firstId.toInt + i) = none := if_neg fun bounds => by omega
    simp only [hxs, hkept, Outcome.ok_bind, none]
    rfl

/-- The rows of an import are made one by one and put behind each other. -/
theorem foldlM_pushValues (rows : List (List Char × Nat)) {f : Fragment} (h : f.schema = schema r.measure) :
    rows.foldlM (fun f (line, i) => do f.pushValues (← r.row i line)) f =
      (rows.mapM r.record).map fun records => { f with records := f.records ++ records } := by
  induction rows generalizing f with
  | nil => simp [pure, Except.pure, Except.map]
  | cons row rest ih =>
    obtain ⟨line, i⟩ := row
    have step : (do f.pushValues (← r.row i line)) =
        (r.record (line, i)).map fun c => { f with records := f.records ++ [c] } := by
      unfold record
      cases r.row i line with
      | error e => rfl
      | ok values =>
        rw [Outcome.ok_bind, Outcome.ok_bind, Fragment.pushValues, h]
        cases Record.ofValues (schema r.measure).types values <;> rfl
    rw [List.foldlM_cons, List.mapM_cons]
    refine (congrArg (· >>= _) step).trans ?_
    cases r.record (line, i) with
    | error e => rfl
    | ok c =>
      refine (ih (f := { f with records := f.records ++ [c] }) h).trans ?_
      rw [Outcome.ok_bind]
      cases rest.mapM r.record with
      | error e => rfl
      | ok records => exact congrArg (fun l => Except.ok { f with records := l }) (List.append_cons ..).symm

/-! ## Imports -/

/-- The lines with more than blanks. -/
def rowLines (text : String) : List (List Char) := (Text.lines text.toList).filter (·.any (!Text.isBlank ·))

/-- How many rows are wanted: as many as there are lines for them, if no number is given. -/
def wanted (r : Import) (text : String) : Nat := r.rowCount.getD (rowLines text).length

/-- There is a line `i`, and it has numbers to keep. -/
def Readable (r : Import) (text : String) (i : Nat) : Prop :=
  ∃ line kept, (rowLines text)[i]? = some line ∧ r.Keeps line kept

theorem filledLines_eq (text : String) : filledLines text = rowLines text := by
  refine List.filter_congr fun line _ => ?_
  rw [Bool.eq_iff_iff, Bool.not_eq_true', List.isEmpty_eq_false_iff, List.any_eq_true]
  constructor
  · intro filled
    by_contra blank
    push Not at blank
    exact filled (@Text.trim_append_blank [] _ fun c mem => by simpa using blank c mem)
  · rintro ⟨c, mem, filled⟩ nothing
    have blank := Text.trim_eq_nil nothing c mem
    simp [blank] at filled

theorem wantedLines_eq (r : Import) (text : String) : r.wantedLines text = (rowLines text).take (r.wanted text) := by
  unfold wantedLines wanted
  rw [filledLines_eq]
  cases r.rowCount with
  | none => exact List.take_length.symm
  | some n => rfl

/-- A fragment is what an import comes to. -/
structure Holds (r : Import) (text : String) (f : Fragment) : Prop where
  name : f.name = r.measure
  columns : f.schema = schema r.measure
  rowCount : f.rowCount = r.wanted text
  row : ∀ i < f.rowCount, ∃ line kept id bytes, (rowLines text)[i]? = some line ∧ r.Keeps line kept ∧
    id.toInt = r.firstId.toInt + i ∧ Packs bytes kept ∧
    f.value i 0 = .ok (.long id) ∧ f.value i 1 = .ok (.binary bytes)

/-- An import takes the wanted lines with their places, and has a record for each or falls short. -/
theorem ofText_eq (r : Import) (text : String) : r.ofText text =
    (((rowLines text).take (r.wanted text)).zipIdx.mapM r.record >>= fun records =>
      if records.length < r.wanted text then
        .error (.store (.sourceTooShort r.source records.length (r.wanted text)))
      else .ok ⟨r.measure, schema r.measure, records, false⟩) := by
  unfold ofText
  rw [wantedLines_eq, foldlM_pushValues _ rfl]
  cases made : ((rowLines text).take (r.wanted text)).zipIdx.mapM r.record with
  | error e => rfl
  | ok records =>
    have length := (Outcome.mapM_eq_ok.1 made).length_eq
    rw [List.length_zipIdx, List.length_take] at length
    unfold wanted at length ⊢
    cases limit : r.rowCount with
    | none =>
      rw [limit, Option.getD_none] at length
      rw [Option.getD_none, Outcome.ok_bind, if_neg (by omega)]
      rfl
    | some n =>
      rw [Option.getD_some, Outcome.ok_bind]
      change (if records.length < n then _ else _) = _
      rfl

theorem getElem?_rows {lines : List (List Char)} {n i : Nat} {row : List Char × Nat} :
    (lines.take n).zipIdx[i]? = some row ↔ i < n ∧ lines[i]? = some row.1 ∧ row.2 = i := by
  obtain ⟨line, j⟩ := row
  rw [List.getElem?_zipIdx, List.getElem?_take]
  by_cases less : i < n
  · rw [if_pos less, Option.map_eq_some_iff]
    simp [less, eq_comm]
  · simp [less]

/-- The records of an import, if there are as many as are wanted. -/
theorem ofText_eq_ok {f : Fragment} : r.ofText text = .ok f ↔ ∃ records,
    f = ⟨r.measure, schema r.measure, records, false⟩ ∧ records.length = r.wanted text ∧
      ((rowLines text).take (r.wanted text)).zipIdx.mapM r.record = .ok records := by
  rw [ofText_eq, Outcome.bind_eq_ok]
  refine exists_congr fun records => ?_
  constructor
  · rintro ⟨made, h⟩
    have length := (Outcome.mapM_eq_ok.1 made).length_eq
    rw [List.length_zipIdx, List.length_take] at length
    split at h
    · cases h
    · cases h
      exact ⟨rfl, by omega, made⟩
  · rintro ⟨rfl, length, made⟩
    exact ⟨made, by rw [if_neg (by omega)]⟩

theorem holds_of_ofText {f : Fragment} (h : r.ofText text = .ok f) : r.Holds text f := by
  obtain ⟨records, rfl, length, made⟩ := ofText_eq_ok.1 h
  refine ⟨rfl, rfl, length, fun i less => ?_⟩
  obtain ⟨⟨line, j⟩, c, found, stored, read⟩ | ⟨-, none⟩ := Outcome.getElem?_of_forall₂ (Outcome.mapM_eq_ok.1 made) i
  · obtain ⟨-, here, rfl⟩ := getElem?_rows.1 found
    obtain ⟨kept, id, keeps, counted, rfl⟩ := record_eq_ok.1 read
    refine ⟨line, kept, id, pack kept, here, keeps, counted, packs_pack kept, ?_, ?_⟩
    · rw [Fragment.value, stored]
      exact Cell.decode_of_encode (v := .long id) rfl
    · rw [Fragment.value, stored]
      rfl
  · exact absurd less (Nat.not_lt_of_le (List.getElem?_eq_none_iff.1 none))

theorem exists_ofText : (∃ f, r.ofText text = .ok f) ↔
    ∀ i < r.wanted text, r.Readable text i ∧ r.firstId.toInt + i ≤ Long.greatest := by
  constructor
  · rintro ⟨f, made⟩ i less
    have holds := holds_of_ofText made
    obtain ⟨line, kept, id, bytes, here, keeps, counted, -⟩ := holds.row i (holds.rowCount ▸ less)
    exact ⟨⟨line, kept, here, keeps⟩, counted ▸ id.toInt_le_greatest⟩
  · intro h
    obtain ⟨records, made⟩ : ∃ records,
        ((rowLines text).take (r.wanted text)).zipIdx.mapM r.record = .ok records := by
      refine Outcome.mapM_total fun row mem => ?_
      obtain ⟨i, found⟩ := List.getElem?_of_mem mem
      obtain ⟨less, here, same⟩ := getElem?_rows.1 found
      obtain ⟨⟨line, kept, here', keeps⟩, most⟩ := h i less
      cases here.symm.trans here'
      rw [← same] at most
      exact exists_record.2 ⟨⟨kept, keeps⟩, most⟩
    refine ⟨_, ofText_eq_ok.2 ⟨records, rfl, ?_, made⟩⟩
    have enough : r.wanted text ≤ (rowLines text).length := by
      by_contra short
      obtain ⟨⟨line, kept, here, -⟩, -⟩ := h (rowLines text).length (by omega)
      rw [List.getElem?_eq_none (Nat.le_refl _)] at here
      cases here
    rw [← (Outcome.mapM_eq_ok.1 made).length_eq, List.length_zipIdx, List.length_take, Nat.min_eq_left enough]

/-- An import overflows if its count gets behind the greatest long before any line fails. -/
theorem ofText_eq_overflow : r.ofText text = .error .overflow ↔ ∃ i < r.wanted text,
    r.firstId.toInt + i = Long.greatest + 1 ∧ ∀ j ≤ i, r.Readable text j := by
  have made : r.ofText text = .error .overflow ↔
      ((rowLines text).take (r.wanted text)).zipIdx.mapM r.record = .error .overflow := by
    rw [ofText_eq, Outcome.bind_eq_error, or_iff_left]
    rintro ⟨records, -, h⟩
    split at h <;> cases h
  rw [made, Outcome.mapM_eq_error_iff]
  constructor
  · rintro ⟨place, ⟨line, i⟩, found, failed, before⟩
    obtain ⟨less, here, rfl⟩ := getElem?_rows.1 found
    obtain ⟨⟨kept, keeps⟩, beyond⟩ := record_eq_overflow.1 failed
    have good : ∀ j < i, r.Readable text j ∧ r.firstId.toInt + j ≤ Long.greatest := by
      intro j earlier
      have there := List.getElem?_eq_getElem (Nat.lt_trans earlier (List.getElem?_eq_some_iff.1 here).1)
      obtain ⟨⟨kept', keeps'⟩, most⟩ :=
        exists_record.1 (before j earlier (_, j) (getElem?_rows.2 ⟨Nat.lt_trans earlier less, there, rfl⟩))
      exact ⟨⟨_, kept', there, keeps'⟩, most⟩
    -- the first identifier is a long, so the line that overflows has one before it
    have most := r.firstId.toInt_le_greatest
    have last := (good (i - 1) (by omega)).2
    refine ⟨i, less, by omega, fun j up => ?_⟩
    rcases Nat.lt_or_eq_of_le up with earlier | rfl
    · exact (good j earlier).1
    · exact ⟨line, kept, here, keeps⟩
  · rintro ⟨i, less, last, readable⟩
    obtain ⟨line, kept, here, keeps⟩ := readable i (Nat.le_refl i)
    refine ⟨i, (line, i), getElem?_rows.2 ⟨less, here, rfl⟩, record_eq_overflow.2 ⟨⟨kept, keeps⟩, by omega⟩, ?_⟩
    rintro j before ⟨line', j'⟩ found
    obtain ⟨-, here', rfl⟩ := getElem?_rows.1 found
    obtain ⟨line'', kept', here'', keeps'⟩ := readable j' (Nat.le_of_lt before)
    cases here'.symm.trans here''
    exact exists_record.2 ⟨⟨kept', keeps'⟩, by omega⟩

/-- What becomes of any import. One that is made has the wanted rows: row `i` has the identifier that the count comes to
and, packed, the numbers that are kept of line `i`. It is made exactly if each of these lines is there, has numbers to
keep and comes within the longs. Lines that do not are refused, but for the first one behind the greatest long: the
count overflows there if all is well up to it. -/
theorem ofText_rows (r : Import) (text : String) :
    (∀ f, r.ofText text = .ok f → r.Holds text f) ∧
    ((∃ f, r.ofText text = .ok f) ↔
      ∀ i < r.wanted text, r.Readable text i ∧ r.firstId.toInt + i ≤ Long.greatest) ∧
    (r.ofText text = .error .overflow ↔ ∃ i < r.wanted text,
      r.firstId.toInt + i = Long.greatest + 1 ∧ ∀ j ≤ i, r.Readable text j) :=
  ⟨fun _ => holds_of_ofText, exists_ofText, ofText_eq_overflow⟩

/-- Two of three lines are wanted, each from column 2 on, and the count ends with the greatest long. -/
theorem ofText_rows_tail :
    let r : Import := ⟨"a.txt", "m", some 2, 9223372036854775806, [⟨"double", 1, 2, 0⟩]⟩
    let text := "1, 2.5\t,-3\r\n \n\n4 5\n6"
    let f : Fragment := ⟨"m", schema "m",
      [⟨[Long.toBytes 9223372036854775806, [0, 0, 0, 0, 0, 0, 4, 64, 0, 0, 0, 0, 0, 0, 8, 192]]⟩,
        ⟨[Long.toBytes 9223372036854775807, [0, 0, 0, 0, 0, 0, 20, 64]]⟩], false⟩
    r.ofText text = .ok f ∧ r.Holds text f ∧ ∀ i < 2, r.Readable text i := by
  intro r text f
  have made : r.ofText text = .ok f := by decide +kernel
  obtain ⟨holds, exact, -⟩ := ofText_rows r text
  exact ⟨made, holds f made, fun i less => (exact.1 ⟨f, made⟩ i less).1⟩

/-- The count starts with the greatest long, and there is a second line. -/
theorem ofText_not_refused :
    (⟨"two.txt", "m", none, 9223372036854775807, []⟩ : Import).ofText "1\n2\n" = .error .overflow := by
  decide +kernel

end Import

end FragmentEngine
