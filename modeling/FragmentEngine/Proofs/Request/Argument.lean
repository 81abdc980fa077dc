import FragmentEngine.Proofs.Decimal.Whole
import FragmentEngine.Proofs.Hexadecimal
import FragmentEngine.Proofs.Request.Written
import FragmentEngine.Request.Argument
/-!
# Written arguments

Longs, byte strings, texts and nulls that are written as a list are read again, whatever the texts contain, as long as
one of the two quotes does not occur in each of them. A byte string is read from hexadecimal digits, two for each byte.
-/

namespace FragmentEngine

namespace Sections

theorem trim_quoted {q : Char} (hquote : isQuote q = true) (cs : List Char) :
    Text.trim (q :: (cs ++ [q])) = q :: (cs ++ [q]) := by
  have hblank := not_isBlank_of_isQuote hquote
  rw [Text.trim_eq_self_iff, ← List.cons_append, List.getLast?_concat]
  simp [hblank]

theorem unquote_quoted {q : Char} (hquote : isQuote q = true) (cs : List Char) : unquote (q :: (cs ++ [q])) = cs := by
  have hquoted : isQuoted (q :: (cs ++ [q])) = true := by
    simp [isQuoted, hquote]
  unfold unquote
  rw [trim_quoted hquote, if_pos hquoted, List.tail_cons, List.dropLast_concat]

end Sections

namespace Argument

/-! ## One entry -/

/-- The type of an entry ends at the first colon. -/
theorem split_typed {type : List Char} (htype : ':' ∉ type) (payload : List Char) :
    (type ++ ':' :: payload).map Char.toLower ≠ ['n', 'u', 'l', 'l'] ∧
      Text.splitOnce ':' (type ++ ':' :: payload) = some (type, payload) := by
  refine ⟨fun h => ?_, Text.splitOnce_append htype⟩
  have hcolon : ':' ∈ (type ++ ':' :: payload).map Char.toLower :=
    List.mem_map.2 ⟨':', List.mem_append_right _ List.mem_cons_self, by decide⟩
  rw [h] at hcolon
  revert hcolon
  decide

theorem read_null : read "null" = .ok .null := by decide +kernel

theorem read_long (payload : String) : read ("long:" ++ payload) =
    match Decimal.long? (Text.trim payload.toList) with
    | some n => .ok (.long n)
    | none => .error (.parse (.invalidArgument "long" payload)) := by
  obtain ⟨hnull, hsplit⟩ := split_typed (by decide : ':' ∉ "long".toList) payload.toList
  have hitem : ("long:" ++ payload).toList = "long".toList ++ ':' :: payload.toList := by simp
  have hword : String.ofList (Text.lowercase (Text.trim "long".toList)) = "long" := by decide +kernel
  unfold read
  rw [hitem, if_neg hnull, hsplit]
  simp only [hword, if_pos, String.ofList_toList]
  cases Decimal.long? (Text.trim payload.toList) <;> rfl

theorem read_blob (payload : String) : read ("blob:" ++ payload) =
    match Bytes.ofHex? (Text.trim payload.toList) with
    | some bytes => .ok (.blob bytes)
    | none => .error (.parse (.invalidArgument "blob" payload)) := by
  obtain ⟨hnull, hsplit⟩ := split_typed (by decide : ':' ∉ "blob".toList) payload.toList
  have hitem : ("blob:" ++ payload).toList = "blob".toList ++ ':' :: payload.toList := by simp
  have hword : String.ofList (Text.lowercase (Text.trim "blob".toList)) = "blob" := by decide +kernel
  unfold read
  rw [hitem, if_neg hnull, hsplit]
  simp only [hword, String.ofList_toList]
  cases Bytes.ofHex? (Text.trim payload.toList) <;> rfl

theorem read_varchar (payload : String) :
    read ("varchar:" ++ payload) = .ok (.varchar (String.ofList (Sections.unquote payload.toList))) := by
  obtain ⟨hnull, hsplit⟩ := split_typed (by decide : ':' ∉ "varchar".toList) payload.toList
  have hitem : ("varchar:" ++ payload).toList = "varchar".toList ++ ':' :: payload.toList := by simp
  have hword : String.ofList (Text.lowercase (Text.trim "varchar".toList)) = "varchar" := by decide +kernel
  unfold read
  rw [hitem, if_neg hnull, hsplit]
  simp only [hword]
  rfl

/-! ## Lists of entries -/

/-- A text that can stand as an entry in a list and is kept as it is. -/
structure IsEntry (item : String) : Prop where
  closed : Sections.Closed '|' item.toList
  trimmed : Text.trim item.toList = item.toList
  ne_empty : item ≠ ""

theorem isEntry_of_chars {item : String} (hne : item ≠ "") (h : ∀ c ∈ item.toList, Sections.Stands c) : IsEntry item := by
  obtain ⟨hclosed, htrim⟩ := Sections.closed_of_stands Sections.not_stands_bar h
  exact ⟨hclosed, htrim, hne⟩

theorem IsEntry.append {type payload : String} (h : IsEntry type) (hclosed : Sections.Closed '|' payload.toList)
    (htrim : Text.trim payload.toList = payload.toList) : IsEntry (type ++ payload) := by
  refine ⟨?_, ?_, fun hempty => h.ne_empty (String.append_eq_empty_iff.1 hempty).1⟩
  · rw [String.toList_append]
    exact h.closed.append hclosed
  · rw [String.toList_append]
    exact Text.trim_append h.trimmed htrim

/-- A list of entries is not blank, and its entries are read one by one. -/
theorem readList_intercalate {items : List String} (hne : items ≠ []) (h : ∀ item ∈ items, IsEntry item) :
    readList ("|".intercalate items) = items.mapM read := by
  have hlist := Sections.list_intercalate hne fun item hitem => ⟨(h item hitem).closed, (h item hitem).trimmed⟩
  have hvisible : (Text.trim ("|".intercalate items).toList).isEmpty = false := by
    rw [List.isEmpty_eq_false_iff]
    intro hnil
    obtain ⟨item, rest, rfl⟩ := List.exists_cons_of_ne_nil hne
    obtain ⟨-, htrim, hitem⟩ := h item List.mem_cons_self
    have hblank : ∀ c ∈ item.toList, Text.isBlank c = true := fun c hc => by
      refine Text.trim_eq_nil hnil c ?_
      rw [String.toList_intercalate]
      cases rest <;> simp [List.intercalate, hc]
    have hempty : Text.trim ([] ++ item.toList) = Text.trim [] := Text.trim_append_blank hblank
    rw [List.nil_append, htrim, Text.trim_nil] at hempty
    exact hitem (String.toList_eq_nil_iff.1 hempty)
  unfold readList
  rw [hvisible, hlist]
  rfl

theorem readList_singleton {item : String} (h : IsEntry item) : readList item = (read item).map ([·]) := by
  have hitems : "|".intercalate [item] = item := by simp
  rw [← hitems, readList_intercalate (List.cons_ne_nil _ _) (List.forall_mem_singleton.2 h), hitems]
  rw [List.mapM_cons, List.mapM_nil]
  cases read item <;> rfl

/-! ## Written lists -/

/-- An argument and a text that it is written as: a text in a quote that it does not contain. -/
inductive Written : Argument → String → Prop
  | long (n : Long) : Written (.long n) ("long:" ++ toString n.toInt)
  | blob (bytes : Bytes) : Written (.blob bytes) ("blob:" ++ String.ofList bytes.toHex)
  | null : Written .null "null"
  | varchar {q : Char} {s : String} : Sections.isQuote q = true → q ∉ s.toList →
      Written (.varchar s) ("varchar:" ++ String.ofList (q :: (s.toList ++ [q])))

/-- Longs, byte strings, nulls and texts without one of the quotes. -/
def Writable : Argument → Prop
  | .double _ => False
  | .varchar s => '\'' ∉ s.toList ∨ '"' ∉ s.toList
  | _ => True

variable {a : Argument} {item : String} {args : List Argument}

theorem exists_written (h : a.Writable) : ∃ item, Written a item := by
  cases a with
  | long n => exact ⟨_, .long n⟩
  | double x => cases h
  | varchar s =>
    rcases h with hquote | hquote
    · exact ⟨_, .varchar rfl hquote⟩
    · exact ⟨_, .varchar rfl hquote⟩
  | blob bytes => exact ⟨_, .blob bytes⟩
  | null => exact ⟨_, .null⟩

/-- A character of a number, a byte or a type. -/
def isPlain (c : Char) : Bool := c.isAlphanum || c == ':' || c == '-'

theorem stands_of_isPlain {c : Char} (h : isPlain c = true) : Sections.Stands c :=
  Sections.stands_of (by decide +kernel) h

theorem isPlain_toString (n : Int) : ∀ c ∈ (toString n).toList, isPlain c = true := by
  rw [Decimal.toList_toString]
  refine List.forall_mem_append.2 ⟨?_, fun c hc => ?_⟩
  · split
    · exact List.forall_mem_singleton.2 (by decide)
    · nofun
  · have hdigit : c.isDigit = true := Decimal.isDigit_of_mem_digits hc
    simp [isPlain, Char.isAlphanum, hdigit]

theorem isPlain_hexDigit : ∀ n < 16, isPlain (Bytes.hexDigit n) = true := by decide

theorem isPlain_toHex (bytes : Bytes) : ∀ c ∈ (String.ofList bytes.toHex).toList, isPlain c = true := by
  intro c hc
  rw [String.toList_ofList] at hc
  obtain ⟨byte, -, hc⟩ := List.mem_flatMap.1 hc
  have hbyte := byte.toNat_lt
  rcases List.mem_pair.1 hc with rfl | rfl
  · exact isPlain_hexDigit _ (by omega)
  · exact isPlain_hexDigit _ (by omega)

theorem closed_trimmed_of_plain {payload : String} (h : ∀ c ∈ payload.toList, isPlain c = true) :
    Sections.Closed '|' payload.toList ∧ Text.trim payload.toList = payload.toList :=
  Sections.closed_of_stands Sections.not_stands_bar fun c hc => stands_of_isPlain (h c hc)

theorem isEntry_of_plain {item : String} (hne : item ≠ "") (h : item.toList.all isPlain = true) : IsEntry item :=
  isEntry_of_chars hne fun c hc => stands_of_isPlain (List.all_eq_true.1 h c hc)

/-- What an argument is written as can stand in a list. -/
theorem isEntry_of_written (h : Written a item) : IsEntry item := by
  cases h with
  | long n =>
    obtain ⟨hclosed, htrim⟩ := closed_trimmed_of_plain (isPlain_toString n.toInt)
    exact (isEntry_of_plain (by decide) (by decide)).append hclosed htrim
  | blob bytes =>
    obtain ⟨hclosed, htrim⟩ := closed_trimmed_of_plain (isPlain_toHex bytes)
    exact (isEntry_of_plain (by decide) (by decide)).append hclosed htrim
  | null => exact isEntry_of_plain (by decide) (by decide)
  | @varchar q s hquote hfree =>
    refine (isEntry_of_plain (by decide) (by decide)).append ?_ ?_
    · rw [String.toList_ofList]
      exact Sections.closed_quoted hquote hfree
    · rw [String.toList_ofList]
      exact Sections.trim_quoted hquote s.toList

/-- What an argument is written as is read as the argument. -/
theorem read_of_written (h : Written a item) : read item = .ok a := by
  cases h with
  | long n => rw [read_long, (closed_trimmed_of_plain (isPlain_toString n.toInt)).2, Decimal.long?_toString]
  | blob bytes =>
    rw [read_blob, (closed_trimmed_of_plain (isPlain_toHex bytes)).2, String.toList_ofList, Bytes.ofHex?_toHex]
  | null => exact read_null
  | @varchar q s hquote hfree =>
    rw [read_varchar, String.toList_ofList, Sections.unquote_quoted hquote, String.ofList_toList]

theorem exists_written_list (h : ∀ a ∈ args, a.Writable) : ∃ items, List.Forall₂ Written args items := by
  induction args with
  | nil => exact ⟨[], .nil⟩
  | cons a rest ih =>
    obtain ⟨ha, hrest⟩ := List.forall_mem_cons.1 h
    obtain ⟨item, hitem⟩ := exists_written ha
    obtain ⟨items, hitems⟩ := ih hrest
    exact ⟨item :: items, .cons hitem hitems⟩

theorem isEntry_of_written_list {items : List String} (h : List.Forall₂ Written args items) :
    ∀ item ∈ items, IsEntry item := by
  induction h with
  | nil => nofun
  | cons hitem _ ih => exact List.forall_mem_cons.2 ⟨isEntry_of_written hitem, ih⟩

/-- Longs, byte strings, nulls and texts without one of the quotes can be written as a list of entries between bars, the
empty list as the empty text. However they are written so, they are read again. -/
theorem readList_written (h : ∀ a ∈ args, a.Writable) : (∃ items, List.Forall₂ Written args items) ∧
    ∀ items, List.Forall₂ Written args items → readList ("|".intercalate items) = .ok args := by
  refine ⟨exists_written_list h, fun items hitems => ?_⟩
  cases items with
  | nil =>
    cases hitems
    rfl
  | cons item rest =>
    rw [readList_intercalate (List.cons_ne_nil _ _) (isEntry_of_written_list hitems), Outcome.mapM_eq_ok]
    exact (hitems.imp fun a item => read_of_written).flip

theorem readList_written_barsAndQuotes :
    (∀ a ∈ [.long (-5), .varchar "it's a|b: ", .blob [0x0a, 0xff], .null, .varchar ""], Writable a) ∧
      readList "long:-5|varchar:\"it's a|b: \"|blob:0aff|null|varchar:''" =
        .ok [.long (-5), .varchar "it's a|b: ", .blob [0x0a, 0xff], .null, .varchar ""] := by
  have hargs : ∀ a ∈ [.long (-5), .varchar "it's a|b: ", .blob [0x0a, 0xff], .null, .varchar ""], Writable a := by
    simp [Writable]
  refine ⟨hargs, (readList_written hargs).2 ["long:-5", "varchar:\"it's a|b: \"", "blob:0aff", "null", "varchar:''"] ?_⟩
  refine .cons (.long (-5)) (.cons ?_ (.cons (.blob [0x0a, 0xff]) (.cons .null (.cons ?_ .nil))))
  · exact .varchar (q := '"') (by decide) (by decide)
  · exact .varchar (q := '\'') (by decide) (by decide)

/-! ## Byte strings -/

/-- A byte string is read exactly from a text that spells its bytes, if each plus sign at an even place counts as a zero.
So a text without such a plus sign is read exactly if it consists of an even number of hexadecimal digits, and as the
bytes that these spell. -/
theorem readList_blob {payload : String} (hplain : ∀ c ∈ payload.toList, c ≠ '|' ∧ Sections.isQuote c = false)
    (htrim : Text.trim payload.toList = payload.toList) :
    (∀ args, readList ("blob:" ++ payload) = .ok args ↔
      ∃ bytes, args = [.blob bytes] ∧ Bytes.Spells (Bytes.plusAsZero payload.toList) bytes) ∧
    ((∀ i, payload.toList[2 * i]? ≠ some '+') →
      ((∃ args, readList ("blob:" ++ payload) = .ok args) ↔
        payload.toList.length % 2 = 0 ∧ ∀ c ∈ payload.toList, Bytes.IsHexDigit c) ∧
      ∀ args, readList ("blob:" ++ payload) = .ok args ↔
        ∃ bytes, args = [.blob bytes] ∧ Bytes.Spells payload.toList bytes) := by
  have hread (args : List Argument) : readList ("blob:" ++ payload) = .ok args ↔
      ∃ bytes, args = [.blob bytes] ∧ Bytes.Spells (Bytes.plusAsZero payload.toList) bytes := by
    have hentry : IsEntry ("blob:" ++ payload) :=
      (isEntry_of_plain (by decide) (by decide)).append (.of_plain hplain) htrim
    rw [readList_singleton hentry, read_blob, htrim]
    simp only [← Bytes.ofHex?_eq_some_iff]
    cases Bytes.ofHex? payload.toList <;> simp [Except.map, eq_comm]
  refine ⟨hread, fun hplus => ?_⟩
  rw [Bytes.plusAsZero_eq_self hplus] at hread
  refine ⟨?_, hread⟩
  rw [← Bytes.exists_spells_iff]
  simp only [hread]
  constructor
  · rintro ⟨-, bytes, -, hbytes⟩
    exact ⟨bytes, hbytes⟩
  · rintro ⟨bytes, hbytes⟩
    exact ⟨_, bytes, rfl, hbytes⟩

theorem readList_blob_bothCases :
    (∀ c ∈ "0aFf".toList, c ≠ '|' ∧ Sections.isQuote c = false) ∧ Text.trim "0aFf".toList = "0aFf".toList ∧
      (∀ i, "0aFf".toList[2 * i]? ≠ some '+') ∧ readList ("blob:" ++ "0aFf") = .ok [.blob [0x0a, 0xff]] := by
  have hplain : ∀ c ∈ "0aFf".toList, c ≠ '|' ∧ Sections.isQuote c = false := by simp [Sections.isQuote]
  have htrim : Text.trim "0aFf".toList = "0aFf".toList := by decide
  have hplus : ∀ i, "0aFf".toList[2 * i]? ≠ some '+' := by
    intro i hi
    exact absurd (List.mem_of_getElem? hi) (by decide)
  exact ⟨hplain, htrim, hplus, (((readList_blob hplain htrim).2 hplus).2 _).2 ⟨_, rfl, rfl⟩⟩

/-- A plus sign is no digit and is read with the digit behind it. -/
theorem readList_signedByte :
    (∀ c ∈ "+f".toList, c ≠ '|' ∧ Sections.isQuote c = false) ∧ Text.trim "+f".toList = "+f".toList ∧
      readList ("blob:" ++ "+f") = .ok [.blob [0x0f]] ∧
      ¬((∃ args, readList ("blob:" ++ "+f") = .ok args) ↔
        "+f".toList.length % 2 = 0 ∧ ∀ c ∈ "+f".toList, Bytes.IsHexDigit c) := by
  have hread : readList ("blob:" ++ "+f") = .ok [.blob [0x0f]] := by decide +kernel
  refine ⟨by simp [Sections.isQuote], by decide, hread, fun h => ?_⟩
  have hdigits := (h.1 ⟨_, hread⟩).2
  exact absurd (hdigits '+' List.mem_cons_self) (by decide)

end Argument

end FragmentEngine
