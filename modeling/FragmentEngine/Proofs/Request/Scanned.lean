import Mathlib.Data.List.Induction
import FragmentEngine.Proofs.Request.Written
/-!
# Lists by scanning

A text is read from left to right, and at each character it is known which quote is open. A list is read exactly if each
quote that opens a section is closed, and its entries are what stands between the bars outside quotes. Values of
queries are closed, so every list of a query that was read can be read.
-/

namespace FragmentEngine

namespace Sections

/-- The quote that is open behind a character, by the one that is open before it. -/
def openBehind (inside : Option Char) (c : Char) : Option Char :=
  match inside with
  | some q => if c = q then none else some q
  | none => if isQuote c then some c else none

/-- The quote that a text leaves open. -/
def leftOpen (cs : List Char) : Option Char := cs.foldl openBehind none

/-- Each quote that is met outside quoted sections has the same quote behind it. -/
def Partnered (cs : List Char) : Prop :=
  ∀ front q rest, cs = front ++ q :: rest → leftOpen front = none → isQuote q = true → q ∈ rest

/-- The characters of a text, each with the quote that is open before it. -/
def scan (inside : Option Char) (cs : List Char) : List (Char × Option Char) := cs.zip (cs.scanl openBehind inside)

/-- A bar outside quotes. -/
def isSeparator (scanned : Char × Option Char) : Bool := scanned.1 == '|' && scanned.2.isNone

/-- What stands between the bars outside quotes, in order. -/
def pieces (cs : List Char) : List (List Char) := ((scan none cs).splitOnP isSeparator).map (·.map Prod.fst)

variable {q stop : Char} {inside : Option Char} {cs entry rest : List Char}

/-! ## Quotes that are left open -/

theorem foldl_openBehind_inside (h : q ∉ cs) : cs.foldl openBehind (some q) = some q := by
  induction cs with
  | nil => rfl
  | cons c rest ih =>
    rw [List.mem_cons, not_or] at h
    rw [List.foldl_cons, openBehind, if_neg (Ne.symm h.1), ih h.2]

theorem foldl_openBehind_plain (h : ∀ c ∈ cs, isQuote c = false) : cs.foldl openBehind none = none := by
  induction cs with
  | nil => rfl
  | cons c rest ih =>
    obtain ⟨hc, hrest⟩ := List.forall_mem_cons.1 h
    rw [List.foldl_cons, openBehind, hc]
    exact ih hrest

theorem leftOpen_append (h : leftOpen entry = none) (rest : List Char) : leftOpen (entry ++ rest) = leftOpen rest := by
  unfold leftOpen at h ⊢
  rw [List.foldl_append, h]

theorem leftOpen_quote (hquote : isQuote q = true) (h : q ∉ rest) : leftOpen (q :: rest) = some q := by
  rw [leftOpen, List.foldl_cons, openBehind, if_pos hquote, foldl_openBehind_inside h]

theorem Closed.leftOpen (h : Closed stop cs) : leftOpen cs = none := by
  induction h with
  | nil => rfl
  | plain _ hquote _ ih =>
    rw [Sections.leftOpen, List.foldl_cons, openBehind, hquote]
    exact ih
  | quoted hquote hinner _ ih =>
    rw [Sections.leftOpen, List.foldl_cons, openBehind, if_pos hquote, List.foldl_append,
      foldl_openBehind_inside hinner, List.foldl_cons, openBehind, if_pos rfl]
    exact ih

/-- A quote that is left open was met outside quotes and does not come again. -/
theorem exists_of_leftOpen (h : leftOpen cs = some q) :
    ∃ front rest, cs = front ++ q :: rest ∧ leftOpen front = none ∧ isQuote q = true ∧ q ∉ rest := by
  induction cs using List.reverseRecOn with
  | nil => cases h
  | append_singleton cs c ih =>
    rw [leftOpen, List.foldl_append] at h
    change openBehind (leftOpen cs) c = some q at h
    cases hopen : leftOpen cs with
    | none =>
      rw [hopen, openBehind] at h
      split at h
      · cases h
        exact ⟨cs, [], rfl, hopen, ‹_›, List.not_mem_nil⟩
      · cases h
    | some q' =>
      rw [hopen, openBehind] at h
      split at h
      · cases h
      · cases h
        obtain ⟨front, rest, rfl, hfront, hquote, hrest⟩ := ih hopen
        refine ⟨front, rest ++ [c], by simp, hfront, hquote, ?_⟩
        rw [List.mem_append, List.mem_singleton, not_or]
        exact ⟨hrest, Ne.symm ‹_›⟩

theorem partnered_iff : Partnered cs ↔ leftOpen cs = none := by
  constructor
  · intro h
    by_contra hopen
    obtain ⟨q, hq⟩ := Option.ne_none_iff_exists'.1 hopen
    obtain ⟨front, rest, hcs, hfront, hquote, hrest⟩ := exists_of_leftOpen hq
    exact hrest (h front q rest hcs hfront hquote)
  · rintro h front q rest rfl hfront hquote
    by_contra hrest
    rw [leftOpen_append hfront, leftOpen_quote hquote hrest] at h
    cases h

/-! ## Pieces -/

theorem scan_append (inside : Option Char) (xs ys : List Char) :
    scan inside (xs ++ ys) = scan inside xs ++ scan (xs.foldl openBehind inside) ys := by
  induction xs generalizing inside with
  | nil => simp [scan]
  | cons c xs ih =>
    have hrest := ih (openBehind inside c)
    simp only [scan] at hrest ⊢
    simp [hrest]

theorem map_fst_scan (cs : List Char) : (scan inside cs).map Prod.fst = cs :=
  List.map_fst_zip (by simp)

/-- Inside quotes nothing separates. -/
theorem scan_inside (h : q ∉ cs) : ∀ scanned ∈ scan (some q) cs, isSeparator scanned = false := by
  induction cs with
  | nil => nofun
  | cons c rest ih =>
    rw [List.mem_cons, not_or] at h
    have hscan : scan (some q) (c :: rest) = (c, some q) :: scan (some q) rest := by
      simp [scan, openBehind, Ne.symm h.1]
    rw [hscan]
    exact List.forall_mem_cons.2 ⟨by simp [isSeparator], ih h.2⟩

/-- No bar stands outside quotes in what is closed. -/
theorem Closed.scan (h : Closed '|' cs) : ∀ scanned ∈ scan none cs, isSeparator scanned = false := by
  induction h with
  | nil => nofun
  | @plain c rest hbar hquote _ ih =>
    have hscan : Sections.scan none (c :: rest) = (c, none) :: Sections.scan none rest := by
      simp [Sections.scan, openBehind, hquote]
    rw [hscan]
    exact List.forall_mem_cons.2 ⟨by simp [isSeparator, hbar], ih⟩
  | @quoted q inner rest hquote hinner _ ih =>
    have hscan : Sections.scan none (q :: (inner ++ q :: rest)) =
        (q, none) :: (Sections.scan (some q) inner ++ (q, some q) :: Sections.scan none rest) := by
      have hsplit := scan_append (some q) inner (q :: rest)
      rw [foldl_openBehind_inside hinner] at hsplit
      simp only [Sections.scan] at hsplit ⊢
      simp [openBehind, hquote, hsplit]
    have hbar : isSeparator (q, none) = false := by
      rw [isSeparator, Bool.and_eq_false_iff]
      exact .inl (beq_false_of_ne (ne_of_isQuote (by decide) hquote))
    rw [hscan]
    refine List.forall_mem_cons.2 ⟨hbar, List.forall_mem_append.2 ⟨scan_inside hinner, ?_⟩⟩
    exact List.forall_mem_cons.2 ⟨by simp [isSeparator], ih⟩

theorem pieces_last (h : Closed '|' cs) : pieces cs = [cs] := by
  rw [pieces, List.splitOnP_eq_singleton h.scan, List.map_singleton, map_fst_scan]

theorem pieces_more (h : Closed '|' entry) (rest : List Char) : pieces (entry ++ '|' :: rest) = entry :: pieces rest := by
  have hscan : scan none (entry ++ '|' :: rest) = scan none entry ++ ('|', none) :: scan none rest := by
    have hentry := h.leftOpen
    rw [leftOpen] at hentry
    rw [scan_append, hentry]
    simp [scan, openBehind, isQuote]
  rw [pieces, hscan, List.splitOnP_append_cons_of_forall_mem h.scan _ rfl, List.map_cons, map_fst_scan]
  rfl

theorem length_splitOnP {α : Type} (p : α → Bool) (xs : List α) : (xs.splitOnP p).length = xs.countP p + 1 := by
  induction xs with
  | nil => rfl
  | cons x xs ih =>
    rw [List.splitOnP_cons_eq_if_modifyHead, List.countP_cons]
    split
    · rw [List.length_cons, ih]
    · rw [List.length_modifyHead, ih, Nat.add_zero]

/-! ## Lists -/

/-- A text is closed, or its first entry ends at a bar or at a quote without a partner. -/
theorem exists_first_entry (cs : List Char) : Closed '|' cs ∨
    (∃ entry rest, Closed '|' entry ∧ cs = entry ++ '|' :: rest) ∨
    ∃ entry q rest, Closed '|' entry ∧ isQuote q = true ∧ q ∉ rest ∧ cs = entry ++ q :: rest := by
  obtain ⟨closed, ends⟩ := closed_span '|' cs
  have hcs := span_append '|' none cs
  cases hrest : (span '|' none cs).2 with
  | nil =>
    rw [hrest, List.append_nil] at hcs
    exact .inl (hcs ▸ closed)
  | cons c rest =>
    rw [hrest] at hcs
    rcases ends c rest hrest with rfl | ⟨hquote, hpartner⟩
    · exact .inr (.inl ⟨_, rest, closed, hcs.symm⟩)
    · exact .inr (.inr ⟨_, c, rest, closed, hquote, hpartner, hcs.symm⟩)

theorem entries_open (h : Closed '|' entry) (hquote : isQuote q = true) (hpartner : q ∉ rest) :
    entries (entry ++ q :: rest) = .error (q :: rest) := by
  have hspan : span '|' none (entry ++ q :: rest) = (entry, q :: rest) := by
    rw [h.span_append (by decide)]
    simp [span, hquote, hpartner]
  rw [entries_of_span hspan]
  exact if_neg (ne_of_isQuote (by decide) hquote)

/-- Entries are read exactly if no quote is left open, and they are the pieces. -/
theorem entries_eq_ok (cs : List Char) {parts : List (List Char)} :
    entries cs = .ok parts ↔ leftOpen cs = none ∧ parts = pieces cs := by
  rcases exists_first_entry cs with closed | ⟨entry, rest, closed, hcs⟩ | ⟨entry, q, rest, closed, hquote, hpartner, rfl⟩
  · rw [entries_last closed, pieces_last closed, closed.leftOpen]
    simp [eq_comm]
  · have hshorter : rest.length < cs.length := by
      rw [hcs, List.length_append, List.length_cons]
      omega
    have hopen : leftOpen (entry ++ '|' :: rest) = leftOpen rest := leftOpen_append closed.leftOpen _
    rw [hcs, entries_more closed, pieces_more closed, hopen, Outcome.map_eq_ok]
    constructor
    · rintro ⟨parts, hparts, rfl⟩
      obtain ⟨hrest, rfl⟩ := (entries_eq_ok rest).1 hparts
      exact ⟨hrest, rfl⟩
    · rintro ⟨hrest, rfl⟩
      exact ⟨_, (entries_eq_ok rest).2 ⟨hrest, rfl⟩, rfl⟩
  · rw [entries_open closed hquote hpartner, leftOpen_append closed.leftOpen, leftOpen_quote hquote hpartner]
    exact ⟨nofun, nofun⟩
termination_by cs.length

theorem list_eq_ok {text : String} {values : List String} : list text = .ok values ↔
    leftOpen text.toList = none ∧ values = (pieces text.toList).map fun piece => String.ofList (Text.trim piece) := by
  unfold list
  cases hentries : entries text.toList with
  | ok parts =>
    obtain ⟨hopen, rfl⟩ := (entries_eq_ok _).1 hentries
    simp [hopen, eq_comm]
  | error rest =>
    refine ⟨nofun, fun h => ?_⟩
    rw [(entries_eq_ok _).2 ⟨h.1, rfl⟩] at hentries
    cases hentries

/-- Trimming takes no quote away, so it leaves none open. -/
theorem leftOpen_trim (h : leftOpen cs = none) : leftOpen (Text.trim cs) = none := by
  obtain ⟨before, after, hbefore, hafter, hcs⟩ := Text.exists_blanks cs
  have hplain {blanks : List Char} (hblank : ∀ c ∈ blanks, Text.isBlank c = true) : ∀ c ∈ blanks, isQuote c = false := by
    refine fun c hc => Bool.eq_false_iff.2 fun hquote => ?_
    have hvisible := not_isBlank_of_isQuote hquote
    rw [hblank c hc] at hvisible
    cases hvisible
  rw [hcs, leftOpen_append (foldl_openBehind_plain (hplain hbefore)), leftOpen, List.foldl_append] at h
  change after.foldl openBehind (leftOpen (Text.trim cs)) = none at h
  cases hopen : leftOpen (Text.trim cs) with
  | none => rfl
  | some q =>
    obtain ⟨-, -, -, -, hquote, -⟩ := exists_of_leftOpen hopen
    have hnot : q ∉ after := fun hq => by
      rw [hplain hafter q hq] at hquote
      cases hquote
    rw [hopen, foldl_openBehind_inside hnot] at h
    cases h

end Sections

/-! ## Lists of a query -/

namespace Params

open Sections (leftOpen)

variable {p : Params} {key : String}

/-- The values of a query that was read leave no quote open. -/
theorem leftOpen_of_parse {text : String} (h : parse text = .ok p) : ∀ e ∈ p.entries, leftOpen e.2.toList = none := by
  unfold parse at h
  split at h
  · cases h
  · rename_i found hfound
    obtain ⟨ws, tail, hws, -, -, hentries⟩ := exists_write_of_pairs _ hfound
    obtain ⟨-, -, hp⟩ := (foldlM_add (p := ⟨[]⟩) List.nodup_nil found).1 h
    rw [hp, hentries]
    refine List.forall_mem_map.2 fun w hw => ?_
    rw [Written.entry, String.toList_ofList]
    exact Sections.leftOpen_trim (hws w hw).value.leftOpen

theorem get?_eq_none_iff : p.get? key = none ↔ p.entries.lookup key = none ∨ p.entries.lookup key = some "" := by
  unfold get?
  cases p.entries.lookup key <;> simp

/-- Each list that a query gives can be read. -/
theorem exists_list_of_get? (hp : ∀ e ∈ p.entries, leftOpen e.2.toList = none) {value : String}
    (h : p.get? key = some value) : ∃ values, Sections.list value = .ok values := by
  obtain ⟨hlookup, -⟩ := Option.filter_eq_some_iff.1 h
  obtain ⟨before, after, hentries, -⟩ := List.lookup_eq_some_iff.1 hlookup
  have hmem : (key, value) ∈ p.entries := by
    rw [hentries]
    exact List.mem_append_right _ List.mem_cons_self
  exact ⟨_, Sections.list_eq_ok.2 ⟨hp _ hmem, rfl⟩⟩

end Params

namespace Sections

/-- A list is read exactly if each quote that is met outside quoted sections has a partner, and its entries are the
pieces between the bars outside quotes, trimmed: one more than there are such bars. So each list of a query that was
read can be read, and a mandatory one is refused only if its key is absent or has an empty value. -/
theorem list_scanned :
    (∀ text, (∃ values, list text = .ok values) ↔ Partnered text.toList) ∧
    (∀ text values, list text = .ok values →
      values = (pieces text.toList).map (fun piece => String.ofList (Text.trim piece)) ∧
        values.length = (scan none text.toList).countP isSeparator + 1) ∧
    ∀ text p, Params.parse text = .ok p → ∀ key,
      (∃ values, p.list key = .ok values) ∧
        ∀ e, p.requireList key = .error e ↔
          e = .missing key ∧ (p.entries.lookup key = none ∨ p.entries.lookup key = some "") := by
  refine ⟨fun text => ?_, fun text values h => ?_, fun text p h key => ?_⟩
  · rw [partnered_iff]
    exact ⟨fun ⟨_, h⟩ => (list_eq_ok.1 h).1, fun hopen => ⟨_, list_eq_ok.2 ⟨hopen, rfl⟩⟩⟩
  · obtain ⟨-, rfl⟩ := list_eq_ok.1 h
    exact ⟨rfl, by rw [List.length_map, pieces, List.length_map, length_splitOnP]⟩
  · have hclosed := Params.leftOpen_of_parse h
    rw [← Params.get?_eq_none_iff]
    unfold Params.list Params.requireList Params.require
    cases hvalue : p.get? key with
    | none =>
      refine ⟨⟨[], rfl⟩, fun e => ?_⟩
      constructor
      · intro he
        cases he
        exact ⟨rfl, rfl⟩
      · rintro ⟨rfl, -⟩
        rfl
    | some value =>
      obtain ⟨values, hvalues⟩ := Params.exists_list_of_get? hclosed hvalue
      refine ⟨⟨values, hvalues⟩, fun e => ⟨fun he => ?_, nofun⟩⟩
      rw [Outcome.ok_bind, hvalues] at he
      cases he

theorem list_scanned_barsInQuotes :
    Partnered "'a;b'|'c|d'| 3|".toList ∧ (∃ values, list "'a;b'|'c|d'| 3|" = .ok values) ∧
    list "'a;b'|'c|d'| 3|" = .ok ["'a;b'", "'c|d'", "3", ""] ∧
    4 = (scan none "'a;b'|'c|d'| 3|".toList).countP isSeparator + 1 ∧
    ∃ p, Params.parse "field=;value='a;b'|'c|d'| 3|" = .ok p ∧ (∃ values, p.list "value" = .ok values) ∧
      p.requireList "field" = .error (.missing "field") := by
  have hpartnered : Partnered "'a;b'|'c|d'| 3|".toList := partnered_iff.2 (by decide +kernel)
  have hlist : list "'a;b'|'c|d'| 3|" = .ok ["'a;b'", "'c|d'", "3", ""] := by decide +kernel
  have hparse : Params.parse "field=;value='a;b'|'c|d'| 3|" = .ok ⟨[("field", ""), ("value", "'a;b'|'c|d'| 3|")]⟩ := by
    decide +kernel
  exact ⟨hpartnered, (list_scanned.1 _).2 hpartnered, hlist, (list_scanned.2.1 _ _ hlist).2, _, hparse,
    (list_scanned.2.2 _ _ hparse "value").1, ((list_scanned.2.2 _ _ hparse "field").2 _).2 ⟨rfl, .inr rfl⟩⟩

end Sections

end FragmentEngine
