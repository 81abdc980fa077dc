import Mathlib.Data.List.Nodup
import FragmentEngine.Proofs.Outcome
import FragmentEngine.Proofs.Request.Sections
import FragmentEngine.Proofs.Text.Blank
import FragmentEngine.Request.Params
/-!
# The grammar of query parameters

A text is read exactly if it can be written as pairs of known keys, none given twice, and closed values; and however it
is written so, the parameters are those pairs.
-/

namespace FragmentEngine

namespace Params

/-- Blanks that the grammar allows between its parts. -/
def Spaces (cs : List Char) : Prop := ∀ c ∈ cs, isSpace c = true

theorem isBlank_of_isSpace {c : Char} (h : isSpace c = true) : Text.isBlank c = true := by
  simp only [isSpace, Bool.or_eq_true, beq_iff_eq] at h
  obtain ((rfl | rfl) | rfl) | rfl := h <;> decide

theorem trim_append_spaces {cs spaces : List Char} (h : Spaces spaces) : Text.trim (cs ++ spaces) = Text.trim cs :=
  Text.trim_append_blank fun c hc => isBlank_of_isSpace (h c hc)

/-! ## Written pairs -/

/-- A pair as it stands in a text: a word with the blanks around it, and a value. -/
structure Written where
  before : List Char
  word : List Char
  after : List Char
  value : List Char

namespace Written

def text (w : Written) : List Char := w.before ++ (w.word ++ (w.after ++ '=' :: w.value))

/-- The key that the word stands for. -/
def key (w : Written) : String := String.ofList (w.word.map Char.toLower)

/-- What is kept of the pair. -/
def entry (w : Written) : String × String := (w.key, String.ofList (Text.trim w.value))

structure Valid (w : Written) : Prop where
  before : Spaces w.before
  word_ne_nil : w.word ≠ []
  word : ∀ c ∈ w.word, isKeyChar c = true
  after : Spaces w.after
  value : Sections.Closed ';' w.value

end Written

/-- What may stand behind the last pair. -/
def Ends (cs : List Char) : Prop := ∃ spaces, Spaces spaces ∧ (cs = spaces ∨ cs = ';' :: spaces)

/-- Pairs between semicolons, and what stands behind them. -/
def write (ws : List Written) (tail : List Char) : List Char := [';'].intercalate (ws.map Written.text) ++ tail

theorem write_cons (w w' : Written) (ws : List Written) (tail : List Char) :
    write (w :: w' :: ws) tail = w.text ++ ';' :: write (w' :: ws) tail := by
  simp [write, List.intercalate_cons_cons]

theorem write_singleton (w : Written) (tail : List Char) : write [w] tail = w.text ++ tail := by
  simp [write, List.intercalate_singleton]

theorem exists_write_cons (w : Written) (ws : List Written) (tail : List Char) :
    ∃ rest, write (w :: ws) tail = w.text ++ rest := by
  cases ws with
  | nil => exact ⟨tail, write_singleton w tail⟩
  | cons w' ws => exact ⟨_, write_cons w w' ws tail⟩

/-! ## One key -/

section Key

variable {cs rest word after : List Char} {c : Char}

theorem not_isSpace_of_isKeyChar (h : isKeyChar c = true) : isSpace c = false := by
  rw [Bool.eq_false_iff]
  intro hspace
  simp only [isSpace, Bool.or_eq_true, beq_iff_eq] at hspace
  obtain ((rfl | rfl) | rfl) | rfl := hspace <;> revert h <;> decide

/-- Behind a word stands no character of a word. -/
theorem behind_word (h : Spaces after) (rest : List Char) :
    (after ++ '=' :: rest).takeWhile isKeyChar = [] ∧
      (after ++ '=' :: rest).dropWhile isKeyChar = after ++ '=' :: rest := by
  have hc : ∃ c cs, after ++ '=' :: rest = c :: cs ∧ isKeyChar c = false := by
    cases after with
    | nil => exact ⟨'=', rest, rfl, by decide⟩
    | cons c after =>
      refine ⟨c, after ++ '=' :: rest, rfl, Bool.eq_false_iff.2 fun hkey => ?_⟩
      have hspace := h c List.mem_cons_self
      rw [not_isSpace_of_isKeyChar hkey] at hspace
      cases hspace
  obtain ⟨c, cs, hcs, hc⟩ := hc
  rw [hcs]
  exact ⟨by simp [hc], by simp [hc]⟩

theorem key?_text {w : Written} (h : w.Valid) (rest : List Char) :
    key? (w.text ++ rest) = some (w.word, w.value ++ rest) := by
  obtain ⟨c, word, hword⟩ := List.exists_cons_of_ne_nil h.word_ne_nil
  have hstart (cs : List Char) : (w.word ++ cs).dropWhile isSpace = w.word ++ cs := by
    have hc := not_isSpace_of_isKeyChar (h.word c (hword ▸ List.mem_cons_self))
    simp [hword, hc]
  obtain ⟨htake, hdrop⟩ := behind_word h.after (w.value ++ rest)
  have hsign : ('=' :: (w.value ++ rest)).dropWhile isSpace = '=' :: (w.value ++ rest) := by
    rw [List.dropWhile_cons_of_neg (by decide)]
  simp only [key?, Written.text, List.append_assoc, List.cons_append]
  rw [List.dropWhile_append_of_pos h.before, hstart, List.takeWhile_append_of_pos h.word, htake, List.append_nil,
    List.dropWhile_append_of_pos h.word, hdrop, List.dropWhile_append_of_pos h.after, hsign]
  simp [h.word_ne_nil]

theorem exists_text_of_key? (h : key? cs = some (word, rest)) : ∃ before after,
    Spaces before ∧ word ≠ [] ∧ (∀ c ∈ word, isKeyChar c = true) ∧ Spaces after ∧
      cs = before ++ (word ++ (after ++ '=' :: rest)) := by
  simp only [key?] at h
  split at h
  · rename_i rest' hsign
    split at h
    · cases h
    · rename_i hne
      cases h
      refine ⟨cs.takeWhile isSpace, ((cs.dropWhile isSpace).dropWhile isKeyChar).takeWhile isSpace,
        fun c => List.mem_takeWhile_imp, fun hnil => hne (List.isEmpty_iff.2 hnil), fun c => List.mem_takeWhile_imp,
        fun c => List.mem_takeWhile_imp, ?_⟩
      rw [← hsign, List.takeWhile_append_dropWhile, List.takeWhile_append_dropWhile, List.takeWhile_append_dropWhile]
  · cases h

end Key

/-! ## What stands behind the last pair -/

section Ends

variable {cs : List Char} {found : List (List Char × List Char)}

theorem key?_of_ends (h : Ends cs) : key? cs = none := by
  obtain ⟨spaces, hspaces, rfl | rfl⟩ := h
  · simp [key?, List.dropWhile_eq_nil_iff.2 hspaces]
  · have hstart : (';' :: spaces).dropWhile isSpace = ';' :: spaces := List.dropWhile_cons_of_neg (by decide)
    have hword : (';' :: spaces).dropWhile isKeyChar = ';' :: spaces := List.dropWhile_cons_of_neg (by decide)
    simp [key?, hstart, hword]

theorem ends_semicolon : Ends (';' :: cs) ↔ Spaces cs := by
  refine ⟨?_, fun hspaces => ⟨cs, hspaces, .inr rfl⟩⟩
  rintro ⟨spaces, hspaces, rfl | h⟩
  · exact absurd (hspaces ';' List.mem_cons_self) (by decide)
  · cases h
    exact hspaces

theorem ends_of_ne (h : ∀ rest, cs ≠ ';' :: rest) : Ends cs ↔ Spaces cs := by
  refine ⟨?_, fun hspaces => ⟨cs, hspaces, .inl rfl⟩⟩
  rintro ⟨spaces, hspaces, rfl | hsep⟩
  · exact hspaces
  · exact absurd hsep (h spaces)

theorem finish_eq_ok : finish cs = .ok found ↔ Ends cs ∧ found = [] := by
  have hspaces (cs : List Char) : Spaces cs ↔ cs.dropWhile isSpace = [] := List.dropWhile_eq_nil_iff.symm
  unfold finish
  split
  · rename_i rest
    rw [ends_semicolon, hspaces]
    dsimp only
    cases rest.dropWhile isSpace with
    | nil => simp [eq_comm]
    | cons c more => simp
  · rename_i hsep
    rw [ends_of_ne hsep, hspaces]
    dsimp only
    cases cs.dropWhile isSpace with
    | nil => simp [eq_comm]
    | cons c more => simp

end Ends

/-! ## All pairs -/

section Pairs

variable {cs rest key value more : List Char} {found : List (List Char × List Char)}

/-- A pair that is followed by another. -/
theorem pairs_more (hkey : key? cs = some (key, rest)) (hvalue : Sections.span ';' none rest = (value, ';' :: more))
    (hmore : (key? more).isSome = true) : pairs cs = (pairs more).map ((key, value) :: ·) := by
  rw [pairs]
  split
  · rename_i hnone
    rw [hkey] at hnone
    cases hnone
  · rename_i key' rest' hsome
    rw [hkey] at hsome
    cases hsome
    split
    · rename_i value' more' hspan
      rw [hvalue] at hspan
      cases hspan
      rw [if_pos hmore]
    · rename_i value' rest' hsep hspan
      rw [hvalue] at hspan
      cases hspan
      exact absurd rfl (hsep more)

/-- The last pair. -/
theorem pairs_last (hkey : key? cs = some (key, rest)) (hvalue : Sections.span ';' none rest = (value, more))
    (hmore : ∀ cs, more = ';' :: cs → key? cs = none) : pairs cs = (finish more).map ((key, value) :: ·) := by
  rw [pairs]
  split
  · rename_i hnone
    rw [hkey] at hnone
    cases hnone
  · rename_i key' rest' hsome
    rw [hkey] at hsome
    cases hsome
    split
    · rename_i value' more' hspan
      rw [hvalue] at hspan
      cases hspan
      rw [hmore more' rfl, if_neg (by decide)]
    · rename_i value' rest' hsep hspan
      rw [hvalue] at hspan
      cases hspan
      rfl

theorem pairs_none (hkey : key? cs = none) : pairs cs = finish cs := by
  rw [pairs]
  split
  · rfl
  · rename_i hsome
    rw [hkey] at hsome
    cases hsome

end Pairs

/-- What is kept of a pair that was read. -/
def entry (pair : List Char × List Char) : String × String :=
  (String.ofList (pair.1.map Char.toLower), String.ofList (Text.trim pair.2))

variable {ws : List Written} {tail : List Char}

theorem closed_of_spaces {cs : List Char} (h : Spaces cs) : Sections.Closed ';' cs := by
  refine .of_plain fun c hc => ?_
  have hspace := h c hc
  simp only [isSpace, Bool.or_eq_true, beq_iff_eq] at hspace
  obtain ((rfl | rfl) | rfl) | rfl := hspace <;> decide

/-- The value of the last pair is read with the blanks behind it. -/
theorem span_last {w : Written} (hw : w.Valid) (htail : Ends tail) : ∃ spaces more,
    Sections.span ';' none (w.value ++ tail) = (w.value ++ spaces, more) ∧ Spaces spaces ∧ Ends more ∧
      ∀ cs, more = ';' :: cs → key? cs = none := by
  obtain ⟨spaces, hspaces, rfl | rfl⟩ := htail
  · refine ⟨tail, [], ?_, hspaces, ⟨[], nofun, .inl rfl⟩, nofun⟩
    have hread := (closed_of_spaces hspaces).span_append (by decide) []
    rw [List.append_nil] at hread
    rw [hw.value.span_append (by decide), hread]
    simp [Sections.span]
  · refine ⟨[], ';' :: spaces, ?_, nofun, ⟨spaces, hspaces, .inr rfl⟩, ?_⟩
    · rw [hw.value.span_append (by decide)]
      simp [Sections.span]
    · rintro cs h
      cases h
      exact key?_of_ends ⟨spaces, hspaces, .inl rfl⟩

/-- Pairs are read as they are written, up to blanks behind the last value. -/
theorem pairs_write (hws : ∀ w ∈ ws, w.Valid) (htail : Ends tail) :
    ∃ found, pairs (write ws tail) = .ok found ∧ found.map entry = ws.map Written.entry := by
  induction ws with
  | nil =>
    have hnil : write [] tail = tail := rfl
    rw [hnil, pairs_none (key?_of_ends htail)]
    exact ⟨[], finish_eq_ok.2 ⟨htail, rfl⟩, rfl⟩
  | cons w ws ih =>
    obtain ⟨hw, hws⟩ := List.forall_mem_cons.1 hws
    cases ws with
    | nil =>
      obtain ⟨spaces, more, hspan, hspaces, hmore, hlast⟩ := span_last hw htail
      refine ⟨[(w.word, w.value ++ spaces)], ?_, ?_⟩
      · rw [write_singleton, pairs_last (key?_text hw tail) hspan hlast, finish_eq_ok.2 ⟨hmore, rfl⟩]
        rfl
      · simp [entry, Written.entry, Written.key, trim_append_spaces hspaces]
    | cons w' ws =>
      obtain ⟨found, hfound, hentries⟩ := ih hws
      have hspan : Sections.span ';' none (w.value ++ ';' :: write (w' :: ws) tail) =
          (w.value, ';' :: write (w' :: ws) tail) := by
        rw [hw.value.span_append (by decide)]
        simp [Sections.span]
      have hmore : (key? (write (w' :: ws) tail)).isSome = true := by
        obtain ⟨rest, hrest⟩ := exists_write_cons w' ws tail
        rw [hrest, key?_text (hws w' List.mem_cons_self)]
        rfl
      refine ⟨(w.word, w.value) :: found, ?_, by rw [List.map_cons, hentries]; rfl⟩
      rw [write_cons, pairs_more (key?_text hw _) hspan hmore, hfound]
      rfl

/-- A text in which a key is read starts with a pair. -/
theorem exists_written_of_key? {cs word rest : List Char} (h : key? cs = some (word, rest)) :
    ∃ (w : Written) (more : List Char), w.Valid ∧ w.word = word ∧
      Sections.span ';' none rest = (w.value, more) ∧ cs = w.text ++ more := by
  obtain ⟨before, after, hbefore, hne, hword, hafter, rfl⟩ := exists_text_of_key? h
  obtain ⟨value, more, hspan⟩ : ∃ value more, Sections.span ';' none rest = (value, more) := ⟨_, _, rfl⟩
  have hrest : value ++ more = rest := by
    have happend := Sections.span_append ';' none rest
    rwa [hspan] at happend
  have hvalue : Sections.Closed ';' value := by
    have hclosed := (Sections.closed_span ';' rest).1
    rwa [hspan] at hclosed
  refine ⟨⟨before, word, after, value⟩, more, ⟨hbefore, hne, hword, hafter, hvalue⟩, rfl, hspan, ?_⟩
  simp [Written.text, hrest]

/-- What is read was written so. -/
theorem exists_write_of_pairs (cs : List Char) {found : List (List Char × List Char)} (h : pairs cs = .ok found) :
    ∃ ws tail, (∀ w ∈ ws, w.Valid) ∧ Ends tail ∧ cs = write ws tail ∧ found.map entry = ws.map Written.entry := by
  cases hkey : key? cs with
  | none =>
    rw [pairs_none hkey] at h
    obtain ⟨hends, rfl⟩ := finish_eq_ok.1 h
    exact ⟨[], cs, nofun, hends, rfl, rfl⟩
  | some pair =>
    obtain ⟨word, rest⟩ := pair
    obtain ⟨w, more, hw, hword, hspan, rfl⟩ := exists_written_of_key? hkey
    by_cases hnext : ∃ cs, more = ';' :: cs ∧ (key? cs).isSome = true
    · obtain ⟨cs, rfl, hsome⟩ := hnext
      rw [pairs_more hkey hspan hsome] at h
      obtain ⟨others, hothers, rfl⟩ := Outcome.map_eq_ok.1 h
      have hshorter : cs.length < (w.text ++ ';' :: cs).length := by
        simp only [List.length_append, List.length_cons]
        omega
      obtain ⟨ws, tail, hws, hends, rfl, hentries⟩ := exists_write_of_pairs cs hothers
      cases ws with
      | nil =>
        have hnone : key? (write [] tail) = none := key?_of_ends hends
        rw [hnone] at hsome
        cases hsome
      | cons w' ws =>
        refine ⟨w :: w' :: ws, tail, List.forall_mem_cons.2 ⟨hw, hws⟩, hends, (write_cons ..).symm, ?_⟩
        rw [List.map_cons, hentries, ← hword]
        rfl
    · have hlast : ∀ cs, more = ';' :: cs → key? cs = none := by
        intro cs hcs
        by_contra hsome
        exact hnext ⟨cs, hcs, Option.isSome_iff_ne_none.2 hsome⟩
      rw [pairs_last hkey hspan hlast] at h
      obtain ⟨others, hothers, rfl⟩ := Outcome.map_eq_ok.1 h
      obtain ⟨hends, rfl⟩ := finish_eq_ok.1 hothers
      refine ⟨[w], more, List.forall_mem_singleton.2 hw, hends, (write_singleton ..).symm, ?_⟩
      rw [← hword]
      rfl
termination_by cs.length

/-! ## Parameters -/

theorem lookup_isSome_iff {entries : List (String × String)} {key : String} :
    (entries.lookup key).isSome = true ↔ key ∈ entries.map Prod.fst := by
  rw [List.lookup_isSome_iff, List.mem_map]
  exact exists_congr fun e => and_congr_right fun _ => beq_iff_eq.trans eq_comm

theorem add_eq_ok {p p' : Params} {key value : List Char} {e : String × String} (he : entry (key, value) = e) :
    p.add key value = .ok p' ↔
      e.1 ∈ knownKeys ∧ e.1 ∉ p.entries.map Prod.fst ∧ p'.entries = p.entries ++ [e] := by
  have hadd : p.add key value = if e.1 ∉ knownKeys then .error (.parse (.unknownKey e.1))
      else if (p.entries.lookup e.1).isSome then .error (.parse (.duplicateKey e.1))
      else .ok ⟨p.entries ++ [e]⟩ := by
    rw [← he]
    rfl
  rw [hadd]
  by_cases hknown : e.1 ∈ knownKeys
  · by_cases htaken : e.1 ∈ p.entries.map Prod.fst
    · rw [if_neg (not_not.2 hknown), if_pos (lookup_isSome_iff.2 htaken)]
      exact ⟨nofun, fun h => absurd htaken h.2.1⟩
    · rw [if_neg (not_not.2 hknown), if_neg (mt lookup_isSome_iff.1 htaken)]
      constructor
      · intro h
        cases h
        exact ⟨hknown, htaken, rfl⟩
      · rintro ⟨-, -, h⟩
        rw [← h]
  · rw [if_pos hknown]
    exact ⟨nofun, fun h => absurd h.1 hknown⟩

/-- Pairs are added one after the other if their keys are known and differ from each other and from those before. -/
theorem foldlM_add {p p' : Params} (hp : (p.entries.map Prod.fst).Nodup) (found : List (List Char × List Char)) :
    found.foldlM (fun p (key, value) => p.add key value) p = .ok p' ↔
      (∀ e ∈ found.map entry, e.1 ∈ knownKeys) ∧ ((p.entries ++ found.map entry).map Prod.fst).Nodup ∧
        p'.entries = p.entries ++ found.map entry := by
  induction found generalizing p with
  | nil =>
    rw [List.foldlM_nil, List.map_nil, List.append_nil]
    constructor
    · intro h
      cases h
      exact ⟨nofun, hp, rfl⟩
    · rintro ⟨-, -, h⟩
      show Except.ok (Params.mk p.entries) = _
      rw [← h]
  | cons pair found ih =>
    obtain ⟨key, value⟩ := pair
    rw [List.foldlM_cons, Outcome.bind_eq_ok]
    have hsplit {q : Params} (hq : q.entries = p.entries ++ [entry (key, value)]) :
        q.entries ++ found.map entry = p.entries ++ ((key, value) :: found).map entry := by
      rw [hq, List.append_assoc, List.map_cons, List.singleton_append]
    constructor
    · rintro ⟨q, hq, h⟩
      obtain ⟨hknown, hfree, hq⟩ := (add_eq_ok rfl).1 hq
      have hnodup : (q.entries.map Prod.fst).Nodup := by
        rw [hq, List.map_append]
        exact hp.append (List.nodup_singleton _) (List.disjoint_singleton.2 hfree)
      obtain ⟨hothers, hall, hentries⟩ := (ih hnodup).1 h
      rw [hsplit hq] at hall hentries
      exact ⟨List.forall_mem_cons.2 ⟨hknown, hothers⟩, hall, hentries⟩
    · rintro ⟨hknown, hall, hentries⟩
      obtain ⟨hfirst, hothers⟩ := List.forall_mem_cons.1 hknown
      have hq : (⟨p.entries ++ [entry (key, value)]⟩ : Params).entries = p.entries ++ [entry (key, value)] := rfl
      rw [← hsplit hq] at hall hentries
      have hnodup : ((p.entries ++ [entry (key, value)]).map Prod.fst).Nodup := by
        rw [List.map_append] at hall
        exact hall.of_append_left
      have hfree : (entry (key, value)).1 ∉ p.entries.map Prod.fst := by
        rw [List.map_append] at hnodup
        exact List.disjoint_singleton.1 (List.disjoint_of_nodup_append hnodup)
      exact ⟨_, (add_eq_ok rfl).2 ⟨hfirst, hfree, rfl⟩, (ih hnodup).2 ⟨hothers, hall, hentries⟩⟩

/-- However a text is written as pairs, these are read. -/
theorem parse_of_write {text : String} {ws : List Written} {tail : List Char} (htext : text.toList = write ws tail)
    (hws : ∀ w ∈ ws, w.Valid) (htail : Ends tail) (hknown : ∀ w ∈ ws, w.key ∈ knownKeys)
    (hnodup : (ws.map Written.key).Nodup) : parse text = .ok ⟨ws.map Written.entry⟩ := by
  obtain ⟨found, hfound, hentries⟩ := pairs_write hws htail
  have hkeys : (ws.map Written.entry).map Prod.fst = ws.map Written.key := List.map_map
  unfold parse
  rw [htext, hfound]
  refine (foldlM_add (p := ⟨[]⟩) List.nodup_nil found).2 ⟨?_, ?_, ?_⟩
  · rw [hentries]
    exact List.forall_mem_map.2 hknown
  · rw [hentries]
    simpa only [List.nil_append, hkeys] using hnodup
  · rw [hentries]
    rfl

/-- A text is read exactly if it consists of pairs between semicolons, with known keys none of which is given twice, and
of what may stand behind the last pair. The parameters are then those pairs, however the text is taken apart. -/
theorem parse_eq_ok_iff {text : String} {p : Params} : parse text = .ok p ↔
    ∃ ws tail, text.toList = write ws tail ∧ (∀ w ∈ ws, w.Valid) ∧ Ends tail ∧
      (∀ w ∈ ws, w.key ∈ knownKeys) ∧ (ws.map Written.key).Nodup ∧ p.entries = ws.map Written.entry := by
  constructor
  · intro h
    unfold parse at h
    split at h
    · cases h
    · rename_i found hfound
      obtain ⟨ws, tail, hws, htail, htext, hentries⟩ := exists_write_of_pairs _ hfound
      obtain ⟨hknown, hnodup, hp⟩ := (foldlM_add (p := ⟨[]⟩) List.nodup_nil found).1 h
      have hkeys : (ws.map Written.entry).map Prod.fst = ws.map Written.key := List.map_map
      rw [hentries] at hknown hnodup hp
      refine ⟨ws, tail, htext, hws, htail, fun w hw => hknown _ (List.mem_map_of_mem hw), ?_, hp⟩
      simpa only [List.nil_append, hkeys] using hnodup
  · rintro ⟨ws, tail, htext, hws, htail, hknown, hnodup, hp⟩
    rw [parse_of_write htext hws htail hknown hnodup, ← hp]

end Params

end FragmentEngine
