import FragmentEngine.Proofs.Decimal.Whole
import FragmentEngine.Proofs.Outcome
import FragmentEngine.Server.Url
/-!
# Written addresses

Scheme, host, port and path are read from the address that is written from them, for every host that is a name. With a
host in brackets the address is read without a port only: a port behind the brackets stays with the host.
-/

namespace FragmentEngine.ConnectionUrl

/-- The port with the colon before it. -/
def portText : Option Nat → String
  | some n => ":" ++ toString n
  | none => ""

/-- The path with the slash before it; an empty path takes none. -/
def pathText (path : String) : String := if path.isEmpty then "" else "/" ++ path

/-- The address `scheme://host[:port][/path]`. -/
def text (u : ConnectionUrl) : String := u.scheme ++ "://" ++ u.host ++ portText u.port ++ pathText u.path

/-- A host that is a name. -/
structure IsName (host : List Char) : Prop where
  ne_nil : host ≠ []
  colon : ':' ∉ host
  slash : '/' ∉ host
  bracket : '[' ∉ host

/-- A host in brackets, such as `[::1]`. -/
def IsBracketed (host : List Char) : Prop := ∃ inner, '/' ∉ inner ∧ host = '[' :: (inner ++ [']'])

variable {host scheme rest : List Char} {port : Option Nat} {u : ConnectionUrl}

theorem IsBracketed.bracket (h : IsBracketed host) : '[' ∈ host := by
  obtain ⟨inner, -, rfl⟩ := h
  exact List.mem_cons_self

theorem IsBracketed.slash (h : IsBracketed host) : '/' ∉ host := by
  obtain ⟨inner, hinner, rfl⟩ := h
  simp [hinner]

/-! ## The parts -/

/-- The scheme ends at the first colon. -/
theorem splitScheme_append (h : ':' ∉ scheme) (rest : List Char) :
    splitScheme (scheme ++ ':' :: '/' :: '/' :: rest) = some (scheme, rest) := by
  induction scheme with
  | nil => rfl
  | cons c scheme ih =>
    rw [List.mem_cons, not_or] at h
    rw [List.cons_append, splitScheme, ih h.2]
    · rfl
    · rintro back rfl
      exact absurd rfl h.1

theorem not_mem_digits {c : Char} (hc : c.isDigit = false) (n : Nat) : c ∉ Decimal.digits n := by
  intro hmem
  rw [Decimal.isDigit_of_mem_digits hmem] at hc
  cases hc

theorem toList_portText (n : Nat) : (portText (some n)).toList = ':' :: Decimal.digits n := by
  simp [portText, Decimal.digits]

theorem slash_portText (port : Option Nat) : '/' ∉ (portText port).toList := by
  cases port with
  | none => decide
  | some n =>
    rw [toList_portText, List.mem_cons, not_or]
    exact ⟨by decide, not_mem_digits (by decide) n⟩

/-- The path starts at the first slash. -/
theorem split_pathText {address : List Char} (h : '/' ∉ address) (path : String) :
    (Text.splitOnce '/' (address ++ (pathText path).toList)).getD (address ++ (pathText path).toList, []) =
      (address, path.toList) := by
  unfold pathText
  split
  · rename_i hempty
    rw [String.isEmpty_iff.1 hempty, String.toList_empty, List.append_nil, Text.splitOnce_eq_none h]
    rfl
  · rw [String.toList_append]
    show (Text.splitOnce '/' (address ++ '/' :: path.toList)).getD _ = _
    rw [Text.splitOnce_append h]
    rfl

theorem hostPort_eq_none (h : ':' ∉ host) : hostPort host = .ok (host, none) := by
  unfold hostPort
  rw [Text.splitLast_eq_none h]

/-- The port follows a name. -/
theorem hostPort_name (h : IsName host) (hport : ∀ n, port = some n → n < Nat.pow 2 16) :
    hostPort (host ++ (portText port).toList) = .ok (host, port) := by
  cases port with
  | none =>
    show hostPort (host ++ []) = _
    rw [List.append_nil, hostPort_eq_none h.colon]
  | some n =>
    have hsplit : Text.splitLast ':' (host ++ ':' :: Decimal.digits n) = some (host, Decimal.digits n) :=
      Text.splitLast_append (not_mem_digits (by decide) n)
    unfold hostPort
    rw [toList_portText, hsplit]
    dsimp only
    rw [if_neg h.bracket, Decimal.word?_digits (hport n rfl)]

/-- Behind a bracket no colon starts a port. -/
theorem hostPort_bracketed (h : IsBracketed host) (rest : List Char) :
    hostPort (host ++ rest) = .ok (host ++ rest, none) := by
  obtain ⟨inner, -, rfl⟩ := h
  unfold hostPort
  rw [List.cons_append, Text.splitLast]
  -- wherever the last colon is, inside the brackets or behind them, the bracket stands before it
  cases Text.splitLast ':' (inner ++ [']'] ++ rest) with
  | none => rfl
  | some parts => exact if_pos List.mem_cons_self

/-! ## The address -/

/-- An address is read by what its host and port are read as. -/
theorem parse_of_hostPort (hscheme : ':' ∉ u.scheme.toList) (hslash : '/' ∉ u.host.toList) (hne : host ≠ [])
    (h : hostPort (u.host.toList ++ (portText u.port).toList) = .ok (host, port)) :
    parse u.text = .ok ⟨u.scheme, String.ofList host, port, u.path⟩ := by
  have htext : u.text.toList = u.scheme.toList ++ ':' :: '/' :: '/' ::
      (u.host.toList ++ (portText u.port).toList ++ (pathText u.path).toList) := by
    simp [text]
  have haddress : '/' ∉ u.host.toList ++ (portText u.port).toList :=
    fun hmem => (List.mem_append.1 hmem).elim hslash (slash_portText u.port)
  unfold parse
  rw [htext, splitScheme_append hscheme]
  dsimp only
  rw [split_pathText haddress]
  dsimp only
  rw [h, Outcome.ok_bind, if_neg (by simpa using hne), String.ofList_toList, String.ofList_toList]
  rfl

/-- The address that is written from a name, with or without a port and a path, is read as the parts it was written
from. With a host in brackets this holds without a port only: with one, the brackets, the colon and the port are the
host. -/
theorem parse_urlText (hscheme : ':' ∉ u.scheme.toList) (hhost : IsName u.host.toList ∨ IsBracketed u.host.toList)
    (hport : ∀ n, u.port = some n → n < Nat.pow 2 16) :
    (parse u.text = .ok u ↔ (IsBracketed u.host.toList → u.port = none)) ∧
      (IsBracketed u.host.toList → parse u.text = .ok { u with host := u.host ++ portText u.port, port := none }) := by
  rcases hhost with hname | hbracketed
  · have hread := parse_of_hostPort hscheme hname.slash hname.ne_nil (hostPort_name hname hport)
    rw [String.ofList_toList] at hread
    have hnot : ¬IsBracketed u.host.toList := fun h => hname.bracket h.bracket
    exact ⟨⟨fun _ h => absurd h hnot, fun _ => hread⟩, fun h => absurd h hnot⟩
  · have hne : u.host.toList ++ (portText u.port).toList ≠ [] :=
      List.append_ne_nil_of_left_ne_nil (List.ne_nil_of_mem hbracketed.bracket) _
    have hread := parse_of_hostPort hscheme hbracketed.slash hne (hostPort_bracketed hbracketed _)
    rw [← String.toList_append, String.ofList_toList] at hread
    refine ⟨⟨fun h _ => ?_, fun h => ?_⟩, fun _ => hread⟩
    · rw [hread] at h
      exact (congrArg port (Except.ok.inj h)).symm
    · obtain ⟨scheme, host, port, path⟩ := u
      cases h hbracketed
      rw [hread]
      exact congrArg Except.ok (by simp [portText])

/-- A name with a port, and a host in brackets without one. -/
theorem parse_urlText_bothHosts :
    parse "fragdb://localhost:5432/var/[a]:b" = .ok ⟨"fragdb", "localhost", some 5432, "var/[a]:b"⟩ ∧
      parse "fragdb://[::1]/a//b" = .ok ⟨"fragdb", "[::1]", none, "a//b"⟩ := by
  have hname : IsName "localhost".toList := ⟨by decide, by decide, by decide, by decide⟩
  have hbracketed : IsBracketed "[::1]".toList := ⟨"::1".toList, by decide, rfl⟩
  have hport : ∀ n, some 5432 = some n → n < Nat.pow 2 16 := by
    rintro n h
    cases h
    decide
  obtain ⟨hplain, -⟩ :=
    parse_urlText (u := ⟨"fragdb", "localhost", some 5432, "var/[a]:b"⟩) (by decide) (.inl hname) hport
  obtain ⟨hliteral, -⟩ := parse_urlText (u := ⟨"fragdb", "[::1]", none, "a//b"⟩) (by decide) (.inr hbracketed) nofun
  exact ⟨hplain.2 fun h => absurd h.bracket hname.bracket, hliteral.2 fun _ => rfl⟩

/-- The port behind a host in brackets is not read. -/
theorem bracketedPort_unread : IsBracketed "[::1]".toList ∧
    (⟨"fragdb", "[::1]", some 5432, "var/fragdb"⟩ : ConnectionUrl).text = "fragdb://[::1]:5432/var/fragdb" ∧
      parse "fragdb://[::1]:5432/var/fragdb" = .ok ⟨"fragdb", "[::1]:5432", none, "var/fragdb"⟩ ∧
      parse "fragdb://[::1]:5432/var/fragdb" ≠ .ok ⟨"fragdb", "[::1]", some 5432, "var/fragdb"⟩ := by
  have hread : parse "fragdb://[::1]:5432/var/fragdb" = .ok ⟨"fragdb", "[::1]:5432", none, "var/fragdb"⟩ := by
    decide +kernel
  refine ⟨⟨"::1".toList, by decide, rfl⟩, by decide +kernel, hread, ?_⟩
  rw [hread]
  decide +kernel

end FragmentEngine.ConnectionUrl
