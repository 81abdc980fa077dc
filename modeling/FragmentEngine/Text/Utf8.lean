/-!
# UTF-8

A character as one to four bytes, and back. Reading refuses overlong forms, surrogates and values past
the last code point, and says where the first bad sequence starts and how many of its bytes are bad.
-/

namespace FragmentEngine.Text.Utf8

/-- The bytes of one character. -/
def encodeChar (c : Char) : List UInt8 :=
  let n := c.toNat
  if n < 0x80 then [UInt8.ofNat n]
  else if n < 0x800 then [UInt8.ofNat (0xC0 + n / 64), UInt8.ofNat (0x80 + n % 64)]
  else if n < 0x10000 then
    [UInt8.ofNat (0xE0 + n / 4096), UInt8.ofNat (0x80 + n / 64 % 64), UInt8.ofNat (0x80 + n % 64)]
  else
    [UInt8.ofNat (0xF0 + n / 262144), UInt8.ofNat (0x80 + n / 4096 % 64),
      UInt8.ofNat (0x80 + n / 64 % 64), UInt8.ofNat (0x80 + n % 64)]

/-- The bytes of a text. -/
def encodeChars (cs : List Char) : List UInt8 := cs.flatMap encodeChar

/-- The bytes of a string. -/
def encode (s : String) : List UInt8 := encodeChars s.toList

/-- Where the bytes stop being text. -/
structure Invalid where
  /-- Number of bytes before the bad sequence. -/
  position : Nat
  /-- Length of the bad sequence, or none if the bytes end inside a character. -/
  length : Option Nat
  deriving DecidableEq

def Invalid.message (e : Invalid) : String :=
  match e.length with
  | some n => s!"invalid utf-8 sequence of {n} bytes from index {e.position}"
  | none => s!"incomplete utf-8 byte sequence from index {e.position}"

/-- A continuation byte. -/
def isTail (b : UInt8) : Bool := 0x80 ≤ b.toNat && b.toNat ≤ 0xBF

/-- Whether `b` may follow `a`, the first of three bytes: no overlong form, no surrogate. -/
def isSecondOfThree (a b : UInt8) : Bool :=
  (if a.toNat = 0xE0 then 0xA0 else 0x80) ≤ b.toNat && b.toNat ≤ (if a.toNat = 0xED then 0x9F else 0xBF)

/-- Whether `b` may follow `a`, the first of four bytes: no overlong form, nothing past U+10FFFF. -/
def isSecondOfFour (a b : UInt8) : Bool :=
  (if a.toNat = 0xF0 then 0x90 else 0x80) ≤ b.toNat && b.toNat ≤ (if a.toNat = 0xF4 then 0x8F else 0xBF)

/-- The characters of the bytes that stand after the first `pos`. -/
def decodeFrom (pos : Nat) : List UInt8 → Except Invalid (List Char)
  | [] => .ok []
  | a :: rest =>
    if a.toNat < 0x80 then
      return Char.ofNat a.toNat :: (← decodeFrom (pos + 1) rest)
    else if a.toNat < 0xC2 ∨ 0xF4 < a.toNat then .error ⟨pos, some 1⟩
    else match rest with
    | [] => .error ⟨pos, none⟩
    | b :: rest =>
      if a.toNat < 0xE0 then
        if isTail b then
          return Char.ofNat ((a.toNat - 0xC0) * 64 + (b.toNat - 0x80)) :: (← decodeFrom (pos + 2) rest)
        else .error ⟨pos, some 1⟩
      else if !(if a.toNat < 0xF0 then isSecondOfThree a b else isSecondOfFour a b) then
        .error ⟨pos, some 1⟩
      else match rest with
      | [] => .error ⟨pos, none⟩
      | c :: rest =>
        if !isTail c then .error ⟨pos, some 2⟩
        else if a.toNat < 0xF0 then
          return Char.ofNat ((a.toNat - 0xE0) * 4096 + (b.toNat - 0x80) * 64 + (c.toNat - 0x80)) ::
            (← decodeFrom (pos + 3) rest)
        else match rest with
        | [] => .error ⟨pos, none⟩
        | d :: rest =>
          if !isTail d then .error ⟨pos, some 3⟩
          else
            return Char.ofNat ((a.toNat - 0xF0) * 262144 + (b.toNat - 0x80) * 4096 +
              (c.toNat - 0x80) * 64 + (d.toNat - 0x80)) :: (← decodeFrom (pos + 4) rest)

/-- The characters of the bytes. -/
def decodeChars (bytes : List UInt8) : Except Invalid (List Char) := decodeFrom 0 bytes

/-- The string of the bytes. -/
def decode (bytes : List UInt8) : Except Invalid String := (decodeChars bytes).map String.ofList

theorem encodeChars_nil : encodeChars [] = [] := rfl

theorem encodeChars_append (s t : List Char) :
    encodeChars (s ++ t) = encodeChars s ++ encodeChars t := List.flatMap_append

example : encode "aé日😀" = [97, 195, 169, 230, 151, 165, 240, 159, 152, 128] := by decide +kernel

example : decode [97, 195, 169, 230, 151, 165, 240, 159, 152, 128] = .ok "aé日😀" := by rfl

example : decode [0x31, 0xE2, 0x82, 0x0A] = .error ⟨1, some 2⟩ := by rfl

example : decode [0xED, 0xA0, 0x80] = .error ⟨0, some 1⟩ := by rfl

end FragmentEngine.Text.Utf8
